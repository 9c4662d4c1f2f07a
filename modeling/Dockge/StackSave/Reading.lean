import Dockge.StackSave.Save
import Dockge.StackWrite.Answered

namespace Dockge.StackSave

open Dockge.Data
open Dockge.StackConfig (Found StackFileConfig resolveConfig)
open Dockge.StackWrite

/-! What a page and a save read of a site. -/

variable {Hash α β : Type} {site : Site Hash} {name : String}

/-! ### Programs that only read -/

/-- However the program ends, the site is as it was. -/
def Looks (program : SiteTask Hash α) : Prop :=
  ∀ site, Ensures Fate.Any program site (fun _ reached => site = reached) (fun _ reached => site = reached)
    (site = ·)

namespace Looks

theorem pure (value : α) : Looks (Pure.pure value : SiteTask Hash α) := fun _ => Ensures.pure rfl

theorem bind {first : SiteTask Hash β} {next : β → SiteTask Hash α} (before : Looks first)
    (after : ∀ value, Looks (next value)) : Looks (first >>= next) := by
  intro site
  refine Ensures.bind (fun _ reached => site = reached) (before site) ?_
  intro value _ same
  subst same
  exact after value site

theorem answering (answer : Site Hash → α) (failed : α) : Looks (answering answer failed) := by
  intro site
  refine Ensures.operation any_ok ?_
  intro fate _
  cases fate <;> exact rfl

theorem refuse (error : Option SaveError) : Looks (refuse error : SiteTask Hash Unit) := by
  intro site
  cases error with
  | none => exact Ensures.pure rfl
  | some error => exact Ensures.fail rfl

theorem under {own : List Fate} {program : SiteTask Hash α} (looks : Looks program) :
    Looks (Program.under own program) :=
  fun site => Ensures.under (fun _ _ => trivial) (looks site)

theorem readAll : Looks (onDisk getAll : SiteTask Hash (String → Option StackFileConfig)) := by
  intro site
  refine Ensures.zoom ?_
  exact getAll_ensures any_ok rfl rfl rfl

end Looks

theorem constructed_looks (names : List String) : Looks (constructed names : SiteTask Hash String) := by
  induction names with
  | nil => exact Looks.pure _
  | cons filename rest ih =>
      refine Looks.bind (Looks.answering _ _) ?_
      intro there
      cases there with
      | true => exact Looks.pure _
      | false => exact ih

theorem statEntries_looks (entries : List String) :
    Looks (statEntries entries : SiteTask Hash (List String)) := by
  induction entries with
  | nil => exact Looks.pure _
  | cons entry rest ih =>
      exact Looks.bind (Looks.answering _ _) fun _ => Looks.bind ih fun _ => Looks.pure _

theorem loadFileConfig_looks (name built : String) :
    Looks (loadFileConfig name built : SiteTask Hash Loaded) := by
  have scans : Looks (scan : SiteTask Hash Found) :=
    Looks.bind (Looks.answering _ _) fun entries => Looks.bind (statEntries_looks entries) fun _ => Looks.pure _
  exact Looks.bind scans fun _ => Looks.bind Looks.readAll fun _ => Looks.pure _

theorem check_looks (request : Request Hash) (built : String) : Looks (check request built) :=
  Looks.bind (loadFileConfig_looks _ _) fun _ => Looks.bind (Looks.refuse _) fun _ =>
    Looks.bind (Looks.answering _ _) fun _ => Looks.bind (Looks.refuse _) fun _ => Looks.pure _

theorem envAdoption_looks (name : String) (loaded : Loaded) (shouldWriteEnv : Bool) :
    Looks (envAdoption name loaded shouldWriteEnv : SiteTask Hash _) := by
  unfold envAdoption
  split
  · exact Looks.pure _
  · exact Looks.bind Looks.readAll fun _ => Looks.pure _

/-! ### What they answer where nothing fails -/

def Site.built (site : Site Hash) : String :=
  (acceptedComposeFileNames.find? site.present).getD "compose.yaml"

def Site.found (site : Site Hash) : Found := byKind (site.entries.filter site.present)

/-- The files the stack uses. -/
def Site.loaded (site : Site Hash) (name : String) : Loaded :=
  loadedFrom site.built (resolveConfig (site.disk.selections name) site.found)

/-- The program answers this, and leaves the site as it is. -/
def Answers (program : SiteTask Hash α) (site : Site Hash) (value : α) : Prop :=
  Ensures (· = .ok) program site (fun answer reached => answer = value ∧ site = reached) (fun _ _ => False)
    fun _ => False

namespace Answers

theorem pure {value : α} : Answers (Pure.pure value : SiteTask Hash α) site value := Ensures.pure ⟨rfl, rfl⟩

theorem bind {first : SiteTask Hash β} {next : β → SiteTask Hash α} {middle : β} {value : α}
    (before : Answers first site middle) (after : Answers (next middle) site value) :
    Answers (first >>= next) site value := by
  refine Ensures.bind _ before ?_
  intro answer reached held
  obtain ⟨rfl, rfl⟩ := held
  exact after

theorem answering {answer : Site Hash → α} {failed : α} : Answers (answering answer failed) site (answer site) := by
  refine Ensures.operation rfl ?_
  intro fate same
  subst same
  exact ⟨rfl, rfl⟩

theorem readAll : Answers (onDisk getAll) site site.disk.selections := by
  refine Ensures.zoom (Ensures.operation rfl ?_)
  intro fate same
  subst same
  exact ⟨rfl, rfl⟩

end Answers

theorem constructed_answers (names : List String) :
    Answers (constructed names) site ((names.find? site.present).getD "compose.yaml") := by
  induction names with
  | nil => exact Answers.pure
  | cons filename rest ih =>
      refine Answers.bind Answers.answering ?_
      rw [List.find?_cons]
      cases site.present filename with
      | true => exact Answers.pure
      | false => exact ih

theorem statEntries_answers (entries : List String) :
    Answers (statEntries entries) site (entries.filter site.present) := by
  induction entries with
  | nil => exact Answers.pure
  | cons entry rest ih =>
      refine Answers.bind Answers.answering (Answers.bind ih ?_)
      rw [List.filter_cons]
      exact Answers.pure

theorem loadFileConfig_answers (name built : String) :
    Answers (loadFileConfig name built) site
      (loadedFrom built (resolveConfig (site.disk.selections name) site.found)) := by
  have scans : Answers scan site site.found := by
    refine Answers.bind Answers.answering (Answers.bind (statEntries_answers _) ?_)
    rw [List.filter_filter, Site.found]
    simp only [Bool.and_self]
    exact Answers.pure
  exact Answers.bind scans (Answers.bind Answers.readAll Answers.pure)

end Dockge.StackSave
