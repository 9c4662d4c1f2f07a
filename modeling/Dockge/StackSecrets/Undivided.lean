import Dockge.StackSecrets.Whole
import Dockge.StackWrite.Touching

namespace Dockge.StackSecrets

open Dockge.Data
open Dockge.StackConfig (Found StackFileConfig resolveConfig)
open Dockge.StackWrite

/-! A run that is not torn keeps each call whole. -/

variable {Hash : Type} {host : Host Hash} {start : Disk Hash StackFileConfig}
  {state : State Hash} {call : Nat} {task : Task} {scan : Found} {parts : List Part} {fates : List Fate}

/-! ### Steps that leave the disk as it is -/

theorem neutral_of_kept (host : Host Hash) (start : Disk Hash StackFileConfig) (log : List Entry)
    {entries : List Entry} (only : entries = [] ∨ entries = [.kept call]) :
    Neutral host start entries log ∧
      selectionAfter (start.selections host.name) (entries ++ log) =
        selectionAfter (start.selections host.name) log := by
  rcases only with rfl | rfl
  · exact ⟨rfl, rfl⟩
  · exact ⟨rfl, rfl⟩

/-- The call goes on without a word. -/
theorem moves_quietly {stage : Stage} (between : task.stage.between = true → stage.between = true)
    (past : ∀ secret, task.request = .secret secret → stage.past = true → task.stage.past = true)
    (unreturned : stage ≠ .returned) (decided : Decided host task.request stage) :
    Moves host call task [] stage where
  own := by simp
  wrote := by
    intro before
    exact .inl (between (before.resolve_left (by simp [Wrote])))
  composed := by
    intro secret asked reached
    exact .inr (past secret asked (reached.resolve_right (by simp [Stored])))
  returned := fun returned => absurd returned unreturned
  decided := decided

theorem decided_rejected {request : Request} : Decided host request .rejected :=
  Decided.of_plain rfl

theorem rejects_quietly (before : task.stage.between = false) : Moves host call task [] .rejected :=
  moves_quietly (by simp [before]) (fun _ _ past => by cases past) (by simp) decided_rejected

/-- What a write finds: no lock, no journal that plans a write, and the files as the calls left them. -/
theorem Held.texts_of_unplanned (held : Held host start state) (unplanned : Unplanned state.disk) :
    Texts host start state.disk.bytes state.log := by
  cases held with
  | free _ texts _ => exact texts
  | cleaning _ _ _ _ _ _ _ texts _ => exact texts
  | reverting _ save takenBack => exact takenBack.unplanned unplanned

theorem unlocked_of_locked (free : state.locked = false) : ∀ task ∈ state.tasks, task.stage.locks = false := by
  simpa [State.locked] using free

/-- The names of journals stay free. -/
theorem fresh_of_framed {save : Save Hash StackFileConfig} {disk : Disk Hash StackFileConfig}
    (fresh : Fresh save.start) (framed : save.Framed disk) : Fresh disk := by
  rcases framed.named with ⟨named, journals, marked⟩ | named
  · have named : disk.nextId = save.start.nextId := named
    constructor
    · intro id bound
      rw [journals]
      exact fresh.journals id (named ▸ bound)
    · intro id bound
      rw [marked]
      exact fresh.marked id (named ▸ bound)
  · have later {id : Nat} (bound : disk.nextId ≤ id) : save.own < id := by
      rw [named] at bound
      exact bound
    constructor
    · intro id bound
      rw [framed.journals id (Nat.ne_of_gt (later bound))]
      exact fresh.journals id (Nat.le_of_lt (later bound))
    · intro id bound member
      rcases framed.marked id member with earlier | own
      · exact fresh.marked id (Nat.le_of_lt (later bound)) earlier
      · exact Nat.ne_of_gt (later bound) own

/-- The write of a compose file that holds the text the call has read. -/
theorem sound_write (target : StackFileTarget Hash) {composeYAML : String} (fresh : Fresh state.disk)
    (unplanned : Unplanned state.disk)
    (held : state.disk.bytes target.name = some (encodeUtf8 composeYAML.toList)) :
    ({ start := state.disk, targets := [target], metadata := none } : Save Hash StackFileConfig).Sound where
  fresh := fresh.journals _ (Nat.le_refl _)
  unmarked := fresh.marked _ (Nat.le_refl _)
  others := by
    intro id journal _ there manifest planned
    rw [unplanned id journal there] at planned
    cases planned
  selected := by
    intro metadata same
    cases same
  survives := by
    intro other member bytes there
    obtain rfl := List.mem_singleton.mp member
    obtain rfl : encodeUtf8 composeYAML.toList = bytes := Option.some.inj (held.symm.trans there)
    exact transcode_encodeUtf8 _

section
variable [DecidableEq Hash]

theorem Kept.read (Next : Stage → Prop) (Throws : Prop) (kept : Kept host start state)
    (found : state.tasks[call]? = some task) (free : task.stage.locks = false)
    (only : ∀ ending, task.entries call fates ending = [] ∨ task.entries call fates ending = [.kept call])
    (met : (task.next host scan parts fates state.disk).Meets
      (fun stage reached => state.disk = reached ∧ Next stage) (fun _ reached => state.disk = reached ∧ Throws)
      (state.disk = ·))
    (next : ∀ stage, Next stage →
      stage.locks = false ∧ Moves host call task (task.entries call fates (.done stage)) stage)
    (throws : Throws → Moves host call task [] .rejected)
    (unsaid : ∀ error, task.entries call fates (.threw error) = [])
    (untold : task.entries call fates .killed = [])
    (stops : stageOf (task.next host scan parts fates state.disk).ending = none → state.Quiet) :
    Kept host start (advance host state call task scan parts fates) := by
  unfold advance
  generalize task.next host scan parts fates state.disk = outcome at met stops ⊢
  obtain ⟨ending, reached, rest⟩ := outcome
  obtain ⟨neutral, same⟩ := neutral_of_kept host start state.log (only ending)
  cases ending with
  | done stage =>
      obtain ⟨rfl, held⟩ := met
      obtain ⟨unlocks, moves⟩ := next stage held
      refine kept.settle found (same ▸ kept.selection) kept.fresh ?_ ?_ (fun stopped => by cases stopped)
      · refine kept.held.settle found free ?_ stops rfl rfl rfl neutral
        rintro _ ⟨⟩
        exact unlocks
      · rintro _ ⟨⟩
        exact moves
  | threw error =>
      obtain ⟨rfl, threw⟩ := met
      refine kept.settle found (same ▸ kept.selection) kept.fresh ?_ ?_ (fun stopped => by cases stopped)
      · refine kept.held.settle found free ?_ stops rfl rfl rfl neutral
        rintro _ ⟨⟩
        rfl
      · rintro _ ⟨⟩
        change Moves host call task (task.entries call fates (.threw error)) .rejected
        rw [unsaid error]
        exact throws threw
  | killed =>
      obtain rfl : state.disk = reached := met
      refine kept.settle found (same ▸ kept.selection) kept.fresh ?_ (fun _ stopped => by cases stopped)
        fun _ => ⟨stops rfl, untold⟩
      refine kept.held.settle found free ?_ stops rfl rfl rfl neutral
      rintro _ ⟨⟩

/-- A call reads the stored selection. -/
theorem loading_kept (kept : Kept host start state) (found : state.tasks[call]? = some task)
    (stage : task.stage = .loading)
    (stops : stageOf (task.next host scan parts fates state.disk).ending = none → state.Quiet) :
    Kept host start (advance host state call task scan parts fates) := by
  have silent : ∀ ending, task.entries call fates ending = [] := by simp [Task.entries, stage]
  let Next (next : Stage) : Prop := ∃ loaded, (∃ secret, next = .reading secret loaded) ∨
    (∃ change, task.request = .other change) ∧ next = .storing loaded false
  refine kept.read Next True found (by rw [stage]; rfl) (fun ending => .inl (silent ending))
    ?_ ?_ (fun _ => rejects_quietly (by rw [stage]; rfl)) (fun error => silent _) (silent _) stops
  · have each : Ensures Fate.Any (task.next host scan parts) state.disk
        (fun stage reached => state.disk = reached ∧ Next stage)
        (fun _ reached => state.disk = reached ∧ True) (state.disk = ·) := by
      unfold Task.next
      rw [stage]
      dsimp only
      refine Ensures.bind (fun _ reached => state.disk = reached)
        (onDisk_ensures (fun reached => state.disk = reached ∧ True)
          (Ensures.mono (getAll_ensures any_ok rfl rfl rfl) (fun _ _ => id) (fun _ _ same => ⟨same, trivial⟩)
            fun _ => id)) ?_
      rintro all _ rfl
      cases asked : task.request with
      | secret secret => exact Ensures.pure ⟨rfl, _, .inl ⟨secret, rfl⟩⟩
      | other change => exact Ensures.pure ⟨rfl, _, .inr ⟨⟨change, asked⟩, rfl⟩⟩
    exact (each fates fun _ _ => trivial).1
  · intro next reached
    rw [silent]
    obtain ⟨loaded, ⟨secret, rfl⟩ | ⟨⟨change, asked⟩, rfl⟩⟩ := reached
    · refine ⟨rfl, moves_quietly (by simp [stage, Stage.between]) (fun _ _ past => by cases past) (by simp) ?_⟩
      exact Decided.of_plain rfl
    · refine ⟨rfl, moves_quietly (by simp [stage, Stage.between]) ?_ (by simp) ?_⟩
      · intro secret secretly
        rw [asked] at secretly
        cases secretly
      · exact Decided.of_plain rfl

/-- A call reads the compose text. -/
theorem reading_kept {secret : Secret} {loaded : Loaded} (kept : Kept host start state)
    (found : state.tasks[call]? = some task) (stage : task.stage = .reading secret loaded)
    (stops : stageOf (task.next host scan parts fates state.disk).ending = none → state.Quiet) :
    Kept host start (advance host state call task scan parts fates) := by
  have silent : ∀ ending, task.entries call fates ending = [] := by simp [Task.entries, stage]
  let Next (next : Stage) : Prop := ∃ composeYAML, next = .checking secret loaded composeYAML
  refine kept.read Next True found (by rw [stage]; rfl) (fun ending => .inl (silent ending))
    ?_ ?_ (fun _ => rejects_quietly (by rw [stage]; rfl)) (fun error => silent _) (silent _) stops
  · have each : Ensures Fate.Any (task.next host scan parts) state.disk
        (fun stage reached => state.disk = reached ∧ Next stage)
        (fun _ reached => state.disk = reached ∧ True) (state.disk = ·) := by
      unfold Task.next
      rw [stage]
      dsimp only
      refine Ensures.bind (fun _ reached => state.disk = reached)
        ((readSelectedFile_ensures _).mono (fun _ _ => id) (fun _ _ same => ⟨same, trivial⟩) fun _ => id) ?_
      rintro composeYAML _ rfl
      refine Ensures.bind (fun _ reached => state.disk = reached) ?_ ?_
      · unfold refuse
        split
        · exact Ensures.fail ⟨rfl, trivial⟩
        · exact Ensures.pure rfl
      · rintro _ _ rfl
        exact Ensures.pure ⟨rfl, composeYAML, rfl⟩
    exact (each fates fun _ _ => trivial).1
  · intro next reached
    obtain ⟨composeYAML, rfl⟩ := reached
    rw [silent]
    refine ⟨rfl, moves_quietly (by simp [stage, Stage.between]) (fun _ _ past => by cases past) (by simp) ?_⟩
    exact Decided.of_plain rfl

/-- A call edits the compose document. -/
theorem checking_kept {secret : Secret} {loaded : Loaded} {composeYAML : String} (kept : Kept host start state)
    (found : state.tasks[call]? = some task) (stage : task.stage = .checking secret loaded composeYAML)
    (stops : stageOf (task.next host scan parts fates state.disk).ending = none → state.Quiet) :
    Kept host start (advance host state call task scan parts fates) := by
  let Next (next : Stage) : Prop := next = .storing loaded false ∨
    ∃ text, secret.text host.library composeYAML = .ok (some text) ∧ next = .writing secret loaded composeYAML text
  refine kept.read Next True found (by rw [stage]; rfl) ?_
    ?_ ?_ (fun _ => rejects_quietly (by rw [stage]; rfl)) ?_ ?_ stops
  · intro ending
    cases ending with
    | done next => cases next <;> simp [Task.entries, stage]
    | threw error => simp [Task.entries, stage]
    | killed => simp [Task.entries, stage]
  · have each : Ensures Fate.Any (task.next host scan parts) state.disk
        (fun stage reached => state.disk = reached ∧ Next stage)
        (fun _ reached => state.disk = reached ∧ True) (state.disk = ·) := by
      unfold Task.next
      rw [stage]
      dsimp only
      refine Ensures.bind (fun _ reached => state.disk = reached)
        ((accessSecret_ensures _).mono (fun _ _ => id) (fun _ _ same => ⟨same, trivial⟩) fun _ => id) ?_
      rintro _ _ rfl
      cases text : secret.text host.library composeYAML with
      | error error => exact Ensures.fail ⟨rfl, trivial⟩
      | ok next =>
          cases next with
          | none => exact Ensures.pure ⟨rfl, .inl rfl⟩
          | some next => exact Ensures.pure ⟨rfl, .inr ⟨next, text, rfl⟩⟩
    exact (each fates fun _ _ => trivial).1
  · intro next reached
    rcases reached with rfl | ⟨text, decided, rfl⟩
    · refine ⟨rfl, ?_⟩
      have noted : task.entries call fates (.done (.storing loaded false)) = [.kept call] := by
        simp [Task.entries, stage]
      rw [noted]
      refine ⟨by simp [Entry.call], ?_, fun _ _ _ => .inl (.inr (by simp)), (by simp), ?_⟩
      · simp [Wrote, stage, Stage.between]
      · exact Decided.of_plain rfl
    · refine ⟨rfl, ?_⟩
      have silent : task.entries call fates (.done (.writing secret loaded composeYAML text)) = [] := by
        simp [Task.entries, stage]
      rw [silent]
      refine moves_quietly (by simp [stage, Stage.between]) (fun _ _ past => by cases past) (by simp) ⟨?_, ?_⟩
      · rintro _ _ _ _ ⟨⟩
        exact decided
      · intro _ _ _ which
        rcases which with same | same <;> cases same
  · simp [Task.entries, stage]
  · simp [Task.entries, stage]

/-- A call reads the selections it will write back. -/
theorem storing_kept {loaded : Loaded} {wrote : Bool} (kept : Kept host start state)
    (found : state.tasks[call]? = some task) (stage : task.stage = .storing loaded wrote)
    (stops : stageOf (task.next host scan parts fates state.disk).ending = none → state.Quiet) :
    Kept host start (advance host state call task scan parts fates) := by
  have silent : ∀ ending, task.entries call fates ending = [] := by simp [Task.entries, stage]
  let Next (next : Stage) : Prop := ∃ all : String → Option StackFileConfig,
    all host.name = some (task.request.change loaded.config) ∧ next = .looking loaded wrote all
  refine kept.read Next False found (by rw [stage]; rfl) (fun ending => .inl (silent ending))
    ?_ ?_ (fun absurd => absurd.elim) (fun error => silent _) (silent _) stops
  · have each : Ensures Fate.Any (task.next host scan parts) state.disk
        (fun stage reached => state.disk = reached ∧ Next stage)
        (fun _ reached => state.disk = reached ∧ False) (state.disk = ·) := by
      unfold Task.next
      rw [stage]
      dsimp only
      refine onDisk_ensures (fun reached => state.disk = reached ∧ False) ?_
      refine Ensures.bind (fun _ reached => state.disk = reached) ?_ ?_
      · refine Ensures.operation any_ok ?_
        intro fate _
        cases fate <;> rfl
      rintro all _ rfl
      exact Ensures.pure ⟨rfl, _, by simp, rfl⟩
    exact (each fates fun _ _ => trivial).1
  · intro next reached
    obtain ⟨all, edited, rfl⟩ := reached
    rw [silent]
    refine ⟨rfl, moves_quietly (by simp [stage, Stage.between]) (by simp [stage, Stage.past]) (by simp) ⟨?_, ?_⟩⟩
    · intro _ _ _ _ same
      cases same
    · intro _ _ _ which
      rcases which with same | same <;> cases same
      exact edited

/-- A call looks up the row it will write; one that has written the compose file does not fail here. -/
theorem looking_kept {loaded : Loaded} {wrote : Bool} {all : String → Option StackFileConfig}
    (kept : Kept host start state) (found : state.tasks[call]? = some task)
    (stage : task.stage = .looking loaded wrote all) (whole : wrote = true → fates.headD .ok = .ok)
    (stops : stageOf (task.next host scan parts fates state.disk).ending = none → state.Quiet) :
    Kept host start (advance host state call task scan parts fates) := by
  have silent : ∀ ending, task.entries call fates ending = [] := by simp [Task.entries, stage]
  have edited := (kept.told call task found).decided.selection loaded wrote all (.inl stage)
  refine kept.read (· = .setting loaded wrote all) (wrote = false) found
    (by rw [stage]; rfl) (fun ending => .inl (silent ending)) ?_ ?_ ?_ (fun error => silent _) (silent _) stops
  · unfold Task.next
    rw [stage]
    dsimp only
    have unwritten (fails : fates.headD .ok ≠ .ok) : wrote = false := by
      cases wrote with
      | false => rfl
      | true => exact absurd (whole rfl) fails
    cases fates with
    | nil => exact ⟨rfl, rfl⟩
    | cons fate rest =>
        cases fate with
        | ok => exact ⟨rfl, rfl⟩
        | fail => exact ⟨rfl, unwritten (by simp)⟩
        | late => exact ⟨rfl, unwritten (by simp)⟩
        | kill => exact rfl
  · rintro _ rfl
    rw [silent]
    refine ⟨rfl, moves_quietly (by simp [stage, Stage.between]) (by simp [stage, Stage.past]) (by simp) ⟨?_, ?_⟩⟩
    · intro _ _ _ _ same
      cases same
    · intro _ _ _ which
      rcases which with same | same <;> cases same
      exact edited
  · intro unwritten
    exact rejects_quietly (by rw [stage]; exact unwritten)

/-- The row of the selections is written over the selection the call has read. -/
theorem setting_kept {loaded : Loaded} {wrote : Bool} {all : String → Option StackFileConfig}
    (kept : Kept host start state) (found : state.tasks[call]? = some task)
    (stage : task.stage = .setting loaded wrote all) (whole : wrote = true → takesEffect fates = true)
    (current : takesEffect fates = true →
      resolveConfig (state.disk.selections host.name) loaded.found = loaded.config)
    (stops : stageOf (task.next host scan parts fates state.disk).ending = none → state.Quiet) :
    Kept host start (advance host state call task scan parts fates) := by
  have edited := (kept.told call task found).decided.selection loaded wrote all (.inr stage)
  have free : task.stage.locks = false := by rw [stage]; rfl
  -- Where the row was written
  have took (effective : takesEffect fates = true) (reached : Stage)
      (ended : reached = .returned ∨ reached = .rejected) :
      Kept host start (state.settle call task [.stored call task.request loaded.found]
        { state.disk with selections := all } (some reached)) := by
    have unlocks : reached.locks = false := by rcases ended with rfl | rfl <;> rfl
    refine kept.settle found ?_ ⟨kept.fresh.journals, kept.fresh.marked⟩ ?_ ?_ (fun stopped => by cases stopped)
    · change all host.name = some (task.request.change (resolveConfig
        (selectionAfter (start.selections host.name) state.log) loaded.found))
      rw [← kept.selection, current effective]
      exact edited
    · refine kept.held.settle found free ?_ (fun stopped => by cases stopped) rfl rfl rfl rfl
      rintro _ ⟨⟩
      exact unlocks
    · rintro _ ⟨⟩
      have stored : Stored [.stored call task.request loaded.found] call :=
        ⟨task.request, loaded.found, List.mem_cons_self⟩
      refine ⟨by simp [Entry.call], fun _ => .inr stored, ?_, fun _ => stored, ?_⟩
      · intro _ _ _
        right
        rw [stage]
        rfl
      · rcases ended with rfl | rfl <;>
          exact Decided.of_plain rfl
  -- Where it was not
  have not_took (ineffective : takesEffect fates = false) (reached : Option Stage)
      (rejected : ∀ next, reached = some next → next = .rejected) (quiet : reached = none → state.Quiet) :
      Kept host start (state.settle call task [] state.disk reached) := by
    refine kept.settle found kept.selection kept.fresh ?_ ?_ fun stopped => ⟨quiet stopped, rfl⟩
    · refine kept.held.settle found free ?_ quiet rfl rfl rfl rfl
      intro next same
      rw [rejected next same]
      rfl
    · intro next same
      rw [rejected next same]
      refine rejects_quietly ?_
      rw [stage]
      cases wrote with
      | false => rfl
      | true => simp [whole rfl] at ineffective
  unfold advance at *
  unfold Task.next at stops ⊢
  rw [stage] at stops ⊢
  have entries (ending : Ending CallError Stage) : task.entries call fates ending =
      if takesEffect fates then [.stored call task.request loaded.found] else [] := by
    simp [Task.entries, stage]
  dsimp only
  rw [entries]
  cases fates with
  | nil => exact took rfl .returned (.inl rfl)
  | cons fate rest =>
      cases fate with
      | ok => exact took rfl .returned (.inl rfl)
      | late => exact took rfl .rejected (.inr rfl)
      | fail => exact not_took rfl (some .rejected) (by simp) (by simp)
      | kill => exact not_took rfl none (by simp) fun _ => stops rfl

/-- The journal of the written file goes, and the lock with it. -/
theorem cleaning_kept {loaded : Loaded} {journal : Nat} (kept : Kept host start state)
    (found : state.tasks[call]? = some task) (stage : task.stage = .cleaning loaded journal)
    (whole : ∀ fate ∈ fates, fate = .ok) :
    Kept host start (advance host state call task scan parts fates) := by
  have silent : ∀ ending, task.entries call fates ending = [] := by simp [Task.entries, stage]
  let Clean (reached : Disk Hash StackFileConfig) : Prop := reached.journals journal = none ∧
    (∀ id, id ≠ journal → reached.journals id = state.disk.journals id) ∧ reached.files = state.disk.files ∧
      reached.selections = state.disk.selections ∧ reached.nextId = state.disk.nextId ∧
      reached.marked = state.disk.marked
  have each : Ensures (· = .ok) (task.next host scan parts) state.disk
      (fun next reached => next = .storing loaded true ∧ Clean reached) (fun _ _ => False) (fun _ => False) := by
    unfold Task.next
    rw [stage]
    dsimp only
    refine onDisk_ensures (fun _ => False) (Ensures.bind _ removeJournal_undisturbed ?_)
    intro _ reached clean
    exact Ensures.pure ⟨rfl, clean⟩
  have met := (each fates whole).1
  unfold advance
  generalize task.next host scan parts fates state.disk = outcome at met ⊢
  obtain ⟨ending, disk, rest⟩ := outcome
  cases ending with
  | threw error => exact met.elim
  | killed => exact met.elim
  | done next =>
      obtain ⟨rfl, gone, others, files, selections, nextId, marked⟩ := met
      dsimp only
      rw [silent]
      refine kept.settle found ?_ ?_ ?_ ?_ (fun stopped => by cases stopped)
      · rw [selections]
        exact kept.selection
      · constructor
        · intro id bound
          by_cases same : id = journal
          · rw [same]
            exact gone
          · rw [others id same]
            exact kept.fresh.journals id (nextId ▸ bound)
        · intro id bound
          rw [marked]
          exact kept.fresh.marked id (nextId ▸ bound)
      · have locks : task.stage.locks = true := by rw [stage]; rfl
        cases kept.held with
        | free unlocked _ _ =>
            rw [unlocked task (List.mem_of_getElem? found)] at locks
            cases locks
        | reverting unlocked _ _ =>
            rw [unlocked task (List.mem_of_getElem? found)] at locks
            cases locks
        | cleaning owner holder _ owned there cleaning only texts plans =>
            obtain rfl : call = owner := only call task found locks
            rw [found] at there
            cases there
            rw [stage] at cleaning
            cases cleaning
            refine .free ?_ ?_ ?_
            · intro other member
              change other ∈ state.tasks.set call { task with stage := .storing loaded true } at member
              obtain ⟨index, bound, same⟩ := List.mem_iff_getElem.mp member
              have there : (state.tasks.set call { task with stage := .storing loaded true })[index]? =
                  some other := List.getElem?_eq_some_iff.mpr ⟨bound, same⟩
              by_cases own : call = index
              · subst own
                rw [List.getElem?_set_self (List.getElem?_eq_some_iff.mp found).1] at there
                cases there
                rfl
              · rw [List.getElem?_set_ne own] at there
                cases held : other.stage.locks with
                | false => rfl
                | true => exact absurd (only index other there held).symm own
            · intro fileName
              change disk.bytes fileName = _
              rw [Disk.bytes, files]
              exact texts fileName
            · intro id left held
              change disk.journals id = some left at held
              by_cases same : id = journal
              · subst same
                have gone : disk.journals id = none := gone
                rw [gone] at held
                cases held
              · have kept : disk.journals id = state.disk.journals id := others id same
                exact plans id left same (kept ▸ held)
      · rintro _ ⟨⟩
        refine moves_quietly (fun _ => rfl) (by simp [stage, Stage.past]) (by simp) ?_
        exact Decided.of_plain rfl

/-! ### The write of the compose file -/

/-- What a step that writes the compose file leaves when it does not write it. -/
def Left (sha256 : Bytes → Hash) (save : Save Hash StackFileConfig) (disk : Disk Hash StackFileConfig) : Prop :=
  save.start = disk ∨ save.Sound ∧ save.Reverting sha256 disk ∧ save.Framed disk

/-- What it leaves when it does: the text the call has read was there. -/
structure Landed (host : Host Hash) (save : Save Hash StackFileConfig) (loaded : Loaded) (composeYAML : String)
    (next : Stage) (disk : Disk Hash StackFileConfig) : Prop where
  read : save.start.bytes loaded.composeFileName = some (encodeUtf8 composeYAML.toList)
  done : save.Done host.sha256 disk
  framed : save.Framed disk
  stage : next = .cleaning loaded save.own ∨ next = .storing loaded false ∧ disk.journals save.own = none

theorem writing_ensures (scan : Found) (parts : List Part) {secret : Secret} {loaded : Loaded} {composeYAML next : String}
    (injective : Function.Injective host.sha256) (fresh : Fresh state.disk) (unplanned : Unplanned state.disk)
    (stage : task.stage = .writing secret loaded composeYAML next)
    {save : Save Hash StackFileConfig}
    (same : save = { start := state.disk, targets := [composeTarget host loaded composeYAML next], metadata := none }) :
    Ensures Atomic (task.next host scan parts) state.disk (Landed host save loaded composeYAML)
      (fun _ => Left host.sha256 save) (Left host.sha256 save) := by
  subst same
  unfold Task.next
  rw [stage]
  dsimp only
  refine onDisk_ensures _ ?_
  refine Ensures.bind _ (validateTargets_ensures _ fun _ => .inl rfl) ?_
  rintro _ _ ⟨rfl, small⟩
  by_cases read : state.disk.bytes loaded.composeFileName = some (encodeUtf8 composeYAML.toList)
  · have sound := sound_write (composeTarget host loaded composeYAML next) fresh unplanned read
    have both := (writeLocked_ensures parts injective sound small (by simp)).and (writeLocked_framed host.sha256 parts)
    refine Ensures.bind _ (both.mono (fun _ _ => id) ?_ ?_) ?_
    · intro error disk failed
      exact .inr ⟨sound, failed.1.reverting, failed.2⟩
    · intro disk stopped
      exact .inr ⟨sound, stopped.1, stopped.2⟩
    · rintro ⟨result, journal⟩ disk ⟨⟨done, _, opened⟩, framed⟩
      rcases opened with same | ⟨same, gone⟩
      · change journal = some _ at same
        subst same
        exact Ensures.pure ⟨read, done, framed, .inl rfl⟩
      · change journal = none at same
        subst same
        exact Ensures.pure ⟨read, done, framed, .inr ⟨rfl, gone⟩⟩
  · have mismatch : some (hashStackFileContent host.sha256 composeYAML) ≠
        state.disk.hashOf host.sha256 loaded.composeFileName := by
      intro agree
      cases held : state.disk.bytes loaded.composeFileName with
      | none => simp [Disk.hashOf, held] at agree
      | some bytes =>
          rw [Disk.hashOf, held] at agree
          have same : encodeUtf8 composeYAML.toList = bytes := injective (Option.some.inj agree)
          exact read (same ▸ held)
    refine Ensures.bind (fun _ _ => False) ((writeLocked_conflict atomic_ok rfl mismatch).mono (fun _ _ => id)
      (fun _ _ => .inl) fun _ => .inl) ?_
    intro _ _ absurd
    exact absurd.elim

omit [DecidableEq Hash] in
theorem rewritten_read {secret : Secret} {composeYAML next : String}
    (text : secret.text host.library composeYAML = .ok (some next)) :
    rewritten host.library secret (encodeUtf8 composeYAML.toList) = encodeUtf8 next.toList := by
  rw [rewritten, decodeUtf8_encodeUtf8, String.ofList_toList, text]

/-- The compose file is written, or what is left of the write can be taken back. -/
theorem writing_kept {secret : Secret} {loaded : Loaded} {composeYAML next : String}
    (injective : Function.Injective host.sha256) (kept : Kept host start state)
    (found : state.tasks[call]? = some task) (stage : task.stage = .writing secret loaded composeYAML next)
    (free : state.locked = false) (atomic : ∀ fate ∈ fates, Atomic fate) (unplanned : Unplanned state.disk)
    (stops : stageOf (task.next host scan parts fates state.disk).ending = none → state.Quiet) :
    Kept host start (advance host state call task scan parts fates) := by
  have bound := (List.getElem?_eq_some_iff.mp found).1
  have unlocked := unlocked_of_locked free
  have before := kept.held.texts_of_unplanned unplanned
  have unlocks : task.stage.locks = false := by rw [stage]; rfl
  generalize asked : (⟨state.disk, [composeTarget host loaded composeYAML next], none⟩ :
    Save Hash StackFileConfig) = save
  have origin : save.start = state.disk := by rw [← asked]
  have plain : save.metadata = none := by rw [← asked]
  have targets : save.targets = [composeTarget host loaded composeYAML next] := by rw [← asked]
  have others {disk : Disk Hash StackFileConfig} (framed : save.Framed disk) (id : Nat)
      (journal : Journal Hash StackFileConfig) (other : id ≠ save.own) (held : disk.journals id = some journal) :
      journal.manifest = none := by
    rw [framed.journals id other, origin] at held
    exact unplanned id journal held
  have selection {disk : Disk Hash StackFileConfig} (framed : save.Framed disk) :
      disk.selections host.name = selectionAfter (start.selections host.name) state.log := by
    rw [framed.selections plain, origin]
    exact kept.selection
  have fresh {disk : Disk Hash StackFileConfig} (framed : save.Framed disk) : Fresh disk :=
    fresh_of_framed (origin ▸ kept.fresh) framed
  -- Where the file was not written
  have left {disk : Disk Hash StackFileConfig} (leaves : Left host.sha256 save disk) (reached : Option Stage)
      (rejected : ∀ next, reached = some next → next = .rejected) (quiet : reached = none → state.Quiet) :
      Kept host start (state.settle call task [] disk reached) := by
    have moves : ∀ next, reached = some next → Moves host call task [] next := by
      intro next same
      rw [rejected next same]
      exact rejects_quietly (by rw [stage]; rfl)
    have unlocking : ∀ next, reached = some next → next.locks = false := by
      intro next same
      rw [rejected next same]
      rfl
    rcases leaves with same | ⟨sound, reverting, framed⟩
    · obtain rfl : state.disk = disk := origin ▸ same
      refine kept.settle found kept.selection kept.fresh ?_ moves fun stopped => ⟨quiet stopped, rfl⟩
      exact kept.held.settle found unlocks unlocking quiet rfl rfl rfl rfl
    · refine kept.settle found (selection framed) (fresh framed) ?_ moves fun stopped => ⟨quiet stopped, rfl⟩
      exact .reverting (unlocked_settle unlocked unlocking) save
        ⟨reverting, plain, sound.survives, origin ▸ before, framed.files, others framed⟩
  have met := (writing_ensures scan parts injective kept.fresh unplanned stage asked.symm
    fates atomic).1
  unfold advance
  generalize task.next host scan parts fates state.disk = outcome at met stops ⊢
  obtain ⟨ending, disk, rest⟩ := outcome
  cases ending with
  | threw error =>
      have silent : task.entries call fates (.threw error) = [] := by simp [Task.entries, stage]
      dsimp only
      rw [silent]
      exact left met (some .rejected) (by simp) (by simp)
  | killed =>
      have silent : task.entries call fates .killed = [] := by simp [Task.entries, stage]
      dsimp only
      rw [silent]
      exact left met none (by simp) fun _ => stops rfl
  | done reached =>
      obtain ⟨read, done, framed, which⟩ := met
      have noted : task.entries call fates (.done reached) =
          [.composed call secret loaded.composeFileName reached.locks] := by simp [Task.entries, stage]
      dsimp only
      rw [noted]
      have texts : Texts host start disk.bytes
          (.composed call secret loaded.composeFileName reached.locks :: state.log) := by
        intro fileName
        unfold bytesAfter
        split
        · rename_i same
          have new : disk.bytes loaded.composeFileName = some (encodeUtf8 next.toList) :=
            done.new (composeTarget host loaded composeYAML next) (by simp [targets])
          have decided := (kept.told call task found).decided.text secret loaded composeYAML next stage
          rw [origin] at read
          rw [← same, new, ← before loaded.composeFileName, read, Option.map_some, rewritten_read decided]
        · rename_i different
          have absent : fileName ∉ save.targets.map (·.name) := by
            rw [targets]
            simpa [composeTarget] using Ne.symm different
          rw [Disk.bytes, framed.files fileName absent, origin]
          exact before fileName
      have composed : Composed [.composed call secret loaded.composeFileName reached.locks] call :=
        .inl ⟨secret, loaded.composeFileName, reached.locks, List.mem_cons_self⟩
      have undecided : Decided host task.request reached := by
        rcases which with rfl | ⟨rfl, _⟩ <;>
          exact Decided.of_plain rfl
      refine kept.settle found (selection framed) (fresh framed) ?_ ?_ (fun stopped => by cases stopped)
      · rcases which with rfl | ⟨rfl, gone⟩
        · refine .cleaning call { task with stage := .cleaning loaded save.own } loaded save.own ?_ rfl ?_ texts
            (others framed)
          · exact List.getElem?_set_self bound
          · intro other later there locks
            change (state.tasks.set call { task with stage := .cleaning loaded save.own })[other]? = some later
              at there
            by_cases same : call = other
            · exact same.symm
            · rw [List.getElem?_set_ne same] at there
              rw [unlocked later (List.mem_of_getElem? there)] at locks
              cases locks
        · refine .free (unlocked_settle unlocked ?_) texts ?_
          · rintro _ ⟨⟩
            rfl
          · intro id journal held
            by_cases own : id = save.own
            · rw [own] at held
              exact absurd (held.symm.trans gone) (by simp)
            · exact others framed id journal own held
      · rintro _ ⟨⟩
        refine ⟨by simp [Entry.call], ?_, fun _ _ _ => .inl composed, ?_, undecided⟩
        swap
        · rcases which with rfl | ⟨rfl, _⟩ <;> simp
        intro written
        have wrote : Wrote [.composed call secret loaded.composeFileName reached.locks] call :=
          written.resolve_right (by simp [stage, Stage.between])
        obtain ⟨_, _, member⟩ := wrote
        rcases which with rfl | ⟨rfl, _⟩
        · exact .inl rfl
        · simp [Stage.locks] at member

end

end Dockge.StackSecrets
