import Mathlib.Data.List.Basic
import Dockge.Settings.Cache

namespace Dockge.Settings

open Dockge.Data

/-! Which runs leave the cache with what the table holds.

A call that has written a key and has not dropped its entry yet owes that, and as long as somebody
owes it, the entry may be old.
-/

variable {Text Json : Type} {parse : Text → Option Json} {state : State Text Json}
  {stage : Stage Text} {key : String} {index : Nat}

/-- The value of the row, if it is JSON. -/
def parsed (parse : Text → Option Json) (row : Option (Row Text)) : Option Json :=
  row.bind fun row => parse row.value

/-- An entry of the cache is the value of its row. -/
def Agrees (parse : Text → Option Json) (state : State Text Json) (key : String) : Prop :=
  ∀ value, state.cacheList key = some value → parsed parse (state.rows key) = some value

/-- The call has written the key and will drop its entry. -/
def Stage.owes (stage : Stage Text) (key : String) : Prop :=
  match stage with
  | .saving _ _ written => key ∈ written
  | .clearing keys => key ∈ keys
  | _ => False

def Owed (state : State Text Json) (index : Nat) (key : String) : Prop :=
  ∃ other stage, other ≠ index ∧ state.calls[other]? = some stage ∧ stage.owes key

/-- The step leaves no old entry behind that nobody owes: a reader does not keep a value that was
overwritten since, and a write beside a failed one meets no older entry. -/
def Kept (parse : Text → Option Json) (state : State Text Json) : Event Text → Prop
  | .advance index pick works => ∀ stage, state.calls[index]? = some stage →
      match stage with
      | .read key row => parsed parse row = none ∨ parsed parse row = parsed parse (state.rows key) ∨
          Owed state index key
      | .saving _ out written => ∀ statement, out[pick]? = some statement →
          (works = false ∨ statement.execute state.rows = none) →
          ∀ key ∈ written, Agrees parse state key ∨ Owed state index key
      | .rejected out => ∀ statement rows, out[pick]? = some statement → works = true →
          statement.execute state.rows = some rows → state.cacheList statement.key = none ∨
            state.cacheList statement.key = parsed parse (rows statement.key) ∨
            Owed state index statement.key
      | _ => True
  | _ => True

/-- No call is in flight. -/
def AtRest (state : State Text Json) : Prop :=
  ∀ stage ∈ state.calls, stage = .returned ∨ ∃ out, stage = .rejected out

/-! What is true of every state. -/

/-- The keys a call writes are among those whose entries it drops, and it reads no name that every
object answers to. -/
def Stage.WellFormed : Stage Text → Prop
  | .reading key => key ∉ inheritedNames
  | .read key _ => key ∉ inheritedNames
  | .listing keys _ toDo promises => (∀ entry ∈ toDo, entry.1 ∈ keys) ∧
      ∀ statement ∈ promises, statement.key ∈ keys
  | .saving keys out written => (∀ statement ∈ out, statement.key ∈ keys) ∧ ∀ key ∈ written, key ∈ keys
  | _ => True

structure Sound (parse : Text → Option Json) (state : State Text Json) : Prop where
  wellFormed : ∀ (index : Nat) (stage : Stage Text), state.calls[index]? = some stage → stage.WellFormed
  entries : ∀ key, Agrees parse state key ∨
    ∃ (index : Nat) (stage : Stage Text), state.calls[index]? = some stage ∧ stage.owes key
  inherited : ∀ key, key ∈ inheritedNames → state.cacheList key = none

theorem sound_initial (rows : String → Option (Row Text)) : Sound parse (initial rows : State Text Json) where
  wellFormed index stage found := by simp [initial] at found
  entries key := .inl fun value cached => by cases cached
  inherited key _ := rfl

/-- One call goes on, the others keep what they owe. -/
theorem Sound.advance (sound : Sound parse state) (found : state.calls[index]? = some stage)
    {after : State Text Json} {next : Stage Text} (calls : after.calls = state.calls.set index next)
    (wellFormed : next.WellFormed)
    (entries : ∀ key, ¬Owed state index key → Agrees parse state key ∨ stage.owes key →
      Agrees parse after key ∨ next.owes key)
    (inherited : ∀ key, key ∈ inheritedNames → after.cacheList key = none) : Sound parse after := by
  have bound : index < state.calls.length := (List.getElem?_eq_some_iff.mp found).1
  have here : after.calls[index]? = some next := by rw [calls, List.getElem?_set_self bound]
  have elsewhere : ∀ other, other ≠ index → after.calls[other]? = state.calls[other]? := by
    intro other apart
    rw [calls, List.getElem?_set_ne (Ne.symm apart)]
  refine ⟨?_, ?_, inherited⟩
  · intro other reached held
    by_cases same : other = index
    · subst same
      rw [here] at held
      cases held
      exact wellFormed
    · rw [elsewhere other same] at held
      exact sound.wellFormed other reached held
  · intro key
    by_cases owed : Owed state index key
    · obtain ⟨other, reached, apart, held, owes⟩ := owed
      exact .inr ⟨other, reached, by rw [elsewhere other apart]; exact held, owes⟩
    · have before : Agrees parse state key ∨ stage.owes key := by
        rcases sound.entries key with agrees | ⟨other, reached, held, owes⟩
        · exact .inl agrees
        · by_cases same : other = index
          · subst same
            rw [found] at held
            cases held
            exact .inr owes
          · exact absurd ⟨other, reached, same, held, owes⟩ owed
      rcases entries key owed before with agrees | owes
      · exact .inl agrees
      · exact .inr ⟨index, next, here, owes⟩

/-- The call does nothing to the table or the cache, and owed nothing. -/
theorem Sound.quiet (sound : Sound parse state) (found : state.calls[index]? = some stage)
    {next : Stage Text} (wellFormed : next.WellFormed) (free : ∀ key, stage.owes key → next.owes key) :
    Sound parse (state.put index next) := by
  refine sound.advance found rfl wellFormed ?_ sound.inherited
  intro key _ before
  rcases before with agrees | owes
  · exact .inl agrees
  · exact .inr (free key owes)

/-! Statements and the cache. -/

theorem execute_other {statement : Statement Text} {rows after : String → Option (Row Text)}
    (executed : statement.execute rows = some after) (apart : key ≠ statement.key) :
    after key = rows key := by
  cases statement with
  | insert name row =>
      simp only [Statement.execute] at executed
      split at executed
      · cases executed
        exact Function.update_of_ne apart _ _
      · cases executed
  | update name type value =>
      simp only [Statement.execute] at executed
      split at executed
      · cases executed
        rfl
      · cases executed
        exact Function.update_of_ne apart _ _

theorem Agrees.executed {statement : Statement Text} {rows : String → Option (Row Text)}
    (agrees : Agrees parse state key) (executed : statement.execute state.rows = some rows)
    (apart : key ≠ statement.key) : Agrees parse { state with rows := rows } key := by
  intro value cached
  change parsed parse (rows key) = some value
  rw [execute_other executed apart]
  exact agrees value cached

theorem agrees_dropped {keys : List String} (member : key ∈ keys) :
    Agrees parse (state.deleteCache keys) key := by
  intro value cached
  simp [State.deleteCache, member] at cached

theorem Agrees.dropped {keys : List String} (agrees : Agrees parse state key) :
    Agrees parse (state.deleteCache keys) key := by
  intro value cached
  simp only [State.deleteCache] at cached
  split at cached
  · cases cached
  · exact agrees value cached

theorem dropped_inherited {keys : List String} (sound : Sound parse state) (name : key ∈ inheritedNames) :
    (state.deleteCache keys).cacheList key = none := by
  simp only [State.deleteCache]
  split
  · rfl
  · exact sound.inherited key name

/-- A call that drops every entry it owes. -/
theorem Sound.clear (sound : Sound parse state) (found : state.calls[index]? = some stage)
    {keys : List String} (owes : ∀ key, stage.owes key → key ∈ keys) :
    Sound parse ((state.deleteCache keys).put index .returned) := by
  refine sound.advance found rfl trivial ?_ fun key name => dropped_inherited sound name
  intro key _ before
  rcases before with agrees | debt
  · exact .inl agrees.dropped
  · exact .inl (agrees_dropped (owes key debt))

/-- A statement of a call works, and the call owes its key if the entry is left old. -/
theorem Sound.write (sound : Sound parse state) (found : state.calls[index]? = some stage)
    {statement : Statement Text} {rows : String → Option (Row Text)}
    (executed : statement.execute state.rows = some rows) {next : Stage Text}
    (wellFormed : next.WellFormed) (keeps : ∀ key, stage.owes key → next.owes key)
    (own : ¬Owed state index statement.key →
      Agrees parse { state with rows := rows } statement.key ∨ next.owes statement.key) :
    Sound parse ({ state with rows := rows }.put index next) := by
  refine sound.advance found rfl wellFormed ?_ sound.inherited
  intro key free before
  by_cases same : key = statement.key
  · subst same
    exact own free
  · rcases before with agrees | owes
    · exact .inl (agrees.executed executed same)
    · exact .inr (keeps key owes)

theorem fill_none {row : Option (Row Text)} (read : parsed parse row = none) :
    state.fill parse key row = state := by
  unfold parsed at read
  simp only [State.fill, read]

theorem fill_some {row : Option (Row Text)} {value : Json} (read : parsed parse row = some value) :
    state.fill parse key row =
      { state with cacheList := Function.update state.cacheList key (some value) } := by
  unfold parsed at read
  simp only [State.fill, read]

/-- A reader keeps the value it read. -/
theorem Sound.fill (sound : Sound parse state) {row : Option (Row Text)}
    (found : state.calls[index]? = some (.read key row))
    (kept : parsed parse row = none ∨ parsed parse row = parsed parse (state.rows key) ∨
      Owed state index key) :
    Sound parse ((state.fill parse key row).put index .returned) := by
  have name := sound.wellFormed index _ found
  cases read : parsed parse row with
  | none =>
      rw [fill_none read]
      exact sound.quiet found trivial fun _ owes => owes.elim
  | some value =>
      rw [fill_some read]
      refine sound.advance found rfl trivial ?_ ?_
      · intro other free before
        by_cases same : other = key
        · subst same
          left
          intro entry cached
          have entry_eq : value = entry := by
            simpa [State.put] using cached
          subst entry_eq
          rcases kept with none | current | owed
          · rw [none] at read
            cases read
          · exact current.symm.trans read
          · exact absurd owed free
        · rcases before with agrees | owes
          · left
            intro entry cached
            refine agrees entry ?_
            simpa [State.put, Function.update_of_ne same] using cached
          · exact owes.elim
      · intro other inherits
        have apart : other ≠ key := by
          rintro rfl
          exact name inherits
        simpa [State.put, Function.update_of_ne apart] using sound.inherited other inherits

theorem list_wellFormed {keys : List String} {type : String} {toDo : List (String × Text)}
    {promises : List (Statement Text)} (entries : ∀ entry ∈ toDo, entry.1 ∈ keys)
    (statements : ∀ statement ∈ promises, statement.key ∈ keys) :
    (list keys type toDo promises).WellFormed := by
  unfold list
  split
  · exact ⟨statements, fun _ none => by cases none⟩
  · exact ⟨entries, statements⟩

theorem prepare_key {type : String} {value : Text} {setting : Option (Row Text)}
    {statement : Statement Text} (member : statement ∈ prepare type key value setting) :
    statement.key = key := by
  unfold prepare at member
  split at member
  · rw [List.mem_singleton.mp member]
    rfl
  · split at member
    · rw [List.mem_singleton.mp member]
      rfl
    · cases member

theorem firstStage_wellFormed (state : State Text Json) (call : Call Text) :
    (firstStage state call).WellFormed := by
  cases call with
  | get key =>
      simp only [firstStage]
      split
      · exact trivial
      · rename_i missed
        simp only [State.caches, Bool.or_eq_true, decide_eq_true_eq, not_or] at missed
        exact missed.2
  | set key type value => exact trivial
  | setSettings type data =>
      exact list_wellFormed (fun entry member => List.mem_map_of_mem member) fun _ none => by cases none

theorem Sound.start (sound : Sound parse state) (call : Call Text) :
    Sound parse { state with calls := state.calls ++ [firstStage state call] } where
  wellFormed index stage found := by
    rcases Nat.lt_trichotomy index state.calls.length with earlier | same | later
    · rw [List.getElem?_append_left earlier] at found
      exact sound.wellFormed index stage found
    · subst same
      rw [List.getElem?_concat_length] at found
      cases found
      exact firstStage_wellFormed state call
    · rw [List.getElem?_eq_none (by simp; omega)] at found
      cases found
  entries key := by
    rcases sound.entries key with agrees | ⟨index, stage, found, owes⟩
    · exact .inl agrees
    · have bound := (List.getElem?_eq_some_iff.mp found).1
      exact .inr ⟨index, stage, by rw [List.getElem?_append_left bound]; exact found, owes⟩
  inherited := sound.inherited

theorem Sound.expire (sound : Sound parse state) (key : String) : Sound parse (state.deleteCache [key]) where
  wellFormed := sound.wellFormed
  entries other := by
    rcases sound.entries other with agrees | owed
    · exact .inl agrees.dropped
    · exact .inr owed
  inherited _ name := dropped_inherited sound name

theorem Sound.resume (sound : Sound parse state) (found : state.calls[index]? = some stage) (pick : Nat)
    (works : Bool) (kept : Kept parse state (.advance index pick works)) :
    Sound parse (resume parse state index stage pick works) := by
  have own := sound.wellFormed index stage found
  have condition := kept stage found
  cases stage with
  | reading key =>
      simp only [Settings.resume]
      split
      · exact sound.quiet found own fun _ owes => owes.elim
      · exact sound.quiet found trivial fun _ owes => owes.elim
  | read key row => exact sound.fill found condition
  | looking key type value =>
      simp only [Settings.resume]
      split
      · exact sound.quiet found trivial fun _ owes => owes.elim
      · exact sound.quiet found trivial fun _ owes => owes.elim
  | writing statement =>
      simp only [Settings.resume]
      split
      · rename_i rows executed
        have ran : statement.execute state.rows = some rows := by
          cases works with
          | true => exact executed
          | false => cases executed
        exact sound.write found ran trivial (fun _ owes => owes.elim) fun _ =>
          .inr (List.mem_singleton_self _)
      · exact sound.quiet found trivial fun _ owes => owes.elim
  | listing keys type toDo promises =>
      cases toDo with
      | nil => exact sound
      | cons entry rest =>
          obtain ⟨key, value⟩ := entry
          simp only [Settings.resume]
          split
          · refine sound.quiet found (list_wellFormed ?_ ?_) fun _ owes => owes.elim
            · exact fun other member => own.1 other (List.mem_cons_of_mem _ member)
            · intro statement member
              rcases List.mem_append.mp member with earlier | added
              · exact own.2 statement earlier
              · rw [prepare_key added]
                exact own.1 (key, value) List.mem_cons_self
          · exact sound.quiet found trivial fun _ owes => owes.elim
  | saving keys out written =>
      cases out with
      | nil => exact sound.clear found fun key owes => own.2 key owes
      | cons first rest =>
          simp only [Settings.resume]
          cases picked : (first :: rest)[pick]? with
          | none => exact sound
          | some statement =>
              have among : statement ∈ first :: rest := List.mem_of_getElem? picked
              dsimp only
              split
              · rename_i rows executed
                have ran : statement.execute state.rows = some rows := by
                  cases works with
                  | true => exact executed
                  | false => cases executed
                refine sound.write found ran ⟨?_, ?_⟩ ?_ ?_
                · exact fun other member => own.1 other (List.mem_of_mem_eraseIdx member)
                · intro other member
                  rcases List.mem_cons.mp member with rfl | earlier
                  · exact own.1 statement among
                  · exact own.2 other earlier
                · exact fun other owes => List.mem_cons_of_mem _ owes
                · exact fun _ => .inr List.mem_cons_self
              · rename_i failed
                have why : works = false ∨ statement.execute state.rows = none := by
                  cases works with
                  | true => exact .inr failed
                  | false => exact .inl rfl
                refine sound.advance found rfl trivial ?_ sound.inherited
                intro key free before
                rcases before with agrees | owes
                · exact .inl agrees
                · exact .inl ((condition statement picked why key owes).resolve_right free)
  | clearing keys => exact sound.clear found fun _ owes => owes
  | returned => exact sound
  | rejected out =>
      simp only [Settings.resume]
      cases picked : out[pick]? with
      | none => exact sound
      | some statement =>
          dsimp only
          split
          · rename_i rows executed
            have ran : works = true ∧ statement.execute state.rows = some rows := by
              cases works with
              | true => exact ⟨rfl, executed⟩
              | false => cases executed
            refine sound.write found ran.2 trivial (fun _ owes => owes.elim) ?_
            intro free
            left
            intro value cached
            rcases condition statement rows picked ran.1 ran.2 with none | current | owed
            · rw [none] at cached
              cases cached
            · exact current.symm.trans cached
            · exact absurd owed free
          · exact sound.quiet found trivial fun _ owes => owes.elim

theorem step_sound (state : State Text Json) (event : Event Text) (sound : Sound parse state)
    (kept : Kept parse state event) : Sound parse (step parse state event) := by
  cases event with
  | start call => exact sound.start call
  | advance index pick works =>
      simp only [step]
      split
      · rename_i stage found
        exact sound.resume found pick works kept
      · exact sound
  | expire key => exact sound.expire key

/-- Whenever no call is in flight, the cache holds what the table holds, and so does every answer. -/
theorem coherent_at_rest (parse : Text → Option Json) (rows : String → Option (Row Text))
    (history : List (Event Text))
    (kept : Along (step parse) (Kept parse) (initial rows) history) :
    let state := replay (step parse) (initial rows) history
    AtRest state → (∀ key, Agrees parse state key) ∧
      ∀ key, key ∉ inheritedNames → get parse state key = foundIn parse (state.rows key) := by
  intro state rest
  have sound : Sound parse state := kept.invariant (sound_initial rows) step_sound
  have agrees : ∀ key, Agrees parse state key := by
    intro key
    rcases sound.entries key with agrees | ⟨index, stage, found, owes⟩
    · exact agrees
    · rcases rest stage (List.mem_of_getElem? found) with rfl | ⟨out, rfl⟩
      · exact owes.elim
      · exact owes.elim
  refine ⟨agrees, ?_⟩
  intro key plain
  unfold get
  cases cached : state.cacheList key with
  | none => simp [State.caches, cached, plain]
  | some value =>
      have same := agrees key value cached
      cases row : state.rows key with
      | none => simp [parsed, row] at same
      | some row' =>
          have json : parse row'.value = some value := by simpa [parsed, row] using same
          simp [State.caches, cached, foundIn, json]

/-- A table with one setting. -/
def oneRow : String → Option (Row Nat) := fun key =>
  if key = "a" then some { type := some "general", value := 1 } else none

/-- The setting is cached when two are saved, and the second of the two statements fails. -/
def halfSaved : List (Event Nat) :=
  [.start (.get "a"), .advance 0 0 true, .advance 0 0 true,
    .start (.setSettings "general" [("a", 2), ("b", 3)]), .advance 1 0 true, .advance 1 0 true,
    .advance 1 0 true, .advance 1 0 false]

theorem half_saved_stale :
    let state : State Nat Nat := replay (step some) (initial oneRow) halfSaved
    AtRest state ∧ ¬Agrees some state "a" := by
  refine ⟨?_, ?_⟩
  · intro stage member
    change stage ∈ [Stage.returned, Stage.rejected []] at member
    rcases List.mem_cons.mp member with rfl | last
    · exact .inl rfl
    · exact .inr ⟨[], List.mem_singleton.mp last⟩
  · intro agrees
    exact absurd (agrees 1 (by decide)) (by decide)

/-- A setting is read, changed and read again. -/
def changed : List (Event Nat) :=
  [.start (.get "a"), .advance 0 0 true, .advance 0 0 true, .start (.set "a" none 2), .advance 1 0 true,
    .advance 1 0 true, .advance 1 0 true, .start (.get "a"), .advance 2 0 true, .advance 2 0 true]

theorem coherent_at_rest_changed :
    get some (replay (step some) (initial oneRow) changed : State Nat Nat) "a" = .json 2 := by
  have kept : Along (step some) (Kept some) (initial oneRow : State Nat Nat) changed := by
    refine ⟨trivial, ?_, ?_, trivial, ?_, ?_, ?_, trivial, ?_, ?_, trivial⟩
    all_goals
      intro stage found
      cases found
      first
      | exact trivial
      | exact .inr (.inl rfl)
  have rest : AtRest (replay (step some) (initial oneRow) changed : State Nat Nat) := by
    intro stage member
    change stage ∈ [Stage.returned, Stage.returned, Stage.returned] at member
    left
    simpa using member
  exact (coherent_at_rest some oneRow changed kept rest).2 "a" (by decide)

end Dockge.Settings
