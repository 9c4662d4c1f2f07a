import Dockge.Git.DeployKeys

namespace Dockge.Git

open Data GitDeployKeys

/-! When a deploy key that was handed out stays the one in place. -/

namespace Stage

/-- A creation at this stage may have put halves in place. -/
def renamed : Stage → Bool
  | .renamesPublic | .removesPrivate _ | .removesPublic _ | .returned _ | .threw => true
  | .opens .created | .reads .created _ | .closes .created _ => true
  | _ => false

/-- The key that was read -/
def line : Stage → Option Nat
  | .reads _ key => some key
  | .closes _ line => line
  | _ => none

def renames : Stage → Bool
  | .renamesPrivate | .renamesPublic => true
  | _ => false

end Stage

/-- What a step of a call can have done -/
structure Advanced (keys after : GitDeployKeys) (call : Nat) (succeeds : Bool) (stage : Stage) : Prop where
  calls : ∃ next : Stage, after.calls = keys.calls.set call next ∧ (stage.renamed = true → next.renamed = true) ∧
    (stage = .renamesPrivate → succeeds = true → next.renamed = true) ∧
    ∀ key, next.line = some key → stage.line = some key ∨ keys.publicKey = some key
  privateKey : after.privateKey = if stage = .renamesPrivate ∧ succeeds = true then some call else keys.privateKey
  publicKey : after.publicKey = if stage = .renamesPublic ∧ succeeds = true then some call else keys.publicKey
  returned : after.returned = keys.returned ∨ ∃ key, stage.line = some key ∧ after.returned = keys.returned ++ [key]

variable {keys : GitDeployKeys} {call : Nat} {succeeds : Bool} {stage : Stage}

theorem goOn_advanced {next : Stage} (waits : stage.renames = false)
    (renamed : stage.renamed = true → next.renamed = true)
    (line : ∀ key, next.line = some key → stage.line = some key ∨ keys.publicKey = some key) :
    Advanced keys (keys.goOn call next) call succeeds stage := by
  have private_ : stage ≠ .renamesPrivate := by
    intro same
    rw [same] at waits
    cases waits
  have public_ : stage ≠ .renamesPublic := by
    intro same
    rw [same] at waits
    cases waits
  refine ⟨⟨next, rfl, renamed, fun same => absurd same private_, line⟩, ?_, ?_, .inl rfl⟩
  · rw [if_neg fun both => private_ both.1]
    rfl
  · rw [if_neg fun both => public_ both.1]
    rfl

/-- A call goes on without a key. -/
theorem goOn_without {next : Stage} (waits : stage.renames = false) (renamed : stage.renamed = true → next.renamed = true)
    (line : next.line = none) : Advanced keys (keys.goOn call next) call succeeds stage := by
  apply goOn_advanced waits renamed
  intro key same
  rw [line] at same
  cases same

theorem missing_advanced {reader : Reader} (waits : stage.renames = false)
    (renamed : stage.renamed = true → (Stage.opens reader).renamed = true) :
    Advanced keys (keys.missing call reader) call succeeds stage := by
  cases reader with
  | get => exact goOn_without waits (fun _ => rfl) rfl
  | existing => exact goOn_without waits renamed rfl
  | created => exact goOn_without waits (fun _ => rfl) rfl

theorem advance_advanced (keys : GitDeployKeys) (call : Nat) (succeeds : Bool) (stage : Stage) :
    Advanced keys (keys.advance call succeeds stage) call succeeds stage := by
  cases stage with
  | opens reader =>
      unfold advance
      dsimp only
      split
      next key there =>
        apply goOn_advanced rfl
        · cases reader <;> exact id
        · intro other same
          exact .inr (there.trans same)
      next => exact missing_advanced rfl id
  | reads reader key =>
      apply goOn_advanced rfl
      · cases reader <;> exact id
      · intro other same
        cases succeeds with
        | true => exact .inl same
        | false => cases same
  | closes reader line =>
      unfold advance
      dsimp only
      split
      next key =>
        apply Advanced.mk
        · exact ⟨.returned (some key), rfl, fun _ => rfl, fun _ _ => rfl, fun _ same => by cases same⟩
        · rfl
        · rfl
        · exact .inr ⟨key, rfl, rfl⟩
      next =>
        apply missing_advanced rfl
        cases reader <;> exact id
  | makesDir | changesDirMode | generates | changesMode =>
      apply goOn_without rfl
      · intro renamed
        cases renamed
      · cases succeeds <;> rfl
  | renamesPrivate =>
      cases succeeds with
      | true =>
          exact ⟨⟨.renamesPublic, rfl, fun _ => rfl, fun _ _ => rfl, fun _ same => by cases same⟩, rfl, rfl, .inl rfl⟩
      | false =>
          exact ⟨⟨.removesPrivate true, rfl, fun _ => rfl, fun _ _ => rfl, fun _ same => by cases same⟩, rfl, rfl, .inl rfl⟩
  | renamesPublic =>
      cases succeeds with
      | true =>
          exact ⟨⟨.removesPrivate false, rfl, fun _ => rfl, fun _ _ => rfl, fun _ same => by cases same⟩, rfl, rfl, .inl rfl⟩
      | false =>
          exact ⟨⟨.removesPrivate true, rfl, fun _ => rfl, fun _ _ => rfl, fun _ same => by cases same⟩, rfl, rfl, .inl rfl⟩
  | removesPrivate failed =>
      apply goOn_without rfl
      · cases succeeds <;> exact id
      · cases succeeds <;> rfl
  | removesPublic failed =>
      apply goOn_without rfl
      · cases succeeds <;> cases failed <;> exact id
      · cases succeeds <;> cases failed <;> rfl
  | returned key => exact goOn_without rfl id rfl
  | threw => exact goOn_without rfl id rfl

/-! ## Whose halves are in place -/

/-- The creation a key belongs to has come to its renames. -/
def GitDeployKeys.Made (keys : GitDeployKeys) (key : Nat) : Prop :=
  ∃ stage : Stage, keys.calls[key]? = some stage ∧ stage.renamed = true

def GitDeployKeys.Owned (keys : GitDeployKeys) : Prop :=
  ∀ key, keys.privateKey = some key ∨ keys.publicKey = some key → keys.Made key

theorem called_owned {new : Stage} (owned : keys.Owned) : GitDeployKeys.Owned { keys with calls := keys.calls ++ [new] } := by
  intro key there
  obtain ⟨stage, found, renamed⟩ := owned key there
  have within := (List.getElem?_eq_some_iff.mp found).1
  exact ⟨stage, (List.getElem?_append_left within).trans found, renamed⟩

theorem advance_owned (owned : keys.Owned) (found : keys.calls[call]? = some stage) :
    (keys.advance call succeeds stage).Owned := by
  obtain ⟨⟨next, calls, renamed, first, -⟩, privateKey, publicKey, -⟩ := advance_advanced keys call succeeds stage
  have within := (List.getElem?_eq_some_iff.mp found).1
  have own (later : next.renamed = true) : (keys.advance call succeeds stage).Made call :=
    ⟨next, by rw [calls, List.getElem?_set_self within], later⟩
  have kept (key : Nat) (made : keys.Made key) : (keys.advance call succeeds stage).Made key := by
    obtain ⟨held, found_, renamed_⟩ := made
    by_cases same : call = key
    · subst same
      rw [found] at found_
      cases found_
      exact own (renamed renamed_)
    · exact ⟨held, by rw [calls, List.getElem?_set_ne same, found_], renamed_⟩
  intro key there
  rw [privateKey, publicKey] at there
  obtain there | there := there
  · split at there
    next renames =>
      cases there
      exact own (first renames.1 renames.2)
    next => exact kept key (owned key (.inl there))
  · split at there
    next renames =>
      cases there
      exact own (renamed (by rw [renames.1]; rfl))
    next => exact kept key (owned key (.inr there))

theorem step_owned (owned : keys.Owned) (event : Event) : (step keys event).Owned := by
  cases event with
  | get => exact called_owned owned
  | create => exact called_owned owned
  | advance call succeeds =>
      cases found : keys.calls[call]? with
      | some stage =>
          rw [step, found]
          exact advance_owned owned found
      | none =>
          rw [step, found]
          exact owned
  | stop =>
      intro key there
      obtain ⟨stage, found, -⟩ := owned key there
      exact ⟨.threw, by rw [step, List.getElem?_map, found]; rfl, rfl⟩

/-- The halves in place stay a pair where nobody else is at work. -/
theorem step_paired_iff (owned : keys.Owned) (paired : keys.Paired) (event : Event) :
    (step keys event).Paired ↔ Alone keys event := by
  cases event with
  | get => exact ⟨fun _ => trivial, fun _ => paired⟩
  | create => exact ⟨fun _ => trivial, fun _ => paired⟩
  | stop => exact ⟨fun _ => trivial, fun _ => paired⟩
  | advance call succeeds =>
      cases found : keys.calls[call]? with
      | none =>
          rw [step, found]
          refine ⟨fun _ => ?_, fun _ => paired⟩
          cases succeeds with
          | true =>
              constructor <;> intro same <;> rw [found] at same <;> cases same
          | false => trivial
      | some stage =>
          rw [step, found]
          obtain ⟨-, privateKey, publicKey, -⟩ := advance_advanced keys call succeeds stage
          dsimp only
          rw [Paired, privateKey, publicKey]
          cases succeeds with
          | false => exact ⟨fun _ => trivial, fun _ => by simpa [Paired] using paired⟩
          | true =>
              simp only [Alone, found, Option.some.injEq, and_true]
              by_cases first : stage = .renamesPrivate
              · -- The public half of another creation would be left beside this private half.
                subst first
                have unmade : keys.publicKey ≠ some call := by
                  intro there
                  obtain ⟨stage, found_, renamed⟩ := owned call (.inr there)
                  cases found.symm.trans found_
                  cases renamed
                constructor
                · intro later
                  refine ⟨fun _ => ?_, fun same => by cases same⟩
                  cases there : keys.publicKey with
                  | none => rfl
                  | some key =>
                      have same := later key there
                      rw [if_pos rfl] at same
                      rw [there, ← Option.some.inj same] at unmade
                      exact absurd rfl unmade
                · intro alone key there
                  rw [if_neg (by simp), alone.1 rfl] at there
                  cases there
              · by_cases second : stage = .renamesPublic
                · subst second
                  simp only [reduceCtorEq, if_false, if_true, Option.some.injEq, forall_eq', forall_const, false_implies,
                    true_and]
                · simp only [first, second, if_false, false_implies, and_self, iff_true]
                  exact paired

/-! ## Keys that were handed out -/

/-- What was read or handed out is the public half in place. -/
structure GitDeployKeys.Lasting (keys : GitDeployKeys) : Prop where
  owned : keys.Owned
  paired : keys.Paired
  line : ∀ (call : Nat) (stage : Stage) (key : Nat), keys.calls[call]? = some stage → stage.line = some key →
    keys.publicKey = some key
  returned : ∀ key ∈ keys.returned, keys.publicKey = some key

theorem GitDeployKeys.Lasting.handed (lasting : keys.Lasting) : keys.Handed := by
  constructor
  · intro key member other member_
    exact Option.some.inj ((lasting.returned key member).symm.trans (lasting.returned other member_))
  · intro key member
    exact lasting.paired key (lasting.returned key member)

theorem called_lasting (lasting : keys.Lasting) {new : Stage} (fresh : new.line = none) :
    GitDeployKeys.Lasting { keys with calls := keys.calls ++ [new] } where
  owned := called_owned lasting.owned
  paired := lasting.paired
  line call stage key found read := by
    rw [List.getElem?_append] at found
    split at found
    · exact lasting.line call stage key found read
    · have same := List.mem_singleton.mp (List.mem_of_getElem? found)
      rw [same, fresh] at read
      cases read
  returned := lasting.returned

theorem advance_lasting (lasting : keys.Lasting) (found : keys.calls[call]? = some stage)
    (alone : Alone keys (.advance call succeeds)) : (keys.advance call succeeds stage).Lasting := by
  have paired := (step_paired_iff lasting.owned lasting.paired _).mpr alone
  rw [step, found] at paired
  obtain ⟨⟨next, calls, -, -, line⟩, -, publicKey, returned⟩ := advance_advanced keys call succeeds stage
  have kept (key : Nat) (there : keys.publicKey = some key) : (keys.advance call succeeds stage).publicKey = some key := by
    rw [publicKey]
    split
    next renames =>
      -- The private half is its own, and belongs to the public half that is there already.
      obtain ⟨rfl, rfl⟩ := renames
      exact (alone.2 found).symm.trans (lasting.paired key there)
    next => exact there
  refine ⟨advance_owned lasting.owned found, paired, ?_, ?_⟩
  · intro other held key found_ read
    rw [calls] at found_
    by_cases same : call = other
    · subst same
      rw [List.getElem?_set_self (List.getElem?_eq_some_iff.mp found).1] at found_
      cases found_
      obtain earlier | there := line key read
      · exact kept key (lasting.line call stage key found earlier)
      · exact kept key there
    · rw [List.getElem?_set_ne same] at found_
      exact kept key (lasting.line other held key found_ read)
  · intro key member
    obtain same | ⟨new, read, same⟩ := returned
    · rw [same] at member
      exact kept key (lasting.returned key member)
    · rw [same] at member
      obtain earlier | last := List.mem_append.mp member
      · exact kept key (lasting.returned key earlier)
      · rw [List.mem_singleton.mp last]
        exact kept new (lasting.line call stage new found read)

theorem step_lasting (lasting : keys.Lasting) (event : Event) (alone : Alone keys event) : (step keys event).Lasting := by
  cases event with
  | get => exact called_lasting lasting rfl
  | create => exact called_lasting lasting rfl
  | advance call succeeds =>
      cases found : keys.calls[call]? with
      | some stage =>
          rw [step, found]
          exact advance_lasting lasting found alone
      | none =>
          rw [step, found]
          exact lasting
  | stop =>
      refine ⟨step_owned lasting.owned .stop, lasting.paired, ?_, lasting.returned⟩
      intro call stage key found read
      rw [step, List.getElem?_map] at found
      obtain ⟨earlier, -, rfl⟩ := Option.map_eq_some_iff.mp found
      cases read

theorem empty_lasting : ({} : GitDeployKeys).Lasting where
  owned key there := by
    obtain there | there := there <;> cases there
  paired key there := by cases there
  line call stage key found _ := by
    rw [List.getElem?_nil] at found
    cases found
  returned key member := by cases member

/-- The halves in place are of one key in every state of a run exactly where creations do not get in each other's way,
and then all calls that returned a key returned the one that `keyFile` names the private half of. -/
theorem handed_key_stays (history : List Event) :
    ((∀ before after, history = before ++ after → (replay step {} before).Paired) ↔ Along step Alone {} history) ∧
    (Along step Alone {} history → ∀ before after, history = before ++ after → (replay step {} before).Handed) := by
  constructor
  · exact Along.every_iff empty_lasting.owned empty_lasting.paired (fun _ event owned => step_owned owned event)
      fun _ event owned paired => step_paired_iff owned paired event
  · intro alone before after same
    subst same
    have lasting := alone.append_left.invariant empty_lasting fun _ event lasting alone => step_lasting lasting event alone
    exact lasting.handed

/-- Two creations both find no key. -/
def createdTwice : List Event :=
  [.create, .create, .advance 0 true, .advance 1 true] ++ List.replicate 11 (.advance 0 true) ++
    List.replicate 5 (.advance 1 true)

theorem handed_key_replaced : (replay step {} createdTwice).returned = [0] ∧
    (replay step {} createdTwice).keyFile true = some 1 ∧ ¬ (replay step {} createdTwice).Handed := by
  have returned : (replay step {} createdTwice).returned = [0] := by decide
  have named : (replay step {} createdTwice).keyFile true = some 1 := by decide
  refine ⟨returned, named, ?_⟩
  intro handed
  have first := handed.2 0 (by rw [returned]; exact List.mem_singleton_self 0)
  rw [named] at first
  cases first

end Dockge.Git
