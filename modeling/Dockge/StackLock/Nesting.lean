import Dockge.StackLock.Exclusion

namespace Dockge.StackLock

/-! Which calls an operation made, and what its store knows of it. -/

variable {Dir Key : Type} {resolve : Dir → Key} {state : State Key} {calls : List (Call Key)}
  {call other : Call Key} {outer id : Nat} {key : Key}

/-- The call was made inside the operation of the outer one, at any depth. -/
inductive Within (calls : List (Call Key)) (outer : Nat) : Nat → Prop
  | made {id : Nat} {call : Call Key} (found : calls[id]? = some call)
      (caller : call.caller = some outer) : Within calls outer id
  | deeper {id between : Nat} {call : Call Key} (found : calls[id]? = some call)
      (caller : call.caller = some between) (rest : Within calls outer between) : Within calls outer id

theorem Within.trans {middle : Nat} (inner : Within calls middle id) (rest : Within calls outer middle) :
    Within calls outer id := by
  induction inner with
  | made found caller => exact .deeper found caller rest
  | deeper found caller _ ih => exact .deeper found caller ih

/-- The call was made inside an operation on its own directory. -/
def Nested (calls : List (Call Key)) (id : Nat) : Prop :=
  ∃ call outer around, calls[id]? = some call ∧ Within calls outer id ∧ calls[outer]? = some around ∧
    around.key = call.key

/-- A call and what its caller gave it. -/
structure Made (calls : List (Call Key)) (id : Nat) (call : Call Key) : Prop where
  store : match call.caller with
    | none => call.owned = []
    | some caller => caller < id ∧ ∃ around, calls[caller]? = some around ∧ call.owned = around.store
  entry : call.queues = false ↔ call.key ∈ call.owned
  atOnce : call.queues = false → call.phase ≠ .waiting

def AllMade (calls : List (Call Key)) : Prop :=
  ∀ id call, calls[id]? = some call → Made calls id call

theorem Call.Becomes.store {after : Call Key} (becomes : call.Becomes after) : after.store = call.store := by
  simp only [Call.store, becomes.entry, becomes.key, becomes.owned]

theorem Made.becomes {before after : List (Call Key)} (made : Made before id call)
    (becomes : call.Becomes other)
    (forward : ∀ (m : Nat) (call : Call Key), before[m]? = some call →
      ∃ later, after[m]? = some later ∧ call.Becomes later) : Made after id other := by
  refine ⟨?_, ?_, ?_⟩
  · rw [becomes.caller, becomes.owned]
    have store := made.store
    cases caller : call.caller with
    | none => simpa only [caller] using store
    | some caller' =>
        simp only [caller] at store
        obtain ⟨earlier, around, found, same⟩ := store
        obtain ⟨later, held, on⟩ := forward caller' around found
        exact ⟨earlier, later, held, by rw [on.store]; exact same⟩
  · rw [becomes.queues, becomes.key, becomes.owned]
    exact made.entry
  · intro nested
    exact becomes.begun (made.atOnce (by rw [← becomes.queues]; exact nested))

theorem AllMade.modify {change : Call Key → Call Key} (all : AllMade state.calls)
    (found : state.calls[id]? = some call) (becomes : call.Becomes (change call)) :
    AllMade (state.modify id change).calls := by
  intro m other held
  have goes : Goes state.calls (state.modify id change).calls := goes_modify found becomes
  obtain ⟨was, known, -⟩ := modify_found held
  obtain ⟨origin, held, on⟩ := goes m other held (found_lt known)
  exact (all m origin held).becomes on fun _ _ known => forward_modify found becomes known

/-- Storage of the keys an operation runs under. -/
theorem mem_store (made : Made calls id call) : key ∈ call.store ↔ key = call.key ∨ key ∈ call.owned := by
  have entry := made.entry
  cases how : call.entry with
  | nested =>
      have has : call.key ∈ call.owned := entry.mp (by simp [Call.queues, how])
      simp only [Call.store, how]
      constructor
      · exact .inr
      · intro either
        rcases either with rfl | owned
        · exact has
        · exact owned
  | queued previous => simp only [Call.store, how, List.mem_cons]

/-- A store holds the keys of the operations around the call. -/
theorem AllMade.owned_iff (all : AllMade calls) {id : Nat} {call : Call Key}
    (found : calls[id]? = some call) :
    key ∈ call.owned ↔ ∃ outer around, Within calls outer id ∧ calls[outer]? = some around ∧
      around.key = key := by
  induction id using Nat.strongRecOn generalizing call with
  | ind id ih =>
      have store := (all id call found).store
      cases caller : call.caller with
      | none =>
          simp only [caller] at store
          rw [store]
          constructor
          · intro none
            cases none
          · intro some
            obtain ⟨outer, around, within, -, -⟩ := some
            cases within with
            | made held from' =>
                rw [found] at held
                cases held
                simp [caller] at from'
            | deeper held from' _ =>
                rw [found] at held
                cases held
                simp [caller] at from'
      | some caller' =>
          simp only [caller] at store
          obtain ⟨earlier, above, held, same⟩ := store
          rw [same, mem_store (all caller' above held), ih caller' earlier held]
          constructor
          · intro either
            rcases either with rfl | ⟨outer, around, within, known, named⟩
            · exact ⟨caller', above, .made found caller, held, rfl⟩
            · exact ⟨outer, around, .deeper found caller within, known, named⟩
          · intro some
            obtain ⟨outer, around, within, known, named⟩ := some
            cases within with
            | made was from' =>
                rw [found] at was
                cases was
                rw [caller] at from'
                cases from'
                rw [held] at known
                cases known
                exact .inl named.symm
            | deeper was from' rest =>
                rw [found] at was
                cases was
                rw [caller] at from'
                cases from'
                exact .inr ⟨outer, around, rest, known, named⟩

/-- The lock tells a nested call by its store. -/
theorem AllMade.nested_iff (all : AllMade calls) (found : calls[id]? = some call) :
    Nested calls id ↔ call.queues = false := by
  rw [(all id call found).entry, all.owned_iff found]
  constructor
  · intro nested
    obtain ⟨same, outer, around, held, rest⟩ := nested
    rw [found] at held
    cases held
    exact ⟨outer, around, rest⟩
  · intro some
    obtain ⟨outer, around, rest⟩ := some
    exact ⟨call, outer, around, found, rest⟩

theorem AllMade.not_nested (all : AllMade calls) (found : calls[id]? = some call) :
    ¬Nested calls id ↔ call.queues = true := by
  rw [all.nested_iff found, Bool.not_eq_false]

theorem AllMade.within_lt (all : AllMade calls) (within : Within calls outer id) :
    outer < id ∧ ∃ around, calls[outer]? = some around := by
  induction within with
  | made found caller =>
      have store := (all _ _ found).store
      simp only [caller] at store
      obtain ⟨earlier, around, held, -⟩ := store
      exact ⟨earlier, around, held⟩
  | deeper found caller _ ih =>
      have store := (all _ _ found).store
      simp only [caller] at store
      exact ⟨Nat.lt_trans ih.1 store.1, ih.2⟩

/-- The queued call that holds the directory an operation runs on: itself, or the one around it. -/
def Holds (calls : List (Call Key)) (holder id : Nat) : Prop :=
  (holder = id ∨ Within calls holder id) ∧ ∃ call top, calls[id]? = some call ∧
    calls[holder]? = some top ∧ top.key = call.key ∧ ¬Nested calls holder

theorem AllMade.held (all : AllMade calls) {id : Nat} {call : Call Key} (found : calls[id]? = some call) :
    ∃ holder, Holds calls holder id := by
  induction id using Nat.strongRecOn generalizing call with
  | ind id ih =>
      by_cases nested : Nested calls id
      · obtain ⟨same, outer, around, held, within, known, named⟩ := nested
        obtain ⟨holder, place, inner, top, inner_found, top_found, top_key, free⟩ :=
          ih outer (all.within_lt within).1 known
        rw [known] at inner_found
        cases inner_found
        refine ⟨holder, .inr ?_, same, top, held, top_found, top_key.trans named, free⟩
        rcases place with rfl | deeper
        · exact within
        · exact within.trans deeper
      · exact ⟨id, .inl rfl, call, call, found, found, rfl, nested⟩

theorem storeOf_found {caller : Nat} {owned : List Key} (store : state.storeOf (some caller) = some owned) :
    ∃ around, state.calls[caller]? = some around ∧ owned = around.store := by
  simp only [State.storeOf] at store
  split at store
  · cases store
  · rename_i around found
    split at store
    · cases store
    · cases store
      exact ⟨around, found, rfl⟩

/-- The last call of the list got its store from the code that made it. -/
theorem AllMade.append (all : AllMade state.calls) {added : Call Key}
    (store : state.storeOf added.caller = some added.owned)
    (entry : added.queues = false ↔ added.key ∈ added.owned)
    (atOnce : added.queues = false → added.phase ≠ .waiting) : AllMade (state.calls ++ [added]) := by
  intro m other held
  rcases append_found held with known | ⟨rfl, rfl⟩
  · exact (all m other known).becomes (.refl other) fun _ _ was => forward_append state.calls added was
  · refine ⟨?_, entry, atOnce⟩
    cases caller : other.caller with
    | none =>
        rw [caller] at store
        exact (Option.some.inj store).symm
    | some caller' =>
        rw [caller] at store
        obtain ⟨around, found, same⟩ := storeOf_found store
        exact ⟨found_lt found, around, append_kept other found, same⟩

section
variable [DecidableEq Key]

theorem Turn.allMade {event : Event Dir} {after : State Key} (turn : Turn resolve state event after) (all : AllMade state.calls) :
    AllMade after.calls := by
  cases turn with
  | idle event => exact all
  | nested caller owned dir store has =>
      refine all.append store ?_ ?_
      · simpa [Call.queues] using has
      · simp
  | queued caller owned dir store free =>
      refine all.append store ?_ ?_
      · simpa [Call.queues] using free
      · simp [Call.queues]
  | entered id call previous found entry waits ready => exact all.modify found (becomes_running waits)
  | left id call rejected found runs more => exact all.modify found (becomes_settled runs rejected)
  | emptied id call rejected found runs queues last =>
      exact all.modify found (becomes_settled runs rejected)
  | chained id call previous found entry ready settled => exact all.modify found (becomes_chained call)

theorem reached_allMade (resolve : Dir → Key) (history : List (Event Dir)) :
    AllMade (reached resolve history).calls :=
  Data.replay_invariant (motive := fun state => AllMade state.calls)
    (fun id call found => by simp [State.start] at found)
    (fun state event all => (step_turn state event).allMade all) history

end

end Dockge.StackLock
