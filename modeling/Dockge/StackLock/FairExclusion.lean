import Dockge.StackLock.Nesting

namespace Dockge.StackLock

/-! The lock lets one operation at a time work on a directory, in the order of their calls. -/

variable {Dir Key : Type} {resolve : Dir → Key} {state after : State Key}
  {call : Call Key} {id : Nat} {key : Key}

/-- The operation of a call runs on a directory. -/
def Running (state : State Key) (id : Nat) (key : Key) : Prop :=
  ∃ call, state.calls[id]? = some call ∧ call.key = key ∧ call.phase = .running

/-- A call on a directory that no operation around it is on. -/
def Queued (state : State Key) (id : Nat) (key : Key) : Prop :=
  ∃ call, state.calls[id]? = some call ∧ call.key = key ∧ ¬Nested state.calls id

def Waits (state : State Key) (id : Nat) : Prop :=
  ∃ call, state.calls[id]? = some call ∧ call.phase = .waiting

def Settled (state : State Key) (id : Nat) : Prop :=
  ∃ call, state.calls[id]? = some call ∧ call.phase.hasSettled = true

theorem not_settled (found : state.calls[id]? = some call) :
    ¬Settled state id ↔ call.phase.hasSettled = false := by
  constructor
  · intro live
    cases settled : call.phase.hasSettled with
    | false => rfl
    | true => exact absurd ⟨call, found, settled⟩ live
  · intro live settled
    obtain ⟨same, held, done⟩ := settled
    rw [found] at held
    cases held
    rw [live] at done
    cases done

theorem not_waits (found : state.calls[id]? = some call) : ¬Waits state id ↔ call.phase ≠ .waiting := by
  constructor
  · intro begun waits
    exact begun ⟨call, found, waits⟩
  · intro begun waits
    obtain ⟨same, held, waits⟩ := waits
    rw [found] at held
    cases held
    exact begun waits

/-- The calls that the queue keeps in order are those that no operation on the directory made. -/
theorem queued_iff (all : AllMade state.calls) :
    Queued state id key ↔ ∃ call, state.calls[id]? = some call ∧ call.key = key ∧ call.queues = true := by
  constructor
  · intro queued
    obtain ⟨call, found, named, free⟩ := queued
    exact ⟨call, found, named, (all.not_nested found).mp free⟩
  · intro queued
    obtain ⟨call, found, named, queues⟩ := queued
    exact ⟨call, found, named, (all.not_nested found).mpr queues⟩

theorem Ordered.inOrder (ordered : Ordered state) (all : AllMade state.calls) {earlier later : Nat}
    (before : earlier < later) (first : Queued state earlier key) (second : Queued state later key)
    (begun : ¬Waits state later) : Settled state earlier := by
  obtain ⟨ahead, found, named, queues⟩ := (queued_iff all).mp first
  obtain ⟨call, known, keyed, queued⟩ := (queued_iff all).mp second
  have settled := (ordered.inLine later call known queued).started ((not_waits known).mp begun)
  exact ⟨ahead, found, settled earlier ahead before found queues (named.trans keyed.symm)⟩

theorem Running.begun (running : Running state id key) : ¬Waits state id := by
  obtain ⟨call, found, -, runs⟩ := running
  rw [not_waits found, runs]
  simp

theorem Running.live (running : Running state id key) : ¬Settled state id := by
  obtain ⟨call, found, -, runs⟩ := running
  rw [not_settled found, runs]
  rfl

/-- Of two queued operations on one directory the earlier has settled once the later runs. -/
theorem Ordered.exclusive (ordered : Ordered state) (all : AllMade state.calls) {first second : Nat}
    (queued : Queued state first key) (other : Queued state second key)
    (runs : Running state first key) (also : Running state second key) : first = second := by
  rcases Nat.lt_trichotomy first second with earlier | same | later
  · exact absurd (ordered.inOrder all earlier queued other also.begun) runs.live
  · exact same
  · exact absurd (ordered.inOrder all later other queued runs.begun) also.live

theorem Holds.queued {holder : Nat} (holds : Holds state.calls holder id)
    (runs : Running state holder key) : Queued state holder key := by
  obtain ⟨-, -, top, -, found, -, free⟩ := holds
  obtain ⟨same, held, named, -⟩ := runs
  exact ⟨same, held, named, free⟩

theorem AllMade.stored (all : AllMade state.calls) {caller holder : Nat}
    (place : holder = caller ∨ Within state.calls holder caller) (queued : Queued state holder key)
    (found : state.calls[caller]? = some call) : key ∈ call.store := by
  obtain ⟨top, held, named, -⟩ := queued
  rw [mem_store (all caller call found)]
  rcases place with rfl | within
  · rw [found] at held
    cases held
    exact .inl named.symm
  · exact .inr ((all.owned_iff found).mpr ⟨holder, top, within, held, named⟩)

theorem AllMade.neverWaits (all : AllMade state.calls) {holder : Nat}
    (holds : Holds state.calls holder id) (inner : holder ≠ id) : ¬Waits state id := by
  obtain ⟨place, call, top, found, held, same, -⟩ := holds
  have within : Within state.calls holder id := place.resolve_left inner
  have nested : Nested state.calls id := ⟨call, holder, top, found, within, held, same⟩
  exact (not_waits found).mpr ((all id call found).atOnce ((all.nested_iff found).mp nested))

theorem Ordered.empty (ordered : Ordered state)
    (settled : ∀ id call, state.calls[id]? = some call → Settled state id) (key : Key) :
    state.queues key = none := by
  have ends := ordered.ends key
  unfold Ends at ends
  cases link : state.queues key with
  | none => rfl
  | some last =>
      rw [link] at ends
      obtain ⟨call, found, -, -, live, -⟩ := ends
      exact absurd (settled last call found) ((not_settled found).mpr live)

theorem busy_iff (ordered : Ordered state) (all : AllMade state.calls) (dir : Dir) :
    stackLockBusy resolve state dir = true ↔
      ∃ id, Queued state id (resolve dir) ∧ ¬Settled state id := by
  have ends := ordered.ends (resolve dir)
  unfold Ends at ends
  unfold stackLockBusy
  cases link : state.queues (resolve dir) with
  | none =>
      rw [link] at ends
      constructor
      · intro some
        cases some
      · intro open'
        obtain ⟨id, queued, live⟩ := open'
        obtain ⟨call, found, named, queues⟩ := (queued_iff all).mp queued
        exact absurd ⟨call, found, ends id call found queues named⟩ live
  | some last =>
      rw [link] at ends
      obtain ⟨call, found, queues, named, live, -⟩ := ends
      constructor
      · intro _
        exact ⟨last, (queued_iff all).mpr ⟨call, found, named, queues⟩, (not_settled found).mpr live⟩
      · intro _
        rfl

/-! The promises of a queue settle one behind the other. -/

/-- Nothing but promises of the queues has settled. -/
def Chains (state after : State Key) : Prop :=
  after.calls.length = state.calls.length ∧
    ∀ (m : Nat) (call : Call Key), state.calls[m]? = some call →
      ∃ flag, after.calls[m]? = some { call with chained := flag } ∧
        (call.chained = true → flag = true)

theorem Chains.refl (state : State Key) : Chains state state :=
  ⟨rfl, fun _ call found => ⟨call.chained, found, id⟩⟩

theorem Chains.trans {last : State Key} (first : Chains state after) (second : Chains after last) :
    Chains state last := by
  refine ⟨second.1.trans first.1, ?_⟩
  intro m call found
  obtain ⟨flag, held, kept⟩ := first.2 m call found
  obtain ⟨flag', held', kept'⟩ := second.2 m _ held
  exact ⟨flag', held', fun is => kept' (kept is)⟩

theorem Chains.back (chains : Chains state after) {m : Nat} (held : after.calls[m]? = some call) :
    ∃ origin flag, state.calls[m]? = some origin ∧ call = { origin with chained := flag } := by
  have within : m < state.calls.length := by
    rw [← chains.1]
    exact found_lt held
  obtain ⟨flag, same, -⟩ := chains.2 m _ (List.getElem?_eq_getElem within)
  rw [held] at same
  exact ⟨_, flag, List.getElem?_eq_getElem within, Option.some.inj same⟩

theorem chains_modify (found : state.calls[id]? = some call) : Chains state (state.modify id Call.chain) := by
  refine ⟨List.length_modify _ _ _, ?_⟩
  intro m other held
  by_cases same : m = id
  · subst same
    exact ⟨true, modify_changed held, fun _ => rfl⟩
  · exact ⟨other.chained, modify_kept held same, fun is => is⟩

section
variable [DecidableEq Key]

theorem chains_step (resolve : Dir → Key) (state : State Key) (id : Nat) :
    Chains state (step resolve state (.chain id)) := by
  cases found : state.calls[id]? with
  | none => simpa only [step, found] using Chains.refl state
  | some call =>
      simp only [step, found, settleChained]
      split
      · exact .refl state
      · split
        · exact chains_modify found
        · exact .refl state

/-- Where every queued call of a key up to some place has settled, so can their promises. -/
theorem Ordered.chained_upto (ordered : Ordered state) (n : Nat)
    (settled : Before state.calls n key) :
    Chains state (Data.replay (step resolve) state ((List.range n).map .chain)) ∧
      ∀ m call, m < n →
        (Data.replay (step resolve) state ((List.range n).map .chain)).calls[m]? = some call →
        call.queues = true → call.key = key → call.chained = true := by
  induction n with
  | zero => exact ⟨.refl state, fun m _ none => absurd none (Nat.not_lt_zero m)⟩
  | succ n ih =>
      obtain ⟨chains, done⟩ := ih fun m other earlier => settled m other (Nat.lt_succ_of_lt earlier)
      have kept : Ordered (Data.replay (step resolve) state ((List.range n).map .chain)) :=
        Data.replay_invariant ordered (fun state event ordered => (step_turn state event).ordered ordered) _
      rw [List.range_succ, List.map_append, Data.replay_append]
      generalize Data.replay (step resolve) state ((List.range n).map .chain) = middle at chains done kept ⊢
      have more : Chains middle (step resolve middle (.chain n)) := chains_step resolve middle n
      refine ⟨chains.trans more, ?_⟩
      intro m call earlier held queues named
      obtain ⟨origin, flag, found, rfl⟩ := more.back held
      obtain ⟨flag', same, keeps⟩ := more.2 m origin found
      have flags : flag' = flag := by
        rw [show (step resolve middle (.chain n)).calls[m]? = _ from held] at same
        have := congrArg Call.chained (Option.some.inj same)
        exact this.symm
      rcases Nat.lt_succ_iff_lt_or_eq.mp earlier with less | rfl
      · exact flags ▸ keeps (done m origin less found queues named)
      · -- the promise at this place settles now
        obtain ⟨start, earlierFlag, began, rfl⟩ := chains.back found
        have closed : start.phase.hasSettled = true := settled m start earlier began queues named
        have line := kept.inLine m _ found queues
        cases entry : start.entry with
        | nested => simp [Call.queues, entry] at queues
        | queued previous =>
            have ready : middle.behind previous = true := by
              cases previous with
              | none => rfl
              | some previous =>
                  obtain ⟨before, ahead, known, queued, keyed, -⟩ := line.follows previous entry
                  simpa only [State.behind, known] using
                    done previous ahead before known queued (keyed.trans named)
            have fires : step resolve middle (.chain m) = middle.modify m Call.chain := by
              simp only [step, found, settleChained, entry, ready, closed, Bool.and_self, if_true]
            rw [show Data.replay (step resolve) middle (List.map Event.chain [m]) =
              middle.modify m Call.chain from fires, modify_changed found] at held
            exact (congrArg Call.chained (Option.some.inj held)).symm

/-- What callers rely on, in one state. -/
structure Fair (resolve : Dir → Key) (state : State Key) : Prop where
  holder : ∀ id call, state.calls[id]? = some call → ∃ holder, Holds state.calls holder id
  exclusive : ∀ key first second holder other, Running state first key → Running state second key →
    Holds state.calls holder first → Holds state.calls other second →
    Running state holder key → Running state other key → holder = other
  inOrder : ∀ key earlier later, earlier < later → Queued state earlier key → Queued state later key →
    ¬Waits state later → Settled state earlier
  atOnce : ∀ caller dir holder, (holder = caller ∨ Within state.calls holder caller) →
    Queued state holder (resolve dir) → Running state holder (resolve dir) → ¬Waits state caller →
    ∃ call, (step resolve state (.call (some caller) dir)).calls[state.calls.length]? = some call ∧
      call.caller = some caller ∧ call.key = resolve dir ∧ call.phase = .running
  neverWaits : ∀ id holder key, Holds state.calls holder id → holder ≠ id →
    Running state holder key → ¬Waits state id
  outcome : ∀ event id before after rejected, state.calls[id]? = some before →
    (step resolve state event).calls[id]? = some after → after.phase = .settled rejected →
    before.phase = .settled rejected ∨ (before.phase = .running ∧ event = .settle id rejected)
  onward : ∀ id key, Queued state id key → Waits state id →
    (∀ earlier, earlier < id → Queued state earlier key → Settled state earlier) →
    ∃ turns, (∀ turn ∈ turns, ∃ link, turn = .chain link) ∧
      Running (Data.replay (step resolve) state (turns ++ [.enter id])) id key
  busy : ∀ dir, stackLockBusy resolve state dir = true ↔
    ∃ id, Queued state id (resolve dir) ∧ ¬Settled state id
  empty : (∀ id call, state.calls[id]? = some call → Settled state id) → ∀ key, state.queues key = none

theorem AllMade.atOnce (all : AllMade state.calls) {caller holder : Nat} {dir : Dir}
    (place : holder = caller ∨ Within state.calls holder caller)
    (queued : Queued state holder (resolve dir)) (begun : ¬Waits state caller) :
    ∃ call, (step resolve state (.call (some caller) dir)).calls[state.calls.length]? = some call ∧
      call.caller = some caller ∧ call.key = resolve dir ∧ call.phase = .running := by
  have known : ∃ around, state.calls[caller]? = some around := by
    rcases place with rfl | within
    · obtain ⟨top, held, -⟩ := queued
      exact ⟨top, held⟩
    · cases within with
      | made found _ => exact ⟨_, found⟩
      | deeper found _ _ => exact ⟨_, found⟩
  obtain ⟨around, found⟩ := known
  have store : state.storeOf (some caller) = some around.store := by
    simp only [State.storeOf, found, if_neg ((not_waits found).mp begun)]
  have has : resolve dir ∈ around.store := all.stored place queued found
  simp only [step, store, withStackLock, if_pos has]
  exact ⟨_, List.getElem?_concat_length, rfl, rfl, rfl⟩

/-- A call settles as its own operation does. -/
theorem Turn.outcome {event : Event Dir} {before later : Call Key} {rejected : Bool}
    (turn : Turn resolve state event after) (found : state.calls[id]? = some before)
    (held : after.calls[id]? = some later) (settled : later.phase = .settled rejected) :
    before.phase = .settled rejected ∨ (before.phase = .running ∧ event = .settle id rejected) := by
  have same : after.calls[id]? = some before → before.phase = .settled rejected := by
    intro kept
    rw [held] at kept
    cases kept
    exact settled
  cases turn with
  | idle event => exact .inl (same found)
  | nested caller owned dir store has => exact .inl (same (append_kept _ found))
  | queued caller owned dir store free => exact .inl (same (append_kept _ found))
  | entered place call previous known entry waits ready =>
      obtain ⟨was, there, ⟨rfl, rfl⟩ | ⟨apart, -⟩⟩ := modify_found held
      · cases settled
      · exact .inl (same (modify_kept found apart))
  | left place call outcome known runs more =>
      obtain ⟨was, there, ⟨rfl, rfl⟩ | ⟨apart, -⟩⟩ := modify_found held
      · rw [known] at found
        cases found
        cases settled
        exact .inr ⟨runs, rfl⟩
      · exact .inl (same (modify_kept found apart))
  | emptied place call outcome known runs queues last =>
      obtain ⟨was, there, ⟨rfl, rfl⟩ | ⟨apart, -⟩⟩ := modify_found held
      · rw [known] at found
        cases found
        cases settled
        exact .inr ⟨runs, rfl⟩
      · exact .inl (same (modify_kept found apart))
  | chained place call previous known entry ready done =>
      obtain ⟨was, there, ⟨rfl, rfl⟩ | ⟨apart, -⟩⟩ := modify_found held
      · rw [found] at there
        cases there
        exact .inl settled
      · exact .inl (same (modify_kept found apart))

theorem Ordered.onward (ordered : Ordered state) (all : AllMade state.calls)
    (queued : Queued state id key) (waits : Waits state id)
    (earlier : ∀ earlier, earlier < id → Queued state earlier key → Settled state earlier) :
    ∃ turns : List (Event Dir), (∀ turn ∈ turns, ∃ link, turn = .chain link) ∧
      Running (Data.replay (step resolve) state (turns ++ [.enter id])) id key := by
  obtain ⟨call, found, named, queues⟩ := (queued_iff all).mp queued
  have still : call.phase = .waiting := by
    by_contra begun
    exact (not_waits found).mpr begun waits
  have before : Before state.calls id key := by
    intro m other less known queued keyed
    have settled := earlier m less ((queued_iff all).mpr ⟨other, known, keyed, queued⟩)
    obtain ⟨same, held, done⟩ := settled
    rw [known] at held
    cases held
    exact done
  have upto := @Ordered.chained_upto Dir Key resolve state key _ ordered id before
  obtain ⟨chains, done⟩ := upto
  refine ⟨(List.range id).map .chain, ?_, ?_⟩
  · intro turn member
    obtain ⟨link, -, rfl⟩ := List.mem_map.mp member
    exact ⟨link, rfl⟩
  · rw [Data.replay_append]
    generalize Data.replay (step resolve) state ((List.range id).map .chain) = middle at chains done ⊢
    obtain ⟨flag, held, -⟩ := chains.2 id call found
    cases entry : call.entry with
    | nested => simp [Call.queues, entry] at queues
    | queued previous =>
        have ready : middle.behind previous = true := by
          cases previous with
          | none => rfl
          | some previous =>
              obtain ⟨less, ahead, known, queued, keyed, -⟩ :=
                (ordered.inLine id call found queues).follows previous entry
              obtain ⟨flag', there, -⟩ := chains.2 previous ahead known
              have is := done previous _ less there queued (keyed.trans named)
              simpa only [State.behind, there] using is
        have enters : step resolve middle (.enter id) = middle.modify id Call.run := by
          simp only [step, held, enter, entry, still, ready, if_true]
        have entered : (Data.replay (step resolve) middle [.enter id]).calls[id]? =
            some (Call.run { call with chained := flag }) := by
          rw [Data.replay_cons, Data.replay_nil, enters]
          exact modify_changed held
        exact ⟨_, entered, named, rfl⟩

/-- In every state of every run: the operations on a directory that run at one time belong to one
holder of it, holders come in the order of their calls and each in the end, and the map names the
directories that are taken. -/
theorem fair_exclusion (resolve : Dir → Key) (history : List (Event Dir)) :
    Fair resolve (reached resolve history) := by
  have ordered := reached_ordered resolve history
  have all := reached_allMade resolve history
  generalize reached resolve history = state at ordered all ⊢
  exact {
    holder := fun id call found => all.held found
    exclusive := fun key first second holder other _ _ holds also runs too =>
      ordered.exclusive all (holds.queued runs) (also.queued too) runs too
    inOrder := fun key earlier later before first second begun =>
      ordered.inOrder all before first second begun
    atOnce := fun caller dir holder place queued _ begun => all.atOnce place queued begun
    neverWaits := fun id holder key holds inner _ => all.neverWaits holds inner
    outcome := fun event id before after rejected found held settled =>
      (step_turn state event).outcome found held settled
    onward := fun id key queued waits earlier => ordered.onward all queued waits earlier
    busy := fun dir => busy_iff ordered all dir
    empty := fun settled key => ordered.empty settled key }

/-- Two calls that one operation makes on its own directory, an absolute path, without waiting. -/
def siblings : State String :=
  reached (fun dir => dir) [.call none "/opt/stacks/web", .enter 0, .call (some 0) "/opt/stacks/web",
    .call (some 0) "/opt/stacks/web"]

theorem siblings_overlap :
    Running siblings 1 "/opt/stacks/web" ∧ Running siblings 2 "/opt/stacks/web" ∧
      ¬Within siblings.calls 1 2 ∧ ¬Within siblings.calls 2 1 := by
  have all : AllMade siblings.calls := reached_allMade _ _
  refine ⟨⟨_, rfl, rfl, rfl⟩, ⟨_, rfl, rfl, rfl⟩, ?_, ?_⟩
  · intro within
    cases within with
    | made found caller =>
        cases found
        cases caller
    | deeper found caller rest =>
        cases found
        cases caller
        exact absurd (all.within_lt rest).1 (by decide)
  · intro within
    exact absurd (all.within_lt within).1 (by decide)

end

end Dockge.StackLock
