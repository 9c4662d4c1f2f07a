import Dockge.StackLock.Queue

namespace Dockge.StackLock

/-! Every turn keeps the queue of a directory in the order of the calls.

Of the calls that queue for one key, each has the ones before it settled by the time it runs, and
the queue map names the last of them for as long as that one has not settled.
-/

variable {Dir Key : Type} {resolve : Dir → Key} {state : State Key}
  {call other : Call Key} {id : Nat} {key : Key}

/-! Lookups after a change. -/

@[simp] theorem modify_queues (change : Call Key → Call Key) :
    (state.modify id change).queues = state.queues := rfl

theorem modify_found {change : Call Key → Call Key} {m : Nat}
    (found : (state.modify id change).calls[m]? = some other) :
    ∃ before, state.calls[m]? = some before ∧
      ((m = id ∧ other = change before) ∨ (m ≠ id ∧ other = before)) := by
  simp only [State.modify, List.getElem?_modify] at found
  cases held : state.calls[m]? with
  | none => simp [held] at found
  | some before =>
      refine ⟨before, rfl, ?_⟩
      by_cases same : id = m
      · exact .inl ⟨same.symm, by simpa [held, same] using found.symm⟩
      · exact .inr ⟨Ne.symm same, by simpa [held, same] using found.symm⟩

theorem modify_kept {change : Call Key → Call Key} {m : Nat} (found : state.calls[m]? = some other)
    (apart : m ≠ id) : (state.modify id change).calls[m]? = some other := by
  simp [State.modify, found, Ne.symm apart]

theorem modify_changed {change : Call Key → Call Key} (found : state.calls[id]? = some call) :
    (state.modify id change).calls[id]? = some (change call) := by
  simp [State.modify, found]

theorem append_found {calls : List (Call Key)} {added : Call Key} {m : Nat}
    (found : (calls ++ [added])[m]? = some other) :
    calls[m]? = some other ∨ (m = calls.length ∧ other = added) := by
  rcases Nat.lt_trichotomy m calls.length with earlier | same | later
  · exact .inl (by rwa [List.getElem?_append_left earlier] at found)
  · subst same
    exact .inr ⟨rfl, by simpa using found.symm⟩
  · rw [List.getElem?_eq_none (by simp; omega)] at found
    cases found

theorem append_kept {calls : List (Call Key)} (added : Call Key) {m : Nat}
    (found : calls[m]? = some other) : (calls ++ [added])[m]? = some other := by
  obtain ⟨within, rfl⟩ := List.getElem?_eq_some_iff.mp found
  rw [List.getElem?_append_left within, List.getElem?_eq_getElem within]

theorem found_lt {calls : List (Call Key)} {m : Nat} (found : calls[m]? = some other) :
    m < calls.length :=
  (List.getElem?_eq_some_iff.mp found).1

/-! The order of one queue. -/

/-- The calls before this one that queue for the key have settled. -/
def Before (calls : List (Call Key)) (id : Nat) (key : Key) : Prop :=
  ∀ (m : Nat) (other : Call Key), m < id → calls[m]? = some other → other.queues = true → other.key = key →
    other.phase.hasSettled = true

/-- What is known of one queued call by its promises. -/
structure InLine (calls : List (Call Key)) (id : Nat) (call : Call Key) : Prop where
  started : call.phase ≠ .waiting → Before calls id call.key
  chained : call.chained = true → call.phase.hasSettled = true ∧ Before calls id call.key
  first : call.entry = .queued none → Before calls id call.key
  follows : ∀ previous, call.entry = .queued (some previous) → previous < id ∧
    ∃ ahead, calls[previous]? = some ahead ∧ ahead.queues = true ∧ ahead.key = call.key ∧
      ∀ (m : Nat) (other : Call Key), previous < m → m < id → calls[m]? = some other → other.queues = true →
        other.key ≠ call.key

/-- What the queue map knows of a key. -/
def Ends (state : State Key) (key : Key) : Prop :=
  match state.queues key with
  | none => ∀ (m : Nat) (other : Call Key), state.calls[m]? = some other → other.queues = true → other.key = key →
      other.phase.hasSettled = true
  | some last => ∃ call, state.calls[last]? = some call ∧ call.queues = true ∧ call.key = key ∧
      call.phase.hasSettled = false ∧
      ∀ (m : Nat) (other : Call Key), state.calls[m]? = some other → other.queues = true → other.key = key → m ≤ last

structure Ordered (state : State Key) : Prop where
  inLine : ∀ id call, state.calls[id]? = some call → call.queues = true → InLine state.calls id call
  ends : ∀ key, Ends state key

/-- A call goes on: who made it and how it came by the directory stay, and it does not settle twice. -/
structure Call.Becomes (call after : Call Key) : Prop where
  caller : after.caller = call.caller
  key : after.key = call.key
  owned : after.owned = call.owned
  entry : after.entry = call.entry
  settled : call.phase.hasSettled = true → after.phase = call.phase
  begun : call.phase ≠ .waiting → after.phase ≠ .waiting

theorem Call.Becomes.refl (call : Call Key) : call.Becomes call :=
  ⟨rfl, rfl, rfl, rfl, fun _ => rfl, fun begun => begun⟩

theorem Call.Becomes.queues {after : Call Key} (becomes : call.Becomes after) :
    after.queues = call.queues := by
  simp only [Call.queues, becomes.entry]

theorem becomes_running (waits : call.phase = .waiting) :
    call.Becomes call.run := by
  refine ⟨rfl, rfl, rfl, rfl, ?_, fun _ => by simp [Call.run]⟩
  intro settled
  simp [waits, Phase.hasSettled] at settled

theorem becomes_settled (runs : call.phase = .running) (rejected : Bool) :
    call.Becomes (call.settle rejected) := by
  refine ⟨rfl, rfl, rfl, rfl, ?_, fun _ => by simp [Call.settle]⟩
  intro settled
  simp [runs, Phase.hasSettled] at settled

theorem becomes_chained (call : Call Key) : call.Becomes call.chain :=
  ⟨rfl, rfl, rfl, rfl, fun _ => rfl, fun begun => begun⟩

/-- Every call of the first list goes on in the second one, and nothing is said of later calls. -/
def Goes (before after : List (Call Key)) : Prop :=
  ∀ (m : Nat) (other : Call Key), after[m]? = some other → m < before.length →
    ∃ call, before[m]? = some call ∧ call.Becomes other

theorem goes_modify {change : Call Key → Call Key} (found : state.calls[id]? = some call)
    (becomes : call.Becomes (change call)) : Goes state.calls (state.modify id change).calls := by
  intro m other held within
  obtain ⟨before, known, ⟨rfl, rfl⟩ | ⟨-, rfl⟩⟩ := modify_found held
  · rw [found] at known
    cases known
    exact ⟨call, found, becomes⟩
  · exact ⟨other, known, .refl other⟩

theorem goes_append (calls : List (Call Key)) (added : Call Key) : Goes calls (calls ++ [added]) := by
  intro m other held within
  rcases append_found held with known | ⟨rfl, -⟩
  · exact ⟨other, known, .refl other⟩
  · exact absurd within (Nat.lt_irrefl _)

theorem Before.goes {before after : List (Call Key)} (goes : Goes before after)
    (within : id ≤ before.length) (settled : Before before id key) : Before after id key := by
  intro m other earlier found queues named
  obtain ⟨call, known, becomes⟩ := goes m other found (Nat.lt_of_lt_of_le earlier within)
  have done := settled m call earlier known (by rw [← becomes.queues]; exact queues)
    (by rw [← becomes.key]; exact named)
  rw [becomes.settled done]
  exact done

/-- A call that did not move itself keeps its place. -/
theorem InLine.goes {before after : List (Call Key)} (goes : Goes before after)
    (forward : ∀ (m : Nat) (call : Call Key), before[m]? = some call →
      ∃ later, after[m]? = some later ∧ call.Becomes later)
    (within : id < before.length) (line : InLine before id call) : InLine after id call where
  started begun := (line.started begun).goes goes (Nat.le_of_lt within)
  chained is := ⟨(line.chained is).1, (line.chained is).2.goes goes (Nat.le_of_lt within)⟩
  first entry := (line.first entry).goes goes (Nat.le_of_lt within)
  follows previous entry := by
    obtain ⟨earlier, ahead, found, queues, named, between⟩ := line.follows previous entry
    obtain ⟨later, held, becomes⟩ := forward previous ahead found
    refine ⟨earlier, later, held, by rw [becomes.queues]; exact queues,
      by rw [becomes.key]; exact named, ?_⟩
    intro m other lower upper known queued
    obtain ⟨origin, was, becomes⟩ := goes m other known (Nat.lt_trans upper within)
    rw [becomes.key]
    exact between m origin lower upper was (by rw [← becomes.queues]; exact queued)

theorem forward_modify {change : Call Key → Call Key} (found : state.calls[id]? = some call)
    (becomes : call.Becomes (change call)) {m : Nat} {origin : Call Key}
    (known : state.calls[m]? = some origin) :
    ∃ later, (state.modify id change).calls[m]? = some later ∧ origin.Becomes later := by
  by_cases same : m = id
  · subst same
    rw [found] at known
    cases known
    exact ⟨_, modify_changed found, becomes⟩
  · exact ⟨origin, modify_kept known same, .refl origin⟩

/-- A call whose `previous` promise has settled has every earlier one of the queue behind it. -/
theorem Ordered.behind (ordered : Ordered state) {previous : Option Nat}
    (found : state.calls[id]? = some call) (entry : call.entry = .queued previous)
    (ready : state.behind previous = true) : Before state.calls id call.key := by
  have line := ordered.inLine id call found (by simp [Call.queues, entry])
  cases previous with
  | none => exact line.first entry
  | some previous =>
      obtain ⟨earlier, ahead, known, queues, named, between⟩ := line.follows previous entry
      simp only [State.behind, known] at ready
      obtain ⟨done, before⟩ := (ordered.inLine previous ahead known queues).chained ready
      intro m other lower held queued keyed
      rcases Nat.lt_trichotomy m previous with less | same | more
      · exact before m other less held queued (by rw [named]; exact keyed)
      · subst same
        rw [known] at held
        cases held
        exact done
      · exact absurd keyed (between m other more lower held queued)

/-- One call goes on, and its own place is known. -/
theorem Ordered.inLine_modify (ordered : Ordered state) {change : Call Key → Call Key}
    (found : state.calls[id]? = some call) (becomes : call.Becomes (change call))
    (started : (change call).queues = true → (change call).phase ≠ .waiting →
      Before state.calls id call.key)
    (chained : (change call).queues = true → (change call).chained = true →
      (change call).phase.hasSettled = true ∧ Before state.calls id call.key)
    {m : Nat} (held : (state.modify id change).calls[m]? = some other) (queues : other.queues = true) :
    InLine (state.modify id change).calls m other := by
  have goes : Goes state.calls (state.modify id change).calls := goes_modify found becomes
  have forward : ∀ (m : Nat) (origin : Call Key), state.calls[m]? = some origin →
      ∃ later, (state.modify id change).calls[m]? = some later ∧ origin.Becomes later :=
    fun m origin known => forward_modify found becomes known
  obtain ⟨before, known, ⟨rfl, rfl⟩ | ⟨-, rfl⟩⟩ := modify_found held
  · rw [found] at known
    cases known
    have within := found_lt found
    have line := (ordered.inLine m call found (by rw [← becomes.queues]; exact queues)).goes goes
      forward within
    refine ⟨?_, ?_, ?_, ?_⟩
    · rw [becomes.key]
      intro begun
      exact (started queues begun).goes goes (Nat.le_of_lt within)
    · rw [becomes.key]
      intro is
      exact ⟨(chained queues is).1, (chained queues is).2.goes goes (Nat.le_of_lt within)⟩
    · rw [becomes.key, becomes.entry]
      exact line.first
    · rw [becomes.key, becomes.entry]
      exact line.follows
  · exact (ordered.inLine m other known queues).goes goes forward (found_lt known)

/-- The queue map is not touched, and no queued call of the key settles. -/
theorem Ends.modify {change : Call Key → Call Key} (ends : Ends state key)
    (found : state.calls[id]? = some call) (becomes : call.Becomes (change call))
    (quiet : (change call).queues = true → call.key = key → state.queues key = some id →
      (change call).phase.hasSettled = call.phase.hasSettled) :
    Ends (state.modify id change) key := by
  unfold Ends at ends ⊢
  rw [modify_queues]
  have goes : Goes state.calls (state.modify id change).calls := goes_modify found becomes
  cases link : state.queues key with
  | none =>
      rw [link] at ends
      intro m other held queues named
      obtain ⟨before, known, move⟩ := modify_found held
      obtain ⟨origin, was, becomes⟩ := goes m other held (found_lt known)
      have done := ends m origin was (by rw [← becomes.queues]; exact queues)
        (by rw [← becomes.key]; exact named)
      rw [becomes.settled done]
      exact done
  | some last =>
      rw [link] at ends
      obtain ⟨end', known, queues, named, open', latest⟩ := ends
      obtain ⟨later, held, on⟩ := forward_modify found becomes known
      refine ⟨later, held, by rw [on.queues]; exact queues, by rw [on.key]; exact named, ?_, ?_⟩
      · by_cases same : last = id
        · subst same
          rw [found] at known
          cases known
          rw [modify_changed found] at held
          cases held
          rw [quiet (by rw [becomes.queues]; exact queues) named link]
          exact open'
        · rw [modify_kept known same] at held
          cases held
          exact open'
      · intro m other held queues named
        obtain ⟨before, known, -⟩ := modify_found held
        obtain ⟨origin, was, becomes⟩ := goes m other held (found_lt known)
        exact latest m origin was (by rw [← becomes.queues]; exact queues)
          (by rw [← becomes.key]; exact named)

theorem ordered_start : Ordered (State.start : State Key) where
  inLine id call found := by simp [State.start] at found
  ends key := by
    intro m other found
    simp [State.start] at found

theorem forward_append (calls : List (Call Key)) (added : Call Key) {m : Nat} {origin : Call Key}
    (known : calls[m]? = some origin) :
    ∃ later, (calls ++ [added])[m]? = some later ∧ origin.Becomes later :=
  ⟨origin, append_kept added known, .refl origin⟩

/-- A new call leaves the others in their places. -/
theorem Ordered.inLine_append (ordered : Ordered state) {added : Call Key}
    (line : added.queues = true → InLine (state.calls ++ [added]) state.calls.length added)
    {m : Nat} (held : (state.calls ++ [added])[m]? = some other) (queues : other.queues = true) :
    InLine (state.calls ++ [added]) m other := by
  rcases append_found held with known | ⟨rfl, rfl⟩
  · exact (ordered.inLine m other known queues).goes (goes_append state.calls added)
      (fun _ _ was => forward_append state.calls added was) (found_lt known)
  · exact line queues

/-- A new call that does not queue for the key says nothing of its end. -/
theorem Ends.append {added : Call Key} {queues : Key → Option Nat} (ends : Ends state key)
    (other : added.queues = true → added.key ≠ key) (same : queues key = state.queues key) :
    Ends { calls := state.calls ++ [added], queues := queues } key := by
  unfold Ends at ends ⊢
  simp only [same]
  cases link : state.queues key with
  | none =>
      simp only [link] at ends
      intro m call held queued named
      rcases append_found held with known | ⟨rfl, rfl⟩
      · exact ends m call known queued named
      · exact absurd named (other queued)
  | some last =>
      simp only [link] at ends
      obtain ⟨end', known, queued, named, live, latest⟩ := ends
      refine ⟨end', append_kept added known, queued, named, live, ?_⟩
      intro m call held queued named
      rcases append_found held with known | ⟨rfl, rfl⟩
      · exact latest m call known queued named
      · exact absurd named (other queued)

/-- The call that is last in the queue of its key. -/
theorem Ordered.inLine_last (ordered : Ordered state) {added : Call Key}
    (entry : added.entry = .queued (state.queues added.key)) (waits : added.phase = .waiting)
    (unchained : added.chained = false) :
    InLine (state.calls ++ [added]) state.calls.length added := by
  have ends := ordered.ends added.key
  unfold Ends at ends
  have goes := goes_append state.calls added
  refine ⟨fun begun => absurd waits begun, ?_, ?_, ?_⟩
  · intro is
    rw [unchained] at is
    cases is
  · intro is
    rw [entry] at is
    have free : state.queues added.key = none := by simpa using is
    rw [free] at ends
    have settled : Before state.calls state.calls.length added.key :=
      fun m other _ found queues named => ends m other found queues named
    exact settled.goes goes (Nat.le_refl _)
  · intro previous is
    rw [entry] at is
    have link : state.queues added.key = some previous := by simpa using is
    rw [link] at ends
    obtain ⟨ahead, known, queues, named, live, latest⟩ := ends
    refine ⟨found_lt known, ahead, append_kept added known, queues, named, ?_⟩
    intro m other later earlier held queued keyed
    rcases append_found held with was | ⟨rfl, -⟩
    · exact absurd (latest m other was queued keyed) (Nat.not_le.mpr later)
    · exact Nat.lt_irrefl _ earlier

/-- An operation settles. -/
theorem Ordered.inLine_settled (ordered : Ordered state) (found : state.calls[id]? = some call)
    (runs : call.phase = .running) (rejected : Bool) {m : Nat}
    (held : (state.modify id (Call.settle rejected)).calls[m]? = some other)
    (queues : other.queues = true) :
    InLine (state.modify id (Call.settle rejected)).calls m other := by
  have begun : call.phase ≠ .waiting := by simp [runs]
  have line : call.queues = true → InLine state.calls id call := ordered.inLine id call found
  refine ordered.inLine_modify found (becomes_settled runs rejected) ?_ ?_ held queues
  · intro queues _
    exact (line queues).started begun
  · intro queues _
    exact ⟨rfl, (line queues).started begun⟩

section
variable [DecidableEq Key]

@[simp] theorem setQueue_calls (link : Option Nat) : (state.setQueue key link).calls = state.calls := rfl

theorem setQueue_self (link : Option Nat) : (state.setQueue key link).queues key = link := by
  simp [State.setQueue]

theorem setQueue_other {elsewhere : Key} (link : Option Nat) (apart : elsewhere ≠ key) :
    (state.setQueue key link).queues elsewhere = state.queues elsewhere := by
  simp [State.setQueue, apart]

/-- What an event does where it can happen. -/
inductive Turn (resolve : Dir → Key) (state : State Key) : Event Dir → State Key → Prop
  | idle (event : Event Dir) : Turn resolve state event state
  | nested (caller : Option Nat) (owned : List Key) (dir : Dir)
      (store : state.storeOf caller = some owned) (has : resolve dir ∈ owned) :
      Turn resolve state (.call caller dir) { state with calls := state.calls ++
        [{ caller := caller, key := resolve dir, owned := owned, entry := .nested, phase := .running }] }
  | queued (caller : Option Nat) (owned : List Key) (dir : Dir)
      (store : state.storeOf caller = some owned) (free : resolve dir ∉ owned) :
      Turn resolve state (.call caller dir) (({ state with calls := state.calls ++
        [{ caller := caller, key := resolve dir, owned := owned,
           entry := .queued (state.queues (resolve dir)), phase := .waiting }] } : State Key).setQueue
          (resolve dir) (some state.calls.length))
  | entered (id : Nat) (call : Call Key) (previous : Option Nat) (found : state.calls[id]? = some call)
      (entry : call.entry = .queued previous) (waits : call.phase = .waiting)
      (ready : state.behind previous = true) :
      Turn resolve state (.enter id) (state.modify id Call.run)
  | left (id : Nat) (call : Call Key) (rejected : Bool) (found : state.calls[id]? = some call)
      (runs : call.phase = .running) (more : call.queues = true → state.queues call.key ≠ some id) :
      Turn resolve state (.settle id rejected) (state.modify id (Call.settle rejected))
  | emptied (id : Nat) (call : Call Key) (rejected : Bool) (found : state.calls[id]? = some call)
      (runs : call.phase = .running) (queues : call.queues = true)
      (last : state.queues call.key = some id) :
      Turn resolve state (.settle id rejected)
        ((state.modify id (Call.settle rejected)).setQueue call.key none)
  | chained (id : Nat) (call : Call Key) (previous : Option Nat) (found : state.calls[id]? = some call)
      (entry : call.entry = .queued previous) (ready : state.behind previous = true)
      (settled : call.phase.hasSettled = true) :
      Turn resolve state (.chain id) (state.modify id Call.chain)

theorem step_turn (state : State Key) (event : Event Dir) :
    Turn resolve state event (step resolve state event) := by
  cases event with
  | call caller dir =>
      cases store : state.storeOf caller with
      | none => simpa only [step, store] using Turn.idle _
      | some owned =>
          simp only [step, store, withStackLock]
          split
          · exact .nested caller owned dir store ‹_›
          · exact .queued caller owned dir store ‹_›
  | enter id =>
      cases found : state.calls[id]? with
      | none => simpa only [step, found] using Turn.idle _
      | some call =>
          simp only [step, found, enter]
          split
          · split
            · exact .entered id call _ found ‹_› ‹_› ‹_›
            · exact .idle _
          · exact .idle _
  | settle id rejected =>
      cases found : state.calls[id]? with
      | none => simpa only [step, found] using Turn.idle _
      | some call =>
          simp only [step, found, settle]
          split
          · rename_i runs
            split
            · rename_i nested
              exact .left id call rejected found runs (by simp [Call.queues, nested])
            · rename_i previous queued
              split
              · exact .emptied id call rejected found runs (by simp [Call.queues, queued]) ‹_›
              · exact .left id call rejected found runs fun _ => ‹_›
          · exact .idle _
  | chain id =>
      cases found : state.calls[id]? with
      | none => simpa only [step, found] using Turn.idle _
      | some call =>
          simp only [step, found, settleChained]
          split
          · exact .idle _
          · split
            · rename_i both
              rw [Bool.and_eq_true] at both
              exact .chained id call _ found ‹_› both.1 both.2
            · exact .idle _

/-- The last of a queue settles and the queue goes. -/
theorem Ordered.ends_emptied (ordered : Ordered state) (found : state.calls[id]? = some call)
    (runs : call.phase = .running) (rejected : Bool) (queues : call.queues = true)
    (last : state.queues call.key = some id) (key : Key) :
    Ends ((state.modify id (Call.settle rejected)).setQueue call.key none)
      key := by
  have becomes := becomes_settled runs rejected
  by_cases named : key = call.key
  · subst named
    have ends := ordered.ends call.key
    have before := (ordered.inLine id call found queues).started (by simp [runs])
    unfold Ends at ends ⊢
    rw [last] at ends
    rw [setQueue_self]
    obtain ⟨-, -, -, -, -, latest⟩ := ends
    intro m other held queued keyed
    obtain ⟨was, known, ⟨rfl, rfl⟩ | ⟨apart, rfl⟩⟩ := modify_found held
    · rfl
    · have atMost := latest m other known queued keyed
      exact before m other (by omega) known queued keyed
  · have ends : Ends (state.modify id (Call.settle rejected)) key :=
      (ordered.ends key).modify found becomes fun _ same => absurd same.symm named
    unfold Ends at ends ⊢
    rw [setQueue_other none named]
    exact ends

theorem Turn.ordered {event : Event Dir} {after : State Key} (turn : Turn resolve state event after) (ordered : Ordered state) :
    Ordered after := by
  cases turn with
  | idle event => exact ordered
  | nested caller owned dir store has =>
      refine ⟨?_, ?_⟩
      · intro m other held queues
        exact ordered.inLine_append (fun queues => by simp [Call.queues] at queues) held queues
      · intro key
        exact (ordered.ends key).append (fun queues => by simp [Call.queues] at queues) rfl
  | queued caller owned dir store free =>
      refine ⟨?_, ?_⟩
      · intro m other held queues
        exact ordered.inLine_append (fun _ => ordered.inLine_last rfl rfl rfl) held queues
      · intro key
        by_cases named : key = resolve dir
        · subst named
          unfold Ends
          rw [setQueue_self]
          refine ⟨_, List.getElem?_concat_length, rfl, rfl, rfl, ?_⟩
          intro m other held queues keyed
          have within := found_lt held
          rw [setQueue_calls, List.length_append, List.length_singleton] at within
          omega
        · exact (ordered.ends key).append (fun _ same => named same.symm)
            (setQueue_other (some state.calls.length) named)
  | entered id call previous found entry waits ready =>
      have before := ordered.behind found entry ready
      have line := ordered.inLine id call found (by simp [Call.queues, entry])
      refine ⟨?_, ?_⟩
      · intro m other held queues
        exact ordered.inLine_modify found
          (becomes_running waits) (fun _ _ => before)
          (fun _ is => by
            have done := (line.chained is).1
            simp [waits, Phase.hasSettled] at done) held queues
      · intro key
        exact (ordered.ends key).modify found (becomes_running waits)
          fun _ _ _ => by simp [Call.run, waits, Phase.hasSettled]
  | left id call rejected found runs more =>
      refine ⟨?_, ?_⟩
      · intro m other held queues
        exact ordered.inLine_settled found runs rejected held queues
      · intro key
        refine (ordered.ends key).modify found (becomes_settled runs rejected) ?_
        intro queues named link
        exact absurd (by rw [named]; exact link) (more queues)
  | emptied id call rejected found runs queues last =>
      refine ⟨?_, ordered.ends_emptied found runs rejected queues last⟩
      intro m other held queued
      exact ordered.inLine_settled found runs rejected held queued
  | chained id call previous found entry ready settled =>
      have before := ordered.behind found entry ready
      have line := ordered.inLine id call found (by simp [Call.queues, entry])
      refine ⟨?_, ?_⟩
      · intro m other held queues
        exact ordered.inLine_modify found
          (becomes_chained call) (fun _ begun => line.started begun) (fun _ _ => ⟨settled, before⟩) held
          queues
      · intro key
        exact (ordered.ends key).modify found (becomes_chained call) fun _ _ _ => rfl

theorem reached_ordered (resolve : Dir → Key) (history : List (Event Dir)) :
    Ordered (reached resolve history) :=
  Data.replay_invariant ordered_start
    (fun state event ordered => (step_turn state event).ordered ordered) history

end

end Dockge.StackLock
