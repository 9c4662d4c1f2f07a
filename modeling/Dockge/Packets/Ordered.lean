import Dockge.Packets.Admission
import Mathlib.Algebra.Order.BigOperators.Group.List
import Mathlib.Algebra.Order.Ring.Nat

namespace Dockge.Packets

open Data

/-! Every packet is answered in its turn. -/

variable {P : Type} {packet : Packet P} {packets rest : List (Packet P)} {world : World P}
  {before start : Promise Thrown Unit} {stage : Stage}

/-- Each promise of a packet waits, or has settled as what it reacts to says. -/
structure InStep (before : Promise Thrown Unit) (packet : Packet P) : Prop where
  outcome : packet.outcome.Follows packet.checked
  awaited : packet.awaited.Follows (packet.awaits before)
  answered : packet.answered.Follows packet.answers
  admitted : packet.admitted.Follows packet.admits

/-- All packets are, each behind the one before it. -/
def Chained : Promise Thrown Unit → List (Packet P) → Prop
  | _, [] => True
  | before, packet :: rest => InStep before packet ∧ Chained packet.admitted rest

theorem chained_append {earlier later : List (Packet P)} :
    Chained start (earlier ++ later) ↔ Chained start earlier ∧ Chained (lastAdmitted start earlier) later := by
  induction earlier generalizing start with
  | nil => simp [Chained, lastAdmitted]
  | cons first earlier ih =>
      simp only [List.cons_append, Chained, ih, and_assoc]
      rfl

theorem InStep.of_pending (inStep : InStep .pending packet) : InStep before packet :=
  { inStep with awaited := inStep.awaited.of_pending }

theorem Chained.of_pending (chained : Chained .pending packets) : Chained before packets := by
  cases packets with
  | nil => trivial
  | cons packet rest => exact ⟨chained.1.of_pending, chained.2⟩

namespace InStep

theorem awaited_of_outcome (inStep : InStep before packet) (waits : packet.outcome = .pending)
    (outcome : Promise Thrown (Option Thrown)) :
    packet.awaited.Follows ({ packet with outcome := outcome }.awaits before) := by
  have awaited := inStep.awaited
  unfold Packet.awaits at awaited ⊢
  cases before with
  | pending => exact awaited
  | fulfilled value =>
      simp only [Promise.andThen, waits] at awaited
      exact awaited.of_pending
  | rejected error => exact awaited

theorem turn (inStep : InStep before packet) (stage : Stage) : InStep before (packet.turn before stage) := by
  cases stage with
  | outcome =>
      refine { inStep with outcome := inStep.outcome.react, awaited := ?_ }
      obtain same | ⟨waits, -, -⟩ := packet.outcome.react_eq packet.checked
      · simp only [Packet.turn, same]
        exact inStep.awaited
      · exact inStep.awaited_of_outcome waits _
  | awaited =>
      refine { inStep with awaited := inStep.awaited.react, answered := ?_ }
      obtain same | ⟨waits, -, -⟩ := packet.awaited.react_eq (packet.awaits before)
      · simp only [Packet.turn, same]
        exact inStep.answered
      · have answered := inStep.answered
        simp only [Packet.answers, waits, Promise.andThen] at answered
        exact answered.of_pending
  | answered =>
      refine { inStep with answered := inStep.answered.react, admitted := ?_ }
      obtain same | ⟨waits, -, -⟩ := packet.answered.react_eq packet.answers
      · simp only [Packet.turn, same]
        exact inStep.admitted
      · have admitted := inStep.admitted
        simp only [Packet.admits, waits, Promise.recover] at admitted
        exact admitted.of_pending
  | admitted => exact { inStep with admitted := inStep.admitted.react }

theorem settle (inStep : InStep before packet) (open_ : packet.check = none) (result : Except Thrown Unit) :
    InStep before { packet with check := some result } := by
  have outcome := inStep.outcome
  simp only [Packet.checked, open_] at outcome
  exact { inStep with outcome := outcome.of_pending }

theorem admitted_of_answered (inStep : InStep before packet) (waits : packet.answered = .pending) :
    packet.admitted = .pending := by
  have admitted := inStep.admitted
  simp only [Packet.admits, waits, Promise.recover] at admitted
  exact admitted.elim id id

end InStep

/-- The reaction of a packet leaves the next one behind what it was admitted with. -/
theorem turn_admitted (stage : Stage) : (packet.turn before stage).admitted = packet.admitted ∨
    packet.admitted = .pending := by
  cases stage with
  | admitted =>
      obtain same | ⟨waits, -, -⟩ := packet.admitted.react_eq packet.admits
      · exact .inl same
      · exact .inr waits
  | outcome | awaited | answered => exact .inl rfl

/-- Where nothing was admitted yet, nothing behind it was answered. -/
theorem Chained.unanswered (chained : Chained .pending packets) : ∀ packet ∈ packets, packet.answered = .pending := by
  induction packets with
  | nil => simp
  | cons packet rest ih =>
      obtain ⟨inStep, behind⟩ := chained
      have awaited : packet.awaited = .pending := inStep.awaited.elim id id
      have answered : packet.answered = .pending := by
        have follows := inStep.answered
        simp only [Packet.answers, awaited, Promise.andThen] at follows
        exact follows.elim id id
      rw [inStep.admitted_of_answered answered] at behind
      intro other member
      obtain rfl | member := List.mem_cons.mp member
      · exact answered
      · exact ih behind other member

/-! ## Calls -/

/-- What was called for a packet -/
def Packet.called (packet : Packet P) : List (Call P) := bif packet.answered.isPending then [] else packet.call

/-- The one call that a packet is due by its check -/
def Packet.due (packet : Packet P) : Option (Call P) :=
  packet.check.map fun
    | .ok _ => .next packet.packet
    | .error error => .deny packet.packet error

/-- What the due call throws -/
def Packet.throws (packet : Packet P) : Option Thrown :=
  packet.check.bind fun
    | .ok _ => packet.nextThrows
    | .error _ => packet.denyThrows

theorem Chained.uncalled (chained : Chained .pending packets) : packets.flatMap Packet.called = [] :=
  List.flatMap_eq_nil_iff.mpr fun packet member => by rw [Packet.called, chained.unanswered packet member]; rfl

theorem InStep.call_due (inStep : InStep before packet) : packet.call = [] ∨ packet.call.map some = [packet.due] := by
  obtain ⟨content, nextThrows, denyThrows, check, outcome, awaited, answered, admitted⟩ := packet
  cases awaited with
  | pending => exact .inl rfl
  | rejected error => exact .inl rfl
  | fulfilled refused =>
      have follows := inStep.awaited.resolve_left nofun
      have settled : outcome = .fulfilled refused := by
        cases before with
        | pending => cases follows
        | fulfilled => exact follows.symm
        | rejected => cases follows
      subst settled
      have its := inStep.outcome.resolve_left nofun
      right
      cases check with
      | none => cases its
      | some result =>
          cases result with
          | ok value => cases its; rfl
          | error error => cases its; rfl

theorem InStep.called_due (inStep : InStep before packet) : (packet.called.map some).Sublist [packet.due] := by
  unfold Packet.called
  cases packet.answered.isPending with
  | true => exact List.nil_sublist _
  | false =>
    obtain none_ | due := inStep.call_due
    · rw [none_]
      exact List.nil_sublist _
    · rw [cond_false, due]

theorem Chained.calls_due (chained : Chained start packets) :
    ((packets.flatMap Packet.called).map some).Sublist (packets.map Packet.due) := by
  induction packets generalizing start with
  | nil => exact List.Sublist.slnil
  | cons packet rest ih =>
      rw [List.flatMap_cons, List.map_append, List.map_cons]
      exact chained.1.called_due.append (ih chained.2)

/-- A reaction calls what it makes due to be called, and nothing else. -/
theorem called_turn (inStep : InStep before packet) (stage : Stage) :
    (packet.turn before stage).called = packet.called ++ packet.turnCalls stage := by
  cases stage with
  | outcome => exact (List.append_nil _).symm
  | admitted => exact (List.append_nil _).symm
  | awaited =>
      have silent : packet.turnCalls .awaited = [] := rfl
      rw [silent, List.append_nil]
      obtain same | ⟨waits, -, -⟩ := packet.awaited.react_eq (packet.awaits before)
      · simp only [Packet.turn, same]
      · have follows := inStep.answered
        simp only [Packet.answers, waits, Promise.andThen] at follows
        have unanswered : packet.answered = .pending := follows.elim id id
        simp only [Packet.turn, Packet.called, unanswered, Promise.isPending, cond_true]
  | answered =>
      simp only [Packet.turn, Packet.called, Packet.turnCalls]
      cases settled : packet.answered with
      | pending =>
          cases awaited : packet.awaited with
          | pending => simp only [Packet.answers, Packet.call, awaited, Promise.andThen]; rfl
          | rejected error => simp only [Packet.answers, Packet.call, awaited, Promise.andThen]; rfl
          | fulfilled refused =>
              have answered : (Promise.pending.react packet.answers).isPending = false := by
                simp only [Packet.answers, awaited, Promise.andThen, Promise.react]
                split <;> rfl
              rw [answered]
              simp only [Packet.call, awaited]
              rfl
      | fulfilled => exact (List.append_nil _).symm
      | rejected => exact (List.append_nil _).symm

/-! ## Runs -/

theorem lastAdmitted_append {earlier later : List (Packet P)} :
    lastAdmitted start (earlier ++ later) = lastAdmitted (lastAdmitted start earlier) later :=
  List.foldl_append

theorem split_at {index : Nat} (found : packets[index]? = some packet) :
    packets = packets.take index ++ packet :: packets.drop (index + 1) := by
  obtain ⟨bound, same⟩ := List.getElem?_eq_some_iff.mp found
  rw [← same, ← List.drop_eq_getElem_cons bound, List.take_append_drop]

theorem set_split {index : Nat} (found : packets[index]? = some packet) (changed : Packet P) :
    packets.set index changed = packets.take index ++ changed :: packets.drop (index + 1) := by
  obtain ⟨bound, -⟩ := List.getElem?_eq_some_iff.mp found
  rw [List.set_eq_take_append_cons_drop, if_pos bound]

/-- What holds of every state that is reached -/
structure Reached (world : World P) : Prop where
  chained : Chained (.fulfilled ()) world.packets
  calls : world.calls = world.packets.flatMap Packet.called

namespace Reached

theorem at_index (reached : Reached world) {index : Nat} (found : world.packets[index]? = some packet) :
    InStep (lastAdmitted (.fulfilled ()) (world.packets.take index)) packet := by
  have chained := reached.chained
  rw [split_at found, chained_append] at chained
  exact chained.2.1

/-- One packet changes, and either the next one is behind it as before or nothing was behind it yet. -/
theorem set_chained (reached : Reached world) {index : Nat} (found : world.packets[index]? = some packet)
    {changed : Packet P} (inStep : InStep (lastAdmitted (.fulfilled ()) (world.packets.take index)) changed)
    (behind : changed.admitted = packet.admitted ∨ packet.admitted = .pending) :
    Chained (.fulfilled ()) (world.packets.set index changed) := by
  have chained := reached.chained
  rw [split_at found, chained_append] at chained
  rw [set_split found, chained_append]
  obtain ⟨earlier, -, later⟩ := chained
  refine ⟨earlier, inStep, ?_⟩
  obtain same | waits := behind
  · exact same ▸ later
  · rw [waits] at later
    exact later.of_pending

theorem settle (reached : Reached world) {index : Nat} (found : world.packets[index]? = some packet)
    (open_ : packet.check = none) (result : Except Thrown Unit) :
    Reached { world with packets := world.packets.set index { packet with check := some result } } where
  chained := reached.set_chained found ((reached.at_index found).settle open_ result) (.inl rfl)
  calls := by
    have calls := reached.calls
    rw [split_at found, List.flatMap_append, List.flatMap_cons] at calls
    rw [set_split found, List.flatMap_append, List.flatMap_cons]
    exact calls

theorem turn (reached : Reached world) {index : Nat} (found : world.packets[index]? = some packet)
    (stage : Stage) : Reached (step world (.turn index stage)) := by
  have inStep := reached.at_index found
  simp only [step, found]
  refine ⟨reached.set_chained found (inStep.turn stage) (turn_admitted stage), ?_⟩
  have calls := reached.calls
  have later := reached.chained
  rw [split_at found, chained_append] at later
  rw [split_at found, List.flatMap_append, List.flatMap_cons] at calls
  rw [set_split found, List.flatMap_append, List.flatMap_cons, calls, called_turn inStep]
  cases quiet : packet.turnCalls stage with
  | nil => simp only [List.append_nil]
  | cons call more =>
      -- A call is made while nothing behind the packet has been answered.
      have waits : packet.answered = .pending := by
        cases stage with
        | answered =>
            cases settled : packet.answered with
            | pending => rfl
            | fulfilled => simp [Packet.turnCalls, settled, Promise.isPending] at quiet
            | rejected => simp [Packet.turnCalls, settled, Promise.isPending] at quiet
        | outcome | awaited | admitted => cases quiet
      have behind := later.2.2
      rw [inStep.admitted_of_answered waits] at behind
      rw [behind.uncalled]
      simp only [List.append_nil, List.append_assoc]

theorem step (reached : Reached world) (event : Event P) : Reached (step world event) := by
  cases event with
  | middleware packet nextThrows denyThrows =>
      refine ⟨chained_append.mpr ⟨reached.chained, ⟨.inl rfl, .inl rfl, .inl rfl, .inl rfl⟩, trivial⟩, ?_⟩
      simp only [Packets.step, List.flatMap_append, ← reached.calls]
      exact (List.append_nil _).symm
  | settle index result =>
      simp only [Packets.step]
      split
      next packet found =>
        split
        next open_ => exact reached.settle found (Option.isNone_iff_eq_none.mp open_) result
        · exact reached
      · exact reached
  | turn index stage =>
      cases found : world.packets[index]? with
      | none => simpa only [Packets.step, found] using reached
      | some packet => exact reached.turn found stage

theorem run (history : List (Event P)) : Reached (replay Packets.step .empty history) :=
  replay_invariant (motive := Reached) (⟨trivial, rfl⟩ : Reached World.empty) (fun _ event reached => reached.step event) history

end Reached

/-! ## Reactions come to an end -/

def Packet.pendings (packet : Packet P) : Nat :=
  packet.outcome.isPending.toNat + packet.awaited.isPending.toNat + packet.answered.isPending.toNat +
    packet.admitted.isPending.toNat

/-- How many promises are still pending -/
def World.remaining (world : World P) : Nat := (world.packets.map Packet.pendings).sum

theorem turn_pendings (packet : Packet P) (before : Promise Thrown Unit) (stage : Stage) :
    packet.turn before stage = packet ∨ (packet.turn before stage).pendings + 1 = packet.pendings := by
  cases stage with
  | outcome =>
      obtain same | fewer := packet.outcome.react_waits packet.checked
      · exact .inl (by rw [Packet.turn, same])
      · right
        simp only [Packet.turn, Packet.pendings]
        omega
  | awaited =>
      obtain same | fewer := packet.awaited.react_waits (packet.awaits before)
      · exact .inl (by rw [Packet.turn, same])
      · right
        simp only [Packet.turn, Packet.pendings]
        omega
  | answered =>
      obtain same | fewer := packet.answered.react_waits packet.answers
      · exact .inl (by rw [Packet.turn, same])
      · right
        simp only [Packet.turn, Packet.pendings]
        omega
  | admitted =>
      obtain same | fewer := packet.admitted.react_waits packet.admits
      · exact .inl (by rw [Packet.turn, same])
      · right
        simp only [Packet.turn, Packet.pendings]
        omega

theorem Reached.turn_remaining (reached : Reached world) (index : Nat) (stage : Stage) :
    Packets.step world (.turn index stage) = world ∨
      (Packets.step world (.turn index stage)).remaining + 1 = world.remaining := by
  cases found : world.packets[index]? with
  | none => exact .inl (by simp only [Packets.step, found])
  | some packet =>
      have called := called_turn (reached.at_index found) stage
      obtain same | fewer := turn_pendings packet (lastAdmitted (.fulfilled ()) (world.packets.take index)) stage
      · left
        rw [same] at called
        have quiet : packet.turnCalls stage = [] := by simpa using called
        simp only [Packets.step, found, same, quiet, List.append_nil]
        rw [set_split found, ← split_at found]
      · right
        simp only [Packets.step, found, World.remaining]
        rw [set_split found]
        conv_rhs => rw [split_at found]
        simp only [List.map_append, List.map_cons, List.sum_append, List.sum_cons]
        omega

/-! ## When everything has run -/

/-- No reaction has anything left to do. -/
def World.Quiescent (world : World P) : Prop :=
  ∀ (index : Nat) (stage : Stage), Packets.step world (.turn index stage) = world

theorem World.remaining_le (world : World P) : world.remaining ≤ 4 * world.packets.length := by
  have bound : ∀ count ∈ world.packets.map Packet.pendings, count ≤ 4 := by
    intro count member
    obtain ⟨packet, -, rfl⟩ := List.mem_map.mp member
    have outcome := Bool.toNat_le packet.outcome.isPending
    have awaited := Bool.toNat_le packet.awaited.isPending
    have answered := Bool.toNat_le packet.answered.isPending
    have admitted := Bool.toNat_le packet.admitted.isPending
    unfold Packet.pendings
    omega
  have total := List.sum_le_card_nsmul _ 4 bound
  rw [List.length_map, nsmul_eq_mul, Nat.mul_comm] at total
  exact total

/-- A few reactions, as many as there are pending promises, are enough. -/
theorem Reached.becomes_quiescent (reached : Reached world) : ∃ turns : List (Nat × Stage),
    turns.length ≤ world.remaining ∧
      (replay Packets.step world (turns.map fun turn => .turn turn.1 turn.2)).Quiescent := by
  generalize count : world.remaining = remaining
  induction remaining generalizing world with
  | zero =>
      refine ⟨[], Nat.le_refl 0, fun index stage => ?_⟩
      exact (reached.turn_remaining index stage).resolve_right fun fewer => by omega
  | succ remaining ih =>
      by_cases quiet : world.Quiescent
      · exact ⟨[], Nat.zero_le _, quiet⟩
      · obtain ⟨index, quiet⟩ := not_forall.mp quiet
        obtain ⟨stage, moves⟩ := not_forall.mp quiet
        have fewer := (reached.turn_remaining index stage).resolve_left moves
        obtain ⟨turns, short, settled⟩ := ih (reached.step (.turn index stage)) (by omega)
        exact ⟨(index, stage) :: turns, Nat.succ_le_succ short, settled⟩

/-- Every promise of a packet is what it reacts to. -/
structure Finished (before : Promise Thrown Unit) (packet : Packet P) : Prop where
  outcome : packet.outcome = packet.checked
  awaited : packet.awaited = packet.awaits before
  answered : packet.answered = packet.answers
  admitted : packet.admitted = packet.admits

def AllFinished : Promise Thrown Unit → List (Packet P) → Prop
  | _, [] => True
  | before, packet :: rest => Finished before packet ∧ AllFinished packet.admitted rest

theorem InStep.finished (inStep : InStep before packet)
    (still : ∀ stage, packet.turn before stage = packet) : Finished before packet where
  outcome := inStep.outcome.eq_of_react (congrArg (·.outcome) (still .outcome))
  awaited := inStep.awaited.eq_of_react (congrArg (·.awaited) (still .awaited))
  answered := inStep.answered.eq_of_react (congrArg (·.answered) (still .answered))
  admitted := inStep.admitted.eq_of_react (congrArg (·.admitted) (still .admitted))

theorem allFinished_of_index (finished : ∀ (index : Nat) (packet : Packet P), packets[index]? = some packet →
    Finished (lastAdmitted start (packets.take index)) packet) : AllFinished start packets := by
  induction packets generalizing start with
  | nil => trivial
  | cons packet rest ih => exact ⟨finished 0 packet rfl, ih fun index other found => finished (index + 1) other found⟩

theorem Reached.finished (reached : Reached world) (quiet : world.Quiescent) :
    AllFinished (.fulfilled ()) world.packets := by
  refine allFinished_of_index fun index packet found => (reached.at_index found).finished fun stage => ?_
  have still := congrArg (·.packets) (quiet index stage)
  simp only [Packets.step, found] at still
  obtain ⟨bound, same⟩ := List.getElem?_eq_some_iff.mp found
  have changed := congrArg (·[index]?) still
  simp only [List.getElem?_set_self bound, found] at changed
  exact Option.some.inj changed

/-- What a due call throws can be logged. -/
def Packet.loud (packet : Packet P) : Bool := packet.throws.all (·.text.isSome)

theorem answers_eq {refused : Option Thrown} (awaited : packet.awaited = .fulfilled refused) :
    packet.answers = (if refused.isSome then packet.denyThrows else packet.nextThrows).elim (.fulfilled ()) .rejected := by
  simp only [Packet.answers, awaited, Promise.andThen]
  cases (if refused.isSome then packet.denyThrows else packet.nextThrows) <;> rfl

theorem Finished.awaited_due (finished : Finished (.fulfilled ()) packet) (settled : packet.check.isSome) :
    ∃ refused, packet.awaited = .fulfilled refused ∧ packet.call.map some = [packet.due] ∧
      packet.throws = if refused.isSome then packet.denyThrows else packet.nextThrows := by
  have awaited : packet.awaited = packet.checked := finished.awaited.trans finished.outcome
  obtain ⟨result, check⟩ := Option.isSome_iff_exists.mp settled
  simp only [Packet.checked, check] at awaited
  cases result with
  | ok value =>
      refine ⟨none, awaited, ?_, ?_⟩
      · simp only [Packet.call, awaited, Packet.due, check]
        rfl
      · simp only [Packet.throws, check]
        rfl
  | error error =>
      refine ⟨some error, awaited, ?_, ?_⟩
      · simp only [Packet.call, awaited, Packet.due, check]
        rfl
      · simp only [Packet.throws, check]
        rfl

theorem Finished.answers_due (finished : Finished (.fulfilled ()) packet) (settled : packet.check.isSome) :
    packet.called.map some = [packet.due] ∧
      packet.admitted = if packet.loud then .fulfilled () else .rejected typeError := by
  obtain ⟨refused, awaited, due, throws⟩ := finished.awaited_due settled
  have answered : packet.answered = packet.throws.elim (.fulfilled ()) .rejected := by
    rw [finished.answered, answers_eq awaited, throws]
  constructor
  · have given : packet.answered.isPending = false := by
      rw [answered]
      cases packet.throws <;> rfl
    rw [Packet.called, given, cond_false, due]
  · rw [finished.admitted, Packet.admits, answered, Packet.loud]
    cases packet.throws with
    | none => rfl
    | some thrown =>
        obtain ⟨text⟩ := thrown
        cases text <;> rfl

/-- Behind a rejection nothing is called. -/
theorem Finished.skipped {error : Thrown} (finished : Finished (.rejected error) packet) : packet.called = [] := by
  have awaited : packet.awaited = .rejected error := finished.awaited
  simp only [Packet.called, Packet.call, awaited, Bool.cond_self]

theorem Finished.inStep (finished : Finished before packet) : InStep before packet :=
  ⟨.inr finished.outcome, .inr finished.awaited, .inr finished.answered, .inr finished.admitted⟩

theorem AllFinished.chained (finished : AllFinished start packets) : Chained start packets := by
  induction packets generalizing start with
  | nil => trivial
  | cons packet rest ih => exact ⟨finished.1.inStep, ih finished.2⟩

theorem AllFinished.calls_iff (finished : AllFinished (.fulfilled ()) packets)
    (settled : ∀ packet ∈ packets, packet.check.isSome) :
    (packets.flatMap Packet.called).map some = packets.map Packet.due ↔
      ∀ packet ∈ packets.dropLast, packet.loud = true := by
  induction packets with
  | nil => simp
  | cons packet rest ih =>
      have its : packet.check.isSome := settled packet List.mem_cons_self
      obtain ⟨called, admitted⟩ := finished.1.answers_due its
      have behind := finished.2
      rw [List.flatMap_cons, List.map_append, List.map_cons, called, List.singleton_append, List.cons_inj_right]
      cases rest with
      | nil => simp
      | cons second others =>
          rw [List.dropLast_cons_cons, List.forall_mem_cons]
          cases loud : packet.loud with
          | true =>
              rw [admitted, if_pos loud] at behind
              rw [ih behind fun other member => settled other (List.mem_cons_of_mem _ member)]
              simp
          | false =>
              rw [admitted, if_neg (by rw [loud]; decide)] at behind
              refine iff_of_false (fun same => ?_) (fun all => Bool.false_ne_true all.1)
              have fewer := (behind.2.chained.calls_due).length_le
              have count := congrArg List.length same
              rw [List.flatMap_cons, behind.1.skipped, List.nil_append] at count
              simp only [List.length_map, List.length_cons] at fewer count
              omega

/-! ## Admission in order -/

/-- All checks have settled, and everything that follows from it has run. -/
structure World.Settled (world : World P) : Prop where
  checks : ∀ packet ∈ world.packets, packet.check.isSome
  quiescent : world.Quiescent

/-- Each packet was answered once, by the call its check made due, in the order of their arrival. -/
def World.AnswersEach (world : World P) : Prop := world.calls.map some = world.packets.map Packet.due

/-- No packet but the last makes its call throw what `String` fails on. -/
def World.Loud (world : World P) : Prop := ∀ packet ∈ world.packets.dropLast, packet.loud = true

/-- Whatever arrives, settles and runs, in whatever order: no packet is answered twice, out of turn or
against its check; the reactions come to an end; and when all checks have settled and everything has
run, every packet was answered exactly where no answer, but the last, threw what cannot be logged. -/
theorem packets_in_order (history : List (Event P)) :
    let world := replay step .empty history
    ((world.calls.map some).Sublist (world.packets.map Packet.due)) ∧
      (∃ turns : List (Nat × Stage), turns.length ≤ 4 * world.packets.length ∧
        (replay step world (turns.map fun turn => .turn turn.1 turn.2)).Quiescent) ∧
      (world.Settled → (world.AnswersEach ↔ world.Loud)) := by
  intro world
  have reached : Reached world := .run history
  refine ⟨reached.calls ▸ reached.chained.calls_due, ?_, fun settled => ?_⟩
  · obtain ⟨turns, short, quiet⟩ := reached.becomes_quiescent
    exact ⟨turns, short.trans world.remaining_le, quiet⟩
  · rw [World.AnswersEach, reached.calls]
    exact (reached.finished settled.quiescent).calls_iff settled.checks

/-- Two packets pass their checks, and `next` throws an object without a prototype for the first. -/
def unprintable : List (Event Nat) :=
  let turns (index : Nat) : List (Event Nat) :=
    [.turn index .outcome, .turn index .awaited, .turn index .answered, .turn index .admitted]
  [.middleware 0 (some ⟨none⟩) none, .middleware 1 none none, .settle 1 (.ok ()), .settle 0 (.ok ())] ++
    turns 0 ++ turns 1

theorem unprintable_world : replay step .empty unprintable =
    { packets :=
        [⟨0, some ⟨none⟩, none, some (.ok ()), .fulfilled none, .fulfilled none, .rejected ⟨none⟩,
          .rejected typeError⟩,
        ⟨1, none, none, some (.ok ()), .fulfilled none, .rejected typeError, .rejected typeError, .fulfilled ()⟩]
      calls := [.next 0] } := by
  decide +kernel

theorem unprintable_loses_packet :
    ¬ ∀ history : List (Event Nat), (replay step .empty history).Settled → (replay step .empty history).AnswersEach := by
  intro answers
  have each := answers unprintable
  rw [unprintable_world] at each
  have lengths := congrArg List.length (each ⟨?_, ?_⟩)
  · cases lengths
  · decide
  · intro index stage
    match index with
    | 0 => cases stage <;> rfl
    | 1 => cases stage <;> rfl
    | index + 2 => rfl

end Dockge.Packets
