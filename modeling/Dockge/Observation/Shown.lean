import Dockge.Data.Sorted
import Dockge.Observation.Coverage
import Mathlib

namespace Dockge.Observation

open Dockge.Data Dockge.StackStatus

/-! The availability a client is shown, over a connection of its own or that of another panel. -/

/-- A name Compose and the stacks directory give. -/
structure StackName where
  stackName : String
  plain : '/' ∉ stackName.toList

instance instDecidableEqStackName : DecidableEq StackName := fun one other =>
  decidable_of_iff (one.stackName = other.stackName) (by
    cases one
    cases other
    rw [StackName.mk.injEq])

def StackName.ref (name : StackName) (endpoint : String) : StackRef := ⟨name.stackName, endpoint, name.plain⟩

/-- One stack of the list a round observes, with what happens while it is written down. -/
structure ObservedStack where
  name : StackName
  status : Status
  aborted : Bool := false
  updateWorks : Bool := true
  insertWorks : Bool := true
  deletedInUpdate : List StackName := []
  deletedInInsert : List StackName := []

/-- What `observeStacks` gives to `recordScan`. -/
def observeStacks (stackList : List ObservedStack) : List Scanned :=
  stackList.map fun observed => {
    stack := observed.name.ref "", status := observed.status, aborted := observed.aborted
    updateWorks := observed.updateWorks, insertWorks := observed.insertWorks
    forgottenInUpdate := observed.deletedInUpdate.map (·.ref "")
    forgottenInInsert := observed.deletedInInsert.map (·.ref "") }

/-- What a panel does to its history.  A round observes each stack once. -/
inductive PanelEvent where
  | observe (elapsed : Nat) (stackList : List ObservedStack) (distinct : (stackList.map (·.name)).Nodup)
      (aborted pruneWorks : Bool)
  | delete (name : StackName)
  | restart

def PanelEvent.recorded : PanelEvent → RecorderEvent
  | .observe elapsed stackList _ aborted pruneWorks => .scan elapsed (observeStacks stackList) aborted pruneWorks
  | .delete name => .forget (name.ref "")
  | .restart => .restart

/-- The panel after a history of observation rounds. -/
def observed (history : List PanelEvent) : Recorder := recorded (history.map PanelEvent.recorded)

namespace Recorder

/-- The changes that describe a window, with the one right before it, which says which state the window
opens with. -/
def readChanges (recorder : Recorder) (stack : StackRef) (windowMs now : Nat) : List StatusChange :=
  let start := now - windowMs
  let inside := (recorder.table.rowsOf stack).filter (start ≤ ·.observedAt)
  let before := (recorder.table.rowsOf stack).filter (·.observedAt < start)
  ((before.mergeSort fun row other => other.observedAt ≤ row.observedAt).take 1 ++
    inside.mergeSort fun row other => row.observedAt ≤ other.observedAt).map changeOf

def readAvailability (recorder : Recorder) (stack : StackRef) (windowMs now : Nat) : Availability :=
  computeAvailability (recorder.readChanges stack windowMs now) windowMs now

/-- The rows of one batch, and then those of the batches after it. -/
def batchRows (recorder : Recorder) (names : List StackName) (endpoint : String) (windowMs now : Nat) :
    List (IntervalRow StackRef Status) :=
  if names = [] then []
  else
    let batch := names.take 400
    let rows := recorder.table.rows.filter fun row =>
      row.owner.endpoint = endpoint ∧ batch.any (·.stackName = row.owner.stackName) ∧ now - windowMs ≤ row.observedUntil
    rows.mergeSort (fun row other => row.observedAt ≤ other.observedAt) ++
      recorder.batchRows (names.drop 400) endpoint windowMs now
termination_by names.length
decreasing_by
  have nonempty : 0 < names.length := List.length_pos_of_ne_nil ‹_›
  simp only [List.length_drop]
  omega

/-- Read one endpoint's selected stacks in bounded batches, including the left-edge interval. -/
def readAvailabilityBatch (recorder : Recorder) (names : List StackName) (endpoint : String) (windowMs now : Nat)
    (name : StackName) : Option Availability :=
  if name ∈ names then
    let rows := (recorder.batchRows names endpoint windowMs now).filter (·.owner.stackName = name.stackName)
    some (computeAvailability (rows.map changeOf) windowMs now)
  else none

end Recorder

def dayMs : Nat := 24 * 3600000

/-- What the row of a stack shows. -/
def fillAvailability (recorder : Recorder) (names : List StackName) (now : Nat) (name : StackName) : Option Availability :=
  recorder.readAvailabilityBatch names "" dayMs now name

/-- What the `stackAvailability` event answers, for the window of a day. -/
def stackAvailability (recorder : Recorder) (endpoint : String) (now : Nat) (name : StackName) : Availability :=
  recorder.readAvailability (name.ref endpoint) (24 * 3600000) now

/-! ## What a window sees of the intervals -/

variable {changes old kept : List StatusChange} {change : StatusChange} {windowMs now : Nat} {soFar : Measuring}

/-- An interval that ended before the window adds nothing. -/
theorem measureStep_old (ended : change.span.stop ≤ now - windowMs) (next : Option StatusChange) :
    measureStep change next windowMs now soFar = { soFar with insideIncident := false } := by
  have empty : min (change.observedUntil.getD change.observedAt) (min ((next.map (·.observedAt)).getD now) now) ≤
      max change.observedAt (now - windowMs) := by
    have stop : change.span.stop = change.observedUntil.getD change.observedAt := rfl
    omega
  unfold measureStep
  simp [empty]

theorem measure_recent (ended : ∀ change ∈ old, change.span.stop ≤ now - windowMs) :
    measure (old ++ kept) windowMs now = measure kept windowMs now := by
  have skips : ∀ soFar : Measuring, soFar.insideIncident = false →
      measureFrom (old ++ kept) windowMs now soFar = measureFrom kept windowMs now soFar := by
    intro soFar outside
    induction old with
    | nil => rfl
    | cons change rest ih =>
        rw [List.cons_append, measureFrom, measureStep_old (ended change (by simp))]
        have same : { soFar with insideIncident := false } = soFar := by
          rw [← outside]
        rw [same]
        exact ih (fun other member => ended other (by simp [member]))
  unfold measure
  rw [skips {} rfl]

theorem describeCurrent_old (ended : change.span.stop < now - windowMs) (wide : observationFreshnessMs ≤ windowMs) :
    describeCurrent (some change) now = none := by
  unfold describeCurrent
  cases confirmed : change.observedUntil with
  | none => simp only [confirmed]
  | some stop =>
      have same : change.span.stop = stop := by simp [StatusChange.span, confirmed]
      have stale : now - stop > observationFreshnessMs := by omega
      simp only [confirmed, stale, or_true, if_true]

/-- Intervals that ended before the window do not show in it. -/
theorem computeAvailability_recent
    (sorted : (old ++ kept).Pairwise fun before after => before.observedAt ≤ after.observedAt)
    (past : ∀ change ∈ old ++ kept, change.observedAt ≤ now)
    (ended : ∀ change ∈ old, change.span.stop < now - windowMs) (wide : observationFreshnessMs ≤ windowMs) :
    computeAvailability (old ++ kept) windowMs now = computeAvailability kept windowMs now := by
  have keptSorted : sortedChanges kept now = kept :=
    sortedChanges_eq (List.pairwise_append.mp sorted).2.1 fun change member => past change (by simp [member])
  have measured : measure (old ++ kept) windowMs now = measure kept windowMs now :=
    measure_recent fun change member => Nat.le_of_lt (ended change member)
  have current : describeCurrent (old ++ kept).getLast? now = describeCurrent kept.getLast? now := by
    cases empty : kept with
    | cons first rest => rw [List.getLast?_append_of_ne_nil _ (by simp)]
    | nil =>
        rw [List.append_nil]
        cases last : old.getLast? with
        | none => rfl
        | some change => exact describeCurrent_old (ended change (List.mem_of_getLast? last)) wide
  unfold computeAvailability
  simp only [sortedChanges_eq sorted past, keptSorted, measured, current]

/-! ## Each interval of a stack begins later than the ones before -/

namespace Recorder

variable {recorder : Recorder} {stack other : StackRef} {scanned : Scanned}

/-- When the intervals of a stack began. -/
def starts (recorder : Recorder) (stack : StackRef) : List Nat := (recorder.table.rowsOf stack).map (·.observedAt)

theorem starts_table {after : Recorder} (same : after.table = recorder.table) :
    after.starts stack = recorder.starts stack := by
  rw [starts, starts, same]

theorem starts_confirm {id : Nat} :
    ((recorder.table.confirm id now).1.rowsOf stack).map (·.observedAt) = recorder.starts stack := by
  rw [IntervalTable.rowsOf_confirm, List.map_map, starts]
  apply List.map_congr_left
  intro row _
  simp only [Function.comp_apply, IntervalRow.confirm]
  split <;> rfl

theorem insertObservation_starts :
    ∃ added, (added = [] ∨ added = [now]) ∧
      (recorder.insertObservation scanned now).1.starts scanned.stack = recorder.starts scanned.stack ++ added ∧
      ∀ stack ≠ scanned.stack, (recorder.insertObservation scanned now).1.starts stack = recorder.starts stack := by
  unfold insertObservation
  split
  · refine ⟨[now], .inr rfl, ?_, ?_⟩
    · simp only [starts, note, forgetAll_table, IntervalTable.rowsOf_insert, if_true, List.map_append,
        List.map_cons, List.map_nil]
    · intro stack differs
      simp only [starts, note, forgetAll_table, IntervalTable.rowsOf_insert, Ne.symm differs, if_false,
        List.append_nil]
  · refine ⟨[], .inl rfl, ?_, ?_⟩
    · simp [starts, forgetAll_table]
    · intro stack _
      simp [starts, forgetAll_table]

theorem recordStatus_starts :
    ∃ added, (added = [] ∨ added = [now]) ∧
      (recorder.recordStatus scanned now).1.starts scanned.stack = recorder.starts scanned.stack ++ added ∧
      ∀ stack ≠ scanned.stack, (recorder.recordStatus scanned now).1.starts stack = recorder.starts stack := by
  -- A write that confirms an interval moves no start, so what follows it decides.
  have confirmed : ∀ (held : Recorder) (id : Nat), held.table = (recorder.table.confirm id now).1 →
      ∀ stack, held.starts stack = recorder.starts stack := by
    intro held id same stack
    rw [starts, same, starts_confirm]
  have inserted : ∀ held : Recorder, (∀ stack, held.starts stack = recorder.starts stack) →
      ∃ added, (added = [] ∨ added = [now]) ∧
        (held.insertObservation scanned now).1.starts scanned.stack = recorder.starts scanned.stack ++ added ∧
        ∀ stack ≠ scanned.stack, (held.insertObservation scanned now).1.starts stack = recorder.starts stack := by
    intro held same
    obtain ⟨added, how, ours, others⟩ := @insertObservation_starts now held scanned
    exact ⟨added, how, by rw [ours, same], fun stack differs => by rw [others stack differs, same]⟩
  unfold recordStatus
  split
  · exact inserted recorder fun _ => rfl
  · rename_i previous _
    split
    · split
      · dsimp only
        split
        · split
          · refine ⟨[], .inl rfl, ?_, ?_⟩
            · rw [List.append_nil]
              exact confirmed _ previous.id (by simp [touch, note, forgetAll_table]) _
            · intro stack _
              exact confirmed _ previous.id (by simp [touch, note, forgetAll_table]) _
          · exact inserted _ (confirmed _ previous.id (by simp [note, forgetAll_table]))
        · exact inserted _ (confirmed _ previous.id (by simp [forgetAll_table]))
      · refine ⟨[], .inl rfl, ?_, ?_⟩
        · rw [List.append_nil]
          exact starts_table (by simp [forgetAll_table])
        · intro stack _
          exact starts_table (by simp [forgetAll_table])
    · exact inserted recorder fun _ => rfl

/-- The intervals of each stack began one after another, by now. -/
def Ordered (recorder : Recorder) (now : Nat) : Prop :=
  ∀ stack, (recorder.starts stack).Pairwise (· < ·) ∧ ∀ start ∈ recorder.starts stack, start ≤ now

theorem recordEach_ordered {stackList : List Scanned} (distinct : (stackList.map (·.stack)).Nodup)
    (ordered : recorder.Ordered now) (fresh : ∀ scanned ∈ stackList, ∀ start ∈ recorder.starts scanned.stack, start < now)
    (written : Nat) : (recorder.recordEach stackList now written).1.Ordered now := by
  induction stackList generalizing recorder written with
  | nil => exact ordered
  | cons scanned rest ih =>
      unfold recordEach
      split
      · exact ordered
      · rw [List.map_cons, List.nodup_cons] at distinct
        obtain ⟨added, how, ours, others⟩ := @recordStatus_starts now recorder scanned
        have orderedNext : (recorder.recordStatus scanned now).1.Ordered now := by
          intro stack
          by_cases same : stack = scanned.stack
          · subst same
            rw [ours]
            rcases how with rfl | rfl
            · rw [List.append_nil]
              exact ordered _
            · refine ⟨List.pairwise_append.mpr ⟨(ordered _).1, List.pairwise_singleton _ _, ?_⟩, ?_⟩
              · intro start held last member
                rw [List.mem_singleton.mp member]
                exact fresh scanned (by simp) start held
              · intro start member
                rcases List.mem_append.mp member with held | last
                · exact (ordered _).2 start held
                · rw [List.mem_singleton.mp last]
          · rw [others stack same]
            exact ordered stack
        refine ih distinct.2 orderedNext ?_ _
        intro later member start held
        have differs : later.stack ≠ scanned.stack := by
          intro same
          exact distinct.1 (same ▸ List.mem_map_of_mem member)
        rw [others later.stack differs] at held
        exact fresh later (by simp [member]) start held

theorem recordEach_clock (stackList : List Scanned) (written : Nat) :
    (recorder.recordEach stackList now written).1.clock = recorder.clock := by
  induction stackList generalizing recorder written with
  | nil => rfl
  | cons scanned rest ih =>
      unfold recordEach
      split
      · rfl
      · rw [ih]
        exact recordStatus_clock

theorem recordEach_unseen {stackList : List Scanned} (unseen : ∀ scanned ∈ stackList, stack ≠ scanned.stack)
    (written : Nat) : (recorder.recordEach stackList now written).1.starts stack = recorder.starts stack := by
  induction stackList generalizing recorder written with
  | nil => rfl
  | cons scanned rest ih =>
      unfold recordEach
      split
      · rfl
      · rw [ih fun other member => unseen other (by simp [member])]
        obtain ⟨added, _, _, others⟩ := @recordStatus_starts now recorder scanned
        exact others stack (unseen scanned (by simp))

/-- A scan ends with what it wrote down, but for what it removes because of its age. -/
theorem recordScan_starts (stackList : List Scanned) (aborted pruneWorks : Bool) :
    List.Sublist ((recorder.recordScan stackList now aborted pruneWorks).1.starts stack)
      (((recorder.beginScan now).recordEach stackList now 0).1.starts stack) := by
  unfold recordScan
  simp only []
  split
  · unfold pruneOldObservations
    split
    · simp only [starts, IntervalTable.rowsOf_prune]
      exact List.filter_sublist.map _
    · exact List.Sublist.refl _
  · exact List.Sublist.refl _

theorem recordScan_clock (stackList : List Scanned) (aborted pruneWorks : Bool) :
    (recorder.recordScan stackList now aborted pruneWorks).1.clock = now := by
  have began : (recorder.beginScan now).clock = now := rfl
  unfold recordScan
  simp only []
  split
  · unfold pruneOldObservations
    split <;> exact (recordEach_clock stackList 0).trans began
  · exact (recordEach_clock stackList 0).trans began

theorem Ordered.recordScan {stackList : List Scanned} (ordered : recorder.Ordered recorder.clock)
    (later : recorder.clock < now) (distinct : (stackList.map (·.stack)).Nodup) (aborted pruneWorks : Bool) :
    (recorder.recordScan stackList now aborted pruneWorks).1.Ordered now := by
  have same : ∀ stack, (recorder.beginScan now).starts stack = recorder.starts stack := fun _ => starts_table rfl
  have begun : (recorder.beginScan now).Ordered now := by
    intro stack
    rw [same]
    exact ⟨(ordered stack).1, fun start held => ((ordered stack).2 start held).trans (Nat.le_of_lt later)⟩
  have recorded : ((recorder.beginScan now).recordEach stackList now 0).1.Ordered now := by
    refine recordEach_ordered distinct begun ?_ 0
    intro scanned _ start held
    rw [same] at held
    exact Nat.lt_of_le_of_lt ((ordered scanned.stack).2 start held) later
  intro stack
  have kept := @recordScan_starts now recorder stack stackList aborted pruneWorks
  exact ⟨(recorded stack).1.sublist kept, fun start held => (recorded stack).2 start (kept.subset held)⟩

end Recorder

/-! ## Whole histories of observation rounds -/

/-- The intervals of each stack began one after another, and all are of the panel's own stacks. -/
structure Chronicled (recorder : Recorder) : Prop where
  ordered : recorder.Ordered recorder.clock
  own : ∀ stack, stack.endpoint ≠ "" → recorder.starts stack = []

theorem observeStacks_distinct {stackList : List ObservedStack} (distinct : (stackList.map (·.name)).Nodup) :
    ((observeStacks stackList).map (·.stack)).Nodup := by
  have injective : Function.Injective fun name : StackName => name.ref "" := by
    intro name other same
    obtain ⟨stackName, plain⟩ := name
    obtain ⟨otherName, otherPlain⟩ := other
    simpa [StackName.ref] using same
  have refs : (observeStacks stackList).map (·.stack) = (stackList.map (·.name)).map (·.ref "") := by
    simp [observeStacks, Function.comp_def]
  rw [refs]
  exact distinct.map injective

theorem Chronicled.step {recorder : Recorder} (chronicled : Chronicled recorder) (event : PanelEvent) :
    Chronicled (recorderStep recorder event.recorded) := by
  cases event with
  | observe elapsed stackList distinct aborted pruneWorks =>
      refine ⟨?_, ?_⟩
      · change Recorder.Ordered (Recorder.recordScan _ _ _ _ _).1 (Recorder.recordScan _ _ _ _ _).1.clock
        rw [Recorder.recordScan_clock]
        exact chronicled.ordered.recordScan (by omega) (observeStacks_distinct distinct) aborted pruneWorks
      · intro stack remote
        have kept := @Recorder.recordScan_starts (recorder.clock + elapsed + 1) recorder stack
          (observeStacks stackList) aborted pruneWorks
        have unseen : ∀ scanned ∈ observeStacks stackList, stack ≠ scanned.stack := by
          intro scanned member same
          obtain ⟨observed, _, rfl⟩ := List.mem_map.mp member
          exact remote (congrArg StackRef.endpoint same)
        have begun : (recorder.beginScan (recorder.clock + elapsed + 1)).starts stack = recorder.starts stack :=
          Recorder.starts_table rfl
        rw [Recorder.recordEach_unseen unseen, begun, chronicled.own stack remote] at kept
        exact List.sublist_nil.mp kept
  | delete name => exact ⟨chronicled.ordered, chronicled.own⟩
  | restart => exact ⟨chronicled.ordered, chronicled.own⟩

theorem observed_chronicled (history : List PanelEvent) : Chronicled (observed history) := by
  have initial : Chronicled {} := by
    refine ⟨?_, ?_⟩
    · intro stack
      simp [Recorder.starts]
    · intro stack _
      simp [Recorder.starts]
  have replayed : observed history = replay (fun recorder event => recorderStep recorder event.recorded) {} history := by
    simp [observed, recorded, replay, List.foldl_map]
  rw [replayed]
  exact replay_invariant initial (fun _ event chronicled => chronicled.step event) history

/-! ## Both queries see the same intervals -/

section
variable {recorder : Recorder} {stack : StackRef} {rows : List (IntervalRow StackRef Status)}

theorem Chronicled.strict (chronicled : Chronicled recorder) (stack : StackRef) :
    (recorder.table.rowsOf stack).Pairwise fun before after => before.observedAt < after.observedAt :=
  List.pairwise_map.mp (chronicled.ordered stack).1

/-- The part of the intervals a window is read from gives the availability of all of them. -/
theorem availability_of_recent {old kept : List (IntervalRow StackRef Status)} (tracks : Tracks recorder stack)
    (later : recorder.clock ≤ now) (cut : old ++ kept = recorder.table.rowsOf stack)
    (ended : ∀ row ∈ old, row.observedUntil < now - windowMs) (wide : observationFreshnessMs ≤ windowMs) :
    computeAvailability (kept.map changeOf) windowMs now = computeAvailability (recorder.changes stack) windowMs now := by
  rw [Recorder.changes, ← cut, List.map_append]
  have settled := tracks.settled
  rw [← cut] at settled
  refine (computeAvailability_recent ?_ ?_ ?_ wide).symm
  · rw [← List.map_append, List.pairwise_map]
    apply settled.apart.imp_of_mem
    intro before after member _ follows
    exact (settled.begun before member).trans follows
  · intro change member
    rw [← List.map_append] at member
    obtain ⟨row, held, rfl⟩ := List.mem_map.mp member
    exact ((settled.begun row held).trans (settled.past row held)).trans later
  · intro change member
    obtain ⟨row, held, rfl⟩ := List.mem_map.mp member
    exact ended row held

theorem readAvailability_eq (tracks : Tracks recorder stack)
    (strict : (recorder.table.rowsOf stack).Pairwise fun before after => before.observedAt < after.observedAt)
    (later : recorder.clock ≤ now) (wide : observationFreshnessMs ≤ windowMs) :
    recorder.readAvailability stack windowMs now = computeAvailability (recorder.changes stack) windowMs now := by
  have sorted := strict.imp Nat.le_of_lt
  have cut := filter_lt_append_filter_le sorted (now - windowMs)
  have insideSorted := sorted.filter (now - windowMs ≤ ·.observedAt)
  have beforeStrict := strict.filter (·.observedAt < now - windowMs)
  unfold Recorder.readAvailability Recorder.readChanges
  dsimp only
  have descending := mergeSort_descending beforeStrict
  rw [descending,
    List.mergeSort_of_pairwise (insideSorted.imp decide_eq_true)]
  rcases List.eq_nil_or_concat ((recorder.table.rowsOf stack).filter (·.observedAt < now - windowMs)) with
    none | ⟨front, row, last⟩
  · rw [none] at cut ⊢
    exact availability_of_recent tracks later cut (by simp) wide
  · rw [List.concat_eq_append] at last
    rw [last] at cut ⊢
    have apart := tracks.settled.apart
    rw [← cut] at apart
    have frontBefore := (apart_append_singleton.mp (List.pairwise_append.mp apart).1).2
    have rowBefore : row.observedAt < now - windowMs := by
      have member : row ∈ (recorder.table.rowsOf stack).filter (·.observedAt < now - windowMs) := by simp [last]
      exact of_decide_eq_true (List.mem_filter.mp member).2
    rw [List.reverse_append, List.reverse_singleton, List.singleton_append, List.take_succ_cons, List.take_zero]
    rw [List.append_assoc, List.singleton_append] at cut
    refine availability_of_recent tracks later cut ?_ wide
    intro earlier member
    exact Nat.lt_of_le_of_lt (frontBefore earlier member) rowBefore

theorem ref_eq_iff {owner : StackRef} {name : StackName} {endpoint : String} :
    owner = name.ref endpoint ↔ owner.stackName = name.stackName ∧ owner.endpoint = endpoint := by
  obtain ⟨stackName, ownerEndpoint, plain⟩ := owner
  simp [StackName.ref]

/-- One batch holds the recent intervals of each of its stacks, and no others. -/
theorem batch_of (batch : List StackName) (endpoint : String) (name : StackName) :
    (recorder.table.rows.filter fun row => row.owner.endpoint = endpoint ∧
        batch.any (·.stackName = row.owner.stackName) ∧ now - windowMs ≤ row.observedUntil).filter
          (·.owner.stackName = name.stackName) =
      if name ∈ batch then (recorder.table.rowsOf (name.ref endpoint)).filter (now - windowMs ≤ ·.observedUntil)
      else [] := by
  have listed : ∀ row : IntervalRow StackRef Status, row.owner.stackName = name.stackName →
      (batch.any (·.stackName = row.owner.stackName) = true ↔ name ∈ batch) := by
    intro row same
    rw [List.any_eq_true]
    constructor
    · rintro ⟨other, member, sameOther⟩
      have equal : other.stackName = name.stackName := (of_decide_eq_true sameOther).trans same
      obtain ⟨otherName, otherPlain⟩ := other
      obtain ⟨stackName, plain⟩ := name
      cases equal
      exact member
    · intro member
      exact ⟨name, member, decide_eq_true same.symm⟩
  rw [List.filter_filter]
  split
  · rename_i member
    rw [IntervalTable.rowsOf, List.filter_filter]
    apply List.filter_congr
    intro row _
    rw [Bool.eq_iff_iff]
    simp only [Bool.and_eq_true, decide_eq_true_eq, ref_eq_iff]
    constructor
    · rintro ⟨same, remote, _, recent⟩
      exact ⟨recent, same, remote⟩
    · rintro ⟨recent, same, remote⟩
      exact ⟨same, remote, (listed row same).mpr member, recent⟩
  · rename_i absent
    rw [List.filter_eq_nil_iff]
    intro row _ held
    simp only [Bool.and_eq_true, decide_eq_true_eq] at held
    exact absent ((listed row held.1).mp held.2.2.1)

/-- Over all batches, the recent intervals of a stack, once for each batch that names it. -/
theorem batchRows_of {names : List StackName} {endpoint : String} {name : StackName}
    (sorted : (recorder.table.rowsOf (name.ref endpoint)).Pairwise fun before after => before.observedAt ≤ after.observedAt) :
    ∃ count, (recorder.batchRows names endpoint windowMs now).filter (·.owner.stackName = name.stackName) =
        (List.replicate count
          ((recorder.table.rowsOf (name.ref endpoint)).filter (now - windowMs ≤ ·.observedUntil))).flatten ∧
      (name ∈ names → 0 < count) ∧ (names.Nodup → count ≤ 1) ∧ (name ∉ names → count = 0) := by
  induction names using Recorder.batchRows.induct recorder endpoint windowMs now with
  | case1 =>
      refine ⟨0, ?_, by simp, by simp, by simp⟩
      rw [Recorder.batchRows]
      simp
  | case2 names nonempty ih =>
      obtain ⟨count, later, listed, once, unlisted⟩ := ih
      rw [Recorder.batchRows, if_neg nonempty]
      dsimp only
      rw [List.filter_append, filter_mergeSort, batch_of, later]
      · have parts : name ∈ names ↔ name ∈ names.take 400 ∨ name ∈ names.drop 400 := by
          conv_lhs => rw [← List.take_append_drop 400 names]
          exact List.mem_append
        by_cases first : name ∈ names.take 400
        · refine ⟨count + 1, ?_, fun _ => Nat.succ_pos _, fun distinct => ?_, fun absent => ?_⟩
          · rw [if_pos first, List.replicate_succ, List.flatten_cons]
          · have notLater : name ∉ names.drop 400 := List.disjoint_take_drop distinct (Nat.le_refl 400) first
            rw [unlisted notLater]
          · exact absurd (parts.mpr (.inl first)) absent
        · refine ⟨count, ?_, fun member => ?_, fun distinct => ?_, fun absent => ?_⟩
          · rw [if_neg first, List.nil_append]
          · exact listed ((parts.mp member).resolve_left first)
          · exact once (distinct.sublist (List.drop_sublist _ _))
          · exact unlisted fun held => absent (parts.mpr (.inr held))
      · rw [batch_of]
        split
        · exact sorted.filter _
        · exact List.Pairwise.nil

/-- The recent intervals of a stack give its availability. -/
theorem availability_of_until (tracks : Tracks recorder stack) (later : recorder.clock ≤ now)
    (wide : observationFreshnessMs ≤ windowMs) :
    computeAvailability (((recorder.table.rowsOf stack).filter (now - windowMs ≤ ·.observedUntil)).map changeOf)
      windowMs now = computeAvailability (recorder.changes stack) windowMs now := by
  have untilSorted : (recorder.table.rowsOf stack).Pairwise fun before after =>
      before.observedUntil ≤ after.observedUntil := by
    apply tracks.settled.apart.imp_of_mem
    intro before after _ member follows
    exact Nat.le_trans follows (tracks.settled.begun after member)
  refine availability_of_recent tracks later (filter_lt_append_filter_le untilSorted (now - windowMs)) ?_ wide
  intro row member
  exact of_decide_eq_true (List.mem_filter.mp member).2

theorem readAvailabilityBatch_eq {names : List StackName} {endpoint : String} {name : StackName}
    (tracks : Tracks recorder (name.ref endpoint)) (chronicled : Chronicled recorder) (later : recorder.clock ≤ now)
    (wide : observationFreshnessMs ≤ windowMs) (distinct : names.Nodup) (listed : name ∈ names) :
    recorder.readAvailabilityBatch names endpoint windowMs now name =
      some (computeAvailability (recorder.changes (name.ref endpoint)) windowMs now) := by
  have sorted := (chronicled.strict (name.ref endpoint)).imp Nat.le_of_lt
  obtain ⟨count, rows, some_, once, -⟩ := @batchRows_of windowMs now recorder names endpoint name sorted
  have single : count = 1 := Nat.le_antisymm (once distinct) (some_ listed)
  unfold Recorder.readAvailabilityBatch
  rw [if_pos listed]
  dsimp only
  rw [rows, single, List.replicate_one, List.flatten_singleton, availability_of_until tracks later wide]

end

/-! ## What is shown -/

/-- Something of the intervals shows in the window: one of a known status has time in it, or the newest
one is of a known status and fresh. -/
def Shows (changes : List StatusChange) (windowMs now : Nat) : Prop :=
  (∃ change ∈ changes, change.status ≠ .unknown ∧
    max change.observedAt (now - windowMs) < min change.span.stop now) ∨
  ∃ last ∈ changes.getLast?, last.status ≠ .unknown ∧ now - last.span.stop ≤ observationFreshnessMs

instance (changes : List StatusChange) : Decidable (Shows changes windowMs now) :=
  inferInstanceAs (Decidable (_ ∨ ∃ last ∈ changes.getLast?, _))

theorem computeAvailability_currentStatus (nonempty : 0 < windowMs) :
    (computeAvailability changes windowMs now).currentStatus =
      ((describeCurrent (sortedChanges changes now).getLast? now).map (·.1)).getD .unknown := by
  unfold computeAvailability
  rw [if_neg (Nat.ne_of_gt nonempty)]
  dsimp only
  generalize describeCurrent (sortedChanges changes now).getLast? now = current
  split_ifs
  all_goals
    cases current with
    | none => rfl
    | some shown => rfl

theorem measure_unshown
    (unshown : ∀ change ∈ changes, change.status ≠ .unknown →
      min change.span.stop now ≤ max change.observedAt (now - windowMs)) :
    measure changes windowMs now = {} := by
  have skips : ∀ soFar : Measuring, (measureFrom changes windowMs now soFar).measured = soFar.measured := by
    induction changes with
    | nil =>
        intro soFar
        rfl
    | cons change rest ih =>
        intro soFar
        rw [measureFrom, ih fun other member => unshown other (by simp [member])]
        unfold measureStep
        have skipped : change.status = .unknown ∨
            min (change.observedUntil.getD change.observedAt) (min ((rest.head?.map (·.observedAt)).getD now) now) ≤
              max change.observedAt (now - windowMs) := by
          by_cases known : change.status = .unknown
          · exact .inl known
          · have none := unshown change (by simp) known
            have stop : change.span.stop = change.observedUntil.getD change.observedAt := rfl
            exact .inr (by omega)
        rw [if_pos skipped]
  exact skips {}

@[simp] theorem sortedChanges_nil : sortedChanges [] now = [] := by
  simp [sortedChanges]

/-- The availability of intervals is that of none exactly where nothing of them shows. -/
theorem computeAvailability_eq_nothing
    (sorted : changes.Pairwise fun before after => before.observedAt ≤ after.observedAt)
    (past : ∀ change ∈ changes, change.observedAt ≤ now) (apart : Apart StatusChange.span changes)
    (ends : ∀ change ∈ changes, ∃ stop, change.observedUntil = some stop ∧ change.observedAt ≤ stop)
    (nonempty : 0 < windowMs) :
    computeAvailability changes windowMs now = computeAvailability [] windowMs now ↔ ¬ Shows changes windowMs now := by
  have inOrder := sortedChanges_eq sorted past
  constructor
  · intro same shows
    rcases shows with ⟨change, member, known, inside⟩ | ⟨last, newest, known, fresh⟩
    · have none : (computeAvailability changes windowMs now).coveredMs = 0 := by
        rw [same, computeAvailability_coveredMs nonempty, sortedChanges_nil]
        rfl
      rw [computeAvailability_coveredMs nonempty, inOrder, (measure_apart apart).1, confirmedTime, coveredLength,
        Finset.card_eq_zero, Finset.filter_eq_empty_iff] at none
      have start : change.span.start = change.observedAt := rfl
      refine none (x := max change.observedAt (now - windowMs)) ?_ ?_
      · rw [Finset.mem_Ico]
        omega
      · refine ⟨change, List.mem_filter.mpr ⟨member, by simpa [isKnown] using known⟩, ?_⟩
        unfold Span.Holds
        omega
    · have newest := Option.mem_def.mp newest
      have status : (computeAvailability changes windowMs now).currentStatus = .unknown := by
        rw [same, computeAvailability_currentStatus nonempty, sortedChanges_nil]
        rfl
      obtain ⟨stop, confirmed, begun⟩ := ends last (List.mem_of_getLast? newest)
      have stopIs : last.span.stop = stop := by simp [StatusChange.span, confirmed]
      rw [stopIs] at fresh
      have current : ¬ (stop < last.observedAt ∨ now - stop > observationFreshnessMs) := by omega
      rw [computeAvailability_currentStatus nonempty, inOrder, newest] at status
      simp only [describeCurrent, confirmed, if_neg current, Option.map_some, Option.getD_some] at status
      exact known status
  · intro unshown
    simp only [Shows, not_or, not_exists, not_and, Nat.not_lt, Nat.not_le] at unshown
    obtain ⟨nothing, stale⟩ := unshown
    have measured := measure_unshown nothing
    have current : describeCurrent changes.getLast? now = none ∨
        describeCurrent changes.getLast? now = some (.unknown, none) := by
      cases newest : changes.getLast? with
      | none => exact .inl rfl
      | some last =>
          obtain ⟨stop, confirmed, begun⟩ := ends last (List.mem_of_getLast? newest)
          have stopIs : last.span.stop = stop := by simp [StatusChange.span, confirmed]
          unfold describeCurrent
          simp only [confirmed]
          split
          · exact .inl rfl
          · rename_i recent
            by_cases known : last.status = .unknown
            · exact .inr (by simp [known])
            · have tooOld := stale last newest known
              rw [stopIs] at tooOld
              omega
    have nothingIn : computeAvailability [] windowMs now =
        { verdict := .noData, ratio := none, incidents := 0, coveredMs := 0, windowMs := windowMs,
          currentForMs := none, currentStatus := .unknown } := by
      unfold computeAvailability
      rw [if_neg (Nat.ne_of_gt nonempty)]
      simp only [sortedChanges_nil]
      rfl
    rw [nothingIn]
    unfold computeAvailability
    rw [if_neg (Nat.ne_of_gt nonempty)]
    simp only [inOrder, measured]
    rcases current with none | unknown
    · rw [none]
      rfl
    · rw [unknown]
      rfl

theorem changes_eq_nil {recorder : Recorder} {stack : StackRef} (empty : recorder.starts stack = []) :
    recorder.changes stack = [] := by
  rw [Recorder.starts, List.map_eq_nil_iff] at empty
  rw [Recorder.changes, empty, List.map_nil]

/-- What the event answers and what the row shows of a stack of the panel both are the availability of
the intervals its rounds recorded, exactly where the connection is the panel's own or nothing of these
intervals shows. -/
theorem availability_shown_iff (history : List PanelEvent) (names : List StackName) (name : StackName)
    (endpoint : String) (now : Nat) (distinct : names.Nodup) (listed : name ∈ names)
    (later : (observed history).clock ≤ now) :
    (some (stackAvailability (observed history) endpoint now name) = fillAvailability (observed history) names now name ∧
      fillAvailability (observed history) names now name =
        some (computeAvailability ((observed history).changes (name.ref "")) dayMs now)) ↔
      endpoint = "" ∨ ¬ Shows ((observed history).changes (name.ref "")) dayMs now := by
  have tracked : (observed history).Tracked := recorded_tracked (history.map PanelEvent.recorded)
  have chronicled := observed_chronicled history
  have wide : observationFreshnessMs ≤ dayMs := by decide
  have row : fillAvailability (observed history) names now name =
      some (computeAvailability ((observed history).changes (name.ref "")) dayMs now) :=
    readAvailabilityBatch_eq (tracked _) chronicled later wide distinct listed
  have event : stackAvailability (observed history) endpoint now name =
      computeAvailability ((observed history).changes (name.ref endpoint)) dayMs now :=
    readAvailability_eq (tracked _) (chronicled.strict _) later wide
  rw [row, event]
  simp only [Option.some.injEq, and_true]
  by_cases direct : endpoint = ""
  · simp [direct]
  · have tracks := tracked (name.ref "")
    have past : ∀ change ∈ (observed history).changes (name.ref ""), change.observedAt ≤ now := by
      intro change member
      obtain ⟨held, heldMember, rfl⟩ := List.mem_map.mp member
      exact ((tracks.settled.begun held heldMember).trans (tracks.settled.past held heldMember)).trans later
    have ends : ∀ change ∈ (observed history).changes (name.ref ""),
        ∃ stop, change.observedUntil = some stop ∧ change.observedAt ≤ stop := by
      intro change member
      obtain ⟨held, heldMember, rfl⟩ := List.mem_map.mp member
      exact ⟨_, rfl, tracks.settled.begun held heldMember⟩
    have sorted : ((observed history).changes (name.ref "")).Pairwise fun before after =>
        before.observedAt ≤ after.observedAt :=
      List.pairwise_map.mpr ((chronicled.strict (name.ref "")).imp Nat.le_of_lt)
    rw [changes_eq_nil (chronicled.own (name.ref endpoint) direct), eq_comm,
      computeAvailability_eq_nothing sorted past tracks.apart ends (by decide)]
    simp [direct]

def sampleName : StackName := ⟨"app", sampleStack.plain⟩

/-- A round that finds the sample stack running. -/
def sampleRound : PanelEvent := .observe 0 [{ name := sampleName, status := .running }] (by decide) false true

theorem availability_shown_app :
    (some (stackAvailability (observed [sampleRound]) "" 1 sampleName) =
        fillAvailability (observed [sampleRound]) [sampleName] 1 sampleName ∧
      fillAvailability (observed [sampleRound]) [sampleName] 1 sampleName =
        some (computeAvailability ((observed [sampleRound]).changes (sampleName.ref "")) dayMs 1)) ↔
      "" = "" ∨ ¬ Shows ((observed [sampleRound]).changes (sampleName.ref "")) dayMs 1 :=
  availability_shown_iff [sampleRound] [sampleName] sampleName "" 1 (by decide) (by decide) (by decide +kernel)

/-- A connection that another panel opened is answered that nothing is known of a stack whose row says
that it runs. -/
theorem availability_hidden_from_agent :
    some (stackAvailability (observed [sampleRound]) "other:5001" 1 sampleName) ≠
        fillAvailability (observed [sampleRound]) [sampleName] 1 sampleName ∧
      (stackAvailability (observed [sampleRound]) "other:5001" 1 sampleName).currentStatus = .unknown ∧
      (fillAvailability (observed [sampleRound]) [sampleName] 1 sampleName).map (·.currentStatus) = some .running := by
  have tracked : (observed [sampleRound]).Tracked := recorded_tracked ([sampleRound].map PanelEvent.recorded)
  have chronicled := observed_chronicled [sampleRound]
  have later : (observed [sampleRound]).clock ≤ 1 := by decide +kernel
  have nonempty : 0 < dayMs := by decide
  have wide : observationFreshnessMs ≤ dayMs := by decide
  have answered : (stackAvailability (observed [sampleRound]) "other:5001" 1 sampleName).currentStatus = .unknown := by
    have event : stackAvailability (observed [sampleRound]) "other:5001" 1 sampleName =
        computeAvailability ((observed [sampleRound]).changes (sampleName.ref "other:5001")) dayMs 1 :=
      readAvailability_eq (tracked _) (chronicled.strict _) later wide
    rw [event, changes_eq_nil (chronicled.own (sampleName.ref "other:5001") (by decide)),
      computeAvailability_currentStatus nonempty, sortedChanges_nil]
    rfl
  have shown : (fillAvailability (observed [sampleRound]) [sampleName] 1 sampleName).map (·.currentStatus) =
      some .running := by
    have row : fillAvailability (observed [sampleRound]) [sampleName] 1 sampleName =
        some (computeAvailability ((observed [sampleRound]).changes (sampleName.ref "")) dayMs 1) :=
      readAvailabilityBatch_eq (tracked _) chronicled later wide (by decide) (by decide)
    rw [row, Option.map_some, computeAvailability_currentStatus nonempty, (tracked (sampleName.ref "")).sorted later]
    decide +kernel
  refine ⟨?_, answered, shown⟩
  intro same
  rw [← same, Option.map_some, answered] at shown
  cases shown

end Dockge.Observation
