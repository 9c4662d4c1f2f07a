import Dockge.Stability.Samples

namespace Dockge.Stability

open Dockge.Data Dockge.StackStatus
open Dockge.Observation (retentionMs)

/-! The container history over whole runs of the collector. -/

/-- What is known of one container: its intervals, its samples, and what is remembered of it. -/
structure Tracks (rows : List (IntervalRow String Status)) (samples : List Seen)
    (last : Option LastObservation) (now : Nat) : Prop where
  settled : Settled rows now
  chained : Chained samples none rows
  current : ∀ held, last = some held → ∃ front row earlier chain, rows = front ++ [row] ∧
    row.id = held.id ∧ row.status = held.status ∧ row.observedUntil = held.observedAt ∧
    samples = earlier ++ chain ∧ Chain row none chain

variable {rows : List (IntervalRow String Status)} {samples : List Seen} {last : Option LastObservation}
variable {held : LastObservation} {now later : Nat} {id other : String} {status : Status}
variable {table : IntervalTable String Status}

theorem Tracks.forgotten (tracks : Tracks rows samples last now) : Tracks rows samples none now :=
  ⟨tracks.settled, tracks.chained, fun _ remembered => by contradiction⟩

/-- A sample that starts a new interval. -/
theorem Tracks.insert (tracks : Tracks rows samples last now) (passed : now ≤ later) (fresh : Nat) :
    Tracks (rows ++ [⟨fresh, id, status, later, later⟩]) (samples ++ [(later, status)])
      (some ⟨fresh, status, later⟩) later where
  settled := (tracks.settled.mono passed).insert
  chained := by
    rw [chained_append]
    exact ⟨(tracks.chained.more _).follow, samples, [(later, status)], [], by simp, Chain.single rfl⟩
  current := by
    intro held remembered
    obtain rfl := Option.some.inj remembered
    exact ⟨rows, _, samples, [(later, status)], rfl, rfl, rfl, rfl, rfl, Chain.single rfl⟩

/-- A sample that confirms the newest interval. -/
theorem Tracks.confirm (tracks : Tracks (table.rowsOf id) samples (some held) now) (passed : now ≤ later)
    (soon : later ≤ held.observedAt + stabilityStaleMs) :
    Tracks ((table.confirm held.id later).1.rowsOf id) (samples ++ [(later, held.status)])
      (some { held with observedAt := later }) later := by
  obtain ⟨front, row, earlier, chain, parts, named, same, reached, sampled, chains⟩ := tracks.current held rfl
  have settled := tracks.settled.mono passed
  rw [parts] at settled
  have past : row.observedUntil ≤ later := settled.past row (by simp)
  have near : later ≤ row.observedUntil + stabilityStaleMs := by rwa [reached]
  have extended : Chain { row with observedUntil := later } none (chain ++ [(later, held.status)]) :=
    @Chain.extend row none chain (later, held.status) chains past near (Or.inl same.symm)
  have chained := tracks.chained
  rw [parts, chained_append] at chained
  rw [IntervalTable.rowsOf_confirm_last parts named]
  refine ⟨settled.confirm_last, ?_, ?_⟩
  · rw [chained_append]
    refine ⟨chained.1.more _, earlier, chain ++ [(later, held.status)], [], ?_, extended⟩
    rw [sampled, List.append_assoc, List.append_nil]
  · intro current remembered
    obtain rfl := Option.some.inj remembered
    refine ⟨front, _, earlier, chain ++ [(later, held.status)], rfl, named, same, rfl, ?_, extended⟩
    rw [sampled, List.append_assoc]

/-- A sample in another status ends the newest interval and starts the next one. -/
theorem Tracks.change (tracks : Tracks (table.rowsOf id) samples (some held) now) (passed : now ≤ later)
    (soon : later ≤ held.observedAt + stabilityStaleMs) (fresh : Nat) :
    Tracks ((table.confirm held.id later).1.rowsOf id ++ [⟨fresh, id, status, later, later⟩])
      (samples ++ [(later, status)]) (some ⟨fresh, status, later⟩) later := by
  obtain ⟨front, row, earlier, chain, parts, named, same, reached, sampled, chains⟩ := tracks.current held rfl
  have settled := tracks.settled.mono passed
  rw [parts] at settled
  have past : row.observedUntil ≤ later := settled.past row (by simp)
  have near : later ≤ row.observedUntil + stabilityStaleMs := by rwa [reached]
  have extended : Chain { row with observedUntil := later } (some (later, status)) (chain ++ [(later, status)]) :=
    @Chain.extend row (some (later, status)) chain (later, status) chains past near (Or.inr rfl)
  have chained := tracks.chained
  rw [parts, chained_append] at chained
  rw [IntervalTable.rowsOf_confirm_last parts named]
  refine ⟨settled.confirm_last.insert, ?_, ?_⟩
  · rw [chained_append, chained_append]
    refine ⟨⟨chained.1.more _, earlier, chain ++ [(later, status)], [], ?_, extended⟩,
      samples, [(later, status)], [], by simp, Chain.single rfl⟩
    rw [sampled, List.append_assoc, List.append_nil]
  · intro current remembered
    obtain rfl := Option.some.inj remembered
    exact ⟨_, _, samples, [(later, status)], rfl, rfl, rfl, rfl, rfl, Chain.single rfl⟩

/-- The retention removes no interval that is remembered. -/
theorem Tracks.prune (tracks : Tracks (table.rowsOf id) samples last now)
    (recent : ∀ held, last = some held → held.observedAt = now) :
    Tracks ((table.prune (now - retentionMs)).rowsOf id) samples last now := by
  rw [IntervalTable.rowsOf_prune]
  refine ⟨tracks.settled.filter _, tracks.chained.prune tracks.settled _, ?_⟩
  intro held remembered
  obtain ⟨front, row, earlier, chain, parts, named, same, reached, sampled, chains⟩ := tracks.current held remembered
  refine ⟨front.filter (now - retentionMs ≤ ·.observedUntil), row, earlier, chain, ?_, named, same, reached,
    sampled, chains⟩
  have reaches : row.observedUntil = now := reached.trans (recent held remembered)
  simp [parts, reaches]

/-! ## One transaction -/

variable {previous : String → Option LastObservation} {writing written : Writing}
variable {container : StoredContainer} {containers : List StoredContainer} {fate : ContainerFate}

/-- What writing one container down makes of it, and that it leaves the others alone. -/
structure Written (before after : Writing) (container : StoredContainer) (samples : List Seen) (now : Nat) : Prop where
  tracks : Tracks (after.table.rowsOf container.id) (samples ++ [(now, container.status)])
    (after.next container.id) now
  remembered : ∃ held, after.next container.id = some held ∧ held.observedAt = now
  others : ∀ other, other ≠ container.id →
    after.table.rowsOf other = before.table.rowsOf other ∧ after.next other = before.next other

theorem insertContainer_ok (inserted : insertContainer writing container now fate = .ok written) :
    written = { table := (writing.table.insert container.id container.status now).1
                next := Function.update writing.next container.id
                  (some ⟨writing.table.nextId, container.status, now⟩) } := by
  unfold insertContainer at inserted
  split at inserted
  · exact (Except.ok.inj inserted).symm
  · contradiction

theorem insertContainer_written (inserted : insertContainer writing container later fate = .ok written)
    (tracks : ∀ fresh, Tracks (writing.table.rowsOf container.id ++ [⟨fresh, container.id, container.status, later, later⟩])
      (samples ++ [(later, container.status)]) (some ⟨fresh, container.status, later⟩) later) :
    Written writing written container samples later := by
  obtain rfl := insertContainer_ok inserted
  refine ⟨?_, ⟨⟨writing.table.nextId, container.status, later⟩, by simp, rfl⟩, ?_⟩
  · simpa [IntervalTable.rowsOf_insert] using tracks writing.table.nextId
  · intro other differs
    simp [IntervalTable.rowsOf_insert, differs, differs.symm]

/-- What is remembered names a row of its container. -/
theorem Tracks.confirm_updates (tracks : Tracks (table.rowsOf id) samples (some held) now) :
    (table.confirm held.id later).2 = true := by
  obtain ⟨front, row, _, _, parts, named, _⟩ := tracks.current held rfl
  exact IntervalTable.confirm_updates (by rw [parts]; simp) named

theorem Tracks.confirm_other (tracks : Tracks (table.rowsOf id) samples (some held) now) (differs : other ≠ id) :
    (table.confirm held.id later).1.rowsOf other = table.rowsOf other := by
  obtain ⟨front, row, _, _, parts, named, _⟩ := tracks.current held rfl
  have member : row ∈ table.rowsOf id := by rw [parts]; simp
  exact IntervalTable.rowsOf_confirm_other member named differs.symm

theorem writeContainer_written
    (wrote : writeContainer previous later writing container fate = .ok written) (passed : now ≤ later)
    (tracks : Tracks (writing.table.rowsOf container.id) samples (previous container.id) now) :
    Written writing written container samples later := by
  unfold writeContainer at wrote
  split at wrote
  · contradiction
  · cases remembered : previous container.id with
    | none =>
        rw [remembered] at wrote
        exact insertContainer_written wrote fun fresh => tracks.insert passed fresh
    | some held =>
        rw [remembered] at wrote tracks
        simp only [tracks.confirm_updates, Bool.true_and, decide_eq_true_eq] at wrote
        by_cases soon : held.observedAt ≤ later ∧ later - held.observedAt ≤ stabilityStaleMs
        · have near : later ≤ held.observedAt + stabilityStaleMs := by omega
          rw [if_pos soon] at wrote
          split at wrote
          · by_cases same : held.status = container.status
            · rw [if_pos same] at wrote
              obtain rfl := Except.ok.inj wrote
              refine ⟨?_, ⟨{ held with observedAt := later }, by simp, rfl⟩, ?_⟩
              · simpa [same] using tracks.confirm passed near
              · intro other differs
                exact ⟨tracks.confirm_other differs, by simp [differs]⟩
            · rw [if_neg same] at wrote
              obtain ⟨changed, known, others⟩ := insertContainer_written wrote fun fresh =>
                tracks.change passed near fresh
              refine ⟨changed, known, ?_⟩
              intro other differs
              obtain ⟨sameRows, sameNext⟩ := others other differs
              exact ⟨sameRows.trans (tracks.confirm_other differs), sameNext⟩
          · contradiction
        · rw [if_neg soon] at wrote
          exact insertContainer_written wrote fun fresh => tracks.insert passed fresh

/-- A transaction that gets through has written every container of the sample down once. -/
structure WrittenAll (previous : String → Option LastObservation) (before after : Writing)
    (containers : List StoredContainer) (samples : String → List Seen) (now : Nat) : Prop where
  tracks : ∀ container ∈ containers, Tracks (after.table.rowsOf container.id)
    (samples container.id ++ [(now, container.status)]) (after.next container.id) now
  remembered : ∀ container ∈ containers, ∃ held, after.next container.id = some held ∧ held.observedAt = now
  others : ∀ other, other ∉ containers.map (·.id) →
    after.table.rowsOf other = before.table.rowsOf other ∧ after.next other = before.next other

theorem writeContainers_written {index : Nat} {fates : Nat → ContainerFate} {samples : String → List Seen}
    (wrote : writeContainers previous later index fates writing containers = .ok written) (passed : now ≤ later)
    (once : (containers.map (·.id)).Nodup)
    (tracks : ∀ container ∈ containers, Tracks (writing.table.rowsOf container.id) (samples container.id)
      (previous container.id) now) :
    WrittenAll previous writing written containers samples later := by
  induction containers generalizing writing index with
  | nil =>
      obtain rfl := Except.ok.inj wrote
      exact ⟨by simp, by simp, fun _ _ => ⟨rfl, rfl⟩⟩
  | cons container rest ih =>
      obtain ⟨notLater, restOnce⟩ := List.nodup_cons.mp once
      cases first : writeContainer previous later writing container (fates index) with
      | error reason => simp [writeContainers, first, bind, Except.bind] at wrote
      | ok middle =>
          have tail : writeContainers previous later (index + 1) fates middle rest = .ok written := by
            simpa only [writeContainers, first, bind, Except.bind] using wrote
          have own := writeContainer_written first passed (tracks container (by simp))
          have differs : ∀ other ∈ rest, other.id ≠ container.id := by
            intro other member same
            exact notLater (List.mem_map.mpr ⟨other, member, same⟩)
          have rest := ih tail restOnce fun other member => by
            rw [(own.others other.id (differs other member)).1]
            exact tracks other (List.mem_cons_of_mem _ member)
          obtain ⟨sameRows, sameNext⟩ := rest.others container.id notLater
          refine ⟨?_, ?_, ?_⟩
          · intro each member
            rcases List.mem_cons.mp member with isFirst | later
            · subst isFirst
              rw [sameRows, sameNext]
              exact own.tracks
            · exact rest.tracks each later
          · intro each member
            rcases List.mem_cons.mp member with isFirst | later
            · subst isFirst
              rw [sameNext]
              exact own.remembered
            · exact rest.remembered each later
          · intro other unlisted
            simp only [List.map_cons, List.mem_cons, not_or] at unlisted
            obtain ⟨restRows, restNext⟩ := rest.others other unlisted.2
            obtain ⟨ownRows, ownNext⟩ := own.others other unlisted.1
            exact ⟨restRows.trans ownRows, restNext.trans ownNext⟩

/-! ## The collector between its steps -/

/-- When the last committed sample was taken. -/
def latest (taken : List Snapshot) : Nat := (taken.getLast?.map (·.observedAt)).getD 0

def Round.sampledAt : Round → Nat
  | .reading now _ _ => now
  | .writing sample => sample.observedAt

/-- The container is in the sample. -/
def Snapshot.Lists (sample : Snapshot) (id : String) : Prop := id ∈ sample.containers.map (·.id)

/-- What is stored agrees with the samples taken. -/
structure Stored.Agrees (stored : Stored) (taken : List Snapshot) (previous : String → Option LastObservation) :
    Prop where
  tracks : ∀ id, Tracks (stored.table.rowsOf id) (samplesOf taken id) (previous id) (latest taken)
  snapshot : stored.snapshot = taken.getLast?
  /-- What is remembered are the containers of the last sample, all of them or none. -/
  remembered : (∀ id, previous id = none) ∨
    ∃ sample, taken.getLast? = some sample ∧ ∀ id, (previous id).isSome ↔ sample.Lists id

structure Collector.Sound (collector : Collector) : Prop where
  agrees : collector.stored.Agrees collector.taken collector.previous
  timely : latest collector.taken ≤ collector.clock
  inTurn : ∀ round, collector.round = some round →
    latest collector.taken ≤ round.sampledAt ∧ round.sampledAt ≤ collector.clock ∧ collector.stored = collector.begun

variable {stored stored' : Stored} {taken : List Snapshot} {sample : Snapshot} {collector : Collector}
variable {next : String → Option LastObservation} {fates : WriteFate}

theorem Stored.Agrees.forgotten (agrees : stored.Agrees taken previous) : stored.Agrees taken fun _ => none :=
  ⟨fun id => (agrees.tracks id).forgotten, agrees.snapshot, Or.inl fun _ => rfl⟩

theorem latest_append : latest (taken ++ [sample]) = sample.observedAt := by
  simp [latest]

theorem samplesOf_append : samplesOf (taken ++ [sample]) id = samplesOf taken id ++
    ((sample.containers.find? (·.id = id)).map fun container => (sample.observedAt, container.status)).toList := by
  rw [samplesOf, List.filterMap_append]
  congr 1

/-- A container is found under its own id. -/
theorem find_own (member : container ∈ sample.containers) :
    sample.containers.find? (·.id = container.id) = some container := by
  cases found : sample.containers.find? (·.id = container.id) with
  | none =>
      have := List.find?_eq_none.mp found container member
      simp at this
  | some other =>
      have same : other.id = container.id := by simpa using List.find?_some found
      rw [List.inj_on_of_nodup_map sample.once (List.mem_of_find?_eq_some found) member same]

theorem find_unlisted (unlisted : ¬ sample.Lists id) : sample.containers.find? (·.id = id) = none := by
  apply List.find?_eq_none.mpr
  intro container member same
  apply unlisted
  rw [decide_eq_true_eq] at same
  exact List.mem_map.mpr ⟨container, member, same⟩

theorem writeObservations_ok (wrote : writeObservations previous sample stored fates = .ok (stored', next)) :
    ∃ written, writeContainers previous sample.observedAt 0 fates.container { table := stored.table }
        sample.containers = .ok written ∧
      stored' = ⟨written.table.prune (sample.observedAt - retentionMs), some sample⟩ ∧ next = written.next := by
  unfold writeObservations at wrote
  cases all : writeContainers previous sample.observedAt 0 fates.container { table := stored.table }
      sample.containers with
  | error reason => simp [all, bind, Except.bind] at wrote
  | ok written =>
      simp only [all, bind, Except.bind] at wrote
      split at wrote
      · obtain ⟨sameStored, sameNext⟩ := Prod.mk.inj (Except.ok.inj wrote)
        exact ⟨written, rfl, sameStored.symm, sameNext.symm⟩
      · contradiction

/-- The transaction that gets through adds its sample to everything that is stored. -/
theorem writeObservations_agrees (agrees : stored.Agrees taken previous)
    (passed : latest taken ≤ sample.observedAt)
    (wrote : writeObservations previous sample stored fates = .ok (stored', next)) :
    stored'.Agrees (taken ++ [sample]) next := by
  obtain ⟨written, all, sameStored, sameNext⟩ := writeObservations_ok wrote
  subst sameStored sameNext
  have done : WrittenAll previous { table := stored.table } written sample.containers (samplesOf taken)
      sample.observedAt :=
    writeContainers_written all passed sample.once fun container _ => agrees.tracks container.id
  refine ⟨?_, by simp, Or.inr ⟨sample, by simp, ?_⟩⟩
  · intro id
    rw [latest_append, samplesOf_append]
    by_cases listed : sample.Lists id
    · obtain ⟨container, member, same⟩ := List.mem_map.mp listed
      subst same
      rw [find_own member]
      obtain ⟨held, remembered, recent⟩ := done.remembered container member
      apply (done.tracks container member).prune
      intro other same
      rw [remembered, Option.some.injEq] at same
      rw [← same]
      exact recent
    · obtain ⟨sameRows, sameNext⟩ := done.others id listed
      rw [find_unlisted listed]
      have tracks := ((agrees.tracks id).forgotten)
      have moved : Tracks (written.table.rowsOf id) (samplesOf taken id) (written.next id) sample.observedAt := by
        rw [sameRows, sameNext]
        exact ⟨tracks.settled.mono passed, tracks.chained, fun _ remembered => by contradiction⟩
      have pruned := moved.prune fun held remembered => by
        rw [sameNext] at remembered
        contradiction
      simpa using pruned
  · intro id
    by_cases listed : sample.Lists id
    · obtain ⟨container, member, same⟩ := List.mem_map.mp listed
      subst same
      obtain ⟨held, remembered, _⟩ := done.remembered container member
      simp [remembered, listed]
    · have forgotten := (done.others id listed).2
      simp [forgotten, listed]

/-! ## Every step -/

theorem Collector.Sound.fail (sound : collector.Sound) : collector.fail.Sound :=
  ⟨sound.agrees.forgotten, sound.timely, fun _ inFlight => by contradiction⟩

theorem Collector.Sound.cancel (sound : collector.Sound) : collector.cancel.Sound :=
  ⟨sound.agrees, sound.timely, fun _ inFlight => by contradiction⟩

theorem Collector.Sound.observe (sound : collector.Sound) (passed : collector.clock ≤ now)
    (stackList : List (String × StackIdentity)) (ownProject : String) :
    (collector.observe now stackList ownProject).Sound := by
  unfold Collector.observe
  simp only []
  split
  · refine ⟨sound.agrees, sound.timely.trans passed, ?_⟩
    intro round inFlight
    obtain ⟨before, after, same⟩ := sound.inTurn round inFlight
    exact ⟨before, after.trans passed, same⟩
  · refine ⟨sound.agrees, sound.timely.trans passed, ?_⟩
    intro round inFlight
    obtain rfl := Option.some.inj inFlight
    exact ⟨sound.timely.trans passed, le_refl _, rfl⟩

theorem Collector.Sound.read (sound : collector.Sound) (runtime : Option RuntimeSample) (aborted : Bool) :
    (collector.read runtime aborted).Sound := by
  unfold Collector.read
  split
  · next now stackList ownProject inFlight =>
      cases runtime with
      | none => exact sound.fail
      | some runtime =>
          by_cases given : aborted = true
          · simpa [given] using sound.cancel
          · simp only [given]
            refine ⟨sound.agrees, sound.timely, ?_⟩
            intro round next
            obtain rfl := Option.some.inj next
            have turn := sound.inTurn _ inFlight
            exact turn
  · exact sound

theorem Collector.Sound.commit (sound : collector.Sound) (inFlight : collector.round = some (.writing sample))
    (wrote : writeObservations collector.previous sample collector.stored fates = .ok (stored', next)) :
    stored'.Agrees (collector.taken ++ [sample]) next ∧ latest (collector.taken ++ [sample]) ≤ collector.clock := by
  obtain ⟨before, after, _⟩ := sound.inTurn _ inFlight
  refine ⟨writeObservations_agrees sound.agrees before wrote, ?_⟩
  rw [latest_append]
  exact after

theorem Collector.Sound.write (sound : collector.Sound) (fates : WriteFate) : (collector.write fates).Sound := by
  unfold Collector.write
  split
  · next sample inFlight =>
      split
      · next stored next wrote =>
          obtain ⟨agrees, timely⟩ := sound.commit inFlight wrote
          exact ⟨agrees, timely, fun _ inFlight => by contradiction⟩
      · exact sound.cancel
      · exact sound.fail
  · exact sound

theorem Collector.Sound.restart (sound : collector.Sound) (committed : Bool) :
    (collector.restart committed).Sound := by
  unfold Collector.restart
  split
  · next _ sample inFlight =>
      split
      · next stored next wrote =>
          obtain ⟨agrees, timely⟩ := sound.commit inFlight wrote
          exact ⟨agrees.forgotten, timely, fun _ inFlight => by contradiction⟩
      · exact ⟨sound.agrees.forgotten, sound.timely, fun _ inFlight => by contradiction⟩
  · exact ⟨sound.agrees.forgotten, sound.timely, fun _ inFlight => by contradiction⟩

theorem collectorStep_sound (collector : Collector) (event : CollectorEvent) (sound : collector.Sound) :
    (collectorStep collector event).Sound := by
  cases event with
  | observe elapsed stackList ownProject => exact sound.observe (Nat.le_add_right _ _) stackList ownProject
  | read runtime aborted => exact sound.read runtime aborted
  | write fates => exact sound.write fates
  | restart committed => exact sound.restart committed

theorem initial_sound : ({} : Collector).Sound where
  agrees := ⟨fun _ => ⟨Settled.nil, trivial, fun _ remembered => by contradiction⟩, rfl, Or.inl fun _ => rfl⟩
  timely := Nat.le_refl _
  inTurn := fun _ inFlight => by contradiction

theorem collected_sound (history : List CollectorEvent) : (collected history).Sound :=
  replay_invariant initial_sound collectorStep_sound history

/-- The event ends the call in flight without a sample: Docker could not be read, the round was
aborted, or its transaction was rolled back. -/
def Collector.givesUp (collector : Collector) (event : CollectorEvent) : Bool :=
  match collector.round, event with
  | some (.reading _ _ _), .read none _ => true
  | some (.reading _ _ _), .read (some _) aborted => aborted
  | some (.writing sample), .write fates =>
      match writeObservations collector.previous sample collector.stored fates with
      | .ok _ => false
      | .error _ => true
  | _, _ => false

theorem Collector.Sound.unchanged (sound : collector.Sound) {event : CollectorEvent}
    (givesUp : collector.givesUp event = true) : (collectorStep collector event).stored = collector.begun := by
  unfold Collector.givesUp at givesUp
  split at givesUp
  · next inFlight =>
      obtain ⟨_, _, same⟩ := sound.inTurn _ inFlight
      simpa [collectorStep, Collector.read, inFlight, Collector.fail] using same
  · next inFlight =>
      obtain ⟨_, _, same⟩ := sound.inTurn _ inFlight
      simpa [collectorStep, Collector.read, inFlight, givesUp, Collector.cancel] using same
  · next sample fates inFlight =>
      obtain ⟨_, _, same⟩ := sound.inTurn _ inFlight
      split at givesUp
      · contradiction
      · next reason refused =>
          cases reason with
          | cancelled => simpa [collectorStep, Collector.write, inFlight, refused, Collector.cancel] using same
          | database => simpa [collectorStep, Collector.write, inFlight, refused, Collector.fail] using same
  · contradiction

/-- What is remembered of a container is its newest interval, up to where it was confirmed. -/
theorem Tracks.newest (tracks : Tracks rows samples (some held) now) :
    ∃ row, rows.getLast? = some row ∧ held = ⟨row.id, row.status, row.observedUntil⟩ := by
  obtain ⟨front, row, _, _, parts, named, same, reached, _⟩ := tracks.current held rfl
  refine ⟨row, by simp [parts], ?_⟩
  rw [named, same, reached]

/-- The container history invents nothing: intervals lie apart and stand for chains of samples, what
is remembered is what was stored last, and a call that fails or is given up changes no table. -/
theorem container_history (history : List CollectorEvent) :
    let collector := collected history
    let rowsOf := collector.stored.table.rowsOf
    (∀ id, Apart IntervalRow.span (rowsOf id)) ∧
    (∀ id front row rest, rowsOf id = front ++ row :: rest →
      ∃ earlier chain later, samplesOf collector.taken id = earlier ++ chain ++ later ∧
        Chain row (rest.head?.map start) chain) ∧
    ((∀ id, collector.previous id = none) ∨
      ∃ sample, collector.taken.getLast? = some sample ∧ collector.stored.snapshot = some sample ∧
        ∀ id, (¬ sample.Lists id → collector.previous id = none) ∧
          (sample.Lists id → ∃ row, (rowsOf id).getLast? = some row ∧
            collector.previous id = some ⟨row.id, row.status, row.observedUntil⟩)) ∧
    (∀ event, collector.givesUp event = true → (collectorStep collector event).stored = collector.begun) := by
  have sound := collected_sound history
  intro collector rowsOf
  refine ⟨?_, ?_, ?_, fun event givesUp => sound.unchanged givesUp⟩
  · intro id
    exact (sound.agrees.tracks id).settled.apart
  · intro id front row rest parts
    exact (sound.agrees.tracks id).chained.split parts
  · rcases sound.agrees.remembered with nothing | ⟨sample, isLast, listed⟩
    · exact Or.inl nothing
    · refine Or.inr ⟨sample, isLast, sound.agrees.snapshot.trans isLast, ?_⟩
      intro id
      have tracks := sound.agrees.tracks id
      cases remembered : (collected history).previous id with
      | none =>
          refine ⟨fun _ => rfl, ?_⟩
          intro member
          have := (listed id).mpr member
          rw [remembered] at this
          contradiction
      | some held =>
          rw [remembered] at tracks
          obtain ⟨row, newest, same⟩ := tracks.newest
          refine ⟨?_, fun _ => ⟨row, newest, by rw [← same]⟩⟩
          intro unlisted
          exact absurd ((listed id).mp (by rw [remembered]; rfl)) unlisted

end Dockge.Stability
