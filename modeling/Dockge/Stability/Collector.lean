import Dockge.Data.History
import Dockge.Observation.Recording

namespace Dockge.Stability

open Dockge.Data Dockge.StackStatus
open Dockge.Observation (retentionMs)

/-! The collector of container samples: one round at a time, written in one transaction. -/

def stabilityScanIntervalMs : Nat := 60000

def stabilityStaleMs : Nat := 90000

structure ContainerRuntime where
  id : String
  name : String
  project : String
  service : String
  workingDir : String
  state : String
  health : String
  startedAt : Option Nat
  restartCount : Option Nat
  exitCode : Option Int
deriving DecidableEq, Repr

structure StoredContainer extends ContainerRuntime where
  stackName : String
  managed : Bool
deriving DecidableEq, Repr

structure StackIdentity where
  name : String
  path : String
  isManagedByDockge : Bool
deriving DecidableEq, Repr

/-- What Docker answered; it lists every container once. -/
structure RuntimeSample where
  containers : List ContainerRuntime
  once : (containers.map (·.id)).Nodup

/-- A sample as it is stored. -/
structure Snapshot where
  observedAt : Nat
  containers : List StoredContainer
  once : (containers.map (·.id)).Nodup
deriving DecidableEq

/-- Classify Docker runtime; absent or unreadable data never counts as running. -/
def runtimeStatus (state health : String) : Status :=
  if state = "running" then
    if health = "unhealthy" ∨ health = "starting" then .attention else .running
  else if state ∈ ["restarting", "paused", "dead", "removing"] then .attention
  else if state = "created" then .createdStack
  else if state = "exited" then .exited
  else .unknown

def StoredContainer.status (container : StoredContainer) : Status :=
  runtimeStatus container.state container.health

/-- `stacks` is a map: one identity under each key, in the order they were set. -/
def storedContainer (stackList : List (String × StackIdentity)) (container : ContainerRuntime) : StoredContainer :=
  let managedByPath := (stackList.map (·.2)).filter (·.isManagedByDockge)
  let managed := (managedByPath.reverse.find? (·.path = container.workingDir)).or
    (stackList.lookup container.project)
  { container with
    stackName := (managed.map (·.name)).getD container.project
    managed := (managed.map (·.isManagedByDockge)).getD false }

/-- The panel does not record itself. -/
def observedContainers (ownProject : String) (runtime : RuntimeSample) : List ContainerRuntime :=
  if ownProject = "" then runtime.containers else runtime.containers.filter (·.project ≠ ownProject)

def snapshotOf (stackList : List (String × StackIdentity)) (now : Nat) (ownProject : String)
    (runtime : RuntimeSample) : Snapshot where
  observedAt := now
  containers := (observedContainers ownProject runtime).map (storedContainer stackList)
  once := by
    have sameIds : ((observedContainers ownProject runtime).map (storedContainer stackList)).map (·.id) =
        (observedContainers ownProject runtime).map (·.id) := by
      simp [storedContainer]
    rw [sameIds]
    unfold observedContainers
    split
    · exact runtime.once
    · exact runtime.once.sublist (List.filter_sublist.map _)

structure LastObservation where
  id : Nat
  status : Status
  observedAt : Nat
deriving DecidableEq, Repr

/-- The two tables of the container history. -/
structure Stored where
  table : IntervalTable String Status := .empty
  snapshot : Option Snapshot := none

/-! ## The transaction -/

inductive WriteError where
  | cancelled
  | database
deriving DecidableEq, Repr

/-- What happens to the statements for one container. -/
structure ContainerFate where
  aborted : Bool := false
  updateWorks : Bool := true
  insertWorks : Bool := true

structure WriteFate where
  container : Nat → ContainerFate := fun _ => {}
  snapshotWorks : Bool := true
  deleteWorks : Bool := true
  commitWorks : Bool := true

/-- The rows as the transaction sees them, and what will be remembered of them. -/
structure Writing where
  table : IntervalTable String Status
  next : String → Option LastObservation := fun _ => none

def insertContainer (writing : Writing) (container : StoredContainer) (now : Nat) (fate : ContainerFate) :
    Except WriteError Writing :=
  if fate.insertWorks then
    let (table, id) := writing.table.insert container.id container.status now
    .ok { table := table
          next := Function.update writing.next container.id (some ⟨id, container.status, now⟩) }
  else .error .database

def writeContainer (previous : String → Option LastObservation) (now : Nat) (writing : Writing)
    (container : StoredContainer) (fate : ContainerFate) : Except WriteError Writing :=
  if fate.aborted then .error .cancelled
  else
    match previous container.id with
    | none => insertContainer writing container now fate
    | some last =>
        if last.observedAt ≤ now ∧ now - last.observedAt ≤ stabilityStaleMs then
          if fate.updateWorks then
            let (table, updated) := writing.table.confirm last.id now
            if updated && last.status = container.status then
              .ok { table := table
                    next := Function.update writing.next container.id (some { last with observedAt := now }) }
            else insertContainer { writing with table := table } container now fate
          else .error .database
        else insertContainer writing container now fate

def writeContainers (previous : String → Option LastObservation) (now index : Nat) (fate : Nat → ContainerFate)
    (writing : Writing) : List StoredContainer → Except WriteError Writing
  | [] => .ok writing
  | container :: rest => do
      let writing ← writeContainer previous now writing container (fate index)
      writeContainers previous now (index + 1) fate writing rest

/-- Write one sample of every container inside a single transaction: what is thrown rolls it back. -/
def writeObservations (previous : String → Option LastObservation) (sample : Snapshot) (stored : Stored)
    (fate : WriteFate) : Except WriteError (Stored × (String → Option LastObservation)) := do
  let written ← writeContainers previous sample.observedAt 0 fate.container { table := stored.table } sample.containers
  if fate.snapshotWorks && fate.deleteWorks && fate.commitWorks then
    return ({ table := written.table.prune (sample.observedAt - retentionMs), snapshot := some sample }, written.next)
  else throw .database

/-! ## The collector -/

/-- Where a call of `observe` stands while it is in flight. -/
inductive Round where
  | reading (now : Nat) (stackList : List (String × StackIdentity)) (ownProject : String)
  | writing (sample : Snapshot)

/-- The database, the memory of one process, and beside them the samples whose transaction was
committed and what was stored when the call in flight began. -/
structure Collector where
  stored : Stored := {}
  previous : String → Option LastObservation := fun _ => none
  /-- `none` for a time before every other -/
  lastAttemptAt : Option Nat := none
  liveObservation : Bool := false
  failed : Bool := false
  /-- `inFlight` is set as long as there is a round. -/
  round : Option Round := none
  clock : Nat := 0
  taken : List Snapshot := []
  begun : Stored := {}

inductive CollectorEvent where
  | observe (elapsed : Nat) (stackList : List (String × StackIdentity)) (ownProject : String)
  /-- `none` when Docker could not be read -/
  | read (runtime : Option RuntimeSample) (aborted : Bool)
  | write (fate : WriteFate)
  /-- A process ends, its transaction committed before that or not at all, and another one starts. -/
  | restart (committed : Bool)

namespace Collector

def due (collector : Collector) (now : Nat) : Bool :=
  collector.lastAttemptAt.all fun last => stabilityScanIntervalMs ≤ now - last

def observe (collector : Collector) (now : Nat) (stackList : List (String × StackIdentity)) (ownProject : String) :
    Collector :=
  let collector := { collector with clock := now }
  if collector.round.isSome || !collector.due now then collector
  else
    { collector with
      lastAttemptAt := some now
      round := some (.reading now stackList ownProject)
      begun := collector.stored }

/-- A failed call forgets what the intervals were, and ends. -/
def fail (collector : Collector) : Collector :=
  { collector with failed := true, previous := fun _ => none, round := none }

/-- A cancelled call ends. -/
def cancel (collector : Collector) : Collector :=
  { collector with round := none }

def commit (collector : Collector) (sample : Snapshot) (stored : Stored) : Collector :=
  { collector with stored := stored, taken := collector.taken ++ [sample] }

def read (collector : Collector) (runtime : Option RuntimeSample) (aborted : Bool) : Collector :=
  match collector.round with
  | some (.reading now stackList ownProject) =>
      match runtime with
      | none => collector.fail
      | some runtime =>
          if aborted then collector.cancel
          else { collector with round := some (.writing (snapshotOf stackList now ownProject runtime)) }
  | _ => collector

def write (collector : Collector) (fate : WriteFate) : Collector :=
  match collector.round with
  | some (.writing sample) =>
      match writeObservations collector.previous sample collector.stored fate with
      | .ok (stored, next) =>
          { collector.commit sample stored with
            previous := next, liveObservation := true, failed := false, round := none }
      | .error .cancelled => collector.cancel
      | .error .database => collector.fail
  | _ => collector

def restart (collector : Collector) (committed : Bool) : Collector :=
  let collector :=
    match collector.round, committed with
    | some (.writing sample), true =>
        match writeObservations collector.previous sample collector.stored {} with
        | .ok (stored, _) => collector.commit sample stored
        | .error _ => collector
    | _, _ => collector
  { stored := collector.stored, clock := collector.clock, taken := collector.taken }

end Collector

/-- Time goes on between one call and the next. -/
def collectorStep (collector : Collector) : CollectorEvent → Collector
  | .observe elapsed stackList ownProject => collector.observe (collector.clock + elapsed) stackList ownProject
  | .read runtime aborted => collector.read runtime aborted
  | .write fate => collector.write fate
  | .restart committed => collector.restart committed

def collected (history : List CollectorEvent) : Collector := replay collectorStep {} history

end Dockge.Stability
