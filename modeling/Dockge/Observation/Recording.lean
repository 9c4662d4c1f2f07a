import Dockge.Data.IntervalTable
import Dockge.StackStatus.ComposeStatus

namespace Dockge.Observation

open Dockge.Data Dockge.StackStatus

/-! Recorded history of stack statuses. -/

/-- A stack under the name Compose and the stacks directory give it, which has no slash. -/
structure StackRef where
  stackName : String
  endpoint : String
  plain : '/' ∉ stackName.toList
deriving DecidableEq

/-- Key of one stack in the in-memory state -/
def keyOf (stack : StackRef) : String := stack.endpoint ++ "//" ++ stack.stackName

/-- How long history is kept: the longest window the UI offers is thirty days -/
def retentionMs : Nat := 31 * 24 * 3600000

def pruneEveryMs : Nat := 6 * 3600000

/-- The ten second scan can miss one tick without joining a longer outage. -/
def maxScanGapMs : Nat := 30000

structure LastStatus where
  id : Nat
  status : Status
  recordedAt : Nat
deriving DecidableEq, Repr

/-- What became of the samples of one stack: taken down whole, only as the end
of the interval before, or followed by nothing the panel remembers. -/
inductive Mark where
  | sample (moment : Nat) (status : Status)
  | ended (moment : Nat)
  | cut
deriving DecidableEq, Repr

/-- The table, the memory of one process, and beside them the history of samples. -/
structure Recorder where
  table : IntervalTable StackRef Status := .empty
  lastStatus : String → Option LastStatus := fun _ => none
  lastPruneAt : Nat := 0
  clock : Nat := 0
  seen : StackRef → List Mark := fun _ => []

/-- One stack of a scan, with what happens while it is written down. -/
structure Scanned where
  stack : StackRef
  status : Status
  /-- Whether the round was given up by the stack's turn -/
  aborted : Bool := false
  updateWorks : Bool := true
  insertWorks : Bool := true
  /-- Stacks deleted while a write of this one is awaited -/
  forgottenInUpdate : List StackRef := []
  forgottenInInsert : List StackRef := []

namespace Recorder

def note (recorder : Recorder) (stack : StackRef) (mark : Mark) : Recorder :=
  { recorder with seen := Function.update recorder.seen stack (recorder.seen stack ++ [mark]) }

/-- Release a disappeared stack without deleting its historical observations. -/
def forgetObservation (recorder : Recorder) (stack : StackRef) : Recorder :=
  { recorder with lastStatus := Function.update recorder.lastStatus (keyOf stack) none }.note stack .cut

def forgetAll (recorder : Recorder) (stackList : List StackRef) : Recorder :=
  stackList.foldl forgetObservation recorder

/-- A process that starts remembers nothing, as after `resetObservationState`. -/
def resetObservationState (recorder : Recorder) : Recorder :=
  { recorder with
    lastStatus := fun _ => none
    lastPruneAt := 0
    seen := fun stack => recorder.seen stack ++ [.cut] }

/-- `previous.at = now`, which nobody sees once the stack was forgotten -/
def touch (recorder : Recorder) (stack : StackRef) (now : Nat) : Recorder :=
  let touched := (recorder.lastStatus (keyOf stack)).map ({ · with recordedAt := now })
  { recorder with lastStatus := Function.update recorder.lastStatus (keyOf stack) touched }

def insertObservation (recorder : Recorder) (scanned : Scanned) (now : Nat) : Recorder × Bool :=
  if scanned.insertWorks then
    let (table, id) := recorder.table.insert scanned.stack scanned.status now
    let recorder := { recorder with table := table }.forgetAll scanned.forgottenInInsert
    let last : LastStatus := { id := id, status := scanned.status, recordedAt := now }
    ({ recorder with lastStatus := Function.update recorder.lastStatus (keyOf scanned.stack) (some last) }.note
      scanned.stack (.sample now scanned.status), true)
  else (recorder.forgetAll scanned.forgottenInInsert, false)

/-- Confirm the current interval or start a new interval after a status change or gap.
Answers whether a new interval was inserted. -/
def recordStatus (recorder : Recorder) (scanned : Scanned) (now : Nat) : Recorder × Bool :=
  match recorder.lastStatus (keyOf scanned.stack) with
  | none => recorder.insertObservation scanned now
  | some previous =>
      if previous.recordedAt ≤ now ∧ now - previous.recordedAt ≤ maxScanGapMs then
        if scanned.updateWorks then
          let (table, updated) := recorder.table.confirm previous.id now
          let recorder := { recorder with table := table }
          if updated then
            if previous.status = scanned.status then
              let recorder := recorder.note scanned.stack (.sample now scanned.status)
              ((recorder.forgetAll scanned.forgottenInUpdate).touch scanned.stack now, false)
            else
              let recorder := recorder.note scanned.stack (.ended now)
              (recorder.forgetAll scanned.forgottenInUpdate).insertObservation scanned now
          else (recorder.forgetAll scanned.forgottenInUpdate).insertObservation scanned now
        else (recorder.forgetAll scanned.forgottenInUpdate, false)
      else recorder.insertObservation scanned now

def recordEach (recorder : Recorder) (stackList : List Scanned) (now written : Nat) : Recorder × Nat × Bool :=
  match stackList with
  | [] => (recorder, written, false)
  | scanned :: rest =>
      if scanned.aborted then (recorder, written, true)
      else
        let (recorder, inserted) := recorder.recordStatus scanned now
        recorder.recordEach rest now (if inserted then written + 1 else written)

/-- Remove rows older than the retention window -/
def pruneOldObservations (recorder : Recorder) (now : Nat) (works : Bool) : Recorder :=
  if works then { recorder with table := recorder.table.prune (now - retentionMs) } else recorder

/-- The scan begins by dropping what was last seen too long ago. -/
def beginScan (recorder : Recorder) (now : Nat) : Recorder :=
  { recorder with
    clock := now
    lastStatus := fun key =>
      (recorder.lastStatus key).filter fun previous => now - previous.recordedAt ≤ maxScanGapMs }

/-- Record the statuses of a whole scan and prune old rows from time to time.
Answers how many rows were written. -/
def recordScan (recorder : Recorder) (stackList : List Scanned) (now : Nat) (aborted pruneWorks : Bool) :
    Recorder × Nat :=
  let (recorder, written, gaveUp) := (recorder.beginScan now).recordEach stackList now 0
  if !gaveUp && !aborted && now - recorder.lastPruneAt > pruneEveryMs then
    ({ recorder with lastPruneAt := now }.pruneOldObservations now pruneWorks, written)
  else (recorder, written)

end Recorder

/-- What happens to the history.  A process that ends inside a scan is a scan given
up at that point, its unfinished write failed, followed by a restart. -/
inductive RecorderEvent where
  | scan (elapsed : Nat) (stackList : List Scanned) (aborted pruneWorks : Bool)
  | forget (stack : StackRef)
  | restart

/-- Each scan is taken later than the one before. -/
def recorderStep (recorder : Recorder) : RecorderEvent → Recorder
  | .scan elapsed stackList aborted pruneWorks =>
      (recorder.recordScan stackList (recorder.clock + elapsed + 1) aborted pruneWorks).1
  | .forget stack => recorder.forgetObservation stack
  | .restart => recorder.resetObservationState

/-- A name without a slash is what stands behind the last one. -/
theorem plain_suffix {front name : List Char} (plain : '/' ∉ name) :
    (front ++ '/' :: name).reverse.takeWhile (· ≠ '/') = name.reverse := by
  have noSlash : ∀ char ∈ name.reverse, decide (char ≠ '/') = true := by
    intro char member
    rw [decide_eq_true_eq]
    intro same
    exact plain (same ▸ List.mem_reverse.mp member)
  have reversed : (front ++ '/' :: name).reverse = name.reverse ++ '/' :: front.reverse := by simp
  rw [reversed, List.takeWhile_append_of_pos noSlash]
  simp

theorem keyOf_injective : Function.Injective keyOf := by
  intro stack other same
  have chars : (stack.endpoint.toList ++ ['/']) ++ '/' :: stack.stackName.toList =
      (other.endpoint.toList ++ ['/']) ++ '/' :: other.stackName.toList := by
    have := congrArg String.toList same
    simpa [keyOf] using this
  have names : stack.stackName.toList = other.stackName.toList := by
    have := congrArg (fun text => text.reverse.takeWhile (· ≠ '/')) chars
    simp only [plain_suffix stack.plain, plain_suffix other.plain] at this
    exact List.reverse_injective this
  have endpoints : stack.endpoint.toList = other.endpoint.toList := by
    rw [names] at chars
    exact List.append_cancel_right (List.append_cancel_right chars)
  obtain ⟨stackName, endpoint, plain⟩ := stack
  obtain ⟨otherName, otherEndpoint, otherPlain⟩ := other
  rw [StackRef.mk.injEq]
  exact ⟨String.toList_inj.mp names, String.toList_inj.mp endpoints⟩

end Dockge.Observation
