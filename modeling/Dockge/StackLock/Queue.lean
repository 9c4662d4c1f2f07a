import Dockge.Data.History

namespace Dockge.StackLock

/-! The lock of a stack directory: `withStackLock` and `stackLockBusy`.

A call is named by its place in the order of all calls.  Its promises are kept as what became of
them: `current` is resolved once the call has settled, and `chained` is a flag of its own, because a
promise that waits for others settles in a later turn than they do.
-/

inductive Phase where
  | waiting
  | running
  | settled (rejected : Bool)
  deriving DecidableEq, Repr

def Phase.hasSettled : Phase → Bool
  | .settled _ => true
  | _ => false

/-- How a call came by the directory: inside an operation that has it already, or behind the promise
that was the end of the queue (none for a queue that was not there). -/
inductive Entry where
  | nested
  | queued (previous : Option Nat)
  deriving DecidableEq, Repr

/-- One call of `withStackLock`. -/
structure Call (Key : Type) where
  /-- The call whose operation made this one. -/
  caller : Option Nat
  key : Key
  /-- `held.getStore()`; no store and an empty one are the same to every reader. -/
  owned : List Key
  entry : Entry
  phase : Phase
  /-- `chained` has settled. -/
  chained : Bool := false
  deriving DecidableEq, Repr

variable {Dir Key : Type} [DecidableEq Key]

/-- The store the operation of a call runs in. -/
def Call.store (call : Call Key) : List Key :=
  match call.entry with
  | .nested => call.owned
  | .queued _ => call.key :: call.owned

def Call.queues (call : Call Key) : Bool :=
  match call.entry with
  | .nested => false
  | .queued _ => true

/-- The operation begins. -/
def Call.run (call : Call Key) : Call Key := { call with phase := .running }

def Call.settle (rejected : Bool) (call : Call Key) : Call Key :=
  { call with phase := .settled rejected }

def Call.chain (call : Call Key) : Call Key := { call with chained := true }

structure State (Key : Type) where
  calls : List (Call Key)
  queues : Key → Option Nat

def State.start : State Key := { calls := [], queues := fun _ => none }

namespace State

/-- The store of the code that makes a call: of no operation, or of one that has begun.  An
operation that has settled may have left code behind that still runs. -/
def storeOf (state : State Key) : Option Nat → Option (List Key)
  | none => some []
  | some caller =>
      match state.calls[caller]? with
      | none => none
      | some call => if call.phase = .waiting then none else some call.store

def modify (state : State Key) (id : Nat) (change : Call Key → Call Key) : State Key :=
  { state with calls := state.calls.modify id change }

def setQueue (state : State Key) (key : Key) (link : Option Nat) : State Key :=
  { state with queues := fun other => if other = key then link else state.queues other }

/-- The promise a call waits for has settled. -/
def behind (state : State Key) : Option Nat → Bool
  | none => true
  | some previous =>
      match state.calls[previous]? with
      | none => false
      | some call => call.chained

end State

/-- `stackLockBusy` -/
def stackLockBusy (resolve : Dir → Key) (state : State Key) (dir : Dir) : Bool :=
  (state.queues (resolve dir)).isSome

/-- `withStackLock` up to the operation or the wait for the queue. -/
def withStackLock (resolve : Dir → Key) (state : State Key) (caller : Option Nat) (owned : List Key)
    (dir : Dir) : State Key :=
  let key := resolve dir
  if key ∈ owned then
    { state with calls := state.calls ++
        [{ caller := caller, key := key, owned := owned, entry := .nested, phase := .running }] }
  else
    let queued : State Key := { state with calls := state.calls ++
      [{ caller := caller, key := key, owned := owned,
         entry := .queued (state.queues key), phase := .waiting }] }
    queued.setQueue key (some state.calls.length)

/-- The call gets the directory: `previous` has settled and the operation starts. -/
def enter (state : State Key) (id : Nat) (call : Call Key) : State Key :=
  match call.entry, call.phase with
  | .queued previous, .waiting =>
      if state.behind previous then state.modify id Call.run
      else state
  | _, _ => state

/-- The operation resolves or rejects.  A queued call releases the directory, and clears the queue
where it is the end of it. -/
def settle (state : State Key) (id : Nat) (call : Call Key) (rejected : Bool) : State Key :=
  match call.phase with
  | .running =>
      let released := state.modify id (Call.settle rejected)
      match call.entry with
      | .nested => released
      | .queued _ =>
          if state.queues call.key = some id then released.setQueue call.key none else released
  | _ => state

/-- `chained` settles: after `previous`, and after `current` that it resolves to. -/
def settleChained (state : State Key) (id : Nat) (call : Call Key) : State Key :=
  match call.entry with
  | .nested => state
  | .queued previous =>
      if state.behind previous && call.phase.hasSettled then
        state.modify id Call.chain
      else state

inductive Event (Dir : Type) where
  | call (caller : Option Nat) (dir : Dir)
  | enter (id : Nat)
  | settle (id : Nat) (rejected : Bool)
  | chain (id : Nat)
  deriving DecidableEq, Repr

/-- One turn; an event that cannot happen in a state leaves it alone. -/
def step (resolve : Dir → Key) (state : State Key) : Event Dir → State Key
  | .call caller dir =>
      match state.storeOf caller with
      | none => state
      | some owned => withStackLock resolve state caller owned dir
  | .enter id =>
      match state.calls[id]? with
      | none => state
      | some call => enter state id call
  | .settle id rejected =>
      match state.calls[id]? with
      | none => state
      | some call => settle state id call rejected
  | .chain id =>
      match state.calls[id]? with
      | none => state
      | some call => settleChained state id call

/-- The state after a history of turns. -/
def reached (resolve : Dir → Key) (history : List (Event Dir)) : State Key :=
  Data.replay (step resolve) .start history

end Dockge.StackLock
