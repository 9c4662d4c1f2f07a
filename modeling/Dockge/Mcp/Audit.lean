import Mathlib
import Dockge.Data.History

namespace Dockge.Mcp.Audit

/-! The log of repeated events: counts in memory, and the writes that bring them into its rows. -/

def windowMs : Int := 60000
def maxGroups : Nat := 1000

structure Row where
  at_ : Int
  attempts : Nat
deriving DecidableEq, Repr

/-- Where a write of a group has come -/
inductive Stage where
  | idle
  | sent (attempts : Nat) (at_ : Int)
  /-- The database has carried its statement out. -/
  | executed (attempts : Nat)
  /-- The row was inserted, and older ones are removed. -/
  | pruning (attempts : Nat)
deriving DecidableEq, Repr

structure Group where
  key : String
  /-- The number of its row among those it inserted -/
  id : Option Nat := none
  startedAt : Int
  lastAt : Int
  attempts : Nat := 0
  written : Nat := 0
  timer : Bool := false
  /-- It is in the set of the groups still to write. -/
  unwritten : Bool := false
  /-- The attempts at the time each link of its chain of writes was added, and how many of them are over -/
  chain : List Nat := []
  finished : Nat := 0
  stage : Stage := .idle
  rows : List Row := []
deriving DecidableEq, Repr

/-- A call of `flushMcpAudit`: how many links of which chains it waits for -/
structure Flush where
  waits : List (Nat × Nat)
  /-- How often each key had been recorded, and the groups at that time -/
  calls : String → Nat
  seen : List Group

structure Log where
  groups : List Group := []
  /-- The group in which the repeats of a key are counted -/
  current : List (String × Nat) := []
  calls : String → Nat := fun _ => 0
  flushes : List Flush := []

namespace Group

def schedule (group : Group) : Group := { group with unwritten := true, timer := true }

/-- Another write at the end of the chain -/
def enqueue (group : Group) : Group := { group with timer := false, chain := group.chain ++ [group.attempts] }

def fires (group : Group) : Group := if group.timer then group.enqueue else group

def finish (group : Group) : Group := { group with stage := .idle, finished := group.finished + 1 }

/-- The beginning of `write`, once the writes before it are over -/
def begins (group : Group) : Group :=
  if group.stage = .idle ∧ group.finished < group.chain.length then
    if group.written = group.attempts then { group with unwritten := false }.finish
    else { group with stage := .sent group.attempts group.lastAt }
  else group

def executes (group : Group) : Group :=
  match group.stage with
  | .sent attempts at_ =>
      match group.id with
      | none => { group with stage := .executed attempts, rows := group.rows ++ [{ at_, attempts }] }
      | some id => { group with stage := .executed attempts, rows := group.rows.modify id fun _ => { at_, attempts } }
  | _ => group

/-- The end of `write` -/
def ends (group : Group) (attempts : Nat) : Group :=
  { group with written := attempts, unwritten := group.unwritten && group.timer }.finish

def answered (group : Group) : Group :=
  match group.stage with
  | .executed attempts =>
      match group.id with
      | none => { group with stage := .pruning attempts, id := some (group.rows.length - 1) }
      | some _ => group.ends attempts
  | _ => group

def pruned (group : Group) : Group :=
  match group.stage with
  | .pruning attempts => group.ends attempts
  | _ => group

def count (group : Group) (now : Int) : Group := { group with attempts := group.attempts + 1, lastAt := now }.schedule

end Group

namespace Log

def change (log : Log) (index : Nat) (update : Group → Group) : Log :=
  { log with groups := log.groups.modify index update }

def live (log : Log) (now : Int) (index : Nat) : Bool :=
  log.groups[index]?.any fun group => now - group.startedAt < windowMs

def called (log : Log) (key : String) : Log :=
  { log with calls := fun other => log.calls other + if other = key then 1 else 0 }

def recordMcpRepeated (log : Log) (key : String) (now : Int) : Log :=
  let log := log.called key
  match (log.current.lookup key).filter (log.live now) with
  | some index => log.change index (·.count now)
  | none =>
      let current := log.current.filter fun entry => log.live now entry.2
      if maxGroups ≤ current.length then { log with current }
      else
        { log with
          current := current ++ [(key, log.groups.length)]
          groups := log.groups ++ [Group.count { key, startedAt := now, lastAt := now } now] }

/-- The timers of the groups still to write are taken, and the ends of their chains waited for. -/
def flushMcpAudit (log : Log) : Log :=
  let groups := log.groups.map fun group => if group.unwritten then group.fires else group
  let waits := (groups.zipIdx.filter (·.1.unwritten)).map fun (group, index) => (index, group.chain.length)
  { log with groups, flushes := log.flushes ++ [{ waits, calls := log.calls, seen := log.groups }] }

end Log

inductive Event where
  | record (key : String) (now : Int)
  | flush
  | fires (index : Nat)
  | begins (index : Nat)
  | executes (index : Nat)
  | answered (index : Nat)
  | pruned (index : Nat)

def step (log : Log) : Event → Log
  | .record key now => log.recordMcpRepeated key now
  | .flush => log.flushMcpAudit
  | .fires index => log.change index Group.fires
  | .begins index => log.change index Group.begins
  | .executes index => log.change index Group.executes
  | .answered index => log.change index Group.answered
  | .pruned index => log.change index Group.pruned

/-- A call of `flushMcpAudit` resolves once the links it waits for are over. -/
def Flush.Resolved (flush : Flush) (log : Log) : Prop :=
  ∀ wait ∈ flush.waits, ∀ group, log.groups[wait.1]? = some group → wait.2 ≤ group.finished

/-- What the groups of a key come to -/
def total (key : String) (amount : Group → Nat) (groups : List Group) : Nat :=
  (groups.map fun group => if group.key = key then amount group else 0).sum

def Group.logged (group : Group) : Nat := (group.rows.map Row.attempts).sum

end Dockge.Mcp.Audit
