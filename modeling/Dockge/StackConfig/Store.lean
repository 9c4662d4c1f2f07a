import Mathlib.Logic.Function.Basic
import Dockge.Data.History

namespace Dockge.StackConfig

open Dockge.Data

/-! The stored file selections: one settings row for all stacks, which every call reads and writes back.

The calls of one process run as tasks that give way at each await.  Between its tasks the process
keeps the row as it was last parsed; a database statement that fails has no effect.
-/

abbrev Selections (Config : Type) : Type := String → Option Config

/-- A value of the settings row: an object, or anything else, which may not even be JSON. -/
inductive Value (Config : Type) where
  | selections (all : Selections Config)
  | other (parses : Bool)

/-- `StackConfig.set`, or without a selection `StackConfig.remove`. -/
structure Call (Config : Type) where
  stack : String
  config : Option Config

/-- A call that took effect, and whether it wrote the row for that. -/
structure Entry (Config : Type) where
  stack : String
  config : Option Config
  wrote : Bool

/-- Where a call waits.  With the selections it works on goes what had taken effect when the
database gave them out, which is nothing known where the read failed. -/
inductive Stage (Config : Type) where
  | fetching
  | fetched (value : Option (Value Config)) (seen : List (Entry Config))
  | got (all : Selections Config) (seen : Option (List (Entry Config)))
  | looking (all : Selections Config) (seen : Option (List (Entry Config)))
  | writing (all : Selections Config) (seen : Option (List (Entry Config))) (existing : Bool)
  | clearing
  | returned
  | rejected

structure Task (Config : Type) where
  call : Call Config
  stage : Stage Config

structure State (Config : Type) where
  row : Option (Value Config)
  cache : Option (Value Config × List (Entry Config))
  tasks : List (Task Config)
  /-- The calls that took effect, the last one first. -/
  log : List (Entry Config)

inductive Event (Config : Type) where
  | start (call : Call Config)
  | advance (index : Nat) (works : Bool)
  /-- The cleaner finds the cached value too old. -/
  | expire

variable {Config : Type}

/-- Anything but an object counts as no selection. -/
def selectionsOf : Option (Value Config) → Selections Config
  | some (.selections all) => all
  | _ => fun _ => none

/-- `JSON.parse` accepts it. -/
def parses : Option (Value Config) → Bool
  | some (.selections _) => true
  | some (.other parses) => parses
  | none => false

/-- The stack names that every object answers to. -/
def inheritedNames : List String := ["constructor", "__proto__"]

/-- `stackName in all` -/
def has (all : Selections Config) (stack : String) : Bool :=
  (all stack).isSome || stack ∈ inheritedNames

/-- `all[stackName] = config` -/
def assign (all : Selections Config) (stack : String) (config : Config) : Selections Config :=
  if stack = "__proto__" then all else Function.update all stack (some config)

/-- `delete all[stackName]` -/
def erase (all : Selections Config) (stack : String) : Selections Config :=
  Function.update all stack none

namespace State

def selection (state : State Config) : Selections Config := selectionsOf state.row

def put (state : State Config) (index : Nat) (task : Task Config) (stage : Stage Config) : State Config :=
  { state with tasks := state.tasks.set index { task with stage } }

/-- What was parsed is kept for the next reader. -/
def fill (state : State Config) (value : Option (Value Config)) (seen : List (Entry Config)) :
    State Config :=
  match value with
  | some found => if parses value then { state with cache := some (found, seen) } else state
  | none => state

def note (state : State Config) (call : Call Config) (wrote : Bool) : State Config :=
  { state with log := { stack := call.stack, config := call.config, wrote } :: state.log }

/-- The selections as the call wants them, or nothing to write. -/
def edit (state : State Config) (index : Nat) (task : Task Config) (all : Selections Config)
    (seen : Option (List (Entry Config))) : State Config :=
  match task.call.config with
  | some config => state.put index task (.looking (assign all task.call.stack config) seen)
  | none =>
      if has all task.call.stack then
        state.put index task (.looking (erase all task.call.stack) seen)
      else (state.note task.call false).put index task .returned

/-- The row is updated where there was one, and inserted otherwise; its key is unique. -/
def accepts (state : State Config) (existing works : Bool) : Bool :=
  works && (existing || state.row.isNone)

/-- A call goes on from where it waits. -/
def resume (state : State Config) (index : Nat) (task : Task Config) (works : Bool) : State Config :=
  match task.stage with
  | .fetching =>
      if works then state.put index task (.fetched state.row state.log)
      else state.put index task (.got (fun _ => none) none)
  | .fetched value seen =>
      (state.fill value seen).put index task (.got (selectionsOf value) (some seen))
  | .got all seen => state.edit index task all seen
  | .looking all seen =>
      if works then state.put index task (.writing all seen state.row.isSome)
      else state.put index task .rejected
  | .writing all _ existing =>
      if state.accepts existing works then
        ({ state with row := some (.selections all) }.note task.call true).put index task .clearing
      else state.put index task .rejected
  | .clearing => { state with cache := none }.put index task .returned
  | .returned => state
  | .rejected => state

end State

/-- `Settings.get` looks into the cache at once. -/
def firstStage (cache : Option (Value Config × List (Entry Config))) : Stage Config :=
  match cache with
  | some (value, seen) => .got (selectionsOf (some value)) (some seen)
  | none => .fetching

def step (state : State Config) : Event Config → State Config
  | .start call => { state with tasks := state.tasks ++ [⟨call, firstStage state.cache⟩] }
  | .advance index works =>
      match state.tasks[index]? with
      | some task => state.resume index task works
      | none => state
  | .expire => { state with cache := none }

/-- A process that has just started. -/
def initial (row : Option (Value Config)) : State Config :=
  { row, cache := none, tasks := [], log := [] }

end Dockge.StackConfig
