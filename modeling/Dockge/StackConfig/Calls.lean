import Dockge.Data.Program
import Dockge.StackConfig.Store

namespace Dockge.StackConfig

open Dockge.Data

/-! The calls of `StackConfig` one after another, as programs over the settings row and its cache.

A statement that throws has no effect, so the fates of a run are only those two.
-/

variable {Config : Type}

structure Database (Config : Type) where
  row : Option (Value Config)
  cache : Option (Value Config)

/-- What is thrown is the database's; nobody looks at it. -/
inductive Failure where
  | database

abbrev Access (Config α : Type) : Type := Program (Database Config) Failure α

/-- One database statement. -/
def statement {α : Type} (act : Database Config → α × Database Config) : Access Config α :=
  Program.operation fun fate database =>
    match fate with
    | .ok => (.done (act database).1, (act database).2)
    | .late => (.threw .database, (act database).2)
    | .fail => (.threw .database, database)
    | .kill => (.killed, database)

/-- Synchronous code between two statements. -/
def synchronously (change : Database Config → Database Config) : Access Config Unit :=
  fun fates database => ⟨.done (), change database, fates⟩

namespace Settings

/-- `Settings.get` of the key of the selections -/
def get : Access Config (Option (Value Config)) := do
  match (← Program.look).cache with
  | some value => pure (some value)
  | none =>
      let value ← statement fun database => (database.row, database)
      if parses value then synchronously fun database => { database with cache := value }
      pure value

/-- `Settings.set` of that key: the row is updated where there is one, else inserted. -/
def set (all : Selections Config) : Access Config Unit := do
  let _existing ← statement fun database => (database.row.isSome, database)
  statement fun database => ((), { database with row := some (.selections all) })
  synchronously fun database => { database with cache := none }

end Settings

/-- `StackConfig.getAll`: a read that throws counts as an empty store. -/
def getAll : Access Config (Selections Config) :=
  Program.orElse (do
      let stored ← Settings.get
      pure (selectionsOf stored))
    fun (_ : Failure) => pure fun _ => none

/-- `StackConfig.get`; a name without a selection is answered as an empty object answers it. -/
def get (stackName : String) : Access Config (Option Config) := do
  let all ← getAll
  pure (all stackName)

def set (stackName : String) (config : Config) : Access Config Unit := do
  let all ← getAll
  Settings.set (assign all stackName config)

def remove (stackName : String) : Access Config Unit := do
  let all ← getAll
  if has all stackName then Settings.set (erase all stackName)

def setQuiet (stackName : String) (config : Config) : Access Config Bool :=
  Program.orElse (do
      set stackName config
      pure true)
    fun (_ : Failure) => pure false

def removeQuiet (stackName : String) : Access Config Bool :=
  Program.orElse (do
      remove stackName
      pure true)
    fun (_ : Failure) => pure false

/-- A call for one stack. -/
inductive Request (Config : Type) where
  | set (stackName : String) (config : Config)
  | setQuiet (stackName : String) (config : Config)
  | remove (stackName : String)
  | removeQuiet (stackName : String)

def Request.stackName : Request Config → String
  | .set stackName _ => stackName
  | .setQuiet stackName _ => stackName
  | .remove stackName => stackName
  | .removeQuiet stackName => stackName

/-- The call, with `true` for one that returns nothing. -/
def Request.run : Request Config → Access Config Bool
  | .set stackName config => do
      StackConfig.set stackName config
      pure true
  | .setQuiet stackName config => StackConfig.setQuiet stackName config
  | .remove stackName => do
      StackConfig.remove stackName
      pure true
  | .removeQuiet stackName => StackConfig.removeQuiet stackName

/-- Which statements of a call work, in their order. -/
def fates (works : List Bool) : List Fate :=
  works.map fun works => if works then .ok else .fail

inductive Turn (Config : Type) where
  | call (request : Request Config) (works : List Bool)
  /-- Somebody reads a selection. -/
  | get (stackName : String) (works : List Bool)
  /-- The cleaner finds the cached value too old. -/
  | expire

def turn (database : Database Config) : Turn Config → Database Config
  | .call request works => (request.run (fates works) database).state
  | .get stackName works => (get stackName (fates works) database).state
  | .expire => { database with cache := none }

/-- The store of a process that has just started. -/
def Database.stored (row : Option (Value Config)) : Database Config := { row := row, cache := none }

end Dockge.StackConfig
