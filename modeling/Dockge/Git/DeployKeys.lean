import Dockge.Data.History

namespace Dockge.Git

open Data

/-! The deploy key of one repository, under any number of creations and readings.

A key is the number of the call that had it generated.  Each call is at the step it will take next, and a step
fails or does what it is for.
-/

/-- Who reads the public half: `get`, or `create` before and after it makes a key. -/
inductive Reader where
  | get
  | existing
  | created
deriving DecidableEq, Repr

inductive Stage where
  /-- It opens the public half. -/
  | opens (reader : Reader)
  | reads (reader : Reader) (key : Nat)
  /-- It closes the public half, and has the line unless reading failed. -/
  | closes (reader : Reader) (line : Option Nat)
  | makesDir
  | changesDirMode
  | generates
  | changesMode
  | renamesPrivate
  | renamesPublic
  | removesPrivate (failed : Bool)
  | removesPublic (failed : Bool)
  | returned (key : Option Nat)
  | threw
deriving DecidableEq, Repr

structure GitDeployKeys where
  privateKey : Option Nat := none
  publicKey : Option Nat := none
  calls : List Stage := []
  /-- The keys that calls have returned -/
  returned : List Nat := []
deriving DecidableEq, Repr

namespace GitDeployKeys

def goOn (keys : GitDeployKeys) (call : Nat) (stage : Stage) : GitDeployKeys :=
  { keys with calls := keys.calls.set call stage }

/-- `get` of a reader is null. -/
def missing (keys : GitDeployKeys) (call : Nat) : Reader → GitDeployKeys
  | .get => keys.goOn call (.returned none)
  | .existing => keys.goOn call .makesDir
  | .created => keys.goOn call .threw

def found (keys : GitDeployKeys) (call key : Nat) : GitDeployKeys :=
  { keys.goOn call (.returned (some key)) with returned := keys.returned ++ [key] }

def advance (keys : GitDeployKeys) (call : Nat) (succeeds : Bool) : Stage → GitDeployKeys
  | .opens reader =>
      match succeeds, keys.publicKey with
      | true, some key => keys.goOn call (.reads reader key)
      | _, _ => keys.missing call reader
  | .reads reader key => keys.goOn call (.closes reader (if succeeds then some key else none))
  | .closes reader line =>
      match succeeds, line with
      | true, some key => keys.found call key
      | _, _ => keys.missing call reader
  | .makesDir => keys.goOn call (if succeeds then .changesDirMode else .threw)
  | .changesDirMode => keys.goOn call (if succeeds then .generates else .threw)
  | .generates => keys.goOn call (if succeeds then .changesMode else .removesPrivate true)
  | .changesMode => keys.goOn call (if succeeds then .renamesPrivate else .removesPrivate true)
  | .renamesPrivate =>
      if succeeds then { keys.goOn call .renamesPublic with privateKey := some call }
      else keys.goOn call (.removesPrivate true)
  | .renamesPublic =>
      if succeeds then { keys.goOn call (.removesPrivate false) with publicKey := some call }
      else keys.goOn call (.removesPrivate true)
  | .removesPrivate failed => keys.goOn call (if succeeds then .removesPublic failed else .threw)
  | .removesPublic failed => keys.goOn call (if succeeds && !failed then .opens .created else .threw)
  | .returned key => keys.goOn call (.returned key)
  | .threw => keys.goOn call .threw

/-- The key in the file that `keyFile` names -/
def keyFile (keys : GitDeployKeys) (statted : Bool) : Option Nat := if statted then keys.privateKey else none

end GitDeployKeys

inductive Event where
  | get
  | create
  | advance (call : Nat) (succeeds : Bool)
  /-- The process stops, and with it every call. -/
  | stop
deriving DecidableEq, Repr

def step (keys : GitDeployKeys) : Event → GitDeployKeys
  | .get => { keys with calls := keys.calls ++ [.opens .get] }
  | .create => { keys with calls := keys.calls ++ [.opens .existing] }
  | .advance call succeeds =>
      match keys.calls[call]? with
      | some stage => keys.advance call succeeds stage
      | none => keys
  | .stop => { keys with calls := keys.calls.map fun _ => .threw }

/-- A private half is only put in place while there is no public half, and a public half only beside its private half. -/
def Alone (keys : GitDeployKeys) : Event → Prop
  | .advance call true =>
      (keys.calls[call]? = some .renamesPrivate → keys.publicKey = none) ∧
      (keys.calls[call]? = some .renamesPublic → keys.privateKey = some call)
  | _ => True

namespace GitDeployKeys

/-- The private half there belongs to the public half. -/
def Paired (keys : GitDeployKeys) : Prop := ∀ key, keys.publicKey = some key → keys.privateKey = some key

/-- All calls that returned a key returned the one whose private half is there. -/
def Handed (keys : GitDeployKeys) : Prop :=
  (∀ key ∈ keys.returned, ∀ other ∈ keys.returned, key = other) ∧
  ∀ key ∈ keys.returned, keys.keyFile true = some key

end GitDeployKeys

end Dockge.Git
