import Dockge.Data.History
import Mathlib

namespace Dockge.Terminals

open Data

/-! Who reads the log of a stack: requests to join and to leave, each with a lookup of its own. -/

structure LogRequest where
  /-- The `Symbol()` of a join; a leave makes none, but is told apart all the same. -/
  token : Nat
  joins : Bool
  stackName : String
deriving DecidableEq

def getCombinedTerminalName (endpoint stack : String) : String := "combined-" ++ endpoint ++ "-" ++ stack

/-- One socket, and the log terminals with the sockets that read them -/
structure LogReaders where
  logJoins : String → Option Nat := fun _ => none
  nextToken : Nat := 0
  /-- Requests whose `Stack.getStack` has not resolved -/
  lookups : List LogRequest := []
  connected : Bool := true
  terminals : String → Option (List Nat) := fun _ => none

namespace LogReaders

variable (endpoint : String) (socket : Nat)

def hasClient (readers : LogReaders) (stack : String) : Bool :=
  ((readers.terminals (getCombinedTerminalName endpoint stack)).getD []).contains socket

/-- A terminal is created for the first reader, unless its process does not start. -/
def joinCombinedTerminal (stack : String) (client : Nat) (starts : Bool) (readers : LogReaders) : LogReaders :=
  let name := getCombinedTerminalName endpoint stack
  let terminal :=
    match readers.terminals name with
    | some clients => some (clients.insert client)
    | none => if starts then some [client] else none
  { readers with terminals := Function.update readers.terminals name terminal }

def leaveCombinedTerminal (stack : String) (client : Nat) (readers : LogReaders) : LogReaders :=
  let name := getCombinedTerminalName endpoint stack
  { readers with
    terminals := Function.update readers.terminals name
      ((readers.terminals name).map fun clients => clients.filter fun other => other ≠ client) }

/-- `joinCombinedTerminal` of the handler, up to its lookup -/
def requestJoin (stackName : String) (readers : LogReaders) : LogReaders :=
  { readers with
    logJoins := Function.update readers.logJoins stackName (some readers.nextToken)
    nextToken := readers.nextToken + 1
    lookups := readers.lookups ++ [{ token := readers.nextToken, joins := true, stackName }] }

def requestLeave (stackName : String) (readers : LogReaders) : LogReaders :=
  { readers with
    logJoins := Function.update readers.logJoins stackName none
    nextToken := readers.nextToken + 1
    lookups := readers.lookups ++ [{ token := readers.nextToken, joins := false, stackName }] }

/-- What a request does once its stack is found -/
def continued (request : LogRequest) (managed starts : Bool) (readers : LogReaders) : LogReaders :=
  if request.joins then
    if managed && readers.logJoins request.stackName = some request.token && readers.connected then
      readers.joinCombinedTerminal endpoint request.stackName socket starts
    else readers
  else if readers.logJoins request.stackName = none then
    readers.leaveCombinedTerminal endpoint request.stackName socket
  else readers

def settle (token : Nat) (resolve : LogRequest → LogReaders → LogReaders) (readers : LogReaders) : LogReaders :=
  match readers.lookups.find? fun request => request.token = token with
  | none => readers
  | some request =>
      resolve request { readers with lookups := readers.lookups.filter fun request => request.token ≠ token }

end LogReaders

inductive LogEvent where
  | join (stackName : String)
  | leave (stackName : String)
  /-- `Stack.getStack` finds the stack of a request. -/
  | resolves (token : Nat) (managed starts : Bool)
  | fails (token : Nat)
  | disconnects
  /-- The log process of a stack exits. -/
  | exits (stack : String)
  | others (stack : String) (client : Nat) (joins : Bool)

def LogReaders.step (endpoint : String) (socket : Nat) (readers : LogReaders) : LogEvent → LogReaders
  | .join stackName => readers.requestJoin stackName
  | .leave stackName => readers.requestLeave stackName
  | .resolves token managed starts =>
      readers.settle token fun request => LogReaders.continued endpoint socket request managed starts
  | .fails token => readers.settle token fun _ readers => readers
  | .disconnects => { readers with connected := false }
  | .exits stack =>
      { readers with terminals := Function.update readers.terminals (getCombinedTerminalName endpoint stack) none }
  | .others stack client joins =>
      if client = socket then readers
      else if joins then readers.joinCombinedTerminal endpoint stack client true
      else readers.leaveCombinedTerminal endpoint stack client

/-- Whether it asks to read the log of this stack, or to stop reading it -/
def LogEvent.asks (stackName : String) : LogEvent → Option Bool
  | .join other => if other = stackName then some true else none
  | .leave other => if other = stackName then some false else none
  | _ => none

/-- Whether the last request for a stack was a join, if there was one -/
def lastRequest (stackName : String) (history : List LogEvent) : Option Bool :=
  history.foldl (fun last event => (event.asks stackName).or last) none

/-- No lookup fails, no log process exits or fails to start, and the socket stays. -/
def LogEvent.succeeds : LogEvent → Bool
  | .resolves _ managed starts => managed && starts
  | .fails _ | .disconnects | .exits _ => false
  | _ => true

end Dockge.Terminals
