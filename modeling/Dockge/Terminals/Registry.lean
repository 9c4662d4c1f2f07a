import Dockge.Data.History
import Dockge.Data.JsonText

namespace Dockge.Terminals

open Data

/-! Terminals and the registry that finds them by name, as `terminal.ts` keeps them. -/

/-- Whose private session a terminal is. -/
structure TerminalOwner where
  user : String
  client : String
deriving DecidableEq, Repr

/-- A connection, as far as it says who is at the other end. -/
structure Socket where
  userID : Option String
  /-- The header a panel names its user with, when it is one text -/
  client : Option String
deriving DecidableEq, Repr

/-- `/^[a-f0-9]{16}$/` -/
def isClientKey (chars : List Char) : Bool :=
  chars.length = 16 && chars.all fun char => char.isDigit || ('a' ≤ char && char ≤ 'f')

/-- Who a socket's private sessions belong to. -/
def terminalOwner (socket : Socket) : TerminalOwner where
  user := socket.userID.getD ""
  client := (socket.client.filter fun client => isClientKey client.toList).getD ""

structure OperationError where
  code : String
  message : String
  unknown : Bool
deriving DecidableEq, Repr

def busy : OperationError := ⟨"busy", "operationBusy", false⟩
def spawnFailed : OperationError := ⟨"spawn", "operationSpawnFailed", false⟩
def interrupted : OperationError := ⟨"interrupted", "operationInterrupted", true⟩

structure Terminal where
  name : String
  owner : Option TerminalOwner
  commandExecution : Bool
  /-- `_ptyProcess` is set. -/
  hasProcess : Bool
  /-- A process of the terminal has not exited; nothing in the source says so. -/
  running : Bool
  ending : Bool
  exited : Bool
  /-- `kill` was called; nothing in the source says so. -/
  killed : Bool
  executionError : Option OperationError
  /-- What the promise of a command came to -/
  settled : Option (Except OperationError Int)

def Terminal.new (name : String) (owner : Option TerminalOwner) (commandExecution : Bool) : Terminal where
  name := name
  owner := owner
  commandExecution := commandExecution
  hasProcess := false
  running := false
  ending := false
  exited := false
  killed := false
  executionError := none
  settled := none

def keyTexts (name : String) : Option TerminalOwner → List String
  | some owner => [owner.user, owner.client, name]
  | none => [name]

/-- Registry key. A private session is filed under its owner. -/
def keyOf (name : String) (owner : Option TerminalOwner) : String := stringifyTexts (keyTexts name owner)

def Terminal.key (terminal : Terminal) : String := keyOf terminal.name terminal.owner

/-- The process has not exited, and nobody has asked for its end. -/
def Terminal.isLive (terminal : Terminal) : Bool :=
  terminal.running && !terminal.ending && !terminal.killed

/-- Tell the caller of a command what came of it, once. -/
def Terminal.settle (terminal : Terminal) (exitCode : Int) (signal : Bool) : Terminal :=
  let executionError :=
    if terminal.executionError.isNone && (terminal.ending || signal) then some interrupted
    else terminal.executionError
  { terminal with
    executionError := executionError
    settled := terminal.settled <|> some (executionError.elim (.ok exitCode) .error) }

/-- `exit`, as far as it changes the terminal itself -/
def Terminal.afterExit (exitCode : Int) (signal : Bool) (terminal : Terminal) : Terminal :=
  let exited := { terminal with exited := true, running := false }
  if terminal.commandExecution then exited.settle exitCode signal else exited

def Terminal.withProcess (terminal : Terminal) : Terminal := { terminal with hasProcess := true, running := true }

def Terminal.withoutProcess (terminal : Terminal) : Terminal := { terminal with executionError := some spawnFailed }

def Terminal.afterKill (terminal : Terminal) : Terminal :=
  { terminal with
    killed := true
    executionError := if terminal.commandExecution then some interrupted else terminal.executionError }

def Terminal.toEnd (terminal : Terminal) : Terminal := { terminal with ending := true }

/-- The terminals in the order they were made, and the entries of the registry. -/
structure Registry where
  terminals : List Terminal
  terminalMap : String → Option Nat
  /-- `joinContainerTerminal` calls that wait for the check of their shell -/
  checking : List (String × TerminalOwner)
  /-- Consoles that `MainTerminal.open` returned and whose caller comes next -/
  opened : List Nat

namespace Registry

def empty : Registry := ⟨[], fun _ => none, [], []⟩

def change (registry : Registry) (id : Nat) (update : Terminal → Terminal) : Registry :=
  { registry with terminals := registry.terminals.modify id update }

/-- `new Terminal(..)`, which takes the entry whoever has it -/
def construct (registry : Registry) (terminal : Terminal) : Registry :=
  { registry with
    terminals := registry.terminals ++ [terminal]
    terminalMap := fun key => if key = terminal.key then some registry.terminals.length else registry.terminalMap key }

def getTerminal (registry : Registry) (name : String) (owner : Option TerminalOwner) : Option Nat :=
  registry.terminalMap (keyOf name owner)

/-- The terminal a client means by a name. -/
def forClient (registry : Registry) (socket : Socket) (name : String) : Option Nat :=
  registry.getTerminal name (some (terminalOwner socket)) <|> registry.getTerminal name none

/-- Remove a terminal from the registry, but only when the entry is still this one. -/
def forgetSelf (registry : Registry) (id : Nat) : Registry :=
  match registry.terminals[id]? with
  | some terminal =>
      if registry.terminalMap terminal.key = some id then
        { registry with terminalMap := fun key => if key = terminal.key then none else registry.terminalMap key }
      else registry
  | none => registry

def exit (registry : Registry) (id : Nat) (exitCode : Int) (signal : Bool) : Registry :=
  (registry.change id (.afterExit exitCode signal)).forgetSelf id

/-- Start the process; it may fail to start. -/
def start (registry : Registry) (id : Nat) (spawned : Bool) : Registry :=
  match registry.terminals[id]? with
  | some terminal =>
      if terminal.hasProcess then registry
      else if spawned then registry.change id .withProcess
      else (registry.change id .withoutProcess).exit id 1 false
  | none => registry

def kill (registry : Registry) (id : Nat) : Registry :=
  match registry.terminals[id]? with
  | some terminal =>
      -- Command executions remain locked until their exit is observed.
      if !terminal.commandExecution || !terminal.hasProcess then (registry.change id .afterKill).forgetSelf id
      else registry.change id .afterKill
  | none => registry

/-- `end` up to its first wait -/
def beginEnd (registry : Registry) (id : Nat) : Registry :=
  match registry.terminals[id]? with
  | some terminal =>
      if terminal.ending then registry
      else
        -- A command keeps its stack locked until the old process has actually exited.
        if terminal.commandExecution then registry.change id .toEnd
        else (registry.change id .toEnd).forgetSelf id
  | none => registry

/-- `end` once the grace is over; the process may have exited during the last wait. -/
def finishEnd (registry : Registry) (id : Nat) : Registry :=
  match registry.terminals[id]? with
  | some terminal => if terminal.ending && terminal.hasProcess then registry.kill id else registry
  | none => registry

/-- The terminals that the registry holds, of those that match -/
def matching (registry : Registry) (matches_ : Terminal → Bool) : List Nat :=
  (List.range registry.terminals.length).filter fun id =>
    match registry.terminals[id]? with
    | some terminal => registry.terminalMap terminal.key = some id && matches_ terminal
    | none => false

def endWhere (registry : Registry) (matches_ : Terminal → Bool) : Registry :=
  (registry.matching matches_).foldl beginEnd registry

def getOrCreateTerminal (registry : Registry) (name : String) : Registry × Nat :=
  match registry.getTerminal name none with
  | some id => (registry, id)
  | none => (registry.construct (.new name none false), registry.terminals.length)

/-- A command runs under its name, or is refused; its exit answers the caller. -/
def exec (registry : Registry) (terminalName : String) (spawned : Bool) : Except OperationError Nat × Registry :=
  match registry.getTerminal terminalName none with
  | some _ => (.error busy, registry)
  | none =>
      (.ok registry.terminals.length,
        (registry.construct (.new terminalName none true)).start registry.terminals.length spawned)

/-- `joinContainerTerminal` up to the check of the shell -/
def joinContainerTerminal (registry : Registry) (terminalName : String) (socket : Socket) (spawned : Bool) :
    Registry :=
  match registry.getTerminal terminalName (some (terminalOwner socket)) with
  | some id => registry.start id spawned
  | none => { registry with checking := registry.checking ++ [(terminalName, terminalOwner socket)] }

/-- What `joinContainerTerminal` does after the check; nothing is looked up again. -/
def shellChecked (registry : Registry) (terminalName : String) (owner : TerminalOwner) (exists_ spawned : Bool) :
    Registry :=
  if (terminalName, owner) ∈ registry.checking then
    let answered := { registry with checking := registry.checking.erase (terminalName, owner) }
    if exists_ then
      (answered.construct (.new terminalName (some owner) false)).start registry.terminals.length spawned
    else answered
  else registry

def consoleName : String := "console"

/-- `MainTerminal.open` after the setting was read, on or off -/
def openMain (registry : Registry) (socket : Socket) (enabled : Bool) : Registry :=
  if enabled then
    match registry.getTerminal consoleName (some (terminalOwner socket)) with
    | some id => { registry with opened := registry.opened ++ [id] }
    | none =>
        let made := registry.construct (.new consoleName (some (terminalOwner socket)) false)
        { made with opened := registry.opened ++ [registry.terminals.length] }
  else registry

/-- The caller of `MainTerminal.open` goes on. -/
def startMain (registry : Registry) (id : Nat) (spawned : Bool) : Registry :=
  if id ∈ registry.opened then
    { registry with opened := registry.opened.erase id }.start id spawned
  else registry

def joinCombinedTerminal (registry : Registry) (terminalName : String) (spawned : Bool) : Registry :=
  (registry.getOrCreateTerminal terminalName).1.start (registry.getOrCreateTerminal terminalName).2 spawned

end Registry

/-- What may happen next: each is one stretch of the source without a wait. -/
inductive Event where
  | exec (terminalName : String) (spawned : Bool)
  | joinCombinedTerminal (terminalName : String) (spawned : Bool)
  | joinContainerTerminal (terminalName : String) (socket : Socket) (spawned : Bool)
  | shellChecked (terminalName : String) (owner : TerminalOwner) (exists_ spawned : Bool)
  | openMain (socket : Socket) (enabled : Bool)
  | startMain (id : Nat) (spawned : Bool)
  | beginEnd (id : Nat)
  | finishEnd (id : Nat)
  | kill (id : Nat)
  | endWhere (matches_ : Terminal → Bool)
  | exits (id : Nat) (exitCode : Int) (signal : Bool)

def step (registry : Registry) : Event → Registry
  | .exec terminalName spawned => (registry.exec terminalName spawned).2
  | .joinCombinedTerminal terminalName spawned => registry.joinCombinedTerminal terminalName spawned
  | .joinContainerTerminal terminalName socket spawned => registry.joinContainerTerminal terminalName socket spawned
  | .shellChecked terminalName owner exists_ spawned => registry.shellChecked terminalName owner exists_ spawned
  | .openMain socket enabled => registry.openMain socket enabled
  | .startMain id spawned => registry.startMain id spawned
  | .beginEnd id => registry.beginEnd id
  | .finishEnd id => registry.finishEnd id
  | .kill id => registry.kill id
  | .endWhere matches_ => registry.endWhere matches_
  | .exits id exitCode signal =>
      match registry.terminals[id]? with
      | some terminal => if terminal.running then registry.exit id exitCode signal else registry
      | none => registry

end Dockge.Terminals
