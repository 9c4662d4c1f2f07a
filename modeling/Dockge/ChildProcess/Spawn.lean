import Dockge.Data.History

namespace Dockge.ChildProcess

open Data

/-! A spawned command: the promise that reports it, and the group of processes that is stopped. -/

abbrev Bytes := List UInt8

structure SpawnOptions where
  /-- The output is asked for, as text or as bytes. -/
  encoding : Bool := false
  maxBuffer : Option Nat := none
  timeoutMs : Option Nat := none
  killProcessGroup : Option Bool := none
  /-- The command has such a stream. -/
  hasStdout : Bool := true
  hasStderr : Bool := true
  /-- It has a process number. -/
  started : Bool := true
deriving DecidableEq, Repr

namespace SpawnOptions

def ownGroup (options : SpawnOptions) : Bool := options.killProcessGroup.getD options.timeoutMs.isSome

def captureOutput (options : SpawnOptions) : Bool := options.encoding || options.maxBuffer.isSome

def bufferLimit (options : SpawnOptions) : Nat := options.maxBuffer.getD (1024 * 1024)

end SpawnOptions

inductive Stream where
  | stdout
  | stderr
deriving DecidableEq, Repr

def SpawnOptions.captures (options : SpawnOptions) : Stream → Bool
  | .stdout => options.captureOutput && options.hasStdout
  | .stderr => options.captureOutput && options.hasStderr

/-- Why the caller is told that it failed -/
inductive Reason where
  | maxBuffer
  | timeout
  | child
  | signalled
  | code
deriving DecidableEq, Repr

inductive Signal where
  /-- The signal that a stop begins with -/
  | stop
  | kill
deriving DecidableEq, Repr

/-- A signal that was sent, to the group or to the command alone -/
structure Sent where
  signal : Signal
  group : Bool
deriving DecidableEq, Repr

/-- How a process ended -/
structure Exit where
  code : Option Int
  signal : Option String
deriving DecidableEq, Repr

structure Settlement where
  exit : Exit
  rejected : Option Reason
deriving DecidableEq, Repr

structure Command where
  error : Option Reason := none
  /-- `once("error")` has not been called yet. -/
  errorListens : Bool := true
  chunks : Stream → List Bytes := fun _ => []
  bufferSize : Nat := 0
  timer : Bool
  closeTimer : Option Exit := none
  settled : Bool := false
  settlements : List Settlement := []
  /-- A stop was ordered. -/
  ordered : Bool := false
  killTimer : Bool := false
  signals : List Sent := []
  /-- A process of the group runs. -/
  running : Bool := true
  exited : Bool := false

namespace Command

variable (options : SpawnOptions)

/-! ## The group -/

def alive (command : Command) : Bool :=
  if !options.started then false
  else if options.ownGroup then command.running
  else !command.exited

def signal (command : Command) (signal : Signal) : Command :=
  let group := options.ownGroup && options.started && command.running
  { command with signals := command.signals ++ [{ signal, group }] }

def requestStop (command : Command) : Command :=
  { command.signal options .stop with ordered := true, killTimer := true }

/-- The grace period ends. -/
def graceEnds (command : Command) : Command :=
  if command.killTimer then
    let command := { command with killTimer := false }
    if command.alive options then command.signal options .kill else command
  else command

def release (command : Command) : Command :=
  if command.killTimer && !command.alive options then { command with killTimer := false } else command

/-! ## The promise -/

def stopChild (command : Command) (reason : Reason) : Command :=
  { command with error := command.error.or (some reason) }.requestStop options

def push (command : Command) (stream : Stream) (chunk : Bytes) : Command :=
  { command with
    chunks := fun other => if other = stream then command.chunks other ++ [chunk] else command.chunks other
    bufferSize := command.bufferSize + chunk.length }

def capture (command : Command) (stream : Stream) (chunk : Bytes) : Command :=
  let remaining := options.bufferLimit - command.bufferSize
  if remaining < chunk.length then
    let command := if 0 < remaining then command.push stream (chunk.take remaining) else command
    command.stopChild options .maxBuffer
  else command.push stream chunk

def settle (command : Command) (exit : Exit) : Command :=
  if command.settled then command
  else
    let command := { command with settled := true, timer := false, errorListens := false }.release options
    let rejected :=
      if command.error.isSome then command.error
      else if exit.signal.isSome then some .signalled
      else if exit.code ≠ some 0 then some .code
      else none
    let settlement : Settlement := { exit, rejected }
    { command with settlements := command.settlements ++ [settlement] }

def onExit (command : Command) (exit : Exit) : Command :=
  if command.closeTimer.isSome || command.settled then command
  else { command with closeTimer := some exit }

end Command

inductive Event where
  | data (stream : Stream) (chunk : Bytes)
  | error
  | exit (exit : Exit)
  | close (exit : Exit)
  | timeout
  | closeTimeout
  | graceEnds
  /-- The last process of the group ends, or one begins. -/
  | processes (running : Bool)

def start (options : SpawnOptions) : Command := { timer := options.timeoutMs.isSome }

def step (options : SpawnOptions) (command : Command) : Event → Command
  | .data stream chunk =>
      if options.captures stream && !command.settled then command.capture options stream chunk else command
  | .error =>
      if command.errorListens then { command with error := command.error.or (some .child), errorListens := false }
      else command
  | .exit exit => { command.onExit exit with exited := true }
  | .close exit => command.settle options exit
  | .timeout => if command.timer then { command with timer := false }.stopChild options .timeout else command
  | .closeTimeout =>
      match command.closeTimer with
      | some exit => command.settle options exit
      | none => command
  | .graceEnds => command.graceEnds options
  | .processes running => { command with running }

end Dockge.ChildProcess
