import Mathlib.Logic.Function.Basic
import Dockge.Data.Program
import Dockge.Updater.Operation

namespace Dockge.Updater

open Dockge.Data

/-! The host the updater runs on: its state directory, the data directories and what was
asked of Docker. -/

/-- What a directory holds: all of a tree, or what an interrupted copy or removal left. -/
inductive Content (Data : Type) where
  | whole (data : Data)
  | torn
deriving DecidableEq, Repr

/-- One thing the updater asked for on behalf of an operation, and what came of it. -/
structure Entry where
  op : Operation
  command : Command
  fate : Fate

structure Host (Data : Type) where
  /-- `operation.json` -/
  journal : Option Operation
  /-- `previous.json` -/
  previous : Option Operation
  /-- `active.json` -/
  active : Option Installed
  /-- The clock the ids of operations are taken from. -/
  clock : Nat
  data : Path → Option (Content Data)
  /-- The staged copy of each operation, beside its data directory. -/
  staged : Nat → Option (Content Data)
  /-- The data each operation set aside, beside its data directory. -/
  failed : Nat → Option (Content Data)
  /-- The data copy of each operation. -/
  backup : Nat → Option (Content Data)
  /-- The recorded hashes of each data copy. -/
  recorded : Nat → Option (Content Data)
  /-- Everything that was asked for, oldest first. -/
  log : List Entry

variable {Data : Type}

/-- A host without an operation: its data directories, and what is installed. -/
def Host.initial (data : Path → Data) (active : Option Installed) : Host Data :=
  { journal := none, previous := none, active, clock := 0, data := fun path => some (.whole (data path))
    staged := fun _ => none, failed := fun _ => none, backup := fun _ => none
    recorded := fun _ => none, log := [] }

def Host.note (host : Host Data) (op : Operation) (command : Command) (fate : Fate) : Host Data :=
  { host with log := host.log ++ [⟨op, command, fate⟩] }

/-- What the updater does to its host. -/
abbrev HostTask (Data : Type) := Program (Host Data) UpdateError

/-- Ask for something.  Where it fails or is cut short it leaves what `torn` says. -/
def perform (op : Operation) (command : Command) (effect : Host Data → Host Data := id)
    (torn : Host Data → Host Data := id) : HostTask Data Unit :=
  .operation fun fate host =>
    match fate with
    | .ok => (.done (), (effect host).note op command .ok)
    | .fail => (.threw (.command command), (torn host).note op command .fail)
    | .late => (.threw (.command command), (effect host).note op command .late)
    | .kill => (.killed, (torn host).note op command .kill)

def refuse {α : Type} (text : String) : HostTask Data α := .fail (.refused text)

/-- Refuse with this text, if there is one. -/
def refuseIf (text : Option String) : HostTask Data Unit :=
  match text with
  | some text => refuse text
  | none => pure ()

def inspect (op : Operation) : HostTask Data Unit := perform op .inspect

/-- The only writer of `operation.json`. -/
def writeJournal (op : Operation) : HostTask Data Unit :=
  perform op (.journal op.phase) fun host => { host with journal := some op }

def stop (op : Operation) (side : Side) : HostTask Data Unit := perform op (.stop side)

def up (op : Operation) (side : Side) : HostTask Data Unit := perform op (.up side)

def verifyRuntime (op : Operation) (side : Side) : HostTask Data Unit := perform op (.verifyRuntime side)

def installLauncher (op : Operation) : HostTask Data Unit := perform op .launcher

def keepPrevious (op : Operation) : HostTask Data Unit :=
  perform op .keepPrevious fun host => { host with previous := some op }

def activate (op : Operation) (installed : Option Installed) : HostTask Data Unit :=
  perform op .activate fun host => { host with active := installed }

end Dockge.Updater
