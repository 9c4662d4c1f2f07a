import Dockge.Data.History
import Dockge.Data.Promise

namespace Dockge.Packets

open Data

/-! The middleware that admits the packets of a socket, `admitInOrder`.

For every packet it makes a chain of promises behind that of the packet before.  A reaction runs in a
turn of its own; here they may run in any order, of which that of the microtasks is one.
-/

/-- What is thrown, and the text that `String` makes of it, where it does not throw itself. -/
structure Thrown where
  text : Option String
deriving DecidableEq, Repr

/-- What `String` throws of an object without a way to a primitive value -/
def typeError : Thrown := ⟨some "TypeError: Cannot convert object to primitive value"⟩

inductive Call (P : Type) where
  | next (packet : P)
  | deny (packet : P) (error : Thrown)
deriving DecidableEq, Repr

/-- A packet that arrived, and the promises made for it -/
structure Packet (P : Type) where
  packet : P
  /-- What `next` throws, or `deny` where the packet is refused -/
  nextThrows : Option Thrown
  denyThrows : Option Thrown
  /-- How its check settled; one that throws at once rejects. -/
  check : Option (Except Thrown Unit)
  outcome : Promise Thrown (Option Thrown)
  /-- `admitted.then(() => outcome)` -/
  awaited : Promise Thrown (Option Thrown)
  /-- `.then((refused) => ..)` -/
  answered : Promise Thrown Unit
  /-- `.catch(..)`, which the next packet waits for -/
  admitted : Promise Thrown Unit
deriving DecidableEq, Repr

inductive Stage where
  | outcome
  | awaited
  | answered
  | admitted
deriving DecidableEq, Repr

structure World (P : Type) where
  packets : List (Packet P)
  calls : List (Call P)
deriving DecidableEq, Repr

variable {P : Type}

namespace Packet

/-- What the outcome of the check settles with: never a rejection. -/
def checked (packet : Packet P) : Promise Thrown (Option Thrown) :=
  match packet.check with
  | none => .pending
  | some (.ok _) => .fulfilled none
  | some (.error error) => .fulfilled (some error)

/-- Behind the packets before it, a packet waits for its own outcome. -/
def awaits (packet : Packet P) (before : Promise Thrown Unit) : Promise Thrown (Option Thrown) :=
  before.andThen fun _ => packet.outcome

def answers (packet : Packet P) : Promise Thrown Unit :=
  packet.awaited.andThen fun refused =>
    match (if refused.isSome then packet.denyThrows else packet.nextThrows) with
    | some error => .rejected error
    | none => .fulfilled ()

/-- The call that answers a packet -/
def call (packet : Packet P) : List (Call P) :=
  match packet.awaited with
  | .fulfilled (some error) => [.deny packet.packet error]
  | .fulfilled none => [.next packet.packet]
  | _ => []

/-- What was thrown is logged as `String` of it, which may throw in its turn. -/
def admits (packet : Packet P) : Promise Thrown Unit :=
  packet.answered.recover fun error =>
    match error.text with
    | some _ => .fulfilled ()
    | none => .rejected typeError

end Packet

/-- The promise that the next packet waits for, `admitted` -/
def lastAdmitted (start : Promise Thrown Unit) (packets : List (Packet P)) : Promise Thrown Unit :=
  packets.foldl (fun _ packet => packet.admitted) start

/-- The reaction of one promise of a packet, behind what the packets before it were admitted with -/
def Packet.turn (packet : Packet P) (before : Promise Thrown Unit) : Stage → Packet P
  | .outcome => { packet with outcome := packet.outcome.react packet.checked }
  | .awaited => { packet with awaited := packet.awaited.react (packet.awaits before) }
  | .answered => { packet with answered := packet.answered.react packet.answers }
  | .admitted => { packet with admitted := packet.admitted.react packet.admits }

/-- The calls that a reaction makes -/
def Packet.turnCalls (packet : Packet P) : Stage → List (Call P)
  | .answered => bif packet.answered.isPending then packet.call else []
  | _ => []

inductive Event (P : Type) where
  | middleware (packet : P) (nextThrows denyThrows : Option Thrown)
  | settle (index : Nat) (result : Except Thrown Unit)
  | turn (index : Nat) (stage : Stage)

def step (world : World P) : Event P → World P
  | .middleware packet nextThrows denyThrows =>
      { world with packets := world.packets ++
          [⟨packet, nextThrows, denyThrows, none, .pending, .pending, .pending, .pending⟩] }
  | .settle index result =>
      match world.packets[index]? with
      | some packet =>
          if packet.check.isNone then
            { world with packets := world.packets.set index { packet with check := some result } }
          else world
      | none => world
  | .turn index stage =>
      match world.packets[index]? with
      | some packet =>
          { packets := world.packets.set index
              (packet.turn (lastAdmitted (.fulfilled ()) (world.packets.take index)) stage)
            calls := world.calls ++ packet.turnCalls stage }
      | none => world

def World.empty : World P := ⟨[], []⟩

end Dockge.Packets
