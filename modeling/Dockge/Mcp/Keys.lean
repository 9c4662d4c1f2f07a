import Mathlib.Data.List.Basic
import Dockge.Data.History

namespace Dockge.Mcp

/-! Machine keys, and what their owners may do with one of them. -/

inductive Role where
  | viewer
  | operator
deriving DecidableEq, Repr

inductive Mode where
  | readonly
  | approval
  | automatic
deriving DecidableEq, Repr

/-- An object with an array of stacks for each server. -/
structure Resources where
  servers : List String
  of : String → List String

namespace Resources

/-- `resources[server]?.includes(stack)` -/
def includes (resources : Resources) (server stack : String) : Bool :=
  server ∈ resources.servers && stack ∈ resources.of server

/-- `Object.values(resources).flat()` -/
def flat (resources : Resources) : List String :=
  resources.servers.flatMap resources.of

/-- The functions with parameters that every object inherits. -/
def inheritedNames : List String :=
  ["constructor", "hasOwnProperty", "isPrototypeOf", "propertyIsEnumerable"]

/-- `resources[server]?.length` is neither missing nor zero. -/
def hasLength (resources : Resources) (server : String) : Bool :=
  if server ∈ resources.servers then !(resources.of server).isEmpty else server ∈ inheritedNames

end Resources

structure KeyRow where
  name : String
  userId : String
  role : Role
  servers : List String
  stackIds : List String
  resources : Resources
  actions : List String
  mode : Mode
  expiresAt : Nat
  revokedAt : Option Nat
  policyVersion : Nat

/-- What the schema of a key accepts. -/
structure IssueKey where
  name : String
  userId : String
  role : Role
  actions : List String
  mode : Mode
  resources : Option Resources
  servers : List String
  stackIds : List String
  days : Nat

/-- Without resources the stacks are those of this server. -/
def IssueKey.granted (data : IssueKey) : Resources :=
  data.resources.getD { servers := ["local"], of := fun _ => data.stackIds }

/-- `^[a-zA-Z0-9-]{1,64}$` -/
def scopeId (id : String) : Bool :=
  let chars := id.toList
  0 < chars.length && chars.length ≤ 64 && chars.all fun c =>
    ('a' ≤ c && c ≤ 'z') || ('A' ≤ c && c ≤ 'Z') || ('0' ≤ c && c ≤ '9') || c = '-'

def validScope (servers stackIds : List String) : Bool :=
  0 < servers.length && servers.length ≤ 20 && servers.Nodup && servers.all scopeId &&
    0 < stackIds.length && stackIds.length ≤ 100 && stackIds.Nodup && stackIds.all scopeId

def millisPerDay : Nat := 86400000

/-- How long the old secret of a reissued key keeps working. -/
def reissueOverlapMs : Nat := 24 * 3600000

/-- The scope names what the old one has, and its three parts name the same. -/
def scopeWithin (row : KeyRow) (data : IssueKey) : Bool :=
  let resources := data.granted
  validScope data.servers data.stackIds &&
    (resources.servers.all fun server => server ∈ data.servers &&
      (resources.of server).all fun stack => row.resources.includes server stack) &&
    (data.servers.all fun server => resources.hasLength server) &&
    (data.stackIds.all fun stack => stack ∈ resources.flat) &&
    (resources.flat.all fun stack => stack ∈ data.stackIds)

def modeWithin (row : KeyRow) (data : IssueKey) : Bool :=
  !(row.mode ≠ .automatic && data.mode = .automatic) && !(row.mode = .readonly && data.mode ≠ .readonly) &&
    !(data.role = .viewer && (!data.actions.isEmpty || data.mode ≠ .readonly))

/-- The checks of `reduce`. -/
def acceptsReduction (row : KeyRow) (data : IssueKey) : Bool :=
  row.revokedAt.isNone && row.userId = data.userId && !(data.role = .operator && row.role ≠ .operator) &&
    scopeWithin row data && (data.actions.all fun action => action ∈ row.actions) && modeWithin row data

/-- The moment a key of so many days runs out. -/
def IssueKey.endsAt (data : IssueKey) (now : Nat) : Nat := now + data.days * millisPerDay

/-- What `reduce` stores over the row, from the one it read. -/
def KeyRow.reduced (row read : KeyRow) (data : IssueKey) (now : Nat) : KeyRow :=
  { row with
    name := data.name
    role := data.role
    servers := data.servers
    stackIds := data.stackIds
    resources := data.granted
    actions := data.actions
    mode := data.mode
    expiresAt := min read.expiresAt (data.endsAt now)
    policyVersion := read.policyVersion + 1 }

/-! ### The calls on one key -/

inductive KeyCall where
  | reduce (data : IssueKey)
  | reissue
  | revoke

/-- Where a call waits, with the row it read and the moment it decided. -/
inductive KeyStage where
  | reading (call : KeyCall)
  | reducing (data : IssueKey) (read : KeyRow) (now : Nat)
  /-- The new key of a reissue is being issued. -/
  | issuing (read : KeyRow)
  | retiring (read : KeyRow) (now : Nat)
  | revoking
  | auditing
  | returned
  | rejected

structure KeyState where
  row : KeyRow
  calls : List KeyStage

/-- A call starts, or goes on: at some moment, its statement working or failing. -/
inductive KeyEvent where
  | start (call : KeyCall)
  | advance (index : Nat) (now : Nat) (works : Bool)

/-- What a call does with the row it read. -/
def KeyCall.afterRead (row : KeyRow) (now : Nat) : KeyCall → KeyStage
  | .reduce data => if acceptsReduction row data then .reducing data row now else .rejected
  | .reissue => if row.revokedAt.isNone && now < row.expiresAt then .issuing row else .rejected
  | .revoke => .revoking

/-- What a statement that works makes of the row and of the call. -/
def KeyStage.resume (row : KeyRow) (now : Nat) : KeyStage → KeyRow × KeyStage
  | .reading call => (row, call.afterRead row now)
  | .reducing data read decided => (row.reduced read data decided, .auditing)
  | .issuing read => (row, .retiring read now)
  | .retiring read decided =>
      ({ row with expiresAt := min read.expiresAt (decided + reissueOverlapMs) }, .auditing)
  | .revoking => ({ row with revokedAt := some now }, .auditing)
  | .auditing => (row, .returned)
  | .returned => (row, .returned)
  | .rejected => (row, .rejected)

/-- A statement that fails ends the call. -/
def KeyStage.fail : KeyStage → KeyStage
  | .returned => .returned
  | _ => .rejected

/-- A revocation reads nothing first. -/
def KeyCall.first : KeyCall → KeyStage
  | .revoke => .revoking
  | call => .reading call

def keyStep (state : KeyState) : KeyEvent → KeyState
  | .start call => { state with calls := state.calls ++ [call.first] }
  | .advance index now works =>
      match state.calls[index]? with
      | none => state
      | some stage =>
          if works then
            { row := (stage.resume state.row now).1
              calls := state.calls.set index (stage.resume state.row now).2 }
          else { state with calls := state.calls.set index stage.fail }

def KeyState.initial (row : KeyRow) : KeyState := { row, calls := [] }

end Dockge.Mcp
