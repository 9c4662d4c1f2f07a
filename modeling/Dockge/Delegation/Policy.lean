import Dockge.Data.Json
import Dockge.Mcp.Keys

namespace Dockge.Delegation

open Dockge.Data Dockge.Mcp

/-! What one panel lets another ask of it.

A peer signs an assertion about one of its own keys.  The panel that serves it looks at the
assertion and at what it granted the peer; what the key may do at home the peer confirms itself.
-/

structure DelegationPeer where
  id : String
  url : String
  publicKey : String
  allowedStackIds : List String
  actions : List String
  role : Role
  ownerId : String
deriving DecidableEq

structure DelegationConfig where
  serverId : String
  privateKey : String
  peers : List DelegationPeer
deriving DecidableEq

structure DelegatedIdentity where
  keyId : String
  userId : String
  role : Role
  servers : List String
  stackIds : List String
  resources : Resources
  policyVersion : Nat
  actions : Option (List String)
  mode : Option Mode

structure Assertion where
  issuer : String
  audience : String
  requestId : String
  issuedAt : Int
  expiresAt : Int
  identity : DelegatedIdentity
  action : String
  args : Fields

/-- The operation a delegated apply or status call refers to. -/
structure OperationTarget where
  action : String
  stackId : String
  additionalActions : Option (List String)
deriving DecidableEq

structure Validation where
  issuer : String
  audience : String
  requestId : String
  issuedAt : Int
  expiresAt : Int
  assertion : Assertion
  operationTarget : Option OperationTarget

inductive Envelope where
  | read (assertion : Assertion)
  | validate (validation : Validation)

def ttl : Int := 15000

def applyTtl : Int := 150000

def remotePermissions : List (String × String) :=
  [("stack_start", "stacks:control"), ("stack_stop", "stacks:control"), ("stack_restart", "stacks:control"),
    ("container_start", "containers:control"), ("container_stop", "containers:control"),
    ("container_restart", "containers:control"), ("container_logs", "logs:read"),
    ("stack_files_read", "files:read"), ("stack_files_write", "files:write"), ("git_preview", "git:read"),
    ("git_preview_result", "git:read"), ("git_apply", "git:apply"), ("stack_deploy", "deploy"),
    ("stack_images_update", "deploy"), ("git_clone", "deploy")]

def mcpReadTools : List String :=
  ["servers_list", "stacks_list", "containers_list", "container_status", "stability_get"]

/-- The calls that refer to an operation prepared earlier. -/
def operationTools : List String := ["operation_apply", "operation_status"]

namespace Envelope

def issuer : Envelope → String
  | read assertion => assertion.issuer
  | validate validation => validation.issuer

def audience : Envelope → String
  | read assertion => assertion.audience
  | validate validation => validation.audience

def requestId : Envelope → String
  | read assertion => assertion.requestId
  | validate validation => validation.requestId

def issuedAt : Envelope → Int
  | read assertion => assertion.issuedAt
  | validate validation => validation.issuedAt

def expiresAt : Envelope → Int
  | read assertion => assertion.expiresAt
  | validate validation => validation.expiresAt

def action : Envelope → Option String
  | read assertion => some assertion.action
  | validate _ => none

end Envelope

def current (now : Int) (envelope : Envelope) : Bool :=
  envelope.issuedAt ≤ now + 1000 && now < envelope.expiresAt && 0 < envelope.expiresAt - envelope.issuedAt &&
    envelope.expiresAt - envelope.issuedAt ≤ if envelope.action = some "operation_apply" then applyTtl else ttl

/-- The text under a key, when there is a text. -/
def textOf (fields : Fields) (key : String) : Option String :=
  match fields.get key with
  | some (.str text) => some text
  | _ => none

/-- Whether the envelope itself may be listened to at all. -/
def allowedEnvelope (now : Int) (assertion : Assertion) (peer : DelegationPeer) : Bool :=
  let subject := assertion.identity
  current now (.read assertion) && assertion.audience ∈ subject.servers &&
    (subject.stackIds.all fun stack =>
      stack ∈ peer.allowedStackIds && subject.resources.includes assertion.audience stack) &&
    assertion.action ∈ peer.actions && textOf assertion.args "server_id" = some assertion.audience

structure ReadArgs where
  serverId : String
  stackId : Option String
  containerId : Option String
  windowHours : Option Rat

/-- `^[a-zA-Z0-9_-]+$`, of at most so many characters. -/
def wordId (longest : Nat) (text : String) : Bool :=
  let chars := text.toList
  0 < chars.length && chars.length ≤ longest && chars.all fun c =>
    ('a' ≤ c && c ≤ 'z') || ('A' ≤ c && c ≤ 'Z') || ('0' ≤ c && c ≤ '9') || c = '_' || c = '-'

/-- `^[a-f0-9]{64}$` -/
def fullContainerId (text : String) : Bool :=
  let chars := text.toList
  chars.length = 64 && chars.all fun c => ('a' ≤ c && c ≤ 'f') || ('0' ≤ c && c ≤ '9')

/-- A field that may be missing, but not be anything else. -/
def optionalField {α : Type} (parse : Json → Option α) : Option Json → Option (Option α)
  | none => some none
  | some value => (parse value).map some

def parseText (accepts : String → Bool) : Json → Option String
  | .str text => if accepts text then some text else none
  | _ => none

def parseWindow : Json → Option Rat
  | .num hours => if hours = 24 ∨ hours = 168 ∨ hours = 720 then some hours else none
  | _ => none

section
variable (isUuid : String → Bool)

def argsSchema (args : Fields) : Option ReadArgs := do
  let serverId ← (args.get "server_id").bind (parseText (wordId 128))
  let stackId ← optionalField (parseText isUuid) (args.get "stack_id")
  let containerId ← optionalField (parseText fullContainerId) (args.get "container_id")
  let windowHours ← optionalField parseWindow (args.get "window_hours")
  if args.keys.all (· ∈ ["server_id", "stack_id", "container_id", "window_hours"]) then
    some { serverId, stackId, containerId, windowHours }
  else none

/-- Whether a reading call stays within what was granted. -/
def allowedRead (assertion : Assertion) : Bool :=
  match argsSchema isUuid assertion.args with
  | none => false
  | some parsed =>
      (parsed.stackId.all (· ∈ assertion.identity.stackIds)) &&
        (assertion.action ∈ ["servers_list", "stacks_list"] || parsed.stackId.isSome) &&
        (assertion.action ≠ "container_status" || parsed.containerId.isSome) &&
        (assertion.action = "container_status" || parsed.containerId.isNone) &&
        (assertion.action = "stability_get" || parsed.windowHours.isNone)

/-- Whether a call that names an existing operation carries nothing else. -/
def allowedOperationReference (assertion : Assertion) : Bool :=
  let permitted := ["server_id", "operation_id"] ++
    if assertion.action = "operation_apply" then ["parameters_hash"] else []
  (assertion.args.keys.all (· ∈ permitted)) && (textOf assertion.args "operation_id").any isUuid

end

/-- The fields of an object; a list has none of those that are asked for. -/
def asObject : Option Json → Option Fields
  | some (.obj fields) => some fields
  | some (.arr _) => some []
  | _ => none

/-- The action a writing call is about. -/
def Assertion.writes (assertion : Assertion) : Option String :=
  if assertion.action = "operation_prepare" then textOf assertion.args "action" else some assertion.action

/-- The fields that name its stack. -/
def Assertion.parameters (assertion : Assertion) : Option Fields :=
  if assertion.action = "operation_prepare" then asObject (assertion.args.get "parameters") else some assertion.args

/-- `subject.actions?.includes(action)` -/
def DelegatedIdentity.holds (identity : DelegatedIdentity) (action : String) : Bool :=
  identity.actions.any (action ∈ ·)

/-- `target.deploy === true` -/
def deploys (target : Fields) : Bool :=
  match target.get "deploy" with
  | some (.bool true) => true
  | _ => false

/-- Whether a writing call names a stack both sides granted, for an action both sides allow. -/
def allowedWrite (assertion : Assertion) (peer : DelegationPeer) : Bool :=
  let subject := assertion.identity
  match assertion.writes, assertion.parameters with
  | some action, some target =>
      action ∈ peer.actions && (remotePermissions.lookup action).any subject.holds &&
        !(action = "git_apply" && deploys target && ("stack_deploy" ∉ peer.actions || !subject.holds "deploy")) &&
        textOf target "server_id" = some assertion.audience &&
        (textOf target "stack_id").any (· ∈ subject.stackIds) &&
        (assertion.action ≠ "operation_prepare" ||
          assertion.args.keys.all (· ∈ ["server_id", "action", "request_id", "parameters"]))
  | _, _ => false

/-- Whether one signed request of another panel may be served. -/
def allowed (isUuid : String → Bool) (now : Int) (assertion : Assertion) (peer : DelegationPeer) : Bool :=
  if !allowedEnvelope now assertion peer then false
  else if assertion.action ∈ mcpReadTools then allowedRead isUuid assertion
  else if assertion.identity.role ≠ .operator || peer.role ≠ .operator || assertion.identity.mode = some .readonly then
    false
  else if assertion.action ∈ operationTools then allowedOperationReference isUuid assertion
  else allowedWrite assertion peer

def identityStillAllows (currentIdentity : Option DelegatedIdentity) (assertion : Assertion) : Bool :=
  let original := assertion.identity
  match currentIdentity with
  | none => false
  | some identity =>
      identity.keyId = original.keyId && identity.userId = original.userId &&
        identity.policyVersion = original.policyVersion && identity.role = original.role &&
        identity.mode = original.mode && ((original.actions.getD []).all identity.holds) &&
        assertion.audience ∈ identity.servers &&
        original.stackIds.all fun stack => identity.resources.includes assertion.audience stack

/-- Whether the peer is still the one the request was accepted from. -/
def trustUnchanged (isUuid : String → Bool) (now : Int) (fresh : DelegationConfig) (trust peer : DelegationPeer)
    (config : DelegationConfig) (assertion : Assertion) (target : Option OperationTarget) : Bool :=
  trust.publicKey = peer.publicKey && fresh.serverId = config.serverId && allowed isUuid now assertion trust &&
    target.all fun target =>
      target.action ∈ trust.actions && ((target.additionalActions.getD []).all (· ∈ trust.actions)) &&
        target.stackId ∈ trust.allowedStackIds && target.stackId ∈ assertion.identity.stackIds

/-- The checks of a confirmation that come before the key is read. -/
def confirmable (isUuid : String → Bool) (now : Int) (validation : Validation) (peer : DelegationPeer)
    (config : DelegationConfig) : Bool :=
  let original := validation.assertion
  !(original.action ∈ operationTools && validation.operationTarget.isNone) &&
    original.issuer = config.serverId && original.audience = peer.id && allowed isUuid now original peer &&
    validation.operationTarget.all fun target =>
      target.action ∈ peer.actions && ((target.additionalActions.getD []).all (· ∈ peer.actions)) &&
        target.stackId ∈ original.identity.stackIds

/-- `{ ...value }` -/
def spread : Option Json → Fields
  | some (.obj fields) => fields
  | some (.arr items) => items.mapIdx fun index item => (toString index, item)
  | some (.str text) => text.toList.mapIdx fun index char => (toString index, .str char.toString)
  | _ => []

/-- The arguments as this panel serves them locally. -/
def localArguments (assertion : Assertion) : Fields :=
  let args := assertion.args
  if assertion.action = "operation_prepare" then
    (args.erase "server_id").set "parameters"
      (.obj ((spread (args.get "parameters")).set "server_id" (.str "local")))
  else if assertion.action ∈ operationTools then args.erase "server_id"
  else args.set "server_id" (.str "local")

/-- Who the caller is, as far as this panel is concerned. -/
def effectiveIdentity (subjectId : String) (assertion : Assertion) (observer : Bool) : DelegatedIdentity :=
  { assertion.identity with
    keyId := subjectId
    role := if observer then .viewer else .operator
    servers := ["local"]
    resources := { servers := ["local"], of := fun _ => assertion.identity.stackIds }
    actions := some (if observer then [] else assertion.identity.actions.getD [])
    mode := some (if observer then .readonly else assertion.identity.mode.getD .readonly) }

end Dockge.Delegation
