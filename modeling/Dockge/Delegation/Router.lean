import Dockge.Data.Async
import Dockge.Delegation.Policy

namespace Dockge.Delegation

open Dockge.Data Dockge.Mcp

/-! The channel between panels: any number of panels, each with one router.

What a panel reads of its own rights is its current answer, which may change between any two steps.
A request travels with the answer the other panel gives to it; where either is lost, the call fails.
Reading the clock is a step of its own, as time passes.
-/

inductive DelegationError where
  | busy
  | denied
deriving DecidableEq

/-- How a panel answers when its router asks. -/
structure Services where
  config : Option DelegationConfig
  resolveIdentity : String → Option DelegatedIdentity
  authorizePeer : DelegationPeer → Bool
  operationTarget : String → String → Option OperationTarget
  dispatches : Bool

structure Panel where
  services : Services
  now : Int
  /-- Requests already served, with the moment each stops being replayable. -/
  seen : List (String × Int)
  active : Nat

/-- One call of `services.read` or `services.dispatch`. -/
structure Call where
  task : Nat
  url : String
  assertion : Assertion
  target : Option OperationTarget
  identity : DelegatedIdentity
  arguments : Fields

/-- What happened, at which panel and for which request. -/
inductive Entry where
  | arrived (task : Nat) (url : String)
  | claimed (task : Nat) (url : String) (peerId : String) (envelope : Envelope)
  | targeted (task : Nat) (url : String) (subjectId : String) (target : OperationTarget)
  /-- The configuration was read again. -/
  | looked (task : Nat) (url : String) (config : Option DelegationConfig)
  /-- The panel of this name found this identity for the key. -/
  | confirmed (task : Nat) (url : String) (serverId : String) (assertion : Assertion) (identity : DelegatedIdentity)
  | called (call : Call)

def Entry.task : Entry → Nat
  | arrived task _ | claimed task _ _ _ | targeted task _ _ _ | looked task _ _ | confirmed task _ _ _ _ => task
  | called call => call.task

structure World where
  panels : String → Panel
  log : List Entry

def World.start (panels : String → Panel) : World := { panels, log := [] }

def World.note (world : World) (entry : Entry) : World := { world with log := entry :: world.log }

def World.setPanel (world : World) (url : String) (panel : Panel) : World :=
  { world with panels := Function.update world.panels url panel }

/-- Whether an awaited operation works, what it yields, and what a dispatched call asks of it. -/
structure Input where
  works : Bool
  uuid : String := ""
  result : Json := .null
  refreshes : Nat := 0

abbrev Task (α : Type) := Async World Input DelegationError α

/-- The libraries the panels are built on. -/
structure Library (Body : Type) where
  readSchema : Body → Option Assertion
  validationSchema : Body → Option Validation
  stringify : Validation → Body
  /-- What is read back is what was written. -/
  parsed : ∀ validation other, validationSchema (stringify validation) = some other → other = validation
  sign : Body → String → String
  verify : Body → String → String → Bool
  isUuid : String → Bool
  /-- The origin of an acceptable address. -/
  peerURL : String → Option String
  delegatedSubjectId : String → String → String
  /-- `String(value)` of what is no text. -/
  text : Option Json → String
  /-- The length of the answer. -/
  byteLength : Json → Nat

/-- A request as it arrives: three headers that must not be there, a query, a body and a signature. -/
structure Request (Body : Type) where
  authorization : Bool
  cookie : Bool
  origin : Bool
  query : Bool
  body : Option Body
  signature : Option String

/-- Ask a service of the panel. -/
def ask {α : Type} (url : String) (read : Services → α) : Task α :=
  .op fun input world =>
    (if input.works then .ok (read (world.panels url).services) else .error .denied, world)

/-- `Date.now()` -/
def clock (url : String) : Task Int := .op fun _ world => (.ok (world.panels url).now, world)

/-- `^[a-zA-Z0-9_-]{86}$` -/
def signatureFormat (signature : String) : Bool := signature.toList.length = 86 && wordId 86 signature

def maxActive : Nat := 4

def maxSeen : Nat := 1000

def maxBytes : Nat := 256 * 1024

section
variable {Body : Type} (library : Library Body) (task : Nat) (url : String)

/-- At most so many requests are worked on at a time. -/
def enter : Task Unit := .op fun _ world =>
  let panel := world.panels url
  if panel.active ≥ maxActive then (.error .busy, world)
  else (.ok (), world.setPanel url { panel with active := panel.active + 1 })

def parse (operation : String) (body : Body) : Option Envelope :=
  if operation = "read" then (library.readSchema body).map .read
  else if operation = "validate" then (library.validationSchema body).map .validate
  else none

/-- What a request proves by itself. -/
def proven (operation : String) (request : Request Body) (config : DelegationConfig) (now : Int) :
    Option (Envelope × DelegationPeer) := do
  if request.authorization || request.cookie || request.origin || request.query then none
  let body ← request.body
  let envelope ← parse library operation body
  let peer ← config.peers.find? (·.id = envelope.issuer)
  let signature ← request.signature
  if signatureFormat signature && current now envelope && envelope.audience = config.serverId &&
      library.verify body peer.publicKey signature then
    some (envelope, peer)
  else none

def authenticate (operation : String) (request : Request Body) :
    Task (DelegationConfig × Envelope × DelegationPeer) := do
  let found ← ask url Services.config
  let now ← clock url
  match found.bind fun config => (proven library operation request config now).map (config, ·) with
  | none => .fail .denied
  | some (config, envelope, peer) => do
      let authorized ← ask url fun services => services.authorizePeer peer
      .failIf (!authorized) .denied
      pure (config, envelope, peer)

/-- The requests that are still replayable. -/
def Panel.unexpired (panel : Panel) : List (String × Int) :=
  panel.seen.filter fun entry => ¬ entry.2 ≤ panel.now

def nonceOf (peerId requestId : String) : String := peerId ++ ":" ++ requestId

/-- Serve a request exactly once. -/
def claimNonce (peer : DelegationPeer) (envelope : Envelope) : Task Unit := .op fun _ world =>
  let panel := world.panels url
  let nonce := nonceOf peer.id envelope.requestId
  if nonce ∈ panel.unexpired.map (·.1) || panel.unexpired.length ≥ maxSeen then
    (.error .denied, world.setPanel url { panel with seen := panel.unexpired })
  else
    (.ok (), (world.setPanel url { panel with seen := panel.unexpired ++ [(nonce, envelope.expiresAt)] }).note
      (.claimed task url peer.id envelope))

/-- Confirm an assertion this panel signed earlier. -/
def confirmAssertion (validation : Validation) (peer : DelegationPeer) (config : DelegationConfig) : Task Unit := do
  let now ← clock url
  .failIf (!confirmable library.isUuid now validation peer config) .denied
  .op fun input world =>
    let original := validation.assertion
    match (world.panels url).services.resolveIdentity original.identity.keyId with
    | none => (.error .denied, world)
    | some identity =>
        if input.works && identityStillAllows (some identity) original then
          (.ok (), world.note (.confirmed task url config.serverId original identity))
        else (.error .denied, world)

/-- Let a request in, once. -/
def accept (operation : String) (request : Request Body) :
    Task (DelegationConfig × Envelope × DelegationPeer) := do
  enter url
  let (config, envelope, peer) ← authenticate library url operation request
  claimNonce task url peer envelope
  pure (config, envelope, peer)

/-- The answer to a confirmation request; that path parses no other envelope. -/
def answerValidation (request : Request Body) : Task Unit := do
  let (config, envelope, peer) ← accept library task url "validate" request
  match envelope with
  | .validate validation => confirmAssertion library task url validation peer config
  | .read _ => .fail .denied

/-- Whether a request gets through, and the answer to it. -/
def travel : Task Unit := .op fun input world => (if input.works then .ok () else .error .denied, world)

/-- Ask the peer to confirm; only an answer that says so is one. -/
def signedPost (config : DelegationConfig) (peer : DelegationPeer) (value : Validation) : Task Unit := do
  match library.peerURL peer.url with
  | none => .fail .denied
  | some address => do
      travel
      let body := library.stringify value
      answerValidation library task address
        { authorization := false, cookie := false, origin := false, query := false
          body := some body, signature := some (library.sign body config.privateKey) }
      travel

/-- The configuration as it is now. -/
def getConfigAgain : Task (Option DelegationConfig) := .op fun input world =>
  let config := (world.panels url).services.config
  if input.works then (.ok config, world.note (.looked task url config)) else (.error .denied, world)

/-- The peer as it is now, when nothing that mattered has changed. -/
def trusted (now : Int) (found : Option DelegationConfig) (peer : DelegationPeer) (config : DelegationConfig)
    (assertion : Assertion) (target : Option OperationTarget) : Option (DelegationConfig × DelegationPeer) := do
  let fresh ← found
  let trust ← fresh.peers.find? (·.id = peer.id)
  if trustUnchanged library.isUuid now fresh trust peer config assertion target then some (fresh, trust) else none

def newRequest : Task (Int × String) := .op fun input world =>
  (.ok ((world.panels url).now, input.uuid), world)

def revalidate (assertion : Assertion) (peer : DelegationPeer) (config : DelegationConfig)
    (target : Option OperationTarget) : Task Unit := do
  let found ← getConfigAgain task url
  let now ← clock url
  match trusted library now found peer config assertion target with
  | none => .fail .denied
  | some (fresh, trust) => do
      let authorized ← ask url fun services => services.authorizePeer trust
      .failIf (!authorized) .denied
      let (now, requestId) ← newRequest url
      signedPost library task fresh trust
        { issuer := fresh.serverId, audience := trust.id, requestId, issuedAt := now, expiresAt := now + ttl
          assertion, operationTarget := target }
      let now ← clock url
      .failIf (!current now (.read assertion)) .denied

/-- The operation a call refers to, when it refers to one. -/
def referenced (assertion : Assertion) : Task (Option OperationTarget) :=
  if assertion.action ∈ operationTools then
    .op fun input world =>
      let subjectId := library.delegatedSubjectId assertion.issuer assertion.identity.keyId
      let operationId := (textOf assertion.args "operation_id").getD (library.text (assertion.args.get "operation_id"))
      match (world.panels url).services.operationTarget subjectId operationId with
      | none => (.error .denied, world)
      | some target =>
          if input.works then (.ok (some target), world.note (.targeted task url subjectId target))
          else (.error .denied, world)
  else pure none

/-- `services.read` or `services.dispatch`; a dispatched call may ask for the identity again and again. -/
def call (assertion : Assertion) (target : Option OperationTarget) : Task Nat := .op fun input world =>
  let observer := decide (assertion.action ∈ mcpReadTools)
  let subjectId := library.delegatedSubjectId assertion.issuer assertion.identity.keyId
  if observer || (world.panels url).services.dispatches then
    (.ok (if observer then 0 else input.refreshes), world.note (.called
      { task, url, assertion, target
        identity := effectiveIdentity subjectId assertion observer
        arguments := localArguments assertion }))
  else (.error .denied, world)

/-- What the call came to. -/
def finish : Task Json := .op fun input world => (if input.works then .ok input.result else .error .denied, world)

/-- The name the caller knows this panel by. -/
def renamed (assertion : Assertion) (result : Json) : Json :=
  match result with
  | .obj fields =>
      if textOf fields "server_id" = some "local" then .obj (Fields.set fields "server_id" (.str assertion.audience))
      else result
  | _ => result

/-- Carry out one call of another panel. -/
def serve (assertion : Assertion) (peer : DelegationPeer) (config : DelegationConfig) : Task Json := do
  let target ← referenced library task url assertion
  revalidate library task url assertion peer config target
  let refreshes ← call library task url assertion target
  .repeatTimes refreshes ((revalidate library task url assertion peer config target).orElse fun _ => pure ())
  let result ← finish
  revalidate library task url assertion peer config target
  .failIf (library.byteLength (renamed assertion result) > maxBytes) .denied
  pure (renamed assertion result)

def arrive : Task Unit := .op fun _ world => (.ok (), world.note (.arrived task url))

/-- One request; whatever is refused ends in the same answer. -/
def createDelegationRouter (operation : String) (request : Request Body) : Task Unit := do
  arrive task url
  let (config, envelope, peer) ← accept library task url operation request
  match envelope with
  | .validate validation => confirmAssertion library task url validation peer config
  | .read assertion => do
      let _ ← serve library task url assertion peer config
      pure ()

end

/-- A request comes to a panel. -/
structure Arrival (Body : Type) where
  url : String
  operation : String
  request : Request Body

/-- What the router does with it. -/
def Arrival.program {Body : Type} (library : Library Body) (arrival : Arrival Body) (task : Nat) : Task Unit :=
  createDelegationRouter library task arrival.url arrival.operation arrival.request

inductive Change where
  | tick (url : String) (elapsed : Nat)
  | rewrite (url : String) (services : Services)
  /-- A connection is closed. -/
  | closed (url : String)

def World.change (change : Change) (world : World) : World :=
  match change with
  | .tick url elapsed =>
      world.setPanel url { world.panels url with now := (world.panels url).now + elapsed }
  | .rewrite url services => world.setPanel url { world.panels url with services }
  | .closed url => world.setPanel url { world.panels url with active := (world.panels url).active - 1 }

abbrev Event (Body : Type) := PoolEvent (Arrival Body) Input Change

/-- Where any requests, however interleaved, lead from a world. -/
def run {Body : Type} (library : Library Body) (panels : String → Panel) (history : List (Event Body)) : World :=
  (replay (Pool.step (Arrival.program library) World.change) (Pool.initial (World.start panels)) history).shared

end Dockge.Delegation
