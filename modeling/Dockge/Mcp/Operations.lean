import Dockge.Data.Async
import Dockge.Mcp.Keys

namespace Dockge.Mcp

open Dockge.Data

/-! Prepared operations of machine keys, over any number of instances that share one database.

A statement of the database is one step; where it fails it has no effect.  What a handler does is
an input: what it prepares, whether it still finds the files as they were, and how it ends.  Reading
the clock is a step of its own, as time passes before the statement that compares with it runs.
-/

inductive OpState where
  | awaitingApproval
  | prepared
  | running
  | succeeded
  | failed
deriving DecidableEq, Repr

inductive Scalar where
  | bool (value : Bool)
  | text (value : String)

structure OperationRow where
  keyId : String
  requestId : String
  action : String
  permission : String
  serverId : String
  stackId : String
  parametersHash : String
  fingerprint : String
  policyVersion : Nat
  summary : String
  state : OpState
  createdAt : Nat
  expiresAt : Nat
  approvedBy : Option String := none
  result : Option (List (String × Scalar)) := none

/-- A prepared action; its work asks the guard so often. -/
structure PreparedAction where
  serverId : String
  stackId : String
  fingerprint : String
  summary : String
  guards : Nat

inductive UserRole where
  | admin
  | operator
  | viewer
  | other
deriving DecidableEq, Repr

structure User where
  role : UserRole
  suspended : Bool

structure MachineIdentity where
  keyId : String
  userId : String
  role : Role
  actions : List String
  mode : Mode
  resources : Resources
  servers : List String
  stackIds : List String
  policyVersion : Nat

/-- What happened, by which task. -/
inductive OpEntry where
  | stored (id : Nat) (keyId : String) (mode : Mode) (version : Nat)
  | approved (id : Nat) (owner : String)
  /-- The row went from prepared to running; its expiry was compared with this moment. -/
  | claimed (id : Nat) (task : Nat) (now : Nat) (expiresAt : Nat)
  /-- A key was read with this version. -/
  | looked (task : Nat) (keyId : String) (version : Nat)
  | executed (id : Nat) (task : Nat)
  /-- The guard of the work returned. -/
  | guarded (id : Nat) (task : Nat)
deriving DecidableEq

structure Db where
  enabled : Bool
  keys : String → Option KeyRow
  users : String → Option User
  rows : Nat → Option OperationRow
  nextId : Nat
  now : Nat
  /-- The prepared actions of each instance. -/
  prepared : Nat → List (Nat × PreparedAction)
  /-- The last entry first. -/
  log : List OpEntry

inductive McpError where
  | unauthorized
  | permissionDenied
  | requestChanged
  | tooManyOperations
  | operationExpired
  | approvalRequired
  | operationStale
  | invalid
  /-- A statement of the database, or the handler, failed. -/
  | failed
deriving DecidableEq

structure OpInput where
  works : Bool := true
  /-- What a handler prepares. -/
  action : Option PreparedAction := none
  /-- Whether a handler finds everything as it was. -/
  valid : Bool := true
  outcome : List (String × Scalar) := []

abbrev OpTask := Async Db OpInput McpError

/-- A statement that reads. -/
def ask {α : Type} (answer : Db → Except McpError α) : OpTask α :=
  .op fun input db => (if input.works then answer db else .error .failed, db)

/-- A statement that writes. -/
def write {α : Type} (act : Db → α × Db) : OpTask α :=
  .op fun input db => if input.works then (.ok (act db).1, (act db).2) else (.error .failed, db)

/-- Something in the memory of the process, which does not fail. -/
def inMemory {α : Type} (act : Db → α × Db) : OpTask α :=
  .op fun _ db => (.ok (act db).1, (act db).2)

def Db.note (db : Db) (entry : OpEntry) : Db := { db with log := entry :: db.log }

/-! ### Who asks -/

def mcpActions : List String :=
  ["logs:read", "containers:control", "stacks:control", "files:read", "files:write", "git:read",
    "git:apply", "deploy"]

/-- The user may have lost a right the key still names. -/
def effectiveRole (row : KeyRow) (user : User) : Role :=
  if row.role = .operator ∧ user.role ≠ .viewer then .operator else .viewer

def identityOf (keyId : String) (row : KeyRow) (user : User) : Except McpError MachineIdentity :=
  if user.suspended || user.role = .other then .error .unauthorized
  else if !validScope row.servers row.stackIds || row.servers.any fun server =>
      server ∉ row.resources.servers || (row.resources.of server).any (· ∉ row.stackIds) then
    .error .unauthorized
  else
    let role := effectiveRole row user
    let actions := if role = .operator then row.actions else []
    if actions.any (· ∉ mcpActions) then .error .unauthorized
    else .ok {
      keyId
      userId := row.userId
      role
      actions
      mode := if role = .viewer then .readonly else row.mode
      resources := row.resources
      servers := row.servers
      stackIds := row.stackIds
      policyVersion := row.policyVersion }

/-- Only a row that is neither revoked nor expired. -/
def readKey (task : Nat) (keyId : String) : OpTask KeyRow :=
  .op fun input db =>
    match input.works, db.keys keyId with
    | true, some row =>
        if row.revokedAt.isSome || row.expiresAt ≤ db.now then
          (.error .unauthorized, db.note (.looked task keyId row.policyVersion))
        else (.ok row, db.note (.looked task keyId row.policyVersion))
    | true, none => (.error .unauthorized, db)
    | false, _ => (.error .failed, db)

/-- `revalidateMcpIdentity`, which ends in noting when the key was last used. -/
def refresh (task : Nat) (keyId : String) : OpTask MachineIdentity := do
  ask fun db => if db.enabled then .ok () else .error .unauthorized
  let row ← readKey task keyId
  let user ← ask fun db =>
    match db.users row.userId with
    | some user => .ok user
    | none => .error .unauthorized
  let identity ← Async.ofExcept (identityOf keyId row user)
  write fun db => ((), db)
  pure identity

/-- The rights over one stack. -/
def access (identity : MachineIdentity) (permission serverId stackId : String) : Bool :=
  identity.role = .operator && identity.mode ≠ .readonly && permission ∈ identity.actions &&
    identity.resources.includes serverId stackId

def current (task : Nat) (identity : MachineIdentity) : OpTask MachineIdentity := do
  let fresh ← refresh task identity.keyId
  Async.failIf (fresh.userId ≠ identity.userId) .permissionDenied
  pure fresh

def owned (task : Nat) (identity : MachineIdentity) (id : Nat) : OpTask (MachineIdentity × OperationRow) := do
  let current ← current task identity
  let row ← ask fun db =>
    match db.rows id with
    | some row => if row.keyId = current.keyId then .ok row else .error .permissionDenied
    | none => .error .permissionDenied
  Async.failIf (!access current row.permission row.serverId row.stackId) .permissionDenied
  Async.failIf (current.policyVersion ≠ row.policyVersion) .permissionDenied
  pure (current, row)

/-! ### Preparing -/

structure PrepareRequest where
  action : String
  requestId : String
  /-- The canonical arguments, where the schema of the action accepts them. -/
  arguments : Option String

/-- The actions that are registered, with the permission of each, and the hash of a request. -/
structure Handlers where
  requiredAction : String → Option String
  hash : String → String → String

def maxPrepared : Nat := 500

def operationLifetimeMs : Nat := 10 * 60000

def findRequest (db : Db) (keyId requestId : String) : Option (Nat × OperationRow) :=
  ((List.range db.nextId).filterMap fun id => (db.rows id).map fun row => (id, row)).find?
    fun (_, row) => row.keyId = keyId ∧ row.requestId = requestId

/-- An operation that was stored for this request before. -/
def existing (task : Nat) (identity : MachineIdentity) (hash : String) (id : Nat) : OpTask OperationRow := do
  let (_, row) ← owned task identity id
  Async.failIf (row.parametersHash ≠ hash) .requestChanged
  pure row

/-- `this.prepared.delete` -/
def Db.withoutAction (db : Db) (instanceId id : Nat) : Db :=
  { db with
    prepared := Function.update db.prepared instanceId ((db.prepared instanceId).filter (·.1 ≠ id)) }

def forget (instanceId id : Nat) : OpTask Unit := inMemory fun db => ((), db.withoutAction instanceId id)

/-- Forget what has expired or is gone. -/
def forgetExpired (instanceId : Nat) : List Nat → OpTask Unit
  | [] => pure ()
  | id :: rest => do
      let gone ← ask fun db => .ok ((db.rows id).all fun row => row.expiresAt ≤ db.now)
      if gone then do
        forget instanceId id
        forgetExpired instanceId rest
      else forgetExpired instanceId rest

def makeRoom (instanceId : Nat) : OpTask Unit := do
  let held ← inMemory fun db => ((db.prepared instanceId).map (·.1), db)
  if held.length < maxPrepared then pure ()
  else do
    forgetExpired instanceId held
    let left ← inMemory fun db => ((db.prepared instanceId).length, db)
    Async.failIf (maxPrepared ≤ left) .tooManyOperations

/-- The row is stored unless the request has one; the action stays in memory. -/
def insertOperation (instanceId : Nat) (row : OperationRow) (mode : Mode) (action : PreparedAction) :
    OpTask (Option OperationRow) :=
  .op fun input db =>
    if input.works && (findRequest db row.keyId row.requestId).isNone then
      (.ok (some row), { db with
        rows := Function.update db.rows db.nextId (some row)
        nextId := db.nextId + 1
        prepared := Function.update db.prepared instanceId (db.prepared instanceId ++ [(db.nextId, action)])
        log := .stored db.nextId row.keyId mode row.policyVersion :: db.log })
    else (.ok none, db)

/-- The insertion failed: perhaps the request was stored meanwhile. -/
def storedMeanwhile (task : Nat) (identity : MachineIdentity) (requestId hash : String) :
    OpTask OperationRow := do
  let duplicate ← ask fun db => .ok (findRequest db identity.keyId requestId)
  match duplicate with
  | none => Async.fail .requestChanged
  | some (id, row) => do
      Async.failIf (row.parametersHash ≠ hash) .requestChanged
      let (_, row) ← owned task identity id
      pure row

/-- A handler prepares an action. -/
def prepareAction : OpTask PreparedAction :=
  .op fun input db =>
    match input.action with
    | some action => (.ok action, db)
    | none => (.error .failed, db)

/-- A request that has no row yet. -/
def prepareNew (task instanceId : Nat) (current : MachineIdentity) (request : PrepareRequest)
    (permission hash : String) : OpTask OperationRow := do
  let action ← prepareAction
  Async.failIf (!access current permission action.serverId action.stackId) .permissionDenied
  let fresh ← Mcp.current task current
  Async.failIf (!access fresh permission action.serverId action.stackId) .permissionDenied
  Async.failIf (fresh.policyVersion ≠ current.policyVersion) .permissionDenied
  makeRoom instanceId
  let now ← inMemory fun db => (db.now, db)
  let row : OperationRow := {
    keyId := fresh.keyId
    requestId := request.requestId
    action := request.action
    permission
    serverId := action.serverId
    stackId := action.stackId
    parametersHash := hash
    fingerprint := action.fingerprint
    policyVersion := fresh.policyVersion
    summary := String.ofList (action.summary.toList.take 200)
    state := if fresh.mode = .approval then .awaitingApproval else .prepared
    createdAt := now
    expiresAt := now + operationLifetimeMs }
  let stored ← insertOperation instanceId row fresh.mode action
  match stored with
  | some row => pure row
  | none => storedMeanwhile task fresh request.requestId hash

/-- The request as the handler of its action takes it. -/
def accepted (handlers : Handlers) (current : MachineIdentity) (request : PrepareRequest) :
    Except McpError (String × String) :=
  match handlers.requiredAction request.action, request.arguments with
  | none, _ => .error .permissionDenied
  | some permission, arguments =>
      if current.role ≠ .operator ∨ current.mode = .readonly ∨ permission ∉ current.actions then
        .error .permissionDenied
      else
        match arguments with
        | none => .error .invalid
        | some arguments => .ok (permission, handlers.hash request.action arguments)

/-- Write down what an operation would do, without doing any of it. -/
def prepare (handlers : Handlers) (task instanceId : Nat) (identity : MachineIdentity)
    (request : PrepareRequest) : OpTask OperationRow := do
  let current ← Mcp.current task identity
  let (permission, hash) ← Async.ofExcept (accepted handlers current request)
  let found ← ask fun db => .ok (findRequest db current.keyId request.requestId)
  match found with
  | some (id, _) => existing task current hash id
  | none => prepareNew task instanceId current request permission hash

/-! ### Applying -/

def isHex (c : Char) : Bool := ('0' ≤ c && c ≤ '9') || ('a' ≤ c && c ≤ 'f')

/-- Only known scalar fields are stored. -/
def knownField : String × Scalar → Bool
  | (key, .bool _) => key ∈ ["saved", "deployed", "completed"]
  | (key, .text value) =>
      (key = "preview_id" && value.length = 36 && value.toList.all fun c => isHex c || c = '-') ||
        (key = "file_hash" && value.length = 64 && value.toList.all isHex)

/-- A handler looks whether everything is as it was. -/
def revalidate : OpTask Bool :=
  .op fun input db => (if input.works then .ok input.valid else .error .failed, db)

/-- `state = 'prepared'` and not expired at this moment, to running. -/
def claim (task id now : Nat) : OpTask Bool :=
  write fun db =>
    match db.rows id with
    | some row =>
        if row.state = .prepared ∧ now < row.expiresAt then
          (true, { db with
            rows := Function.update db.rows id (some { row with state := .running })
            log := .claimed id task now row.expiresAt :: db.log })
        else (false, db)
    | none => (false, db)

/-- The end of the work, whatever state the row is in. -/
def finish (id : Nat) (state : OpState) (result : List (String × Scalar)) : OpTask Unit :=
  write fun db => ((), { db with
    rows := Function.update db.rows id ((db.rows id).map fun row => { row with state, result := some result }) })

/-- The guard the work is given. -/
def guardWork (task : Nat) (identity : MachineIdentity) (id : Nat) : OpTask Unit := do
  let _ ← owned task identity id
  inMemory fun db => ((), db.note (.guarded id task))

/-- `prepared.execute`: it asks its guard, does something, and so on. -/
def execute (task : Nat) (identity : MachineIdentity) (id : Nat) (action : PreparedAction) :
    OpTask (List (String × Scalar)) := do
  inMemory fun db => ((), db.note (.executed id task))
  Async.repeatTimes action.guards do
    guardWork task identity id
    ask fun _ => .ok ()
  .op fun input db => (if input.works then .ok input.outcome else .error .failed, db)

/-- What is done once the row is claimed. -/
def work (task : Nat) (identity : MachineIdentity) (id : Nat) (action : PreparedAction) : OpTask Unit := do
  let _ ← owned task identity id
  let valid ← revalidate
  Async.failIf (!valid) .operationStale
  let outcome ← execute task identity id action
  finish id .succeeded (outcome.filter knownField)

/-- The row is claimed: the work is done, and however it ends the action is forgotten. -/
def carryOut (task instanceId : Nat) (identity : MachineIdentity) (id : Nat) (action : PreparedAction) :
    OpTask Unit := do
  Async.orElse ((work task identity id action).orElse fun _ => finish id .failed [("completed", .bool false)])
    fun error => do
      forget instanceId id
      Async.fail error
  forget instanceId id

/-- What the instance still has of the operation, and the time. -/
def recallAction (instanceId id : Nat) : OpTask (Option PreparedAction × Nat) :=
  inMemory fun db => ((((db.prepared instanceId).find? (·.1 = id)).map (·.2), db.now), db)

/-- The operation may be claimed now. -/
def checkApply (current : MachineIdentity) (row : OperationRow) (action : Option PreparedAction) (now : Nat) :
    Except McpError PreparedAction :=
  match action with
  | none => .error .operationExpired
  | some action =>
      if row.expiresAt ≤ now then .error .operationExpired
      else if row.state ≠ .prepared ∨ (current.mode = .approval ∧ row.approvedBy = none) then
        .error .approvalRequired
      else .ok action

def claimAndWork (task instanceId : Nat) (current : MachineIdentity) (id : Nat) (action : PreparedAction) :
    OpTask OperationRow := do
  let valid ← revalidate
  Async.failIf (!valid) .operationStale
  let _ ← owned task current id
  let now ← inMemory fun db => (db.now, db)
  let claimed ← claim task id now
  if claimed then do
    carryOut task instanceId current id action
    let (_, row) ← owned task current id
    pure row
  else do
    let (_, row) ← owned task current id
    pure row

/-- Carry out an operation that was prepared earlier. -/
def apply (task instanceId : Nat) (identity : MachineIdentity) (id : Nat) (parametersHash : String) :
    OpTask OperationRow := do
  let (current, row) ← owned task identity id
  Async.failIf (row.parametersHash ≠ parametersHash) .requestChanged
  if row.state ∈ [OpState.succeeded, .failed, .running] then pure row
  else do
    let (held, now) ← recallAction instanceId id
    let action ← Async.ofExcept (checkApply current row held now)
    claimAndWork task instanceId current id action

/-! ### The owner -/

def readOwner (ownerId : String) : OpTask Unit :=
  ask fun db =>
    match db.users ownerId with
    | some user => if user.role = .admin && !user.suspended then .ok () else .error .permissionDenied
    | none => .error .permissionDenied

/-- Reveal what is reviewed, which changes nothing. -/
def review (instanceId : Nat) (ownerId : String) (id : Nat) : OpTask OperationRow := do
  readOwner ownerId
  let now ← inMemory fun db => (db.now, db)
  let row ← ask fun db =>
    match db.rows id with
    | some row =>
        if (row.state = .prepared ∨ row.state = .awaitingApproval) ∧ now < row.expiresAt then .ok row
        else .error .operationExpired
    | none => .error .operationExpired
  let (held, _) ← recallAction instanceId id
  Async.failIf held.isNone .operationExpired
  pure row

def approve (ownerId : String) (id : Nat) : OpTask Unit := do
  readOwner ownerId
  let now ← inMemory fun db => (db.now, db)
  let changed ← write fun db =>
    match db.rows id with
    | some row =>
        if row.state = .awaitingApproval ∧ now < row.expiresAt then
          (true, { db with
            rows := Function.update db.rows id (some { row with approvedBy := some ownerId, state := .prepared })
            log := .approved id ownerId :: db.log })
        else (false, db)
    | none => (false, db)
  Async.failIf (!changed) .operationExpired

/-! ### All calls -/

inductive OpCall where
  | prepare (instanceId : Nat) (identity : MachineIdentity) (request : PrepareRequest)
  | status (identity : MachineIdentity) (id : Nat)
  | apply (instanceId : Nat) (identity : MachineIdentity) (id : Nat) (parametersHash : String)
  | review (instanceId : Nat) (ownerId : String) (id : Nat)
  | approve (ownerId : String) (id : Nat)

/-- What its caller makes of the answer is left out. -/
def answered {α : Type} (task : OpTask α) : OpTask Unit := do
  let _ ← task

def OpCall.program (handlers : Handlers) (call : OpCall) (task : Nat) : OpTask Unit :=
  match call with
  | .prepare instanceId identity request => answered (Mcp.prepare handlers task instanceId identity request)
  | .status identity id => answered (owned task identity id)
  | .apply instanceId identity id parametersHash =>
      answered (Mcp.apply task instanceId identity id parametersHash)
  | .review instanceId ownerId id => answered (Mcp.review instanceId ownerId id)
  | .approve ownerId id => Mcp.approve ownerId id

/-- Keys are reduced, reissued, revoked and issued, users change, time passes. -/
structure Outside where
  enabled : Bool
  keys : String → Option KeyRow
  users : String → Option User
  now : Nat

def Outside.apply (outside : Outside) (db : Db) : Db :=
  { db with enabled := outside.enabled, keys := outside.keys, users := outside.users, now := outside.now }

end Dockge.Mcp
