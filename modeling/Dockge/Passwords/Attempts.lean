import Dockge.Data.History

namespace Dockge.Passwords

/-! The password that confirms a dangerous action: `doubleCheckPassword` and its counter.

A call is in two halves, before and after it awaits `verifyCurrentPassword`, and what the auth
library answers is an input of the second half.  Times are milliseconds of one clock.
-/

/-- `PASSWORD_ATTEMPT_LIMIT` -/
def attemptLimit : Nat := 5

/-- `PASSWORD_LOCK_MS` -/
def lockMs : Nat := 60 * 1000

structure Socket where
  id : String
  userID : Option String
  userRole : Option String := none
  deriving DecidableEq, Repr

/-- A value that JavaScript takes for true. -/
def truthy (text : Option String) : Option String :=
  text.filter (· != "")

/-- `passwordAttemptKey` -/
def passwordAttemptKey (socket : Socket) : String :=
  match truthy socket.userID with
  | some userID => "user:" ++ userID
  | none => "socket:" ++ socket.id

/-- An entry of `passwordAttempts`. -/
structure Record where
  failures : Nat
  expires : Nat
  deriving DecidableEq, Repr

/-- The limit is reached and the wait is not over. -/
def Record.locks (now : Nat) (record : Record) : Bool :=
  decide (record.expires > now ∧ record.failures ≥ attemptLimit)

def Record.isOver (now : Nat) (record : Record) : Bool :=
  decide (record.expires ≤ now)

/-- A password that was handed to `verifyCurrentPassword` and is not answered yet. -/
structure Call where
  socket : Socket
  arrived : Nat
  correct : Bool
  deriving DecidableEq, Repr

def Call.key (call : Call) : String := passwordAttemptKey call.socket

/-- What happened to a counter, by its key. -/
inductive Note where
  | handed (key : String) (time : Nat) (correct : Bool)
  | confirmed (key : String) (time : Nat)
  | cleared (key : String) (time : Nat)
  deriving DecidableEq, Repr

def Note.time : Note → Nat
  | .handed _ time _ => time
  | .confirmed _ time => time
  | .cleared _ time => time

structure State where
  clock : Nat
  passwordAttempts : String → Option Record
  verifying : List Call
  /-- The newest first. -/
  log : List Note

def State.start : State :=
  { clock := 0, passwordAttempts := fun _ => none, verifying := [], log := [] }

def State.setAttempts (state : State) (key : String) (record : Option Record) : State :=
  { state with passwordAttempts := fun other =>
      if other = key then record else state.passwordAttempts other }

/-- What the auth library says, `none` where it throws. -/
structure Answers where
  /-- `getSessionFromHeaders` names a user. -/
  session : Option Bool
  /-- `response.ok` of `verifyPassword` -/
  response : Option Bool
  /-- `verifyAccountPassword` -/
  account : Option Bool
  deriving DecidableEq, Repr

def verifyCurrentPassword (socket : Socket) (answers : Answers) : Option Bool :=
  match answers.session with
  | none => none
  | some true => answers.response
  | some false =>
      match truthy socket.userID with
      | some _ => answers.account
      | none => some false

/-- The library never confirms a wrong password. -/
def Answers.honest (answers : Answers) (correct : Bool) : Bool :=
  correct || (answers.response != some true && answers.account != some true)

/-- `verifyCurrentPassword` is called and awaited. -/
def State.handOn (state : State) (socket : Socket) (correct : Bool) : State :=
  { state with
    verifying := { socket := socket, arrived := state.clock, correct := correct } :: state.verifying
    log := .handed (passwordAttemptKey socket) state.clock correct :: state.log }

inductive Refusal where
  | wrongDataType
  | tooManyPasswordAttempts
  | incorrectCurrentPassword
  /-- What the auth library threw. -/
  | thrown
  deriving DecidableEq, Repr

/-- `doubleCheckPassword` up to its await; `none` is a value that is no string. -/
def offer (state : State) (socket : Socket) (currentPassword : Option Bool) : Except Refusal State :=
  match currentPassword with
  | none => .error .wrongDataType
  | some correct =>
      let key := passwordAttemptKey socket
      let record := state.passwordAttempts key
      let now := state.clock
      if record.any (Record.locks now) then
        .error .tooManyPasswordAttempts
      else
        let state := if record.any (Record.isOver now) then state.setAttempts key none else state
        .ok (state.handOn socket correct)

/-- `doubleCheckPassword` after `verifyCurrentPassword` has returned or thrown. -/
def answer (state : State) (call : Call) (verified : Option Bool) : Except Refusal Unit × State :=
  let key := call.key
  let rest := { state with verifying := state.verifying.erase call }
  match verified with
  | none => (.error .thrown, rest)
  | some false =>
      let failures := ((state.passwordAttempts key).map Record.failures).getD 0 + 1
      (.error .incorrectCurrentPassword,
        rest.setAttempts key (some { failures := failures, expires := call.arrived + lockMs }))
  | some true =>
      (.ok (), { rest.setAttempts key none with log := .confirmed key state.clock :: state.log })

/-- What `resolveSocketIdentity` finds for the headers of a socket. -/
structure Identity where
  userID : Option String
  role : Option String
  deriving DecidableEq, Repr

/-- `dropRevokedSessions` at one socket: does its session still stand? -/
def stands (socket : Socket) (identity : Identity) : Bool :=
  (truthy socket.userID).isNone ||
    (identity.userID == socket.userID &&
      ((truthy socket.userRole).isNone || identity.role == socket.userRole))

/-- `clearPasswordAttempts` -/
def clearPasswordAttempts (state : State) (socket : Socket) : State :=
  let key := passwordAttemptKey socket
  { state.setAttempts key none with log := .cleared key state.clock :: state.log }

inductive Event where
  | wait (ms : Nat)
  | offer (socket : Socket) (currentPassword : Option Bool)
  | answer (call : Call) (answers : Answers)
  | drop (socket : Socket) (identity : Identity)
  deriving DecidableEq, Repr

/-- One turn of the panel; an event that cannot happen in a state leaves it alone. -/
def step (state : State) : Event → State
  | .wait ms => { state with clock := state.clock + ms }
  | .offer socket currentPassword =>
      match offer state socket currentPassword with
      | .error _ => state
      | .ok after => after
  | .answer call answers =>
      if call ∈ state.verifying ∧ answers.honest call.correct = true then
        (answer state call (verifyCurrentPassword call.socket answers)).2
      else state
  | .drop socket identity =>
      if stands socket identity then state else clearPasswordAttempts state socket

def reached (history : List Event) : State :=
  Data.replay step .start history

end Dockge.Passwords
