import Dockge.Data.Json
import Dockge.Data.Text
import Dockge.Data.Transaction
import Mathlib

namespace Dockge.Accounts

open Data

/-! Accounts as `auth-access.ts` issues, changes and removes them.

A call is one transaction on the tables of the installation, or rejects before it begins one.
Several processes and connections may be at it at once.
-/

structure User where
  id : String
  name : String
  username : Option String
  email : String
  /-- Text of the column; accounts of an earlier version have no `suspended`. -/
  role : Option String
  suspended : Option Bool
  createdAt : Nat
  updatedAt : Nat
deriving DecidableEq, Repr

structure Account where
  id : String
  accountId : String
  providerId : String
  userId : String
  password : Option String
  createdAt : Nat
  updatedAt : Nat
deriving DecidableEq, Repr

structure TwoFactor where
  userId : String
deriving DecidableEq, Repr

structure Session where
  token : String
  userId : String
deriving DecidableEq, Repr

structure Bootstrap where
  id : Nat
  userId : String
deriving DecidableEq, Repr

/-- The tables; `id` is the primary key of the accounts. -/
structure Tables where
  user : List User
  account : List Account
  twoFactor : List TwoFactor
  session : List Session
  authBootstrap : List Bootstrap
  keyed : (user.map (·.id)).Nodup

abbrev Statements := Transaction Tables String

def uniqueViolation : String := "SQLITE_CONSTRAINT_UNIQUE"

def busy : String := "SQLITE_BUSY"

/-! Statements -/

def insertBootstrap (row : Bootstrap) : Statements Unit :=
  .execute fun tables =>
    if row.id ∈ tables.authBootstrap.map (·.id) then .error uniqueViolation
    else .ok { tables with authBootstrap := tables.authBootstrap ++ [row] }

def insertUser (row : User) : Statements Unit :=
  .execute fun tables =>
    if taken : row.id ∈ tables.user.map (·.id) then .error uniqueViolation
    else if tables.user.any fun held => held.email = row.email ||
        (row.username.isSome && held.username = row.username) then .error uniqueViolation
    else
      .ok { tables with
        user := tables.user ++ [row]
        keyed := by
          rw [List.map_append]
          exact List.nodup_append.mpr ⟨tables.keyed, by simp, fun held member added found equal =>
            taken (by rw [List.map_singleton, List.mem_singleton] at found; exact found ▸ equal ▸ member)⟩ }

def insertAccount (row : Account) : Statements Unit :=
  .execute fun tables =>
    if row.id ∈ tables.account.map (·.id) then .error uniqueViolation
    else .ok { tables with account := tables.account ++ [row] }

/-- An update of the rows of one account; a row keeps its key. -/
def Tables.setUser (tables : Tables) (id : String) (change : User → User)
    (keeps : ∀ row, (change row).id = row.id) : Tables :=
  { tables with
    user := tables.user.map fun row => if row.id = id then change row else row
    keyed := by
      have same : (tables.user.map fun row => if row.id = id then change row else row).map (·.id) =
          tables.user.map (·.id) := by
        rw [List.map_map]
        refine List.map_congr_left fun row _ => ?_
        simp only [Function.comp]
        split
        · exact keeps row
        · rfl
      rw [same]
      exact tables.keyed }

def touchUser (id : String) (now : Nat) : Statements Unit :=
  .execute fun tables => .ok (tables.setUser id (fun row => { row with updatedAt := now }) fun _ => rfl)

def updateAccess (id : String) (role : Option String) (suspended : Option Bool) : Statements Unit :=
  .execute fun tables =>
    .ok (tables.setUser id (fun row => { row with role := role, suspended := suspended }) fun _ => rfl)

/-- Set a new credential; the result is the number of rows. -/
def updatePassword (id : String) (hash : String) (now : Nat) : Statements Nat :=
  let credential (row : Account) : Bool := row.userId = id && row.providerId = "credential"
  .executing
    (fun tables => .ok { tables with
      account := tables.account.map fun row =>
        if credential row then { row with password := some hash, updatedAt := now } else row })
    fun tables => tables.account.countP credential

def deleteSessions (id : String) : Statements Unit :=
  .execute fun tables => .ok { tables with session := tables.session.filter (·.userId ≠ id) }

def deleteAccounts (id : String) : Statements Unit :=
  .execute fun tables => .ok { tables with account := tables.account.filter (·.userId ≠ id) }

def deleteTwoFactor (id : String) : Statements Unit :=
  .execute fun tables => .ok { tables with twoFactor := tables.twoFactor.filter (·.userId ≠ id) }

def deleteUser (id : String) : Statements Unit :=
  .execute fun tables => .ok { tables with
    user := tables.user.filter (·.id ≠ id)
    keyed := tables.keyed.sublist (List.filter_sublist.map _) }

/-- `where({ role: "admin", suspended: 0 })` -/
def countedOwner (row : User) : Bool := row.role = some "admin" && row.suspended = some false

/-! Checks before the transaction -/

/-- `value[key]` of a value that may be anything but `null` and `undefined` -/
def property (value : Json) (key : String) : Option Json :=
  match value with
  | .obj fields => Fields.get fields key
  | _ => none

def text : Option Json → Option String
  | some (.str value) => some value
  | _ => none

/-- Length in the units of the source's texts. -/
def units (chars : List Char) : Nat := (chars.map fun char => if char.toNat < 65536 then 1 else 2).sum

/-- `slice(0, limit)` as it is stored: half of a pair becomes the replacement character. -/
def takeUnits (limit : Nat) : List Char → List Char
  | [] => []
  | char :: rest =>
      if limit = 0 then []
      else if units [char] ≤ limit then char :: takeUnits (limit - units [char]) rest
      else ['\uFFFD']

/-- `/^[a-zA-Z0-9_.]{3,30}$/` -/
def isUsername (chars : List Char) : Bool :=
  3 ≤ chars.length && chars.length ≤ 30 && chars.all fun char => char.isAlphanum || char ∈ ['_', '.']

/-- `/^[^\s@]+@[^\s@]+\.[^\s@]+$/` -/
def isEmail (chars : List Char) : Bool :=
  chars.all (fun char => !isSpace char) &&
    match splitChars '@' chars with
    | [name, host] => !name.isEmpty && (host.drop 1).dropLast.contains '.'
    | _ => false

def roles : List String := ["admin", "operator", "viewer"]

def isPasswordLength (password : String) : Bool :=
  10 ≤ units password.toList && units password.toList ≤ 128

structure NewUser where
  name : String
  email : String
  username : String
  password : String
  role : String

/-- The rules about texts that the language brings along. -/
structure Language where
  toLowerCase : String → String

def displayName (name : Option String) (username : String) : String :=
  match name with
  | some name =>
      let trimmed := trimChars name.toList
      if trimmed.isEmpty then username else String.ofList (takeUnits 100 trimmed)
  | none => username

/-- `const input = data as Partial<NewUser> | null`; nothing is read from a missing one. -/
def validateNewUser (language : Language) (data : Option Json) : Except String NewUser := do
  let input := data.getD .null
  let username ← match text (property input "username") with
    | some username => if isUsername username.toList then .ok username else .error "authInvalidUsername"
    | none => .error "authInvalidUsername"
  let email ← match text (property input "email") with
    | some email =>
        if units email.toList ≤ 254 && isEmail email.toList then .ok email else .error "authInvalidEmail"
    | none => .error "authInvalidEmail"
  let password ← match text (property input "password") with
    | some password => if isPasswordLength password then .ok password else .error "authPasswordLength"
    | none => .error "authPasswordLength"
  let role ← match text (property input "role") with
    | some role => if role ∈ roles then .ok role else .error "authInvalidRole"
    | none => .error "authInvalidRole"
  return {
    name := displayName (text (property input "name")) username
    username := String.ofList (lowerChars username.toList)
    email := language.toLowerCase email
    password
    role }

/-- What a call takes from outside: identifiers, the clock and the hash of a password. -/
structure Made where
  id : String
  accountId : String
  now : Nat
  hashPassword : String → Except String String

/-! Calls -/

/-- The claim of the one bootstrap -/
def claimBootstrap (bootstrap : Bool) (id : String) : Statements Unit :=
  if bootstrap then do
    insertBootstrap { id := 1, userId := id }
    let first ← Transaction.select fun tables => tables.user.head?
    Transaction.failIf first.isSome "authSetupComplete"
  else pure ()

def newUserRow (data : NewUser) (made : Made) : User where
  id := made.id
  name := data.name
  username := some data.username
  email := data.email
  role := some data.role
  suspended := some false
  createdAt := made.now
  updatedAt := made.now

def newAccountRow (hash : String) (made : Made) : Account where
  id := made.accountId
  accountId := made.id
  providerId := "credential"
  userId := made.id
  password := some hash
  createdAt := made.now
  updatedAt := made.now

def issueUser (language : Language) (made : Made) (input : Option Json) (bootstrap : Bool) :
    Statements Unit := do
  let data ← Transaction.ofExcept (validateNewUser language input)
  let password ← Transaction.ofExcept (made.hashPassword data.password)
  claimBootstrap bootstrap made.id
  insertUser (newUserRow data made)
  insertAccount (newAccountRow password made)

structure AccessChange where
  role : Option Json
  suspended : Option Json
  remove : Bool

def userId : Option Json → Except String String
  | some (.str id) => if id = "" then .error "authUnknownUser" else .ok id
  | _ => .error "authUnknownUser"

def givenRole : Option Json → Except String (Option String)
  | none => .ok none
  | some (.str role) => if role ∈ roles then .ok (some role) else .error "authInvalidRole"
  | some _ => .error "authInvalidRole"

def givenSuspended : Option Json → Except String (Option Bool)
  | none => .ok none
  | some (.bool suspended) => .ok (some suspended)
  | some _ => .error "authInvalidUserData"

def losesOwner (role : Option String) (suspended : Option Bool) (remove : Bool) : Bool :=
  remove || suspended = some true || (role.isSome && role ≠ some "admin")

/-- `user.role === "admin" && !user.suspended` -/
def User.isOwner (user : User) : Bool := user.role = some "admin" && user.suspended ≠ some true

def keepLastOwner (user : User) (loses : Bool) : Statements Unit :=
  if user.isOwner && loses then do
    let count ← Transaction.select fun tables => tables.user.countP countedOwner
    Transaction.failIf (count ≤ 1) "authLastOwner"
  else pure ()

def removeUser (id : String) : Statements Unit := do
  deleteAccounts id
  deleteTwoFactor id
  deleteUser id

def changeUserAccess (now : Nat) (id : Option Json) (change : AccessChange) : Statements Unit := do
  let id ← Transaction.ofExcept (userId id)
  let role ← Transaction.ofExcept (givenRole change.role)
  let suspended ← Transaction.ofExcept (givenSuspended change.suspended)
  -- taken for its lock: nobody else changes an owner from here on
  touchUser id now
  let found ← Transaction.select fun tables => tables.user.find? (·.id = id)
  let user ← Transaction.ofExcept (found.elim (.error "authUnknownUser") .ok)
  keepLastOwner user (losesOwner role suspended change.remove)
  deleteSessions id
  if change.remove then removeUser id
  else updateAccess id (role <|> user.role) (suspended <|> user.suspended)

def newPassword : Option Json → Except String String
  | some (.str password) => if isPasswordLength password then .ok password else .error "authPasswordLength"
  | _ => .error "authPasswordLength"

def resetUserPassword (made : Made) (id password : Option Json) : Statements Unit := do
  let id ← Transaction.ofExcept (userId id)
  let password ← Transaction.ofExcept (newPassword password)
  let hash ← Transaction.ofExcept (made.hashPassword password)
  let updated ← updatePassword id hash made.now
  Transaction.failIf (updated = 0) "authUnknownUser"
  deleteSessions id

/-- Who works on the tables: the three calls, and the library that keeps the sessions. -/
inductive Call where
  | issueUser (made : Made) (input : Option Json) (bootstrap : Bool)
  | changeUserAccess (now : Nat) (id : Option Json) (change : AccessChange)
  | resetUserPassword (made : Made) (id password : Option Json)
  | sessions (change : List Session → List Session)

def Call.statements (language : Language) : Call → Statements Unit
  | .issueUser made input bootstrap => Accounts.issueUser language made input bootstrap
  | .changeUserAccess now id change => Accounts.changeUserAccess now id change
  | .resetUserPassword made id password => Accounts.resetUserPassword made id password
  | .sessions change => .execute fun tables => .ok { tables with session := change tables.session }

end Dockge.Accounts
