import Dockge.Data.History
import Mathlib.Data.List.Basic

namespace Dockge.Mcp.Identities

open Data

/-! Identities of stacks for the grants of MCP keys, as `mcp-keys.ts` and `git_clone` keep them.

An identity is bound to the directory it was made for, or reserved for one that `git_clone` will
publish.  Every function runs undisturbed from one wait to the next; a transaction is one step, for the
panel has one connection to its database.
-/

/-- A directory under the root of the stacks. A new one always has another device, inode or birth time. -/
structure Directory where
  name : String
  fingerprint : Nat
  /-- It holds a compose file under an accepted name. -/
  compose : Bool
  empty : Bool
deriving DecidableEq, Repr

/-- A row of `mcp_stack_identity`; a reserved one has no fingerprint. -/
structure Row where
  id : Nat
  name : String
  fingerprint : Option Nat
deriving DecidableEq, Repr

structure Identity where
  id : Nat
  name : String
  reserved : Bool
deriving DecidableEq, Repr

/-- A clone that was published: its reservation, the name, and the directory. -/
structure Published where
  id : Nat
  name : String
  fingerprint : Nat
deriving DecidableEq, Repr

/-- `synchronizeStackIdentities` between two waits. -/
structure Listing where
  /-- The names still to look at -/
  names : List String
  identities : List Identity
  /-- Clones that were saved before it began; nothing in the source keeps them. -/
  since : List Published

inductive Phase where
  | reading
  | listing (listing : Listing)
  | checking (listing : Listing) (name : String) (fingerprint : Nat)
  | storing (listing : Listing) (name : String) (fingerprint : Nat)
  | listed (listing : Listing)
  | reserving (name : String)
  | storingReservation (name : String)
  | reserved (id : Nat)
  | finding (id : Nat)
  | removing (id : Nat)
  | unreserved
  | preparing (id : Nat)
  /-- `untouched`, which `prepare` asks once and the application twice -/
  | looking (row : Row) (left : Nat)
  | statting (row : Row) (left : Nat)
  | fetching (row : Row)
  | making (row : Row)
  | publishing (row : Row)
  | cleaning (row : Row) (fingerprint : Nat)
  | binding (row : Row) (fingerprint seen : Nat)
  | finishing (row : Row) (fingerprint : Nat)
  | saved
  | failed (error : String)

structure World where
  rows : List Row
  directories : List Directory
  nextId : Nat
  nextFingerprint : Nat
  tasks : List Phase
  /-- Which identity was reported for which directory, ever -/
  reports : List (Nat × Nat)
  published : List Published
  /-- Which reservation was bound to which directory, ever -/
  bound : List (Nat × Nat)
  /-- The clones that resolved with `saved`, ever -/
  kept : List Published

namespace World

def empty : World := ⟨[], [], 0, 0, [], [], [], [], []⟩

def lstat (world : World) (name : String) : Option Directory := world.directories.find? (·.name = name)

def goOn (world : World) (task : Nat) (phase : Phase) : World := { world with tasks := world.tasks.set task phase }

/-- The first directory entry is read: what it is, and what comes after it. -/
def list (world : World) (task : Nat) (listing : Listing) : World :=
  match listing.names with
  | [] =>
      let reserved := (world.rows.filter (·.fingerprint.isNone)).filter fun row =>
        !listing.identities.any (·.name = row.name)
      world.goOn task (.listed { listing with
        identities := listing.identities ++ reserved.map fun row => ⟨row.id, row.name, true⟩ })
  | name :: rest =>
      match world.lstat name with
      | some directory => world.goOn task (.checking { listing with names := rest } name directory.fingerprint)
      | none => world.goOn task (.listing { listing with names := rest })

/-- The row of a name is replaced by a new one. -/
def replaceRow (world : World) (name : String) (fingerprint : Option Nat) : World :=
  { world with
    rows := world.rows.filter (·.name ≠ name) ++ [⟨world.nextId, name, fingerprint⟩]
    nextId := world.nextId + 1 }

def report (world : World) (id fingerprint : Nat) : World :=
  { world with reports := world.reports ++ [(id, fingerprint)] }

def Listing.add (listing : Listing) (id : Nat) (name : String) : Listing :=
  { listing with identities := listing.identities ++ [⟨id, name, false⟩] }

/-- The transaction of `synchronizeStackIdentities` -/
def store (world : World) (task : Nat) (listing : Listing) (name : String) (fingerprint : Nat) : World :=
  match world.rows.find? (·.name = name) with
  | some row =>
      if row.fingerprint = some fingerprint then
        (world.report row.id fingerprint).goOn task (.listing (Listing.add listing row.id name))
      else
        ((world.replaceRow name (some fingerprint)).report world.nextId fingerprint).goOn task
          (.listing (Listing.add listing world.nextId name))
  | none =>
      ((world.replaceRow name (some fingerprint)).report world.nextId fingerprint).goOn task
        (.listing (Listing.add listing world.nextId name))

/-- The transaction of `reserveMcpStack` -/
def storeReservation (world : World) (task : Nat) (name : String) : World :=
  match world.rows.find? (·.name = name) with
  | some ⟨_, _, none⟩ => world.goOn task (.failed "mcpStackReserved")
  | _ => (world.replaceRow name none).goOn task (.reserved world.nextId)

def findReserved (world : World) (id : Nat) : Option Row :=
  world.rows.find? fun row => row.id = id && row.fingerprint.isNone

/-- The rename of the checkout over the directory that was made for it, or over whatever is there now. -/
def rename (world : World) (row : Row) (compose : Bool) : World :=
  { world with
    directories := world.directories.filter (·.name ≠ row.name) ++
      [⟨row.name, world.nextFingerprint, compose, false⟩]
    nextFingerprint := world.nextFingerprint + 1
    published := world.published ++ [⟨row.id, row.name, world.nextFingerprint⟩] }

/-- The update after a clone; that it found no row is not noticed. -/
def bind (world : World) (row : Row) (seen : Nat) : World :=
  match world.findReserved row.id with
  | some _ =>
      { world with
        rows := world.rows.map fun held =>
          if held.id = row.id && held.fingerprint.isNone then { held with fingerprint := some seen } else held
        bound := world.bound ++ [(row.id, seen)] }
  | none => world

/-- A new directory, where none has its name -/
def mkdir (world : World) (name : String) (compose empty : Bool) : World :=
  { world with
    directories := world.directories ++ [⟨name, world.nextFingerprint, compose, empty⟩]
    nextFingerprint := world.nextFingerprint + 1 }

/-- An empty directory is removed. -/
def rmdir (world : World) (name : String) : World :=
  { world with directories := world.directories.filter fun held => !(held.name = name && held.empty) }

def unreserve (world : World) (id : Nat) : World :=
  { world with rows := world.rows.filter fun row => !(row.id = id && row.fingerprint.isNone) }

def keep (world : World) (clone : Published) : World := { world with kept := world.kept ++ [clone] }

/-- The next step of a task. Where what it waits for may fail by itself, `works` says whether it did. -/
def go (world : World) (task : Nat) (works compose : Bool) : World :=
  match world.tasks[task]? with
  | some .reading => world.goOn task (.listing ⟨world.directories.map (·.name), [], world.kept⟩)
  | some (.listing listing) => world.list task listing
  | some (.checking listing name fingerprint) =>
      if (world.lstat name).any (·.compose) then world.goOn task (.storing listing name fingerprint)
      else world.goOn task (.listing listing)
  | some (.storing listing name fingerprint) => world.store task listing name fingerprint
  | some (.reserving name) =>
      if (world.lstat name).isSome then world.goOn task (.failed "mcpStackExists")
      else world.goOn task (.storingReservation name)
  | some (.storingReservation name) => world.storeReservation task name
  | some (.finding id) =>
      if (world.findReserved id).isSome then world.goOn task (.removing id)
      else world.goOn task (.failed "mcpReservationMissing")
  | some (.removing id) =>
      if (world.findReserved id).isSome then
        (world.unreserve id).goOn task .unreserved
      else world.goOn task (.failed "mcpReservationMissing")
  | some (.preparing id) =>
      match world.findReserved id with
      | some row => world.goOn task (.looking row 3)
      | none => world.goOn task (.failed "mcpInvalidReservation")
  | some (.looking row left) =>
      if (world.findReserved row.id).isSome then world.goOn task (.statting row left)
      else world.goOn task (.failed "mcpInvalidReservation")
  | some (.statting row left) =>
      if (world.lstat row.name).isSome then world.goOn task (.failed "mcpInvalidReservation")
      else if left ≤ 1 then world.goOn task (.fetching row)
      else world.goOn task (.looking row (left - 1))
  | some (.fetching row) => if works then world.goOn task (.making row) else world.goOn task (.failed "")
  | some (.making row) =>
      match world.lstat row.name with
      | some _ => world.goOn task (.failed "EEXIST")
      | none => (world.mkdir row.name false true).goOn task (.publishing row)
  | some (.publishing row) =>
      if works && (world.lstat row.name).all (·.empty) then
        (world.rename row compose).goOn task (.cleaning row world.nextFingerprint)
      else (world.rmdir row.name).goOn task (.failed "")
  | some (.cleaning row fingerprint) =>
      match world.lstat row.name with
      | some directory => world.goOn task (.binding row fingerprint directory.fingerprint)
      | none => world.goOn task (.failed "ENOENT")
  | some (.binding row fingerprint seen) => (world.bind row seen).goOn task (.finishing row fingerprint)
  | some (.finishing row fingerprint) =>
      (world.keep ⟨row.id, row.name, fingerprint⟩).goOn task .saved
  | _ => world

end World

/-- What happens next: a call, the next step of one, or a change by others. -/
inductive Happens where
  | synchronize
  | reserve (name : String)
  | unreserve (id : Nat)
  | clone (id : Nat)
  | go (task : Nat) (works compose : Bool)
  | create (name : String) (compose empty : Bool)
  | edit (name : String) (compose empty : Bool)
  | delete (name : String)

def World.begin_ (world : World) (phase : Phase) : World := { world with tasks := world.tasks ++ [phase] }

def step (world : World) : Happens → World
  | .synchronize => world.begin_ .reading
  | .reserve name => world.begin_ (.reserving name)
  | .unreserve id => world.begin_ (.finding id)
  | .clone id => world.begin_ (.preparing id)
  | .go task works compose => world.go task works compose
  | .create name compose empty =>
      if (world.lstat name).isSome then world else world.mkdir name compose empty
  | .edit name compose empty =>
      { world with directories := world.directories.map fun held =>
          if held.name = name then { held with compose := compose, empty := empty } else held }
  | .delete name => { world with directories := world.directories.filter (·.name ≠ name) }

end Dockge.Mcp.Identities
