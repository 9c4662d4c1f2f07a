import Mathlib.Logic.Function.Basic
import Dockge.Data.History

namespace Dockge.Settings

/-! The settings table and the cache in front of it.

Every call gives way at each database statement, and again before it goes on with the answer; a
statement that fails has no effect.  Texts are what the column holds and `parse` is `JSON.parse`.
-/

structure Row (Text : Type) where
  type : Option String
  value : Text
  deriving DecidableEq, Repr

/-- A statement of a write that is not executed yet.  `update` leaves the type alone where it
names none. -/
inductive Statement (Text : Type) where
  | insert (key : String) (row : Row Text)
  | update (key : String) (type : Option (Option String)) (value : Text)
  deriving DecidableEq, Repr

inductive Call (Text : Type) where
  | get (key : String)
  | set (key : String) (type : Option String) (value : Text)
  | setSettings (type : String) (data : List (String × Text))
  deriving DecidableEq, Repr

/-- Where a call is. -/
inductive Stage (Text : Type) where
  /-- `get` has asked for the row. -/
  | reading (key : String)
  | read (key : String) (row : Option (Row Text))
  /-- `set` has asked for the row. -/
  | looking (key : String) (type : Option String) (value : Text)
  | writing (statement : Statement Text)
  /-- `setSettings` has asked for the row of the first key to do. -/
  | listing (keys : List String) (type : String) (toDo : List (String × Text))
      (promises : List (Statement Text))
  /-- `Promise.all`; of the statements of the call these are out and these keys are written. -/
  | saving (keys : List String) (out : List (Statement Text)) (written : List String)
  | clearing (keys : List String)
  | returned
  /-- Statements of `Promise.all` go on when one of them has failed. -/
  | rejected (out : List (Statement Text))
  deriving DecidableEq, Repr

structure State (Text Json : Type) where
  rows : String → Option (Row Text)
  cacheList : String → Option Json
  calls : List (Stage Text)

variable {Text Json : Type}

def Statement.key : Statement Text → String
  | .insert key _ => key
  | .update key _ _ => key

def Statement.value : Statement Text → Text
  | .insert _ row => row.value
  | .update _ _ value => value

/-- What the table holds after a statement; the keys are unique. -/
def Statement.execute (statement : Statement Text) (rows : String → Option (Row Text)) :
    Option (String → Option (Row Text)) :=
  match statement with
  | .insert key row =>
      match rows key with
      | none => some (Function.update rows key (some row))
      | some _ => none
  | .update key type value =>
      match rows key with
      | none => some rows
      | some row => some (Function.update rows key (some { type := type.getD row.type, value := value }))

/-- The names every object answers to; nothing of the cache has them. -/
def inheritedNames : List String :=
  ["constructor", "__defineGetter__", "__defineSetter__", "hasOwnProperty", "__lookupGetter__",
    "__lookupSetter__", "isPrototypeOf", "propertyIsEnumerable", "toString", "valueOf", "__proto__",
    "toLocaleString"]

/-- `key in Settings.cacheList` -/
def State.caches (state : State Text Json) (key : String) : Bool :=
  (state.cacheList key).isSome || key ∈ inheritedNames

/-- `Settings.deleteCache` -/
def State.deleteCache (state : State Text Json) (keys : List String) : State Text Json :=
  { state with cacheList := fun key => if key ∈ keys then none else state.cacheList key }

def State.put (state : State Text Json) (index : Nat) (stage : Stage Text) : State Text Json :=
  { state with calls := state.calls.set index stage }

/-- What a `get` keeps of the row it read. -/
def State.fill (parse : Text → Option Json) (state : State Text Json) (key : String)
    (row : Option (Row Text)) : State Text Json :=
  match row.bind fun row => parse row.value with
  | some value => { state with cacheList := Function.update state.cacheList key (some value) }
  | none => state

/-- `setSettings` goes on to the next key, or starts all its statements. -/
def list (keys : List String) (type : String) (toDo : List (String × Text))
    (promises : List (Statement Text)) : Stage Text :=
  match toDo with
  | [] => .saving keys promises []
  | _ :: _ => .listing keys type toDo promises

/-- The statement `setSettings` prepares for a key; a row of another type stays. -/
def prepare (type : String) (key : String) (value : Text) (setting : Option (Row Text)) :
    List (Statement Text) :=
  match setting with
  | none => [.insert key { type := some type, value := value }]
  | some row => if row.type = some type then [.update key none value] else []

/-- A call up to its first statement. -/
def firstStage (state : State Text Json) : Call Text → Stage Text
  | .get key => if state.caches key then .returned else .reading key
  | .set key type value => .looking key type value
  | .setSettings type data => list (data.map Prod.fst) type data []

/-- A call goes on.  A statement that is out works or fails; `pick` says which one it is. -/
def resume (parse : Text → Option Json) (state : State Text Json) (index : Nat) (stage : Stage Text)
    (pick : Nat) (works : Bool) : State Text Json :=
  match stage with
  | .reading key => state.put index (if works then .read key (state.rows key) else .rejected [])
  | .read key row => (state.fill parse key row).put index .returned
  | .looking key type value =>
      state.put index (if works then
        .writing (match state.rows key with
          | some _ => .update key (some type) value
          | none => .insert key { type := type, value := value })
      else .rejected [])
  | .writing statement =>
      match if works then statement.execute state.rows else none with
      | some rows => { state with rows := rows }.put index (.clearing [statement.key])
      | none => state.put index (.rejected [])
  | .listing keys type toDo promises =>
      match toDo with
      | [] => state
      | (key, value) :: rest =>
          state.put index (if works then
            list keys type rest (promises ++ prepare type key value (state.rows key))
          else .rejected [])
  | .saving keys out written =>
      match out with
      | [] => (state.deleteCache keys).put index .returned
      | _ :: _ =>
          match out[pick]? with
          | none => state
          | some statement =>
              match if works then statement.execute state.rows else none with
              | some rows => { state with rows := rows }.put index
                  (.saving keys (out.eraseIdx pick) (statement.key :: written))
              | none => state.put index (.rejected (out.eraseIdx pick))
  | .clearing keys => (state.deleteCache keys).put index .returned
  | .returned => state
  | .rejected out =>
      match out[pick]? with
      | none => state
      | some statement =>
          match if works then statement.execute state.rows else none with
          | some rows => { state with rows := rows }.put index (.rejected (out.eraseIdx pick))
          | none => state.put index (.rejected (out.eraseIdx pick))

inductive Event (Text : Type) where
  | start (call : Call Text)
  | advance (index : Nat) (pick : Nat) (works : Bool)
  /-- The cleaner finds an entry too old. -/
  | expire (key : String)
  deriving DecidableEq, Repr

def step (parse : Text → Option Json) (state : State Text Json) : Event Text → State Text Json
  | .start call => { state with calls := state.calls ++ [firstStage state call] }
  | .advance index pick works =>
      match state.calls[index]? with
      | some stage => resume parse state index stage pick works
      | none => state
  | .expire key => state.deleteCache [key]

/-- A process that has just started. -/
def initial (rows : String → Option (Row Text)) : State Text Json :=
  { rows := rows, cacheList := fun _ => none, calls := [] }

/-- What `Settings.get` returns. -/
inductive Found (Text Json : Type) where
  | undefined
  | json (value : Json)
  | raw (value : Text)
  deriving DecidableEq, Repr

/-- What a row holds for a reader. -/
def foundIn (parse : Text → Option Json) (row : Option (Row Text)) : Found Text Json :=
  match row with
  | none => .undefined
  | some row =>
      match parse row.value with
      | some value => .json value
      | none => .raw row.value

/-- `Settings.get` of a state that nobody changes meanwhile. -/
def get (parse : Text → Option Json) (state : State Text Json) (key : String) : Found Text Json :=
  if state.caches key then
    match state.cacheList key with
    | some value => .json value
    | none => .undefined
  else foundIn parse (state.rows key)

end Dockge.Settings
