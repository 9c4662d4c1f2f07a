import Dockge.Data.JsonPath

namespace Dockge.Updater.Recorded

open Data

/-! The configuration of the panel as the updater resolves, records and reads it again. -/

/-- The JSON library: what it wrote, it reads as it was. -/
structure Codec (Text : Type) where
  marshal : Json → Text
  unmarshal : Text → Option Json
  read : ∀ value, unmarshal (marshal value) = some value

inductive ConfigError where
  | json
  | said (text : String)
deriving DecidableEq, Repr

/-- A configuration with the one service `dockge` -/
structure ComposeConfig where
  name : String
  dockge : Fields
  extra : Fields

def fieldsOfConfig : Json → Except ConfigError Fields
  | .obj fields => .ok fields
  | .null => .ok []
  | _ => .error .json

def nameOf : Option Json → Except ConfigError String
  | some (.str name) => .ok name
  | none | some .null => .ok ""
  | _ => .error .json

def serviceOf : String × Json → Except ConfigError (String × Option Fields)
  | (name, .obj service) => .ok (name, some service)
  | (name, .null) => .ok (name, none)
  | _ => .error .json

def servicesOf : Option Json → Except ConfigError (List (String × Option Fields))
  | some (.obj services) => services.mapM serviceOf
  | none | some .null => .ok []
  | _ => .error .json

def nameChar (char : Char) : Bool := ('a' ≤ char && char ≤ 'z') || ('0' ≤ char && char ≤ '9')

/-- `^[a-z0-9][a-z0-9_-]*$` -/
def validName (name : String) : Bool :=
  match name.toList with
  | [] => false
  | first :: rest => nameChar first && rest.all fun char => nameChar char || char = '_' || char = '-'

variable {Text : Type}

def parseConfig (codec : Codec Text) (data : Text) : Except ConfigError ComposeConfig := do
  match codec.unmarshal data with
  | none => .error .json
  | some value =>
      let extra ← fieldsOfConfig value
      let name ← nameOf (extra.get "name")
      let services ← servicesOf (extra.get "services")
      match services with
      | [("dockge", some dockge)] =>
          if validName name then .ok { name, dockge, extra }
          else .error (.said "invalid Compose project identity")
      | _ => .error (.said "panel configuration must contain only the dockge service")

/-- Every dollar twice -/
def escapeText (text : List Char) : List Char :=
  match text with
  | [] => []
  | char :: rest => if char = '$' then '$' :: '$' :: escapeText rest else char :: escapeText rest

mutual

def escapeInterpolation : Json → Json
  | .str value => .str (String.ofList (escapeText value.toList))
  | .arr items => .arr (escapeItems items)
  | .obj fields => .obj (escapeFields fields)
  | .null => .null
  | .bool value => .bool value
  | .num value => .num value

def escapeItems : List Json → List Json
  | [] => []
  | item :: rest => escapeInterpolation item :: escapeItems rest

def escapeFields : Fields → Fields
  | [] => []
  | (key, value) :: rest => (key, escapeInterpolation value) :: escapeFields rest

end

/-- The top level of the file, with the service as it is now -/
def ComposeConfig.fields (config : ComposeConfig) : Fields :=
  config.extra.set "services" (.obj [("dockge", .obj config.dockge)])

def configSnapshot (codec : Codec Text) (config : ComposeConfig) (image : String) : Except ConfigError Text :=
  let dockge := config.dockge.set "image" (.str image)
  let dockge := dockge.erase "build"
  let dockge := dockge.set "pull_policy" (.str "never")
  match codec.unmarshal (codec.marshal (.obj { config with dockge }.fields)) with
  | none => .error .json
  | some copy => .ok (codec.marshal (escapeInterpolation copy))

def pinSnapshot (codec : Codec Text) (data : Text) (image : String) : Except ConfigError Text := do
  let config ← parseConfig codec data
  .ok (codec.marshal (.obj { config with dockge := config.dockge.set "image" (.str image) }.fields))

def explicitMount (omitted : Bool) : Json → Json
  | .obj mount =>
      match Fields.get mount "bind" with
      | some (.obj bind) =>
          if (Fields.get bind "create_host_path").isSome then .obj mount
          else .obj (Fields.set mount "bind" (.obj (Fields.set bind "create_host_path" (.bool omitted))))
      | _ => .obj mount
  | mount => mount

def ComposeConfig.explicitBinds (config : ComposeConfig) (omitted : Bool) : ComposeConfig :=
  match config.dockge.get "volumes" with
  | some (.arr mounts) => { config with dockge := config.dockge.set "volumes" (.arr (mounts.map (explicitMount omitted))) }
  | _ => config

def explicitSnapshot (codec : Codec Text) (data : Text) (omitted : Bool) : Except ConfigError Text := do
  let config ← parseConfig codec data
  .ok (codec.marshal (.obj (config.explicitBinds omitted).fields))

/-! ## What Compose reads -/

/-- Two dollars stand for one, and no other is left. -/
def interpolateText : List Char → Option (List Char)
  | [] => some []
  | '$' :: '$' :: rest => (interpolateText rest).map ('$' :: ·)
  | char :: rest => if char = '$' then none else (interpolateText rest).map (char :: ·)

mutual

def interpolate : Json → Option Json
  | .str value => (interpolateText value.toList).map fun text => .str (String.ofList text)
  | .arr items => (interpolateItems items).map .arr
  | .obj fields => (interpolateFields fields).map .obj
  | .null => some .null
  | .bool value => some (.bool value)
  | .num value => some (.num value)

def interpolateItems : List Json → Option (List Json)
  | [] => some []
  | item :: rest => (interpolate item).bind fun item => (interpolateItems rest).map (item :: ·)

def interpolateFields : Fields → Option Fields
  | [] => some []
  | (key, value) :: rest => (interpolate value).bind fun value => (interpolateFields rest).map ((key, value) :: ·)

end

theorem interpolateText_escapeText (text : List Char) : interpolateText (escapeText text) = some text := by
  induction text with
  | nil => rfl
  | cons char rest ih =>
      rw [escapeText]
      split
      next dollar => rw [interpolateText, ih, dollar, Option.map_some]
      next plain =>
        rw [interpolateText, if_neg plain, ih, Option.map_some]
        intro _ same
        exact absurd same plain

mutual

theorem interpolate_escape (value : Json) : interpolate (escapeInterpolation value) = some value := by
  cases value with
  | str text => rw [escapeInterpolation, interpolate, String.toList_ofList, interpolateText_escapeText, Option.map_some, String.ofList_toList]
  | arr items => rw [escapeInterpolation, interpolate, interpolateItems_escape items, Option.map_some]
  | obj fields => rw [escapeInterpolation, interpolate, interpolateFields_escape fields, Option.map_some]
  | null => rfl
  | bool => rfl
  | num => rfl

theorem interpolateItems_escape (items : List Json) : interpolateItems (escapeItems items) = some items := by
  cases items with
  | nil => rfl
  | cons item rest =>
      rw [escapeItems, interpolateItems, interpolate_escape item, Option.bind_some, interpolateItems_escape rest, Option.map_some]

theorem interpolateFields_escape (fields : Fields) : interpolateFields (escapeFields fields) = some fields := by
  match fields with
  | [] => rfl
  | (key, value) :: rest =>
      rw [escapeFields, interpolateFields, interpolate_escape value, Option.bind_some, interpolateFields_escape rest,
        Option.map_some]

end

end Dockge.Updater.Recorded
