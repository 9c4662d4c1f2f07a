import Mathlib
import Dockge.Updater.Recorded

namespace Dockge.Updater.Recorded

open Data

/-! What a recorded configuration means, and what is left of it when it is pinned and made explicit. -/

/-- The name of the file is the one that was checked. -/
def ComposeConfig.Named (config : ComposeConfig) : Prop :=
  nameOf (config.extra.get "name") = .ok config.name ∧ validName config.name = true

variable {Text : Type} {codec : Codec Text} {data file : Text} {config : ComposeConfig} {image : String} {omitted : Bool}

/-- A computation that went through went through in all its steps. -/
theorem ok_of_bind {ε α β : Type} {first : Except ε α} {next : α → Except ε β} {result : β}
    (done : first >>= next = .ok result) : ∃ value, first = .ok value ∧ next value = .ok result := by
  cases first with
  | error reason => cases done
  | ok value => exact ⟨value, rfl, done⟩

theorem ok_of_mapM_cons {ε α β : Type} {f : α → Except ε β} {first : α} {rest : List α} {results : List β}
    (done : (first :: rest).mapM f = .ok results) :
    ∃ result others, f first = .ok result ∧ rest.mapM f = .ok others ∧ results = result :: others := by
  rw [List.mapM_cons] at done
  obtain ⟨result, one, done⟩ := ok_of_bind done
  obtain ⟨others, tail, done⟩ := ok_of_bind done
  cases done
  exact ⟨result, others, one, tail, rfl⟩

theorem serviceOf_ok {field : String × Json} {name : String} {dockge : Fields}
    (decoded : serviceOf field = .ok (name, some dockge)) : field = (name, .obj dockge) := by
  obtain ⟨key, value⟩ := field
  cases value with
  | obj service =>
      cases decoded
      rfl
  | null => cases decoded
  | bool => cases decoded
  | num => cases decoded
  | str => cases decoded
  | arr => cases decoded

theorem servicesOf_ok {value : Option Json} {name : String} {dockge : Fields}
    (decoded : servicesOf value = .ok [(name, some dockge)]) : value = some (.obj [(name, .obj dockge)]) := by
  unfold servicesOf at decoded
  split at decoded
  next services =>
    match services with
    | [] => cases decoded
    | first :: rest =>
        obtain ⟨service, others, one, tail, same⟩ := ok_of_mapM_cons decoded
        cases same
        rw [serviceOf_ok one]
        match rest with
        | [] => rfl
        | next :: more =>
            obtain ⟨_, _, -, -, same⟩ := ok_of_mapM_cons tail
            cases same
  next => cases decoded
  next => cases decoded
  next => cases decoded

theorem fieldsOfConfig_ok {value : Json} {extra : Fields} (decoded : fieldsOfConfig value = .ok extra)
    (some_ : extra ≠ []) : value = .obj extra := by
  cases value with
  | obj fields =>
      cases decoded
      rfl
  | null =>
      cases decoded
      exact absurd rfl some_
  | bool => cases decoded
  | num => cases decoded
  | str => cases decoded
  | arr => cases decoded

theorem parseConfig_ok (parsed : parseConfig codec data = .ok config) :
    config.Named ∧ codec.unmarshal data = some (.obj config.extra) ∧
      config.extra.get "services" = some (.obj [("dockge", .obj config.dockge)]) := by
  unfold parseConfig at parsed
  split at parsed
  next => cases parsed
  next value there =>
    obtain ⟨extra, top, parsed⟩ := ok_of_bind parsed
    obtain ⟨name, named, parsed⟩ := ok_of_bind parsed
    obtain ⟨services, decoded, parsed⟩ := ok_of_bind parsed
    split at parsed
    next dockge =>
      split at parsed
      next valid =>
        cases parsed
        have held := servicesOf_ok decoded
        have some_ : extra ≠ [] := by
          intro none_
          rw [none_] at held
          cases held
        exact ⟨⟨named, valid⟩, by rw [there, fieldsOfConfig_ok top some_], held⟩
      next => cases parsed
    next => cases parsed

/-- What was written is read as it was. -/
theorem parseConfig_written (named : config.Named) :
    parseConfig codec (codec.marshal (.obj config.fields)) = .ok { config with extra := config.fields } := by
  have name : config.fields.get "name" = config.extra.get "name" := by
    rw [ComposeConfig.fields, Fields.get_set, if_neg (by decide)]
  have services : config.fields.get "services" = some (.obj [("dockge", .obj config.dockge)]) := by
    rw [ComposeConfig.fields, Fields.get_set, if_pos rfl]
  unfold parseConfig
  rw [codec.read]
  change (nameOf (config.fields.get "name") >>= _) = _
  rw [name, named.1]
  change (servicesOf (config.fields.get "services") >>= _) = _
  rw [services]
  change (if validName config.name = true then _ else _) = _
  rw [if_pos named.2]

/-- A parsed configuration stands in its file as it is. -/
theorem parseConfig_fields (parsed : parseConfig codec data = .ok config) :
    codec.unmarshal data = some (.obj config.fields) := by
  obtain ⟨-, there, services⟩ := parseConfig_ok parsed
  rw [there, ComposeConfig.fields, Fields.set_get services]

/-! ## Edits of the service -/

def explicitService (omitted : Bool) (dockge : Fields) : Fields :=
  match dockge.get "volumes" with
  | some (.arr mounts) => dockge.set "volumes" (.arr (mounts.map (explicitMount omitted)))
  | _ => dockge

/-- A file is read, its service edited, and it is written again. -/
def edit (codec : Codec Text) (data : Text) (change : Fields → Fields) : Except ConfigError Text :=
  (parseConfig codec data).bind fun config =>
    .ok (codec.marshal (.obj { config with dockge := change config.dockge }.fields))

theorem pinSnapshot_edit : pinSnapshot codec data image = edit codec data (·.set "image" (.str image)) := rfl

theorem explicitBinds_dockge :
    config.explicitBinds omitted = { config with dockge := explicitService omitted config.dockge } := by
  unfold ComposeConfig.explicitBinds explicitService
  cases config.dockge.get "volumes" with
  | none => rfl
  | some value => cases value <;> rfl

theorem explicitSnapshot_edit : explicitSnapshot codec data omitted = edit codec data (explicitService omitted) := by
  unfold explicitSnapshot edit
  cases parseConfig codec data with
  | error reason => rfl
  | ok config =>
      change Except.ok _ = Except.ok _
      rw [explicitBinds_dockge]

theorem edit_ok {change : Fields → Fields} (edited : edit codec data change = .ok file) :
    ∃ config, parseConfig codec data = .ok config ∧
      file = codec.marshal (.obj { config with dockge := change config.dockge }.fields) := by
  obtain ⟨config, parsed, same⟩ := ok_of_bind edited
  cases same
  exact ⟨config, parsed, rfl⟩

/-- Two edits, with the file written and read between them, are one. -/
theorem edit_edit (first second : Fields → Fields) :
    (edit codec data first >>= fun file => edit codec file second) = edit codec data (second ∘ first) := by
  cases parsed : parseConfig codec data with
  | error reason => simp only [edit, parsed, Except.bind, bind]
  | ok config =>
      obtain ⟨named, -, -⟩ := parseConfig_ok parsed
      have again := @parseConfig_written _ codec { config with dockge := first config.dockge } named
      simp only [edit, parsed, Except.bind, bind, again, Function.comp]
      rw [ComposeConfig.fields, ComposeConfig.fields, ComposeConfig.fields, Fields.set_set]

/-- A bind that does not say whether its path is created -/
def Unsaid (mount : Json) (fields bind : Fields) : Prop :=
  mount = .obj fields ∧ fields.get "bind" = some (.obj bind) ∧ bind.get "create_host_path" = none

theorem explicitMount_unsaid {mount : Json} {fields bind : Fields} (unsaid : Unsaid mount fields bind) :
    explicitMount omitted mount = .obj (fields.set "bind" (.obj (bind.set "create_host_path" (.bool omitted)))) := by
  obtain ⟨rfl, there, missing⟩ := unsaid
  rw [explicitMount, there]
  dsimp only
  rw [missing, if_neg (by decide)]

theorem explicitMount_said {mount : Json} (said : ∀ fields bind, ¬ Unsaid mount fields bind) :
    explicitMount omitted mount = mount := by
  unfold explicitMount
  split
  next fields =>
    split
    next bind there =>
      split
      next => rfl
      next missing => exact absurd ⟨rfl, there, Option.not_isSome_iff_eq_none.mp missing⟩ (said fields bind)
    next => rfl
  next => rfl

theorem explicitMount_again (omitted again : Bool) (mount : Json) :
    explicitMount again (explicitMount omitted mount) = explicitMount omitted mount := by
  by_cases missing : ∃ fields bind, Unsaid mount fields bind
  · obtain ⟨fields, bind, unsaid⟩ := missing
    rw [explicitMount_unsaid unsaid]
    apply explicitMount_said
    intro later other ⟨same, there, missing⟩
    cases same
    rw [Fields.get_set, if_pos rfl] at there
    cases there
    rw [Fields.get_set, if_pos rfl] at missing
    cases missing
  · have said : ∀ fields bind, ¬ Unsaid mount fields bind := by
      intro fields bind unsaid
      exact missing ⟨fields, bind, unsaid⟩
    rw [explicitMount_said said, explicitMount_said said]

theorem explicitService_again (omitted again : Bool) (dockge : Fields) :
    explicitService again (explicitService omitted dockge) = explicitService omitted dockge := by
  cases held : dockge.get "volumes" with
  | none => simp only [explicitService, held]
  | some volumes =>
      cases volumes with
      | arr mounts =>
          have all : (mounts.map (explicitMount omitted)).map (explicitMount again) = mounts.map (explicitMount omitted) := by
            rw [List.map_map]
            exact List.map_congr_left fun mount _ => explicitMount_again omitted again mount
          simp only [explicitService, held, Fields.get_set, if_true, all, Fields.set_set]
      | null => simp only [explicitService, held]
      | bool => simp only [explicitService, held]
      | num => simp only [explicitService, held]
      | str => simp only [explicitService, held]
      | obj => simp only [explicitService, held]

theorem explicitService_image (omitted : Bool) (dockge : Fields) (image : String) :
    explicitService omitted (dockge.set "image" (.str image)) = (explicitService omitted dockge).set "image" (.str image) := by
  have kept : (dockge.set "image" (.str image)).get "volumes" = dockge.get "volumes" := by
    rw [Fields.get_set, if_neg (by decide)]
  cases held : dockge.get "volumes" with
  | none => simp only [explicitService, kept, held]
  | some volumes =>
      cases volumes with
      | arr mounts =>
          simp only [explicitService, kept, held]
          exact Fields.set_comm (by decide) (by rw [held]; rfl)
      | null => simp only [explicitService, kept, held]
      | bool => simp only [explicitService, kept, held]
      | num => simp only [explicitService, kept, held]
      | str => simp only [explicitService, kept, held]
      | obj => simp only [explicitService, kept, held]

/-! ## What the files hold -/

/-- The place of a field of the panel's service -/
def place (key : String) : List String := ["services", "dockge", key]

/-- Nothing differs but fields of the panel's service. -/
def SameBut (keys : List String) (before after : Fields) : Prop :=
  ∀ path, (∀ key ∈ keys, PathsApart (place key) path) → valueAt after path = valueAt before path

theorem fields_services : fieldsOf (config.fields.get "services") = [("dockge", .obj config.dockge)] := by
  rw [ComposeConfig.fields, Fields.get_set, if_pos rfl, fieldsOf]

theorem valueAt_service (key : String) (rest : List String) :
    valueAt config.fields ("services" :: "dockge" :: key :: rest) = valueAt config.dockge (key :: rest) := by
  rw [valueAt_cons (List.cons_ne_nil _ _), fields_services, valueAt_cons (List.cons_ne_nil _ _), Fields.get_cons, if_pos rfl, fieldsOf]

theorem valueAt_place (key : String) : valueAt config.fields (place key) = config.dockge.get key :=
  valueAt_service key []

theorem fields_sameBut {keys : List String} {dockge : Fields} (some_ : keys ≠ [])
    (same : ∀ key, key ∉ keys → dockge.get key = config.dockge.get key) :
    SameBut keys config.fields { config with dockge }.fields := by
  intro path apart
  obtain ⟨edited, member⟩ := List.exists_mem_of_ne_nil keys some_
  -- The path leaves the way to the edited fields somewhere, or leads to another field of the service.
  match path with
  | [] => rfl
  | first :: rest =>
      by_cases services : first = "services"
      · subst services
        match rest with
        | [] => exact absurd (List.prefix_append ["services"] ["dockge", edited]) (apart edited member).2
        | second :: rest =>
            by_cases service : second = "dockge"
            · subst service
              match rest with
              | [] => exact absurd (List.prefix_append ["services", "dockge"] [edited]) (apart edited member).2
              | key :: rest =>
                  rw [valueAt_service, valueAt_service]
                  apply valueAt_congr
                  apply same
                  intro held
                  exact (apart key held).1 (List.prefix_append (place key) rest)
            · rw [valueAt_cons (List.cons_ne_nil second rest), valueAt_cons (List.cons_ne_nil second rest), fields_services,
                fields_services]
              apply valueAt_congr
              rw [Fields.get_cons, Fields.get_cons, if_neg service, if_neg service]
      · apply valueAt_congr
        rw [ComposeConfig.fields, ComposeConfig.fields, Fields.get_set, Fields.get_set, if_neg services, if_neg services]

/-- What Compose makes of a file -/
def meaning (codec : Codec Text) (file : Text) : Option Json := (codec.unmarshal file).bind interpolate

theorem configSnapshot_meaning (codec : Codec Text) (config : ComposeConfig) (image : String) :
    ∃ file read, configSnapshot codec config image = .ok file ∧ meaning codec file = some (.obj read) ∧
      SameBut ["image", "build", "pull_policy"] config.fields read ∧
      valueAt read (place "image") = some (.str image) ∧ valueAt read (place "build") = none ∧
      valueAt read (place "pull_policy") = some (.str "never") := by
  have written : ∃ dockge : Fields, dockge = ((config.dockge.set "image" (.str image)).erase "build").set "pull_policy" (.str "never") :=
    ⟨_, rfl⟩
  obtain ⟨dockge, made⟩ := written
  have get (key : String) : dockge.get key = if key = "pull_policy" then some (.str "never") else
      if key = "build" then none else if key = "image" then some (.str image) else config.dockge.get key := by
    rw [made, Fields.get_set, Fields.get_erase, Fields.get_set]
  refine ⟨codec.marshal (escapeInterpolation (.obj { config with dockge }.fields)), { config with dockge }.fields, ?_, ?_, ?_, ?_, ?_, ?_⟩
  · unfold configSnapshot
    dsimp only
    rw [← made, codec.read]
  · rw [meaning, codec.read, Option.bind_some, interpolate_escape]
  · apply fields_sameBut (by decide)
    intro key other
    simp only [List.mem_cons, List.not_mem_nil, or_false, not_or] at other
    rw [get, if_neg other.2.2, if_neg other.2.1, if_neg other.1]
  · rw [valueAt_place, get, if_neg (by decide), if_neg (by decide), if_pos rfl]
  · rw [valueAt_place, get, if_neg (by decide), if_pos rfl]
  · rw [valueAt_place, get, if_pos rfl]

theorem get_escapeFields (fields : Fields) (key : String) :
    (escapeFields fields).get key = (fields.get key).map escapeInterpolation := by
  induction fields with
  | nil => rfl
  | cons field rest ih =>
      obtain ⟨held, value⟩ := field
      rw [escapeFields, Fields.get_cons, Fields.get_cons, ih]
      split
      · rfl
      · rfl

theorem escapeText_plain {text : List Char} (plain : '$' ∉ text) : escapeText text = text := by
  induction text with
  | nil => rfl
  | cons char rest ih =>
      rw [List.mem_cons, not_or] at plain
      rw [escapeText, if_neg (Ne.symm plain.1), ih plain.2]

theorem validName_plain {name : String} (valid : validName name = true) : '$' ∉ name.toList := by
  unfold validName at valid
  split at valid
  next => cases valid
  next first rest chars =>
    rw [Bool.and_eq_true, List.all_eq_true] at valid
    rw [chars]
    intro dollar
    obtain same | member := List.mem_cons.mp dollar
    · rw [← same] at valid
      exact absurd valid.1 (by decide)
    · exact absurd (valid.2 '$' member) (by decide)

/-- A name is escaped as it is. -/
theorem nameOf_escape {value : Option Json} {name : String} (named : nameOf value = .ok name) (plain : '$' ∉ name.toList) :
    nameOf (value.map escapeInterpolation) = .ok name := by
  unfold nameOf at named
  split at named
  next text =>
    cases named
    rw [Option.map_some, escapeInterpolation, escapeText_plain plain, String.ofList_toList]
    rfl
  next =>
    cases named
    rfl
  next =>
    cases named
    rfl
  next => cases named

/-- A recorded file is a configuration of the panel again. -/
theorem configSnapshot_parsed (named : config.Named) (written : configSnapshot codec config image = .ok file) :
    ∃ recorded, parseConfig codec file = .ok recorded := by
  unfold configSnapshot at written
  dsimp only at written
  generalize ((config.dockge.set "image" (.str image)).erase "build").set "pull_policy" (.str "never") = dockge at written
  rw [codec.read] at written
  cases written
  have name : nameOf ((escapeFields { config with dockge }.fields).get "name") = .ok config.name := by
    rw [get_escapeFields, ComposeConfig.fields, Fields.get_set, if_neg (by decide)]
    exact nameOf_escape named.1 (validName_plain named.2)
  have services : (escapeFields { config with dockge }.fields).get "services" =
      some (.obj [("dockge", .obj (escapeFields dockge))]) := by
    rw [get_escapeFields, ComposeConfig.fields, Fields.get_set, if_pos rfl, Option.map_some, escapeInterpolation,
      escapeFields, escapeInterpolation, escapeFields]
  refine ⟨⟨config.name, escapeFields dockge, escapeFields { config with dockge }.fields⟩, ?_⟩
  unfold parseConfig
  rw [codec.read, escapeInterpolation]
  change (nameOf (Fields.get (escapeFields { config with dockge }.fields) "name") >>= _) = _
  rw [name]
  change (servicesOf (Fields.get (escapeFields { config with dockge }.fields) "services") >>= _) = _
  rw [services]
  change (if validName config.name = true then _ else _) = _
  rw [if_pos named.2]

/-! ## Pinned and made explicit -/

/-- One mount, and what is made of it: only a bind that says nothing is told whether its path is created. -/
def MountExplicit (omitted : Bool) (before after : Json) : Prop :=
  (∃ fields bind, Unsaid before fields bind ∧
    after = .obj (fields.set "bind" (.obj (bind.set "create_host_path" (.bool omitted))))) ∨
  (∀ fields bind, ¬ Unsaid before fields bind) ∧ after = before

/-- The mounts of a service, and what is made of them -/
def MadeExplicit (omitted : Bool) (before after : Option Json) : Prop :=
  (∃ mounts made, before = some (.arr mounts) ∧ after = some (.arr made) ∧ List.Forall₂ (MountExplicit omitted) mounts made) ∨
  after = before

theorem explicitMount_explicit (omitted : Bool) (mount : Json) : MountExplicit omitted mount (explicitMount omitted mount) := by
  by_cases missing : ∃ fields bind, Unsaid mount fields bind
  · obtain ⟨fields, bind, unsaid⟩ := missing
    exact .inl ⟨fields, bind, unsaid, explicitMount_unsaid unsaid⟩
  · have said : ∀ fields bind, ¬ Unsaid mount fields bind := by
      intro fields bind unsaid
      exact missing ⟨fields, bind, unsaid⟩
    exact .inr ⟨said, explicitMount_said said⟩

theorem explicitService_made (omitted : Bool) (dockge : Fields) :
    MadeExplicit omitted (dockge.get "volumes") ((explicitService omitted dockge).get "volumes") := by
  unfold explicitService
  split
  next mounts there =>
    refine .inl ⟨mounts, mounts.map (explicitMount omitted), there, ?_, ?_⟩
    · rw [Fields.get_set, if_pos rfl]
    · rw [List.forall₂_map_right_iff, List.forall₂_same]
      intro mount _
      exact explicitMount_explicit omitted mount
  next => exact .inr rfl

theorem explicitService_get {key : String} (other : key ≠ "volumes") (omitted : Bool) (dockge : Fields) :
    (explicitService omitted dockge).get key = dockge.get key := by
  unfold explicitService
  split
  next => rw [Fields.get_set, if_neg other]
  next => rfl

/-- Of a configuration that can be read, one edit changes some fields of the service. -/
theorem edit_only (codec : Codec Text) {change : Fields → Fields} {keys : List String} (some_ : keys ≠ [])
    (same : ∀ dockge key, key ∉ keys → (change dockge).get key = dockge.get key) (parsed : parseConfig codec data = .ok config) :
    ∃ file after, edit codec data change = .ok file ∧ codec.unmarshal file = some (.obj after) ∧
      SameBut keys config.fields after ∧ ∀ key, valueAt after (place key) = (change config.dockge).get key := by
  refine ⟨codec.marshal (.obj { config with dockge := change config.dockge }.fields),
    { config with dockge := change config.dockge }.fields, ?_, codec.read _, ?_, fun key => valueAt_place key⟩
  · rw [edit, parsed]
    rfl
  · exact fields_sameBut some_ (same config.dockge)

end Dockge.Updater.Recorded
