import Dockge.DockerRun.Compose
import Dockge.DockerRun.Spelling

namespace Dockge.DockerRun

open Dockge.Data

/-! What a flag does to the service, and what all flags of a command leave at one place of it. -/

inductive Effect where
  /-- A value at the end of a list -/
  | push (path : List String) (value : Json)
  /-- A value in place of the one before -/
  | put (path : List String) (value : Json)
  /-- A value under a key of a map -/
  | enter (path : List String) (key : Text) (value : Json)

namespace Effect

def path : Effect → List String
  | push path _ => path
  | put path _ => path
  | enter path _ _ => path

def change : Effect → Option Json → Json
  | push _ value, old => .arr (itemsOf old ++ [value])
  | put _ value, _ => value
  | enter _ key value, old => .obj (setProperty (fieldsOf old) (String.ofList key) value)

def edit (effect : Effect) : Edit := { path := effect.path, change := effect.change }

def apply (effect : Effect) (service : Fields) : Fields := effect.edit.apply service

end Effect

namespace Handler

def effect : Handler → Text → Option Effect
  | list key, value => some (.push [key] (text value))
  | set path parse, value => (parse value).map (.put path)
  | toggle path, value => if parseSwitch value = some true then some (.put path (.bool true)) else none
  | uncarried _, _ => none
  | keyValue path, value => (keyValueEntry value).map fun (key, entry) => .enter path key entry
  | file key _, value => some (.push [key] (text value))
  | always _, _ => none
  | volume, value => some (.push ["volumes"] (text value))
  | mount, value => (mountEntry value).map fun (entry, _) => .push ["volumes"] (.obj entry)
  | gpus, value => (gpusEntry value).map (.push devicesPath)
  | ulimit, value => (ulimitEntry value).map fun (name, limits) => .enter ["ulimits"] name limits
  | volumesFrom, value => some (.push ["volumes_from"] (text ("container:".toList ++ value)))

/-- The volume a value declares -/
def declared : Handler → Text → Option Text
  | volume, value =>
      match splitOnce ':' value with
      | (source, some _) => if isVolumeName source then some source else none
      | (_, none) => none
  | mount, value => (mountEntry value).bind fun (entry, _) => mountVolume entry
  | _, _ => none

def verdict (handler : Handler) (value : Text) : Verdict := (handler.run value { service := [], volumes := [] }).1

variable (handler : Handler) (value : Text) (draft : Draft)

/-- What came of a flag does not depend on the flags before it, and what it does to the draft is its effect. -/
theorem run_eq :
    handler.run value draft =
      (handler.verdict value,
        { service := (handler.effect value).elim draft.service (·.apply draft.service)
          volumes := (handler.declared value).elim draft.volumes fun name => (declareVolume draft name).volumes }) := by
  cases handler with
  | list | file | volumesFrom | always => rfl
  | uncarried verdict =>
      simp only [run, Handler.verdict, effect, declared]
      cases parseSwitch value <;> rfl
  | set path parse =>
      simp only [run, Handler.verdict, effect, declared]
      cases parse value <;> rfl
  | toggle path =>
      simp only [run, Handler.verdict, effect, declared]
      cases parseSwitch value with
      | none => rfl
      | some isOn => cases isOn <;> rfl
  | keyValue path =>
      simp only [run, Handler.verdict, effect, declared]
      cases keyValueEntry value <;> rfl
  | volume =>
      simp only [run, Handler.verdict, effect, declared]
      cases splitOnce ':' value with
      | mk source target =>
          cases target with
          | none => rfl
          | some target =>
              dsimp only
              cases isVolumeName source <;> rfl
  | mount =>
      simp only [run, Handler.verdict, effect, declared]
      cases mountEntry value with
      | none => rfl
      | some found =>
          simp only [Option.bind_some]
          cases mountVolume found.1 <;> rfl
  | gpus =>
      simp only [run, Handler.verdict, effect, declared]
      cases gpusEntry value <;> rfl
  | ulimit =>
      simp only [run, Handler.verdict, effect, declared]
      cases ulimitEntry value <;> rfl

end Handler

/-! ## Places -/

inductive Kind where
  | list
  | scalar
  | map
deriving DecidableEq, Repr

abbrev Place := Kind × List String

def Effect.kind : Effect → Kind
  | push _ _ => .list
  | put _ _ => .scalar
  | enter _ _ _ => .map

/-- Where the values of a flag go -/
def Handler.place : Handler → Option Place
  | list key => some (.list, [key])
  | set path _ => some (.scalar, path)
  | toggle path => some (.scalar, path)
  | uncarried _ => none
  | keyValue path => some (.map, path)
  | file key _ => some (.list, [key])
  | always _ => none
  | volume => some (.list, ["volumes"])
  | mount => some (.list, ["volumes"])
  | gpus => some (.list, devicesPath)
  | ulimit => some (.map, ["ulimits"])
  | volumesFrom => some (.list, ["volumes_from"])

def Effect.place (effect : Effect) : Place := (effect.kind, effect.path)

theorem Handler.effect_place {handler : Handler} {value : Text} {effect : Effect}
    (found : handler.effect value = some effect) : handler.place = some effect.place := by
  cases handler with
  | list | file | volume | volumesFrom =>
      cases found
      rfl
  | uncarried | always => cases found
  | set path parse =>
      obtain ⟨parsed, -, rfl⟩ := Option.map_eq_some_iff.mp found
      rfl
  | toggle path =>
      simp only [Handler.effect] at found
      split at found
      next =>
        cases found
        rfl
      next => cases found
  | keyValue path =>
      obtain ⟨entry, -, rfl⟩ := Option.map_eq_some_iff.mp found
      rfl
  | mount =>
      obtain ⟨entry, -, rfl⟩ := Option.map_eq_some_iff.mp found
      rfl
  | gpus =>
      obtain ⟨device, -, rfl⟩ := Option.map_eq_some_iff.mp found
      rfl
  | ulimit =>
      obtain ⟨entry, -, rfl⟩ := Option.map_eq_some_iff.mp found
      rfl

def places : List Place := handlerNames.filterMap (·.2.place)

theorem places_pairwise : places.Pairwise fun place other => place = other ∨ PathsApart place.2 other.2 := by
  decide +kernel

theorem places_apart : ∀ place ∈ places, ∀ other ∈ places, place = other ∨ PathsApart place.2 other.2 := by
  have flipped : places.Pairwise (flip fun place other => place = other ∨ PathsApart place.2 other.2) := by
    refine places_pairwise.imp fun {first second} apart => ?_
    obtain same | ⟨left, right⟩ := apart
    · exact .inl same.symm
    · exact .inr ⟨right, left⟩
  intro place member other held
  exact places_pairwise.forall_of_forall_of_flip (fun _ _ => .inl rfl) flipped member held

/-- The keys that other parts of the conversion write -/
def otherKeys : List String := ["image", "networks", "network_mode", "command"]

theorem places_own : ∀ place ∈ places, ∀ key ∈ otherKeys, PathsApart [key] place.2 := by
  decide +kernel

/-! ## All flags of a command -/

/-- The handler of a flag with the value it gets; those of the networks have none. -/
def handled (parsed : ParsedFlag) : Option (Handler × Text) :=
  if canonicalFlag parsed.flag ∈ networkFlagNames then none
  else
    match handlers.lookup (canonicalFlag parsed.flag), valueOf parsed with
    | some handler, some value => some (handler, value)
    | _, _ => none

def effectOf (parsed : ParsedFlag) : Option Effect := (handled parsed).bind fun (handler, value) => handler.effect value

def declaredOf (parsed : ParsedFlag) : Option Text := (handled parsed).bind fun (handler, value) => handler.declared value

/-- What comes of a flag that is not one of the networks -/
def ownVerdict (parsed : ParsedFlag) : Verdict :=
  match handlers.lookup (canonicalFlag parsed.flag), valueOf parsed with
  | none, _ => .unknown
  | some _, none => .notAccepted
  | some handler, some value => handler.verdict value

def isNetwork (parsed : ParsedFlag) : Bool := canonicalFlag parsed.flag ∈ networkFlagNames

theorem handled_place {parsed : ParsedFlag} {handler : Handler} {value : Text} (found : handled parsed = some (handler, value)) :
    ∀ place, handler.place = some place → place ∈ places := by
  intro place placed
  unfold handled at found
  split at found
  next => cases found
  next =>
    split at found
    next found_ _ =>
      cases found
      obtain ⟨entry, listed, same⟩ := List.mem_map.mp (mem_of_lookup found_)
      obtain ⟨-, rfl⟩ := Prod.mk.inj same
      exact List.mem_filterMap.mpr ⟨entry, listed, placed⟩
    next => cases found

theorem effectOf_place {parsed : ParsedFlag} {effect : Effect} (found : effectOf parsed = some effect) :
    effect.place ∈ places := by
  obtain ⟨⟨handler, value⟩, handled_, effect_⟩ := Option.bind_eq_some_iff.mp found
  exact handled_place handled_ _ (Handler.effect_place effect_)

variable {state : Converting} {index : Nat} {parsed : ParsedFlag}

theorem convertFlag_network (network : isNetwork parsed = true) :
    convertFlag state index parsed =
      { state with
        draft := if (state.draft.service.get "networks").isSome then state.draft
          else { state.draft with service := state.draft.service.set "networks" .null }
        networkFlags := state.networkFlags ++ [{ index, flag := canonicalFlag parsed.flag, value := parsed.value }] } := by
  rw [convertFlag]
  exact if_pos (of_decide_eq_true network)

theorem convertFlag_own (own : isNetwork parsed = false) :
    convertFlag state index parsed =
      { state with
        verdicts := (index, ownVerdict parsed) :: state.verdicts
        draft :=
          { service := (effectOf parsed).elim state.draft.service (·.apply state.draft.service)
            volumes := (declaredOf parsed).elim state.draft.volumes fun name => (declareVolume state.draft name).volumes } } := by
  have other : canonicalFlag parsed.flag ∉ networkFlagNames := of_decide_eq_false own
  rw [convertFlag, effectOf, declaredOf, handled, ownVerdict]
  simp only [if_neg other]
  split
  next none_ => simp only [none_, Option.bind_none, Option.elim_none]
  next some_ none_ => simp only [some_, none_, Option.bind_none, Option.elim_none]
  next some_ value_ => simp only [some_, value_, Handler.run_eq, Option.bind_some]

/-- The edits the flags make, in the order of the command -/
def edits (flags : List ParsedFlag) : List Edit := (flags.filterMap effectOf).map Effect.edit

/-- What the flags leave at a place of the service -/
theorem convertFlags_valueAt {path : List String} (state : Converting) (index : Nat) (flags : List ParsedFlag)
    (some_ : path ≠ []) (other : PathsApart ["networks"] path)
    (apart : ∀ edit ∈ edits flags, edit.path = path ∨ PathsApart edit.path path) :
    valueAt (convertFlags state index flags).draft.service path =
      settle (edits flags) path (valueAt state.draft.service path) := by
  induction flags generalizing state index with
  | nil => rfl
  | cons parsed rest ih =>
      rw [convertFlags]
      cases network : isNetwork parsed with
      | true =>
          have none_ : effectOf parsed = none := by
            rw [effectOf, handled, if_pos (of_decide_eq_true network)]
            rfl
          have same : edits (parsed :: rest) = edits rest := by rw [edits, edits, List.filterMap_cons_none none_]
          rw [same] at apart ⊢
          rw [ih _ _ apart, convertFlag_network network]
          dsimp only
          split
          next => rfl
          next =>
            have placed : state.draft.service.set "networks" .null = updateAt state.draft.service ["networks"] fun _ => .null := rfl
            dsimp only
            rw [placed, valueAt_updateAt_other other]
      | false =>
          cases found : effectOf parsed with
          | none =>
              have same : edits (parsed :: rest) = edits rest := by rw [edits, edits, List.filterMap_cons_none found]
              rw [same] at apart ⊢
              rw [ih _ _ apart, convertFlag_own network, found]
              rfl
          | some effect =>
              have more : edits (parsed :: rest) = effect.edit :: edits rest := by
                rw [edits, edits, List.filterMap_cons_some found, List.map_cons]
              rw [more] at apart ⊢
              have alone : ∀ edit ∈ [effect.edit], edit.path = path ∨ PathsApart edit.path path := fun edit member =>
                apart edit (List.mem_singleton.mp member ▸ List.mem_cons_self)
              have one := valueAt_foldl some_ alone state.draft.service
              rw [ih _ _ fun edit member => apart edit (List.mem_cons_of_mem _ member), convertFlag_own network, found]
              have split : settle (effect.edit :: edits rest) path (valueAt state.draft.service path) =
                  settle (edits rest) path (settle [effect.edit] path (valueAt state.draft.service path)) := by
                simp only [settle, ← List.foldl_append, ← List.filter_append, List.singleton_append]
              rw [split, ← one]
              rfl

/-! ## What is left at a place of each kind -/

/-- A list that was begun, once there is something in it -/
def listOf : List Json → Option Json
  | [] => none
  | items => some (.arr items)

theorem itemsOf_listOf (items : List Json) : itemsOf (listOf items) = items := by
  cases items <;> rfl

theorem listOf_append (items : List Json) (value : Json) : listOf (items ++ [value]) = some (.arr (items ++ [value])) := by
  cases items <;> rfl

def Effect.pushed (path : List String) : Effect → Option Json
  | push at_ value => if at_ = path then some value else none
  | _ => none

def Effect.stored (path : List String) : Effect → Option Json
  | put at_ value => if at_ = path then some value else none
  | _ => none

def Effect.entered (path : List String) (key : String) : Effect → Option Json
  | enter at_ name value => if at_ = path ∧ String.ofList name = key then some value else none
  | _ => none

section

variable {path : List String} {effects : List Effect} {effect : Effect}

theorem settle_cons (effect : Effect) (effects : List Effect) (path : List String) (old : Option Json) :
    settle ((effect :: effects).map Effect.edit) path old =
      settle (effects.map Effect.edit) path (if effect.path = path then some (effect.change old) else old) := by
  rw [List.map_cons, settle, settle, List.filter_cons]
  split
  next held =>
    have same : effect.path = path := of_decide_eq_true held
    rw [if_pos same, List.foldl_cons]
    rfl
  next held =>
    have other : effect.path ≠ path := fun same => held (decide_eq_true same)
    rw [if_neg other]

theorem settle_list (lists : ∀ effect ∈ effects, effect.path = path → effect.kind = .list) (items : List Json) :
    settle (effects.map Effect.edit) path (listOf items) = listOf (items ++ effects.filterMap (Effect.pushed path)) := by
  induction effects generalizing items with
  | nil => rw [List.filterMap_nil, List.append_nil]; rfl
  | cons effect effects ih =>
      have others : ∀ other ∈ effects, other.path = path → other.kind = .list := fun other member =>
        lists other (List.mem_cons_of_mem _ member)
      rw [settle_cons]
      by_cases same : effect.path = path
      · have list := lists effect List.mem_cons_self same
        cases effect with
        | push at_ value =>
            have found : (Effect.push at_ value).pushed path = some value := if_pos same
            rw [if_pos same, List.filterMap_cons_some found, Effect.change, itemsOf_listOf, ← listOf_append, ih others,
              List.append_assoc, List.singleton_append]
        | put => cases list
        | enter => cases list
      · have none_ : effect.pushed path = none := by
          cases effect with
          | push at_ value => exact if_neg same
          | put => rfl
          | enter => rfl
        rw [if_neg same, List.filterMap_cons_none none_, ih others]

theorem settle_scalar (scalars : ∀ effect ∈ effects, effect.path = path → effect.kind = .scalar) (old : Option Json) :
    settle (effects.map Effect.edit) path old = (effects.filterMap (Effect.stored path)).getLast?.or old := by
  induction effects generalizing old with
  | nil => rfl
  | cons effect effects ih =>
      have others : ∀ other ∈ effects, other.path = path → other.kind = .scalar := fun other member =>
        scalars other (List.mem_cons_of_mem _ member)
      rw [settle_cons]
      by_cases same : effect.path = path
      · have scalar := scalars effect List.mem_cons_self same
        cases effect with
        | put at_ value =>
            have found : (Effect.put at_ value).stored path = some value := if_pos same
            rw [if_pos same, List.filterMap_cons_some found, ih others, List.getLast?_cons]
            cases (effects.filterMap (Effect.stored path)).getLast? <;> rfl
        | push => cases scalar
        | enter => cases scalar
      · have none_ : effect.stored path = none := by
          cases effect with
          | put at_ value => exact if_neg same
          | push => rfl
          | enter => rfl
        rw [if_neg same, List.filterMap_cons_none none_, ih others]

/-- One key is never made. -/
theorem settle_map (maps : ∀ effect ∈ effects, effect.path = path → effect.kind = .map) (key : String) (old : Option Json) :
    (fieldsOf (settle (effects.map Effect.edit) path old)).get key =
      if key = "__proto__" then (fieldsOf old).get key
      else (effects.filterMap (Effect.entered path key)).getLast?.or ((fieldsOf old).get key) := by
  induction effects generalizing old with
  | nil => simp [settle]
  | cons effect effects ih =>
      have others : ∀ other ∈ effects, other.path = path → other.kind = .map := fun other member =>
        maps other (List.mem_cons_of_mem _ member)
      rw [settle_cons, ih others]
      by_cases same : effect.path = path
      · have map := maps effect List.mem_cons_self same
        cases effect with
        | enter at_ name value =>
            rw [if_pos same, Effect.change, fieldsOf, setProperty]
            by_cases reserved : key = "__proto__"
            · rw [if_pos reserved, if_pos reserved]
              by_cases named : String.ofList name = "__proto__"
              · rw [if_pos named]
              · rw [if_neg named, Fields.get_set, if_neg (fun held => named (held.symm.trans reserved))]
            · rw [if_neg reserved, if_neg reserved]
              by_cases named : String.ofList name = key
              · have found : (Effect.enter at_ name value).entered path key = some value := if_pos ⟨same, named⟩
                rw [List.filterMap_cons_some found, List.getLast?_cons, if_neg (by rw [named]; exact reserved),
                  Fields.get_set, if_pos named.symm]
                cases (effects.filterMap (Effect.entered path key)).getLast? <;> rfl
              · have none_ : (Effect.enter at_ name value).entered path key = none := if_neg (fun both => named both.2)
                rw [List.filterMap_cons_none none_]
                split
                next => rfl
                next => rw [Fields.get_set, if_neg (Ne.symm named)]
        | push => cases map
        | put => cases map
      · have none_ : effect.entered path key = none := by
          cases effect with
          | enter at_ name value => exact if_neg (fun both => same both.1)
          | push => rfl
          | put => rfl
        rw [if_neg same, List.filterMap_cons_none none_]

end

/-! ## The finished service -/

theorem get_append (left right : Fields) (key : String) : Fields.get (left ++ right) key = (left.get key).or (right.get key) := by
  rw [Fields.get, List.lookup_append]
  rfl

def networkKeys : List String := ["networks", "network_mode"]

theorem networkEntry_key {networks : NetworkResult} {key : String} {value : Json}
    (found : networkEntry networks = some (key, value)) : key ∈ networkKeys := by
  unfold networkEntry at found
  split at found
  next =>
    cases found
    decide
  next =>
    split at found
    next => cases found
    next =>
      split at found
      next =>
        cases found
        decide
      next =>
        cases found
        decide

/-- The service keys with the networks at their place -/
def placed (networks : NetworkResult) (service : Fields) : Fields :=
  service.flatMap fun field => if field.1 = "networks" then (networkEntry networks).toList else [field]

theorem placed_get_other (networks : NetworkResult) {key : String} (other : key ∉ networkKeys) (service : Fields) :
    Fields.get (placed networks service) key = service.get key := by
  induction service with
  | nil => rfl
  | cons field rest ih =>
      obtain ⟨name, value⟩ := field
      rw [placed, List.flatMap_cons, get_append, Fields.get_cons]
      have rest_ : Fields.get (rest.flatMap fun field => if field.1 = "networks" then (networkEntry networks).toList else [field])
          key = Fields.get rest key := ih
      rw [rest_]
      by_cases network : name = "networks"
      · have differs : key ≠ name := by
          intro same
          rw [same, network] at other
          exact absurd other (by decide)
        have none_ : Fields.get (networkEntry networks).toList key = none := by
          cases entry : networkEntry networks with
          | none => rfl
          | some found =>
              obtain ⟨own, shown⟩ := found
              have listed := networkEntry_key entry
              have differs : key ≠ own := fun same => other (same ▸ listed)
              simp [Fields.get_cons, differs]
        rw [if_pos network, none_, if_neg differs]
        rfl
      · rw [if_neg network, Fields.get_cons]
        split <;> rfl

theorem serviceOf_valueAt {draft : Draft} {networks : NetworkResult} {args : List Text} {path : List String}
    (own : ∀ key ∈ otherKeys, PathsApart [key] path) (some_ : path ≠ []) :
    valueAt (serviceOf draft networks args) path = valueAt draft.service path := by
  cases path with
  | nil => exact absurd rfl some_
  | cons key rest =>
      have differs : ∀ other ∈ otherKeys, key ≠ other := by
        intro other member same
        exact (own other member).1 (List.cons_prefix_cons.mpr ⟨same.symm, List.nil_prefix⟩)
      have others : key ∉ networkKeys := by
        intro member
        refine differs key ?_ rfl
        simp only [networkKeys, List.mem_cons, List.not_mem_nil, or_false] at member
        obtain rfl | rfl := member
        · decide
        · decide
      have whole := placed_get_other networks others draft.service
      refine valueAt_congr ?_
      unfold serviceOf
      dsimp only
      split
      next => exact whole
      next =>
        have behind : Fields.get [("command", Json.arr (args.map text))] key = none := by
          rw [Fields.get_cons, if_neg (differs "command" (by decide))]
          rfl
        rw [get_append, behind, Option.or_none]
        exact whole

section

variable {flags : List ParsedFlag} {place : Place}

theorem edits_apart (listed : place ∈ places) (flags : List ParsedFlag) :
    ∀ edit ∈ edits flags, edit.path = place.2 ∨ PathsApart edit.path place.2 := by
  intro edit member
  obtain ⟨effect, found, rfl⟩ := List.mem_map.mp member
  obtain ⟨parsed, -, effect_⟩ := List.mem_filterMap.mp found
  obtain same | apart := places_apart effect.place (effectOf_place effect_) place listed
  · exact .inl (congrArg Prod.snd same)
  · exact .inr apart

/-- Every effect at a place is of its kind. -/
theorem effects_kind (listed : place ∈ places) (flags : List ParsedFlag) :
    ∀ effect ∈ flags.filterMap effectOf, effect.path = place.2 → effect.kind = place.1 := by
  intro effect member path
  obtain ⟨parsed, -, effect_⟩ := List.mem_filterMap.mp member
  obtain same | apart := places_apart effect.place (effectOf_place effect_) place listed
  · exact congrArg Prod.fst same
  · exact absurd (path ▸ List.prefix_refl _) apart.1

theorem place_ne (listed : place ∈ places) : place.2 ≠ [] := by
  intro none_
  have apart := places_own place listed "image" (by decide)
  rw [none_] at apart
  exact apart.2 List.nil_prefix

theorem convert_valueAt (listed : place ∈ places) (flags : List ParsedFlag) (image : Text) (args : List Text) :
    valueAt (convert flags image args).service place.2 = settle (edits flags) place.2 none := by
  have own := places_own place listed
  have some_ := place_ne listed
  have start : valueAt [("image", text image)] place.2 = none := by
    cases path : place.2 with
    | nil => exact absurd path some_
    | cons key rest =>
        have differs : key ≠ "image" := by
          intro same
          refine (own "image" (by decide)).1 ?_
          rw [path, same]
          exact List.cons_prefix_cons.mpr ⟨rfl, List.nil_prefix⟩
        have none_ : Fields.get [("image", text image)] key = none := by
          rw [Fields.get_cons, if_neg differs]
          rfl
        have same : Fields.get [("image", text image)] key = Fields.get [] key := none_
        rw [valueAt_congr same, valueAt_nil]
  have settled := convertFlags_valueAt { draft := { service := [("image", text image)], volumes := [] } } 0 flags some_
    (own "networks" (by decide)) (edits_apart listed flags)
  rw [start] at settled
  rw [← settled]
  exact serviceOf_valueAt own some_

end

end Dockge.DockerRun
