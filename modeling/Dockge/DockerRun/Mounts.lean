import Dockge.DockerRun.Compose
import Dockge.DockerRun.Spelling

namespace Dockge.DockerRun

open Dockge.Data

/-! Which options of a mount its entry shows. -/

abbrev Options := List (String × Option Text)

def longSyntaxKeys : List String := ["type", "source", "target", "consistency", "read_only", "volume", "bind", "tmpfs"]

def optionPlaces : List (String × List String) :=
  [("type", ["type"]), ("source", ["source"]), ("src", ["source"]), ("target", ["target"]), ("destination", ["target"]),
    ("dst", ["target"]), ("consistency", ["consistency"]), ("readonly", ["read_only"]), ("ro", ["read_only"]),
    ("volume-nocopy", ["volume", "nocopy"]), ("bind-propagation", ["bind", "propagation"]), ("tmpfs-size", ["tmpfs", "size"])]

/-- Where the long syntax has an option of docker -/
def optionPlace (key : String) : Option (List String) := optionPlaces.lookup key

/-- The value an option has there; a mount that is not read-only has none. -/
def optionSays (option : String × Option Text) : Option Json :=
  if option.1 ∈ ["readonly", "ro"] then
    if parseSwitch (option.2.getD "true".toList) = some true then some (.bool true) else none
  else if option.1 = "volume-nocopy" then (parseSwitch (option.2.getD "true".toList)).map .bool
  else if option.1 = "tmpfs-size" then option.2.map fun value => ((integer value).map .num).getD (text value)
  else option.2.map text

/-- What the options for one place say, in their order -/
def saidAt (place : List String) (options : Options) : List (Option Json) :=
  options.filterMap fun option => if optionPlace option.1 = some place then some (optionSays option) else none

/-- Every option is in the entry as the last one of its place says, and the entry has the keys of the long syntax only. -/
def MountShown (options : Options) (entry : Fields) : Prop :=
  (∀ key ∈ entry.keys, key ∈ longSyntaxKeys) ∧
    ∀ option ∈ options, ∃ place, optionPlace option.1 = some place ∧
      valueAt entry place = (saidAt place options).getLast?.join

/-- Keys that every object answers, and a mount that is made writable again -/
def PlainOptions (options : Options) : Prop :=
  (∀ option ∈ options, option.1 ≠ "constructor" ∧ option.1 ≠ "__proto__") ∧
    ((saidAt ["read_only"] options).getLast? = some none → ∀ said ∈ saidAt ["read_only"] options, said = none)

/-! ## What an option writes -/

def entryWrite (option : String × Option Text) : Option (String × Json) :=
  if option.1 ∈ ["readonly", "ro", "volume-nocopy"] then
    if option.1 ≠ "volume-nocopy" ∧ parseSwitch (option.2.getD "true".toList) = some true then some ("read_only", .bool true)
    else none
  else
    match option.2, mountKey option.1 with
    | some value, some target => some (target, text value)
    | _, _ => none

def nestedWrite (option : String × Option Text) : Option (String × Json) :=
  if option.1 = "volume-nocopy" then
    (parseSwitch (option.2.getD "true".toList)).map fun isOn => ("volume", .obj [("nocopy", .bool isOn)])
  else if option.1 = "bind-propagation" then option.2.map fun value => ("bind", .obj [("propagation", text value)])
  else if option.1 = "tmpfs-size" then
    option.2.map fun value => ("tmpfs", .obj [("size", ((integer value).map .num).getD (text value))])
  else none

theorem mountKey_cases (key : String) :
    key = "constructor" ∨ key = "__proto__" ∨ mountKey key = none ∨
      ∃ target, mountKey key = some target ∧ optionPlace key = some [target] ∧ target ∈ longSyntaxKeys ∧
        target ∈ ["type", "source", "target", "consistency"] ∧
        key ∈ ["type", "source", "src", "target", "destination", "dst", "consistency"] := by
  by_cases constructor : key = "constructor"
  · exact .inl constructor
  · by_cases proto : key = "__proto__"
    · exact .inr (.inl proto)
    · refine .inr (.inr ?_)
      cases found : mountKey key with
      | none => exact .inl rfl
      | some target =>
          rw [mountKey, if_neg constructor, if_neg proto] at found
          have listed := mem_of_lookup found
          simp only [List.mem_cons, Prod.mk.injEq, List.not_mem_nil, or_false] at listed
          refine .inr ⟨target, rfl, ?_⟩
          obtain ⟨rfl, rfl⟩ | ⟨rfl, rfl⟩ | ⟨rfl, rfl⟩ | ⟨rfl, rfl⟩ | ⟨rfl, rfl⟩ | ⟨rfl, rfl⟩ | ⟨rfl, rfl⟩ := listed
          all_goals decide +kernel

/-- Docker reads the option, and there is a key for it. -/
def optionTaken (option : String × Option Text) : Bool :=
  if option.1 ∈ ["readonly", "ro", "volume-nocopy"] then (parseSwitch (option.2.getD "true".toList)).isSome
  else option.2.isSome && ((mountKey option.1).isSome || option.1 ∈ ["bind-propagation", "tmpfs-size"])

section

variable {mount : MountEntry} {option : String × Option Text}

theorem mountKey_nested : mountKey "bind-propagation" = none ∧ mountKey "tmpfs-size" = none := by
  decide +kernel

theorem mountOption_taken (taken : optionTaken option = true) :
    mountOption mount option.1 option.2 =
      ({ entry := mount.entry.setAll (entryWrite option).toList, nested := mount.nested.setAll (nestedWrite option).toList },
        .carried) := by
  obtain ⟨key, value⟩ := option
  unfold optionTaken at taken
  unfold mountOption entryWrite nestedWrite
  dsimp only at taken ⊢
  split at taken
  next switch =>
    rw [if_pos switch, if_pos switch]
    obtain ⟨isOn, parsed⟩ := Option.isSome_iff_exists.mp taken
    simp only [parsed]
    by_cases nocopy : key = "volume-nocopy"
    · simp [nocopy, Fields.setAll]
    · have bind : key ≠ "bind-propagation" := by
        intro same
        rw [same] at switch
        exact absurd switch (by decide)
      have size : key ≠ "tmpfs-size" := by
        intro same
        rw [same] at switch
        exact absurd switch (by decide)
      cases isOn <;> simp [nocopy, bind, size, Fields.setAll]
  next valued =>
    rw [if_neg valued, if_neg valued]
    obtain ⟨given, known⟩ := Bool.and_eq_true_iff.mp taken
    obtain ⟨value, rfl⟩ := Option.isSome_iff_exists.mp given
    have nocopy : key ≠ "volume-nocopy" := fun same => valued (by rw [same]; decide)
    cases target : mountKey key with
    | some target =>
        have bind : key ≠ "bind-propagation" := by
          intro same
          rw [same, mountKey_nested.1] at target
          cases target
        have size : key ≠ "tmpfs-size" := by
          intro same
          rw [same, mountKey_nested.2] at target
          cases target
        simp [nocopy, bind, size, Fields.setAll]
    | none =>
        rw [target] at known
        by_cases bind : key = "bind-propagation"
        · simp [bind, Fields.setAll]
        · have size : key = "tmpfs-size" := by simpa [bind] using known
          simp [size, Fields.setAll]

theorem mountOption_other (other : optionTaken option = false) : (mountOption mount option.1 option.2).2 ≠ .carried := by
  obtain ⟨key, value⟩ := option
  unfold optionTaken at other
  unfold mountOption
  dsimp only at other ⊢
  split at other
  next switch =>
    rw [if_pos switch, Option.isNone_iff_eq_none.mp (Option.isSome_eq_false_iff.mp other)]
    nofun
  next valued =>
    rw [if_neg valued]
    cases value with
    | none => nofun
    | some value =>
        cases target : mountKey key with
        | some => simp [target] at other
        | none =>
            have others : key ≠ "bind-propagation" ∧ key ≠ "tmpfs-size" := by simpa [target] using other
            simp [others]

theorem setAll_append (fields first second : Fields) : fields.setAll (first ++ second) = (fields.setAll first).setAll second :=
  List.foldl_append

theorem filterMap_toList {α β : Type} (f : α → Option β) (first : α) (rest : List α) :
    (first :: rest).filterMap f = (f first).toList ++ rest.filterMap f := by
  cases found : f first with
  | none => rw [List.filterMap_cons_none found]; rfl
  | some => rw [List.filterMap_cons_some found]; rfl

/-- Without a lost or refused option all of them are in the entry. -/
theorem mountFields_carried_iff (mount result : MountEntry) (lost : Bool) (options : Options) :
    mountFields mount lost options = some (result, false) ↔
      lost = false ∧ (∀ option ∈ options, optionTaken option = true) ∧
        result = { entry := mount.entry.setAll (options.filterMap entryWrite),
                   nested := mount.nested.setAll (options.filterMap nestedWrite) } := by
  induction options generalizing mount lost with
  | nil =>
      constructor
      · intro found
        cases found
        exact ⟨rfl, nofun, rfl⟩
      · intro all
        obtain ⟨rfl, -, rfl⟩ := all
        rfl
  | cons option rest ih =>
      obtain ⟨key, value⟩ := option
      cases taken : optionTaken (key, value) with
      | true =>
          have written := @mountOption_taken mount _ taken
          dsimp only at written
          rw [mountFields, written]
          dsimp only
          rw [ih]
          simp only [filterMap_toList, setAll_append, List.forall_mem_cons, taken, true_and]
          simp
      | false =>
          have other := @mountOption_other mount _ taken
          have never : ¬ ∀ option ∈ (key, value) :: rest, optionTaken option = true := by
            intro all
            rw [all _ List.mem_cons_self] at taken
            cases taken
          refine ⟨fun found => ?_, fun all => absurd all.2.1 never⟩
          rw [mountFields] at found
          cases outcome : mountOption mount key value with
          | mk next result_ =>
              dsimp only at other
              rw [outcome] at found other
              cases result_ with
              | carried => exact absurd rfl other
              | refused => cases found
              | lost =>
                  dsimp only at found
                  have := (ih next _).mp found
                  simp at this

end

/-! ## What the entry shows -/

/-- An option that is read is under the key of its place, in the entry or in a section of it. -/
structure Writes (option : String × Option Text) (place : List String) : Prop where
  placed : optionPlace option.1 = some place
  shape : (∃ key ∈ longSyntaxKeys, place = [key] ∧ entryWrite option = (optionSays option).map (key, ·) ∧
      nestedWrite option = none) ∨
    ∃ section_ ∈ ["volume", "bind", "tmpfs"], ∃ name, place = [section_, name] ∧ entryWrite option = none ∧
      nestedWrite option = (optionSays option).map fun said => (section_, .obj [(name, said)])
  said : place ≠ ["read_only"] → (optionSays option).isSome

def plainKey (key : String) : Prop := key ≠ "constructor" ∧ key ≠ "__proto__"

def takenKeys : List String := optionPlaces.map Prod.fst

theorem optionTaken_key {option : String × Option Text} (taken : optionTaken option = true) (plain : plainKey option.1) :
    option.1 ∈ takenKeys := by
  obtain ⟨key, value⟩ := option
  unfold optionTaken at taken
  dsimp only at taken plain ⊢
  split at taken
  next switch =>
    simp only [List.mem_cons, List.not_mem_nil, or_false] at switch
    obtain rfl | rfl | rfl := switch
    · decide
    · decide
    · decide
  next =>
    obtain ⟨-, known⟩ := Bool.and_eq_true_iff.mp taken
    obtain constructor_ | proto | none_ | ⟨target, -, -, -, -, listed⟩ := mountKey_cases key
    · exact absurd constructor_ plain.1
    · exact absurd proto plain.2
    · have nested : key ∈ ["bind-propagation", "tmpfs-size"] := by simpa [none_] using known
      simp only [List.mem_cons, List.not_mem_nil, or_false] at nested
      obtain rfl | rfl := nested
      · decide
      · decide
    · simp only [List.mem_cons, List.not_mem_nil, or_false] at listed
      obtain rfl | rfl | rfl | rfl | rfl | rfl | rfl := listed
      all_goals decide

theorem mountKey_targets : ∀ pair ∈ [("type", "type"), ("source", "source"), ("src", "source"), ("target", "target"),
    ("destination", "target"), ("dst", "target"), ("consistency", "consistency")],
    mountKey pair.1 = some pair.2 ∧ optionPlace pair.1 = some [pair.2] ∧ pair.2 ∈ longSyntaxKeys ∧
      pair.1 ∉ ["readonly", "ro", "volume-nocopy"] ∧ pair.1 ∉ ["volume-nocopy", "bind-propagation", "tmpfs-size"] := by
  decide +kernel

theorem option_writes {option : String × Option Text} (taken : optionTaken option = true) (plain : plainKey option.1) :
    ∃ place, Writes option place := by
  have known := optionTaken_key taken plain
  obtain ⟨key, value⟩ := option
  have entry_ (target : String) (listed : (key, target) ∈ [("type", "type"), ("source", "source"), ("src", "source"), ("target", "target"),
      ("destination", "target"), ("dst", "target"), ("consistency", "consistency")]) : ∃ place, Writes (key, value) place := by
    obtain ⟨target_, place, long, valued, flat⟩ := mountKey_targets _ listed
    dsimp only at target_ place long valued flat
    simp only [List.mem_cons, List.not_mem_nil, or_false, not_or] at valued flat
    obtain ⟨text_, rfl⟩ : ∃ text_, value = some text_ := by
      simp only [optionTaken, List.mem_cons, valued, List.not_mem_nil, or_false, if_false, Bool.and_eq_true] at taken
      exact Option.isSome_iff_exists.mp taken.1
    have shown : optionSays (key, some text_) = some (text text_) := by simp [optionSays, valued, flat]
    refine ⟨[target], place, .inl ⟨target, long, rfl, ?_, ?_⟩, fun _ => by rw [shown]; rfl⟩
    · simp [entryWrite, valued, target_, shown]
    · simp [nestedWrite, flat]
  simp only [takenKeys, optionPlaces, List.map_cons, List.map_nil, List.mem_cons, List.not_mem_nil, or_false] at known
  obtain rfl | rfl | rfl | rfl | rfl | rfl | rfl | rfl | rfl | rfl | rfl | rfl := known
  · exact entry_ "type" (by decide)
  · exact entry_ "source" (by decide)
  · exact entry_ "source" (by decide)
  · exact entry_ "target" (by decide)
  · exact entry_ "target" (by decide)
  · exact entry_ "target" (by decide)
  · exact entry_ "consistency" (by decide)
  · refine ⟨["read_only"], rfl, .inl ⟨"read_only", by decide, rfl, ?_, rfl⟩, fun other => absurd rfl other⟩
    simp only [entryWrite, optionSays]
    split <;> simp_all
  · refine ⟨["read_only"], rfl, .inl ⟨"read_only", by decide, rfl, ?_, rfl⟩, fun other => absurd rfl other⟩
    simp only [entryWrite, optionSays]
    split <;> simp_all
  · refine ⟨["volume", "nocopy"], rfl, .inr ⟨"volume", by decide, "nocopy", rfl, rfl, ?_⟩, fun _ => ?_⟩
    · simp [nestedWrite, optionSays, Function.comp_def]
    · simpa [optionTaken, optionSays] using taken
  · obtain ⟨text_, rfl⟩ : ∃ text_, value = some text_ := by simpa [optionTaken, Option.isSome_iff_exists] using taken
    exact ⟨["bind", "propagation"], rfl, .inr ⟨"bind", by decide, "propagation", rfl, by simp [entryWrite, mountKey_nested], rfl⟩,
      fun _ => rfl⟩
  · obtain ⟨text_, rfl⟩ : ∃ text_, value = some text_ := by simpa [optionTaken, Option.isSome_iff_exists] using taken
    exact ⟨["tmpfs", "size"], rfl, .inr ⟨"tmpfs", by decide, "size", rfl, by simp [entryWrite, mountKey_nested], rfl⟩,
      fun _ => rfl⟩

section

variable {options : Options}

/-- Without a value that is the last but not the first, the values there are end as the values do. -/
theorem getLast?_join {α : Type} (values : List (Option α)) :
    (values.filterMap id).getLast? = values.getLast?.join ↔
      (values.getLast? = some none → ∀ value ∈ values, value = none) := by
  obtain rfl | ⟨init, last, rfl⟩ := values.eq_nil_or_concat
  · simp
  · cases last with
    | some => simp
    | none => simp [List.filterMap_append, or_imp]

theorem saidAt_filterMap (place : List String) (options : Options) :
    (saidAt place options).filterMap id =
      options.filterMap fun option => if optionPlace option.1 = some place then optionSays option else none := by
  rw [saidAt, List.filterMap_filterMap]
  refine List.filterMap_congr fun option _ => ?_
  split <;> rfl

theorem written_entry (plain : ∀ option ∈ options, optionTaken option = true ∧ plainKey option.1) (key : String) :
    Fields.written (options.filterMap entryWrite) key = (saidAt [key] options).filterMap id := by
  rw [Fields.written, List.filterMap_filterMap, saidAt_filterMap]
  refine List.filterMap_congr fun option member => ?_
  obtain ⟨taken, plain⟩ := plain option member
  obtain ⟨place, writes⟩ := option_writes taken plain
  rw [writes.placed]
  obtain ⟨own, -, rfl, entry, -⟩ | ⟨section_, -, name, rfl, entry, -⟩ := writes.shape
  · rw [entry]
    by_cases same : own = key
    · subst same
      cases optionSays option <;> simp
    · cases optionSays option <;> simp [same]
  · simp [entry]

theorem sections_one : ∀ first ∈ optionPlaces, ∀ second ∈ optionPlaces, first.2.length = 2 → second.2.length = 2 →
    first.2.head? = second.2.head? → first.2 = second.2 := by
  decide

theorem written_nested {first name : String} (listed : [first, name] ∈ optionPlaces.map Prod.snd)
    (plain : ∀ option ∈ options, optionTaken option = true ∧ plainKey option.1) :
    Fields.written (options.filterMap nestedWrite) first =
      ((saidAt [first, name] options).filterMap id).map fun said => .obj [(name, said)] := by
  rw [Fields.written, List.filterMap_filterMap, saidAt_filterMap, List.map_filterMap]
  refine List.filterMap_congr fun option member => ?_
  obtain ⟨taken, plain⟩ := plain option member
  obtain ⟨place, writes⟩ := option_writes taken plain
  rw [writes.placed]
  obtain ⟨own, -, rfl, -, nested⟩ | ⟨section_, -, own, rfl, -, nested⟩ := writes.shape
  · simp [nested]
  · rw [nested]
    by_cases same : section_ = first
    · subst same
      obtain ⟨entry, held, path⟩ := List.mem_map.mp listed
      have both := sections_one entry held _ (mem_of_lookup writes.placed) (by rw [path]; rfl) rfl (by rw [path]; rfl)
      rw [path] at both
      obtain ⟨-, both⟩ := List.cons.inj both
      obtain ⟨rfl, -⟩ := List.cons.inj both
      cases optionSays option <;> simp
    · have differs : ¬ some [section_, own] = some [first, name] := by simp [same]
      cases optionSays option <;> simp [same]

end

/-! ## The whole entry -/

section

variable {options : Options} {entry : Fields}

def writtenEntry (options : Options) : Fields :=
  (Fields.setAll [("type", .str "volume")] (options.filterMap entryWrite)).setAll
    (Fields.setAll [] (options.filterMap nestedWrite))

theorem writtenEntry_get (options : Options) (key : String) :
    (writtenEntry options).get key =
      (Fields.written (options.filterMap nestedWrite) key).getLast?.or
        ((Fields.written (options.filterMap entryWrite) key).getLast?.or (Fields.get [("type", .str "volume")] key)) := by
  have distinct : (Fields.setAll [] (options.filterMap nestedWrite)).keys.Nodup := @Fields.nodup_setAll [] List.nodup_nil _
  rw [writtenEntry, Fields.get_setAll_distinct distinct, Fields.get_setAll, Fields.get_setAll]
  cases (Fields.written (options.filterMap nestedWrite) key).getLast? <;> rfl

theorem saidAt_mem {option : String × Option Text} {place : List String} (member : option ∈ options)
    (placed : optionPlace option.1 = some place) : optionSays option ∈ saidAt place options :=
  List.mem_filterMap.mpr ⟨option, member, if_pos placed⟩

theorem saidAt_of_mem {place : List String} {said : Option Json} (member : said ∈ saidAt place options) :
    ∃ option ∈ options, optionPlace option.1 = some place ∧ optionSays option = said := by
  obtain ⟨option, listed, found⟩ := List.mem_filterMap.mp member
  split at found
  next placed =>
    cases found
    exact ⟨option, listed, placed, rfl⟩
  next => cases found

theorem places_flat : ∀ first ∈ optionPlaces, ∀ second ∈ optionPlaces, first.2.length = 1 → second.2.length = 2 →
    first.2.head? ≠ second.2.head? := by
  decide

variable (plain : ∀ option ∈ options, optionTaken option = true ∧ plainKey option.1)
include plain

theorem nested_empty {key : String} {option : String × Option Text} (placed : optionPlace option.1 = some [key]) :
    Fields.written (options.filterMap nestedWrite) key = [] := by
  refine List.filterMap_eq_nil_iff.mpr fun write member => ?_
  obtain ⟨other, listed, found⟩ := List.mem_filterMap.mp member
  obtain ⟨place, writes⟩ := option_writes (plain other listed).1 (plain other listed).2
  obtain ⟨own, -, -, -, nested⟩ | ⟨section_, -, own, rfl, -, nested⟩ := writes.shape
  · rw [nested] at found
    cases found
  · rw [nested] at found
    obtain ⟨said, -, rfl⟩ := Option.map_eq_some_iff.mp found
    have differs := places_flat _ (mem_of_lookup placed) _ (mem_of_lookup writes.placed) rfl rfl
    exact if_neg fun same => differs (congrArg some same.symm)

theorem writtenEntry_valueAt {option : String × Option Text} {place : List String} (member : option ∈ options)
    (placed : optionPlace option.1 = some place) :
    valueAt (writtenEntry options) place = ((saidAt place options).filterMap id).getLast? := by
  obtain ⟨place_, writes⟩ := option_writes (plain option member).1 (plain option member).2
  obtain rfl : place_ = place := Option.some.inj (writes.placed.symm.trans placed)
  have some_ : place_ ≠ ["read_only"] → (saidAt place_ options).filterMap id ≠ [] := by
    intro other none_
    obtain ⟨said, shown⟩ := Option.isSome_iff_exists.mp (writes.said other)
    have listed : said ∈ (saidAt place_ options).filterMap id :=
      List.mem_filterMap.mpr ⟨some said, shown ▸ saidAt_mem member placed, rfl⟩
    rw [none_] at listed
    cases listed
  obtain ⟨key, -, rfl, -, -⟩ | ⟨section_, -, name, rfl, -, -⟩ := writes.shape
  · rw [valueAt, writtenEntry_get, nested_empty plain placed, written_entry plain]
    cases last : ((saidAt [key] options).filterMap id).getLast? with
    | some => rfl
    | none =>
        have readOnly : key = "read_only" := by
          by_contra other
          exact some_ (fun same => other (List.cons.inj same).1) (List.getLast?_eq_none_iff.mp last)
        rw [readOnly]
        rfl
  · rw [valueAt_cons (List.cons_ne_nil _ _), valueAt, writtenEntry_get,
      written_nested (List.mem_map.mpr ⟨_, mem_of_lookup placed, rfl⟩) plain, List.getLast?_map]
    have more := some_ (by simp)
    cases last : ((saidAt [section_, name] options).filterMap id).getLast? with
    | some => simp [fieldsOf, Fields.get_cons]
    | none => exact absurd (List.getLast?_eq_none_iff.mp last) more

theorem writtenEntry_keys : ∀ key ∈ (writtenEntry options).keys, key ∈ longSyntaxKeys := by
  intro key member
  have held := Fields.mem_keys_iff.mp member
  rw [writtenEntry_get] at held
  have ofWrite {writes : Fields} (long : ∀ write ∈ writes, write.1 ∈ longSyntaxKeys)
      (found : (Fields.written writes key).getLast? ≠ none) : key ∈ longSyntaxKeys := by
    obtain ⟨value, last⟩ := Option.ne_none_iff_exists'.mp found
    obtain ⟨write, listed, same⟩ := List.mem_filterMap.mp (List.mem_of_getLast? last)
    split at same
    next own => exact own ▸ long write listed
    next => cases same
  have entries : ∀ write ∈ options.filterMap entryWrite, write.1 ∈ longSyntaxKeys := by
    intro write listed
    obtain ⟨option, held, found⟩ := List.mem_filterMap.mp listed
    obtain ⟨place, writes⟩ := option_writes (plain option held).1 (plain option held).2
    obtain ⟨own, long, -, entry, -⟩ | ⟨-, -, -, -, entry, -⟩ := writes.shape
    · rw [entry] at found
      obtain ⟨said, -, rfl⟩ := Option.map_eq_some_iff.mp found
      exact long
    · rw [entry] at found
      cases found
  have sections : ∀ write ∈ options.filterMap nestedWrite, write.1 ∈ longSyntaxKeys := by
    intro write listed
    obtain ⟨option, held, found⟩ := List.mem_filterMap.mp listed
    obtain ⟨place, writes⟩ := option_writes (plain option held).1 (plain option held).2
    obtain ⟨-, -, -, -, nested⟩ | ⟨section_, known, _, -, -, nested⟩ := writes.shape
    · rw [nested] at found
      cases found
    · rw [nested] at found
      obtain ⟨said, -, rfl⟩ := Option.map_eq_some_iff.mp found
      have all : ∀ section_ ∈ ["volume", "bind", "tmpfs"], section_ ∈ longSyntaxKeys := by decide
      exact all section_ known
  by_cases nested : (Fields.written (options.filterMap nestedWrite) key).getLast? = none
  · by_cases entry : (Fields.written (options.filterMap entryWrite) key).getLast? = none
    · rw [nested, entry, Option.none_or, Option.none_or, Fields.get_cons] at held
      split at held
      next same =>
        rw [same]
        decide
      next => cases held
    · exact ofWrite entries entry
  · exact ofWrite sections nested

end

section

variable {options : Options}

theorem mountShown_iff (taken : ∀ option ∈ options, optionTaken option = true) :
    MountShown options (writtenEntry options) ↔ PlainOptions options := by
  constructor
  · intro shown
    have plain : ∀ option ∈ options, plainKey option.1 := by
      intro option member
      obtain ⟨place, placed, -⟩ := shown.2 option member
      constructor
      · intro same
        rw [same] at placed
        cases placed
      · intro same
        rw [same] at placed
        cases placed
    refine ⟨plain, fun last => ?_⟩
    obtain ⟨option, member, placed, -⟩ := saidAt_of_mem (List.mem_of_getLast? last)
    obtain ⟨place, placed_, value⟩ := shown.2 option member
    obtain rfl : ["read_only"] = place := Option.some.inj (placed.symm.trans placed_)
    rw [writtenEntry_valueAt (fun option member => ⟨taken option member, plain option member⟩) member placed] at value
    exact (getLast?_join _).mp value last
  · intro plain
    have each : ∀ option ∈ options, optionTaken option = true ∧ plainKey option.1 := fun option member =>
      ⟨taken option member, plain.1 option member⟩
    refine ⟨writtenEntry_keys each, fun option member => ?_⟩
    obtain ⟨place, writes⟩ := option_writes (each option member).1 (each option member).2
    refine ⟨place, writes.placed, ?_⟩
    rw [writtenEntry_valueAt each member writes.placed, getLast?_join]
    by_cases readOnly : place = ["read_only"]
    · rw [readOnly]
      exact plain.2
    · intro last
      obtain ⟨other, held, placed, none_⟩ := saidAt_of_mem (List.mem_of_getLast? last)
      obtain ⟨place_, writes_⟩ := option_writes (each other held).1 (each other held).2
      obtain rfl : place_ = place := Option.some.inj (writes_.placed.symm.trans placed)
      have some_ := writes_.said readOnly
      rw [none_] at some_
      cases some_

end

def mountOptions (value : Text) : Options := (splitFields value).map mountField

/-- Docker takes the mount, and there is a key for every option of it. -/
def MountTaken (value : Text) : Prop :=
  (∀ option ∈ mountOptions value, optionTaken option = true) ∧
    ∃ option ∈ mountOptions value, optionPlace option.1 = some ["target"]

theorem optionPlace_plain {key : String} {place : List String} (placed : optionPlace key = some place) : plainKey key := by
  constructor
  · intro same
    rw [same] at placed
    cases placed
  · intro same
    rw [same] at placed
    cases placed

theorem mountKey_inherited : ∀ key ∈ ["constructor", "__proto__"], mountKey key ≠ some "target" := by
  decide +kernel

theorem entryWrite_target {option : String × Option Text} (taken : optionTaken option = true) :
    (∃ value, entryWrite option = some ("target", value)) ↔ optionPlace option.1 = some ["target"] := by
  constructor
  · intro written
    obtain ⟨value, written⟩ := written
    by_cases plain : plainKey option.1
    · obtain ⟨place, writes⟩ := option_writes taken plain
      obtain ⟨own, -, rfl, entry, -⟩ | ⟨-, -, -, -, entry, -⟩ := writes.shape
      · rw [entry] at written
        obtain ⟨said, -, same⟩ := Option.map_eq_some_iff.mp written
        cases same
        exact writes.placed
      · rw [entry] at written
        cases written
    · have inherited : option.1 ∈ ["constructor", "__proto__"] := by
        rw [plainKey, not_and_or, not_not, not_not] at plain
        obtain same | same := plain
        · rw [same]
          decide
        · rw [same]
          decide
      have none_ := mountKey_inherited _ inherited
      unfold entryWrite at written
      split at written
      next =>
        split at written
        next =>
          have same := congrArg Prod.fst (Option.some.inj written)
          exact absurd same (by decide : "read_only" ≠ "target")
        next => cases written
      next =>
        split at written
        next found =>
          cases written
          exact absurd found none_
        next => cases written
  · intro placed
    obtain ⟨place, writes⟩ := option_writes taken (optionPlace_plain placed)
    obtain rfl : place = ["target"] := Option.some.inj (writes.placed.symm.trans placed)
    obtain ⟨said, shown⟩ := Option.isSome_iff_exists.mp (writes.said (by decide))
    obtain ⟨own, -, path, entry, -⟩ | ⟨section_, -, name, path, -, -⟩ := writes.shape
    · obtain ⟨rfl, -⟩ := List.cons.inj path
      exact ⟨said, by rw [entry, shown]; rfl⟩
    · cases path

theorem target_written {options : Options} (taken : ∀ option ∈ options, optionTaken option = true) :
    ((Fields.setAll [("type", .str "volume")] (options.filterMap entryWrite)).get "target").isNone = false ↔
      ∃ option ∈ options, optionPlace option.1 = some ["target"] := by
  have default_ : Fields.get [("type", .str "volume")] "target" = none := rfl
  rw [Fields.get_setAll, default_, Option.or_none]
  constructor
  · intro held
    obtain ⟨value, last⟩ := Option.isSome_iff_exists.mp (Option.isNone_eq_false_iff.mp held)
    obtain ⟨write, listed, same⟩ := List.mem_filterMap.mp (List.mem_of_getLast? last)
    obtain ⟨option, member, found⟩ := List.mem_filterMap.mp listed
    split at same
    next own =>
      refine ⟨option, member, (entryWrite_target (taken option member)).mp ⟨write.2, ?_⟩⟩
      rw [found, ← own]
    next => cases same
  · intro given
    obtain ⟨option, member, placed⟩ := given
    obtain ⟨value, found⟩ := (entryWrite_target (taken option member)).mpr placed
    have listed : value ∈ Fields.written (options.filterMap entryWrite) "target" :=
      List.mem_filterMap.mpr ⟨("target", value), List.mem_filterMap.mpr ⟨option, member, found⟩, if_pos rfl⟩
    cases last : (Fields.written (options.filterMap entryWrite) "target").getLast? with
    | some => rfl
    | none =>
        rw [List.getLast?_eq_none_iff.mp last] at listed
        cases listed

theorem mountEntry_taken_iff (value : Text) (entry : Fields) :
    mountEntry value = some (entry, false) ↔ MountTaken value ∧ entry = writtenEntry (mountOptions value) := by
  have carried (mount : MountEntry) := mountFields_carried_iff {} mount false (mountOptions value)
  constructor
  · intro found
    unfold mountEntry at found
    split at found
    next => cases found
    next mount lost fields =>
      split at found
      next => cases found
      next targeted =>
        cases found
        obtain ⟨-, taken, rfl⟩ := (carried mount).mp fields
        exact ⟨⟨taken, (target_written taken).mp (Bool.eq_false_iff.mpr targeted)⟩, rfl⟩
  · intro both
    obtain ⟨⟨taken, target⟩, rfl⟩ := both
    have fields := (carried _).mpr ⟨rfl, taken, rfl⟩
    have targeted := (target_written taken).mpr target
    unfold mountOptions at fields
    unfold mountEntry
    rw [fields]
    dsimp only
    rw [if_neg (by rw [← mountOptions, targeted]; nofun)]
    rfl

end Dockge.DockerRun
