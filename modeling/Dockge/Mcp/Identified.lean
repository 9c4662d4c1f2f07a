import Mathlib
import Dockge.Mcp.Traversed

namespace Dockge.Mcp.Fingerprint

open Data
open Dockge.Git (FileState)
open Dockge.StackConfig (StackFileConfig SecretBinding)

/-! What a fingerprint tells apart, and what it covers. -/

variable {directory : Directory} {parse : Bytes → Option Json} {deployment : Bool} {config : Option StackFileConfig}
  {path : Path} {reading : Reading} {turns : Nat}

/-! ## Reading back what was fed -/

theorem fieldThen_inj {name : String} {left right : List Char} (same : fieldThen name left = fieldThen name right) :
    left = right :=
  (List.cons.inj (quoteThen_inj same).2).2

theorem textThen_inj (one other : String) (left right : List Char) (same : textThen one left = textThen other right) :
    one = other ∧ left = right :=
  (quoteThen_inj same).imp_left String.toList_inj.mp

theorem textThen_opens (text : String) (rest : List Char) : (textThen text rest).head? ≠ some ']' := by
  rw [textThen, quoteThen_head]
  decide

theorem bindingThen_inj (one other : SecretBinding) (left right : List Char)
    (same : bindingThen one left = bindingThen other right) : one = other ∧ left = right := by
  obtain ⟨name, fileName, services⟩ := one
  obtain ⟨name_, fileName_, services_⟩ := other
  obtain ⟨rfl, afterName⟩ := textThen_inj _ _ _ _ (fieldThen_inj (List.cons.inj same).2)
  obtain ⟨rfl, afterFile⟩ := textThen_inj _ _ _ _ (fieldThen_inj (List.cons.inj afterName).2)
  obtain ⟨rfl, afterServices⟩ := arrayThen_inj textThen_inj textThen_opens (fieldThen_inj (List.cons.inj afterFile).2)
  exact ⟨rfl, (List.cons.inj afterServices).2⟩

theorem bindingThen_opens (binding : SecretBinding) (rest : List Char) : (bindingThen binding rest).head? ≠ some ']' := by
  change some '\x7b' ≠ some ']'
  decide

theorem configThen_inj {one other : Option StackFileConfig} {left right : List Char}
    (same : configThen one left = configThen other right) : one = other ∧ left = right := by
  cases one with
  | none =>
      cases other with
      | none => exact ⟨rfl, List.append_cancel_left same⟩
      | some config => exact absurd (List.cons.inj same).1 (by decide)
  | some config =>
      cases other with
      | none => exact absurd (List.cons.inj same).1 (by decide)
      | some config_ =>
          obtain ⟨compose, environment, active, bindings⟩ := config
          obtain ⟨compose_, environment_, active_, bindings_⟩ := config_
          obtain ⟨rfl, afterCompose⟩ := textThen_inj _ _ _ _ (fieldThen_inj (List.cons.inj same).2)
          obtain ⟨rfl, afterEnvironment⟩ :=
            arrayThen_inj textThen_inj textThen_opens (fieldThen_inj (List.cons.inj afterCompose).2)
          obtain ⟨rfl, afterActive⟩ := textThen_inj _ _ _ _ (fieldThen_inj (List.cons.inj afterEnvironment).2)
          obtain ⟨rfl, afterBindings⟩ :=
            arrayThen_inj bindingThen_inj bindingThen_opens (fieldThen_inj (List.cons.inj afterActive).2)
          exact ⟨rfl, (List.cons.inj afterBindings).2⟩

/-- The characters a number is printed with -/
def printable (char : Char) : Bool := char.isDigit || char = '.' || char = '-' || char = '+' || char = 'e'

theorem Printed.all_printable (number : Printed) : ∀ char ∈ number.text, printable char = true := by
  intro char member
  have plain := number.plain char member
  simp only [printable, Bool.or_eq_true, decide_eq_true_eq]
  tauto

theorem configThen_stops (config : Option StackFileConfig) (rest : List Char) :
    (configThen config rest).takeWhile printable = [] := by
  cases config with
  | none => exact List.takeWhile_cons_of_neg (by decide)
  | some config => exact List.takeWhile_cons_of_neg (by decide)

theorem takeWhile_printed (number : Printed) (config : Option StackFileConfig) (rest : List Char) :
    (number.text ++ configThen config rest).takeWhile printable = number.text := by
  rw [List.takeWhile_append_of_pos number.all_printable, configThen_stops, List.append_nil]

theorem printed_inj {number other : Printed} {one two : Option StackFileConfig} {left right : List Char}
    (same : number.text ++ configThen one left = other.text ++ configThen two right) :
    number = other ∧ configThen one left = configThen two right := by
  have text : number.text = other.text := by
    rw [← takeWhile_printed number one left, same, takeWhile_printed]
  obtain ⟨text_, plain⟩ := number
  obtain ⟨text', plain'⟩ := other
  cases text
  exact ⟨rfl, List.append_cancel_left same⟩

theorem headThen_inj {identity identity_ : Identity} {one other : Option StackFileConfig} {left right : List Char}
    (same : headThen identity one left = headThen identity_ other right) :
    identity = identity_ ∧ one = other ∧ left = right := by
  obtain ⟨dev, ino, birth⟩ := identity
  obtain ⟨dev_, ino_, birth_⟩ := identity_
  obtain ⟨rfl, afterDev⟩ := numberThen_inj (by decide) same
  obtain ⟨rfl, afterIno⟩ := numberThen_inj (by decide) afterDev
  obtain ⟨rfl, afterBirth⟩ := printed_inj afterIno
  obtain ⟨rfl, rest⟩ := configThen_inj afterBirth
  exact ⟨rfl, rfl, rest⟩

/-! ## Records -/

/-- What stands before the content of a record -/
def leadThen (item : Path × Option FileState) (rest : List Char) : List Char :=
  match item.2 with
  | none => absentThen item.1 rest
  | some file => Git.headerThen (String.ofList (textOf item.1)) file rest

def contentOf (item : Path × Option FileState) : Bytes := item.2.elim [] (·.bytes)

theorem record_eq (item : Path × Option FileState) : record item = encodeUtf8 (leadThen item []) ++ contentOf item := by
  obtain ⟨path, held⟩ := item
  cases held with
  | none => exact (List.append_nil _).symm
  | some file => rfl

theorem leadThen_append (item : Path × Option FileState) (left right : List Char) :
    leadThen item (left ++ right) = leadThen item left ++ right := by
  obtain ⟨path, held⟩ := item
  cases held with
  | none => simp only [leadThen, absentThen, quoteThen, List.cons_append, List.append_assoc]
  | some file => exact Git.headerThen_append _ _ _ _

theorem quoteThen_ne_numberThen (chars : List Char) (number : Nat) (left right : List Char) :
    quoteThen chars left ≠ numberThen number right := by
  intro same
  rw [numberThen] at same
  cases digits : Nat.toDigits 10 number with
  | nil => exact absurd digits Nat.toDigits_ne_nil
  | cons digit others =>
      rw [digits] at same
      have numeral := Nat.isDigit_of_mem_toDigits (b := 10) (n := number) (c := digit) (by decide) (by decide)
        (digits ▸ List.mem_cons_self)
      rw [← (List.cons.inj same).1] at numeral
      exact absurd numeral (by decide)

/-- Two leads that begin alike stand for one path, and for one kind of file. -/
theorem leadThen_inj {one other : Path × Option FileState} {left right : List Char}
    (same : leadThen one left = leadThen other right) :
    textOf one.1 = textOf other.1 ∧ one.2.map (·.mode) = other.2.map (·.mode) ∧
      (contentOf one).length = (contentOf other).length ∧ leadThen one [] = leadThen other [] := by
  obtain ⟨path, held⟩ := one
  obtain ⟨path_, held_⟩ := other
  cases held with
  | none =>
      cases held_ with
      | none =>
          obtain ⟨text, -⟩ := quoteThen_inj (List.cons.inj same).2
          refine ⟨text, rfl, rfl, ?_⟩
          simp only [leadThen, absentThen, text]
      | some file =>
          obtain ⟨-, after⟩ := quoteThen_inj (List.cons.inj same).2
          exact absurd (List.cons.inj after).2 (quoteThen_ne_numberThen _ _ _ _)
  | some file =>
      cases held_ with
      | none =>
          obtain ⟨-, after⟩ := quoteThen_inj (List.cons.inj same).2
          exact absurd (List.cons.inj after).2.symm (quoteThen_ne_numberThen _ _ _ _)
      | some file_ =>
          obtain ⟨name, mode, length, -⟩ :=
            @Git.headerThen_inj (String.ofList (textOf path), file) (String.ofList (textOf path_), file_) left right same
          refine ⟨String.ofList_inj.mp name, congrArg some mode, length, ?_⟩
          simp only [leadThen, Git.headerThen, String.ofList_inj.mp name, show file.mode = file_.mode from mode,
            show file.bytes.length = file_.bytes.length from length]

theorem textOf_inj {other : Path} (inside : Inside path) (inside_ : Inside other) (same : textOf path = textOf other) :
    path = other := by
  have split (path : Path) (inside : Inside path) (some_ : path ≠ []) : (textOf path).splitOn '/' = path :=
    List.splitOn_intercalate '/' (fun part member => (inside part member).2.2.2.2) some_
  have empty (path : Path) (inside : Inside path) (none_ : textOf path = []) : path = [] := by
    by_contra some_
    have parts := split path inside some_
    rw [none_, List.splitOn_nil] at parts
    exact (inside [] (parts ▸ List.mem_singleton.mpr rfl)).1 rfl
  by_cases none_ : path = []
  · rw [none_] at same ⊢
    exact (empty other inside_ same.symm).symm
  · by_cases none' : other = []
    · rw [none'] at same ⊢
      exact empty path inside same
    · rw [← split path inside none_, same, split other inside_ none']

theorem record_append_inj {one other : Path × Option FileState} {left right : Bytes} (inside : Inside one.1)
    (inside_ : Inside other.1) (same : record one ++ left = record other ++ right) : one = other ∧ left = right := by
  rw [record_eq, record_eq, List.append_assoc, List.append_assoc] at same
  have equal (item : Path × Option FileState) (longer : List Char) :
      leadThen item [] ++ longer = leadThen item longer := (leadThen_append _ [] longer).symm
  have lead : textOf one.1 = textOf other.1 ∧ one.2.map (·.mode) = other.2.map (·.mode) ∧
      (contentOf one).length = (contentOf other).length ∧ leadThen one [] = leadThen other [] := by
    obtain ⟨longer, grows⟩ | ⟨longer, grows⟩ := encodeUtf8_append_prefix same
    · rw [equal] at grows
      exact leadThen_inj grows
    · rw [equal] at grows
      obtain ⟨text, mode, length, start⟩ := leadThen_inj grows
      exact ⟨text.symm, mode.symm, length.symm, start.symm⟩
  obtain ⟨text, mode, length, start⟩ := lead
  rw [start] at same
  obtain ⟨content, rest⟩ := List.append_inj (List.append_cancel_left same) length
  refine ⟨Prod.ext (textOf_inj inside inside_ text) ?_, rest⟩
  cases held : one.2 with
  | none =>
      rw [held] at mode
      exact (Option.map_eq_none_iff.mp mode.symm).symm
  | some file =>
      rw [held] at mode
      obtain ⟨file_, held_, mode_⟩ := Option.map_eq_some_iff.mp mode.symm
      rw [contentOf, contentOf, held, held_] at content
      rw [held_]
      obtain ⟨bytes, mode⟩ := file
      obtain ⟨bytes_, mode'⟩ := file_
      cases mode_
      cases content
      rfl

theorem record_ne_nil (item : Path × Option FileState) : record item ≠ [] := by
  intro none_
  rw [record_eq] at none_
  have long := length_le_encodeUtf8 (leadThen item [])
  rw [(List.append_eq_nil_iff.mp none_).1] at long
  obtain ⟨path, held⟩ := item
  cases held with
  | none => simp [leadThen, absentThen] at long
  | some file => simp [leadThen, Git.headerThen] at long

theorem records_inj {one other : List (Path × Option FileState)} (inside : ∀ item ∈ one, Inside item.1)
    (inside_ : ∀ item ∈ other, Inside item.1) (same : one.flatMap record = other.flatMap record) : one = other := by
  induction one generalizing other with
  | nil =>
      cases other with
      | nil => rfl
      | cons item rest =>
          rw [List.flatMap_cons] at same
          exact absurd (List.append_eq_nil_iff.mp same.symm).1 (record_ne_nil item)
  | cons item rest ih =>
      cases other with
      | nil =>
          rw [List.flatMap_cons] at same
          exact absurd (List.append_eq_nil_iff.mp same).1 (record_ne_nil item)
      | cons next tail =>
          rw [List.flatMap_cons, List.flatMap_cons] at same
          obtain ⟨rfl, remaining⟩ :=
            record_append_inj (inside _ List.mem_cons_self) (inside_ _ List.mem_cons_self) same
          rw [ih (fun item member => inside item (List.mem_cons_of_mem _ member))
            (fun item member => inside_ item (List.mem_cons_of_mem _ member)) remaining]

/-! ## A whole traversal -/

/-- The compose files that count: the selected one, and those that one of them includes or extends -/
inductive Reached (directory : Directory) (parse : Bytes → Option Json) (config : Option StackFileConfig) : Path → Prop
  | main {name : String} {path : Path} (selected : mainName directory config = some name)
      (resolves : Resolves directory [] (some (.str name)) path) : Reached directory parse config path
  | named {path other : Path} {file : FileState} {document : Json} {name : Option Json}
      (reached : Reached directory parse config path) (there : directory.stat path = .file file)
      (parsed : parse file.bytes = some document) (names : NamesCompose (some document) name)
      (resolves : Resolves directory path.dropLast name other) : Reached directory parse config other

/-- A file that is named from the directory itself was read. -/
def SawName (directory : Directory) (reading : Reading) (name : String) : Prop :=
  ∃ path, Resolves directory [] (some (.str name)) path ∧ Saw reading path

/-- Everything that counts was read, once, and nothing outside the directory. -/
structure Complete (directory : Directory) (parse : Bytes → Option Json) (config : Option StackFileConfig)
    (reading : Reading) : Prop where
  sound : Sound directory reading
  selected : ∃ name, mainName directory config = some name ∧ SawName directory reading name
  covered : ∀ path, Reached directory parse config path → Done directory parse reading path
  dotEnv : Saw reading [".env".toList]
  chosen : ∀ config_, config = some config_ → ∀ name,
    name ∈ config_.envFileNames ∨ name ∈ config_.secretBindings.map (·.fileName) → SawName directory reading name

theorem inside_nil : Inside [] := fun _ never => absurd never List.not_mem_nil

theorem sawName_stable (name : String) : Data.Stable (Goes directory parse) fun reached => SawName directory reached name :=
  fun _ _ goes held => held.imp fun _ held => ⟨held.1, goes.saw held.2⟩

theorem readName_reads (name : String) :
    Reads directory parse turns (readName directory name) fun _ reached => SawName directory reached name := by
  refine Walks.bind (resolve_reads inside_nil _) fun path => ?_
  intro state ⟨⟨resolves, within⟩, ready⟩
  exact (readPlain_reads within).mono (fun _ _ saw => ⟨path, resolves, saw⟩) state ready

theorem readNames_reads (names : List String) :
    Reads directory parse turns (walkEach names (readName directory)) fun _ reached =>
      ∀ name ∈ names, SawName directory reached name :=
  Walks.each (fun name _ => readName_reads name) (ready_stable turns) fun name _ => sawName_stable name

/-- What a traversal has done: the compose file was visited, and what is named from the directory itself was read. -/
structure Traversed (directory : Directory) (config : Option StackFileConfig) (reading : Reading) : Prop where
  selected : ∃ name path, mainName directory config = some name ∧ Resolves directory [] (some (.str name)) path ∧
    path ∈ reading.composeSeen
  dotEnv : Saw reading [".env".toList]
  environment : ∀ name ∈ config.elim [] (·.envFileNames), SawName directory reading name
  secrets : ∀ name ∈ config.elim [] fun config => config.secretBindings.map (·.fileName), SawName directory reading name

theorem inside_dotEnv : Inside [".env".toList] := by
  intro part member
  rw [List.mem_singleton.mp member]
  decide

theorem traversal_reads (config : Option StackFileConfig) :
    Reads directory parse maxComposeFiles (traversal directory parse deployment config) fun _ =>
      Traversed directory config := by
  unfold traversal
  split
  next => exact Walks.throw (by decide)
  next name selected =>
    refine Walks.ite (fun _ => Walks.throw (by decide)) fun _ => Walks.bind (resolve_reads inside_nil _) fun path => ?_
    intro state ⟨⟨resolves, within⟩, ready⟩
    have dotEnv : Reads directory parse maxComposeFiles (discard (read directory [".env".toList] true)) fun _ reached =>
        Saw reached [".env".toList] :=
      discard_reads ((read_reads inside_dotEnv true).mono fun held _ member => ⟨held, member⟩)
    refine (Walks.andThen (compose_reads maxComposeFiles path within)
      (Walks.andThen dotEnv
        (Walks.andThen (readNames_reads _) (readNames_reads _) (ready_stable _) ?_)
        (ready_stable _) (saw_stable _))
      (ready_stable _) (visits_stable path)).mono ?_ state ready
    · exact fun state reached goes all name member => sawName_stable name state reached goes (all name member)
    · intro _ reached ⟨visited, dotEnv, environment, secrets⟩
      exact ⟨⟨name, path, selected, resolves, visited⟩, dotEnv, environment, secrets⟩

/-- Nothing was visited without its files, so what is reached from the selected file was visited as well. -/
theorem Traversed.covered (traversed : Traversed directory config reading)
    (done : ∀ path ∈ reading.composeSeen, Done directory parse reading path) :
    ∀ path, Reached directory parse config path → path ∈ reading.composeSeen := by
  intro path reached
  induction reached with
  | main selected resolves =>
      obtain ⟨name, path, selected_, resolves_, visited⟩ := traversed.selected
      cases selected.symm.trans selected_
      rw [resolves.unique resolves_]
      exact visited
  | named _ there parsed names resolves ih =>
      obtain ⟨path, resolves_, visited⟩ := ((done _ ih).named _ there _ parsed).composes _ names
      rw [resolves.unique resolves_]
      exact visited

theorem ready_start (head : Bytes) : Ready directory maxComposeFiles { fed := head } :=
  ⟨⟨fun _ never => absurd never List.not_mem_nil, List.nodup_nil⟩, Nat.le_add_right _ _⟩

/-- A traversal that is not refused has read everything that counts, and fed it in order after the identity. -/
theorem readings_complete (config : Option StackFileConfig) :
    readings directory parse deployment config ≠ .error .outOfTurns ∧
      ∀ reading, readings directory parse deployment config = .ok reading → Complete directory parse config reading ∧
        ∃ identity, directory.identity = some identity ∧
          reading.fed = encodeUtf8 (headThen identity config []) ++ reading.seen.flatMap record := by
  unfold readings
  split
  next => exact ⟨by decide, fun reading never => (by cases never)⟩
  next identity known =>
    obtain ⟨returns, refused⟩ := @traversal_reads directory parse deployment config
      { fed := encodeUtf8 (headThen identity config []) } (ready_start _)
    change (Except.map _ (traversal directory parse deployment config { fed := encodeUtf8 (headThen identity config []) })) ≠ _ ∧
      ∀ reading, Except.map _ (traversal directory parse deployment config { fed := encodeUtf8 (headThen identity config []) }) =
        .ok reading → _
    cases ran : traversal directory parse deployment config { fed := encodeUtf8 (headThen identity config []) } with
    | error error =>
        refine ⟨fun same => refused error ran (Except.error.inj same), fun reading never => (by cases never)⟩
    | ok pair =>
        obtain ⟨goes, traversed⟩ := returns pair.1 pair.2 ran
        refine ⟨fun never => (by cases never), fun reading same => ?_⟩
        cases same
        have done : ∀ path ∈ pair.2.composeSeen, Done directory parse pair.2 path := fun path member =>
          (goes.done path member).resolve_left List.not_mem_nil
        have visited := traversed.covered done
        refine ⟨⟨goes.sound (ready_start _).sound, ?_, fun path reached => done path (visited path reached),
          traversed.dotEnv, ?_⟩, identity, known, ?_⟩
        · obtain ⟨name, path, selected, resolves, seen⟩ := traversed.selected
          exact ⟨name, selected, path, resolves, (done path seen).saw⟩
        · intro config_ some_ name member
          subst some_
          exact member.elim (traversed.environment name) (traversed.secrets name)
        · obtain ⟨items, seen, fed⟩ := goes.grown
          rw [fed, show pair.2.seen = items from seen]

theorem textThen_append (text : String) (left right : List Char) :
    textThen text (left ++ right) = textThen text left ++ right := quoteThen_append _ _ _

theorem bindingThen_append (binding : SecretBinding) (left right : List Char) :
    bindingThen binding (left ++ right) = bindingThen binding left ++ right := by
  simp only [bindingThen, fieldThen, ← List.cons_append, arrayThen_append textThen_append, textThen_append,
    quoteThen_append]

theorem configThen_append (config : Option StackFileConfig) (left right : List Char) :
    configThen config (left ++ right) = configThen config left ++ right := by
  cases config with
  | none => exact (List.append_assoc _ _ _).symm
  | some config =>
      simp only [configThen, fieldThen, ← List.cons_append, arrayThen_append bindingThen_append,
        arrayThen_append textThen_append, textThen_append, quoteThen_append]

theorem headThen_append (identity : Identity) (config : Option StackFileConfig) (left right : List Char) :
    headThen identity config (left ++ right) = headThen identity config left ++ right := by
  simp only [headThen, numberThen, configThen_append, List.append_assoc, List.cons_append]

theorem seen_of_fed {one other : Option StackFileConfig} {identity identity_ : Identity} {items others : List (Path × Option FileState)}
    (inside : ∀ item ∈ items, Inside item.1) (inside_ : ∀ item ∈ others, Inside item.1)
    (same : encodeUtf8 (headThen identity one []) ++ items.flatMap record =
      encodeUtf8 (headThen identity_ other []) ++ others.flatMap record) :
    identity = identity_ ∧ one = other ∧ items = others := by
  have equal (identity : Identity) (config : Option StackFileConfig) (longer : List Char) :
      headThen identity config [] ++ longer = headThen identity config longer := (headThen_append _ _ [] longer).symm
  have head : identity = identity_ ∧ one = other := by
    obtain ⟨longer, grows⟩ | ⟨longer, grows⟩ := encodeUtf8_append_prefix same
    · rw [equal] at grows
      obtain ⟨known, config, -⟩ := headThen_inj grows
      exact ⟨known, config⟩
    · rw [equal] at grows
      obtain ⟨known, config, -⟩ := headThen_inj grows
      exact ⟨known.symm, config.symm⟩
  obtain ⟨rfl, rfl⟩ := head
  exact ⟨rfl, rfl, records_inj inside inside_ (List.append_cancel_left same)⟩

/-- Two directories with one fingerprint hold the same in what was read, and everything that counts was read. -/
theorem stackOperationFingerprint_identifies {Digest : Type} {hash : Bytes → Digest} (injective : Function.Injective hash)
    (parse : Bytes → Option Json) :
    (∀ directory deployment config, readings directory parse deployment config ≠ .error .outOfTurns ∧
      ∀ reading, readings directory parse deployment config = .ok reading → Complete directory parse config reading) ∧
    ∀ first second deployment deployment_ config config_ digest,
      stackOperationFingerprint first parse deployment hash config = .ok digest →
      stackOperationFingerprint second parse deployment_ hash config_ = .ok digest →
      first.identity = second.identity ∧ config = config_ ∧
        ∃ reading reading_, readings first parse deployment config = .ok reading ∧
          readings second parse deployment_ config_ = .ok reading_ ∧ reading.seen = reading_.seen ∧
          ∀ path, Saw reading path → first.stat path = second.stat path := by
  refine ⟨fun directory deployment config => ?_, ?_⟩
  · obtain ⟨turns, complete⟩ := @readings_complete directory parse deployment config
    exact ⟨turns, fun reading ran => (complete reading ran).1⟩
  · intro first second deployment deployment_ config config_ digest one two
    rw [stackOperationFingerprint] at one two
    cases ran : readings first parse deployment config with
    | error error =>
        rw [ran] at one
        cases one
    | ok reading =>
        cases ran_ : readings second parse deployment_ config_ with
        | error error =>
            rw [ran_] at two
            cases two
        | ok reading_ =>
            rw [ran] at one
            rw [ran_] at two
            have fed : reading.fed = reading_.fed := injective ((Except.ok.inj one).trans (Except.ok.inj two).symm)
            obtain ⟨complete, identity, known, feeds⟩ := (readings_complete config).2 reading ran
            obtain ⟨complete_, identity_, known_, feeds_⟩ := (readings_complete config_).2 reading_ ran_
            obtain ⟨same, equal, seen⟩ := seen_of_fed (fun item member => (complete.sound.found item member).1)
              (fun item member => (complete_.sound.found item member).1) (feeds.symm.trans (fed.trans feeds_))
            refine ⟨by rw [known, known_, same], equal, reading, reading_, rfl, rfl, seen, ?_⟩
            intro path ⟨held, member⟩
            have there := (complete.sound.found _ member).2.2
            have there_ := (complete_.sound.found _ (seen ▸ member)).2.2
            obtain ⟨none_, missing⟩ | ⟨file, some_, found⟩ := there
            · obtain ⟨-, missing_⟩ | ⟨file, some_, -⟩ := there_
              · exact missing.trans missing_.symm
              · cases none_.symm.trans some_
            · obtain ⟨none_, -⟩ | ⟨file_, some_', found_⟩ := there_
              · cases none_.symm.trans some_
              · cases some_.symm.trans some_'
                exact found.trans found_.symm

def samplePrinted : Printed where
  text := ['7']
  plain := by
    intro char member
    rw [List.mem_singleton.mp member]
    exact .inl rfl

/-- A stack with a compose file that includes itself, a directory of data, and no `.env` -/
def sampleDirectory (data : Stat) : Directory where
  place := [['s']]
  parted := by decide
  identity := some { dev := 1, ino := 2, birthtimeMs := samplePrinted }
  names := ["compose.yaml"]
  stat := fun path =>
    if path = ["compose.yaml".toList] then .file { bytes := [1], mode := 0o644 }
    else if path = ["data".toList] then data
    else .missing

def sampleParse (_ : Bytes) : Option Json := some (.obj [("include", .str "compose.yaml")])

def sampleFingerprint (data : Stat) : Except Refusal Bytes :=
  stackOperationFingerprint (sampleDirectory data) sampleParse true id none

theorem sampleFingerprint_ok (data : Stat) (known : data = .directory ∨ data = .other) :
    (sampleFingerprint data).toOption = (sampleFingerprint .missing).toOption ∧ (sampleFingerprint data).toOption.isSome = true := by
  obtain rfl | rfl := known <;> decide +kernel

/-- What the data of the running containers is does not count. -/
theorem stackOperationFingerprint_identifies_sample :
    ∃ reading reading_, readings (sampleDirectory .directory) sampleParse true none = .ok reading ∧
      readings (sampleDirectory .other) sampleParse true none = .ok reading_ ∧ reading.seen = reading_.seen := by
  obtain ⟨same, some_⟩ := sampleFingerprint_ok .directory (.inl rfl)
  have same_ := (sampleFingerprint_ok .other (.inr rfl)).1
  obtain ⟨digest, known⟩ := Option.isSome_iff_exists.mp some_
  have ok {result : Except Refusal Bytes} (held : result.toOption = some digest) : result = .ok digest := by
    cases result with
    | error => cases held
    | ok value => exact congrArg Except.ok (Option.some.inj held)
  obtain ⟨-, -, reading, reading_, ran, ran_, seen, -⟩ :=
    (stackOperationFingerprint_identifies Function.injective_id sampleParse).2 (sampleDirectory .directory)
      (sampleDirectory .other) true true none none digest (ok known) (ok (same_.trans (same.symm.trans known)))
  exact ⟨reading, reading_, ran, ran_, seen⟩

end Dockge.Mcp.Fingerprint
