import Dockge.DockerRun.Flags
import Mathlib.Data.List.Perm.Subperm

namespace Dockge.DockerRun

/-! How often a command is read, and which tokens the flags that were read account for. -/

variable {switches : List Nat} {index : Nat} {next : Option Text} {token : Text} {tokens rest : List Text}
variable {soFar flags read : List ParsedFlag} {guessed : Option Nat}

/-! ## The number of readings -/

/-- A guess is a token of its own that was no switch before. -/
theorem readFrom_guessed (tokens : List Text) (switches : List Nat) (skip : Bool) (index : Nat) (soFar : List ParsedFlag)
    (guessed : Option Nat) {guess : Nat} (found : (readFrom switches skip index soFar guessed tokens).guessed = some guess) :
    guessed = some guess ∨ guess ∉ switches ∧ index ≤ guess ∧ guess < index + tokens.length := by
  induction tokens generalizing skip index soFar guessed with
  | nil => exact .inl found
  | cons token rest ih =>
      have later {skip : Bool} {soFar : List ParsedFlag} {guessed : Option Nat}
          (found : (readFrom switches skip (index + 1) soFar guessed rest).guessed = some guess) :
          guessed = some guess ∨ guess ∉ switches ∧ index ≤ guess ∧ guess < index + (token :: rest).length := by
        obtain same | ⟨fresh, first, last⟩ := ih skip (index + 1) soFar guessed found
        · exact .inl same
        · exact .inr ⟨fresh, by omega, by rw [List.length_cons]; omega⟩
      unfold readFrom at found
      split at found
      next => exact later found
      next =>
        split at found
        next => cases found
        next =>
          obtain same | new := later found
          · split at same
            next guess_ =>
              cases same
              refine .inr ⟨?_, Nat.le_refl _, by rw [List.length_cons]; omega⟩
              unfold readToken at guess_
              split at guess_
              next =>
                split at guess_
                next => cases guess_
                next =>
                  split at guess_
                  next takes => exact takes.1
                  next => cases guess_
              next => cases guess_
            next => exact .inl same
          · exact .inr new

theorem behindRun_length (tokens : List Text) (some_ : behindRun tokens ≠ []) :
    (tokens.takeWhile (· ≠ run)).length + 1 + (behindRun tokens).length = tokens.length := by
  have whole := congrArg List.length (List.takeWhile_append_dropWhile (p := (· ≠ run)) (l := tokens))
  rw [List.length_append] at whole
  have behind : (behindRun tokens).length = (tokens.dropWhile (· ≠ run)).length - 1 := List.length_tail
  have positive : (behindRun tokens).length ≠ 0 := fun none_ => some_ (List.length_eq_zero_iff.mp none_)
  omega

theorem readTokens_guessed {guess : Nat} (found : (readTokens tokens switches).guessed = some guess) :
    guess ∉ switches ∧ guess < tokens.length := by
  obtain same | ⟨fresh, first, last⟩ := readFrom_guessed (behindRun tokens) switches false _ [] none found
  · cases same
  · refine ⟨fresh, ?_⟩
    have some_ : behindRun tokens ≠ [] := by
      intro none_
      rw [none_, List.length_nil] at last
      omega
    have whole := behindRun_length tokens some_
    omega

theorem few_positions {bound : Nat} {positions : List Nat} (distinct : positions.Nodup)
    (below : ∀ position ∈ positions, position < bound) : positions.length ≤ bound := by
  have subset : positions ⊆ List.range bound := fun position member => List.mem_range.mpr (below position member)
  have counted := (List.subperm_of_subset distinct subset).length_le
  rwa [List.length_range] at counted

/-- Each reading but the last finds a new switch, and there are no more than tokens. -/
theorem lastReading_ends (tokens : List Text) (switches : List Nat) (fuel : Nat) (distinct : switches.Nodup)
    (positions : ∀ position ∈ switches, position < tokens.length) (enough : tokens.length + 1 ≤ fuel + switches.length) :
    ∃ last count, lastReading tokens switches fuel = some (last, count) ∧ count ≤ fuel ∧
      ((readTokens tokens last).parsed.image ≠ none ∨ (readTokens tokens last).guessed = none) := by
  induction fuel generalizing switches with
  | zero =>
      have most := few_positions distinct positions
      omega
  | succ fuel ih =>
      rw [lastReading]
      dsimp only
      split
      next guess image guessed =>
        obtain ⟨fresh, bound⟩ := readTokens_guessed guessed
        have more : ∀ position ∈ guess :: switches, position < tokens.length := by
          intro position member
          obtain rfl | member := List.mem_cons.mp member
          · exact bound
          · exact positions position member
        have distinct_ : (guess :: switches).Nodup := List.nodup_cons.mpr ⟨fresh, distinct⟩
        obtain ⟨last, count, ends, few, final⟩ := ih (guess :: switches) distinct_ more
          (by rw [List.length_cons]; omega)
        refine ⟨last, count + 1, by rw [ends]; rfl, by omega, final⟩
      next final =>
        refine ⟨switches, 1, rfl, by omega, ?_⟩
        cases image : (readTokens tokens switches).parsed.image with
        | some => exact .inl (by simp)
        | none =>
            cases guessed : (readTokens tokens switches).guessed with
            | none => exact .inr rfl
            | some guess => exact absurd guessed (final guess image)

/-! ## Which tokens flags account for -/

/-- A cluster of letters, with the value its last flag has behind the letter or in the next token -/
inductive Cluster : List ParsedFlag → Text → Option Text → Prop where
  | last (letter : Char) : Cluster [⟨['-', letter], none⟩] [letter] none
  | apart (letter : Char) (value : Text) : Cluster [⟨['-', letter], some value⟩] [letter] (some value)
  | attached (letter : Char) {value : Text} (some_ : value ≠ []) :
      Cluster [⟨['-', letter], some value⟩] (letter :: value) none
  | equals (letter : Char) (value : Text) : Cluster [⟨['-', letter], some value⟩] (letter :: '=' :: value) none
  | more (letter : Char) {flags : List ParsedFlag} {letters : Text} {apart : Option Text}
      (rest : Cluster flags letters apart) : Cluster (⟨['-', letter], none⟩ :: flags) (letter :: letters) apart

/-- A token is a flag, a flag with its value, or a cluster. -/
inductive Explains : List ParsedFlag → Text → Option Text → Prop where
  | whole {name : Text} (long : startsLong name = true) : Explains [⟨name, none⟩] name none
  | apart {name : Text} (long : startsLong name = true) (value : Text) : Explains [⟨name, some value⟩] name (some value)
  | equals {name : Text} (long : startsLong name = true) (plain : '=' ∉ name) (value : Text) :
      Explains [⟨name, some value⟩] (name ++ '=' :: value) none
  | cluster {flags : List ParsedFlag} {letters : Text} {apart : Option Text} (cluster : Cluster flags letters apart) :
      Explains flags ('-' :: letters) apart

/-- The flags account for the tokens, in order and with nothing left. -/
inductive Accounts : List ParsedFlag → List Text → Prop where
  | nil : Accounts [] []
  | token {own flags : List ParsedFlag} {token : Text} {apart : Option Text} {tokens : List Text}
      (explains : Explains own token apart) (rest : Accounts flags tokens) :
      Accounts (own ++ flags) (token :: (apart.toList ++ tokens))

/-! ### One token -/

theorem Cluster.flags_ne {letters : Text} {apart : Option Text} (cluster : Cluster flags letters apart) : flags ≠ [] := by
  cases cluster <;> exact List.cons_ne_nil _ _

theorem Cluster.letters_ne {letters : Text} {apart : Option Text} (cluster : Cluster flags letters apart) : letters ≠ [] := by
  cases cluster <;> exact List.cons_ne_nil _ _

/-- What the letters of a token are read as explains them. -/
theorem readLetters_cluster (letters : Text) (next : Option Text) (some_ : letters ≠ []) :
    Cluster (readLetters next letters).1 letters (if (readLetters next letters).2 then next else none) := by
  induction letters with
  | nil => exact absurd rfl some_
  | cons letter rest ih =>
      conv =>
        arg 1
        unfold readLetters
      conv =>
        arg 3
        unfold readLetters
      split
      next first others => exact .equals letter (first :: others)
      next =>
        split
        next takes =>
          split
          next alone =>
            subst alone
            cases next with
            | none => exact .last letter
            | some value => exact .apart letter value
          next more => exact .attached letter more
        next =>
          by_cases alone : rest = []
          · subst alone
            exact .last letter
          · exact .more letter (ih alone)

/-- The letters and the flags leave no choice. -/
theorem Cluster.unique {own others after : List ParsedFlag} {letters : Text} {next apart : Option Text}
    (cluster : Cluster own letters apart) (same : own ++ others = (readLetters next letters).1 ++ after) :
    own = (readLetters next letters).1 ∧ apart = if (readLetters next letters).2 then next else none := by
  induction cluster with
  | last letter =>
      unfold readLetters at same ⊢
      by_cases takes : takesValue ['-', letter] = true
      · simp [takes] at same ⊢
        exact same.1
      · simp [takes, readLetters]
  | apart letter value =>
      unfold readLetters at same ⊢
      by_cases takes : takesValue ['-', letter] = true
      · simp [takes] at same ⊢
        exact same.1
      · simp [takes] at same
  | @attached letter value some_ =>
      unfold readLetters at same ⊢
      split at same
      next first rest =>
        simp at same
      next plain =>
        by_cases takes : takesValue ['-', letter] = true
        · simp [takes, some_]
        · simp [takes] at same
  | equals letter value =>
      cases value with
      | cons => exact ⟨rfl, rfl⟩
      | nil =>
          unfold readLetters at same
          by_cases takes : takesValue ['-', letter] = true
          · simp [takes] at same
          · simp [takes] at same
  | @more letter flags letters apart rest ih =>
      have some_ := rest.letters_ne
      unfold readLetters at same ⊢
      split at same
      next => simp at same
      next plain =>
        by_cases takes : takesValue ['-', letter] = true
        · simp [takes, some_] at same
        · simp only [takes, Bool.false_eq_true, if_false, List.cons_append, List.cons.injEq, true_and] at same ⊢
          obtain ⟨flags_, apart_⟩ := ih same
          exact ⟨by rw [flags_], apart_⟩

/-- The name before an equals sign begins like the token. -/
theorem startsLong_split {name value : Text} (long : startsLong (name ++ '=' :: value) = true) : startsLong name = true := by
  obtain ⟨rest, same⟩ := startsLong_iff.mp long
  match name, same with
  | [], same => cases same
  | [first], same => cases same
  | first :: second :: name, same =>
      cases same
      rfl

theorem readToken_long (switches : List Nat) (index : Nat) (next : Option Text) (long : startsLong token = true) :
    (∃ name value, token = name ++ '=' :: value ∧ '=' ∉ name ∧ startsLong name = true ∧
      readToken switches index next token = { flags := [⟨name, some value⟩] }) ∨
    '=' ∉ token ∧ ((readToken switches index next token).flags = [⟨token, none⟩] ∧
        (readToken switches index next token).consumedValue = false ∨
      (readToken switches index next token).flags = [⟨token, next⟩] ∧
        (readToken switches index next token).consumedValue = true) := by
  obtain ⟨plain, whole⟩ := splitOnce_eq '=' token
  rw [readToken, if_pos long]
  cases split : splitOnce '=' token with
  | mk name inline =>
      rw [split] at plain whole
      cases inline with
      | some value =>
          have whole_ : token = name ++ '=' :: value := whole
          exact .inl ⟨name, value, whole_, plain, startsLong_split (whole_ ▸ long), rfl⟩
      | none =>
          have whole_ : token = name := whole.trans (List.append_nil _)
          subst whole_
          refine .inr ⟨plain, ?_⟩
          dsimp only
          split
          · exact .inr ⟨rfl, rfl⟩
          · exact .inl ⟨rfl, rfl⟩

theorem readToken_short (switches : List Nat) (index : Nat) (next : Option Text) {letters : Text} (short : startsLong ('-' :: letters) = false) :
    (readToken switches index next ('-' :: letters)).flags = (readLetters next letters).1 ∧
      (readToken switches index next ('-' :: letters)).consumedValue = (readLetters next letters).2 := by
  rw [readToken, if_neg (by rw [short]; exact Bool.false_ne_true)]
  exact ⟨rfl, rfl⟩

theorem dash_letters (dash : token.head? = some '-') : ∃ letters, token = '-' :: letters := by
  cases token with
  | nil => cases dash
  | cons first letters =>
      cases dash
      exact ⟨letters, rfl⟩

/-- The token behind, where the token took it -/
def TokenRead.apart (read : TokenRead) (next : Option Text) : Option Text := if read.consumedValue then next else none

theorem readToken_explains (dash : token.head? = some '-') (more : token ≠ ['-']) :
    Explains (readToken switches index next token).flags token ((readToken switches index next token).apart next) := by
  cases long : startsLong token with
  | true =>
      obtain ⟨name, value, same, plain, named, read⟩ | ⟨-, ⟨read, alone⟩ | ⟨read, takes⟩⟩ :=
        readToken_long switches index next long
      · rw [read, same]
        exact .equals named plain value
      · rw [read, TokenRead.apart, alone]
        exact .whole long
      · rw [read, TokenRead.apart, takes]
        cases next with
        | none => exact .whole long
        | some value => exact .apart long value
  | false =>
      obtain ⟨letters, rfl⟩ := dash_letters dash
      have some_ : letters ≠ [] := fun none_ => more (congrArg ('-' :: ·) none_)
      obtain ⟨flags_, takes⟩ := readToken_short switches index next long
      rw [TokenRead.apart, flags_, takes]
      exact .cluster (readLetters_cluster letters next some_)

theorem Explains.unique_equals {own others after : List ParsedFlag} {apart : Option Text} {name value : Text}
    (explains : Explains own token apart) (whole : token = name ++ '=' :: value)
    (same : own ++ others = ⟨name, some value⟩ :: after) : own = [⟨name, some value⟩] ∧ apart = none := by
  have longer : token.length = name.length + value.length + 1 := by
    rw [whole, List.length_append, List.length_cons]
    omega
  cases explains with
  | whole => simp at same
  | apart =>
      obtain ⟨⟨rfl, rfl⟩, -⟩ := by simpa using same
      omega
  | equals =>
      obtain ⟨⟨rfl, rfl⟩, -⟩ := by simpa using same
      exact ⟨rfl, rfl⟩
  | cluster cluster =>
      cases cluster with
      | last => simp at same
      | apart =>
          obtain ⟨⟨rfl, rfl⟩, -⟩ := by simpa using same
          simp at longer
          omega
      | attached =>
          obtain ⟨⟨rfl, rfl⟩, -⟩ := by simpa using same
          simp at longer
          omega
      | equals =>
          obtain ⟨⟨rfl, rfl⟩, -⟩ := by simpa using same
          exact ⟨rfl, rfl⟩
      | more => simp at same

theorem Explains.unique_whole {own others after : List ParsedFlag} {apart value : Option Text}
    (explains : Explains own token apart) (plain : '=' ∉ token) (same : own ++ others = ⟨token, value⟩ :: after) :
    own = [⟨token, value⟩] ∧ apart = value := by
  cases explains with
  | whole =>
      obtain ⟨rfl, -⟩ := by simpa using same
      exact ⟨rfl, rfl⟩
  | apart =>
      obtain ⟨rfl, -⟩ := by simpa using same
      exact ⟨rfl, rfl⟩
  | equals => simp at plain
  | cluster cluster =>
      cases cluster with
      | last =>
          obtain ⟨rfl, -⟩ := by simpa using same
          exact ⟨rfl, rfl⟩
      | apart =>
          obtain ⟨rfl, -⟩ := by simpa using same
          exact ⟨rfl, rfl⟩
      | attached letter some_ =>
          obtain ⟨⟨none_, -⟩, -⟩ := by simpa using same
          exact absurd none_ some_
      | equals => simp at plain
      | more letter rest =>
          obtain ⟨⟨none_, -⟩, -⟩ := by simpa using same
          exact absurd none_ rest.letters_ne

/-- The token and the flags leave no choice. -/
theorem Explains.unique {own others after : List ParsedFlag} {apart : Option Text} (explains : Explains own token apart)
    (same : own ++ others = (readToken switches index next token).flags ++ after) :
    own = (readToken switches index next token).flags ∧ apart = (readToken switches index next token).apart next := by
  cases long : startsLong token with
  | true =>
      obtain ⟨name, value, whole, plain, named, read⟩ | ⟨plain, ⟨read, alone⟩ | ⟨read, takes⟩⟩ :=
        readToken_long switches index next long
      · rw [read] at same ⊢
        exact explains.unique_equals whole same
      · rw [TokenRead.apart, alone, read]
        rw [read] at same
        exact explains.unique_whole plain same
      · rw [TokenRead.apart, takes, read]
        rw [read] at same
        exact explains.unique_whole plain same
  | false =>
      cases explains with
      | whole named => exact absurd named (by rw [long]; exact Bool.false_ne_true)
      | apart named => exact absurd named (by rw [long]; exact Bool.false_ne_true)
      | equals named => exact absurd (startsLong_append named _) (by rw [long]; exact Bool.false_ne_true)
      | cluster cluster =>
          obtain ⟨flags_, takes⟩ := readToken_short switches index next long
          rw [TokenRead.apart, flags_, takes]
          rw [flags_] at same
          exact cluster.unique same

/-- A lone dash is no flag. -/
theorem Explains.token_ne {own : List ParsedFlag} {apart : Option Text} (explains : Explains own token apart) :
    token ≠ ['-'] := by
  intro lone
  cases explains with
  | whole long => exact absurd long (by rw [lone]; decide)
  | apart long => exact absurd long (by rw [lone]; decide)
  | equals long => exact absurd (startsLong_append long _) (by rw [lone]; decide)
  | cluster cluster => exact absurd (List.cons.inj lone).2 cluster.letters_ne

theorem Accounts.split (accounts : Accounts flags (token :: rest)) :
    ∃ own others apart behind, flags = own ++ others ∧ rest = apart.toList ++ behind ∧
      Explains own token apart ∧ Accounts others behind := by
  cases accounts with
  | token explains remaining => exact ⟨_, _, _, _, rfl, rfl, explains, remaining⟩

/-! ### The tokens of a command -/

/-- Whether a lone dash stands where a flag is read -/
def readsDash (switches : List Nat) (skip : Bool) (index : Nat) : List Text → Bool
  | [] => false
  | token :: rest =>
      if skip then readsDash switches false (index + 1) rest
      else if token.head? ≠ some '-' then false
      else token = ['-'] || readsDash switches (readToken switches index rest.head? token).consumedValue (index + 1) rest

/-- The image and what is behind it -/
def ParsedCommand.tail (parsed : ParsedCommand) : List Text := parsed.image.toList ++ parsed.args

theorem readFrom_accounts (tokens : List Text) (switches : List Nat) (skip : Bool) (index : Nat) (soFar : List ParsedFlag)
    (guessed : Option Nat) :
    ∃ read consumed,
      (readFrom switches skip index soFar guessed tokens).parsed.flags = soFar ++ read ∧
      tokens = (if skip then tokens.head?.toList else []) ++ consumed ++
        (readFrom switches skip index soFar guessed tokens).parsed.tail ∧
      (Accounts read consumed ↔ readsDash switches skip index tokens = false) := by
  induction tokens generalizing skip index soFar guessed with
  | nil =>
      refine ⟨[], [], (List.append_nil _).symm, ?_, ?_⟩
      · cases skip <;> rfl
      · exact ⟨fun _ => rfl, fun _ => .nil⟩
  | cons token rest ih =>
      cases skip with
      | true =>
          obtain ⟨read, consumed, flags_, whole, accounts⟩ := ih false (index + 1) soFar guessed
          refine ⟨read, consumed, flags_, ?_, accounts⟩
          exact congrArg (token :: ·) whole
      | false =>
          by_cases dash : token.head? = some '-'
          · obtain ⟨read, consumed, flags_, whole, accounts⟩ := ih (readToken switches index rest.head? token).consumedValue
              (index + 1) (soFar ++ (readToken switches index rest.head? token).flags)
              (if (readToken switches index rest.head? token).guess then some index else guessed)
            have step : readFrom switches false index soFar guessed (token :: rest) =
                readFrom switches (readToken switches index rest.head? token).consumedValue (index + 1)
                  (soFar ++ (readToken switches index rest.head? token).flags)
                  (if (readToken switches index rest.head? token).guess then some index else guessed) rest := by
              rw [readFrom, if_neg Bool.false_ne_true, if_neg (not_not.mpr dash)]
            rw [step]
            refine ⟨(readToken switches index rest.head? token).flags ++ read,
              token :: (((readToken switches index rest.head? token).apart rest.head?).toList ++ consumed), ?_, ?_, ?_⟩
            · rw [flags_, List.append_assoc]
            · have taken : (if (readToken switches index rest.head? token).consumedValue then rest.head?.toList else []) =
                  ((readToken switches index rest.head? token).apart rest.head?).toList := by
                unfold TokenRead.apart
                split <;> rfl
              rw [taken] at whole
              exact congrArg (token :: ·) whole
            · rw [readsDash, if_neg Bool.false_ne_true, if_neg (not_not.mpr dash), Bool.or_eq_false_iff, ← accounts]
              constructor
              · intro all
                obtain ⟨own, others, apart, behind, flags_, tokens_, explains, remaining⟩ := all.split
                obtain ⟨rfl, rfl⟩ := explains.unique flags_.symm
                have others_ := List.append_cancel_left flags_
                have behind_ := List.append_cancel_left tokens_
                rw [others_, behind_]
                exact ⟨decide_eq_false explains.token_ne, remaining⟩
              · intro both
                exact .token (readToken_explains dash (of_decide_eq_false both.1)) both.2
          · refine ⟨[], [], ?_, ?_, ?_⟩
            · rw [readFrom, if_neg Bool.false_ne_true, if_pos dash, List.append_nil]
            · rw [readFrom, if_neg Bool.false_ne_true, if_pos dash]
              rfl
            · rw [readsDash, if_neg Bool.false_ne_true, if_pos dash]
              exact ⟨fun _ => rfl, fun _ => .nil⟩

/-- Where no lone dash is read as a flag -/
def DashFree (tokens : List Text) : Prop :=
  readsDash (lastSwitches tokens) false ((tokens.takeWhile (· ≠ run)).length + 1) (behindRun tokens) = false

instance (tokens : List Text) : Decidable (DashFree tokens) := inferInstanceAs (Decidable (_ = _))

/-- The flags account for every token between `run` and the image exactly where no lone dash is read as a flag. -/
theorem parse_accounts (command : Text) :
    (∃ consumed, behindRun (tokeniseCommand command) = consumed ++ (parseDockerRun command).tail ∧
      Accounts (parseDockerRun command).flags consumed) ↔ DashFree (tokeniseCommand command) := by
  rw [parseDockerRun, DashFree]
  generalize tokeniseCommand command = tokens
  obtain ⟨read, consumed, flags_, whole, accounts⟩ := readFrom_accounts (behindRun tokens) (lastSwitches tokens) false
    ((tokens.takeWhile (· ≠ run)).length + 1) [] none
  rw [← accounts]
  constructor
  · intro found
    obtain ⟨other, split, accounted⟩ := found
    rw [readTokens, flags_, List.nil_append] at accounted
    have same : other = consumed := List.append_cancel_right (split.symm.trans whole)
    rw [← same]
    exact accounted
  · intro accounted
    refine ⟨consumed, whole, ?_⟩
    rw [readTokens, flags_]
    exact accounted

/-- The command is read at most once more than it has tokens, and its last reading is the one that is used. -/
theorem parse_ends (tokens : List Text) :
    ∃ count, lastReading tokens [] (tokens.length + 1) = some (lastSwitches tokens, count) ∧ count ≤ tokens.length + 1 ∧
      ((readTokens tokens (lastSwitches tokens)).parsed.image ≠ none ∨
        (readTokens tokens (lastSwitches tokens)).guessed = none) := by
  obtain ⟨last, count, ends, few, final⟩ := lastReading_ends tokens [] (tokens.length + 1) List.nodup_nil
    (by simp) (Nat.le_refl _)
  have same : lastSwitches tokens = last := by
    rw [lastSwitches, ends]
    rfl
  rw [same]
  exact ⟨count, ends, few, final⟩

end Dockge.DockerRun
