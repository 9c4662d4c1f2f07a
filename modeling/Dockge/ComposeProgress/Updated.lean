import Mathlib
import Dockge.ComposeProgress.Folded

namespace Dockge.ComposeProgress

open Data

/-! What is shown of an output, and of one output after another. -/

variable {Number : Type} {language : Language Number} {output more text : Text} {lines : List Text}
  {task other : ComposeTask Number}

/-- The progress of an output, brought up to date with that of the next one -/
def ComposeProgress.update (earlier later : ComposeProgress Number) : ComposeProgress Number :=
  let tasks := collect ComposeTask.key earlier.tasks later.tasks
  { phase := if later.phase = [] then earlier.phase else later.phase
    done := if later.phase = [] then earlier.done else later.done
    total := if later.phase = [] then earlier.total else later.total
    tasks, failed := anyFailed tasks }

/-- The line that a step is from, after which no line names its resource -/
def LastRead (language : Language Number) (lines : List Text) (task : ComposeTask Number) : Prop :=
  ∃ before line after, taskLines lines = before ++ line :: after ∧ Reads language line task ∧
    ∀ later ∈ after, ∀ other, Reads language later other → ¬(other.kind = task.kind ∧ other.name = task.name)

/-- The lines of an output and no others make its steps. -/
structure IsFold [Zero Number] (language : Language Number) (output : Text) : Prop where
  lines : ∀ line ∈ taskLines (linesOf output), ∀ task, parseTask language line = some task ↔ Reads language line task
  tasks : ∀ task, task ∈ (parseComposeProgress language output).tasks ↔ LastRead language (linesOf output) task
  known : ∀ task ∈ (parseComposeProgress language output).tasks,
    ∃ kind verb state, task.kind = .own kind ∧ task.verb = some verb ∧ task.state = some state
  failed : (parseComposeProgress language output).failed = true ↔
    ∃ task, LastRead language (linesOf output) task ∧ task.state = some .failed
  updated : ∀ more, NoEscapes more → NoEscapes (output ++ 10 :: more) →
    parseComposeProgress language (output ++ 10 :: more) =
      (parseComposeProgress language output).update (parseComposeProgress language more)
  redrawn : ∀ block, NoEscapes block → NoEscapes (output ++ 10 :: block) →
    NoEscapes ((output ++ 10 :: block) ++ 10 :: block) →
    parseComposeProgress language ((output ++ 10 :: block) ++ 10 :: block) =
      parseComposeProgress language (output ++ 10 :: block)

/-- No line is read by a word that every object has. -/
def Plain (language : Language Number) (output : Text) : Prop :=
  ∀ line ∈ taskLines (linesOf output), ¬ Trips language (splitSpaces (readMark language line).2)

/-! ## One step -/

theorem reads_known (reads : Reads language text task) :
    ∃ kind verb state, task.kind = .own kind ∧ task.verb = some verb ∧ task.state = some state ∧
      task.key = kind.text ++ utf16 ":" ++ task.name := by
  unfold Reads at reads
  generalize splitSpaces (readMark language text).2 = tokens at reads
  cases reads with
  | kind => exact ⟨_, _, _, rfl, rfl, rfl, rfl⟩
  | image => exact ⟨_, _, _, rfl, rfl, rfl, rfl⟩

theorem kind_text_inj {first second : Kind} {left right : Text}
    (same : first.text ++ utf16 ":" ++ left = second.text ++ utf16 ":" ++ right) : first = second ∧ left = right := by
  have head := congrArg List.head? same
  cases first <;> cases second <;> first
    | exact ⟨rfl, List.append_cancel_left same⟩
    | cases head

theorem key_eq_iff (reads : Reads language text task) {line : Text} (reads_ : Reads language line other) :
    other.key = task.key ↔ other.kind = task.kind ∧ other.name = task.name := by
  obtain ⟨kind, -, -, own, -, -, key⟩ := reads_known reads
  obtain ⟨kind_, -, -, own_, -, -, key_⟩ := reads_known reads_
  rw [key, key_, own, own_, Property.own.injEq]
  constructor
  · exact kind_text_inj
  · intro ⟨same, same_⟩
    rw [same, same_]

theorem parse_iff_reads (plain : ¬ Trips language (splitSpaces (readMark language text).2)) :
    parseTask language text = some task ↔ Reads language text task :=
  ⟨reads_of_parseTokens plain, parseTokens_of_reads plain⟩

/-! ## The whole output -/

theorem reading_iff (plain : ∀ line ∈ taskLines lines, ¬ Trips language (splitSpaces (readMark language line).2)) :
    task ∈ collect ComposeTask.key [] (readings language lines) ↔ LastRead language lines task := by
  rw [mem_collect, readings]
  constructor
  · intro last
    obtain ⟨before, after, same, others⟩ := last
    obtain ⟨front, others_, parts, -, found⟩ := List.filterMap_eq_append_iff.mp same
    obtain ⟨skipped, line, rest, rfl, none_, parsed, rfl⟩ := List.filterMap_eq_cons_iff.mp found
    have whole : taskLines lines = (front ++ skipped) ++ line :: rest := by
      rw [parts, List.append_assoc]
    have inside : line ∈ taskLines lines := by
      rw [whole]
      exact List.mem_append_right _ List.mem_cons_self
    have reads := (parse_iff_reads (plain line inside)).mp parsed
    refine ⟨_, line, rest, whole, reads, ?_⟩
    intro later member other reads_ equal
    have inside_ : later ∈ taskLines lines := by
      rw [whole]
      exact List.mem_append_right _ (List.mem_cons_of_mem _ member)
    have parsed_ := (parse_iff_reads (plain later inside_)).mpr reads_
    exact others other (List.mem_filterMap.mpr ⟨later, member, parsed_⟩) ((key_eq_iff reads reads_).mpr equal)
  · intro read
    obtain ⟨before, line, after, whole, reads, others⟩ := read
    have inside : line ∈ taskLines lines := by
      rw [whole]
      exact List.mem_append_right _ List.mem_cons_self
    have parsed := (parse_iff_reads (plain line inside)).mpr reads
    refine ⟨before.filterMap (parseTask language), after.filterMap (parseTask language), ?_, ?_⟩
    · rw [whole, List.filterMap_append, List.filterMap_cons_some parsed]
    · intro other member equal
      obtain ⟨later, member, parsed_⟩ := List.mem_filterMap.mp member
      have inside_ : later ∈ taskLines lines := by
        rw [whole]
        exact List.mem_append_right _ (List.mem_cons_of_mem _ member)
      have reads_ := (parse_iff_reads (plain later inside_)).mp parsed_
      exact others later member other reads_ ((key_eq_iff reads reads_).mp equal)

theorem readings_append (lines rest : List Text) :
    readings language (lines ++ rest) = readings language lines ++ readings language rest := by
  rw [readings, taskLines, List.filter_append, List.filterMap_append]
  rfl

theorem headline_word {line word done total : Text} (found : headline line = some (word, done, total)) : word ≠ [] := by
  unfold headline at found
  split at found
  next =>
    dsimp only at found
    split at found
    next =>
      split at found
      next valid =>
        simp only [Bool.and_eq_true, bne_iff_ne] at valid
        obtain ⟨rfl, -, -⟩ : _ ∧ _ ∧ _ := by simpa only [Option.some.injEq, Prod.mk.injEq] using found
        exact valid.1.1.1.2
      next => cases found
    next => cases found
  next => cases found

theorem counted_append [Zero Number] (lines rest : List Text) :
    counted language (lines ++ rest) =
      if (counted language rest).1 = [] then counted language lines else counted language rest := by
  rw [counted, counted, List.filterMap_append, List.getLast?_append]
  cases last : (rest.filterMap headline).getLast? with
  | none => rfl
  | some counts =>
      obtain ⟨line, -, found⟩ := List.mem_filterMap.mp (List.mem_of_getLast? last)
      obtain ⟨word, done, total⟩ := counts
      have some_ : language.toLowerCase word ≠ [] := fun none_ => headline_word found (language.lower_some word none_)
      exact (if_neg some_).symm

theorem parse_append [Zero Number] (plain : NoEscapes output) (plain_ : NoEscapes more)
    (whole : NoEscapes (output ++ 10 :: more)) :
    parseComposeProgress language (output ++ 10 :: more) =
      (parseComposeProgress language output).update (parseComposeProgress language more) := by
  have tasks : collect ComposeTask.key [] (readings language (linesOf output ++ linesOf more)) =
      collect ComposeTask.key (collect ComposeTask.key [] (readings language (linesOf output)))
        (collect ComposeTask.key [] (readings language (linesOf more))) := by
    rw [readings_append, collect_append, collect_collect]
  rw [parse_eq, parse_eq output, parse_eq more, ComposeProgress.update, linesOf_append plain plain_ whole,
    counted_append, tasks]
  dsimp only
  split <;> rfl

theorem update_again (earlier : ComposeProgress Number) {later : ComposeProgress Number}
    (distinct : (later.tasks.map ComposeTask.key).Nodup) (start : (earlier.tasks.map ComposeTask.key).Nodup) :
    (earlier.update later).update later = earlier.update later := by
  have held : collect ComposeTask.key (collect ComposeTask.key earlier.tasks later.tasks) later.tasks =
      collect ComposeTask.key earlier.tasks later.tasks :=
    collect_held (fun task member => mem_collect_of_mem earlier.tasks distinct start member) (nodup_collect start _)
  unfold ComposeProgress.update
  dsimp only
  rw [held]
  split <;> rfl

theorem parse_distinct [Zero Number] (output : Text) :
    ((parseComposeProgress language output).tasks.map ComposeTask.key).Nodup := by
  rw [parse_eq]
  exact nodup_collected _

/-- The steps come from the lines exactly where no line is read by a word that every object has. -/
theorem progress_folds_lines [Zero Number] (language : Language Number) (output : Text) (plain : NoEscapes output) :
    IsFold language output ↔ Plain language output := by
  constructor
  · intro folds line member trips
    obtain ⟨task, misread⟩ := @misread_of_trips Number language _ (readMark language line).1 trips
    exact misread (folds.lines line member task)
  · intro clean
    have tasks : ∀ task, task ∈ (parseComposeProgress language output).tasks ↔ LastRead language (linesOf output) task := by
      intro task
      rw [parse_eq]
      exact reading_iff clean
    refine ⟨fun line member task => parse_iff_reads (clean line member), tasks, ?_, ?_, ?_, ?_⟩
    · intro task member
      obtain ⟨-, line, -, -, reads, -⟩ := (tasks task).mp member
      obtain ⟨kind, verb, state, own, told, stated, -⟩ := reads_known reads
      exact ⟨kind, verb, state, own, told, stated⟩
    · have failed : (parseComposeProgress language output).failed =
          anyFailed (parseComposeProgress language output).tasks := by rw [parse_eq]
      rw [failed, anyFailed, List.any_eq_true]
      constructor
      · intro ⟨task, member, state⟩
        exact ⟨task, (tasks task).mp member, eq_of_beq state⟩
      · intro ⟨task, last, state⟩
        exact ⟨task, (tasks task).mpr last, beq_iff_eq.mpr state⟩
    · exact fun more plain_ whole => parse_append plain plain_ whole
    · intro block plain_ once twice
      rw [parse_append once plain_ twice, parse_append plain plain_ once]
      exact update_again _ (parse_distinct block) (parse_distinct output)

/-! ## A language for plain text -/

def lowerUnit (unit : Nat) : Nat := if 65 ≤ unit ∧ unit ≤ 90 then unit + 32 else unit

/-- Letters and digits of ASCII, and whole numbers before the point -/
def ascii : Language Nat where
  toLowerCase := List.map lowerUnit
  isWord point := isLetter point || isDigit point
  number text := (text.takeWhile isDigit).foldl (fun value digit => 10 * value + (digit - 48)) 0
  lower_some _ none_ := List.map_eq_nil_iff.mp none_

theorem progress_folds_lines_pulled :
    IsFold ascii (utf16 "[+] Running 1/2\n ✔ web Pulled 3s\n") ↔ Plain ascii (utf16 "[+] Running 1/2\n ✔ web Pulled 3s\n") :=
  progress_folds_lines ascii (utf16 "[+] Running 1/2\n ✔ web Pulled 3s\n") (by decide)

/-- A line that is ordinary output is a step, since its first word is one that every object has. -/
theorem inherited_word_is_step :
    ¬ IsFold ascii (utf16 "constructor web created") ∧
      (parseComposeProgress ascii (utf16 "constructor web created")).tasks.map ComposeTask.name = [utf16 "web"] := by
  refine ⟨?_, by decide +kernel⟩
  intro folds
  have known : ∀ task ∈ (parseComposeProgress ascii (utf16 "constructor web created")).tasks,
      task.kind = .inherited (utf16 "constructor") := by decide +kernel
  have some_ : ∃ task, task ∈ (parseComposeProgress ascii (utf16 "constructor web created")).tasks := by
    refine List.exists_mem_of_ne_nil _ ?_
    decide +kernel
  obtain ⟨task, member⟩ := some_
  obtain ⟨kind, -, -, own, -⟩ := folds.known task member
  rw [known task member] at own
  cases own

end Dockge.ComposeProgress
