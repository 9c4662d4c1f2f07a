import Mathlib
import Dockge.ComposeProgress.Reads

namespace Dockge.ComposeProgress

open Data

/-! The steps of an output are what its lines come to, one after the other. -/

variable {Number : Type} {language : Language Number} {output more text : Text} {lines rest : List Text}

/-! ## Lines of a text -/

def stripReturn : Text → Text
  | [] => []
  | [13] => []
  | unit :: rest => unit :: stripReturn rest

def dropReturn : List Text → List Text
  | [] => []
  | [last] => [stripReturn last]
  | first :: rest => first :: dropReturn rest

theorem stripReturn_cons {unit : Nat} {rest : Text} (other : unit = 13 → rest ≠ []) :
    stripReturn (unit :: rest) = unit :: stripReturn rest := stripReturn.eq_3 unit rest other

theorem splitLines_cons {unit : Nat} {rest : Text} (other : ∀ rest_, unit = 13 → rest = 10 :: rest_ → False)
    (other_ : unit = 10 → False) : splitLines (unit :: rest) = putFront unit (splitLines rest) := by
  rw [splitLines]
  · exact other
  · exact other_

theorem stripReturn_cases (text : Text) : stripReturn text = text ∨ text = stripReturn text ++ [13] := by
  induction text using stripReturn.induct with
  | case1 => exact .inl rfl
  | case2 => exact .inr rfl
  | case3 unit rest other ih =>
      rw [stripReturn_cons other]
      obtain same | ended := ih
      · exact .inl (by rw [same])
      · exact .inr (by rw [List.cons_append, ← ended])

theorem trim_return (text : Text) : trim (text ++ [13]) = trim text := by
  rw [trim, trim, List.dropWhile_append]
  cases dropped : text.dropWhile isSpace with
  | nil => rfl
  | cons unit rest =>
      rw [List.isEmpty_cons, if_neg Bool.false_ne_true, List.reverse_append, List.reverse_singleton,
        List.singleton_append, List.dropWhile_cons_of_pos rfl]

theorem trim_stripReturn (text : Text) : trim (stripReturn text) = trim text := by
  obtain same | ended := stripReturn_cases text
  · rw [same]
  · rw [ended, trim_return, ← ended]

theorem map_trim_dropReturn (lines : List Text) : (dropReturn lines).map trim = lines.map trim := by
  induction lines using dropReturn.induct with
  | case1 => rfl
  | case2 last => rw [dropReturn, List.map_singleton, trim_stripReturn, List.map_singleton]
  | case3 first rest other ih =>
      rw [dropReturn, List.map_cons, ih, List.map_cons]
      exact other

theorem putFront_append (unit : Nat) (lines others : List Text) (some_ : lines ≠ []) :
    putFront unit (lines ++ others) = putFront unit lines ++ others := by
  cases lines with
  | nil => exact absurd rfl some_
  | cons first rest => rfl

theorem putFront_some (unit : Nat) (lines : List Text) : putFront unit lines ≠ [] := by
  cases lines <;> exact List.cons_ne_nil _ _

theorem splitLines_some (text : Text) : splitLines text ≠ [] := by
  induction text using splitLines.induct with
  | case1 => exact List.cons_ne_nil _ _
  | case2 rest ih => exact List.cons_ne_nil _ _
  | case3 rest ih => exact List.cons_ne_nil _ _
  | case4 unit rest other other_ ih =>
      rw [splitLines_cons other other_]
      exact putFront_some _ _

theorem dropReturn_some {lines : List Text} (some_ : lines ≠ []) : dropReturn lines ≠ [] := by
  cases lines with
  | nil => exact absurd rfl some_
  | cons first rest => cases rest <;> exact List.cons_ne_nil _ _

theorem dropReturn_putFront (unit : Nat) (some_ : lines ≠ []) (other : lines = [[]] → unit ≠ 13) :
    dropReturn (putFront unit lines) = putFront unit (dropReturn lines) := by
  cases lines with
  | nil => exact absurd rfl some_
  | cons first rest =>
      cases rest with
      | cons second rest => rfl
      | nil =>
          have cut : stripReturn (unit :: first) = unit :: stripReturn first :=
            stripReturn_cons fun equal none_ => other (by rw [none_]) equal
          rw [putFront, dropReturn, dropReturn, cut]
          rfl

theorem splitLines_eq_blank (blank : splitLines text = [[]]) : text = [] := by
  cases text using splitLines.fun_cases_unfolding with
  | case1 => rfl
  | case2 rest =>
      exact absurd (List.cons.inj blank).2 (splitLines_some rest)
  | case3 rest => exact absurd (List.cons.inj blank).2 (splitLines_some rest)
  | case4 unit rest other other_ =>
      rw [splitLines_cons other other_] at blank
      cases found : splitLines rest with
      | nil => exact absurd found (splitLines_some rest)
      | cons first others =>
          rw [found] at blank
          cases blank

/-- A line break after a text cuts off its last line, with the return before the break. -/
theorem splitLines_append (text more : Text) :
    splitLines (text ++ 10 :: more) = dropReturn (splitLines text) ++ splitLines more := by
  induction text using splitLines.induct with
  | case1 => rfl
  | case2 rest ih =>
      rw [List.cons_append, List.cons_append, splitLines, ih, splitLines]
      cases found : splitLines rest with
      | nil => exact absurd found (splitLines_some rest)
      | cons first others => rfl
  | case3 rest ih =>
      rw [List.cons_append, splitLines, ih, splitLines]
      cases found : splitLines rest with
      | nil => exact absurd found (splitLines_some rest)
      | cons first others => rfl
  | case4 unit rest other other_ ih =>
      rw [splitLines_cons other other_]
      by_cases ends : unit = 13 ∧ rest = []
      · obtain ⟨rfl, rfl⟩ := ends
        rfl
      · have apart : ∀ rest_, unit = 13 → rest ++ 10 :: more = 10 :: rest_ → False := by
          intro rest_ return_ next
          cases rest with
          | nil => exact ends ⟨return_, rfl⟩
          | cons first rest => exact other rest return_ (by rw [(List.cons.inj next).1])
        rw [List.cons_append, splitLines_cons apart other_, ih,
          putFront_append unit _ _ (dropReturn_some (splitLines_some rest)), dropReturn_putFront unit (splitLines_some rest)]
        exact fun blank return_ => ends ⟨return_, splitLines_eq_blank blank⟩

/-! ## What the lines come to -/

/-- No control sequence is in a text. -/
def NoEscapes (output : Text) : Prop := stripAnsi output = output

instance (output : Text) : Decidable (NoEscapes output) := inferInstanceAs (Decidable (_ = _))

def linesOf (output : Text) : List Text := (splitLines (stripAnsi output)).map trim

theorem linesOf_append (plain : NoEscapes output) (plain_ : NoEscapes more) (whole : NoEscapes (output ++ 10 :: more)) :
    linesOf (output ++ 10 :: more) = linesOf output ++ linesOf more := by
  rw [linesOf, whole, splitLines_append, List.map_append, map_trim_dropReturn, linesOf, plain, linesOf, plain_]

/-- The lines that are neither blank nor a headline -/
def taskLines (lines : List Text) : List Text := lines.filter fun line => line != [] && (headline line).isNone

def readings (language : Language Number) (lines : List Text) : List (ComposeTask Number) :=
  (taskLines lines).filterMap (parseTask language)

/-- The last headline, where there is one -/
def counted [Zero Number] (language : Language Number) (lines : List Text) : Text × Number × Number :=
  ((lines.filterMap headline).getLast?.map fun (word, done, total) =>
    (language.toLowerCase word, language.number done, language.number total)).getD ([], 0, 0)

def Keyed (map : OrderedMap Text (ComposeTask Number)) : Prop := ∀ entry ∈ map.entries, entry.1 = entry.2.key

variable {map : OrderedMap Text (ComposeTask Number)}

theorem Keyed.set (keyed : Keyed map) (task : ComposeTask Number) : Keyed (map.set task.key task) := by
  intro entry member
  obtain held | rfl := OrderedMap.mem_set member
  · exact keyed entry held
  · rfl

theorem Keyed.keys (keyed : Keyed map) : (map.entries.map Prod.snd).map ComposeTask.key = map.keys := by
  rw [OrderedMap.keys, List.map_map]
  exact List.map_congr_left fun entry member => (keyed entry member).symm

theorem map_insertBy {entries : List (Text × ComposeTask Number)} (distinct : (entries.map Prod.fst).Nodup)
    (keyed : ∀ entry ∈ entries, entry.1 = entry.2.key) (task : ComposeTask Number)
    (there : task.key ∈ entries.map Prod.fst) :
    (entries.map fun item => (item.1, if item.1 = task.key then task else item.2)).map Prod.snd =
      insertBy ComposeTask.key task (entries.map Prod.snd) := by
  induction entries with
  | nil => cases there
  | cons entry entries ih =>
      rw [List.map_cons, List.nodup_cons] at distinct
      rw [List.map_cons, List.map_cons, List.map_cons, insertBy, ← keyed entry List.mem_cons_self]
      by_cases here : entry.1 = task.key
      · have others : ∀ item ∈ entries, item.1 ≠ task.key := fun item member same =>
          distinct.1 (here ▸ same ▸ List.mem_map_of_mem member)
        rw [if_pos here, if_pos here, List.map_map]
        refine congrArg _ (List.map_congr_left fun item member => ?_)
        exact if_neg (others item member)
      · have later : task.key ∈ entries.map Prod.fst := (List.mem_cons.mp there).resolve_left fun same => here same.symm
        rw [if_neg here, if_neg here, ih distinct.2 (fun item member => keyed item (List.mem_cons_of_mem _ member)) later]

/-- Setting a step in the map puts it in its place in the list. -/
theorem Keyed.values_set (keyed : Keyed map) (task : ComposeTask Number) :
    (map.set task.key task).entries.map Prod.snd = insertBy ComposeTask.key task (map.entries.map Prod.snd) := by
  by_cases there : task.key ∈ map.keys
  · rw [OrderedMap.set_of_present task there]
    exact map_insertBy map.distinct keyed task there
  · have missing : task.key ∉ (map.entries.map Prod.snd).map ComposeTask.key := by rwa [keyed.keys]
    rw [OrderedMap.set_of_absent task (OrderedMap.get_eq_none.mpr there), List.map_append, List.map_singleton,
      insertBy_of_absent missing]

def Scan.readTrimmed (language : Language Number) (scan : Scan Number) (line : Text) : Scan Number :=
  if line = [] then scan
  else
    match headline line with
    | some (word, done, total) =>
        { scan with phase := language.toLowerCase word, done := language.number done, total := language.number total }
    | none =>
        match parseTask language line with
        | some task => { scan with tasks := scan.tasks.set task.key task }
        | none => scan

theorem readings_concat (lines : List Text) (line : Text) :
    readings language (lines ++ [line]) =
      readings language lines ++
        (if line = [] ∨ (headline line).isSome = true then [] else (parseTask language line).toList) := by
  rw [readings, taskLines, List.filter_append, List.filterMap_append, ← taskLines, ← readings]
  refine congrArg _ ?_
  by_cases blank : line = []
  · rw [if_pos (.inl blank), blank]
    rfl
  · cases found : headline line with
    | some counts =>
        rw [if_pos (.inr rfl), List.filter_cons_of_neg (by rw [found, Option.isNone_some, Bool.and_false]; decide)]
        rfl
    | none =>
        rw [if_neg (by rw [not_or]; exact ⟨blank, Bool.false_ne_true⟩),
          List.filter_cons_of_pos (by rw [found, bne_iff_ne.mpr blank]; rfl)]
        cases parsed : parseTask language line with
        | none => rw [List.filterMap_cons_none parsed]; rfl
        | some task => rw [List.filterMap_cons_some parsed]; rfl

theorem counted_concat [Zero Number] (lines : List Text) (line : Text) :
    counted language (lines ++ [line]) =
      match headline line with
      | some (word, done, total) => (language.toLowerCase word, language.number done, language.number total)
      | none => counted language lines := by
  rw [counted, List.filterMap_append]
  cases found : headline line with
  | none => rw [List.filterMap_cons_none found, List.filterMap_nil, List.append_nil, counted]
  | some counts => rw [List.filterMap_cons_some found, List.filterMap_nil, List.getLast?_concat, Option.map_some, Option.getD_some]

/-- What is left of the lines so far: the steps under their keys, and the last headline -/
structure Scan.Holds [Zero Number] (language : Language Number) (lines : List Text) (scan : Scan Number) : Prop where
  keyed : Keyed scan.tasks
  tasks : scan.tasks.entries.map Prod.snd = collect ComposeTask.key [] (readings language lines)
  counts : (scan.phase, scan.done, scan.total) = counted language lines

theorem Scan.Holds.step [Zero Number] {scan : Scan Number} (holds : scan.Holds language lines) (line : Text) :
    (scan.readTrimmed language line).Holds language (lines ++ [line]) := by
  unfold readTrimmed
  by_cases blank : line = []
  · rw [if_pos blank]
    refine ⟨holds.keyed, ?_, ?_⟩
    · rw [readings_concat, if_pos (.inl blank), List.append_nil, holds.tasks]
    · rw [counted_concat, blank]
      exact holds.counts
  · rw [if_neg blank]
    cases found : headline line with
    | some counts =>
        refine ⟨holds.keyed, ?_, ?_⟩
        · rw [readings_concat, if_pos (.inr (by rw [found]; rfl)), List.append_nil]
          exact holds.tasks
        · rw [counted_concat, found]
    | none =>
        have read : ¬(line = [] ∨ (headline line).isSome = true) := by
          rw [not_or, found]
          exact ⟨blank, Bool.false_ne_true⟩
        cases parsed : parseTask language line with
        | none =>
            refine ⟨holds.keyed, ?_, ?_⟩
            · rw [readings_concat, if_neg read, parsed, Option.toList_none, List.append_nil]
              exact holds.tasks
            · rw [counted_concat, found]
              exact holds.counts
        | some task =>
            refine ⟨holds.keyed.set task, ?_, ?_⟩
            · rw [readings_concat, if_neg read, parsed, Option.toList_some, collect_concat, ← holds.tasks]
              exact holds.keyed.values_set task
            · rw [counted_concat, found]
              exact holds.counts

theorem holds_lines [Zero Number] (lines : List Text) :
    (lines.foldl (Scan.readTrimmed language) ⟨[], 0, 0, .empty⟩ : Scan Number).Holds language lines := by
  induction lines using List.reverseRecOn with
  | nil => exact ⟨fun _ never => (by cases never), rfl, rfl⟩
  | append_singleton lines line ih =>
      rw [List.foldl_append]
      exact ih.step line

def anyFailed (tasks : List (ComposeTask Number)) : Bool := tasks.any fun item => item.state == some .failed

/-- The steps of an output and its counter, from its lines -/
theorem parse_eq [Zero Number] (output : Text) :
    parseComposeProgress language output =
      { phase := (counted language (linesOf output)).1, done := (counted language (linesOf output)).2.1
        total := (counted language (linesOf output)).2.2
        tasks := collect ComposeTask.key [] (readings language (linesOf output))
        failed := anyFailed (collect ComposeTask.key [] (readings language (linesOf output))) } := by
  have folded : (splitLines (stripAnsi output)).foldl (readLine language) ⟨[], 0, 0, .empty⟩ =
      ((linesOf output).foldl (Scan.readTrimmed language) ⟨[], 0, 0, .empty⟩ : Scan Number) := by
    rw [linesOf, List.foldl_map]
    rfl
  have holds := @holds_lines Number language _ (linesOf output)
  rw [parseComposeProgress, folded, Scan.progress, ← holds.tasks, ← holds.counts]
  rfl

end Dockge.ComposeProgress
