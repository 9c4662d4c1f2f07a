import Dockge.Stability.Collector
import Mathlib.Data.List.Chain

namespace Dockge.Stability

open Dockge.Data Dockge.StackStatus

/-! Which samples an interval of the container history stands for. -/

/-- When a container was seen, and how. -/
abbrev Seen := Nat × Status

/-- The committed samples that list a container. -/
def samplesOf (taken : List Snapshot) (id : String) : List Seen :=
  taken.filterMap fun sample =>
    (sample.containers.find? (·.id = id)).map fun container => (sample.observedAt, container.status)

/-- The first sample of an interval. -/
def start (row : IntervalRow String Status) : Seen := (row.observedAt, row.status)

/-- A chain of samples with no longer wait between neighbours than one lost scan, all in the status
of the interval but possibly the last, at which the next interval starts. -/
structure Chain (row : IntervalRow String Status) (next : Option Seen) (chain : List Seen) : Prop where
  begins : chain.head? = some (start row)
  reaches : chain.getLast?.map (·.1) = some row.observedUntil
  near : chain.IsChain fun earlier later => earlier.1 ≤ later.1 ∧ later.1 ≤ earlier.1 + stabilityStaleMs
  same : ∀ sample ∈ chain.dropLast, sample.2 = row.status
  ends : ∀ sample, chain.getLast? = some sample → sample.2 = row.status ∨ next = some sample

/-- Each interval is a chain of consecutive samples; `after` starts the interval behind the last. -/
def Chained (samples : List Seen) (after : Option Seen) : List (IntervalRow String Status) → Prop
  | [] => True
  | row :: rest =>
      (∃ earlier chain later, samples = earlier ++ chain ++ later ∧
        Chain row ((rest.head?.map start).or after) chain) ∧ Chained samples after rest

variable {row new : IntervalRow String Status} {next after : Option Seen} {chain samples : List Seen}
variable {rows front rest : List (IntervalRow String Status)} {sample : Seen} {now : Nat}

theorem Chain.nonempty (held : Chain row next chain) : ∃ before last, chain = before ++ [last] := by
  have begins := held.begins
  cases reversed : chain.reverse with
  | nil =>
      rw [List.reverse_eq_nil_iff.mp reversed] at begins
      contradiction
  | cons last before =>
      refine ⟨before.reverse, last, ?_⟩
      rw [← List.reverse_reverse chain, reversed, List.reverse_cons]

/-- When nothing follows the interval, its last sample shows its status too. -/
theorem Chain.uniform (held : Chain row none chain) : ∀ sample ∈ chain, sample.2 = row.status := by
  obtain ⟨before, last, same⟩ := held.nonempty
  subst same
  intro sample member
  rcases List.mem_append.mp member with earlier | final
  · exact held.same sample (by simpa using earlier)
  · rw [List.mem_singleton.mp final]
    rcases held.ends last (by simp) with showsIt | follows
    · exact showsIt
    · contradiction

theorem Chain.follow (held : Chain row none chain) : Chain row next chain :=
  ⟨held.begins, held.reaches, held.near, held.same, fun sample last =>
    Or.inl (held.uniform sample (List.mem_of_getLast? last))⟩

theorem Chain.single (fresh : row.observedUntil = row.observedAt) : Chain row next [start row] := by
  refine ⟨rfl, ?_, List.isChain_singleton _, by simp, ?_⟩
  · simp [start, fresh]
  · intro sample last
    simp only [List.getLast?_singleton, Option.some.injEq] at last
    rw [← last]
    exact Or.inl rfl

/-- One more sample, soon enough, lengthens the interval up to it. -/
theorem Chain.extend (held : Chain row none chain) (later : row.observedUntil ≤ sample.1)
    (soon : sample.1 ≤ row.observedUntil + stabilityStaleMs)
    (ends : sample.2 = row.status ∨ next = some sample) :
    Chain { row with observedUntil := sample.1 } next (chain ++ [sample]) := by
  have uniform := held.uniform
  obtain ⟨before, last, same⟩ := held.nonempty
  subst same
  have reaches : last.1 = row.observedUntil := by simpa using held.reaches
  refine ⟨?_, by simp, ?_, ?_, ?_⟩
  · have begins := held.begins
    rw [List.head?_append, begins]
    rfl
  · rw [List.isChain_append]
    refine ⟨held.near, List.isChain_singleton _, ?_⟩
    intro previous isLast first isFirst
    simp only [List.getLast?_append, List.getLast?_singleton, Option.some_or, Option.mem_def, Option.some.injEq,
      List.head?_cons] at isLast isFirst
    rw [← isLast, ← isFirst, reaches]
    exact ⟨later, soon⟩
  · intro earlier member
    rw [List.dropLast_concat] at member
    exact uniform earlier member
  · intro final isLast
    simp only [List.getLast?_append, List.getLast?_singleton, Option.some_or, Option.some.injEq] at isLast
    rw [← isLast]
    exact ends

theorem Chained.more (held : Chained samples after rows) (sample : Seen) :
    Chained (samples ++ [sample]) after rows := by
  induction rows with
  | nil => trivial
  | cons row rest ih =>
      obtain ⟨⟨earlier, chain, later, parts, chains⟩, tail⟩ := held
      refine ⟨⟨earlier, chain, later ++ [sample], ?_, chains⟩, ih tail⟩
      rw [parts, List.append_assoc]

theorem Chained.follow (held : Chained samples none rows) : Chained samples after rows := by
  induction rows with
  | nil => trivial
  | cons row rest ih =>
      obtain ⟨⟨earlier, chain, later, parts, chains⟩, tail⟩ := held
      refine ⟨⟨earlier, chain, later, parts, ?_⟩, ih tail⟩
      cases rest with
      | nil => exact chains.follow
      | cons following _ => exact chains

theorem chained_append : Chained samples after (front ++ [row]) ↔
    Chained samples (some (start row)) front ∧
      ∃ earlier chain later, samples = earlier ++ chain ++ later ∧ Chain row after chain := by
  induction front with
  | nil => simp [Chained]
  | cons first rest ih =>
      simp only [List.cons_append, Chained, ih, and_assoc]
      cases rest <;> simp

theorem Chained.split (held : Chained samples none rows) (parts : rows = front ++ row :: rest) :
    ∃ earlier chain later, samples = earlier ++ chain ++ later ∧ Chain row (rest.head?.map start) chain := by
  subst parts
  induction front with
  | nil => simpa using held.1
  | cons first _ ih => exact ih held.2

/-- Removing the oldest intervals leaves the others what they were. -/
theorem Chained.prune (held : Chained samples none rows) (settled : Settled rows now) (cutoff : Nat) :
    Chained samples none (rows.filter (cutoff ≤ ·.observedUntil)) := by
  induction rows with
  | nil => trivial
  | cons row rest ih =>
      obtain ⟨before, apart⟩ := List.pairwise_cons.mp settled.apart
      have tailSettled : Settled rest now :=
        ⟨apart, fun later member => settled.begun later (List.mem_cons_of_mem _ member),
          fun later member => settled.past later (List.mem_cons_of_mem _ member)⟩
      by_cases kept : cutoff ≤ row.observedUntil
      · have restKept : rest.filter (cutoff ≤ ·.observedUntil) = rest := by
          apply List.filter_eq_self.mpr
          intro later member
          have follows : row.observedUntil ≤ later.observedAt := before later member
          have begun := settled.begun later (List.mem_cons_of_mem _ member)
          exact decide_eq_true (by omega)
        rw [List.filter_cons_of_pos (by simpa using kept), restKept]
        exact held
      · rw [List.filter_cons_of_neg (by simpa using kept)]
        exact ih held.2 tailSettled

end Dockge.Stability
