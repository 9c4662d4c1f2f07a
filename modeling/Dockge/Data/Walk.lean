import Mathlib

namespace Dockge.Data

/-! Programs that change a state step by step, and stop at the first refusal.

`Walks` bounds such a program from every state that meets a condition: how the state it reaches
goes on from the one before, what holds there, and which refusals are possible.
-/

abbrev Walk (σ ε α : Type) : Type := StateT σ (Except ε) α

section

variable {σ ε α β Item : Type}

def walkEach (items : List Item) (body : Item → Walk σ ε Unit) : Walk σ ε Unit :=
  match items with
  | [] => pure ()
  | item :: rest => do
      body item
      walkEach rest body

/-- `throw` under a condition -/
def refuseIf (condition : Prop) [Decidable condition] (error : ε) : Walk σ ε Unit :=
  if condition then throw error else pure ()

def Walks (goesOn : σ → σ → Prop) (refuses : ε → Prop) (before : σ → Prop) (program : Walk σ ε α)
    (after : α → σ → Prop) : Prop :=
  ∀ state, before state →
    (∀ value reached, program state = .ok (value, reached) → goesOn state reached ∧ after value reached) ∧
      ∀ error, program state = .error error → refuses error

variable {goesOn : σ → σ → Prop} {refuses : ε → Prop} {before : σ → Prop} {program : Walk σ ε α}
  {next : α → Walk σ ε β} {after other : α → σ → Prop} {last : β → σ → Prop} {body : Item → Walk σ ε Unit}

/-- What holds of a state holds of those that go on from it. -/
def Stable (goesOn : σ → σ → Prop) (holds : σ → Prop) : Prop := ∀ state reached, goesOn state reached → holds state → holds reached

namespace Walks

theorem mono (walks : Walks goesOn refuses before program after)
    (weaker : ∀ value reached, after value reached → other value reached) :
    Walks goesOn refuses before program other := by
  intro state start
  obtain ⟨returns, refused⟩ := walks state start
  exact ⟨fun value reached ran => (returns value reached ran).imp_right (weaker value reached), refused⟩

theorem strengthen {earlier : σ → Prop} (walks : Walks goesOn refuses before program after)
    (stronger : ∀ state, earlier state → before state) : Walks goesOn refuses earlier program after :=
  fun state start => walks state (stronger state start)

theorem pure [Std.Refl goesOn] {value : α} (holds : ∀ state, before state → after value state) :
    Walks goesOn refuses before (Pure.pure value : Walk σ ε α) after := by
  intro state start
  refine ⟨?_, fun error never => (by cases never)⟩
  intro found reached ran
  obtain ⟨rfl, rfl⟩ := Prod.mk.inj (Except.ok.inj ran)
  exact ⟨Std.Refl.refl _, holds _ start⟩

theorem throw {error : ε} (allowed : refuses error) :
    Walks goesOn refuses before (MonadExcept.throw error : Walk σ ε α) after := by
  intro state _
  refine ⟨fun value reached never => (by cases never), ?_⟩
  intro found ran
  rw [← Except.error.inj ran]
  exact allowed

theorem bind [IsTrans σ goesOn] (walks : Walks goesOn refuses before program after)
    (walksNext : ∀ value, Walks goesOn refuses (after value) (next value) last) :
    Walks goesOn refuses before (program >>= next) last := by
  intro state start
  obtain ⟨returns, refused⟩ := walks state start
  change (∀ value reached, (program state >>= fun pair => next pair.1 pair.2) = .ok (value, reached) → _) ∧
    ∀ error, (program state >>= fun pair => next pair.1 pair.2) = .error error → _
  cases ran : program state with
  | error error =>
      exact ⟨fun value reached never => (by cases never), fun found same => Except.error.inj same ▸ refused error ran⟩
  | ok pair =>
      obtain ⟨middle, between⟩ := pair
      obtain ⟨onward, holds⟩ := returns middle between ran
      obtain ⟨returnsNext, refusedNext⟩ := walksNext middle between holds
      refine ⟨fun value reached ranNext => ?_, refusedNext⟩
      obtain ⟨later, final⟩ := returnsNext value reached ranNext
      exact ⟨IsTrans.trans _ _ _ onward later, final⟩

/-- What held before and stays true holds afterwards, too. -/
theorem keep (walks : Walks goesOn refuses before program after) (stable : Stable goesOn before) :
    Walks goesOn refuses before program fun value reached => after value reached ∧ before reached := by
  intro state start
  obtain ⟨returns, refused⟩ := walks state start
  refine ⟨fun value reached ran => ?_, refused⟩
  obtain ⟨onward, holds⟩ := returns value reached ran
  exact ⟨onward, holds, stable _ _ onward start⟩

/-- Two programs one after the other, each with what stays true of it -/
theorem andThen [IsTrans σ goesOn] {first : Walk σ ε Unit} {second : Walk σ ε Unit} {left right : σ → Prop}
    (walks : Walks goesOn refuses before first fun _ => left) (walksNext : Walks goesOn refuses before second fun _ => right)
    (stable : Stable goesOn before) (stays : Stable goesOn left) :
    Walks goesOn refuses before (first >>= fun _ => second) fun _ reached => left reached ∧ right reached := by
  refine bind (walks.keep stable) fun _ state start => ?_
  obtain ⟨returns, refused⟩ := walksNext state start.2
  refine ⟨fun value reached ran => ?_, refused⟩
  obtain ⟨onward, holds⟩ := returns value reached ran
  exact ⟨onward, stays _ _ onward start.1, holds⟩

theorem each [Std.Refl goesOn] [IsTrans σ goesOn] {items : List Item} {done : Item → σ → Prop}
    (walks : ∀ item ∈ items, Walks goesOn refuses before (body item) fun _ => done item) (stable : Stable goesOn before)
    (stays : ∀ item ∈ items, Stable goesOn (done item)) :
    Walks goesOn refuses before (walkEach items body) fun _ reached => ∀ item ∈ items, done item reached := by
  induction items with
  | nil => exact pure fun state _ item never => by cases never
  | cons item rest ih =>
      refine (andThen (walks item List.mem_cons_self) (ih (fun later member => walks later (List.mem_cons_of_mem _ member))
        fun later member => stays later (List.mem_cons_of_mem _ member)) stable (stays item List.mem_cons_self)).mono ?_
      intro _ reached holds later member
      obtain rfl | member := List.mem_cons.mp member
      · exact holds.1
      · exact holds.2 later member

theorem ite {condition : Prop} [Decidable condition] {program other : Walk σ ε α}
    (taken : condition → Walks goesOn refuses before program after)
    (skipped : ¬condition → Walks goesOn refuses before other after) :
    Walks goesOn refuses before (if condition then program else other) after := by
  split
  next holds => exact taken holds
  next fails => exact skipped fails

theorem refuseIf [Std.Refl goesOn] {condition : Prop} [Decidable condition] {error : ε} (allowed : refuses error) :
    Walks goesOn refuses before (Data.refuseIf condition error) fun _ reached => before reached ∧ ¬condition := by
  unfold Data.refuseIf
  exact ite (fun _ => throw allowed) fun fails => pure fun state start => ⟨start, fails⟩

theorem get [Std.Refl goesOn] : Walks goesOn refuses before (MonadState.get : Walk σ ε σ) fun value reached => value = reached ∧ before reached := by
  intro state start
  refine ⟨?_, fun error never => (by cases never)⟩
  intro found reached ran
  obtain ⟨rfl, rfl⟩ := Prod.mk.inj (Except.ok.inj ran)
  exact ⟨Std.Refl.refl _, rfl, start⟩

/-- A program that leaves the state alone, among programs that do not -/
theorem still [Std.Refl goesOn] (walks : Walks Eq refuses before program after) :
    Walks goesOn refuses before program fun value reached => after value reached ∧ before reached := by
  intro state start
  obtain ⟨returns, refused⟩ := walks state start
  refine ⟨fun value reached ran => ?_, refused⟩
  obtain ⟨rfl, holds⟩ := returns value reached ran
  exact ⟨Std.Refl.refl _, holds, start⟩

theorem modify {change : σ → σ} {holds : σ → Prop} (onward : ∀ state, before state → goesOn state (change state) ∧ holds (change state)) :
    Walks goesOn refuses before (modifyThe σ change : Walk σ ε Unit) fun _ => holds := by
  intro state start
  refine ⟨?_, fun error never => (by cases never)⟩
  intro found reached ran
  obtain ⟨-, rfl⟩ := Prod.mk.inj (Except.ok.inj ran)
  exact onward state start

end Walks

end

end Dockge.Data
