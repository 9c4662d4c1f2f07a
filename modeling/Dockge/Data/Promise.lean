import Mathlib.Tactic.Basic

namespace Dockge.Data

/-! Promises, which settle once, and those that react to others. -/

inductive Promise (ε α : Type) where
  | pending
  | fulfilled (value : α)
  | rejected (error : ε)
deriving DecidableEq, Repr

namespace Promise

variable {ε α β : Type} {now source : Promise ε α}

/-- The reaction of a promise runs: it settles with what it reacts with, and a settled one stays as it is. -/
def react : Promise ε α → Promise ε α → Promise ε α
  | .pending, result => result
  | settled, _ => settled

/-- `then` with a handler of what is fulfilled; a rejection passes through. -/
def andThen (source : Promise ε α) (handler : α → Promise ε β) : Promise ε β :=
  match source with
  | .pending => .pending
  | .fulfilled value => handler value
  | .rejected error => .rejected error

/-- `catch` -/
def recover (source : Promise ε α) (handler : ε → Promise ε α) : Promise ε α :=
  match source with
  | .rejected error => handler error
  | other => other

/-- It waits, or has settled as its reaction says. -/
def Follows (now source : Promise ε α) : Prop := now = .pending ∨ now = source

theorem Follows.react (follows : now.Follows source) : (now.react source).Follows source := by
  obtain rfl | rfl := follows
  · exact .inr rfl
  · cases now <;> exact .inr rfl

/-- What reacts to something still pending is pending, and may follow anything. -/
theorem Follows.of_pending {other : Promise ε α} (follows : now.Follows .pending) : now.Follows other := by
  obtain rfl | rfl := follows
  · exact .inl rfl
  · exact .inl rfl

theorem Follows.eq_of_react (follows : now.Follows source) (still : now.react source = now) : now = source := by
  obtain rfl | rfl := follows
  · exact still.symm
  · rfl

theorem react_eq (now source : Promise ε α) : now.react source = now ∨ (now = .pending ∧ now.react source = source ∧
    source ≠ .pending) := by
  cases now with
  | pending =>
      cases source with
      | pending => exact .inl rfl
      | fulfilled => exact .inr ⟨rfl, rfl, nofun⟩
      | rejected => exact .inr ⟨rfl, rfl, nofun⟩
  | fulfilled => exact .inl rfl
  | rejected => exact .inl rfl

def isPending : Promise ε α → Bool
  | .pending => true
  | _ => false

theorem react_of_settled (settled : now ≠ .pending) : now.react source = now := by
  cases now with
  | pending => exact absurd rfl settled
  | fulfilled => rfl
  | rejected => rfl

/-- A reaction changes nothing, or there is one promise less to wait for. -/
theorem react_waits (now source : Promise ε α) : now.react source = now ∨
    (now.react source).isPending.toNat + 1 = now.isPending.toNat := by
  obtain same | ⟨waits, reacts, settled⟩ := react_eq now source
  · exact .inl same
  · right
    rw [reacts, waits]
    cases source with
    | pending => exact absurd rfl settled
    | fulfilled => rfl
    | rejected => rfl

end Promise

end Dockge.Data
