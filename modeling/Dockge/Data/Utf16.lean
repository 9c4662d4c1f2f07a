import Mathlib

namespace Dockge.Data

/-! Text as its 16-bit code units, by which two texts are compared. -/

def codeUnits (char : Char) : List Nat :=
  let code := char.toNat
  if code < 0x10000 then [code] else [0xD800 + (code - 0x10000) / 0x400, 0xDC00 + (code - 0x10000) % 0x400]

def utf16 (text : String) : List Nat := text.toList.flatMap codeUnits

/-- A unit of its own is no half of a pair. -/
theorem toNat_not_surrogate (char : Char) : char.toNat < 0xD800 ∨ 0xDFFF < char.toNat := by
  obtain low | ⟨high, -⟩ := char.valid
  · exact .inl low
  · exact .inr high

theorem toNat_lt (char : Char) : char.toNat < 0x110000 := by
  obtain low | ⟨-, high⟩ := char.valid
  · exact Nat.lt_trans low (by decide)
  · exact high

theorem codeUnits_append_inj {first second : Char} {left right : List Nat}
    (same : codeUnits first ++ left = codeUnits second ++ right) : first = second ∧ left = right := by
  have bound := toNat_lt first
  have other := toNat_lt second
  have plain := toNat_not_surrogate first
  have plain_ := toNat_not_surrogate second
  rw [← Char.toNat_inj]
  unfold codeUnits at same
  dsimp only at same
  split at same <;> split at same <;>
    simp only [List.cons_append, List.nil_append, List.cons.injEq] at same
  · exact same
  · omega
  · omega
  · exact ⟨by omega, same.2.2⟩

theorem codeUnits_ne_nil (char : Char) : codeUnits char ≠ [] := by
  unfold codeUnits
  dsimp only
  split <;> exact List.cons_ne_nil _ _

theorem utf16_inj {first second : String} (same : utf16 first = utf16 second) : first = second := by
  rw [← String.toList_inj]
  unfold utf16 at same
  generalize first.toList = left at same ⊢
  generalize second.toList = right at same ⊢
  induction left generalizing right with
  | nil =>
      cases right with
      | nil => rfl
      | cons char rest =>
          rw [List.flatMap_cons] at same
          exact absurd (List.append_eq_nil_iff.mp same.symm).1 (codeUnits_ne_nil char)
  | cons char rest ih =>
      cases right with
      | nil =>
          rw [List.flatMap_cons] at same
          exact absurd (List.append_eq_nil_iff.mp same).1 (codeUnits_ne_nil char)
      | cons other tail =>
          rw [List.flatMap_cons, List.flatMap_cons] at same
          obtain ⟨rfl, remaining⟩ := codeUnits_append_inj same
          rw [ih tail remaining]

end Dockge.Data
