import Mathlib

namespace Dockge.Data

/-! Decimal numerals, and what comparing their texts says about their values. -/

def digitValue (c : Char) : Nat := c.toNat - '0'.toNat

/-- The value of a numeral, its first digit first. -/
def decimalValue : List Char → Nat
  | [] => 0
  | digit :: rest => digitValue digit * 10 ^ rest.length + decimalValue rest

variable {digit other : Char} {left right : List Char}

theorem toNat_eq_digitValue (digits : digit.isDigit = true) : digit.toNat = 48 + digitValue digit := by
  simp only [Char.isDigit, Bool.and_eq_true, decide_eq_true_eq] at digits
  have lower : '0'.toNat ≤ digit.toNat := digits.1
  have zero : '0'.toNat = 48 := rfl
  unfold digitValue
  omega

theorem digitValue_lt (digits : digit.isDigit = true) : digitValue digit < 10 := by
  have code := toNat_eq_digitValue digits
  simp only [Char.isDigit, Bool.and_eq_true, decide_eq_true_eq] at digits
  have upper : digit.toNat ≤ '9'.toNat := digits.2
  have nine : '9'.toNat = 57 := rfl
  omega

theorem digitValue_lt_iff (first : digit.isDigit = true) (second : other.isDigit = true) :
    digitValue digit < digitValue other ↔ digit < other := by
  have code := toNat_eq_digitValue first
  have code' := toNat_eq_digitValue second
  have order : digit < other ↔ digit.toNat < other.toNat := Iff.rfl
  rw [order]
  omega

theorem digitValue_inj (first : digit.isDigit = true) (second : other.isDigit = true)
    (same : digitValue digit = digitValue other) : digit = other := by
  have code := toNat_eq_digitValue first
  have code' := toNat_eq_digitValue second
  exact Char.ext (UInt32.toNat_inj.mp (show digit.toNat = other.toNat by omega))

theorem decimalValue_lt (digits : left.all Char.isDigit = true) : decimalValue left < 10 ^ left.length := by
  induction left with
  | nil => exact Nat.one_pos
  | cons digit rest ih =>
      simp only [List.all_cons, Bool.and_eq_true] at digits
      have head := digitValue_lt digits.1
      have tail := ih digits.2
      have scaled : (digitValue digit + 1) * 10 ^ rest.length ≤ 10 * 10 ^ rest.length :=
        Nat.mul_le_mul_right _ head
      rw [Nat.add_mul, Nat.one_mul] at scaled
      simp only [decimalValue, List.length_cons, Nat.pow_succ]
      omega

/-- Of two numerals of one length, the texts are ordered as the values are. -/
theorem decimalValue_lt_iff (long : left.length = right.length) (first : left.all Char.isDigit = true)
    (second : right.all Char.isDigit = true) : decimalValue left < decimalValue right ↔ left < right := by
  induction left generalizing right with
  | nil =>
      cases right with
      | nil => simp
      | cons => cases long
  | cons digit rest ih =>
      cases right with
      | nil => cases long
      | cons other others =>
          simp only [List.all_cons, Bool.and_eq_true] at first second
          have same : rest.length = others.length := Nat.succ.inj long
          have below := decimalValue_lt first.2
          have below' := decimalValue_lt second.2
          rw [List.cons_lt_cons_iff, ← ih same first.2 second.2, ← digitValue_lt_iff first.1 second.1]
          simp only [decimalValue]
          rw [same] at below ⊢
          obtain less | equal | greater := Nat.lt_trichotomy (digitValue digit) (digitValue other)
          · have scaled : (digitValue digit + 1) * 10 ^ others.length ≤ digitValue other * 10 ^ others.length :=
              Nat.mul_le_mul_right _ less
            rw [Nat.add_mul, Nat.one_mul] at scaled
            exact ⟨fun _ => .inl less, fun _ => by omega⟩
          · have equal' := digitValue_inj first.1 second.1 equal
            rw [equal]
            simp [equal']
          · have scaled : (digitValue other + 1) * 10 ^ others.length ≤ digitValue digit * 10 ^ others.length :=
              Nat.mul_le_mul_right _ greater
            rw [Nat.add_mul, Nat.one_mul] at scaled
            have differ : digit ≠ other := fun equal => by
              rw [equal] at greater
              exact Nat.lt_irrefl _ greater
            simp only [differ, false_and, or_false]
            omega

theorem decimalValue_inj (long : left.length = right.length) (first : left.all Char.isDigit = true)
    (second : right.all Char.isDigit = true) (same : decimalValue left = decimalValue right) : left = right := by
  obtain less | equal | greater := lt_trichotomy left right
  · exact absurd ((decimalValue_lt_iff long first second).mpr less) (by omega)
  · exact equal
  · exact absurd ((decimalValue_lt_iff long.symm second first).mpr greater) (by omega)

/-- A longer numeral without a leading zero is greater. -/
theorem decimalValue_lt_of_length_lt (first : left.all Char.isDigit = true) (leading : right.head? ≠ some '0')
    (second : right.all Char.isDigit = true) (shorter : left.length < right.length) :
    decimalValue left < decimalValue right := by
  cases right with
  | nil => cases shorter
  | cons digit rest =>
      simp only [List.all_cons, Bool.and_eq_true] at second
      have below := decimalValue_lt first
      have power : 10 ^ left.length ≤ 10 ^ rest.length :=
        Nat.pow_le_pow_right (by decide) (Nat.le_of_lt_succ shorter)
      have positive : 0 < digitValue digit := by
        refine Nat.pos_of_ne_zero fun zero => leading ?_
        exact congrArg some (digitValue_inj second.1 rfl zero)
      have scaled := Nat.mul_le_mul_right (10 ^ rest.length) positive
      simp only [decimalValue]
      omega

end Dockge.Data
