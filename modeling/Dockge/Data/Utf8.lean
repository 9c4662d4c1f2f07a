import Mathlib.Data.List.Basic

namespace Dockge.Data

/-! Text read from bytes that need not be text: what is not UTF-8 becomes U+FFFD. -/

abbrev Bytes := List UInt8

def encodeUtf8 (text : List Char) : Bytes := text.flatMap String.utf8EncodeChar

/-- The second byte may follow a first byte of three or four. -/
def secondByte (first second : UInt8) : Bool :=
  if first = 0xE0 then 0xA0 ≤ second && second ≤ 0xBF
  else if first = 0xED then 0x80 ≤ second && second ≤ 0x9F
  else if 0xE1 ≤ first && first ≤ 0xEF then 0x80 ≤ second && second ≤ 0xBF
  else if first = 0xF0 then 0x90 ≤ second && second ≤ 0xBF
  else if 0xF1 ≤ first && first ≤ 0xF3 then 0x80 ≤ second && second ≤ 0xBF
  else if first = 0xF4 then 0x80 ≤ second && second ≤ 0x8F
  else false

/-- How many bytes one replacement character stands for, where no character starts. -/
def maximalSubpart : Bytes → Nat
  | first :: second :: third :: _ =>
      if secondByte first second then
        if 0xF0 ≤ first && 0x80 ≤ third && third ≤ 0xBF then 3 else 2
      else 1
  | [first, second] => if secondByte first second then 2 else 1
  | _ => 1

def decodeFrom : Nat → Bytes → List Char
  | 0, _ | _, [] => []
  | fuel + 1, bytes =>
      match bytes.toByteArray.utf8DecodeChar? 0 with
      | some char => char :: decodeFrom fuel (bytes.drop char.utf8Size)
      | none => '\uFFFD' :: decodeFrom fuel (bytes.drop (maximalSubpart bytes))

/-- Every character takes a byte, so that the bytes bound the characters. -/
def decodeUtf8 (bytes : Bytes) : List Char := decodeFrom bytes.length bytes

/-- What is written of bytes that were read as text. -/
def transcode (bytes : Bytes) : Bytes := encodeUtf8 (decodeUtf8 bytes)

theorem length_le_encodeUtf8 (text : List Char) : text.length ≤ (encodeUtf8 text).length := by
  induction text with
  | nil => simp
  | cons char rest ih =>
      have wide := char.utf8Size_pos
      simp only [encodeUtf8, List.flatMap_cons, List.length_cons, List.length_append,
        String.length_utf8EncodeChar] at ih ⊢
      omega

theorem decodeFrom_encodeUtf8 (text : List Char) (fuel : Nat) (enough : text.length ≤ fuel) :
    decodeFrom fuel (encodeUtf8 text) = text := by
  induction text generalizing fuel with
  | nil => cases fuel <;> rfl
  | cons char rest ih =>
      cases fuel with
      | zero => simp at enough
      | succ fuel =>
          have decoded : (encodeUtf8 (char :: rest)).toByteArray.utf8DecodeChar? 0 = some char :=
            List.utf8DecodeChar?_utf8Encode_cons
          have dropped : (encodeUtf8 (char :: rest)).drop char.utf8Size = encodeUtf8 rest := by
            rw [← String.length_utf8EncodeChar]
            exact List.drop_left
          have nonempty : encodeUtf8 (char :: rest) ≠ [] := by
            intro empty
            have wide := length_le_encodeUtf8 (char :: rest)
            simp [empty] at wide
          rw [decodeFrom.eq_3 _ _ (by simpa using nonempty)]
          simp only [decoded, dropped]
          rw [ih fuel (by simpa using enough)]

theorem decodeUtf8_encodeUtf8 (text : List Char) : decodeUtf8 (encodeUtf8 text) = text :=
  decodeFrom_encodeUtf8 text _ (length_le_encodeUtf8 text)

/-- Text survives being read and written. -/
@[simp] theorem transcode_encodeUtf8 (text : List Char) : transcode (encodeUtf8 text) = encodeUtf8 text := by
  rw [transcode, decodeUtf8_encodeUtf8]

example : transcode [0x61, 0xFF] = [0x61, 0xEF, 0xBF, 0xBD] := by decide +kernel

/-! ## Cutting at a character -/

/-- A byte inside a character: `10xxxxxx`. -/
def isContinuation (byte : UInt8) : Bool := byte &&& 0xC0 = 0x80

theorem isContinuation_ofNat {number : Nat} (small : number < 256) :
    isContinuation (UInt8.ofNat number) = decide (128 ≤ number ∧ number < 192) := by
  have all : ∀ number : Fin 256, isContinuation (UInt8.ofNat number) = decide (128 ≤ number.val ∧ number.val < 192) := by
    decide +kernel
  exact all ⟨number, small⟩

theorem utf8EncodeChar_shape (char : Char) :
    ∃ first rest, String.utf8EncodeChar char = first :: rest ∧ isContinuation first = false ∧
      ∀ byte ∈ rest, isContinuation byte = true := by
  have small : char.val.toNat < 0x110000 := by
    obtain small | ⟨-, small⟩ := char.valid
    · exact Nat.lt_trans small (by decide)
    · exact small
  have inside (part : Nat) : isContinuation (UInt8.ofNat (part % 0x40 + 0x80)) = true := by
    rw [isContinuation_ofNat (by omega)]
    exact decide_eq_true (by omega)
  have first (number : Nat) (low : number < 256) (other : number < 128 ∨ 192 ≤ number) :
      isContinuation (UInt8.ofNat number) = false := by
    rw [isContinuation_ofNat low]
    exact decide_eq_false (by omega)
  unfold String.utf8EncodeChar
  dsimp only
  split
  · exact ⟨_, _, rfl, first _ (by omega) (by omega), by simp⟩
  · split
    · exact ⟨_, _, rfl, first _ (by omega) (by omega), List.forall_mem_singleton.mpr (inside _)⟩
    · split
      · exact ⟨_, _, rfl, first _ (by omega) (by omega),
          List.forall_mem_cons.mpr ⟨inside _, List.forall_mem_singleton.mpr (inside _)⟩⟩
      · exact ⟨_, _, rfl, first _ (by omega) (by omega),
          List.forall_mem_cons.mpr ⟨inside _, List.forall_mem_cons.mpr ⟨inside _, List.forall_mem_singleton.mpr (inside _)⟩⟩⟩

/-- The bytes behind a place, from where the next character starts -/
def fromBoundary (bytes : Bytes) (start : Nat) : Bytes := (bytes.drop start).dropWhile isContinuation

theorem encodeUtf8_cons (char : Char) (text : List Char) :
    encodeUtf8 (char :: text) = String.utf8EncodeChar char ++ encodeUtf8 text := rfl

theorem encodeUtf8_append (front back : List Char) : encodeUtf8 (front ++ back) = encodeUtf8 front ++ encodeUtf8 back :=
  List.flatMap_append

theorem dropWhile_encodeUtf8 (text : List Char) : (encodeUtf8 text).dropWhile isContinuation = encodeUtf8 text := by
  cases text with
  | nil => rfl
  | cons char text =>
      obtain ⟨first, rest, shape, lead, -⟩ := utf8EncodeChar_shape char
      rw [encodeUtf8_cons, shape, List.cons_append, List.dropWhile_cons_of_neg (by simp [lead])]

/-- Cutting text at a place leaves the characters that start behind it. -/
theorem fromBoundary_encodeUtf8 (text : List Char) (start : Nat) (within : start ≤ (encodeUtf8 text).length) :
    ∃ front back, text = front ++ back ∧ fromBoundary (encodeUtf8 text) start = encodeUtf8 back ∧
      start ≤ (encodeUtf8 front).length ∧
      ∀ last, front.getLast? = some last → (encodeUtf8 front).length < start + last.utf8Size := by
  induction text generalizing start with
  | nil => exact ⟨[], [], rfl, by simp [fromBoundary, encodeUtf8], within, nofun⟩
  | cons char text ih =>
      obtain ⟨first, rest, shape, lead, inside⟩ := utf8EncodeChar_shape char
      have size : (String.utf8EncodeChar char).length = char.utf8Size := String.length_utf8EncodeChar char
      by_cases none_ : start = 0
      · subst none_
        exact ⟨[], char :: text, rfl, dropWhile_encodeUtf8 _, Nat.le_refl 0, nofun⟩
      · by_cases part : start < char.utf8Size
        · refine ⟨[char], text, rfl, ?_, ?_, ?_⟩
          · rw [fromBoundary, encodeUtf8_cons, List.drop_append_of_le_length (by omega), List.dropWhile_append_of_pos]
            · exact dropWhile_encodeUtf8 text
            · intro byte member
              rw [shape] at member
              cases start with
              | zero => exact absurd rfl none_
              | succ start => exact inside byte (List.mem_of_mem_drop member)
          · simp only [encodeUtf8, List.flatMap_cons, List.flatMap_nil, List.append_nil]
            omega
          · intro last same
            obtain rfl : char = last := by simpa using same
            simp only [encodeUtf8, List.flatMap_cons, List.flatMap_nil, List.append_nil]
            omega
        · have length : (encodeUtf8 (char :: text)).length = char.utf8Size + (encodeUtf8 text).length := by
            rw [encodeUtf8_cons, List.length_append, size]
          obtain ⟨front, back, whole, cut, reached, near⟩ := ih (start - char.utf8Size) (by omega)
          refine ⟨char :: front, back, by rw [whole, List.cons_append], ?_, ?_, ?_⟩
          · rw [← cut, fromBoundary, fromBoundary, encodeUtf8_cons, List.drop_append, List.drop_eq_nil_of_le (by omega),
              List.nil_append, size]
          · rw [encodeUtf8_cons, List.length_append, size]
            omega
          · intro last same
            rw [encodeUtf8_cons, List.length_append, size]
            cases front with
            | nil =>
                simp only [encodeUtf8, List.flatMap_nil, List.length_nil] at reached ⊢
                obtain rfl : char = last := by simpa using same
                omega
            | cons next front =>
                have inner := near last (by simpa using same)
                omega

/-! ## Text with anything behind it -/

theorem utf8EncodeChar_append_inj {first second : Char} {left right : Bytes}
    (same : String.utf8EncodeChar first ++ left = String.utf8EncodeChar second ++ right) :
    first = second ∧ left = right := by
  have read (char : Char) (tail : Bytes) :
      (String.utf8EncodeChar char ++ tail).toByteArray.utf8DecodeChar? 0 = some char := by
    rw [List.toByteArray_append]
    exact ByteArray.utf8DecodeChar?_utf8EncodeChar_append
  have equal : some first = some second := by rw [← read first left, same, read]
  obtain rfl := Option.some.inj equal
  exact ⟨rfl, List.append_cancel_left same⟩

/-- Of two texts at the start of the same bytes, one starts the other. -/
theorem encodeUtf8_append_prefix {first second : List Char} {left right : Bytes}
    (same : encodeUtf8 first ++ left = encodeUtf8 second ++ right) : first <+: second ∨ second <+: first := by
  induction first generalizing second with
  | nil => exact .inl List.nil_prefix
  | cons char rest ih =>
      cases second with
      | nil => exact .inr List.nil_prefix
      | cons other tail =>
          rw [encodeUtf8_cons, encodeUtf8_cons, List.append_assoc, List.append_assoc] at same
          obtain ⟨rfl, remaining⟩ := utf8EncodeChar_append_inj same
          rw [List.prefix_cons_inj, List.prefix_cons_inj]
          exact ih remaining

end Dockge.Data
