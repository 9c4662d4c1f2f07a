import Mathlib
import Dockge.Data.History
import Dockge.Data.Utf8

namespace Dockge.Terminals.Replay

open Data

/-! The output of a terminal that is kept for who joins it later. -/

structure Chunk where
  text : List Char
  bytes : Nat
deriving DecidableEq, Repr

structure TerminalBuffer where
  maxBytes : Nat := 1024 * 1024
  maxChunks : Nat := 100
  chunks : List Chunk := []
  used : Nat := 0
  truncated : Bool := false
deriving DecidableEq, Repr

def byteLength (text : List Char) : Nat := (encodeUtf8 text).length

/-- What is kept of a text that is too long: the bytes at its end, from where a character starts. -/
def textTail (maxBytes : Nat) (text : List Char) : List Char :=
  decodeUtf8 (fromBoundary (encodeUtf8 text) (byteLength text - maxBytes))

/-- Drop the oldest chunks until both limits are met. -/
def evict (maxBytes maxChunks used : Nat) : List Chunk → List Chunk × Nat
  | [] => ([], used)
  | chunk :: rest =>
      if maxBytes < used ∨ maxChunks < (chunk :: rest).length then evict maxBytes maxChunks (used - chunk.bytes) rest
      else (chunk :: rest, used)

namespace TerminalBuffer

def pushItem (buffer : TerminalBuffer) (text : List Char) : TerminalBuffer :=
  let long := buffer.maxBytes < byteLength text
  let text := if long then textTail buffer.maxBytes text else text
  let chunks := buffer.chunks ++ [{ text, bytes := byteLength text }]
  let (kept, used) := evict buffer.maxBytes buffer.maxChunks (buffer.used + byteLength text) chunks
  { buffer with
    chunks := kept
    used
    truncated := buffer.truncated || long || kept.length < chunks.length }

def marker : List Char := "[Earlier terminal output omitted]\r\n".toList

def kept (buffer : TerminalBuffer) : List Char := buffer.chunks.flatMap Chunk.text

def read (buffer : TerminalBuffer) : List Char := (if buffer.truncated then marker else []) ++ buffer.kept

/-- What a reader is told about the output so far, and the limits -/
structure Honest (buffer : TerminalBuffer) (output : List Char) : Prop where
  whole : ¬ marker <+: buffer.read → buffer.read = output
  tail : ∀ rest, buffer.read = marker ++ rest → rest <:+ output
  bytes : buffer.used = byteLength buffer.kept ∧ buffer.used ≤ buffer.maxBytes
  chunks : buffer.chunks.length ≤ buffer.maxChunks

/-- Chunks that stay where so many bytes are put behind them -/
def Fits (buffer : TerminalBuffer) (bytes : Nat) (older : List Chunk) : Prop :=
  (older.map Chunk.bytes).sum + bytes ≤ buffer.maxBytes ∧ older.length + 1 ≤ buffer.maxChunks

/-- The end of a text that is too long leaves no room for the text before it. -/
def Clears (buffer : TerminalBuffer) (text : List Char) : Prop :=
  buffer.maxBytes < byteLength text →
    ∀ older, older <:+ buffer.chunks → buffer.Fits (byteLength (textTail buffer.maxBytes text)) older →
      older.flatMap Chunk.text = []

/-! ## The limits -/

structure Sized (buffer : TerminalBuffer) : Prop where
  sizes : ∀ chunk ∈ buffer.chunks, chunk.bytes = byteLength chunk.text
  used : buffer.used = (buffer.chunks.map Chunk.bytes).sum
  bytes : buffer.used ≤ buffer.maxBytes
  chunks : buffer.chunks.length ≤ buffer.maxChunks

end TerminalBuffer

theorem byteLength_append (front back : List Char) : byteLength (front ++ back) = byteLength front + byteLength back := by
  rw [byteLength, encodeUtf8_append, List.length_append, byteLength, byteLength]

theorem byteLength_flatMap {chunks : List Chunk} (sizes : ∀ chunk ∈ chunks, chunk.bytes = byteLength chunk.text) :
    byteLength (chunks.flatMap Chunk.text) = (chunks.map Chunk.bytes).sum := by
  induction chunks with
  | nil => rfl
  | cons chunk rest ih =>
      rw [List.flatMap_cons, byteLength_append, List.map_cons, List.sum_cons, ih fun other member =>
        sizes other (List.mem_cons_of_mem _ member), sizes chunk List.mem_cons_self]

theorem byteLength_eq_zero {text : List Char} (empty : byteLength text = 0) : text = [] := by
  have wide := length_le_encodeUtf8 text
  rw [byteLength] at empty
  exact List.length_eq_zero_iff.mp (by omega)

/-- Every character of the text that is gone would have been too long for what is kept. -/
theorem textTail_spec {maxBytes : Nat} {text : List Char} (long : maxBytes < byteLength text) :
    ∃ front, text = front ++ textTail maxBytes text ∧ front ≠ [] ∧ byteLength (textTail maxBytes text) ≤ maxBytes ∧
      ∀ last, front.getLast? = some last → maxBytes < byteLength (textTail maxBytes text) + last.utf8Size := by
  obtain ⟨front, back, whole, cut, reached, near⟩ := fromBoundary_encodeUtf8 text (byteLength text - maxBytes) (Nat.sub_le _ _)
  have same : textTail maxBytes text = back := by rw [textTail, cut, decodeUtf8_encodeUtf8]
  have length : byteLength text = byteLength front + byteLength back := by rw [whole, byteLength_append]
  rw [same]
  refine ⟨front, whole, ?_, ?_, ?_⟩
  · intro none_
    rw [none_] at reached
    simp only [encodeUtf8, List.flatMap_nil, List.length_nil] at reached
    omega
  · rw [← byteLength] at reached
    omega
  · intro last found
    have close := near last found
    rw [← byteLength] at close
    omega

section

variable {maxBytes maxChunks used : Nat} {chunks older : List Chunk}

theorem evict_suffix (maxBytes maxChunks used : Nat) (chunks : List Chunk) :
    (evict maxBytes maxChunks used chunks).1 <:+ chunks := by
  induction chunks generalizing used with
  | nil => exact List.suffix_refl []
  | cons chunk rest ih =>
      rw [evict]
      split
      · exact (ih _).trans (List.suffix_cons chunk rest)
      · exact List.suffix_refl _

theorem evict_within (sum : used = (chunks.map Chunk.bytes).sum) :
    (evict maxBytes maxChunks used chunks).2 = ((evict maxBytes maxChunks used chunks).1.map Chunk.bytes).sum ∧
      (evict maxBytes maxChunks used chunks).2 ≤ maxBytes ∧
      (evict maxBytes maxChunks used chunks).1.length ≤ maxChunks := by
  induction chunks generalizing used with
  | nil =>
      rw [sum]
      exact ⟨rfl, Nat.zero_le _, Nat.zero_le _⟩
  | cons chunk rest ih =>
      rw [List.map_cons, List.sum_cons] at sum
      rw [evict]
      split
      · exact ih (by omega)
      next within =>
        obtain ⟨bytes, count⟩ := not_or.mp within
        exact ⟨by rw [sum, List.map_cons, List.sum_cons], Nat.le_of_not_lt bytes, Nat.le_of_not_lt count⟩

/-- As much is kept as fits. -/
theorem suffix_evict (sum : used = (chunks.map Chunk.bytes).sum) (suffix : older <:+ chunks)
    (bytes : (older.map Chunk.bytes).sum ≤ maxBytes) (count : older.length ≤ maxChunks) :
    older <:+ (evict maxBytes maxChunks used chunks).1 := by
  induction chunks generalizing used with
  | nil => exact suffix
  | cons chunk rest ih =>
      rw [List.map_cons, List.sum_cons] at sum
      rw [evict]
      split
      next exceeded =>
        obtain whole | inside := List.suffix_cons_iff.mp suffix
        · rw [whole, List.map_cons, List.sum_cons] at bytes
          rw [whole] at count
          omega
        · exact ih (by omega) inside
      · exact suffix

end

namespace TerminalBuffer

variable {buffer : TerminalBuffer} {text output : List Char}

/-- The chunk a text is kept as -/
def item (buffer : TerminalBuffer) (text : List Char) : Chunk :=
  let text := if buffer.maxBytes < byteLength text then textTail buffer.maxBytes text else text
  { text, bytes := byteLength text }

theorem item_bytes (buffer : TerminalBuffer) (text : List Char) :
    (buffer.item text).bytes = byteLength (buffer.item text).text ∧ (buffer.item text).bytes ≤ buffer.maxBytes := by
  refine ⟨rfl, ?_⟩
  rw [item]
  dsimp only
  split
  next long =>
    obtain ⟨front, -, -, bound, -⟩ := textTail_spec long
    exact bound
  next short => exact Nat.le_of_not_lt short

theorem item_suffix (buffer : TerminalBuffer) (text : List Char) : (buffer.item text).text <:+ text := by
  rw [item]
  dsimp only
  split
  next long =>
    obtain ⟨front, whole, -⟩ := textTail_spec long
    exact ⟨front, whole.symm⟩
  next => exact List.suffix_refl text

theorem pushItem_sum (sized : buffer.Sized) (text : List Char) :
    buffer.used + (buffer.item text).bytes = ((buffer.chunks ++ [buffer.item text]).map Chunk.bytes).sum := by
  rw [List.map_append, List.sum_append, ← sized.used, List.map_singleton, List.sum_singleton]

theorem pushItem_chunks (buffer : TerminalBuffer) (text : List Char) :
    (buffer.pushItem text).chunks =
      (evict buffer.maxBytes buffer.maxChunks (buffer.used + (buffer.item text).bytes) (buffer.chunks ++ [buffer.item text])).1 :=
  rfl

theorem Sized.pushItem (sized : buffer.Sized) (text : List Char) : (buffer.pushItem text).Sized := by
  obtain ⟨used, bytes, chunks⟩ := @evict_within buffer.maxBytes buffer.maxChunks _ _ (pushItem_sum sized text)
  refine ⟨?_, used, bytes, chunks⟩
  intro chunk member
  obtain held | same := List.mem_append.mp ((evict_suffix _ _ _ _).subset member)
  · exact sized.sizes chunk held
  · rw [List.mem_singleton.mp same]

/-- What is there after a push: the new chunk behind the older ones that fit -/
theorem pushItem_cases (sized : buffer.Sized) (text : List Char) :
    (buffer.pushItem text).chunks = [] ∨
      ∃ older, older <:+ buffer.chunks ∧ buffer.Fits (buffer.item text).bytes older ∧
        (buffer.pushItem text).chunks = older ++ [buffer.item text] := by
  have after := sized.pushItem text
  have suffix := evict_suffix buffer.maxBytes buffer.maxChunks (buffer.used + (buffer.item text).bytes)
    (buffer.chunks ++ [buffer.item text])
  rw [← pushItem_chunks] at suffix
  obtain none_ | ⟨older, same, held⟩ := List.suffix_concat_iff.mp suffix
  · exact .inl none_
  · have bytes := after.bytes
    have count := after.chunks
    rw [after.used, same, List.map_append, List.sum_append, List.map_singleton, List.sum_singleton] at bytes
    rw [same, List.length_append, List.length_singleton] at count
    exact .inr ⟨older, held, ⟨bytes, count⟩, same⟩

theorem pushItem_keeps (sized : buffer.Sized) {older : List Chunk} (suffix : older <:+ buffer.chunks)
    (fits : buffer.Fits (buffer.item text).bytes older) : older ++ [buffer.item text] <:+ (buffer.pushItem text).chunks := by
  refine suffix_evict (pushItem_sum sized text) (List.suffix_append_self_iff.mpr suffix) ?_ ?_
  · rw [List.map_append, List.sum_append, List.map_singleton, List.sum_singleton]
    exact fits.1
  · rw [List.length_append, List.length_singleton]
    exact fits.2

/-! ## What a reader is told -/

/-- Nothing is missing as long as nothing is said to be. -/
def Complete (buffer : TerminalBuffer) (output : List Char) : Prop := buffer.truncated = false → buffer.kept = output

def Ends (buffer : TerminalBuffer) (output : List Char) : Prop := buffer.truncated = true → buffer.kept <:+ output

theorem honest_iff (sized : buffer.Sized) (complete : buffer.Complete output) :
    buffer.Honest output ↔ buffer.Ends output := by
  constructor
  · intro honest truncated
    exact honest.tail buffer.kept (by rw [read, truncated]; rfl)
  · intro ends
    have bytes : buffer.used = byteLength buffer.kept := by rw [sized.used, kept, byteLength_flatMap sized.sizes]
    cases truncated : buffer.truncated with
    | true =>
        have shown : buffer.read = marker ++ buffer.kept := by
          rw [read, truncated]
          rfl
        refine ⟨fun other => ?_, fun rest same => ?_, ⟨bytes, sized.bytes⟩, sized.chunks⟩
        · rw [shown] at other
          exact absurd (List.prefix_append _ _) other
        · rw [shown] at same
          rw [← List.append_cancel_left same]
          exact ends truncated
    | false =>
        have shown : buffer.read = output := by
          rw [read, truncated]
          exact complete truncated
        refine ⟨fun _ => shown, fun rest same => ?_, ⟨bytes, sized.bytes⟩, sized.chunks⟩
        rw [← shown, same]
        exact List.suffix_append _ _

theorem Complete.pushItem (complete : buffer.Complete output) (text : List Char) :
    (buffer.pushItem text).Complete (output ++ text) := by
  intro whole
  have flags : (buffer.truncated || decide (buffer.maxBytes < byteLength text) ||
      decide ((buffer.pushItem text).chunks.length < (buffer.chunks ++ [buffer.item text]).length)) = false := whole
  simp only [Bool.or_eq_false_iff, decide_eq_false_iff_not] at flags
  obtain ⟨⟨before, short⟩, all⟩ := flags
  have same : (buffer.pushItem text).chunks = buffer.chunks ++ [buffer.item text] :=
    (evict_suffix _ _ _ _).eq_of_length_le (Nat.le_of_not_lt all)
  rw [kept, same, List.flatMap_append, ← kept, complete before]
  simp [item, short]

theorem kept_pushItem {older : List Chunk} (same : (buffer.pushItem text).chunks = older ++ [buffer.item text]) :
    (buffer.pushItem text).kept = older.flatMap Chunk.text ++ (buffer.item text).text := by
  rw [kept, same, List.flatMap_append]
  simp

theorem flatMap_suffix {older newer : List Chunk} (suffix : older <:+ newer) :
    older.flatMap Chunk.text <:+ newer.flatMap Chunk.text := by
  obtain ⟨front, rfl⟩ := suffix
  rw [List.flatMap_append]
  exact List.suffix_append _ _

/-- Older text in front of a cut one is never what stood there. -/
theorem cut_alone {older : List Chunk} {front shown : List Char} (some_ : front ≠ [])
    (near : ∀ last, front.getLast? = some last → buffer.maxBytes < byteLength shown + last.utf8Size)
    (fits : byteLength (older.flatMap Chunk.text) + byteLength shown ≤ buffer.maxBytes)
    (suffix : older.flatMap Chunk.text ++ shown <:+ output ++ (front ++ shown)) : older.flatMap Chunk.text = [] := by
  rw [← List.append_assoc, List.suffix_append_self_iff] at suffix
  obtain ⟨init, last, rfl⟩ := (List.eq_nil_or_concat front).resolve_left some_
  rw [List.concat_eq_append] at near suffix
  obtain none_ | ⟨text, last_, same⟩ := List.eq_nil_or_concat (older.flatMap Chunk.text)
  · exact none_
  · rw [same, List.concat_eq_append, ← List.append_assoc] at suffix
    obtain ⟨gone, whole⟩ := suffix
    rw [← List.append_assoc] at whole
    obtain rfl : last_ = last := by simpa using (List.append_inj' whole rfl).2
    have close := near last_ (by simp)
    rw [same, List.concat_eq_append, byteLength_append] at fits
    have one : byteLength [last_] = last_.utf8Size := by simp [byteLength, encodeUtf8]
    omega

theorem pushItem_ends_iff (sized : buffer.Sized) (complete : buffer.Complete output) (ends : buffer.Ends output) :
    (buffer.pushItem text).Ends (output ++ text) ↔ buffer.Clears text := by
  have keptBefore : buffer.kept <:+ output := by
    cases truncated : buffer.truncated with
    | true => exact ends truncated
    | false => exact complete truncated ▸ List.suffix_refl output
  constructor
  · intro after long older suffix fits
    have shown : buffer.item text = { text := textTail buffer.maxBytes text, bytes := byteLength (textTail buffer.maxBytes text) } := by
      rw [item, if_pos long]
    have stays := pushItem_keeps sized suffix (by rw [shown]; exact fits)
    have truncated : (buffer.pushItem text).truncated = true := by
      show (buffer.truncated || decide (buffer.maxBytes < byteLength text) || _) = true
      rw [decide_eq_true long, Bool.or_true, Bool.true_or]
    have tail := after truncated
    obtain ⟨front, whole, some_, -, near⟩ := textTail_spec long
    have inside := (flatMap_suffix stays).trans tail
    rw [List.flatMap_append, List.flatMap_singleton, shown] at inside
    refine cut_alone some_ near ?_ (by rw [← whole]; exact inside)
    rw [byteLength_flatMap fun chunk member => sized.sizes chunk (suffix.subset member)]
    exact fits.1
  · intro clears truncated
    obtain none_ | ⟨older, suffix, fits, same⟩ := pushItem_cases sized text
    · rw [kept, none_]
      exact List.nil_suffix
    · rw [kept_pushItem same]
      by_cases long : buffer.maxBytes < byteLength text
      · have shown : (buffer.item text).bytes = byteLength (textTail buffer.maxBytes text) := by
          rw [item, if_pos long]
        rw [shown] at fits
        rw [clears long older suffix fits, List.nil_append]
        exact List.suffix_append_of_suffix (item_suffix buffer text)
      · have whole : (buffer.item text).text = text := by
          rw [item, if_neg long]
        rw [whole, List.suffix_append_self_iff]
        exact (flatMap_suffix suffix).trans keptBefore

/-- After every push of a run a reader is told the truth, if and only if the end of a text that was too long
never had older text kept in front of it. -/
theorem replay_honest_iff (maxBytes maxChunks : Nat) (pushed : List (List Char)) :
    (∀ earlier later, pushed = earlier ++ later →
        (replay pushItem { maxBytes, maxChunks } earlier).Honest earlier.flatten) ↔
      Along pushItem Clears { maxBytes, maxChunks } pushed := by
  have run (buffer : TerminalBuffer) (output : List Char) (sized : buffer.Sized) (complete : buffer.Complete output)
      (ends : buffer.Ends output) :
      (∀ earlier later, pushed = earlier ++ later →
        (replay pushItem buffer earlier).Honest (output ++ earlier.flatten)) ↔ Along pushItem Clears buffer pushed := by
    induction pushed generalizing buffer output with
    | nil =>
        refine ⟨fun _ => trivial, fun _ earlier later same => ?_⟩
        obtain ⟨rfl, -⟩ := List.append_eq_nil_iff.mp same.symm
        rw [List.flatten_nil, List.append_nil]
        exact (honest_iff sized complete).mpr ends
    | cons text rest ih =>
        have step := @pushItem_ends_iff _ text _ sized complete ends
        constructor
        · intro all
          have one := all [text] rest rfl
          rw [List.flatten_singleton] at one
          have after := (honest_iff (sized.pushItem text) (complete.pushItem text)).mp one
          refine ⟨step.mp after, (ih _ _ (sized.pushItem text) (complete.pushItem text) after).mp ?_⟩
          intro earlier later same
          have more := all (text :: earlier) later (by rw [same]; rfl)
          rw [List.flatten_cons, ← List.append_assoc] at more
          exact more
        · intro along earlier later same
          have after := step.mpr along.1
          cases earlier with
          | nil =>
              rw [List.flatten_nil, List.append_nil]
              exact (honest_iff sized complete).mpr ends
          | cons first earlier =>
              obtain ⟨rfl, rest_⟩ := List.cons.inj same
              have more := (ih _ _ (sized.pushItem text) (complete.pushItem text) after).mpr along.2 earlier later rest_
              rw [List.flatten_cons, ← List.append_assoc]
              exact more
  have start : ({ maxBytes, maxChunks } : TerminalBuffer).Sized :=
    ⟨by simp, rfl, Nat.zero_le _, Nat.zero_le _⟩
  have same := run { maxBytes, maxChunks } [] start (fun _ => rfl) (fun held => by cases held)
  simp only [List.nil_append] at same
  exact same

/-- `a`, and then two characters of three bytes, into four bytes: of these the first is missing in the middle. -/
theorem gap_in_replay :
    (replay pushItem { maxBytes := 4, maxChunks := 100 } [['a'], ['€', '€']]).read = marker ++ ['a', '€'] ∧
      ¬ (replay pushItem { maxBytes := 4, maxChunks := 100 } [['a'], ['€', '€']]).Honest [['a'], ['€', '€']].flatten := by
  have shown : (replay pushItem { maxBytes := 4, maxChunks := 100 } [['a'], ['€', '€']]).read = marker ++ ['a', '€'] := by
    decide +kernel
  refine ⟨shown, fun honest => ?_⟩
  have suffix := honest.tail ['a', '€'] shown
  exact absurd suffix (by decide)

end TerminalBuffer

end Dockge.Terminals.Replay
