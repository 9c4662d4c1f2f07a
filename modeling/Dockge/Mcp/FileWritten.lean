import Dockge.Mcp.FileWrite

namespace Dockge.Mcp.FileWrite

open Data

/-! A write leaves the new bytes or the old ones. -/

variable {Text Hash α β : Type} {world : World} {bytes : Bytes} {offset : Nat} {error failure : WriteError} {undo : Bool}

/-- Nothing has been written into the file. -/
def World.Untouched (world : World) : Prop := world.bytes = world.original

theorem World.Untouched.theirs (untouched : world.Untouched) : world.theirs.Untouched := by
  unfold World.theirs
  split
  · exact untouched
  · rw [Untouched] at untouched ⊢
    rw [untouched]

theorem World.elsewhere_bytes (world : World) : world.elsewhere.bytes = world.bytes ∧ world.elsewhere.original = world.original := by
  unfold World.elsewhere
  split
  · exact ⟨rfl, rfl⟩
  · exact ⟨rfl, rfl⟩

/-! ## Operations -/

theorem looks_ensures {others : World → World} {value : World → α} {returned : α → World → Prop} {threw : WriteError → World → Prop}
    (done : returned (value (others world)) (others world)) (failed : threw error (others world)) :
    Ensures Fate.Any (looks others error value) world returned threw fun _ => True := by
  refine Ensures.operation trivial ?_
  intro fate _
  cases fate with
  | ok => exact done
  | fail => exact failed
  | late => exact failed
  | kill => exact trivial

theorem alone_ensures {value : World → α} {effect : World → World} {returned : α → World → Prop} {threw : WriteError → World → Prop}
    (done : returned (value world) (effect world)) (failed : threw error world) (late : threw error (effect world)) :
    Ensures Fate.Any (alone error value effect) world returned threw fun _ => True := by
  refine Ensures.operation trivial ?_
  intro fate _
  cases fate with
  | ok => exact done
  | fail => exact failed
  | late => exact late
  | kill => exact trivial

theorem refuseIf_ensures {condition : Bool} {returned : Unit → World → Prop} {threw : WriteError → World → Prop}
    (passed : condition = false → returned () world) (failed : threw error world) :
    Ensures Fate.Any (refuseIf condition error) world returned threw fun _ => True :=
  Ensures.onlyIf (fun _ => Ensures.fail failed) passed

/-- Closing the file may take the place of the error before. -/
theorem closing_ensures {closed : WriteError} {closedAfter : WriteError → WriteError} {body : FileTask α}
    {returned : α → World → Prop} {threw' : WriteError → World → Prop} (threw : WriteError → World → Prop)
    (before : Ensures Fate.Any body world returned threw fun _ => True)
    (closes : ∀ value reached, returned value reached → threw' closed reached)
    (passes : ∀ hidden reached, threw hidden reached → threw' hidden reached ∧ threw' (closedAfter hidden) reached) :
    Ensures Fate.Any (closing closed closedAfter body) world returned threw' fun _ => True := by
  apply Ensures.bind (fun tried reached =>
    (∀ value, tried = .ok value → returned value reached) ∧ ∀ error, tried = .error error → threw error reached)
  · apply Ensures.attempt
    apply before.mono
    · intro value reached held
      refine ⟨?_, ?_⟩ <;> intro other same <;> cases same
      exact held
    · intro error reached held
      refine ⟨?_, ?_⟩ <;> intro other same <;> cases same
      exact held
    · exact fun _ _ => trivial
  · intro tried reached held
    cases tried with
    | ok value =>
        have done := held.1 value rfl
        apply Ensures.bind fun _ later => later = reached
        · exact alone_ensures rfl (closes value reached done) (closes value reached done)
        · intro _ later same
          exact Ensures.pure (same ▸ done)
    | error error =>
        have failed := passes error reached (held.2 error rfl)
        apply Ensures.bind fun _ later => later = reached
        · exact alone_ensures rfl failed.2 failed.2
        · intro _ later same
          exact Ensures.fail (same ▸ failed.1)

/-! ## The loop -/

theorem take_overwrite {file : Bytes} (count : Nat) (within : offset ≤ bytes.length) (same : file.take offset = bytes.take offset) :
    (World.overwrite file ((bytes.drop offset).take count) offset).take (offset + ((bytes.drop offset).take count).length) =
      bytes.take (offset + ((bytes.drop offset).take count).length) := by
  have reach : offset ≤ file.length := by
    have lengths := congrArg List.length same
    rw [List.length_take, List.length_take] at lengths
    omega
  have gap : offset - file.length = 0 := by omega
  have front : (file.take offset ++ (bytes.drop offset).take count).length = offset + ((bytes.drop offset).take count).length := by
    rw [List.length_append, List.length_take, Nat.min_eq_left reach]
  have chunk : (bytes.drop offset).take ((bytes.drop offset).take count).length = (bytes.drop offset).take count := by
    rw [List.length_take, ← List.take_eq_take_min]
  rw [World.overwrite, gap, List.replicate_zero, List.append_nil, ← front, List.take_left, front, List.take_add, chunk, same]

/-- What was there, was there before the write. -/
theorem writeFrom_ensures (bytes : Bytes) (failure : WriteError) (undo : Bool) (offset : Nat) (world : World)
    (within : offset ≤ bytes.length) (same : world.bytes.take offset = bytes.take offset) :
    Ensures Fate.Any (writeFrom bytes failure undo offset) world
      (fun _ reached => reached.bytes.take bytes.length = bytes ∧ reached.original = world.original)
      (fun error reached => reached.original = world.original ∧ (error = failure ∨ error = .operation undo)) fun _ => True := by
  induction left : bytes.length - offset using Nat.strongRecOn generalizing offset world with
  | ind left_ ih =>
      rw [writeFrom]
      by_cases more : offset < bytes.length
      · rw [if_pos more]
        apply Ensures.bind fun written reached => written = (world.chunk bytes offset).length ∧ reached = world.write bytes offset
        · exact alone_ensures ⟨rfl, rfl⟩ ⟨rfl, .inr rfl⟩ ⟨rfl, .inr rfl⟩
        · intro written reached held
          obtain ⟨rfl, rfl⟩ := held
          split
          next => exact Ensures.fail ⟨rfl, .inl rfl⟩
          next progress =>
            have bound : (world.chunk bytes offset).length ≤ bytes.length - offset := by
              rw [World.chunk, List.length_take, List.length_drop]
              exact Nat.min_le_right _ _
            exact ih (bytes.length - (offset + (world.chunk bytes offset).length)) (by omega) _ _ (by omega)
              (take_overwrite _ within same) rfl
      · rw [if_neg more]
        have all : offset = bytes.length := by omega
        rw [all, List.take_length] at same
        exact Ensures.pure ⟨same, rfl⟩

theorem writeAll_ensures (bytes : Bytes) (failure : WriteError) (undo : Bool) (world : World) :
    Ensures Fate.Any (writeAll bytes failure undo) world
      (fun _ reached => reached.bytes = bytes ∧ reached.original = world.original)
      (fun error reached => reached.original = world.original ∧ (error = failure ∨ error = .operation undo)) fun _ => True := by
  apply Ensures.bind _ (writeFrom_ensures bytes failure undo 0 world (Nat.zero_le _) rfl)
  intro _ written held
  obtain ⟨front, original⟩ := held
  apply Ensures.bind fun _ reached => reached.bytes = bytes ∧ reached.original = world.original
  · refine alone_ensures ⟨?_, original⟩ ⟨original, .inr rfl⟩ ⟨original, .inr rfl⟩
    have reach : bytes.length ≤ written.bytes.length := by
      have lengths := congrArg List.length front
      rw [List.length_take] at lengths
      omega
    rw [World.truncate, front, Nat.sub_eq_zero_of_le reach, List.replicate_zero, List.append_nil]
  · intro _ reached held
    exact alone_ensures held ⟨held.2, .inr rfl⟩ ⟨held.2, .inr rfl⟩

/-! ## The whole write -/

/-- The undo itself failed. -/
def WriteError.undoFailed : WriteError → Bool
  | .recoveryFailed => true
  | .operation undo => undo
  | .closeAfter hidden => hidden.undoFailed
  | _ => false

/-- An error from before the file is closed, with the bytes as they were unless they could not be put back -/
def Undone (error : WriteError) (world : World) : Prop :=
  error ≠ .close ∧ (error.undoFailed = false → world.Untouched)

theorem undone_of_untouched (untouched : world.Untouched) (other : error ≠ .close) : Undone error world :=
  ⟨other, fun _ => untouched⟩

variable [DecidableEq Text] [DecidableEq Hash] {codec : TextCodec Text} {digest : Bytes → Hash} {expectedHash : Hash}

/-- A step before the last look at the content -/
theorem step_ensures {value : World → α} {next : α → FileTask β} {returned : β → World → Prop} {threw : WriteError → World → Prop}
    (untouched : world.Untouched) (failed : ∀ reached : World, reached.Untouched → threw (.operation false) reached)
    (after : ∀ reached : World, reached.Untouched → Ensures Fate.Any (next (value reached)) reached returned threw fun _ => True) :
    Ensures Fate.Any (step value >>= next) world returned threw fun _ => True := by
  apply Ensures.bind fun found reached => reached.Untouched ∧ found = value reached
  · exact looks_ensures ⟨untouched.theirs, rfl⟩ (failed _ untouched.theirs)
  · intro found reached held
    obtain ⟨untouched, rfl⟩ := held
    exact after reached untouched

theorem refused_ensures {condition : Bool} {next : Unit → FileTask β} {returned : β → World → Prop} {threw : WriteError → World → Prop}
    (failed : threw error world)
    (after : condition = false → Ensures Fate.Any (next ()) world returned threw fun _ => True) :
    Ensures Fate.Any (refuseIf condition error >>= next) world returned threw fun _ => True := by
  apply Ensures.bind fun _ reached => condition = false ∧ reached = world
  · exact refuseIf_ensures (fun passed => ⟨passed, rfl⟩) failed
  · intro _ reached held
    obtain ⟨passed, rfl⟩ := held
    exact after passed

/-- All that was read, where no more than this was there -/
theorem eq_of_take {size : Nat} (whole : ¬ (bytes.take (size + 1)).length ≠ size) : bytes.take (size + 1) = bytes := by
  rw [not_not, List.length_take] at whole
  apply List.take_of_length_le
  omega

theorem readMcpFile_ensures (codec : TextCodec Text) (digest : Bytes → Hash) (known : Bool) (untouched : world.Untouched) :
    Ensures Fate.Any (readMcpFile codec digest known) world
      (fun file reached => reached.Untouched ∧ codec.encode file.content = reached.bytes ∧ file.hash = digest reached.bytes)
      Undone fun _ => True := by
  have failed (reached : World) (untouched : reached.Untouched) : Undone (.operation false) reached :=
    undone_of_untouched untouched (by decide)
  unfold readMcpFile
  apply refused_ensures (undone_of_untouched untouched (by decide))
  intro _
  apply step_ensures untouched failed
  intro resolved untouched
  apply step_ensures untouched failed
  intro opened untouched
  refine closing_ensures (fun error reached => error ≠ .close ∧ reached.Untouched) ?_ ?_ ?_
  · have failed (reached : World) (untouched : reached.Untouched) :
        WriteError.operation false ≠ .close ∧ reached.Untouched := ⟨by decide, untouched⟩
    apply step_ensures untouched failed
    intro seen untouched
    apply refused_ensures ⟨by decide, untouched⟩
    intro _
    apply step_ensures untouched failed
    intro read untouched
    apply refused_ensures ⟨by decide, untouched⟩
    intro whole
    rw [decide_eq_false_iff_not] at whole
    apply refused_ensures ⟨by decide, untouched⟩
    intro text
    rw [Bool.or_eq_false_iff, decide_eq_false_iff_not, not_not, eq_of_take whole] at text
    apply Ensures.pure
    rw [eq_of_take whole]
    exact ⟨untouched, text.1, rfl⟩
  · intro file reached held
    exact failed reached held.1
  · intro hidden reached held
    exact ⟨undone_of_untouched held.2 held.1, failed reached held.2⟩

theorem assertContent_ensures (digest : Bytes → Hash) (size : Nat) (expectedHash : Hash) (untouched : world.Untouched) :
    Ensures Fate.Any (assertContent digest size expectedHash) world
      (fun current reached => reached.Untouched ∧ current = reached.bytes ∧ digest current = expectedHash) Undone fun _ => True := by
  unfold assertContent
  apply step_ensures untouched fun reached untouched => undone_of_untouched untouched (by decide)
  intro read untouched
  apply refused_ensures (undone_of_untouched untouched (by decide))
  intro passed
  rw [Bool.or_eq_false_iff, decide_eq_false_iff_not, decide_eq_false_iff_not] at passed
  exact Ensures.pure ⟨untouched, eq_of_take passed.1, not_not.mp passed.2⟩

theorem assertSameInode_ensures {others : World → World} (kept : ∀ world, world.Untouched → (others world).Untouched)
    (untouched : world.Untouched) :
    Ensures Fate.Any (assertSameInode others) world (fun _ reached => reached = others world) Undone fun _ => True := by
  apply Ensures.bind fun _ reached => reached = others world
  · exact looks_ensures rfl (undone_of_untouched (kept world untouched) (by decide))
  · intro moved reached same
    subst same
    exact refuseIf_ensures (fun _ => rfl) (undone_of_untouched (kept world untouched) (by decide))

/-- The write itself, and its undo -/
theorem written_or_undone (after before : Bytes) (found : world.bytes = before) (untouched : world.Untouched) :
    Ensures Fate.Any
      (Program.orElse (do
          writeAll after .writeFailed false
          assertSameInode World.elsewhere)
        fun error => do
          writeAll before .recoveryFailed true
          Program.fail error) world
      (fun _ reached => reached.bytes = after ∧ reached.original = before) Undone fun _ => True := by
  have was : world.original = before := untouched.symm.trans found
  apply Ensures.orElse fun error reached => reached.original = before ∧ error ≠ .close ∧ error.undoFailed = false
  · apply Ensures.bind fun _ reached => reached.bytes = after ∧ reached.original = before
    · apply (writeAll_ensures after .writeFailed false world).mono
      · intro _ reached held
        exact ⟨held.1, held.2.trans was⟩
      · intro error reached held
        obtain ⟨original, rfl | rfl⟩ := held
        · exact ⟨original.trans was, by decide, rfl⟩
        · exact ⟨original.trans was, by decide, rfl⟩
      · exact fun _ _ => trivial
    · intro _ written held
      have kept := World.elsewhere_bytes written
      have later : written.elsewhere.original = before := kept.2.trans held.2
      apply Ensures.bind fun _ reached => reached = written.elsewhere
      · exact looks_ensures rfl ⟨later, by decide, rfl⟩
      · intro moved reached same
        subst same
        exact refuseIf_ensures (fun _ => ⟨kept.1.trans held.1, later⟩) ⟨later, by decide, rfl⟩
  · intro error reached held
    obtain ⟨original, other, -⟩ := held
    apply Ensures.bind fun _ restored => restored.Untouched
    · apply (writeAll_ensures before .recoveryFailed true reached).mono
      · intro _ restored held
        exact held.1.trans (original.symm.trans held.2.symm)
      · intro error restored held
        obtain ⟨-, rfl | rfl⟩ := held
        · exact ⟨by decide, fun undo => by cases undo⟩
        · exact ⟨by decide, fun undo => by cases undo⟩
      · exact fun _ _ => trivial
    · intro _ restored untouched
      exact Ensures.fail (undone_of_untouched untouched other)

/-- The file holds the new bytes, and held the expected ones. -/
def Written (codec : TextCodec Text) (digest : Bytes → Hash) (expectedHash : Hash) (content : Text) (world : World) : Prop :=
  world.bytes = codec.encode content ∧ digest world.original = expectedHash

theorem writeMcpFile_ensures (codec : TextCodec Text) (digest : Bytes → Hash) (injective : Function.Injective digest)
    (known : Bool) (expectedHash : Hash) (content : Text) (untouched : world.Untouched) :
    Ensures Fate.Any (writeMcpFile codec digest known expectedHash content) world
      (fun _ => Written codec digest expectedHash content)
      (fun error reached => (error = .close → Written codec digest expectedHash content reached) ∧
        (error ≠ .close → error.undoFailed = false → reached.Untouched)) fun _ => True := by
  have early {error : WriteError} {reached : World} (undone : Undone error reached) :
      (error = .close → Written codec digest expectedHash content reached) ∧
        (error ≠ .close → error.undoFailed = false → reached.Untouched) :=
    ⟨fun same => absurd same undone.1, fun _ => undone.2⟩
  have failed (reached : World) (untouched : reached.Untouched) := early (@undone_of_untouched reached (.operation false) untouched (by decide))
  unfold writeMcpFile
  apply refused_ensures (early (undone_of_untouched untouched (by decide)))
  intro _
  apply Ensures.bind _ ((readMcpFile_ensures codec digest known untouched).mono (fun _ _ held => held) (fun _ _ held => early held)
    fun _ _ => trivial)
  intro original read held
  obtain ⟨untouched, encoded, hashed⟩ := held
  apply refused_ensures (early (undone_of_untouched untouched (by decide)))
  intro expected
  rw [decide_eq_false_iff_not, not_not] at expected
  split
  next same =>
    apply Ensures.pure
    rw [Written, ← same, encoded, ← expected, hashed, ← untouched]
    exact ⟨rfl, rfl⟩
  next =>
    apply step_ensures untouched failed
    intro resolved untouched
    apply step_ensures untouched failed
    intro opened untouched
    refine closing_ensures Undone ?_ ?_ ?_
    · apply step_ensures untouched fun reached untouched => undone_of_untouched untouched (by decide)
      intro seen untouched
      apply refused_ensures (undone_of_untouched untouched (by decide))
      intro _
      apply Ensures.bind _ (assertContent_ensures digest seen.bytes.length expectedHash untouched)
      intro before first held
      obtain ⟨untouched, -, hashed⟩ := held
      apply Ensures.bind _ (assertSameInode_ensures (fun _ held => held.theirs) untouched)
      intro _ second same
      have untouched : second.Untouched := same ▸ untouched.theirs
      apply Ensures.bind fun _ reached => reached.Untouched
      · exact looks_ensures untouched.theirs (undone_of_untouched untouched.theirs (by decide))
      · intro _ guarded untouched
        apply Ensures.bind _ (assertContent_ensures digest seen.bytes.length expectedHash untouched)
        intro current third held
        obtain ⟨untouched, found, again⟩ := held
        -- Both looks found the bytes of this hash.
        have found : third.bytes = before := found.symm.trans (injective (again.trans hashed.symm))
        have kept (world : World) (untouched : world.Untouched) : world.elsewhere.Untouched := by
          have bytes := World.elsewhere_bytes world
          exact bytes.1.trans (untouched.trans bytes.2.symm)
        apply Ensures.bind _ (assertSameInode_ensures kept untouched)
        intro _ fourth same
        have untouched : fourth.Untouched := same ▸ kept third untouched
        have found : fourth.bytes = before := by rw [same, (World.elsewhere_bytes third).1, found]
        apply (written_or_undone (codec.encode content) before found untouched).mono
        · intro _ reached held
          exact ⟨held.1, by rw [held.2, hashed]⟩
        · exact fun _ _ held => held
        · exact fun _ _ => trivial
    · intro _ reached written
      exact ⟨fun _ => written, fun other => absurd rfl other⟩
    · intro hidden reached undone
      refine ⟨early undone, ?_, fun _ => undone.2⟩
      intro same
      cases same

/-- The file at the beginning, and what is going to happen to it besides -/
def World.start (bytes : Bytes) (isFile : Bool) (meanwhile : List Meanwhile) (counts : List Nat) : World :=
  { bytes, original := bytes, isFile, meanwhile, counts }

end Dockge.Mcp.FileWrite
