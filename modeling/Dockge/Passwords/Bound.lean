import Dockge.Passwords.Attempts

namespace Dockge.Passwords

/-! How many wrong passwords the counter lets through.

The counter is read before the await and raised after it.  It bounds the guesses as long as it would
have counted the ones still being verified, every wrong one is counted in the end, and no failure
takes back the time that a later one set.
-/

variable {state : State} {key : String} {time : Nat}

def Note.wrong (key : String) : Note → Bool
  | .handed other _ correct => other == key && !correct
  | _ => false

/-- The counter of the key was forgotten. -/
def Note.forgets (key : String) : Note → Bool
  | .handed _ _ _ => false
  | .confirmed other _ => other == key
  | .cleared other _ => other == key

/-- No span of the lock time without a correct password or a clearing holds more wrong passwords
than the limit. -/
def Bounded (log : List Note) : Prop :=
  ∀ key start newer span older, log = newer ++ span ++ older →
    (∀ note ∈ span, start ≤ note.time ∧ note.time < start + lockMs) →
    (∀ note ∈ span, note.forgets key = false) → span.countP (Note.wrong key) ≤ attemptLimit

/-- Wrong passwords since the key was forgotten that were handed on less than the lock time ago. -/
def recent (key : String) (time : Nat) : List Note → Nat
  | [] => 0
  | note :: older =>
      if note.forgets key then 0
      else (if note.wrong key ∧ time < note.time + lockMs then 1 else 0) + recent key time older

/-- The failures a record counts at a time. -/
def live (state : State) (key : String) (time : Nat) : Nat :=
  match state.passwordAttempts key with
  | none => 0
  | some record => if time < record.expires then record.failures else 0

def Call.guesses (key : String) (time : Nat) (call : Call) : Bool :=
  decide (call.key = key ∧ call.correct = false ∧ time < call.arrived + lockMs)

/-- Wrong passwords still being verified that were handed on less than the lock time ago. -/
def inFlight (state : State) (key : String) (time : Nat) : Nat :=
  state.verifying.countP (Call.guesses key time)

/-- The counter is right about a step: a wrong password comes through only where the limit has room
with the ones in flight, a wrong password is answered, and a failure does not shorten the lock. -/
def Accounted (state : State) : Event → Prop
  | .offer socket (some false) =>
      (state.passwordAttempts (passwordAttemptKey socket)).any (Record.locks state.clock) = true ∨
        live state (passwordAttemptKey socket) state.clock +
          inFlight state (passwordAttemptKey socket) state.clock < attemptLimit
  | .answer call answers =>
      match verifyCurrentPassword call.socket answers with
      | none => call.correct = true
      | some false => ∀ record ∈ state.passwordAttempts call.key,
          record.expires ≤ call.arrived + lockMs
      | some true => True
  | _ => True

instance (state : State) : (event : Event) → Decidable (Accounted state event)
  | .wait _ => isTrue trivial
  | .offer _ none => isTrue trivial
  | .offer _ (some true) => isTrue trivial
  | .offer _ (some false) => inferInstanceAs (Decidable (_ = true ∨ _ < _))
  | .answer call answers =>
      match verified : verifyCurrentPassword call.socket answers with
      | none => decidable_of_iff (call.correct = true) (by simp only [Accounted, verified])
      | some false =>
          decidable_of_iff (∀ record ∈ state.passwordAttempts call.key,
            record.expires ≤ call.arrived + lockMs) (by simp only [Accounted, verified])
      | some true => isTrue (by simp only [Accounted, verified])
  | .drop _ _ => isTrue trivial

/-! Spans of the log. -/

theorem count_le_recent {span older : List Note}
    (near : ∀ note ∈ span, time < note.time + lockMs)
    (kept : ∀ note ∈ span, note.forgets key = false) :
    span.countP (Note.wrong key) ≤ recent key time (span ++ older) := by
  induction span with
  | nil => exact Nat.zero_le _
  | cons note rest ih =>
      have tail := ih (fun other member => near other (List.mem_cons_of_mem note member))
        (fun other member => kept other (List.mem_cons_of_mem note member))
      have close := near note List.mem_cons_self
      have stays := kept note List.mem_cons_self
      rw [List.cons_append, recent, if_neg (by simp [stays]), List.countP_cons]
      by_cases wrong : note.wrong key = true
      · rw [if_pos wrong, if_pos ⟨wrong, close⟩]
        omega
      · rw [if_neg wrong]
        omega

/-- Every wrong password of the log was within the limit when it was handed on. -/
def Guarded (log : List Note) : Prop :=
  ∀ key note older, note :: older <:+ log → note.wrong key = true →
    recent key note.time (note :: older) ≤ attemptLimit

theorem Guarded.bounded {log : List Note} (guarded : Guarded log) : Bounded log := by
  intro key start newer span older split within kept
  induction span generalizing newer with
  | nil => exact Nat.zero_le _
  | cons note rest ih =>
      by_cases wrong : note.wrong key = true
      · have suffix : note :: (rest ++ older) <:+ log := ⟨newer, by simp [split]⟩
        have top := guarded key note (rest ++ older) suffix wrong
        have here := (within note List.mem_cons_self).2
        have counted : (note :: rest).countP (Note.wrong key) ≤
            recent key note.time (note :: rest ++ older) := by
          refine count_le_recent ?_ kept
          intro other member
          have bounds := (within other member).1
          omega
        exact Nat.le_trans counted top
      · rw [List.countP_cons_of_neg (by simpa using wrong)]
        refine ih (newer ++ [note]) (by simp [split]) ?_ ?_
        · exact fun other member => within other (List.mem_cons_of_mem note member)
        · exact fun other member => kept other (List.mem_cons_of_mem note member)

/-- A note that is no wrong password of the limit leaves the log guarded. -/
theorem Guarded.cons {log : List Note} {note : Note} (guarded : Guarded log)
    (top : ∀ key, note.wrong key = true → recent key note.time (note :: log) ≤ attemptLimit) :
    Guarded (note :: log) := by
  intro key first older suffix wrong
  rcases List.suffix_cons_iff.mp suffix with same | deeper
  · cases same
    exact top key wrong
  · exact guarded key first older deeper wrong

/-! The counter and the calls in flight account for what is recent. -/

structure Counted (state : State) : Prop where
  counts : ∀ key time, state.clock ≤ time →
    recent key time state.log ≤ live state key time + inFlight state key time
  guarded : Guarded state.log

theorem counted_start : Counted .start where
  counts key time _ := Nat.zero_le _
  guarded := by
    intro key note older suffix
    exact absurd (List.suffix_nil.mp suffix) (List.cons_ne_nil note older)

theorem setAttempts_self (record : Option Record) :
    (state.setAttempts key record).passwordAttempts key = record := by
  simp [State.setAttempts]

theorem setAttempts_other {other : String} (record : Option Record) (apart : other ≠ key) :
    (state.setAttempts key record).passwordAttempts other = state.passwordAttempts other := by
  simp [State.setAttempts, apart]

theorem live_forgotten : live (state.setAttempts key none) key time = 0 := by
  simp only [live, setAttempts_self]

theorem live_other {other : String} (record : Option Record) (apart : other ≠ key) :
    live (state.setAttempts key record) other time = live state other time := by
  simp only [live, setAttempts_other record apart]

/-- A record that is over counts nothing from then on. -/
theorem live_over (gone : (state.passwordAttempts key).any (Record.isOver state.clock) = true)
    (later : state.clock ≤ time) : live state key time = 0 := by
  unfold live
  cases found : state.passwordAttempts key with
  | none => rfl
  | some record =>
      simp only [found, Option.any_some, Record.isOver, decide_eq_true_eq] at gone
      exact if_neg (by omega)

theorem Counted.wait (counted : Counted state) (ms : Nat) :
    Counted { state with clock := state.clock + ms } where
  counts key time later := counted.counts key time (Nat.le_trans (Nat.le_add_right _ ms) later)
  guarded := counted.guarded

/-- Dropping a record that is over changes no count. -/
theorem Counted.expire (counted : Counted state)
    (gone : (state.passwordAttempts key).any (Record.isOver state.clock) = true) :
    Counted (state.setAttempts key none) where
  counts other time later := by
    have before := counted.counts other time later
    by_cases same : other = key
    · subst same
      rw [live_forgotten]
      rw [live_over gone later] at before
      exact before
    · rw [live_other none same]
      exact before
  guarded := counted.guarded

theorem recent_handed (other : String) (moment : Nat) (correct : Bool) (older : List Note) :
    recent key time (.handed other moment correct :: older) =
      (if other = key ∧ correct = false ∧ time < moment + lockMs then 1 else 0) + recent key time older := by
  rw [recent, if_neg (by simp [Note.forgets])]
  simp only [Note.wrong, Note.time, Bool.and_eq_true, beq_iff_eq, Bool.not_eq_true', and_assoc]

theorem inFlight_handOn (socket : Socket) (correct : Bool) :
    inFlight (state.handOn socket correct) key time = inFlight state key time +
      (if passwordAttemptKey socket = key ∧ correct = false ∧ time < state.clock + lockMs
        then 1 else 0) := by
  simp only [inFlight, State.handOn, List.countP_cons, Call.guesses, Call.key]
  congr 1
  exact if_congr decide_eq_true_iff rfl rfl

/-- A password goes to the auth library. -/
theorem Counted.handOn (counted : Counted state) (socket : Socket) (correct : Bool)
    (room : correct = false → live state (passwordAttemptKey socket) state.clock +
      inFlight state (passwordAttemptKey socket) state.clock < attemptLimit) :
    Counted (state.handOn socket correct) where
  counts key time later := by
    have before := counted.counts key time later
    have same : live (state.handOn socket correct) key time = live state key time := rfl
    rw [same, inFlight_handOn]
    change recent key time (.handed _ _ _ :: state.log) ≤ _
    rw [recent_handed]
    omega
  guarded := by
    refine counted.guarded.cons ?_
    intro key wrong
    simp only [Note.wrong, Bool.and_eq_true, beq_iff_eq, Bool.not_eq_true'] at wrong
    obtain ⟨rfl, guess⟩ := wrong
    have before := counted.counts (passwordAttemptKey socket) state.clock (Nat.le_refl _)
    have space := room guess
    simp only [Note.time]
    rw [recent_handed]
    split <;> omega

theorem Counted.offer (counted : Counted state) {socket : Socket} {currentPassword : Option Bool}
    (accounted : Accounted state (.offer socket currentPassword)) {after : State}
    (passed : offer state socket currentPassword = .ok after) : Counted after := by
  cases currentPassword with
  | none => cases passed
  | some correct =>
      simp only [Passwords.offer] at passed
      split at passed
      · cases passed
      · rename_i unlocked
        cases passed
        have room : correct = false → live state (passwordAttemptKey socket) state.clock +
            inFlight state (passwordAttemptKey socket) state.clock < attemptLimit := by
          rintro rfl
          exact accounted.resolve_left unlocked
        split
        · rename_i gone
          refine (counted.expire gone).handOn socket correct ?_
          intro guess
          have space := room guess
          rw [live_forgotten]
          exact Nat.lt_of_le_of_lt (Nat.add_le_add_right (Nat.zero_le _) _) space
        · exact counted.handOn socket correct room

/-- The key is forgotten, and nothing of it is recent. -/
theorem Counted.forget (counted : Counted state) (note : Note) (forgets : note.forgets key = true)
    (single : ∀ other, note.forgets other = true → other = key) (mild : ∀ other, note.wrong other = false) :
    Counted { state.setAttempts key none with log := note :: state.log } where
  counts other time later := by
    rw [recent]
    split
    · exact Nat.zero_le _
    · rename_i kept
      have apart : other ≠ key := by
        rintro rfl
        exact kept forgets
      have before := counted.counts other time later
      rw [if_neg (by simp [mild other]), Nat.zero_add]
      have same : live { state.setAttempts key none with log := note :: state.log } other time =
          live state other time := live_other none apart
      rw [same]
      exact before
  guarded := counted.guarded.cons fun other wrong => by
    rw [mild other] at wrong
    cases wrong

theorem inFlight_erase {call : Call} (member : call ∈ state.verifying) :
    inFlight state key time = inFlight { state with verifying := state.verifying.erase call } key time +
      (if call.guesses key time then 1 else 0) := by
  have order := List.perm_cons_erase member
  simp only [inFlight]
  rw [order.countP_eq, List.countP_cons]

/-- A call that offered the right password leaves the count as it is. -/
theorem Counted.leave (counted : Counted state) {call : Call} (member : call ∈ state.verifying)
    (right : call.correct = true) :
    Counted { state with verifying := state.verifying.erase call } where
  counts key time later := by
    have before := counted.counts key time later
    rw [inFlight_erase member, if_neg (by simp [Call.guesses, right])] at before
    exact before
  guarded := counted.guarded

theorem live_raised (failures arrived : Nat) :
    live (state.setAttempts key (some { failures := failures, expires := arrived + lockMs })) key time =
      if time < arrived + lockMs then failures else 0 := by
  simp only [live, setAttempts_self]

/-- What a record counts is at most its failures, and nothing once a later lock would be over. -/
theorem live_le {arrived : Nat} (ordered : ∀ record ∈ state.passwordAttempts key,
      record.expires ≤ arrived + lockMs) :
    live state key time ≤ ((state.passwordAttempts key).map Record.failures).getD 0 ∧
      (¬time < arrived + lockMs → live state key time = 0) := by
  unfold live
  cases found : state.passwordAttempts key with
  | none => exact ⟨Nat.le_refl _, fun _ => rfl⟩
  | some record =>
      have bound := ordered record (by simp [found])
      simp only [Option.map_some, Option.getD_some]
      constructor
      · split
        · exact Nat.le_refl _
        · exact Nat.zero_le _
      · intro past
        exact if_neg (by omega)

/-- A failure moves from the calls in flight to the record. -/
theorem Counted.fail (counted : Counted state) {call : Call} (member : call ∈ state.verifying)
    (ordered : ∀ record ∈ state.passwordAttempts call.key, record.expires ≤ call.arrived + lockMs) :
    Counted (({ state with verifying := state.verifying.erase call } : State).setAttempts call.key
      (some { failures := ((state.passwordAttempts call.key).map Record.failures).getD 0 + 1,
              expires := call.arrived + lockMs })) where
  counts key time later := by
    have before := counted.counts key time later
    rw [inFlight_erase member] at before
    by_cases same : key = call.key
    · subst same
      rw [live_raised]
      obtain ⟨most, ended⟩ := @live_le state call.key time call.arrived ordered
      change recent call.key time state.log ≤ _ +
        inFlight { state with verifying := state.verifying.erase call } call.key time
      by_cases within : time < call.arrived + lockMs
      · rw [if_pos within]
        split at before <;> omega
      · have nothing := ended within
        rw [if_neg (by simp [Call.guesses, within])] at before
        rw [if_neg within]
        omega
    · rw [live_other _ same]
      rw [if_neg (by simp [Call.guesses, Ne.symm same])] at before
      exact before
  guarded := counted.guarded

theorem confirmed_right {call : Call} {answers : Answers} (honest : answers.honest call.correct = true)
    (verified : verifyCurrentPassword call.socket answers = some true) : call.correct = true := by
  unfold verifyCurrentPassword at verified
  unfold Answers.honest at honest
  cases right : call.correct with
  | true => rfl
  | false =>
      simp only [right, Bool.false_or, Bool.and_eq_true, bne_iff_ne] at honest
      split at verified
      · cases verified
      · exact absurd verified honest.1
      · split at verified
        · exact absurd verified honest.2
        · cases verified

theorem Counted.answer (counted : Counted state) {call : Call} {answers : Answers}
    (member : call ∈ state.verifying) (honest : answers.honest call.correct = true)
    (accounted : Accounted state (.answer call answers)) :
    Counted (answer state call (verifyCurrentPassword call.socket answers)).2 := by
  simp only [Accounted] at accounted
  cases verified : verifyCurrentPassword call.socket answers with
  | none =>
      rw [verified] at accounted
      exact counted.leave member accounted
  | some ok =>
      cases ok with
      | false =>
          rw [verified] at accounted
          exact counted.fail member accounted
      | true =>
          have right : call.correct = true := confirmed_right honest verified
          exact (counted.leave member right).forget (.confirmed call.key state.clock)
            (by simp [Note.forgets]) (fun other same => (beq_iff_eq.mp same).symm) (fun _ => rfl)

theorem step_counted (state : State) (event : Event) (counted : Counted state)
    (accounted : Accounted state event) : Counted (step state event) := by
  cases event with
  | wait ms => exact counted.wait ms
  | offer socket currentPassword =>
      simp only [step]
      split
      · exact counted
      · rename_i after passed
        exact counted.offer accounted passed
  | answer call answers =>
      simp only [step]
      split
      · rename_i happens
        exact counted.answer happens.1 happens.2 accounted
      · exact counted
  | drop socket identity =>
      simp only [step]
      split
      · exact counted
      · exact counted.forget (.cleared (passwordAttemptKey socket) state.clock)
          (by simp [Note.forgets]) (fun other same => (beq_iff_eq.mp same).symm) (fun _ => rfl)

/-- As long as the counter is right about every step, guessing is bounded. -/
theorem guessing_bounded (history : List Event) (accounted : Data.Along step Accounted .start history) :
    Bounded (reached history).log :=
  (accounted.invariant counted_start step_counted).guarded.bounded

/-- One socket of a user. -/
def client : Socket := { id := "a", userID := some "u" }

/-- The auth library knows the session and refuses the password. -/
def refused : Answers := { session := some true, response := some false, account := none }

/-- Six guesses before the first answer. -/
theorem burst_unbounded :
    ¬Bounded (reached (List.replicate 6 (.offer client (some false)))).log := by
  intro bounded
  have most := bounded "user:u" 0 [] (List.replicate 6 (.handed "user:u" 0 false)) [] (by decide)
    (by decide) (by decide)
  exact absurd most (by decide)

/-- Five guesses one after another, the wait, and the right password. -/
def patient : List Event :=
  let guess : List Event := [.offer client (some false),
    .answer { socket := client, arrived := 0, correct := false } refused]
  guess ++ guess ++ guess ++ guess ++ guess ++ [.wait lockMs, .offer client (some true)]

theorem guessing_bounded_patient : Bounded (reached patient).log :=
  guessing_bounded patient (by decide)

end Dockge.Passwords
