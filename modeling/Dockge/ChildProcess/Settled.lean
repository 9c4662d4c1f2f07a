import Dockge.ChildProcess.Spawn

namespace Dockge.ChildProcess

open Data Command

/-! What holds of a spawned command in whatever order its events come. -/

variable {options : SpawnOptions} {command : Command} {history : List Event} {event : Event}

/-- What arrived on a stream that is captured -/
def arrived (options : SpawnOptions) (stream : Stream) (history : List Event) : Bytes :=
  history.flatMap fun event =>
    match event with
    | .data other chunk => if other = stream ∧ options.captures stream = true then chunk else []
    | _ => []

def total (options : SpawnOptions) (history : List Event) : Nat :=
  (arrived options .stdout history).length + (arrived options .stderr history).length

def Command.captured (command : Command) (stream : Stream) : Bytes := (command.chunks stream).flatten

/-- The promise was settled by an event of this run that was no failure. -/
def Clean (options : SpawnOptions) (history : List Event) : Prop :=
  total options history ≤ options.bufferLimit ∧ (options.timeoutMs.isSome = true → .timeout ∉ history)

structure Sound (options : SpawnOptions) (history : List Event) (command : Command) : Prop where
  size : command.bufferSize = (command.captured .stdout).length + (command.captured .stderr).length
  limit : command.bufferSize ≤ options.bufferLimit
  captured : ∀ stream, command.captured stream <+: arrived options stream history
  /-- Nothing was left out, or the limit was hit. -/
  full : command.settled = false → (∀ stream, command.captured stream = arrived options stream history) ∨
    command.bufferSize = options.bufferLimit ∧ command.error.isSome = true ∧ options.bufferLimit < total options history
  timed : command.settled = false → options.timeoutMs.isSome = true →
    command.timer = true ∧ .timeout ∉ history ∨ command.error.isSome = true
  timer : command.timer = true → options.timeoutMs.isSome = true
  closing : ∀ exit, command.closeTimer = some exit → .exit exit ∈ history
  once : command.settlements.length = if command.settled then 1 else 0
  resolved : ∀ settlement ∈ command.settlements, (.exit settlement.exit ∈ history ∨ .close settlement.exit ∈ history) ∧
    (settlement.rejected = none → settlement.exit = ⟨some 0, none⟩ ∧
      ∃ before after, history = before ++ after ∧ (replay (step options) (start options) before).settled = true ∧ Clean options before)
  signals : command.signals ≠ [] → command.ordered = true
  killTimer : command.killTimer = true → command.ordered = true
  ordered : command.ordered = true → options.timeoutMs.isSome = true ∧ .timeout ∈ history ∨
    options.bufferLimit < total options history

/-! ## Pieces of the step -/

theorem release_eq (options : SpawnOptions) (command : Command) :
    command.release options = { command with killTimer := command.killTimer && command.alive options } := by
  unfold release
  cases pending : command.killTimer with
  | false => rw [Bool.false_and, if_neg (by decide), Bool.false_and, ← pending]
  | true =>
      cases alive : command.alive options with
      | false => rfl
      | true => rw [if_neg (by decide), Bool.true_and, ← pending]

theorem graceEnds_eq (options : SpawnOptions) (command : Command) (pending : command.killTimer = true) :
    command.graceEnds options =
      { command with
        killTimer := false
        signals := command.signals ++
          if command.alive options then [⟨.kill, options.ownGroup && options.started && command.running⟩] else [] } := by
  unfold graceEnds
  rw [if_pos pending]
  have same : Command.alive options { command with killTimer := false } = command.alive options := rfl
  dsimp only
  rw [same]
  cases command.alive options with
  | false => rw [if_neg (by decide), if_neg (by decide), List.append_nil]
  | true => rfl

theorem arrived_append (options : SpawnOptions) (stream : Stream) (history : List Event) (event : Event) :
    arrived options stream (history ++ [event]) = arrived options stream history ++ arrived options stream [event] := by
  rw [arrived, List.flatMap_append]
  rfl

theorem total_append (options : SpawnOptions) (history : List Event) (event : Event) :
    total options (history ++ [event]) = total options history + total options [event] := by
  rw [total, total, total, arrived_append, arrived_append, List.length_append, List.length_append]
  omega

theorem total_le (options : SpawnOptions) (history : List Event) (event : Event) :
    total options history ≤ total options (history ++ [event]) := by
  rw [total_append]
  exact Nat.le_add_right _ _

/-- What is kept of the output is kept while the promise waits, and nothing is added once it is settled. -/
theorem Sound.keep {after : Command} (sound : Sound options history command)
    (chunks : after.chunks = command.chunks) (size : after.bufferSize = command.bufferSize)
    (settled : after.settled = command.settled) (settlements : after.settlements = command.settlements)
    (error : command.error.isSome = true → after.error.isSome = true)
    (quiet : command.settled = false → ∀ stream, arrived options stream [event] = [])
    (timed : command.settled = false → command.timer = true →
      after.timer = true ∧ .timeout ∉ [event] ∨ after.error.isSome = true)
    (timer : after.timer = true → command.timer = true)
    (closing : ∀ exit, after.closeTimer = some exit → command.closeTimer = some exit ∨ event = .exit exit)
    (signals : after.signals ≠ [] → after.ordered = true) (killTimer : after.killTimer = true → after.ordered = true)
    (ordered : after.ordered = true → command.ordered = true ∨ options.timeoutMs.isSome = true ∧ event = .timeout) :
    Sound options (history ++ [event]) after := by
  have captured (stream : Stream) : after.captured stream = command.captured stream := by
    rw [Command.captured, chunks, ← Command.captured]
  constructor
  · rw [size, sound.size, captured, captured]
  · exact size ▸ sound.limit
  · intro stream
    rw [captured, arrived_append]
    exact (sound.captured stream).trans (List.prefix_append _ _)
  · intro waits
    rw [settled] at waits
    obtain whole | ⟨limit, failed, beyond⟩ := sound.full waits
    · left
      intro stream
      rw [captured, arrived_append, quiet waits stream, List.append_nil]
      exact whole stream
    · exact .inr ⟨size.trans limit, error failed, Nat.lt_of_lt_of_le beyond (total_le options history event)⟩
  · intro waits given
    rw [settled] at waits
    obtain ⟨runs, before⟩ | failed := sound.timed waits given
    · obtain ⟨still, now⟩ | failed := timed waits runs
      · left
        refine ⟨still, ?_⟩
        rw [List.mem_append, not_or]
        exact ⟨before, now⟩
      · exact .inr failed
    · exact .inr (error failed)
  · exact fun runs => sound.timer (timer runs)
  · intro exit waits
    obtain earlier | now := closing exit waits
    · exact List.mem_append_left _ (sound.closing exit earlier)
    · exact List.mem_append_right _ (now ▸ List.mem_singleton_self _)
  · rw [settlements, settled]
    exact sound.once
  · intro settlement member
    rw [settlements] at member
    obtain ⟨reported, resolved⟩ := sound.resolved settlement member
    constructor
    · exact reported.imp (List.mem_append_left _) (List.mem_append_left _)
    · intro none_
      obtain ⟨exit, before, after, same, rest⟩ := resolved none_
      exact ⟨exit, before, after ++ [event], by rw [same, List.append_assoc], rest⟩
  · exact signals
  · exact killTimer
  · intro stopped
    obtain earlier | ⟨given, now⟩ := ordered stopped
    · obtain ⟨given, before⟩ | beyond := sound.ordered earlier
      · exact .inl ⟨given, List.mem_append_left _ before⟩
      · exact .inr (Nat.lt_of_lt_of_le beyond (total_le options history event))
    · exact .inl ⟨given, List.mem_append_right _ (now ▸ List.mem_singleton_self _)⟩

theorem Sound.pass {after : Command} (sound : Sound options history command)
    (quiet : ∀ stream, arrived options stream [event] = []) (untimed : event ≠ .timeout)
    (same : after.chunks = command.chunks ∧ after.bufferSize = command.bufferSize ∧ after.settled = command.settled ∧
      after.settlements = command.settlements ∧ after.timer = command.timer)
    (error : command.error.isSome = true → after.error.isSome = true)
    (closing : ∀ exit, after.closeTimer = some exit → command.closeTimer = some exit ∨ event = .exit exit)
    (signals : after.signals ≠ [] → after.ordered = true) (killTimer : after.killTimer = true → after.ordered = true)
    (ordered : after.ordered = command.ordered) : Sound options (history ++ [event]) after := by
  obtain ⟨chunks, size, settled, settlements, timer⟩ := same
  apply sound.keep chunks size settled settlements error (fun _ => quiet)
  · intro _ runs
    refine .inl ⟨timer.trans runs, ?_⟩
    intro now
    exact untimed (List.mem_singleton.mp now).symm
  · exact fun runs => timer ▸ runs
  · exact closing
  · exact signals
  · exact killTimer
  · exact fun stopped => .inl (ordered ▸ stopped)

/-! ## Settling -/

theorem settle_eq (options : SpawnOptions) (command : Command) (exit : Exit) (waits : command.settled = false) :
    ∃ rejected, command.settle options exit =
        { command with
          settled := true
          timer := false
          errorListens := false
          killTimer := command.killTimer && command.alive options
          settlements := command.settlements ++ [⟨exit, rejected⟩] } ∧
      (rejected = none → command.error = none ∧ exit = ⟨some 0, none⟩) := by
  unfold settle
  rw [if_neg (by rw [waits]; decide), release_eq]
  refine ⟨_, rfl, ?_⟩
  intro none_
  split at none_
  next failed =>
    rw [Option.isSome_iff_exists] at failed
    obtain ⟨reason, found⟩ := failed
    rw [found] at none_
    cases none_
  next unfailed =>
    split at none_
    next => cases none_
    next unsignalled =>
      split at none_
      next => cases none_
      next zero =>
        rw [Option.not_isSome_iff_eq_none] at unfailed unsignalled
        refine ⟨unfailed, ?_⟩
        obtain ⟨code, signal⟩ := exit
        dsimp only at zero unsignalled
        rw [not_not] at zero
        rw [zero, unsignalled]

theorem Sound.settle (sound : Sound options history command) (exit : Exit)
    (here : replay (step options) (start options) (history ++ [event]) = command.settle options exit)
    (quiet : ∀ stream, arrived options stream [event] = []) (untimed : .timeout ∉ [event])
    (reported : .exit exit ∈ history ++ [event] ∨ .close exit ∈ history ++ [event]) :
    Sound options (history ++ [event]) (command.settle options exit) := by
  cases waits : command.settled with
  | true =>
      have same : command.settle options exit = command := by rw [Command.settle, if_pos waits]
      rw [same]
      apply sound.keep rfl rfl rfl rfl id
      · exact fun _ => quiet
      · exact fun _ runs => .inl ⟨runs, untimed⟩
      · exact id
      · exact fun _ found => .inl found
      · exact sound.signals
      · exact sound.killTimer
      · exact .inl
  | false =>
      obtain ⟨rejected, same, resolved⟩ := settle_eq options command exit waits
      have none_ : command.settlements = [] := by
        have once := sound.once
        rw [waits] at once
        exact List.length_eq_zero_iff.mp once
      have all : total options (history ++ [event]) = total options history := by
        rw [total_append, total, total, quiet, quiet]
        rfl
      rw [same] at here ⊢
      constructor
      · exact sound.size
      · exact sound.limit
      · intro stream
        rw [arrived_append]
        exact (sound.captured stream).trans (List.prefix_append _ _)
      · intro waits_
        cases waits_
      · intro waits_
        cases waits_
      · intro runs
        cases runs
      · intro exit waits
        exact List.mem_append_left _ (sound.closing exit waits)
      · dsimp only
        rw [none_]
        rfl
      · intro settlement member
        dsimp only at member
        rw [none_, List.nil_append, List.mem_singleton] at member
        subst member
        refine ⟨reported, ?_⟩
        intro clean
        obtain ⟨unfailed, zero⟩ := resolved clean
        refine ⟨zero, history ++ [event], [], by rw [List.append_nil], by rw [here], ?_, ?_⟩
        · obtain whole | ⟨-, failed, -⟩ := sound.full waits
          · rw [all, total, ← whole, ← whole, ← sound.size]
            exact sound.limit
          · rw [unfailed] at failed
            cases failed
        · intro given
          obtain ⟨-, before⟩ | failed := sound.timed waits given
          · rw [List.mem_append, not_or]
            exact ⟨before, untimed⟩
          · rw [unfailed] at failed
            cases failed
      · exact sound.signals
      · intro pending
        rw [Bool.and_eq_true] at pending
        exact sound.killTimer pending.1
      · intro stopped
        obtain ⟨given, before⟩ | beyond := sound.ordered stopped
        · exact .inl ⟨given, List.mem_append_left _ before⟩
        · exact .inr (Nat.lt_of_lt_of_le beyond (total_le options history event))

/-! ## Output -/

theorem captures_other (options : SpawnOptions) (stream other : Stream) (chunk : Bytes)
    (captures : options.captures stream = true) :
    arrived options other [.data stream chunk] = if stream = other then chunk else [] := by
  rw [arrived, List.flatMap_cons, List.flatMap_nil, List.append_nil]
  dsimp only
  by_cases same : stream = other
  · subst same
    rw [if_pos ⟨rfl, captures⟩, if_pos rfl]
  · rw [if_neg (fun both => same both.1), if_neg same]

theorem total_data (options : SpawnOptions) (stream : Stream) (chunk : Bytes)
    (captures : options.captures stream = true) : total options [.data stream chunk] = chunk.length := by
  rw [total, captures_other options stream .stdout chunk captures, captures_other options stream .stderr chunk captures]
  cases stream with
  | stdout => rfl
  | stderr => exact Nat.zero_add _

theorem push_captured (command : Command) (stream other : Stream) (chunk : Bytes) :
    (command.push stream chunk).captured other =
      command.captured other ++ if stream = other then chunk else [] := by
  unfold Command.captured push
  dsimp only
  by_cases same : stream = other
  · subst same
    rw [if_pos rfl, if_pos rfl, List.flatten_append, List.flatten_singleton]
  · rw [if_neg (fun equal => same equal.symm), if_neg same, List.append_nil]

/-- A chunk of which as much is kept as there is room for -/
theorem Sound.store {after : Command} {stream : Stream} {chunk : Bytes} (sound : Sound options history command) (kept : Bytes)
    (captures : options.captures stream = true) (waits : command.settled = false)
    (part : kept <+: chunk) (room : command.bufferSize + kept.length ≤ options.bufferLimit)
    (captured : ∀ other, after.captured other = command.captured other ++ if stream = other then kept else [])
    (size : after.bufferSize = command.bufferSize + kept.length)
    (settled : after.settled = command.settled) (settlements : after.settlements = command.settlements)
    (timer : after.timer = command.timer) (closing : after.closeTimer = command.closeTimer)
    (error : command.error.isSome = true → after.error.isSome = true)
    (whole : kept = chunk ∨ command.bufferSize + kept.length = options.bufferLimit ∧ after.error.isSome = true ∧
      kept.length < chunk.length)
    (signals : after.signals ≠ [] → after.ordered = true) (killTimer : after.killTimer = true → after.ordered = true)
    (ordered : after.ordered = true → command.ordered = true ∨
      command.bufferSize + kept.length = options.bufferLimit ∧ kept.length < chunk.length) :
    Sound options (history ++ [.data stream chunk]) after := by
  have more : total options (history ++ [.data stream chunk]) = total options history + chunk.length := by
    rw [total_append, total_data options stream chunk captures]
  have fits : command.bufferSize ≤ total options history := by
    rw [sound.size, total]
    exact Nat.add_le_add (sound.captured .stdout).length_le (sound.captured .stderr).length_le
  have sum : after.bufferSize = (after.captured .stdout).length + (after.captured .stderr).length := by
    rw [size, captured, captured, sound.size, List.length_append, List.length_append]
    cases stream with
    | stdout =>
        rw [if_pos rfl, if_neg (by decide), List.length_nil]
        omega
    | stderr =>
        rw [if_neg (by decide), if_pos rfl, List.length_nil]
        omega
  constructor
  · exact sum
  · exact size ▸ room
  · intro other
    rw [captured, arrived_append, captures_other options stream other chunk captures]
    obtain same | ⟨limit, -, -⟩ := sound.full waits
    · rw [same other, List.prefix_append_right_inj]
      split
      · exact part
      · exact List.nil_prefix
    · have none_ : kept = [] := List.length_eq_zero_iff.mp (by omega)
      rw [none_, ite_self, List.append_nil]
      exact (sound.captured other).trans (List.prefix_append _ _)
  · intro _
    obtain same | ⟨limit, failed, beyond⟩ := sound.full waits
    · obtain all | ⟨limit, failed, cut⟩ := whole
      · left
        intro other
        rw [captured, arrived_append, captures_other options stream other chunk captures, same other, all]
      · exact .inr ⟨size.trans limit, failed, by omega⟩
    · exact .inr ⟨by omega, error failed, by omega⟩
  · intro waiting given
    rw [settled] at waiting
    obtain ⟨runs, before⟩ | failed := sound.timed waiting given
    · left
      refine ⟨timer.trans runs, ?_⟩
      rw [List.mem_append, not_or]
      refine ⟨before, ?_⟩
      intro same
      cases List.mem_singleton.mp same
    · exact .inr (error failed)
  · exact fun runs => sound.timer (timer ▸ runs)
  · intro exit waiting
    rw [closing] at waiting
    exact List.mem_append_left _ (sound.closing exit waiting)
  · rw [settlements, settled]
    exact sound.once
  · intro settlement member
    have once := sound.once
    rw [waits] at once
    rw [settlements, List.length_eq_zero_iff.mp once] at member
    cases member
  · exact signals
  · exact killTimer
  · intro stopped
    obtain earlier | ⟨limit, cut⟩ := ordered stopped
    · obtain ⟨given, before⟩ | beyond := sound.ordered earlier
      · exact .inl ⟨given, List.mem_append_left _ before⟩
      · exact .inr (by omega)
    · exact .inr (by omega)

theorem Sound.capture {stream : Stream} {chunk : Bytes} (sound : Sound options history command)
    (captures : options.captures stream = true) (waits : command.settled = false) :
    Sound options (history ++ [.data stream chunk]) (command.capture options stream chunk) := by
  have limit := sound.limit
  unfold Command.capture
  dsimp only
  split
  next beyond =>
    have short : (chunk.take (options.bufferLimit - command.bufferSize)).length =
        options.bufferLimit - command.bufferSize := by
      rw [List.length_take]
      omega
    apply sound.store (chunk.take (options.bufferLimit - command.bufferSize)) captures waits
    · exact List.take_prefix _ _
    · omega
    · intro other
      split
      next => exact push_captured command stream other _
      next none_ =>
        have zero : options.bufferLimit - command.bufferSize = 0 := by omega
        rw [zero, List.take_zero, ite_self, List.append_nil]
        rfl
    · split
      next => rfl
      next none_ =>
        rw [short]
        change command.bufferSize = _
        omega
    · split <;> rfl
    · split <;> rfl
    · split <;> rfl
    · split <;> rfl
    · intro failed
      have set : (command.error.or (some .maxBuffer)).isSome = true := by rw [Option.isSome_or, failed, Bool.true_or]
      split <;> exact set
    · right
      refine ⟨by omega, ?_, by omega⟩
      have set : (command.error.or (some .maxBuffer)).isSome = true := by
        rw [Option.isSome_or, Option.isSome_some, Bool.or_true]
      split <;> exact set
    · intro _
      rfl
    · intro _
      rfl
    · intro _
      exact .inr ⟨by omega, by omega⟩
  next fits =>
    apply sound.store chunk captures waits (List.prefix_refl _)
    · omega
    · exact fun other => push_captured command stream other chunk
    · rfl
    · rfl
    · rfl
    · rfl
    · rfl
    · exact id
    · exact .inl rfl
    · exact sound.signals
    · exact sound.killTimer
    · exact .inl

/-! ## Runs -/

theorem sound_start (options : SpawnOptions) : Sound options [] (start options) := by
  constructor
  · rfl
  · exact Nat.zero_le _
  · exact fun _ => List.prefix_refl _
  · exact fun _ => .inl fun _ => rfl
  · exact fun _ given => .inl ⟨given, List.not_mem_nil⟩
  · exact id
  · intro exit waits
    cases waits
  · rfl
  · intro settlement member
    cases member
  · intro sent
    exact absurd rfl sent
  · intro pending
    cases pending
  · intro stopped
    cases stopped

theorem sound_step (options : SpawnOptions) (history : List Event) (event : Event)
    (sound : Sound options history (replay (step options) (start options) history)) :
    Sound options (history ++ [event]) (step options (replay (step options) (start options) history) event) := by
  have here : replay (step options) (start options) (history ++ [event]) =
      step options (replay (step options) (start options) history) event := by
    rw [replay_append, replay_cons, replay_nil]
  generalize found : replay (step options) (start options) history = command at sound here ⊢
  -- An event that leaves everything alone
  have same (quiet : command.settled = false → ∀ stream, arrived options stream [event] = [])
      (untimed : command.timer = true → .timeout ∉ [event]) : Sound options (history ++ [event]) command := by
    apply sound.keep rfl rfl rfl rfl id quiet
    · exact fun _ runs => .inl ⟨runs, untimed runs⟩
    · exact id
    · exact fun _ waits => .inl waits
    · exact sound.signals
    · exact sound.killTimer
    · exact .inl
  cases event with
  | data stream chunk =>
      rw [step]
      split
      next takes =>
        rw [Bool.and_eq_true, Bool.not_eq_true'] at takes
        exact sound.capture takes.1 takes.2
      next leaves =>
        refine same ?_ ?_
        · intro waits other
          rw [Bool.and_eq_true, Bool.not_eq_true'] at leaves
          rw [arrived, List.flatMap_cons, List.flatMap_nil, List.append_nil]
          apply if_neg
          intro both
          exact leaves ⟨both.1 ▸ both.2, waits⟩
        · intro _ found
          cases List.mem_singleton.mp found
  | error =>
      rw [step]
      split
      next =>
        refine sound.pass (fun _ => rfl) ?_ ⟨rfl, rfl, rfl, rfl, rfl⟩ ?_ ?_ sound.signals sound.killTimer rfl
        · intro equal
          cases equal
        · intro failed
          rw [Option.isSome_or, failed, Bool.true_or]
        · exact fun _ waits => .inl waits
      next =>
        apply same (fun _ _ => rfl)
        intro _ found
        cases List.mem_singleton.mp found
  | exit exit =>
      refine sound.pass (fun _ => rfl) ?_ ?_ ?_ ?_ ?_ ?_ ?_
      · intro equal
        cases equal
      · rw [step, onExit]
        split <;> exact ⟨rfl, rfl, rfl, rfl, rfl⟩
      · intro failed
        rw [step, onExit]
        split <;> exact failed
      · intro other waits
        rw [step, onExit] at waits
        split at waits
        next => exact .inl waits
        next => exact .inr (by rw [Option.some.inj waits])
      · rw [step, onExit]
        split <;> exact sound.signals
      · rw [step, onExit]
        split <;> exact sound.killTimer
      · rw [step, onExit]
        split <;> rfl
  | close exit =>
      apply sound.settle exit here
      · exact fun _ => rfl
      · intro found
        cases List.mem_singleton.mp found
      · exact .inr (List.mem_append_right _ (List.mem_singleton_self _))
  | timeout =>
      rw [step]
      split
      next runs =>
        refine sound.keep rfl rfl rfl rfl ?_ (fun _ _ => rfl) ?_ (fun _ => runs) (fun _ waits => .inl waits)
          (fun _ => rfl) (fun _ => rfl) (fun _ => .inr ⟨sound.timer runs, rfl⟩)
        · intro failed
          exact Option.isSome_or.trans (by rw [failed, Bool.true_or])
        · intro _ _
          exact .inr (Option.isSome_or.trans (by rw [Option.isSome_some, Bool.or_true]))
      next stands => exact same (fun _ _ => rfl) (fun runs => absurd runs stands)
  | closeTimeout =>
      rw [step] at here ⊢
      cases waits : command.closeTimer with
      | none =>
          apply same (fun _ _ => rfl)
          intro _ found
          cases List.mem_singleton.mp found
      | some exit =>
          rw [waits] at here
          apply sound.settle exit here
          · exact fun _ => rfl
          · intro found
            cases List.mem_singleton.mp found
          · exact .inl (List.mem_append_left _ (sound.closing exit waits))
  | graceEnds =>
      rw [step]
      cases pending : command.killTimer with
      | false =>
          rw [Command.graceEnds, if_neg (by rw [pending]; decide)]
          apply same (fun _ _ => rfl)
          intro _ found
          cases List.mem_singleton.mp found
      | true =>
          rw [graceEnds_eq options command pending]
          refine sound.pass (fun _ => rfl) ?_ ⟨rfl, rfl, rfl, rfl, rfl⟩ id (fun _ waits => .inl waits)
            (fun _ => sound.killTimer pending) ?_ rfl
          · intro equal
            cases equal
          · intro never
            cases never
  | processes running =>
      refine sound.pass (fun _ => rfl) ?_ ⟨rfl, rfl, rfl, rfl, rfl⟩ id (fun _ waits => .inl waits)
        sound.signals sound.killTimer rfl
      intro equal
      cases equal

theorem sound (options : SpawnOptions) (history : List Event) :
    Sound options history (replay (step options) (start options) history) :=
  replay_induction (sound_start options)
    (fun past event held => sound_step options past event held) history

/-! ## The answer comes -/

theorem settle_settled (options : SpawnOptions) (command : Command) (exit : Exit) :
    (command.settle options exit).settled = true := by
  cases waits : command.settled with
  | true => rw [Command.settle, if_pos waits, waits]
  | false =>
      obtain ⟨rejected, same, -⟩ := settle_eq options command exit waits
      rw [same]

theorem capture_settled (options : SpawnOptions) (command : Command) (stream : Stream) (chunk : Bytes) :
    (command.capture options stream chunk).settled = command.settled ∧
      (command.capture options stream chunk).closeTimer = command.closeTimer := by
  unfold Command.capture
  dsimp only
  split
  next => split <;> exact ⟨rfl, rfl⟩
  next => exact ⟨rfl, rfl⟩

/-- An answered caller stays answered, and who waits for the streams goes on waiting. -/
theorem step_answered (options : SpawnOptions) (command : Command) (event : Event) :
    (command.settled = true → (step options command event).settled = true) ∧
      (command.settled = true ∨ command.closeTimer.isSome = true →
        (step options command event).settled = true ∨ (step options command event).closeTimer.isSome = true) := by
  have keeps {after : Command} (settled : after.settled = command.settled)
      (closing : command.closeTimer.isSome = true → after.closeTimer.isSome = true) :
      (command.settled = true → after.settled = true) ∧
        (command.settled = true ∨ command.closeTimer.isSome = true →
          after.settled = true ∨ after.closeTimer.isSome = true) :=
    ⟨fun ends => settled.trans ends, fun waits => waits.imp settled.trans closing⟩
  have ends {after : Command} (settled : after.settled = true) :
      (command.settled = true → after.settled = true) ∧
        (command.settled = true ∨ command.closeTimer.isSome = true →
          after.settled = true ∨ after.closeTimer.isSome = true) :=
    ⟨fun _ => settled, fun _ => .inl settled⟩
  cases event with
  | data stream chunk =>
      rw [step]
      obtain ⟨settled, closing⟩ := capture_settled options command stream chunk
      split
      next => exact keeps settled fun waits => closing ▸ waits
      next => exact keeps rfl id
  | error =>
      rw [step]
      split <;> exact keeps rfl id
  | exit exit =>
      rw [step, onExit]
      split
      next => exact keeps rfl id
      next => exact keeps rfl fun _ => rfl
  | close exit => exact ends (settle_settled options command exit)
  | timeout =>
      rw [step]
      split <;> exact keeps rfl id
  | closeTimeout =>
      rw [step]
      split
      next exit waits => exact ends (settle_settled options command exit)
      next => exact keeps rfl id
  | graceEnds =>
      rw [step, Command.graceEnds]
      split
      next =>
        dsimp only
        split <;> exact keeps rfl id
      next => exact keeps rfl id
  | processes running => exact keeps rfl id

theorem replay_answered (options : SpawnOptions) (command : Command) (history : List Event) :
    (command.settled = true → (replay (step options) command history).settled = true) ∧
      (command.settled = true ∨ command.closeTimer.isSome = true →
        (replay (step options) command history).settled = true ∨
          (replay (step options) command history).closeTimer.isSome = true) := by
  induction history generalizing command with
  | nil => exact ⟨id, id⟩
  | cons event rest ih =>
      obtain ⟨settled, waits⟩ := step_answered options command event
      exact ⟨fun ends => (ih _).1 (settled ends), fun closing => (ih _).2 (waits closing)⟩

/-- The streams were closed, or the command was gone and the wait for them ended. -/
def Reported (history : List Event) : Prop :=
  (∃ exit, .close exit ∈ history) ∨
    ∃ before after exit, history = before ++ .closeTimeout :: after ∧ .exit exit ∈ before

theorem settled_of_reported (options : SpawnOptions) (history : List Event) (reported : Reported history) :
    (replay (step options) (start options) history).settled = true := by
  obtain ⟨exit, closed⟩ | ⟨before, after, exit, rfl, gone⟩ := reported
  · obtain ⟨before, after, rfl⟩ := List.append_of_mem closed
    rw [replay_append, replay_cons]
    exact (replay_answered options _ after).1 (settle_settled options _ exit)
  · rw [replay_append, replay_cons]
    apply (replay_answered options _ after).1
    obtain ⟨early, late, rfl⟩ := List.append_of_mem gone
    rw [replay_append, replay_cons]
    generalize replay (step options) (start options) early = command
    have waits : (step options command (.exit exit)).settled = true ∨
        (step options command (.exit exit)).closeTimer.isSome = true := by
      rw [step, onExit]
      split
      next waits =>
        rw [Bool.or_eq_true] at waits
        exact waits.symm
      next => exact .inr rfl
    obtain settled | closing := (replay_answered options _ late).2 waits
    · exact (step_answered options _ .closeTimeout).1 settled
    · generalize replay (step options) (step options command (.exit exit)) late = waiting at closing ⊢
      obtain ⟨last, found⟩ := Option.isSome_iff_exists.mp closing
      rw [step, found]
      exact settle_settled options _ last

/-! ## The kill that is owed -/

/-- The event made the stop be ordered, or ordered again. -/
def StopSent (command after : Command) : Prop := ∃ group, after.signals = command.signals ++ [⟨.stop, group⟩]

theorem not_stopSent (command : Command) : ¬StopSent command command := by
  intro ⟨group, same⟩
  have length := congrArg List.length same
  rw [List.length_append, List.length_singleton] at length
  omega

theorem settle_killTimer (options : SpawnOptions) (command : Command) (exit : Exit) :
    (command.settle options exit).signals = command.signals ∧
      (command.killTimer = true → (command.settle options exit).killTimer = false → command.alive options = false) := by
  cases waits : command.settled with
  | true =>
      rw [Command.settle, if_pos waits]
      refine ⟨rfl, ?_⟩
      intro pending cleared
      rw [pending] at cleared
      cases cleared
  | false =>
      obtain ⟨rejected, same, -⟩ := settle_eq options command exit waits
      rw [same]
      refine ⟨rfl, ?_⟩
      intro pending cleared
      rw [pending, Bool.true_and] at cleared
      exact cleared

/-- A stop leaves the kill pending, and what is pending is dropped for nothing but a group that is gone. -/
theorem step_owed (options : SpawnOptions) (command : Command) (event : Event) :
    (StopSent command (step options command event) → (step options command event).killTimer = true) ∧
      (command.killTimer = true → (step options command event).killTimer = false →
        event = .graceEnds ∨ command.alive options = false) := by
  have keeps {after : Command} (signals : after.signals = command.signals)
      (killTimer : after.killTimer = command.killTimer) :
      (StopSent command after → after.killTimer = true) ∧ (command.killTimer = true → after.killTimer = false →
        event = .graceEnds ∨ command.alive options = false) := by
    constructor
    · intro ⟨group, same⟩
      exact absurd ⟨group, signals ▸ same⟩ (not_stopSent command)
    · intro pending cleared
      rw [killTimer, pending] at cleared
      cases cleared
  have stops {after : Command} (killTimer : after.killTimer = true) :
      (StopSent command after → after.killTimer = true) ∧ (command.killTimer = true → after.killTimer = false →
        event = .graceEnds ∨ command.alive options = false) := by
    refine ⟨fun _ => killTimer, ?_⟩
    intro _ cleared
    rw [killTimer] at cleared
    cases cleared
  have settles (exit : Exit) : (StopSent command (command.settle options exit) →
        (command.settle options exit).killTimer = true) ∧ (command.killTimer = true →
          (command.settle options exit).killTimer = false → event = .graceEnds ∨ command.alive options = false) := by
    obtain ⟨signals, gone⟩ := settle_killTimer options command exit
    constructor
    · intro ⟨group, same⟩
      exact absurd ⟨group, signals ▸ same⟩ (not_stopSent command)
    · exact fun pending cleared => .inr (gone pending cleared)
  cases event with
  | data stream chunk =>
      rw [step]
      split
      next =>
        rw [Command.capture]
        dsimp only
        split
        next => exact stops rfl
        next => exact keeps rfl rfl
      next => exact keeps rfl rfl
  | error =>
      rw [step]
      split <;> exact keeps rfl rfl
  | exit exit =>
      rw [step, onExit]
      split <;> exact keeps rfl rfl
  | close exit => exact settles exit
  | timeout =>
      rw [step]
      split
      next => exact stops rfl
      next => exact keeps rfl rfl
  | closeTimeout =>
      rw [step]
      split
      next exit waits => exact settles exit
      next => exact keeps rfl rfl
  | graceEnds =>
      refine ⟨?_, fun _ _ => .inl rfl⟩
      intro ⟨group, same⟩
      rw [step] at same
      cases pending : command.killTimer with
      | false =>
          rw [Command.graceEnds, if_neg (by rw [pending]; decide)] at same
          exact absurd ⟨group, same⟩ (not_stopSent command)
      | true =>
          rw [graceEnds_eq options command pending] at same
          dsimp only at same
          have sent := List.append_cancel_left same
          split at sent
          next => cases (List.cons.inj sent).1
          next => cases sent
  | processes running => exact keeps rfl rfl

theorem pending_kept (options : SpawnOptions) (command : Command) (history : List Event)
    (pending : command.killTimer = true) (early : .graceEnds ∉ history)
    (alive : ∀ part rest, history = part ++ rest → (replay (step options) command part).alive options = true) :
    (replay (step options) command history).killTimer = true := by
  induction history generalizing command with
  | nil => exact pending
  | cons event rest ih =>
      rw [List.mem_cons, not_or] at early
      apply ih
      · cases left : (step options command event).killTimer with
        | true => rfl
        | false =>
            obtain ends | gone := (step_owed options command event).2 pending left
            · exact absurd ends.symm early.1
            · have lives := alive [] (event :: rest) rfl
              rw [replay_nil, gone] at lives
              cases lives
      · exact early.2
      · intro part last same
        exact alive (event :: part) last (by rw [same]; rfl)

/-- From a stop on, a group that is alive when the grace period ends is killed. -/
theorem kill_owed (options : SpawnOptions) (before middle : List Event) (event : Event)
    (sent : StopSent (replay (step options) (start options) before)
      (replay (step options) (start options) (before ++ [event])))
    (early : .graceEnds ∉ middle)
    (alive : ∀ part rest, middle = part ++ rest →
      (replay (step options) (start options) (before ++ event :: part)).alive options = true) :
    ∃ group, (replay (step options) (start options) (before ++ event :: middle ++ [.graceEnds])).signals =
      (replay (step options) (start options) (before ++ event :: middle)).signals ++ [⟨.kill, group⟩] := by
  have split (part : List Event) : replay (step options) (start options) (before ++ event :: part) =
      replay (step options) (replay (step options) (start options) (before ++ [event])) part := by
    rw [← replay_append, List.append_assoc, List.singleton_append]
  have one : replay (step options) (start options) (before ++ [event]) =
      step options (replay (step options) (start options) before) event := by
    rw [replay_append, replay_cons, replay_nil]
  have pending : (replay (step options) (start options) (before ++ event :: middle)).killTimer = true := by
    rw [split]
    apply pending_kept
    · rw [one] at sent ⊢
      exact (step_owed options _ event).1 sent
    · exact early
    · intro part rest same
      rw [← split]
      exact alive part rest same
  have lives := alive middle [] (List.append_nil middle).symm
  rw [replay_append, replay_cons, replay_nil, step, graceEnds_eq options _ pending, lives, if_pos rfl]
  exact ⟨_, rfl⟩

/-- A spawned command settles once and is stopped only on order. -/
theorem settled_once_and_stopped_on_order (options : SpawnOptions) (history : List Event) :
    let command := replay (step options) (start options) history
    (command.settlements.length ≤ 1 ∧ (Reported history → command.settlements.length = 1)) ∧
      (∀ settlement ∈ command.settlements,
        (.exit settlement.exit ∈ history ∨ .close settlement.exit ∈ history) ∧
          (settlement.rejected = none → settlement.exit = ⟨some 0, none⟩ ∧
            ∃ before after, history = before ++ after ∧
              (replay (step options) (start options) before).settled = true ∧ Clean options before)) ∧
      ((command.captured .stdout).length + (command.captured .stderr).length ≤ options.bufferLimit ∧
        ∀ stream, command.captured stream <+: arrived options stream history) ∧
      (command.signals ≠ [] → command.ordered = true) ∧
      (command.ordered = true → options.timeoutMs.isSome = true ∧ .timeout ∈ history ∨
        options.bufferLimit < total options history) ∧
      (∀ before event after, history = before ++ event :: after →
        (replay (step options) (start options) before).killTimer = true →
        (replay (step options) (start options) (before ++ [event])).killTimer = false →
        event = .graceEnds ∨ (replay (step options) (start options) before).alive options = false) ∧
      ∀ before event middle after, history = before ++ event :: middle ++ .graceEnds :: after →
        StopSent (replay (step options) (start options) before)
          (replay (step options) (start options) (before ++ [event])) →
        .graceEnds ∉ middle →
        (∀ part rest, middle = part ++ rest →
          (replay (step options) (start options) (before ++ event :: part)).alive options = true) →
        ∃ group, (replay (step options) (start options) (before ++ event :: middle ++ [.graceEnds])).signals =
          (replay (step options) (start options) (before ++ event :: middle)).signals ++ [⟨.kill, group⟩] := by
  intro command
  have held := sound options history
  refine ⟨⟨?_, ?_⟩, held.resolved, ⟨?_, held.captured⟩, held.signals, held.ordered, ?_, ?_⟩
  · rw [held.once]
    split <;> omega
  · intro reported
    rw [held.once, settled_of_reported options history reported, if_pos rfl]
  · rw [← held.size]
    exact held.limit
  · intro before event after _ pending cleared
    rw [replay_append, replay_cons, replay_nil] at cleared
    exact (step_owed options _ event).2 pending cleared
  · intro before event middle after _ sent early alive
    exact kill_owed options before middle event sent early alive

end Dockge.ChildProcess
