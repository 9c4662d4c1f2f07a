import Dockge.Terminals.Sound

namespace Dockge.Terminals

open Data

variable {registry : Registry} {id other : Nat} {terminal : Terminal}

/-! Where nobody takes an entry that is held, and nothing is started again -/

/-- A terminal that nobody asked to end has its entry until it exits. -/
structure Owning (registry : Registry) : Prop where
  listed : ∀ (id : Nat) (terminal : Terminal), registry.terminals[id]? = some terminal →
    terminal.ending = false → terminal.killed = false → terminal.exited = false →
    registry.terminalMap terminal.key = some id
  alive : ∀ (id : Nat) (terminal : Terminal), registry.terminals[id]? = some terminal →
    terminal.running = true → terminal.exited = false
  entered : ∀ (key : String) (id : Nat) (terminal : Terminal), registry.terminalMap key = some id →
    registry.terminals[id]? = some terminal → terminal.exited = false

theorem Registry.forgetSelf_gone (sound : Sound registry) (key : String) :
    (registry.forgetSelf id).terminalMap key ≠ some id := by
  intro entry
  obtain ⟨terminal, found, rfl⟩ := sound.filed key id (Registry.forgetSelf_within entry)
  simp only [Registry.forgetSelf, found] at entry
  split at entry
  · simp at entry
  next elsewhere => exact elsewhere entry

namespace Owning

open Registry

theorem change (owning : Owning registry) {update : Terminal → Terminal}
    (later : ∀ terminal, Later terminal (update terminal))
    (alive : ∀ terminal, registry.terminals[id]? = some terminal → (update terminal).running = true →
      (update terminal).exited = false)
    (kept : ∀ terminal, (update terminal).exited = terminal.exited) : Owning (registry.change id update) where
  listed holder terminal found stays spared open_ := by
    obtain ⟨rfl, before, held, rfl⟩ | ⟨-, held⟩ := change_cases found
    · have ending := mt (later before).ending (by rw [stays]; nofun)
      have killed := mt (later before).killed (by rw [spared]; nofun)
      rw [(later before).key]
      exact owning.listed holder before held (Bool.eq_false_iff.mpr ending) (Bool.eq_false_iff.mpr killed)
        ((kept before).symm.trans open_)
    · exact owning.listed holder terminal held stays spared open_
  alive holder terminal found running := by
    obtain ⟨rfl, before, held, rfl⟩ | ⟨-, held⟩ := change_cases found
    · exact alive before held running
    · exact owning.alive holder terminal held running
  entered key holder terminal entry found := by
    obtain ⟨rfl, before, held, rfl⟩ | ⟨-, held⟩ := change_cases found
    · exact (kept before).trans (owning.entered key holder before entry held)
    · exact owning.entered key holder terminal entry held

/-- The entry of a terminal that ends may go. -/
theorem forgetSelf (owning : Owning registry)
    (ends : ∀ terminal, registry.terminals[id]? = some terminal →
      terminal.ending = true ∨ terminal.killed = true) : Owning (registry.forgetSelf id) where
  listed holder terminal found stays spared open_ := by
    rw [forgetSelf_terminals] at found
    refine forgetSelf_keeps (owning.listed holder terminal found stays spared open_) fun same => ?_
    subst same
    obtain ending | killed := ends terminal found
    · rw [ending] at stays
      cases stays
    · rw [killed] at spared
      cases spared
  alive holder terminal found := owning.alive holder terminal (by rwa [forgetSelf_terminals] at found)
  entered key holder terminal entry found :=
    owning.entered key holder terminal (forgetSelf_within entry) (by rwa [forgetSelf_terminals] at found)

theorem exit (owning : Owning registry) (sound : Sound registry) (exitCode : Int) (signal : Bool) :
    Owning (registry.exit id exitCode signal) where
  listed holder terminal found stays spared open_ := by
    rw [Registry.exit, forgetSelf_terminals] at found
    obtain ⟨-, before, -, rfl⟩ | ⟨differs, held⟩ := change_cases found
    · rw [(afterExit_stops exitCode signal before).2] at open_
      cases open_
    · exact forgetSelf_keeps (owning.listed holder terminal held stays spared open_) differs
  alive holder terminal found running := by
    rw [Registry.exit, forgetSelf_terminals] at found
    obtain ⟨-, before, -, rfl⟩ | ⟨-, held⟩ := change_cases found
    · rw [(afterExit_stops exitCode signal before).1] at running
      cases running
    · exact owning.alive holder terminal held running
  entered key holder terminal entry found := by
    have changed : Sound (registry.change id (.afterExit exitCode signal)) :=
      sound.change (afterExit_later exitCode signal) fun held _ _ running => by
        rw [(afterExit_stops exitCode signal held).1] at running
        cases running
    rw [Registry.exit, forgetSelf_terminals] at found
    rw [Registry.exit] at entry
    obtain ⟨rfl, -⟩ | ⟨-, held⟩ := change_cases found
    · exact absurd entry (forgetSelf_gone changed key)
    · have before := forgetSelf_within entry
      exact owning.entered key holder terminal before held

theorem construct (owning : Owning registry) (terminal : Terminal) (fresh : terminal.running = false)
    (opens : terminal.exited = false) (free : registry.terminalMap terminal.key = none) :
    Owning (registry.construct terminal) where
  listed holder held found stays spared open_ := by
    obtain old | ⟨rfl, rfl⟩ := construct_cases found
    · have entry := owning.listed holder held old stays spared open_
      rw [construct_other, entry]
      intro same
      rw [same, free] at entry
      cases entry
    · exact construct_entry
  alive holder held found running := by
    obtain old | ⟨rfl, rfl⟩ := construct_cases found
    · exact owning.alive holder held old running
    · exact opens
  entered key holder held entry found := by
    obtain old | ⟨rfl, rfl⟩ := construct_cases found
    · by_cases same : key = terminal.key
      · subst same
        rw [construct_entry] at entry
        cases entry
        simp at old
      · rw [construct_other same] at entry
        exact owning.entered key holder held entry old
    · exact opens

theorem start (owning : Owning registry) (sound : Sound registry) (spawned : Bool)
    (opens : spawned = true → ∀ terminal, registry.terminals[id]? = some terminal → terminal.exited = false) :
    Owning (registry.start id spawned) := by
  unfold Registry.start
  split
  · split
    · exact owning
    · split
      next started => exact owning.change withProcess_later (fun held found _ => opens started held found) fun _ => rfl
      · refine (owning.change withoutProcess_later (fun held found running =>
          owning.alive id held found running) fun _ => rfl).exit ?_ 1 false
        exact sound.change withoutProcess_later fun held present command running =>
          sound.locked id held present command running
  · exact owning

theorem kill (owning : Owning registry) : Owning (registry.kill id) := by
  unfold Registry.kill
  split
  · have killed : Owning (registry.change id .afterKill) :=
      owning.change afterKill_later (fun held found running => owning.alive id held found running) fun _ => rfl
    split
    · refine killed.forgetSelf fun held found => .inr ?_
      obtain ⟨-, before, -, rfl⟩ | ⟨differs, -⟩ := change_cases found
      · rfl
      · exact absurd rfl differs
    · exact killed
  · exact owning

theorem beginEnd (owning : Owning registry) : Owning (registry.beginEnd id) := by
  unfold Registry.beginEnd
  split
  · have ending : Owning (registry.change id .toEnd) :=
      owning.change toEnd_later (fun held found running => owning.alive id held found running) fun _ => rfl
    split
    · exact owning
    · split
      · exact ending
      · refine ending.forgetSelf fun held found => .inl ?_
        obtain ⟨-, before, -, rfl⟩ | ⟨differs, -⟩ := change_cases found
        · rfl
        · exact absurd rfl differs
  · exact owning

theorem finishEnd (owning : Owning registry) : Owning (registry.finishEnd id) := by
  unfold Registry.finishEnd
  split
  · split
    · exact owning.kill
    · exact owning
  · exact owning

theorem endWhere (owning : Owning registry) (matches_ : Terminal → Bool) :
    Owning (registry.endWhere matches_) := by
  unfold Registry.endWhere
  generalize registry.matching matches_ = listed
  induction listed generalizing registry with
  | nil => exact owning
  | cons id rest ih => exact ih owning.beginEnd

theorem waiting (owning : Owning registry) {opened : List Nat} {checking : List (String × TerminalOwner)} :
    Owning { registry with opened := opened, checking := checking } :=
  ⟨owning.listed, owning.alive, owning.entered⟩

theorem constructStart (owning : Owning registry) (sound : Sound registry) (terminal : Terminal)
    (fresh : terminal.running = false) (opens : terminal.exited = false)
    (shared : terminal.commandExecution = true → terminal.owner = none)
    (free : registry.terminalMap terminal.key = none) (spawned : Bool) :
    Owning ((registry.construct terminal).start registry.terminals.length spawned) := by
  refine (owning.construct terminal fresh opens free).start (sound.construct fresh shared (.inl free)) spawned ?_
  intro _ held found
  rw [construct_self] at found
  cases found
  exact opens

/-- An entry is started at most again, and it has not exited. -/
theorem startEntry (owning : Owning registry) (sound : Sound registry) {key : String} (spawned : Bool)
    (entry : registry.terminalMap key = some id) : Owning (registry.start id spawned) :=
  owning.start sound spawned fun _ held found => owning.entered key id held entry found

end Owning

/-- The state a step must be taken in for the registry to keep hold of what runs: a shell that was
found is opened while its key is still free, and a console that has exited is not started again. -/
def Undisturbed (registry : Registry) : Event → Prop
  | .shellChecked terminalName owner exists_ _ =>
      exists_ = true → registry.getTerminal terminalName (some owner) = none
  | .startMain id spawned => spawned = true → ∀ terminal ∈ registry.terminals[id]?, terminal.exited = false
  | _ => True

theorem Owning.step (owning : Owning registry) (sound : Sound registry) {event : Event}
    (undisturbed : Undisturbed registry event) : Owning (Terminals.step registry event) := by
  cases event with
  | exec terminalName spawned =>
      simp only [Terminals.step, Registry.exec]
      split
      · exact owning
      next free => exact owning.constructStart sound (.new terminalName none true) rfl rfl (fun _ => rfl) free spawned
  | joinCombinedTerminal terminalName spawned =>
      simp only [Terminals.step, Registry.joinCombinedTerminal, Registry.getOrCreateTerminal]
      split
      next id entry => exact owning.startEntry sound spawned entry
      next free =>
        exact owning.constructStart sound (.new terminalName none false) rfl rfl (fun command => by cases command)
          free spawned
  | joinContainerTerminal terminalName socket spawned =>
      simp only [Terminals.step, Registry.joinContainerTerminal]
      split
      next id entry => exact owning.startEntry sound spawned entry
      · exact owning.waiting
  | shellChecked terminalName owner exists_ spawned =>
      simp only [Terminals.step, Registry.shellChecked]
      split
      · have answered : Owning { registry with checking := registry.checking.erase (terminalName, owner) } :=
          owning.waiting
        split
        next exists_ =>
          exact answered.constructStart (sound.waiting fun _ listed => listed) (.new terminalName (some owner) false)
            rfl rfl (fun command => by cases command) (undisturbed exists_) spawned
        · exact answered
      · exact owning
  | openMain socket enabled =>
      simp only [Terminals.step, Registry.openMain]
      split
      · split
        · exact owning.waiting
        next free =>
          exact (owning.construct (.new Registry.consoleName (some (terminalOwner socket)) false) rfl rfl free).waiting
      · exact owning
  | startMain id spawned =>
      simp only [Terminals.step, Registry.startMain]
      split
      · have going : Owning { registry with opened := registry.opened.erase id } := owning.waiting
        exact going.start (sound.waiting fun _ held => List.mem_of_mem_erase held) spawned
          fun started held found => undisturbed started held found
      · exact owning
  | beginEnd id => exact owning.beginEnd
  | finishEnd id => exact owning.finishEnd
  | kill id => exact owning.kill
  | endWhere matches_ => exact owning.endWhere matches_
  | exits id exitCode signal =>
      simp only [Terminals.step]
      split
      · split
        · exact owning.exit sound exitCode signal
        · exact owning
      · exact owning

theorem Owning.empty : Owning Registry.empty where
  listed _ _ found := by simp [Registry.empty] at found
  alive _ _ found := by simp [Registry.empty] at found
  entered _ _ _ entry := by cases entry

/-- The terminals an exit or a shutdown is about -/
def Event.closed (registry : Registry) : Event → Option (List Nat)
  | .beginEnd id => some [id]
  | .finishEnd id => some [id]
  | .kill id => some [id]
  | .exits id _ _ => some [id]
  | .endWhere matches_ => some (registry.matching matches_)
  | _ => none

namespace Registry

variable {key : String}

theorem exit_keeps {exitCode : Int} {signal : Bool} (entry : registry.terminalMap key = some other)
    (differs : other ≠ id) : (registry.exit id exitCode signal).terminalMap key = some other :=
  forgetSelf_keeps entry differs

theorem kill_keeps (entry : registry.terminalMap key = some other) (differs : other ≠ id) :
    (registry.kill id).terminalMap key = some other := by
  unfold kill
  split
  · split
    · exact forgetSelf_keeps entry differs
    · exact entry
  · exact entry

theorem beginEnd_keeps (entry : registry.terminalMap key = some other) (differs : other ≠ id) :
    (registry.beginEnd id).terminalMap key = some other := by
  unfold beginEnd
  split
  · split
    · exact entry
    · split
      · exact entry
      · exact forgetSelf_keeps entry differs
  · exact entry

theorem finishEnd_keeps (entry : registry.terminalMap key = some other) (differs : other ≠ id) :
    (registry.finishEnd id).terminalMap key = some other := by
  unfold finishEnd
  split
  · split
    · exact kill_keeps entry differs
    · exact entry
  · exact entry

theorem foldl_beginEnd_keeps {ids : List Nat} (entry : registry.terminalMap key = some other)
    (others : other ∉ ids) : (ids.foldl beginEnd registry).terminalMap key = some other := by
  induction ids generalizing registry with
  | nil => exact entry
  | cons id rest ih =>
      rw [List.mem_cons, not_or] at others
      exact ih (beginEnd_keeps entry others.1) others.2

/-- An exit or a shutdown takes out no entry but those of the terminals it is about. -/
theorem closing_keeps {event : Event} {ids : List Nat} (closes : event.closed registry = some ids)
    (entry : registry.terminalMap key = some other) (newer : other ∉ ids) :
    (step registry event).terminalMap key = some other := by
  cases event with
  | exec | joinCombinedTerminal | joinContainerTerminal | shellChecked | openMain | startMain => cases closes
  | beginEnd id =>
      cases closes
      exact beginEnd_keeps entry (by simpa using newer)
  | finishEnd id =>
      cases closes
      exact finishEnd_keeps entry (by simpa using newer)
  | kill id =>
      cases closes
      exact kill_keeps entry (by simpa using newer)
  | endWhere matches_ =>
      cases closes
      exact foldl_beginEnd_keeps entry newer
  | exits id exitCode signal =>
      cases closes
      simp only [step]
      split
      · split
        · exact exit_keeps entry (by simpa using newer)
        · exact entry
      · exact entry

/-- The terminal a client gets by a name is shared, or its own. -/
theorem forClient_owner (sound : Sound registry) {socket : Socket} {name : String}
    (found : registry.forClient socket name = some id) :
    ∃ terminal, registry.terminals[id]? = some terminal ∧
      (terminal.owner = none ∨ terminal.owner = some (terminalOwner socket)) := by
  have filed {owner : Option TerminalOwner} (entry : registry.getTerminal name owner = some id) :
      ∃ terminal, registry.terminals[id]? = some terminal ∧ terminal.owner = owner := by
    obtain ⟨terminal, present, keyed⟩ := sound.filed _ id entry
    exact ⟨terminal, present, (keyOf_inj keyed).2⟩
  unfold forClient at found
  cases own : registry.getTerminal name (some (terminalOwner socket)) with
  | some held =>
      rw [own] at found
      cases found
      obtain ⟨terminal, present, owner⟩ := filed own
      exact ⟨terminal, present, .inr owner⟩
  | none =>
      rw [own] at found
      obtain ⟨terminal, present, owner⟩ := filed found
      exact ⟨terminal, present, .inl owner⟩

/-- While the process of a command has not exited, its name is taken. -/
theorem exec_busy (sound : Sound registry) (found : registry.terminals[id]? = some terminal)
    (command : terminal.commandExecution = true) (running : terminal.running = true) (spawned : Bool) :
    registry.exec terminal.name spawned = (.error busy, registry) := by
  have entry := (sound.locked id terminal found command running).1
  have nobody := sound.shared id terminal found command
  rw [Terminal.key, nobody] at entry
  unfold exec getTerminal
  rw [entry]

end Registry

/-- Every live session is the entry of its key. -/
def Registry.OwnsLive (registry : Registry) : Prop :=
  ∀ (id : Nat) (terminal : Terminal), registry.terminals[id]? = some terminal → terminal.isLive = true →
    registry.terminalMap terminal.key = some id

theorem Owning.ownsLive (owning : Owning registry) : registry.OwnsLive := by
  intro id terminal found live
  simp only [Terminal.isLive, Bool.and_eq_true, Bool.not_eq_true'] at live
  exact owning.listed id terminal found live.1.2 live.2 (owning.alive id terminal found live.1.1)

/-- Two openings of one shell by one user, who clicks twice -/
def openedTwice : List Event :=
  let alice : Socket := ⟨some "alice", none⟩
  let name := "container-exec--app-web-sh-0"
  [.joinContainerTerminal name alice true, .joinContainerTerminal name alice true,
    .shellChecked name (terminalOwner alice) true true, .shellChecked name (terminalOwner alice) true true]

theorem openedTwice_replaced :
    (replay step Registry.empty openedTwice).terminals[0]?.any (fun terminal => terminal.isLive &&
      (replay step Registry.empty openedTwice).terminalMap terminal.key = some 1) = true := by
  decide +kernel

theorem live_session_replaced : ¬ ∀ history, (replay step Registry.empty history).OwnsLive := by
  intro owns
  have replaced := openedTwice_replaced
  cases found : (replay step Registry.empty openedTwice).terminals[0]? with
  | none =>
      rw [found] at replaced
      cases replaced
  | some terminal =>
      simp only [found, Option.any_some, Bool.and_eq_true, decide_eq_true_eq] at replaced
      have entry := owns openedTwice 0 terminal found replaced.1
      rw [replaced.2] at entry
      cases entry

/-- Whatever is called in whatever order: a command is refused while one of its name runs, no exit or
shutdown takes out the entry of another terminal, and no client gets the session of another owner.  And
as long as every step is undisturbed, a live session is the entry of its key, where the functions that
end sessions find it. -/
theorem registry_owns (history : List Event) :
    (∀ (id : Nat) (terminal : Terminal) spawned,
      (replay step Registry.empty history).terminals[id]? = some terminal →
      terminal.commandExecution = true → terminal.running = true →
      (replay step Registry.empty history).exec terminal.name spawned =
        (.error busy, replay step Registry.empty history)) ∧
    (∀ event ids key other, event.closed (replay step Registry.empty history) = some ids →
      (replay step Registry.empty history).terminalMap key = some other → other ∉ ids →
      (replay step Registry.empty (history ++ [event])).terminalMap key = some other) ∧
    (∀ socket name id, (replay step Registry.empty history).forClient socket name = some id →
      ∃ terminal, (replay step Registry.empty history).terminals[id]? = some terminal ∧
        (terminal.owner = none ∨ terminal.owner = some (terminalOwner socket))) ∧
    (Along step Undisturbed Registry.empty history →
      (replay step Registry.empty history).OwnsLive ∧
      ∀ (id : Nat) (terminal : Terminal) matches_,
        (replay step Registry.empty history).terminals[id]? = some terminal → terminal.isLive = true →
        matches_ terminal = true → id ∈ (replay step Registry.empty history).matching matches_) := by
  have sound := Sound.reached history
  refine ⟨?_, ?_, ?_, ?_⟩
  · intro id terminal spawned found command running
    exact Registry.exec_busy sound found command running spawned
  · intro event ids key other closes entry newer
    rw [replay_append]
    exact Registry.closing_keeps closes entry newer
  · intro socket name id found
    exact Registry.forClient_owner sound found
  · intro undisturbed
    have both : Sound (replay step Registry.empty history) ∧ Owning (replay step Registry.empty history) :=
      undisturbed.invariant (motive := fun registry => Sound registry ∧ Owning registry)
        ⟨Sound.empty, Owning.empty⟩
        fun _ event held allowed => ⟨held.1.step event, held.2.step held.1 allowed⟩
    refine ⟨both.2.ownsLive, ?_⟩
    intro id terminal matches_ found live matched
    have bound := (List.getElem?_eq_some_iff.mp found).1
    refine List.mem_filter.mpr ⟨List.mem_range.mpr bound, ?_⟩
    simp only [found, both.2.ownsLive id terminal found live, matched, decide_true, Bool.and_self]

end Dockge.Terminals
