import Dockge.Terminals.Registry

namespace Dockge.Terminals

open Data

/-! Which terminals the registry holds, whatever is called in whatever order. -/

variable {registry : Registry} {id other : Nat} {terminal : Terminal}

theorem keyTexts_inj {name named : String} {owner holder : Option TerminalOwner}
    (same : keyTexts name owner = keyTexts named holder) : name = named ∧ owner = holder := by
  cases owner with
  | none =>
      cases holder with
      | none => exact ⟨by simpa [keyTexts] using same, rfl⟩
      | some holder => simp [keyTexts] at same
  | some owner =>
      cases holder with
      | none => simp [keyTexts] at same
      | some holder =>
          simp only [keyTexts, List.cons.injEq, and_true] at same
          obtain ⟨user, client, equal⟩ := same
          refine ⟨equal, congrArg some ?_⟩
          cases owner
          cases holder
          exact congrArg₂ TerminalOwner.mk user client

/-- No name and no owner share the key of others. -/
theorem keyOf_inj {name named : String} {owner holder : Option TerminalOwner}
    (same : keyOf name owner = keyOf named holder) : name = named ∧ owner = holder := by
  have some_ (name : String) (owner : Option TerminalOwner) : keyTexts name owner ≠ [] := by
    cases owner <;> simp [keyTexts]
  exact keyTexts_inj (stringifyTexts_inj (some_ name owner) (some_ named holder) same)

/-- What no call changes, or only once. -/
structure Later (before after : Terminal) : Prop where
  name : after.name = before.name
  owner : after.owner = before.owner
  commandExecution : after.commandExecution = before.commandExecution
  ending : before.ending = true → after.ending = true
  killed : before.killed = true → after.killed = true
  exited : before.exited = true → after.exited = true

theorem Later.key {before after : Terminal} (later : Later before after) : after.key = before.key := by
  simp only [Terminal.key, later.name, later.owner]

namespace Registry

@[simp] theorem change_map {update : Terminal → Terminal} :
    (registry.change id update).terminalMap = registry.terminalMap := rfl

theorem change_self {update : Terminal → Terminal} (found : registry.terminals[id]? = some terminal) :
    (registry.change id update).terminals[id]? = some (update terminal) := by
  simp [change, found]

theorem change_other {update : Terminal → Terminal} (differs : other ≠ id) :
    (registry.change id update).terminals[other]? = registry.terminals[other]? := by
  simp [change, Ne.symm differs]

/-- A terminal after a change was one before it, changed or not. -/
theorem change_cases {update : Terminal → Terminal}
    (found : (registry.change id update).terminals[other]? = some terminal) :
    other = id ∧ (∃ before, registry.terminals[other]? = some before ∧ terminal = update before) ∨
      other ≠ id ∧ registry.terminals[other]? = some terminal := by
  by_cases same : other = id
  · subst same
    cases held : registry.terminals[other]? with
    | none => simp [change, held] at found
    | some before =>
        rw [change_self held] at found
        exact .inl ⟨rfl, before, rfl, (Option.some.inj found).symm⟩
  · rw [change_other same] at found
    exact .inr ⟨same, found⟩

@[simp] theorem forgetSelf_terminals : (registry.forgetSelf id).terminals = registry.terminals := by
  unfold forgetSelf
  split
  · split <;> rfl
  · rfl

@[simp] theorem forgetSelf_opened : (registry.forgetSelf id).opened = registry.opened := by
  unfold forgetSelf
  split
  · split <;> rfl
  · rfl

/-- Only an entry of the terminal itself is taken out. -/
theorem forgetSelf_map (registry : Registry) (id : Nat) (key : String) :
    (registry.forgetSelf id).terminalMap key = registry.terminalMap key ∨
      registry.terminalMap key = some id ∧ (registry.forgetSelf id).terminalMap key = none := by
  unfold forgetSelf
  split
  next terminal found =>
    split
    next mine =>
      by_cases same : key = terminal.key
      · subst same
        exact .inr ⟨mine, if_pos rfl⟩
      · exact .inl (if_neg same)
    · exact .inl rfl
  · exact .inl rfl

theorem forgetSelf_keeps {key : String} (entry : registry.terminalMap key = some other) (differs : other ≠ id) :
    (registry.forgetSelf id).terminalMap key = some other := by
  obtain same | ⟨mine, -⟩ := registry.forgetSelf_map id key
  · exact same.trans entry
  · exact absurd (Option.some.inj (entry.symm.trans mine)) differs

theorem forgetSelf_within {key : String} (entry : (registry.forgetSelf id).terminalMap key = some other) :
    registry.terminalMap key = some other := by
  obtain same | ⟨-, gone⟩ := registry.forgetSelf_map id key
  · exact same.symm.trans entry
  · rw [gone] at entry
    cases entry

end Registry

/-- What holds of every registry: an entry is the terminal's own, and a command has the entry of its
name until its process has exited. -/
structure Sound (registry : Registry) : Prop where
  filed : ∀ (key : String) (id : Nat), registry.terminalMap key = some id →
    ∃ terminal : Terminal, registry.terminals[id]? = some terminal ∧ terminal.key = key
  shared : ∀ (id : Nat) (terminal : Terminal), registry.terminals[id]? = some terminal → terminal.commandExecution = true →
    terminal.owner = none
  locked : ∀ (id : Nat) (terminal : Terminal), registry.terminals[id]? = some terminal → terminal.commandExecution = true →
    terminal.running = true → registry.terminalMap terminal.key = some id ∧ terminal.hasProcess = true
  opened : ∀ id ∈ registry.opened,
    ∃ terminal : Terminal, registry.terminals[id]? = some terminal ∧ terminal.commandExecution = false

namespace Sound

open Registry

theorem change (sound : Sound registry) {update : Terminal → Terminal}
    (later : ∀ terminal, Later terminal (update terminal))
    (locked : ∀ terminal, registry.terminals[id]? = some terminal → terminal.commandExecution = true →
      (update terminal).running = true →
        registry.terminalMap terminal.key = some id ∧ (update terminal).hasProcess = true) :
    Sound (registry.change id update) where
  filed key holder entry := by
    obtain ⟨terminal, found, keyed⟩ := sound.filed key holder entry
    by_cases same : holder = id
    · subst same
      exact ⟨_, change_self found, (later terminal).key.trans keyed⟩
    · exact ⟨terminal, (change_other same).trans found, keyed⟩
  shared holder terminal found command := by
    obtain ⟨rfl, before, held, rfl⟩ | ⟨-, held⟩ := change_cases found
    · rw [(later before).owner]
      exact sound.shared holder before held ((later before).commandExecution ▸ command)
    · exact sound.shared holder terminal held command
  locked holder terminal found command running := by
    obtain ⟨rfl, before, held, rfl⟩ | ⟨-, held⟩ := change_cases found
    · rw [(later before).key]
      exact locked before held ((later before).commandExecution ▸ command) running
    · exact sound.locked holder terminal held command running
  opened holder waiting := by
    obtain ⟨terminal, found, plain⟩ := sound.opened holder waiting
    by_cases same : holder = id
    · subst same
      exact ⟨_, change_self found, (later terminal).commandExecution.trans plain⟩
    · exact ⟨terminal, (change_other same).trans found, plain⟩

theorem forgetSelf (sound : Sound registry)
    (free : ∀ terminal, registry.terminals[id]? = some terminal → terminal.commandExecution = true →
      terminal.running = false) : Sound (registry.forgetSelf id) where
  filed key holder entry := by
    rw [forgetSelf_terminals]
    exact sound.filed key holder (forgetSelf_within entry)
  shared holder terminal found := sound.shared holder terminal (by rwa [forgetSelf_terminals] at found)
  locked holder terminal found command running := by
    rw [forgetSelf_terminals] at found
    obtain ⟨entry, process⟩ := sound.locked holder terminal found command running
    refine ⟨forgetSelf_keeps entry ?_, process⟩
    intro same
    subst same
    rw [free terminal found command] at running
    cases running
  opened holder waiting := by
    rw [forgetSelf_terminals]
    exact sound.opened holder (by rwa [forgetSelf_opened] at waiting)

theorem construct (sound : Sound registry) (fresh : terminal.running = false)
    (shared : terminal.commandExecution = true → terminal.owner = none)
    (free : registry.terminalMap terminal.key = none ∨ terminal.owner.isSome) :
    Sound (registry.construct terminal) where
  filed key holder entry := by
    simp only [Registry.construct] at entry ⊢
    split at entry
    next same =>
      cases entry
      exact ⟨terminal, by simp, same.symm⟩
    · obtain ⟨held, found, keyed⟩ := sound.filed key holder entry
      exact ⟨held, List.getElem?_append_left (List.getElem?_eq_some_iff.mp found).1 ▸ found, keyed⟩
  shared holder held found command := by
    simp only [Registry.construct, List.getElem?_append] at found
    split at found
    · exact sound.shared holder held found command
    · rw [List.getElem?_singleton] at found
      split at found
      · cases found
        exact shared command
      · cases found
  locked holder held found command running := by
    simp only [Registry.construct, List.getElem?_append] at found ⊢
    split at found
    next old =>
      obtain ⟨entry, process⟩ := sound.locked holder held found command running
      refine ⟨?_, process⟩
      rw [if_neg, entry]
      intro same
      obtain none_ | owned := free
      · rw [← same, entry] at none_
        cases none_
      · have nobody := sound.shared holder held found command
        obtain ⟨-, owners⟩ := keyOf_inj same
        rw [← owners, nobody] at owned
        cases owned
    next =>
      rw [List.getElem?_singleton] at found
      split at found
      · cases found
        rw [fresh] at running
        cases running
      · cases found
  opened holder waiting := by
    obtain ⟨held, found, plain⟩ := sound.opened holder waiting
    exact ⟨held, by
      simp only [Registry.construct]
      rw [List.getElem?_append_left (List.getElem?_eq_some_iff.mp found).1]
      exact found, plain⟩

theorem waiting (sound : Sound registry) {opened : List Nat} {checking : List (String × TerminalOwner)}
    (within : ∀ id ∈ opened, id ∈ registry.opened) :
    Sound { registry with opened := opened, checking := checking } where
  filed := sound.filed
  shared := sound.shared
  locked := sound.locked
  opened id listed := sound.opened id (within id listed)

end Sound

/-! What each call does to a terminal -/

theorem afterExit_later (exitCode : Int) (signal : Bool) (terminal : Terminal) :
    Later terminal (terminal.afterExit exitCode signal) := by
  unfold Terminal.afterExit
  split
  · exact ⟨rfl, rfl, rfl, id, id, fun _ => rfl⟩
  · exact ⟨rfl, rfl, rfl, id, id, fun _ => rfl⟩

theorem afterExit_stops (exitCode : Int) (signal : Bool) (terminal : Terminal) :
    (terminal.afterExit exitCode signal).running = false ∧ (terminal.afterExit exitCode signal).exited = true := by
  unfold Terminal.afterExit
  split
  · exact ⟨rfl, rfl⟩
  · exact ⟨rfl, rfl⟩

theorem withProcess_later (terminal : Terminal) : Later terminal terminal.withProcess :=
  ⟨rfl, rfl, rfl, id, id, id⟩

theorem withoutProcess_later (terminal : Terminal) : Later terminal terminal.withoutProcess :=
  ⟨rfl, rfl, rfl, id, id, id⟩

theorem afterKill_later (terminal : Terminal) : Later terminal terminal.afterKill :=
  ⟨rfl, rfl, rfl, id, fun _ => rfl, id⟩

theorem toEnd_later (terminal : Terminal) : Later terminal terminal.toEnd :=
  ⟨rfl, rfl, rfl, fun _ => rfl, id, id⟩

namespace Sound

open Registry

theorem exit (sound : Sound registry) (exitCode : Int) (signal : Bool) :
    Sound (registry.exit id exitCode signal) := by
  refine forgetSelf (sound.change (afterExit_later exitCode signal) ?_) ?_
  · intro terminal _ _ running
    rw [(afterExit_stops exitCode signal terminal).1] at running
    cases running
  · intro terminal found _
    obtain ⟨-, before, -, rfl⟩ | ⟨differs, -⟩ := change_cases found
    · exact (afterExit_stops exitCode signal before).1
    · exact absurd rfl differs

/-- A command that is started has its entry already. -/
theorem start (sound : Sound registry) (spawned : Bool)
    (entry : ∀ terminal, registry.terminals[id]? = some terminal → terminal.commandExecution = true →
      registry.terminalMap terminal.key = some id) : Sound (registry.start id spawned) := by
  unfold Registry.start
  split
  · split
    · exact sound
    · split
      · exact sound.change withProcess_later fun held present command _ => ⟨entry held present command, rfl⟩
      · exact (sound.change withoutProcess_later fun held present command running =>
          sound.locked id held present command running).exit 1 false
  · exact sound

theorem kill (sound : Sound registry) : Sound (registry.kill id) := by
  unfold Registry.kill
  split
  next terminal found =>
    have killed : Sound (registry.change id .afterKill) := sound.change afterKill_later
      fun held present command running => sound.locked id held present command running
    split
    next free =>
      refine killed.forgetSelf fun held present command => ?_
      obtain ⟨-, before, original, rfl⟩ | ⟨differs, -⟩ := change_cases present
      · rw [found] at original
        cases original
        cases running : terminal.running with
        | false => exact running
        | true =>
            have process := (sound.locked id terminal found command running).2
            have mine : terminal.commandExecution = true := command
            simp [process, mine] at free
      · exact absurd rfl differs
    · exact killed
  · exact sound

theorem beginEnd (sound : Sound registry) : Sound (registry.beginEnd id) := by
  unfold Registry.beginEnd
  split
  next terminal found =>
    have ending : Sound (registry.change id .toEnd) := sound.change toEnd_later
      fun held present command running => sound.locked id held present command running
    split
    · exact sound
    · split
      · exact ending
      next plain =>
        refine ending.forgetSelf fun held present command => ?_
        obtain ⟨-, before, original, rfl⟩ | ⟨differs, -⟩ := change_cases present
        · rw [found] at original
          cases original
          exact absurd command plain
        · exact absurd rfl differs
  · exact sound

theorem finishEnd (sound : Sound registry) : Sound (registry.finishEnd id) := by
  unfold Registry.finishEnd
  split
  · split
    · exact sound.kill
    · exact sound
  · exact sound

theorem endWhere (sound : Sound registry) (matches_ : Terminal → Bool) : Sound (registry.endWhere matches_) := by
  unfold Registry.endWhere
  generalize registry.matching matches_ = listed
  induction listed generalizing registry with
  | nil => exact sound
  | cons id rest ih => exact ih sound.beginEnd

end Sound

namespace Registry

theorem construct_self :
    (registry.construct terminal).terminals[registry.terminals.length]? = some terminal := by
  simp [construct]

theorem construct_old (old : id < registry.terminals.length) :
    (registry.construct terminal).terminals[id]? = registry.terminals[id]? :=
  List.getElem?_append_left old

theorem construct_entry :
    (registry.construct terminal).terminalMap terminal.key = some registry.terminals.length := if_pos rfl

theorem construct_other {key : String} (differs : key ≠ terminal.key) :
    (registry.construct terminal).terminalMap key = registry.terminalMap key := if_neg differs

/-- A terminal of the registry after one was made is that one or was there before. -/
theorem construct_cases {held : Terminal} (found : (registry.construct terminal).terminals[id]? = some held) :
    registry.terminals[id]? = some held ∨ id = registry.terminals.length ∧ held = terminal := by
  simp only [construct, List.getElem?_append] at found
  split at found
  · exact .inl found
  next late =>
    rw [List.getElem?_singleton] at found
    split at found
    next zero => exact .inr ⟨by omega, (Option.some.inj found).symm⟩
    · cases found

end Registry

namespace Sound

open Registry

/-- A terminal is made under a key that is free, or that no command can have, and started. -/
theorem constructStart (sound : Sound registry) (terminal : Terminal) (fresh : terminal.running = false)
    (shared : terminal.commandExecution = true → terminal.owner = none)
    (free : registry.terminalMap terminal.key = none ∨ terminal.owner.isSome) (spawned : Bool) :
    Sound ((registry.construct terminal).start registry.terminals.length spawned) := by
  refine (sound.construct fresh shared free).start spawned fun held found _ => ?_
  rw [construct_self] at found
  cases found
  exact construct_entry

theorem exec (sound : Sound registry) (terminalName : String) (spawned : Bool) :
    Sound (registry.exec terminalName spawned).2 := by
  unfold Registry.exec
  split
  · exact sound
  next free => exact sound.constructStart (.new terminalName none true) rfl (fun _ => rfl) (.inl free) spawned

theorem joinCombinedTerminal (sound : Sound registry) (terminalName : String) (spawned : Bool) :
    Sound (registry.joinCombinedTerminal terminalName spawned) := by
  unfold Registry.joinCombinedTerminal getOrCreateTerminal
  split
  next id entry =>
    refine sound.start spawned fun held found _ => ?_
    obtain ⟨terminal, present, keyed⟩ := sound.filed _ id entry
    rw [found] at present
    cases present
    rw [keyed]
    exact entry
  next free =>
    exact sound.constructStart (.new terminalName none false) rfl (fun command => nomatch command) (.inl free) spawned

/-- A private session is never a command. -/
theorem private_plain (sound : Sound registry) {name : String} {owner : TerminalOwner}
    (entry : registry.getTerminal name (some owner) = some id) :
    ∃ terminal, registry.terminals[id]? = some terminal ∧ terminal.commandExecution = false := by
  obtain ⟨terminal, found, keyed⟩ := sound.filed _ id entry
  refine ⟨terminal, found, ?_⟩
  cases command : terminal.commandExecution with
  | false => rfl
  | true =>
      have nobody := sound.shared id terminal found command
      obtain ⟨-, owners⟩ := keyOf_inj keyed
      rw [nobody] at owners
      cases owners

theorem startPlain (sound : Sound registry) (spawned : Bool)
    (plain : ∃ terminal, registry.terminals[id]? = some terminal ∧ terminal.commandExecution = false) :
    Sound (registry.start id spawned) := by
  obtain ⟨terminal, found, plain⟩ := plain
  refine sound.start spawned fun held present command => ?_
  rw [found] at present
  cases present
  rw [plain] at command
  cases command

theorem joinContainerTerminal (sound : Sound registry) (terminalName : String) (socket : Socket)
    (spawned : Bool) : Sound (registry.joinContainerTerminal terminalName socket spawned) := by
  unfold Registry.joinContainerTerminal
  split
  next id entry => exact sound.startPlain spawned (sound.private_plain entry)
  · exact sound.waiting fun _ listed => listed

theorem shellChecked (sound : Sound registry) (terminalName : String) (owner : TerminalOwner)
    (exists_ spawned : Bool) : Sound (registry.shellChecked terminalName owner exists_ spawned) := by
  unfold Registry.shellChecked
  split
  · have answered : Sound { registry with checking := registry.checking.erase (terminalName, owner) } :=
      sound.waiting fun _ listed => listed
    split
    · exact answered.constructStart (.new terminalName (some owner) false) rfl
        (fun command => nomatch command) (.inr rfl) spawned
    · exact answered
  · exact sound

theorem openMain (sound : Sound registry) (socket : Socket) (enabled : Bool) :
    Sound (registry.openMain socket enabled) := by
  unfold Registry.openMain
  split
  · split
    next id entry =>
      refine { sound with opened := fun held listed => ?_ }
      obtain listed | rfl := by simpa using listed
      · exact sound.opened held listed
      · exact sound.private_plain entry
    next free =>
      have made : Sound (registry.construct (.new consoleName (some (terminalOwner socket)) false)) :=
        sound.construct rfl (fun command => nomatch command) (.inr rfl)
      refine { made with opened := fun held listed => ?_ }
      obtain listed | rfl := by simpa using listed
      · exact made.opened held listed
      · exact ⟨_, construct_self, rfl⟩
  · exact sound

theorem startMain (sound : Sound registry) (spawned : Bool) : Sound (registry.startMain id spawned) := by
  unfold Registry.startMain
  split
  next listed =>
    have going : Sound { registry with opened := registry.opened.erase id } :=
      sound.waiting fun _ held => List.mem_of_mem_erase held
    exact going.startPlain spawned (sound.opened id listed)
  · exact sound

theorem step (sound : Sound registry) (event : Event) : Sound (step registry event) := by
  cases event with
  | exec terminalName spawned => exact sound.exec terminalName spawned
  | joinCombinedTerminal terminalName spawned => exact sound.joinCombinedTerminal terminalName spawned
  | joinContainerTerminal terminalName socket spawned =>
      exact sound.joinContainerTerminal terminalName socket spawned
  | shellChecked terminalName owner exists_ spawned => exact sound.shellChecked terminalName owner exists_ spawned
  | openMain socket enabled => exact sound.openMain socket enabled
  | startMain id spawned => exact sound.startMain spawned
  | beginEnd id => exact sound.beginEnd
  | finishEnd id => exact sound.finishEnd
  | kill id => exact sound.kill
  | endWhere matches_ => exact sound.endWhere matches_
  | exits id exitCode signal =>
      simp only [Terminals.step]
      split
      · split
        · exact sound.exit exitCode signal
        · exact sound
      · exact sound

theorem empty : Sound Registry.empty where
  filed _ _ entry := by cases entry
  shared _ _ found := by simp [Registry.empty] at found
  locked _ _ found := by simp [Registry.empty] at found
  opened _ listed := by cases listed

theorem reached (history : List Event) : Sound (replay Terminals.step Registry.empty history) :=
  replay_invariant (motive := Sound) empty (fun _ event sound => sound.step event) history

end Sound

/-! A running command is carried through everything but its own exit. -/

/-- A command that runs in a terminal under its name. -/
def Runs (registry : Registry) (id : Nat) (name : String) : Prop :=
  ∃ terminal : Terminal, registry.terminals[id]? = some terminal ∧ terminal.name = name ∧
    terminal.commandExecution = true ∧ terminal.running = true

/-- What one registry has running, the other has too. -/
def Carries (before after : Registry) (id : Nat) : Prop :=
  ∀ terminal : Terminal, before.terminals[id]? = some terminal → terminal.hasProcess = true →
    ∃ kept : Terminal, after.terminals[id]? = some kept ∧ kept.name = terminal.name ∧
      kept.commandExecution = terminal.commandExecution ∧ kept.running = terminal.running ∧ kept.hasProcess = true

namespace Carries

open Registry

variable {before middle after : Registry}

theorem refl : Carries before before id := fun terminal found process => ⟨terminal, found, rfl, rfl, rfl, process⟩

theorem trans (first : Carries before middle id) (second : Carries middle after id) : Carries before after id := by
  intro terminal found process
  obtain ⟨kept, present, name, command, running, process⟩ := first terminal found process
  obtain ⟨last, final, name', command', running', process'⟩ := second kept present process
  exact ⟨last, final, name'.trans name, command'.trans command, running'.trans running, process'⟩

theorem forgetSelf : Carries before (before.forgetSelf other) id := by
  intro terminal found process
  exact ⟨terminal, by rwa [forgetSelf_terminals], rfl, rfl, rfl, process⟩

theorem construct : Carries before (before.construct terminal) id := by
  intro held found process
  exact ⟨held, (construct_old (List.getElem?_eq_some_iff.mp found).1).trans found, rfl, rfl, rfl, process⟩

theorem change {update : Terminal → Terminal}
    (kept : id = other → ∀ terminal, before.terminals[id]? = some terminal → terminal.hasProcess = true →
      (update terminal).name = terminal.name ∧ (update terminal).commandExecution = terminal.commandExecution ∧
        (update terminal).running = terminal.running ∧ (update terminal).hasProcess = true) :
    Carries before (before.change other update) id := by
  intro terminal found process
  by_cases same : id = other
  · obtain ⟨name, command, running, process⟩ := kept same terminal found process
    exact ⟨_, same ▸ change_self found, name, command, running, process⟩
  · exact ⟨terminal, (change_other same).trans found, rfl, rfl, rfl, process⟩

theorem exit {exitCode : Int} {signal : Bool} (differs : id ≠ other) :
    Carries before (before.exit other exitCode signal) id :=
  (change fun same => absurd same differs).trans forgetSelf

theorem start {spawned : Bool} : Carries before (before.start other spawned) id := by
  unfold Registry.start
  split
  next held found =>
    have idle_other (idle : ¬ held.hasProcess = true) : id = other → ∀ terminal,
        before.terminals[id]? = some terminal → ¬ terminal.hasProcess = true := by
      intro same terminal present
      rw [same, found] at present
      cases present
      exact idle
    split
    · exact refl
    next idle =>
      split
      · exact change fun same terminal present process => absurd process (idle_other idle same terminal present)
      · by_cases same : id = other
        · intro terminal present process
          exact absurd process (idle_other idle same terminal present)
        · exact (change fun equal => absurd equal same).trans (exit same)
  · exact refl

theorem kill : Carries before (before.kill other) id := by
  have killed : Carries before (before.change other .afterKill) id :=
    change fun _ _ _ process => ⟨rfl, rfl, rfl, process⟩
  unfold Registry.kill
  split
  · split
    · exact killed.trans forgetSelf
    · exact killed
  · exact refl

theorem beginEnd : Carries before (before.beginEnd other) id := by
  have ending : Carries before (before.change other .toEnd) id :=
    change fun _ _ _ process => ⟨rfl, rfl, rfl, process⟩
  unfold Registry.beginEnd
  split
  · split
    · exact refl
    · split
      · exact ending
      · exact ending.trans forgetSelf
  · exact refl

theorem endWhere (matches_ : Terminal → Bool) : Carries before (before.endWhere matches_) id := by
  unfold Registry.endWhere
  generalize before.matching matches_ = listed
  induction listed generalizing before with
  | nil => exact refl
  | cons first rest ih => exact beginEnd.trans ih

theorem exec {terminalName : String} {spawned : Bool} : Carries before (before.exec terminalName spawned).2 id := by
  unfold Registry.exec
  split
  · exact refl
  · exact construct.trans start

theorem step (event : Event) (stays : ∀ exitCode signal, event ≠ .exits id exitCode signal) :
    Carries before (Terminals.step before event) id := by
  cases event with
  | exec terminalName spawned => exact exec
  | joinCombinedTerminal terminalName spawned =>
      simp only [Terminals.step, Registry.joinCombinedTerminal, Registry.getOrCreateTerminal]
      split
      · exact start
      · exact construct.trans start
  | joinContainerTerminal terminalName socket spawned =>
      simp only [Terminals.step, Registry.joinContainerTerminal]
      split
      · exact start
      · exact refl
  | shellChecked terminalName owner exists_ spawned =>
      simp only [Terminals.step, Registry.shellChecked]
      split
      · have answered : Carries before { before with checking := before.checking.erase (terminalName, owner) } id :=
          refl
        split
        · exact answered.trans (construct.trans start)
        · exact answered
      · exact refl
  | openMain socket enabled =>
      simp only [Terminals.step, Registry.openMain]
      split
      · split
        · exact refl
        · exact construct
      · exact refl
  | startMain other spawned =>
      simp only [Terminals.step, Registry.startMain]
      split
      · have going : Carries before { before with opened := before.opened.erase other } id := refl
        exact going.trans start
      · exact refl
  | beginEnd other => exact beginEnd
  | finishEnd other =>
      simp only [Terminals.step, Registry.finishEnd]
      split
      · split
        · exact kill
        · exact refl
      · exact refl
  | kill other => exact kill
  | endWhere matches_ => exact endWhere matches_
  | exits other exitCode signal =>
      have differs : id ≠ other := by
        intro same
        subst same
        exact stays exitCode signal rfl
      simp only [Terminals.step]
      split
      · split
        · exact exit differs
        · exact refl
      · exact refl

end Carries

namespace Runs

variable {before after : Registry} {name : String}

theorem carried (runs : Runs before id name) (sound : Sound before) (carries : Carries before after id) :
    Runs after id name := by
  obtain ⟨terminal, found, named, command, running⟩ := runs
  have process := (sound.locked id terminal found command running).2
  obtain ⟨kept, present, name, command', running', -⟩ := carries terminal found process
  exact ⟨kept, present, name.trans named, command'.trans command, running'.trans running⟩

/-- The name of a running command is taken. -/
theorem taken (runs : Runs registry id name) (sound : Sound registry) :
    registry.getTerminal name none = some id := by
  obtain ⟨terminal, found, rfl, command, running⟩ := runs
  have entry := (sound.locked id terminal found command running).1
  rwa [Terminal.key, sound.shared id terminal found command] at entry

theorem bound (runs : Runs registry id name) : id < registry.terminals.length := by
  obtain ⟨terminal, found, -⟩ := runs
  exact (List.getElem?_eq_some_iff.mp found).1

theorem exec {id : Nat} (opened : (registry.exec name true).1 = .ok id) :
    id = registry.terminals.length ∧ Runs (registry.exec name true).2 id name := by
  unfold Registry.exec at opened ⊢
  split at opened
  · cases opened
  next free =>
    cases opened
    refine ⟨rfl, ⟨Terminal.withProcess (.new name none true), ?_, rfl, rfl, rfl⟩⟩
    simp only [Registry.start, Registry.construct_self]
    exact Registry.change_self Registry.construct_self

end Runs

end Dockge.Terminals
