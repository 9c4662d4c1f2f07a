import Dockge.StackSecrets.Undivided

namespace Dockge.StackSecrets

open Dockge.Data
open Dockge.StackConfig (Found StackFileConfig SecretBinding resolveConfig)
open Dockge.StackWrite

/-! Binding a secret changes the compose file and the stored bindings together, or neither. -/

variable {Hash : Type} {host : Host Hash} {start : Disk Hash StackFileConfig} {state : State Hash}

/-! ### Steps outside the calls -/

theorem started_kept (kept : Kept host start state) (request : Request) :
    Kept host start { state with tasks := state.tasks ++ [{ request, stage := .loading }] } := by
  have unlocked (before : ∀ task ∈ state.tasks, task.stage.locks = false) :
      ∀ task ∈ state.tasks ++ [({ request, stage := .loading } : Task)], task.stage.locks = false := by
    intro task member
    rcases List.mem_append.mp member with earlier | last
    · exact before task earlier
    · rw [List.mem_singleton.mp last]
      rfl
  have which {call : Nat} {task : Task}
      (there : (state.tasks ++ [({ request, stage := .loading } : Task)])[call]? = some task) :
      state.tasks[call]? = some task ∨ call = state.tasks.length ∧ task = { request, stage := .loading } := by
    by_cases earlier : call < state.tasks.length
    · rw [List.getElem?_append_left earlier] at there
      exact .inl there
    · have last : call = state.tasks.length := by
        have bound := (List.getElem?_eq_some_iff.mp there).1
        simp only [List.length_append, List.length_singleton] at bound
        omega
      subst last
      simp only [List.getElem?_concat_length, Option.some.injEq] at there
      exact .inr ⟨rfl, there.symm⟩
  refine ⟨kept.selection, kept.fresh, ?_, ?_, ?_⟩
  · cases kept.held with
    | free before texts unplanned => exact .free (unlocked before) texts unplanned
    | reverting before save takenBack => exact .reverting (unlocked before) save takenBack
    | cleaning owner holder loaded journal there cleaning only texts others =>
        refine .cleaning owner holder loaded journal ?_ cleaning ?_ texts others
        · have bound := (List.getElem?_eq_some_iff.mp there).1
          change (state.tasks ++ _)[owner]? = some holder
          rw [List.getElem?_append_left bound]
          exact there
        · intro other task found locks
          rcases which found with earlier | ⟨_, rfl⟩
          · exact only other task earlier locks
          · cases locks
  · intro call task found
    rcases which found with earlier | ⟨rfl, rfl⟩
    · exact kept.told call task earlier
    · have unheard (entry : Entry) (member : entry ∈ state.log)
          (about : entry.call = some state.tasks.length) : False :=
        Nat.lt_irrefl _ (kept.known entry member _ about)
      refine ⟨?_, ?_, (by simp), ?_⟩
      · intro wrote
        obtain ⟨_, _, member⟩ := wrote
        exact (unheard _ member rfl).elim
      · intro secret _ reached
        obtain ⟨_, _, member⟩ := reached.resolve_left (by simp [Stage.past])
        exact (unheard _ member rfl).elim
      · exact Decided.of_plain rfl
  · intro entry member call about
    rw [List.length_append]
    exact Nat.lt_add_right _ (kept.known entry member call about)

theorem edited_kept {fileName : String} {file : Option File} (kept : Kept host start state)
    (unplanned : Unplanned state.disk) :
    Kept host start { state with
      disk := state.disk.setFile fileName file
      log := .edited fileName (file.map (·.bytes)) :: state.log } := by
  have before := kept.held.texts_of_unplanned unplanned
  have texts : Texts host start (state.disk.setFile fileName file).bytes
      (.edited fileName (file.map (·.bytes)) :: state.log) := by
    intro name
    unfold bytesAfter
    split
    · rename_i same
      simp [Disk.bytes, Disk.setFile, same]
    · rename_i different
      rw [← before name]
      simp [Disk.bytes, Disk.setFile, Function.update_of_ne (Ne.symm different)]
  have foreign (call : Nat) (told : Entry) (member : told ∈ Entry.edited fileName (file.map (·.bytes)) :: state.log)
      (about : told.call = some call) : told ∈ state.log := by
    rcases List.mem_cons.mp member with rfl | earlier
    · cases about
    · exact earlier
  refine ⟨kept.selection, ⟨kept.fresh.journals, kept.fresh.marked⟩, ?_, ?_, ?_⟩
  · cases kept.held with
    | free unlocked _ _ => exact .free unlocked texts unplanned
    | reverting unlocked _ _ => exact .free unlocked texts unplanned
    | cleaning owner holder loaded journal there cleaning only _ others =>
        exact .cleaning owner holder loaded journal there cleaning only texts others
  · intro call task found
    have told := kept.told call task found
    have later (log : List Entry) :
        Stored state.log call → Stored (.edited fileName (file.map (·.bytes)) :: state.log) call := by
      rintro ⟨request, scan, member⟩
      exact ⟨request, scan, List.mem_cons_of_mem _ member⟩
    refine ⟨?_, ?_, fun returned => later [] (told.returned returned), told.decided⟩
    · rintro ⟨secret, name, member⟩
      exact (told.wrote ⟨secret, name, foreign call _ member rfl⟩).imp_right (later [])
    · intro secret asked reached
      have earlier : task.stage.past = true ∨ Stored state.log call := by
        refine reached.imp_right ?_
        rintro ⟨request, scan, member⟩
        exact ⟨request, scan, foreign call _ member rfl⟩
      rcases told.composed secret asked earlier with ⟨_, _, _, member⟩ | member
      · exact .inl ⟨_, _, _, List.mem_cons_of_mem _ member⟩
      · exact .inr (List.mem_cons_of_mem _ member)
  · intro told member call about
    exact kept.known told (foreign call told member about) call about

theorem crashed_kept (kept : Kept host start state) (quiet : state.Quiet) :
    Kept host start { state with tasks := State.stopped state.tasks } := by
  have unlocked : ∀ task ∈ State.stopped state.tasks, task.stage.locks = false := by
    intro task member
    obtain ⟨before, _, same⟩ := List.mem_map.mp member
    rw [← same]
    rfl
  refine ⟨kept.selection, kept.fresh, ?_, ?_, ?_⟩
  · cases kept.held with
    | free _ texts unplanned => exact .free unlocked texts unplanned
    | reverting _ save takenBack => exact .reverting unlocked save takenBack
    | cleaning owner holder loaded journal there cleaning _ _ _ =>
        have between := quiet holder (List.mem_of_getElem? there)
        rw [cleaning] at between
        cases between
  · intro call task found
    change (State.stopped state.tasks)[call]? = some task at found
    rw [State.stopped, List.getElem?_map, Option.map_eq_some_iff] at found
    obtain ⟨before, earlier, same⟩ := found
    subst same
    exact (kept.told call before earlier).gone (quiet before (List.mem_of_getElem? earlier))
  · intro entry member call about
    change call < (state.tasks.map _).length
    rw [List.length_map]
    exact kept.known entry member call about

/-! ### Runs -/

section
variable [DecidableEq Hash]

/-- A call that is over does nothing more. -/
theorem over_kept {call : Nat} {task : Task} {scan : Found} {parts : List Part} {fates : List Fate}
    (kept : Kept host start state) (found : state.tasks[call]? = some task) (ended : task.stage.over = true) :
    Kept host start (advance host state call task scan parts fates) := by
  obtain ⟨bound, there⟩ := List.getElem?_eq_some_iff.mp found
  have still : advance host state call task scan parts fates = state := by
    obtain ⟨request, stage⟩ := task
    obtain ⟨disk, tasks, log⟩ := state
    have same : tasks.set call { request, stage } = tasks := by
      rw [← there]
      exact List.set_getElem_self bound
    cases stage with
    | returned => exact congrArg (State.mk disk · log) same
    | rejected => exact congrArg (State.mk disk · log) same
    | gone => exact congrArg (State.mk disk · log) same
    | _ => cases ended
  rw [still]
  exact kept

theorem advance_kept {call : Nat} {task : Task} {scan : Found} {parts : List Part} {fates : List Fate}
    (injective : Function.Injective host.sha256) (kept : Kept host start state)
    (found : state.tasks[call]? = some task) (ready : state.waits task = false)
    (whole : task.NotTorn host state fates)
    (stops : stageOf (task.next host scan parts fates state.disk).ending = none → state.Quiet) :
    Kept host start (advance host state call task scan parts fates) := by
  unfold Task.NotTorn at whole
  cases stage : task.stage with
  | loading => exact loading_kept kept found stage stops
  | reading secret loaded => exact reading_kept kept found stage stops
  | checking secret loaded composeYAML => exact checking_kept kept found stage stops
  | writing secret loaded composeYAML next =>
      have free : state.locked = false := by simpa [State.waits, stage] using ready
      rw [stage] at whole
      obtain ⟨atomic, unplanned⟩ := whole free
      exact writing_kept injective kept found stage free atomic unplanned stops
  | cleaning loaded journal =>
      rw [stage] at whole
      exact cleaning_kept kept found stage whole
  | storing loaded wrote => exact storing_kept kept found stage stops
  | looking loaded wrote all =>
      rw [stage] at whole
      exact looking_kept kept found stage whole stops
  | setting loaded wrote all =>
      rw [stage] at whole
      exact setting_kept kept found stage whole.1 whole.2 stops
  | returned => exact over_kept kept found (by rw [stage]; rfl)
  | rejected => exact over_kept kept found (by rw [stage]; rfl)
  | gone => exact over_kept kept found (by rw [stage]; rfl)

theorem step_kept (injective : Function.Injective host.sha256) (kept : Kept host start state) (event : Event)
    (whole : NotTorn host state event) : Kept host start (step host state event) := by
  obtain ⟨stops, each⟩ := whole
  cases event with
  | start request => exact started_kept kept request
  | edit fileName file => exact edited_kept kept each
  | crash => exact crashed_kept kept (stops trivial)
  | advance call scan parts fates =>
      unfold step
      dsimp only
      cases found : state.tasks[call]? with
      | none => exact kept
      | some task =>
          dsimp only
          split
          · exact kept
          · rename_i ready
            have ready : state.waits task = false := by simpa using ready
            exact advance_kept injective kept found ready (each task found)
              fun stopped => stops ⟨task, found, ready, stopped⟩

theorem kept_of_run (injective : Function.Injective host.sha256) (fresh : Fresh start)
    (unplanned : Unplanned start) {history : List Event}
    (whole : Along (step host) (NotTorn host) (initial start) history) :
    Kept host start (replay (step host) (initial start) history) := by
  refine whole.invariant ⟨rfl, fresh, .free (by simp [initial]) (fun _ => rfl) unplanned, ?_, ?_⟩
    fun state event kept => step_kept injective kept event
  · intro call task found
    simp [initial] at found
  · intro entry member
    simp [initial] at member

/-- What the starts after a stop leave. -/
theorem Held.recovered {restarts : List Restart} {restart : Restart} (held : Held host start state)
    (quiet : state.Quiet) (recovered : Recovered host.sha256 state.disk restarts restart) :
    let final := replay (runRecovery host.sha256) state.disk (restarts ++ [restart])
    final.selections = state.disk.selections ∧ Texts host start final.bytes state.log := by
  have killed := recovered.killed
  cases held with
  | cleaning owner holder loaded journal there cleaning _ _ _ =>
      have between := quiet holder (List.mem_of_getElem? there)
      rw [cleaning] at between
      cases between
  | free _ texts unplanned =>
      have storing : state.disk.Storing [] state.disk.files state.disk.selections := by
        refine ⟨?_, fun _ _ => rfl, rfl⟩
        intro id journal manifest there planned
        rw [unplanned id journal there] at planned
        cases planned
      have final := replay_storing host.sha256 killed storing
      refine ⟨final.selections, ?_⟩
      intro fileName
      rw [Disk.bytes, final.files fileName (by simp)]
      exact texts fileName
  | reverting _ save takenBack =>
      have describes : ∀ journal manifest, state.disk.journals save.own = some journal →
          journal.manifest = some manifest → save.Describes host.sha256 manifest := by
        intro journal manifest there planned
        cases takenBack.reverting with
        | undone undone => exact (undone.journal journal there).2 manifest planned
        | underway underway =>
            obtain ⟨found, described, held, restores⟩ := underway.journal
            obtain rfl : found = journal := Option.some.inj (held.symm.trans there)
            obtain rfl : described = manifest := Option.some.inj (restores.planned.symm.trans planned)
            exact restores.describes
      have storing : state.disk.Storing (save.targets.map (·.name)) save.start.files state.disk.selections := by
        refine ⟨?_, takenBack.elsewhere, rfl⟩
        intro id journal manifest there planned
        by_cases own : id = save.own
        · subst own
          have described := describes journal manifest there planned
          refine ⟨described.metadata.trans takenBack.metadata, ?_⟩
          intro file member
          obtain ⟨target, asked, same, _⟩ := described.each file member
          rw [same]
          exact List.mem_map_of_mem asked
        · rw [takenBack.others id journal own there] at planned
          cases planned
      have final := replay_storing host.sha256 killed storing
      have old := takenBack.reverting.recovered takenBack.survives recovered
      refine ⟨final.selections, ?_⟩
      intro fileName
      rw [← takenBack.texts fileName]
      by_cases named : fileName ∈ save.targets.map (·.name)
      · obtain ⟨target, member, same⟩ := List.mem_map.mp named
        rw [← same]
        exact old target member
      · rw [Disk.bytes, final.files fileName named]
        rfl

end

/-! A stack of one service and one secret file. -/

def sampleYaml : ComposeEditor.Yaml where
  numberText := fun _ => ""
  keyText := fun _ => ""
  indexText := fun _ => none
  printed := fun _ _ => ""
  parseInt := fun _ => .nan
  keyText_reprinted := fun _ => rfl

def sampleText : String := "services:\n  web:\n    image: nginx\n"

def sampleBound : String :=
  "services:\n  web:\n    image: nginx\n    secrets:\n      - db\nsecrets:\n  db:\n    file: ./.secret.db\n"

def sampleDocument : Document :=
  let key (name : String) : ComposeEditor.Node := .scalar (.str name) (some name)
  some (.map [(key "services", .map [(key "web", .map [(key "image", key "nginx")])])])

def sampleHost : Host Bytes where
  sha256 := id
  library := {
    yaml := sampleYaml
    parseDocument := fun _ => sampleDocument
    readComposeServices := fun _ => ["web"]
    serialiseEditedDocument := fun _ _ => some sampleBound }
  name := "shop"

def sampleConfig (secretBindings : List SecretBinding) : StackFileConfig :=
  { composeFileName := "compose.yaml", envFileNames := [], activeEnvFileName := "", secretBindings }

def sampleDisk (secretBindings : List SecretBinding) : Disk Bytes StackFileConfig where
  files := fun name =>
    if name = "compose.yaml" then some ⟨encodeUtf8 sampleText.toList, defaultFileMode⟩
    else if name = ".secret.db" then some ⟨[115], 384⟩
    else none
  journals := fun _ => none
  unresolved := fun _ => none
  nextId := 0
  selections := fun _ => some (sampleConfig secretBindings)
  marked := []
  misread := false

/-- The next step of a call, whose first operations end like this. -/
def goOn (call : Nat) (fates : List Fate) : Event :=
  .advance call { composeFileNames := ["compose.yaml"], envFileNames := [".env"], secretFileNames := [".secret.db"] }
    [] fates

def bindSample : Event := .start (.secret (.bind "db" ".secret.db" ["web"]))

/-- The row of the selections cannot be written. -/
def failedStore : List Event :=
  bindSample :: List.replicate 7 (goOn 0 []) ++ [goOn 0 [.fail]]

/-- Another request sets the env file while the compose file is written. -/
def overtaken : List Event :=
  [bindSample, goOn 0 []] ++ .start (.other fun config => { config with envFileNames := [".env"] }) ::
    List.replicate 4 (goOn 1 []) ++ List.replicate 7 (goOn 0 [])

/-- A binding the compose file does not mention is taken back. -/
def unbindSample : List Event := .start (.secret (.unbind "db")) :: List.replicate 6 (goOn 0 [])

def sampleBinding : SecretBinding := { name := "db", fileName := ".secret.db", services := ["web"] }

/-- The next step of the call neither touches the compose file nor writes over another selection. -/
def harmless (host : Host Bytes) (state : State Bytes) (task : Task) : Bool :=
  match task.stage with
  | .writing _ _ _ _ => false
  | .cleaning _ _ => false
  | .setting loaded _ _ => decide (resolveConfig (state.disk.selections host.name) loaded.found = loaded.config)
  | _ => true

theorem notTorn_of_harmless {state : State Bytes} {call : Nat}
    (quiet : state.tasks.all (fun task => !task.stage.between) = true)
    (each : state.tasks.all (harmless sampleHost state) = true) : NotTorn sampleHost state (goOn call []) := by
  refine ⟨fun _ => by simpa [State.Quiet] using quiet, ?_⟩
  intro task found
  have held := List.all_eq_true.mp each task (List.mem_of_getElem? found)
  unfold harmless at held
  unfold Task.NotTorn
  split <;> simp_all [takesEffect]

end Dockge.StackSecrets
