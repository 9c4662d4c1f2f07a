import Dockge.Updater.Runs

namespace Dockge.Updater

open Dockge.Data

/-! Which recovery command goes through, for every journal that refuses an update. -/

variable {Data : Type} [DecidableEq Data]

/-- Left alone, one of the recovery commands goes through. -/
def Recoverable (site : Site) (host : Host Data) : Prop :=
  ∃ invocation ∈ [Invocation.rollback false, .rollback true, .resume],
    (invocation.task site [] host).ending.isDone = true

instance (site : Site) (host : Host Data) : Decidable (Recoverable site host) :=
  inferInstanceAs (Decidable (∃ invocation ∈ [Invocation.rollback false, .rollback true, .resume], _))

/-! ### Undisturbed runs -/

section
variable {op : Operation} {command : Command} {effect torn : Host Data → Host Data} {host : Host Data}
  {returned : Unit → Host Data → Prop}

omit [DecidableEq Data] in
theorem perform_returns (post : returned () ((effect host).note op command .ok)) :
    Returns (perform op command effect torn) host returned :=
  Returns.operation rfl post

omit [DecidableEq Data] in
theorem refuseIf_returns {text : Option String} (passed : text = none) (post : returned () host) :
    Returns (refuseIf text) host returned := by
  subst passed
  exact Returns.pure post

end

/-- The snapshot of the operation can replace the data, also where a restore of it began. -/
structure Restorable (site : Site) (op : Operation) (dataDir : Path) (host : Host Data) : Prop where
  allowed : validateRestore site dataDir = none
  snapshot : verifySnapshot host op.id = true
  resumes : host.data dataDir = none → (host.failed op.id).isSome ∧ (host.staged op.id).isSome

section
variable {site : Site} {op : Operation} {previous : Installed} {dataDir : Path} {host : Host Data}

theorem Restorable.note (restorable : Restorable site op dataDir host) (by' : Operation)
    (command : Command) (fate : Fate) : Restorable site op dataDir (host.note by' command fate) :=
  ⟨restorable.allowed, restorable.snapshot, restorable.resumes⟩

theorem Restorable.setJournal (restorable : Restorable site op dataDir host) (journal : Option Operation) :
    Restorable site op dataDir { host with journal } :=
  ⟨restorable.allowed, restorable.snapshot, restorable.resumes⟩

theorem checkRestore_returns (restorable : Restorable site op dataDir host)
    (verified : op.backupVerified = true) :
    Returns (checkRestore site op dataDir) host fun _ => Restorable site op dataDir := by
  unfold checkRestore
  refine Returns.bind (fun _ reached => host = reached) (refuseIf_returns (by simp [verified]) rfl) ?_
  rintro _ _ rfl
  refine Returns.bind (fun _ reached => host = reached) (refuseIf_returns restorable.allowed rfl) ?_
  rintro _ _ rfl
  refine Returns.bind (fun value reached => host = value ∧ host = reached) (Returns.look ⟨rfl, rfl⟩) ?_
  rintro _ _ ⟨rfl, rfl⟩
  refine Returns.bind (fun _ reached => host = reached)
    (refuseIf_returns (by simp [restorable.snapshot]) rfl) ?_
  rintro _ _ rfl
  exact perform_returns (restorable.note op .inspect .ok)

theorem restoreData_returns (restorable : Restorable site op dataDir host) :
    Returns (restoreData site op dataDir) host fun _ _ => True := by
  unfold restoreData
  refine Returns.bind (fun _ reached => host = reached) (refuseIf_returns restorable.allowed rfl) ?_
  rintro _ _ rfl
  refine Returns.bind (fun value reached => host = value ∧ host = reached) (Returns.look ⟨rfl, rfl⟩) ?_
  rintro _ _ ⟨rfl, rfl⟩
  refine Returns.bind (fun _ reached => host = reached)
    (refuseIf_returns (by simp [restorable.snapshot]) rfl) ?_
  rintro _ _ rfl
  -- Whichever part was done before, a copy is staged wherever the data is missing
  refine Returns.bind (fun _ reached => reached.data dataDir = none → (reached.staged op.id).isSome) ?_ ?_
  · refine Returns.onlyIf ?_ (fun _ gone => (restorable.resumes gone).2)
    intro unset
    have present : (host.data dataDir).isSome := by
      cases held : host.data dataDir with
      | some content => rfl
      | none =>
          have aside := (restorable.resumes held).1
          rw [← Option.not_isSome, aside] at unset
          cases unset
    refine Returns.bind (fun _ reached => reached.data = host.data ∧ reached.backup = host.backup) ?_ ?_
    · exact Returns.onlyIf (fun _ => perform_returns ⟨rfl, rfl⟩) fun _ => ⟨rfl, rfl⟩
    rintro _ cleared ⟨sameData, sameBackup⟩
    refine Returns.bind (fun _ reached => reached.data = host.data ∧ (reached.staged op.id).isSome) ?_ ?_
    · refine perform_returns ⟨sameData, ?_⟩
      simpa [Host.note, sameBackup] using verifySnapshot_backup restorable.snapshot
    rintro _ copied ⟨sameData, staged⟩
    refine Returns.bind (fun _ reached => copied = reached) ?_ ?_
    · refine Returns.onlyIf (fun missing => ?_) fun _ => rfl
      rw [← Option.not_isSome, present] at missing
      cases missing
    rintro _ _ rfl
    refine Returns.bind (fun _ reached => (reached.staged op.id).isSome) (perform_returns staged) ?_
    intro _ aside staged
    exact perform_returns fun _ => staged
  · intro _ host resumes
    refine Returns.bind (fun value reached => host = value ∧ host = reached) (Returns.look ⟨rfl, rfl⟩) ?_
    rintro _ _ ⟨rfl, rfl⟩
    refine Returns.onlyIf ?_ fun _ => trivial
    intro missing
    have staged := resumes (by simpa using missing)
    refine Returns.bind (fun _ _ => True) ?_ ?_
    · refine Returns.onlyIf (fun unstaged => ?_) fun _ => trivial
      rw [← Option.not_isSome, staged] at unstaged
      cases unstaged
    intro _ _ _
    refine Returns.bind (fun _ _ => True) (perform_returns trivial) ?_
    intro _ _ _
    exact perform_returns trivial

theorem restoreSnapshot_returns (restorable : Restorable site op dataDir host) :
    Returns (restoreSnapshot site op dataDir) host fun _ _ => True := by
  unfold restoreSnapshot
  refine Returns.bind (fun _ reached => host = reached) (refuseIf_returns restorable.allowed rfl) ?_
  rintro _ _ rfl
  refine Returns.bind (fun _ => Restorable site op dataDir)
    (perform_returns (restorable.note op .inspect .ok)) ?_
  intro _ host restorable
  refine Returns.orElse ?_
  refine Returns.bind (fun _ => Restorable site op dataDir)
    (perform_returns (restorable.note op .inspect .ok)) ?_
  intro _ host restorable
  refine Returns.bind _ (restoreData_returns restorable) ?_
  intro _ _ _
  exact perform_returns trivial

omit [DecidableEq Data] in
theorem rollbackPreparation_returns :
    Returns (rollbackPreparation op) host fun _ _ => True := by
  unfold rollbackPreparation
  refine Returns.bind (fun _ _ => True) (perform_returns trivial) ?_
  intro _ _ _
  exact perform_returns trivial

theorem rollbackRecorded_returns {restoreData : Bool}
    (must : (op.restoreData || mayHaveStarted op.phase && op.schemaChanged) = true → restoreData = true)
    (restorable : restoreData = true → op.backupVerified = true ∧ Restorable site op previous.dataDir host) :
    Returns (rollbackRecorded site op previous restoreData) host fun _ _ => True := by
  unfold rollbackRecorded
  refine Returns.bind (fun _ reached => restoreData = true → op.backupVerified = true ∧
    Restorable site op previous.dataDir reached)
    (perform_returns fun restores => ⟨(restorable restores).1, (restorable restores).2.note _ _ _⟩) ?_
  intro _ host restorable
  refine Returns.bind (fun _ reached => host = reached) (refuseIf_returns ?_ rfl) ?_
  · split
    · rename_i refused
      simp only [Bool.and_eq_true] at refused
      simp [must (by simpa using refused.1)] at refused
    · rfl
  rintro _ _ rfl
  refine Returns.bind (fun _ reached => restoreData = true → op.backupVerified = true ∧
    Restorable site op previous.dataDir reached)
    (perform_returns fun restores => ⟨(restorable restores).1, (restorable restores).2.note _ _ _⟩) ?_
  intro _ host restorable
  refine Returns.bind (fun _ reached => restoreData = true →
    Restorable site op previous.dataDir reached) ?_ ?_
  · refine Returns.onlyIf ?_ ?_
    · intro restores
      obtain ⟨verified, restorable⟩ := restorable restores
      obtain ⟨value, reached, ran, post⟩ := checkRestore_returns restorable verified
      exact ⟨value, reached, ran, fun _ => post⟩
    · intro without restores
      simp [without] at restores
  intro _ host restorable
  refine Returns.bind (fun _ reached => restoreData = true →
    Restorable site op previous.dataDir reached)
    (perform_returns fun restores => (restorable restores).note _ _ _) ?_
  intro _ host restorable
  -- From the record on, the restore is about the operation as recorded
  refine Returns.bind (fun _ reached => restoreData = true →
    Restorable site { op with restoreData, phase := .rollingBack } previous.dataDir reached)
    (perform_returns fun restores => ?_) ?_
  · obtain ⟨allowed, snapshot, resumes⟩ := restorable restores
    exact ⟨allowed, snapshot, resumes⟩
  intro _ host restorable
  refine Returns.bind (fun _ reached => restoreData = true →
    Restorable site { op with restoreData, phase := .rollingBack } previous.dataDir reached)
    (perform_returns fun restores => (restorable restores).note _ _ _) ?_
  intro _ host restorable
  refine Returns.bind (fun _ _ => True)
    (Returns.onlyIf (fun restores => restoreSnapshot_returns (restorable restores)) fun _ => trivial) ?_
  intro _ _ _
  refine Returns.bind (fun _ _ => True) (perform_returns trivial) ?_
  intro _ _ _
  refine Returns.bind (fun _ _ => True) (perform_returns trivial) ?_
  intro _ _ _
  refine Returns.bind (fun _ _ => True) (perform_returns trivial) ?_
  intro _ _ _
  exact perform_returns trivial

theorem resumeOperation_returns (held : host.journal = some op) (passed : resumeGuard host op = none)
    (snapshot : verifySnapshot host op.id = true) :
    Returns (resumeOperation site) host fun _ _ => True := by
  unfold resumeOperation
  refine Returns.bind (fun value reached => host = value ∧ host = reached) (Returns.look ⟨rfl, rfl⟩) ?_
  rintro _ _ ⟨rfl, rfl⟩
  simp only [held]
  refine Returns.bind (fun _ reached => host = reached) (refuseIf_returns passed rfl) ?_
  rintro _ _ rfl
  refine Returns.bind (fun _ reached => verifySnapshot reached op.id = true) (perform_returns snapshot) ?_
  intro _ host snapshot
  refine Returns.bind (fun value reached => host = value ∧ host = reached) (Returns.look ⟨rfl, rfl⟩) ?_
  rintro _ _ ⟨rfl, rfl⟩
  refine Returns.bind (fun _ _ => True) (refuseIf_returns (by simp [snapshot]) trivial) ?_
  intro _ _ _
  refine Returns.bind (fun _ _ => True) (perform_returns trivial) ?_
  intro _ _ _
  refine Returns.bind (fun _ _ => True) (perform_returns trivial) ?_
  intro _ _ _
  refine Returns.bind (fun _ _ => True) (perform_returns trivial) ?_
  intro _ _ _
  refine Returns.bind (fun _ _ => True) (Returns.orElse (perform_returns trivial)) ?_
  intro _ _ _
  refine Returns.bind (fun _ _ => True) (Returns.orElse (perform_returns trivial)) ?_
  intro _ _ _
  refine Returns.bind (fun _ _ => True)
    (Returns.onlyIf (fun _ => perform_returns trivial) fun _ => trivial) ?_
  intro _ _ _
  refine Returns.bind (fun _ _ => True) (perform_returns trivial) ?_
  intro _ _ _
  exact perform_returns trivial

end

/-! ### The command for each journal -/

section
variable {site : Site} {op : Operation} {host : Host Data}

theorem Consistent.restorable {previous : Installed} (consistent : Consistent site host)
    (held : host.journal = some op) (same : op.previous = some previous) (restores : op.restoreData = true) :
    Restorable site op previous.dataDir host where
  allowed := (consistent.journal op held).restorable previous same restores
  snapshot := (consistent.journal op held).snapshot ((consistent.journal op held).restoresVerified restores)
  resumes := by
    intro gone
    obtain ⟨id, found, _, foundHeld, rfl, _, _, _, _, _, aside, staged⟩ := consistent.missing _ gone
    rw [held] at foundHeld
    cases foundHeld
    exact ⟨aside, staged⟩

theorem Consistent.rollback_returns (consistent : Consistent site host) (held : host.journal = some op)
    (pending : op.phase.admitsUpdate = false) (cutover : op.phase ≠ .prepared ∧ op.phase ≠ .downloaded)
    (must : op.restoreData = false → (mayHaveStarted op.phase && op.schemaChanged) = false) :
    Returns (rollback site op.restoreData) host fun _ _ => True := by
  have recorded := consistent.journal op held
  obtain ⟨previous, same⟩ := Option.isSome_iff_exists.mp recorded.hasPrevious
  have valid : validateOperation op = none := by
    rcases recorded.valid with phase | phase | valid
    · exact absurd phase cutover.1
    · simp [phase, Phase.admitsUpdate] at pending
    · exact valid
  unfold rollback
  refine Returns.bind (fun value reached => host = value ∧ host = reached) (Returns.look ⟨rfl, rfl⟩) ?_
  rintro _ _ ⟨rfl, rfl⟩
  simp only [held, pending, Bool.false_eq_true, if_false]
  rw [if_neg (by simp [cutover])]
  simp only [valid, same]
  refine rollbackRecorded_returns ?_ ?_
  · cases restores : op.restoreData with
    | true => exact fun _ => rfl
    | false => simp [must restores]
  · intro restores
    exact ⟨recorded.restoresVerified restores, consistent.restorable held same restores⟩

theorem preparation_returns (held : host.journal = some op)
    (phase : op.phase = .prepared ∨ op.phase = .downloaded) :
    Returns (rollback site false) host fun _ _ => True := by
  unfold rollback
  refine Returns.bind (fun value reached => host = value ∧ host = reached) (Returns.look ⟨rfl, rfl⟩) ?_
  rintro _ _ ⟨rfl, rfl⟩
  have pending : op.phase.admitsUpdate = false := by
    rcases phase with phase | phase <;> simp [phase, Phase.admitsUpdate]
  simp only [held, pending, Bool.false_eq_true, if_false]
  rw [if_pos phase]
  exact rollbackPreparation_returns

theorem Consistent.resumes (consistent : Consistent site host) (held : host.journal = some op)
    (resumable : op.Resumable) (verified : op.backupVerified = true) :
    Returns (resumeOperation site) host fun _ _ => True := by
  have recorded := consistent.journal op held
  have unfailed := consistent.journalUnfailed op held resumable
  obtain ⟨previous, same⟩ := Option.isSome_iff_exists.mp recorded.hasPrevious
  have phases : op.phase = .startingTarget ∨ op.phase = .checkingTarget ∨ op.phase = .recoveryRequired := by
    rcases resumable with (phase | phase) | ⟨phase, _⟩ <;> simp [phase]
  have plain : op.restoreData = false := by
    rcases resumable with starting | ⟨_, plain⟩
    · cases restores : op.restoreData with
      | false => rfl
      | true =>
          rcases starting with phase | phase <;> simpa [phase] using recorded.restoring restores
    · exact plain
  have valid : validateDeployments previous op.target = none := by
    rcases recorded.valid with phase | phase | valid
    · simp [phase] at phases
    · simp [phase] at phases
    · simpa [validateOperation, same] using valid
  have target : digestPattern op.target.imageId = true ∧ versionPattern op.target.version = true := by
    unfold validateDeployments at valid
    split at valid
    · cases valid
    · rename_i installed
      simp only [Bool.not_eq_true, Bool.not_eq_false', Bool.and_eq_true, validInstalled] at installed
      exact ⟨installed.2.1.1.1, installed.2.1.1.2⟩
  refine resumeOperation_returns held ?_ (recorded.snapshot verified)
  unfold resumeGuard
  rcases phases with phase | phase | phase <;>
    simp [phase, target, same, plain, unfailed, verified]

/-- Every journal that refuses an update and is not wedged has a recovery command that goes
through. -/
theorem Consistent.recoverable (consistent : Consistent site host) (held : host.journal = some op)
    (pending : op.phase.admitsUpdate = false) (unwedged : ¬ op.Wedged) : Recoverable site host := by
  have recorded := consistent.journal op held
  have rolls (restoreData : Bool) (returns : Returns (rollback site restoreData) host fun _ _ => True) :
      Recoverable site host := by
    refine ⟨.rollback restoreData, ?_, returns.isDone⟩
    cases restoreData <;> simp
  have resumes (returns : Returns (resumeOperation site) host fun _ _ => True) : Recoverable site host :=
    ⟨.resume, by simp, returns.isDone⟩
  cases phase : op.phase with
  | prepared => exact rolls _ (preparation_returns held (.inl phase))
  | downloaded => exact rolls _ (preparation_returns held (.inr phase))
  | stopping | backingUp =>
      exact rolls _ (consistent.rollback_returns held pending (by simp [phase])
        fun _ => by simp [phase, mayHaveStarted])
  | startingTarget => exact resumes (consistent.resumes held (.inl (.inl phase)) (recorded.verified (.inl phase)))
  | checkingTarget => exact resumes (consistent.resumes held (.inl (.inr phase)) (recorded.verified (.inr phase)))
  | rollingBack =>
      refine rolls _ (consistent.rollback_returns held pending (by simp [phase]) ?_)
      intro plain
      have unchanged : op.schemaChanged = false := by
        by_contra changed
        exact unwedged ⟨by simpa using changed, .inl ⟨phase, plain⟩⟩
      simp [unchanged]
  | recoveryRequired =>
      cases verified : op.backupVerified with
      | true =>
          cases restores : op.restoreData with
          | true => exact rolls _ (consistent.rollback_returns held pending (by simp [phase]) (by simp [restores]))
          | false => exact resumes (consistent.resumes held (.inr ⟨phase, restores⟩) verified)
      | false =>
          refine rolls _ (consistent.rollback_returns held pending (by simp [phase]) ?_)
          intro _
          have unchanged : op.schemaChanged = false := by
            by_contra changed
            exact unwedged ⟨by simpa using changed, .inr ⟨phase, verified⟩⟩
          simp [unchanged]
  | success | failedBeforeCutover | recovered => simp [phase, Phase.admitsUpdate] at pending

end

/-! ### Histories -/

/-- What the run asked for. -/
def entriesOf (site : Site) (host : Host Data) (run : UpdaterRun) : List Entry :=
  (runUpdater site host run).log.drop host.log.length

theorem history_unwedged {site : Site} {start : Host Data} {history : List UpdaterRun}
    (consistent : Consistent site start) (unwedged : ∀ op, start.journal = some op → ¬ op.Wedged)
    (spared : Along (runUpdater site) (fun host run => ¬ Excused (entriesOf site host run)) start history) :
    Consistent site (replay (runUpdater site) start history) ∧
      ∀ op, (replay (runUpdater site) start history).journal = some op → ¬ op.Wedged := by
  refine spared.invariant (motive := fun host => Consistent site host ∧
    ∀ op, host.journal = some op → ¬ op.Wedged) ⟨consistent, unwedged⟩ ?_
  rintro host run ⟨consistent, unwedged⟩ spared
  have ended := runUpdater_ended run consistent
  exact ⟨ended.consistent, fun op held wedged => spared (ended.wedged unwedged op held wedged)⟩

/-- No journal that refuses an update is without a way out, over every history of runs of which
none records that the operator is needed after the previous version failed on an unverified
snapshot, and none leaves a rollback it recorded without the data behind. -/
theorem pending_recoverable (site : Site) (data : Path → Data) (active : Option Installed)
    (history : List UpdaterRun)
    (spared : Along (runUpdater site) (fun host run => ¬ Excused (entriesOf site host run))
      (Host.initial data active) history)
    (op : Operation) (held : (replay (runUpdater site) (Host.initial data active) history).journal = some op)
    (pending : op.phase.admitsUpdate = false) :
    Recoverable site (replay (runUpdater site) (Host.initial data active) history) := by
  obtain ⟨consistent, unwedged⟩ := history_unwedged (Consistent.initial site data active)
    (by simp [Host.initial]) spared
  exact consistent.recoverable held pending (unwedged op held)

/-! An update whose schemas differ, on the installation of one data directory. -/

def sampleSite : Site := ⟨["opt", "dockge2"]⟩

def sampleInstalled (version : String) (schema image : Char) : Installed :=
  { version
    schema := String.ofList (List.replicate 64 schema)
    imageId := "sha256:" ++ String.ofList (List.replicate 64 image)
    project := "dockge"
    dataDir := ["opt", "data"]
    mode := .release }

def samplePlan : Plan :=
  { previous := sampleInstalled "0.0.13" 'a' '1'
    target := sampleInstalled "0.0.14" 'b' '2'
    unchanged := false
    valid := by decide +kernel }

def sampleHost : Host String := Host.initial (fun _ => "data") none

instance (fresh : List Entry) : Decidable (Excused fresh) := by
  unfold Excused FailedBeforeSnapshot RecoveryRecorded UnverifiedRollback Missed
  infer_instance

/-- Stopped while it copies the data, the update leaves a journal that can be rolled back. -/
theorem pending_recoverable_backingUp :
    Recoverable sampleSite (replay (runUpdater sampleSite) sampleHost
      [⟨.update samplePlan false, List.replicate 13 .ok ++ [.kill]⟩]) := by
  have backingUp : ((replay (runUpdater sampleSite) sampleHost
      [⟨.update samplePlan false, List.replicate 13 .ok ++ [.kill]⟩]).journal.any
        fun op => op.phase = .backingUp) = true := by decide +kernel
  obtain ⟨op, held, phase⟩ := (Option.any_eq_true _ _).mp backingUp
  exact pending_recoverable sampleSite (fun _ => "data") none _ ⟨by decide +kernel, trivial⟩ op held
    (by simp [of_decide_eq_true phase, Phase.admitsUpdate])

/-- The text an ending refuses with. -/
def refusal {α : Type} : Ending UpdateError α → Option String
  | .threw (.refused text) => some text
  | _ => none

/-- The panel did not stop and the start of the previous version failed in the recovery: the
journal asks for the operator, and every recovery command refuses it. -/
theorem stopping_wedged :
    let host := replay (runUpdater sampleSite) sampleHost
      [⟨.update samplePlan false, List.replicate 10 .ok ++ [.fail, .fail]⟩]
    host.journal.map (·.phase) = some .recoveryRequired ∧ ¬ Recoverable sampleSite host ∧
      refusal (Invocation.task sampleSite (.rollback false) [] host).ending = some schemaChangedText ∧
      refusal (Invocation.task sampleSite (.rollback true) [] host).ending =
        some "no verified data snapshot" ∧
      refusal (Invocation.task sampleSite .resume [] host).ending =
        some "backup did not complete; use --rollback to recover before retrying" := by
  decide +kernel

end Dockge.Updater
