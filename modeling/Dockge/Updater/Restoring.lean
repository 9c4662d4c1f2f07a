import Dockge.Updater.Invariant

namespace Dockge.Updater

open Dockge.Data

/-! A restore, run after run, until the copy of the snapshot is in place. -/

variable {Data : Type}

section
variable {op : Operation} {command : Command} {effect torn : Host Data → Host Data}
  {host : Host Data} {threw : UpdateError → Host Data → Prop} {stopped : Host Data → Prop}

theorem perform_ensures {returned : Unit → Host Data → Prop}
    (done : returned () ((effect host).note op command .ok))
    (late : ∀ error, threw error ((effect host).note op command .late))
    (failed : ∀ error, threw error ((torn host).note op command .fail))
    (killed : stopped ((torn host).note op command .kill)) :
    Ensures Fate.Any (perform op command effect torn) host returned threw stopped := by
  refine Ensures.operation trivial ?_
  intro fate _
  cases fate with
  | ok => exact done
  | fail => exact failed _
  | late => exact late _
  | kill => exact killed

/-- Asking for something without an effect on the host keeps what no entry of it can break. -/
theorem perform_keeps {Holds : Host Data → Prop} (each : ∀ fate, Holds (host.note op command fate)) :
    Ensures Fate.Any (perform op command) host (fun _ => Holds) (fun _ => Holds) Holds :=
  perform_ensures (each .ok) (fun _ => each .late) (fun _ => each .fail) (each .kill)

theorem refuseIf_ensures {text : Option String} {returned : Unit → Host Data → Prop}
    (passed : text = none → returned () host) (refused : ∀ error, threw error host) :
    Ensures Fate.Any (refuseIf text) host returned threw stopped := by
  cases text with
  | none => exact Ensures.pure (passed rfl)
  | some text => exact Ensures.fail (refused _)

end

variable [DecidableEq Data]

/-- The journal shows that this operation restores the data. -/
structure Restoring (site : Site) (start : Nat) (op : Operation) (previous : Installed)
    (host : Host Data) : Prop where
  consistent : Consistent site host
  grown : start ≤ host.log.length
  journal : host.journal = some op
  rolling : op.phase = .rollingBack
  restores : op.restoreData = true
  previous : op.previous = some previous

section
variable {site : Site} {start : Nat} {op : Operation} {previous : Installed} {host : Host Data}

theorem Restoring.note (restoring : Restoring site start op previous host) (command : Command)
    (fate : Fate) (inert : ∀ side, command ≠ .up side) :
    Restoring site start op previous (host.note op command fate) :=
  { restoring with
    consistent := restoring.consistent.note op command fate inert
    grown := grown_note restoring.grown }

/-- An unfinished restore is the one the journal shows. -/
theorem Restoring.unfinished {id : Nat} {path : Path} (restoring : Restoring site start op previous host)
    (unfinished : Unfinished host id path) :
    id = op.id ∧ path = previous.dataDir ∧ host.data previous.dataDir = none ∧
      (host.failed op.id).isSome ∧ (host.staged op.id).isSome := by
  obtain ⟨found, recorded, held, rfl, _, _, same, rfl, gone, aside, staged⟩ := unfinished
  rw [restoring.journal] at held
  cases held
  rw [restoring.previous] at same
  cases same
  exact ⟨rfl, rfl, gone, aside, staged⟩

theorem Restoring.settled (restoring : Restoring site start op previous host)
    (back : host.data previous.dataDir ≠ none) : Settled host :=
  fun _ _ unfinished => back (restoring.unfinished unfinished).2.2.1

/-- Where the data is in place after it was set aside, the copy was put there. -/
theorem Restoring.placed (restoring : Restoring site start op previous host)
    (aside : (host.failed op.id).isSome) (back : host.data previous.dataDir ≠ none) :
    SinceTarget host.log op.id CopyPlaced := by
  rcases restoring.consistent.setAside op.id aside with placed | ⟨path, unfinished⟩
  · exact placed
  · exact absurd unfinished (restoring.settled back op.id path)

/-- Before the data is set aside the staged copy is nobody's. -/
theorem Restoring.setStaged (restoring : Restoring site start op previous host)
    (unset : host.failed op.id = none) (staged : Option (Content Data)) :
    Restoring site start op previous { host with staged := Function.update host.staged op.id staged } := by
  have impossible : ∀ id path, ¬ Unfinished host id path := by
    intro id path unfinished
    have aside := (restoring.unfinished unfinished).2.2.2.1
    simp [unset] at aside
  have consistent := restoring.consistent
  refine { restoring with consistent := ?_ }
  constructor
  case safe => exact consistent.safe
  case startedBelow => exact consistent.startedBelow
  case failedBelow => exact consistent.failedBelow
  case journal =>
    intro found held
    exact (consistent.journal found held).frame (Nat.le_refl _) .inl (fun _ => id)
  case journalUnfailed => exact consistent.journalUnfailed
  case previous =>
    intro found held
    obtain ⟨recorded, starting⟩ := consistent.previous found held
    exact ⟨recorded.frame (Nat.le_refl _) .inl (fun _ => id), starting⟩
  case setAside =>
    intro id aside
    rcases consistent.setAside id aside with placed | ⟨path, unfinished⟩
    · exact .inl placed
    · exact absurd unfinished (impossible id path)
  case missing =>
    intro path gone
    obtain ⟨id, unfinished⟩ := consistent.missing path gone
    exact absurd unfinished (impossible id path)

/-- The data goes to the failed directory: from here on the restore has to be finished. -/
theorem Restoring.setAside (restoring : Restoring site start op previous host)
    (present : (host.data previous.dataDir).isSome)
    (staged : (host.staged op.id).isSome) :
    Restoring site start op previous { host with
      failed := Function.update host.failed op.id (host.data previous.dataDir)
      data := Function.update host.data previous.dataDir none } := by
  have consistent := restoring.consistent
  refine { restoring with consistent := ?_ }
  have unfinished : Unfinished { host with
      failed := Function.update host.failed op.id (host.data previous.dataDir)
      data := Function.update host.data previous.dataDir none } op.id previous.dataDir :=
    ⟨op, previous, restoring.journal, rfl, restoring.restores, .inl restoring.rolling,
      restoring.previous, rfl, by simp, by simpa using present, staged⟩
  constructor
  case safe => exact consistent.safe
  case startedBelow => exact consistent.startedBelow
  case failedBelow =>
    intro id aside
    by_cases same : id = op.id
    · rw [same]
      exact (consistent.journal op restoring.journal).below
    · exact consistent.failedBelow id (by simpa [Function.update_of_ne same] using aside)
  case journal =>
    intro found held
    exact (consistent.journal found held).frame (Nat.le_refl _) .inl (fun _ => id)
  case journalUnfailed =>
    intro found held resumable
    have same : found = op := Option.some.inj (held.symm.trans restoring.journal)
    rw [same] at resumable
    rcases resumable with (phase | phase) | ⟨phase, _⟩ <;> simp [restoring.rolling] at phase
  case previous =>
    intro found held
    obtain ⟨recorded, starting⟩ := consistent.previous found held
    exact ⟨recorded.frame (Nat.le_refl _) .inl (fun _ => id), starting⟩
  case setAside =>
    intro id aside
    by_cases same : id = op.id
    · exact .inr ⟨previous.dataDir, by rw [same]; exact unfinished⟩
    · rcases consistent.setAside id (by simpa [Function.update_of_ne same] using aside) with
        placed | ⟨path, other⟩
      · exact .inl placed
      · exact absurd (restoring.unfinished other).1 same
  case missing =>
    intro path gone
    by_cases same : path = previous.dataDir
    · exact ⟨op.id, by rw [same]; exact unfinished⟩
    · obtain ⟨id, other⟩ := consistent.missing path (by simpa [Function.update_of_ne same] using gone)
      exact absurd (restoring.unfinished other).2.1 same

/-- The staged copy becomes the data: the restore is finished. -/
theorem Restoring.place (restoring : Restoring site start op previous host)
    (staged : (host.staged op.id).isSome) {fate : Fate} (took : fate = .ok ∨ fate = .late) :
    Restoring site start op previous (({ host with
      data := Function.update host.data previous.dataDir (host.staged op.id)
      staged := Function.update host.staged op.id none }).note op .place fate) := by
  have consistent := restoring.consistent
  refine { restoring with
    consistent := ?_
    grown := (restoring.note .place fate (by simp)).grown }
  have placed : SinceTarget (host.log ++ [⟨op, .place, fate⟩]) op.id CopyPlaced :=
    sinceTarget_last ⟨op, .place, fate⟩ ⟨rfl, took⟩ (by simp)
  have noted := consistent.note op .place fate (by simp)
  constructor
  case safe => exact noted.safe
  case startedBelow => exact noted.startedBelow
  case failedBelow => exact noted.failedBelow
  case journal =>
    intro found held
    exact (noted.journal found held).frame (Nat.le_refl _) .inl (fun _ => id)
  case journalUnfailed => exact noted.journalUnfailed
  case previous =>
    intro found held
    obtain ⟨recorded, starting⟩ := noted.previous found held
    exact ⟨recorded.frame (Nat.le_refl _) .inl (fun _ => id), starting⟩
  case setAside =>
    intro id aside
    by_cases same : id = op.id
    · rw [same]
      exact .inl placed
    · rcases noted.setAside id aside with before | ⟨path, other⟩
      · exact .inl before
      · exact absurd ((restoring.note .place fate (by simp)).unfinished other).1 same
  case missing =>
    intro path gone
    by_cases same : path = previous.dataDir
    · rw [same] at gone
      simp only [Host.note, Function.update_self] at gone
      simp [gone] at staged
    · have before : host.data path = none := by
        simpa [Host.note, Function.update_of_ne same] using gone
      obtain ⟨id, other⟩ := consistent.missing path before
      exact absurd (restoring.unfinished other).2.1 same

/-- The restore that returned: the data is back, and was put there since the target started. -/
structure Back (site : Site) (start : Nat) (op : Operation) (previous : Installed) (host : Host Data) :
    Prop where
  restoring : Restoring site start op previous host
  present : host.data previous.dataDir ≠ none
  placed : SinceTarget host.log op.id CopyPlaced

theorem Back.note (back : Back site start op previous host) (command : Command) (fate : Fate)
    (inert : ∀ side, command ≠ .up side) :
    Back site start op previous (host.note op command fate) where
  restoring := back.restoring.note command fate inert
  present := back.present
  placed := back.placed.snoc fun last => inert .target last.2

theorem verifySnapshot_backup (verified : verifySnapshot host op.id = true) :
    (host.backup op.id).isSome := by
  unfold verifySnapshot at verified
  cases held : host.backup op.id with
  | none =>
      rw [held] at verified
      split at verified <;> simp_all
  | some content => rfl

theorem restoreData_ensures (restoring : Restoring site start op previous host) :
    Ensures Fate.Any (restoreData site op previous.dataDir) host (fun _ => Back site start op previous)
      (fun _ => Restoring site start op previous) (Restoring site start op previous) := by
  unfold restoreData
  refine Ensures.bind (fun _ reached => host = reached)
    (refuseIf_ensures (fun _ => rfl) fun _ => restoring) ?_
  rintro _ _ rfl
  refine Ensures.bind (fun value reached => host = value ∧ host = reached)
    (Ensures.look ⟨rfl, rfl⟩) ?_
  rintro _ _ ⟨rfl, rfl⟩
  refine Ensures.bind (fun _ reached => host = reached ∧ verifySnapshot host op.id = true)
    (refuseIf_ensures (fun passed => ⟨rfl, by simpa using passed⟩) fun _ => restoring) ?_
  rintro _ _ ⟨rfl, verified⟩
  -- After the first part the data was set aside, in this run or before
  refine Ensures.bind (fun _ reached => Restoring site start op previous reached ∧
    (reached.failed op.id).isSome) ?_ ?_
  · refine Ensures.onlyIf ?_ ?_
    · intro isNone
      have unset : host.failed op.id = none := by simpa using isNone
      refine Ensures.bind (fun _ reached => Restoring site start op previous reached ∧
        reached.failed op.id = none ∧ reached.backup = host.backup ∧ reached.data = host.data) ?_ ?_
      · refine Ensures.onlyIf ?_ (fun _ => ⟨restoring, unset, rfl, rfl⟩)
        intro _
        have noted (staged fate) := (restoring.setStaged unset staged).note .clearStaged fate (by simp)
        exact perform_ensures ⟨noted _ _, unset, rfl, rfl⟩ (fun _ => noted _ _) (fun _ => noted _ _)
          (noted _ _)
      · rintro _ cleared ⟨restoring, unset, sameBackup, sameData⟩
        refine Ensures.bind (fun _ reached => Restoring site start op previous reached ∧
          reached.failed op.id = none ∧ reached.data = host.data ∧ (reached.staged op.id).isSome) ?_ ?_
        · have noted (staged fate) := (restoring.setStaged unset staged).note .copyStaged fate (by simp)
          refine perform_ensures ⟨noted _ _, unset, sameData, ?_⟩ (fun _ => noted _ _)
            (fun _ => noted _ _) (noted _ _)
          simpa [Host.note, sameBackup] using verifySnapshot_backup verified
        · rintro _ copied ⟨restoring, unset, sameData, staged⟩
          refine Ensures.bind (fun _ reached => copied = reached ∧
            (host.data previous.dataDir).isSome) ?_ ?_
          · refine Ensures.onlyIf (fun _ => Ensures.fail restoring) ?_
            intro found
            exact ⟨rfl, by simpa using found⟩
          · rintro _ _ ⟨rfl, present⟩
            refine Ensures.bind (fun _ reached => Restoring site start op previous reached ∧
              (reached.failed op.id).isSome) ?_ ?_
            · rw [← sameData] at present
              have noted (fate) := (restoring.setAside present staged).note .setAside fate (by simp)
              have kept (fate) := restoring.note .setAside fate (by simp)
              refine perform_ensures ⟨noted _, ?_⟩ (fun _ => noted _) (fun _ => kept _) (kept _)
              simpa [Host.note] using present
            · rintro _ aside ⟨restoring, set⟩
              have noted (fate) := restoring.note .syncDir fate (by simp)
              exact perform_ensures ⟨noted _, set⟩ (fun _ => noted _) (fun _ => noted _) (noted _)
    · intro isSome
      exact ⟨restoring, by simpa [Option.isSome_iff_ne_none] using isSome⟩
  · rintro _ aside ⟨restoring, set⟩
    refine Ensures.bind (fun value reached => aside = value ∧ aside = reached)
      (Ensures.look ⟨rfl, rfl⟩) ?_
    rintro _ _ ⟨rfl, rfl⟩
    refine Ensures.onlyIf ?_ ?_
    · intro _
      refine Ensures.bind (fun _ reached => aside = reached ∧ (aside.staged op.id).isSome) ?_ ?_
      · refine Ensures.onlyIf (fun _ => Ensures.fail restoring) ?_
        intro found
        exact ⟨rfl, by simpa using found⟩
      · rintro _ _ ⟨rfl, staged⟩
        refine Ensures.bind (fun _ => Back site start op previous) ?_ ?_
        · have took {fate} (took : fate = Fate.ok ∨ fate = .late) := restoring.place staged took
          have kept (fate) := restoring.note .place fate (by simp)
          refine perform_ensures ⟨took (.inl rfl), ?_, ?_⟩ (fun _ => took (.inr rfl)) (fun _ => kept _)
            (kept _)
          · simpa [Host.note, Option.isSome_iff_ne_none] using staged
          · exact sinceTarget_last ⟨op, .place, .ok⟩ ⟨rfl, .inl rfl⟩ (by simp)
        · intro _ placed back
          have noted (fate) := back.note .syncDir fate (by simp)
          exact perform_ensures (noted _) (fun _ => (noted _).restoring) (fun _ => (noted _).restoring)
            (noted _).restoring
    · intro found
      have present : aside.data previous.dataDir ≠ none := by
        simpa [Option.isSome_iff_ne_none] using found
      exact ⟨restoring, present, restoring.placed set present⟩

/-- The container that restores: where it returns, its run completed since the target started. -/
theorem restoreSnapshot_ensures (restoring : Restoring site start op previous host) :
    Ensures Fate.Any (restoreSnapshot site op previous.dataDir) host
      (fun _ reached => Back site start op previous reached ∧ SinceTarget reached.log op.id RestoreCompleted)
      (fun _ => Restoring site start op previous) (Restoring site start op previous) := by
  unfold restoreSnapshot
  refine Ensures.bind (fun _ => Restoring site start op previous)
    (refuseIf_ensures (fun _ => restoring) fun _ => restoring) ?_
  intro _ host restoring
  have noted {host : Host Data} {command : Command} (restoring : Restoring site start op previous host)
      (inert : ∀ side, command ≠ .up side) :
      Ensures Fate.Any (perform op command) host (fun _ => Restoring site start op previous)
        (fun _ => Restoring site start op previous) (Restoring site start op previous) :=
    perform_keeps fun fate => restoring.note command fate inert
  refine Ensures.bind _ (noted restoring (by simp)) ?_
  intro _ host restoring
  refine Ensures.orElse (fun _ => Restoring site start op previous) ?_ ?_
  · refine Ensures.bind _ (noted restoring (by simp)) ?_
    intro _ host restoring
    refine Ensures.bind _ (restoreData_ensures restoring) ?_
    intro _ host back
    have kept (fate) := back.note .restore fate (by simp)
    refine perform_ensures ⟨kept _, ?_⟩ (fun _ => (kept _).restoring) (fun _ => (kept _).restoring)
      (kept _).restoring
    exact sinceTarget_last ⟨op, .restore, .ok⟩ ⟨rfl, rfl⟩ (by simp)
  · intro error host restoring
    refine Ensures.bind (fun _ => Restoring site start op previous)
      (Ensures.attempt (noted restoring (by simp))) ?_
    intro answer host restoring
    cases answer with
    | ok _ => exact Ensures.fail restoring
    | error _ => exact Ensures.fail restoring

end

end Dockge.Updater
