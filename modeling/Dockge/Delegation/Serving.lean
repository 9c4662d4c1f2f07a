import Dockge.Delegation.Authority
import Dockge.Delegation.Router

namespace Dockge.Delegation

open Dockge.Data Dockge.Mcp

/-! What holds of the panels whenever one of them serves a call.

The invariant is about the log: every call in it is accounted for by what was logged before it.
A task keeps what it logged itself in view while the other tasks add entries of their own.
-/

/-- The log behind a call: the request arrived and claimed its nonce, the configuration was read
again, and then the peer confirmed. -/
structure Behind {Body : Type} (library : Library Body) (call : Call) (fresh : DelegationConfig)
    (trust : DelegationPeer) (past : List Entry) : Prop where
  /-- Nothing was read again between the last look at the configuration and the call. -/
  looked : ∃ middle since before, past = middle ++ .looked call.task call.url (some fresh) ::
      (since ++ .arrived call.task call.url :: before) ∧
    (∀ url config, .looked call.task url config ∉ middle) ∧
    (∃ address identity, library.peerURL trust.url = some address ∧
      .confirmed call.task address call.assertion.issuer call.assertion identity ∈ middle ∧
      StillHolds call.assertion identity) ∧
    ∀ operation, call.target = some operation → .targeted call.task call.url
      (library.delegatedSubjectId call.assertion.issuer call.assertion.identity.keyId) operation ∈ since
  known : trust ∈ fresh.peers
  issuer : trust.id = call.assertion.issuer
  audience : fresh.serverId = call.assertion.audience
  authority : Authority call.assertion call.target trust call.arguments
  handsOver : HandsOver call.assertion call.identity

/-- The request of a call is the first that claimed its nonce, and calls once. -/
def FirstClaim (call : Call) (past : List Entry) : Prop :=
  ∃ since earlier, past = since ++ .claimed call.task call.url call.assertion.issuer (.read call.assertion) :: earlier ∧
    (∀ other, .claimed other call.url call.assertion.issuer (.read call.assertion) ∉ earlier) ∧
    ∀ later, .called later ∈ since → later.task ≠ call.task

structure World.Sound {Body : Type} (library : Library Body) (world : World) : Prop where
  behind : ∀ later call past, world.log = later ++ .called call :: past →
    (∃ fresh trust, Behind library call fresh trust past) ∧ FirstClaim call past
  remembered : ∀ task url peerId envelope, .claimed task url peerId envelope ∈ world.log →
    (nonceOf peerId envelope.requestId, envelope.expiresAt) ∈ (world.panels url).seen ∨
      envelope.expiresAt ≤ (world.panels url).now
  late : ∀ later task url peerId envelope earlier, world.log = later ++ .claimed task url peerId envelope :: earlier →
    ∀ other, .claimed other url peerId envelope ∈ earlier → envelope.expiresAt ≤ (world.panels url).now

/-- The log grows, by entries of such tasks. -/
def World.Grows (tasks : Nat → Prop) (before after : World) : Prop :=
  ∃ new, after.log = new ++ before.log ∧ ∀ entry ∈ new, tasks entry.task

theorem World.Grows.refl {tasks : Nat → Prop} (world : World) : world.Grows tasks world :=
  ⟨[], rfl, by simp⟩

theorem World.Grows.trans {tasks : Nat → Prop} {first second third : World} (lower : first.Grows tasks second)
    (upper : second.Grows tasks third) : first.Grows tasks third := by
  obtain ⟨new, grown, mine⟩ := lower
  obtain ⟨newer, grown', mine'⟩ := upper
  refine ⟨newer ++ new, by rw [grown', grown, List.append_assoc], ?_⟩
  intro entry member
  rcases List.mem_append.mp member with member | member
  · exact mine' entry member
  · exact mine entry member

section
variable {Body : Type} (library : Library Body)

def delegationProtocol : Protocol World where
  sound := World.Sound library
  own := fun task before after => after.Sound library ∧ before.Grows (· = task) after
  others := fun task => World.Grows (· ≠ task)
  refl := fun _ => World.Grows.refl
  trans := fun _ _ _ _ => World.Grows.trans
  kept := fun _ _ _ _ own => own.1
  expected := by
    intro task other before after different _ own
    obtain ⟨_, new, grown, mine⟩ := own
    exact ⟨new, grown, fun entry member same => different ((mine entry member).symm.trans same)⟩

end

/-- What a task logs while it waits for a peer. -/
def Entry.Passive : Entry → Prop
  | claimed .. | confirmed .. => True
  | _ => False

/-- What holds of the log still holds when the others go on, and when the task waits for a peer. -/
def Lasting (task : Nat) (Kept : List Entry → Prop) : Prop :=
  ∀ entry log, (entry.task = task → entry.Passive) → Kept log → Kept (entry :: log)

theorem lasting_true (task : Nat) : Lasting task fun _ => True := fun _ _ _ _ => trivial

theorem Lasting.and {task : Nat} {Kept Also : List Entry → Prop} (kept : Lasting task Kept)
    (also : Lasting task Also) : Lasting task fun log => Kept log ∧ Also log :=
  fun entry log passive both => ⟨kept entry log passive both.1, also entry log passive both.2⟩

theorem Lasting.others {task : Nat} {Kept : List Entry → Prop} {before after : World} (lasting : Lasting task Kept)
    (passed : before.Grows (· ≠ task) after) (kept : Kept before.log) : Kept after.log := by
  obtain ⟨new, grown, foreign⟩ := passed
  rw [grown]
  clear grown
  induction new with
  | nil => exact kept
  | cons entry rest ih =>
      apply lasting
      · exact fun same => absurd same (foreign entry List.mem_cons_self)
      · exact ih fun other member => foreign other (List.mem_cons_of_mem _ member)

section
variable {Body : Type} {library : Library Body} {task : Nat} {url : String} {world after : World}
  {Kept : List Entry → Prop}

/-! ### Single steps -/

/-- A step that logs nothing and forgets no nonce. -/
theorem World.Sound.quiet (sound : world.Sound library) (log : after.log = world.log)
    (seen : ∀ url, (after.panels url).seen = (world.panels url).seen)
    (now : ∀ url, (world.panels url).now ≤ (after.panels url).now) : after.Sound library where
  behind := log ▸ sound.behind
  remembered := by
    intro task url peerId envelope member
    rw [log] at member
    rw [seen]
    exact (sound.remembered task url peerId envelope member).imp_right fun late => Int.le_trans late (now url)
  late := by
    intro later task url peerId envelope earlier split other member
    rw [log] at split
    exact Int.le_trans (sound.late later task url peerId envelope earlier split other member) (now url)

theorem World.Sound.setPanel {panel : Panel} (sound : world.Sound library)
    (seen : panel.seen = (world.panels url).seen) (now : (world.panels url).now ≤ panel.now) :
    (world.setPanel url panel).Sound library := by
  have log : (world.setPanel url panel).log = world.log := rfl
  apply sound.quiet log
  · intro other
    by_cases same : other = url
    · subst same
      simpa [World.setPanel] using seen
    · simp [World.setPanel, same]
  · intro other
    by_cases same : other = url
    · subst same
      simpa [World.setPanel] using now
    · simp [World.setPanel, same]

theorem World.Sound.note {entry : Entry} (sound : world.Sound library)
    (calls : ∀ call, entry = .called call →
      (∃ fresh trust, Behind library call fresh trust world.log) ∧ FirstClaim call world.log)
    (claims : ∀ task url peerId envelope, entry ≠ .claimed task url peerId envelope) :
    (world.note entry).Sound library where
  behind := by
    intro later call past split
    cases later with
    | nil =>
        obtain ⟨same, rest⟩ := List.cons.inj split
        subst rest
        exact calls call same
    | cons first later =>
        obtain ⟨_, rest⟩ := List.cons.inj split
        exact sound.behind later call past rest
  remembered := by
    intro task url peerId envelope member
    rcases List.mem_cons.mp member with same | member
    · exact absurd same.symm (claims task url peerId envelope)
    · exact sound.remembered task url peerId envelope member
  late := by
    intro later task url peerId envelope earlier split other member
    cases later with
    | nil => exact absurd (List.cons.inj split).1 (claims task url peerId envelope)
    | cons first later => exact sound.late later task url peerId envelope earlier (List.cons.inj split).2 other member

theorem grows_note {entry : Entry} (mine : entry.task = task) : world.Grows (· = task) (world.note entry) :=
  ⟨[entry], rfl, by simpa using mine⟩

theorem grows_quiet (log : after.log = world.log) : world.Grows (· = task) after :=
  ⟨[], by simp [log], by simp⟩

/-! ### The services -/

theorem ask_keeps {α : Type} {read : Services → α} (lasting : Lasting task Kept) (kept : Kept world.log) :
    (ask url read).Keeps (delegationProtocol library) task (fun _ reached => Kept reached.log)
      (fun _ _ => True) world := by
  apply Async.Keeps.op
  intro later passed sound input
  exact ⟨⟨sound, .refl later⟩, fun _ _ => lasting.others passed kept, fun _ _ => trivial⟩

/-- What a claim of this panel says of the clock. -/
def Timely (url : String) (now : Int) (log : List Entry) : Prop :=
  ∀ later task peerId envelope earlier, log = later ++ .claimed task url peerId envelope :: earlier →
    now < envelope.expiresAt → ∀ other, .claimed other url peerId envelope ∉ earlier

theorem World.Sound.timely (sound : world.Sound library) : Timely url (world.panels url).now world.log := by
  intro later task peerId envelope earlier split early other member
  have late := sound.late later task url peerId envelope earlier split other member
  omega

theorem clock_keeps (lasting : Lasting task Kept) (kept : Kept world.log) :
    (clock url).Keeps (delegationProtocol library) task
      (fun now reached => Kept reached.log ∧ Timely url now reached.log) (fun _ _ => True) world := by
  apply Async.Keeps.op
  intro later passed sound input
  refine ⟨⟨sound, .refl later⟩, ?_, fun _ _ => trivial⟩
  intro now read
  cases read
  exact ⟨lasting.others passed kept, sound.timely⟩

theorem newRequest_keeps (lasting : Lasting task Kept) (kept : Kept world.log) :
    (newRequest url).Keeps (delegationProtocol library) task (fun _ reached => Kept reached.log)
      (fun _ _ => True) world := by
  apply Async.Keeps.op
  intro later passed sound input
  exact ⟨⟨sound, .refl later⟩, fun _ _ => lasting.others passed kept, fun _ _ => trivial⟩

theorem travel_keeps (lasting : Lasting task Kept) (kept : Kept world.log) :
    travel.Keeps (delegationProtocol library) task (fun _ reached => Kept reached.log)
      (fun _ _ => True) world := by
  apply Async.Keeps.op
  intro later passed sound input
  exact ⟨⟨sound, .refl later⟩, fun _ _ => lasting.others passed kept, fun _ _ => trivial⟩

theorem finish_keeps : finish.Keeps (delegationProtocol library) task (fun _ _ => True) (fun _ _ => True) world := by
  apply Async.Keeps.op
  intro later _ sound input
  exact ⟨⟨sound, .refl later⟩, fun _ _ => trivial, fun _ _ => trivial⟩

theorem failIf_keeps {condition : Bool} {error : DelegationError} (kept : Kept world.log) :
    (Async.failIf condition error : Task Unit).Keeps (delegationProtocol library) task
      (fun _ reached => Kept reached.log ∧ condition = false) (fun _ _ => True) world :=
  Async.Keeps.failIf (fun passed => ⟨kept, passed⟩) fun _ => trivial

theorem fail_keeps {α : Type} {error : DelegationError} {returned : α → World → Prop} :
    (Async.fail error : Task α).Keeps (delegationProtocol library) task returned (fun _ _ => True) world :=
  Async.Keeps.fail trivial

/-! ### Letting a request in -/

theorem enter_keeps (lasting : Lasting task Kept) (kept : Kept world.log) :
    (enter url).Keeps (delegationProtocol library) task (fun _ reached => Kept reached.log)
      (fun _ _ => True) world := by
  apply Async.Keeps.op
  intro later passed sound input
  have still := lasting.others passed kept
  dsimp only
  split
  · exact ⟨⟨sound, .refl later⟩, fun _ _ => still, fun _ _ => trivial⟩
  · exact ⟨⟨sound.setPanel rfl (Int.le_refl _), grows_quiet rfl⟩, fun _ _ => still, fun _ _ => trivial⟩

/-- A request that proves itself comes from the peer it names, and is for this panel. -/
structure Proven (library : Library Body) (operation : String) (request : Request Body)
    (config : DelegationConfig) (envelope : Envelope) (peer : DelegationPeer) : Prop where
  body : ∃ body, request.body = some body ∧ parse library operation body = some envelope
  known : peer ∈ config.peers
  issuer : peer.id = envelope.issuer
  audience : envelope.audience = config.serverId

theorem proven_spec {operation : String} {request : Request Body} {config : DelegationConfig} {now : Int}
    {envelope : Envelope} {peer : DelegationPeer}
    (proves : proven library operation request config now = some (envelope, peer)) :
    Proven library operation request config envelope peer := by
  unfold proven at proves
  split at proves
  · cases proves
  · simp only [Option.bind_eq_bind, Option.bind_eq_some_iff] at proves
    obtain ⟨body, arrived, envelope', parsed, peer', found, signature, _, checks⟩ := proves
    split at checks
    · rename_i passed
      simp only [Option.some.injEq, Prod.mk.injEq] at checks
      obtain ⟨rfl, rfl⟩ := checks
      simp only [Bool.and_eq_true, decide_eq_true_eq] at passed
      have named := List.find?_some found
      exact ⟨⟨body, arrived, parsed⟩, List.mem_of_find?_eq_some found, by simpa using named, passed.1.2⟩
    · cases checks

theorem authenticate_keeps {operation : String} {request : Request Body} (lasting : Lasting task Kept)
    (kept : Kept world.log) :
    (authenticate library url operation request).Keeps (delegationProtocol library) task
      (fun result reached => Kept reached.log ∧
        Proven library operation request result.1 result.2.1 result.2.2) (fun _ _ => True) world := by
  apply Async.Keeps.bind _ (ask_keeps lasting kept)
  intro found read kept
  apply Async.Keeps.bind _ (clock_keeps lasting kept)
  intro now read known
  split
  · exact fail_keeps
  · rename_i config envelope peer proves
    simp only [Option.bind_eq_some_iff, Option.map_eq_some_iff, Prod.mk.injEq] at proves
    obtain ⟨config, _, pair, proves, rfl, rfl⟩ := proves
    apply Async.Keeps.bind _ (ask_keeps lasting known.1)
    intro authorized read kept
    apply Async.Keeps.bind _ (failIf_keeps kept)
    intro _ read passed
    exact Async.Keeps.pure ⟨passed.1, proven_spec proves⟩

/-- Only what has expired is forgotten. -/
theorem World.Sound.setSeen {seen : List (String × Int)} (sound : world.Sound library)
    (kept : ∀ entry ∈ (world.panels url).seen, entry ∈ seen ∨ entry.2 ≤ (world.panels url).now) :
    (world.setPanel url { world.panels url with seen }).Sound library where
  behind := sound.behind
  remembered := by
    intro task other peerId envelope member
    by_cases same : other = url
    · subst same
      simp only [World.setPanel, Function.update_self]
      rcases sound.remembered task other peerId envelope member with held | late
      · exact kept _ held
      · exact .inr late
    · simpa [World.setPanel, same] using sound.remembered task other peerId envelope member
  late := by
    intro later task other peerId envelope earlier split claimant member
    have expired := sound.late later task other peerId envelope earlier split claimant member
    by_cases same : other = url
    · subst same
      simpa [World.setPanel] using expired
    · simpa [World.setPanel, same] using expired

theorem Panel.mem_unexpired {panel : Panel} {entry : String × Int} (held : entry ∈ panel.seen) :
    entry ∈ panel.unexpired ∨ entry.2 ≤ panel.now := by
  by_cases late : entry.2 ≤ panel.now
  · exact .inr late
  · refine .inl ?_
    simp only [Panel.unexpired, List.mem_filter, decide_eq_true_eq]
    exact ⟨held, late⟩

/-- A nonce that is claimed was not claimed before, or has expired. -/
theorem World.Sound.claim {peerId : String} {envelope : Envelope} (sound : world.Sound library)
    (free : nonceOf peerId envelope.requestId ∉ (world.panels url).unexpired.map (·.1)) :
    ((world.setPanel url { world.panels url with
        seen := (world.panels url).unexpired ++ [(nonceOf peerId envelope.requestId, envelope.expiresAt)] }).note
      (.claimed task url peerId envelope)).Sound library := by
  have pruned : (world.setPanel url { world.panels url with
      seen := (world.panels url).unexpired ++ [(nonceOf peerId envelope.requestId, envelope.expiresAt)] }).Sound
      library := by
    apply sound.setSeen
    intro entry held
    exact (Panel.mem_unexpired held).imp_left (List.mem_append_left _)
  refine ⟨?_, ?_, ?_⟩
  · intro later call past split
    cases later with
    | nil => cases (List.cons.inj split).1
    | cons first later => exact pruned.behind later call past (List.cons.inj split).2
  · intro other place claimedPeer claimed member
    rcases List.mem_cons.mp member with same | member
    · cases same
      left
      simp [World.note, World.setPanel]
    · exact pruned.remembered other place claimedPeer claimed member
  · intro later claimant place claimedPeer claimed earlier split other member
    cases later with
    | nil =>
        obtain ⟨same, rest⟩ := List.cons.inj split
        cases same
        subst rest
        rcases sound.remembered other url peerId envelope member with held | late
        · rcases Panel.mem_unexpired held with unexpired | late
          · exact absurd (List.mem_map_of_mem unexpired) free
          · simpa [World.note, World.setPanel] using late
        · simpa [World.note, World.setPanel] using late
    | cons first later =>
        exact pruned.late later claimant place claimedPeer claimed earlier (List.cons.inj split).2 other member

theorem claimNonce_keeps {peer : DelegationPeer} {envelope : Envelope} (lasting : Lasting task Kept)
    (kept : Kept world.log) :
    (claimNonce task url peer envelope).Keeps (delegationProtocol library) task
      (fun _ reached => ∃ earlier, reached.log = .claimed task url peer.id envelope :: earlier ∧ Kept earlier)
      (fun _ _ => True) world := by
  apply Async.Keeps.op
  intro later passed sound input
  have still := lasting.others passed kept
  dsimp only
  split
  · refine ⟨⟨sound.setSeen fun _ held => Panel.mem_unexpired held, grows_quiet rfl⟩, ?_, fun _ _ => trivial⟩
    intro _ impossible
    cases impossible
  · rename_i free
    simp only [Bool.or_eq_true, decide_eq_true_eq, not_or] at free
    refine ⟨⟨sound.claim free.1, grows_note rfl⟩, ?_, fun _ _ => trivial⟩
    intro _ _
    exact ⟨later.log, rfl, still⟩

theorem accept_keeps {operation : String} {request : Request Body} (lasting : Lasting task Kept)
    (kept : Kept world.log) :
    (accept library task url operation request).Keeps (delegationProtocol library) task
      (fun result reached => (∃ earlier, reached.log = .claimed task url result.2.2.id result.2.1 :: earlier ∧
          Kept earlier) ∧ Proven library operation request result.1 result.2.1 result.2.2)
      (fun _ _ => True) world := by
  apply Async.Keeps.bind _ (enter_keeps lasting kept)
  intro _ read kept
  apply Async.Keeps.bind _ (authenticate_keeps lasting kept)
  intro result read known
  obtain ⟨config, envelope, peer⟩ := result
  apply Async.Keeps.bind _ (claimNonce_keeps lasting known.1)
  intro _ read claimed
  exact Async.Keeps.pure ⟨claimed, known.2⟩

/-! ### Confirming -/

theorem confirmAssertion_keeps {validation : Validation} {peer : DelegationPeer} {config : DelegationConfig}
    (After : List Entry → Prop) (lasting : Lasting task Kept) (kept : Kept world.log)
    (confirms : ∀ log identity, Kept log → StillHolds validation.assertion identity →
      After (.confirmed task url validation.assertion.issuer validation.assertion identity :: log)) :
    (confirmAssertion library task url validation peer config).Keeps (delegationProtocol library) task
      (fun _ reached => After reached.log) (fun _ _ => True) world := by
  apply Async.Keeps.bind _ (clock_keeps lasting kept)
  intro now read known
  apply Async.Keeps.bind _ (failIf_keeps known.1)
  intro _ read passed
  obtain ⟨kept, checks⟩ := passed
  simp only [Bool.not_eq_false', confirmable, Bool.and_eq_true, decide_eq_true_eq] at checks
  obtain ⟨⟨⟨⟨_, issuer⟩, _⟩, _⟩, _⟩ := checks
  apply Async.Keeps.op
  intro later passed sound input
  have still := lasting.others passed kept
  dsimp only
  split
  · exact ⟨⟨sound, .refl later⟩, (fun _ impossible => by cases impossible), fun _ _ => trivial⟩
  · rename_i identity _
    split
    · rename_i allows
      simp only [Bool.and_eq_true] at allows
      refine ⟨⟨sound.note (by simp) (by simp), grows_note rfl⟩, ?_, fun _ _ => trivial⟩
      intro _ _
      have held := confirms _ identity still (stillHolds_of_identityStillAllows allows.2)
      rw [issuer] at held
      exact held
    · exact ⟨⟨sound, .refl later⟩, (fun _ impossible => by cases impossible), fun _ _ => trivial⟩

/-- The answer to a confirmation request that was written for this validation. -/
theorem answerValidation_keeps {request : Request Body} {validation : Validation} {After : List Entry → Prop}
    (lasting : Lasting task Kept) (kept : Kept world.log)
    (written : request.body = some (library.stringify validation))
    (confirms : ∀ log identity, Kept log → StillHolds validation.assertion identity →
      After (.confirmed task url validation.assertion.issuer validation.assertion identity :: log)) :
    (answerValidation library task url request).Keeps (delegationProtocol library) task
      (fun _ reached => After reached.log) (fun _ _ => True) world := by
  apply Async.Keeps.bind _ (accept_keeps lasting kept)
  intro result read accepted
  obtain ⟨config, envelope, peer⟩ := result
  obtain ⟨⟨earlier, log, kept⟩, proven⟩ := accepted
  obtain ⟨body, arrived, parsed⟩ := proven.body
  cases envelope with
  | read assertion => exact fail_keeps
  | validate other =>
      have same : other = validation := by
        rw [written] at arrived
        cases arrived
        simp only [parse, String.reduceEq, if_false, if_true, Option.map_eq_some_iff, Envelope.validate.injEq]
          at parsed
        obtain ⟨other, parsed, rfl⟩ := parsed
        exact library.parsed validation other parsed
      subst same
      have still : Kept read.log := by
        rw [log]
        exact lasting _ _ (fun _ => trivial) kept
      exact confirmAssertion_keeps After lasting still confirms

theorem signedPost_keeps {config : DelegationConfig} {peer : DelegationPeer} {validation : Validation}
    {After : List Entry → Prop} (lasting : Lasting task Kept) (lastingAfter : Lasting task After)
    (kept : Kept world.log)
    (confirms : ∀ log address identity, library.peerURL peer.url = some address → Kept log →
      StillHolds validation.assertion identity →
      After (.confirmed task address validation.assertion.issuer validation.assertion identity :: log)) :
    (signedPost library task config peer validation).Keeps (delegationProtocol library) task
      (fun _ reached => After reached.log) (fun _ _ => True) world := by
  unfold signedPost
  split
  · exact fail_keeps
  · rename_i address found
    apply Async.Keeps.bind _ (travel_keeps lasting kept)
    intro _ read kept
    apply Async.Keeps.bind fun _ reached => After reached.log
    · exact answerValidation_keeps lasting kept rfl fun log identity => confirms log address identity found
    · intro _ read after
      exact travel_keeps lastingAfter after

/-! ### Looking again -/

/-- The configuration was read again after the base, and since then the task logged these. -/
def LookedAgain (task : Nat) (url : String) (config : Option DelegationConfig) (Base Since : List Entry → Prop)
    (log : List Entry) : Prop :=
  ∃ middle rest, log = middle ++ .looked task url config :: rest ∧ Base rest ∧
    (∀ place other, .looked task place other ∉ middle) ∧ Since middle

theorem LookedAgain.lasting {config : Option DelegationConfig} {Base Since : List Entry → Prop}
    (grows : ∀ entry log, Since log → Since (entry :: log)) :
    Lasting task (LookedAgain task url config Base Since) := by
  intro entry log passive looked
  obtain ⟨middle, rest, split, base, last, since⟩ := looked
  refine ⟨entry :: middle, rest, by rw [split, List.cons_append], base, ?_, grows entry middle since⟩
  intro place other member
  rcases List.mem_cons.mp member with same | member
  · subst same
    exact passive rfl
  · exact last place other member

/-- The peer confirmed after the configuration was read again. -/
def Vouched (library : Library Body) (task : Nat) (url : String) (assertion : Assertion) (fresh : DelegationConfig)
    (trust : DelegationPeer) (Base : List Entry → Prop) (log : List Entry) : Prop :=
  ∃ address identity, library.peerURL trust.url = some address ∧ StillHolds assertion identity ∧
    LookedAgain task url (some fresh) Base
      (.confirmed task address assertion.issuer assertion identity ∈ ·) log

theorem Vouched.lasting {assertion : Assertion} {fresh : DelegationConfig} {trust : DelegationPeer}
    {Base : List Entry → Prop} : Lasting task (Vouched library task url assertion fresh trust Base) := by
  intro entry log passive vouched
  obtain ⟨address, identity, found, holds, looked⟩ := vouched
  refine ⟨address, identity, found, holds, ?_⟩
  apply LookedAgain.lasting ?_ entry log passive looked
  intro _ _ member
  exact List.mem_cons_of_mem _ member

theorem LookedAgain.confirm {assertion : Assertion} {fresh : DelegationConfig} {trust : DelegationPeer}
    {Base : List Entry → Prop} {log : List Entry} {address : String} {identity : DelegatedIdentity}
    (looked : LookedAgain task url (some fresh) Base (fun _ => True) log)
    (found : library.peerURL trust.url = some address) (holds : StillHolds assertion identity) :
    Vouched library task url assertion fresh trust Base
      (.confirmed task address assertion.issuer assertion identity :: log) := by
  obtain ⟨middle, rest, split, base, last, _⟩ := looked
  refine ⟨address, identity, found, holds,
    .confirmed task address assertion.issuer assertion identity :: middle, rest, by rw [split, List.cons_append], base, ?_,
    List.mem_cons_self⟩
  intro place other member
  rcases List.mem_cons.mp member with same | member
  · cases same
  · exact last place other member

theorem getConfigAgain_keeps {Base : List Entry → Prop} (lasting : Lasting task Kept) (kept : Kept world.log)
    (lastingBase : Lasting task Base) (base : Base world.log)
    (looks : ∀ config log, Kept log → Kept (.looked task url config :: log)) :
    (getConfigAgain task url).Keeps (delegationProtocol library) task
      (fun config reached => Kept reached.log ∧ LookedAgain task url config Base (fun _ => True) reached.log)
      (fun _ _ => True) world := by
  apply Async.Keeps.op
  intro later passed sound input
  dsimp only
  split
  · refine ⟨⟨sound.note (by simp) (by simp), grows_note rfl⟩, ?_, fun _ _ => trivial⟩
    intro config read
    cases read
    refine ⟨looks _ _ (lasting.others passed kept), [], later.log, rfl, lastingBase.others passed base, ?_, trivial⟩
    simp
  · exact ⟨⟨sound, .refl later⟩, (fun _ impossible => by cases impossible), fun _ _ => trivial⟩

structure Trusted (library : Library Body) (fresh : DelegationConfig) (trust peer : DelegationPeer)
    (config : DelegationConfig) (assertion : Assertion) (target : Option OperationTarget) : Prop where
  known : trust ∈ fresh.peers
  id : trust.id = peer.id
  serverId : fresh.serverId = config.serverId
  authority : Authority assertion target trust (localArguments assertion)

theorem trusted_spec {now : Int} {found : Option DelegationConfig} {peer trust : DelegationPeer}
    {config fresh : DelegationConfig} {assertion : Assertion} {target : Option OperationTarget}
    (trusts : trusted library now found peer config assertion target = some (fresh, trust)) :
    found = some fresh ∧ Trusted library fresh trust peer config assertion target := by
  simp only [trusted, Option.bind_eq_bind, Option.bind_eq_some_iff] at trusts
  obtain ⟨fresh', read, trust', named, checks⟩ := trusts
  split at checks
  · rename_i unchanged
    simp only [Option.some.injEq, Prod.mk.injEq] at checks
    obtain ⟨rfl, rfl⟩ := checks
    have id := List.find?_some named
    have authority := authority_of_trustUnchanged unchanged
    simp only [trustUnchanged, Bool.and_eq_true, decide_eq_true_eq] at unchanged
    exact ⟨read, List.mem_of_find?_eq_some named, by simpa using id, unchanged.1.1.2, authority⟩
  · cases checks

/-- What a call needs to know of its recheck. -/
def Rechecked (library : Library Body) (task : Nat) (url : String) (peer : DelegationPeer)
    (config : DelegationConfig) (assertion : Assertion) (target : Option OperationTarget)
    (Base : List Entry → Prop) (log : List Entry) : Prop :=
  (∃ fresh trust, Trusted library fresh trust peer config assertion target ∧
    Vouched library task url assertion fresh trust Base log) ∧
  ∃ now, current now (.read assertion) = true ∧ Timely url now log

theorem revalidate_keeps {peer : DelegationPeer} {config : DelegationConfig} {assertion : Assertion}
    {target : Option OperationTarget} {Base : List Entry → Prop} (lasting : Lasting task Kept)
    (kept : Kept world.log) (lastingBase : Lasting task Base) (base : Base world.log)
    (looks : ∀ config log, Kept log → Kept (.looked task url config :: log)) :
    (revalidate library task url assertion peer config target).Keeps (delegationProtocol library) task
      (fun _ reached => Kept reached.log ∧
        Rechecked library task url peer config assertion target Base reached.log) (fun _ _ => True) world := by
  apply Async.Keeps.bind _ (getConfigAgain_keeps lasting kept lastingBase base looks)
  intro found read looked
  have lastingLooked : Lasting task fun log => Kept log ∧ LookedAgain task url found Base (fun _ => True) log :=
    lasting.and (LookedAgain.lasting fun _ _ _ => trivial)
  apply Async.Keeps.bind _ (clock_keeps lastingLooked looked)
  intro now read known
  split
  · exact fail_keeps
  · rename_i fresh trust trusts
    obtain ⟨same, trusted⟩ := trusted_spec trusts
    subst same
    apply Async.Keeps.bind _ (ask_keeps lastingLooked known.1)
    intro authorized read looked
    apply Async.Keeps.bind fun _ reached => Kept reached.log ∧
      LookedAgain task url (some fresh) Base (fun _ => True) reached.log
    · exact Async.Keeps.failIf (fun _ => looked) fun _ => trivial
    · intro _ read looked
      apply Async.Keeps.bind _ (newRequest_keeps lastingLooked looked)
      intro stamp read looked
      obtain ⟨issuedAt, requestId⟩ := stamp
      have lastingVouched : Lasting task fun log =>
          Kept log ∧ Vouched library task url assertion fresh trust Base log := lasting.and Vouched.lasting
      apply Async.Keeps.bind fun _ reached =>
        Kept reached.log ∧ Vouched library task url assertion fresh trust Base reached.log
      · apply signedPost_keeps lastingLooked lastingVouched looked
        intro log address identity found looked holds
        exact ⟨lasting _ _ (fun _ => trivial) looked.1, looked.2.confirm found holds⟩
      · intro _ read vouched
        apply Async.Keeps.bind _ (clock_keeps lastingVouched vouched)
        intro now read known
        obtain ⟨⟨kept, vouched⟩, timely⟩ := known
        apply Async.Keeps.failIf
        · intro inTime
          exact ⟨kept, ⟨fresh, trust, trusted, vouched⟩, now, by simpa using inTime, timely⟩
        · exact fun _ => trivial

/-! ### Serving -/

/-- The request arrived, and found the operation it refers to. -/
def Referred (library : Library Body) (task : Nat) (url : String) (assertion : Assertion)
    (target : Option OperationTarget) (log : List Entry) : Prop :=
  ∃ since before, log = since ++ .arrived task url :: before ∧
    ∀ operation, target = some operation → .targeted task url
      (library.delegatedSubjectId assertion.issuer assertion.identity.keyId) operation ∈ since

/-- The request claimed its nonce, and has called nothing since. -/
def Waiting (task : Nat) (url : String) (assertion : Assertion) (log : List Entry) : Prop :=
  ∃ since earlier, log = since ++ .claimed task url assertion.issuer (.read assertion) :: earlier ∧
    ∀ call, .called call ∈ since → call.task ≠ task

theorem Referred.cons {assertion : Assertion} {target : Option OperationTarget} {log : List Entry}
    (referred : Referred library task url assertion target log) (entry : Entry) :
    Referred library task url assertion target (entry :: log) := by
  obtain ⟨since, before, split, targeted⟩ := referred
  exact ⟨entry :: since, before, by rw [split, List.cons_append],
    fun operation present => List.mem_cons_of_mem _ (targeted operation present)⟩

theorem Waiting.cons {assertion : Assertion} {log : List Entry} (waiting : Waiting task url assertion log)
    {entry : Entry} (calls : ∀ call, entry = .called call → call.task ≠ task) :
    Waiting task url assertion (entry :: log) := by
  obtain ⟨since, earlier, split, silent⟩ := waiting
  refine ⟨entry :: since, earlier, by rw [split, List.cons_append], ?_⟩
  intro call member
  rcases List.mem_cons.mp member with same | member
  · exact calls call same.symm
  · exact silent call member

theorem Referred.lasting {assertion : Assertion} {target : Option OperationTarget} :
    Lasting task (Referred library task url assertion target) :=
  fun entry _ _ referred => referred.cons entry

theorem Waiting.lasting {assertion : Assertion} : Lasting task (Waiting task url assertion) := by
  intro entry log passive waiting
  apply waiting.cons
  intro call same mine
  subst same
  exact passive mine

theorem referenced_keeps {assertion : Assertion} (lasting : Lasting task Kept) (kept : Kept world.log)
    (notes : ∀ entry log, (∀ call, entry ≠ .called call) → Kept log → Kept (entry :: log))
    (referred : Referred library task url assertion none world.log) :
    (referenced library task url assertion).Keeps (delegationProtocol library) task
      (fun target reached => Kept reached.log ∧ Referred library task url assertion target reached.log)
      (fun _ _ => True) world := by
  unfold referenced
  split
  · apply Async.Keeps.op
    intro later passed sound input
    dsimp only
    split
    · exact ⟨⟨sound, .refl later⟩, (fun _ impossible => by cases impossible), fun _ _ => trivial⟩
    · rename_i operation _
      split
      · refine ⟨⟨sound.note (by simp) (by simp), grows_note rfl⟩, ?_, fun _ _ => trivial⟩
        intro target read
        cases read
        refine ⟨notes _ _ (by simp) (lasting.others passed kept), ?_⟩
        obtain ⟨since, before, split, _⟩ := Referred.lasting.others passed referred
        refine ⟨_ :: since, before, by rw [World.note, split, List.cons_append], ?_⟩
        intro other present
        cases present
        exact List.mem_cons_self
      · exact ⟨⟨sound, .refl later⟩, (fun _ impossible => by cases impossible), fun _ _ => trivial⟩
  · exact Async.Keeps.pure ⟨kept, referred⟩

/-- A call right after the rights were looked at again. -/
theorem call_keeps {peer : DelegationPeer} {config : DelegationConfig} {assertion : Assertion}
    {target : Option OperationTarget} (issuer : peer.id = assertion.issuer)
    (audience : assertion.audience = config.serverId) (waiting : Waiting task url assertion world.log)
    (rechecked : Rechecked library task url peer config assertion target
      (Referred library task url assertion target) world.log) :
    (call library task url assertion target).Keeps (delegationProtocol library) task (fun _ _ => True)
      (fun _ _ => True) world := by
  apply Async.Keeps.op
  intro later passed sound input
  dsimp only
  split
  · refine ⟨⟨sound.note ?_ (by simp), grows_note rfl⟩, fun _ _ => trivial, fun _ _ => trivial⟩
    intro made same
    cases same
    constructor
    · obtain ⟨⟨fresh, trust, trusted, vouched⟩, _⟩ := rechecked
      obtain ⟨address, identity, found, holds, middle, rest, split, base, last, confirmed⟩ :=
        Vouched.lasting.others passed vouched
      obtain ⟨since, before, arrived, targeted⟩ := base
      subst arrived
      exact ⟨fresh, trust, ⟨middle, since, before, split, last, ⟨address, identity, found, confirmed, holds⟩, targeted⟩,
        trusted.known, trusted.id.trans issuer, trusted.serverId.trans audience.symm, trusted.authority,
        effectiveIdentity_handsOver _⟩
    · obtain ⟨_, now, inTime, timely⟩ := rechecked
      have early : now < (Envelope.read assertion).expiresAt := by
        simp only [current, Bool.and_eq_true, decide_eq_true_eq] at inTime
        exact inTime.1.1.2
      have first : FirstClaim
          { task, url, assertion, target
            identity := effectiveIdentity (library.delegatedSubjectId assertion.issuer assertion.identity.keyId)
              assertion (decide (assertion.action ∈ mcpReadTools))
            arguments := localArguments assertion } world.log := by
        obtain ⟨since, earlier, split, silent⟩ := waiting
        exact ⟨since, earlier, split, timely since task assertion.issuer _ earlier split early, silent⟩
      obtain ⟨since, earlier, split, fresh, silent⟩ := first
      obtain ⟨new, grown, foreign⟩ := passed
      refine ⟨new ++ since, earlier, by rw [grown, split, List.append_assoc], fresh, ?_⟩
      intro other member
      rcases List.mem_append.mp member with member | member
      · exact foreign _ member
      · exact silent other member
  · exact ⟨⟨sound, .refl later⟩, fun _ _ => trivial, fun _ _ => trivial⟩

theorem revalidate_own {peer : DelegationPeer} {config : DelegationConfig} {assertion : Assertion}
    {target : Option OperationTarget} :
    (revalidate library task url assertion peer config target).Keeps (delegationProtocol library) task
      (fun _ _ => True) (fun _ _ => True) world := by
  have checked := @revalidate_keeps _ library task url world (fun _ => True) peer config assertion target
    (fun _ => True) (lasting_true task) trivial (lasting_true task) trivial fun _ _ _ => trivial
  exact checked.mono (fun _ _ _ => trivial) fun _ _ _ => trivial

theorem serve_keeps {peer : DelegationPeer} {config : DelegationConfig} {assertion : Assertion}
    (issuer : peer.id = assertion.issuer) (audience : assertion.audience = config.serverId)
    (waiting : Waiting task url assertion world.log)
    (referred : Referred library task url assertion none world.log) :
    (serve library task url assertion peer config).Keeps (delegationProtocol library) task
      (fun _ _ => True) (fun _ _ => True) world := by
  apply Async.Keeps.bind _ (referenced_keeps Waiting.lasting waiting ?_ referred)
  · intro target read found
    apply Async.Keeps.bind _ (revalidate_keeps Waiting.lasting found.1 Referred.lasting found.2 ?_)
    · intro _ read rechecked
      apply Async.Keeps.bind _ (call_keeps issuer audience rechecked.1 rechecked.2)
      intro refreshes read _
      apply Async.Keeps.bind fun _ _ => True
      · apply Async.Keeps.repeatTimes refreshes trivial
        intro state _
        apply Async.Keeps.orElse _ revalidate_own
        intro _ _ _
        exact Async.Keeps.pure trivial
      · intro _ read _
        apply Async.Keeps.bind _ finish_keeps
        intro result read _
        apply Async.Keeps.bind _ revalidate_own
        intro _ read _
        apply Async.Keeps.bind fun _ _ => True
        · exact Async.Keeps.failIf (fun _ => trivial) fun _ => trivial
        · exact fun _ _ _ => Async.Keeps.pure trivial
    · intro config log waiting
      apply waiting.cons
      intro call impossible
      cases impossible
  · intro entry log other waiting
    exact waiting.cons fun call same => absurd same (other call)

theorem arrive_keeps : (arrive task url).Keeps (delegationProtocol library) task
    (fun _ reached => ∀ assertion, Referred library task url assertion none reached.log) (fun _ _ => True) world := by
  apply Async.Keeps.op
  intro later _ sound input
  refine ⟨⟨sound.note (by simp) (by simp), grows_note rfl⟩, ?_, fun _ _ => trivial⟩
  intro _ _ assertion
  exact ⟨[], later.log, rfl, fun _ impossible => by cases impossible⟩

theorem createDelegationRouter_keeps {operation : String} {request : Request Body} :
    (createDelegationRouter library task url operation request).Keeps (delegationProtocol library) task
      (fun _ _ => True) (fun _ _ => True) world := by
  apply Async.Keeps.bind _ arrive_keeps
  intro _ read arrived
  have lasting : Lasting task fun log => ∀ assertion, Referred library task url assertion none log :=
    fun entry log passive referred assertion => Referred.lasting entry log passive (referred assertion)
  apply Async.Keeps.bind _ (accept_keeps lasting arrived)
  intro result read accepted
  obtain ⟨config, envelope, peer⟩ := result
  obtain ⟨⟨earlier, log, arrived⟩, proven⟩ := accepted
  cases envelope with
  | validate validation =>
      exact confirmAssertion_keeps (fun _ => True) (lasting_true task) trivial fun _ _ _ _ => trivial
  | read assertion =>
      have issuer : peer.id = assertion.issuer := proven.issuer
      have waiting : Waiting task url assertion read.log := by
        refine ⟨[], earlier, ?_, by simp⟩
        rw [log]
        simp [issuer]
      have referred : Referred library task url assertion none read.log := by
        rw [log]
        exact (arrived assertion).cons _
      apply Async.Keeps.bind _ (serve_keeps issuer proven.audience waiting referred)
      exact fun _ _ _ => Async.Keeps.pure trivial

end

/-! ### Any number of requests -/

theorem World.Sound.change {Body : Type} {library : Library Body} {world : World} (sound : world.Sound library)
    (change : Change) :
    (world.change change).Sound library ∧ ∀ task, (delegationProtocol library).others task world (world.change change) := by
  refine ⟨?_, ?_⟩
  · cases change with
    | tick url elapsed =>
        have seen : ({ world.panels url with now := (world.panels url).now + elapsed } : Panel).seen =
            (world.panels url).seen := rfl
        apply sound.setPanel seen
        dsimp only
        omega
    | rewrite url services => exact sound.setPanel rfl (Int.le_refl _)
    | closed url => exact sound.setPanel rfl (Int.le_refl _)
  · intro task
    have log : (world.change change).log = world.log := by cases change <;> rfl
    exact ⟨[], by simp [log], by simp⟩

theorem run_sound {Body : Type} (library : Library Body) (panels : String → Panel) (history : List (Event Body)) :
    (run library panels history).Sound library := by
  have start : (World.start panels).Sound library := by
    refine ⟨?_, ?_, ?_⟩ <;> simp [World.start]
  have starts : ∀ (arrival : Arrival Body) task world, World.Sound library world →
      (arrival.program library task).Keeps (delegationProtocol library) task (fun _ _ => True) (fun _ _ => True)
        world := fun _ _ _ _ => createDelegationRouter_keeps
  have good : Pool.Good (delegationProtocol library) (replay (Pool.step (Arrival.program library) World.change)
      (Pool.initial (World.start panels)) history) :=
    Pool.sound_of_run starts (fun change world (sound : World.Sound library world) => sound.change change)
      start history
  exact good.sound

end Dockge.Delegation
