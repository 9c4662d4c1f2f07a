import Mathlib
import Dockge.Inspector.Polling

namespace Dockge.Inspector

open Data

/-! What holds of a stack page after anything that can happen to it. -/

variable {D : Type} {tracker : RequestTracker Kind} {stackName : String} {sent : List (Request D)} {kind : Kind}
  {generation id : Nat} {page : Page D} {request : Request D} {answer : Option (Answer D)}

theorem getElem?_snoc {α : Type} {items : List α} {last item : α} {index : Nat} :
    (items ++ [last])[index]? = some item ↔ items[index]? = some item ∨ (index = items.length ∧ item = last) := by
  rw [List.getElem?_append]
  split
  next within => exact ⟨.inl, fun either => either.resolve_right fun both => by omega⟩
  next beyond =>
    have none_ : items[index]? = none := List.getElem?_eq_none (by omega)
    rw [none_, List.getElem?_singleton]
    constructor
    · intro found
      split at found
      next first => exact .inr ⟨by omega, (Option.some.inj found).symm⟩
      next => cases found
    · intro either
      obtain never | ⟨same, rfl⟩ := either
      · cases never
      · rw [if_pos (by omega)]

theorem getElem?_moved {α : Type} {items : List α} {change : α → α} {index place : Nat} {item : α}
    (found : (items.modify place change)[index]? = some item) :
    ∃ old, items[index]? = some old ∧ item = if place = index then change old else old := by
  rw [List.getElem?_modify] at found
  obtain ⟨old, held, same⟩ := Option.map_eq_some_iff.mp found
  exact ⟨old, held, same.symm⟩

/-! ## What holds -/

/-- One request of a kind is in flight for a selection, and it is asked for that one. -/
structure Tracked (tracker : RequestTracker Kind) (stackName : String) (sent : List (Request D)) : Prop where
  bound : ∀ (id : Nat) (request : Request D), sent[id]? = some request → request.generation ≤ tracker.generationValue
  named : ∀ (id : Nat) (request : Request D), sent[id]? = some request → request.generation = tracker.generationValue →
    request.stackName = stackName
  late : ∀ (id : Nat) (request : Request D), sent[id]? = some request →
    request.phase = .given none ∨ request.phase = .handled none → request.generation < tracker.generationValue
  waits : ∀ (id : Nat) (request : Request D), sent[id]? = some request → request.inFlight →
    request.generation = tracker.generationValue → tracker.running request.kind = some request.generation
  alone : ∀ (first second : Nat) (one other : Request D), sent[first]? = some one → sent[second]? = some other →
    one.kind = other.kind → one.generation = other.generation → one.inFlight → other.inFlight → first = second
  busy : ∀ kind generation, tracker.running kind = some generation →
    ∃ (id : Nat) (request : Request D), sent[id]? = some request ∧ request.kind = kind ∧
      request.generation = generation ∧ request.inFlight

/-- What is shown is what a request of this selection was answered with. -/
def Tells (sent : List (Request D)) (generation : Nat) (kind : Kind) (data : D) : Prop :=
  ∃ (id : Nat) (request : Request D), sent[id]? = some request ∧ request.kind = kind ∧ request.generation = generation ∧
    request.phase = .handled (some ⟨true, data⟩)

structure Shown (page : Page D) : Prop where
  status : ∀ data, page.serviceStatusList = some data → Tells page.sent page.generation .status data
  stats : ∀ data, page.dockerStats = some data → Tells page.sent page.generation .stats data
  availability : ∀ data, page.availabilityData = some data → Tells page.sent page.generation .availability data

/-- No timeout but the last is left, and it polls for this selection. -/
structure Timed (page : Page D) : Prop where
  only : page.timers = [] ∨ ∃ id, page.timers = [(id, page.generation)] ∧ page.statusTimer = some id
  stopped : page.disposed = true → page.timers = []

structure Kept (page : Page D) : Prop where
  tracked : Tracked page.requests page.stackName page.sent
  shown : page.disposed = false → Shown page
  timed : Timed page

/-- The services of this selection were asked for. -/
def Polled (page : Page D) : Prop :=
  ∃ (id : Nat) (request : Request D), page.sent[id]? = some request ∧ request.kind = .status ∧
    request.generation = page.generation

/-- An answer about the services of this selection is still to be dealt with. -/
def Pending (page : Page D) : Prop :=
  ∃ (id : Nat) (request : Request D), page.sent[id]? = some request ∧ request.kind = .status ∧
    request.generation = page.generation ∧ ∀ answer, request.phase ≠ .handled answer

/-- The polls of a page that is looked at go on. -/
def Alive (page : Page D) : Prop :=
  page.hidden = false → page.disposed = false → Polled page → Pending page ∨ page.timers ≠ []

/-! ## Sending -/

theorem not_inFlight (other : kind.tracked = false) (same : request.kind = kind) : ¬ request.inFlight := by
  intro flies
  rw [Request.inFlight, same, other] at flies
  cases flies.1

/-- A request is sent: it is not one of a kind at a time, or it is the only one of its kind now. -/
theorem Tracked.append {after : RequestTracker Kind} (tracked : Tracked tracker stackName sent)
    (same : after.generationValue = tracker.generationValue)
    (others : ∀ kind, kind ≠ request.kind → after.running kind = tracker.running kind)
    (own : request.kind.tracked = false ∧ after.running request.kind = tracker.running request.kind ∨
      request.inFlight ∧ after.running request.kind = some request.generation ∧
        tracker.running request.kind ≠ some request.generation)
    (current : request.generation = tracker.generationValue) (named : request.stackName = stackName)
    (waiting : request.phase = .waiting) : Tracked after stackName (sent ++ [request]) := by
  have free (id : Nat) (other : Request D) (found : sent[id]? = some other) (kinds : other.kind = request.kind)
      (generations : other.generation = request.generation) (flies : other.inFlight) : False := by
    obtain ⟨untracked, -⟩ | ⟨-, -, free⟩ := own
    · exact not_inFlight untracked kinds flies
    · have running := tracked.waits id other found flies (generations.trans current)
      rw [kinds, generations] at running
      exact free running
  refine ⟨?_, ?_, ?_, ?_, ?_, ?_⟩
  · intro id other found
    rw [same]
    obtain found | ⟨-, rfl⟩ := getElem?_snoc.mp found
    · exact tracked.bound id other found
    · exact current.le
  · intro id other found generations
    rw [same] at generations
    obtain found | ⟨-, rfl⟩ := getElem?_snoc.mp found
    · exact tracked.named id other found generations
    · exact named
  · intro id other found given
    rw [same]
    obtain found | ⟨-, rfl⟩ := getElem?_snoc.mp found
    · exact tracked.late id other found given
    · rw [waiting] at given
      obtain never | never := given <;> cases never
  · intro id other found flies generations
    rw [same] at generations
    obtain found | ⟨-, rfl⟩ := getElem?_snoc.mp found
    · by_cases kinds : other.kind = request.kind
      · exact (free id other found kinds (generations.trans current.symm) flies).elim
      · rw [others _ kinds]
        exact tracked.waits id other found flies generations
    · obtain ⟨untracked, -⟩ | ⟨-, running, -⟩ := own
      · exact absurd flies (not_inFlight untracked rfl)
      · exact running
  · intro first second one other found found_ kinds generations flies flies_
    obtain found | ⟨first_, last⟩ := getElem?_snoc.mp found
    · obtain found_ | ⟨-, last_⟩ := getElem?_snoc.mp found_
      · exact tracked.alone first second one other found found_ kinds generations flies flies_
      · rw [last_] at kinds generations
        exact (free first one found kinds generations flies).elim
    · obtain found_ | ⟨second_, -⟩ := getElem?_snoc.mp found_
      · rw [last] at kinds generations
        exact (free second other found_ kinds.symm generations.symm flies_).elim
      · exact first_.trans second_.symm
  · intro kind generation running
    have earlier (running : tracker.running kind = some generation) :
        ∃ (id : Nat) (other : Request D), (sent ++ [request])[id]? = some other ∧ other.kind = kind ∧
          other.generation = generation ∧ other.inFlight := by
      obtain ⟨id, other, found, held⟩ := tracked.busy kind generation running
      exact ⟨id, other, getElem?_snoc.mpr (.inl found), held⟩
    by_cases kinds : kind = request.kind
    · obtain ⟨-, still⟩ | ⟨flies, began, -⟩ := own
      · rw [kinds, still] at running
        exact earlier (kinds ▸ running)
      · rw [kinds, began] at running
        exact ⟨sent.length, request, getElem?_snoc.mpr (.inr ⟨rfl, rfl⟩), kinds.symm, Option.some.inj running, flies⟩
    · rw [others kind kinds] at running
      exact earlier running

theorem Tells.send {data : D} (tells : Tells sent generation kind data) (last : Request D) :
    Tells (sent ++ [last]) generation kind data := by
  obtain ⟨id, request, found, held⟩ := tells
  exact ⟨id, request, getElem?_snoc.mpr (.inl found), held⟩

theorem Shown.send (shown : Shown page) (last : Request D) : Shown { page with sent := page.sent ++ [last] } where
  status data some_ := (shown.status data some_).send _
  stats data some_ := (shown.stats data some_).send _
  availability data some_ := (shown.availability data some_).send _

/-- What neither the requests, what is shown nor the timeouts depend on may change. -/
theorem Kept.frame {after : Page D} (kept : Kept page) (requests : after.requests = page.requests)
    (stackName : after.stackName = page.stackName) (sent : after.sent = page.sent)
    (shown : (after.serviceStatusList, after.dockerStats, after.availabilityData, after.disposed) =
      (page.serviceStatusList, page.dockerStats, page.availabilityData, page.disposed))
    (timers : (after.timers, after.statusTimer) = (page.timers, page.statusTimer)) : Kept after := by
  obtain ⟨tracked, told, only, stopped⟩ := kept
  simp only [Prod.mk.injEq] at shown timers
  obtain ⟨status, stats, availability, disposed⟩ := shown
  have generation : after.generation = page.generation := congrArg RequestTracker.generationValue requests
  refine ⟨?_, fun here => ?_, ?_, ?_⟩
  · rw [requests, stackName, sent]
    exact tracked
  · rw [disposed] at here
    refine ⟨?_, ?_, ?_⟩ <;> rw [sent, generation]
    · exact status ▸ (told here).status
    · exact stats ▸ (told here).stats
    · exact availability ▸ (told here).availability
  · rw [timers.1, timers.2, generation]
    exact only
  · rw [disposed, timers.1]
    exact stopped

/-- A request that is not one of a kind at a time -/
theorem Kept.send (kept : Kept page) (other : kind.tracked = false) : Kept (page.send kind page.generation) where
  tracked := kept.tracked.append rfl (fun _ _ => rfl) (.inl ⟨other, rfl⟩) rfl rfl rfl
  shown here := (kept.shown here).send _
  timed := ⟨kept.timed.only, kept.timed.stopped⟩

theorem isCurrent_iff : page.requests.isCurrent generation = true ↔ generation = page.generation := decide_eq_true_iff

theorem sends_iff : tracker.sends kind generation = true ↔
    generation = tracker.generationValue ∧ tracker.running kind ≠ some generation := by
  simp only [RequestTracker.sends, RequestTracker.isCurrent, Bool.and_eq_true, decide_eq_true_eq]

theorem isCurrentRequest_iff : page.isCurrentRequest generation = true ↔
    page.disposed = false ∧ generation = page.generation := by
  rw [Page.isCurrentRequest, Bool.and_eq_true, Bool.not_eq_true', isCurrent_iff]

theorem Kept.run (kept : Kept page) (tracked : kind.tracked = true) (generation : Nat) : Kept (page.run kind generation) := by
  unfold Page.run
  split
  next sends =>
    obtain ⟨rfl, free⟩ := sends_iff.mp sends
    refine ⟨kept.tracked.append rfl (fun other different => Function.update_of_ne different ..) ?_ rfl rfl rfl, ?_,
      kept.timed.only, kept.timed.stopped⟩
    · exact .inr ⟨⟨tracked, .inl rfl⟩, Function.update_self .., free⟩
    · intro here
      obtain ⟨status, stats, availability⟩ := (kept.shown here).send
        { kind, generation := page.requests.generationValue, stackName := page.stackName, windowHours := page.windowHours }
      exact ⟨status, stats, availability⟩
  next => exact kept

theorem Kept.requestServiceStatus (kept : Kept page) (generation : Option Nat) : Kept (page.requestServiceStatus generation) := by
  unfold Page.requestServiceStatus
  dsimp only
  split
  next => exact kept
  next => exact (kept.run rfl _).run rfl _

theorem Kept.requestAvailability (kept : Kept page) : Kept page.requestAvailability := kept.send rfl

/-! ## What sending leaves alone -/

/-- Only requests were sent. -/
structure Sends (before after : Page D) : Prop where
  sent : ∃ requests, after.sent = before.sent ++ requests
  generation : after.generation = before.generation
  hidden : after.hidden = before.hidden
  disposed : after.disposed = before.disposed
  timers : after.timers = before.timers

theorem Sends.refl (page : Page D) : Sends page page := ⟨⟨[], (List.append_nil _).symm⟩, rfl, rfl, rfl, rfl⟩

theorem Sends.trans {first second third : Page D} (one : Sends first second) (two : Sends second third) : Sends first third := by
  obtain ⟨requests, sent⟩ := one.sent
  obtain ⟨requests_, sent_⟩ := two.sent
  refine ⟨⟨requests ++ requests_, ?_⟩, two.generation.trans one.generation, two.hidden.trans one.hidden,
    two.disposed.trans one.disposed, two.timers.trans one.timers⟩
  rw [sent_, sent, List.append_assoc]

theorem sends_run (page : Page D) (kind : Kind) (generation : Nat) : Sends page (page.run kind generation) := by
  unfold Page.run
  split
  next => exact ⟨⟨_, rfl⟩, rfl, rfl, rfl, rfl⟩
  next => exact Sends.refl page

theorem sends_requestServiceStatus (page : Page D) (generation : Option Nat) : Sends page (page.requestServiceStatus generation) := by
  unfold Page.requestServiceStatus
  dsimp only
  split
  next => exact Sends.refl page
  next => exact (sends_run page _ _).trans (sends_run _ _ _)

variable {after : Page D}

theorem Sends.pending (sends : Sends page after) (pending : Pending page) : Pending after := by
  obtain ⟨requests, sent⟩ := sends.sent
  obtain ⟨id, request, found, kinds, current, open_⟩ := pending
  refine ⟨id, request, ?_, kinds, current.trans sends.generation.symm, open_⟩
  rw [sent, List.getElem?_append_left (List.getElem?_eq_some_iff.mp found).1]
  exact found

/-! ## Going on -/

/-- Where the services are asked for, an answer about them is still to come. -/
theorem run_pending (kept : Kept page) : Pending (page.run .status page.generation) := by
  unfold Page.run
  split
  next =>
    exact ⟨page.sent.length, _, getElem?_snoc.mpr (.inr ⟨rfl, rfl⟩), rfl, rfl, fun answer never => by cases never⟩
  next busy =>
    have running : page.requests.running .status = some page.generation :=
      not_not.mp fun free => busy (sends_iff.mpr ⟨rfl, free⟩)
    obtain ⟨id, request, found, kinds, current, -, flies⟩ := kept.tracked.busy _ _ running
    refine ⟨id, request, found, kinds, current, fun answer handled => ?_⟩
    rw [handled] at flies
    obtain never | ⟨_, never⟩ := flies <;> cases never

theorem requestServiceStatus_pending (kept : Kept page) {generation : Option Nat} (looked : page.hidden = false)
    (here : page.disposed = false) (current : generation.getD page.generation = page.generation) :
    Pending (page.requestServiceStatus generation) := by
  unfold Page.requestServiceStatus
  dsimp only
  rw [current]
  split
  next shut =>
    rw [looked, isCurrentRequest_iff.mpr ⟨here, rfl⟩] at shut
    cases shut
  next =>
    have same := (sends_run page .stats page.generation).generation
    have pending := run_pending (kept.run (show Kind.stats.tracked = true from rfl) page.generation)
    rw [same] at pending
    exact pending

theorem Alive.requestServiceStatus (alive : Alive page) (kept : Kept page) (generation : Option Nat) :
    Alive (page.requestServiceStatus generation) := by
  intro looked here _
  have sends := sends_requestServiceStatus page generation
  rw [sends.hidden] at looked
  rw [sends.disposed] at here
  by_cases current : generation.getD page.generation = page.generation
  · exact .inl (requestServiceStatus_pending kept looked here current)
  · have same : page.requestServiceStatus generation = page := by
      unfold Page.requestServiceStatus
      dsimp only
      rw [if_pos]
      rw [Bool.or_eq_true, Bool.not_eq_true', Bool.eq_false_iff]
      exact .inr fun passes => current (isCurrentRequest_iff.mp passes).2
    rw [same]
    rename_i polled
    rw [same] at polled
    exact alive looked here polled

theorem Alive.send (alive : Alive page) (other : kind ≠ .status) (generation : Nat) : Alive (page.send kind generation) := by
  intro looked here polled
  have sends : Sends page (page.send kind generation) := ⟨⟨_, rfl⟩, rfl, rfl, rfl, rfl⟩
  have polled_ : Polled page := by
    obtain ⟨id, request, found, kinds, current⟩ := polled
    obtain found | ⟨-, rfl⟩ := getElem?_snoc.mp found
    · exact ⟨id, request, found, kinds, current⟩
    · exact absurd kinds other
  exact (alive looked here polled_).imp_left sends.pending

/-- The services, and how they were available -/
theorem Kept.requests (kept : Kept page) (alive : Alive page) (generation : Option Nat) :
    Kept (page.requestServiceStatus generation).requestAvailability ∧
      Alive (page.requestServiceStatus generation).requestAvailability :=
  ⟨(kept.requestServiceStatus generation).requestAvailability, (alive.requestServiceStatus kept generation).send (by decide) _⟩

/-! ## Another selection -/

theorem clearTimer_timers (only : page.timers = [] ∨ ∃ id generation, page.timers = [(id, generation)] ∧ page.statusTimer = some id) :
    page.clearTimer.timers = [] := by
  change page.timers.filter _ = []
  obtain none_ | ⟨id, generation, only, known⟩ := only
  · rw [none_]
    rfl
  · rw [only, known]
    simp

theorem Timed.cleared (timed : Timed page) : page.clearTimer.timers = [] :=
  clearTimer_timers (timed.only.imp_right fun ⟨id, only⟩ => ⟨id, page.generation, only⟩)

theorem Tracked.next (tracked : Tracked tracker stackName sent) (other : String) : Tracked tracker.next other sent where
  bound id request found := Nat.le_succ_of_le (tracked.bound id request found)
  named id request found same := by
    have below := tracked.bound id request found
    exact absurd (below.trans_lt (Nat.lt_succ_self _)) (by rw [same]; exact lt_irrefl _)
  late id request found given := Nat.lt_succ_of_lt (tracked.late id request found given)
  waits id request found _ same := by
    have below := tracked.bound id request found
    exact absurd (below.trans_lt (Nat.lt_succ_self _)) (by rw [same]; exact lt_irrefl _)
  alone := tracked.alone
  busy := tracked.busy

theorem Kept.cleared (kept : Kept page) (other : String) : Kept { page with stackName := other }.cleared where
  tracked := kept.tracked.next other
  shown _ := ⟨fun data never => (by cases never), fun data never => (by cases never), fun data never => (by cases never)⟩
  timed :=
    have none_ : { page with stackName := other }.cleared.timers = [] := kept.timed.cleared
    ⟨.inl none_, fun _ => none_⟩

/-- Nothing was asked for a selection that has just begun. -/
theorem not_polled (kept : Kept page) (other : String) : ¬ Polled { page with stackName := other }.cleared := by
  intro ⟨id, request, found, _, same⟩
  have below := kept.tracked.bound id request found
  have above : request.generation = page.requests.generationValue + 1 := same
  omega

theorem Alive.of_not_polled (none_ : ¬ Polled page) : Alive page := fun _ _ polled => absurd polled none_

theorem Kept.loadStack (kept : Kept page) (other : String) (summary : Option D) :
    Kept ({ page with stackName := other }.loadStack summary) ∧ Alive ({ page with stackName := other }.loadStack summary) := by
  have cleared := kept.cleared other
  have alive := Alive.of_not_polled (not_polled kept other)
  unfold Page.loadStack
  split
  next summary =>
    have held : Kept { { page with stackName := other }.cleared with stack := some summary } :=
      cleared.frame rfl rfl rfl rfl rfl
    exact held.requests alive _
  next => exact ⟨cleared.send rfl, alive.send (by decide) _⟩

/-! ## Answers -/

theorem Tells.move {data : D} (tells : Tells sent generation kind data) {place : Nat} {old : Request D}
    (found : sent[place]? = some old) (open_ : ∀ answer, old.phase ≠ .handled answer) (phase : Phase D) :
    Tells (sent.modify place fun request => { request with phase }) generation kind data := by
  obtain ⟨id, request, held, kinds, current, handled⟩ := tells
  refine ⟨id, request, ?_, kinds, current, handled⟩
  rw [List.getElem?_modify, held]
  have different : place ≠ id := by
    intro same
    rw [same, held] at found
    exact open_ _ (Option.some.inj found ▸ handled)
  simp [different]

theorem Shown.move (shown : Shown page) {place : Nat} {old : Request D} (found : page.sent[place]? = some old)
    (open_ : ∀ answer, old.phase ≠ .handled answer) (phase : Phase D) : Shown (page.move place phase) where
  status data some_ := (shown.status data some_).move found open_ phase
  stats data some_ := (shown.stats data some_).move found open_ phase
  availability data some_ := (shown.availability data some_).move found open_ phase

/-- A request goes on: one that came too late is told from one that did not, and one that is tracked is in flight
until `run` has returned. -/
theorem Tracked.move {after : RequestTracker Kind} (tracked : Tracked tracker stackName sent) {place : Nat} {old : Request D}
    (found : sent[place]? = some old) {phase : Phase D} (same : after.generationValue = tracker.generationValue)
    (late : phase = .given none ∨ phase = .handled none → old.generation < tracker.generationValue)
    (still : Request.inFlight { old with phase } → old.inFlight)
    (running : ∀ kind generation, after.running kind = some generation ↔ tracker.running kind = some generation ∧
      ¬(kind = old.kind ∧ generation = old.generation ∧ old.inFlight ∧ ¬ Request.inFlight { old with phase })) :
    Tracked after stackName (sent.modify place fun request => { request with phase }) := by
  have earlier {id : Nat} {request : Request D}
      (held : (sent.modify place fun request => { request with phase })[id]? = some request) :
      ∃ before : Request D, sent[id]? = some before ∧ (request.kind = before.kind ∧ request.generation = before.generation ∧
        request.stackName = before.stackName) ∧ (request.inFlight → before.inFlight) ∧
          (place = id ∧ before = old ∧ request = { old with phase } ∨ place ≠ id ∧ request = before) := by
    obtain ⟨before, there, rfl⟩ := getElem?_moved held
    by_cases same : place = id
    · subst same
      cases found.symm.trans there
      rw [if_pos rfl]
      exact ⟨old, found, ⟨rfl, rfl, rfl⟩, still, .inl ⟨rfl, rfl, rfl⟩⟩
    · rw [if_neg same]
      exact ⟨before, there, ⟨rfl, rfl, rfl⟩, fun flies => flies, .inr ⟨same, rfl⟩⟩
  refine ⟨?_, ?_, ?_, ?_, ?_, ?_⟩
  · intro id request held
    obtain ⟨before, there, ⟨-, generation, -⟩, -⟩ := earlier held
    rw [generation, same]
    exact tracked.bound id before there
  · intro id request held current
    obtain ⟨before, there, ⟨-, generation, named⟩, -⟩ := earlier held
    rw [generation, same] at current
    exact named.trans (tracked.named id before there current)
  · intro id request held given
    rw [same]
    obtain ⟨before, there, -, -, ⟨-, -, moved⟩ | ⟨-, kept⟩⟩ := earlier held
    · rw [moved] at given ⊢
      exact late given
    · rw [kept] at given ⊢
      exact tracked.late id before there given
  · intro id request held flies current
    obtain ⟨before, there, ⟨kinds, generation, -⟩, flew, moves⟩ := earlier held
    rw [generation, same] at current
    rw [kinds, generation, running]
    refine ⟨tracked.waits id before there (flew flies) current, ?_⟩
    intro ⟨kinds_, generations_, flies_, ended⟩
    obtain ⟨-, -, moved⟩ | ⟨different, -⟩ := moves
    · rw [moved] at flies
      exact ended flies
    · exact different (tracked.alone place id old before found there kinds_.symm generations_.symm flies_ (flew flies))
  · intro first second one other held held_ kinds generations flies flies_
    obtain ⟨before, there, ⟨kinds_, generation_, -⟩, flew, -⟩ := earlier held
    obtain ⟨prior, there_, ⟨kinds', generation', -⟩, flew_, -⟩ := earlier held_
    refine tracked.alone first second before prior there there_ ?_ ?_ (flew flies) (flew_ flies_)
    · exact kinds_.symm.trans (kinds.trans kinds')
    · exact generation_.symm.trans (generations.trans generation')
  · intro kind generation busy
    obtain ⟨running_, open_⟩ := (running kind generation).mp busy
    obtain ⟨id, request, there, kinds, generations, flies⟩ := tracked.busy kind generation running_
    by_cases same : place = id
    · subst same
      cases found.symm.trans there
      refine ⟨place, { old with phase }, ?_, kinds, generations, ?_⟩
      · rw [List.getElem?_modify, found]
        simp
      · by_contra ended
        exact open_ ⟨kinds.symm, generations.symm, flies, ended⟩
    · refine ⟨id, request, ?_, kinds, generations, flies⟩
      rw [List.getElem?_modify, there]
      simp [same]

theorem Kept.moved (kept : Kept page) {old : Request D} (found : page.sent[id]? = some old)
    (open_ : ∀ answer, old.phase ≠ .handled answer) {phase : Phase D}
    (late : phase = .given none ∨ phase = .handled none → old.generation < page.generation)
    (flies : Request.inFlight { old with phase } ↔ old.inFlight) : Kept (page.move id phase) where
  tracked := kept.tracked.move found rfl late flies.mp fun _ _ =>
    ⟨fun running => ⟨running, fun ended => ended.2.2.2 (flies.mpr ended.2.2.1)⟩, And.left⟩
  shown here := (kept.shown here).move found open_ phase
  timed := ⟨kept.timed.only, kept.timed.stopped⟩

theorem unhandled {phase : Phase D} (same : request.phase = phase) (open_ : ∀ answer, phase ≠ .handled answer) :
    ∀ answer, request.phase ≠ .handled answer := same ▸ open_

theorem landed (same : request.phase = .given answer ∨ request.phase = .handled answer) : ¬ request.inFlight := by
  intro ⟨_, flies⟩
  obtain same | same := same <;> rw [same] at flies <;> obtain never | ⟨_, never⟩ := flies <;> cases never

/-- What a request was given is dealt with. -/
theorem Kept.dealt (kept : Kept page) (found : page.sent[id]? = some request) (given : request.phase = .given answer) :
    Kept (page.move id (.handled answer)) := by
  refine kept.moved found (unhandled given fun _ never => by cases never) ?_ ?_
  · intro late
    obtain never | late := late
    · cases never
    · cases late
      exact kept.tracked.late id request found (.inl given)
  · exact ⟨fun flies => absurd flies (landed (.inr rfl)), fun flies => absurd flies (landed (.inl given))⟩

theorem Shown.retrack (shown : Shown page) (same : tracker.generationValue = page.generation) :
    Shown { page with requests := tracker } := by
  refine ⟨fun data some_ => ?_, fun data some_ => ?_, fun data some_ => ?_⟩ <;>
    change Tells page.sent tracker.generationValue _ _ <;> rw [same]
  · exact shown.status data some_
  · exact shown.stats data some_
  · exact shown.availability data some_

theorem Timed.retrack (timed : Timed page) (same : tracker.generationValue = page.generation) :
    Timed { page with requests := tracker } := by
  refine ⟨?_, timed.stopped⟩
  change page.timers = [] ∨ ∃ id, page.timers = [(id, tracker.generationValue)] ∧ page.statusTimer = some id
  rw [same]
  exact timed.only

/-- A request ends for the tracker: it was one of a kind that is tracked. -/
theorem Kept.returned (kept : Kept page) {old : Request D} {answer : Answer D} (found : page.sent[id]? = some old)
    (answered : old.phase = .answered answer) :
    Kept ({ page with requests := page.requests.ended old.kind old.generation }.move id
      (.given (if page.requests.isCurrent old.generation then some answer else none))) := by
  have open_ : ∀ answer, old.phase ≠ .handled answer := unhandled answered fun _ never => by cases never
  have landed : ¬ Request.inFlight { old with
      phase := .given (if page.requests.isCurrent old.generation then some answer else none) } := landed (.inl rfl)
  have same : (page.requests.ended old.kind old.generation).generationValue = page.generation :=
    RequestTracker.ended_generationValue ..
  have timed := kept.timed.retrack same
  refine ⟨?_, fun here => ((kept.shown here).retrack same).move found open_ _, timed.only, timed.stopped⟩
  · refine kept.tracked.move found same ?_ (fun flies => absurd flies landed) ?_
    · intro none_
      have below := kept.tracked.bound id old found
      by_contra current
      have same : page.requests.isCurrent old.generation = true := isCurrent_iff.mpr (by
        change old.generation = page.requests.generationValue
        omega)
      rw [same] at none_
      obtain never | never := none_ <;> cases never
    · intro kind generation
      refine RequestTracker.ended_running.trans ?_
      refine and_congr_right fun running => not_congr ⟨?_, fun ended => ⟨ended.1, ended.2.1⟩⟩
      intro ⟨kinds, generations⟩
      obtain ⟨_, request, _, same, -, flies⟩ := kept.tracked.busy kind generation running
      have tracked : old.kind.tracked = true := by
        rw [← kinds, ← same]
        exact flies.1
      exact ⟨kinds, generations, ⟨tracked, .inr ⟨answer, answered⟩⟩, landed⟩

theorem Alive.carry (alive : Alive page) (hidden : after.hidden = page.hidden) (disposed : after.disposed = page.disposed)
    (timers : after.timers = page.timers) (polled : Polled after → Polled page) (pending : Pending page → Pending after) :
    Alive after := by
  intro looked here asked
  rw [hidden] at looked
  rw [disposed] at here
  rw [timers]
  exact (alive looked here (polled asked)).imp_left pending

/-- The polls go on as long as no answer about the services of this selection is dealt with. -/
theorem Alive.move (alive : Alive page) {tracker : RequestTracker Kind} (same : tracker.generationValue = page.generation)
    {old : Request D} (found : page.sent[id]? = some old) {phase : Phase D}
    (spared : ∀ answer, phase = .handled answer → old.kind ≠ .status ∨ old.generation ≠ page.generation) :
    Alive ({ page with requests := tracker }.move id phase) := by
  refine alive.carry rfl rfl rfl ?_ ?_
  · intro ⟨place, request, held, kinds, current⟩
    obtain ⟨before, there, rfl⟩ := getElem?_moved held
    refine ⟨place, before, there, ?_, ?_⟩
    · split at kinds <;> exact kinds
    · split at current <;> exact current.trans same
  · intro ⟨place, request, held, kinds, current, open_⟩
    refine ⟨place, if id = place then { request with phase } else request, ?_, ?_, ?_, ?_⟩
    · change (page.sent.modify id fun request => { request with phase })[place]? = _
      rw [List.getElem?_modify, held]
      rfl
    · split <;> exact kinds
    · split <;> exact current.trans same.symm
    · intro answer
      split
      next here =>
        intro handled
        subst here
        cases found.symm.trans held
        obtain other | other := spared answer handled
        · exact other kinds
        · exact other current
      next => exact open_ answer

theorem Kept.handled (kept : Kept page) (alive : Alive page) (found : page.sent[id]? = some request) {answer : Answer D}
    (given : request.phase = .given (some answer)) :
    Kept ((page.move id (.handled (some answer))).handle request answer) ∧
      Alive ((page.move id (.handled (some answer))).handle request answer) := by
  have moved : Kept (page.move id (.handled (some answer))) := kept.dealt found given
  have goes (other : request.kind ≠ .status ∨ request.generation ≠ page.generation) :
      Alive (page.move id (.handled (some answer))) :=
    alive.move (show page.requests.generationValue = page.generation from rfl) found fun _ _ => other
  have tells (current : request.generation = page.generation) {data : D} (ok : answer.ok = true) (same : answer.data = data) :
      Tells (page.move id (.handled (some answer))).sent page.generation request.kind data := by
    refine ⟨id, { request with phase := .handled (some answer) }, ?_, rfl, current, ?_⟩
    · change (page.sent.modify id fun request => { request with phase := .handled (some answer) })[id]? = _
      rw [List.getElem?_modify, found]
      simp
    · obtain ⟨ok_, data_⟩ := answer
      cases ok
      cases same
      rfl
  unfold Page.handle
  split
  next stale =>
    refine ⟨moved, ?_⟩
    by_cases here : page.disposed = false
    · refine goes (.inr fun current => ?_)
      rw [show (page.move id (.handled (some answer))).isCurrentRequest request.generation = true from
        isCurrentRequest_iff.mpr ⟨here, current⟩] at stale
      cases stale
    · exact fun _ here_ => absurd here_ here
  next fresh =>
    have now : (page.move id (.handled (some answer))).isCurrentRequest request.generation = true := by
      rwa [Bool.not_eq_true', Bool.not_eq_false] at fresh
    obtain ⟨here, current⟩ := isCurrentRequest_iff.mp now
    change page.disposed = false at here
    change request.generation = page.generation at current
    have shown := moved.shown here
    split
    next kind =>
      have other : Alive (page.move id (.handled (some answer))) := goes (.inl (by rw [kind]; decide))
      split
      next =>
        have held : Kept { page.move id (.handled (some answer)) with stack := some answer.data } :=
          moved.frame rfl rfl rfl rfl rfl
        exact held.requests other _
      next => exact ⟨moved.frame rfl rfl rfl rfl rfl, other⟩
    next kind =>
      have none_ := moved.timed.cleared
      refine ⟨⟨moved.tracked, fun _ => ⟨?_, shown.stats, shown.availability⟩, ?_⟩, fun _ _ _ => .inr ?_⟩
      · intro data some_
        change (if answer.ok then some answer.data else page.serviceStatusList) = some data at some_
        split at some_
        next ok => exact kind ▸ tells current ok (Option.some.inj some_)
        next => exact shown.status data some_
      · refine ⟨.inr ⟨page.nextTimer, ?_, rfl⟩, fun gone => ?_⟩
        · change (page.move id (.handled (some answer))).clearTimer.timers ++ [(page.nextTimer, request.generation)] = _
          rw [none_, current]
          rfl
        · change page.disposed = true at gone
          rw [here] at gone
          cases gone
      · exact List.append_ne_nil_of_right_ne_nil _ (List.cons_ne_nil _ _)
    next kind =>
      refine ⟨⟨moved.tracked, fun _ => ⟨shown.status, ?_, shown.availability⟩, moved.timed.only, moved.timed.stopped⟩,
        goes (.inl (by rw [kind]; decide))⟩
      intro data some_
      change (if answer.ok then some answer.data else none) = some data at some_
      split at some_
      next ok => exact kind ▸ tells current ok (Option.some.inj some_)
      next => cases some_
    next kind =>
      have other : Alive (page.move id (.handled (some answer))) := goes (.inl (by rw [kind]; decide))
      split
      next => exact ⟨moved, other⟩
      next =>
        refine ⟨⟨moved.tracked, fun _ => ⟨shown.status, shown.stats, ?_⟩, moved.timed.only, moved.timed.stopped⟩, other⟩
        intro data some_
        change (if answer.ok then some answer.data else none) = some data at some_
        split at some_
        next ok => exact kind ▸ tells current ok (Option.some.inj some_)
        next => cases some_

/-! ## Any history -/

theorem Alive.unlooked (away : page.hidden = true ∨ page.disposed = true) : Alive page := by
  intro looked here
  obtain never | never := away
  · rw [never] at looked
    cases looked
  · rw [never] at here
    cases here

/-- The page is seen again, or a timeout of this selection has passed. -/
theorem Alive.resumes (kept : Kept page) {generation : Option Nat} (current : generation.getD page.generation = page.generation) :
    Alive (page.requestServiceStatus generation) := by
  intro looked here _
  have sends := sends_requestServiceStatus page generation
  rw [sends.hidden] at looked
  rw [sends.disposed] at here
  exact .inl (requestServiceStatus_pending kept looked here current)

theorem Kept.withoutTimers (kept : Kept page) {timers : List (Nat × Nat)} (none_ : timers = []) : Kept { page with timers } where
  tracked := kept.tracked
  shown here := ⟨(kept.shown here).status, (kept.shown here).stats, (kept.shown here).availability⟩
  timed := ⟨.inl none_, fun _ => none_⟩

theorem Kept.step (kept : Kept page) (alive : Alive page) (event : PageEvent D) : Kept (event.run page) ∧ Alive (event.run page) := by
  cases event with
  | select stackName summary =>
      rw [PageEvent.run]
      split
      next => exact ⟨kept, alive⟩
      next => exact kept.loadStack stackName summary
  | selectWindow hours =>
      rw [PageEvent.run]
      split
      next => exact ⟨kept, alive⟩
      next =>
        have held : Kept { page with windowHours := hours } := kept.frame rfl rfl rfl rfl rfl
        have alive_ : Alive { page with windowHours := hours } := alive
        exact ⟨held.requestAvailability, alive_.send (by decide) _⟩
  | visibility hidden =>
      rw [PageEvent.run]
      dsimp only
      split
      next => exact ⟨kept, alive⟩
      next =>
        have held : Kept { page with hidden }.clearTimer := by
          have quiet : Kept { page with hidden } := kept.frame rfl rfl rfl rfl rfl
          exact quiet.withoutTimers quiet.timed.cleared
        split
        next away => exact ⟨held, .unlooked (.inl away)⟩
        next =>
          exact ⟨(held.requestServiceStatus _).requestAvailability, (Alive.resumes held rfl).send (by decide) _⟩
  | poll generation => exact ⟨kept.requestServiceStatus _, alive.requestServiceStatus kept _⟩
  | timer id =>
      rw [PageEvent.run]
      split
      next set found =>
        obtain none_ | ⟨last, only, -⟩ := kept.timed.only
        · rw [none_] at found
          cases found
        · have same : set = (last, page.generation) := by
            have member := List.mem_of_find?_eq_some found
            rw [only] at member
            exact List.mem_singleton.mp member
          have named := List.find?_some found
          rw [decide_eq_true_eq] at named
          have none_ : page.timers.filter (fun set => set.1 ≠ id) = [] := by
            rw [only, ← named, same]
            simp
          have held := kept.withoutTimers none_
          exact ⟨held.requestServiceStatus _, Alive.resumes held (by rw [same]; rfl)⟩
      next => exact ⟨kept, alive⟩
  | answers id answer =>
      rw [PageEvent.run]
      split
      next request found =>
        split
        next waiting =>
          have waits : request.phase = .waiting := by
            cases phase : request.phase with
            | waiting => rfl
            | answered | given | handled => rw [phase] at waiting; cases waiting
          have open_ : ∀ answer, request.phase ≠ .handled answer := unhandled waits fun _ never => by cases never
          refine ⟨kept.moved found open_ ?_ ?_, alive.move (show page.requests.generationValue = page.generation from rfl) found ?_⟩
          · intro late
            split at late <;> obtain never | never := late <;> cases never
          · split
            next tracked => exact ⟨fun _ => ⟨tracked, .inl waits⟩, fun _ => ⟨tracked, .inr ⟨answer, rfl⟩⟩⟩
            next tracked => exact ⟨fun flies => absurd flies.1 tracked, fun flies => absurd flies.1 tracked⟩
          · intro other never
            split at never <;> cases never
        next => exact ⟨kept, alive⟩
      next => exact ⟨kept, alive⟩
  | returns id =>
      rw [PageEvent.run]
      split
      next kind generation stackName windowHours answer found =>
        refine ⟨kept.returned found rfl, alive.move (RequestTracker.ended_generationValue ..) found ?_⟩
        intro other never
        cases never
      next => exact ⟨kept, alive⟩
  | handles id =>
      rw [PageEvent.run]
      split
      next request found =>
        split
        next given =>
          have late := kept.tracked.late id request found (.inl given)
          exact ⟨kept.dealt found given,
            alive.move (show page.requests.generationValue = page.generation from rfl) found fun _ _ => .inr (Nat.ne_of_lt late)⟩
        next answer given => exact kept.handled alive found given
        next => exact ⟨kept, alive⟩
      next => exact ⟨kept, alive⟩
  | unmount =>
      have none_ : ({ page with disposed := true, requests := page.requests.invalidate }.clearTimer).timers = [] := kept.timed.cleared
      exact ⟨⟨kept.tracked.next page.stackName, fun never => (by cases never), .inl none_, fun _ => none_⟩, .unlooked (.inr rfl)⟩

theorem mounted_kept (stackName : String) (summary : Option D) :
    Kept (mounted stackName summary) ∧ Alive (mounted stackName summary) := by
  have start : Kept ({ stackName } : Page D) := by
    refine ⟨⟨?_, ?_, ?_, ?_, ?_, ?_⟩, fun _ => ⟨?_, ?_, ?_⟩, .inl rfl, fun _ => rfl⟩
    · intro id request never
      cases never
    · intro id request never
      cases never
    · intro id request never
      cases never
    · intro id request never
      cases never
    · intro first second one other never
      cases never
    · intro kind generation never
      cases never
    · intro data never
      cases never
    · intro data never
      cases never
    · intro data never
      cases never
  exact start.loadStack stackName summary

/-- Whatever happens to a stack page, in whatever order answers come: what it shows is what a request for the stack that is
selected now was answered with, one request of a kind is in flight for a selection and only such a request keeps another one
from being sent, one timeout is left at most, and a page that is looked at and has asked goes on asking. -/
theorem polls (stackName : String) (summary : Option D) (history : List (PageEvent D)) :
    let page := replay PageEvent.run (mounted stackName summary) history
    (page.disposed = false → ∀ kind data, (kind, some data) ∈ [(Kind.status, page.serviceStatusList), (.stats, page.dockerStats),
        (.availability, page.availabilityData)] →
      ∃ request ∈ page.sent, request.kind = kind ∧ request.generation = page.generation ∧
        request.stackName = page.stackName ∧ request.phase = .handled (some ⟨true, data⟩)) ∧
    (∀ (first second : Nat) (one other : Request D), page.sent[first]? = some one → page.sent[second]? = some other →
      one.kind = other.kind → one.generation = other.generation → one.inFlight → other.inFlight → first = second) ∧
    (∀ kind, page.requests.sends kind page.generation = false →
      ∃ request ∈ page.sent, request.kind = kind ∧ request.generation = page.generation ∧
        request.stackName = page.stackName ∧ request.inFlight) ∧
    (page.timers = [] ∨ page.disposed = false ∧ ∃ id, page.timers = [(id, page.generation)] ∧ page.statusTimer = some id) ∧
    (page.hidden = false → page.disposed = false →
      (∃ request ∈ page.sent, request.kind = .status ∧ request.generation = page.generation) →
      page.timers ≠ [] ∨ ∃ request ∈ page.sent, request.kind = .status ∧ request.generation = page.generation ∧
        ∀ answer, request.phase ≠ .handled answer) := by
  intro page
  obtain ⟨kept, alive⟩ : Kept page ∧ Alive page :=
    replay_invariant (motive := fun page : Page D => Kept page ∧ Alive page) (mounted_kept stackName summary)
      (fun _ event held => held.1.step held.2 event) history
  have told {kind : Kind} {data : D} (tells : Tells page.sent page.generation kind data) :
      ∃ request ∈ page.sent, request.kind = kind ∧ request.generation = page.generation ∧
        request.stackName = page.stackName ∧ request.phase = .handled (some ⟨true, data⟩) := by
    obtain ⟨id, request, found, same, current, handled⟩ := tells
    exact ⟨request, List.mem_of_getElem? found, same, current, kept.tracked.named id request found current, handled⟩
  refine ⟨?_, kept.tracked.alone, ?_, ?_, ?_⟩
  · intro here kind data member
    have shown := kept.shown here
    simp only [List.mem_cons, Prod.mk.injEq, List.not_mem_nil, or_false] at member
    obtain ⟨rfl, some_⟩ | ⟨rfl, some_⟩ | ⟨rfl, some_⟩ := member
    · exact told (shown.status data some_.symm)
    · exact told (shown.stats data some_.symm)
    · exact told (shown.availability data some_.symm)
  · intro kind busy
    have running : page.requests.running kind = some page.generation := by
      by_contra free
      have sends : page.requests.sends kind page.generation = true := sends_iff.mpr ⟨rfl, free⟩
      rw [sends] at busy
      cases busy
    obtain ⟨id, request, found, same, current, flies⟩ := kept.tracked.busy kind _ running
    exact ⟨request, List.mem_of_getElem? found, same, current, kept.tracked.named id request found current, flies⟩
  · obtain none_ | only := kept.timed.only
    · exact .inl none_
    · by_cases here : page.disposed = false
      · exact .inr ⟨here, only⟩
      · exact .inl (kept.timed.stopped (Bool.eq_true_of_not_eq_false here))
  · intro looked here ⟨request, member, same, current⟩
    obtain ⟨id, found⟩ := List.getElem?_of_mem member
    obtain ⟨id, request, found, held⟩ | timers := alive looked here ⟨id, request, found, same, current⟩
    · exact .inr ⟨request, List.mem_of_getElem? found, held⟩
    · exact .inl timers

end Dockge.Inspector
