import Dockge.PanelUpdate.Machine.State

namespace Dockge.PanelUpdate

/-! The reducer of the statechart.  Time enters through the events, and what the page has
to do comes back as effects. -/

def parseTime (dateParse : String → Option Int) (value : String) (fallback : Int) : Int :=
  if value = "" then fallback else (dateParse value).getD fallback

def runningRecord (node : PanelUpdateRunningNode) (stage : PanelUpdateStage) : PanelUpdateEffect :=
  .persist {
    request := node.request, fromVersion := node.fromVersion, toVersion := node.toVersion
    phase := node.phase, startedAt := node.startedAt, stage, outcome := none }

def outcomeRecord (node : PanelUpdateOutcomeNode) (outcome : PanelUpdateOutcome) : PanelUpdateEffect :=
  .persist {
    request := node.request, fromVersion := node.fromVersion, toVersion := node.toVersion
    phase := node.phase, startedAt := node.startedAt, stage := .finished
    outcome := some outcome.text }

/-- Ask the panel for its status, if it can hear the page. -/
def ask (state : PanelUpdateState) (probe : Bool) : PanelUpdateStep :=
  if state.ctx.link = .online then
    let next := state.ctx.ask + 1
    ⟨{ state with ctx := { state.ctx with
        ask := next, probe := if probe then some next else state.ctx.probe } },
      [.requestStatus next]⟩
  else stay state

/-- `Idle` as the last status and the release news say. -/
def classify (ctx : PanelUpdateContext) (notice : Option PanelUpdateIdleNotice) : PanelUpdateIdleNode :=
  match ctx.status with
  | none => { sub := .loading, notice }
  | some status =>
      if status.panel.managed ≠ .yes then
        let fallback : PanelUpdateManualReason :=
          if status.panel.managed = .unknown then .unreadable else .unsupported
        { sub := .manual, reason := some (status.panel.reason.getD fallback), notice }
      else
        match ctx.latest with
        | some latest =>
            if ctx.updateAvailable ∧ latest ≠ "" ∧ latest ≠ status.panel.version then
              { sub := .available, version := some latest, notice }
            else { sub := .current, notice }
        | none => { sub := .current, notice }

/-- The apply operation of a status, unless the owner already closed it. -/
def applyOperation (ctx : PanelUpdateContext) : Option PanelUpdateOperation :=
  match ctx.status.bind (·.operation) with
  | some op => if op.kind = .apply ∧ some op.requestId ≠ ctx.closed then some op else none
  | none => none

/-- An apply of another request that runs. -/
def otherRunning (ctx : PanelUpdateContext) (request : String) : Option PanelUpdateOperation :=
  match applyOperation ctx with
  | some op => if op.running ∧ op.requestId ≠ request then some op else none
  | none => none

def pageResult : Option PanelUpdateResult → PanelUpdatePageResult
  | some result =>
      { outcome := result.outcome, code := result.code.map .result, error := result.error
        restoredData := result.restoredData }
  | none =>
      { outcome := .unknown, code := some (.result .noResult), error := none, restoredData := none }

def outcomeKind : PanelUpdateOutcome → PanelUpdateOutcomeKind
  | .noChange | .refused | .failedBeforeCutover => .notChanged
  | .recovered => .rolledBack
  | .recoveryRequired => .recoveryRequired
  | .previewed | .success | .unknown => .unknown

/-- The outcome a finished apply operation stands for.  `Updated` needs the updater's
success for this request and the answering panel on the target version. -/
def judge (op : PanelUpdateOperation) (status : PanelUpdateStatus) (target : String) :
    PanelUpdateOutcomeKind × PanelUpdatePageResult :=
  let result := pageResult op.result
  if result.outcome = .success then
    if status.panel.version = target then (.updated, result)
    else (.unknown, { result with outcome := .unknown, code := some (.result .versionMismatch) })
  else (outcomeKind result.outcome, result)

def outcomeNode (request fromVersion toVersion : String) (startedAt : Int) (phase : Option String)
    (sub : PanelUpdateOutcomeKind) (result : PanelUpdatePageResult) (watched : Bool) :
    PanelUpdateOutcomeNode :=
  { sub, request, fromVersion, toVersion, startedAt, phase, result
    updated := if sub = .updated then some .shown else none
    watched }

/-- What the page decides on its own about an operation nothing can confirm. -/
def unknownResult (code : PanelUpdatePageCode) : PanelUpdatePageResult :=
  { outcome := .unknown, code := some code, error := none, restoredData := none }

section
variable (dateParse : String → Option Int)

/-- An apply operation runs, followed as an observer. -/
def observe (state : PanelUpdateState) (op : PanelUpdateOperation) (now : Int) : PanelUpdateStep :=
  let node : PanelUpdateRunningNode := {
    request := op.requestId, fromVersion := op.fromVersion, toVersion := op.toVersion
    startedAt := parseTime dateParse op.startedAt now, phase := op.phase
    progress := progressOfPhase op.phase, observer := true, seen := true, ackPending := false
    heardAt := now }
  withNode state (.running node) [runningRecord node .running]

/-- An apply operation that finished before the page followed it. -/
def settled (op : PanelUpdateOperation) (status : PanelUpdateStatus) (now : Int) (watched : Bool) :
    PanelUpdateOutcomeNode :=
  let (sub, result) := judge op status op.toVersion
  outcomeNode op.requestId op.fromVersion op.toVersion (parseTime dateParse op.startedAt now) op.phase
    sub result watched

/-- Leave for `Idle`, following an apply operation the status shows. -/
def enterIdle (state : PanelUpdateState) (now : Int) (notice : Option PanelUpdateIdleNotice) :
    PanelUpdateStep :=
  match applyOperation state.ctx, state.ctx.status with
  | some op, some status =>
      if op.running then observe dateParse state op now
      else
        let found := settled dateParse op status now false
        if found.sub = .updated ∧ state.ctx.build.isSome ∧ state.ctx.build ≠ some found.toVersion then
          -- This page is the old build, which slept through the update: load the new one
          let reloading := { found with updated := some .reloading, reloadAt := some now }
          withNode state (.outcome reloading) [outcomeRecord reloading .success, .reload]
        else withNode state (.outcome found)
  | _, _ => withNode state (.idle (classify state.ctx notice))

end

def boot (state : PanelUpdateState) (persisted : Option PanelUpdateRecord) (now : Int)
    (build : Option String) : PanelUpdateStep :=
  let ctx := { state.ctx with link := .offline now false, probe := none, build }
  match persisted with
  | none => stay { ctx, node := .idle { sub := .loading } }
  | some record =>
      if record.stage = .finished then
        if record.outcome ≠ some "success" then
          ⟨{ ctx, node := .idle { sub := .loading } }, [.clearPersist]⟩
        else
          -- Shown again after the reload, pending a status that confirms it
          let node := outcomeNode record.request record.fromVersion record.toVersion record.startedAt
            record.phase .updated
            { outcome := .success, code := none, error := none, restoredData := none } true
          stay { ctx, node := .outcome { node with pending := true } }
      else
        stay { ctx, node := .running {
          request := record.request, fromVersion := record.fromVersion, toVersion := record.toVersion
          startedAt := record.startedAt, phase := record.phase
          progress := if record.stage = .submitting then .submitting else progressOfPhase record.phase
          observer := false, seen := decide (record.stage = .running), ackPending := false
          heardAt := now } }

def info (state : PanelUpdateState) (latestVersion : Option String) (updateAvailable : Bool) :
    PanelUpdateStep :=
  let ctx := { state.ctx with latest := latestVersion, updateAvailable }
  match state.node with
  | .idle node =>
      if node.sub ≠ .loading ∧ ctx.status.isSome then
        stay { ctx, node := .idle (classify ctx node.notice) }
      else stay { state with ctx }
  | _ => stay { state with ctx }

def linkUp (state : PanelUpdateState) (now : Int) : PanelUpdateStep :=
  let up := { state with ctx := { state.ctx with link := .online } }
  match state.node with
  | .idle node =>
      ask (if node.sub = .loading then
        { up with node := .idle { node with requestedAt := some now } } else up) false
  | .preview node =>
      -- A new connection: an acknowledgement still due will never arrive
      if node.sub = .checking then
        ask { up with node := .preview { node with heardAt := some now } } true
      else ask up false
  | .running node =>
      ask { up with node := .running { node with
        heardAt := now, quiet := false, ackPending := false } } true
  | .outcome node =>
      if node.pending then ask { up with node := .outcome { node with askedAt := some now } } true
      else ask up false

def linkDown (state : PanelUpdateState) (now : Int) : PanelUpdateStep :=
  match state.ctx.link with
  | .offline _ _ => stay state
  | _ => stay { state with ctx := { state.ctx with link := .offline now false, probe := none } }

def authLost (state : PanelUpdateState) : PanelUpdateStep :=
  stay { state with ctx := { state.ctx with link := .needAuth, probe := none } }

def previewDeadline (node : PanelUpdatePreviewNode) (link : PanelUpdateLink) : Option Int :=
  match node.sub with
  | .checking => if link = .online then node.heardAt.map (· + panelUpdateCheckQuietMs) else none
  | .ready => node.expires
  | .refused => none

def tickRunning (state : PanelUpdateState) (node : PanelUpdateRunningNode) (now : Int) :
    PanelUpdateStep :=
  let deadline := panelUpdateDeadlines node.progress
  match state.ctx.link with
  | .offline since overdue =>
      if overdue = false ∧ now - since ≥ deadline then
        stay { state with ctx := { state.ctx with link := .offline since true } }
      else stay state
  | .online =>
      if node.ackPending = false ∧ now - node.heardAt ≥ deadline then
        ask { state with node := .running { node with quiet := true, heardAt := now } } true
      else stay state
  | .needAuth => stay state

def tickPreview (state : PanelUpdateState) (node : PanelUpdatePreviewNode) (now : Int) :
    PanelUpdateStep :=
  match previewDeadline node state.ctx.link with
  | none => stay state
  | some deadline =>
      if now < deadline then stay state
      else if node.sub = .ready then
        withNode state (.idle (classify state.ctx (some .previewExpired)))
      else
        -- Checking: the push with the result was lost, or Docker could not be read when it ended
        ask { state with node := .preview { node with quiet := true, heardAt := some now } } true

/-- Whether a wait that began then is over. -/
def waited (since : Option Int) (wait now : Int) : Bool :=
  match since with
  | some since => now - since ≥ wait
  | none => false

def tick (state : PanelUpdateState) (now : Int) : PanelUpdateStep :=
  match state.node with
  | .idle node =>
      if node.sub = .loading ∧ waited node.requestedAt panelUpdateLoadingMs now then
        withNode state (.idle { sub := .manual, reason := some .unsupported })
      else stay state
  | .preview node => tickPreview state node now
  | .running node => tickRunning state node now
  | .outcome node =>
      if node.pending ∧ state.ctx.link = .online ∧ waited node.askedAt panelUpdateLoadingMs now then
        -- The answer that confirms Updated was lost or unreadable: ask again
        ask { state with node := .outcome { node with askedAt := some now } } true
      else if node.updated = some .reloading ∧ node.stalled = false ∧
          waited node.reloadAt panelUpdateReloadStallMs now then
        withNode state (.outcome { node with stalled := true })
      else stay state

def refused (state : PanelUpdateState) (node : PanelUpdatePreviewNode)
    (refusal : PanelUpdateRefusal) : PanelUpdateStep :=
  withNode state (.preview { node with
    sub := .refused, dialog := false, refusal := some refusal, notice := none, message := none })

section
variable (dateParse : String → Option Int)

def previewExpiry (finishedAt : Option String) (now : Int) : Int :=
  let finished := parseTime dateParse (finishedAt.getD "") now
  min (max finished (now - panelUpdatePreviewTtlMs)) now + panelUpdatePreviewTtlMs

def previewFinished (state : PanelUpdateState) (node : PanelUpdatePreviewNode)
    (op : PanelUpdateOperation) (now : Int) : PanelUpdateStep :=
  match op.result, op.preview with
  | some result, some preview =>
      if result.outcome = .previewed ∧ op.toVersion = node.toVersion then
        withNode state (.preview { node with
          sub := .ready, fromVersion := op.fromVersion, preview := some preview
          expires := some (previewExpiry dateParse result.finishedAt now) })
      else refusedResult
  | _, _ => refusedResult
where
  refusedResult : PanelUpdateStep :=
    refused state node {
      kind := .result, code := op.result.bind (·.code.map (·.text)), msg := none
      outcome := some ((op.result.map (·.outcome.text)).getD "unknown")
      error := op.result.bind (·.error) }

def previewStatus (state : PanelUpdateState) (node : PanelUpdatePreviewNode) (now : Int)
    (probe : Bool) : PanelUpdateStep :=
  match state.ctx.status.bind (·.operation) with
  | some op =>
      if op.kind = .apply ∧ op.running then
        -- An apply runs after all - a lost acknowledgement, or another owner: follow it
        observe dateParse state op now
      else if node.sub ≠ .checking then stay state
      else if op.kind = .preview ∧ op.requestId = node.request then
        if op.running then withNode state (.preview { node with heardAt := some now })
        else previewFinished dateParse state node op now
      else gone
  | none => if node.sub ≠ .checking then stay state else gone
where
  -- Only the answer to the page's own request says the helper is gone
  gone : PanelUpdateStep :=
    if probe then
      refused state node { kind := .lost, code := none, msg := none, outcome := none, error := none }
    else stay state

def nextProgress (node : PanelUpdateRunningNode) (phase : Option String) :
    PanelUpdateProgress × Option PanelUpdateRunningNotice :=
  if node.progress ≠ .cancelling then (progressOfPhase phase, node.notice)
  else if canCancelPanelUpdate phase then (.cancelling, node.notice)
  else (progressOfPhase phase, some .tooLate)

/-- Follow the phase forward, never back. -/
def advance (state : PanelUpdateState) (node : PanelUpdateRunningNode) (op : PanelUpdateOperation)
    (now : Int) : PanelUpdateStep :=
  let phase := op.phase
  let heard := { node with seen := true, heardAt := now, quiet := false }
  if phaseRank phase > phaseRank node.phase ∨ (phaseRank phase = phaseRank node.phase ∧ phase.isSome) then
    let (progress, notice) := nextProgress node phase
    let next := { heard with phase, progress, notice }
    withNode state (.running next)
      (if phase ≠ node.phase ∨ node.seen = false then [runningRecord next .running] else [])
  else
    let next := { heard with
      progress := if node.progress = .submitting then progressOfPhase node.phase else node.progress }
    withNode state (.running next) (if node.seen then [] else [runningRecord next .running])

def finishRunning (state : PanelUpdateState) (node : PanelUpdateRunningNode)
    (op : PanelUpdateOperation) (status : PanelUpdateStatus) (now : Int) : PanelUpdateStep :=
  let (sub, result) := judge op status node.toVersion
  let phase := if phaseRank op.phase ≥ phaseRank node.phase then op.phase.or node.phase else node.phase
  let done := outcomeNode node.request node.fromVersion node.toVersion node.startedAt phase sub result true
  if sub = .updated then
    -- The only way into Updated from a running operation
    let reloading := { done with updated := some .reloading, reloadAt := some now }
    withNode state (.outcome reloading) [outcomeRecord reloading .success, .reload]
  else withNode state (.outcome done) [outcomeRecord done result.outcome]

/-- The request never reached the panel.  When another apply runs instead, the record of
this one is cleared and that one is followed, as from `Idle`. -/
def notStarted (state : PanelUpdateState) (node : PanelUpdateRunningNode) (now : Int) :
    PanelUpdateStep :=
  let idle := enterIdle dateParse state now (some .notStarted)
  let left : PanelUpdateStep := ⟨idle.state, .clearPersist :: idle.effects⟩
  match node.back with
  | some back =>
      if back.expires > now ∧ ¬ (applyOperation state.ctx).any (·.running) then
        withNode state (.preview {
          sub := .ready, request := back.previewRequest, fromVersion := node.fromVersion
          toVersion := node.toVersion, preview := back.preview, expires := some back.expires
          notice := some .notStarted }) [.clearPersist]
      else left
  | none => left

def runningStatus (state : PanelUpdateState) (node : PanelUpdateRunningNode)
    (status : PanelUpdateStatus) (now : Int) (probe : Bool) : PanelUpdateStep :=
  match status.operation with
  | some op =>
      if op.kind = .apply ∧ op.requestId = node.request then
        if op.running then advance state node op now else finishRunning state node op status now
      else unheard
  | none => unheard
where
  -- A push may predate `docker run`, and a foreign request is not ours
  unheard : PanelUpdateStep :=
    if probe = false then stay state
    else if node.progress = .submitting ∧ node.seen = false then notStarted dateParse state node now
    else
      match otherRunning state.ctx node.request with
      | some other => observe dateParse state other now
      | none =>
          -- The helper is gone, nothing can confirm what happened
          let gone := outcomeNode node.request node.fromVersion node.toVersion node.startedAt node.phase
            .unknown (unknownResult .helperRemoved) true
          withNode state (.outcome gone) [outcomeRecord gone .unknown]

def contradiction (state : PanelUpdateState) (node : PanelUpdateOutcomeNode) : PanelUpdateStep :=
  let unknown := outcomeNode node.request node.fromVersion node.toVersion node.startedAt node.phase
    .unknown (unknownResult .contradiction) true
  withNode state (.outcome unknown) [outcomeRecord unknown .unknown]

/-- A pending result against the status that should confirm it. -/
def confirmOutcome (state : PanelUpdateState) (node : PanelUpdateOutcomeNode)
    (status : PanelUpdateStatus) (probe : Bool) : PanelUpdateStep :=
  match status.operation with
  | some op =>
      if op.kind = .apply ∧ op.requestId = node.request then
        if op.running then contradiction state node
        else
          let (sub, result) := judge op status node.toVersion
          if sub = .updated then withNode state (.outcome { node with pending := false, result })
          else
            let next := outcomeNode node.request node.fromVersion node.toVersion node.startedAt
              node.phase sub result true
            withNode state (.outcome next) [outcomeRecord next result.outcome]
      else if probe = false ∨ op.kind = .apply then
        -- Another apply says nothing about ours; the owner can still close the result
        stay state
      else dismissed
  | none => if probe = false then stay state else dismissed
where
  -- The helper was dismissed elsewhere: the version still has to be the target
  dismissed : PanelUpdateStep :=
    if status.panel.version = node.toVersion then
      withNode state (.outcome { node with pending := false })
    else contradiction state node

def outcomeStatus (state : PanelUpdateState) (node : PanelUpdateOutcomeNode)
    (status : PanelUpdateStatus) (probe : Bool) (now : Int) : PanelUpdateStep :=
  match if node.updated = some .reloading then none else otherRunning state.ctx node.request with
  | some other => observe dateParse state other now
  | none => if node.pending = false then stay state else confirmOutcome state node status probe

/-- Whether a status with this ask answers the request that may say the helper is gone. -/
def answersProbe (ctx : PanelUpdateContext) (solicited : Bool) (askId : Option Nat) : Bool :=
  solicited ∧ askId.isSome ∧ askId = ctx.probe

/-- The state that holds the status; an answered probe is answered once. -/
def takeStatus (state : PanelUpdateState) (status : PanelUpdateStatus) (probe : Bool) : PanelUpdateState :=
  { state with ctx := { state.ctx with
    status := some status, probe := if probe then none else state.ctx.probe } }

@[simp] theorem takeStatus_node (state : PanelUpdateState) (status : PanelUpdateStatus) (probe : Bool) :
    (takeStatus state status probe).node = state.node := rfl

@[simp] theorem takeStatus_status (state : PanelUpdateState) (status : PanelUpdateStatus) (probe : Bool) :
    (takeStatus state status probe).ctx.status = some status := rfl

def onStatus (state : PanelUpdateState) (status : PanelUpdateStatus) (solicited : Bool)
    (askId : Option Nat) (now : Int) : PanelUpdateStep :=
  let probe := answersProbe state.ctx solicited askId
  let next := takeStatus state status probe
  match state.node with
  | .idle node => enterIdle dateParse next now node.notice
  | .preview node => previewStatus dateParse next node now probe
  | .running node => runningStatus dateParse next node status now probe
  | .outcome node => outcomeStatus dateParse next node status probe now

def statusAck (state : PanelUpdateState) (askId : Nat) (result : PanelUpdateAckResult) (now : Int) :
    PanelUpdateStep :=
  match result with
  | .ok status => onStatus dateParse state status true (some askId) now
  | .error code _ => unanswered (if code = "unreadable" then .unreadable else .unsupported)
  | .lost => unanswered .unsupported
where
  unanswered (reason : PanelUpdateManualReason) : PanelUpdateStep :=
    let next := if some askId = state.ctx.probe then
      { state with ctx := { state.ctx with probe := none } } else state
    match next.node with
    | .idle node =>
        if node.sub = .loading then withNode next (.idle { sub := .manual, reason := some reason })
        else stay next
    | _ => stay next

def previewAck (stateBefore : PanelUpdateState) (nodeBefore : PanelUpdatePreviewNode)
    (requestId : String) (result : PanelUpdateAckResult) (now : Int) : PanelUpdateStep :=
  if nodeBefore.sub ≠ .checking ∨ nodeBefore.request ≠ requestId then stay stateBefore
  else
    -- The deadline of the check counts from its acknowledgement
    let node := { nodeBefore with heardAt := some now }
    let state := { stateBefore with node := .preview node }
    match result with
    | .ok status => onStatus dateParse state status true none now
    | .error code msg =>
        if code = "unreadable" then
          -- Docker did not answer and nothing started: back where the owner was, to retry
          withNode state (.idle (classify state.ctx (some .unreadable)))
        else refused state node { kind := .error, code := some code, msg, outcome := none, error := none }
    | .lost => ask state true

/-- The refusals after which the password dialog stays for another attempt. -/
def retryNotice (code : String) : Option PanelUpdatePreviewNotice :=
  if code = "password" then some .password
  else if code = "unreadable" then some .unreadable
  else none

def applyRefused (state : PanelUpdateState) (node : PanelUpdateRunningNode) (code : String)
    (msg : Option String) (now : Int) : PanelUpdateStep :=
  let preview : PanelUpdatePreviewNode := {
    sub := .ready, request := (node.back.map (·.previewRequest)).getD node.request
    fromVersion := node.fromVersion, toVersion := node.toVersion
    preview := node.back.bind (·.preview), expires := node.back.map (·.expires) }
  if (retryNotice code).isSome ∧ node.back.any (·.expires > now) then
    withNode state (.preview { preview with
      dialog := true, notice := retryNotice code, message := msg }) [.clearPersist]
  else
    withNode state (.preview { preview with
      sub := .refused
      refusal := some { kind := .error, code := some code, msg, outcome := none, error := none } })
      [.clearPersist]

def applyAck (state : PanelUpdateState) (node : PanelUpdateRunningNode)
    (result : PanelUpdateAckResult) (now : Int) : PanelUpdateStep :=
  let settledAck := { state with node := .running { node with ackPending := false } }
  match result with
  | .ok status => onStatus dateParse settledAck status true none now
  | .error code msg =>
      -- Nothing started, unless a status already showed the helper
      if node.progress = .submitting ∧ node.seen = false then applyRefused state node code msg now
      else stay settledAck
  | .lost => withNode settledAck (.running { node with ackPending := false, heardAt := now })

def cancelAck (state : PanelUpdateState) (node : PanelUpdateRunningNode)
    (result : PanelUpdateAckResult) (now : Int) : PanelUpdateStep :=
  match result with
  | .ok status => onStatus dateParse state status true none now
  | .lost => stay state
  | .error code _ =>
      if node.progress ≠ .cancelling then stay state
      else
        withNode state (.running { node with
          progress := progressOfPhase node.phase
          notice := some (if code = "too-late" then .tooLate else .cancelFailed) })

def dismissAck (state : PanelUpdateState) (requestId : String) (result : PanelUpdateAckResult)
    (now : Int) : PanelUpdateStep :=
  if state.ctx.closed ≠ some requestId then stay state
  else
    match result with
    | .ok status => onStatus dateParse state status true none now
    | _ =>
        -- The helper may still be there: let the next status show the result again
        let reopened := { state with ctx := { state.ctx with closed := none } }
        match state.node with
        | .idle node =>
            if node.sub ≠ .loading then stay reopened
            else ask { reopened with node := .idle { node with requestedAt := some now } } false
        | _ => stay reopened

/-- A status the panel sends when Docker did not answer.  It says nothing about the
operation, so it is never read as "no operation". -/
def panelUpdateStatusUnreadable (status : PanelUpdateStatus) : Bool :=
  status.panel.managed = .unknown ∧ status.panel.reason = some .unreadable

/-- An unreadable status in an acknowledgement counts as no answer: the action was taken or
refused, but what the panel knows now is unknown. -/
def readableResult (ack : PanelUpdateAck) : PanelUpdateAckResult → PanelUpdateAckResult
  | .ok status =>
      if panelUpdateStatusUnreadable status then
        match ack with
        | .status _ => .error "unreadable" none
        | .request _ _ => .lost
      else .ok status
  | result => result

def onAck (state : PanelUpdateState) (ack : PanelUpdateAck) (given : PanelUpdateAckResult) (now : Int) :
    PanelUpdateStep :=
  let result := readableResult ack given
  match ack with
  | .status askId => statusAck dateParse state askId result now
  | .request .dismiss requestId => dismissAck dateParse state requestId result now
  | .request .preview requestId =>
      match state.node with
      | .preview node => previewAck dateParse state node requestId result now
      | _ => stay state
  | .request .apply requestId =>
      match state.node with
      | .running node =>
          if node.request ≠ requestId then stay state else applyAck dateParse state node result now
      | _ => stay state
  | .request .cancel requestId =>
      match state.node with
      | .running node =>
          if node.request ≠ requestId then stay state else cancelAck dateParse state node result now
      | _ => stay state

end

/-- Cancel is offered while the image is still being fetched. -/
def panelUpdateCanCancel (state : PanelUpdateState) : Bool :=
  match state.node with
  | .running node =>
      (node.progress = .starting ∨ node.progress = .downloading) ∧ canCancelPanelUpdate node.phase ∧
        state.ctx.link = .online
  | _ => false

def check (state : PanelUpdateState) (owner : Bool) (requestId : String) : PanelUpdateStep :=
  match state.node, state.ctx.status with
  | .idle node, some status =>
      match node.version with
      | some version =>
          if owner ∧ node.sub = .available ∧ state.ctx.link = .online ∧ status.panel.managed = .yes ∧
              version ≠ "" ∧ panelVersionPattern version ∧ panelUpdateRequestPattern requestId then
            withNode state (.preview {
              sub := .checking, request := requestId, fromVersion := status.panel.version
              toVersion := version }) [.emitPreview requestId version]
          else stay state
      | none => stay state
  | _, _ => stay state

def confirm (state : PanelUpdateState) (owner : Bool) : PanelUpdateStep :=
  match state.node with
  | .preview node =>
      if owner = false ∨ node.sub ≠ .ready ∨ node.dialog then stay state
      else withNode state (.preview { node with dialog := true, notice := none, message := none })
  | _ => stay state

def submit (state : PanelUpdateState) (owner : Bool) (password requestId : String) (now : Int) :
    PanelUpdateStep :=
  match state.node with
  | .preview node =>
      if owner = false ∨ node.sub ≠ .ready ∨ node.dialog = false ∨ state.ctx.link ≠ .online then stay state
      else if password = "" ∨ panelUpdateRequestPattern requestId = false then stay state
      else
        match node.expires with
        | none => stay state
        | some expires =>
            if expires ≤ now then stay state
            else
              -- The password goes into the emit and nowhere else
              let running : PanelUpdateRunningNode := {
                request := requestId, fromVersion := node.fromVersion, toVersion := node.toVersion
                startedAt := now, phase := none, progress := .submitting, observer := false
                seen := false, ackPending := true, heardAt := now
                back := some { previewRequest := node.request, preview := node.preview, expires } }
              withNode state (.running running)
                [runningRecord running .submitting,
                  .emitApply requestId node.request node.toVersion password]
  | _ => stay state

def cancel (state : PanelUpdateState) (owner : Bool) : PanelUpdateStep :=
  match state.node with
  | .running node =>
      if owner = false ∨ panelUpdateCanCancel state = false then stay state
      else
        withNode state (.running { node with progress := .cancelling, notice := none })
          [.emitCancel node.request]
  | _ => stay state

def dismiss (state : PanelUpdateState) (owner : Bool) (now : Int) : PanelUpdateStep :=
  match state.node with
  | .outcome node =>
      if owner = false ∨ node.updated = some .reloading then stay state
      else if state.ctx.link ≠ .online then
        -- Hide it locally without marking the helper dismissed
        withNode state (.idle (classify state.ctx none)) [.clearPersist]
      else
        let closed := { state with ctx := { state.ctx with closed := some node.request } }
        withNode closed (.idle { sub := .loading, requestedAt := some now })
          [.emitDismiss node.request, .clearPersist]
  | _ => stay state

def close (state : PanelUpdateState) : PanelUpdateStep :=
  match state.node with
  | .preview node =>
      if node.dialog then
        withNode state (.preview { node with dialog := false, notice := none, message := none })
      else withNode state (.idle (classify state.ctx none))
  | .outcome node =>
      if node.updated = some .reloading then stay state
      else
        let closed := { state with ctx := { state.ctx with closed := some node.request } }
        withNode closed (.idle (classify closed.ctx none)) [.clearPersist]
  | _ => stay state

/-- Advance the statechart by one event. -/
def reducePanelUpdate (dateParse : String → Option Int) (state : PanelUpdateState) :
    PanelUpdateEvent → PanelUpdateStep
  | .boot persisted now build => boot state persisted now build
  | .info latestVersion updateAvailable => info state latestVersion updateAvailable
  | .status status solicited askId now =>
      if panelUpdateStatusUnreadable status then stay state
      else onStatus dateParse state status solicited askId now
  | .linkUp now => linkUp state now
  | .linkDown now => linkDown state now
  | .authLost => authLost state
  | .ack ack result now => onAck dateParse state ack result now
  | .tick now => tick state now
  | .check owner requestId => check state owner requestId
  | .confirm owner => confirm state owner
  | .submit owner password requestId now => submit state owner password requestId now
  | .cancel owner => cancel state owner
  | .dismiss owner now => dismiss state owner now
  | .close => close state

/-- The next moment a TICK can change the state; none when nothing waits on the clock. -/
def panelUpdateDeadline (state : PanelUpdateState) : Option Int :=
  match state.node with
  | .idle node =>
      if node.sub = .loading then node.requestedAt.map (· + panelUpdateLoadingMs) else none
  | .preview node => previewDeadline node state.ctx.link
  | .outcome node =>
      if node.pending then
        if state.ctx.link = .online then node.askedAt.map (· + panelUpdateLoadingMs) else none
      else if node.updated = some .reloading ∧ node.stalled = false then
        node.reloadAt.map (· + panelUpdateReloadStallMs)
      else none
  | .running node =>
      let deadline := panelUpdateDeadlines node.progress
      match state.ctx.link with
      | .offline since overdue => if overdue then none else some (since + deadline)
      | .online => if node.ackPending then none else some (node.heardAt + deadline)
      | .needAuth => none

end Dockge.PanelUpdate
