import Dockge.PanelUpdate.Contract

namespace Dockge.PanelUpdate

/-! The page side of updating the panel: the states of the statechart, its events and what
it asks the page to do. -/

/-- How long the first status may take before the page offers the host commands. -/
def panelUpdateLoadingMs : Int := 15000

/-- How long the automatic reload may take before a Reload button appears. -/
def panelUpdateReloadStallMs : Int := 5000

/-- How long a running check may go unheard before the page asks for its status again. -/
def panelUpdateCheckQuietMs : Int := 60000

/-- What the Progress region of `Running` is doing. -/
inductive PanelUpdateProgress where
  | submitting
  | starting
  | downloading
  | ready
  | cancelling
  | stopping
  | snapshot
  | targetStarting
  | verifying
  | rollingBack
  | finishing
  | stepUnknown
deriving DecidableEq, Repr

/-- How long the page waits without news before it says so. -/
def panelUpdateDeadlines : PanelUpdateProgress → Int
  | .submitting => 60000
  | .starting => 120000
  | .downloading => 120000
  | .ready => 120000
  | .cancelling => 120000
  | .stopping => 600000
  | .snapshot => 600000
  | .targetStarting => 600000
  | .stepUnknown => 600000
  | .rollingBack => 600000
  | .verifying => 180000
  | .finishing => 180000

theorem panelUpdateDeadlines_pos (progress : PanelUpdateProgress) : 0 < panelUpdateDeadlines progress := by
  cases progress <;> decide

/-- The Link region: whether the page can hear the panel. -/
inductive PanelUpdateLink where
  | online
  | needAuth
  | offline (since : Int) (overdue : Bool)
deriving DecidableEq, Repr

inductive PanelUpdateRefusalKind where
  | error
  | result
  | lost
deriving DecidableEq, Repr

/-- Why the preview did not end in a dry run the owner can apply. -/
structure PanelUpdateRefusal where
  kind : PanelUpdateRefusalKind
  code : Option String
  msg : Option String
  outcome : Option String
  error : Option String
deriving DecidableEq, Repr

/-- A code of the updater, or one the page decided itself. -/
inductive PanelUpdatePageCode where
  | result (code : PanelUpdateResultCode)
  | helperRemoved
  | contradiction
deriving DecidableEq, Repr

/-- A result as the page keeps it. -/
structure PanelUpdatePageResult where
  outcome : PanelUpdateOutcome
  code : Option PanelUpdatePageCode
  error : Option String
  restoredData : Option Bool
deriving DecidableEq, Repr

inductive PanelUpdateIdleSub where
  | loading
  | manual
  | current
  | available
deriving DecidableEq, Repr

inductive PanelUpdateIdleNotice where
  | previewExpired
  | notStarted
  | unreadable
deriving DecidableEq, Repr

structure PanelUpdateIdleNode where
  sub : PanelUpdateIdleSub
  reason : Option PanelUpdateManualReason := none
  version : Option String := none
  /-- When the status was asked for, while loading. -/
  requestedAt : Option Int := none
  notice : Option PanelUpdateIdleNotice := none
deriving DecidableEq, Repr

inductive PanelUpdatePreviewSub where
  | checking
  | ready
  | refused
deriving DecidableEq, Repr

inductive PanelUpdatePreviewNotice where
  | notStarted
  | password
  | unreadable
deriving DecidableEq, Repr

structure PanelUpdatePreviewNode where
  sub : PanelUpdatePreviewSub
  request : String
  fromVersion : String
  toVersion : String
  preview : Option PanelUpdatePreview := none
  expires : Option Int := none
  /-- The password dialog of `Ready`. -/
  dialog : Bool := false
  refusal : Option PanelUpdateRefusal := none
  notice : Option PanelUpdatePreviewNotice := none
  message : Option String := none
  /-- When the page last heard of its check; none while the acknowledgement is due. -/
  heardAt : Option Int := none
  quiet : Bool := false
deriving DecidableEq, Repr

/-- What `Submitting` returns to when the apply did not start. -/
structure PanelUpdateBack where
  previewRequest : String
  preview : Option PanelUpdatePreview
  expires : Int
deriving DecidableEq, Repr

inductive PanelUpdateRunningNotice where
  | tooLate
  | cancelFailed
deriving DecidableEq, Repr

structure PanelUpdateRunningNode where
  request : String
  fromVersion : String
  toVersion : String
  startedAt : Int
  /-- The furthest phase seen. -/
  phase : Option String
  progress : PanelUpdateProgress
  /-- Followed from a status rather than started here. -/
  observer : Bool
  /-- A status of this request arrived. -/
  seen : Bool
  /-- The apply acknowledgement is still due. -/
  ackPending : Bool
  heardAt : Int
  quiet : Bool := false
  notice : Option PanelUpdateRunningNotice := none
  back : Option PanelUpdateBack := none
deriving DecidableEq, Repr

inductive PanelUpdateOutcomeKind where
  | updated
  | notChanged
  | rolledBack
  | recoveryRequired
  | unknown
deriving DecidableEq, Repr

inductive PanelUpdateUpdated where
  | reloading
  | shown
deriving DecidableEq, Repr

structure PanelUpdateOutcomeNode where
  sub : PanelUpdateOutcomeKind
  request : String
  fromVersion : String
  toVersion : String
  startedAt : Int
  phase : Option String
  result : PanelUpdatePageResult
  /-- Updated only: the page reloads, or shows the result after the reload. -/
  updated : Option PanelUpdateUpdated
  /-- Shown after a reload, until a status confirms it again. -/
  pending : Bool := false
  askedAt : Option Int := none
  reloadAt : Option Int := none
  stalled : Bool := false
  /-- Followed while it ran, rather than found finished. -/
  watched : Bool
deriving DecidableEq, Repr

inductive PanelUpdateNode where
  | idle (node : PanelUpdateIdleNode)
  | preview (node : PanelUpdatePreviewNode)
  | running (node : PanelUpdateRunningNode)
  | outcome (node : PanelUpdateOutcomeNode)
deriving DecidableEq, Repr

structure PanelUpdateContext where
  link : PanelUpdateLink
  /-- The last status the panel sent. -/
  status : Option PanelUpdateStatus
  /-- The newest release the page was told about. -/
  latest : Option String
  updateAvailable : Bool
  /-- Sequence of the page's own status requests. -/
  ask : Nat
  /-- The request whose answer may say "the helper is gone". -/
  probe : Option Nat
  /-- A finished operation the owner closed. -/
  closed : Option String
  /-- Version of the page's own build. -/
  build : Option String
deriving DecidableEq, Repr

structure PanelUpdateState where
  ctx : PanelUpdateContext
  node : PanelUpdateNode
deriving DecidableEq, Repr

inductive PanelUpdateStage where
  | submitting
  | running
  | finished
deriving DecidableEq, Repr

/-- The operation as `sessionStorage` keeps it.  Never a password. -/
structure PanelUpdateRecord where
  request : String
  fromVersion : String
  toVersion : String
  phase : Option String
  startedAt : Int
  stage : PanelUpdateStage
  outcome : Option String
deriving DecidableEq, Repr

inductive PanelUpdateAckResult where
  | ok (status : PanelUpdateStatus)
  | error (code : String) (msg : Option String)
  | lost
deriving DecidableEq, Repr

/-- The acknowledgements that name a request. -/
inductive PanelUpdateRequestKind where
  | preview
  | apply
  | cancel
  | dismiss
deriving DecidableEq, Repr

inductive PanelUpdateAck where
  | status (ask : Nat)
  | request (kind : PanelUpdateRequestKind) (requestId : String)
deriving DecidableEq, Repr

inductive PanelUpdateEvent where
  | boot (persisted : Option PanelUpdateRecord) (now : Int) (build : Option String)
  | info (latestVersion : Option String) (updateAvailable : Bool)
  | status (status : PanelUpdateStatus) (solicited : Bool) (ask : Option Nat) (now : Int)
  | linkUp (now : Int)
  | linkDown (now : Int)
  | authLost
  | ack (ack : PanelUpdateAck) (result : PanelUpdateAckResult) (now : Int)
  | tick (now : Int)
  | check (owner : Bool) (requestId : String)
  | confirm (owner : Bool)
  | submit (owner : Bool) (password : String) (requestId : String) (now : Int)
  | cancel (owner : Bool)
  | dismiss (owner : Bool) (now : Int)
  | close
deriving DecidableEq, Repr

inductive PanelUpdateEffect where
  | emitPreview (requestId version : String)
  | emitApply (requestId previewRequestId version password : String)
  | emitCancel (requestId : String)
  | emitDismiss (requestId : String)
  | requestStatus (ask : Nat)
  | persist (record : PanelUpdateRecord)
  | clearPersist
  | reload
deriving DecidableEq, Repr

structure PanelUpdateStep where
  state : PanelUpdateState
  effects : List PanelUpdateEffect
deriving DecidableEq, Repr

/-- The Progress state a journal phase stands for. -/
def progressOfPhase : Option String → PanelUpdateProgress
  | none => .starting
  | some phase =>
      if phase = "prepared" then .downloading
      else if phase = "downloaded" then .ready
      else if phase = "stopping" then .stopping
      else if phase = "backing-up" then .snapshot
      else if phase = "starting-target" then .targetStarting
      else if phase = "checking-target" then .verifying
      else if phase = "rolling-back" then .rollingBack
      else if phase ∈ panelUpdateFinalPhases then .finishing
      else .stepUnknown

theorem progressOfPhase_ne_submitting (phase : Option String) : progressOfPhase phase ≠ .submitting := by
  unfold progressOfPhase
  split
  · simp
  · split_ifs <;> simp

/-- The state before `BOOT`: loading, and not connected yet. -/
def createPanelUpdateState : PanelUpdateState :=
  { ctx := {
      link := .offline 0 false, status := none, latest := none, updateAvailable := false
      ask := 0, probe := none, closed := none, build := none }
    node := .idle { sub := .loading } }

def stay (state : PanelUpdateState) : PanelUpdateStep := ⟨state, []⟩

def withNode (state : PanelUpdateState) (node : PanelUpdateNode)
    (effects : List PanelUpdateEffect := []) : PanelUpdateStep :=
  ⟨{ state with node }, effects⟩

@[simp] theorem stay_state (state : PanelUpdateState) : (stay state).state = state := rfl

@[simp] theorem stay_effects (state : PanelUpdateState) : (stay state).effects = [] := rfl

@[simp] theorem withNode_node (state : PanelUpdateState) (node : PanelUpdateNode)
    (effects : List PanelUpdateEffect) : (withNode state node effects).state.node = node := rfl

@[simp] theorem withNode_ctx (state : PanelUpdateState) (node : PanelUpdateNode)
    (effects : List PanelUpdateEffect) : (withNode state node effects).state.ctx = state.ctx := rfl

@[simp] theorem withNode_effects (state : PanelUpdateState) (node : PanelUpdateNode)
    (effects : List PanelUpdateEffect) : (withNode state node effects).effects = effects := rfl

end Dockge.PanelUpdate
