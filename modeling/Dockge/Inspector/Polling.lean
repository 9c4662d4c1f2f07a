import Mathlib
import Dockge.Data.History

namespace Dockge.Inspector

open Data

/-! The polls of a stack page: whose answers it shows, and that they go on. -/

/-! ## `RequestTracker` -/

structure RequestTracker (Kind : Type) where
  generationValue : Nat := 0
  /-- Which generation the request in flight belongs to -/
  running : Kind → Option Nat := fun _ => none

namespace RequestTracker

variable {Kind : Type} [DecidableEq Kind]

def next (tracker : RequestTracker Kind) : RequestTracker Kind :=
  { tracker with generationValue := tracker.generationValue + 1 }

def invalidate (tracker : RequestTracker Kind) : RequestTracker Kind :=
  { tracker with generationValue := tracker.generationValue + 1 }

def isCurrent (tracker : RequestTracker Kind) (generation : Nat) : Bool := generation = tracker.generationValue

/-- Whether `run` sends a request -/
def sends (tracker : RequestTracker Kind) (kind : Kind) (generation : Nat) : Bool :=
  tracker.isCurrent generation && tracker.running kind ≠ some generation

def began (tracker : RequestTracker Kind) (kind : Kind) (generation : Nat) : RequestTracker Kind :=
  { tracker with running := Function.update tracker.running kind (some generation) }

/-- The `finally` of `run` -/
def ended (tracker : RequestTracker Kind) (kind : Kind) (generation : Nat) : RequestTracker Kind :=
  if tracker.running kind = some generation then { tracker with running := Function.update tracker.running kind none }
  else tracker

@[simp] theorem ended_generationValue (tracker : RequestTracker Kind) (kind : Kind) (generation : Nat) :
    (tracker.ended kind generation).generationValue = tracker.generationValue := by
  unfold ended
  split <;> rfl

theorem ended_running {tracker : RequestTracker Kind} {kind other : Kind} {generation held : Nat} :
    (tracker.ended kind generation).running other = some held ↔
      tracker.running other = some held ∧ ¬(other = kind ∧ held = generation) := by
  unfold ended
  split
  next own =>
    by_cases same : other = kind
    · subst same
      simp only [Function.update_self, own, Option.some.injEq, true_and]
      constructor
      · intro never
        cases never
      · intro ⟨same, different⟩
        exact absurd same.symm different
    · change Function.update tracker.running kind none other = some held ↔ _
      rw [Function.update_of_ne same]
      exact ⟨fun running => ⟨running, fun both => same both.1⟩, fun both => both.1⟩
  next foreign =>
    refine ⟨fun running => ⟨running, ?_⟩, fun both => both.1⟩
    intro ⟨same, own⟩
    subst same own
    exact foreign running

end RequestTracker

/-! ## The page -/

inductive Kind where
  | stack
  | status
  | stats
  | availability
deriving DecidableEq, Repr

/-- What is asked one request at a time -/
def Kind.tracked : Kind → Bool
  | status | stats => true
  | stack | availability => false

structure Answer (D : Type) where
  ok : Bool
  data : D
deriving DecidableEq, Repr

inductive Phase (D : Type) where
  | waiting
  | answered (answer : Answer D)
  /-- `run` has returned, with nothing for an answer that came too late. -/
  | given (answer : Option (Answer D))
  | handled (answer : Option (Answer D))
deriving DecidableEq, Repr

structure Request (D : Type) where
  kind : Kind
  generation : Nat
  stackName : String
  windowHours : Nat
  phase : Phase D := .waiting
deriving DecidableEq, Repr

variable {D : Type}

/-- The request still counts as one in flight. -/
def Request.inFlight (request : Request D) : Prop :=
  request.kind.tracked = true ∧ (request.phase = .waiting ∨ ∃ answer, request.phase = .answered answer)

structure Page (D : Type) where
  stackName : String
  requests : RequestTracker Kind := {}
  disposed : Bool := false
  hidden : Bool := false
  stack : Option D := none
  loadError : Bool := false
  serviceStatusList : Option D := none
  dockerStats : Option D := none
  windowHours : Nat := 24
  availabilityData : Option D := none
  statusTimer : Option Nat := none
  /-- The timeouts that were set, each with the generation it polls for -/
  timers : List (Nat × Nat) := []
  nextTimer : Nat := 0
  sent : List (Request D) := []

namespace Page

def generation (page : Page D) : Nat := page.requests.generationValue

def isCurrentRequest (page : Page D) (generation : Nat) : Bool := !page.disposed && page.requests.isCurrent generation

/-- `clearTimeout(this.statusTimer)` -/
def clearTimer (page : Page D) : Page D :=
  { page with timers := page.timers.filter fun set => page.statusTimer ≠ some set.1 }

def setTimer (page : Page D) (generation : Nat) : Page D :=
  { page with
    statusTimer := some page.nextTimer
    timers := page.timers ++ [(page.nextTimer, generation)]
    nextTimer := page.nextTimer + 1 }

def send (page : Page D) (kind : Kind) (generation : Nat) : Page D :=
  { page with
    sent := page.sent ++ [{ kind, generation, stackName := page.stackName, windowHours := page.windowHours }] }

def run (page : Page D) (kind : Kind) (generation : Nat) : Page D :=
  if page.requests.sends kind generation then
    { page with requests := page.requests.began kind generation }.send kind generation
  else page

def requestDockerStats (page : Page D) (generation : Nat) : Page D := page.run .stats generation

def requestServiceStatus (page : Page D) (generation : Option Nat) : Page D :=
  let current := generation.getD page.generation
  if page.hidden || !page.isCurrentRequest current then page else (page.requestDockerStats current).run .status current

def requestAvailability (page : Page D) : Page D := page.send .availability page.generation

/-- Another generation begins, and what the one before it showed goes. -/
def cleared (page : Page D) : Page D :=
  { page with
    requests := page.requests.next
    loadError := false
    serviceStatusList := none
    availabilityData := none
    dockerStats := none }.clearTimer

/-- A viewer is given the summary that is in the list of stacks. -/
def loadStack (page : Page D) (summary : Option D) : Page D :=
  match summary with
  | some summary =>
      ({ page.cleared with stack := some summary }.requestServiceStatus (some page.cleared.generation)).requestAvailability
  | none => page.cleared.send .stack page.cleared.generation

/-- What the page does with an answer -/
def handle (page : Page D) (request : Request D) (answer : Answer D) : Page D :=
  if !page.isCurrentRequest request.generation then page
  else
    match request.kind with
    | .stack =>
        if answer.ok then
          ({ page with stack := some answer.data }.requestServiceStatus (some request.generation)).requestAvailability
        else { page with loadError := true }
    | .status =>
        { page with serviceStatusList := if answer.ok then some answer.data else page.serviceStatusList }.clearTimer.setTimer
          request.generation
    | .stats => { page with dockerStats := if answer.ok then some answer.data else none }
    | .availability =>
        if request.stackName ≠ page.stackName ∨ request.windowHours ≠ page.windowHours then page
        else { page with availabilityData := if answer.ok then some answer.data else none }

def move (page : Page D) (id : Nat) (phase : Phase D) : Page D :=
  { page with sent := page.sent.modify id fun request => { request with phase } }

end Page

inductive PageEvent (D : Type) where
  | select (stackName : String) (summary : Option D)
  | selectWindow (hours : Nat)
  | visibility (hidden : Bool)
  /-- The clock of a command, or the answer to one that was started in some generation -/
  | poll (generation : Option Nat)
  | timer (id : Nat)
  | answers (id : Nat) (answer : Answer D)
  /-- A tracked request goes on after its answer. -/
  | returns (id : Nat)
  | handles (id : Nat)
  | unmount

def PageEvent.run (page : Page D) : PageEvent D → Page D
  | .select stackName summary =>
      if page.disposed || stackName = page.stackName then page else { page with stackName }.loadStack summary
  | .selectWindow hours => if page.disposed then page else { page with windowHours := hours }.requestAvailability
  | .visibility hidden =>
      if page.disposed then page
      else
        let page := { page with hidden }.clearTimer
        if hidden then page else (page.requestServiceStatus none).requestAvailability
  | .poll generation => page.requestServiceStatus generation
  | .timer id =>
      match page.timers.find? fun set => set.1 = id with
      | some set => { page with timers := page.timers.filter fun set => set.1 ≠ id }.requestServiceStatus (some set.2)
      | none => page
  | .answers id answer =>
      match page.sent[id]? with
      | some request =>
          if request.phase matches .waiting then
            page.move id (if request.kind.tracked then .answered answer else .given (some answer))
          else page
      | none => page
  | .returns id =>
      match page.sent[id]? with
      | some { kind, generation, phase := .answered answer, .. } =>
          { page with requests := page.requests.ended kind generation }.move id
            (.given (if page.requests.isCurrent generation then some answer else none))
      | _ => page
  | .handles id =>
      match page.sent[id]? with
      | some request =>
          match request.phase with
          | .given none => page.move id (.handled none)
          | .given (some answer) => (page.move id (.handled (some answer))).handle request answer
          | _ => page
      | none => page
  | .unmount => { page with disposed := true, requests := page.requests.invalidate }.clearTimer

def mounted (stackName : String) (summary : Option D) : Page D := ({ stackName } : Page D).loadStack summary

end Dockge.Inspector
