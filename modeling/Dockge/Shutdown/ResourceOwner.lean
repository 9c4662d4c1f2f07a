import Dockge.Data.History
import Mathlib

namespace Dockge.Shutdown

open Data

/-! Everything the process started and has to stop within a budget. -/

/-- What `stop` of a resource does. -/
inductive Behaviour where
  | returns
  | throws (message : String)
  | resolves (afterMs : ℚ)
  | rejects (afterMs : ℚ) (message : String)
  | never

structure Resource where
  /-- The object that was registered, apart from its name -/
  id : Nat
  name : String
  stop : Behaviour

structure ResourceStopOutcome where
  name : String
  error : Option String := none
  timedOut : Bool := false
deriving DecidableEq

structure ResourceStopReport where
  stopped : List String := []
  failed : List ResourceStopOutcome := []
  timedOut : List String := []
  durationMs : ℚ := 0
deriving DecidableEq

def minResourceBudgetMs : ℚ := 500

/-- What the event loop adds to a wait, and who comes first where both are due at once -/
structure Turn where
  lateMs : ℚ := 0
  first : Bool := true

/-- One call of `stop` of a resource, as it went -/
structure Visit where
  resource : Resource
  share : ℚ
  waited : ℚ
  outcome : ResourceStopOutcome

-- How a number is written in a text
variable (format : ℚ → String)

def timeoutOutcome (name : String) (budgetMs : ℚ) : ResourceStopOutcome :=
  { name, timedOut := true, error := some ("did not stop within " ++ format budgetMs ++ "ms") }

/-- The promise of a resource against the deadline -/
def race (turn : Turn) (budgetMs : ℚ) (name : String) (afterMs : ℚ) (outcome : ResourceStopOutcome) :
    ℚ × ResourceStopOutcome :=
  if afterMs < budgetMs ∨ afterMs = budgetMs ∧ turn.first = true then (afterMs + turn.lateMs, outcome)
  else (budgetMs + turn.lateMs, timeoutOutcome format name budgetMs)

def stopOne (turn : Turn) (entry : Resource) (budgetMs : ℚ) : ℚ × ResourceStopOutcome :=
  match entry.stop with
  | .returns => (turn.lateMs, { name := entry.name })
  | .throws message => (turn.lateMs, { name := entry.name, error := some message })
  | .resolves afterMs => race format turn budgetMs entry.name afterMs { name := entry.name }
  | .rejects afterMs message =>
      race format turn budgetMs entry.name afterMs { name := entry.name, error := some message }
  | .never => (budgetMs + turn.lateMs, timeoutOutcome format entry.name budgetMs)

/-- What is allotted of the time that is left, with so many resources to go -/
def share (left : ℚ) (remaining : Nat) : ℚ :=
  max 0 (min left (max minResourceBudgetMs ⌊left / remaining⌋))

/-- The loop of `stopAll`, with the time that has passed -/
def visits (timeoutMs : ℚ) (turns : Nat → Turn) : List Resource → ℚ → List Visit
  | [], _ => []
  | entry :: rest, elapsed =>
      let budget := share (timeoutMs - elapsed) (rest.length + 1)
      let (waited, outcome) := stopOne format (turns entry.id) entry budget
      { resource := entry, share := budget, waited, outcome } :: visits timeoutMs turns rest (elapsed + waited)

def ResourceStopReport.record (report : ResourceStopReport) (visit : Visit) : ResourceStopReport :=
  let report := { report with durationMs := report.durationMs + visit.waited }
  if visit.outcome.timedOut then
    { report with timedOut := report.timedOut ++ [visit.resource.name], failed := report.failed ++ [visit.outcome] }
  else if visit.outcome.error.isSome then { report with failed := report.failed ++ [visit.outcome] }
  else { report with stopped := report.stopped ++ [visit.resource.name] }

def reportOf (visits : List Visit) : ResourceStopReport := visits.foldl ResourceStopReport.record {}

structure ResourceOwner where
  resources : List Resource := []
  nextId : Nat := 0
  /-- What the promise of the first call comes to -/
  stopPromise : Option ResourceStopReport := none
  /-- The calls of `stop` of any resource so far -/
  visited : List Visit := []

namespace ResourceOwner

def stopping (owner : ResourceOwner) : Bool := owner.stopPromise.isSome

def add (name : String) (stop : Behaviour) (owner : ResourceOwner) : ResourceOwner :=
  { owner with resources := owner.resources ++ [{ id := owner.nextId, name, stop }], nextId := owner.nextId + 1 }

/-- The function that `add` returns -/
def unregister (id : Nat) (owner : ResourceOwner) : ResourceOwner :=
  { owner with resources := owner.resources.eraseP fun entry => entry.id = id }

def stop (timeoutMs : ℚ) (turns : Nat → Turn) (owner : ResourceOwner) : ResourceStopReport × ResourceOwner :=
  match owner.stopPromise with
  | some report => (report, owner)
  | none =>
      let made := visits format timeoutMs turns owner.resources.reverse 0
      let report := reportOf made
      (report, { owner with resources := [], stopPromise := some report, visited := owner.visited ++ made })

end ResourceOwner

inductive Event where
  | add (name : String) (stop : Behaviour)
  | unregister (id : Nat)
  | stop (timeoutMs : ℚ) (turns : Nat → Turn)

def step (owner : ResourceOwner) : Event → ResourceOwner
  | .add name stop => owner.add name stop
  | .unregister id => owner.unregister id
  | .stop timeoutMs turns => (owner.stop format timeoutMs turns).2

end Dockge.Shutdown
