import Mathlib.Data.List.Sort
import MeshPipeline.Library.Text
import MeshPipeline.Persistence.JobRepository

/-!
# Repair jobs

One customer repair job as the database holds it: the table of its movements, the updates of the
repository, and what the operators' routes check before and after them. Times are left out, except
the one the queue is ordered by.
-/

namespace MeshPipeline.RepairQueue

/-! ## The table -/

inductive RepairJobStatus
  | received | inspecting | awaitingStrategy | repairing | repairReview | meshing | meshReview
  | manualCleanup | retrying | escalated | waitingCustomer | customerBlocked | serviceFailed
  | delivered | repairDelivered | deliveryDisputed | deadLettered | expired | cancelled
  deriving DecidableEq, Repr

open RepairJobStatus

def RepairJobStatus.value : RepairJobStatus → String
  | received => "received"
  | inspecting => "inspecting"
  | awaitingStrategy => "awaiting_strategy"
  | repairing => "repairing"
  | repairReview => "repair_review"
  | meshing => "meshing"
  | meshReview => "mesh_review"
  | manualCleanup => "manual_cleanup"
  | retrying => "retrying"
  | escalated => "escalated"
  | waitingCustomer => "waiting_customer"
  | customerBlocked => "customer_blocked"
  | serviceFailed => "service_failed"
  | delivered => "delivered"
  | repairDelivered => "repair_delivered"
  | deliveryDisputed => "delivery_disputed"
  | deadLettered => "dead_lettered"
  | expired => "expired"
  | cancelled => "cancelled"

/-- `TERMINAL_STATES`. -/
def terminalStates : List RepairJobStatus :=
  [delivered, repairDelivered, cancelled, deadLettered, expired]

/-- `LEGAL_SOURCES.get(target, frozenset())`. -/
def legalSources : RepairJobStatus → List RepairJobStatus
  | inspecting => [received, retrying]
  | awaitingStrategy => [inspecting, repairReview, meshReview, escalated]
  | repairing => [awaitingStrategy, retrying]
  | repairReview => [repairing, manualCleanup]
  | meshing => [awaitingStrategy, repairReview, retrying]
  | meshReview => [meshing]
  | manualCleanup => [awaitingStrategy, repairReview, meshReview, escalated]
  | retrying => [repairReview, meshReview, escalated]
  | escalated => [awaitingStrategy, repairing, repairReview, meshing, meshReview, manualCleanup,
      retrying, serviceFailed]
  | waitingCustomer => [received, inspecting, awaitingStrategy, repairReview, meshReview,
      manualCleanup, escalated]
  | received => [waitingCustomer, customerBlocked]
  | customerBlocked => [waitingCustomer, awaitingStrategy, escalated]
  | serviceFailed => [inspecting, repairing, meshing, retrying, escalated]
  | delivered => [meshReview, deliveryDisputed]
  | repairDelivered => [repairReview, deliveryDisputed]
  | deliveryDisputed => [delivered, repairDelivered]
  | deadLettered => [serviceFailed, escalated]
  | expired => [waitingCustomer, customerBlocked]
  | cancelled => [received, inspecting, awaitingStrategy, repairing, repairReview, meshing,
      meshReview, manualCleanup, retrying, escalated, waitingCustomer, customerBlocked,
      serviceFailed]

/-- A settled job is left for a dispute and for nothing else. -/
lemma eq_disputed_of_terminal {s target : RepairJobStatus} (h : s ∈ legalSources target)
    (hs : s ∈ terminalStates) : target = deliveryDisputed := by
  revert h hs
  cases target <;> cases s <;> decide

/-! ## The rows -/

structure CadRepairAttempt where
  attemptNo : ℕ
  mode : String
  inputSha256 : String
  outputSha256 : Option String
  deriving DecidableEq

structure CadRepairDecision where
  decision : String
  fromStatus : String
  actor : String
  reason : Option String
  notes : Option String
  deriving DecidableEq

structure CadRepairJob where
  id : ℕ
  status : RepairJobStatus
  simulationJobId : Option ℕ
  servicePriority : ℤ
  currentStrategy : String
  repairStatus : String
  blockedReason : Option String
  assignedOperator : Option String
  createdAt : ℕ
  deriving DecidableEq

/-- `create`: the columns that the modelled functions read. -/
def create (id : ℕ) (servicePriority : ℤ) (now : ℕ) : CadRepairJob :=
  ⟨id, received, none, servicePriority, "", "", none, none, now⟩

/-- What a caller of `transition` passes beside the target. -/
structure Passed where
  blockedReason : Option String := none
  currentStrategy : Option String := none
  repairStatus : Option String := none
  simulationJobId : Option ℕ := none
  deriving DecidableEq

/-- `x or None`. -/
def orNone (s : String) : Option String := if s = "" then none else some s

/-- The values that the update of `transition` sets: only the fields a caller passed. -/
def Passed.set (p : Passed) (job : CadRepairJob) (target : RepairJobStatus) : CadRepairJob :=
  { job with
    status := target
    blockedReason := (p.blockedReason.map orNone).getD job.blockedReason
    currentStrategy := (p.currentStrategy.map (Text.upto 32)).getD job.currentStrategy
    repairStatus := (p.repairStatus.map (Text.upto 32)).getD job.repairStatus
    simulationJobId := p.simulationJobId.or job.simulationJobId }

/-- The sources of the compare-and-set, narrowed to the status that the caller saw. -/
def sourcesFrom (target : RepairJobStatus) (expectedFrom : Option RepairJobStatus) :
    List RepairJobStatus :=
  match expectedFrom with
  | none => legalSources target
  | some seen => (legalSources target).filter (· = seen)

/-- `transition` on the row that its statements find. -/
def transition (job : CadRepairJob) (target : RepairJobStatus) (p : Passed)
    (expectedFrom : Option RepairJobStatus) : TransitionResult × CadRepairJob :=
  if job.status ∈ sourcesFrom target expectedFrom then (.applied, p.set job target)
  else if job.status = target then (.alreadyAtTarget, job)
  else (.rejectedCurrentState, job)

/-- `assign`: whether the update found its row, and the row. -/
def assign (job : CadRepairJob) (operator : String) (claimOnlyIfUnassigned : Bool)
    (releaseOnlyIfHeldBy : String) : Option CadRepairJob :=
  if (claimOnlyIfUnassigned = true → job.assignedOperator = none) ∧
      (releaseOnlyIfHeldBy ≠ "" →
        job.assignedOperator = some (Text.upto 256 releaseOnlyIfHeldBy)) then
    some { job with assignedOperator := orNone (Text.upto 256 (Text.strip operator)) }
  else none

/-- `_digest`. -/
def digest (value field : String) (required : Bool) : Except String (Option String) :=
  let text := Text.key value
  if text = "" then if required then .error s!"{field} is required" else .ok none
  else if text.length ≠ 64 ∨ ¬ text.toList.all (fun c => "0123456789abcdef".toList.contains c) then
    .error s!"{field} must be 64 lowercase hex characters"
  else .ok (some text)

/-- `record_attempt`, which numbers the attempt after the highest there is. -/
def recordAttempt (attempts : List CadRepairAttempt) (mode inputSha256 outputSha256 : String) :
    Except String CadRepairAttempt := do
  if Text.strip mode = "" then throw "mode is required - an attempt always says what it did"
  let input ← digest inputSha256 "input_sha256" true
  let output ← digest outputSha256 "output_sha256" false
  return ⟨(attempts.map (·.attemptNo)).foldl max 0 + 1, Text.upto 32 mode, input.getD "", output⟩

/-- `record_decision`. -/
def recordDecision (decision actor fromStatus reason notes : String) :
    Except String CadRepairDecision :=
  if Text.strip actor = "" then
    .error "actor is required - an unattributed decision is not an audit"
  else if Text.strip decision = "" then .error "decision is required"
  else .ok ⟨Text.upto 32 decision, Text.upto 32 fromStatus, Text.upto 256 (Text.strip actor),
    orNone reason, orNone notes⟩

/-! ## The routes -/

/-- `_DECISIONS`. -/
def decisions : List (String × RepairJobStatus) :=
  [("inspect", inspecting), ("choose_strategy", awaitingStrategy), ("repair", repairing),
    ("review_repair", repairReview), ("mesh", meshing), ("review_mesh", meshReview),
    ("manual_cleanup", manualCleanup), ("retry", retrying), ("escalate", escalated),
    ("ask_customer", waitingCustomer), ("block", customerBlocked), ("deliver", delivered),
    ("deliver_repair", repairDelivered)]

/-- `_NEEDS_REASON`. -/
def needsReason : List String := ["block", "ask_customer", "escalate", "manual_cleanup"]

/-- `_NEEDS_OUTPUT`. -/
def needsOutput : List (String × String) :=
  [("deliver", "mesh"), ("deliver_repair", "repaired geometry")]

/-- The values of `RepairProfile`, sorted. -/
def repairProfiles : List String := ["conservative", "manual_review", "mesh_ready"]

/-- The body of a decision; the model refuses one whose fields are too short or too long. -/
structure DecideIn where
  decision : String
  actor : String
  reason : String := ""
  notes : String := ""
  strategy : String := ""
  deriving DecidableEq

def DecideIn.Valid (b : DecideIn) : Prop :=
  1 ≤ b.decision.length ∧ b.decision.length ≤ 32 ∧ 1 ≤ b.actor.length ∧ b.actor.length ≤ 256 ∧
    b.reason.length ≤ 2000 ∧ b.notes.length ≤ 4000 ∧ b.strategy.length ≤ 32

instance (b : DecideIn) : Decidable b.Valid := by unfold DecideIn.Valid; infer_instance

structure AssignIn where
  operator : String := ""
  claim : Bool := true
  holder : String := ""
  deriving DecidableEq

def AssignIn.Valid (b : AssignIn) : Prop := b.operator.length ≤ 256 ∧ b.holder.length ≤ 256

instance (b : AssignIn) : Decidable b.Valid := by unfold AssignIn.Valid; infer_instance

/-- The update that `assign_job` makes. -/
def AssignIn.onRow (b : AssignIn) (job : CadRepairJob) : Option CadRepairJob :=
  assign job b.operator (b.claim && b.operator ≠ "")
    (if b.operator = "" then Text.strip b.holder else "")

/-- Why a decision is refused. The words of a compare-and-set that was lost are those of the
session, which is not modelled. -/
inductive Detail
  | unknownDecision (name : String)
  | noReason (name : String)
  | badStrategy (strategy : String)
  | strategyNotTaken (name : String)
  | notAvailable (name was : String)
  | nothingRecorded (name output : String)
  deriving DecidableEq

def Detail.status : Detail → ℕ
  | .notAvailable .. | .nothingRecorded .. => 409
  | _ => 422

/-- The text of a detail; how Python quotes a text is given. -/
def Detail.text (quoted : String → String) : Detail → String
  | .unknownDecision name => s!"unknown decision: {name}"
  | .noReason name => s!"{name} must state a reason - it stops a customer's job"
  | .badStrategy strategy =>
    "choose_strategy needs one of ['conservative', 'manual_review', 'mesh_ready']; " ++
      s!"got {quoted strategy}"
  | .strategyNotTaken name => s!"{name} does not take a strategy"
  | .notAvailable name was => s!"{name} is not available from {was} - re-read the job"
  | .nothingRecorded name output =>
    s!"{name} claims the customer received {output}, and this job has none recorded"

/-- A decision that is in order: one of the names, with what the name asks for. -/
structure Ask where
  name : String
  target : RepairJobStatus
  named : decisions.lookup name = some target
  actor : String
  reason : String
  reasoned : name ∈ needsReason → reason ≠ ""
  notes : String
  strategy : String
  profiled : if name = "choose_strategy" then strategy ∈ repairProfiles else strategy = ""
  deriving DecidableEq

/-- `decide_job` before it reads the job. -/
def ask (b : DecideIn) : Except Detail Ask :=
  let name := Text.strip b.decision
  let reason := Text.strip b.reason
  let strategy := Text.strip b.strategy
  match h : decisions.lookup name with
  | none => .error (.unknownDecision name)
  | some target =>
    if hreason : name ∈ needsReason → reason ≠ "" then
      if hstrategy : if name = "choose_strategy" then strategy ∈ repairProfiles
          else strategy = "" then
        .ok ⟨name, target, h, b.actor, reason, hreason, Text.strip b.notes, strategy, hstrategy⟩
      else if name = "choose_strategy" then .error (.badStrategy strategy)
      else .error (.strategyNotTaken name)
    else .error (.noReason name)

namespace Ask

/-- The fields that `decide_job` passes to `transition`. -/
def passed (a : Ask) : Passed where
  blockedReason := if a.name ∈ needsReason then some a.reason else none
  currentStrategy := orNone a.strategy

/-- `_has_output`, where the decision needs it. -/
def HasOutput (a : Ask) (simulationJobId : Option ℕ) (attempts : List CadRepairAttempt) : Prop :=
  (a.name = "deliver" → simulationJobId.isSome) ∧
    (a.name = "deliver_repair" → ∃ t ∈ attempts, ∃ sha ∈ t.outputSha256, sha ≠ "")

instance (a : Ask) (simulationJobId : Option ℕ) (attempts : List CadRepairAttempt) :
    Decidable (a.HasOutput simulationJobId attempts) := by
  unfold HasOutput
  infer_instance

end Ask

end MeshPipeline.RepairQueue
