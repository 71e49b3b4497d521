import Mathlib.Data.List.Basic

/-!
# The job row and its records

The columns of `simulation_jobs` that the lease, the reaper, the terminal writers and the review
route read or write, with the records they store in it. A `datetime` is an integer, in
microseconds; worker tokens, job ids and organisations are natural numbers.
-/

namespace MeshPipeline

/-- A `uuid4` worker token. -/
abbrev Token := Nat

abbrev JobId := Nat

def seconds (n : Int) : Int := n * 1000000

def hours (n : Int) : Int := seconds (n * 3600)

/-- The timeouts read from the environment. The first two are refused unless positive. -/
structure Settings where
  workerLeaseSeconds : Nat
  pipelineTotalTimeoutSeconds : Nat
  stalledJobTimeoutHours : Int
  workerLeaseSeconds_pos : 0 < workerLeaseSeconds
  pipelineTotalTimeoutSeconds_pos : 0 < pipelineTotalTimeoutSeconds

/-- The defaults of the settings modules. -/
def Settings.default : Settings := ⟨900, 21600, 4, by decide, by decide⟩

def Settings.lease (cfg : Settings) : Int := seconds cfg.workerLeaseSeconds

def Settings.pipelineTotal (cfg : Settings) : Int := seconds cfg.pipelineTotalTimeoutSeconds

def Settings.stalledTimeout (cfg : Settings) : Int := hours cfg.stalledJobTimeoutHours

theorem Settings.lease_pos (cfg : Settings) : 0 < cfg.lease := by
  have := cfg.workerLeaseSeconds_pos
  unfold Settings.lease seconds
  omega

inductive JobStatus
  | pending | running | succeeded | failed | queued | pendingReview | cancelled
  deriving DecidableEq, Repr

inductive FailedReason
  | meshGeneration | reviewerRejected | apiFailure | unhandled
  deriving DecidableEq, Repr

/-- The values written to `pipeline_dispatch_state`. -/
inductive DispatchState
  | submitted | launchFailed | rerunWorkerLost
  deriving DecidableEq, Repr

inductive TerminalStatus
  | succeeded | failed | cancelled
  deriving DecidableEq, Repr

inductive FailureCategory
  | incompatibleRequirements | authoringFailed | nativeExecutionFailed | requiredOutputMissing
  | gateFailed | inputRejected | reviewRejected | attemptsExhausted | deliveryFailed | timedOut
  | internalPipelineFailure | workerLost | neverStarted
  deriving DecidableEq, Repr

/-- `"success"`, `"cancelled"` or the value of a failure category. -/
inductive OutcomeCode
  | success | cancelled | failure (category : FailureCategory)
  deriving DecidableEq, Repr

/-- The durable terminal verdict, with the fields its writers set. -/
structure FinalResult where
  schemaVersion : Nat
  jobId : JobId
  ownerId : String
  status : TerminalStatus
  engine : String
  purpose : String
  dimensionality : String
  approvedSnapshotId : String
  executorSuccess : Bool
  outcomeCode : OutcomeCode
  failureCategory : Option FailureCategory
  attempts : Nat
  attemptsMax : Nat
  requiredReady : Bool
  finalizedAt : Int
  deriving DecidableEq, Repr

def finalResultSchemaVersion : Nat := 5

/-- The entries of `dispatch_payload`; a value that is not a string is `none`. -/
abbrev DispatchPayload := List (String × Option String)

/-- `_s(mapping, key)`: the string stored under a key, empty when there is none. -/
def DispatchPayload.text (payload : DispatchPayload) (key : String) : String :=
  ((payload.lookup key).join).getD ""

/-- A row of `simulation_jobs`. -/
structure SimulationJob where
  id : JobId
  ownerId : String
  organizationId : Option Nat
  status : JobStatus
  createdAt : Int
  updatedAt : Int
  startedAt : Option Int
  endedAt : Option Int
  currentAttempt : Nat
  failedReason : Option FailedReason
  cancelReason : Option String
  dispatchPayload : Option DispatchPayload
  finalResult : Option FinalResult
  pipelineBackend : Option String
  pipelineDispatchState : Option DispatchState
  pipelineExecutionId : Option String
  pipelineSubmittedAt : Option Int
  pipelineLaunchError : Option String
  executionGeneration : Nat
  executionClaimEpoch : Nat
  activeWorkerToken : Option Token
  leaseAcquiredAt : Option Int
  leaseHeartbeatAt : Option Int
  leaseExpiresAt : Option Int
  owningBackend : Option String
  pipelineDeadlineAt : Option Int
  deriving DecidableEq, Repr

/-- What a granted claim hands its worker. -/
structure ExecutionOwnership where
  executionGeneration : Nat
  workerToken : Token
  backend : String
  pipelineDeadlineAt : Option Int
  claimEpoch : Nat
  fenceTtlSeconds : Nat
  deriving DecidableEq, Repr

/-- The pair that every fence check compares with the row. -/
def ExecutionOwnership.key (own : ExecutionOwnership) : Nat × Token :=
  (own.executionGeneration, own.workerToken)

/-- Python's truth of an optional string. -/
def truthyText : Option String → Bool
  | none => false
  | some s => s ≠ ""

/-- Python's truth of an optional dictionary. -/
def truthyPayload : Option DispatchPayload → Bool
  | none => false
  | some payload => !payload.isEmpty

/-- The row that `JobRepository.create` inserts: every other column has its default. -/
def JobRepository.create (id : JobId) (ownerId : String) (organizationId : Option Nat)
    (now : Int) : SimulationJob where
  id := id
  ownerId := ownerId
  organizationId := organizationId
  status := .pending
  createdAt := now
  updatedAt := now
  startedAt := none
  endedAt := none
  currentAttempt := 0
  failedReason := none
  cancelReason := none
  dispatchPayload := none
  finalResult := none
  pipelineBackend := none
  pipelineDispatchState := none
  pipelineExecutionId := none
  pipelineSubmittedAt := none
  pipelineLaunchError := none
  executionGeneration := 0
  executionClaimEpoch := 0
  activeWorkerToken := none
  leaseAcquiredAt := none
  leaseHeartbeatAt := none
  leaseExpiresAt := none
  owningBackend := none
  pipelineDeadlineAt := none

end MeshPipeline
