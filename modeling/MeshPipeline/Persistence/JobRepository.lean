import MeshPipeline.Persistence.Models

/-!
# The job status transition table

`LEGAL_SOURCES` names, for each target status, the statuses it may be reached from. A terminal
status is never a source, so no transition drawn from the table leaves one.
-/

namespace MeshPipeline

/-- `TERMINAL_STATES`. -/
def terminalStates : List JobStatus := [.succeeded, .failed, .cancelled]

/-- `ACTIVE_STATES`: a run in one of these is still in flight. -/
def activeStates : List JobStatus := [.pending, .running, .queued]

/-- `LEGAL_SOURCES.get(target, frozenset())`. -/
def legalSources : JobStatus → List JobStatus
  | .running => [.pending]
  | .pending => [.running, .pendingReview]
  | .pendingReview => [.running, .pending]
  | .queued => [.pending]
  | .succeeded => [.running, .pendingReview]
  | .failed => [.pending, .queued, .running, .pendingReview]
  | .cancelled => [.pending, .queued, .running, .pendingReview]

inductive TransitionResult
  | applied | alreadyAtTarget | rejectedCurrentState | notFound
  deriving DecidableEq, Repr

/-- The job has ended. -/
def JobStatus.Terminal (s : JobStatus) : Prop := s ∈ terminalStates

instance (s : JobStatus) : Decidable s.Terminal := inferInstanceAs (Decidable (s ∈ terminalStates))

theorem terminal_iff {s : JobStatus} :
    s.Terminal ↔ s = .succeeded ∨ s = .failed ∨ s = .cancelled := by
  simp [JobStatus.Terminal, terminalStates]

/-- A terminal status is never a legal source. -/
theorem not_terminal_of_mem_legalSources {s target : JobStatus} (h : s ∈ legalSources target) :
    ¬ s.Terminal := by
  revert h
  cases target <;> cases s <;> decide

/-- Every status has a legal source, so `transition` never raises for a status of the table. -/
theorem legalSources_ne_nil (target : JobStatus) : legalSources target ≠ [] := by
  cases target <;> decide

/-- A job that has ended holds no place among the jobs in flight. -/
theorem terminal_not_active {s : JobStatus} (h : s.Terminal) : s ∉ activeStates := by
  revert h
  cases s <;> decide

end MeshPipeline

/-!
## Job row updates

The compare-and-set that applies a status transition, and the unguarded updates beside it. Every
function takes the row as the database holds it when the statement runs.
-/

namespace MeshPipeline

/-- `transition` refuses a target that has no source to come from. -/
inductive TransitionError
  | noLegalSource
  deriving DecidableEq, Repr

namespace JobRepository

/-- `_timestamps_for`: the status, with the end of the span it opens or closes. -/
def timestampsFor (row : SimulationJob) (target : JobStatus) (now : Int) : SimulationJob :=
  match target with
  | .running => { row with status := target, updatedAt := now, startedAt := some now }
  | .succeeded | .failed | .cancelled | .pendingReview =>
    { row with status := target, updatedAt := now, endedAt := some now }
  | .pending | .queued => { row with status := target, updatedAt := now }

/-- The update behind `transition`: it lands only on a row in one of the sources. -/
def compareAndSet (row? : Option SimulationJob) (target : JobStatus) (sources : List JobStatus)
    (now : Int) : TransitionResult × Option SimulationJob :=
  match row? with
  | none => (.notFound, none)
  | some row =>
    if row.status ∈ sources then (.applied, some (timestampsFor row target now))
    else if row.status = target then (.alreadyAtTarget, some row)
    else (.rejectedCurrentState, some row)

/-- `transition`; `allow` replaces the sources of the table. -/
def transition (row? : Option SimulationJob) (target : JobStatus)
    (allow : Option (List JobStatus)) (now : Int) :
    Except TransitionError (TransitionResult × Option SimulationJob) :=
  let sources := allow.getD (legalSources target)
  if sources = [] then .error .noLegalSource else .ok (compareAndSet row? target sources now)

/-- `set_final_result`, guarded by the id alone. -/
def setFinalResult (row : SimulationJob) (finalResult : FinalResult) (now : Int) :
    SimulationJob :=
  { row with finalResult := some finalResult, updatedAt := now }

def setDispatchPayload (row : SimulationJob) (payload : DispatchPayload) (now : Int) :
    SimulationJob :=
  { row with dispatchPayload := some payload, updatedAt := now }

/-- `mark_launched`: only the first acceptance is recorded. -/
def markLaunched (row : SimulationJob) (backend : String) (now : Int) : SimulationJob :=
  if row.pipelineSubmittedAt = none then
    { row with
      pipelineDispatchState := some .submitted
      pipelineBackend := some (backend.take 32).toString
      pipelineSubmittedAt := some now
      updatedAt := now }
  else row

/-- `mark_launch_failed`: on a job that has ended only the launch metadata is recorded. -/
def markLaunchFailed (row : SimulationJob) (error : String) (now : Int) : SimulationJob :=
  let row' := { row with
    pipelineDispatchState := some .launchFailed
    pipelineLaunchError := some (error.take 2000).toString
    updatedAt := now }
  if row.status ∈ legalSources .failed then
    { row' with status := .failed, endedAt := some now }
  else row'

/-- `review_rerun_reset`: the parked wait is taken out of the billed span. -/
def reviewRerunReset (row : SimulationJob) (startedAt endedAt : Option Int) (now : Int) :
    SimulationJob :=
  let row' := { row with
    activeWorkerToken := none
    leaseExpiresAt := some now
    pipelineExecutionId := none
    pipelineDeadlineAt := none
    endedAt := none
    updatedAt := now }
  match startedAt, endedAt with
  | some started, some ended =>
    if 0 < now - ended then { row' with startedAt := some (started + (now - ended)) } else row'
  | _, _ => row'

/-- `reset_for_review_rerun`: only a job the route has just moved to `pending`. -/
def resetForReviewRerun (row : SimulationJob) (startedAt endedAt : Option Int) (now : Int) :
    SimulationJob :=
  if row.status = .pending then reviewRerunReset row startedAt endedAt now else row

def updateCurrentAttempt (row : SimulationJob) (attemptCount : Nat) (now : Int) :
    SimulationJob :=
  { row with currentAttempt := attemptCount, updatedAt := now }

variable {row row' : SimulationJob} {target : JobStatus} {sources : List JobStatus} {now : Int}

/-- A default transition never raises: the table has a source for every status. -/
@[simp]
theorem transition_default (row? : Option SimulationJob) :
    transition row? target none now =
      .ok (compareAndSet row? target (legalSources target) now) := by
  simp [transition, legalSources_ne_nil]

theorem compareAndSet_applied :
    compareAndSet (some row) target sources now = (.applied, some row') ↔
      row.status ∈ sources ∧ row' = timestampsFor row target now := by
  by_cases h : row.status ∈ sources
  · simp [compareAndSet, h, eq_comm]
  · simp only [compareAndSet, h, if_false, false_and, iff_false]
    split <;> simp

@[simp]
theorem timestampsFor_status : (timestampsFor row target now).status = target := by
  cases target <;> rfl

/-- The reset but for `started_at`, which the parked wait may move. -/
theorem reviewRerunReset_eq (row : SimulationJob) (started ended : Option Int) (now : Int) :
    ∃ startedAt, reviewRerunReset row started ended now =
      { row with
        activeWorkerToken := none
        leaseExpiresAt := some now
        pipelineExecutionId := none
        pipelineDeadlineAt := none
        endedAt := none
        updatedAt := now
        startedAt := startedAt } := by
  unfold reviewRerunReset
  split
  · dsimp only
    split <;> exact ⟨_, rfl⟩
  · exact ⟨_, rfl⟩

end JobRepository

end MeshPipeline
