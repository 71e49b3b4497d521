import MeshPipeline.Persistence.JobRepository
import MeshPipeline.Persistence.Models

/-!
# Terminal records

The verdicts written by authorities that have only the job row to go by: the reaper, the
redelivery guard, the refusals before a run, and the owner's cancel.
-/

namespace MeshPipeline.FinalResult

/-- `_reaped_result`: nothing is derived and nothing invented. -/
def reapedResult (category : FailureCategory) (jobId : JobId) (ownerId : String)
    (attempts attemptsMax : Nat) (now : Int) : FinalResult where
  schemaVersion := finalResultSchemaVersion
  jobId := jobId
  ownerId := ownerId
  status := .failed
  engine := ""
  purpose := ""
  dimensionality := ""
  approvedSnapshotId := ""
  executorSuccess := false
  outcomeCode := .failure category
  failureCategory := some category
  attempts := attempts
  attemptsMax := attemptsMax
  requiredReady := false
  finalizedAt := now

def workerLostResult (jobId : JobId) (ownerId : String) (attempts : Nat) (now : Int) :
    FinalResult :=
  reapedResult .workerLost jobId ownerId attempts 0 now

def neverStartedResult (jobId : JobId) (ownerId : String) (attempts : Nat) (now : Int) :
    FinalResult :=
  reapedResult .neverStarted jobId ownerId attempts 0 now

def refusedResult (category : FailureCategory) (jobId : JobId) (ownerId : String)
    (now : Int) : FinalResult :=
  reapedResult category jobId ownerId 0 0 now

/-- Python's `a or b` on strings. -/
def orElse (a b : String) : String := if a = "" then b else a

/-- `build_cancelled_result` of the facts `merge_durable_facts` finds on the row. -/
def buildCancelledResult (row : SimulationJob) (now : Int) : FinalResult :=
  let approved := row.dispatchPayload.getD []
  { schemaVersion := finalResultSchemaVersion
    jobId := row.id
    ownerId := row.ownerId
    status := .cancelled
    engine := orElse (approved.text "mesh_engine") (approved.text "engine")
    purpose := approved.text "purpose"
    dimensionality := approved.text "dimensionality"
    approvedSnapshotId := approved.text "approved_snapshot_id"
    executorSuccess := false
    outcomeCode := .cancelled
    failureCategory := none
    attempts := row.currentAttempt
    attemptsMax := 0
    requiredReady := false
    finalizedAt := now }

end MeshPipeline.FinalResult

/-!
## The stalled-job reaper

`stalled_jobs_clause` selects the jobs nothing will finish; the sweep then re-runs or fails each
one. The selection and the write are separate statements, so a write is a function of the row as
it was selected and of the row as it is found.
-/

namespace MeshPipeline.Cleanup

def startedCutoff (cfg : Settings) (now : Int) : Int := now - cfg.stalledTimeout

def leaseCutoff (cfg : Settings) (now : Int) : Int := now - cfg.lease

/-- `pending` or `queued`. -/
def waiting (row : SimulationJob) : Bool := row.status == .pending || row.status == .queued

/-- The disjuncts of `stalled_jobs_clause`, in its order. -/
def leaseLapsed (cfg : Settings) (now : Int) (row : SimulationJob) : Bool :=
  row.status == .running && row.leaseExpiresAt.any (· < leaseCutoff cfg now)

def ranWithoutClaim (cfg : Settings) (now : Int) (row : SimulationJob) : Bool :=
  row.status == .running && row.leaseExpiresAt.isNone &&
    row.startedAt.any (· < startedCutoff cfg now)

def neverPickedUp (cfg : Settings) (now : Int) (row : SimulationJob) : Bool :=
  waiting row && row.startedAt.isNone && row.createdAt < startedCutoff cfg now

def handedBackTooLong (cfg : Settings) (now : Int) (row : SimulationJob) : Bool :=
  waiting row && row.startedAt.isSome && row.pipelineDeadlineAt.any (· < leaseCutoff cfg now)

def releasedUnconfirmed (cfg : Settings) (now : Int) (row : SimulationJob) : Bool :=
  waiting row && row.startedAt.isSome && row.activeWorkerToken.isNone &&
    row.leaseExpiresAt.any (· < leaseCutoff cfg now)

def queuedWithoutClock (cfg : Settings) (now : Int) (row : SimulationJob) : Bool :=
  waiting row && row.startedAt.isSome && row.activeWorkerToken.isNone &&
    row.leaseExpiresAt.isNone && row.pipelineDeadlineAt.isNone &&
    row.updatedAt < startedCutoff cfg now

/-- `stalled_jobs_clause`. -/
def stalledJobsClause (cfg : Settings) (now : Int) (row : SimulationJob) : Bool :=
  leaseLapsed cfg now row || ranWithoutClaim cfg now row || neverPickedUp cfg now row ||
    handedBackTooLong cfg now row || releasedUnconfirmed cfg now row ||
    queuedWithoutClock cfg now row

/-- `RERUN_MIN_REMAINING_SECONDS`. -/
def rerunMinRemaining : Int := seconds 1800

/-- `rerun_eligible`. -/
def rerunEligible (row : SimulationJob) (now : Int) : Bool :=
  row.leaseExpiresAt.isSome &&
    (if row.status = .running then row.pipelineDispatchState != some .rerunWorkerLost
     else row.status == .pending && row.activeWorkerToken.isNone && row.startedAt.isSome) &&
    truthyPayload row.dispatchPayload &&
    !row.pipelineDeadlineAt.any (· ≤ now + rerunMinRemaining)

/-- A row as a sweep selected it, and the time the sweep began. -/
structure Selection where
  now : Int
  job : SimulationJob
  deriving DecidableEq, Repr

/-- The re-run: a compare-and-set on the status and the lease the row was selected with. -/
def rerunWrite (sel : Selection) (row : SimulationJob) : Bool × SimulationJob :=
  if row.status = sel.job.status ∧ row.leaseExpiresAt = sel.job.leaseExpiresAt then
    (true,
      { row with
        status := .pending
        activeWorkerToken := none
        leaseExpiresAt := some sel.now
        pipelineDispatchState :=
          if sel.job.status = .running then some .rerunWorkerLost else row.pipelineDispatchState
        updatedAt := sel.now })
  else (false, row)

/-- The durable account of a reaped job, by the rule that selected it. -/
def reapedRecord (sel : Selection) : FinalResult :=
  if waiting sel.job && sel.job.startedAt.isNone then
    FinalResult.neverStartedResult sel.job.id sel.job.ownerId sel.job.currentAttempt sel.now
  else FinalResult.workerLostResult sel.job.id sel.job.ownerId sel.job.currentAttempt sel.now

/-- The failure: a compare-and-set on the status the row was selected in. -/
def failWrite (sel : Selection) (row : SimulationJob) : Bool × SimulationJob :=
  if row.status = sel.job.status then
    (true,
      { row with
        status := .failed
        failedReason := some .unhandled
        finalResult := some (reapedRecord sel)
        endedAt := some sel.now
        updatedAt := sel.now })
  else (false, row)

/-- The branch the sweep takes for a selected row. -/
def reruns (canRerun : Bool) (sel : Selection) : Bool := canRerun && rerunEligible sel.job sel.now

/-- What the sweep does with one selected row. -/
def reap (canRerun : Bool) (sel : Selection) (row : SimulationJob) : Bool × SimulationJob :=
  if reruns canRerun sel then rerunWrite sel row else failWrite sel row

variable {row : SimulationJob} {now : Int}

/-- A job is re-run only from `running` or `pending`, with a lease column to compare. -/
theorem status_of_rerunEligible (h : rerunEligible row now) :
    (row.status = .running ∧ row.pipelineDispatchState ≠ some .rerunWorkerLost ∨
      row.status = .pending ∧ row.activeWorkerToken = none ∧ row.startedAt.isSome) ∧
      row.leaseExpiresAt.isSome := by
  simp only [rerunEligible, Bool.and_eq_true] at h
  obtain ⟨⟨⟨hlease, hstatus⟩, -⟩, -⟩ := h
  refine ⟨?_, hlease⟩
  split at hstatus
  · rename_i hrunning
    exact .inl ⟨hrunning, by simpa using hstatus⟩
  · simp only [Bool.and_eq_true, beq_iff_eq, Option.isNone_iff_eq_none] at hstatus
    exact .inr ⟨hstatus.1.1, hstatus.1.2, hstatus.2⟩

theorem not_terminal_of_rerunEligible (h : rerunEligible row now) : ¬ row.status.Terminal := by
  obtain ⟨⟨hs, -⟩ | ⟨hs, -⟩, -⟩ := status_of_rerunEligible h <;> rw [hs] <;> decide

/-- A job is re-run only once its lease column lies a whole lease behind. -/
theorem lease_of_rerunEligible {cfg : Settings} (hclause : stalledJobsClause cfg now row)
    (heligible : rerunEligible row now) :
    ∃ expires, row.leaseExpiresAt = some expires ∧ expires < now := by
  obtain ⟨hstatus, hsome⟩ := status_of_rerunEligible heligible
  obtain ⟨expires, hexpires⟩ := Option.isSome_iff_exists.mp hsome
  have hdeadline : row.pipelineDeadlineAt.any (· ≤ now + rerunMinRemaining) = false := by
    simpa using (Bool.and_eq_true_iff.mp heligible).2
  have hpos := cfg.lease_pos
  have hlapsed : expires < leaseCutoff cfg now := by
    obtain ⟨hrunning, -⟩ | ⟨hpending, htoken, hstarted⟩ := hstatus
    · simpa [stalledJobsClause, leaseLapsed, ranWithoutClaim, neverPickedUp, handedBackTooLong,
        releasedUnconfirmed, queuedWithoutClock, waiting, hrunning, hexpires] using hclause
    · obtain hhandedBack | hreleased : handedBackTooLong cfg now row ∨
          releasedUnconfirmed cfg now row := by
        simpa [stalledJobsClause, leaseLapsed, ranWithoutClaim, neverPickedUp,
          queuedWithoutClock, hpending, hexpires, Option.isSome_iff_ne_none.mp hstarted]
          using hclause
      · -- a deadline that far back would have left no time for a re-run
        exfalso
        cases hd : row.pipelineDeadlineAt with
        | none => simp [handedBackTooLong, hd] at hhandedBack
        | some deadline =>
          have hpast : deadline < leaseCutoff cfg now := by
            simpa [handedBackTooLong, hd, waiting, hpending, hstarted] using hhandedBack
          have hleft : now + rerunMinRemaining < deadline := by simpa [hd] using hdeadline
          simp only [leaseCutoff, rerunMinRemaining, seconds] at hpast hleft
          omega
      · simpa [releasedUnconfirmed, hexpires, waiting, hpending, hstarted, htoken]
          using hreleased
  refine ⟨expires, hexpires, ?_⟩
  unfold leaseCutoff at hlapsed
  omega

end MeshPipeline.Cleanup
