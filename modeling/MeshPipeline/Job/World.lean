import MeshPipeline.Application.TerminalFinalize
import MeshPipeline.Library.Machine

/-!
# Every writer of one job

The job's rows, the clock, and what other processes read and have not yet acted on. A step is one
committed transaction, or one read that a later transaction will rely on; any order of steps is a
run. What was granted, ended and re-run is recorded beside the rows.
-/

namespace MeshPipeline

/-- The configuration of a deployment. -/
structure Config where
  settings : Settings
  pricing : Metering.Pricing

def Config.default : Config where
  settings := .default
  pricing := ⟨10, 1⟩

inductive Author
  | finalize | cancel | reaper | redeliveryGuard | refusal | launcher | transition
  deriving DecidableEq, Repr

/-- A terminal transition that was applied, with the row its transaction left. -/
structure Ending where
  author : Author
  row : SimulationJob

structure JobWorld where
  clock : Int
  db : JobStore
  /-- Every ownership a claim was granted, newest first. -/
  granted : List ExecutionOwnership
  /-- Rows the reaper selected and has not written yet. -/
  selected : List Cleanup.Selection
  guardReads : List ExecutionFence.GuardRead
  /-- Rows the review route read before it took the park's lock. -/
  reviewReads : List SimulationJob
  endings : List Ending
  /-- How often the reaper re-ran a running job. -/
  reruns : Nat

/-- The steps of a job's world. -/
inductive JobOp
  | tick (microseconds : Nat)
  | claimExecution (workerToken : Token) (backend : String) (backendExecutionId : Option String)
      (fenceAvailable : Bool)
  | heartbeat (own : ExecutionOwnership) (extendDeadlineTo : Option Int)
  | evictOwner
  | release (own : ExecutionOwnership)
  | handBack (own : ExecutionOwnership)
  | confirmRequeued (releasedAt : Int)
  | transition (target : JobStatus)
  | reapSelect (sweepNow : Int)
  | reapWrite (i : Nat) (canRerun : Bool)
  | guardRead (readable : Bool)
  | guardWrite (i : Nat) (checkedAt : Int)
  | refuseBeforeExecution (reason : FailedReason) (category : FailureCategory)
  | refuseAdmission (reason : FailedReason)
  | cancelJob (owner : Bool) (reason : Option String) (message : String)
  | finalize (req : FinalizeRequest) (env : FinalizeEnv)
  | reviewRead
  | runReview (i : Nat) (payload : DispatchPayload)
  | compensate (park : Nat)
  | markLaunched (backend : String)
  | markLaunchFailed (error : String)
  | setDispatchPayload (payload : DispatchPayload)
  | updateCurrentAttempt (attemptCount : Nat)

namespace JobWorld

def row (w : JobWorld) : SimulationJob := w.db.row

/-- The world with a new job row, and the ending its transaction made, if any. -/
def put (w : JobWorld) (db : JobStore) (ending : Option Author) : JobWorld :=
  { w with db := db, endings := w.endings ++ ending.toList.map (⟨·, db.row⟩) }

def putRow (w : JobWorld) (row : SimulationJob) (ending : Option Author) : JobWorld :=
  w.put { w.db with row := row } ending

/-- The author of an ending, when its write was applied. -/
def endedBy (author : Author) (applied : Bool) : Option Author :=
  if applied then some author else none

/-- A finalize ended the job when its transition was applied and did not park it. -/
def finalizeEnded (outcome : FinalizeOutcome) : Bool :=
  outcome.transition == some .applied && outcome.durableStatus != some .pendingReview

/-- Tokens are drawn fresh, so a claim never brings one that was granted before. -/
def freshToken (w : JobWorld) (token : Token) : Bool :=
  w.granted.all fun own => own.workerToken != token

/-- A claim: a refusal and a rolled back transaction leave the row as it was. -/
def claim (cfg : Config) (w : JobWorld) (workerToken : Token) (backend : String)
    (backendExecutionId : Option String) (fenceAvailable : Bool) : JobWorld :=
  match LeaseRepository.claimExecution (some w.row) workerToken backend backendExecutionId
      fenceAvailable w.clock cfg.settings.lease cfg.settings.pipelineTotal with
  | .ok ⟨_, some own, some row, _⟩ => { w.putRow row none with granted := own :: w.granted }
  | _ => w

/-- The reaper's write for one selected row. -/
def reapWrite (w : JobWorld) (i : Nat) (sel : Cleanup.Selection) (canRerun : Bool) : JobWorld :=
  let (written, row) := Cleanup.reap canRerun sel w.row
  let reran := Cleanup.reruns canRerun sel
  { w.putRow row (endedBy .reaper (written && !reran)) with
    selected := w.selected.eraseIdx i
    reruns := if written && reran && sel.job.status == .running then w.reruns + 1 else w.reruns }

/-- One step; a label is refused when its reads were not made. -/
def step (cfg : Config) (w : JobWorld) : JobOp → Option JobWorld
  | .tick d => some { w with clock := w.clock + d }
  | .claimExecution token backend execution fenceAvailable =>
    if w.freshToken token then some (w.claim cfg token backend execution fenceAvailable) else none
  | .heartbeat own extendDeadlineTo =>
    let beat := LeaseRepository.heartbeat (some w.row) own extendDeadlineTo w.clock
      cfg.settings.lease
    some (w.putRow (beat.2.getD w.row) none)
  | .evictOwner =>
    some (w.putRow ((LeaseRepository.evictOwner (some w.row) w.clock).2.getD w.row) none)
  | .release own =>
    some (w.putRow ((LeaseRepository.release (some w.row) own w.clock).getD w.row) none)
  | .handBack own =>
    some (w.putRow ((LeaseRepository.handBack (some w.row) own w.clock).2.getD w.row) none)
  | .confirmRequeued releasedAt =>
    some (w.putRow
      ((LeaseRepository.confirmRequeued (some w.row) releasedAt w.clock).2.getD w.row) none)
  | .transition target =>
    match JobRepository.transition (some w.row) target none w.clock with
    | .ok (.applied, some row) => some (w.putRow row (endedBy .transition target.Terminal))
    | _ => some w
  | .reapSelect sweepNow =>
    if sweepNow ≤ w.clock ∧ Cleanup.stalledJobsClause cfg.settings sweepNow w.row then
      some { w with selected := w.selected ++ [⟨sweepNow, w.row⟩] }
    else none
  | .reapWrite i canRerun => (w.selected[i]?).map fun sel => w.reapWrite i sel canRerun
  | .guardRead readable =>
    some { w with
      guardReads := w.guardReads ++ [⟨if readable then some w.row else none, w.clock⟩] }
  | .guardWrite i checkedAt =>
    (w.guardReads[i]?).bind fun read =>
      if read.readAt ≤ checkedAt ∧ checkedAt ≤ w.clock then
        let failed := if ExecutionFence.guardDrops read checkedAt then (false, w.row)
          else ExecutionFence.guardFail w.row w.clock
        some { w.putRow failed.2 (endedBy .redeliveryGuard failed.1) with
          guardReads := w.guardReads.eraseIdx i }
      else none
  | .refuseBeforeExecution reason category =>
    let failed := ExecutionFence.refuseBeforeExecution w.row reason category w.clock
    some (w.putRow failed.2 (endedBy .refusal failed.1))
  | .refuseAdmission reason =>
    let failed := ExecutionFence.refuseAdmission w.row reason w.clock
    some (w.putRow failed.2 (endedBy .refusal failed.1))
  | .cancelJob owner reason message =>
    let cancelled := JobCancel.cancelJob owner reason message w.clock w.db
    some (w.put cancelled.2 (endedBy .cancel (cancelled.1 == .cancelled)))
  | .finalize req env =>
    let done := TerminalFinalize.finalizeTerminalAtomic cfg.pricing req env w.clock w.db
    some (w.put done.2 (endedBy .finalize (finalizeEnded done.1)))
  | .reviewRead => some { w with reviewReads := w.reviewReads ++ [w.row] }
  | .runReview i payload =>
    (w.reviewReads[i]?).bind fun job =>
      (RepairReview.runReview job payload w.clock w.db).map fun db =>
        { w.put db none with reviewReads := w.reviewReads.eraseIdx i }
  | .compensate park => some (w.put (RepairReview.compensate park w.clock w.db) none)
  | .markLaunched backend => some (w.putRow (JobRepository.markLaunched w.row backend w.clock) none)
  | .markLaunchFailed error =>
    some (w.putRow (JobRepository.markLaunchFailed w.row error w.clock)
      (endedBy .launcher (w.row.status ∈ legalSources .failed)))
  | .setDispatchPayload payload =>
    some (w.putRow (JobRepository.setDispatchPayload w.row payload w.clock) none)
  | .updateCurrentAttempt attemptCount =>
    some (w.putRow (JobRepository.updateCurrentAttempt w.row attemptCount w.clock) none)

/-- The machine whose runs are the interleavings of all writers. -/
def machine (cfg : Config) : Transition.Machine JobWorld JobOp := ⟨step cfg⟩

/-- A job just created, before anyone read or wrote it. -/
def created (id : JobId) (ownerId : String) (organizationId : Option Nat) (now : Int) :
    JobWorld where
  clock := now
  db := ⟨JobRepository.create id ownerId organizationId now, [], [], []⟩
  granted := []
  selected := []
  guardReads := []
  reviewReads := []
  endings := []
  reruns := 0

variable (w : JobWorld)

@[simp]
theorem put_row (db : JobStore) (ending : Option Author) : (w.put db ending).row = db.row := rfl

@[simp]
theorem putRow_row (r : SimulationJob) (ending : Option Author) : (w.putRow r ending).row = r := rfl

@[simp]
theorem reapWrite_row (i : Nat) (sel : Cleanup.Selection) (canRerun : Bool) :
    (w.reapWrite i sel canRerun).row = (Cleanup.reap canRerun sel w.row).2 := rfl

end JobWorld

end MeshPipeline
