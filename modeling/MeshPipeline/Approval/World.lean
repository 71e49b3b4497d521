import MeshPipeline.Approval.Transaction
import MeshPipeline.Library.Machine

/-!
# Every writer of one conversation's gate

The row of one session, the jobs that its confirmations made, the confirmations in flight and the
copies of the gate that turns hold while they work. A step is one committed transaction, or what one
step of a confirmation meets outside of it; any order of steps is a run. A turn writes the gate back
from the copy it started with.
-/

namespace MeshPipeline

/-- A job with the snapshot that it was made from. -/
structure ApprovedJob where
  row : SimulationJob
  snapshotId : SnapshotId

/-- The session as a turn read it, with the messages it reads again when it is stored. -/
structure GateCopy where
  gate : IntakeGate
  userMsgs : Nat
  messages : Option (List Speaker)

/-- The steps of `dispatch`. -/
inductive DispatchStage
  | validate | store | launch
  deriving DecidableEq, Repr

/-- How far a confirmation has got. A returned one keeps what it left: the job it created, the
session, and the row of the job. -/
inductive ConfirmPhase
  | opening
  | building (jobId : JobId) (snapshot : Approval) (filename : String)
  | dispatching (stage : DispatchStage) (jobId : JobId)
      (payload : ApprovalTransaction.RunPayload) (filename : String)
  | recording (jobId : JobId) (error : Raised)
  | returned (created : Option JobId) (outcome : ConfirmOutcome) (session : ChatSession)
      (job : Option SimulationJob) (now : Int)

/-- The job of a call in flight past its transaction. -/
def ConfirmPhase.job : ConfirmPhase → Option JobId
  | .building jobId _ _ | .dispatching _ jobId _ _ | .recording jobId _ => some jobId
  | .opening | .returned _ _ _ _ _ => none

/-- A call of `confirm_pending_approval`. -/
structure Confirmation where
  ownerId : String
  organizationId : Option Nat
  phase : ConfirmPhase

structure ApprovalWorld where
  clock : Int
  session : ChatSession
  jobs : List ApprovedJob
  copies : List GateCopy
  confirmations : List Confirmation
  /-- How many snapshots were ever made. -/
  snapshots : Nat

/-- What the message authority does with a live approval: it leaves it standing, defers it or
withdraws it. -/
inductive Answer
  | stands | deferred | withdrawn (reason : String)
  deriving DecidableEq, Repr

/-- What a turn or the geometry stage makes of the approval it read. -/
inductive GateChange
  | unmoved
  | moved
  | invalidated (why : String)
  | unitChanged
  | submitted (ownerId selectionId fingerprint intentFingerprint : String)
  deriving DecidableEq, Repr

inductive ApprovalStep
  | tick (microseconds : Nat)
  | bindGeometry (sourceId : Nat)
  | declare
  | accept (answer : Answer)
  | readSession
  | readMessages (i : Nat)
  | writeGate (i : Nat) (change : GateChange) (selection : Option EngineSelection)
  | moveJob (jobId : JobId) (target : JobStatus)
  | confirm (ownerId : String) (organizationId : Option Nat)
  | openTransaction (i : Nat) (env : ApprovalTransaction.Env)
  | build (i : Nat) (built : Except Raised ApprovalTransaction.RunPayload)
  | dispatch (i : Nat) (met : Except Raised Unit) (recorded : Option String)
  | recordFailure (i : Nat) (recorded : Bool)

namespace ApprovalWorld

open ApprovalTransaction

/-- `WITHDRAWN_REASON`. -/
def withdrawnReason : String := "the file's unit changed"

/-- The job that `_last_run` reads: the linked one, or the one that the snapshot records. -/
def lastRun (w : ApprovalWorld) : Option ApprovedJob := do
  let jobId ← w.session.jobId <|> w.session.intakeGate.approval.bind (·.jobId)
  w.jobs[jobId]?

/-- What `_settle` leaves of a live approval. -/
def settle (answer : Answer) (now : Int) (approval : Option Approval) : Option Approval :=
  if Approval.isLive approval now then
    match answer with
    | .stands => approval
    | .deferred => approval.map (·.defer)
    | .withdrawn reason => approval.map (·.invalidate reason)
  else approval

/-- `accept`: a session whose run is in flight only records the message; a run that has ended is let
go of. -/
def accept (w : ApprovalWorld) (answer : Answer) : ApprovalWorld :=
  let session := w.session.appendMessage .user
  if w.lastRun.any fun job => job.row.status ∈ activeStates then { w with session := session }
  else
    { w with
      session := { session with jobId := none }.setApproval
        (settle answer w.clock session.intakeGate.approval) }

/-- The approval that is written back. -/
def written (w : ApprovalWorld) (copy : GateCopy) : GateChange → Option Approval
  | .unmoved => copy.gate.approval.map fun a =>
      if a.revivable copy.userMsgs w.clock then a.revive copy.userMsgs else a
  | .moved => copy.gate.approval
  | .invalidated why => copy.gate.approval.map (·.invalidate why)
  | .unitChanged =>
    if Approval.isLive copy.gate.approval w.clock then
      copy.gate.approval.map (·.invalidate withdrawnReason)
    else copy.gate.approval
  | .submitted ownerId selectionId fingerprint intentFingerprint =>
    some (.create w.snapshots ownerId w.session.id selectionId fingerprint intentFingerprint
      copy.userMsgs w.clock)

/-- `persist_turn`: the gate of the turn, and the messages as it read them with its reply. -/
def writeGate (w : ApprovalWorld) (copy : GateCopy) (change : GateChange)
    (selection : Option EngineSelection) : ApprovalWorld :=
  { w with
    session := { w.session with
      intakeGate := ⟨w.written copy change, selection⟩
      messages := (copy.messages.map (· ++ [Speaker.assistant])).getD w.session.messages }
    snapshots := match change with
      | .submitted _ _ _ _ => w.snapshots + 1
      | _ => w.snapshots }

def updateRow (w : ApprovalWorld) (jobId : JobId) (f : SimulationJob → SimulationJob) :
    ApprovalWorld :=
  { w with jobs := w.jobs.modify jobId fun job => { job with row := f job.row } }

def setPhase (w : ApprovalWorld) (i : Nat) (phase : ConfirmPhase) : ApprovalWorld :=
  { w with confirmations := w.confirmations.modify i fun c => { c with phase := phase } }

/-- The end of a call, with what it leaves. -/
def returning (w : ApprovalWorld) (created : Option JobId) (outcome : ConfirmOutcome) :
    ConfirmPhase :=
  .returned created outcome w.session
    (created.bind fun jobId => (w.jobs[jobId]?).map (·.row)) w.clock

/-- The start of `confirm_pending_approval`, on the session as the caller read it. -/
def fastPath (w : ApprovalWorld) : ConfirmPhase :=
  match w.session.jobId, w.session.geometrySourceId with
  | some jobId, _ => w.returning none (.running jobId)
  | none, none => w.returning none (.answer .noGeometry noGeometryText)
  | none, some _ => .opening

def open_ (w : ApprovalWorld) (i : Nat) (c : Confirmation) (env : Env) : ApprovalWorld :=
  match openTransaction env w.session c.ownerId c.organizationId w.jobs.length w.clock with
  | .error _ =>
    w.setPhase i
      (w.returning none (.answer .dispatchFailed "Failed to create simulation job"))
  | .ok (.answered session outcome) =>
    let w' := { w with session := session }
    w'.setPhase i (w'.returning none outcome)
  | .ok (.created session job snapshot filename) =>
    let made : ApprovedJob := ⟨job, snapshot.id⟩
    let w' := { w with session := session, jobs := w.jobs ++ [made] }
    w'.setPhase i (.building w.jobs.length snapshot filename)

def build (w : ApprovalWorld) (i : Nat) (jobId : JobId) (snapshot : Approval) (filename : String)
    (built : Except Raised ApprovalTransaction.RunPayload) : ApprovalWorld :=
  match built with
  | .error e => w.setPhase i (.recording jobId e)
  | .ok payload =>
    match assertPayloadMatchesApproval payload snapshot with
    | some outcome => w.setPhase i (w.returning (some jobId) outcome)
    | none => w.setPhase i (.dispatching .validate jobId payload filename)

/-- The outcome of a call that dispatched. -/
def dispatchedOutcome (jobId : JobId) (filename : String) : ConfirmOutcome :=
  ⟨.dispatched, s!"Mesh generation accepted and queued for {filename}. Job ID: {jobId}",
    some jobId, filename, true⟩

/-- `dispatch`, stage by stage. The backend that accepted the run is recorded at the end, or the
error of that record is only logged. -/
def dispatch (w : ApprovalWorld) (i : Nat) (stage : DispatchStage) (jobId : JobId)
    (payload : ApprovalTransaction.RunPayload) (filename : String) (met : Except Raised Unit)
    (recorded : Option String) :
    ApprovalWorld :=
  match met, stage with
  | .error e, _ => w.setPhase i (.recording jobId e)
  | .ok _, .validate => w.setPhase i (.dispatching .store jobId payload filename)
  | .ok _, .store =>
    (w.updateRow jobId fun row => JobRepository.setDispatchPayload row payload.entries
      w.clock).setPhase i (.dispatching .launch jobId payload filename)
  | .ok _, .launch =>
    let w' := match recorded with
      | some backend => w.updateRow jobId fun row => JobRepository.markLaunched row backend w.clock
      | none => w
    w'.setPhase i (w'.returning (some jobId) (dispatchedOutcome jobId filename))

def launchFailedText : String :=
  "Could not start mesh generation - the run was not launched and nothing is running. Your approved configuration was kept: say \"run it again\" in this chat and I will set it up for a fresh approval."

/-- The handler of a launch that failed; an error of its own record is only logged. -/
def recordFailure (w : ApprovalWorld) (i : Nat) (jobId : JobId) (error : Raised)
    (recorded : Bool) : ApprovalWorld :=
  let w' := if recorded then
    w.updateRow jobId fun row => JobRepository.markLaunchFailed row error.text w.clock else w
  w'.setPhase i
    (w'.returning (some jobId)
      { ConfirmOutcome.answer .dispatchFailed launchFailedText with jobId := some jobId })

/-- The transition of another process, in the table of `job_state`. -/
def moveRow (target : JobStatus) (now : Int) (row : SimulationJob) : SimulationJob :=
  ((JobRepository.compareAndSet (some row) target (legalSources target) now).2).getD row

/-- One step; a label is refused when its call is not at that point. -/
def step (w : ApprovalWorld) : ApprovalStep → Option ApprovalWorld
  | .tick d => some { w with clock := w.clock + d }
  | .bindGeometry sourceId =>
    some { w with session := { w.session with geometrySourceId := some sourceId } }
  | .declare => some { w with session := w.session.appendMessage .user }
  | .accept answer => some (w.accept answer)
  | .readSession =>
    some { w with
      copies := w.copies ++ [⟨w.session.intakeGate, w.session.userMsgs, none⟩] }
  | .readMessages i =>
    some { w with
      copies := w.copies.modify i fun c => { c with messages := some w.session.messages } }
  | .writeGate i change selection => do
    let copy ← w.copies[i]?
    return w.writeGate copy change selection
  | .moveJob jobId target => some (w.updateRow jobId (moveRow target w.clock))
  | .confirm ownerId organizationId =>
    some { w with
      confirmations := w.confirmations ++ [⟨ownerId, organizationId, w.fastPath⟩] }
  | .openTransaction i env => do
    let c ← w.confirmations[i]?
    match c.phase with
    | .opening => return w.open_ i c env
    | _ => none
  | .build i built => do
    let c ← w.confirmations[i]?
    match c.phase with
    | .building jobId snapshot filename => return w.build i jobId snapshot filename built
    | _ => none
  | .dispatch i met recorded => do
    let c ← w.confirmations[i]?
    match c.phase with
    | .dispatching stage jobId payload filename =>
      return w.dispatch i stage jobId payload filename met recorded
    | _ => none
  | .recordFailure i recorded => do
    let c ← w.confirmations[i]?
    match c.phase with
    | .recording jobId error => return w.recordFailure i jobId error recorded
    | _ => none

def machine : Transition.Machine ApprovalWorld ApprovalStep := ⟨step⟩

/-- A session that was just created. -/
def new (sessionId ownerId : String) (clock : Int) : ApprovalWorld where
  clock := clock
  session := ⟨sessionId, ownerId, [], ⟨none, none⟩, none, none⟩
  jobs := []
  copies := []
  confirmations := []
  snapshots := 0

end ApprovalWorld

end MeshPipeline
