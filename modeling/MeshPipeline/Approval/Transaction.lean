import MeshPipeline.Approval.Snapshot
import MeshPipeline.Persistence.JobRepository

/-!
# The approval transaction

What a confirmation does under the lock of the session row: it refuses, answers that a run exists, or
creates a job, links it and marks the snapshot dispatched, all in one commit. What each of its steps
meets is an outcome given to it; a step that raises rolls the transaction back.
-/

namespace MeshPipeline

/-- What a step raises; only a `ValueError` of the admission is answered in the conversation. -/
inductive Raised
  | valueError (text : String)
  | exception (text : String)
  deriving DecidableEq, Repr

def Raised.text : Raised → String
  | .valueError text | .exception text => text

/-- The author of a message. -/
inductive Speaker
  | user | assistant
  deriving DecidableEq, Repr

/-- `intake_gate`. -/
structure IntakeGate where
  approval : Option Approval
  selection : Option EngineSelection
  deriving DecidableEq, Repr

/-- A row of `chat_sessions`. -/
structure ChatSession where
  id : String
  ownerId : String
  messages : List Speaker
  intakeGate : IntakeGate
  jobId : Option JobId
  geometrySourceId : Option Nat
  deriving DecidableEq, Repr

namespace ChatSession

/-- The messages of the user. -/
def userMsgs (s : ChatSession) : Nat := s.messages.count .user

/-- `append_message`. -/
def appendMessage (s : ChatSession) (role : Speaker) : ChatSession :=
  { s with messages := s.messages ++ [role] }

/-- The approval of the gate, replaced. -/
def setApproval (s : ChatSession) (approval : Option Approval) : ChatSession :=
  { s with intakeGate := { s.intakeGate with approval := approval } }

end ChatSession

inductive ConfirmStatus
  | dispatched | alreadyRunning | alreadyDispatched | refused | noGeometry | noConfirmedUnit
  | sourceExpired | quotaExceeded | inconsistent | dispatchFailed
  deriving DecidableEq, Repr

structure ConfirmOutcome where
  status : ConfirmStatus
  message : String
  jobId : Option JobId
  filename : String
  dispatched : Bool
  deriving DecidableEq, Repr

namespace ConfirmOutcome

/-- `ok`. -/
def ok (o : ConfirmOutcome) : Bool :=
  o.status ∈ [ConfirmStatus.dispatched, .alreadyRunning, .alreadyDispatched]

/-- An outcome that names no job. -/
def answer (status : ConfirmStatus) (message : String) : ConfirmOutcome :=
  ⟨status, message, none, "", false⟩

/-- `_already_running`. -/
def running (jobId : JobId) : ConfirmOutcome :=
  ⟨.alreadyRunning, s!"Mesh generation is already running for this session. Job ID: {jobId}",
    some jobId, "", false⟩

end ConfirmOutcome

namespace ApprovalTransaction

/-- The stored geometry of the session. -/
structure SourceRef where
  sourceId : Nat
  originalFilename : String
  deriving DecidableEq, Repr

/-- What the steps of the transaction meet. `writes` are its updates of the session row. -/
structure Env where
  lock : Except Raised Unit
  spendGate : Except Raised Unit
  quotas : Except Raised Unit
  source : Except Raised (Option SourceRef)
  interpretation : Except Raised (Option Nat)
  purged : Except Raised Bool
  create : Except Raised Unit
  writes : Except Raised Unit
  commit : Except Raised Unit

/-- What the transaction commits: an answer, or a new job with the snapshot it was made from. -/
inductive Committed
  | answered (session : ChatSession) (outcome : ConfirmOutcome)
  | created (session : ChatSession) (job : SimulationJob) (snapshot : Approval)
      (filename : String)

def noGeometryText : String :=
  "No geometry is associated with this session. Upload a file first."

def noUnitText : String :=
  "This geometry has no confirmed unit yet, so its physical size is unknown. Confirm what the file's units represent, then try again."

def expiredText : String :=
  "This geometry was removed after its retention period. Upload the file again to start a new run."

/-- The session as a refusal of an unverified snapshot leaves it. -/
def withdrawn (session : ChatSession) (why : String) : ChatSession :=
  (session.setApproval (session.intakeGate.approval.map (·.invalidate why))).appendMessage
    .assistant

/-- The session as a refusal in the conversation leaves it. -/
def deferred (session : ChatSession) (snapshot : Approval) : ChatSession :=
  (session.setApproval (some snapshot.defer)).appendMessage .assistant

/-- The session as a new job leaves it. -/
def linked (session : ChatSession) (snapshot : Approval) (newJob : JobId) : ChatSession :=
  { session with jobId := some newJob }.setApproval (some (snapshot.dispatch newJob))

/-- A commit of an answer. -/
def answer (env : Env) (session : ChatSession) (outcome : ConfirmOutcome) :
    Except Raised Committed := do
  env.commit
  return .answered session outcome

/-- `_refuse_in_the_conversation`. -/
def refuseInTheConversation (env : Env) (session : ChatSession) (snapshot : Approval)
    (status : ConfirmStatus) (reason : String) : Except Raised Committed := do
  env.writes
  answer env (deferred session snapshot) (.answer status reason)

/-- The refusal of a snapshot that no longer verifies. -/
def refuseUnverified (env : Env) (session : ChatSession) (why : String) :
    Except Raised Committed := do
  env.writes
  answer env (withdrawn session why)
    (.answer .refused
      s!"I did not start anything: {why}. Tell me what you would like to do and I will re-check it and show you a fresh summary.")

/-- What the tenant can pay for, then how many jobs it may run. -/
def admission (env : Env) : Except Raised Unit := do
  env.spendGate
  env.quotas

/-- The transaction from the geometry on: the snapshot is verified and the tenant admitted. -/
def createJob (env : Env) (session : ChatSession) (snapshot : Approval) (ownerId : String)
    (organizationId : Option Nat) (newJob : JobId) (now : Int) : Except Raised Committed := do
  match ← env.source with
  | none => refuseInTheConversation env session snapshot .noGeometry noGeometryText
  | some source =>
    match ← env.interpretation with
    | none => refuseInTheConversation env session snapshot .noConfirmedUnit noUnitText
    | some _ =>
      if ← env.purged then
        refuseInTheConversation env session snapshot .sourceExpired expiredText
      else
        env.create
        env.writes
        env.commit
        return .created (linked session snapshot newJob)
          (JobRepository.create newJob ownerId organizationId now) snapshot source.originalFilename

/-- `_open_transaction`, on the session row that the lock returns. -/
def openTransaction (env : Env) (session : ChatSession) (ownerId : String)
    (organizationId : Option Nat) (newJob : JobId) (now : Int) : Except Raised Committed := do
  env.lock
  match session.jobId with
  | some jobId => answer env session (.running jobId)
  | none =>
    let approval := session.intakeGate.approval
    if approval.any (·.status == .dispatched) then
      answer env session
        { ConfirmOutcome.answer .alreadyDispatched "That configuration has already been dispatched."
          with jobId := approval.bind (·.jobId) }
    else
      match Approval.verify approval ownerId session.id session.intakeGate.selection
        session.userMsgs now with
      | .error why => refuseUnverified env session why
      | .ok snapshot =>
        match admission env with
        | .error (.valueError reason) =>
          refuseInTheConversation env session snapshot .quotaExceeded reason
        | .error e => throw e
        | .ok _ => createJob env session snapshot ownerId organizationId newJob now

/-- What the built payload's two canonical forms digest to, with the payload itself. -/
structure RunPayload where
  entries : DispatchPayload
  builderFingerprint : String
  intentFingerprint : String
  deriving DecidableEq, Repr

def inconsistentText : String :=
  "Internal consistency error: the approved configuration and the run payload do not match. Nothing was started."

def incompleteText : String :=
  "Internal consistency error: the approved configuration is incomplete. Nothing was started."

/-- `assert_payload_matches_approval`: the outcome it raises, if any. -/
def assertPayloadMatchesApproval (payload : RunPayload) (snapshot : Approval) :
    Option ConfirmOutcome :=
  if payload.builderFingerprint ≠ snapshot.fingerprint then
    some (.answer .inconsistent inconsistentText)
  else if snapshot.intentFingerprint = "" then some (.answer .inconsistent incompleteText)
  else if payload.intentFingerprint ≠ snapshot.intentFingerprint then
    some (.answer .inconsistent inconsistentText)
  else none

/-- An admission that raised something else than a refusal. -/
def Env.admissionBroke (env : Env) : Bool :=
  match admission env with
  | .error (.exception _) => true
  | _ => false

/-- No step raises, but an admission that refuses. -/
structure Env.Quiet (env : Env) : Prop where
  lock : env.lock.isOk
  admission : env.admissionBroke = false
  source : env.source.isOk
  interpretation : env.interpretation.isOk
  purged : env.purged.isOk
  create : env.create.isOk
  writes : env.writes.isOk
  commit : env.commit.isOk

instance (env : Env) : Decidable env.Quiet :=
  decidable_of_iff
    ((env.lock.isOk ∧ env.admissionBroke = false ∧ env.source.isOk ∧ env.interpretation.isOk) ∧
      env.purged.isOk ∧ env.create.isOk ∧ env.writes.isOk ∧ env.commit.isOk)
    ⟨fun ⟨⟨h₁, h₂, h₃, h₄⟩, h₅, h₆, h₇, h₈⟩ => ⟨h₁, h₂, h₃, h₄, h₅, h₆, h₇, h₈⟩,
      fun ⟨h₁, h₂, h₃, h₄, h₅, h₆, h₇, h₈⟩ => ⟨⟨h₁, h₂, h₃, h₄⟩, h₅, h₆, h₇, h₈⟩⟩

variable {env : Env} {session : ChatSession} {ownerId : String} {organizationId : Option Nat}
  {newJob : JobId} {now : Int} {done : Committed}

/-- The live snapshot of an unlinked session, answered by the message that was just accepted. -/
structure Verified (session : ChatSession) (ownerId : String) (now : Int) (snapshot : Approval) :
    Prop where
  unlinked : session.jobId = none
  approval : session.intakeGate.approval = some snapshot
  answerable : snapshot.Answerable ownerId session.id session.intakeGate.selection
    session.userMsgs now

/-- Everything that the transaction can commit. -/
inductive Commits (session : ChatSession) (ownerId : String) (organizationId : Option Nat)
    (newJob : JobId) (now : Int) : Committed → Prop
  | repeated (outcome : ConfirmOutcome) (ok : outcome.ok) :
    Commits session ownerId organizationId newJob now (.answered session outcome)
  | withdrawn (why : String) (outcome : ConfirmOutcome) (refused : outcome.ok = false)
      (unlinked : session.jobId = none) :
    Commits session ownerId organizationId newJob now (.answered (withdrawn session why) outcome)
  | deferred (snapshot : Approval) (outcome : ConfirmOutcome) (refused : outcome.ok = false)
      (verified : Verified session ownerId now snapshot) :
    Commits session ownerId organizationId newJob now
      (.answered (deferred session snapshot) outcome)
  | created (snapshot : Approval) (filename : String)
      (verified : Verified session ownerId now snapshot) :
    Commits session ownerId organizationId newJob now
      (.created (linked session snapshot newJob)
        (JobRepository.create newJob ownerId organizationId now) snapshot filename)

lemma answer_eq_ok {outcome : ConfirmOutcome} (h : answer env session outcome = .ok done) :
    done = .answered session outcome := by
  unfold answer at h
  cases hc : env.commit <;> simp [hc, bind, Except.bind, pure, Except.pure] at h
  exact h.symm

lemma refuseUnverified_eq_ok {why : String} (h : refuseUnverified env session why = .ok done) :
    ∃ outcome : ConfirmOutcome, outcome.ok = false ∧
      done = .answered (withdrawn session why) outcome := by
  unfold refuseUnverified at h
  cases hw : env.writes with
  | error e => simp [hw, bind, Except.bind] at h
  | ok u =>
    simp only [hw, bind, Except.bind] at h
    exact ⟨_, rfl, answer_eq_ok h⟩

lemma refuseInTheConversation_eq_ok {snapshot : Approval} {status : ConfirmStatus} {reason : String}
    (h : refuseInTheConversation env session snapshot status reason = .ok done) :
    done = .answered (deferred session snapshot) (.answer status reason) := by
  unfold refuseInTheConversation at h
  cases hw : env.writes with
  | error e => simp [hw, bind, Except.bind] at h
  | ok u =>
    simp only [hw, bind, Except.bind] at h
    exact answer_eq_ok h

/-- Beyond the admission a verified snapshot is deferred or dispatched. -/
lemma createJob_cases {snapshot : Approval} (hverified : Verified session ownerId now snapshot)
    (h : createJob env session snapshot ownerId organizationId newJob now = .ok done) :
    Commits session ownerId organizationId newJob now done := by
  have hrefuse : ∀ status reason, (ConfirmOutcome.answer status reason).ok = false →
      refuseInTheConversation env session snapshot status reason = .ok done →
      Commits session ownerId organizationId newJob now done := by
    intro status reason hstatus hdone
    rw [refuseInTheConversation_eq_ok hdone]
    exact .deferred snapshot _ hstatus hverified
  unfold createJob at h
  cases hsource : env.source with
  | error e => simp [hsource, bind, Except.bind] at h
  | ok source =>
    cases source with
    | none =>
      refine hrefuse .noGeometry noGeometryText rfl ?_
      simpa [hsource, bind, Except.bind] using h
    | some source =>
      cases hinterp : env.interpretation with
      | error e => simp [hsource, hinterp, bind, Except.bind] at h
      | ok interp =>
        cases interp with
        | none =>
          refine hrefuse .noConfirmedUnit noUnitText rfl ?_
          simpa [hsource, hinterp, bind, Except.bind] using h
        | some interp =>
          cases hpurged : env.purged with
          | error e => simp [hsource, hinterp, hpurged, bind, Except.bind] at h
          | ok purged =>
            cases purged with
            | true =>
              refine hrefuse .sourceExpired expiredText rfl ?_
              simpa [hsource, hinterp, hpurged, bind, Except.bind] using h
            | false =>
              cases hcreate : env.create <;> cases hwrites : env.writes <;>
                cases hcommit : env.commit <;>
                simp [hsource, hinterp, hpurged, hcreate, hwrites, hcommit, bind, Except.bind,
                  pure, Except.pure] at h
              rw [← h]
              exact .created snapshot _ hverified

/-- What the transaction can commit, read off its branches. -/
theorem openTransaction_cases
    (h : openTransaction env session ownerId organizationId newJob now = .ok done) :
    Commits session ownerId organizationId newJob now done := by
  unfold openTransaction at h
  cases hlock : env.lock with
  | error e => simp [hlock, bind, Except.bind] at h
  | ok u =>
    cases hlink : session.jobId with
    | some jobId =>
      simp only [hlock, hlink, bind, Except.bind] at h
      rw [answer_eq_ok h]
      exact .repeated _ rfl
    | none =>
      simp only [hlock, hlink, bind, Except.bind] at h
      split at h
      · rw [answer_eq_ok h]
        exact .repeated _ rfl
      cases hverify : Approval.verify session.intakeGate.approval ownerId session.id
        session.intakeGate.selection session.userMsgs now with
      | error why =>
        simp only [hverify] at h
        obtain ⟨outcome, houtcome, hdone⟩ := refuseUnverified_eq_ok h
        rw [hdone]
        exact .withdrawn why outcome houtcome hlink
      | ok snapshot =>
        obtain ⟨happroval, hanswerable⟩ := Approval.verify_eq_ok.mp hverify
        have hverified : Verified session ownerId now snapshot := ⟨hlink, happroval, hanswerable⟩
        simp only [hverify] at h
        split at h
        · rw [refuseInTheConversation_eq_ok h]
          exact .deferred snapshot _ rfl hverified
        · cases h
        · exact createJob_cases hverified h

lemma isOk_iff {α : Type} {x : Except Raised α} : x.isOk ↔ ∃ a, x = .ok a := by
  cases x <;> simp [Except.isOk, Except.toBool]

lemma eq_ok {x : Except Raised Unit} (h : x.isOk) : x = .ok () := by
  obtain ⟨⟨⟩, hx⟩ := isOk_iff.mp h
  exact hx

lemma Env.Quiet.answer (quiet : env.Quiet) (session : ChatSession) (outcome : ConfirmOutcome) :
    answer env session outcome = .ok (.answered session outcome) := by
  simp [ApprovalTransaction.answer, eq_ok quiet.commit, bind, Except.bind, pure, Except.pure]

lemma Env.Quiet.refuse (quiet : env.Quiet) (session : ChatSession) (snapshot : Approval)
    (status : ConfirmStatus) (reason : String) :
    ∃ done, refuseInTheConversation env session snapshot status reason = .ok done := by
  refine ⟨.answered (deferred session snapshot) (.answer status reason), ?_⟩
  simp only [refuseInTheConversation, eq_ok quiet.writes, bind, Except.bind]
  exact quiet.answer _ _

/-- A transaction none of whose steps raises commits. -/
theorem Env.Quiet.commits (quiet : env.Quiet) (session : ChatSession) (ownerId : String)
    (organizationId : Option Nat) (newJob : JobId) (now : Int) :
    ∃ done, openTransaction env session ownerId organizationId newJob now = .ok done := by
  unfold openTransaction
  simp only [eq_ok quiet.lock, bind, Except.bind]
  cases session.jobId with
  | some jobId => exact ⟨_, quiet.answer _ _⟩
  | none =>
    dsimp only
    split
    · exact ⟨_, quiet.answer _ _⟩
    split
    · simp only [refuseUnverified, eq_ok quiet.writes, bind, Except.bind]
      exact ⟨_, quiet.answer _ _⟩
    · split
      · exact quiet.refuse _ _ _ _
      next e hne he =>
        cases e with
        | valueError text => exact absurd rfl (hne text)
        | exception text => simpa [admissionBroke, he] using quiet.admission
      · obtain ⟨source, hsource⟩ := isOk_iff.mp quiet.source
        obtain ⟨interp, hinterp⟩ := isOk_iff.mp quiet.interpretation
        obtain ⟨purged, hpurged⟩ := isOk_iff.mp quiet.purged
        simp only [createJob, hsource, hinterp, hpurged, eq_ok quiet.create, eq_ok quiet.writes,
          eq_ok quiet.commit, bind, Except.bind, pure, Except.pure]
        cases source with
        | none => exact quiet.refuse _ _ _ _
        | some source =>
          cases interp with
          | none => exact quiet.refuse _ _ _ _
          | some interp =>
            cases purged with
            | true => exact quiet.refuse _ _ _ _
            | false => exact ⟨_, rfl⟩

end ApprovalTransaction

end MeshPipeline
