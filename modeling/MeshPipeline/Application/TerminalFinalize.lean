import MeshPipeline.Application.Cleanup
import MeshPipeline.Application.Metering

/-!
# Terminal writers

`finalize_terminal_atomic` with its review and charge savepoints, the refusals that fail a job
before its run, the redelivery guard, the owner's cancel and the review route. Each is one
transaction on the job's rows; what it calls outside the database is a parameter.
-/

namespace MeshPipeline

open TerminalOutboxRepository RepairReviewRepository

/-- A `ReviewPlan`, as far as it decides the park. -/
structure ReviewPlan where
  park : Bool
  deriving DecidableEq, Repr

/-- What a run asks to be recorded. A run derives `succeeded` or `failed`, and is parked in
`pending_review` exactly when its review plan parks it. -/
structure FinalizeRequest where
  ownership : Option ExecutionOwnership
  intendedStatus : JobStatus
  failedReason : Option FailedReason
  finalResult : FinalResult
  closingMessage : String
  reviewPlan : Option ReviewPlan
  plainFailure : Option (FinalResult × String)
  intended_mem : intendedStatus ∈ [.succeeded, .failed, .pendingReview]
  parks_iff : intendedStatus = .pendingReview ↔ ∃ plan ∈ reviewPlan, plan.park = true

lemma FinalizeRequest.delivered_mem :
    JobStatus.succeeded ∈ [JobStatus.succeeded, .failed, .pendingReview] := List.mem_cons_self

/-- A delivered mesh carries no plan that parks it. -/
lemma FinalizeRequest.delivered_parks_iff :
    JobStatus.succeeded = .pendingReview ↔
      ∃ plan ∈ (none : Option ReviewPlan), plan.park = true := by
  simp

lemma FinalizeRequest.parked_mem :
    JobStatus.pendingReview ∈ [JobStatus.succeeded, .failed, .pendingReview] := by
  decide

lemma FinalizeRequest.parked_parks_iff :
    JobStatus.pendingReview = .pendingReview ↔
      ∃ plan ∈ some (ReviewPlan.mk true), plan.park = true := by
  simp

/-- What a finalize meets: whether its review write and its charge fail, and its tenant. -/
structure FinalizeEnv where
  reviewFails : Bool
  chargeFails : Bool
  account : Metering.Account
  deriving DecidableEq, Repr

structure FinalizeOutcome where
  fenced : Bool
  transition : Option TransitionResult
  durableStatus : Option JobStatus
  enqueued : Bool
  fellBackToFailed : Bool
  deriving DecidableEq, Repr

namespace TerminalFinalize

/-- `write_review`: `none` when the savepoint raised, else the new park's id and the parks. -/
def writeReview (parks : List Park) (plan : ReviewPlan) (fails : Bool) :
    Option (Option Nat × List Park) :=
  if plan.park then
    if (openPark parks).isSome || fails then none
    else some (some (createPark parks).1, (createPark parks).2)
  else if fails then none
  else some (none, parks)

/-- What is left to record once the review write was tried. -/
structure Reviewed where
  intendedStatus : JobStatus
  finalResult : FinalResult
  closingMessage : String
  parkId : Option Nat
  parks : List Park
  fellBack : Bool

/-- The review write, failing open to a plain failure. -/
def review (parks : List Park) (req : FinalizeRequest) (env : FinalizeEnv) : Reviewed :=
  match req.reviewPlan with
  | none => ⟨req.intendedStatus, req.finalResult, req.closingMessage, none, parks, false⟩
  | some plan =>
    match writeReview parks plan env.reviewFails with
    | some (parkId, parks') =>
      ⟨req.intendedStatus, req.finalResult, req.closingMessage, parkId, parks', false⟩
    | none =>
      if req.intendedStatus = .pendingReview then
        let (result, message) := req.plainFailure.getD (req.finalResult, req.closingMessage)
        ⟨.failed, result, message, none, parks, true⟩
      else ⟨req.intendedStatus, req.finalResult, req.closingMessage, none, parks, false⟩

/-- `_charge_fail_open`: a charge that raises is rolled back to its savepoint. -/
def chargeFailOpen (price : Metering.Pricing) (env : FinalizeEnv) (row : SimulationJob)
    (ledger : List CreditLedgerEntry) : List CreditLedgerEntry :=
  if env.chargeFails then ledger else ledger ++ Metering.chargeForJob price env.account row

/-- The row as the winning finalize leaves it. -/
def endedRow (req : FinalizeRequest) (r : Reviewed) (row : SimulationJob) (now : Int) :
    SimulationJob :=
  let row := JobRepository.timestampsFor row r.intendedStatus now
  let row := if r.intendedStatus ≠ .pendingReview ∧ req.failedReason.isSome then
      { row with failedReason := req.failedReason }
    else row
  JobRepository.setFinalResult row r.finalResult now

/-- The announcement of a finalize: a park under its own key, an ending under the job's. -/
def announcement (req : FinalizeRequest) (r : Reviewed) (row : SimulationJob) : OutboxRow where
  jobId := row.id
  executionGeneration := (req.ownership.map (·.executionGeneration)).getD 0
  terminalStatus := r.intendedStatus
  finalResultSchemaVersion := r.finalResult.schemaVersion
  closingMessage := r.closingMessage
  finalResult := r.finalResult
  dedupKey := match r.parkId with
    | some park => .park row.id park
    | none => dedupKeyFor row.id

/-- `finalize_terminal_atomic`, committed. -/
def finalizeTerminalAtomic (price : Metering.Pricing) (req : FinalizeRequest) (env : FinalizeEnv)
    (now : Int) (db : JobStore) : FinalizeOutcome × JobStore :=
  if req.ownership.any fun own => (LeaseRepository.lockCurrentOwner (some db.row) own).isNone then
    (⟨true, none, none, false, false⟩, db)
  else
    let r := review db.parks req env
    match JobRepository.transition (some db.row) r.intendedStatus none now with
    | .ok (.applied, some _) =>
      let row := endedRow req r db.row now
      let (enqueued, outbox) := enqueue db.outbox (announcement req r db.row)
      (⟨false, some .applied, some r.intendedStatus, enqueued, r.fellBack⟩,
        { row := row
          parks := r.parks
          outbox := outbox
          ledger := if r.intendedStatus = .pendingReview then db.ledger
            else chargeFailOpen price env row db.ledger })
    | .ok (tr, row) => (⟨false, some tr, row.map (·.status), false, r.fellBack⟩, db)
    | .error _ => (⟨false, none, none, false, r.fellBack⟩, db)

variable (price : Metering.Pricing) (parks : List Park) (req : FinalizeRequest)
  (env : FinalizeEnv) (now : Int) (db : JobStore)

/-- What is recorded is what was intended, or a plain failure in place of a park. -/
theorem review_intended : (review parks req env).intendedStatus = req.intendedStatus ∨
    (review parks req env).intendedStatus = .failed := by
  unfold review
  split
  · exact .inl rfl
  · split
    · exact .inl rfl
    · split
      · exact .inr rfl
      · exact .inl rfl

/-- A park has an identity exactly when the run is recorded as parked. -/
theorem review_parkId :
    (review parks req env).intendedStatus = .pendingReview ↔
      (review parks req env).parkId.isSome := by
  have hiff := req.parks_iff
  unfold review
  cases hplan : req.reviewPlan with
  | none => simpa [hplan] using hiff
  | some plan =>
    simp only [hplan, Option.mem_some_iff, exists_eq_left', writeReview] at hiff ⊢
    cases hpark : plan.park <;> cases env.reviewFails <;> cases (openPark parks).isSome <;>
      simp [hpark, hiff]

/-- A run that does not park is recorded the same whether or not its review write fails. -/
theorem review_of_ne_pendingReview {req : FinalizeRequest}
    (h : req.intendedStatus ≠ .pendingReview) :
    (review parks req env).intendedStatus = req.intendedStatus ∧
      (review parks req env).finalResult = req.finalResult ∧
      (review parks req env).closingMessage = req.closingMessage ∧
      (review parks req env).parkId = none := by
  have hid := review_parkId parks req env
  unfold review at hid ⊢
  split
  · simp
  · split <;> simp_all

theorem intended_terminal_or_parked :
    (review parks req env).intendedStatus.Terminal ∨
      (review parks req env).intendedStatus = .pendingReview := by
  have hmem := req.intended_mem
  simp only [List.mem_cons, List.not_mem_nil, or_false] at hmem
  obtain h | h := review_intended parks req env
  · rw [h, terminal_iff]
    tauto
  · rw [h]
    exact .inl (by decide)

/-- What the winning finalize answers and commits. -/
def won (price : Metering.Pricing) (req : FinalizeRequest) (env : FinalizeEnv) (now : Int)
    (db : JobStore) (r : Reviewed) : FinalizeOutcome × JobStore :=
  (⟨false, some .applied, some r.intendedStatus, (enqueue db.outbox (announcement req r db.row)).1,
      r.fellBack⟩,
    { row := endedRow req r db.row now
      parks := r.parks
      outbox := (enqueue db.outbox (announcement req r db.row)).2
      ledger := if r.intendedStatus = .pendingReview then db.ledger
        else chargeFailOpen price env (endedRow req r db.row now) db.ledger })

/-- The caller's ownership, if it has one, is no longer the row's. -/
def Fenced (req : FinalizeRequest) (db : JobStore) : Prop :=
  ∃ own ∈ req.ownership, LeaseRepository.names db.row own = false

theorem finalize_of_fenced (h : Fenced req db) :
    finalizeTerminalAtomic price req env now db = (⟨true, none, none, false, false⟩, db) := by
  obtain ⟨own, hown, hnames⟩ := h
  obtain ⟨-, hlock, -⟩ := LeaseRepository.refused_of_not_names hnames
  simp [finalizeTerminalAtomic, Option.mem_def.mp hown, hlock]

theorem finalize_of_source (hfence : ¬ Fenced req db)
    (hsrc : db.row.status ∈ legalSources (review db.parks req env).intendedStatus) :
    finalizeTerminalAtomic price req env now db = won price req env now db (review db.parks req env)
    := by
  have hlock : ¬ req.ownership.any fun own =>
      (LeaseRepository.lockCurrentOwner (some db.row) own).isNone := by
    intro hany
    cases hown : req.ownership with
    | none => simp [hown] at hany
    | some own =>
      refine hfence ⟨own, hown, ?_⟩
      simpa [hown, LeaseRepository.lockCurrentOwner] using hany
  simp [finalizeTerminalAtomic, hlock, JobRepository.compareAndSet, hsrc, won]

theorem finalize_of_not_source
    (hsrc : db.row.status ∉ legalSources (review db.parks req env).intendedStatus) :
    (finalizeTerminalAtomic price req env now db).2 = db ∧
      (finalizeTerminalAtomic price req env now db).1.transition ≠ some .applied := by
  unfold finalizeTerminalAtomic
  split
  · exact ⟨rfl, by simp⟩
  · simp only [JobRepository.transition_default, JobRepository.compareAndSet, hsrc, if_false]
    by_cases hat : db.row.status = (review db.parks req env).intendedStatus
    · rw [if_pos hat]
      exact ⟨rfl, by simp⟩
    · rw [if_neg hat]
      exact ⟨rfl, by simp⟩

/-- A finalize writes nothing, or it won the transition and writes the row, the announcement and
the charge together. -/
theorem finalize_cases :
    ((finalizeTerminalAtomic price req env now db).2 = db ∧
        (finalizeTerminalAtomic price req env now db).1.transition ≠ some .applied) ∨
      (¬ Fenced req db ∧ db.row.status ∈ legalSources (review db.parks req env).intendedStatus ∧
        finalizeTerminalAtomic price req env now db =
          won price req env now db (review db.parks req env)) := by
  by_cases hfence : Fenced req db
  · rw [finalize_of_fenced price req env now db hfence]
    exact .inl ⟨rfl, nofun⟩
  · by_cases hsrc : db.row.status ∈ legalSources (review db.parks req env).intendedStatus
    · exact .inr ⟨hfence, hsrc, finalize_of_source price req env now db hfence hsrc⟩
    · exact .inl (finalize_of_not_source price req env now db hsrc)

/-- A job that has ended is not finalized again. -/
theorem finalize_of_terminal (h : db.row.status.Terminal) :
    (finalizeTerminalAtomic price req env now db).2 = db ∧
      (finalizeTerminalAtomic price req env now db).1.transition ≠ some .applied := by
  obtain hnone | ⟨-, hsrc, -⟩ := finalize_cases price req env now db
  · exact hnone
  · exact absurd h (not_terminal_of_mem_legalSources hsrc)

@[simp]
theorem endedRow_finalResult (row : SimulationJob) (r : Reviewed) :
    (endedRow req r row now).finalResult = some r.finalResult := by
  unfold endedRow
  rfl

/-- What `_charge_fail_open` adds to the ledger: nothing, or one debit of a succeeded job. -/
theorem debits_chargeFailOpen (row : SimulationJob) (ledger : List CreditLedgerEntry) :
    Metering.debits (chargeFailOpen price env row ledger) = Metering.debits ledger ∨
      ∃ d, Metering.debits (chargeFailOpen price env row ledger) = Metering.debits ledger ++ [d] ∧
        row.status = .succeeded ∧ row.organizationId = some d.organizationId ∧
        d.amount = -Metering.creditsForJob price row.startedAt row.endedAt := by
  unfold chargeFailOpen
  split
  · exact .inl rfl
  · obtain hnone | ⟨d, hd, -, horg, hamount⟩ :=
      Metering.debits_chargeForJob price env.account row
    · left
      rw [Metering.debits_append, hnone, List.append_nil]
    · refine .inr ⟨d, by rw [Metering.debits_append, hd], ?_, horg, hamount⟩
      by_contra hs
      rw [Metering.chargeForJob_of_ne_succeeded hs] at hd
      cases hd

/-- The conditions of a finalize in which nothing beside the ending fails. -/
def calm (env : FinalizeEnv) : FinalizeEnv :=
  { env with reviewFails := false, chargeFails := false }

/-- A failing review write can only turn a park into a failure, which has every source a park
has. -/
theorem source_of_calm
    (h : db.row.status ∈ legalSources (review db.parks req (calm env)).intendedStatus) :
    db.row.status ∈ legalSources (review db.parks req env).intendedStatus := by
  by_cases hp : req.intendedStatus = .pendingReview
  · have hsource : db.row.status ∈ legalSources .failed := by
      obtain hc | hc := review_intended db.parks req (calm env)
      · rw [hc, hp] at h
        revert h
        cases db.row.status <;> decide
      · exact hc ▸ h
    obtain ⟨plan, hplan, hpark⟩ := req.parks_iff.mp hp
    obtain hi | hi := review_intended db.parks req env
    · rw [hi, hp]
      -- the park was written here, so it is written when nothing fails
      have hopen : (openPark db.parks).isSome = false := by
        by_contra hopen
        have hid := (review_parkId db.parks req env).mp (hi.trans hp)
        rw [Bool.not_eq_false] at hopen
        simp [review, Option.mem_def.mp hplan, writeReview, hpark, hopen, hp] at hid
      have hcalm : (review db.parks req (calm env)).intendedStatus = .pendingReview := by
        simp [review, Option.mem_def.mp hplan, writeReview, hpark, hopen, hp, calm]
      exact hcalm ▸ h
    · rwa [hi]
  · rw [(review_of_ne_pendingReview db.parks env hp).1]
    rwa [(review_of_ne_pendingReview db.parks (calm env) hp).1] at h

/-- A failing charge or review write does not undo the ending it accompanies: what would have
been applied is applied, an ending is recorded and announced the same, and a park that could not
be written is recorded as a failure. -/
theorem finalize_failOpen
    (h : (finalizeTerminalAtomic price req (calm env) now db).1.transition = some .applied) :
    (finalizeTerminalAtomic price req env now db).1.transition = some .applied ∧
      (req.intendedStatus ≠ .pendingReview →
        (finalizeTerminalAtomic price req env now db).2.row =
            (finalizeTerminalAtomic price req (calm env) now db).2.row ∧
          (finalizeTerminalAtomic price req env now db).2.outbox =
            (finalizeTerminalAtomic price req (calm env) now db).2.outbox) ∧
      (req.intendedStatus = .pendingReview →
        (finalizeTerminalAtomic price req env now db).2.row.status ∈
          [JobStatus.pendingReview, .failed]) := by
  obtain ⟨-, hnone⟩ | ⟨hfence, hsrc, hcalm⟩ := finalize_cases price req (calm env) now db
  · exact absurd h hnone
  · have hmet := finalize_of_source price req env now db hfence (source_of_calm req env db hsrc)
    rw [hmet, hcalm]
    refine ⟨rfl, fun hp => ?_, fun hp => ?_⟩
    · obtain ⟨hi, hr, hm, hid⟩ := review_of_ne_pendingReview db.parks env hp
      obtain ⟨hi', hr', hm', hid'⟩ := review_of_ne_pendingReview db.parks (calm env) hp
      simp [won, endedRow, announcement, hi, hr, hm, hid, hi', hr', hm', hid']
    · have hstatus : (endedRow req (review db.parks req env) db.row now).status =
          (review db.parks req env).intendedStatus := by
        unfold endedRow
        dsimp only [JobRepository.setFinalResult]
        split <;> simp
      obtain hi | hi := review_intended db.parks req env
      · simp [won, hstatus, hi, hp]
      · simp [won, hstatus, hi]

end TerminalFinalize

namespace ExecutionFence

/-- A row as the redelivery guard read it, outside any lock; `none` when it was unreadable. -/
structure GuardRead where
  current : Option SimulationJob
  readAt : Int
  deriving DecidableEq, Repr

/-- A copy over the cap is dropped when the job has ended or a live worker holds it. -/
def guardDrops (read : GuardRead) (now : Int) : Bool :=
  read.current.any fun row => decide row.status.Terminal || LeaseRepository.leaseActive row now

/-- The transition to `failed` shared by the guard and the refusals, with the columns it stamps
when it was the one to apply it. -/
def failJobRow (row : SimulationJob) (stamp : SimulationJob → SimulationJob) (now : Int) :
    Bool × SimulationJob :=
  match JobRepository.transition (some row) .failed none now with
  | .ok (.applied, some row') => (true, stamp row')
  | _ => (false, row)

/-- The write of `guard_redelivery`: a poison job is failed as a lost worker. -/
def guardFail (row : SimulationJob) (now : Int) : Bool × SimulationJob :=
  failJobRow row (fun row' =>
    { row' with
      failedReason := some .unhandled
      finalResult :=
        some (FinalResult.workerLostResult row.id row.ownerId row.currentAttempt now) }) now

/-- `refuse_before_execution`. -/
def refuseBeforeExecution (row : SimulationJob) (reason : FailedReason)
    (category : FailureCategory) (now : Int) : Bool × SimulationJob :=
  failJobRow row (fun row' =>
    { row' with
      failedReason := some reason
      finalResult := some (FinalResult.refusedResult category row.id row.ownerId now) }) now

/-- `refuse_admission` and `_fail_job_row`: the reason without a record. -/
def refuseAdmission (row : SimulationJob) (reason : FailedReason) (now : Int) :
    Bool × SimulationJob :=
  failJobRow row (fun row' => { row' with failedReason := some reason }) now

/-- A job that has left its sources is not failed. -/
theorem failJobRow_of_not_source {row : SimulationJob} {stamp : SimulationJob → SimulationJob}
    {now : Int} (h : row.status ∉ legalSources .failed) :
    failJobRow row stamp now = (false, row) := by
  simp only [failJobRow, JobRepository.transition_default, JobRepository.compareAndSet, h, if_false]
  split
  · rename_i hcas
    split at hcas <;> simp at hcas
  · rfl

end ExecutionFence

namespace JobCancel

inductive CancelResult
  | cancelled | alreadyCancelled | alreadyFinished | notFound
  deriving DecidableEq, Repr

/-- The row a cancel leaves: evicted, cancelled, with its reason and its verdict. -/
def cancelledRow (row : SimulationJob) (reason : Option String) (now : Int) : SimulationJob :=
  let evicted := ((LeaseRepository.evictOwner (some row) now).2).getD row
  let ended := JobRepository.timestampsFor evicted .cancelled now
  { ended with
    cancelReason := reason
    finalResult := some (FinalResult.buildCancelledResult row now) }

/-- `cancel_job`: `owner` says whether the caller owns the job, `message` is the rendered
verdict. -/
def cancelJob (owner : Bool) (reason : Option String) (message : String) (now : Int)
    (db : JobStore) : CancelResult × JobStore :=
  if !owner then (.notFound, db)
  else if db.row.status = .cancelled then (.alreadyCancelled, db)
  else if db.row.status.Terminal then (.alreadyFinished, db)
  else
    let row := cancelledRow db.row reason now
    let result := FinalResult.buildCancelledResult db.row now
    let parks := match db.row.status, openPark db.parks with
      | .pendingReview, some park => closePark db.parks park.id .cancel
      | _, _ => db.parks
    let (_, outbox) := enqueue db.outbox
      { jobId := db.row.id
        executionGeneration := db.row.executionGeneration
        terminalStatus := .cancelled
        finalResultSchemaVersion := result.schemaVersion
        closingMessage := message
        finalResult := result
        dedupKey := dedupKeyFor db.row.id }
    (.cancelled, { db with row := row, parks := parks, outbox := outbox })

/-- A cancel changes nothing, or it ends a live job and writes the row, its park and its
announcement together. -/
theorem cancelJob_cases (owner : Bool) (reason : Option String) (message : String) (now : Int)
    (db : JobStore) :
    ((cancelJob owner reason message now db).2 = db ∧
        (cancelJob owner reason message now db).1 ≠ .cancelled) ∨
      (¬ db.row.status.Terminal ∧ (cancelJob owner reason message now db).1 = .cancelled ∧
        (cancelJob owner reason message now db).2.row = cancelledRow db.row reason now ∧
        (cancelJob owner reason message now db).2.ledger = db.ledger ∧
        ∃ r : OutboxRow, announcesEnding r ∧ r.terminalStatus = .cancelled ∧
          (cancelledRow db.row reason now).finalResult = some r.finalResult ∧
          (cancelJob owner reason message now db).2.outbox = (enqueue db.outbox r).2) := by
  unfold cancelJob
  split
  · exact .inl ⟨rfl, nofun⟩
  · split
    · exact .inl ⟨rfl, nofun⟩
    · split
      · exact .inl ⟨rfl, nofun⟩
      · rename_i hlive
        exact .inr ⟨hlive, rfl, rfl, rfl, _, rfl, rfl, rfl, rfl⟩

end JobCancel

namespace RepairReview

/-- The transaction of `run_review`: `job` is the row as it was read before the park's lock. A
park that is not there or a transition that is not applied refuses the request. -/
def runReview (job : SimulationJob) (payload : DispatchPayload) (now : Int) (db : JobStore) :
    Option JobStore :=
  match if job.status = .pendingReview then openPark db.parks else none with
  | none => none
  | some park =>
    match JobRepository.transition (some db.row) .pending none now with
    | .ok (.applied, some row) =>
      let row := JobRepository.resetForReviewRerun row job.startedAt job.endedAt now
      some { db with
        row := JobRepository.setDispatchPayload row payload now
        parks := closePark db.parks park.id .run }
    | _ => none

/-- `_compensate`: a job whose dispatch failed goes back to the review it left. -/
def compensate (park : Nat) (now : Int) (db : JobStore) : JobStore :=
  match JobRepository.transition (some db.row) .pendingReview (some [.pending]) now with
  | .ok (.applied, some row) => { db with row := row, parks := reopenPark db.parks park }
  | _ => db

/-- The review route neither announces an ending nor charges. -/
theorem runReview_accounts {job : SimulationJob} {payload : DispatchPayload} {now : Int}
    {db db' : JobStore} (h : runReview job payload now db = some db') :
    db'.outbox = db.outbox ∧ db'.ledger = db.ledger := by
  unfold runReview at h
  split at h
  · cases h
  · split at h <;> cases h
    exact ⟨rfl, rfl⟩

theorem compensate_accounts (park : Nat) (now : Int) (db : JobStore) :
    (compensate park now db).outbox = db.outbox ∧ (compensate park now db).ledger = db.ledger := by
  unfold compensate
  split <;> exact ⟨rfl, rfl⟩

end RepairReview

end MeshPipeline
