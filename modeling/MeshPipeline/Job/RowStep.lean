import MeshPipeline.Job.World

/-!
# What one step can do to the job row

Each step of the world either grants a claim or makes one of the row changes listed by
`RowStep`. Every invariant of the row is proved over this list, and never over the operations.
-/

namespace MeshPipeline

open LeaseRepository JobRepository

/-- The lease columns are untouched. -/
structure SameLease (row row' : SimulationJob) : Prop where
  executionGeneration : row'.executionGeneration = row.executionGeneration
  executionClaimEpoch : row'.executionClaimEpoch = row.executionClaimEpoch
  activeWorkerToken : row'.activeWorkerToken = row.activeWorkerToken
  leaseExpiresAt : row'.leaseExpiresAt = row.leaseExpiresAt
  pipelineDeadlineAt : row'.pipelineDeadlineAt = row.pipelineDeadlineAt

/-- The columns that record how a job ended are untouched. -/
structure SameRecord (row row' : SimulationJob) : Prop where
  status : row'.status = row.status
  finalResult : row'.finalResult = row.finalResult
  endedAt : row'.endedAt = row.endedAt
  failedReason : row'.failedReason = row.failedReason

theorem SameLease.refl (row : SimulationJob) : SameLease row row := ⟨rfl, rfl, rfl, rfl, rfl⟩

theorem SameRecord.refl (row : SimulationJob) : SameRecord row row := ⟨rfl, rfl, rfl, rfl⟩

theorem SameRecord.trans {a b c : SimulationJob} (h : SameRecord a b) (h' : SameRecord b c) :
    SameRecord a c :=
  ⟨h'.status.trans h.status, h'.finalResult.trans h.finalResult, h'.endedAt.trans h.endedAt,
    h'.failedReason.trans h.failedReason⟩

/-- The operations that may leave a job in a status of their own. -/
def JobOp.Moves (target : JobStatus) : JobOp → Prop
  | .transition named => named = target
  | .finalize .. | .compensate _ => True
  | _ => False

/-- A row change other than a granted claim, by the operation `op`; the flag says whether it ends
the job. Only a bare transition sends a job back to wait without clearing its token. -/
inductive RowStep (cfg : Settings) (now : Int) (op : JobOp) (row : SimulationJob) :
    Bool → SimulationJob → Prop
  | bookkeeping {row' : SimulationJob} (lease : SameLease row row') (record : SameRecord row row')
      (started : row'.startedAt = row.startedAt)
      (dispatch : row'.pipelineDispatchState = row.pipelineDispatchState ∨
        row.status.Terminal ∨ ∃ backend, op = .markLaunched backend) :
      RowStep cfg now op row false row'
  | extended (target : Option Int) : RowStep cfg now op row false (extendDeadline row target now)
  | beaten (target : Option Int) (held : row.activeWorkerToken.isSome) :
      RowStep cfg now op row false (beaten (extendDeadline row target now) now cfg.lease)
  | withdrawn : RowStep cfg now op row false (withdrawn row now)
  | handedBack (running : row.status = .running) :
      RowStep cfg now op row false { withdrawn row now with status := .pending }
  | confirmed (pending : row.status = .pending) (free : row.activeWorkerToken = none) :
      RowStep cfg now op row false { row with leaseExpiresAt := none, updatedAt := now }
  | rerun (sel : Cleanup.Selection) (since : sel.now ≤ now)
      (stalled : Cleanup.stalledJobsClause cfg sel.now sel.job)
      (eligible : Cleanup.rerunEligible sel.job sel.now) (status : row.status = sel.job.status)
      (lease : row.leaseExpiresAt = sel.job.leaseExpiresAt) :
      RowStep cfg now op row false (Cleanup.rerunWrite sel row).2
  | requeued {target : JobStatus} (bare : op = .transition target)
      (source : row.status ∈ legalSources target)
      (waits : target = .pending ∨ target = .queued) :
      RowStep cfg now op row false { row with status := target, updatedAt := now }
  | moved {row' : SimulationJob} (target : JobStatus) (source : row.status ∈ legalSources target)
      (leaves : target ≠ .pending ∧ target ≠ .queued) (status : row'.status = target)
      (lease : SameLease row row')
      (started : row'.startedAt = if target = .running then some now else row.startedAt)
      (dispatch : row'.pipelineDispatchState = row.pipelineDispatchState ∨ target.Terminal)
      (named : target = .failed ∨ op.Moves target) :
      RowStep cfg now op row (decide target.Terminal) row'
  | cancelled (reason : Option String) (live : ¬ row.status.Terminal) :
      RowStep cfg now op row true (JobCancel.cancelledRow row reason now)
  | reviewRerun (startedAt endedAt : Option Int) (payload : DispatchPayload)
      (source : row.status ∈ legalSources .pending) (reviewed : ∃ i, op = .runReview i payload) :
      RowStep cfg now op row false (setDispatchPayload
        (reviewRerunReset (timestampsFor row .pending now) startedAt endedAt now) payload now)

/-- A claim was granted: fresh, on a claimable row that no other live lease holds. -/
structure Granted (cfg : Settings) (w w' : JobWorld) (own : ExecutionOwnership) : Prop where
  fresh : w.freshToken own.workerToken
  claimable : w.row.status = .pending ∨ w.row.status = .running
  free : leaseActive w.row w.clock = false ∨ w.row.activeWorkerToken = some own.workerToken
  generation : w.row.executionGeneration ≤ own.executionGeneration
  row : ∃ execution, w'.row = claimed w.row own.executionGeneration own.workerToken own.backend
    execution w.clock cfg.lease cfg.pipelineTotal
  granted : w'.granted = own :: w.granted
  endings : w'.endings = w.endings

/-- Every selected row met the clause when its sweep, now past, looked at it. -/
def JobWorld.SelectionsSound (cfg : Settings) (w : JobWorld) : Prop :=
  ∀ sel ∈ w.selected, sel.now ≤ w.clock ∧ Cleanup.stalledJobsClause cfg sel.now sel.job

namespace RowStep

variable {cfg : Settings} {now : Int} {op : JobOp} {row row' : SimulationJob}

theorem same : RowStep cfg now op row false row :=
  .bookkeeping (.refl row) (.refl row) rfl (.inl rfl)

/-! ## The repository's operations as row steps -/

theorem of_heartbeat (own : ExecutionOwnership) (target : Option Int) :
    RowStep cfg now op row false ((heartbeat (some row) own target now cfg.lease).2.getD row) := by
  simp only [heartbeat]
  split
  · exact same
  · split
    · exact same
    · rename_i hn
      split
      · exact .extended target
      · refine .beaten target ?_
        have hnames : names row own = true := by simpa using hn
        simp [token_of_names hnames]

theorem of_evictOwner : RowStep cfg now op row false ((evictOwner (some row) now).2.getD row) := by
  simp only [evictOwner]
  split
  · exact same
  · exact .withdrawn

theorem of_release (own : ExecutionOwnership) :
    RowStep cfg now op row false ((release (some row) own now).getD row) := by
  simp only [release]
  split
  · exact same
  · split
    · exact .withdrawn
    · exact same

theorem of_handBack (own : ExecutionOwnership) :
    RowStep cfg now op row false ((handBack (some row) own now).2.getD row) := by
  simp only [handBack]
  split
  · rename_i h
    exact .handedBack h.1
  · exact same

theorem of_confirmRequeued (releasedAt : Int) :
    RowStep cfg now op row false ((confirmRequeued (some row) releasedAt now).2.getD row) := by
  simp only [confirmRequeued]
  split
  · rename_i h
    exact .confirmed h.1 h.2.1
  · exact same

theorem sameLease_timestampsFor (row : SimulationJob) (target : JobStatus) (now : Int) :
    SameLease row (timestampsFor row target now) := by
  cases target <;> exact ⟨rfl, rfl, rfl, rfl, rfl⟩

theorem startedAt_timestampsFor (target : JobStatus) :
    (timestampsFor row target now).startedAt =
      if target = .running then some now else row.startedAt := by
  cases target <;> rfl

theorem dispatch_timestampsFor (row : SimulationJob) (target : JobStatus) (now : Int) :
    (timestampsFor row target now).pipelineDispatchState = row.pipelineDispatchState := by
  cases target <;> rfl

theorem of_timestampsFor {target : JobStatus} (h : row.status ∈ legalSources target)
    (leaves : target ≠ .pending ∧ target ≠ .queued) (named : op.Moves target) :
    RowStep cfg now op row target.Terminal (timestampsFor row target now) :=
  .moved target h leaves timestampsFor_status (sameLease_timestampsFor row target now)
    (startedAt_timestampsFor target) (.inl (dispatch_timestampsFor row target now)) (.inr named)

/-- A transition applied on its own. -/
theorem of_transition {target : JobStatus} (h : row.status ∈ legalSources target) :
    RowStep cfg now (.transition target) row target.Terminal (timestampsFor row target now) := by
  cases target with
  | pending => exact .requeued rfl h (.inl rfl)
  | queued => exact .requeued rfl h (.inr rfl)
  | _ => exact of_timestampsFor h ⟨nofun, nofun⟩ rfl

/-- A stamp on a failed row that touches only the record of its ending. -/
def StampsRecord (stamp : SimulationJob → SimulationJob) : Prop :=
  ∀ r, (stamp r).status = r.status ∧ SameLease r (stamp r) ∧ (stamp r).startedAt = r.startedAt ∧
    (stamp r).pipelineDispatchState = r.pipelineDispatchState

theorem of_failJobRow {stamp : SimulationJob → SimulationJob} (hs : StampsRecord stamp) :
    RowStep cfg now op row (ExecutionFence.failJobRow row stamp now).1
      (ExecutionFence.failJobRow row stamp now).2 := by
  simp only [ExecutionFence.failJobRow, transition_default]
  split
  · rename_i row' h
    obtain ⟨hsrc, rfl⟩ := compareAndSet_applied.mp (Except.ok.inj h)
    obtain ⟨hstatus, hlease, hstarted, hdispatch⟩ := hs (timestampsFor row .failed now)
    exact .moved .failed hsrc (by decide) hstatus
      ⟨hlease.1, hlease.2, hlease.3, hlease.4, hlease.5⟩ hstarted (.inl hdispatch) (.inl rfl)
  · exact same

theorem of_guardFail : RowStep cfg now op row (ExecutionFence.guardFail row now).1
      (ExecutionFence.guardFail row now).2 :=
  of_failJobRow fun _ => ⟨rfl, ⟨rfl, rfl, rfl, rfl, rfl⟩, rfl, rfl⟩

theorem of_refuseBeforeExecution (reason : FailedReason) (category : FailureCategory) :
    RowStep cfg now op row (ExecutionFence.refuseBeforeExecution row reason category now).1
      (ExecutionFence.refuseBeforeExecution row reason category now).2 :=
  of_failJobRow fun _ => ⟨rfl, ⟨rfl, rfl, rfl, rfl, rfl⟩, rfl, rfl⟩

theorem of_refuseAdmission (reason : FailedReason) :
    RowStep cfg now op row (ExecutionFence.refuseAdmission row reason now).1
      (ExecutionFence.refuseAdmission row reason now).2 :=
  of_failJobRow fun _ => ⟨rfl, ⟨rfl, rfl, rfl, rfl, rfl⟩, rfl, rfl⟩

theorem of_markLaunched (backend : String) :
    RowStep cfg now (.markLaunched backend) row false (markLaunched row backend now) := by
  unfold markLaunched
  split
  · exact .bookkeeping ⟨rfl, rfl, rfl, rfl, rfl⟩ ⟨rfl, rfl, rfl, rfl⟩ rfl
      (.inr (.inr ⟨backend, rfl⟩))
  · exact same

theorem of_markLaunchFailed (error : String) :
    RowStep cfg now op row (decide (row.status ∈ legalSources .failed))
      (markLaunchFailed row error now) := by
  unfold markLaunchFailed
  by_cases h : row.status ∈ legalSources .failed
  · rw [if_pos h, decide_eq_true h]
    exact .moved .failed h ⟨nofun, nofun⟩ rfl ⟨rfl, rfl, rfl, rfl, rfl⟩ rfl (.inr (by decide))
      (.inl rfl)
  · rw [if_neg h, decide_eq_false h]
    refine .bookkeeping ⟨rfl, rfl, rfl, rfl, rfl⟩ ⟨rfl, rfl, rfl, rfl⟩ rfl (.inr (.inl ?_))
    revert h
    cases row.status <;> decide

/-- A job the clause selects is in flight. -/
theorem status_of_stalledJobsClause {job : SimulationJob}
    (h : Cleanup.stalledJobsClause cfg now job) : job.status ∈ legalSources .failed := by
  simp only [Cleanup.stalledJobsClause, Cleanup.leaseLapsed, Cleanup.ranWithoutClaim,
    Cleanup.neverPickedUp, Cleanup.handedBackTooLong, Cleanup.releasedUnconfirmed,
    Cleanup.queuedWithoutClock, Cleanup.waiting, Bool.or_eq_true, Bool.and_eq_true,
    beq_iff_eq] at h
  simp only [legalSources, List.mem_cons]
  grind

theorem of_reap {sel : Cleanup.Selection} (canRerun : Bool) (since : sel.now ≤ now)
    (hsel : Cleanup.stalledJobsClause cfg sel.now sel.job) :
    RowStep cfg now op row ((Cleanup.reap canRerun sel row).1 && !Cleanup.reruns canRerun sel)
      (Cleanup.reap canRerun sel row).2 := by
  unfold Cleanup.reap
  by_cases hr : Cleanup.reruns canRerun sel = true
  · rw [if_pos hr, hr, Bool.not_true, Bool.and_false]
    rw [Cleanup.reruns, Bool.and_eq_true] at hr
    by_cases hc : row.status = sel.job.status ∧ row.leaseExpiresAt = sel.job.leaseExpiresAt
    · exact .rerun sel since hsel hr.2 hc.1 hc.2
    · simpa [Cleanup.rerunWrite, hc] using same
  · rw [if_neg hr, Bool.eq_false_iff.mpr hr, Bool.not_false, Bool.and_true]
    unfold Cleanup.failWrite
    by_cases hs : row.status = sel.job.status
    · rw [if_pos hs]
      have hsrc : row.status ∈ legalSources .failed := hs ▸ status_of_stalledJobsClause hsel
      exact .moved .failed hsrc ⟨nofun, nofun⟩ rfl ⟨rfl, rfl, rfl, rfl, rfl⟩ rfl (.inl rfl)
        (.inl rfl)
    · rw [if_neg hs]
      exact same

theorem of_cancelJob (owner : Bool) (reason : Option String) (message : String)
    (db : JobStore) :
    RowStep cfg now op db.row
      ((JobCancel.cancelJob owner reason message now db).1 == .cancelled)
      (JobCancel.cancelJob owner reason message now db).2.row := by
  unfold JobCancel.cancelJob
  split
  · exact same
  · split
    · exact same
    · split
      · exact same
      · rename_i h
        exact .cancelled reason h

theorem sameLease_endedRow (req : FinalizeRequest) (r : TerminalFinalize.Reviewed) :
    SameLease row (TerminalFinalize.endedRow req r row now) := by
  have h := sameLease_timestampsFor row r.intendedStatus now
  unfold TerminalFinalize.endedRow
  dsimp only
  split <;> exact ⟨h.1, h.2, h.3, h.4, h.5⟩

@[simp]
theorem status_endedRow (req : FinalizeRequest) (r : TerminalFinalize.Reviewed) :
    (TerminalFinalize.endedRow req r row now).status = r.intendedStatus := by
  unfold TerminalFinalize.endedRow
  dsimp only [setFinalResult]
  split <;> simp

theorem startedAt_endedRow (req : FinalizeRequest) (r : TerminalFinalize.Reviewed) :
    (TerminalFinalize.endedRow req r row now).startedAt =
      if r.intendedStatus = .running then some now else row.startedAt := by
  rw [← startedAt_timestampsFor]
  unfold TerminalFinalize.endedRow
  dsimp only [setFinalResult]
  split <;> rfl

theorem dispatch_endedRow (req : FinalizeRequest) (r : TerminalFinalize.Reviewed) :
    (TerminalFinalize.endedRow req r row now).pipelineDispatchState =
      row.pipelineDispatchState := by
  have h := dispatch_timestampsFor row r.intendedStatus now
  rw [← h]
  unfold TerminalFinalize.endedRow
  dsimp only [setFinalResult]
  split <;> rfl

theorem of_finalize (price : Metering.Pricing) (req : FinalizeRequest) (env : FinalizeEnv)
    (db : JobStore) :
    RowStep cfg now (.finalize req env) db.row
      (JobWorld.finalizeEnded (TerminalFinalize.finalizeTerminalAtomic price req env now db).1)
      (TerminalFinalize.finalizeTerminalAtomic price req env now db).2.row := by
  obtain ⟨hdb, htr⟩ | ⟨-, hsrc, heq⟩ := TerminalFinalize.finalize_cases price req env now db
  · have hflag : JobWorld.finalizeEnded
        (TerminalFinalize.finalizeTerminalAtomic price req env now db).1 = false := by
      simp [JobWorld.finalizeEnded, htr]
    rw [hdb, hflag]
    exact same
  · rw [heq]
    have hflag : (some (TerminalFinalize.review db.parks req env).intendedStatus !=
        some JobStatus.pendingReview) =
          decide (TerminalFinalize.review db.parks req env).intendedStatus.Terminal := by
      have h := TerminalFinalize.intended_terminal_or_parked db.parks req env
      generalize (TerminalFinalize.review db.parks req env).intendedStatus = intended at h ⊢
      revert h
      cases intended <;> decide
    simp only [JobWorld.finalizeEnded, TerminalFinalize.won, BEq.rfl, Bool.true_and, hflag]
    have hleaves := TerminalFinalize.intended_terminal_or_parked db.parks req env
    refine .moved _ hsrc ?_ (status_endedRow req _) (sameLease_endedRow req _)
      (startedAt_endedRow req _) (.inl (dispatch_endedRow req _)) (.inr trivial)
    revert hleaves
    cases (TerminalFinalize.review db.parks req env).intendedStatus <;> decide

theorem of_runReview (i : Nat) {job : SimulationJob} {payload : DispatchPayload}
    {db db' : JobStore} (h : RepairReview.runReview job payload now db = some db') :
    RowStep cfg now (.runReview i payload) db.row false db'.row := by
  simp only [RepairReview.runReview, transition_default] at h
  split at h
  · cases h
  · split at h
    · rename_i hcas
      obtain ⟨hsrc, rfl⟩ := compareAndSet_applied.mp (Except.ok.inj hcas)
      cases h
      simpa [resetForReviewRerun] using .reviewRerun job.startedAt job.endedAt payload hsrc
        ⟨i, rfl⟩
    · cases h

theorem of_compensate (park : Nat) (db : JobStore) :
    RowStep cfg now (.compensate park) db.row false (RepairReview.compensate park now db).row := by
  unfold RepairReview.compensate
  split
  · rename_i h
    simp only [transition, Option.getD_some, List.cons_ne_nil, if_false, Except.ok.injEq] at h
    obtain ⟨hsrc, rfl⟩ := compareAndSet_applied.mp h
    have hpending : db.row.status = .pending := by simpa using hsrc
    have hmem : db.row.status ∈ legalSources .pendingReview := by
      rw [hpending]
      decide
    exact of_timestampsFor hmem (by decide) trivial
  · exact same

end RowStep

/-! ## The steps of the world -/

namespace JobWorld

variable {cfg : Config} {w w' : JobWorld} {op : JobOp}

/-- A claim is granted, or leaves the world as it was. -/
theorem claim_cases (cfg : Config) (token : Token) (backend : String) (execution : Option String)
    (fenceAvailable : Bool) (hfresh : w.freshToken token) :
    (∃ own, Granted cfg.settings w (w.claim cfg token backend execution fenceAvailable) own) ∨
      w.claim cfg token backend execution fenceAvailable = w := by
  unfold claim
  split
  · rename_i own row _ h
    obtain ⟨hstatus, hfree, hgen, rfl, rfl, rfl, -⟩ := granted_of_claimExecution h
    exact .inl ⟨own, hfresh, hstatus, hfree, hgen, ⟨execution, rfl⟩, rfl, by simp [putRow, put]⟩
  · exact .inr rfl

/-- The endings after a step that `author` ended, if anyone did. -/
def endingsAfter (w w' : JobWorld) (author : Option Author) : Prop :=
  w'.endings = w.endings ++ author.toList.map (⟨·, w'.row⟩)

@[simp]
theorem endedBy_isSome (author : Author) (applied : Bool) :
    (endedBy author applied).isSome = applied := by
  cases applied <;> rfl

/-- Every step grants a claim, or changes the row as `RowStep` lists and grants nothing. -/
theorem step_cases (hsel : w.SelectionsSound cfg.settings) (h : step cfg w op = some w') :
    (∃ own, Granted cfg.settings w w' own) ∨
      (w'.granted = w.granted ∧ ∃ author, endingsAfter w w' author ∧
        RowStep cfg.settings w.clock op w.row author.isSome w'.row) := by
  cases op with
  | claimExecution token backend execution fenceAvailable =>
    simp only [step] at h
    split at h
    · rename_i hfresh
      cases h
      obtain hg | he := claim_cases cfg token backend execution fenceAvailable hfresh
      · exact .inl hg
      · rw [he]
        exact .inr ⟨rfl, none, by simp [endingsAfter], .same⟩
    · cases h
  | tick | guardRead | reviewRead =>
    cases h
    exact .inr ⟨rfl, none, by simp [endingsAfter, row], .same⟩
  | heartbeat own target => cases h; exact .inr ⟨rfl, none, rfl, .of_heartbeat own target⟩
  | evictOwner => cases h; exact .inr ⟨rfl, none, rfl, .of_evictOwner⟩
  | release own => cases h; exact .inr ⟨rfl, none, rfl, .of_release own⟩
  | handBack own => cases h; exact .inr ⟨rfl, none, rfl, .of_handBack own⟩
  | confirmRequeued releasedAt =>
    cases h
    exact .inr ⟨rfl, none, rfl, .of_confirmRequeued releasedAt⟩
  | transition target =>
    simp only [step, transition_default] at h
    split at h
    · rename_i hcas
      obtain ⟨hsrc, rfl⟩ := compareAndSet_applied.mp (Except.ok.inj hcas)
      cases h
      refine .inr ⟨rfl, endedBy .transition target.Terminal, rfl, ?_⟩
      rw [endedBy_isSome]
      exact .of_transition hsrc
    · cases h
      exact .inr ⟨rfl, none, by simp [endingsAfter], .same⟩
  | reapSelect sweepNow =>
    simp only [step] at h
    split at h
    · cases h
      exact .inr ⟨rfl, none, by simp [endingsAfter], .same⟩
    · cases h
  | reapWrite i canRerun =>
    obtain ⟨sel, hi, rfl⟩ := Option.map_eq_some_iff.mp h
    obtain ⟨hnow, hclause⟩ := hsel sel (List.mem_of_getElem? hi)
    refine .inr ⟨rfl, endedBy .reaper _, rfl, ?_⟩
    rw [endedBy_isSome]
    exact .of_reap canRerun hnow hclause
  | guardWrite i checkedAt =>
    obtain ⟨read, -, h⟩ := Option.bind_eq_some_iff.mp h
    split at h
    · cases h
      refine .inr ⟨rfl, endedBy .redeliveryGuard _, rfl, ?_⟩
      rw [endedBy_isSome]
      by_cases hd : ExecutionFence.guardDrops read checkedAt
      · simpa [putRow, put, row, hd] using .same
      · simpa [putRow, put, row, hd] using .of_guardFail
    · cases h
  | refuseBeforeExecution reason category =>
    cases h
    refine .inr ⟨rfl, endedBy .refusal _, rfl, ?_⟩
    rw [endedBy_isSome]
    exact .of_refuseBeforeExecution reason category
  | refuseAdmission reason =>
    cases h
    refine .inr ⟨rfl, endedBy .refusal _, rfl, ?_⟩
    rw [endedBy_isSome]
    exact .of_refuseAdmission reason
  | cancelJob owner reason message =>
    cases h
    refine .inr ⟨rfl, endedBy .cancel _, rfl, ?_⟩
    rw [endedBy_isSome]
    exact .of_cancelJob owner reason message w.db
  | finalize req env =>
    cases h
    refine .inr ⟨rfl, endedBy .finalize _, rfl, ?_⟩
    rw [endedBy_isSome]
    exact .of_finalize cfg.pricing req env w.db
  | runReview i payload =>
    obtain ⟨job, -, h⟩ := Option.bind_eq_some_iff.mp h
    obtain ⟨db, hdb, rfl⟩ := Option.map_eq_some_iff.mp h
    exact .inr ⟨rfl, none, rfl, .of_runReview i hdb⟩
  | compensate park => cases h; exact .inr ⟨rfl, none, rfl, .of_compensate park w.db⟩
  | markLaunched backend => cases h; exact .inr ⟨rfl, none, rfl, .of_markLaunched backend⟩
  | markLaunchFailed error =>
    cases h
    refine .inr ⟨rfl, endedBy .launcher _, rfl, ?_⟩
    rw [endedBy_isSome]
    exact .of_markLaunchFailed error
  | setDispatchPayload | updateCurrentAttempt =>
    cases h
    exact .inr ⟨rfl, none, rfl,
      .bookkeeping ⟨rfl, rfl, rfl, rfl, rfl⟩ ⟨rfl, rfl, rfl, rfl⟩ rfl (.inl rfl)⟩

/-! ## The clock and the reaper's reads -/

/-- The clock never goes back. -/
theorem step_clock (h : step cfg w op = some w') : w.clock ≤ w'.clock := by
  cases op with
  | tick d =>
    cases h
    exact Int.le_add_of_nonneg_right (Int.natCast_nonneg d)
  | claimExecution token backend execution fenceAvailable =>
    simp only [step] at h
    split at h
    · cases h
      unfold claim
      split <;> exact Int.le_refl _
    · cases h
  | transition target =>
    simp only [step] at h
    split at h <;> cases h <;> exact Int.le_refl _
  | reapSelect sweepNow =>
    simp only [step] at h
    split at h <;> cases h
    exact Int.le_refl _
  | reapWrite i canRerun =>
    obtain ⟨sel, -, rfl⟩ := Option.map_eq_some_iff.mp h
    exact Int.le_refl _
  | guardWrite i checkedAt =>
    obtain ⟨read, -, h⟩ := Option.bind_eq_some_iff.mp h
    split at h <;> cases h
    exact Int.le_refl _
  | runReview i payload =>
    obtain ⟨job, -, h⟩ := Option.bind_eq_some_iff.mp h
    obtain ⟨db, -, rfl⟩ := Option.map_eq_some_iff.mp h
    exact Int.le_refl _
  | _ => cases h; exact Int.le_refl _

/-- A selection in flight was in flight before, or was made by this step. -/
theorem step_selected (h : step cfg w op = some w') :
    ∀ sel ∈ w'.selected, sel ∈ w.selected ∨
      (sel.job = w.row ∧ sel.now ≤ w.clock ∧
        Cleanup.stalledJobsClause cfg.settings sel.now w.row) := by
  intro sel hmem
  cases op with
  | claimExecution token backend execution fenceAvailable =>
    simp only [step] at h
    split at h
    · cases h
      unfold claim at hmem
      split at hmem <;> exact .inl hmem
    · cases h
  | transition target =>
    simp only [step] at h
    split at h <;> cases h <;> exact .inl hmem
  | reapSelect sweepNow =>
    simp only [step] at h
    split at h
    · rename_i hc
      cases h
      obtain hold | hnew := List.mem_append.mp hmem
      · exact .inl hold
      · obtain rfl := List.mem_singleton.mp hnew
        exact .inr ⟨rfl, hc.1, hc.2⟩
    · cases h
  | reapWrite i canRerun =>
    obtain ⟨sel', -, rfl⟩ := Option.map_eq_some_iff.mp h
    exact .inl (List.mem_of_mem_eraseIdx hmem)
  | guardWrite i checkedAt =>
    obtain ⟨read, -, h⟩ := Option.bind_eq_some_iff.mp h
    split at h <;> cases h
    exact .inl hmem
  | runReview i payload =>
    obtain ⟨job, -, h⟩ := Option.bind_eq_some_iff.mp h
    obtain ⟨db, -, rfl⟩ := Option.map_eq_some_iff.mp h
    exact .inl hmem
  | _ => cases h; exact .inl hmem

theorem selectionsSound_step (hs : w.SelectionsSound cfg.settings)
    (h : step cfg w op = some w') : w'.SelectionsSound cfg.settings := by
  intro sel hmem
  have hclock := step_clock h
  obtain hold | ⟨hjob, hnow, hclause⟩ := step_selected h sel hmem
  · exact ⟨Int.le_trans (hs sel hold).1 hclock, (hs sel hold).2⟩
  · exact ⟨Int.le_trans hnow hclock, hjob ▸ hclause⟩

theorem selectionsSound_created (id : JobId) (ownerId : String) (organizationId : Option Nat)
    (now : Int) : (created id ownerId organizationId now).SelectionsSound cfg.settings :=
  fun _ hmem => nomatch hmem

end JobWorld

end MeshPipeline
