import MeshPipeline.Job.Reaper

/-!
# Who ends a held job

A job whose lease is live belongs to the worker that holds it. The reaper and the redelivery guard
write on an earlier reading of the row: the reaper's re-run compares the lease it read, its failure
and the guard's compare the status alone.
-/

namespace MeshPipeline

open LeaseRepository JobRepository Cleanup

/-- The steps of the reaper, the redelivery guard, the workers, the launcher that accepts the job
and the owner who cancels it. -/
def JobOp.Competes : JobOp → Prop
  | .transition _ | .refuseBeforeExecution _ _ | .refuseAdmission _ | .runReview _ _
  | .compensate _ | .markLaunchFailed _ => False
  | .finalize req _ => req.ownership.isSome
  | _ => True

/-- The row has no holder, or the holder and the lease that an earlier reading of it had. -/
def LeaseAsRead (read : Option SimulationJob) (row : SimulationJob) : Prop :=
  row.activeWorkerToken = none ∨ ∃ job ∈ read,
    row.activeWorkerToken = job.activeWorkerToken ∧ row.leaseExpiresAt = job.leaseExpiresAt

/-- A waiting job is nobody's. -/
def Unheld (row : SimulationJob) : Prop := waiting row → row.activeWorkerToken = none

theorem Unheld.of_status {row : SimulationJob} (h : ¬ waiting row) : Unheld row :=
  fun hw => absurd hw h

theorem RowStep.unheld {cfg : Settings} {now : Int} {op : JobOp} {row row' : SimulationJob}
    {ended : Bool} (h : RowStep cfg now op row ended row') (hop : op.Competes)
    (hrow : Unheld row) : Unheld row' := by
  cases h with
  | bookkeeping lease record =>
    intro hw
    rw [lease.activeWorkerToken]
    apply hrow
    simpa [waiting, record.status] using hw
  | extended target | beaten target =>
    obtain ⟨deadline, updatedAt, hextended, -⟩ := extendDeadline_eq row target now
    rw [hextended]
    exact hrow
  | withdrawn | handedBack => exact fun _ => rfl
  | confirmed => exact hrow
  | rerun sel _ _ _ status lease =>
    rw [rerunWrite, if_pos ⟨status, lease⟩]
    exact fun _ => rfl
  | requeued bare =>
    subst bare
    exact hop.elim
  | moved target _ leaves status =>
    apply Unheld.of_status
    simp [waiting, status, leaves]
  | cancelled =>
    apply Unheld.of_status
    simp [waiting, JobCancel.cancelledRow]
  | reviewRerun started ended =>
    obtain ⟨startedAt, hreset⟩ :=
      reviewRerunReset_eq (timestampsFor row .pending now) started ended now
    rw [hreset]
    exact fun _ => rfl

/-! ## Operations that leave the status alone -/

section Status

variable (row : SimulationJob) (own : ExecutionOwnership) (now : Int)

theorem heartbeat_status (target : Option Int) (leaseFor : Int) :
    ((heartbeat (some row) own target now leaseFor).2.getD row).status = row.status := by
  obtain ⟨deadline, updatedAt, hextended, -⟩ := extendDeadline_eq row target now
  unfold heartbeat beaten
  grind

theorem evictOwner_status : ((evictOwner (some row) now).2.getD row).status = row.status := by
  rw [evictOwner_row]
  split <;> rfl

theorem release_status : ((release (some row) own now).getD row).status = row.status := by
  unfold release withdrawn
  grind

theorem confirmRequeued_status (releasedAt : Int) :
    ((confirmRequeued (some row) releasedAt now).2.getD row).status = row.status := by
  unfold confirmRequeued
  grind

theorem markLaunched_status (backend : String) :
    (markLaunched row backend now).status = row.status := by
  unfold markLaunched
  split <;> rfl

end Status

namespace JobWorld

variable {cfg : Config} {w w' : JobWorld} {op : JobOp}

/-- The steps by which a holder gives its job up or ends it. -/
inductive ByHolder (w : JobWorld) : JobOp → Prop
  | handBack (own : ExecutionOwnership) (holds : names w.row own) : ByHolder w (.handBack own)
  | finalize (req : FinalizeRequest) (env : FinalizeEnv) (own : ExecutionOwnership)
      (ownership : req.ownership = some own) (holds : names w.row own) :
      ByHolder w (.finalize req env)

/-- The property: a step that moves a held job to `failed` or back to `pending` is its holder's. -/
def LeftToHolder (cfg : Config) (w : JobWorld) (op : JobOp) : Prop :=
  ∀ w', step cfg w op = some w' → leaseActive w.row w.clock → w'.row.status ≠ w.row.status →
    w'.row.status = .failed ∨ w'.row.status = .pending → ByHolder w op

/-- The condition: a failure that lands on the status alone finds the lease as it was read. -/
def FailsAsRead (w : JobWorld) : JobOp → Prop
  | .reapWrite i canRerun => ∀ sel ∈ w.selected[i]?, Cleanup.reruns canRerun sel = false →
      w.row.status = sel.job.status → LeaseAsRead (some sel.job) w.row
  | .guardWrite i checkedAt => ∀ read ∈ w.guardReads[i]?,
      ExecutionFence.guardDrops read checkedAt = false →
      w.row.status ∈ legalSources .failed → LeaseAsRead read.current w.row
  | _ => True

theorem not_live_of_lease {row : SimulationJob} {now : Int}
    (h : ∀ expires, row.leaseExpiresAt = some expires → expires ≤ now) :
    leaseActive row now = false := by
  cases hl : row.leaseExpiresAt with
  | none => simp [leaseActive, hl]
  | some expires => simp [leaseActive, hl, h expires hl]

/-- A selected row whose lease is still the one that was read is not held any more. -/
theorem not_live_of_selected {sel : Selection} {now : Int} (hsince : sel.now ≤ now)
    (hclause : stalledJobsClause cfg.settings sel.now sel.job) (hrow : Unheld w.row)
    (hstatus : w.row.status = sel.job.status) (hread : LeaseAsRead (some sel.job) w.row) :
    leaseActive w.row now = false := by
  obtain hfree | ⟨job, hjob, -, hlease⟩ := hread
  · simp [leaseActive, hfree]
  · obtain rfl : sel.job = job := Option.some.inj hjob
    by_cases hw : waiting w.row
    · simp [leaseActive, hrow hw]
    · have hselected : ¬ waiting sel.job := by simpa [waiting, hstatus] using hw
      have hpos := cfg.settings.lease_pos
      apply not_live_of_lease
      intro expires hexpires
      have hlapsed : expires < leaseCutoff cfg.settings sel.now := by
        rw [hlease] at hexpires
        simp only [stalledJobsClause, leaseLapsed, ranWithoutClaim, neverPickedUp,
          handedBackTooLong, releasedUnconfirmed, queuedWithoutClock, hexpires] at hclause
        grind
      unfold leaseCutoff at hlapsed
      omega

theorem not_live_of_rerun {sel : Selection} {now : Int} (hsince : sel.now ≤ now)
    (hclause : stalledJobsClause cfg.settings sel.now sel.job)
    (heligible : rerunEligible sel.job sel.now)
    (hlease : w.row.leaseExpiresAt = sel.job.leaseExpiresAt) :
    leaseActive w.row now = false := by
  obtain ⟨read, hread, hpast⟩ := lease_of_rerunEligible hclause heligible
  apply not_live_of_lease
  intro expires hexpires
  have : read = expires := Option.some.inj (hread.symm.trans (hlease.symm.trans hexpires))
  omega

/-- A row the guard did not drop, and whose lease is still the one it read, is not held. -/
theorem not_live_of_guardRead {read : ExecutionFence.GuardRead} {checkedAt now : Int}
    (hsince : checkedAt ≤ now) (hdrops : ExecutionFence.guardDrops read checkedAt = false)
    (hread : LeaseAsRead read.current w.row) : leaseActive w.row now = false := by
  obtain hfree | ⟨job, hjob, htoken, hlease⟩ := hread
  · simp [leaseActive, hfree]
  · have hidle : leaseActive job checkedAt = false := by
      rw [ExecutionFence.guardDrops, Option.mem_def.mp hjob] at hdrops
      simp only [Option.any_some, Bool.or_eq_false_iff] at hdrops
      exact hdrops.2
    simp only [leaseActive, ← htoken, ← hlease, Bool.and_eq_false_iff] at hidle
    rcases hidle with hfree | hlapsed
    · simp [leaseActive, hfree]
    · apply not_live_of_lease
      intro expires hexpires
      have : expires ≤ checkedAt := by simpa [hexpires] using hlapsed
      omega

/-- Only a holder, a re-run or a failure moves a job to `failed` or back to `pending`. -/
theorem moved_cases (hop : op.Competes) (h : step cfg w op = some w')
    (hmoved : w'.row.status ≠ w.row.status)
    (hto : w'.row.status = .failed ∨ w'.row.status = .pending) :
    ByHolder w op ∨
      (∃ i canRerun, ∃ sel ∈ w.selected[i]?, op = .reapWrite i canRerun ∧
        w.row.status = sel.job.status ∧ (Cleanup.reruns canRerun sel = true →
          w.row.leaseExpiresAt = sel.job.leaseExpiresAt)) ∨
      ∃ i checkedAt, ∃ read ∈ w.guardReads[i]?, op = .guardWrite i checkedAt ∧
        checkedAt ≤ w.clock ∧ ExecutionFence.guardDrops read checkedAt = false ∧
        w.row.status ∈ legalSources .failed := by
  cases op with
  | transition | refuseBeforeExecution | refuseAdmission | runReview | compensate
  | markLaunchFailed => exact hop.elim
  | tick | guardRead | reviewRead | setDispatchPayload | updateCurrentAttempt =>
    cases h
    exact absurd rfl hmoved
  | reapSelect sweepNow =>
    simp only [step] at h
    split at h <;> cases h
    exact absurd rfl hmoved
  | heartbeat own target => cases h; exact absurd (heartbeat_status ..) hmoved
  | evictOwner => cases h; exact absurd (evictOwner_status ..) hmoved
  | release own => cases h; exact absurd (release_status ..) hmoved
  | confirmRequeued since => cases h; exact absurd (confirmRequeued_status ..) hmoved
  | markLaunched backend => cases h; exact absurd (markLaunched_status ..) hmoved
  | claimExecution token backend execution fenceAvailable =>
    simp only [step] at h
    split at h
    · rename_i hfresh
      cases h
      obtain ⟨own, hg⟩ | hsame := claim_cases cfg token backend execution fenceAvailable hfresh
      · obtain ⟨_, hrow⟩ := hg.row
        rw [hrow] at hto
        exact absurd hto (by simp [claimed])
      · exact absurd (congrArg (·.row.status) hsame) hmoved
    · cases h
  | handBack own =>
    cases h
    left
    apply ByHolder.handBack
    by_contra hn
    refine hmoved ?_
    simp [handBack, hn]
  | cancelJob owner reason message =>
    cases h
    exfalso
    obtain ⟨hdb, -⟩ | ⟨-, -, hrow, -⟩ :=
      JobCancel.cancelJob_cases owner reason message w.clock w.db
    · exact hmoved (congrArg (·.row.status) hdb)
    · have hcancelled : (JobCancel.cancelledRow w.db.row reason w.clock).status = .cancelled := by
        simp [JobCancel.cancelledRow]
      simp [put, row, hrow, hcancelled] at hto
  | finalize req env =>
    cases h
    left
    obtain ⟨own, hown⟩ := Option.isSome_iff_exists.mp hop
    refine .finalize req env own hown ?_
    obtain ⟨hdb, -⟩ | ⟨hfence, -⟩ :=
      TerminalFinalize.finalize_cases cfg.pricing req env w.clock w.db
    · exact absurd (congrArg (·.row.status) hdb) hmoved
    · by_contra hn
      exact hfence ⟨own, hown, Bool.eq_false_iff.mpr hn⟩
  | reapWrite i canRerun =>
    obtain ⟨sel, hi, rfl⟩ := Option.map_eq_some_iff.mp h
    refine .inr (.inl ⟨i, canRerun, sel, hi, rfl, ?_, ?_⟩)
    · by_contra hstatus
      refine hmoved ?_
      simp only [reapWrite_row, reap, rerunWrite, failWrite, hstatus, false_and, if_false, ite_self]
    · intro hr
      by_contra hlease
      refine hmoved ?_
      simp only [reapWrite_row, reap, hr, rerunWrite, hlease, and_false, if_false, if_true]
  | guardWrite i checkedAt =>
    obtain ⟨read, hi, h⟩ := Option.bind_eq_some_iff.mp h
    split at h
    · rename_i hchecked
      cases h
      refine .inr (.inr ⟨i, checkedAt, read, hi, rfl, hchecked.2, ?_, ?_⟩)
      · by_contra hdrops
        rw [Bool.not_eq_false] at hdrops
        refine hmoved ?_
        change SimulationJob.status (ite _ (false, w.row) _ : Bool × SimulationJob).2 = _
        rw [if_pos hdrops]
      · by_contra hsource
        refine hmoved ?_
        change SimulationJob.status (ite _ _ (ExecutionFence.guardFail w.row w.clock)).2 = _
        rw [ExecutionFence.guardFail, ExecutionFence.failJobRow_of_not_source hsource]
        split <;> rfl
    · cases h

theorem leftToHolder (hsel : w.SelectionsSound cfg.settings) (hrow : Unheld w.row)
    (hop : op.Competes) (hread : w.FailsAsRead op) : LeftToHolder cfg w op := by
  intro w' h hlive hmoved hto
  obtain hholder | ⟨i, canRerun, sel, hi, rfl, hstatus, hcas⟩ |
    ⟨i, checkedAt, read, hi, rfl, hchecked, hdrops, hsource⟩ := moved_cases hop h hmoved hto
  · exact hholder
  · obtain ⟨hsince, hclause⟩ := hsel sel (List.mem_of_getElem? hi)
    have hdead : leaseActive w.row w.clock = false := by
      cases hr : Cleanup.reruns canRerun sel with
      | false => exact not_live_of_selected hsince hclause hrow hstatus (hread sel hi hr hstatus)
      | true => exact not_live_of_rerun hsince hclause (Bool.and_eq_true_iff.mp hr).2 (hcas hr)
    exact absurd hlive (by simp [hdead])
  · have hdead : leaseActive w.row w.clock = false :=
      not_live_of_guardRead hchecked hdrops (hread read hi hdrops hsource)
    exact absurd hlive (by simp [hdead])

theorem unheld_step (hsel : w.SelectionsSound cfg.settings) (hrow : Unheld w.row)
    (hop : op.Competes) (h : step cfg w op = some w') : Unheld w'.row := by
  obtain ⟨own, hg⟩ | ⟨-, _, -, hstep⟩ := step_cases hsel h
  · obtain ⟨_, hclaimed⟩ := hg.row
    rw [hclaimed]
    exact fun hw => absurd hw (by simp [waiting, claimed])
  · exact hstep.unheld hop hrow

/-- In a run whose failures all find the lease as it was read, a held job is moved to `failed`
or back to `pending` by its holder alone. -/
theorem held_job_left_to_holder (cfg : Config) (id : JobId) (ownerId : String)
    (organizationId : Option Nat) (now : Int) (ops : List JobOp)
    (h : (machine cfg).Meets (fun w op => op.Competes ∧ w.FailsAsRead op)
      (created id ownerId organizationId now) ops) :
    (machine cfg).Meets (LeftToHolder cfg) (created id ownerId organizationId now) ops := by
  refine Transition.Machine.meets_of_invariant
    (I := fun w => w.SelectionsSound cfg.settings ∧ Unheld w.row) ?_ ?_
    ⟨selectionsSound_created id ownerId organizationId now, fun _ => rfl⟩ h
  · rintro w op w' ⟨hsel, hrow⟩ ⟨hop, -⟩ hstep
    exact ⟨selectionsSound_step hsel hstep, unheld_step hsel hrow hop hstep⟩
  · rintro w op ⟨hsel, hrow⟩ ⟨hop, hread⟩
    exact leftToHolder hsel hrow hop hread

/-- A worker is lost: a sweep and a redelivery both read its lapsed lease, and both write. -/
def orphaned : List JobOp :=
  [.claimExecution 1 "celery" (some "vm-1") true, .tick 1900000000, .reapSelect 1900000000,
    .guardRead true, .guardWrite 0 1900000000, .reapWrite 0 false]

theorem held_job_left_to_holder_orphaned :
    (machine .default).Meets (LeftToHolder .default) (created 7 "ada" none 0) orphaned := by
  apply held_job_left_to_holder
  rw [orphaned, Transition.Machine.meets_cons rfl, Transition.Machine.meets_cons rfl,
    Transition.Machine.meets_cons rfl, Transition.Machine.meets_cons rfl,
    Transition.Machine.meets_cons rfl, Transition.Machine.meets_cons rfl]
  refine ⟨⟨trivial, trivial⟩, ⟨trivial, trivial⟩, ⟨trivial, trivial⟩, ⟨trivial, trivial⟩,
    ⟨trivial, ?_⟩, ⟨trivial, ?_⟩, trivial⟩
  · rintro read ⟨⟩ - -
    exact .inr ⟨_, rfl, rfl, rfl⟩
  · rintro sel ⟨⟩ - hstatus
    exact absurd hstatus (by decide)

/-- A worker beats late, after a sweep selected its job and before the sweep writes. -/
def lateBeat : List JobOp :=
  let own : ExecutionOwnership := ⟨1, 1, "celery", some 21600000000, 1, 900⟩
  [.claimExecution 1 "celery" (some "vm-1") true, .tick 1900000000, .reapSelect 1900000000,
    .heartbeat own none]

/-- The sweep fails the job whose lease was renewed. -/
theorem held_job_failed_by_reaper :
    ¬ ∀ ops : List JobOp, (∀ op ∈ ops, op.Competes) →
      (machine .default).Meets (LeftToHolder .default) (created 7 "ada" none 0) ops := by
  intro hall
  have hmeets := hall (lateBeat ++ [.reapWrite 0 false]) (by simp [lateBeat, JobOp.Competes])
  obtain ⟨-, hlast, -⟩ := (Transition.Machine.meets_append rfl).mp hmeets
  have hholder := hlast _ rfl (by decide) (by decide) (.inl rfl)
  cases hholder

end JobWorld

end MeshPipeline
