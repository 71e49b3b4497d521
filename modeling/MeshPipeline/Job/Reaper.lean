import MeshPipeline.Job.Endings

/-!
# What the reaper guarantees

Nothing in flight is left behind: a row that nobody writes again is selected from some time on.
And a lost worker costs a job one automatic re-run, because the re-run moves the lease column
past every reading of it that another sweep still acts on.
-/

namespace MeshPipeline

open LeaseRepository JobRepository Cleanup

/-! ## No stranded job -/

/-- What the selection clause relies on: a held row has a deadline, a running row a start. -/
structure Clocked (row : SimulationJob) : Prop where
  deadline : row.activeWorkerToken.isSome → row.pipelineDeadlineAt.isSome
  started : row.status = .running → row.startedAt.isSome

theorem clocked_create (id : JobId) (ownerId : String) (organizationId : Option Nat) (now : Int) :
    Clocked (create id ownerId organizationId now) :=
  ⟨nofun, nofun⟩

theorem clocked_of_free {row : SimulationJob} (status : JobStatus)
    (hfree : row.activeWorkerToken = none) (hstatus : row.status = status)
    (hother : status ≠ .running) : Clocked row :=
  ⟨by simp [hfree], fun hrunning => absurd (hstatus.symm.trans hrunning) hother⟩

theorem RowStep.clocked {cfg : Settings} {now : Int} {op : JobOp} {row row' : SimulationJob}
    {ended : Bool} (h : RowStep cfg now op row ended row') (hrow : Clocked row) :
    Clocked row' := by
  cases h with
  | bookkeeping lease record started =>
    refine ⟨?_, ?_⟩
    · rw [lease.activeWorkerToken, lease.pipelineDeadlineAt]
      exact hrow.deadline
    · rw [record.status, started]
      exact hrow.started
  | extended target | beaten target =>
    obtain ⟨deadline, updatedAt, hextended, hsome⟩ := extendDeadline_eq row target now
    rw [hextended]
    exact ⟨fun hheld => hsome (hrow.deadline hheld), hrow.started⟩
  | withdrawn => exact ⟨fun held => (by cases held), hrow.started⟩
  | handedBack => exact clocked_of_free .pending rfl rfl (by decide)
  | confirmed pending free => exact ⟨hrow.deadline, hrow.started⟩
  | rerun sel _ _ _ status lease =>
    rw [rerunWrite, if_pos ⟨status, lease⟩]
    exact clocked_of_free .pending rfl rfl (by decide)
  | requeued _ _ waits =>
    obtain rfl | rfl := waits <;> exact ⟨hrow.deadline, fun running => (by cases running)⟩
  | moved target source leaves status lease started =>
    refine ⟨?_, fun hrun => ?_⟩
    · rw [lease.activeWorkerToken, lease.pipelineDeadlineAt]
      exact hrow.deadline
    · rw [started, if_pos (status.symm.trans hrun)]
      rfl
  | cancelled =>
    simp only [JobCancel.cancelledRow, evictOwner_row, timestampsFor]
    split
    · exact ⟨hrow.deadline, fun running => (by cases running)⟩
    · exact clocked_of_free .cancelled rfl rfl (by decide)
  | reviewRerun started ended =>
    obtain ⟨startedAt, hreset⟩ :=
      reviewRerunReset_eq (timestampsFor row .pending now) started ended now
    rw [hreset]
    exact clocked_of_free .pending rfl rfl (by decide)

/-- From some time on the clause selects the row. -/
def EventuallyStalled (cfg : Settings) (row : SimulationJob) : Prop :=
  ∃ T, ∀ now, T ≤ now → stalledJobsClause cfg now row

variable {cfg : Settings} {row : SimulationJob}

/-- One disjunct that reads a column older than its cutoff is enough. -/
theorem eventuallyStalled_of (at' grace : Int)
    (h : ∀ now, at' < now - grace → stalledJobsClause cfg now row) : EventuallyStalled cfg row :=
  ⟨at' + grace + 1, fun now hnow => h now (by omega)⟩

theorem eventuallyStalled_running (hrow : Clocked row) (hs : row.status = .running) :
    EventuallyStalled cfg row := by
  cases hl : row.leaseExpiresAt with
  | some expires =>
    refine eventuallyStalled_of expires cfg.lease fun now hnow => ?_
    simp [stalledJobsClause, leaseLapsed, leaseCutoff, hs, hl, hnow]
  | none =>
    obtain ⟨started, hstarted⟩ := Option.isSome_iff_exists.mp (hrow.started hs)
    refine eventuallyStalled_of started cfg.stalledTimeout fun now hnow => ?_
    simp [stalledJobsClause, ranWithoutClaim, startedCutoff, hs, hl, hstarted, hnow]

theorem eventuallyStalled_waiting (hrow : Clocked row) (hs : waiting row) :
    EventuallyStalled cfg row := by
  cases hstarted : row.startedAt with
  | none =>
    refine eventuallyStalled_of row.createdAt cfg.stalledTimeout fun now hnow => ?_
    simp [stalledJobsClause, neverPickedUp, startedCutoff, hs, hstarted, hnow]
  | some started =>
    cases hd : row.pipelineDeadlineAt with
    | some deadline =>
      refine eventuallyStalled_of deadline cfg.lease fun now hnow => ?_
      simp [stalledJobsClause, handedBackTooLong, leaseCutoff, hs, hstarted, hd, hnow]
    | none =>
      have htoken : row.activeWorkerToken = none := by
        rw [← Option.not_isSome_iff_eq_none]
        intro hheld
        simpa [hd] using hrow.deadline hheld
      cases hl : row.leaseExpiresAt with
      | some expires =>
        refine eventuallyStalled_of expires cfg.lease fun now hnow => ?_
        simp [stalledJobsClause, releasedUnconfirmed, leaseCutoff, hs, hstarted, htoken, hl, hnow]
      | none =>
        refine eventuallyStalled_of row.updatedAt cfg.stalledTimeout fun now hnow => ?_
        simp [stalledJobsClause, queuedWithoutClock, startedCutoff, hs, hstarted, htoken, hl, hd,
          hnow]

/-- No combination of empty columns escapes every disjunct. -/
theorem eventuallyStalled (hrow : Clocked row) (hlive : ¬ row.status.Terminal)
    (hpark : row.status ≠ .pendingReview) : EventuallyStalled cfg row := by
  have hs : row.status = .running ∨ waiting row := by
    revert hlive hpark
    cases hs : row.status <;> simp [waiting, hs] <;> decide
  obtain hs | hs := hs
  · exact eventuallyStalled_running hrow hs
  · exact eventuallyStalled_waiting hrow hs

/-! ## One automatic re-run -/

/-- The lease column is kept, emptied, or moved to a time that is not yet past. -/
def LeaseMoved (now : Int) (row row' : SimulationJob) : Prop :=
  row'.leaseExpiresAt = row.leaseExpiresAt ∨
    ∀ expires, row'.leaseExpiresAt = some expires → now ≤ expires

/-- Only the reaper's own release writes a time of its own: that of its sweep. -/
theorem RowStep.lease {now : Int} {op : JobOp} {row' : SimulationJob} {ended : Bool}
    (h : RowStep cfg now op row ended row') :
    LeaseMoved now row row' ∨ ∃ sel : Selection, sel.now ≤ now ∧
      stalledJobsClause cfg sel.now sel.job ∧ rerunEligible sel.job sel.now ∧
      row.leaseExpiresAt = sel.job.leaseExpiresAt ∧ row'.leaseExpiresAt = some sel.now := by
  have hpos := cfg.lease_pos
  cases h with
  | bookkeeping lease | moved _ _ _ _ lease => exact .inl (.inl lease.leaseExpiresAt)
  | extended target =>
    obtain ⟨deadline, updatedAt, hextended, -⟩ := extendDeadline_eq row target now
    exact .inl (.inl (by rw [hextended]))
  | beaten target =>
    refine .inl (.inr ?_)
    intro expires hexpires
    have : now + cfg.lease = expires := Option.some.inj hexpires
    omega
  | withdrawn | handedBack => exact .inl (.inr (by rintro _ ⟨⟩; exact Int.le_refl now))
  | confirmed => exact .inl (.inr nofun)
  | rerun sel since stalled eligible status lease =>
    refine .inr ⟨sel, since, stalled, eligible, lease, ?_⟩
    rw [rerunWrite, if_pos ⟨status, lease⟩]
  | requeued => exact .inl (.inl rfl)
  | cancelled =>
    left
    simp only [JobCancel.cancelledRow, evictOwner_row, timestampsFor]
    split
    · exact .inl rfl
    · exact .inr (by rintro _ ⟨⟩; exact Int.le_refl now)
  | reviewRerun started ended =>
    obtain ⟨startedAt, hreset⟩ :=
      reviewRerunReset_eq (timestampsFor row .pending now) started ended now
    rw [hreset]
    exact .inl (.inr (by rintro _ ⟨⟩; exact Int.le_refl now))

/-- The dispatch column of a job in flight is left alone, marked, or left as its ending sets it. -/
theorem RowStep.dispatch {now : Int} {op : JobOp} {row' : SimulationJob} {ended : Bool}
    (h : RowStep cfg now op row ended row') (hlive : ¬ row.status.Terminal)
    (hop : ∀ backend, op ≠ .markLaunched backend) :
    row'.pipelineDispatchState = row.pipelineDispatchState ∨
      row'.pipelineDispatchState = some .rerunWorkerLost ∨ row'.status.Terminal := by
  cases h with
  | bookkeeping _ _ _ dispatch =>
    obtain hsame | hended | ⟨backend, hlaunched⟩ := dispatch
    · exact .inl hsame
    · exact absurd hended hlive
    · exact absurd hlaunched (hop backend)
  | extended target | beaten target =>
    obtain ⟨deadline, updatedAt, hextended, -⟩ := extendDeadline_eq row target now
    exact .inl (by simp [hextended, LeaseRepository.beaten])
  | withdrawn | handedBack | confirmed | requeued => exact .inl rfl
  | rerun sel _ _ _ status lease =>
    rw [rerunWrite, if_pos ⟨status, lease⟩]
    dsimp only
    split
    · exact .inr (.inl rfl)
    · exact .inl rfl
  | moved target _ _ status _ _ dispatch =>
    obtain hsame | hended := dispatch
    · exact .inl hsame
    · exact .inr (.inr (status ▸ hended))
  | cancelled => exact .inr (.inr (by simp [JobCancel.cancelledRow]; decide))
  | reviewRerun started ended =>
    obtain ⟨startedAt, hreset⟩ :=
      reviewRerunReset_eq (timestampsFor row .pending now) started ended now
    rw [hreset]
    exact .inl rfl

theorem Granted.lease {w w' : JobWorld} {own : ExecutionOwnership} (h : Granted cfg w w' own) :
    LeaseMoved w.clock w.row w'.row := by
  obtain ⟨execution, hrow⟩ := h.row
  refine .inr ?_
  intro expires hexpires
  rw [hrow] at hexpires
  have : w.clock + cfg.lease = expires := Option.some.inj hexpires
  have := cfg.lease_pos
  omega

namespace JobWorld

variable {cfg : Config} {w w' : JobWorld} {op : JobOp}

/-- The selections a sweep would answer with the re-run of a running job. -/
structure Rerunning (w : JobWorld) (sel : Selection) : Prop where
  selected : sel ∈ w.selected
  running : sel.job.status = .running
  eligible : rerunEligible sel.job sel.now

/-- A running job was re-run by this step, for this selection. -/
structure Reran (w w' : JobWorld) (sel : Selection) : Prop where
  rerunning : w.Rerunning sel
  lease : w.row.leaseExpiresAt = sel.job.leaseExpiresAt
  row : w'.row = (rerunWrite sel w.row).2
  running : w.row.status = .running
  reruns : w'.reruns = w.reruns + 1

theorem step_reruns (h : step cfg w op = some w') :
    w'.reruns = w.reruns ∨ ∃ sel, Reran w w' sel := by
  cases op with
  | claimExecution token backend execution fenceAvailable =>
    simp only [step] at h
    split at h
    · cases h
      unfold claim
      split <;> exact .inl rfl
    · cases h
  | transition target =>
    simp only [step] at h
    split at h <;> cases h <;> exact .inl rfl
  | reapSelect sweepNow =>
    simp only [step] at h
    split at h <;> cases h
    exact .inl rfl
  | reapWrite i canRerun =>
    obtain ⟨sel, hi, rfl⟩ := Option.map_eq_some_iff.mp h
    by_cases hr : Cleanup.reruns canRerun sel = true
    · have heligible : rerunEligible sel.job sel.now := (Bool.and_eq_true_iff.mp hr).2
      by_cases hcas : w.row.status = sel.job.status ∧
          w.row.leaseExpiresAt = sel.job.leaseExpiresAt
      · by_cases hrunning : sel.job.status = .running
        · refine .inr ⟨sel, ⟨List.mem_of_getElem? hi, hrunning, heligible⟩, hcas.2, ?_,
            hcas.1.trans hrunning, ?_⟩
          · simp [reapWrite, reap, hr, putRow, put, row]
          · simp [reapWrite, reap, hr, rerunWrite, hcas, hrunning]
        · exact .inl (by simp [reapWrite, hrunning])
      · exact .inl (by simp [reapWrite, reap, hr, rerunWrite, hcas])
    · exact .inl (by simp [reapWrite, hr])
  | guardWrite i checkedAt =>
    obtain ⟨read, -, h⟩ := Option.bind_eq_some_iff.mp h
    split at h <;> cases h
    exact .inl rfl
  | runReview i payload =>
    obtain ⟨job, -, h⟩ := Option.bind_eq_some_iff.mp h
    obtain ⟨db, -, rfl⟩ := Option.map_eq_some_iff.mp h
    exact .inl rfl
  | _ => cases h; exact .inl rfl

/-- Before the re-run the lease column has not moved back behind a reading of it. After the
re-run it has moved past every reading, and the row carries the mark until it ends. -/
structure RerunOnce (w : JobWorld) : Prop where
  behind : ∀ sel read expires, w.Rerunning sel → sel.job.leaseExpiresAt = some read →
    w.row.leaseExpiresAt = some expires → read ≤ expires
  once : w.reruns = 0 ∨ w.reruns = 1 ∧
    (w.row.status.Terminal ∨ w.row.pipelineDispatchState = some .rerunWorkerLost) ∧
    ∀ sel read expires, w.Rerunning sel → sel.job.leaseExpiresAt = some read →
      w.row.leaseExpiresAt = some expires → read < expires

theorem step_lease (hsel : w.SelectionsSound cfg.settings) (h : step cfg w op = some w') :
    LeaseMoved w.clock w.row w'.row ∨ ∃ sel : Selection, sel.now ≤ w.clock ∧
      stalledJobsClause cfg.settings sel.now sel.job ∧ rerunEligible sel.job sel.now ∧
      w.row.leaseExpiresAt = sel.job.leaseExpiresAt ∧ w'.row.leaseExpiresAt = some sel.now := by
  obtain ⟨own, hg⟩ | ⟨-, _, -, hrow⟩ := step_cases hsel h
  · exact .inl hg.lease
  · exact hrow.lease

/-- A reading of the lease column that is in the past stays behind it, unless the column is
the one that was read. -/
theorem behind_step {read expires since : Int} (hsel : w.SelectionsSound cfg.settings)
    (h : step cfg w op = some w') (hread : read < since) (hsince : since ≤ w.clock)
    (hbehind : ∀ before, w.row.leaseExpiresAt = some before → read ≤ before)
    (hexpires : w'.row.leaseExpiresAt = some expires) :
    w.row.leaseExpiresAt = some expires ∨ read < expires := by
  obtain (hsame | hlater) | ⟨sel, -, hclause, heligible, hlease, hrelease⟩ := step_lease hsel h
  · exact .inl (hsame ▸ hexpires)
  · have := hlater expires hexpires
    exact .inr (by omega)
  · obtain ⟨before, hbefore, hlapsed⟩ := lease_of_rerunEligible hclause heligible
    have hle := hbehind before (hlease.trans hbefore)
    have : sel.now = expires := Option.some.inj (hrelease.symm.trans hexpires)
    exact .inr (by omega)

/-- A step keeps the mark of the re-run on a job that has not ended. -/
theorem marked_step (hsel : w.SelectionsSound cfg.settings) (h : step cfg w op = some w')
    (hop : ∀ backend, op ≠ .markLaunched backend)
    (hmark : w.row.status.Terminal ∨ w.row.pipelineDispatchState = some .rerunWorkerLost) :
    w'.row.status.Terminal ∨ w'.row.pipelineDispatchState = some .rerunWorkerLost := by
  by_cases ht : w.row.status.Terminal
  · exact .inl ((step_record hsel h ht).status ▸ ht)
  · have hmark := hmark.resolve_left ht
    obtain ⟨own, hg⟩ | ⟨-, _, -, hrow⟩ := step_cases hsel h
    · obtain ⟨execution, hrow⟩ := hg.row
      exact .inr (hrow ▸ hmark)
    · obtain hkept | hset | hend := hrow.dispatch ht hop
      · exact .inr (hkept.trans hmark)
      · exact .inr hset
      · exact .inl hend

/-- A selection that would re-run a running job was in flight before, or read this very row. -/
theorem rerunning_step {sel : Selection} (h : step cfg w op = some w') (hr : w'.Rerunning sel) :
    w.Rerunning sel ∨ sel.job = w.row := by
  obtain hold | ⟨hjob, -⟩ := step_selected h sel hr.selected
  · exact .inl ⟨hold, hr.running, hr.eligible⟩
  · exact .inr hjob

theorem Rerunning.since {sel : Selection} (hsel : w.SelectionsSound cfg.settings)
    (h : step cfg w op = some w') (hr : w'.Rerunning sel) {read : Int}
    (hread : sel.job.leaseExpiresAt = some read) : read < sel.now ∧ sel.now ≤ w.clock := by
  have hnow : sel.now ≤ w.clock ∧ stalledJobsClause cfg.settings sel.now sel.job := by
    obtain hold | ⟨hjob, hnow, hclause⟩ := step_selected h sel hr.selected
    · exact hsel sel hold
    · exact ⟨hnow, hjob ▸ hclause⟩
  obtain ⟨expires, hexpires, hlapsed⟩ := lease_of_rerunEligible hnow.2 hr.eligible
  have : read = expires := Option.some.inj (hread.symm.trans hexpires)
  exact ⟨by omega, hnow.1⟩

/-- A row that carries the mark, or has ended, is not read as one that may run again. -/
theorem Rerunning.unmarked {sel : Selection} (hr : w.Rerunning sel) :
    ¬ (sel.job.status.Terminal ∨ sel.job.pipelineDispatchState = some .rerunWorkerLost) := by
  rintro (hended | hmarked)
  · exact absurd hended (by rw [hr.running]; decide)
  · obtain ⟨-, hunmarked⟩ | ⟨hpending, -⟩ := (status_of_rerunEligible hr.eligible).1
    · exact hunmarked hmarked
    · exact absurd (hpending.symm.trans hr.running) (by decide)

theorem rerunOnce_step (hsel : w.SelectionsSound cfg.settings) (hinv : w.RerunOnce)
    (hop : ∀ backend, op ≠ .markLaunched backend) (h : step cfg w op = some w') :
    w'.RerunOnce := by
  have hbehind : ∀ sel read before, w'.Rerunning sel → sel.job.leaseExpiresAt = some read →
      w.row.leaseExpiresAt = some before → read ≤ before := by
    intro sel read before hr hread hbefore
    obtain hold | hnew := rerunning_step h hr
    · exact hinv.behind sel read before hold hread hbefore
    · rw [hnew, hbefore] at hread
      exact Int.le_of_eq (Option.some.inj hread).symm
  have hmoved : ∀ sel read expires, w'.Rerunning sel → sel.job.leaseExpiresAt = some read →
      w'.row.leaseExpiresAt = some expires →
      w.row.leaseExpiresAt = some expires ∨ read < expires := by
    intro sel read expires hr hread hexpires
    obtain ⟨hpast, hsince⟩ := hr.since hsel h hread
    exact behind_step hsel h hpast hsince (fun before => hbehind sel read before hr hread) hexpires
  refine ⟨?_, ?_⟩
  · intro sel read expires hr hread hexpires
    obtain hkept | hlt := hmoved sel read expires hr hread hexpires
    · exact hbehind sel read expires hr hread hkept
    · omega
  · obtain hsame | ⟨sel, hreran⟩ := step_reruns h
    · obtain hzero | ⟨hone, hmark, hpassed⟩ := hinv.once
      · exact .inl (hsame.trans hzero)
      · refine .inr ⟨hsame.trans hone, marked_step hsel h hop hmark, ?_⟩
        intro sel read expires hr hread hexpires
        obtain hkept | hlt := hmoved sel read expires hr hread hexpires
        · obtain hold | hnew := rerunning_step h hr
          · exact hpassed sel read expires hold hread hkept
          · exact absurd (hnew ▸ hmark) hr.unmarked
        · exact hlt
    · obtain ⟨read, hread⟩ := Option.isSome_iff_exists.mp
        (status_of_rerunEligible hreran.rerunning.eligible).2
      have hlease : w.row.leaseExpiresAt = some read := hreran.lease.trans hread
      obtain hzero | ⟨-, -, hpassed⟩ := hinv.once
      · have hrow : w'.row.leaseExpiresAt = some sel.now ∧
            w'.row.pipelineDispatchState = some .rerunWorkerLost := by
          have hstatus : w.row.status = sel.job.status :=
            hreran.running.trans hreran.rerunning.running.symm
          rw [hreran.row, rerunWrite, if_pos ⟨hstatus, hreran.lease⟩]
          exact ⟨rfl, if_pos hreran.rerunning.running⟩
        refine .inr ⟨by rw [hreran.reruns, hzero], .inr hrow.2, ?_⟩
        intro sel' read' expires hr hread' hexpires
        have hle := hbehind sel' read' read hr hread' hlease
        have hnow := (hsel sel hreran.rerunning.selected).2
        obtain ⟨before, hbefore, hlapsed⟩ :=
          lease_of_rerunEligible hnow hreran.rerunning.eligible
        have : read = before := Option.some.inj (hread.symm.trans hbefore)
        have : sel.now = expires := Option.some.inj (hrow.1.symm.trans hexpires)
        omega
      · have := hpassed sel read read hreran.rerunning hread hlease
        omega

theorem clocked_step (hsel : w.SelectionsSound cfg.settings) (hrow : Clocked w.row)
    (h : step cfg w op = some w') : Clocked w'.row := by
  obtain ⟨own, hg⟩ | ⟨-, _, -, hstep⟩ := step_cases hsel h
  · obtain ⟨execution, hclaimed⟩ := hg.row
    rw [hclaimed]
    exact ⟨fun _ => rfl, fun _ => rfl⟩
  · exact hstep.clocked hrow

/-- Two sweeps see the same lost worker, and both would re-run its job. -/
def lostWorker : List JobOp :=
  [.setDispatchPayload [("engine", some "gmsh")], .claimExecution 1 "celery" (some "vm-1") true,
    .tick 1900000000, .reapSelect 1900000000, .reapSelect 1900000000, .reapWrite 0 true,
    .reapWrite 0 true]

end JobWorld

end MeshPipeline
