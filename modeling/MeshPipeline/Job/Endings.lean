import MeshPipeline.Job.RowStep

/-!
# How a job ends

A terminal row is final: no writer changes how it ended. So a job has at most one ending, and the
record, the charge and the announcement written beside it are that ending's.
-/

namespace MeshPipeline

open LeaseRepository JobRepository TerminalOutboxRepository

/-! ## Terminal rows -/

/-- A terminal row keeps its record. -/
theorem RowStep.record {cfg : Settings} {now : Int} {op : JobOp} {row row' : SimulationJob}
    {ended : Bool} (h : RowStep cfg now op row ended row') (ht : row.status.Terminal) :
    SameRecord row row' := by
  cases h with
  | bookkeeping _ record => exact record
  | extended target | beaten target =>
    obtain ⟨deadline, updatedAt, hextended, -⟩ := extendDeadline_eq row target now
    rw [hextended]
    exact ⟨rfl, rfl, rfl, rfl⟩
  | withdrawn => exact ⟨rfl, rfl, rfl, rfl⟩
  | handedBack running => exact absurd ht (by rw [running]; decide)
  | confirmed => exact ⟨rfl, rfl, rfl, rfl⟩
  | rerun sel _ _ eligible status =>
    refine absurd ht ?_
    rw [status]
    exact Cleanup.not_terminal_of_rerunEligible eligible
  | requeued _ source | moved _ source =>
    exact absurd ht (not_terminal_of_mem_legalSources source)
  | cancelled _ live => exact absurd ht live
  | reviewRerun _ _ _ source => exact absurd ht (not_terminal_of_mem_legalSources source)

/-- A step ends a job exactly when it says so. -/
theorem RowStep.terminal_iff {cfg : Settings} {now : Int} {op : JobOp}
    {row row' : SimulationJob} {ended : Bool} (h : RowStep cfg now op row ended row') :
    (ended = true → ¬ row.status.Terminal) ∧
      (row'.status.Terminal ↔ row.status.Terminal ∨ ended = true) := by
  by_cases ht : row.status.Terminal
  · have hrecord := (h.record ht).status
    refine ⟨fun he => ?_, by simp [hrecord, ht]⟩
    cases h with
    | moved _ source => exact not_terminal_of_mem_legalSources source
    | cancelled _ live => exact live
    | _ => cases he
  · refine ⟨fun _ => ht, ?_⟩
    cases h with
    | bookkeeping _ record => simp [record.status]
    | extended target | beaten target =>
      obtain ⟨deadline, updatedAt, hextended, -⟩ := extendDeadline_eq row target now
      simp [hextended, LeaseRepository.beaten]
    | withdrawn => simp [LeaseRepository.withdrawn]
    | handedBack running => simp [ht]; decide
    | confirmed => simp
    | rerun sel => unfold Cleanup.rerunWrite; split <;> simp [ht]; decide
    | requeued _ _ waits => obtain rfl | rfl := waits <;> simp [ht] <;> decide
    | moved _ _ _ status => simp [status, ht]
    | cancelled => simp [JobCancel.cancelledRow]; decide
    | reviewRerun started ended =>
      obtain ⟨startedAt, hreset⟩ :=
        reviewRerunReset_eq (timestampsFor row .pending now) started ended now
      simp [hreset, setDispatchPayload, ht]
      decide

namespace JobWorld

variable {cfg : Config} {w w' : JobWorld} {op : JobOp} {e : Ending}

theorem Granted.live {own : ExecutionOwnership} (h : Granted cfg.settings w w' own) :
    ¬ w.row.status.Terminal ∧ ¬ w'.row.status.Terminal := by
  obtain ⟨execution, hrow⟩ := h.row
  refine ⟨?_, by rw [hrow]; exact (by decide : ¬ JobStatus.running.Terminal)⟩
  obtain hs | hs := h.claimable <;> rw [hs] <;> decide

theorem step_record (hsel : w.SelectionsSound cfg.settings) (h : step cfg w op = some w')
    (ht : w.row.status.Terminal) : SameRecord w.row w'.row := by
  obtain ⟨own, hg⟩ | ⟨-, _, -, hrow⟩ := step_cases hsel h
  · exact absurd ht (Granted.live hg).1
  · exact hrow.record ht

/-- Once a job's status is terminal, no interleaving of its writers changes its status, its
result, its end or its failure reason. -/
theorem terminal_absorbing (cfg : Config) (id : JobId) (ownerId : String)
    (organizationId : Option Nat) (now : Int) (ops later : List JobOp) (w w' : JobWorld)
    (h : (machine cfg).exec (created id ownerId organizationId now) ops = some w)
    (ht : w.row.status.Terminal) (h' : (machine cfg).exec w later = some w') :
    SameRecord w.row w'.row := by
  have hsel : w.SelectionsSound cfg.settings :=
    Transition.Machine.exec_invariant_of_step (fun _ _ _ hI hs => selectionsSound_step hI hs)
      (selectionsSound_created id ownerId organizationId now) h
  have hinv : w'.SelectionsSound cfg.settings ∧ SameRecord w.row w'.row := by
    refine Transition.Machine.exec_invariant_of_step
      (I := fun v => v.SelectionsSound cfg.settings ∧ SameRecord w.row v.row) ?_
      ⟨hsel, .refl w.row⟩ h'
    rintro u _ v ⟨hu, hrecord⟩ hs
    exact ⟨selectionsSound_step hu hs,
      hrecord.trans (step_record hu hs (hrecord.status.symm ▸ ht))⟩
  exact hinv.2

/-- A run that ends a job and goes on: its worker beats, a reaper looks, its owner cancels. -/
def endedRun : List JobOp :=
  [.claimExecution 1 "celery" (some "vm-1") true, .refuseAdmission .unhandled]

def afterEnd : List JobOp :=
  [.tick 1000000, .cancelJob true none "cancelled", .transition .succeeded,
    .markLaunchFailed "late", .claimExecution 2 "celery" none true]

theorem terminal_absorbing_endedRun :
    ∃ w w', (machine .default).exec (created 7 "ada" none 0) endedRun = some w ∧
      (machine .default).exec w afterEnd = some w' ∧ w.row.status = .failed ∧
      SameRecord w.row w'.row :=
  ⟨_, _, rfl, rfl, rfl,
    terminal_absorbing .default 7 "ada" none 0 endedRun afterEnd _ _ rfl (by decide) rfl⟩

/-! ## One ending -/

/-- A step that neither announces nor charges: neither a finalize nor a cancel. -/
structure Silent (w w' : JobWorld) : Prop where
  outbox : w'.db.outbox = w.db.outbox
  ledger : w'.db.ledger = w.db.ledger
  authors : ∀ e ∈ w'.endings, e ∈ w.endings ∨ e.author ≠ .finalize ∧ e.author ≠ .cancel

theorem silent_of_endings (author : Option Author) (hout : w'.db.outbox = w.db.outbox)
    (hled : w'.db.ledger = w.db.ledger) (hend : endingsAfter w w' author)
    (hauthor : ∀ a ∈ author, a ≠ .finalize ∧ a ≠ .cancel) : Silent w w' := by
  refine ⟨hout, hled, fun e he => ?_⟩
  rw [hend] at he
  obtain hold | hnew := List.mem_append.mp he
  · exact .inl hold
  · obtain ⟨a, ha, rfl⟩ := List.mem_map.mp hnew
    exact .inr (hauthor a (Option.mem_toList.mp ha))

theorem silent_endedBy {author : Author} (applied : Bool)
    (h : author ≠ .finalize ∧ author ≠ .cancel) :
    ∀ a ∈ endedBy author applied, a ≠ .finalize ∧ a ≠ .cancel := by
  intro a ha
  cases applied
  · cases ha
  · cases ha
    exact h

/-- Only a finalize and a cancel announce or charge. -/
theorem step_accounts (h : step cfg w op = some w') :
    Silent w w' ∨
      (∃ req env, op = .finalize req env ∧ w' = w.put
        (TerminalFinalize.finalizeTerminalAtomic cfg.pricing req env w.clock w.db).2
        (endedBy .finalize (finalizeEnded
          (TerminalFinalize.finalizeTerminalAtomic cfg.pricing req env w.clock w.db).1))) ∨
      ∃ owner reason message, w' = w.put
        (JobCancel.cancelJob owner reason message w.clock w.db).2
        (endedBy .cancel
          ((JobCancel.cancelJob owner reason message w.clock w.db).1 == .cancelled)) := by
  have hself : Silent w w := ⟨rfl, rfl, fun _ he => .inl he⟩
  cases op with
  | claimExecution token backend execution fenceAvailable =>
    simp only [step] at h
    split at h
    · cases h
      left
      unfold claim
      split
      · exact silent_of_endings none rfl rfl rfl (by simp)
      · exact hself
    · cases h
  | finalize req env => cases h; exact .inr (.inl ⟨req, env, rfl, rfl⟩)
  | cancelJob owner reason message => cases h; exact .inr (.inr ⟨owner, reason, message, rfl⟩)
  | tick | guardRead | reviewRead => cases h; exact .inl ⟨rfl, rfl, fun _ he => .inl he⟩
  | heartbeat | evictOwner | release | handBack | confirmRequeued | markLaunched
  | setDispatchPayload | updateCurrentAttempt =>
    cases h
    exact .inl (silent_of_endings none rfl rfl rfl (by simp))
  | transition target =>
    simp only [step] at h
    split at h <;> cases h
    · exact .inl (silent_of_endings _ rfl rfl rfl (silent_endedBy _ (by decide)))
    · exact .inl hself
  | reapSelect sweepNow =>
    simp only [step] at h
    split at h <;> cases h
    exact .inl ⟨rfl, rfl, fun _ he => .inl he⟩
  | reapWrite i canRerun =>
    obtain ⟨sel, -, rfl⟩ := Option.map_eq_some_iff.mp h
    exact .inl (silent_of_endings _ rfl rfl rfl (silent_endedBy _ (by decide)))
  | guardWrite i checkedAt =>
    obtain ⟨read, -, h⟩ := Option.bind_eq_some_iff.mp h
    split at h <;> cases h
    exact .inl (silent_of_endings _ rfl rfl rfl (silent_endedBy _ (by decide)))
  | refuseBeforeExecution | refuseAdmission | markLaunchFailed =>
    cases h
    exact .inl (silent_of_endings _ rfl rfl rfl (silent_endedBy _ (by decide)))
  | runReview i payload =>
    obtain ⟨job, -, h⟩ := Option.bind_eq_some_iff.mp h
    obtain ⟨db, hdb, rfl⟩ := Option.map_eq_some_iff.mp h
    obtain ⟨hout, hled⟩ := RepairReview.runReview_accounts hdb
    exact .inl (silent_of_endings none hout hled rfl (by simp))
  | compensate park =>
    cases h
    obtain ⟨hout, hled⟩ := RepairReview.compensate_accounts park w.clock w.db
    exact .inl (silent_of_endings none hout hled rfl (by simp))

/-- The one ending of a job, with all that was written for it. -/
structure EndedBy (cfg : Config) (w : JobWorld) (e : Ending) : Prop where
  terminal : e.row.status.Terminal
  record : SameRecord e.row w.row
  announced : if e.author = .finalize ∨ e.author = .cancel then
      ∃ r, terminalRows w.db.outbox = [r] ∧ r.terminalStatus = e.row.status ∧
        e.row.finalResult = some r.finalResult
    else terminalRows w.db.outbox = []
  charged : Metering.debits w.db.ledger = [] ∨
    ∃ d, Metering.debits w.db.ledger = [d] ∧ e.author = .finalize ∧ e.row.status = .succeeded ∧
      e.row.organizationId = some d.organizationId ∧
      d.amount = -Metering.creditsForJob cfg.pricing e.row.startedAt e.row.endedAt

/-- A job in flight has no ending, no announcement of one and no debit; a job that has ended has
exactly one ending, and what was written is that ending's. -/
inductive Settled (cfg : Config) (w : JobWorld) : Prop
  | live (status : ¬ w.row.status.Terminal) (endings : w.endings = [])
      (outbox : terminalRows w.db.outbox = []) (ledger : Metering.debits w.db.ledger = [])
  | ended (e : Ending) (endings : w.endings = [e]) (by' : EndedBy cfg w e)

variable {author : Author}

theorem endingsAfter_none (h : endingsAfter w w' none) : w'.endings = w.endings := by
  simpa [endingsAfter] using h

theorem settled_created (id : JobId) (ownerId : String) (organizationId : Option Nat)
    (now : Int) : Settled cfg (created id ownerId organizationId now) :=
  .live (by decide : ¬ JobStatus.pending.Terminal) rfl rfl rfl

/-- A live job's silent step leaves it live, or ends it without an announcement. -/
theorem settled_silent (hsel : w.SelectionsSound cfg.settings) (h : step cfg w op = some w')
    (hsilent : Silent w w') (hlive : ¬ w.row.status.Terminal) (hend : w.endings = [])
    (hout : terminalRows w.db.outbox = []) (hled : Metering.debits w.db.ledger = []) :
    Settled cfg w' := by
  have hout' : terminalRows w'.db.outbox = [] := hsilent.outbox ▸ hout
  have hled' : Metering.debits w'.db.ledger = [] := hsilent.ledger ▸ hled
  obtain ⟨own, hg⟩ | ⟨-, author, hafter, hrow⟩ := step_cases hsel h
  · exact .live (Granted.live hg).2 (hg.endings.trans hend) hout' hled'
  · cases author with
    | none =>
      refine .live ?_ ((endingsAfter_none hafter).trans hend) hout' hled'
      simpa [hlive] using hrow.terminal_iff.2
    | some author =>
      have hendings : w'.endings = [⟨author, w'.row⟩] := by simpa [endingsAfter, hend] using hafter
      have hauthor : author ≠ .finalize ∧ author ≠ .cancel := by
        obtain hold | hnew := hsilent.authors ⟨author, w'.row⟩ (by simp [hendings])
        · simp [hend] at hold
        · exact hnew
      refine .ended ⟨author, w'.row⟩ hendings ⟨?_, .refl w'.row, ?_, .inl hled'⟩
      · exact hrow.terminal_iff.2.mpr (.inr rfl)
      · rw [if_neg (by simp [hauthor])]
        exact hout'

theorem settled_finalize (req : FinalizeRequest) (env : FinalizeEnv)
    (hlive : ¬ w.row.status.Terminal) (hend : w.endings = [])
    (hout : terminalRows w.db.outbox = []) (hled : Metering.debits w.db.ledger = []) :
    Settled cfg (w.put
      (TerminalFinalize.finalizeTerminalAtomic cfg.pricing req env w.clock w.db).2
      (endedBy .finalize (finalizeEnded
        (TerminalFinalize.finalizeTerminalAtomic cfg.pricing req env w.clock w.db).1))) := by
  obtain ⟨hdb, htr⟩ | ⟨-, -, heq⟩ :=
    TerminalFinalize.finalize_cases cfg.pricing req env w.clock w.db
  · have hflag : finalizeEnded
        (TerminalFinalize.finalizeTerminalAtomic cfg.pricing req env w.clock w.db).1 = false := by
      simp [finalizeEnded, htr]
    rw [hdb, hflag]
    exact .live hlive (by simpa [put, endedBy] using hend) hout hled
  · rw [heq, TerminalFinalize.won]
    generalize hr : TerminalFinalize.review w.db.parks req env = r
    have hpark : r.intendedStatus = .pendingReview ↔ r.parkId.isSome :=
      hr ▸ TerminalFinalize.review_parkId w.db.parks req env
    have hstatus : (TerminalFinalize.endedRow req r w.db.row w.clock).status = r.intendedStatus :=
      RowStep.status_endedRow req r
    by_cases hp : r.intendedStatus = .pendingReview
    · -- a park: announced under its own key, and not charged
      obtain ⟨park, hid⟩ := Option.isSome_iff_exists.mp (hpark.mp hp)
      refine .live ?_ (by simpa [put, endedBy, finalizeEnded, hp] using hend) ?_ ?_
      · simp only [put, row, hstatus, hp]
        decide
      · refine (terminalRows_enqueue_park ?_).trans hout
        simp [announcesEnding, TerminalFinalize.announcement, hid]
      · simpa [put, hp] using hled
    · have hterm : r.intendedStatus.Terminal := by
        have h := TerminalFinalize.intended_terminal_or_parked w.db.parks req env
        rw [hr] at h
        exact h.resolve_right hp
      have hid : r.parkId = none := by simpa [hp] using hpark
      refine .ended ⟨.finalize, TerminalFinalize.endedRow req r w.db.row w.clock⟩ ?_ ?_
      · simp [put, endedBy, finalizeEnded, hp, hend]
      · refine ⟨by simpa [hstatus] using hterm, .refl _, ?_, ?_⟩
        · rw [if_pos (.inl rfl)]
          refine ⟨TerminalFinalize.announcement req r w.db.row,
            terminalRows_enqueue ?_ hout, ?_, ?_⟩
          · simp [announcesEnding, TerminalFinalize.announcement, hid, dedupKeyFor]
          · exact hstatus.symm
          · exact TerminalFinalize.endedRow_finalResult ..
        · simp only [put, if_neg hp]
          obtain hsame | ⟨d, hd, hsucceeded, horg, hamount⟩ :=
            TerminalFinalize.debits_chargeFailOpen cfg.pricing env
              (TerminalFinalize.endedRow req r w.db.row w.clock) w.db.ledger
          · exact .inl (hsame.trans hled)
          · exact .inr ⟨d, by rw [hd, hled, List.nil_append], trivial, hsucceeded, horg, hamount⟩

theorem settled_cancel (owner : Bool) (reason : Option String) (message : String)
    (hlive : ¬ w.row.status.Terminal) (hend : w.endings = [])
    (hout : terminalRows w.db.outbox = []) (hled : Metering.debits w.db.ledger = []) :
    Settled cfg (w.put (JobCancel.cancelJob owner reason message w.clock w.db).2
      (endedBy .cancel
        ((JobCancel.cancelJob owner reason message w.clock w.db).1 == .cancelled))) := by
  obtain ⟨hdb, hres⟩ | ⟨-, hres, hrow, hledger, r, hr, hstatus, hresult, houtbox⟩ :=
    JobCancel.cancelJob_cases owner reason message w.clock w.db
  · rw [hdb, beq_eq_false_iff_ne.mpr hres]
    exact .live hlive (by simpa [put, endedBy] using hend) hout hled
  · refine .ended ⟨.cancel, (JobCancel.cancelJob owner reason message w.clock w.db).2.row⟩ ?_ ?_
    · simp [put, endedBy, hres, hend]
    · have hcancelled : (JobCancel.cancelledRow w.db.row reason w.clock).status = .cancelled := by
        simp [JobCancel.cancelledRow]
      refine ⟨?_, .refl _, ?_, .inl ?_⟩
      · rw [hrow, hcancelled]
        decide
      · rw [if_pos (.inr rfl)]
        refine ⟨r, ?_, ?_, ?_⟩
        · simp only [put, houtbox]
          exact terminalRows_enqueue hr hout
        · rw [hrow, hcancelled, hstatus]
        · rw [hrow, hresult]
      · simpa [put, hledger] using hled

/-- An ended job's step keeps its ending and everything written for it. -/
theorem settled_of_ended (hsel : w.SelectionsSound cfg.settings) (h : step cfg w op = some w')
    (hend : w.endings = [e]) (hby : EndedBy cfg w e) : Settled cfg w' := by
  have ht : w.row.status.Terminal := hby.record.status ▸ hby.terminal
  have hrecord := step_record hsel h ht
  have hkeep (hout : w'.db.outbox = w.db.outbox) (hled : w'.db.ledger = w.db.ledger)
      (hendings : w'.endings = w.endings) : Settled cfg w' :=
    .ended e (hendings.trans hend)
      ⟨hby.terminal, hby.record.trans hrecord, hout ▸ hby.announced, hled ▸ hby.charged⟩
  obtain hsilent | ⟨req, env, -, rfl⟩ | ⟨owner, reason, message, rfl⟩ := step_accounts h
  · refine hkeep hsilent.outbox hsilent.ledger ?_
    obtain ⟨own, hg⟩ | ⟨-, author, hafter, hrow⟩ := step_cases hsel h
    · exact hg.endings
    · cases author with
      | none => exact endingsAfter_none hafter
      | some author => exact absurd ht (hrow.terminal_iff.1 rfl)
  · obtain ⟨hdb, htr⟩ :=
      TerminalFinalize.finalize_of_terminal cfg.pricing req env w.clock w.db ht
    refine hkeep (by simp [put, hdb]) (by simp [put, hdb]) ?_
    simp [put, finalizeEnded, htr, endedBy]
  · obtain ⟨hdb, hres⟩ | ⟨hlive, -⟩ :=
      JobCancel.cancelJob_cases owner reason message w.clock w.db
    · refine hkeep (by simp [put, hdb]) (by simp [put, hdb]) ?_
      simp [put, endedBy, hres]
    · exact absurd ht hlive

theorem settled_step (hsel : w.SelectionsSound cfg.settings) (hs : Settled cfg w)
    (h : step cfg w op = some w') : Settled cfg w' := by
  cases hs with
  | live hlive hend hout hled =>
    obtain hsilent | ⟨req, env, -, rfl⟩ | ⟨owner, reason, message, rfl⟩ := step_accounts h
    · exact settled_silent hsel h hsilent hlive hend hout hled
    · exact settled_finalize req env hlive hend hout hled
    · exact settled_cancel owner reason message hlive hend hout hled
  | ended e hend hby => exact settled_of_ended hsel h hend hby

/-- A job has at most one ending, charged at most once, and only when it succeeded; its stored
result, its debit and its announcement are the winner's. A fenced call writes nothing, and no
failing charge or review write undoes an ending. -/
theorem one_ending (cfg : Config) (id : JobId) (ownerId : String) (organizationId : Option Nat)
    (now : Int) (ops : List JobOp) (w : JobWorld)
    (h : (machine cfg).exec (created id ownerId organizationId now) ops = some w) :
    Settled cfg w ∧
      (∀ req env, TerminalFinalize.Fenced req w.db →
        TerminalFinalize.finalizeTerminalAtomic cfg.pricing req env w.clock w.db =
          (⟨true, none, none, false, false⟩, w.db)) ∧
      ∀ req env,
        let calm := TerminalFinalize.finalizeTerminalAtomic cfg.pricing req
          (TerminalFinalize.calm env) w.clock w.db
        let met := TerminalFinalize.finalizeTerminalAtomic cfg.pricing req env w.clock w.db
        calm.1.transition = some .applied → met.1.transition = some .applied ∧
          (req.intendedStatus ≠ .pendingReview →
            met.2.row = calm.2.row ∧ met.2.outbox = calm.2.outbox) ∧
          (req.intendedStatus = .pendingReview →
            met.2.row.status ∈ [JobStatus.pendingReview, .failed]) := by
  have hinv : w.SelectionsSound cfg.settings ∧ Settled cfg w := by
    refine Transition.Machine.exec_invariant_of_step
      (I := fun v => v.SelectionsSound cfg.settings ∧ Settled cfg v) ?_
      ⟨selectionsSound_created id ownerId organizationId now,
        settled_created id ownerId organizationId now⟩ h
    rintro u _ v ⟨hu, hs⟩ hstep
    exact ⟨selectionsSound_step hu hstep, settled_step hu hs hstep⟩
  exact ⟨hinv.2,
    fun req env hf => TerminalFinalize.finalize_of_fenced cfg.pricing req env w.clock w.db hf,
    fun req env hcalm =>
      TerminalFinalize.finalize_failOpen cfg.pricing req env w.clock w.db hcalm⟩

/-- The request of a run that delivered its mesh. -/
def deliveredRequest (own : ExecutionOwnership) : FinalizeRequest where
  ownership := some own
  intendedStatus := .succeeded
  failedReason := none
  finalResult := FinalResult.reapedResult .gateFailed 7 "ada" 1 3 0
  closingMessage := "done"
  reviewPlan := none
  plainFailure := none
  intended_mem := FinalizeRequest.delivered_mem
  parks_iff := FinalizeRequest.delivered_parks_iff

/-- A run is delivered, its commit is retried, and its owner cancels too late. -/
def deliveredRun : List JobOp :=
  let own : ExecutionOwnership := ⟨1, 1, "celery", some 21600000000, 1, 900⟩
  let env : FinalizeEnv := ⟨false, false, ⟨false, 100⟩⟩
  [.claimExecution 1 "celery" (some "vm-1") true, .tick 90000000,
    .finalize (deliveredRequest own) env, .finalize (deliveredRequest own) env,
    .cancelJob true none "cancelled"]

theorem one_ending_deliveredRun :
    ∃ w, (machine .default).exec (created 7 "ada" (some 3) 0) deliveredRun = some w ∧
      w.endings.length = 1 ∧ (w.db.ledger.map (·.amount)) = [-12] ∧ Settled .default w :=
  ⟨_, rfl, rfl, rfl, (one_ending .default 7 "ada" (some 3) 0 deliveredRun _ rfl).1⟩

end JobWorld

end MeshPipeline
