import MeshPipeline.Job.Endings

/-!
# The span a job is billed for

A run is charged from `started_at` to `ended_at` of its row, and a re-run of the same row moves
`started_at` on by the time the job was parked. A stopwatch beside the row says what that span is
for: it runs from the first claim to a park, from each re-run to the next park or ending, and what
it showed before a re-run that was put back into its park is what it shows after.
-/

namespace MeshPipeline

open LeaseRepository JobRepository

/-- The spans that are over, and the start of the one that is not. -/
structure Stopwatch where
  closed : Int
  since : Option Int
  deriving DecidableEq, Repr

structure SpanWorld where
  job : JobWorld
  watch : Stopwatch

/-- `pending`, `running` or `queued`. -/
def JobStatus.InFlight (s : JobStatus) : Prop := s ∈ activeStates

instance (s : JobStatus) : Decidable s.InFlight := inferInstanceAs (Decidable (s ∈ activeStates))

/-- A dispatch that failed puts the job back. -/
def JobOp.PutsBack : JobOp → Bool
  | .compensate _ => true
  | _ => false

/-- The operations that open a span or close one. -/
def JobOp.MovesSpan : JobOp → Bool
  | .finalize .. | .runReview .. | .compensate _ => true
  | _ => false

/-- The stopwatch after a step. -/
def Stopwatch.after (s : Stopwatch) (op : JobOp) (w w' : JobWorld) : Stopwatch :=
  if w.row.status.InFlight then
    if w'.row.status.InFlight then
      if w.granted = [] ∧ w'.granted ≠ [] then { s with since := some w.clock } else s
    else if op.PutsBack then { s with since := none }
    else ⟨s.closed + (s.since.elim 0 fun since => w.clock - since), none⟩
  else if w'.row.status.InFlight then
    { s with since := if w.granted = [] then none else some w.clock }
  else s

namespace SpanWorld

/-- No caller moves a job with a bare transition but to fail or to cancel it. -/
def Called : JobOp → Bool
  | .transition target => target == .failed || target == .cancelled
  | _ => true

def step (cfg : Config) (w : SpanWorld) (op : JobOp) : Option SpanWorld :=
  if Called op then
    (w.job.step cfg op).map fun job => ⟨job, w.watch.after op w.job job⟩
  else none

def machine (cfg : Config) : Transition.Machine SpanWorld JobOp := ⟨step cfg⟩

def created (id : JobId) (ownerId : String) (organizationId : Option Nat) (now : Int) :
    SpanWorld where
  job := JobWorld.created id ownerId organizationId now
  watch := ⟨0, none⟩

/-- The re-run that is put back was reset just now, the row a re-run was read from is still the
job's, and a job is not recorded as a success out of its park. -/
def Timely (w : SpanWorld) : JobOp → Prop
  | .compensate _ => w.job.row.status = .pending → ∀ since ∈ w.watch.since, since = w.job.clock
  | .runReview i _ => ∀ read ∈ w.job.reviewReads[i]?, read.status = w.job.row.status ∧
      read.startedAt = w.job.row.startedAt ∧ read.endedAt = w.job.row.endedAt
  | .finalize req _ => w.job.row.status = .pendingReview → req.intendedStatus ≠ .succeeded
  | _ => True

instance (w : SpanWorld) : (op : JobOp) → Decidable (w.Timely op)
  | .compensate _ => inferInstanceAs (Decidable (w.job.row.status = .pending →
      ∀ since ∈ w.watch.since, since = w.job.clock))
  | .runReview i _ => inferInstanceAs (Decidable (∀ read ∈ w.job.reviewReads[i]?, _ ∧ _ ∧ _))
  | .finalize req _ => inferInstanceAs (Decidable (w.job.row.status = .pendingReview →
      req.intendedStatus ≠ .succeeded))
  | .tick .. | .claimExecution .. | .heartbeat .. | .evictOwner | .release .. | .handBack ..
  | .confirmRequeued .. | .transition .. | .reapSelect .. | .reapWrite .. | .guardRead ..
  | .guardWrite .. | .refuseBeforeExecution .. | .refuseAdmission .. | .cancelJob .. | .reviewRead
  | .markLaunched .. | .markLaunchFailed .. | .setDispatchPayload .. | .updateCurrentAttempt .. =>
    isTrue trivial

end SpanWorld

/-- `started_at` after the reset of a re-run: moved on by what was waited. -/
def shiftedStart (startedAt endedAt : Option Int) (now : Int) : Option Int :=
  startedAt.map fun started => endedAt.elim started fun ended => started + max (now - ended) 0

/-- What a step other than a granted claim does to the columns of the span. -/
inductive SpanChange (op : JobOp) (now : Int) (row row' : SimulationJob) : Prop
  | same (started : row'.startedAt = row.startedAt) (ended : row'.endedAt = row.endedAt)
      (status : row'.status = row.status ∨ row.status.InFlight ∧ row'.status = .pending)
  | unsuccessful (started : row'.startedAt = row.startedAt) (notPutBack : op.PutsBack = false)
      (status : row'.status = .failed ∨ row'.status = .cancelled)
  | closed (started : row'.startedAt = row.startedAt) (ended : row'.endedAt = some now)
      (notPutBack : op.PutsBack = false) (before : row.status.InFlight)
      (status : row'.status = .pendingReview ∨
        row'.status = .succeeded ∧ row.status = .running)
  | putBack (started : row'.startedAt = row.startedAt) (ended : row'.endedAt = some now)
      (compensates : op.PutsBack = true) (before : row.status = .pending)
      (status : row'.status = .pendingReview)
  | reset (before : row.status = .pendingReview)
      (started : row'.startedAt = shiftedStart row.startedAt row.endedAt now)
      (after : row'.status = .pending)

theorem SpanChange.refl {op : JobOp} {now : Int} {row : SimulationJob} :
    SpanChange op now row row :=
  .same rfl rfl (.inl rfl)

namespace SpanWorld

variable {cfg : Config} {w w' : SpanWorld} {op : JobOp}

theorem inFlight_iff {s : JobStatus} :
    s.InFlight ↔ s = .pending ∨ s = .running ∨ s = .queued := by
  simp [JobStatus.InFlight, activeStates]

theorem startedAt_resetForReviewRerun {row : SimulationJob} {startedAt endedAt : Option Int}
    {now : Int} (pending : row.status = .pending) (h : row.startedAt = startedAt) :
    (resetForReviewRerun row startedAt endedAt now).startedAt =
      shiftedStart startedAt endedAt now := by
  simp only [resetForReviewRerun, pending, if_true, reviewRerunReset, shiftedStart]
  cases startedAt with
  | none => exact h
  | some started =>
    cases endedAt with
    | none => exact h
    | some ended =>
      by_cases hwaited : 0 < now - ended
      · simp only [hwaited, if_true, Option.map_some, Option.elim_some]
        rw [Int.max_eq_left (by omega)]
      · simp only [hwaited, if_false, Option.map_some, Option.elim_some, h]
        rw [Int.max_eq_right (by omega), Int.add_zero]

theorem endedAt_endedRow (req : FinalizeRequest) (r : TerminalFinalize.Reviewed)
    (row : SimulationJob) (now : Int)
    (h : r.intendedStatus = .pendingReview ∨ r.intendedStatus = .succeeded) :
    (TerminalFinalize.endedRow req r row now).endedAt = some now := by
  unfold TerminalFinalize.endedRow
  obtain h | h := h <;> simp only [h, timestampsFor, setFinalResult] <;> split <;> rfl

/-! ## Each step is one of the changes -/

theorem change_of_finalize {price : Metering.Pricing} {req : FinalizeRequest} {env : FinalizeEnv}
    {now : Int} {db : JobStore}
    (timely : db.row.status = .pendingReview → req.intendedStatus ≠ .succeeded) :
    SpanChange (.finalize req env) now db.row
      (TerminalFinalize.finalizeTerminalAtomic price req env now db).2.row := by
  obtain ⟨hdb, -⟩ | ⟨-, hsrc, heq⟩ := TerminalFinalize.finalize_cases price req env now db
  · rw [hdb]
    exact .refl
  rw [heq]
  simp only [TerminalFinalize.won]
  have hintended := TerminalFinalize.review_intended db.parks req env
  have hmem := req.intended_mem
  generalize TerminalFinalize.review db.parks req env = r at *
  simp only [List.mem_cons, List.not_mem_nil, or_false] at hmem
  have hstarted := @RowStep.startedAt_endedRow now db.row req r
  rw [if_neg (by grind)] at hstarted
  have hstatus := @RowStep.status_endedRow now db.row req r
  by_cases hfailed : r.intendedStatus = .failed
  · exact .unsuccessful hstarted rfl (.inl (hstatus.trans hfailed))
  have hto : r.intendedStatus = .pendingReview ∨ r.intendedStatus = .succeeded := by grind
  have hended := endedAt_endedRow req r db.row now hto
  obtain hpark | hsuccess := hto
  · refine .closed hstarted hended rfl ?_ (.inl (hstatus.trans hpark))
    simp only [hpark, legalSources, List.mem_cons, List.not_mem_nil, or_false] at hsrc
    exact inFlight_iff.mpr (by tauto)
  · simp only [hsuccess, legalSources, List.mem_cons, List.not_mem_nil, or_false] at hsrc
    have hrunning := hsrc.resolve_right fun hparked => timely hparked (by grind)
    exact .closed hstarted hended rfl (inFlight_iff.mpr (.inr (.inl hrunning)))
      (.inr ⟨hstatus.trans hsuccess, hrunning⟩)

theorem change_of_compensate (park : Nat) (now : Int) (db : JobStore) :
    SpanChange (.compensate park) now db.row (RepairReview.compensate park now db).row := by
  unfold RepairReview.compensate
  split
  · rename_i h
    simp only [transition, Option.getD_some, List.cons_ne_nil, if_false, Except.ok.injEq] at h
    obtain ⟨hsrc, rfl⟩ := compareAndSet_applied.mp h
    exact .putBack rfl rfl rfl (by simpa using hsrc) rfl
  · exact .refl

theorem change_of_runReview {i : Nat} {job : SimulationJob} {payload : DispatchPayload} {now : Int}
    {db db' : JobStore} (h : RepairReview.runReview job payload now db = some db')
    (timely : job.status = db.row.status ∧ job.startedAt = db.row.startedAt ∧
      job.endedAt = db.row.endedAt) :
    SpanChange (.runReview i payload) now db.row db'.row := by
  obtain ⟨hstatus, hstarted, hended⟩ := timely
  simp only [RepairReview.runReview, transition_default] at h
  split at h
  · cases h
  · rename_i hpark
    have hparked : db.row.status = .pendingReview := by
      rw [← hstatus]
      by_contra hne
      simp [hne] at hpark
    split at h
    · rename_i hcas
      obtain ⟨-, rfl⟩ := compareAndSet_applied.mp (Except.ok.inj hcas)
      cases h
      rw [hstarted, hended]
      refine .reset hparked ?_ ?_
      · exact startedAt_resetForReviewRerun rfl rfl
      · obtain ⟨startedAt, hreset⟩ := reviewRerunReset_eq
          (timestampsFor db.row .pending now) db.row.startedAt db.row.endedAt now
        rw [setDispatchPayload, resetForReviewRerun, if_pos timestampsFor_status, hreset]
        rfl
    · cases h

/-- The changes other than those of a finalize, a compensation and a re-run. -/
theorem change_of_rowStep {settings : Settings} {now : Int} {row row' : SimulationJob} {ends : Bool}
    (h : RowStep settings now op row ends row') (called : Called op)
    (hop : op.MovesSpan = false) : SpanChange op now row row' := by
  have hback : op.PutsBack = false := by
    cases op <;> first | rfl | cases hop
  cases h with
  | bookkeeping lease record started => exact .same started record.endedAt (.inl record.status)
  | extended target =>
    obtain ⟨deadline, updatedAt, heq, -⟩ := extendDeadline_eq row target now
    rw [heq]
    exact .same rfl rfl (.inl rfl)
  | beaten target held =>
    obtain ⟨deadline, updatedAt, heq, -⟩ := extendDeadline_eq row target now
    rw [heq]
    exact .same rfl rfl (.inl rfl)
  | withdrawn | confirmed => exact .same rfl rfl (.inl rfl)
  | handedBack running =>
    exact .same rfl rfl (.inr ⟨inFlight_iff.mpr (.inr (.inl running)), rfl⟩)
  | rerun sel since stalled eligible status lease =>
    obtain ⟨hwas, -⟩ := Cleanup.status_of_rerunEligible eligible
    rw [Cleanup.rerunWrite, if_pos ⟨status, lease⟩]
    refine .same rfl rfl (.inr ⟨?_, rfl⟩)
    rw [inFlight_iff, status]
    tauto
  | requeued bare source waits =>
    subst bare
    obtain rfl | rfl := waits <;> cases called
  | moved target source leaves status lease started dispatch named =>
    have hfailed : target = .failed ∨ target = .cancelled := by
      obtain hfailed | hmoves := named
      · exact .inl hfailed
      cases op with
      | transition own =>
        obtain rfl : own = target := hmoves
        simpa [Called] using called
      | finalize | compensate => cases hop
      | _ => exact hmoves.elim
    refine .unsuccessful ?_ hback (by rwa [status])
    rw [started, if_neg]
    obtain rfl | rfl := hfailed <;> decide
  | cancelled reason live =>
    refine .unsuccessful ?_ hback (.inr rfl)
    simp only [JobCancel.cancelledRow, evictOwner_row, timestampsFor]
    split <;> rfl
  | reviewRerun startedAt endedAt payload source reviewed =>
    obtain ⟨i, rfl⟩ := reviewed
    cases hop

/-- A step grants a claim, or makes one of the changes. -/
theorem change_of_step (hsel : w.job.SelectionsSound cfg.settings) (timely : w.Timely op)
    (h : step cfg w op = some w') :
    w'.watch = w.watch.after op w.job w'.job ∧ w.job.clock ≤ w'.job.clock ∧
      w'.job.SelectionsSound cfg.settings ∧
      ((∃ own, Granted cfg.settings w.job w'.job own) ∨
        w'.job.granted = w.job.granted ∧
          SpanChange op w.job.clock w.job.row w'.job.row) := by
  unfold step at h
  split at h
  case isFalse => cases h
  rename_i called
  obtain ⟨job, hjob, rfl⟩ := Option.map_eq_some_iff.mp h
  refine ⟨rfl, JobWorld.step_clock hjob, JobWorld.selectionsSound_step hsel hjob, ?_⟩
  obtain hgranted | ⟨hgranted, author, -, hrow⟩ := JobWorld.step_cases hsel hjob
  · exact .inl hgranted
  refine .inr ⟨hgranted, ?_⟩
  cases op with
  | finalize req env =>
    cases hjob
    exact change_of_finalize timely
  | compensate park =>
    cases hjob
    exact change_of_compensate park w.job.clock w.job.db
  | runReview i payload =>
    obtain ⟨read, hread, hrun⟩ := Option.bind_eq_some_iff.mp hjob
    obtain ⟨db, hdb, rfl⟩ := Option.map_eq_some_iff.mp hrun
    exact change_of_runReview hdb (timely read hread)
  | _ => exact change_of_rowStep hrow called rfl

/-! ## The row's span is what the stopwatch shows -/

/-- In flight, the span up to the start of the open one is what is closed; parked or succeeded, the
whole span is. -/
structure Kept (settings : Settings) (w : SpanWorld) : Prop where
  selections : w.job.SelectionsSound settings
  unclaimed : w.job.granted = [] → w.job.row.startedAt = none ∧ w.watch = ⟨0, none⟩ ∧
    w.job.row.status ≠ .running ∧ w.job.row.status ≠ .succeeded
  flying : w.job.granted ≠ [] → w.job.row.status.InFlight →
    ∃ started ∈ w.job.row.startedAt, ∃ since ∈ w.watch.since, since - started = w.watch.closed
  parked : w.job.granted ≠ [] → w.job.row.status = .pendingReview →
    w.watch.since = none ∧ ∃ started ∈ w.job.row.startedAt, ∃ ended ∈ w.job.row.endedAt,
      ended ≤ w.job.clock ∧ ended - started = w.watch.closed
  succeeded : w.job.row.status = .succeeded →
    w.watch.since = none ∧ ∃ started ∈ w.job.row.startedAt, ∃ ended ∈ w.job.row.endedAt,
      ended - started = w.watch.closed

theorem not_inFlight_of_pendingReview {s : JobStatus} (h : s = .pendingReview) : ¬ s.InFlight := by
  rw [h]
  decide

theorem not_inFlight_of_succeeded {s : JobStatus} (h : s = .succeeded) : ¬ s.InFlight := by
  rw [h]
  decide

theorem kept_claimed {own : ExecutionOwnership} (hk : Kept cfg.settings w)
    (hwatch : w'.watch = w.watch.after op w.job w'.job)
    (hsel : w'.job.SelectionsSound cfg.settings)
    (h : Granted cfg.settings w.job w'.job own) : Kept cfg.settings w' := by
  obtain ⟨execution, hrow⟩ := h.row
  have hbefore : w.job.row.status.InFlight := by
    rw [inFlight_iff]
    exact h.claimable.elim .inl fun hr => .inr (.inl hr)
  have hrunning : w'.job.row.status = .running := by rw [hrow]; rfl
  have hafter : w'.job.row.status.InFlight := inFlight_iff.mpr (.inr (.inl hrunning))
  have hstarted : w'.job.row.startedAt = some (w.job.row.startedAt.getD w.job.clock) := by
    rw [hrow]
    rfl
  have hne : w'.job.granted ≠ [] := by simp [h.granted]
  simp only [Stopwatch.after, hbefore, hafter, if_true, hne, ne_eq, not_false_eq_true,
    and_true] at hwatch
  refine ⟨hsel, fun hnone => absurd hnone hne, fun _ _ => ?_, fun _ hp => ?_, fun hs => ?_⟩
  · by_cases hfirst : w.job.granted = []
    · obtain ⟨hnone, hzero, -⟩ := hk.unclaimed hfirst
      rw [if_pos hfirst, hzero] at hwatch
      exact ⟨w.job.clock, by simp [hstarted, hnone], w.job.clock, by simp [hwatch],
        by simp [hwatch]⟩
    · obtain ⟨started, hs, since, hsince, heq⟩ := hk.flying hfirst hbefore
      rw [if_neg hfirst] at hwatch
      rw [hwatch]
      exact ⟨started, by simp [hstarted, Option.mem_def.mp hs], since, hsince, heq⟩
  · rw [hrunning] at hp
    cases hp
  · rw [hrunning] at hs
    cases hs

theorem kept_change (hk : Kept cfg.settings w)
    (hwatch : w'.watch = w.watch.after op w.job w'.job) (hclock : w.job.clock ≤ w'.job.clock)
    (hsel : w'.job.SelectionsSound cfg.settings) (hgranted : w'.job.granted = w.job.granted)
    (timely : op.PutsBack = true → w.job.row.status = .pending →
      ∀ since ∈ w.watch.since, since = w.job.clock)
    (h : SpanChange op w.job.clock w.job.row w'.job.row) : Kept cfg.settings w' := by
  have hunclaimed : w'.job.granted = [] → w'.job.row.startedAt = none ∧ w'.watch = ⟨0, none⟩ ∧
      w'.job.row.status ≠ .running ∧ w'.job.row.status ≠ .succeeded := by
    intro hnone
    rw [hgranted] at hnone
    obtain ⟨hstarted, hzero, hnotRun, hnotDone⟩ := hk.unclaimed hnone
    refine ⟨?_, ?_, ?_⟩
    · cases h with
      | reset before started after => rw [started, hstarted]; rfl
      | _ => simp_all
    · rw [hwatch, Stopwatch.after, hzero, hgranted, hnone]
      split <;> split <;> simp
    · cases h <;> grind
  have hwas : w'.job.granted ≠ [] → w.job.granted ≠ [] := by rw [hgranted]; exact id
  cases h with
  | same started ended status =>
    have hflight : w'.job.row.status.InFlight ↔ w.job.row.status.InFlight := by
      obtain hs | ⟨hb, ha⟩ := status
      · rw [hs]
      · exact ⟨fun _ => hb, fun _ => inFlight_iff.mpr (.inl ha)⟩
    have hkept : w'.watch = w.watch := by
      rw [hwatch, Stopwatch.after, hgranted]
      simp only [hflight, and_not_self, if_false]
      split <;> rfl
    have hstatus : ¬ w'.job.row.status.InFlight → w.job.row.status = w'.job.row.status := by
      intro hnot
      obtain hs | ⟨-, ha⟩ := status
      · exact hs.symm
      · exact absurd (inFlight_iff.mpr (.inl ha)) hnot
    refine ⟨hsel, hunclaimed, fun hg hf => ?_, fun hg hp => ?_, fun hs => ?_⟩
    · rw [started, hkept]
      exact hk.flying (hwas hg) (hflight.mp hf)
    · rw [started, ended, hkept]
      obtain ⟨hsince, s, hs, e, he, hle, heq⟩ := hk.parked (hwas hg)
        ((hstatus (not_inFlight_of_pendingReview hp)).trans hp)
      exact ⟨hsince, s, hs, e, he, Int.le_trans hle hclock, heq⟩
    · rw [started, ended, hkept]
      exact hk.succeeded ((hstatus (not_inFlight_of_succeeded hs)).trans hs)
  | unsuccessful started notPutBack status =>
    refine ⟨hsel, hunclaimed, fun _ hf => ?_, fun _ hp => ?_, fun hs => ?_⟩
    · rw [inFlight_iff] at hf
      grind
    · grind
    · grind
  | closed started ended notPutBack before status =>
    have hover : ¬ w'.job.row.status.InFlight := by
      rw [inFlight_iff]
      grind
    simp only [Stopwatch.after, before, hover, notPutBack, if_true, if_false,
      Bool.false_eq_true] at hwatch
    have hspan : w'.job.granted ≠ [] → w'.watch.since = none ∧
        ∃ s ∈ w'.job.row.startedAt, ∃ e ∈ w'.job.row.endedAt,
          e ≤ w'.job.clock ∧ e - s = w'.watch.closed := by
      intro hg
      obtain ⟨s, hs, since, hsince, heq⟩ := hk.flying (hwas hg) before
      rw [hwatch, started, ended]
      refine ⟨rfl, s, hs, _, rfl, hclock, ?_⟩
      simp only [Option.mem_def.mp hsince, Option.elim_some]
      omega
    refine ⟨hsel, hunclaimed, fun _ hf => absurd hf hover, fun hg _ => hspan hg, fun hs => ?_⟩
    have hg : w'.job.granted ≠ [] := fun hnone => (hunclaimed hnone).2.2.2 hs
    obtain ⟨hsince, s, hs, e, he, -, heq⟩ := hspan hg
    exact ⟨hsince, s, hs, e, he, heq⟩
  | putBack started ended compensates before status =>
    have hover := not_inFlight_of_pendingReview status
    have hflying : w.job.row.status.InFlight := inFlight_iff.mpr (.inl before)
    simp only [Stopwatch.after, hflying, hover, compensates, if_true, if_false] at hwatch
    refine ⟨hsel, hunclaimed, fun _ hf => absurd hf hover, fun hg _ => ?_, fun hs => ?_⟩
    · obtain ⟨s, hs, since, hsince, heq⟩ := hk.flying (hwas hg) hflying
      -- the re-run was reset at this instant, so nothing of it is in the row's span
      obtain rfl := timely compensates before since hsince
      rw [hwatch, started, ended]
      exact ⟨rfl, s, hs, _, rfl, hclock, heq⟩
    · rw [status] at hs
      cases hs
  | reset before started after =>
    have hparked := not_inFlight_of_pendingReview before
    have hflying : w'.job.row.status.InFlight := inFlight_iff.mpr (.inl after)
    simp only [Stopwatch.after, hparked, hflying, if_true, if_false] at hwatch
    refine ⟨hsel, hunclaimed, fun hg _ => ?_, fun _ hp => ?_, fun hs => ?_⟩
    · obtain ⟨-, s, hs, e, he, hle, heq⟩ := hk.parked (hwas hg) before
      rw [hwatch, started, if_neg (hwas hg)]
      refine ⟨s + max (w.job.clock - e) 0, ?_, w.job.clock, rfl, ?_⟩
      · rw [Option.mem_def.mp hs, Option.mem_def.mp he]
        rfl
      · simp only
        omega
    · exact absurd hflying (not_inFlight_of_pendingReview hp)
    · exact absurd hflying (not_inFlight_of_succeeded hs)

theorem kept_step (hk : Kept cfg.settings w) (timely : w.Timely op) (h : step cfg w op = some w') :
    Kept cfg.settings w' := by
  obtain ⟨hwatch, hclock, hsel, ⟨own, hgranted⟩ | ⟨hgranted, hchange⟩⟩ :=
    change_of_step hk.selections timely h
  · exact kept_claimed hk hwatch hsel hgranted
  · refine kept_change hk hwatch hclock hsel hgranted ?_ hchange
    intro hback
    cases op with
    | compensate park => exact timely
    | _ => cases hback

theorem kept_created (id : JobId) (ownerId : String) (organizationId : Option Nat) (now : Int) :
    Kept cfg.settings (created id ownerId organizationId now) where
  selections := JobWorld.selectionsSound_created id ownerId organizationId now
  unclaimed _ := ⟨rfl, rfl, nofun, nofun⟩
  flying h := absurd rfl h
  parked h := absurd rfl h
  succeeded h := by cases h

/-- In a run whose re-runs are put back at the instant of their reset, whose re-runs were read from
the row they reset and whose successes come out of flight, the span of a job that has succeeded is what
its stopwatch shows: the spans from the first claim to a park and from a re-run to the next park or
end, and nothing of a park. -/
theorem billed_span_eq_closed {id : JobId} {ownerId : String} {organizationId : Option Nat}
    {now : Int} {run : List JobOp}
    (timely : (machine cfg).Meets Timely (created id ownerId organizationId now) run)
    (h : (machine cfg).exec (created id ownerId organizationId now) run = some w)
    (succeeded : w.job.row.status = .succeeded) :
    w.watch.since = none ∧ ∃ started ended, w.job.row.startedAt = some started ∧
      w.job.row.endedAt = some ended ∧ ended - started = w.watch.closed := by
  have hk : Kept cfg.settings w := Transition.Machine.exec_invariant
    (fun _ _ _ hs ht hstep => kept_step hs ht hstep) (kept_created id ownerId organizationId now)
    timely h
  obtain ⟨hsince, started, hs, ended, he, heq⟩ := hk.succeeded succeeded
  exact ⟨hsince, started, ended, hs, he, heq⟩

/-- The request of a run that parked. -/
def parkedRequest (own : ExecutionOwnership) : FinalizeRequest where
  ownership := some own
  intendedStatus := .pendingReview
  failedReason := none
  finalResult := FinalResult.reapedResult .gateFailed 7 "ada" 1 3 0
  closingMessage := "parked"
  reviewPlan := some ⟨true⟩
  plainFailure := none
  intended_mem := FinalizeRequest.parked_mem
  parks_iff := FinalizeRequest.parked_parks_iff

/-- A job runs for ten and is parked for a hundred. Its first re-run is put back `late` after its
reset, its second one runs for five and delivers. -/
def putBackRun (late : Nat) : List JobOp :=
  let own (generation : Nat) (token : Token) : ExecutionOwnership :=
    ⟨generation, token, "celery", none, generation, 900⟩
  let env : FinalizeEnv := ⟨false, false, ⟨false, 100⟩⟩
  [.claimExecution 1 "celery" none true, .tick 10, .finalize (parkedRequest (own 1 1)) env,
    .tick 100, .reviewRead, .runReview 0 [], .tick late, .compensate 0, .tick 50, .reviewRead,
    .runReview 0 [], .claimExecution 2 "celery" none true, .tick 5,
    .finalize (JobWorld.deliveredRequest (own 2 2)) env]

theorem billed_span_putBackRun :
    ∃ w, (machine .default).exec (created 7 "ada" (some 3) 0) (putBackRun 0) = some w ∧
      w.watch.closed = 15 ∧ ∃ started ended, w.job.row.startedAt = some started ∧
        w.job.row.endedAt = some ended ∧ ended - started = w.watch.closed := by
  have timely : (machine .default).Meets Timely (created 7 "ada" (some 3) 0) (putBackRun 0) := by
    decide +kernel
  exact ⟨_, rfl, by decide +kernel, (billed_span_eq_closed timely rfl (by decide +kernel)).2⟩

/-- A re-run that is put back seven after its reset leaves those seven in the billed span. -/
theorem putBack_is_billed :
    ∃ w, (machine .default).exec (created 7 "ada" (some 3) 0) (putBackRun 7) = some w ∧
      w.job.row.status = .succeeded ∧ w.watch = ⟨15, none⟩ ∧
      w.job.row.startedAt = some 150 ∧ w.job.row.endedAt = some 172 :=
  ⟨_, rfl, by decide +kernel, by decide +kernel, by decide +kernel, by decide +kernel⟩

end SpanWorld

end MeshPipeline
