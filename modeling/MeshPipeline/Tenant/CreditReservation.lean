import MeshPipeline.Application.SpendGate
import MeshPipeline.Job.Endings
import MeshPipeline.Library.Reserve

/-!
# The jobs and the balance of one tenant

Every job of a tenant takes its steps beside the others, and an admission is cut at each of its
statements: the lock, the count of the jobs in flight, the balance, and the commit with the new job.
-/

namespace MeshPipeline

/-- An admission under its lock, by what it has read. -/
inductive Admission
  | locked
  | counted (running : Nat)
  /-- The check passed; the job is created when the transaction commits. -/
  | admitted
  deriving DecidableEq, Repr

structure TenantSettings where
  config : Config
  billing : BillingSettings
  /-- `CREDIT_GATE_ENABLED`. -/
  gateEnabled : Bool

structure TenantWorld where
  organization : Organization
  jobs : List JobWorld
  /-- The grants in the tenant's ledger. -/
  grants : List Nat
  admission : Option Admission

inductive TenantOp
  | job (i : Nat) (op : JobOp)
  | lockAdmission
  | countActive
  | readBalance
  | createJob (id : JobId) (ownerId : String) (now : Int)
  /-- The transaction of an admission ends without a job. -/
  | rollback
  | grant (amount : Nat)

/-- The job is in flight, as `count_active_for_organization` counts it. -/
def JobWorld.inFlight (j : JobWorld) : Bool := decide (j.row.status ∈ activeStates)

/-- What a job's ledger entries sum to. -/
def JobWorld.credits (j : JobWorld) : Int := (j.db.ledger.map (·.amount)).sum

namespace TenantWorld

def running (w : TenantWorld) : Nat := w.jobs.countP JobWorld.inFlight

/-- `credit_service.balance`: the sum of the tenant's ledger. -/
def balance (w : TenantWorld) : Int := (w.grants.sum : Nat) + (w.jobs.map JobWorld.credits).sum

/-- The step as this tenant's charge sees its account. -/
def charged (cfg : TenantSettings) (w : TenantWorld) : JobOp → JobOp
  | .finalize req env =>
    .finalize req { env with account := SpendGate.account cfg.billing w.organization w.balance }
  | op => op

def setJob (w : TenantWorld) (i : Nat) (j : JobWorld) : TenantWorld :=
  { w with jobs := w.jobs.set i j }

/-- One step. An admission that needs no balance passes at its lock; one that is refused is rolled
back. -/
def step (cfg : TenantSettings) (w : TenantWorld) : TenantOp → Option TenantWorld
  | .job i op =>
    (w.jobs[i]?).bind fun j => (JobWorld.step cfg.config j (w.charged cfg op)).map (w.setJob i)
  | .lockAdmission =>
    match w.admission with
    | some _ => none
    | none =>
      if SpendGate.payingPlan w.organization ≠ "" ∨ cfg.gateEnabled = false then
        some { w with admission := some .admitted }
      else some { w with admission := some .locked }
  | .countActive =>
    match w.admission with
    | some .locked => some { w with admission := some (.counted w.running) }
    | _ => none
  | .readBalance =>
    match w.admission with
    | some (.counted running) =>
      let decision := SpendGate.admitJob cfg.gateEnabled cfg.config.pricing (some w.organization)
        true running w.balance
      some { w with admission := if decision.isOk then some .admitted else none }
    | _ => none
  | .createJob id ownerId now =>
    match w.admission with
    | some .admitted =>
      some { w with
        admission := none
        jobs := w.jobs ++ [JobWorld.created id ownerId (some w.organization.id) now] }
    | _ => none
  | .rollback => if w.admission.isSome then some { w with admission := none } else none
  | .grant amount => some { w with grants := amount :: w.grants }

def machine (cfg : TenantSettings) : Transition.Machine TenantWorld TenantOp := ⟨step cfg⟩

/-- A tenant before its first job. -/
def start (organization : Organization) (granted : Nat) : TenantWorld :=
  ⟨organization, [], [granted], none⟩

end TenantWorld

end MeshPipeline

/-!
## Credit reservation

The gate writes no reservation: it counts the jobs in flight. So the balance covers what it was read
against as long as a job comes back into flight only where the balance covers it again.
-/

namespace MeshPipeline

open LeaseRepository JobRepository SpendGate

namespace JobWorld

variable {cfg : Config} {j j' : JobWorld} {op : JobOp}

/-! ## One step of one job -/

/-- A job comes into flight only from its review. -/
theorem inFlight_step (hsel : j.SelectionsSound cfg.settings) (h : step cfg j op = some j')
    (hflight : j'.inFlight) : j.inFlight ∨ j.row.status = .pendingReview := by
  by_cases ht : j.row.status.Terminal
  · have hsame := (step_record hsel h ht).status
    have hactive : j'.row.status ∈ activeStates := of_decide_eq_true hflight
    exact absurd (hsame ▸ hactive) (terminal_not_active ht)
  · simp only [inFlight, decide_eq_true_eq]
    revert ht
    cases j.row.status <;> decide

/-- The charge of a job that nothing bills beyond its balance is its price, or fails. -/
theorem sum_chargeForJob {price : Metering.Pricing} {account : Metering.Account}
    {row : SimulationJob} (hbills : account.billsOverage = false) :
    ((Metering.chargeForJob price account row).map (·.amount)).sum = 0 ∨
      row.status = .succeeded ∧ ((Metering.chargeForJob price account row).map (·.amount)).sum =
        -Metering.creditsForJob price row.startedAt row.endedAt := by
  unfold Metering.chargeForJob
  split
  · exact .inl rfl
  · dsimp only
    split
    · exact .inl rfl
    · next hcharged =>
      refine .inr ⟨by_contra fun hs => hcharged (.inl hs), ?_⟩
      simp [Metering.overageOf, hbills]

/-- A step leaves the ledger alone, or it charges a job that just succeeded its price. -/
theorem credits_step (hbills : ∀ req env, op = .finalize req env → env.account.billsOverage = false)
    (h : step cfg j op = some j') :
    j'.credits = j.credits ∨
      j.row.status ∈ legalSources .succeeded ∧ j'.row.status = .succeeded ∧ j'.credits =
        j.credits - Metering.creditsForJob cfg.pricing j'.row.startedAt j'.row.endedAt := by
  obtain hsilent | ⟨req, env, rfl, rfl⟩ | ⟨owner, reason, message, rfl⟩ := step_accounts h
  · exact .inl (by rw [credits, credits, hsilent.ledger])
  · obtain ⟨hdb, -⟩ | ⟨-, hsource, heq⟩ :=
      TerminalFinalize.finalize_cases cfg.pricing req env j.clock j.db
    · exact .inl (by simp [credits, put, hdb])
    · rw [heq]
      simp only [credits, put, TerminalFinalize.won]
      split
      · exact .inl rfl
      · unfold TerminalFinalize.chargeFailOpen
        split
        · exact .inl rfl
        · rw [List.map_append, List.sum_append]
          obtain hnone | ⟨hstatus, hsum⟩ := sum_chargeForJob (hbills req env rfl)
          · exact .inl (by rw [hnone, Int.add_zero])
          · refine .inr ⟨?_, hstatus, by rw [hsum, Int.sub_eq_add_neg]; rfl⟩
            rw [RowStep.status_endedRow] at hstatus
            exact hstatus ▸ hsource
  · obtain ⟨hdb, -⟩ | ⟨-, -, -, hledger, -⟩ :=
      JobCancel.cancelJob_cases owner reason message j.clock j.db
    · exact .inl (by simp [credits, put, hdb])
    · exact .inl (by simp [credits, put, hledger])

end JobWorld

namespace TenantWorld

/-! ## The reserve -/

/-- The tenant's balance, and the jobs it is held back for: those in flight, and that of an
admission that has passed. -/
def reserve (w : TenantWorld) : Reserve.Account :=
  ⟨w.balance, w.running + if w.admission = some .admitted then 1 else 0⟩

/-- The step takes a parked job out of its review, to run again or to succeed at once. -/
def LeavesReview (cfg : TenantSettings) (w : TenantWorld) : TenantOp → Prop
  | .job i op => ∃ j ∈ w.jobs[i]?, ∃ j' ∈ JobWorld.step cfg.config j (w.charged cfg op),
      j.row.status = .pendingReview ∧ (j'.inFlight ∨ j'.row.status = .succeeded)
  | _ => False

/-- The balance covers one more job, and no admission has counted the jobs in flight without a
place for it. -/
structure Spares (cfg : TenantSettings) (w : TenantWorld) : Prop where
  spare : Reserve.Spare (perJob cfg.config.pricing) w.reserve
  counted : ∀ n, w.admission = some (.counted n) → w.running < n

/-- A job leaves its review only where the balance covers it. -/
def RerunsCovered (cfg : TenantSettings) (w : TenantWorld) (op : TenantOp) : Prop :=
  w.LeavesReview cfg op → w.Spares cfg

/-- A job that has succeeded costs no more than the reserved price. -/
def CostsReserved (cfg : TenantSettings) (w : TenantWorld) (op : TenantOp) : Prop :=
  ∀ v ∈ w.step cfg op, ∀ j ∈ v.jobs, j.row.status = .succeeded →
    Metering.creditsForJob cfg.config.pricing j.row.startedAt j.row.endedAt ≤
      perJob cfg.config.pricing

theorem spares_iff (cfg : TenantSettings) (w : TenantWorld) :
    w.Spares cfg ↔ Reserve.Spare (perJob cfg.config.pricing) w.reserve ∧
      match w.admission with
      | some (.counted n) => w.running < n
      | _ => True := by
  constructor
  · rintro ⟨hspare, hcounted⟩
    refine ⟨hspare, ?_⟩
    split
    · next n hadmission => exact hcounted n hadmission
    · trivial
  · rintro ⟨hspare, hcounted⟩
    exact ⟨hspare, fun n hadmission => by simpa [hadmission] using hcounted⟩

instance (cfg : TenantSettings) (w : TenantWorld) : Decidable (w.Spares cfg) :=
  have : Decidable (match w.admission with
      | some (.counted n) => w.running < n
      | _ => True) :=
    match w.admission with
    | some (.counted n) => inferInstanceAs (Decidable (w.running < n))
    | some .locked | some .admitted | none => isTrue trivial
  have : Decidable (Reserve.Spare (perJob cfg.config.pricing) w.reserve) :=
    inferInstanceAs (Decidable (_ ≤ _))
  decidable_of_iff _ (spares_iff cfg w).symm

instance (cfg : TenantSettings) (w : TenantWorld) (op : TenantOp) :
    Decidable (w.LeavesReview cfg op) :=
  match op with
  | .job i op => inferInstanceAs (Decidable (∃ j ∈ w.jobs[i]?,
      ∃ j' ∈ JobWorld.step cfg.config j (w.charged cfg op),
        j.row.status = .pendingReview ∧ (j'.inFlight ∨ j'.row.status = .succeeded)))
  | .lockAdmission | .countActive | .readBalance | .createJob _ _ _ | .rollback | .grant _ =>
    isFalse id

instance (cfg : TenantSettings) (w : TenantWorld) (op : TenantOp) :
    Decidable (w.RerunsCovered cfg op) := inferInstanceAs (Decidable (_ → _))

instance (cfg : TenantSettings) (w : TenantWorld) (op : TenantOp) :
    Decidable (w.CostsReserved cfg op) :=
  inferInstanceAs (Decidable (∀ v ∈ w.step cfg op, ∀ j ∈ v.jobs, j.row.status = .succeeded →
    Metering.creditsForJob cfg.config.pricing j.row.startedAt j.row.endedAt ≤
      perJob cfg.config.pricing))

/-- What every run keeps while reruns are covered. -/
structure Reserved (cfg : TenantSettings) (w : TenantWorld) : Prop where
  unbilled : payingPlan w.organization = ""
  selections : ∀ j ∈ w.jobs, j.SelectionsSound cfg.config.settings
  covered : Reserve.Covered (perJob cfg.config.pricing) w.reserve
  counted : ∀ n, w.admission = some (.counted n) → w.running ≤ n

variable {cfg : TenantSettings} {w v : TenantWorld} {op : TenantOp} {i : Nat} {j j' : JobWorld}

/-- The jobs around one that takes a step. -/
theorem jobs_setJob (hj : w.jobs[i]? = some j) (j' : JobWorld) :
    ∃ xs ys, w.jobs = xs ++ j :: ys ∧ (w.setJob i j').jobs = xs ++ j' :: ys := by
  obtain ⟨hi, rfl⟩ := List.getElem?_eq_some_iff.mp hj
  obtain ⟨xs, ys, hjobs, -, hset⟩ := List.exists_of_set hi
  exact ⟨xs, ys, hjobs, hset⟩

theorem running_setJob (hj : w.jobs[i]? = some j) (j' : JobWorld) :
    (w.setJob i j').running + j.inFlight.toNat = w.running + j'.inFlight.toNat := by
  obtain ⟨xs, ys, hjobs, hset⟩ := jobs_setJob hj j'
  simp only [running, hjobs, hset, List.countP_append, List.countP_cons]
  cases j.inFlight <;> cases j'.inFlight <;> simp <;> omega

theorem balance_setJob (hj : w.jobs[i]? = some j) (j' : JobWorld) :
    (w.setJob i j').balance = w.balance - j.credits + j'.credits := by
  obtain ⟨xs, ys, hjobs, hset⟩ := jobs_setJob hj j'
  have hgrants : (w.setJob i j').grants = w.grants := rfl
  simp only [balance, hgrants, hjobs, hset, List.map_append, List.map_cons, List.sum_append,
    List.sum_cons]
  omega

theorem billsOverage_charged (hplan : payingPlan w.organization = "") {jobOp : JobOp}
    (req : FinalizeRequest) (env : FinalizeEnv) (h : w.charged cfg jobOp = .finalize req env) :
    env.account.billsOverage = false := by
  unfold charged at h
  split at h
  · cases h
    exact billsOverage_account hplan cfg.billing w.balance
  · next hother => exact absurd h (hother req env)

/-- What one job's step does to the reserve. -/
theorem moves_job (h : w.Reserved cfg) {jobOp : JobOp} (hj : w.jobs[i]? = some j)
    (hstep : JobWorld.step cfg.config j (w.charged cfg jobOp) = some j')
    (hspares : w.RerunsCovered cfg (.job i jobOp))
    (hcost : j'.row.status = .succeeded →
      Metering.creditsForJob cfg.config.pricing j'.row.startedAt j'.row.endedAt ≤
        perJob cfg.config.pricing) :
    Reserve.Moves (perJob cfg.config.pricing) w.reserve (w.setJob i j').reserve ∧
      ∀ n, w.admission = some (.counted n) → (w.setJob i j').running ≤ n := by
  have hmem : j ∈ w.jobs := List.mem_of_getElem? hj
  have hrunning := running_setJob hj j'
  have hbalance := balance_setJob hj j'
  have hadmission : (w.setJob i j').admission = w.admission := rfl
  have hleaves : j.row.status = .pendingReview → (j'.inFlight ∨ j'.row.status = .succeeded) →
      w.Spares cfg := fun hparked hback => hspares ⟨j, hj, j', hstep, hparked, hback⟩
  obtain hsame | ⟨hsource, hsucceeded, hpaid⟩ :=
    JobWorld.credits_step (billsOverage_charged h.unbilled) hstep
  · by_cases hback : j'.inFlight ∧ ¬ j.inFlight
    · obtain ⟨hflight, hout⟩ := hback
      have hparked := (JobWorld.inFlight_step (h.selections j hmem) hstep hflight).resolve_left hout
      have hs := hleaves hparked (.inl hflight)
      simp only [hflight, Bool.eq_false_iff.mpr hout, Bool.toNat_true, Bool.toNat_false] at hrunning
      refine ⟨.held hs.spare ?_ ?_, fun n hn => ?_⟩
      · simp only [reserve, hadmission]
        omega
      · simp only [reserve]
        omega
      · have hlt := hs.counted n hn
        omega
    · have hle : (w.setJob i j').running ≤ w.running := by
        cases hflight : j'.inFlight <;> cases hin : j.inFlight <;>
          simp [hflight, hin] at hback hrunning <;> omega
      refine ⟨.eased ?_ ?_, fun n hn => hle.trans (h.counted n hn)⟩
      · simp only [reserve, hadmission]
        omega
      · simp only [reserve]
        omega
  · have hout : j'.inFlight = false := by simp [JobWorld.inFlight, hsucceeded, activeStates]
    have hprice := hcost hsucceeded
    simp only [hout, Bool.toNat_false] at hrunning
    refine ⟨?_, fun n hn => ?_⟩
    · simp only [legalSources, List.mem_cons, List.not_mem_nil, or_false] at hsource
      obtain hrun | hparked := hsource
      · have hin : j.inFlight = true := by simp [JobWorld.inFlight, hrun, activeStates]
        simp only [hin, Bool.toNat_true] at hrunning
        refine .settled ?_ ?_
        · simp only [reserve, hadmission]
          omega
        · simp only [reserve]
          omega
      · refine .paid (hleaves hparked (.inr hsucceeded)).spare ?_ ?_
        · simp only [reserve, hadmission]
          omega
        · simp only [reserve]
          omega
    · have hle := h.counted n hn
      omega

/-- A step that leaves the jobs alone and moves the reserve keeps it. -/
theorem Reserved.of_moves (h : w.Reserved cfg) (horganization : v.organization = w.organization)
    (hselections : ∀ j ∈ v.jobs, j.SelectionsSound cfg.config.settings)
    (hmoves : Reserve.Moves (perJob cfg.config.pricing) w.reserve v.reserve)
    (hcounted : ∀ n, v.admission = some (.counted n) → v.running ≤ n) : v.Reserved cfg where
  unbilled := horganization ▸ h.unbilled
  selections := hselections
  covered := Reserve.covered_moves (perJob_pos _).le h.covered hmoves
  counted := hcounted

/-- The balance that an admission read covers its job: no job came into flight since it counted. -/
theorem spare_of_isOk (h : w.Reserved cfg) (hgate : cfg.gateEnabled = true) {n : Nat}
    (hadmission : w.admission = some (.counted n))
    (hok : (admitJob cfg.gateEnabled cfg.config.pricing (some w.organization) true n
      w.balance).isOk = true) : Reserve.Spare (perJob cfg.config.pricing) w.reserve := by
  rw [hgate, admitJob_isOk_iff h.unbilled] at hok
  have hle : ((w.running : Int) + 1) * perJob cfg.config.pricing ≤
      ((n : Int) + 1) * perJob cfg.config.pricing := by
    have hcounted := h.counted n hadmission
    have hpos := (perJob_pos cfg.config.pricing).le
    gcongr
  simp only [Reserve.Spare, reserve, hadmission]
  simp only [reduceCtorEq, Option.some.injEq, if_false, Nat.add_zero]
  linarith

theorem reserved_step (h : w.Reserved cfg) (hgate : cfg.gateEnabled = true)
    (hcosts : w.CostsReserved cfg op) (hspares : w.RerunsCovered cfg op)
    (hstep : w.step cfg op = some v) : v.Reserved cfg := by
  have hprices := hcosts v hstep
  cases op with
  | job i jobOp =>
    obtain ⟨j, hj, hmap⟩ := Option.bind_eq_some_iff.mp hstep
    obtain ⟨j', hj', rfl⟩ := Option.map_eq_some_iff.mp hmap
    obtain ⟨xs, ys, hjobs, hset⟩ := jobs_setJob hj j'
    obtain ⟨hmoves, hcounted⟩ := moves_job h hj hj' hspares (hprices j' (by simp [hset]))
    refine h.of_moves rfl (fun k hk => ?_) hmoves hcounted
    rw [hset, List.mem_append, List.mem_cons] at hk
    obtain hk | rfl | hk := hk
    · exact h.selections k (by simp [hjobs, hk])
    · exact JobWorld.selectionsSound_step (h.selections j (by simp [hjobs])) hj'
    · exact h.selections k (by simp [hjobs, hk])
  | lockAdmission =>
    simp only [step] at hstep
    split at hstep
    · cases hstep
    · next hnone =>
      rw [if_neg (by simp [h.unbilled, hgate])] at hstep
      cases hstep
      refine h.of_moves rfl h.selections (.eased ?_ ?_) (fun n hn => by cases hn)
      · simp [reserve, running]
      · exact Int.le_refl _
  | countActive =>
    simp only [step] at hstep
    split at hstep
    · next hlocked =>
      cases hstep
      refine h.of_moves rfl h.selections (.eased ?_ ?_) ?_
      · simp [reserve, running]
      · exact Int.le_refl _
      · intro n hn
        cases hn
        exact Nat.le_refl _
    · cases hstep
  | readBalance =>
    simp only [step] at hstep
    split at hstep
    · next n hadmission =>
      cases hstep
      split
      · next hok =>
        refine h.of_moves rfl h.selections (.held (spare_of_isOk h hgate hadmission hok) ?_ ?_)
          (fun m hm => by cases hm)
        · simp [reserve, running, hadmission]
        · exact Int.le_refl _
      · refine h.of_moves rfl h.selections (.eased ?_ ?_) (fun m hm => by cases hm)
        · simp [reserve, running]
        · exact Int.le_refl _
    · cases hstep
  | createJob id ownerId now =>
    simp only [step] at hstep
    split at hstep
    · next hadmission =>
      cases hstep
      refine h.of_moves rfl (fun k hk => ?_) (.eased ?_ ?_) (fun m hm => by cases hm)
      · obtain hk | hk := List.mem_append.mp hk
        · exact h.selections k hk
        · rw [List.mem_singleton.mp hk]
          exact JobWorld.selectionsSound_created id ownerId _ now
      · simp [reserve, running, hadmission, List.countP_append, JobWorld.inFlight,
          JobWorld.created, JobRepository.create, JobWorld.row, activeStates]
      · simp [reserve, balance, JobWorld.credits, JobWorld.created]
    · cases hstep
  | rollback =>
    simp only [step] at hstep
    split at hstep <;> cases hstep
    refine h.of_moves rfl h.selections (.eased ?_ ?_) (fun m hm => by cases hm)
    · simp [reserve, running]
    · exact Int.le_refl _
  | grant amount =>
    cases hstep
    refine h.of_moves rfl h.selections (.eased ?_ ?_) h.counted
    · simp [reserve, running]
    · simp [reserve, balance]

theorem reserved_start (organization : Organization) (granted : Nat)
    (hplan : payingPlan organization = "") : (start organization granted).Reserved cfg where
  unbilled := hplan
  selections j hj := by cases hj
  covered := by simp [Reserve.Covered, reserve, running, start, balance]
  counted n hn := by cases hn

/-- Where every job that leaves its review is covered, an unbilled tenant's balance is never
negative. -/
theorem credit_reservation (cfg : TenantSettings) (hgate : cfg.gateEnabled = true)
    (organization : Organization) (hplan : payingPlan organization = "") (granted : Nat)
    (ops : List TenantOp) (w : TenantWorld)
    (hcosts : (machine cfg).Meets (CostsReserved cfg) (start organization granted) ops)
    (hreruns : (machine cfg).Meets (RerunsCovered cfg) (start organization granted) ops)
    (h : (machine cfg).exec (start organization granted) ops = some w) : 0 ≤ w.balance := by
  have hreserved := Transition.Machine.exec_invariant (I := Reserved cfg)
    (P := fun w op => CostsReserved cfg w op ∧ RerunsCovered cfg w op)
    (fun u op v hu hmeets hv => reserved_step hu hgate hmeets.1 hmeets.2 hv)
    (reserved_start organization granted hplan)
    (Transition.Machine.meets_and.mpr ⟨hcosts, hreruns⟩) h
  exact hreserved.covered.balance_nonneg (perJob_pos _).le

/-- Jobs cost their base charge alone. -/
def flatRate : TenantSettings := ⟨⟨.default, ⟨10, 0⟩⟩, ⟨"", "", "", ""⟩, true⟩

/-- A tenant on its signup grant. -/
def unsubscribed : Organization := ⟨3, none, none, "", "", none⟩

def admits (id : JobId) : List TenantOp :=
  [.lockAdmission, .countActive, .readBalance, .createJob id "ada" 0]

def owned (generation : Nat) (token : Token) : ExecutionOwnership :=
  ⟨generation, token, "celery", none, generation, 900⟩

/-- The worker's claim and the ending it commits. -/
def runs (i : Nat) (token : Token) (req : FinalizeRequest) : List TenantOp :=
  [.job i (.claimExecution token "celery" none true),
    .job i (.finalize req ⟨false, false, ⟨false, 0⟩⟩)]

def delivery (id : JobId) (own : ExecutionOwnership) : FinalizeRequest where
  ownership := some own
  intendedStatus := .succeeded
  failedReason := none
  finalResult := FinalResult.reapedResult .gateFailed id "ada" 1 3 0
  closingMessage := "done"
  reviewPlan := none
  plainFailure := none
  intended_mem := FinalizeRequest.delivered_mem
  parks_iff := FinalizeRequest.delivered_parks_iff

def park (id : JobId) (own : ExecutionOwnership) : FinalizeRequest where
  ownership := some own
  intendedStatus := .pendingReview
  failedReason := none
  finalResult := FinalResult.reapedResult .gateFailed id "ada" 1 3 0
  closingMessage := "parked"
  reviewPlan := some ⟨true⟩
  plainFailure := none
  intended_mem := FinalizeRequest.parked_mem
  parks_iff := FinalizeRequest.parked_parks_iff

/-- A job is parked for review and run again. -/
def reviewedRun : List TenantOp :=
  admits 7 ++ runs 0 1 (park 7 (owned 1 1)) ++
    [.job 0 .reviewRead, .job 0 (.runReview 0 [])] ++ runs 0 2 (delivery 7 (owned 2 2))

theorem credit_reservation_reviewed :
    ∃ w, (machine flatRate).exec (start unsubscribed 30) reviewedRun = some w ∧ w.balance = 20 ∧
      0 ≤ w.balance :=
  ⟨_, rfl, by decide +kernel,
    credit_reservation flatRate rfl unsubscribed (by decide) 30 reviewedRun _
      (by decide +kernel) (by decide +kernel) rfl⟩

/-- The price of one job admits a second while the first is parked, and both are charged. -/
def parkedAside : List TenantOp :=
  admits 7 ++ runs 0 1 (park 7 (owned 1 1)) ++ admits 8 ++
    [.job 0 .reviewRead, .job 0 (.runReview 0 [])] ++ runs 0 2 (delivery 7 (owned 2 2)) ++
    runs 1 3 (delivery 8 (owned 1 3))

theorem balance_overdrawn_by_rerun :
    ∃ w, (machine flatRate).Meets (CostsReserved flatRate) (start unsubscribed 10) parkedAside ∧
      (machine flatRate).exec (start unsubscribed 10) parkedAside = some w ∧ w.balance = -10 :=
  ⟨_, by decide +kernel, rfl, by decide +kernel⟩

end TenantWorld

end MeshPipeline
