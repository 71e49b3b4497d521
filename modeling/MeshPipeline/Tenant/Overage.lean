import Mathlib.Algebra.Ring.Int.Defs
import MeshPipeline.Application.SpendGate
import MeshPipeline.Library.Inbox
import MeshPipeline.Library.Machine

/-!
# Overage, charged and reported

The ledger between the two processes that write it: `charge_for_job` appends a job's entries, and
`report_pending_usage` reports the overage of unstamped rows to the provider's meter and stamps
what was accepted. The provider answers a repeated idempotency key without counting it again.
-/

namespace MeshPipeline

/-- A row of `credit_ledger`: its id, its entry and whether `metered_at` is set. -/
structure LedgerRow where
  id : Nat
  entry : CreditLedgerEntry
  metered : Bool
  deriving DecidableEq, Repr

/-- What the row owes the meter, under the row's id. -/
def LedgerRow.due (row : LedgerRow) : Nat × Int := (row.id, row.entry.overage)

/-- The table, oldest row first, with its primary key. -/
structure CreditLedger where
  rows : List LedgerRow
  nodup : (rows.map (·.id)).Nodup

/-- A charge as it was made: the balance it read, the overage column it wrote and the balance it
left. -/
structure Charge where
  organization : Nat
  amount : Int
  before : Int
  overage : Int
  after : Int
  deriving DecidableEq, Repr

/-- What the balance pays of a charge. -/
def Charge.covered (c : Charge) : Int := min (max c.before 0) c.amount

structure MeterWorld where
  organizations : List Organization
  ledger : CreditLedger
  /-- The meter events the provider has, each under its idempotency scope. -/
  events : List (Nat × Int)
  charges : List Charge

/-- What comes of one `report_usage`: a call that raises may have reached the provider. -/
inductive ReportAnswer
  | accepted | lost | refused
  deriving DecidableEq, Repr

def ReportAnswer.reaches : ReportAnswer → Bool
  | .accepted | .lost => true
  | .refused => false

inductive MeterOp
  /-- `charge_for_job`; the ids are those its rows get. -/
  | charge (job : SimulationJob) (debitId refundId : Nat)
  /-- `report_pending_usage`; `commits` says whether the sweep lives to commit its stamps. -/
  | report (limit : Nat) (answers : Nat → ReportAnswer) (commits : Bool)

namespace CreditLedger

/-- `CreditLedgerRepository.balance`. -/
def balance (ledger : CreditLedger) (organization : Nat) : Int :=
  ((ledger.rows.filter (·.entry.organizationId = organization)).map (·.entry.amount)).sum

/-- The append is refused on an id that is there. -/
def append? (ledger : CreditLedger) (rows : List LedgerRow) : Option CreditLedger :=
  if h : ((ledger.rows ++ rows).map (·.id)).Nodup then some ⟨ledger.rows ++ rows, h⟩ else none

/-- The update that stamps the reported rows. -/
def stamp (ledger : CreditLedger) (ids : List Nat) : CreditLedger where
  rows := ledger.rows.map fun row => if row.id ∈ ids then { row with metered := true } else row
  nodup := by
    have hids : (ledger.rows.map fun row =>
        if row.id ∈ ids then { row with metered := true } else row).map (·.id) =
        ledger.rows.map (·.id) := by
      rw [List.map_map]
      apply List.map_congr_left
      intro row _
      simp only [Function.comp_apply]
      split <;> rfl
    rw [hids]
    exact ledger.nodup

/-- The overage of the rows. -/
def dues (ledger : CreditLedger) : List (Nat × Int) :=
  (ledger.rows.filter (0 < ·.entry.overage)).map LedgerRow.due

/-- The overage of an organisation's rows. -/
def duesOf (ledger : CreditLedger) (organization : Nat) : List (Nat × Int) :=
  ((ledger.rows.filter (·.entry.organizationId = organization)).filter (0 < ·.entry.overage)).map
    LedgerRow.due

open ReportedOnce

variable {ledger ledger' : CreditLedger} {rows : List LedgerRow} {organization : Nat}

theorem nodup_keys_dues (ledger : CreditLedger) : (keys ledger.dues).Nodup := by
  unfold keys dues
  rw [List.map_map]
  exact ledger.nodup.sublist (List.filter_sublist.map _)

theorem nodup_keys_duesOf (ledger : CreditLedger) (organization : Nat) :
    (keys (ledger.duesOf organization)).Nodup := by
  unfold keys duesOf
  rw [List.map_map]
  exact ledger.nodup.sublist ((List.filter_sublist.trans List.filter_sublist).map _)

theorem duesOf_subset (ledger : CreditLedger) (organization : Nat) :
    ledger.duesOf organization ⊆ ledger.dues := by
  intro d hd
  obtain ⟨row, hrow, rfl⟩ := List.mem_map.mp hd
  simp only [List.mem_filter] at hrow
  exact List.mem_map.mpr ⟨row, List.mem_filter.mpr ⟨hrow.1.1, hrow.2⟩, rfl⟩

theorem mem_dues {row : LedgerRow} (h : row ∈ ledger.rows) (hpos : 0 < row.entry.overage) :
    row.due ∈ ledger.dues :=
  List.mem_map.mpr ⟨row, List.mem_filter.mpr ⟨h, by simpa using hpos⟩, rfl⟩

theorem rows_of_append? (h : ledger.append? rows = some ledger') :
    ledger'.rows = ledger.rows ++ rows := by
  unfold append? at h
  split at h
  · simp only [Option.some.injEq] at h
    rw [← h]
  · cases h

theorem dues_subset_of_append? (h : ledger.append? rows = some ledger') :
    ledger.dues ⊆ ledger'.dues := by
  simp only [dues, rows_of_append? h, List.filter_append, List.map_append]
  exact List.subset_append_left _ _

/-- Rows that are stamped owe what they owed. -/
theorem map_filter_stamp {β : Type*} (ids : List Nat) (p : CreditLedgerEntry → Bool)
    (f : Nat → CreditLedgerEntry → β) :
    ((ledger.stamp ids).rows.filter fun row => p row.entry).map (fun row => f row.id row.entry) =
      (ledger.rows.filter fun row => p row.entry).map fun row => f row.id row.entry := by
  simp only [stamp]
  induction ledger.rows with
  | nil => rfl
  | cons row rows ih =>
    have hentry : (if row.id ∈ ids then { row with metered := true } else row).entry = row.entry ∧
        (if row.id ∈ ids then { row with metered := true } else row).id = row.id := by
      split <;> exact ⟨rfl, rfl⟩
    simp only [List.map_cons, List.filter_cons, hentry.1]
    split
    · simp only [List.map_cons, hentry, ih]
    · exact ih

@[simp]
theorem dues_stamp (ids : List Nat) : (ledger.stamp ids).dues = ledger.dues :=
  map_filter_stamp ids (fun entry => 0 < entry.overage) fun id entry => (id, entry.overage)

@[simp]
theorem duesOf_stamp (ids : List Nat) (organization : Nat) :
    (ledger.stamp ids).duesOf organization = ledger.duesOf organization := by
  simp only [duesOf, List.filter_filter]
  exact map_filter_stamp ids
    (fun entry => decide (0 < entry.overage) && decide (entry.organizationId = organization))
    fun id entry => (id, entry.overage)

end CreditLedger

namespace Overage

open Transition ReportedOnce

variable (price : Metering.Pricing) (cfg : BillingSettings)

/-- What a charge reads of the tenant it names. -/
def account (w : MeterWorld) (organization : Nat) : Metering.Account :=
  match OrganizationRepository.getById w.organizations organization with
  | none => ⟨false, w.ledger.balance organization⟩
  | some tenant => SpendGate.account cfg tenant (w.ledger.balance organization)

/-- The rows a charge appends. -/
def charged (w : MeterWorld) (job : SimulationJob) (organization debitId refundId : Nat) :
    List LedgerRow :=
  ([debitId, refundId].zip (Metering.chargeForJob price (account cfg w organization) job)).map
    fun (id, entry) => ⟨id, entry, false⟩

def charge (w : MeterWorld) (job : SimulationJob) (debitId refundId : Nat) : Option MeterWorld :=
  match job.organizationId with
  | none => some w
  | some organization =>
    let rows := charged price cfg w job organization debitId refundId
    (w.ledger.append? rows).map fun ledger =>
      { w with
        ledger := ledger
        charges :=
          if rows = [] then w.charges
          else w.charges ++
            [{ organization := organization
               amount := Metering.creditsForJob price job.startedAt job.endedAt
               before := w.ledger.balance organization
               overage := (rows.map (·.entry.overage)).sum
               after := ledger.balance organization }] }

/-- The rows the sweep selects. -/
def due (w : MeterWorld) (limit : Nat) : List LedgerRow :=
  (w.ledger.rows.filter fun row =>
    !row.metered && decide (0 < row.entry.overage) &&
      (OrganizationRepository.getById w.organizations row.entry.organizationId).any
        (·.stripeCustomerId.any (· ≠ ""))).take limit

/-- The sweep: each row is reported under its own id, and what the provider accepted is stamped
afterwards. -/
def report (w : MeterWorld) (limit : Nat) (answers : Nat → ReportAnswer) (commits : Bool) :
    MeterWorld :=
  let rows := due w limit
  let reached := (rows.filter fun row => (answers row.id).reaches).map LedgerRow.due
  let reported := (rows.filter fun row => answers row.id = .accepted).map (·.id)
  { w with
    events := reached.foldl receive w.events
    ledger := if commits then w.ledger.stamp reported else w.ledger }

def machine : Machine MeterWorld MeterOp where
  step w
    | .charge job debitId refundId => charge price cfg w job debitId refundId
    | .report limit answers commits => some (report w limit answers commits)

/-- A ledger as it stands when the run begins: the provider has what is stamped. -/
def start (organizations : List Organization) (ledger : CreditLedger) : MeterWorld where
  organizations := organizations
  ledger := ledger
  events := (ledger.rows.filter fun row => row.metered && decide (0 < row.entry.overage)).map
    LedgerRow.due
  charges := []

/-- The provider bills this organisation's overage. -/
def Metered (organizations : List Organization) (organization : Nat) : Prop :=
  ∃ tenant, OrganizationRepository.getById organizations organization = some tenant ∧
    (SpendGate.account cfg tenant 0).billsOverage = true

/-- The overage of an organisation that the provider has acknowledged. -/
def acknowledged (w : MeterWorld) (organization : Nat) : Int :=
  total (w.events.filter fun event => event.1 ∈ keys (w.ledger.duesOf organization))

/-- The overage of an organisation that is still to reach the provider. -/
def pending (w : MeterWorld) (organization : Nat) : Int :=
  total (outstanding (w.ledger.duesOf organization) w.events)

/-- The overage of an organisation's rows that are not stamped. -/
def unstamped (w : MeterWorld) (organization : Nat) : Int :=
  total (((w.ledger.rows.filter (·.entry.organizationId = organization)).filter fun row =>
    !row.metered && decide (0 < row.entry.overage)).map LedgerRow.due)

/-- A step that loses neither an answer of the provider nor its stamps. -/
def NothingLost : MeterOp → Prop
  | .charge .. => True
  | .report _ answers commits => commits = true ∧ ∀ id, answers id ≠ .lost

/-- What the charges of an organisation left uncovered. -/
def uncovered (charges : List Charge) (organization : Nat) : Int :=
  ((charges.filter (·.organization = organization)).map fun c => c.amount - c.covered).sum

/-! ## What the provider has is due -/

/-- The provider has overage of the ledger, each under its row's id, and what is stamped. -/
structure Reported (w : MeterWorld) : Prop where
  sound : Sound w.ledger.dues w.events
  stamped : ∀ row ∈ w.ledger.rows, row.metered → 0 < row.entry.overage → row.id ∈ keys w.events

variable {price cfg} {w w' : MeterWorld} {organizations : List Organization} {ledger : CreditLedger}
  {organization : Nat}

theorem reported_start : Reported (start organizations ledger) where
  sound := by
    refine ⟨?_, ?_⟩
    · simp only [start, keys, List.map_map]
      exact ledger.nodup.sublist (List.filter_sublist.map _)
    · intro e he
      obtain ⟨row, hrow, rfl⟩ := List.mem_map.mp he
      simp only [List.mem_filter, Bool.and_eq_true, decide_eq_true_eq] at hrow
      exact CreditLedger.mem_dues hrow.1 hrow.2.2
  stamped := by
    intro row hrow hmetered hpos
    exact mem_keys_of_mem (List.mem_map.mpr
      ⟨row, List.mem_filter.mpr ⟨hrow, by simp [hmetered, hpos]⟩, rfl⟩)

theorem unmetered_of_charged {job : SimulationJob} {debitId refundId : Nat} {row : LedgerRow}
    (h : row ∈ charged price cfg w job organization debitId refundId) : row.metered = false := by
  obtain ⟨_, -, rfl⟩ := List.mem_map.mp h
  rfl

theorem reported_charge {job : SimulationJob} {debitId refundId : Nat} (h : Reported w)
    (hcharge : charge price cfg w job debitId refundId = some w') : Reported w' := by
  unfold charge at hcharge
  split at hcharge
  · obtain rfl : w = w' := by simpa using hcharge
    exact h
  · obtain ⟨ledger, hledger, rfl⟩ := Option.map_eq_some_iff.mp hcharge
    refine ⟨h.sound.mono (CreditLedger.dues_subset_of_append? hledger), ?_⟩
    intro row hrow hmetered hpos
    rw [CreditLedger.rows_of_append? hledger] at hrow
    obtain hrow | hrow := List.mem_append.mp hrow
    · exact h.stamped row hrow hmetered hpos
    · rw [unmetered_of_charged hrow] at hmetered
      cases hmetered

theorem mem_of_due {limit : Nat} {row : LedgerRow} (h : row ∈ due w limit) :
    row ∈ w.ledger.rows ∧ row.metered = false ∧ 0 < row.entry.overage := by
  have hrow := List.mem_filter.mp (List.mem_of_mem_take h)
  simp only [Bool.and_eq_true, Bool.not_eq_true', decide_eq_true_eq] at hrow
  exact ⟨hrow.1, hrow.2.1.1, hrow.2.1.2⟩

theorem reported_report (h : Reported w) (limit : Nat) (answers : Nat → ReportAnswer)
    (commits : Bool) : Reported (report w limit answers commits) := by
  have hreached : (((due w limit).filter fun row => (answers row.id).reaches).map LedgerRow.due) ⊆
      w.ledger.dues := by
    intro e he
    obtain ⟨row, hrow, rfl⟩ := List.mem_map.mp he
    obtain ⟨hmem, -, hpos⟩ := mem_of_due (List.mem_filter.mp hrow).1
    exact CreditLedger.mem_dues hmem hpos
  have hsound := h.sound.foldl_receive hreached
  have hold : ∀ row ∈ w.ledger.rows, row.metered → 0 < row.entry.overage →
      row.id ∈ keys (report w limit answers commits).events := fun row hrow hmetered hpos =>
    mem_keys_foldl_receive.mpr (.inl (h.stamped row hrow hmetered hpos))
  cases commits with
  | false => exact ⟨hsound, hold⟩
  | true =>
    refine ⟨by simpa [report] using hsound, ?_⟩
    intro row hrow hmetered hpos
    obtain ⟨row, hmem, rfl⟩ := List.mem_map.mp hrow
    by_cases hstamped : row.id ∈ ((due w limit).filter fun row =>
        answers row.id = .accepted).map (·.id)
    · simp only [hstamped, if_true]
      obtain ⟨r, hr, hid⟩ := List.mem_map.mp hstamped
      obtain ⟨hdue, haccepted⟩ := List.mem_filter.mp hr
      apply mem_keys_foldl_receive.mpr
      right
      refine List.mem_map.mpr ⟨r.due, List.mem_map.mpr ⟨r, List.mem_filter.mpr ⟨hdue, ?_⟩, rfl⟩, hid⟩
      rw [of_decide_eq_true haccepted]
      rfl
    · simp only [hstamped, if_false] at hmetered hpos ⊢
      exact hold row hmem hmetered hpos

theorem reported_step {op : MeterOp} (h : Reported w)
    (hstep : (machine price cfg).step w op = some w') : Reported w' := by
  cases op with
  | charge job debitId refundId => exact reported_charge h hstep
  | report limit answers commits =>
    obtain rfl := Option.some.inj hstep
    exact reported_report h limit answers commits

/-- Acknowledged and pending overage make up what the ledger holds against an organisation. -/
theorem acknowledged_add_pending (h : Reported w) (organization : Nat) :
    acknowledged w organization + pending w organization =
      total (w.ledger.duesOf organization) := by
  have hpart := h.sound.part w.ledger.nodup_keys_dues (w.ledger.duesOf_subset organization)
  rw [acknowledged, pending, ← outstanding_part]
  exact total_add_outstanding (w.ledger.nodup_keys_duesOf organization) hpart

/-- Only stamped rows have reached the provider. -/
def OnlyStamped (w : MeterWorld) : Prop :=
  ∀ row ∈ w.ledger.rows, row.id ∈ keys w.events → row.metered = true

theorem onlyStamped_start : OnlyStamped (start organizations ledger) := by
  intro row hrow hkey
  obtain ⟨event, hevent, hid⟩ := List.mem_map.mp hkey
  obtain ⟨other, hother, rfl⟩ := List.mem_map.mp hevent
  obtain ⟨hmem, hmetered⟩ := List.mem_filter.mp hother
  obtain rfl := List.inj_on_of_nodup_map ledger.nodup hmem hrow hid
  simp only [Bool.and_eq_true] at hmetered
  exact hmetered.1

theorem onlyStamped_charge {job : SimulationJob} {debitId refundId : Nat} (hr : Reported w)
    (h : OnlyStamped w) (hcharge : charge price cfg w job debitId refundId = some w') :
    OnlyStamped w' := by
  unfold charge at hcharge
  split at hcharge
  · obtain rfl : w = w' := by simpa using hcharge
    exact h
  · obtain ⟨ledger, hledger, rfl⟩ := Option.map_eq_some_iff.mp hcharge
    intro row hrow hkey
    have hrows := CreditLedger.rows_of_append? hledger
    -- the row of a key the provider has is one of the old ledger, and ids are unique
    obtain ⟨event, hevent, hid⟩ := List.mem_map.mp hkey
    obtain ⟨other, hother, rfl⟩ := List.mem_map.mp (hr.sound.sub hevent)
    have hmem := (List.mem_filter.mp hother).1
    obtain rfl : other = row := List.inj_on_of_nodup_map ledger.nodup
      (by simp [hrows, hmem]) hrow hid
    exact h other hmem hkey

theorem onlyStamped_report {limit : Nat} {answers : Nat → ReportAnswer} (h : OnlyStamped w)
    (hlost : ∀ id, answers id ≠ .lost) : OnlyStamped (report w limit answers true) := by
  intro row hrow hkey
  obtain ⟨row, hmem, rfl⟩ := List.mem_map.mp hrow
  have hid : (if row.id ∈ ((due w limit).filter fun row => answers row.id = .accepted).map (·.id)
      then { row with metered := true } else row).id = row.id := by split <;> rfl
  rw [hid] at hkey
  split
  · rfl
  · rename_i hunstamped
    obtain hold | hnew := mem_keys_foldl_receive.mp hkey
    · exact h row hmem hold
    · obtain ⟨event, hevent, hkeyed⟩ := List.mem_map.mp hnew
      obtain ⟨r, hr, rfl⟩ := List.mem_map.mp hevent
      obtain ⟨hdue, hreaches⟩ := List.mem_filter.mp hr
      refine absurd (List.mem_map.mpr ⟨r, List.mem_filter.mpr ⟨hdue, ?_⟩, hkeyed⟩) hunstamped
      have hnot := hlost r.id
      cases ha : answers r.id <;> simp_all [ReportAnswer.reaches]

theorem onlyStamped_step {op : MeterOp} (hr : Reported w) (h : OnlyStamped w)
    (hlost : NothingLost op) (hstep : (machine price cfg).step w op = some w') :
    OnlyStamped w' := by
  cases op with
  | charge job debitId refundId => exact onlyStamped_charge hr h hstep
  | report limit answers commits =>
    obtain ⟨rfl, hlost⟩ := hlost
    obtain rfl := Option.some.inj hstep
    exact onlyStamped_report h hlost

theorem pending_eq_unstamped (hr : Reported w) (h : OnlyStamped w) (organization : Nat) :
    pending w organization = unstamped w organization := by
  unfold pending unstamped outstanding CreditLedger.duesOf
  rw [List.filter_map, List.filter_filter]
  congr 2
  apply List.filter_congr
  intro row hrow
  have hmem := (List.mem_filter.mp hrow).1
  have hstamped := hr.stamped row hmem
  have honly := h row hmem
  simp only [Function.comp_apply, LedgerRow.due]
  grind

/-! ## What a charge leaves -/

/-- The balance pays what it covers and the meter the rest. -/
structure Settled (c : Charge) : Prop where
  whole : c.covered + c.overage = c.amount
  falls : c.after = c.before - c.covered
  floor : min c.before 0 ≤ c.after

theorem account_of_metered (h : Metered cfg w.organizations organization) :
    (account cfg w organization).billsOverage = true ∧
      (account cfg w organization).balance = w.ledger.balance organization := by
  obtain ⟨tenant, htenant, hbills⟩ := h
  simpa [account, htenant, SpendGate.account] using hbills

/-- The rows of one charge: none, or a debit with the overage and its refund. -/
theorem charged_eq (price : Metering.Pricing) (cfg : BillingSettings) (w : MeterWorld)
    {job : SimulationJob} (debitId refundId : Nat)
    (ho : job.organizationId = some organization) :
    charged price cfg w job organization debitId refundId = [] ∨
      let amount := Metering.creditsForJob price job.startedAt job.endedAt
      let overage := Metering.overageOf (account cfg w organization) amount
      0 < amount ∧ charged price cfg w job organization debitId refundId =
        ⟨debitId, ⟨.debit, organization, -amount, job.id, overage⟩, false⟩ ::
          if overage = 0 then [] else
            [⟨refundId, ⟨.refund, organization, overage, job.id, 0⟩, false⟩] := by
  obtain h | ⟨hpos, h⟩ := Metering.chargeForJob_eq price (account cfg w organization) ho
  · left
    simp [charged, h]
  · right
    refine ⟨hpos, ?_⟩
    simp only [charged, h]
    split <;> rfl

/-- A charge's rows are the charged organisation's, and owe its overage. -/
theorem owed_charged {job : SimulationJob} {debitId refundId : Nat}
    (ho : job.organizationId = some organization) (other : Nat) :
    let rows := charged price cfg w job organization debitId refundId
    total (((rows.filter (·.entry.organizationId = other)).filter (0 < ·.entry.overage)).map
        LedgerRow.due) =
      if organization = other then (rows.map (·.entry.overage)).sum else 0 := by
  obtain h | ⟨hpos, h⟩ := charged_eq price cfg w debitId refundId ho
  · simp [h, total]
  · obtain ⟨hnonneg, -⟩ := @Metering.overageOf_mem (account cfg w organization) _ hpos
    simp only [h]
    generalize Metering.overageOf _ _ = overage at hnonneg
    by_cases hother : organization = other
    · obtain hlt | rfl := Int.lt_or_eq_of_le hnonneg
      · have hne : overage ≠ 0 := by omega
        simp [hother, hlt, hne, total, LedgerRow.due]
      · simp [hother, total]
    · split <;> simp [hother, total]

/-- A charge of a tenant that the provider bills. -/
theorem split_of_charge {job : SimulationJob} {debitId refundId : Nat}
    (ho : job.organizationId = some organization)
    (metered : Metered cfg w.organizations organization)
    (hledger : w.ledger.append? (charged price cfg w job organization debitId refundId) =
      some ledger)
    (hcharged : charged price cfg w job organization debitId refundId ≠ []) :
    Settled
      { organization := organization
        amount := Metering.creditsForJob price job.startedAt job.endedAt
        before := w.ledger.balance organization
        overage := ((charged price cfg w job organization debitId refundId).map
          (·.entry.overage)).sum
        after := ledger.balance organization } := by
  obtain h | ⟨hpos, h⟩ := charged_eq price cfg w debitId refundId ho
  · exact absurd h hcharged
  obtain ⟨hbills, hbalance⟩ := account_of_metered metered
  have hafter : ledger.balance organization = w.ledger.balance organization +
      (((charged price cfg w job organization debitId refundId).filter
        (·.entry.organizationId = organization)).map (·.entry.amount)).sum := by
    simp [CreditLedger.balance, CreditLedger.rows_of_append? hledger]
  generalize hamount : Metering.creditsForJob price job.startedAt job.endedAt = amount at h hpos
  have hoverage : Metering.overageOf (account cfg w organization) amount =
      amount - min (max (w.ledger.balance organization) 0) amount := by
    simp [Metering.overageOf, hbills, hbalance]
  generalize w.ledger.balance organization = before at hoverage hafter
  have hsums : ((charged price cfg w job organization debitId refundId).map
      (·.entry.overage)).sum = amount - min (max before 0) amount ∧
      ledger.balance organization = before - min (max before 0) amount := by
    rw [hafter, h, hoverage]
    split
    · rename_i hzero
      simp only [List.filter_cons, decide_true, if_true, List.filter_nil, List.map_cons,
        List.map_nil, List.sum_cons, List.sum_nil]
      omega
    · simp only [List.filter_cons, decide_true, if_true, List.filter_nil, List.map_cons,
        List.map_nil, List.sum_cons, List.sum_nil]
      omega
  rw [hsums.1, hsums.2]
  constructor <;> simp only [Charge.covered] <;> omega

/-- The charges of a tenant are settled, and what they left uncovered has been added to what the
ledger holds against it. -/
structure Balanced (organization : Nat) (owed : Int) (w : MeterWorld) : Prop where
  settled : ∀ c ∈ w.charges, c.organization = organization → Settled c
  owes : total (w.ledger.duesOf organization) = owed + uncovered w.charges organization

variable {owed : Int}

theorem uncovered_append (charges : List Charge) (c : Charge) :
    uncovered (charges ++ [c]) organization = uncovered charges organization +
      if c.organization = organization then c.amount - c.covered else 0 := by
  unfold uncovered
  rw [List.filter_append]
  by_cases h : c.organization = organization <;> simp [h]

theorem total_duesOf_append {rows : List LedgerRow} {ledger' : CreditLedger}
    (h : ledger.append? rows = some ledger') (organization : Nat) :
    total (ledger'.duesOf organization) = total (ledger.duesOf organization) +
      total (((rows.filter (·.entry.organizationId = organization)).filter
        (0 < ·.entry.overage)).map LedgerRow.due) := by
  simp [CreditLedger.duesOf, CreditLedger.rows_of_append? h, total]

theorem balanced_charge {job : SimulationJob} {debitId refundId : Nat}
    (metered : Metered cfg w.organizations organization) (h : Balanced organization owed w)
    (hcharge : charge price cfg w job debitId refundId = some w') :
    Balanced organization owed w' := by
  unfold charge at hcharge
  split at hcharge
  · obtain rfl : w = w' := by simpa using hcharge
    exact h
  rename_i named ho
  obtain ⟨ledger, hledger, rfl⟩ := Option.map_eq_some_iff.mp hcharge
  have howed := total_duesOf_append hledger organization
  rw [owed_charged ho organization, h.owes] at howed
  by_cases hnone : charged price cfg w job named debitId refundId = []
  · refine ⟨by simpa [hnone] using h.settled, ?_⟩
    simpa [hnone] using howed
  · simp only [hnone, if_false]
    by_cases hsame : named = organization
    · subst hsame
      have hsettled := split_of_charge ho metered hledger hnone
      refine ⟨?_, ?_⟩
      · intro c hc hname
        obtain hc | hc := List.mem_append.mp hc
        · exact h.settled c hc hname
        · obtain rfl := List.mem_singleton.mp hc
          exact hsettled
      · rw [howed, uncovered_append]
        have hwhole := hsettled.whole
        simp only [if_true] at hwhole ⊢
        omega
    · refine ⟨?_, ?_⟩
      · intro c hc hname
        obtain hc | hc := List.mem_append.mp hc
        · exact h.settled c hc hname
        · obtain rfl := List.mem_singleton.mp hc
          exact absurd hname hsame
      · rw [howed, uncovered_append]
        simp [hsame]

theorem organizations_of_step {op : MeterOp} (h : (machine price cfg).step w op = some w') :
    w'.organizations = w.organizations := by
  cases op with
  | charge job debitId refundId =>
    simp only [machine, charge] at h
    split at h
    · rw [← Option.some.inj h]
    · obtain ⟨_, -, rfl⟩ := Option.map_eq_some_iff.mp h
      rfl
  | report limit answers commits => rw [← Option.some.inj h, report]

theorem balanced_step {op : MeterOp} (metered : Metered cfg w.organizations organization)
    (h : Balanced organization owed w) (hstep : (machine price cfg).step w op = some w') :
    Balanced organization owed w' := by
  cases op with
  | charge job debitId refundId => exact balanced_charge metered h hstep
  | report limit answers commits =>
    obtain rfl := Option.some.inj hstep
    refine ⟨h.settled, ?_⟩
    cases commits <;> simpa [report] using h.owes

/-- Whatever is charged and reported, each charge of a metered tenant is settled between its balance
and its overage; what the provider has acknowledged and what is pending make up what the ledger held
against the tenant and what its charges left uncovered; and the provider has each overage once,
under its own ledger row, before the row is stamped. Where no answer and no stamp is lost, what is
pending is what is unstamped. -/
theorem overage_balances {run : List MeterOp}
    (metered : Metered cfg organizations organization)
    (h : (machine price cfg).exec (start organizations ledger) run = some w) :
    (∀ c ∈ w.charges, c.organization = organization →
      c.covered + c.overage = c.amount ∧ c.after = c.before - c.covered ∧
        min c.before 0 ≤ c.after) ∧
    acknowledged w organization + pending w organization =
      total (ledger.duesOf organization) + uncovered w.charges organization ∧
    (keys w.events).Nodup ∧
    (∀ event ∈ w.events, ∃ row ∈ w.ledger.rows, 0 < row.entry.overage ∧
      event = (row.id, row.entry.overage)) ∧
    (∀ row ∈ w.ledger.rows, row.metered → 0 < row.entry.overage →
      (row.id, row.entry.overage) ∈ w.events) ∧
    ((∀ op ∈ run, NothingLost op) → pending w organization = unstamped w organization) := by
  have hreported : Reported w :=
    Machine.exec_invariant_of_step (fun _ _ _ hs => reported_step hs) reported_start h
  obtain ⟨-, hbalanced⟩ : w.organizations = organizations ∧
      Balanced organization (total (ledger.duesOf organization)) w := by
    refine Machine.exec_invariant_of_step
      (I := fun w => w.organizations = organizations ∧ Balanced organization _ w) ?_ ?_ h
    · rintro s op t ⟨horg, hs⟩ hstep
      exact ⟨(organizations_of_step hstep).trans horg,
        balanced_step (horg.symm ▸ metered) hs hstep⟩
    · exact ⟨rfl, by simp [start], by simp [start, uncovered]⟩
  have hsub : ∀ event ∈ w.events, ∃ row ∈ w.ledger.rows, 0 < row.entry.overage ∧
      event = (row.id, row.entry.overage) := by
    intro event hevent
    obtain ⟨row, hrow, rfl⟩ := List.mem_map.mp (hreported.sound.sub hevent)
    obtain ⟨hmem, hpos⟩ := List.mem_filter.mp hrow
    exact ⟨row, hmem, by simpa using hpos, rfl⟩
  refine ⟨?_, ?_, hreported.sound.nodup, hsub, ?_, ?_⟩
  · intro c hc hname
    obtain ⟨hwhole, hfalls, hfloor⟩ := hbalanced.settled c hc hname
    exact ⟨hwhole, hfalls, hfloor⟩
  · rw [acknowledged_add_pending hreported, hbalanced.owes]
  · intro row hrow hmetered hpos
    obtain ⟨event, hevent, hid⟩ := List.mem_map.mp (hreported.stamped row hrow hmetered hpos)
    have hdue := eq_of_key_eq w.ledger.nodup_keys_dues (hreported.sound.sub hevent)
      (CreditLedger.mem_dues hrow hpos) hid
    rwa [hdue] at hevent
  · intro hlost
    have hboth : Reported w ∧ OnlyStamped w := Machine.exec_invariant
      (I := fun w => Reported w ∧ OnlyStamped w)
      (fun _ _ _ hs hop hstep => ⟨reported_step hs.1 hstep, onlyStamped_step hs.1 hs.2 hop hstep⟩)
      ⟨reported_start, onlyStamped_start⟩ (Machine.meets_of_labels hlost) h
    exact pending_eq_unstamped hreported hboth.2 organization

/-- A subscriber with five credits left. -/
def subscriber : Organization where
  id := 1
  stripeCustomerId := some "cus"
  stripeSubscriptionId := some "sub"
  plan := "starter"
  subscriptionStatus := "active"
  currentPeriodEnd := none

def fiveCredits : CreditLedger where
  rows := [⟨0, ⟨.grant, 1, 5, 0, 0⟩, false⟩]
  nodup := by decide

def tenCreditJob : SimulationJob :=
  { JobRepository.create 7 "ada" (some 1) 0 with status := .succeeded }

/-- Two jobs of ten credits: the answer to the first report is lost, and a later sweep repeats it. -/
theorem overage_balances_subscriber :
    let price : Metering.Pricing := ⟨10, 0⟩
    let cfg : BillingSettings := ⟨"flat", "overage", "", ""⟩
    let run := [.charge tenCreditJob 1 2, .report 10 (fun _ => .lost) true,
      .charge tenCreditJob 3 4, .report 10 (fun _ => .accepted) true]
    ∃ w, (machine price cfg).exec (start [subscriber] fiveCredits) run = some w ∧
      w.events = [(1, 5), (3, 10)] ∧
      acknowledged w 1 + pending w 1 = total (fiveCredits.duesOf 1) + uncovered w.charges 1 := by
  intro price cfg run
  have hruns : ((machine price cfg).exec (start [subscriber] fiveCredits) run).map (·.events) =
      some [(1, 5), (3, 10)] := by decide
  obtain ⟨w, hw, hevents⟩ := Option.map_eq_some_iff.mp hruns
  have hmetered : Metered cfg [subscriber] 1 := ⟨subscriber, by decide, by decide⟩
  exact ⟨w, hw, hevents, (overage_balances hmetered hw).2.1⟩

end Overage

end MeshPipeline
