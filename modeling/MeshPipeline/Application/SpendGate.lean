import MeshPipeline.Application.Metering
import MeshPipeline.Persistence.OrganizationRepository
import MeshPipeline.Settings.Billing

/-!
# The spend gate

Whether a tenant may start a job it would be charged for. A tenant that nothing bills must have the
price of the job beside one price held back for every job it has in flight.
-/

namespace MeshPipeline.SpendGate

/-- `PAYING_STATUSES`. -/
def payingStatuses : List String := ["active", "trialing", "past_due", ""]

/-- `paying_plan`: the plan the organisation is billed on, or nothing. -/
def payingPlan (organization : Organization) : String :=
  let plan := Text.key organization.plan
  if plan = "" then ""
  else if Text.key organization.subscriptionStatus ∈ payingStatuses then plan else ""

/-- Why a job was refused. -/
inductive OutOfCredits
  | unverified | held | spent
  deriving DecidableEq, Repr

def OutOfCredits.message : OutOfCredits → String
  | .unverified =>
    "Verify your email address to start runs. Your free credits are added as soon as it is verified."
  | .held =>
    "Your remaining credits are held by the run already in progress. Wait for it to finish, or choose a plan under Billing to keep running meshes."
  | .spent =>
    "You are out of credits, so I did not start this run. Choose a plan under Billing to keep running meshes."

/-- The credits held back for one job. -/
def perJob (price : Metering.Pricing) : Int := max price.jobBaseCredits 1

/-- The balance covers one more job beside those in flight. -/
def covers (price : Metering.Pricing) (running : Nat) (balance : Int) : Bool :=
  decide (perJob price ≤ balance - running * perJob price)

/-- `admit`: the plan whose limits apply. `gateEnabled` is `CREDIT_GATE_ENABLED`, `account` says
whether the owner has an account row, `running` and `balance` are what the admission read. -/
def admitJob (gateEnabled : Bool) (price : Metering.Pricing) (organization : Option Organization)
    (account : Bool) (running : Nat) (balance : Int) : Except OutOfCredits String :=
  match organization with
  | none => if account then .error .unverified else .ok ""
  | some organization =>
    if payingPlan organization ≠ "" then .ok (payingPlan organization)
    else if !gateEnabled then .ok ""
    else if covers price running balance then .ok ""
    else if running ≠ 0 then .error .held
    else .error .spent

/-- What a charge reads of its tenant: overage is billed to a customer on a paid plan with a metered
price. -/
def account (cfg : BillingSettings) (organization : Organization) (balance : Int) :
    Metering.Account where
  billsOverage := payingPlan organization ≠ "" &&
    organization.stripeCustomerId.any (· ≠ "") &&
      (priceFor cfg (payingPlan organization)).2 ≠ ""
  balance := balance

variable {price : Metering.Pricing} {organization : Organization}

/-- A tenant that nothing bills is admitted exactly when its balance covers the job. -/
theorem admitJob_isOk_iff (h : payingPlan organization = "") (known : Bool) (running : Nat)
    (balance : Int) :
    (admitJob true price (some organization) known running balance).isOk = true ↔
      perJob price ≤ balance - running * perJob price := by
  unfold admitJob
  by_cases hcovers : covers price running balance
  · simpa [h, hcovers, Except.isOk, Except.toBool] using of_decide_eq_true hcovers
  · simp only [h, ne_eq, not_true_eq_false, if_false, Bool.not_true, Bool.false_eq_true, hcovers]
    have hshort : ¬ perJob price ≤ balance - running * perJob price := by
      simpa [covers] using hcovers
    split <;> simpa [Except.isOk, Except.toBool] using hshort

theorem perJob_pos (price : Metering.Pricing) : 0 < perJob price := by
  unfold perJob
  omega

theorem billsOverage_account (h : payingPlan organization = "") (cfg : BillingSettings)
    (balance : Int) : (account cfg organization balance).billsOverage = false := by
  simp [account, h]

end MeshPipeline.SpendGate
