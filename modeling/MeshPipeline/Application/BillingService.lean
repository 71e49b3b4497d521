import MeshPipeline.Persistence.OrganizationRepository
import MeshPipeline.Settings.Billing

/-!
# Billing events

What an event of the payment provider means: which plan an organisation holds, and when credits are
granted. The claim of the event and its effect are one transaction.
-/

namespace MeshPipeline.BillingService

/-- The types of `HANDLED`, and every other one. -/
inductive EventType
  | checkoutSessionAsyncPaymentSucceeded
  | checkoutSessionCompleted
  | customerSubscriptionCreated
  | customerSubscriptionUpdated
  | customerSubscriptionDeleted
  | invoicePaid
  | invoicePaymentFailed
  | other
  deriving DecidableEq, Repr

abbrev Metadata := List (String × String)

def Metadata.get (metadata : Metadata) (key : String) (absent : String) : String :=
  (metadata.lookup key).getD absent

/-- A reference is an id or the expanded object. -/
inductive Reference
  | absent
  | bare (id : String)
  | expanded (id : Option String)
  deriving DecidableEq, Repr

/-- `_id_of`. -/
def Reference.idOf : Reference → String
  | .absent => ""
  | .bare id => id
  | .expanded id => id.getD ""

structure SubscriptionItem where
  priceId : String
  /-- `price.recurring.usage_type`; empty when the price has none. -/
  usageType : String
  deriving DecidableEq, Repr

/-- What the handlers read of a payload; an absent text is empty. -/
structure Payload where
  id : String
  metadata : Metadata
  customer : Reference
  /-- Of a subscription. -/
  status : String
  items : List SubscriptionItem
  currentPeriodEnd : Option Int
  /-- Of a checkout session. -/
  paymentStatus : String
  /-- Of an invoice: the metadata of its subscription, in the newer and in the older spelling. -/
  billingReason : String
  parentDetails : Option Metadata
  subscriptionDetails : Option Metadata
  deriving DecidableEq, Repr

structure BillingEvent where
  id : String
  type : EventType
  payload : Payload
  deriving DecidableEq, Repr

/-- A grant in the credit ledger. -/
structure CreditGrant where
  organizationId : Nat
  amount : Nat
  reason : String
  deriving DecidableEq, Repr

/-- The tables that an event reads and writes. -/
structure BillingDb where
  organizations : List Organization
  /-- The ids of `stripe_events`. -/
  stripeEvents : List String
  grants : List CreditGrant
  deriving DecidableEq, Repr

structure BillingConfig where
  prices : BillingSettings
  limits : PlanLimits

def allowanceReason : String := "plan allowance"

def extraCreditsReason : String := "extra credits"

/-- `ALLOWANCE_BILLING_REASONS`. -/
def allowanceBillingReasons : List String := ["subscription_create", "subscription_cycle"]

/-- `_organization_of`. -/
def organizationOf (payload : Payload) : Option Nat :=
  Text.uuid? (Text.strip (payload.metadata.get "organization_id" ""))

/-- The plan that metadata names, if the catalogue declares it. -/
def declaredPlan (metadata : Metadata) : Option String :=
  let plan := Text.key (metadata.get "plan" "")
  if plan ∈ planNames then some plan else none

/-- `_plan_of_invoice`. -/
def planOfInvoice (invoice : Payload) : String :=
  ([invoice.parentDetails, invoice.subscriptionDetails].findSome? (·.bind declaredPlan)).getD ""

/-- The plan whose flat price an item has; a metered item has none. -/
def planOfItem (cfg : BillingConfig) (item : SubscriptionItem) : Option String :=
  if (if item.usageType = "" then "licensed" else item.usageType) = "metered" then none
  else planNames.find? fun plan =>
    (priceFor cfg.prices plan).1 ≠ "" && Text.strip item.priceId = (priceFor cfg.prices plan).1

/-- `_plan_of_subscription`. -/
def planOfSubscription (cfg : BillingConfig) (subscription : Payload) : String :=
  match subscription.items.findSome? (planOfItem cfg) with
  | some plan => plan
  | none => (declaredPlan subscription.metadata).getD ""

/-- `_extra_credits_of_checkout`. -/
def extraCreditsOfCheckout (session : Payload) : Nat :=
  if session.metadata.get "credit_pack" "" ≠ "one_off" then 0
  else ((Text.int? (session.metadata.get "total_credits" "0")).getD 0).toNat

/-- `_period_end`. -/
def periodEnd (subscription : Payload) : Option Int :=
  subscription.currentPeriodEnd.filter (· ≠ 0)

/-- `included_credits` of a plan's limits. -/
def includedCredits (cfg : BillingConfig) (plan : String) : Nat :=
  (limitsFor cfg.limits plan).includedCredits

/-- `credit_service.grant`: the ledger refuses an organisation that has no row. -/
def grant (db : BillingDb) (organizationId amount : Nat) (reason : String) : Option BillingDb :=
  if amount = 0 then some db
  else if OrganizationRepository.getById db.organizations organizationId = none then none
  else some { db with grants := ⟨organizationId, amount, reason⟩ :: db.grants }

/-- `_apply_checkout`. -/
def applyCheckout (db : BillingDb) (session : Payload) : Option BillingDb :=
  if session.paymentStatus ∉ ["paid", "no_payment_required"] then some db
  else match organizationOf session with
  | none => some db
  | some organizationId =>
    let attached :=
      if session.customer.idOf = "" then some db.organizations
      else OrganizationRepository.attachCustomer db.organizations organizationId
        session.customer.idOf
    attached.bind fun organizations =>
      grant { db with organizations } organizationId (extraCreditsOfCheckout session)
        extraCreditsReason

/-- `_apply_subscription`. -/
def applySubscription (cfg : BillingConfig) (db : BillingDb) (subscription : Payload)
    (deleted : Bool) : BillingDb :=
  match organizationOf subscription with
  | none => db
  | some organizationId =>
    if deleted then
      { db with
        organizations := OrganizationRepository.setSubscription db.organizations organizationId ""
          (some "") "canceled" none }
    else
      let plan := planOfSubscription cfg subscription
      { db with
        organizations := OrganizationRepository.setSubscription db.organizations organizationId
          subscription.id (if plan = "" then none else some plan) subscription.status
          (periodEnd subscription) }

/-- The plan an invoice is read with: the one held, or when none is held the invoice's own. -/
def planRead (invoice : Payload) (held : String) : String :=
  if held = "" then planOfInvoice invoice else held

/-- `_apply_invoice_paid`. -/
def applyInvoicePaid (cfg : BillingConfig) (db : BillingDb) (invoice : Payload) :
    Option BillingDb :=
  if Text.strip invoice.billingReason ∉ allowanceBillingReasons then some db
  else if invoice.customer.idOf = "" then some db
  else match OrganizationRepository.getByStripeCustomer db.organizations invoice.customer.idOf with
  | none => some db
  | some organization =>
    grant db organization.id (includedCredits cfg (planRead invoice organization.plan))
      allowanceReason

/-- The effect of an event, by its type; a failed payment is recorded in the log alone. -/
def applyEvent (cfg : BillingConfig) (db : BillingDb) (event : BillingEvent) : Option BillingDb :=
  match event.type with
  | .customerSubscriptionCreated | .customerSubscriptionUpdated =>
    some (applySubscription cfg db event.payload false)
  | .customerSubscriptionDeleted => some (applySubscription cfg db event.payload true)
  | .checkoutSessionCompleted | .checkoutSessionAsyncPaymentSucceeded =>
    applyCheckout db event.payload
  | .invoicePaid => applyInvoicePaid cfg db event.payload
  | .invoicePaymentFailed | .other => some db

/-- `handle_event`, with its answer; `none` when it raises and nothing is committed. -/
def handleEvent (cfg : BillingConfig) (db : BillingDb) (event : BillingEvent) :
    Option (BillingDb × Bool) :=
  if event.type = .other then some (db, false)
  else if event.id ∈ db.stripeEvents then some (db, false)
  else (applyEvent cfg { db with stripeEvents := event.id :: db.stripeEvents } event).map (·, true)

/-- `receive`: a delivery and its acknowledgement; the provider retries one that was not
acknowledged. -/
inductive Receipt
  | received (applied : Bool)
  | notApplied
  deriving DecidableEq, Repr

def receive (cfg : BillingConfig) (db : BillingDb) (event : BillingEvent) : BillingDb × Receipt :=
  match handleEvent cfg db event with
  | some (committed, applied) => (committed, .received applied)
  | none => (db, .notApplied)

end MeshPipeline.BillingService
