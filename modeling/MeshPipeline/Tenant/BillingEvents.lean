import Mathlib.Algebra.GroupWithZero.Nat
import MeshPipeline.Application.BillingService
import MeshPipeline.Library.Inbox
import MeshPipeline.Library.Machine

/-!
# Deliveries of billing events

The provider orders nothing and repeats what was not acknowledged. An event takes effect once, in any
order; what it does to the plan and to the credits depends on what was delivered before it.
-/

namespace MeshPipeline.BillingService

open OrganizationRepository

variable {cfg : BillingConfig} {db : BillingDb} {e : BillingEvent}

/-! ## Plans -/

/-- The plan of the catalogue that a name spells, or nothing. -/
def tier (plan : String) : String := if Text.key plan ∈ planNames then Text.key plan else ""

theorem includedCredits_eq (cfg : BillingConfig) (plan : String) :
    includedCredits cfg plan =
      if Text.key plan = "starter" then 1000
      else if Text.key plan = "team" then 10000
      else if Text.key plan = "enterprise" then 100000
      else 0 := by
  unfold includedCredits limitsFor planCatalogue
  simp only [List.lookup_cons, List.lookup_nil]
  by_cases hstarter : Text.key plan = "starter"
  · simp [hstarter]
  by_cases hteam : Text.key plan = "team"
  · simp [hteam]
  by_cases henterprise : Text.key plan = "enterprise"
  · simp [henterprise]
  · simp [beq_eq_false_iff_ne.mpr hstarter, beq_eq_false_iff_ne.mpr hteam,
      beq_eq_false_iff_ne.mpr henterprise, hstarter, hteam, henterprise]

theorem tier_eq (plan : String) :
    tier plan =
      if Text.key plan = "starter" then "starter"
      else if Text.key plan = "team" then "team"
      else if Text.key plan = "enterprise" then "enterprise"
      else "" := by
  unfold tier planNames planCatalogue
  split_ifs <;> simp_all

/-- Two names include the same credits exactly when they spell the same plan. -/
theorem includedCredits_eq_iff {p q : String} :
    includedCredits cfg p = includedCredits cfg q ↔ tier p = tier q := by
  rw [includedCredits_eq, includedCredits_eq, tier_eq, tier_eq]
  split_ifs <;> decide

theorem declaredPlan_mem {metadata : Metadata} {plan : String}
    (h : declaredPlan metadata = some plan) : plan ∈ planNames := by
  simp only [declaredPlan, Option.ite_none_right_eq_some] at h
  obtain ⟨hmem, heq⟩ := h
  rwa [← Option.some.inj heq]

theorem planOfItem_mem {item : SubscriptionItem} {plan : String}
    (h : planOfItem cfg item = some plan) : plan ∈ planNames := by
  rw [planOfItem, Option.ite_none_left_eq_some] at h
  exact List.mem_of_find?_eq_some h.2

theorem planOfSubscription_mem (subscription : Payload)
    (h : planOfSubscription cfg subscription ≠ "") :
    planOfSubscription cfg subscription ∈ planNames := by
  unfold planOfSubscription at *
  split
  · rename_i plan hplan
    obtain ⟨item, _, hitem⟩ := List.exists_of_findSome?_eq_some hplan
    exact planOfItem_mem hitem
  · cases hdeclared : declaredPlan subscription.metadata with
    | none => simp_all
    | some plan => exact declaredPlan_mem hdeclared

/-- A plan of the catalogue is stored as it is named. -/
theorem upto_key_of_mem {plan : String} (h : plan ∈ planNames) :
    Text.upto 64 (Text.key plan) = plan := by
  simp only [planNames, planCatalogue, List.map_cons, List.map_nil, List.mem_cons,
    List.not_mem_nil, or_false] at h
  rcases h with rfl | rfl | rfl <;> decide

/-! ## One delivery -/

/-- What an event adds to the tables it finds. -/
def onTop (db added : BillingDb) : BillingDb :=
  ⟨added.organizations, db.stripeEvents, added.grants ++ db.grants⟩

theorem grant_onTop (db : BillingDb) (id amount : Nat) (reason : String) :
    grant db id amount reason =
      (grant ⟨db.organizations, [], []⟩ id amount reason).map (onTop db) := by
  unfold grant
  by_cases hamount : amount = 0
  · simp [hamount, onTop]
  · by_cases hrow : getById db.organizations id = none <;> simp [hamount, hrow, onTop]

/-- No event reads the claims or the ledger, and what it grants goes on top of the ledger. -/
theorem applyEvent_onTop (db : BillingDb) (e : BillingEvent) :
    applyEvent cfg db e = (applyEvent cfg ⟨db.organizations, [], []⟩ e).map (onTop db) := by
  have hsubscription (deleted : Bool) : some (applySubscription cfg db e.payload deleted) =
      (some (applySubscription cfg ⟨db.organizations, [], []⟩ e.payload deleted)).map
        (onTop db) := by
    unfold applySubscription
    cases organizationOf e.payload with
    | none => rfl
    | some id => cases deleted <;> rfl
  have hcheckout : applyCheckout db e.payload =
      (applyCheckout ⟨db.organizations, [], []⟩ e.payload).map (onTop db) := by
    unfold applyCheckout
    split
    · rfl
    · cases organizationOf e.payload with
      | none => rfl
      | some id =>
        dsimp only
        rw [Option.map_bind]
        refine congrArg _ (funext fun rows => ?_)
        exact grant_onTop { db with organizations := rows } id _ _
  have hinvoice : applyInvoicePaid cfg db e.payload =
      (applyInvoicePaid cfg ⟨db.organizations, [], []⟩ e.payload).map (onTop db) := by
    unfold applyInvoicePaid
    split
    · rfl
    · split
      · rfl
      · cases getByStripeCustomer db.organizations e.payload.customer.idOf with
        | none => rfl
        | some organization => exact grant_onTop db _ _ _
  unfold applyEvent
  cases e.type with
  | customerSubscriptionCreated => exact hsubscription false
  | customerSubscriptionUpdated => exact hsubscription false
  | customerSubscriptionDeleted => exact hsubscription true
  | checkoutSessionCompleted => exact hcheckout
  | checkoutSessionAsyncPaymentSucceeded => exact hcheckout
  | invoicePaid => exact hinvoice
  | invoicePaymentFailed => rfl
  | other => rfl

theorem stripeEvents_applyEvent {db' : BillingDb} (h : applyEvent cfg db e = some db') :
    db'.stripeEvents = db.stripeEvents := by
  rw [applyEvent_onTop] at h
  obtain ⟨added, _, rfl⟩ := Option.map_eq_some_iff.mp h
  rfl

theorem receive_other (h : e.type = .other) : receive cfg db e = (db, .received false) := by
  simp [receive, handleEvent, h]

theorem receive_claimed (h : e.id ∈ db.stripeEvents) :
    receive cfg db e = (db, .received false) := by
  by_cases hother : e.type = .other
  · exact receive_other hother
  · simp [receive, handleEvent, hother, h]

theorem receive_fresh (htype : e.type ≠ .other) (h : e.id ∉ db.stripeEvents) :
    receive cfg db e =
      match applyEvent cfg { db with stripeEvents := e.id :: db.stripeEvents } e with
      | some committed => (committed, .received true)
      | none => (db, .notApplied) := by
  simp only [receive, handleEvent, htype, h, if_false]
  cases applyEvent cfg { db with stripeEvents := e.id :: db.stripeEvents } e <;> rfl

/-- What one delivery can do: nothing, or the claim and the effect together. -/
theorem receive_cases (cfg : BillingConfig) (db : BillingDb) (e : BillingEvent) :
    ((receive cfg db e).1 = db ∧ (receive cfg db e).2 ≠ .received true) ∨
    (e.type ≠ .other ∧ e.id ∉ db.stripeEvents ∧ (receive cfg db e).2 = .received true ∧
      applyEvent cfg { db with stripeEvents := e.id :: db.stripeEvents } e =
        some (receive cfg db e).1) := by
  by_cases hother : e.type = .other
  · left
    simp [receive_other hother]
  by_cases hseen : e.id ∈ db.stripeEvents
  · left
    simp [receive_claimed hseen]
  rw [receive_fresh hother hseen]
  cases applyEvent cfg { db with stripeEvents := e.id :: db.stripeEvents } e with
  | none => exact .inl ⟨rfl, by simp⟩
  | some committed => exact .inr ⟨hother, hseen, rfl, rfl⟩

/-- The webhook as a receiver of events. -/
def inbox (cfg : BillingConfig) : Inbox BillingDb BillingEvent String where
  receive db e := ((receive cfg db e).1, decide ((receive cfg db e).2 = .received true))
  key := BillingEvent.id
  seen := BillingDb.stripeEvents
  refused h := by simp [receive_claimed h]
  ignored {db e} h := by
    rcases receive_cases cfg db e with ⟨heq, _⟩ | ⟨_, _, happlied, _⟩
    · exact heq
    · exact absurd happlied (of_decide_eq_false h)
  recorded {db e} h := by
    rcases receive_cases cfg db e with ⟨_, hrefused⟩ | ⟨_, _, _, heffect⟩
    · exact absurd (of_decide_eq_true h) hrefused
    · exact stripeEvents_applyEvent heffect

/-- The state after a row of deliveries. -/
abbrev after (cfg : BillingConfig) (db : BillingDb) (es : List BillingEvent) : BillingDb :=
  (inbox cfg).after db es

/-! ## Events of a subscription -/

/-- `event.type.startswith("customer.subscription.")`. -/
def BillingEvent.isSubscription (e : BillingEvent) : Prop :=
  e.type = .customerSubscriptionCreated ∨ e.type = .customerSubscriptionUpdated ∨
    e.type = .customerSubscriptionDeleted

instance (e : BillingEvent) : Decidable e.isSubscription :=
  inferInstanceAs (Decidable (_ ∨ _ ∨ _))

/-- The event is about the subscription that the organisation holds. -/
def BillingEvent.NamesHeld (e : BillingEvent) (row : Organization) : Prop :=
  e.isSubscription ∧ row.stripeSubscriptionId = some (Text.upto 255 (Text.strip e.payload.id))

instance (e : BillingEvent) (row : Organization) : Decidable (e.NamesHeld row) :=
  inferInstanceAs (Decidable (_ ∧ _))

/-- The row that an event of its subscription leaves. -/
def leaves (cfg : BillingConfig) (e : BillingEvent) (row : Organization) : Organization :=
  if e.type = .customerSubscriptionDeleted then subscribed row "" (some "") "canceled" none
  else subscribed row e.payload.id
    (if planOfSubscription cfg e.payload = "" then none
      else some (planOfSubscription cfg e.payload))
    e.payload.status (periodEnd e.payload)

/-- The plan that the event leaves in the place of a plan. -/
def planLeft (cfg : BillingConfig) (e : BillingEvent) (held : String) : String :=
  if e.type = .customerSubscriptionDeleted then ""
  else if planOfSubscription cfg e.payload = "" then held
  else planOfSubscription cfg e.payload

def rewritten (cfg : BillingConfig) (e : BillingEvent) (rows : List Organization) :
    List Organization :=
  match organizationOf e.payload with
  | none => rows
  | some id => update rows id (leaves cfg e)

theorem plan_leaves (row : Organization) : (leaves cfg e row).plan = planLeft cfg e row.plan := by
  unfold leaves planLeft
  by_cases hdeleted : e.type = .customerSubscriptionDeleted
  · simp only [hdeleted, if_true, subscribed, Option.map_some, Option.getD_some]
    decide
  · by_cases hplan : planOfSubscription cfg e.payload = ""
    · simp [hdeleted, hplan, subscribed]
    · simpa [hdeleted, hplan, subscribed] using upto_key_of_mem (planOfSubscription_mem _ hplan)

theorem id_leaves (row : Organization) : (leaves cfg e row).id = row.id := by
  by_cases hdeleted : e.type = .customerSubscriptionDeleted <;> simp [leaves, hdeleted]

theorem customer_leaves (row : Organization) :
    (leaves cfg e row).stripeCustomerId = row.stripeCustomerId := by
  by_cases hdeleted : e.type = .customerSubscriptionDeleted <;> simp [leaves, hdeleted]

theorem getById_rewritten (rows : List Organization) (key : Nat) :
    getById (rewritten cfg e rows) key =
      (getById rows key).map fun row =>
        if organizationOf e.payload = some row.id then leaves cfg e row else row := by
  unfold rewritten
  cases organizationOf e.payload with
  | none => simp
  | some id =>
    rw [getById_update _ _ id_leaves]
    simp [eq_comm]

theorem getByStripeCustomer_rewritten (rows : List Organization) (customer : String) :
    getByStripeCustomer (rewritten cfg e rows) customer =
      (getByStripeCustomer rows customer).map fun row =>
        if organizationOf e.payload = some row.id then leaves cfg e row else row := by
  unfold rewritten
  cases organizationOf e.payload with
  | none => simp
  | some id =>
    rw [getByStripeCustomer_update _ _ customer_leaves]
    simp [eq_comm]

theorem applyEvent_subscription (h : e.isSubscription) (db : BillingDb) :
    applyEvent cfg db e = some { db with organizations := rewritten cfg e db.organizations } := by
  unfold applyEvent applySubscription rewritten setSubscription leaves
  rcases h with htype | htype | htype <;> rw [htype] <;>
    cases organizationOf e.payload <;> simp

theorem receive_subscription (h : e.isSubscription) (hfresh : e.id ∉ db.stripeEvents) :
    (receive cfg db e).1 =
      ⟨rewritten cfg e db.organizations, e.id :: db.stripeEvents, db.grants⟩ := by
  have htype : e.type ≠ .other := by
    rcases h with h | h | h <;> rw [h] <;> decide
  rw [receive_fresh htype hfresh, applyEvent_subscription h]

theorem organizations_grant {db' : BillingDb} {id amount : Nat} {reason : String}
    (h : grant db id amount reason = some db') : db'.organizations = db.organizations := by
  unfold grant at h
  split at h
  · rw [← Option.some.inj h]
  · rw [Option.ite_none_left_eq_some] at h
    rw [← Option.some.inj h.2]

/-- An event of another kind leaves every plan as it is. -/
theorem plan_applyEvent {db' : BillingDb} (h : ¬ e.isSubscription)
    (heffect : applyEvent cfg db e = some db') (key : Nat) :
    (getById db'.organizations key).map (·.plan) = (getById db.organizations key).map (·.plan) := by
  have hcheckout (hc : applyCheckout db e.payload = some db') :
      (getById db'.organizations key).map (·.plan) =
        (getById db.organizations key).map (·.plan) := by
    unfold applyCheckout at hc
    split at hc
    · rw [← Option.some.inj hc]
    · cases hid : organizationOf e.payload with
      | none =>
        rw [hid] at hc
        rw [← Option.some.inj hc]
      | some id =>
        rw [hid] at hc
        obtain ⟨rows, hrows, hgrant⟩ := Option.bind_eq_some_iff.mp hc
        rw [organizations_grant hgrant]
        split at hrows
        · rw [← Option.some.inj hrows]
        · exact plan_attachCustomer hrows key
  have hinvoice (hi : applyInvoicePaid cfg db e.payload = some db') :
      db'.organizations = db.organizations := by
    unfold applyInvoicePaid at hi
    split at hi
    · rw [← Option.some.inj hi]
    · split at hi
      · rw [← Option.some.inj hi]
      · cases hrow : getByStripeCustomer db.organizations e.payload.customer.idOf with
        | none =>
          rw [hrow] at hi
          rw [← Option.some.inj hi]
        | some organization =>
          rw [hrow] at hi
          exact organizations_grant hi
  unfold applyEvent at heffect
  cases htype : e.type <;> rw [htype] at heffect
  case customerSubscriptionCreated => exact absurd (.inl htype) h
  case customerSubscriptionUpdated => exact absurd (.inr (.inl htype)) h
  case customerSubscriptionDeleted => exact absurd (.inr (.inr htype)) h
  case checkoutSessionCompleted => exact hcheckout heffect
  case checkoutSessionAsyncPaymentSucceeded => exact hcheckout heffect
  case invoicePaid => rw [hinvoice heffect]
  case invoicePaymentFailed => rw [← Option.some.inj heffect]
  case other => rw [← Option.some.inj heffect]

/-! ## The held plan -/

/-- The plan of a row was neither cleared nor replaced by one that includes less. -/
def Kept (cfg : BillingConfig) (before later : Organization) : Prop :=
  (before.plan ≠ "" → later.plan ≠ "") ∧
    includedCredits cfg before.plan ≤ includedCredits cfg later.plan

/-- A delivery that is not about the subscription an organisation holds keeps the plan it holds. -/
def KeepsHeldPlan (cfg : BillingConfig) (db : BillingDb) (e : BillingEvent) : Prop :=
  ∀ id before later, getById db.organizations id = some before →
    getById (receive cfg db e).1.organizations id = some later → ¬ e.NamesHeld before →
    Kept cfg before later

/-- An event of a subscription that its organisation does not hold is no deletion and names no lower
plan, if the organisation has a plan at all. -/
def Supersedes (cfg : BillingConfig) (db : BillingDb) (e : BillingEvent) : Prop :=
  e.isSubscription → e.id ∉ db.stripeEvents → ∀ row,
    (organizationOf e.payload).bind (getById db.organizations) = some row → ¬ e.NamesHeld row →
    row.plan = "" ∨ e.type ≠ .customerSubscriptionDeleted ∧
      (planOfSubscription cfg e.payload = "" ∨
        includedCredits cfg row.plan ≤ includedCredits cfg (planOfSubscription cfg e.payload))

theorem kept_of_plan {before later : Organization} (h : later.plan = before.plan) :
    Kept cfg before later := by
  rw [Kept, h]
  exact ⟨id, Nat.le_refl _⟩

theorem includedCredits_empty (cfg : BillingConfig) : includedCredits cfg "" = 0 := by
  rw [includedCredits_eq]
  decide

theorem kept_leaves_iff (row : Organization) :
    Kept cfg row (leaves cfg e row) ↔
      row.plan = "" ∨ e.type ≠ .customerSubscriptionDeleted ∧
        (planOfSubscription cfg e.payload = "" ∨
          includedCredits cfg row.plan ≤
            includedCredits cfg (planOfSubscription cfg e.payload)) := by
  rw [Kept, plan_leaves, planLeft]
  by_cases hrow : row.plan = ""
  · simp [hrow, includedCredits_empty]
  by_cases hdeleted : e.type = .customerSubscriptionDeleted
  · simp [hrow, hdeleted]
  by_cases hplan : planOfSubscription cfg e.payload = ""
  · simp [hrow, hdeleted, hplan]
  · simp [hrow, hdeleted, hplan]

/-- Outside the events of a subscription that take effect, no plan changes. -/
theorem plan_receive (cfg : BillingConfig) (h : ¬ (e.isSubscription ∧ e.id ∉ db.stripeEvents))
    (key : Nat) :
    (getById (receive cfg db e).1.organizations key).map (·.plan) =
      (getById db.organizations key).map (·.plan) := by
  rcases receive_cases cfg db e with ⟨hsame, _⟩ | ⟨_, hfresh, _, heffect⟩
  · rw [hsame]
  · have hother : ¬ e.isSubscription := fun hs => h ⟨hs, hfresh⟩
    exact plan_applyEvent hother heffect key

/-- A delivery keeps the held plan of the others exactly when it supersedes. -/
theorem keepsHeldPlan_iff : KeepsHeldPlan cfg db e ↔ Supersedes cfg db e := by
  by_cases h : e.isSubscription ∧ e.id ∉ db.stripeEvents
  · obtain ⟨hs, hfresh⟩ := h
    constructor
    · intro hkeeps _ _ row hrow hother
      obtain ⟨id, hid, hrow⟩ := Option.bind_eq_some_iff.mp hrow
      have hkey : row.id = id := by simpa using List.find?_some hrow
      have hlater : getById (receive cfg db e).1.organizations id = some (leaves cfg e row) := by
        rw [receive_subscription hs hfresh]
        simp only [getById_rewritten, hrow, hid, hkey, Option.map_some, if_true]
      exact kept_leaves_iff row |>.mp (hkeeps id row _ hrow hlater hother)
    · intro hsupersedes id before later hbefore hlater hother
      have hkey : before.id = id := by simpa using List.find?_some hbefore
      rw [receive_subscription hs hfresh] at hlater
      simp only [getById_rewritten, hbefore, Option.map_some, hkey] at hlater
      rw [← Option.some.inj hlater]
      by_cases hid : organizationOf e.payload = some id
      · rw [if_pos hid, kept_leaves_iff]
        exact hsupersedes hs hfresh before (by rw [hid, Option.bind_some, hbefore]) hother
      · rw [if_neg hid]
        exact kept_of_plan rfl
  · constructor
    · exact fun _ hs hfresh => absurd ⟨hs, hfresh⟩ h
    · intro _ id before later hbefore hlater _
      have hplan := plan_receive cfg h id
      rw [hbefore, hlater] at hplan
      exact kept_of_plan (Option.some.inj hplan)

/-! ## The credits of a period -/

/-- The organisation whose allowance an invoice pays for. -/
def allowed (rows : List Organization) (invoice : Payload) : Option Organization :=
  if Text.strip invoice.billingReason ∈ allowanceBillingReasons ∧ invoice.customer.idOf ≠ "" then
    getByStripeCustomer rows invoice.customer.idOf
  else none

/-- What a paid invoice puts on the ledger. -/
def allowance (cfg : BillingConfig) (rows : List Organization) (invoice : Payload) :
    List CreditGrant :=
  match allowed rows invoice with
  | none => []
  | some row =>
    if includedCredits cfg (planRead invoice row.plan) = 0 then []
    else [⟨row.id, includedCredits cfg (planRead invoice row.plan), allowanceReason⟩]

/-- The credits of an organisation among some grants. -/
def credited (grants : List CreditGrant) (organizationId : Nat) : Nat :=
  ((grants.filter (·.organizationId = organizationId)).map (·.amount)).sum

/-- The credits an organisation was granted. -/
def granted (db : BillingDb) (organizationId : Nat) : Nat := credited db.grants organizationId

theorem credited_append (gs hs : List CreditGrant) (id : Nat) :
    credited (gs ++ hs) id = credited gs id + credited hs id := by
  simp [credited]

theorem credited_allowance (rows : List Organization) (invoice : Payload) (id : Nat) :
    credited (allowance cfg rows invoice) id =
      match allowed rows invoice with
      | none => 0
      | some row =>
        if row.id = id then includedCredits cfg (planRead invoice row.plan) else 0 := by
  unfold allowance
  cases allowed rows invoice with
  | none => rfl
  | some row =>
    by_cases hzero : includedCredits cfg (planRead invoice row.plan) = 0
    · simp [hzero, credited]
    · by_cases hid : row.id = id <;> simp [hzero, hid, credited]

theorem applyInvoicePaid_eq (db : BillingDb) (invoice : Payload) :
    applyInvoicePaid cfg db invoice =
      some { db with grants := allowance cfg db.organizations invoice ++ db.grants } := by
  unfold applyInvoicePaid allowance allowed
  by_cases hreason : Text.strip invoice.billingReason ∈ allowanceBillingReasons
  · by_cases hcustomer : invoice.customer.idOf = ""
    · simp [hreason, hcustomer]
    · cases hrow : getByStripeCustomer db.organizations invoice.customer.idOf with
      | none => simp [hreason, hcustomer]
      | some row =>
        have hsome := getById_isSome_of_customer hrow
        have hne : getById db.organizations row.id ≠ none := Option.isSome_iff_ne_none.mp hsome
        by_cases hzero : includedCredits cfg (planRead invoice row.plan) = 0 <;>
          simp [hreason, hcustomer, grant, hne, hzero]
  · simp [hreason]

theorem receive_invoice (cfg : BillingConfig) (h : e.type = .invoicePaid)
    (hfresh : e.id ∉ db.stripeEvents) :
    (receive cfg db e).1 =
      ⟨db.organizations, e.id :: db.stripeEvents,
        allowance cfg db.organizations e.payload ++ db.grants⟩ := by
  have htype : e.type ≠ .other := by
    rw [h]
    decide
  rw [receive_fresh htype hfresh, applyEvent, h]
  simp only [applyInvoicePaid_eq]

/-- The organisation an invoice credits, and the plan it credits for. -/
def creditsRead (rows : List Organization) (invoice : Payload) : Option (Nat × String) :=
  (allowed rows invoice).bind fun row =>
    if tier (planRead invoice row.plan) = "" then none
    else some (row.id, tier (planRead invoice row.plan))

theorem includedCredits_eq_zero_iff {plan : String} :
    includedCredits cfg plan = 0 ↔ tier plan = "" := by
  have hempty : tier "" = "" := by decide
  rw [← includedCredits_empty cfg, includedCredits_eq_iff, hempty]

theorem tier_tier (plan : String) : tier (tier plan) = tier plan := by
  rw [tier_eq plan]
  split_ifs <;> decide

/-- An invoice credits for a plan of the catalogue, which includes some credits. -/
theorem pos_of_creditsRead (cfg : BillingConfig) {rows : List Organization} {invoice : Payload}
    {id : Nat} {plan : String}
    (h : creditsRead rows invoice = some (id, plan)) :
    tier plan = plan ∧ 0 < includedCredits cfg plan := by
  obtain ⟨row, _, hread⟩ := Option.bind_eq_some_iff.mp h
  rw [Option.ite_none_left_eq_some] at hread
  obtain ⟨hne, heq⟩ := hread
  obtain ⟨rfl, rfl⟩ := Prod.mk.inj (Option.some.inj heq)
  refine ⟨tier_tier _, Nat.pos_of_ne_zero fun hzero => hne ?_⟩
  rwa [includedCredits_eq_zero_iff, tier_tier] at hzero

theorem credited_allowance_of_read (cfg : BillingConfig) (rows : List Organization)
    (invoice : Payload) (id : Nat) :
    credited (allowance cfg rows invoice) id =
      match creditsRead rows invoice with
      | none => 0
      | some (organizationId, plan) =>
        if organizationId = id then includedCredits cfg plan else 0 := by
  rw [credited_allowance]
  unfold creditsRead
  cases allowed rows invoice with
  | none => rfl
  | some row =>
    by_cases hzero : tier (planRead invoice row.plan) = ""
    · simp [hzero, includedCredits_eq_zero_iff.mpr hzero]
    · simp [hzero, includedCredits_eq_iff.mpr (tier_tier (planRead invoice row.plan))]

/-- Two states of the table give an invoice the same grant exactly when it credits the same
organisation for the same plan. -/
theorem credited_allowance_eq_iff (cfg : BillingConfig) (rows rows' : List Organization)
    (invoice : Payload) :
    (∀ id, credited (allowance cfg rows invoice) id = credited (allowance cfg rows' invoice) id) ↔
      creditsRead rows invoice = creditsRead rows' invoice := by
  simp only [credited_allowance_of_read]
  constructor
  · intro h
    cases hread : creditsRead rows invoice with
    | none =>
      cases hread' : creditsRead rows' invoice with
      | none => rfl
      | some read' =>
        have hpos := (pos_of_creditsRead cfg hread').2
        have hid := h read'.1
        simp only [hread, hread', if_true] at hid
        omega
    | some read =>
      have hpos := (pos_of_creditsRead cfg hread).2
      have hid := h read.1
      cases hread' : creditsRead rows' invoice with
      | none =>
        simp only [hread, hread', if_true] at hid
        omega
      | some read' =>
        simp only [hread, hread', if_true] at hid
        by_cases horg : read'.1 = read.1
        · simp only [horg, if_true] at hid
          have hplan : read.2 = read'.2 := by
            rw [← (pos_of_creditsRead cfg hread).1,
              ← (pos_of_creditsRead cfg hread').1]
            exact includedCredits_eq_iff.mp hid
          rw [Prod.ext horg.symm hplan]
        · simp only [horg, if_false] at hid
          omega
  · intro h id
    rw [h]

/-- The two states hold the same rows and, of the ids in question, the same claims. -/
def Alike (P : String → Prop) (a b : BillingDb) : Prop :=
  a.organizations = b.organizations ∧ ∀ id, P id → (id ∈ a.stripeEvents ↔ id ∈ b.stripeEvents)

/-- Alike states with the same grants on top of two ledgers. -/
def AlikeOver (P : String → Prop) (gs hs : List CreditGrant) (a b : BillingDb) : Prop :=
  Alike P a b ∧ ∃ added, a.grants = added ++ gs ∧ b.grants = added ++ hs

theorem alikeOver_receive {P : String → Prop} {gs hs : List CreditGrant} {a b : BillingDb}
    (h : AlikeOver P gs hs a b) (hP : P e.id) :
    AlikeOver P gs hs (receive cfg a e).1 (receive cfg b e).1 := by
  have hstay := h
  obtain ⟨⟨hrows, hclaims⟩, added, ha, hb⟩ := h
  by_cases hother : e.type = .other
  · rwa [receive_other hother, receive_other hother]
  by_cases hseen : e.id ∈ a.stripeEvents
  · rwa [receive_claimed hseen, receive_claimed ((hclaims e.id hP).mp hseen)]
  have hseen' : e.id ∉ b.stripeEvents := fun hmem => hseen ((hclaims e.id hP).mpr hmem)
  rw [receive_fresh hother hseen, receive_fresh hother hseen', applyEvent_onTop,
    applyEvent_onTop { b with stripeEvents := e.id :: b.stripeEvents }, ← hrows]
  cases applyEvent cfg ⟨a.organizations, [], []⟩ e with
  | none => exact hstay
  | some d =>
    refine ⟨⟨rfl, fun id hid => ?_⟩, d.grants ++ added, ?_, ?_⟩
    · simp [onTop, hclaims id hid]
    · simp [onTop, ha]
    · simp [onTop, hb]

theorem alikeOver_after (cfg : BillingConfig) {P : String → Prop} {a b : BillingDb}
    (h : Alike P a b)
    {es : List BillingEvent} (hP : ∀ e ∈ es, P e.id) :
    AlikeOver P a.grants b.grants (after cfg a es) (after cfg b es) :=
  Inbox.after_relates ⟨h, [], rfl, rfl⟩ fun _ _ e he hst => alikeOver_receive hst (hP e he)

/-- What is delivered later grants the same on both ledgers. -/
theorem granted_after_eq_iff {a b : BillingDb} (h : Alike (fun _ => True) a b)
    (later : List BillingEvent) (id : Nat) :
    granted (after cfg a later) id = granted (after cfg b later) id ↔
      granted a id = granted b id := by
  obtain ⟨_, added, ha, hb⟩ := alikeOver_after cfg h fun e (_ : e ∈ later) => trivial
  unfold granted
  rw [ha, hb, credited_append, credited_append]
  omega

/-- An invoice that is delivered before or after some deliveries grants the same exactly when they
leave the plan that it is read with. -/
theorem granted_delayed_iff {i : BillingEvent} (hi : i.type = .invoicePaid)
    (hfresh : i.id ∉ db.stripeEvents) {es : List BillingEvent} (hes : ∀ e ∈ es, e.id ≠ i.id)
    (later : List BillingEvent) :
    (∀ id, granted (after cfg db (es ++ i :: later)) id =
        granted (after cfg db (i :: es ++ later)) id) ↔
      creditsRead (after cfg db es).organizations i.payload =
        creditsRead db.organizations i.payload := by
  let receiver := inbox cfg
  have hfirst := receive_invoice cfg hi hfresh
  -- Up to the claim of the invoice, the deliveries lead to the same state in both orders.
  have halike : Alike (· ≠ i.id) db (receive cfg db i).1 := by
    rw [hfirst]
    exact ⟨rfl, fun id hid => by simp [hid]⟩
  obtain ⟨⟨hrows, hclaims⟩, added, ha, hb⟩ := alikeOver_after cfg halike hes
  have hclaimed : i.id ∈ (after cfg (receive cfg db i).1 es).stripeEvents := by
    refine receiver.mem_seen_after ?_
    change i.id ∈ (receive cfg db i).1.stripeEvents
    rw [hfirst]
    exact List.mem_cons_self
  have hfresh' : i.id ∉ (after cfg db es).stripeEvents :=
    fun h => hfresh (receiver.mem_seen_of_after h hes)
  have hsecond := receive_invoice cfg hi hfresh'
  have hboth : Alike (fun _ => True) (receive cfg (after cfg db es) i).1
      (after cfg (receive cfg db i).1 es) := by
    rw [hsecond]
    refine ⟨hrows, fun id _ => ?_⟩
    by_cases hid : id = i.id
    · simp [hid, hclaimed]
    · simp [hid, hclaims id hid]
  have hgranted (id : Nat) :
      granted (after cfg db (es ++ i :: later)) id =
          granted (after cfg db (i :: es ++ later)) id ↔
        credited (allowance cfg (after cfg db es).organizations i.payload) id =
          credited (allowance cfg db.organizations i.payload) id := by
    have hleft : after cfg db (es ++ i :: later) =
        after cfg (receive cfg (after cfg db es) i).1 later := receiver.after_append
    have hright : after cfg db (i :: es ++ later) =
        after cfg (after cfg (receive cfg db i).1 es) later := receiver.after_append
    rw [hleft, hright, granted_after_eq_iff hboth, granted, granted, hsecond, hb, ha, hfirst]
    simp only [credited_append]
    omega
  rw [forall_congr' hgranted, credited_allowance_eq_iff]

/-- Both would take effect, and the plan that the invoice is read with in the organisation it pays
for is the same after the event. -/
def SamePlanRead (cfg : BillingConfig) (db : BillingDb) (s i : BillingEvent) : Prop :=
  s.id ∉ db.stripeEvents → i.id ∉ db.stripeEvents → ∀ row,
    allowed db.organizations i.payload = some row → organizationOf s.payload = some row.id →
    tier (planRead i.payload (planLeft cfg s row.plan)) = tier (planRead i.payload row.plan)

theorem creditsRead_rewritten_iff (s : BillingEvent) (rows : List Organization)
    (invoice : Payload) :
    creditsRead (rewritten cfg s rows) invoice = creditsRead rows invoice ↔
      ∀ row, allowed rows invoice = some row → organizationOf s.payload = some row.id →
        tier (planRead invoice (planLeft cfg s row.plan)) = tier (planRead invoice row.plan) := by
  have hallowed : allowed (rewritten cfg s rows) invoice =
      (allowed rows invoice).map fun row =>
        if organizationOf s.payload = some row.id then leaves cfg s row else row := by
    unfold allowed
    split
    · exact getByStripeCustomer_rewritten rows _
    · rfl
  unfold creditsRead
  rw [hallowed]
  cases allowed rows invoice with
  | none => simp
  | some row =>
    by_cases horg : organizationOf s.payload = some row.id
    · simp only [Option.map_some, Option.bind_some, horg, if_true, id_leaves, plan_leaves,
        Option.some.injEq, forall_eq', forall_const]
      split_ifs <;> simp_all
    · simp [horg]

/-- The two orders of a subscription's event and an invoice grant the same exactly when the invoice
is read with the same plan. -/
theorem granted_exchange_iff {s i : BillingEvent} (hs : s.isSubscription)
    (hi : i.type = .invoicePaid) (hne : s.id ≠ i.id) (db : BillingDb)
    (later : List BillingEvent) :
    (∀ id, granted (after cfg db (s :: i :: later)) id =
        granted (after cfg db (i :: s :: later)) id) ↔ SamePlanRead cfg db s i := by
  let receiver := inbox cfg
  by_cases hi' : i.id ∈ db.stripeEvents
  · have hfirst : (receiver.receive db i).1 = db := receiver.receive_seen hi'
    have hsecond : (receiver.receive (receiver.receive db s).1 i).1 = (receiver.receive db s).1 :=
      receiver.receive_seen (receiver.mem_seen_receive hi')
    refine ⟨fun _ _ hfresh => absurd hi' hfresh, fun _ id => ?_⟩
    rw [after, after, Inbox.after_cons, Inbox.after_cons, Inbox.after_cons, Inbox.after_cons,
      hfirst, hsecond]
  have hother : ∀ e ∈ [s], e.id ≠ i.id := by simpa using hne
  refine (granted_delayed_iff hi hi' hother later).trans ?_
  by_cases hs' : s.id ∈ db.stripeEvents
  · have hsame : after cfg db [s] = db := receiver.receive_seen hs'
    rw [hsame]
    exact ⟨fun _ hfresh => absurd hs' hfresh, fun _ => rfl⟩
  · have hafter : after cfg db [s] = (receive cfg db s).1 := rfl
    rw [hafter, receive_subscription hs hs', creditsRead_rewritten_iff]
    exact ⟨fun h _ _ => h, fun h => h hs' hi'⟩

/-! ## Every run -/

def machine (cfg : BillingConfig) : Transition.Machine BillingDb BillingEvent :=
  ⟨fun db e => some (receive cfg db e).1⟩

/-- In every row of deliveries an event takes effect at most once, and one that does not changes
nothing. The deliveries keep every held plan from the events of other subscriptions exactly when
these supersede it. A paid invoice grants the same before and after any deliveries exactly when they
leave the plan that it is read with; of one event of a subscription, that is the plan it leaves. -/
theorem billing_events_commute (cfg : BillingConfig) (db : BillingDb) (es : List BillingEvent) :
    (((inbox cfg).effects db es).Nodup ∧
      ∀ e, (receive cfg (after cfg db es) e).2 ≠ .received true →
        (receive cfg (after cfg db es) e).1 = after cfg db es) ∧
    ((machine cfg).Meets (KeepsHeldPlan cfg) db es ↔ (machine cfg).Meets (Supersedes cfg) db es) ∧
    (∀ i, i.type = .invoicePaid → i.id ∉ (after cfg db es).stripeEvents →
      ∀ between later, (∀ e ∈ between, e.id ≠ i.id) →
        ((∀ id, granted (after cfg db (es ++ (between ++ i :: later))) id =
            granted (after cfg db (es ++ (i :: between ++ later))) id) ↔
          creditsRead (after cfg db (es ++ between)).organizations i.payload =
            creditsRead (after cfg db es).organizations i.payload)) ∧
    ∀ s i, s.isSubscription → i.type = .invoicePaid → s.id ≠ i.id → ∀ later,
      ((∀ id, granted (after cfg db (es ++ s :: i :: later)) id =
          granted (after cfg db (es ++ i :: s :: later)) id) ↔
        SamePlanRead cfg (after cfg db es) s i) := by
  have happend (later : List BillingEvent) :
      after cfg db (es ++ later) = after cfg (after cfg db es) later := Inbox.after_append
  simp only [happend]
  refine ⟨⟨Inbox.nodup_effects db es, fun e h => ?_⟩, ⟨?_, ?_⟩, ?_, ?_⟩
  · rcases receive_cases cfg (after cfg db es) e with ⟨hsame, _⟩ | ⟨_, _, happlied, _⟩
    · exact hsame
    · exact absurd happlied h
  · exact Transition.Machine.meets_mono fun _ _ => keepsHeldPlan_iff.mp
  · exact Transition.Machine.meets_mono fun _ _ => keepsHeldPlan_iff.mpr
  · intro i hi hfresh between later hbetween
    exact granted_delayed_iff hi hfresh hbetween later
  · intro s i hs hi hne later
    exact granted_exchange_iff hs hi hne _ later

/-! ## A late deletion and an early renewal -/

def twoTiers : BillingConfig := ⟨⟨"price_starter", "", "price_team", ""⟩, ⟨50, 3, 60, 0⟩⟩

/-- An organisation on the starter plan. -/
def starter : BillingDb :=
  ⟨[⟨1, some "cus_1", some "sub_1", "starter", "active", none⟩], [], []⟩

def subscriptionPayload (id priceId : String) : Payload where
  id := id
  metadata := [("organization_id", "00000000-0000-0000-0000-000000000001"), ("plan", "starter")]
  customer := .bare "cus_1"
  status := "active"
  items := [⟨priceId, "licensed"⟩]
  currentPeriodEnd := some 1790000000
  paymentStatus := ""
  billingReason := ""
  parentDetails := none
  subscriptionDetails := none

def invoicePayload : Payload where
  id := "in_1"
  metadata := []
  customer := .bare "cus_1"
  status := "paid"
  items := []
  currentPeriodEnd := none
  paymentStatus := ""
  billingReason := "subscription_cycle"
  parentDetails := some [("plan", "starter")]
  subscriptionDetails := none

/-- The organisation takes a subscription of the team plan. -/
def moved : BillingEvent :=
  ⟨"evt_1", .customerSubscriptionCreated, subscriptionPayload "sub_2" "price_team"⟩

/-- The end of the subscription it had before. -/
def lateDeletion : BillingEvent :=
  ⟨"evt_2", .customerSubscriptionDeleted, subscriptionPayload "sub_1" "price_starter"⟩

/-- The organisation changes its own subscription to the team plan. -/
def upgraded : BillingEvent :=
  ⟨"evt_3", .customerSubscriptionUpdated, subscriptionPayload "sub_1" "price_team"⟩

def renewal : BillingEvent := ⟨"evt_4", .invoicePaid, invoicePayload⟩

theorem late_deletion_clears_plan :
    ¬ (machine twoTiers).Meets (KeepsHeldPlan twoTiers) starter [moved, lateDeletion] ∧
    granted (after twoTiers starter [upgraded, renewal]) 1 = 10000 ∧
    granted (after twoTiers starter [renewal, upgraded]) 1 = 1000 := by
  refine ⟨?_, by decide +kernel, by decide +kernel⟩
  intro hmeets
  let holding := (receive twoTiers starter moved).1
  have hkeeps : KeepsHeldPlan twoTiers holding lateDeletion := (hmeets.2 holding rfl).1
  have hbefore : getById holding.organizations 1 =
      some ⟨1, some "cus_1", some "sub_2", "team", "active", some 1790000000⟩ := by decide +kernel
  have hlater : getById (receive twoTiers holding lateDeletion).1.organizations 1 =
      some ⟨1, some "cus_1", none, "", "canceled", none⟩ := by decide +kernel
  have hother : ¬ lateDeletion.NamesHeld
      ⟨1, some "cus_1", some "sub_2", "team", "active", some 1790000000⟩ := by decide +kernel
  exact (hkeeps 1 _ _ hbefore hlater hother).1 (by decide) rfl

end MeshPipeline.BillingService
