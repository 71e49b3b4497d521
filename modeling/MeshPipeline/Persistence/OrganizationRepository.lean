import MeshPipeline.Library.Text

/-!
# Organisations and their billing columns

The rows of `organizations` that a deployment holds. A billing column is written only by the
functions below.
-/

namespace MeshPipeline

/-- A row of `organizations`, with its billing columns. -/
structure Organization where
  id : Nat
  stripeCustomerId : Option String
  stripeSubscriptionId : Option String
  /-- Empty when no plan is held. -/
  plan : String
  subscriptionStatus : String
  currentPeriodEnd : Option Int
  deriving DecidableEq, Repr

namespace OrganizationRepository

def getById (rows : List Organization) (id : Nat) : Option Organization :=
  rows.find? (·.id = id)

def getByStripeCustomer (rows : List Organization) (customer : String) : Option Organization :=
  rows.find? (·.stripeCustomerId = some (Text.strip customer))

/-- One row rewritten; an id that no row has rewrites nothing. -/
def update (rows : List Organization) (id : Nat) (f : Organization → Organization) :
    List Organization :=
  rows.map fun row => if row.id = id then f row else row

/-- `attach_customer`: `none` when the unique index holds the customer for another organisation. -/
def attachCustomer (rows : List Organization) (id : Nat) (customer : String) :
    Option (List Organization) :=
  let customer := Text.upto 255 (Text.strip customer)
  if getById rows id = none then some rows
  else if rows.any fun row => row.id ≠ id && row.stripeCustomerId == some customer then none
  else some (update rows id fun row => { row with stripeCustomerId := some customer })

/-- The subscription columns of one row; a plan of `none` leaves the tier alone. -/
def subscribed (row : Organization) (subscriptionId : String) (plan : Option String)
    (status : String) (currentPeriodEnd : Option Int) : Organization :=
  let held := Text.upto 255 (Text.strip subscriptionId)
  { row with
    stripeSubscriptionId := if held = "" then none else some held
    plan := (plan.map fun p => Text.upto 64 (Text.key p)).getD row.plan
    subscriptionStatus := Text.upto 32 (Text.strip status)
    currentPeriodEnd := currentPeriodEnd }

def setSubscription (rows : List Organization) (id : Nat) (subscriptionId : String)
    (plan : Option String) (status : String) (currentPeriodEnd : Option Int) :
    List Organization :=
  update rows id fun row => subscribed row subscriptionId plan status currentPeriodEnd

variable {row : Organization} {subscriptionId status : String} {plan : Option String}
  {currentPeriodEnd : Option Int}

@[simp]
theorem id_subscribed :
    (subscribed row subscriptionId plan status currentPeriodEnd).id = row.id := by
  simp only [subscribed]

@[simp]
theorem stripeCustomerId_subscribed :
    (subscribed row subscriptionId plan status currentPeriodEnd).stripeCustomerId =
      row.stripeCustomerId := by
  simp only [subscribed]

theorem getById_update (rows : List Organization) (id : Nat) {f : Organization → Organization}
    (hf : ∀ row, (f row).id = row.id) (key : Nat) :
    getById (update rows id f) key =
      (getById rows key).map fun row => if row.id = id then f row else row := by
  unfold getById update
  rw [List.find?_map]
  congr 2
  funext row
  by_cases h : row.id = id <;> simp [h, hf]

theorem getByStripeCustomer_update (rows : List Organization) (id : Nat)
    {f : Organization → Organization} (hf : ∀ row, (f row).stripeCustomerId = row.stripeCustomerId)
    (customer : String) :
    getByStripeCustomer (update rows id f) customer =
      (getByStripeCustomer rows customer).map fun row => if row.id = id then f row else row := by
  unfold getByStripeCustomer update
  rw [List.find?_map]
  congr 2
  funext row
  by_cases h : row.id = id <;> simp [h, hf]

theorem getById_isSome_of_customer {rows : List Organization} {customer : String}
    {row : Organization} (h : getByStripeCustomer rows customer = some row) :
    (getById rows row.id).isSome := by
  rw [getById, List.find?_isSome]
  exact ⟨row, List.mem_of_find?_eq_some h, by simp⟩

/-- A customer that is attached changes no plan. -/
theorem plan_attachCustomer {rows rows' : List Organization} {id : Nat} {customer : String}
    (h : attachCustomer rows id customer = some rows') (key : Nat) :
    (getById rows' key).map (·.plan) = (getById rows key).map (·.plan) := by
  unfold attachCustomer at h
  split at h
  · rw [← Option.some.inj h]
  · rw [Option.ite_none_left_eq_some] at h
    rw [← Option.some.inj h.2, getById_update, Option.map_map]
    · congr 1
      funext row
      by_cases hid : row.id = id <;> simp [hid]
    · exact fun _ => rfl

end OrganizationRepository

end MeshPipeline
