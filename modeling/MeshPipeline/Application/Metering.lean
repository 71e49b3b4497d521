import MeshPipeline.Persistence.JobStore

/-!
# Charging a job

What one succeeded job costs, and the ledger entries its charge writes.
-/

namespace MeshPipeline.Metering

/-- `JOB_BASE_CREDITS` and `CREDITS_PER_MESH_MINUTE`. -/
structure Pricing where
  jobBaseCredits : Int
  creditsPerMeshMinute : Int

/-- What a charge reads about its tenant: whether a metered price bills its overage, and the
credits it has left. -/
structure Account where
  billsOverage : Bool
  balance : Int
  deriving DecidableEq, Repr

/-- `credits_for_job`: whole minutes, rounded up. -/
def creditsForJob (price : Pricing) (startedAt endedAt : Option Int) : Int :=
  match startedAt, endedAt with
  | some started, some ended =>
    if price.creditsPerMeshMinute ≤ 0 ∨ ended - started ≤ 0 then max price.jobBaseCredits 0
    else
      let minutes := -(-(ended - started) / seconds 60)
      max (price.jobBaseCredits + minutes * price.creditsPerMeshMinute) 0
  | _, _ => max price.jobBaseCredits 0

/-- `_overage_of`. -/
def overageOf (account : Account) (amount : Int) : Int :=
  if account.billsOverage then amount - min (max account.balance 0) amount else 0

/-- `charge_for_job`: the entries it appends. The overage is paid in money, so it is returned to
the balance as a refund beside the debit. -/
def chargeForJob (price : Pricing) (account : Account) (row : SimulationJob) :
    List CreditLedgerEntry :=
  match row.organizationId with
  | none => []
  | some organization =>
    let amount := creditsForJob price row.startedAt row.endedAt
    if row.status ≠ .succeeded ∨ amount ≤ 0 then []
    else
      let overage := overageOf account amount
      ⟨.debit, organization, -amount, row.id, overage⟩ ::
        if overage = 0 then [] else [⟨.refund, organization, overage, row.id, 0⟩]

/-- The debits among ledger entries. -/
def debits (ledger : List CreditLedgerEntry) : List CreditLedgerEntry :=
  ledger.filter (·.entryType = .debit)

variable {price : Pricing} {account : Account} {row : SimulationJob}

@[simp]
theorem debits_append (xs ys : List CreditLedgerEntry) :
    debits (xs ++ ys) = debits xs ++ debits ys :=
  List.filter_append ..

/-- Only a succeeded job is charged. -/
theorem chargeForJob_of_ne_succeeded (h : row.status ≠ .succeeded) :
    chargeForJob price account row = [] := by
  unfold chargeForJob
  split <;> simp [h]

/-- One charge is at most one debit, of the job's own price. -/
theorem debits_chargeForJob (price : Pricing) (account : Account) (row : SimulationJob) :
    debits (chargeForJob price account row) = [] ∨
    ∃ d, debits (chargeForJob price account row) = [d] ∧ d.jobId = row.id ∧
      row.organizationId = some d.organizationId ∧
      d.amount = -creditsForJob price row.startedAt row.endedAt := by
  unfold chargeForJob
  split
  · exact .inl rfl
  · rename_i organization ho
    generalize hamount : creditsForJob price row.startedAt row.endedAt = amount
    dsimp only
    split
    · exact .inl rfl
    · refine .inr ⟨⟨.debit, organization, -amount, row.id, overageOf account amount⟩, ?_, rfl,
        ho, rfl⟩
      split <;> rfl

/-- The overage of a charge lies between nothing and the whole charge, so `debit` accepts it. -/
theorem overageOf_mem {amount : Int} (h : 0 < amount) :
    0 ≤ overageOf account amount ∧ overageOf account amount ≤ amount := by
  unfold overageOf
  split <;> omega

/-- The entries of a charge: none, or a debit of the price and a refund of its overage. -/
theorem chargeForJob_eq (price : Pricing) (account : Account) {organization : Nat}
    (ho : row.organizationId = some organization) :
    chargeForJob price account row = [] ∨
      let amount := creditsForJob price row.startedAt row.endedAt
      let overage := overageOf account amount
      0 < amount ∧ chargeForJob price account row =
        ⟨.debit, organization, -amount, row.id, overage⟩ ::
          if overage = 0 then [] else [⟨.refund, organization, overage, row.id, 0⟩] := by
  simp only [chargeForJob, ho]
  split
  · exact .inl rfl
  · rename_i h
    exact .inr ⟨by omega, rfl⟩

end MeshPipeline.Metering
