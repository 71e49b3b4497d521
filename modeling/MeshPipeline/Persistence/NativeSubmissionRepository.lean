import Mathlib.Data.List.Sort
import MeshPipeline.Persistence.Lease

/-!
# Native submission claims

One row per job, execution generation and semantic operation: the right to make one provider call
and the record of what became of it. Every statement that writes reads the job row's generation and
token itself.
-/

namespace MeshPipeline.NativeSubmission

/-- `operation_key`: a digest of the job, the generation and the operation, modelled by the pair
that tells apart the operations of one job. -/
structure OperationKey where
  generation : Nat
  operation : String
  deriving DecidableEq, Repr

inductive Disposition
  | claimed | accepted | indeterminate | failed
  deriving DecidableEq, Repr

inductive ClaimResult
  | acquired | existingAccepted | existingUnresolved | existingFailed | identityConflict
  | notCurrentOwner
  deriving DecidableEq, Repr

/-- A row of `native_submission_claims`; its generation and operation are those of its key. -/
structure NativeSubmissionClaim where
  operationKey : OperationKey
  engine : String
  payloadDigest : String
  disposition : Disposition
  claimant : Token
  providerReference : Option String
  failureClass : Option String
  deriving DecidableEq, Repr

/-- What a worker asks to run. -/
structure Submission where
  own : ExecutionOwnership
  operation : String
  engine : String
  payloadDigest : String
  deriving DecidableEq, Repr

def Submission.operationKey (s : Submission) : OperationKey :=
  ⟨s.own.executionGeneration, s.operation⟩

/-- `mark_accepted` and `reconcile_accepted` raise without a provider reference. -/
inductive SubmissionError
  | referenceRequired
  deriving DecidableEq, Repr

namespace NativeSubmissionRepository

/-- `_IS_CURRENT`. -/
def isCurrent (job : SimulationJob) (own : ExecutionOwnership) : Bool :=
  LeaseRepository.names job own

/-- `_LOOKUP`. -/
def lookup (claims : List NativeSubmissionClaim) (key : OperationKey) :
    Option NativeSubmissionClaim :=
  claims.find? (·.operationKey == key)

/-- `_CLAIM`: inserted by the row's holder, unless the operation is claimed already. -/
def insertClaim (job : SimulationJob) (claims : List NativeSubmissionClaim) (s : Submission) :
    Option (List NativeSubmissionClaim) :=
  if isCurrent job s.own ∧ (lookup claims s.operationKey).isNone then
    some (claims ++ [⟨s.operationKey, s.engine, s.payloadDigest, .claimed, s.own.workerToken, none,
      none⟩])
  else none

/-- The answer of `claim` from the row it looked up after its insert was refused. -/
def existing (row? : Option NativeSubmissionClaim) (s : Submission) : ClaimResult :=
  match row? with
  | none => .notCurrentOwner
  | some row =>
    if row.engine ≠ s.engine ∨ row.payloadDigest ≠ s.payloadDigest then .identityConflict
    else match row.disposition with
      | .accepted => .existingAccepted
      | .failed => .existingFailed
      | .claimed | .indeterminate => .existingUnresolved

/-- `_EARLIER`: the same run of an earlier generation, the newest first. -/
def earlierRuns (claims : List NativeSubmissionClaim) (s : Submission) : List OperationKey :=
  ((claims.filter fun row =>
      decide (row.operationKey.generation < s.own.executionGeneration) &&
      row.operationKey.operation == s.operation && row.payloadDigest == s.payloadDigest &&
      row.engine == s.engine && row.disposition != .failed).map (·.operationKey)).insertionSort
    fun a b => b.generation ≤ a.generation

/-- `_TRANSITION` on the one row it names. -/
def transitionRow (target : Disposition) (reference failureClass : Option String)
    (row : NativeSubmissionClaim) : NativeSubmissionClaim :=
  { row with
    disposition := target
    providerReference := reference.or row.providerReference
    failureClass := failureClass.or row.failureClass }

/-- `_TRANSITION`: applied by the row's holder to a claim in one of the sources. -/
def transition (job : SimulationJob) (claims : List NativeSubmissionClaim) (s : Submission)
    (target : Disposition) (sources : List Disposition) (reference failureClass : Option String) :
    List NativeSubmissionClaim :=
  claims.map fun row =>
    if row.operationKey = s.operationKey ∧ isCurrent job s.own ∧ row.disposition ∈ sources then
      transitionRow target reference failureClass row
    else row

def markAccepted (job : SimulationJob) (claims : List NativeSubmissionClaim) (s : Submission)
    (reference : String) : Except SubmissionError (List NativeSubmissionClaim) :=
  if reference = "" then .error .referenceRequired
  else .ok (transition job claims s .accepted [.claimed] (some reference) none)

def markIndeterminate (job : SimulationJob) (claims : List NativeSubmissionClaim) (s : Submission)
    (failureClass : String) : List NativeSubmissionClaim :=
  transition job claims s .indeterminate [.claimed] none (some failureClass)

def markFailed (job : SimulationJob) (claims : List NativeSubmissionClaim) (s : Submission)
    (failureClass : String) : List NativeSubmissionClaim :=
  transition job claims s .failed [.claimed] none (some failureClass)

/-- The only route out of `indeterminate`. -/
def reconcileAccepted (job : SimulationJob) (claims : List NativeSubmissionClaim) (s : Submission)
    (reference : String) : Except SubmissionError (List NativeSubmissionClaim) :=
  if reference = "" then .error .referenceRequired
  else .ok (transition job claims s .accepted [.indeterminate] (some reference) none)

variable {job : SimulationJob} {claims : List NativeSubmissionClaim} {s : Submission}
  {target : Disposition} {sources : List Disposition} {reference failureClass : Option String}

/-- A superseded worker's transition changes no row. -/
theorem transition_of_not_current (h : isCurrent job s.own = false) :
    transition job claims s target sources reference failureClass = claims := by
  simp [transition, h]

theorem mem_transition {row' : NativeSubmissionClaim}
    (h : row' ∈ transition job claims s target sources reference failureClass) :
    row' ∈ claims ∨ isCurrent job s.own ∧ ∃ row ∈ claims, row.operationKey = s.operationKey ∧
      row.disposition ∈ sources ∧ row' = transitionRow target reference failureClass row := by
  obtain ⟨row, hmem, rfl⟩ := List.mem_map.mp h
  split
  · rename_i hc
    exact .inr ⟨hc.2.1, row, hmem, hc.1, hc.2.2, rfl⟩
  · exact .inl hmem

/-- A transition that changes anything had a holder, and a claim in one of its sources. -/
theorem exists_of_transition_ne
    (h : transition job claims s target sources reference failureClass ≠ claims) :
    isCurrent job s.own ∧ ∃ row ∈ claims, row.operationKey = s.operationKey ∧
      row.disposition ∈ sources := by
  by_contra hnone
  refine h ((List.map_congr_left fun row hmem => ?_).trans (List.map_id claims))
  split
  · rename_i hc
    exact absurd ⟨hc.2.1, row, hmem, hc.1, hc.2.2⟩ hnone
  · rfl

/-- A transition moves rows in place: it inserts none, and keeps each row's identity. -/
theorem operationKey_transition :
    (transition job claims s target sources reference failureClass).map (·.operationKey) =
      claims.map (·.operationKey) := by
  rw [transition, List.map_map]
  apply List.map_congr_left
  intro row _
  simp only [Function.comp_apply]
  split <;> rfl

theorem insertClaim_of_not_current (h : isCurrent job s.own = false) :
    insertClaim job claims s = none := by
  simp [insertClaim, h]

theorem lookup_eq_none {key : OperationKey} :
    lookup claims key = none ↔ ∀ row ∈ claims, row.operationKey ≠ key := by
  simp [lookup]

theorem mem_of_lookup {key : OperationKey} {row : NativeSubmissionClaim}
    (h : lookup claims key = some row) : row ∈ claims ∧ row.operationKey = key := by
  refine ⟨List.mem_of_find?_eq_some h, ?_⟩
  simpa using List.find?_some h

/-- Only an accepted row is found accepted. -/
theorem accepted_of_existing {row? : Option NativeSubmissionClaim}
    (h : existing row? s = .existingAccepted) :
    ∃ row, row? = some row ∧ row.disposition = .accepted := by
  unfold existing at h
  split at h
  · cases h
  · rename_i row
    split at h
    · cases h
    · split at h
      · rename_i haccepted
        exact ⟨row, rfl, haccepted⟩
      all_goals cases h

theorem mem_earlierRuns {key : OperationKey} (h : key ∈ earlierRuns claims s) :
    key.generation < s.own.executionGeneration := by
  simp only [earlierRuns, List.mem_insertionSort, List.mem_map, List.mem_filter, Bool.and_eq_true,
    decide_eq_true_eq] at h
  obtain ⟨row, ⟨-, ⟨⟨⟨⟨hlt, -⟩, -⟩, -⟩, -⟩⟩, rfl⟩ := h
  exact hlt

end NativeSubmissionRepository

end MeshPipeline.NativeSubmission
