import Mathlib.Data.Prod.Lex
import MeshPipeline.Library.Register

/-!
# Artifact rows

A job has one `artifacts` row for each logical key. A delivery inserts it, or replaces it when its
execution generation and delivery attempt are later, or rewrites it when they and the checksum are
the row's own; `where` decides which inside the upsert.
-/

namespace MeshPipeline

inductive ArtifactType
  | mesh | meshBundle | viewerData | repairReport | repairedCad
  deriving DecidableEq, Repr

/-- The columns of `artifacts` that a delivery writes. -/
structure Artifact where
  artifactType : ArtifactType
  storageKey : String
  sizeBytes : Nat
  checksum : Option String
  deliveryAttempt : Nat
  executionGeneration : Nat
  deriving DecidableEq, Repr

inductive DeliveryOutcome
  | created | updated | idempotent | superseded | conflict
  deriving DecidableEq, Repr

namespace Artifact

/-- `(execution_generation, delivery_attempt)`, as tuples compare. -/
def currency (a : Artifact) : ℕ ×ₗ ℕ := toLex (a.executionGeneration, a.deliveryAttempt)

/-- What decides between two deliveries of one logical key. -/
def stamp (a : Artifact) : Versioned.Stamp (ℕ ×ₗ ℕ) (Option String) := ⟨a.currency, a.checksum⟩

theorem currency_lt_iff {a b : Artifact} :
    a.currency < b.currency ↔ a.executionGeneration < b.executionGeneration ∨
      a.executionGeneration = b.executionGeneration ∧ a.deliveryAttempt < b.deliveryAttempt :=
  Prod.Lex.toLex_lt_toLex

theorem currency_eq_iff {a b : Artifact} :
    a.currency = b.currency ↔ a.executionGeneration = b.executionGeneration ∧
      a.deliveryAttempt = b.deliveryAttempt := by
  simp [currency, Prod.ext_iff]

@[simp]
theorem stamp_version (a : Artifact) : a.stamp.version = a.currency := rfl

@[simp]
theorem stamp_digest (a : Artifact) : a.stamp.digest = a.checksum := rfl

theorem stamp_eq_iff {a b : Artifact} :
    a.stamp = b.stamp ↔ a.currency = b.currency ∧ a.checksum = b.checksum := by
  simp [stamp]

end Artifact

namespace ArtifactRepository

/-- The `where` of the upsert: the row there gives way to `mine`. -/
def givesWay (current mine : Artifact) : Bool :=
  decide (current.executionGeneration < mine.executionGeneration) ||
  (current.executionGeneration == mine.executionGeneration &&
    decide (current.deliveryAttempt < mine.deliveryAttempt)) ||
  (current.executionGeneration == mine.executionGeneration &&
    current.deliveryAttempt == mine.deliveryAttempt && current.checksum == mine.checksum)

/-- `INSERT … ON CONFLICT DO UPDATE … WHERE`: the row it wrote, if it wrote one. -/
def upsert (row? : Option Artifact) (mine : Artifact) : Option Artifact :=
  match row? with
  | none => some mine
  | some current =>
    if givesWay current mine then
      some { current with
        artifactType := mine.artifactType
        storageKey := mine.storageKey
        sizeBytes := mine.sizeBytes
        checksum := mine.checksum
        deliveryAttempt := mine.deliveryAttempt
        executionGeneration := mine.executionGeneration }
    else none

/-- The answer when a row was written, from what `RETURNING` says of it. -/
def returned (written mine : Artifact) : DeliveryOutcome :=
  if written.storageKey = mine.storageKey then .created else .updated

/-- The answer when no row was written, from the incumbent read afterwards. -/
def classify (incumbent : Option Artifact) (mine : Artifact) : DeliveryOutcome :=
  match incumbent with
  | none => .conflict
  | some incumbent =>
    if mine.currency < incumbent.currency then .superseded
    else if incumbent.currency = mine.currency ∧ incumbent.storageKey = mine.storageKey ∧
        incumbent.checksum = mine.checksum then .idempotent
    else .conflict

/-- `deliver_artifact` when nothing lands between its two statements: the row afterwards and the
answer. -/
def deliverArtifact (row? : Option Artifact) (mine : Artifact) :
    Option Artifact × DeliveryOutcome :=
  match upsert row? mine with
  | some written => (some written, returned written mine)
  | none => (row?, classify row? mine)

theorem givesWay_iff {current mine : Artifact} :
    givesWay current mine ↔ Versioned.Advances current.stamp mine.stamp := by
  simp only [Versioned.Advances, Artifact.stamp_eq_iff, Artifact.stamp_version,
    Artifact.currency_lt_iff, Artifact.currency_eq_iff, givesWay, Bool.or_eq_true,
    Bool.and_eq_true, decide_eq_true_eq, beq_iff_eq, or_assoc]

@[simp]
theorem upsert_none (mine : Artifact) : upsert none mine = some mine := rfl

theorem upsert_some (current mine : Artifact) :
    upsert (some current) mine = if givesWay current mine then some mine else none := rfl

/-- Whatever it replaces, a row that was written is the delivery's own. -/
theorem written_eq {row? : Option Artifact} {mine written : Artifact}
    (h : upsert row? mine = some written) : written = mine := by
  cases row? with
  | none => simpa using h.symm
  | some current =>
    rw [upsert_some] at h
    split at h
    · simpa using h.symm
    · cases h

theorem upsert_eq_none {row? : Option Artifact} {mine : Artifact} (h : upsert row? mine = none) :
    ∃ current, row? = some current ∧ ¬ Versioned.Advances current.stamp mine.stamp := by
  cases row? with
  | none => cases h
  | some current =>
    refine ⟨current, rfl, fun hadv => ?_⟩
    rw [upsert_some, if_pos (givesWay_iff.mpr hadv)] at h
    cases h

/-- The row's stamp is what a versioned register would hold. -/
theorem stamp_upsert (row? : Option Artifact) (mine : Artifact) :
    ((upsert row? mine).or row?).map Artifact.stamp =
      Versioned.write (row?.map Artifact.stamp) mine.stamp := by
  cases row? with
  | none => rfl
  | some current =>
    rw [upsert_some]
    by_cases h : Versioned.Advances current.stamp mine.stamp
    · simp [if_pos (givesWay_iff.mpr h), Versioned.write, h]
    · have hno : ¬ givesWay current mine = true := fun hyes => h (givesWay_iff.mp hyes)
      simp [hno, Versioned.write, h]

/-- `RETURNING` reads the row after the write, so the stored key is always the caller's. -/
theorem returned_of_written {row? : Option Artifact} {mine written : Artifact}
    (h : upsert row? mine = some written) : returned written mine = .created := by
  simp [returned, written_eq h]

end ArtifactRepository

end MeshPipeline
