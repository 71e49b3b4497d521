import MeshPipeline.Persistence.ArtifactRepository
import MeshPipeline.Persistence.Models

/-!
# Reconciling orphaned objects

`_reconcile_async` on one record: what is at its key, which row owns it, which checksum it has, and
the delete. Each is a step of its own, so each reads the database and the store as they are then; a
pass is those states and what the store's calls answer in them.
-/

namespace MeshPipeline

inductive ReconciliationState
  | pending | resolvedAdopted | resolvedDeleted | blockedConflict | abandoned
  deriving DecidableEq, Repr

/-- The columns of `artifact_reconciliations` that the sweep reads and writes. -/
structure ArtifactReconciliation where
  jobId : JobId
  deliveryAttempt : Nat
  logicalKey : String
  objectKey : String
  objectChecksum : Option String
  retryCount : Nat
  state : ReconciliationState
  deriving DecidableEq, Repr

namespace ReconciliationRepository

/-- `record_orphan`. -/
def recordOrphan (jobId : JobId) (deliveryAttempt : Nat) (logicalKey objectKey : String)
    (objectChecksum : Option String) : ArtifactReconciliation where
  jobId := jobId
  deliveryAttempt := deliveryAttempt
  logicalKey := logicalKey
  objectKey := objectKey
  objectChecksum := objectChecksum
  retryCount := 0
  state := .pending

/-- `resolve`: every resolution counts, one that leaves the record pending too. -/
def resolve (rec : ArtifactReconciliation) (state : ReconciliationState) :
    ArtifactReconciliation :=
  { rec with state := state, retryCount := rec.retryCount + 1 }

end ReconciliationRepository

namespace Reconcile

open ReconciliationRepository

/-- `RECONCILE_MAX_RETRIES`. -/
def reconcileMaxRetries : Nat := 5

/-- What the database and the store hold at one moment: the row of each job and logical key, and
the checksum of the object at each key. -/
structure Held where
  artifacts : JobId → String → Option Artifact
  objects : String → Option String

/-- What comes of a delete: a call that raises may have removed the object. -/
inductive DeleteAnswer
  | done | failed | lost
  deriving DecidableEq, Repr

def DeleteAnswer.lands : DeleteAnswer → Bool
  | .done | .lost => true
  | .failed => false

/-- One pass over a record. A sweep that does not commit leaves the record as it was. -/
structure Pass where
  atExists : Held
  existsAnswers : Bool
  atSelect : Held
  atChecksum : Held
  checksumAnswers : Bool
  atDelete : Held
  delete : DeleteAnswer
  commits : Bool

/-- What the reads of a pass lead to. -/
inductive Finding
  | skipped
  | resolved (state : ReconciliationState)
  | orphan
  deriving DecidableEq, Repr

/-- The row the pass finds owning the record's key. -/
def ready (p : Pass) (rec : ArtifactReconciliation) : Option Artifact :=
  (p.atSelect.artifacts rec.jobId rec.logicalKey).filter (·.storageKey == rec.objectKey)

/-- `_current_checksum`: nothing when the store does not answer. -/
def currentChecksum (p : Pass) (rec : ArtifactReconciliation) : Option String :=
  if p.checksumAnswers then p.atChecksum.objects rec.objectKey else none

/-- `rec.object_checksum and current_ck and current_ck != rec.object_checksum`. -/
def checksumChanged (p : Pass) (rec : ArtifactReconciliation) : Bool :=
  truthyText rec.objectChecksum && truthyText (currentChecksum p rec) &&
    currentChecksum p rec != rec.objectChecksum

def finding (p : Pass) (rec : ArtifactReconciliation) : Finding :=
  if !p.existsAnswers then .skipped
  else
    match ready p rec with
    | some row =>
      if rec.deliveryAttempt ≤ row.deliveryAttempt then .resolved .resolvedAdopted
      else .resolved .blockedConflict
    | none =>
      if (p.atExists.objects rec.objectKey).isNone then .resolved .resolvedDeleted
      else if checksumChanged p rec then .resolved .blockedConflict
      else .orphan

/-- The state after the delete of an orphan. -/
def afterDelete (rec : ArtifactReconciliation) (answer : DeleteAnswer) : ReconciliationState :=
  if answer = .done then .resolvedDeleted
  else if reconcileMaxRetries ≤ rec.retryCount + 1 then .abandoned
  else .pending

/-- The record as the body of the sweep's loop leaves it. -/
def reconcile (p : Pass) (rec : ArtifactReconciliation) : ArtifactReconciliation :=
  match finding p rec with
  | .skipped => rec
  | .resolved state => resolve rec state
  | .orphan => resolve rec (afterDelete rec p.delete)

/-- The pass removes an object from the store. -/
def deletes (p : Pass) (rec : ArtifactReconciliation) : Bool :=
  finding p rec == .orphan && p.delete.lands && (p.atDelete.objects rec.objectKey).isSome

/-- One sweep, which claims the record while it is pending. -/
def sweep (rec : ArtifactReconciliation) (p : Pass) : ArtifactReconciliation :=
  if rec.state = .pending ∧ p.commits then reconcile p rec else rec

def sweeps (rec : ArtifactReconciliation) (passes : List Pass) : ArtifactReconciliation :=
  passes.foldl sweep rec

/-! ## What a pass may delete -/

/-- A row of the database owns the key. -/
def Held.Owns (held : Held) (objectKey : String) : Prop :=
  ∃ jobId logicalKey, ∃ row ∈ held.artifacts jobId logicalKey, row.storageKey = objectKey

/-- The object at the record's key is not the one whose checksum was recorded. -/
def Held.Differs (held : Held) (rec : ArtifactReconciliation) : Prop :=
  truthyText rec.objectChecksum ∧
    ∃ checksum ∈ held.objects rec.objectKey, some checksum ≠ rec.objectChecksum

/-- The object at the record's key is live. -/
def Held.Live (held : Held) (rec : ArtifactReconciliation) : Prop :=
  held.Owns rec.objectKey ∨ held.Differs rec

/-- A pass that deletes does not delete a live object. -/
def Spares (p : Pass) (rec : ArtifactReconciliation) : Prop :=
  deletes p rec = true → ¬ p.atDelete.Live rec

/-- The object is there when it is looked for and when its removal takes effect. -/
def Reachable (p : Pass) (rec : ArtifactReconciliation) : Prop :=
  p.existsAnswers ∧ (p.atExists.objects rec.objectKey).isSome ∧ p.delete.lands ∧
    (p.atDelete.objects rec.objectKey).isSome

/-- What is live at the delete showed at a read: the row of the record's own job and logical key
named its key, or the checksum that was read is another than the one recorded. -/
def LiveWasSeen (p : Pass) (rec : ArtifactReconciliation) : Prop :=
  Reachable p rec → p.atDelete.Live rec → (ready p rec).isSome ∨ checksumChanged p rec

variable {p : Pass} {rec : ArtifactReconciliation}

theorem finding_eq_orphan_iff : finding p rec = .orphan ↔
    p.existsAnswers ∧ ready p rec = none ∧ (p.atExists.objects rec.objectKey).isSome ∧
      checksumChanged p rec = false := by
  unfold finding
  cases p.existsAnswers with
  | false => simp
  | true =>
    cases ready p rec with
    | some row =>
      simp only [Bool.not_true, Bool.false_eq_true, if_false]
      split <;> simp
    | none =>
      cases p.atExists.objects rec.objectKey <;> cases checksumChanged p rec <;> simp

/-- A pass that finds the store and the rows at its delete as it read them, an owner of the key
under the record's own names, and a checksum it can read, has seen what is live. -/
theorem liveWasSeen_of_unchanged (hrows : p.atDelete.artifacts = p.atSelect.artifacts)
    (hobjects : p.atDelete.objects = p.atChecksum.objects) (hchecksum : p.checksumAnswers)
    (hnamed : ∀ checksum ∈ p.atChecksum.objects rec.objectKey, checksum ≠ "")
    (hown : ∀ jobId logicalKey, ∀ row ∈ p.atSelect.artifacts jobId logicalKey,
      row.storageKey = rec.objectKey → jobId = rec.jobId ∧ logicalKey = rec.logicalKey) :
    LiveWasSeen p rec := by
  intro _ live
  obtain ⟨jobId, logicalKey, row, hrow, hkey⟩ | ⟨hrecorded, checksum, hat, hne⟩ := live
  · left
    rw [hrows] at hrow
    obtain ⟨rfl, rfl⟩ := hown jobId logicalKey row hrow hkey
    simp [ready, Option.mem_def.mp hrow, hkey]
  · right
    rw [hobjects] at hat
    have hread : currentChecksum p rec = some checksum := by
      simpa [currentChecksum, hchecksum] using hat
    have htruthy : truthyText (some checksum) := by simpa [truthyText] using hnamed checksum hat
    simp [checksumChanged, hread, hrecorded, htruthy, hne]

theorem spares_iff_liveWasSeen : Spares p rec ↔ LiveWasSeen p rec := by
  simp only [Spares, LiveWasSeen, Reachable, deletes, Bool.and_eq_true, beq_iff_eq,
    finding_eq_orphan_iff, Option.isSome_iff_ne_none]
  grind

/-! ## How many passes a record waits -/

/-- The store says whether the object is there, and the sweep's transaction commits. -/
def Answered (p : Pass) : Bool := p.commits && p.existsAnswers

/-- An answered pass that needs no delete, or whose delete returns. -/
def Settles (p : Pass) (rec : ArtifactReconciliation) : Prop :=
  Answered p ∧ ((ready p rec).isSome ∨ p.atExists.objects rec.objectKey = none ∨
    checksumChanged p rec ∨ p.delete = .done)

/-- The record's object, under another state and count. -/
def moved (rec : ArtifactReconciliation) (retryCount : Nat) (state : ReconciliationState) :
    ArtifactReconciliation :=
  { rec with retryCount := retryCount, state := state }

@[simp]
theorem settles_moved {n : Nat} {state : ReconciliationState} :
    Settles p (moved rec n state) ↔ Settles p rec := Iff.rfl

@[simp]
theorem resolve_eq_moved (state : ReconciliationState) :
    resolve rec state = moved rec (rec.retryCount + 1) state := rfl

theorem sweep_of_ended (h : rec.state ≠ .pending) : sweep rec p = rec := by
  simp [sweep, h]

theorem sweeps_of_ended (h : rec.state ≠ .pending) (passes : List Pass) :
    sweeps rec passes = rec := by
  induction passes with
  | nil => rfl
  | cons p passes ih => simpa [sweeps, sweep_of_ended h] using ih

theorem sweep_of_unanswered (h : Answered p = false) : sweep rec p = rec := by
  simp only [Answered, Bool.and_eq_false_iff] at h
  unfold sweep reconcile finding
  obtain h | h := h <;> simp [h]

/-- A pass that settles a record ends it. -/
theorem ended_of_settles (pending : rec.state = .pending) (h : Settles p rec) :
    (sweep rec p).state ≠ .pending := by
  obtain ⟨hanswered, hsettled⟩ := h
  simp only [Answered, Bool.and_eq_true] at hanswered
  simp only [sweep, pending, hanswered.1, and_self, if_true, reconcile]
  cases hf : finding p rec with
  | skipped =>
    unfold finding at hf
    grind
  | resolved state =>
    unfold finding at hf
    simp only [resolve_eq_moved, moved]
    grind
  | orphan =>
    obtain ⟨-, hready, hpresent, hsame⟩ := finding_eq_orphan_iff.mp hf
    simp only [hready, hsame, Option.isSome_none, Bool.false_eq_true, false_or] at hsettled
    obtain hgone | hdone := hsettled
    · simp [hgone] at hpresent
    · simp [resolve_eq_moved, moved, afterDelete, hdone]

/-- An answered pass that does not settle a record counts, and the last that counts abandons it. -/
theorem sweep_of_unsettled (pending : rec.state = .pending) (hanswered : Answered p)
    (h : ¬ Settles p rec) :
    sweep rec p = moved rec (rec.retryCount + 1)
      (if reconcileMaxRetries ≤ rec.retryCount + 1 then .abandoned else .pending) := by
  have hcalls : p.commits ∧ p.existsAnswers := by simpa [Answered] using hanswered
  simp only [Settles, hanswered, true_and, not_or, Bool.not_eq_true, Option.isSome_eq_false_iff,
    Option.isNone_iff_eq_none] at h
  obtain ⟨hready, hpresent, hsame, hdelete⟩ := h
  have horphan : finding p rec = .orphan :=
    finding_eq_orphan_iff.mpr ⟨hcalls.2, hready, Option.isSome_iff_ne_none.mpr hpresent, hsame⟩
  simp [sweep, pending, hcalls.1, reconcile, horphan, afterDelete, hdelete]

/-- A pending record has ended after a run of passes exactly when one of them settled it or the
answered ones use up its retries. -/
theorem ended_iff (pending : rec.state = .pending) (left : rec.retryCount < reconcileMaxRetries)
    (passes : List Pass) :
    (sweeps rec passes).state ≠ .pending ↔
      (∃ p ∈ passes, Settles p rec) ∨
        reconcileMaxRetries ≤ rec.retryCount + passes.countP Answered := by
  induction passes generalizing rec with
  | nil => simp [sweeps, pending, left]
  | cons p passes ih =>
    have hsweeps : sweeps rec (p :: passes) = sweeps (sweep rec p) passes := rfl
    rw [hsweeps, List.countP_cons]
    by_cases hanswered : Answered p = true
    case neg =>
      have hnot : ¬ Settles p rec := fun h => hanswered h.1
      rw [sweep_of_unanswered (by simpa using hanswered), ih pending left]
      simp [hanswered, hnot]
    by_cases hsettled : Settles p rec
    · have hended := ended_of_settles pending hsettled
      rw [sweeps_of_ended hended]
      simp [hended, hsettled]
    · rw [sweep_of_unsettled pending hanswered hsettled]
      split
      · rename_i hlast
        have hended : (moved rec (rec.retryCount + 1) .abandoned).state ≠ .pending := nofun
        rw [sweeps_of_ended hended]
        simp only [hended, not_false_eq_true, true_iff, ne_eq]
        omega
      · rename_i hmore
        rw [ih rfl (Nat.lt_of_not_le hmore)]
        simp only [moved, List.mem_cons, exists_eq_or_imp, hsettled, false_or]
        exact or_congr Iff.rfl (by omega)

/-- A pass spares what is live exactly when it has seen what is live by the time of its delete, and
a recorded orphan has ended after the configured number of passes exactly when one of them settled
it or all of them were answered. -/
theorem spares_and_ends_iff (rec : ArtifactReconciliation) (passes : Nat → Pass) :
    (∀ n, Spares (passes n) rec ↔ LiveWasSeen (passes n) rec) ∧
    ∀ jobId deliveryAttempt logicalKey objectKey objectChecksum,
      let orphan := recordOrphan jobId deliveryAttempt logicalKey objectKey objectChecksum
      (sweeps orphan ((List.range reconcileMaxRetries).map passes)).state ≠ .pending ↔
        (∃ n < reconcileMaxRetries, Settles (passes n) orphan) ∨
          ∀ n < reconcileMaxRetries, Answered (passes n) := by
  refine ⟨fun n => spares_iff_liveWasSeen, ?_⟩
  intro jobId deliveryAttempt logicalKey objectKey objectChecksum orphan
  have hall : reconcileMaxRetries ≤
      ((List.range reconcileMaxRetries).map passes).countP Answered ↔
        ∀ n < reconcileMaxRetries, Answered (passes n) := by
    have hle := List.countP_le_length (p := Answered)
      (l := (List.range reconcileMaxRetries).map passes)
    have heq := List.countP_eq_length (p := Answered)
      (l := (List.range reconcileMaxRetries).map passes)
    simp only [List.length_map, List.length_range, List.mem_map, List.mem_range,
      forall_exists_index, and_imp, forall_apply_eq_imp_iff₂] at hle heq
    rw [← heq]
    omega
  rw [ended_iff rfl (by decide : (0 : Nat) < reconcileMaxRetries)]
  simp only [List.mem_map, List.mem_range, exists_exists_and_eq_and]
  refine or_congr Iff.rfl ?_
  rw [← hall]
  simp [orphan, recordOrphan]

/-- The bytes at an orphan's key have been replaced, and the store's checksum read fails. -/
def replacedUnread : Pass :=
  let held : Held := { artifacts := fun _ _ => none, objects := fun _ => some "new" }
  { atExists := held, existsAnswers := true, atSelect := held, atChecksum := held,
    checksumAnswers := false, atDelete := held, delete := .done, commits := true }

/-- The store does not say whether the object is there. -/
def storeSilent : Pass := { replacedUnread with existsAnswers := false }

/-- The replaced object is deleted, and a store that stays silent leaves the record pending. -/
theorem deletes_live_and_stays_pending :
    let orphan := recordOrphan 1 0 "mesh" "jobs/1/mesh" (some "old")
    deletes replacedUnread orphan = true ∧ replacedUnread.atDelete.Live orphan ∧
      (sweeps orphan (List.replicate reconcileMaxRetries storeSilent)).state = .pending := by
  refine ⟨by decide, .inr ⟨by decide, "new", rfl, by decide⟩, by decide⟩

end Reconcile

end MeshPipeline
