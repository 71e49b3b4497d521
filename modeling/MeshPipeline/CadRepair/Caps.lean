import Mathlib.Data.List.Basic
import Mathlib.Order.Defs.LinearOrder

/-!
# The caps of a repair

What a repair may change. The counts are compared over one operation, the sizes over the whole run,
with the upload. Sizes are of any type with the operations that the caps use.
-/

namespace MeshPipeline.CadRepair

/-- `Measure`, as the caps read it. -/
structure Measure (K : Type*) where
  valid : Bool
  solids : Nat
  faces : Nat
  diagonalMm : K
  maxToleranceMm : K
  surfaceAreaMm2 : K
  volumeMm3 : K

/-- What an operation says that it adds. -/
structure Declaration (K : Type*) where
  areaDeltaMm2 : K
  volumeDeltaMm3 : K

/-- `Accounting`. -/
structure Accounting (K : Type*) where
  declaredAreaMm2 : K
  declaredVolumeMm3 : K

inductive CapRefusal
  | noFaces
  | solidsLost (lost : Nat)
  | facesRemoved (removed declared : Int)
  | invalidated
  | uploadUnmeasured
  | resultUnmeasured
  | tolerance
  | moved
  | area
  | volume
  deriving DecidableEq, Repr

/-- The settings of the caps, with `math.isfinite` and the sentence of a refusal. -/
structure CapPolicy (K : Type*) where
  allowFaceRemoval : Bool
  maxToleranceMm : K
  maxDeviationRatio : K
  maxAreaChangeRatio : K
  maxVolumeChangeRatio : K
  isFinite : K → Bool
  sentence : CapRefusal → String

def Measure.sizes {K : Type*} (m : Measure K) : List K :=
  [m.diagonalMm, m.maxToleranceMm, m.surfaceAreaMm2, m.volumeMm3]

/-- `_unmeasured`, as a truth value. -/
def Measure.unmeasured {K : Type*} (policy : CapPolicy K) (m : Measure K) : Bool :=
  m.sizes.any fun x => !policy.isFinite x

lemma measured_iff {K : Type*} {policy : CapPolicy K} {original current : Measure K} :
    (∀ x ∈ original.sizes ++ current.sizes, policy.isFinite x) ↔
      ¬ original.unmeasured policy ∧ ¬ current.unmeasured policy := by
  simp [Measure.unmeasured, Measure.sizes, and_assoc]

/-- `sanity_refusal`. -/
def sanityRefusal {K : Type*} (policy : CapPolicy K) (before after : Measure K)
    (declaredFacesRemoved : Int) : Option CapRefusal :=
  let removed : Int := before.faces - after.faces
  if after.faces = 0 then some .noFaces
  else if after.solids < before.solids then some (.solidsLost (before.solids - after.solids))
  else if max 0 declaredFacesRemoved < removed ∧ ¬ policy.allowFaceRemoval then
    some (.facesRemoved removed (max 0 declaredFacesRemoved))
  else if before.valid ∧ ¬ after.valid then some .invalidated
  else none

section

variable {K : Type*} [Zero K] [Add K] [Neg K] [Sub K] [Div K] [Max K] [LE K] [LT K]
  [DecidableLE K] [DecidableLT K]

def Accounting.zero : Accounting K := ⟨0, 0⟩

def Accounting.plus (a : Accounting K) (d : Declaration K) : Accounting K :=
  ⟨a.declaredAreaMm2 + d.areaDeltaMm2, a.declaredVolumeMm3 + d.volumeDeltaMm3⟩

/-- `abs`. -/
def distance (x y : K) : K := max (x - y) (-(x - y))


/-- A size is what the operations accounted for, but for the residual. -/
def Accounted (original current declared residual : K) : Prop :=
  ¬ original ≤ 0 → ¬ residual < distance current (original + declared) / original

/-- `_accounted`. -/
def accounted (original current declared residual : K) : Bool :=
  if original ≤ 0 then true
  else !decide (residual < distance current (original + declared) / original)

/-- An upload over the tolerance cap keeps its own tolerance as the cap. -/
def toleranceCeiling (policy : CapPolicy K) (original : Measure K) : K :=
  if 0 < policy.maxToleranceMm then max policy.maxToleranceMm original.maxToleranceMm else 0

/-- `cumulative_refusal`. -/
def cumulativeRefusal (policy : CapPolicy K) (original current : Measure K)
    (declared : Accounting K) : Option CapRefusal :=
  if original.unmeasured policy then some .uploadUnmeasured
  else if current.unmeasured policy then some .resultUnmeasured
  else if toleranceCeiling policy original < current.maxToleranceMm then some .tolerance
  else if 0 < original.diagonalMm ∧
      policy.maxDeviationRatio < distance current.diagonalMm original.diagonalMm /
        original.diagonalMm then some .moved
  else if !accounted original.surfaceAreaMm2 current.surfaceAreaMm2 declared.declaredAreaMm2
      policy.maxAreaChangeRatio then some .area
  else if original.solids = 0 ∨ current.solids = 0 ∨ original.solids < current.solids then none
  else if !accounted original.volumeMm3 current.volumeMm3 declared.declaredVolumeMm3
      policy.maxVolumeChangeRatio then some .volume
  else none

/-- The cumulative caps: how far a run may have moved the upload, given what its operations declared. -/
structure CapsHold (policy : CapPolicy K) (original current : Measure K)
    (declared : Accounting K) : Prop where
  measured : ∀ x ∈ original.sizes ++ current.sizes, policy.isFinite x
  tolerance : ¬ toleranceCeiling policy original < current.maxToleranceMm
  moved : 0 < original.diagonalMm →
    ¬ policy.maxDeviationRatio < distance current.diagonalMm original.diagonalMm /
      original.diagonalMm
  area : Accounted original.surfaceAreaMm2 current.surfaceAreaMm2 declared.declaredAreaMm2
    policy.maxAreaChangeRatio
  /-- A body that closed has a volume that no operation could declare. -/
  volume : original.solids ≠ 0 → current.solids ≠ 0 → current.solids ≤ original.solids →
    Accounted original.volumeMm3 current.volumeMm3 declared.declaredVolumeMm3
      policy.maxVolumeChangeRatio

lemma accounted_iff {original current declared residual : K} :
    accounted original current declared residual = true ↔
      Accounted original current declared residual := by
  unfold accounted Accounted
  split_ifs with h
  · simp [h]
  · simp [h]

theorem cumulativeRefusal_eq_none_iff {policy : CapPolicy K} {original current : Measure K}
    {declared : Accounting K} : cumulativeRefusal policy original current declared = none ↔
      CapsHold policy original current declared := by
  unfold cumulativeRefusal
  constructor
  · intro h
    split_ifs at h with hupload hresult htolerance hmoved harea hclosed hvolume
    · refine ⟨measured_iff.mpr ⟨hupload, hresult⟩, htolerance,
        fun hpos hmore => hmoved ⟨hpos, hmore⟩, accounted_iff.mp (by simpa using harea), ?_⟩
      intro h0 h1 h2
      omega
    · refine ⟨measured_iff.mpr ⟨hupload, hresult⟩, htolerance,
        fun hpos hmore => hmoved ⟨hpos, hmore⟩, accounted_iff.mp (by simpa using harea), ?_⟩
      intro _ _ _
      exact accounted_iff.mp (by simpa using hvolume)
  · rintro ⟨hmeasured, htolerance, hmoved, harea, hvolume⟩
    obtain ⟨hupload, hresult⟩ := measured_iff.mp hmeasured
    have hmoved : ¬ (0 < original.diagonalMm ∧ policy.maxDeviationRatio <
        distance current.diagonalMm original.diagonalMm / original.diagonalMm) :=
      fun h => hmoved h.1 h.2
    rw [if_neg hupload, if_neg hresult, if_neg htolerance, if_neg hmoved,
      if_neg (by simpa using accounted_iff.mpr harea)]
    split_ifs with hclosed hrefused
    · rfl
    · have hclosed : original.solids ≠ 0 ∧ current.solids ≠ 0 ∧
          current.solids ≤ original.solids := by omega
      have haccounted := accounted_iff.mpr (hvolume hclosed.1 hclosed.2.1 hclosed.2.2)
      simp [haccounted] at hrefused
    · rfl

end

end MeshPipeline.CadRepair
