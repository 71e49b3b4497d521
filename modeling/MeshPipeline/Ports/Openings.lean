import Mathlib.Algebra.Order.Field.Rat
import Mathlib.Analysis.Real.Sqrt
import Mathlib.Data.Prod.Lex
import Mathlib.Tactic.Positivity

/-!
# Openings and declared ports

What was measured of an opening, what a declaration says of a port, and when the two agree in size.
-/

namespace MeshPipeline.Ports

/-! ## Constants -/

/-- `math.pi`. -/
def pi : ℚ := 884279719003555 / 281474976710656

/-- `AREA_RATIO_LO`. -/
def areaRatioLo : ℚ := 3 / 4

/-- `AREA_RATIO_HI`. -/
def areaRatioHi : ℚ := 5 / 4

/-- `MIN_CLASS_SEPARATION`. -/
def minClassSeparation : ℚ := areaRatioHi / areaRatioLo

/-- `HINT_MAX_BBOX_FRACTION`. -/
def hintMaxBboxFraction : ℚ := 1 / 4

/-- `HINT_MARGIN`. -/
def hintMargin : ℚ := 1 / 2

/-- `LOCATED_RATIO_LO`. -/
def locatedRatioLo : ℚ := 1 / 2

/-- `LOCATED_RATIO_HI`. -/
def locatedRatioHi : ℚ := 2

/-- `_EPS`. -/
def eps : ℚ := 1 / 10 ^ 9

/-! ## Places -/

structure Point where
  x : ℚ
  y : ℚ
  z : ℚ
  deriving DecidableEq

namespace Point

/-- The square of `_dist`: distances are only ever compared. -/
def distSq (a b : Point) : ℚ := (a.x - b.x) ^ 2 + (a.y - b.y) ^ 2 + (a.z - b.z) ^ 2

/-- Millimetres in metres. -/
def metres (a : Point) : Point := ⟨a.x / 1000, a.y / 1000, a.z / 1000⟩

/-- The order of tuples. -/
def key (a : Point) : ℚ ×ₗ ℚ ×ₗ ℚ := toLex (a.x, toLex (a.y, a.z))

lemma distSq_nonneg (a b : Point) : 0 ≤ a.distSq b := by
  unfold distSq
  positivity

/-- `math.dist`. -/
noncomputable def dist (a b : Point) : ℝ := Real.sqrt (a.distSq b)

/-- Distances compare as their squares do. -/
theorem dist_le_iff {a b c d : Point} : a.dist b ≤ c.dist d ↔ a.distSq b ≤ c.distSq d := by
  unfold dist
  rw [Real.sqrt_le_sqrt_iff (by exact_mod_cast distSq_nonneg c d)]
  exact_mod_cast Iff.rfl

theorem lt_mul_dist_iff {a b c d : Point} {f : ℚ} (hf : 0 ≤ f) :
    f * c.dist d < a.dist b ↔ f ^ 2 * c.distSq d < a.distSq b := by
  have hsqrt : (f : ℝ) * c.dist d = Real.sqrt ((f ^ 2 * c.distSq d : ℚ) : ℝ) := by
    push_cast
    rw [Real.sqrt_mul (by positivity), Real.sqrt_sq (by exact_mod_cast hf), dist]
  rw [hsqrt, dist, Real.sqrt_lt_sqrt_iff]
  · exact_mod_cast Iff.rfl
  · exact_mod_cast mul_nonneg (sq_nonneg f) (distSq_nonneg c d)

end Point

/-! ## Declared ports -/

/-- A stated size: the intake refuses one that is not positive. -/
abbrev Size := {q : ℚ // 0 < q}

structure DeclaredPatch where
  name : String
  role : String
  diameterMm : Option Size
  areaMm2 : Option Size
  widthMm : Option Size
  heightMm : Option Size
  nearMm : Option Point
  interchangeableWith : List String
  innerDiameterMm : Option ℚ
  deriving DecidableEq

lemma pi_pos : 0 < pi := by
  unfold pi
  norm_num

/-- The area of a circle, in square metres, by its diameter in millimetres. -/
def discArea (d : Size) : Size :=
  ⟨pi * (d.val / 2) ^ 2 / 10 ^ 6, by have := pi_pos; have := d.property; positivity⟩

lemma ring_pos {d : Size} {i : ℚ} (h : 0 < i ∧ i < d.val) :
    0 < pi * ((d.val / 2) ^ 2 - (i / 2) ^ 2) / 10 ^ 6 := by
  have hsquares : (i / 2) ^ 2 < (d.val / 2) ^ 2 :=
    pow_lt_pow_left₀ (by linarith [h.2]) (by linarith [h.1]) two_ne_zero
  have := mul_pos pi_pos (sub_pos.mpr hsquares)
  positivity

namespace DeclaredPatch

def isPort (p : DeclaredPatch) : Bool := p.role == "inlet" || p.role == "outlet"

def isLocated (p : DeclaredPatch) : Bool := p.nearMm.isSome

/-- `declared_area_m2`. -/
def declaredAreaM2 (p : DeclaredPatch) : Option Size :=
  match p.diameterMm with
  | some d =>
    match p.innerDiameterMm with
    | some i =>
      if h : 0 < i ∧ i < d.val then
        some ⟨pi * ((d.val / 2) ^ 2 - (i / 2) ^ 2) / 10 ^ 6, ring_pos h⟩
      else some (discArea d)
    | none => some (discArea d)
  | none =>
    match p.areaMm2 with
    | some a => some ⟨a.val / 10 ^ 6, div_pos a.property (by norm_num)⟩
    | none =>
      match p.widthMm, p.heightMm with
      | some w, some h =>
        some ⟨w.val * h.val / 10 ^ 6, div_pos (mul_pos w.property h.property) (by norm_num)⟩
      | _, _ => none

def sizingForms (p : DeclaredPatch) : Nat :=
  p.diameterMm.isSome.toNat + p.areaMm2.isSome.toNat +
    (p.widthMm.isSome || p.heightMm.isSome).toNat

end DeclaredPatch

/-! ## Openings -/

/-- What the inner wire of a ring face encloses, and what stands in it (0 where nothing does). -/
structure Ring where
  area : ℚ
  filled : ℚ
  deriving DecidableEq

structure Opening where
  area : ℚ
  centroid : Point
  opening : Option Ring
  /-- The surface staging matched it to the port whose name is its key. -/
  declared : Bool
  deriving DecidableEq

/-- `_ratio_ok`. -/
def ratioOk (measured : ℚ) (declared : Size) : Bool :=
  areaRatioLo - eps ≤ measured / declared.val ∧ measured / declared.val ≤ areaRatioHi + eps

namespace Opening

/-- `_measures`. -/
def measures (o : Opening) : List ℚ :=
  match o.opening with
  | none => [o.area]
  | some r =>
    [o.area, r.area] ++ (if 0 < r.filled ∧ r.filled < r.area then [r.area - r.filled] else []) ++
      [o.area + r.area]

/-- `_size_agrees`. -/
def sizeAgrees (o : Opening) (declared : Size) : Bool := o.measures.any (ratioOk · declared)

/-- `_located_size_agrees`. -/
def locatedSizeAgrees (o : Opening) (declared : Size) : Bool :=
  decide (locatedRatioLo - eps ≤ o.area / declared.val ∧
    o.area / declared.val ≤ locatedRatioHi + eps) || o.sizeAgrees declared

end Opening

end MeshPipeline.Ports
