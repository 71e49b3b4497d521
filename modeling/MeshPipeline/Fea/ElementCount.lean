import Mathlib.Algebra.Order.BigOperators.Group.List
import Mathlib.Tactic.FieldSimp
import Mathlib.Tactic.Linarith
import Mathlib.Tactic.Positivity
import Mathlib.Tactic.Ring

/-!
# The element estimate

The volume and the surface of a part by element size, and the count of elements at a base size that
is read from them. A coarser base never counts more, though the layer on a thin wall grows.
-/

namespace MeshPipeline.Fea

/-- The volume at a zone size; `⊤` where no zone reaches. -/
structure VolumeRow (K : Type*) [LinearOrder K] [Zero K] where
  size : WithTop K
  volume : K
  size_pos : 0 < size
  volume_nonneg : 0 ≤ volume

/-- The area at a zone size and a wall; a face without a measured wall has none. -/
structure SurfaceRow (K : Type*) [LinearOrder K] [Zero K] where
  size : K
  wall : K
  area : K
  size_pos : 0 < size
  area_nonneg : 0 ≤ area

structure Histogram (K : Type*) [LinearOrder K] [Zero K] where
  rows : List (VolumeRow K)
  surface : List (SurfaceRow K)

variable {K : Type*} [Field K] [LinearOrder K]

def slabPerArea : K := 37 / 10

def surfacePerArea : K := 28 / 10

/-- `surface_share`. -/
def surfaceShare (wall h perH3 : K) : K :=
  max surfacePerArea (if 0 < wall then slabPerArea - 1 / 2 * perH3 * wall / h else 0)

/-- The size of a row at a base size. -/
def VolumeRow.sizeAt (row : VolumeRow K) (base : K) : K :=
  match row.size with
  | ⊤ => base
  | (h : K) => min h base

/-- `elements`. -/
def elements (hist : Histogram K) (base perH3 : K) : K :=
  perH3 * (hist.rows.map fun row => row.volume / row.sizeAt base ^ 3).sum +
    (hist.surface.map fun row =>
      row.area / min row.size base ^ 2 * surfaceShare row.wall (min row.size base) perH3).sum

variable [IsStrictOrderedRing K] {a b c wall perH3 : K}

omit [IsStrictOrderedRing K] in
lemma slab_eq (ha : 0 < a) : (37 / 10 - c / a) / a ^ 2 = (37 / 10 * a - c) / a ^ 3 := by
  have hne := ha.ne'
  field_simp

/-- A slab that holds its full share at a size holds less of it at a coarser one. -/
lemma slab_le_slab (ha : 0 < a) (hab : a ≤ b) (hc : c ≤ 9 / 10 * a) :
    (37 / 10 - c / b) / b ^ 2 ≤ (37 / 10 - c / a) / a ^ 2 := by
  have hb : 0 < b := ha.trans_le hab
  rw [slab_eq ha, slab_eq hb, div_le_div_iff₀ (by positivity) (by positivity)]
  have hfactor : (37 / 10 * a - c) * b ^ 3 - (37 / 10 * b - c) * a ^ 3 =
      (b - a) * (37 / 10 * (a * b * (a + b)) - c * (a ^ 2 + a * b + b ^ 2)) := by ring
  have hsquares : c * (a ^ 2 + a * b + b ^ 2) ≤ 9 / 10 * a * (a ^ 2 + a * b + b ^ 2) :=
    mul_le_mul_of_nonneg_right hc (by positivity)
  have hcube : a * a ^ 2 ≤ b * a ^ 2 := mul_le_mul_of_nonneg_right hab (by positivity)
  have hrest : 0 ≤ 37 / 10 * (a * b * (a + b)) - c * (a ^ 2 + a * b + b ^ 2) := by
    have hpos : 0 < a * b ^ 2 := by positivity
    have hpos' : 0 < a ^ 2 * b := by positivity
    linarith
  have := mul_nonneg (sub_nonneg.mpr hab) hrest
  linarith

/-- A slab at a coarser size holds no more than the layer at a size where the layer is more. -/
lemma slab_le_layer (ha : 0 < a) (hab : a ≤ b) (hc : 9 / 10 * a ≤ c) :
    (37 / 10 - c / b) / b ^ 2 ≤ 28 / 10 / a ^ 2 := by
  have hb : 0 < b := ha.trans_le hab
  rw [slab_eq hb, div_le_div_iff₀ (by positivity) (by positivity)]
  have hfactor : 28 / 10 * b ^ 3 - (37 / 10 * b - 9 / 10 * a) * a ^ 2 =
      (b - a) * (28 / 10 * b ^ 2 + 28 / 10 * (a * b) - 9 / 10 * a ^ 2) := by ring
  have hsquare : a * a ≤ a * b := mul_le_mul_of_nonneg_left hab ha.le
  have hrest : 0 ≤ 28 / 10 * b ^ 2 + 28 / 10 * (a * b) - 9 / 10 * a ^ 2 := by
    have hpos : 0 < b ^ 2 := by positivity
    have hpos' : 0 < a * a := by positivity
    linarith
  have hle : (37 / 10 * b - c) * a ^ 2 ≤ (37 / 10 * b - 9 / 10 * a) * a ^ 2 :=
    mul_le_mul_of_nonneg_right (by linarith) (by positivity)
  have := mul_nonneg (sub_nonneg.mpr hab) hrest
  linarith

/-- What a surface adds per area falls with the size. -/
theorem surfaceShare_antitone (ha : 0 < a) (hab : a ≤ b) :
    surfaceShare wall b perH3 / b ^ 2 ≤ surfaceShare wall a perH3 / a ^ 2 := by
  have hb : 0 < b := ha.trans_le hab
  have hsquares : a ^ 2 ≤ b ^ 2 := by gcongr
  have hlayer : (surfacePerArea : K) / b ^ 2 ≤ surfacePerArea / a ^ 2 :=
    div_le_div_of_nonneg_left (by norm_num [surfacePerArea]) (by positivity) hsquares
  have hshare : ∀ h : K, (surfacePerArea : K) / a ^ 2 ≤ surfaceShare wall h perH3 / a ^ 2 :=
    fun h => div_le_div_of_nonneg_right (le_max_left _ _) (by positivity)
  rcases max_choice (surfacePerArea : K)
    (if 0 < wall then slabPerArea - 1 / 2 * perH3 * wall / b else 0) with hmax | hmax
  · rw [surfaceShare, hmax]
    exact hlayer.trans (hshare a)
  · rw [surfaceShare, hmax]
    split
    · next hwall =>
      obtain hc | hc := le_total (1 / 2 * perH3 * wall) (9 / 10 * a)
      · refine (slab_le_slab ha hab hc).trans ?_
        refine div_le_div_of_nonneg_right ?_ (by positivity)
        rw [surfaceShare, if_pos hwall]
        exact le_max_right _ _
      · exact (slab_le_layer ha hab hc).trans (hshare a)
    · rw [zero_div]
      refine le_trans ?_ (hshare a)
      unfold surfacePerArea
      positivity

omit [IsStrictOrderedRing K] in
lemma VolumeRow.sizeAt_mono (row : VolumeRow K) (ha : 0 < a) (hab : a ≤ b) :
    0 < row.sizeAt a ∧ row.sizeAt a ≤ row.sizeAt b := by
  unfold VolumeRow.sizeAt
  have hpos := row.size_pos
  revert hpos
  cases row.size with
  | top => exact fun _ => ⟨ha, hab⟩
  | coe h => exact fun hpos => ⟨lt_min (WithTop.coe_pos.mp hpos) ha, min_le_min_left h hab⟩

/-- A coarser base counts no more elements. -/
theorem elements_antitone (hist : Histogram K) (hperH3 : 0 ≤ perH3) (ha : 0 < a) (hab : a ≤ b) :
    elements hist b perH3 ≤ elements hist a perH3 := by
  refine add_le_add (mul_le_mul_of_nonneg_left (List.sum_le_sum fun row _ => ?_) hperH3)
    (List.sum_le_sum fun row _ => ?_)
  · obtain ⟨hpos, hle⟩ := row.sizeAt_mono ha hab
    exact div_le_div_of_nonneg_left row.volume_nonneg (by positivity) (by gcongr)
  · have hpos : 0 < min row.size a := lt_min row.size_pos ha
    have hshare : surfaceShare row.wall (min row.size b) perH3 / min row.size b ^ 2 ≤
        surfaceShare row.wall (min row.size a) perH3 / min row.size a ^ 2 :=
      surfaceShare_antitone hpos (min_le_min_left row.size hab)
    have hmul := mul_le_mul_of_nonneg_left hshare row.area_nonneg
    rwa [← mul_div_assoc, ← mul_div_assoc, mul_div_right_comm, mul_div_right_comm] at hmul

end MeshPipeline.Fea
