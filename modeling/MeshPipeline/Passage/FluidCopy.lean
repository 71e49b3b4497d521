import Mathlib.Algebra.Order.Floor.Ring
import Mathlib.Data.Finset.Sort
import Mathlib.Data.List.GetD
import Mathlib.Data.Prod.Lex
import Mathlib.Data.Rat.Floor
import MeshPipeline.Library.Bisect
import MeshPipeline.Library.Buckets
import MeshPipeline.Library.ConnectedParts

/-!
# The voxel copy of the fluid

The main way through is the widest at which the ports of the copy stay joined, and a passage must be
crossed where its voxels, shut, part the ports. Lengths are exact here.
-/

namespace MeshPipeline.Passage

structure Point where
  x : ℚ
  y : ℚ
  z : ℚ

structure Voxel where
  i : ℤ
  j : ℤ
  k : ℤ
  deriving DecidableEq, Repr

namespace Voxel

/-- The order in which an array is read. -/
def key (v : Voxel) : ℤ ×ₗ ℤ ×ₗ ℤ := toLex (v.i, toLex (v.j, v.k))

/-- Voxels that share a face. -/
def Beside (u v : Voxel) : Prop :=
  (u.i - v.i).natAbs + (u.j - v.j).natAbs + (u.k - v.k).natAbs = 1

/-- Voxels that share a face, an edge or a corner. -/
def Touching (u v : Voxel) : Prop :=
  u ≠ v ∧ (u.i - v.i).natAbs ≤ 1 ∧ (u.j - v.j).natAbs ≤ 1 ∧ (u.k - v.k).natAbs ≤ 1

instance : DecidableRel Beside := fun _ _ => inferInstanceAs (Decidable (_ = _))

instance : DecidableRel Touching := fun _ _ => inferInstanceAs (Decidable (_ ∧ _))

lemma Beside.symm {u v : Voxel} (h : Beside u v) : Beside v u := by
  unfold Beside at h ⊢
  omega

end Voxel

/-- The ball that spans a passage. -/
structure Ball where
  centre : Point
  radius : ℚ

structure FluidCopy where
  /-- How many voxels each way. -/
  shape : Voxel
  fluid : Finset Voxel
  /-- The distance to the nearest voxel of the wall. -/
  dist : Voxel → ℚ
  atPort : List (Finset Voxel)
  origin : Point
  h : ℚ
  dist_nonneg : ∀ v, 0 ≤ dist v
  two_ports : 2 ≤ atPort.length
  h_pos : 0 < h

structure MainWay where
  radius : ℚ
  voxel : ℚ
  read : ℚ

/-- Half of the square root of three and a half, as the double it is. -/
def voxelSlack : ℚ := 13660254037844386 / 10 ^ 16

def minVoxelsInRadius : ℚ := 2

def maxPassagesTested : ℕ := 24

namespace FluidCopy

variable (copy : FluidCopy)

/-- The fluid voxels at least `t` from the wall. -/
def clear (t : ℚ) (blocked : Finset Voxel) : Finset Voxel :=
  (copy.fluid.filter fun v => t ≤ copy.dist v) \ blocked

/-- `joined`. -/
def joined (t : ℚ) (blocked : Finset Voxel) : Bool :=
  ConnectedParts.joined Voxel.Beside (copy.clear t blocked) copy.atPort

/-- The distances there are, in order. -/
def vals : List ℚ := (copy.fluid.image copy.dist).sort (· ≤ ·)

/-- What `main_way` reads off the copy. -/
def widest : Option ℚ :=
  match copy.vals with
  | [] => none
  | v :: vs =>
    if copy.joined v ∅ then
      some ((v :: vs).getD
        (Bisect.last (fun i => copy.joined ((v :: vs).getD i 0) ∅) vs.length 0 vs.length) 0)
    else none

/-- `main_way`. -/
def mainWay : Option MainWay :=
  copy.widest.bind fun read =>
    let radius := read - voxelSlack * copy.h
    if radius < minVoxelsInRadius * copy.h then none
    else some { radius, voxel := copy.h, read }

/-! ## Passages -/

def clip (n i : ℤ) : ℤ := min (max i 0) (n - 1)

/-- A range of the array along one axis, round a ball. -/
def inSlice (n : ℤ) (o c r : ℚ) (i : ℤ) : Prop :=
  clip n ⌊(c - r - copy.h - o) / copy.h⌋ ≤ i ∧ i ≤ clip n ⌈(c + r + copy.h - o) / copy.h⌉

instance (n : ℤ) (o c r : ℚ) (i : ℤ) : Decidable (copy.inSlice n o c r i) :=
  inferInstanceAs (Decidable (_ ∧ _))

/-- The ball, a voxel wider, holds the voxel's centre. -/
def Holds (b : Ball) (v : Voxel) : Prop :=
  (copy.inSlice copy.shape.i copy.origin.x b.centre.x b.radius v.i ∧
    copy.inSlice copy.shape.j copy.origin.y b.centre.y b.radius v.j ∧
    copy.inSlice copy.shape.k copy.origin.z b.centre.z b.radius v.k) ∧
  (copy.origin.x + (v.i + 1 / 2) * copy.h - b.centre.x) ^ 2 +
      (copy.origin.y + (v.j + 1 / 2) * copy.h - b.centre.y) ^ 2 +
      (copy.origin.z + (v.k + 1 / 2) * copy.h - b.centre.z) ^ 2 ≤ (b.radius + copy.h) ^ 2

instance (b : Ball) (v : Voxel) : Decidable (copy.Holds b v) :=
  inferInstanceAs (Decidable (_ ∧ _))

/-- The fluid voxels in the balls. -/
def shut (balls : List Ball) : Finset Voxel :=
  copy.fluid.filter fun v => ∃ b ∈ balls, copy.Holds b v

/-- The voxel that a point is in. -/
def voxelAt (p : Point) : Voxel where
  i := clip copy.shape.i ⌊(p.x - copy.origin.x) / copy.h⌋
  j := clip copy.shape.j ⌊(p.y - copy.origin.y) / copy.h⌋
  k := clip copy.shape.k ⌊(p.z - copy.origin.z) / copy.h⌋

/-- The shut voxels that touch each other round a ball's centre, where that is shut. -/
def passageOf (balls : List Ball) (b : Ball) : Option (Finset Voxel) :=
  if copy.voxelAt b.centre ∈ copy.shut balls then
    some (ConnectedParts.part Voxel.Touching (copy.shut balls) (copy.voxelAt b.centre))
  else none

/-- The passages, those of the most balls first, else as the array is read. -/
def ranked (which : List (Option (Finset Voxel))) : List (Finset Voxel) :=
  Buckets.sortBy (fun k => toLex (-(which.count (some k) : ℤ), (k.image Voxel.key).min))
    which.reduceOption.dedup

/-- The passage is not tested any more, or parts the ports. -/
def crossed (ks : List (Finset Voxel)) (k : Finset Voxel) : Bool :=
  maxPassagesTested ≤ ks.idxOf k || !copy.joined 0 k

/-- `must_cross`. -/
def mustCross (balls : List Ball) : List Bool :=
  let shut := copy.shut balls
  if shut = ∅ ∨ copy.joined 0 shut then balls.map fun _ => false
  else
    let which := balls.map (copy.passageOf balls)
    which.map fun o => o.any (copy.crossed (ranked which))

/-! ## The main way -/

variable {copy} {t t' : ℚ} {blocked blocked' removed : Finset Voxel}

/-- What is joined stays joined with more voxels. -/
lemma joined_mono (hsub : copy.clear t blocked ⊆ copy.clear t' blocked')
    (h : copy.joined t blocked = true) : copy.joined t' blocked' = true :=
  ConnectedParts.joined_mono (fun _ _ => Voxel.Beside.symm) hsub h

lemma joined_of_le (hle : t' ≤ t) (h : copy.joined t ∅ = true) : copy.joined t' ∅ = true := by
  refine joined_mono (fun v hv => ?_) h
  simp only [clear, Finset.sdiff_empty, Finset.mem_filter] at hv ⊢
  exact ⟨hv.1, hle.trans hv.2⟩

lemma atPort_ne_nil (copy : FluidCopy) : copy.atPort ≠ [] := by
  intro hnil
  have := copy.two_ports
  simp [hnil] at this

/-- Without voxels nothing is joined. -/
lemma exists_clear_of_joined (h : copy.joined t blocked = true) :
    ∃ v ∈ copy.fluid, t ≤ copy.dist v := by
  obtain ⟨p, ps, hports⟩ := List.exists_cons_of_ne_nil (atPort_ne_nil copy)
  obtain ⟨c, hc⟩ := (ConnectedParts.joined_iff (atPort_ne_nil copy)).mp h
  obtain ⟨v, -, hv, -⟩ := hc p (by simp [hports])
  obtain ⟨hmem, -⟩ := Finset.mem_sdiff.mp hv
  exact ⟨v, (Finset.mem_filter.mp hmem).1, (Finset.mem_filter.mp hmem).2⟩

lemma mem_vals {d : ℚ} : d ∈ copy.vals ↔ ∃ v ∈ copy.fluid, copy.dist v = d := by
  simp [vals]

lemma sorted_vals (copy : FluidCopy) : copy.vals.Pairwise (· ≤ ·) := Finset.pairwise_sort _ _

/-- Between two distances that there are, nothing changes. -/
lemma exists_val_of_joined (h : copy.joined t ∅ = true) :
    ∃ d ∈ copy.vals, t ≤ d ∧ copy.joined d ∅ = true := by
  obtain ⟨v₀, hv₀, ht₀⟩ := exists_clear_of_joined h
  -- the least of the distances that are no less than `t`
  obtain ⟨v, hv, hmin⟩ := Finset.exists_min_image (copy.fluid.filter fun v => t ≤ copy.dist v)
    copy.dist ⟨v₀, Finset.mem_filter.mpr ⟨hv₀, ht₀⟩⟩
  obtain ⟨hfluid, ht⟩ := Finset.mem_filter.mp hv
  refine ⟨copy.dist v, mem_vals.mpr ⟨v, hfluid, rfl⟩, ht, joined_mono (fun u hu => ?_) h⟩
  simp only [clear, Finset.sdiff_empty, Finset.mem_filter] at hu ⊢
  exact ⟨hu.1, hmin u (Finset.mem_filter.mpr hu)⟩

/-- The bisection finds the largest distance at which the ports are joined, if there is one. -/
theorem widest_spec :
    (∀ t, copy.widest = some t → copy.joined t ∅ = true ∧
      ∀ t', copy.joined t' ∅ = true → t' ≤ t) ∧
    (copy.widest = none → ∀ t, copy.joined t ∅ = false) := by
  have hsorted := sorted_vals copy
  unfold widest
  cases hvals : copy.vals with
  | nil =>
    refine ⟨nofun, fun _ t => ?_⟩
    by_contra hjoined
    obtain ⟨d, hd, -⟩ := exists_val_of_joined (by simpa using hjoined)
    simp [hvals] at hd
  | cons v vs =>
    rw [hvals] at hsorted
    dsimp only
    split
    · next hv =>
      refine ⟨fun t ht => ?_, nofun⟩
      have hmono : ∀ i j, i ≤ j → j ≤ vs.length → (v :: vs).getD i 0 ≤ (v :: vs).getD j 0 := by
        intro i j hij hj
        have hj' : j < (v :: vs).length := by simpa using Nat.lt_succ_of_le hj
        rw [List.getD_eq_getElem _ _ (by omega), List.getD_eq_getElem _ _ hj']
        obtain rfl | hlt := hij.eq_or_lt
        · exact le_rfl
        · exact List.pairwise_iff_getElem.mp hsorted i j (by omega) hj' hlt
      obtain ⟨hbounds, htest, hmax⟩ := @Bisect.last_spec
        (fun i => copy.joined ((v :: vs).getD i 0) ∅) vs.length 0 vs.length
        (fun i j hij hj => joined_of_le (hmono i j hij hj)) (by simpa using hv)
        (Nat.zero_le vs.length) (by omega)
      obtain rfl := Option.some.inj ht
      refine ⟨htest, fun t' ht' => ?_⟩
      obtain ⟨d, hd, hle, hjoined⟩ := exists_val_of_joined ht'
      rw [hvals] at hd
      obtain ⟨i, hi, rfl⟩ := List.mem_iff_getElem.mp hd
      have hi' : i ≤ vs.length := by simpa using Nat.le_of_lt_succ hi
      rw [← List.getD_eq_getElem _ 0] at hle hjoined
      exact hle.trans (hmono _ _ (hmax i hi' hjoined) hbounds.2)
    · next hv =>
      refine ⟨nofun, fun _ t => ?_⟩
      by_contra hjoined
      obtain ⟨d, hd, -, hd'⟩ := exists_val_of_joined (by simpa using hjoined)
      rw [hvals] at hd
      refine hv (joined_of_le ?_ hd')
      obtain rfl | hd := List.mem_cons.mp hd
      · exact le_rfl
      · exact (List.pairwise_cons.mp hsorted).1 d hd

/-- Without what is nearer to the wall than the main way, the ports are still joined. -/
theorem joined_of_removed (hjoined : copy.joined t ∅ = true)
    (hremoved : ∀ v ∈ removed, copy.dist v < t) : copy.joined 0 removed = true := by
  refine joined_mono (fun v hv => ?_) hjoined
  simp only [clear, Finset.sdiff_empty, Finset.mem_filter, Finset.mem_sdiff] at hv ⊢
  exact ⟨⟨hv.1, copy.dist_nonneg v⟩, fun hmem => absurd hv.2 (not_le.mpr (hremoved v hmem))⟩

/-! ## What must be crossed -/

variable {balls : List Ball} {b : Ball} {k : Finset Voxel}

lemma passageOf_subset (h : copy.passageOf balls b = some k) : k ⊆ copy.shut balls := by
  unfold passageOf at h
  split at h
  · obtain rfl := Option.some.inj h
    exact ConnectedParts.part_subset
  · cases h

/-- Shutting less joins more. -/
lemma joined_of_subset (hsub : blocked ⊆ blocked') (h : copy.joined t blocked' = true) :
    copy.joined t blocked = true :=
  joined_mono (Finset.sdiff_subset_sdiff subset_rfl hsub) h

lemma passageOf_of_shut_eq_empty (h : copy.shut balls = ∅) : copy.passageOf balls b = none := by
  simp [passageOf, h]

/-- A ball is flagged where the passages, shut together, part the ports, and its own parts them alone
or is not tested. -/
theorem mustCross_eq : copy.mustCross balls = balls.map fun b =>
    !copy.joined 0 (copy.shut balls) &&
      (copy.passageOf balls b).any (copy.crossed (ranked (balls.map (copy.passageOf balls)))) := by
  unfold mustCross
  dsimp only
  split
  · next h =>
    refine List.map_congr_left fun b _ => ?_
    obtain h | h := h
    · simp [passageOf_of_shut_eq_empty h]
    · simp [h]
  · next h =>
    simp only [not_or, Bool.not_eq_true] at h
    simp [h.2]

end FluidCopy

end MeshPipeline.Passage
