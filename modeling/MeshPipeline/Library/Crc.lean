import Mathlib.Algebra.Ring.Parity
import Mathlib.Logic.Function.Iterate

/-!
# Cyclic redundancy checks

A check shifts the bits of a text through a register. What zero bits make of a register is linear in
it, so the check of two texts one after the other is known from the checks of the two and the length
of the second. A linear map is kept as its columns: what it makes of each single bit.
-/

namespace Crc

variable {w : ℕ}

/-! ## Linear maps of bits -/

def Linear (f : BitVec w → BitVec w) : Prop := ∀ a b, f (a ^^^ b) = f a ^^^ f b

def columnsOf (f : BitVec w → BitVec w) : List (BitVec w) :=
  (List.range w).map fun i => f (BitVec.twoPow w i)

/-- The columns of the bits that are set, put together. -/
def apply : List (BitVec w) → BitVec w → BitVec w
  | [], _ => 0
  | m :: ms, v => (if v.getLsbD 0 then m else 0) ^^^ apply ms (v >>> 1)

lemma Linear.zero {f : BitVec w → BitVec w} (hf : Linear f) : f 0#w = 0#w := by
  have h := hf 0#w 0#w
  simpa using h

lemma Linear.comp {f g : BitVec w → BitVec w} (hf : Linear f) (hg : Linear g) :
    Linear (f ∘ g) := by
  intro a b
  simp only [Function.comp_apply, hg a b, hf (g a) (g b)]

lemma Linear.iterate {f : BitVec w → BitVec w} (hf : Linear f) (n : ℕ) : Linear f^[n] := by
  induction n with
  | zero => exact fun _ _ => rfl
  | succ n ih =>
    rw [Function.iterate_succ']
    exact hf.comp ih

/-- A vector is its lowest bit from `k` on, with the bits above. -/
lemma high_eq (v : BitVec w) (k : ℕ) : v >>> k <<< k =
    (if v.getLsbD k then BitVec.twoPow w k else 0) ^^^ (v >>> (k + 1) <<< (k + 1)) := by
  apply BitVec.eq_of_getLsbD_eq
  intro i hi
  by_cases hk : v.getLsbD k <;>
    simp only [hk, if_true, Bool.false_eq_true, if_false, BitVec.getLsbD_xor,
      BitVec.getLsbD_shiftLeft, BitVec.getLsbD_ushiftRight, BitVec.getLsbD_twoPow,
      BitVec.ofNat_eq_ofNat, BitVec.getLsbD_zero, hi, decide_true, Bool.true_and]
  all_goals
    obtain hlt | rfl | hgt := lt_trichotomy i k
    · have hne : k ≠ i := by omega
      simp [hlt, hne, Nat.lt_succ_of_lt hlt]
    · simpa [hi] using hk
    · have hge : ¬ i < k := by omega
      have hge' : ¬ i < k + 1 := by omega
      have hne : k ≠ i := by omega
      have hsame : k + (i - k) = k + 1 + (i - (k + 1)) := by omega
      simp [hge, hge', hne, hsame]

private lemma apply_range {f : BitVec w → BitVec w} (hf : Linear f) (v : BitVec w) :
    ∀ m k, k + m = w →
      apply ((List.range' k m).map fun i => f (BitVec.twoPow w i)) (v >>> k) =
        f (v >>> k <<< k) := by
  intro m
  induction m with
  | zero =>
    intro k hk
    have hzero : v >>> k <<< k = 0#w := by
      apply BitVec.eq_of_getLsbD_eq
      intro i hi
      have hik : i < k := by omega
      simp [hik]
    simp [apply, hzero, hf.zero]
  | succ m ih =>
    intro k hk
    have hrest := ih (k + 1) (by omega)
    rw [List.range'_succ, List.map_cons, apply, high_eq, hf, ← hrest, ← BitVec.shiftRight_add]
    congr 1
    rw [BitVec.getLsbD_ushiftRight, Nat.add_zero]
    split
    · rfl
    · exact hf.zero.symm

/-- The columns of a linear map give the map. -/
theorem apply_columnsOf {f : BitVec w → BitVec w} (hf : Linear f) (v : BitVec w) :
    apply (columnsOf f) v = f v := by
  have h := apply_range hf v w 0 (Nat.zero_add w)
  simpa [columnsOf, List.range_eq_range'] using h

/-- Each column mapped once more: the columns of the map done twice. -/
theorem map_apply_columnsOf {f : BitVec w → BitVec w} (hf : Linear f) :
    (columnsOf f).map (apply (columnsOf f)) = columnsOf (f ∘ f) := by
  have h : apply (columnsOf f) = f := funext (apply_columnsOf hf)
  rw [h]
  simp [columnsOf]

/-! ## The register -/

variable (poly : BitVec w)

/-- The register after a zero bit. -/
def shift (r : BitVec w) : BitVec w := r >>> 1 ^^^ if r.getLsbD 0 then poly else 0

def feed (r : BitVec w) (byte : BitVec 8) : BitVec w := (shift poly)^[8] (r ^^^ byte.setWidth w)

def register (r : BitVec w) (text : List (BitVec 8)) : BitVec w := text.foldl (feed poly) r

/-- The check of a text that goes on after one whose check is `value`. -/
def check (value : BitVec w) (text : List (BitVec 8)) : BitVec w :=
  ~~~ register poly (~~~value) text

private lemma xor_xor_cancel (a b c : BitVec w) : a ^^^ c ^^^ (b ^^^ c) = a ^^^ b := by
  rw [BitVec.xor_assoc, BitVec.xor_comm c, BitVec.xor_assoc b, BitVec.xor_self, BitVec.xor_zero]

lemma linear_shift : Linear (shift poly) := by
  intro a b
  unfold shift
  rw [BitVec.getLsbD_xor, BitVec.ushiftRight_xor_distrib]
  cases a.getLsbD 0 <;> cases b.getLsbD 0
  case false.false => simp
  case false.true => simp [BitVec.xor_assoc]
  case true.false =>
    simp only [Bool.xor_false, if_true, Bool.false_eq_true, if_false, BitVec.ofNat_eq_ofNat,
      BitVec.xor_zero]
    ac_rfl
  case true.true => simpa using (xor_xor_cancel _ _ _).symm

lemma register_xor (r s : BitVec w) (text : List (BitVec 8)) :
    register poly (r ^^^ s) text =
      register poly r text ^^^ (shift poly)^[8 * text.length] s := by
  induction text generalizing r s with
  | nil => rfl
  | cons byte text ih =>
    have hfeed : feed poly (r ^^^ s) byte = feed poly r byte ^^^ (shift poly)^[8] s := by
      unfold feed
      rw [← (linear_shift poly).iterate 8]
      congr 1
      rw [BitVec.xor_assoc, BitVec.xor_comm s, ← BitVec.xor_assoc]
    calc register poly (r ^^^ s) (byte :: text)
        = register poly (feed poly r byte ^^^ (shift poly)^[8] s) text := by
          rw [register, List.foldl_cons, hfeed, register]
      _ = register poly (feed poly r byte) text ^^^
          (shift poly)^[8 * text.length] ((shift poly)^[8] s) := ih _ _
      _ = _ := by
          rw [← Function.iterate_add_apply, List.length_cons, Nat.mul_succ]
          rfl

theorem check_append (value : BitVec w) (a b : List (BitVec 8)) :
    check poly value (a ++ b) = check poly (check poly value a) b := by
  simp [check, register]

/-- The check of two texts, from the checks of both and the length of the second. -/
theorem check_append_eq (value : BitVec w) (a b : List (BitVec 8)) :
    check poly value (a ++ b) =
      (shift poly)^[8 * b.length] (check poly value a) ^^^ check poly 0 b := by
  have hnot : ∀ x : BitVec w, ~~~x = ~~~0#w ^^^ x := fun x => by
    rw [BitVec.not_zero, BitVec.allOnes_xor]
  have hnot_xor : ∀ x y : BitVec w, ~~~(x ^^^ y) = y ^^^ ~~~x := fun x y => by
    rw [hnot, hnot x]
    ac_rfl
  rw [check_append]
  generalize check poly value a = c
  rw [check, hnot c, register_xor, hnot_xor]
  rfl

end Crc
