import Mathlib.Algebra.Group.Int.Even
import Mathlib.Algebra.Order.Floor.Ring
import Mathlib.Data.Int.Log
import Mathlib.Data.Rat.Floor
import Mathlib.Tactic.Linarith
import Mathlib.Tactic.Positivity
import Mathlib.Tactic.FieldSimp

/-!
# Rounding to decimal places

A rational number to the nearest multiple of a power of ten, a tie to the even one, with a number of
places or of significant digits. Rounding keeps order and fixes what is rounded already.
-/

namespace DecimalRound

/-- The nearest integer, of two the even one. -/
def halfEven (q : ℚ) : ℤ :=
  if q - ⌊q⌋ < 1 / 2 then ⌊q⌋
  else if 1 / 2 < q - ⌊q⌋ then ⌊q⌋ + 1
  else if Even ⌊q⌋ then ⌊q⌋ else ⌊q⌋ + 1

/-- To `digits` places after the point. -/
def round (digits : ℕ) (q : ℚ) : ℚ := halfEven (q * 10 ^ digits) / 10 ^ digits

variable {p q : ℚ} {digits : ℕ}

theorem floor_le_halfEven (q : ℚ) : ⌊q⌋ ≤ halfEven q := by
  unfold halfEven
  split
  · exact le_rfl
  · split
    · omega
    · split <;> omega

theorem halfEven_le (q : ℚ) : halfEven q ≤ ⌊q⌋ + 1 := by
  unfold halfEven
  split
  · omega
  · split
    · exact le_rfl
    · split <;> omega

@[simp]
theorem halfEven_intCast (n : ℤ) : halfEven n = n := by
  simp [halfEven]

theorem halfEven_mono {p q : ℚ} (hpq : p ≤ q) : halfEven p ≤ halfEven q := by
  obtain hlt | heq := (Int.floor_le_floor hpq).lt_or_eq
  · calc halfEven p ≤ ⌊p⌋ + 1 := halfEven_le p
      _ ≤ ⌊q⌋ := hlt
      _ ≤ halfEven q := floor_le_halfEven q
  · unfold halfEven
    rw [heq]
    have hfrac : p - ⌊q⌋ ≤ q - ⌊q⌋ := by linarith
    split
    · exact floor_le_halfEven q
    · rename_i hp
      have hq : ¬ q - ⌊q⌋ < 1 / 2 := by linarith
      rw [if_neg hq]
      split
      · rename_i habove
        have hq' : 1 / 2 < q - ⌊q⌋ := by linarith
        rw [if_pos hq']
      · split
        · split <;> omega
        · split <;> omega

theorem round_mono : Monotone (round digits) := by
  intro p q hpq
  unfold round
  have hscaled : p * 10 ^ digits ≤ q * 10 ^ digits := by gcongr
  have hround : (halfEven (p * 10 ^ digits) : ℚ) ≤ halfEven (q * 10 ^ digits) := by
    exact_mod_cast halfEven_mono hscaled
  gcongr

/-- A multiple of the last place is kept. -/
theorem round_of_multiple {n : ℤ} (h : q * 10 ^ digits = n) : round digits q = q := by
  unfold round
  rw [h, halfEven_intCast, ← h]
  field_simp

theorem round_round (q : ℚ) : round digits (round digits q) = round digits q := by
  apply round_of_multiple
  unfold round
  field_simp

/-- Clamping commutes with rounding. -/
theorem round_clamp (cap base need : ℚ) :
    round digits (min cap (max base need)) =
      min (round digits cap) (max (round digits base) (round digits need)) := by
  rw [round_mono.map_min, round_mono.map_max]

/-! ## Significant digits -/

/-- The places that leave so many significant digits. -/
def places (digits : ℕ) (q : ℚ) : ℤ := digits - 1 - Int.log 10 q

/-- A size to so many significant digits. -/
def magnitude (digits : ℕ) (q : ℚ) : ℚ :=
  halfEven (q * 10 ^ places digits q) / 10 ^ places digits q

/-- To so many significant digits. -/
def significant (digits : ℕ) (q : ℚ) : ℚ :=
  if q < 0 then -magnitude digits (-q) else magnitude digits q

lemma ten_zpow_pos (k : ℤ) : (0 : ℚ) < 10 ^ k := zpow_pos (by norm_num) k

lemma halfEven_ten_pow (n : ℕ) : (halfEven (10 ^ n) : ℚ) = 10 ^ n := by
  have h := halfEven_intCast (10 ^ n)
  push_cast at h
  rw [h]
  push_cast
  rfl

lemma scaled_bounds (hq : 0 < q) (hdigits : 0 < digits) :
    (10 : ℚ) ^ (digits - 1) ≤ q * 10 ^ places digits q ∧ q * 10 ^ places digits q < 10 ^ digits := by
  have hlower := Int.zpow_log_le_self (R := ℚ) (b := 10) (by norm_num) hq
  have hupper := Int.lt_zpow_succ_log_self (R := ℚ) (b := 10) (by norm_num) q
  push_cast at hlower hupper
  have hexp : ((digits : ℤ) - 1) = ((digits - 1 : ℕ) : ℤ) := by omega
  have hpos := ten_zpow_pos (places digits q)
  constructor
  · calc (10 : ℚ) ^ (digits - 1) = 10 ^ Int.log 10 q * 10 ^ places digits q := by
          rw [← zpow_add₀ (by norm_num), places, ← zpow_natCast, ← hexp]
          congr 1
          ring
      _ ≤ q * 10 ^ places digits q := by gcongr
  · calc q * 10 ^ places digits q < 10 ^ (Int.log 10 q + 1) * 10 ^ places digits q := by
          gcongr
      _ = 10 ^ digits := by
          rw [← zpow_add₀ (by norm_num), places, ← zpow_natCast]
          congr 1
          ring

/-- A rounded size stays between the powers of ten around it. -/
lemma magnitude_bounds (hq : 0 < q) (hdigits : 0 < digits) :
    10 ^ Int.log 10 q ≤ magnitude digits q ∧ magnitude digits q ≤ 10 ^ (Int.log 10 q + 1) := by
  obtain ⟨hlower, hupper⟩ := scaled_bounds hq hdigits
  have hpos := ten_zpow_pos (places digits q)
  have hexp : ((digits : ℤ) - 1) = ((digits - 1 : ℕ) : ℤ) := by omega
  have hround : (halfEven (10 ^ (digits - 1)) : ℚ) ≤ halfEven (q * 10 ^ places digits q) := by
    exact_mod_cast halfEven_mono hlower
  have hround' : (halfEven (q * 10 ^ places digits q) : ℚ) ≤ halfEven (10 ^ digits) := by
    exact_mod_cast halfEven_mono hupper.le
  rw [halfEven_ten_pow] at hround hround'
  unfold magnitude
  constructor
  · rw [le_div_iff₀ hpos, ← zpow_add₀ (by norm_num)]
    refine le_trans (le_of_eq ?_) hround
    rw [places, ← zpow_natCast, ← hexp]
    congr 1
    ring
  · rw [div_le_iff₀ hpos, ← zpow_add₀ (by norm_num)]
    refine hround'.trans (le_of_eq ?_)
    rw [places, ← zpow_natCast]
    congr 1
    ring

lemma magnitude_pos (hq : 0 < q) (hdigits : 0 < digits) : 0 < magnitude digits q :=
  (ten_zpow_pos _).trans_le (magnitude_bounds hq hdigits).1

@[simp]
lemma magnitude_zero : magnitude digits 0 = 0 := by simp [magnitude, halfEven]

lemma magnitude_nonneg (hq : 0 ≤ q) (hdigits : 0 < digits) : 0 ≤ magnitude digits q := by
  obtain hpos | rfl := hq.lt_or_eq
  · exact (magnitude_pos hpos hdigits).le
  · simp

lemma magnitude_le (hp : 0 < p) (hpq : p ≤ q) (hdigits : 0 < digits) :
    magnitude digits p ≤ magnitude digits q := by
  have hq := hp.trans_le hpq
  obtain hlt | heq := (Int.log_mono_right (b := 10) hp hpq).lt_or_eq
  · calc magnitude digits p ≤ 10 ^ (Int.log 10 p + 1) := (magnitude_bounds hp hdigits).2
      _ ≤ 10 ^ Int.log 10 q := zpow_le_zpow_right₀ (by norm_num) hlt
      _ ≤ magnitude digits q := (magnitude_bounds hq hdigits).1
  · have hplaces : places digits p = places digits q := by rw [places, places, heq]
    have hpos := ten_zpow_pos (places digits q)
    have hround : (halfEven (p * 10 ^ places digits q) : ℚ) ≤
        halfEven (q * 10 ^ places digits q) := by
      have hscaled : p * 10 ^ places digits q ≤ q * 10 ^ places digits q := by gcongr
      exact_mod_cast halfEven_mono hscaled
    unfold magnitude
    rw [hplaces]
    gcongr

/-- Rounding to significant digits keeps order. -/
theorem significant_mono (hdigits : 0 < digits) : Monotone (significant digits) := by
  intro p q hpq
  unfold significant
  split
  · next hp =>
    split
    · next hq => exact neg_le_neg (magnitude_le (by linarith) (by linarith) hdigits)
    · next hq =>
      have hleft := magnitude_pos (q := -p) (by linarith) hdigits
      have hright := magnitude_nonneg (q := q) (by linarith) hdigits
      linarith
  · next hp =>
    rw [if_neg (by linarith)]
    obtain hpos | rfl := (not_lt.mp hp).lt_or_eq
    · exact magnitude_le hpos hpq hdigits
    · simpa using magnitude_nonneg hpq hdigits

/-- A size that is rounded is kept. -/
lemma magnitude_magnitude (hq : 0 < q) (hdigits : 0 < digits) :
    magnitude digits (magnitude digits q) = magnitude digits q := by
  obtain ⟨hlower, hupper⟩ := magnitude_bounds hq hdigits
  have hpos := magnitude_pos hq hdigits
  have hexp : ((digits : ℤ) - 1) = ((digits - 1 : ℕ) : ℤ) := by omega
  obtain ⟨n, hn⟩ : ∃ n : ℤ, magnitude digits q * 10 ^ places digits (magnitude digits q) = n := by
    obtain hlt | heq := hupper.lt_or_eq
    · have hlog : Int.log 10 (magnitude digits q) = Int.log 10 q := by
        apply le_antisymm
        · exact Int.lt_add_one_iff.mp ((Int.lt_zpow_iff_log_lt (b := 10) (by norm_num) hpos).mp
            (by exact_mod_cast hlt))
        · exact (Int.zpow_le_iff_le_log (b := 10) (by norm_num) hpos).mp (by exact_mod_cast hlower)
      refine ⟨halfEven (q * 10 ^ places digits q), ?_⟩
      have hplaces : places digits (magnitude digits q) = places digits q := by
        rw [places, places, hlog]
      rw [hplaces]
      unfold magnitude
      exact div_mul_cancel₀ _ (ten_zpow_pos _).ne'
    · refine ⟨10 ^ (digits - 1), ?_⟩
      have hlog : Int.log 10 (magnitude digits q) = Int.log 10 q + 1 := by
        rw [heq]
        exact_mod_cast Int.log_zpow (R := ℚ) (b := 10) (by norm_num) (Int.log 10 q + 1)
      rw [places, hlog, heq, ← zpow_add₀ (by norm_num)]
      push_cast
      rw [← zpow_natCast, ← hexp]
      congr 1
      ring
  have hround : halfEven (magnitude digits q * 10 ^ places digits (magnitude digits q)) = n := by
    rw [hn, halfEven_intCast]
  rw [magnitude, hround, ← hn]
  exact mul_div_cancel_right₀ _ (ten_zpow_pos _).ne'

theorem significant_significant (q : ℚ) (hdigits : 0 < digits) :
    significant digits (significant digits q) = significant digits q := by
  obtain hneg | hpos := lt_or_ge q 0
  · have hmag := magnitude_pos (q := -q) (by linarith) hdigits
    rw [significant, significant, if_pos hneg, if_pos (by linarith), neg_neg,
      magnitude_magnitude (by linarith) hdigits]
  · obtain hpos | rfl := hpos.lt_or_eq
    · have hmag := magnitude_pos hpos hdigits
      rw [significant, significant, if_neg hpos.not_gt, if_neg hmag.not_gt,
        magnitude_magnitude hpos hdigits]
    · simp [significant]

end DecimalRound
