import Mathlib.Algebra.Order.Field.Basic
import Mathlib.Data.Nat.Basic
import Mathlib.Tactic.FieldSimp
import Mathlib.Tactic.Linarith
import Mathlib.Tactic.Ring

/-!
# Bisection

The last index at which a test holds, for a test that never holds again once it has failed; and the
halving of an interval of an ordered field, which keeps what it found at the lower end.
-/

namespace Bisect

/-- `while lo < hi`, with the middle rounded up. -/
def last (test : ℕ → Bool) : ℕ → ℕ → ℕ → ℕ
  | 0, lo, _ => lo
  | n + 1, lo, hi =>
    if lo < hi then
      let mid := (lo + hi + 1) / 2
      if test mid then last test n mid hi else last test n lo (mid - 1)
    else lo

variable {test : ℕ → Bool} {n lo hi : ℕ}

/-- Rounds enough find the last index at which the test holds. -/
theorem last_spec (hanti : ∀ i j, i ≤ j → j ≤ hi → test j = true → test i = true)
    (hlo : test lo = true) (hle : lo ≤ hi) (hn : hi - lo ≤ n) :
    (lo ≤ last test n lo hi ∧ last test n lo hi ≤ hi) ∧ test (last test n lo hi) = true ∧
      ∀ i ≤ hi, test i = true → i ≤ last test n lo hi := by
  induction n generalizing lo hi with
  | zero =>
    have heq : hi = lo := by omega
    subst heq
    exact ⟨⟨Nat.le_refl hi, Nat.le_refl hi⟩, hlo, fun i hi _ => hi⟩
  | succ n ih =>
    rw [last]
    split
    · next hlt =>
      dsimp only
      split
      · next hmid =>
        obtain ⟨hbounds, htest, hmax⟩ := @ih _ hi hanti hmid (by omega) (by omega)
        exact ⟨⟨by omega, hbounds.2⟩, htest, hmax⟩
      · next hmid =>
        obtain ⟨hbounds, htest, hmax⟩ :=
          @ih lo ((lo + hi + 1) / 2 - 1) (fun i j hij hj => hanti i j hij (by omega)) hlo
            (by omega) (by omega)
        refine ⟨⟨hbounds.1, by omega⟩, htest, fun i hle hi => hmax i ?_ hi⟩
        -- past the middle the test has failed for good
        by_contra hge
        exact hmid (hanti _ i (by omega) hle hi)
    · have heq : hi = lo := by omega
      subst heq
      exact ⟨⟨Nat.le_refl hi, Nat.le_refl hi⟩, hlo, fun i hi _ => hi⟩

/-! ## Halving an interval -/

section Halving

variable {K α : Type*} [Field K] [LinearOrder K] (eval : K → α) (ok : α → Bool)

/-- `n` rounds on the interval from `lo` to `hi`: the lower end, with what was found there, moves to
a middle that passes, the upper end to one that does not. -/
def halve : ℕ → K × α → K → K × α
  | 0, lo, _ => lo
  | n + 1, lo, hi =>
    let mid := (lo.1 + hi) / 2
    let found := eval mid
    if ok found then halve n (mid, found) hi else halve n lo mid

lemma halve_succ (n : ℕ) (lo : K × α) (hi : K) : halve eval ok (n + 1) lo hi =
    if ok (eval ((lo.1 + hi) / 2)) then
      halve eval ok n ((lo.1 + hi) / 2, eval ((lo.1 + hi) / 2)) hi
    else halve eval ok n lo ((lo.1 + hi) / 2) := rfl

/-- A property of an end with what was found there is kept, when every middle that passes has it. -/
theorem halve_keeps (n : ℕ) (lo : K × α) (hi : K) {P : K × α → Prop}
    (h : ∀ x, ok (eval x) → P (x, eval x)) (hlo : P lo) : P (halve eval ok n lo hi) := by
  induction n generalizing lo hi with
  | zero => exact hlo
  | succ n ih =>
    rw [halve_succ]
    split
    · next hmid => exact ih _ hi (h _ hmid)
    · exact ih lo _ hlo

variable [IsStrictOrderedRing K]

/-- The upper end fails, and the interval is halved in each round. -/
theorem halve_upper (n : ℕ) (lo : K × α) (hi : K) (hle : lo.1 ≤ hi) (hfail : ¬ ok (eval hi)) :
    lo.1 ≤ (halve eval ok n lo hi).1 ∧
      ¬ ok (eval ((halve eval ok n lo hi).1 + (hi - lo.1) / 2 ^ n)) := by
  induction n generalizing lo hi with
  | zero =>
    refine ⟨le_rfl, ?_⟩
    have hzero : halve eval ok 0 lo hi = lo := rfl
    simpa [hzero] using hfail
  | succ n ih =>
    have hlower : lo.1 ≤ (lo.1 + hi) / 2 := by linarith
    have hupper : (lo.1 + hi) / 2 ≤ hi := by linarith
    have hhalf : (hi - (lo.1 + hi) / 2) / 2 ^ n = (hi - lo.1) / 2 ^ (n + 1) := by
      rw [pow_succ]
      field_simp
      ring
    have hhalf' : ((lo.1 + hi) / 2 - lo.1) / 2 ^ n = (hi - lo.1) / 2 ^ (n + 1) := by
      rw [pow_succ]
      field_simp
      ring
    rw [halve_succ]
    split
    · obtain ⟨hge, hnot⟩ := ih ((lo.1 + hi) / 2, eval ((lo.1 + hi) / 2)) hi hupper hfail
      rw [hhalf] at hnot
      exact ⟨hlower.trans hge, hnot⟩
    · next hmid =>
      obtain ⟨hge, hnot⟩ := ih lo ((lo.1 + hi) / 2) hlower hmid
      rw [hhalf'] at hnot
      exact ⟨hge, hnot⟩

end Halving

end Bisect
