import Mathlib.Data.List.Lex
import Mathlib.Data.List.MinMax
import Mathlib.Data.List.Sort

/-!
# Ranking by a list of marks

Every candidate has a list of marks, the weightiest first, and the lower list wins. Which mark
decided between two candidates is the first one at which their lists differ.
-/

namespace Ranking

section FirstBest

variable {α ρ : Type*} [LinearOrder ρ]

/-- The first candidate of the lowest rank. -/
def firstBest (rank : α → ρ) (pool : List α) : Option α := pool.argmin rank

variable {rank : α → ρ} {pool : List α} {c best : α}

theorem firstBest_eq_none : firstBest rank pool = none ↔ pool = [] := List.argmin_eq_none

theorem mem_of_firstBest (h : firstBest rank pool = some best) : best ∈ pool := List.argmin_mem h

theorem le_of_firstBest (h : firstBest rank pool = some best) (hc : c ∈ pool) :
    rank best ≤ rank c :=
  List.le_of_mem_argmin hc h

theorem exists_firstBest (rank : α → ρ) (hc : c ∈ pool) :
    ∃ best, firstBest rank pool = some best := by
  refine Option.ne_none_iff_exists'.mp fun hnone => ?_
  simp [firstBest_eq_none.mp hnone] at hc

/-- A sort that keeps what is level in its order puts the first best before the rest. -/
theorem insertionSort_eq_cons [DecidableEq α] (h : firstBest rank pool = some best) :
    pool.insertionSort (fun c d => rank c ≤ rank d) =
      best :: (pool.erase best).insertionSort fun c d => rank c ≤ rank d := by
  induction pool generalizing best with
  | nil => cases h
  | cons c pool ih =>
    rw [firstBest, List.argmin_cons] at h
    rw [List.insertionSort_cons]
    cases hbest : firstBest rank pool with
    | none =>
      rw [firstBest_eq_none] at hbest
      subst hbest
      obtain rfl : c = best := by simpa using h
      simp
    | some d =>
      rw [ih hbest, List.orderedInsert_cons]
      rw [firstBest] at hbest
      rw [hbest] at h
      by_cases hlt : rank d < rank c
      · obtain rfl : d = best := by simpa [hlt] using h
        have hne : c ≠ d := fun heq => absurd hlt (by rw [heq]; exact lt_irrefl _)
        rw [if_neg (not_le.mpr hlt), List.erase_cons_tail (by simpa using hne),
          List.insertionSort_cons]
      · obtain rfl : c = best := by simpa [hlt] using h
        rw [if_pos (not_lt.mp hlt), List.erase_cons_head, ih hbest]

end FirstBest

section Marks

variable {κ : Type*} [LinearOrder κ]

/-- The first position at which two lists differ. -/
def deciding (a b : List κ) : Option Nat := (a.zip b).findIdx? fun p => p.1 ≠ p.2

/-- `a` beats `b` at a position: they are level before it, and `a` is lower there. -/
structure BeatsAt (a b : List κ) (i : Nat) : Prop where
  level : a.take i = b.take i
  lower : ∃ x ∈ a[i]?, ∃ y ∈ b[i]?, x < y

variable {a b : List κ} {i : Nat}

theorem deciding_self (a : List κ) : deciding a a = none := by
  induction a with
  | nil => rfl
  | cons x a ih => simpa [deciding, List.findIdx?_cons] using ih

theorem BeatsAt.cons (x : κ) (h : BeatsAt a b i) : BeatsAt (x :: a) (x :: b) (i + 1) where
  level := by simp [h.level]
  lower := by simpa using h.lower

/-- The lower of two lists of one length beats the other where they first differ. -/
theorem beatsAt_deciding (hlength : a.length = b.length) (h : a < b) :
    ∃ i, deciding a b = some i ∧ BeatsAt a b i := by
  induction a generalizing b with
  | nil =>
    cases b with
    | nil => exact absurd h (lt_irrefl _)
    | cons y b => simp at hlength
  | cons x a ih =>
    cases b with
    | nil => simp at hlength
    | cons y b =>
      obtain hxy | ⟨rfl, hab⟩ := List.cons_lt_cons_iff.mp h
      · exact ⟨0, by simp [deciding, List.findIdx?_cons, hxy.ne], rfl, x, rfl, y, rfl, hxy⟩
      · obtain ⟨i, hi, hbeats⟩ := ih (by simpa using hlength) hab
        refine ⟨i + 1, ?_, hbeats.cons x⟩
        simpa [deciding, List.findIdx?_cons] using hi

/-- What beats another list at a position is not that list. -/
theorem BeatsAt.ne (h : BeatsAt a b i) : a ≠ b := by
  rintro rfl
  obtain ⟨x, hx, y, hy, hxy⟩ := h.lower
  obtain rfl : x = y := Option.some.inj (hx.symm.trans hy)
  exact lt_irrefl x hxy

theorem BeatsAt.lt_length (h : BeatsAt a b i) : i < a.length := by
  obtain ⟨x, hx, -⟩ := h.lower
  exact (List.getElem?_eq_some_iff.mp hx).1

end Marks

end Ranking
