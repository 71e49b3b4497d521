import Mathlib.Data.Multiset.Lattice

/-!
# Greatest lower bounds with pruning

Candidates are met one after the other with a running value. A candidate that cannot lower the
running value may be passed over, and then neither the pruning nor the order shows in the end.
-/

namespace PrunedInf

variable {ι β : Type*} [SemilatticeInf β] {skip : β → ι → Prop} [∀ b x, Decidable (skip b x)]
  {value : ι → β} {xs ys : List ι} {b : β} {x : ι}

/-- The running value after the candidates, without those that are skipped at it. -/
def sweep (skip : β → ι → Prop) [∀ b x, Decidable (skip b x)] (value : ι → β) (xs : List ι) (b : β) :
    β :=
  xs.foldl (fun b x => if skip b x then b else b ⊓ value x) b

section Total

variable [OrderTop β]

/-- The candidates' greatest lower bound. -/
def total (value : ι → β) (xs : List ι) : β := Multiset.inf (xs.map value)

@[simp] theorem total_nil : total value [] = ⊤ := rfl

@[simp] theorem total_cons : total value (x :: xs) = value x ⊓ total value xs := rfl

theorem total_le (value : ι → β) (h : x ∈ xs) : total value xs ≤ value x :=
  Multiset.inf_le (Multiset.mem_coe.mpr (List.mem_map_of_mem h))

theorem total_perm (h : xs.Perm ys) : total value xs = total value ys :=
  congrArg Multiset.inf (Multiset.coe_eq_coe.mpr (h.map value))

/-- Skipping shows nowhere where it is harmless at every value of a kind that the candidates
keep. -/
theorem sweep_eq {P : β → Prop} (xs : List ι) (hkeep : ∀ b x, P b → P (b ⊓ value x))
    (hskip : ∀ b x, P b → skip b x → b ≤ value x) (h : P b) :
    sweep skip value xs b = b ⊓ total value xs := by
  induction xs generalizing b with
  | nil => simp [sweep]
  | cons x xs ih =>
    rw [total_cons, ← inf_assoc]
    by_cases hs : skip b x
    · rw [inf_eq_left.mpr (hskip b x h hs), ← ih h]
      simp [sweep, hs]
    · rw [← ih (hkeep b x h)]
      simp [sweep, hs]

end Total

/-- What every candidate keeps, the running value has to the end. -/
theorem sweep_keeps {P : β → Prop} (hkeep : ∀ b x, P b → P (b ⊓ value x)) (h : P b) :
    P (sweep skip value xs b) := by
  induction xs generalizing b with
  | nil => exact h
  | cons x xs ih =>
    by_cases hs : skip b x
    · simpa [sweep, hs] using ih h
    · simpa [sweep, hs] using ih (hkeep b x h)

end PrunedInf
