import Mathlib.Data.List.Perm.Subperm
import Mathlib.Data.List.Nodup

/-!
# Labels told apart by numbers

A label that is taken is replaced by the numbered ones in turn until one is free, and a pass over
the positions of a list keeps what each of its steps keeps.
-/

namespace Numbering

variable {α β σ : Type*} [DecidableEq β]

/-- The first free label of `x` and the numbered ones from `n` on; the fuel bounds the search. -/
def firstFree (taken : List β) (key : α → β) (numbered : Nat → α) : Nat → Nat → α → α
  | 0, _, x => x
  | fuel + 1, n, x =>
    if key x ∈ taken then firstFree taken key numbered fuel (n + 1) (numbered n) else x

variable {taken : List β} {key : α → β} {numbered : Nat → α}

theorem firstFree_of_free {x : α} (h : key x ∉ taken) (fuel n : Nat) :
    firstFree taken key numbered fuel n x = x := by
  cases fuel with
  | zero => rfl
  | succ fuel => exact if_neg h

/-- The search ends on the label itself or on a numbered one. -/
theorem firstFree_cases (fuel n : Nat) (x : α) :
    firstFree taken key numbered fuel n x = x ∨
      key x ∈ taken ∧ ∃ k, n ≤ k ∧ k < n + fuel ∧
        firstFree taken key numbered fuel n x = numbered k := by
  induction fuel generalizing n x with
  | zero => exact .inl rfl
  | succ fuel ih =>
    by_cases htaken : key x ∈ taken
    · rw [firstFree, if_pos htaken]
      right
      refine ⟨htaken, ?_⟩
      obtain heq | ⟨-, k, hlo, hhi, heq⟩ := ih (n + 1) (numbered n)
      · exact ⟨n, Nat.le_refl n, by omega, heq⟩
      · exact ⟨k, by omega, by omega, heq⟩
    · exact .inl (firstFree_of_free htaken _ _)

/-- A search that ends on a taken label found the numbered ones before it taken. -/
theorem taken_of_firstFree {fuel n : Nat} {x : α}
    (h : key (firstFree taken key numbered (fuel + 1) n x) ∈ taken) :
    ∀ k, n ≤ k → k < n + fuel → key (numbered k) ∈ taken := by
  induction fuel generalizing n x with
  | zero =>
    intro k hlo hhi
    omega
  | succ fuel ih =>
    intro k hlo hhi
    have htaken : key x ∈ taken := by
      by_contra hfree
      rw [firstFree_of_free hfree] at h
      exact hfree h
    rw [firstFree, if_pos htaken] at h
    obtain rfl | hlt := Nat.eq_or_lt_of_le hlo
    · by_contra hfree
      rw [firstFree_of_free hfree] at h
      exact hfree h
    · exact ih h k hlt (by omega)

/-- With more turns than there are labels, the search ends on a free one. -/
theorem firstFree_free {n : Nat} {x : α}
    (hinj : ∀ i j, key (numbered i) = key (numbered j) → i = j) :
    key (firstFree taken key numbered (taken.length + 2) n x) ∉ taken := by
  intro htaken
  have hall := taken_of_firstFree htaken
  have hnodup : ((List.range' n (taken.length + 1)).map fun k => key (numbered k)).Nodup :=
    List.Nodup.map (fun i j h => hinj i j h) List.nodup_range'
  have hsubset : ((List.range' n (taken.length + 1)).map fun k => key (numbered k)) ⊆ taken := by
    intro y hy
    obtain ⟨k, hk, rfl⟩ := List.mem_map.mp hy
    obtain ⟨hlo, hhi⟩ := List.mem_range'_1.mp hk
    exact hall k hlo hhi
  have hlength := (List.subperm_of_subset hnodup hsubset).length_le
  simp only [List.length_map, List.length_range'] at hlength
  omega

/-- The rule of a pass: what every step keeps, the pass keeps. -/
theorem foldl_range {P : Nat → σ → Prop} {f : σ → Nat → σ} {s : σ} (n : Nat) (hstart : P 0 s)
    (hstep : ∀ i s, i < n → P i s → P (i + 1) (f s i)) : P n ((List.range n).foldl f s) := by
  induction n with
  | zero => exact hstart
  | succ n ih =>
    rw [List.range_succ, List.foldl_append]
    exact hstep n _ (Nat.lt_succ_self n) (ih fun i s hi => hstep i s (Nat.lt_succ_of_lt hi))

end Numbering
