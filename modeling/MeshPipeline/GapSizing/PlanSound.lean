import MeshPipeline.GapSizing.GapPlan
import Mathlib.Tactic.NormNum

/-!
# The gap plan inside the limit

What a plan promises, status by status. The bisection ends on a count that fits, with one that does not
fit an interval halved twelve times above it. One promise can be broken: where the limit leaves no room
at all the smallest count is not tried, though it fits when it costs nothing.
-/

namespace MeshPipeline.GapSizing

open Pass

variable {a : Pass} {p : GapPlan}

lemma budgetHeadroom_pos : 0 < budgetHeadroom := by norm_num [budgetHeadroom]

/-- What the room holds is what fits under the limit with the headroom. -/
lemma le_room_iff {c : ℚ} : c ≤ a.room ↔ (a.base + c) * budgetHeadroom ≤ a.limit := by
  unfold room
  rw [le_sub_iff_add_le', le_div_iff₀ budgetHeadroom_pos]

lemma need_le_iff {c : ℚ} : ⌈(a.base + c) * budgetHeadroom⌉ ≤ (a.limit : ℤ) ↔ c ≤ a.room := by
  rw [Int.ceil_le, le_room_iff, Int.cast_natCast]

/-- What a plan of a pass promises. -/
structure Sound (a : Pass) (p : GapPlan) : Prop where
  noNarrow : p.status = .noNarrow ↔ a.regionsAt a.target = []
  within : p.status ∈ [.fits, .raised, .limited, .acceptedFewer] →
    (p.baseCells + p.cost) * budgetHeadroom ≤ a.limit ∧ p.cost = a.costOf p.regions ∧
      p.regions = a.regionsAt p.target
  fits : p.status = .fits → p.baseCells - p.baseAfter + p.refined ≤ a.budget
  fewer : p.status = .acceptedFewer → a.acceptFewer
  budget_le : a.budget ≤ p.ceiling
  ceiling : a.budget < p.ceiling → (p.ceiling + p.afterCells) * budgetHeadroom ≤ a.limit
  most : MonotoneOn (fun t => a.costOf (a.regionsAt t)) (Set.Ici minAcceptedCells) →
    ∀ t ∈ p.affordable, ∀ t' > t + (a.target - minAcceptedCells) / 2 ^ 12,
      a.limit < (p.baseCells + a.costOf (a.regionsAt t')) * budgetHeadroom
  overLimit : p.status = .overLimit →
    a.limit < (p.baseCells + a.costOf (a.regionsAt minAcceptedCells)) * budgetHeadroom

/-! ## The ceiling -/

lemma budgetIn_le_ceiling : p.budgetIn ≤ p.ceiling := by
  unfold GapPlan.ceiling
  split
  · exact le_rfl
  · exact Nat.le_floor (le_max_left _ _)

/-- A ceiling above the plan's budget leaves room for the layers under the limit. -/
lemma ceiling_within (h : p.budgetIn < p.ceiling) :
    (p.ceiling + p.afterCells) * budgetHeadroom ≤ p.limit := by
  unfold GapPlan.ceiling at h ⊢
  split at h
  · exact absurd h (lt_irrefl _)
  next hrefines =>
    rw [if_neg hrefines]
    dsimp only at h ⊢
    set room : ℚ := p.limit / budgetHeadroom - p.afterCells with hroom
    set top : ℚ := min (p.budgetIn + max 0 p.refined * ceilingSlack) room with htop
    have hbudget : (0 : ℚ) ≤ p.budgetIn := Nat.cast_nonneg _
    have habove : (p.budgetIn : ℚ) < max (p.budgetIn : ℚ) top := by
      have hfloor : (⌊max (p.budgetIn : ℚ) top⌋₊ : ℚ) ≤ max (p.budgetIn : ℚ) top :=
        Nat.floor_le (hbudget.trans (le_max_left _ _))
      have hcast : (p.budgetIn : ℚ) < ⌊max (p.budgetIn : ℚ) top⌋₊ := by exact_mod_cast h
      exact hcast.trans_le hfloor
    have hmax : max (p.budgetIn : ℚ) top = top := max_eq_right_of_lt (by
      rcases lt_max_iff.mp habove with hlt | hlt
      · exact absurd hlt (lt_irrefl _)
      · exact hlt)
    rw [hmax]
    have hle : (⌊top⌋₊ : ℚ) ≤ room := by
      have hpos : 0 ≤ top := by
        rw [← hmax]
        exact hbudget.trans (le_max_left _ _)
      exact (Nat.floor_le hpos).trans (min_le_right _ _)
    have hsum : (⌊top⌋₊ : ℚ) + p.afterCells ≤ p.limit / budgetHeadroom := by linarith
    exact (le_div_iff₀ budgetHeadroom_pos).mp hsum

/-! ## The bisection -/

/-- The boxes of a count with their cost. -/
def Pass.eval (a : Pass) (t : ℚ) : List Box × ℚ := (a.regionsAt t, a.costOf (a.regionsAt t))

lemma most_eq : a.most = if 0 < a.room ∧ a.costOf (a.regionsAt minAcceptedCells) ≤ a.room then
    some (Bisect.halve a.eval (fun found => decide (found.2 ≤ a.room)) 12
      (minAcceptedCells, a.eval minAcceptedCells) a.target) else none := by
  unfold Pass.most
  by_cases hroom : 0 < a.room
  · by_cases hlow : a.costOf (a.regionsAt minAcceptedCells) ≤ a.room <;> simp [hroom, hlow] <;> rfl
  · simp [hroom]

/-- Nothing is found exactly when there is no room or the smallest count does not fit it. -/
lemma most_eq_none_iff : a.most = none ↔
    a.room ≤ 0 ∨ a.room < a.costOf (a.regionsAt minAcceptedCells) := by
  rw [most_eq]
  split
  · next h => simp [h.1, h.2]
  · next h =>
    simp only [true_iff]
    by_contra hnot
    push Not at hnot
    exact h hnot

/-- The count that is found fits, with the boxes and the cost of that very count. -/
lemma most_fits {t cost : ℚ} {boxes : List Box} (h : a.most = some (t, boxes, cost)) :
    boxes = a.regionsAt t ∧ cost = a.costOf boxes ∧ cost ≤ a.room := by
  rw [most_eq] at h
  split at h
  · next hlow =>
    have hkeeps := Bisect.halve_keeps a.eval (fun found => decide (found.2 ≤ a.room)) 12
      (minAcceptedCells, a.eval minAcceptedCells) a.target
      (P := fun found => found.2 = a.eval found.1 ∧ found.2.2 ≤ a.room)
      (fun x hx => ⟨rfl, of_decide_eq_true hx⟩) ⟨rfl, hlow.2⟩
    rw [Option.some.inj h] at hkeeps
    obtain ⟨hfound, hfit⟩ := hkeeps
    obtain ⟨hboxes, hcost⟩ := Prod.mk.inj (show (boxes, cost) = a.eval t from hfound)
    exact ⟨hboxes, hboxes ▸ hcost, hfit⟩
  · cases h

/-- No count further above the one that is found would have fitted. -/
lemma most_is_most {t cost : ℚ} {boxes : List Box} (h : a.most = some (t, boxes, cost))
    (htarget : minAcceptedCells ≤ a.target) (hover : a.room < a.costOf (a.regionsAt a.target))
    (hmono : MonotoneOn (fun t => a.costOf (a.regionsAt t)) (Set.Ici minAcceptedCells)) {t' : ℚ}
    (ht' : t + (a.target - minAcceptedCells) / 2 ^ 12 < t') : a.room < a.costOf (a.regionsAt t') := by
  rw [most_eq] at h
  split at h
  · obtain ⟨hge, hfail⟩ := Bisect.halve_upper a.eval (fun found => decide (found.2 ≤ a.room)) 12
      (minAcceptedCells, a.eval minAcceptedCells) a.target htarget (fun h => hover.not_ge (of_decide_eq_true h))
    rw [Option.some.inj h] at hge hfail
    have hupper : a.room < a.costOf (a.regionsAt (t + (a.target - minAcceptedCells) / 2 ^ 12)) :=
      lt_of_not_ge fun h => hfail (decide_eq_true h)
    have hgap : 0 ≤ (a.target - minAcceptedCells) / 2 ^ 12 :=
      div_nonneg (sub_nonneg.mpr htarget) (by norm_num)
    have hge : minAcceptedCells ≤ t := hge
    have hmem : minAcceptedCells ≤ t + (a.target - minAcceptedCells) / 2 ^ 12 := by linarith
    exact hupper.trans_le (hmono hmem (hmem.trans ht'.le) ht'.le)
  · cases h

/-! ## The plan of each status -/

variable {full boxes : List Box} {status : Status} {t cost : ℚ} {budget : ℕ} {x y : Option ℚ}

/-- A plan by its fields; its budget is no field that the promises read. -/
lemma plan_eq (a : Pass) (full : List Box) (status : Status) (boxes : List Box) (t cost : ℚ)
    (budget : ℕ) (x y : Option ℚ) :
    ∃ n, a.plan full status boxes t cost budget x y =
      { status := status
        regions := boxes
        target := t
        cost := cost
        baseCells := a.base
        budgetIn := a.budget
        budget := n
        limit := a.limit
        fullCost := a.costOf full
        affordable := x
        affordableCost := y
        narrowestM := (full.argmin Box.radiusM).map fun b => 2 * b.radiusM
        spots := full.length
        whereM := (full.argmin Box.radiusM).map Box.middle
        rule := a.target
        baseAfter := a.after
        afterCells := a.after + layers boxes } := by
  unfold Pass.plan
  dsimp only
  split
  · exact ⟨_, rfl⟩
  · exact ⟨_, rfl⟩

/-- The promises about the ceiling hold of every plan. -/
lemma plan_ceiling (a : Pass) (full : List Box) (status : Status) (boxes : List Box) (t cost : ℚ)
    (budget : ℕ) (x y : Option ℚ) :
    a.budget ≤ (a.plan full status boxes t cost budget x y).ceiling ∧
    (a.budget < (a.plan full status boxes t cost budget x y).ceiling →
      ((a.plan full status boxes t cost budget x y).ceiling +
        (a.plan full status boxes t cost budget x y).afterCells) * budgetHeadroom ≤ a.limit) := by
  obtain ⟨n, hn⟩ := plan_eq a full status boxes t cost budget x y
  have hbudget : (a.plan full status boxes t cost budget x y).budgetIn = a.budget := by rw [hn]
  have hlimit : (a.plan full status boxes t cost budget x y).limit = a.limit := by rw [hn]
  rw [← hbudget, ← hlimit]
  exact ⟨budgetIn_le_ceiling, ceiling_within⟩

/-- A plan that holds the whole rule. -/
lemma sound_full (hfull : a.regionsAt a.target ≠ [])
    (hroom : a.costOf (a.regionsAt a.target) ≤ a.room) {n : ℕ}
    (hstatus : status = .raised ∨ status = .fits ∧
      a.refined + a.costOf (a.regionsAt a.target) - layers (a.regionsAt a.target) ≤ a.budget) :
    Sound a (a.plan (a.regionsAt a.target) status (a.regionsAt a.target) a.target
      (a.costOf (a.regionsAt a.target)) n none none) := by
  have hceiling := plan_ceiling a (a.regionsAt a.target) status (a.regionsAt a.target) a.target
    (a.costOf (a.regionsAt a.target)) n none none
  obtain ⟨m, hm⟩ := plan_eq a (a.regionsAt a.target) status (a.regionsAt a.target) a.target
    (a.costOf (a.regionsAt a.target)) n none none
  rw [hm] at hceiling ⊢
  have hwithin := le_room_iff.mp hroom
  refine ⟨?_, fun _ => ⟨hwithin, rfl, rfl⟩, ?_, ?_, hceiling.1, hceiling.2, ?_, ?_⟩
  · obtain rfl | ⟨rfl, -⟩ := hstatus <;> simp [hfull]
  · intro hfits
    obtain rfl | ⟨-, hbudget⟩ := hstatus
    · cases hfits
    · dsimp only [GapPlan.refined, Pass.base]
      linarith
  · obtain rfl | ⟨rfl, -⟩ := hstatus <;> simp
  · intro _ t ht
    cases ht
  · obtain rfl | ⟨rfl, -⟩ := hstatus <;> simp

/-- A plan on the count that the bisection finds. -/
lemma sound_most (htarget : minAcceptedCells ≤ a.target) (hfull : a.regionsAt a.target ≠ [])
    (hroom : a.room < a.costOf (a.regionsAt a.target)) (hmost : a.most = some (t, boxes, cost)) {n : ℕ} :
    Sound a (a.plan (a.regionsAt a.target) (if a.acceptFewer then .acceptedFewer else .limited) boxes t
      cost n (some t) (some cost)) := by
  obtain ⟨hboxes, hcost, hfit⟩ := most_fits hmost
  set status : Status := if a.acceptFewer then .acceptedFewer else .limited with hstatus
  have hcases : status = .acceptedFewer ∧ a.acceptFewer ∨ status = .limited := by
    rw [hstatus]
    cases a.acceptFewer <;> simp
  have hceiling := plan_ceiling a (a.regionsAt a.target) status boxes t cost n (some t) (some cost)
  obtain ⟨m, hm⟩ := plan_eq a (a.regionsAt a.target) status boxes t cost n (some t) (some cost)
  rw [hm] at hceiling ⊢
  refine ⟨?_, fun _ => ⟨le_room_iff.mp hfit, hcost, hboxes⟩, ?_, ?_, hceiling.1, hceiling.2, ?_, ?_⟩
  · obtain ⟨h, -⟩ | h := hcases <;> simp [h, hfull]
  · obtain ⟨h, -⟩ | h := hcases <;> simp [h]
  · obtain ⟨-, h⟩ | h := hcases
    · exact fun _ => h
    · simp [h]
  · intro hmono t₀ ht₀ t' ht'
    obtain rfl := Option.some.inj ht₀
    have habove := most_is_most hmost htarget hroom hmono ht'
    exact lt_of_not_ge fun h => habove.not_ge (le_room_iff.mpr h)
  · obtain ⟨h, -⟩ | h := hcases <;> simp [h]

/-- A plan over the limit keeps its promises when the smallest count does not fit. -/
lemma sound_over_iff (hfull : a.regionsAt a.target ≠ []) {n : ℕ} :
    Sound a (a.plan (a.regionsAt a.target) .overLimit [] a.target 0 n none none) ↔
      a.room < a.costOf (a.regionsAt minAcceptedCells) := by
  have hceiling := plan_ceiling a (a.regionsAt a.target) .overLimit [] a.target 0 n none none
  obtain ⟨m, hm⟩ := plan_eq a (a.regionsAt a.target) .overLimit [] a.target 0 n none none
  rw [hm] at hceiling ⊢
  constructor
  · intro h
    exact lt_of_not_ge fun hfit => (h.overLimit rfl).not_ge (le_room_iff.mp hfit)
  · intro h
    refine ⟨by simp [hfull], by simp, by simp, by simp, hceiling.1, hceiling.2, ?_, fun _ => ?_⟩
    · intro _ t ht
      cases ht
    · exact lt_of_not_ge fun hfit => h.not_ge (le_room_iff.mpr hfit)

/-- The plan of a pass keeps its promises exactly when it finds no narrow spot, or the whole rule fits,
or there is room under the limit, or the smallest count does not fit it. -/
theorem plan_gaps_sound_iff (htarget : minAcceptedCells ≤ a.target) : Sound a a.planGaps ↔
    (a.regionsAt a.target = [] ∨ a.costOf (a.regionsAt a.target) ≤ a.room ∨ 0 < a.room ∨
      a.room < a.costOf (a.regionsAt minAcceptedCells)) := by
  by_cases hfull : a.regionsAt a.target = []
  · have hplan : Sound a a.planGaps := by
      unfold planGaps
      rw [if_pos hfull]
      exact ⟨by simp [hfull], by simp, by simp, by simp, le_rfl, by simp [GapPlan.ceiling], by simp,
        by simp⟩
    simp [hfull, hplan]
  by_cases hroom : a.costOf (a.regionsAt a.target) ≤ a.room
  · have hplan : Sound a a.planGaps := by
      unfold planGaps
      simp only [hfull, if_false, need_le_iff, hroom, and_true, if_true]
      split
      · next hbudget => exact sound_full hfull hroom (.inr ⟨rfl, hbudget⟩)
      · exact sound_full hfull hroom (.inl rfl)
    simp [hroom, hplan]
  cases hmost : a.most with
  | some found =>
    obtain ⟨t, boxes, cost⟩ := found
    have hplan : a.planGaps = a.plan (a.regionsAt a.target)
        (if a.acceptFewer then .acceptedFewer else .limited) boxes t cost a.limit (some t)
        (some cost) := by
      simp only [planGaps, hfull, if_false, need_le_iff, hroom, and_false, hmost]
    have hsound := sound_most htarget hfull (not_le.mp hroom) hmost (n := a.limit)
    have hroom' : 0 < a.room ∨ a.room < a.costOf (a.regionsAt minAcceptedCells) := by
      by_contra hnot
      push Not at hnot
      rw [most_eq_none_iff.mpr (.inl hnot.1)] at hmost
      cases hmost
    simp [hplan, hfull, hroom, hsound, hroom']
  | none =>
    have hplan : a.planGaps =
        a.plan (a.regionsAt a.target) .overLimit [] a.target 0 a.budget none none := by
      simp only [planGaps, hfull, if_false, need_le_iff, hroom, and_false, hmost]
    rw [hplan, sound_over_iff hfull]
    have hnone := most_eq_none_iff.mp hmost
    simp only [hfull, hroom, false_or]
    constructor
    · exact .inr
    · rintro (h | h)
      · exact hnone.resolve_left (not_le.mpr h)
      · exact h

/-- One narrow spot at the rule's count, and none at fewer, under a limit that the mesh without its box
fills to the last cell. -/
def filled : Pass where
  regionsAt t := if t < 13 then []
    else [⟨fun _ => 0, fun _ => 1, 1 / 2, some 1, none, none, none, some 1, none⟩]
  cellM := 1
  budget := 5750000
  limit := 5750000
  baseCells := some 5000000
  target := 13
  acceptFewer := true
  wholeBox := false
  baseAfter := 0

/-- The smallest count costs nothing and is not tried: the plan is over the limit though it fits. -/
theorem plan_gaps_unsound : ¬ ∀ a : Pass, minAcceptedCells ≤ a.target → Sound a a.planGaps := by
  intro h
  have hsound := h filled (by norm_num [filled, minAcceptedCells])
  have hstatus : filled.planGaps.status = .overLimit := by decide +kernel
  have hover := hsound.overLimit hstatus
  revert hover
  decide +kernel

theorem plan_gaps_sound_iff_filled : Sound filled filled.planGaps ↔
    (filled.regionsAt 13 = [] ∨ filled.costOf (filled.regionsAt 13) ≤ filled.room ∨
      0 < filled.room ∨ filled.room < filled.costOf (filled.regionsAt minAcceptedCells)) :=
  plan_gaps_sound_iff (by norm_num [filled, minAcceptedCells])

end MeshPipeline.GapSizing
