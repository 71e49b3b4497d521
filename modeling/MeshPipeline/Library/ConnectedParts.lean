import Mathlib.Data.Finset.Card
import Mathlib.Data.Finset.Image
import Mathlib.Logic.Function.Iterate
import Mathlib.Logic.Relation

/-!
# The connected parts of a finite set

The part of a point of a finite set is what spreads from it through neighbours in the set. A set
joins some ports where one part of it meets them all; a larger set joins all that a smaller one
joins.
-/

namespace ConnectedParts

variable {α : Type*} [DecidableEq α] (adj : α → α → Prop) [DecidableRel adj]

/-- Some points, with all their neighbours in the set. -/
def spread (m s : Finset α) : Finset α := s ∪ m.filter fun v => ∃ u ∈ s, adj u v

/-- What spreads from a point of the set; nothing from other points. -/
def part (m : Finset α) (a : α) : Finset α := (spread adj m)^[m.card] (m.filter (· = a))

/-- The parts that a port meets. -/
def partsAt (m port : Finset α) : Finset (Finset α) := (port ∩ m).image (part adj m)

/-- Some part meets every port. -/
def joined (m : Finset α) : List (Finset α) → Bool
  | [] => false
  | port :: ports => (ports.foldl (fun s p => s ∩ partsAt adj m p) (partsAt adj m port)) ≠ ∅

/-- A way from point to point through the set. -/
def Linked (m : Finset α) : α → α → Prop :=
  Relation.ReflTransGen fun u v => adj u v ∧ v ∈ m

variable {adj} {m m' s : Finset α} {a b v : α} {ports : List (Finset α)}

lemma subset_spread : s ⊆ spread adj m s := Finset.subset_union_left

lemma subset_iterate (n : ℕ) : s ⊆ (spread adj m)^[n] s := by
  induction n generalizing s with
  | zero => rfl
  | succ n ih => exact subset_spread.trans ih

lemma spread_subset (h : s ⊆ m) : spread adj m s ⊆ m :=
  Finset.union_subset h (Finset.filter_subset _ _)

/-- There is nothing left to spread to after as many rounds as points are missing. -/
lemma spread_iterate {n : ℕ} (hs : s ⊆ m) (h : (m \ s).card ≤ n) :
    spread adj m ((spread adj m)^[n] s) = (spread adj m)^[n] s := by
  induction n generalizing s with
  | zero =>
    have hall : m ⊆ s := by simpa [Finset.sdiff_eq_empty_iff_subset] using h
    exact (spread_subset hs).trans hall |>.antisymm subset_spread
  | succ n ih =>
    by_cases hfix : spread adj m s = s
    · rw [Function.iterate_fixed hfix, hfix]
    · refine ih (spread_subset hs) ?_
      obtain ⟨v, hv, hnot⟩ := Finset.exists_of_ssubset
        (Finset.ssubset_iff_subset_ne.mpr ⟨subset_spread, Ne.symm hfix⟩)
      have hlt : (m \ spread adj m s).card < (m \ s).card := by
        refine Finset.card_lt_card (Finset.ssubset_iff_of_subset ?_ |>.mpr ⟨v, ?_, ?_⟩)
        · exact Finset.sdiff_subset_sdiff subset_rfl subset_spread
        · exact Finset.mem_sdiff.mpr ⟨spread_subset hs hv, hnot⟩
        · simp [hv]
      omega

/-- The part of a point is what ways through the set reach. -/
theorem mem_part : b ∈ part adj m a ↔ a ∈ m ∧ Linked adj m a b := by
  constructor
  · suffices h : ∀ n, b ∈ (spread adj m)^[n] (m.filter (· = a)) → a ∈ m ∧ Linked adj m a b from
      h m.card
    intro n
    induction n generalizing b with
    | zero =>
      intro hb
      obtain ⟨hm, rfl⟩ := Finset.mem_filter.mp hb
      exact ⟨hm, .refl⟩
    | succ n ih =>
      rw [Function.iterate_succ_apply']
      intro hb
      obtain hb | hb := Finset.mem_union.mp hb
      · exact ih hb
      · obtain ⟨hm, u, hu, hadj⟩ := Finset.mem_filter.mp hb
        obtain ⟨ha, hlink⟩ := ih hu
        exact ⟨ha, hlink.tail ⟨hadj, hm⟩⟩
  · rintro ⟨ha, hlink⟩
    have hfix : spread adj m (part adj m a) = part adj m a :=
      spread_iterate (Finset.filter_subset _ _) (Finset.card_le_card Finset.sdiff_subset)
    induction hlink with
    | refl => exact subset_iterate _ (Finset.mem_filter.mpr ⟨ha, rfl⟩)
    | tail _ hstep ih =>
      rw [← hfix]
      exact Finset.mem_union_right _ (Finset.mem_filter.mpr ⟨hstep.2, _, ih, hstep.1⟩)

lemma self_mem_part (h : a ∈ m) : a ∈ part adj m a := mem_part.mpr ⟨h, .refl⟩

lemma part_subset : part adj m a ⊆ m := by
  intro b hb
  obtain ⟨ha, hlink⟩ := mem_part.mp hb
  obtain rfl | ⟨c, -, hstep⟩ := hlink.cases_tail
  · exact ha
  · exact hstep.2

lemma Linked.mono (h : m ⊆ m') (hlink : Linked adj m a b) : Linked adj m' a b :=
  hlink.lift id fun _ _ hstep => ⟨hstep.1, h hstep.2⟩

lemma Linked.symm (hadj : ∀ a b, adj a b → adj b a) (ha : a ∈ m) (h : Linked adj m a b) :
    Linked adj m b a := by
  induction h with
  | refl => exact .refl
  | @tail b c hlink hstep ih =>
    have hb : b ∈ m := part_subset (mem_part.mpr ⟨ha, hlink⟩)
    exact .head ⟨hadj _ _ hstep.1, hb⟩ ih

/-- Linked points have one part. -/
lemma part_eq_of_linked (hadj : ∀ a b, adj a b → adj b a) (ha : a ∈ m) (h : Linked adj m a b) :
    part adj m a = part adj m b := by
  have hb : b ∈ m := part_subset (mem_part.mpr ⟨ha, h⟩)
  ext v
  rw [mem_part, mem_part]
  exact ⟨fun hv => ⟨hb, (h.symm hadj ha).trans hv.2⟩, fun hv => ⟨ha, h.trans hv.2⟩⟩

lemma mem_foldl_inter {ι : Type*} {f : ι → Finset α} {xs : List ι} :
    v ∈ xs.foldl (fun s x => s ∩ f x) s ↔ v ∈ s ∧ ∀ x ∈ xs, v ∈ f x := by
  induction xs generalizing s with
  | nil => simp
  | cons x xs ih => simp [ih, and_assoc]

/-- A set joins the ports where some part of it meets them all. -/
theorem joined_iff (hne : ports ≠ []) :
    joined adj m ports = true ↔ ∃ c, ∀ p ∈ ports, ∃ v ∈ p, v ∈ m ∧ part adj m v = c := by
  cases ports with
  | nil => exact absurd rfl hne
  | cons port ports =>
    have hat : ∀ {c p}, c ∈ partsAt adj m p ↔ ∃ v ∈ p, v ∈ m ∧ part adj m v = c := by
      simp [partsAt, and_assoc]
    rw [joined, decide_eq_true_iff, Finset.nonempty_iff_ne_empty.symm]
    refine exists_congr fun c => ?_
    rw [mem_foldl_inter, List.forall_mem_cons, hat]
    simp only [hat]

/-- What a set joins, a larger set joins. -/
theorem joined_mono (hadj : ∀ a b, adj a b → adj b a) (hsub : m ⊆ m')
    (h : joined adj m ports = true) : joined adj m' ports = true := by
  cases ports with
  | nil => cases h
  | cons port ports =>
    have hne : port :: ports ≠ [] := List.cons_ne_nil _ _
    obtain ⟨c, hc⟩ := (joined_iff hne).mp h
    obtain ⟨a, -, ha, rfl⟩ := hc port List.mem_cons_self
    refine (joined_iff hne).mpr ⟨part adj m' a, fun p hp => ?_⟩
    obtain ⟨v, hvp, hv, heq⟩ := hc p hp
    have hlink : Linked adj m a v := (mem_part.mp (heq ▸ self_mem_part hv)).2
    exact ⟨v, hvp, hsub hv, (part_eq_of_linked hadj (hsub ha) (hlink.mono hsub)).symm⟩

end ConnectedParts
