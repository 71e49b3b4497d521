import Mathlib.Data.Fin.VecNotation
import Mathlib.Data.Set.Card
import Mathlib.Order.Lattice
import MeshPipeline.Library.Kahn
import MeshPipeline.Library.Text

/-!
# The placed parts of an ECXML model

Boxes, the material of a part, and the file's rule for which of two overlapping parts keeps the
overlap. Coordinates are of any type with the operations that the rule uses.
-/

namespace MeshPipeline.Ecxml

/-- `_Box`. -/
structure Box (K : Type*) where
  lo : Fin 3 → K
  hi : Fin 3 → K

section

variable {K : Type*} [LE K] [LT K] [Add K] [Sub K] [Min K] [Max K]

/-- `overlaps`: the interiors overlap by more than the tolerance on every axis. -/
def Box.Overlaps (a b : Box K) (tol : K) : Prop :=
  ∀ i, tol < min (a.hi i) (b.hi i) - max (a.lo i) (b.lo i)

/-- `inside`. -/
def Box.Inside (a b : Box K) (tol : K) : Prop :=
  ∀ i, b.lo i - tol ≤ a.lo i ∧ a.hi i ≤ b.hi i + tol

instance [DecidableLT K] (a b : Box K) (tol : K) : Decidable (a.Overlaps b tol) :=
  inferInstanceAs (Decidable (∀ _, _))

instance [DecidableLE K] (a b : Box K) (tol : K) : Decidable (a.Inside b tol) :=
  inferInstanceAs (Decidable (∀ _, _))

/-- `_Part`, as the overlap rule reads it. -/
structure Part (K : Type*) where
  kind : String
  box : Box K
  order : Int
  walls : List (Box K)
  blocks : List (Box K)
  dropped : Bool

/-- `_material`: the wall slabs of an enclosure, the blocks of a heat sink, or the box. -/
def Part.material (p : Part K) : List (Box K) :=
  if p.kind = "enclosure" ∧ p.walls ≠ [] then p.walls
  else if p.blocks ≠ [] then p.blocks
  else [p.box]

/-- The material of two parts overlaps. -/
def Part.Overlaps (p q : Part K) (noise : K) : Prop :=
  ∃ a ∈ p.material, ∃ b ∈ q.material, a.Overlaps b noise

instance [DecidableLT K] (p q : Part K) (noise : K) : Decidable (p.Overlaps q noise) :=
  inferInstanceAs (Decidable (∃ a ∈ _, ∃ b ∈ _, _))

/-- `_wins`: for Icepak a part inside another wins over it, else the later object wins. -/
def Part.Wins (producer : String) (noise : K) (a b : Part K) : Prop :=
  Text.key producer = "icepak" ∧ a.box.Inside b.box noise ∧ ¬ b.box.Inside a.box noise ∨
    ¬ (Text.key producer = "icepak" ∧ b.box.Inside a.box noise ∧ ¬ a.box.Inside b.box noise) ∧
      b.order < a.order

instance [DecidableLE K] (producer : String) (noise : K) (a b : Part K) :
    Decidable (a.Wins producer noise b) :=
  inferInstanceAs (Decidable (_ ∨ _))

end

end MeshPipeline.Ecxml

/-!
## The paint order of overlapping parts

The pairwise rule as a total order: a part is painted after every part it wins over. Circles of the
rule have no such order. They, and whatever they lead to, come last in file order.
-/

namespace MeshPipeline.Ecxml

open Kahn Relation

section

variable {K : Type*} [LE K] [LT K] [Add K] [Sub K] [Min K] [Max K] [DecidableLE K] [DecidableLT K]
  (parts : List (Part K)) (producer : String) (noise : K)

/-- The parts that are built. -/
def live : List (Fin parts.length) := (List.finRange parts.length).filter fun k => !(parts.get k).dropped

/-- `a` loses its overlap with `b`: of the two the earlier in the list is asked whether it wins. -/
def Loses (a b : Fin parts.length) : Prop :=
  a < b ∧ (parts.get a).Overlaps (parts.get b) noise ∧
      ¬ (parts.get a).Wins producer noise (parts.get b) ∨
    b < a ∧ (parts.get b).Overlaps (parts.get a) noise ∧
      (parts.get b).Wins producer noise (parts.get a)

instance : DecidableRel (Loses parts producer noise) := fun _ _ =>
  inferInstanceAs (Decidable (_ ∨ _))

/-- The order of the queue and of what is left over: by the place in the file. -/
def FileLE (a b : Fin parts.length) : Prop :=
  (parts.get a).order < (parts.get b).order ∨ (parts.get a).order = (parts.get b).order ∧ a ≤ b

instance : DecidableRel (FileLE parts) := fun _ _ => inferInstanceAs (Decidable (_ ∨ _))

/-- `_paint_order`: the order, and the number of parts that were left over. -/
def paintOrder : List (Fin parts.length) × Nat :=
  (whole (FileLE parts) (Loses parts producer noise) (live parts),
    (leftOver (FileLE parts) (Loses parts producer noise) (live parts)).length)

/-- The owner of a cell: the last part of the order that covers it. -/
def paintCell {n : Nat} (paint : List (Fin n)) (covers : Fin n → Bool) : Option (Fin n) :=
  paint.foldl (fun owner k => if covers k then some k else owner) none

/-- One step of the pairwise rule between parts that are built. -/
def Beaten : Fin parts.length → Fin parts.length → Prop :=
  Edge (Loses parts producer noise) (live parts)

/-- A part lies on a cycle of the pairwise rule. -/
def OnCycle (k : Fin parts.length) : Prop := TransGen (Beaten parts producer noise) k k

/-- A part lies on a cycle through the part that it loses to. -/
def OnCycleWith (l w : Fin parts.length) : Prop := ReflTransGen (Beaten parts producer noise) w l

/-- Parts that cover one cell, of which each two overlap and are on no common cycle. -/
structure Settled (covers : Fin parts.length → Bool) : Prop where
  built : ∀ k, covers k → k ∈ live parts
  overlap : ∀ k j, covers k → covers j → k ≠ j →
    Loses parts producer noise k j ∧ ¬ OnCycleWith parts producer noise k j ∨
      Loses parts producer noise j k ∧ ¬ OnCycleWith parts producer noise j k

/-- Painting does what cutting each part by its winners does. -/
structure PaintsAsCut : Prop where
  pairs : ∀ l w, Beaten parts producer noise l w → ¬ OnCycleWith parts producer noise l w →
    (paintOrder parts producer noise).1.idxOf l < (paintOrder parts producer noise).1.idxOf w
  cells : ∀ covers, Settled parts producer noise covers → (∃ k, covers k) →
    ∃ owner, paintCell (paintOrder parts producer noise).1 covers = some owner ∧
      ∀ k, covers k ∧ (∀ w, covers w → ¬ Loses parts producer noise k w) ↔ k = owner
  cycles : (paintOrder parts producer noise).2 = {k | OnCycle parts producer noise k}.ncard

/-- The cycles of the pairwise rule lead to nothing but cycles, and between two cycles to parts later in
the file. -/
structure CyclesApart : Prop where
  closed : ∀ l w, Beaten parts producer noise l w → OnCycle parts producer noise l →
    OnCycle parts producer noise w
  filed : ∀ l w, Beaten parts producer noise l w → OnCycle parts producer noise l →
    ¬ OnCycleWith parts producer noise l w → FileLE parts l w

end

variable {K : Type*} [LE K] [LT K] [Add K] [Sub K] [Min K] [Max K] [DecidableLE K] [DecidableLT K]
  {parts : List (Part K)} {producer : String} {noise : K}

instance : Std.Total (FileLE parts) := ⟨fun a b => by unfold FileLE; omega⟩

instance : Std.Antisymm (FileLE parts) := ⟨fun a b => by unfold FileLE; omega⟩

instance : IsTrans (Fin parts.length) (FileLE parts) := ⟨fun a b c => by unfold FileLE; omega⟩

omit [LE K] [LT K] [Add K] [Sub K] [Min K] [Max K] [DecidableLE K] [DecidableLT K] in
lemma nodup_live (parts : List (Part K)) : (live parts).Nodup :=
  (List.nodup_finRange parts.length).filter _

omit [DecidableLE K] [DecidableLT K] in
lemma loses_asymm {a b : Fin parts.length} (h : Loses parts producer noise a b) :
    ¬ Loses parts producer noise b a := by
  intro h'
  obtain h | h := h
  · obtain h' | h' := h'
    · exact lt_asymm h.1 h'.1
    · exact h.2.2 h'.2.2
  · obtain h' | h' := h'
    · exact h'.2.2 h.2.2
    · exact lt_asymm h.1 h'.1

omit [DecidableLE K] [DecidableLT K] in
lemma ne_of_loses {a b : Fin parts.length} (h : Loses parts producer noise a b) : a ≠ b := by
  obtain h | h := h
  · exact ne_of_lt h.1
  · exact ne_of_gt h.1

/-! ## Painting a cell -/

lemma paintCell_append {n : Nat} (xs ys : List (Fin n)) (covers : Fin n → Bool) :
    paintCell (xs ++ ys) covers = (paintCell ys covers).or (paintCell xs covers) := by
  unfold paintCell
  rw [List.foldl_append]
  generalize xs.foldl (fun owner k => if covers k then some k else owner) none = owner
  induction ys generalizing owner with
  | nil => simp
  | cons y ys ih =>
    rw [List.foldl_cons, List.foldl_cons, ih, ih (if covers y then some y else none)]
    by_cases hy : covers y
    · simp [hy]
    · simp [hy]

lemma paintCell_eq_none {n : Nat} {paint : List (Fin n)} {covers : Fin n → Bool}
    (h : ∀ k ∈ paint, covers k = false) : paintCell paint covers = none := by
  induction paint with
  | nil => rfl
  | cons k paint ih =>
    have hk : covers k = false := h k (by simp)
    rw [← List.singleton_append, paintCell_append, ih fun j hj => h j (by simp [hj])]
    simp [paintCell, hk]

/-- The part that comes after all others that cover the cell owns it. -/
lemma paintCell_eq_some {n : Nat} {paint : List (Fin n)} {covers : Fin n → Bool} {owner : Fin n}
    (hpaint : paint.Nodup) (hmem : owner ∈ paint) (hcovers : covers owner)
    (hlast : ∀ k, covers k → k ≠ owner → paint.idxOf k < paint.idxOf owner) :
    paintCell paint covers = some owner := by
  obtain ⟨xs, ys, rfl⟩ := List.append_of_mem hmem
  have hbehind : ∀ k ∈ ys, covers k = false := by
    intro k hk
    by_contra hcov
    have hne : k ≠ owner := by grind
    have hlt := hlast k (by simpa using hcov) hne
    have hxs : k ∉ xs := by grind
    have hown : owner ∉ xs := by grind
    rw [List.idxOf_append_of_notMem hxs, List.idxOf_append_of_notMem hown] at hlt
    simp at hlt
  rw [paintCell_append, ← List.singleton_append, paintCell_append, paintCell_eq_none hbehind]
  simp [paintCell, hcovers]

/-! ## Cycles and what is left over -/

omit [DecidableLE K] [DecidableLT K] in
lemma live_of_onCycle {k : Fin parts.length} (h : OnCycle parts producer noise k) :
    k ∈ live parts := by
  obtain ⟨_, hedge, -⟩ := TransGen.head'_iff.mp h
  exact hedge.1

lemma leftOver_of_onCycle {k : Fin parts.length} (h : OnCycle parts producer noise k) :
    k ∈ leftOver (FileLE parts) (Loses parts producer noise) (live parts) :=
  (mem_leftOver_iff (nodup_live parts) (live_of_onCycle h)).mpr ⟨k, h, .refl⟩

/-- Where cycles lead to cycles only, nothing else is left over. -/
lemma onCycle_of_leftOver {k : Fin parts.length}
    (hclosed : ∀ l w, Beaten parts producer noise l w → OnCycle parts producer noise l →
      OnCycle parts producer noise w)
    (h : k ∈ leftOver (FileLE parts) (Loses parts producer noise) (live parts)) :
    OnCycle parts producer noise k := by
  obtain ⟨c, hcycle, hpath⟩ :=
    (mem_leftOver_iff (nodup_live parts) (List.mem_of_mem_filter h)).mp h
  clear h
  induction hpath with
  | refl => exact hcycle
  | tail _ hedge ih => exact hclosed _ _ hedge ih

lemma nodup_leftOver (parts : List (Part K)) (producer : String) (noise : K) :
    (leftOver (FileLE parts) (Loses parts producer noise) (live parts)).Nodup :=
  (nodup_live parts).filter _

variable (parts producer noise) in
lemma cyclic_subset_leftOver : {k | OnCycle parts producer noise k} ⊆
    {k | k ∈ leftOver (FileLE parts) (Loses parts producer noise) (live parts)} :=
  fun _ h => leftOver_of_onCycle h

lemma ncard_leftOver :
    {k | k ∈ leftOver (FileLE parts) (Loses parts producer noise) (live parts)}.ncard =
      (paintOrder parts producer noise).2 := by
  rw [← List.coe_toFinset, Set.ncard_coe_finset,
    List.toFinset_card_of_nodup (nodup_leftOver parts producer noise)]
  rfl

/-! ## The whole order -/

lemma nodup_paint (parts : List (Part K)) (producer : String) (noise : K) :
    (paintOrder parts producer noise).1.Nodup := by
  have hperm := List.perm_insertionSort (FileLE parts)
    (leftOver (FileLE parts) (Loses parts producer noise) (live parts))
  refine List.nodup_append.mpr ⟨nodup_ordered (nodup_live parts), ?_, ?_⟩
  · exact hperm.nodup_iff.mpr (nodup_leftOver parts producer noise)
  · intro k hk j hj heq
    subst heq
    have hleft := List.mem_filter.mp (hperm.mem_iff.mp hj)
    simp [hk] at hleft

lemma mem_paint {k : Fin parts.length} (hk : k ∈ live parts) :
    k ∈ (paintOrder parts producer noise).1 := by
  have hperm := List.perm_insertionSort (FileLE parts)
    (leftOver (FileLE parts) (Loses parts producer noise) (live parts))
  refine List.mem_append.mpr ?_
  by_cases hordered : k ∈ ordered (FileLE parts) (Loses parts producer noise) (live parts)
  · exact .inl hordered
  · exact .inr (hperm.mem_iff.mpr (List.mem_filter.mpr ⟨hk, by simpa using hordered⟩))

/-- Where each pair is in order, a settled cell goes to the part that none of the others beats. -/
lemma paintCell_of_pairs {covers : Fin parts.length → Bool}
    (hpairs : ∀ l w, Beaten parts producer noise l w → ¬ OnCycleWith parts producer noise l w →
      (paintOrder parts producer noise).1.idxOf l < (paintOrder parts producer noise).1.idxOf w)
    (hsettled : Settled parts producer noise covers) (hsome : ∃ k, covers k) :
    ∃ owner, paintCell (paintOrder parts producer noise).1 covers = some owner ∧
      ∀ k, covers k ∧ (∀ w, covers w → ¬ Loses parts producer noise k w) ↔ k = owner := by
  obtain ⟨owner, hcovers, hmax⟩ := (Set.toFinite {k | covers k}).exists_maximalFor
    (paintOrder parts producer noise).1.idxOf _ hsome
  -- a covering part that wins over the last one would come after it
  have hlose : ∀ k, covers k → k ≠ owner → Loses parts producer noise k owner ∧
      (paintOrder parts producer noise).1.idxOf k <
        (paintOrder parts producer noise).1.idxOf owner := by
    intro k hk hne
    have hbuilt := hsettled.built k hk
    have hown := hsettled.built owner hcovers
    obtain ⟨hlose, hapart⟩ | ⟨hlose, hapart⟩ := hsettled.overlap k owner hk hcovers hne
    · exact ⟨hlose, hpairs k owner ⟨hbuilt, hown, hlose⟩ hapart⟩
    · have hlt := hpairs owner k ⟨hown, hbuilt, hlose⟩ hapart
      exact absurd (hmax hk hlt.le) (not_le_of_gt hlt)
  refine ⟨owner, ?_, fun k => ⟨?_, ?_⟩⟩
  · exact paintCell_eq_some (nodup_paint parts producer noise)
      (mem_paint (hsettled.built owner hcovers)) hcovers fun k hk hne => (hlose k hk hne).2
  · rintro ⟨hk, hbest⟩
    by_contra hne
    exact hbest owner hcovers (hlose k hk hne).1
  · rintro rfl
    refine ⟨hcovers, fun w hw hloses => ?_⟩
    have hne := ne_of_loses hloses
    exact loses_asymm hloses (hlose w hw hne.symm).1

/-- Where an edge leads to a later place of the order. -/
lemma paint_before_iff {l w : Fin parts.length} (h : Beaten parts producer noise l w) :
    (paintOrder parts producer noise).1.idxOf l < (paintOrder parts producer noise).1.idxOf w ↔
      l ∈ ordered (FileLE parts) (Loses parts producer noise) (live parts) ∨ FileLE parts l w :=
  whole_before_iff (nodup_live parts) h (ne_of_loses h.2.2)

lemma paintsAsCut_of_cyclesApart (h : CyclesApart parts producer noise) :
    PaintsAsCut parts producer noise := by
  have hpairs : ∀ l w, Beaten parts producer noise l w → ¬ OnCycleWith parts producer noise l w →
      (paintOrder parts producer noise).1.idxOf l <
        (paintOrder parts producer noise).1.idxOf w := by
    intro l w hbeaten hapart
    refine (paint_before_iff hbeaten).mpr ?_
    by_cases hordered : l ∈ ordered (FileLE parts) (Loses parts producer noise) (live parts)
    · exact .inl hordered
    · have hleft : l ∈ leftOver (FileLE parts) (Loses parts producer noise) (live parts) :=
        List.mem_filter.mpr ⟨hbeaten.1, by simpa using hordered⟩
      exact .inr (h.filed l w hbeaten (onCycle_of_leftOver h.closed hleft) hapart)
  refine ⟨hpairs, fun covers hsettled hsome => paintCell_of_pairs hpairs hsettled hsome, ?_⟩
  rw [← ncard_leftOver]
  refine congrArg Set.ncard (Set.Subset.antisymm ?_ (cyclic_subset_leftOver parts producer noise))
  exact fun k hleft => onCycle_of_leftOver h.closed hleft

lemma cyclesApart_of_paintsAsCut (h : PaintsAsCut parts producer noise) :
    CyclesApart parts producer noise := by
  obtain ⟨hpairs, -, hcycles⟩ := h
  have hsame := Set.eq_of_subset_of_ncard_le (cyclic_subset_leftOver parts producer noise)
    (by rw [ncard_leftOver, hcycles])
  refine ⟨fun l w hbeaten hcycle => ?_, fun l w hbeaten hcycle hapart => ?_⟩
  · have hleft : w ∈ leftOver (FileLE parts) (Loses parts producer noise) (live parts) :=
      (mem_leftOver_iff (nodup_live parts) hbeaten.2.1).mpr ⟨l, hcycle, .single hbeaten⟩
    exact hsame.superset hleft
  · obtain hordered | hfile := (paint_before_iff hbeaten).mp (hpairs l w hbeaten hapart)
    · have hleft := List.mem_filter.mp (leftOver_of_onCycle hcycle)
      simp [hordered] at hleft
    · exact hfile

/-- Painting in the computed order is cutting by the winners, and the reported count is that of the
parts on cycles, exactly when cycles lead to nothing but cycles, and to those in the order of the file. -/
theorem paint_order_iff (parts : List (Part K)) (producer : String) (noise : K) :
    PaintsAsCut parts producer noise ↔ CyclesApart parts producer noise :=
  ⟨cyclesApart_of_paintsAsCut, paintsAsCut_of_cyclesApart⟩

/-- Three parts that win over each other in a circle, and a part inside the first. -/
def circle : List (Part Int) :=
  let part (order lo hi : Int) : Part Int :=
    ⟨"cuboid", ⟨![lo, 0, 0], ![hi, 10, 10]⟩, order, [], [], false⟩
  [part 0 2 4, part 1 2 6, part 2 5 20, part 3 0 10]

def small : Fin circle.length := ⟨0, by decide⟩

def large : Fin circle.length := ⟨1, by decide⟩

/-- The part inside the first wins over it, is painted before it, and is counted with the circle. -/
theorem circle_not_painted_as_cut : ¬ PaintsAsCut circle "Icepak" 0 := by
  rintro ⟨hpairs, -, -⟩
  have hfree : ∀ w, ¬ Loses circle "Icepak" 0 small w := by decide +kernel
  have hapart : ¬ OnCycleWith circle "Icepak" 0 large small := by
    intro hpath
    obtain heq | ⟨w, hedge, -⟩ := hpath.cases_head
    · exact absurd heq (by decide)
    · exact hfree w hedge.2.2
  have hbeaten : Beaten circle "Icepak" 0 large small :=
    ⟨by decide, by decide, by decide +kernel⟩
  have hlt := hpairs large small hbeaten hapart
  revert hlt
  decide +kernel

/-! ## The order of the file -/

omit [DecidableLE K] [DecidableLT K] in
/-- Where the later object always wins, a part loses to parts behind it only. -/
lemma fileLE_of_loses (hproducer : Text.key producer ≠ "icepak") {l w : Fin parts.length}
    (h : Loses parts producer noise l w) : FileLE parts l w := by
  unfold FileLE
  obtain ⟨hlt, -, hnot⟩ | ⟨-, -, hwin⟩ := h
  · have hle : ¬ (parts.get w).order < (parts.get l).order := fun hlt =>
      hnot (.inr ⟨fun h => hproducer h.1, hlt⟩)
    omega
  · obtain ⟨h, -⟩ | ⟨-, hlt⟩ := hwin
    · exact absurd h hproducer
    · exact .inl hlt

/-- Without Icepak's exception the rule has no circle, and painting is cutting by the winners. -/
theorem paintsAsCut_of_file_order (hproducer : Text.key producer ≠ "icepak") :
    PaintsAsCut parts producer noise := by
  have hpath : ∀ l w, TransGen (Beaten parts producer noise) l w → FileLE parts l w ∧ l ≠ w := by
    intro l w h
    induction h with
    | single h => exact ⟨fileLE_of_loses hproducer h.2.2, ne_of_loses h.2.2⟩
    | tail _ hedge ih =>
      have hle := fileLE_of_loses hproducer hedge.2.2
      have hne := ne_of_loses hedge.2.2
      refine ⟨IsTrans.trans _ _ _ ih.1 hle, ?_⟩
      rintro rfl
      exact ih.2 (Std.Antisymm.antisymm _ _ ih.1 hle)
  have hacyclic : ∀ k, ¬ OnCycle parts producer noise k := fun k h => (hpath k k h).2 rfl
  exact paintsAsCut_of_cyclesApart
    ⟨fun l _ _ h => absurd h (hacyclic l), fun l _ _ h => absurd h (hacyclic l)⟩

end MeshPipeline.Ecxml
