import Mathlib.Data.Finset.Sort
import MeshPipeline.Library.Counted
import MeshPipeline.SnapGrid.GridPlan

/-!
# The blocks of a layout

Each block keeps some of the global lines, by their indices, on each axis. Lines are only ever added
to a block: where the two sides of a face are too uneven, and where an interface between two regions
is too skewed. Sizes and places, which are floating point, are given.
-/

namespace MeshPipeline.SnapGrid

/-- The indices of the global lines that a block keeps, on each axis. -/
structure Block where
  lines : Fin 3 → Finset ℕ

namespace Block

def nCells (b : Block) : ℕ := ((b.lines 0).card - 1) * ((b.lines 1).card - 1) * ((b.lines 2).card - 1)

def sorted (b : Block) (w : Fin 3) : List ℕ := (b.lines w).sort (· ≤ ·)

def first (b : Block) (w : Fin 3) : ℕ := (b.sorted w).head?.getD 0

def last (b : Block) (w : Fin 3) : ℕ := (b.sorted w).getLast?.getD 0

end Block

abbrev Blocks := List Block

/-- The cells of all the blocks. -/
def cellCount (blocks : Blocks) : ℕ := (blocks.map Block.nCells).sum

/-- A face between two blocks with interface pieces too skewed on the side of the first: for each
axis along it, the cells to cut and the overlap. -/
structure SkewRow where
  block : ℕ
  other : ℕ
  cuts : List (Fin 3 × List ℕ × ℕ × ℕ)
  pieces : ℕ
  worst : ℚ

/-- What the sizes and places of a layout decide. -/
structure Field where
  /-- `_smooth`: lines of one cell, with more until they are graded. -/
  smooth : Fin 3 → Finset ℕ → Finset ℕ
  /-- `adjacency`: the blocks below and above each face, and its axis. -/
  adjacent : Blocks → List (ℕ × ℕ × Fin 3)
  /-- The cells of one block too wide on an axis for those of another, across a face. -/
  tooWide : Block → Block → Fin 3 → Fin 3 → List ℕ
  /-- `interface_skew`, of the blocks painted. -/
  skewed : Blocks → List SkewRow

namespace Field

variable (F : Field)

/-- One cell graded, among the lines of its block. -/
def gradeCell (w : Fin 3) (lines : Finset ℕ) (cell : ℕ × ℕ) : Finset ℕ :=
  let sub := lines.filter fun l => cell.1 ≤ l ∧ l ≤ cell.2
  let graded := F.smooth w sub
  if sub.card < graded.card then lines ∪ graded else lines

/-- `_import_lines`: lines of `Q` put into cells of `P`, each cell graded. -/
def importLines (P Q : Block) (w : Fin 3) (cells : List ℕ) (o₀ o₁ : ℕ) : Block × ℕ :=
  let inner := (Q.lines w).filter fun l => o₀ ≤ l ∧ l ≤ o₁
  let spans := cells.map fun c => ((P.sorted w).getD c 0, (P.sorted w).getD (c + 1) 0)
  let take := inner.filter fun l => spans.any fun s => s.1 < l ∧ l < s.2
  if take = ∅ then (P, 0)
  else
    let merged := spans.foldl (F.gradeCell w) (P.lines w ∪ take)
    (⟨Function.update P.lines w merged⟩, merged.card - (P.lines w).card)

/-- Lines of the block at one place put into the block at another. -/
def importAt (p q : ℕ) (w : Fin 3) (cells : Block → Block → List ℕ) (o : Block → Block → ℕ × ℕ)
    (blocks : Blocks) : Blocks × ℕ :=
  match blocks[p]?, blocks[q]? with
  | some P, some Q =>
    let r := F.importLines P Q w (cells P Q) (o P Q).1 (o P Q).2
    (blocks.set p r.1, r.2)
  | _, _ => (blocks, 0)

def lateral (a : Fin 3) : List (Fin 3) := [0, 1, 2].filter (· ≠ a)

/-- `_balance_pair`. -/
def balancePair (pair : ℕ × ℕ × Fin 3) : Blocks → Blocks × ℕ :=
  let (below, above, a) := pair
  Counted.each (fun (t : ℕ × ℕ × Fin 3) =>
      F.importAt t.1 t.2.1 t.2.2 (fun P Q => F.tooWide P Q a t.2.2) fun P Q =>
        (max (P.first t.2.2) (Q.first t.2.2), min (P.last t.2.2) (Q.last t.2.2)))
    ((lateral a).map (below, above, ·) ++ (lateral a).map (above, below, ·))

/-- `balance`. -/
def balance (blocks : Blocks) : Blocks × ℕ :=
  Counted.rounds (fun _ => false) (Counted.each F.balancePair (F.adjacent blocks)) 60 blocks

/-- The cuts of one row of `hold_interface_skew`. -/
def cutRow (r : SkewRow) : Blocks → Blocks × ℕ :=
  Counted.each (fun c => F.importAt r.block r.other c.1 (fun _ _ => c.2.1) fun _ _ => c.2.2) r.cuts

/-- One round of `hold_interface_skew`. -/
def holdRound (blocks : Blocks) : Blocks × ℕ :=
  Counted.andThen (Counted.each F.cutRow (F.skewed blocks)) F.balance blocks

end Field

/-- What `hold_interface_skew` says it has done; the last two fields are of the second sizing. -/
structure Hold where
  piecesBefore : ℕ
  linesAdded : ℕ
  piecesLeft : ℕ
  worstLeft : ℚ
  resizedForBudget : Bool := false
  overBudget : Option ℤ := none

/-- `hold_interface_skew`. -/
def Field.holdInterfaceSkew (F : Field) (blocks : Blocks) : Blocks × Hold :=
  let r := Counted.rounds (fun b => F.skewed b = []) F.holdRound 12 blocks
  (r.1, {
    piecesBefore := ((F.skewed blocks).map SkewRow.pieces).sum
    linesAdded := r.2
    piecesLeft := ((F.skewed r.1).map SkewRow.pieces).sum
    worstLeft := ((F.skewed r.1).map SkewRow.worst).foldl max 0 })

/-! ## Lines are counted -/

namespace Field

variable (F : Field)

lemma subset_grade (w : Fin 3) (cells : List (ℕ × ℕ)) (lines : Finset ℕ) :
    lines ⊆ cells.foldl (F.gradeCell w) lines := by
  induction cells generalizing lines with
  | nil => rfl
  | cons c cells ih =>
    refine Finset.Subset.trans ?_ (ih _)
    unfold gradeCell
    dsimp only
    split_ifs
    · exact Finset.subset_union_left
    · rfl

lemma importLines_sound {P Q : Block} {w : Fin 3} {cells : List ℕ} {o₀ o₁ : ℕ}
    (h : (F.importLines P Q w cells o₀ o₁).2 = 0) : (F.importLines P Q w cells o₀ o₁).1 = P := by
  unfold importLines at h ⊢
  dsimp only at h ⊢
  split_ifs at h ⊢ with ht
  · rfl
  · generalize hm : List.foldl (F.gradeCell w) _ _ = merged at h ⊢
    have hsub : P.lines w ⊆ merged := by
      rw [← hm]
      exact Finset.Subset.trans Finset.subset_union_left (F.subset_grade w _ _)
    have heq := Finset.eq_of_subset_of_card_le hsub (Nat.sub_eq_zero_iff_le.1 h)
    rw [← heq, Function.update_eq_self]

lemma importAt_sound (p q : ℕ) (w : Fin 3) (cells : Block → Block → List ℕ)
    (o : Block → Block → ℕ × ℕ) : Counted.Sound (F.importAt p q w cells o) := by
  intro blocks h
  unfold importAt at h ⊢
  split at h
  · next P Q hP hQ =>
    simp only [F.importLines_sound h]
    obtain ⟨hp, rfl⟩ := List.getElem?_eq_some_iff.1 hP
    exact List.set_getElem_self hp
  · rfl

lemma balance_sound : Counted.Sound F.balance :=
  fun blocks =>
    have hpairs : Counted.Sound (Counted.each F.balancePair (F.adjacent blocks)) :=
      .each (fun _ => .each (fun _ => F.importAt_sound _ _ _ _ _) _) _
    hpairs.rounds _ 60 blocks

lemma holdRound_sound : Counted.Sound F.holdRound := by
  intro blocks
  have hcut : Counted.Sound (Counted.each F.cutRow (F.skewed blocks)) :=
    .each (fun r => .each (fun c => F.importAt_sound _ _ _ _ _) _) _
  exact hcut.andThen F.balance_sound blocks

/-- The hold that adds no line leaves the blocks as they are. -/
lemma holdInterfaceSkew_sound {blocks : Blocks}
    (h : (F.holdInterfaceSkew blocks).2.linesAdded = 0) :
    (F.holdInterfaceSkew blocks).1 = blocks :=
  F.holdRound_sound.rounds _ 12 blocks h

end Field

end MeshPipeline.SnapGrid
