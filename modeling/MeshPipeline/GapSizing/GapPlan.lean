import MeshPipeline.Library.Bisect
import MeshPipeline.Library.DecimalRound
import Mathlib.Data.List.MinMax
import Mathlib.Data.Rat.Floor

/-!
# The gap plan

What it costs to put a number of cells across every narrow spot, and the plan of one pass: the rule's
count where the limit holds it, else the most that a bisection finds. The limit is on the delivered
mesh, so the wall layers count in the base, in the cost and under the ceiling.
-/

namespace MeshPipeline.GapSizing

/-- `MIN_ACCEPTED_CELLS`. -/
def minAcceptedCells : ℚ := 4

/-- `BUDGET_HEADROOM`. -/
def budgetHeadroom : ℚ := 115 / 100

/-- `CEILING_SLACK`. -/
def ceilingSlack : ℚ := 3 / 2

/-- `PLAN_BOX_SHARE`. -/
def planBoxShare : ℚ := 1 / 2

/-- A box round a narrow spot; what a detector does not say is `none`. -/
structure Box where
  min : Fin 3 → ℚ
  max : Fin 3 → ℚ
  radiusM : ℚ
  cellM : Option ℚ
  levelBump : Option ℤ
  layerCells : Option ℚ
  refineM3 : Option ℚ
  fluidM3 : Option ℚ
  volumeM3 : Option ℚ

namespace Box

/-- The cell of a box: its own, or `cell_m` halved `level_bump` times. -/
def cell (b : Box) (cellM : ℚ) : ℚ :=
  let planned := cellM / 2 ^ b.levelBump.getD 1
  match b.cellM with
  | some c => if c = 0 then planned else c
  | none => planned

/-- The volume that is refined. -/
def refined (b : Box) (wholeBox : Bool) : ℚ :=
  match b.refineM3 with
  | some v => v
  | none =>
    if wholeBox then ∏ k, Max.max 0 (b.max k - b.min k)
    else (b.fluidM3.orElse fun _ => b.volumeM3).getD 0

def layers (b : Box) : ℚ := b.layerCells.getD 0

/-- What a box adds to `box_cost`. -/
def cost (b : Box) (cellM : ℚ) (wholeBox : Bool) : ℚ :=
  let c := b.cell cellM
  if c ≤ 0 then 0 else b.layers + b.refined wholeBox / c ^ 3

/-- `round(0.5 * (min + max), 6)`, of each coordinate. -/
def middle (b : Box) : List ℚ :=
  (List.finRange 3).map fun k => DecimalRound.round 6 (1 / 2 * (b.min k + b.max k))

end Box

/-- `box_cost`. -/
def boxCost (boxes : List Box) (cellM : ℚ) (wholeBox : Bool) : ℚ :=
  (boxes.map fun b => b.cost cellM wholeBox).sum

inductive Status
  | noNarrow | fits | raised | limited | acceptedFewer | overLimit
  deriving DecidableEq, Repr

/-- `GapPlan`. -/
structure GapPlan where
  status : Status
  regions : List Box
  target : ℚ
  cost : ℚ
  baseCells : ℚ
  budgetIn : ℕ
  budget : ℕ
  limit : ℕ
  fullCost : ℚ
  affordable : Option ℚ
  affordableCost : Option ℚ
  narrowestM : Option ℚ
  spots : ℕ
  whereM : Option (List ℚ)
  rule : ℚ
  baseAfter : ℚ
  afterCells : ℚ

namespace GapPlan

/-- `needed`. -/
def needed (p : GapPlan) : ℚ := p.baseCells + p.fullCost

/-- The cells that the boxes of the plan add by refinement. -/
def refined (p : GapPlan) : ℚ := p.cost - (p.afterCells - p.baseAfter)

/-- `ceiling`. -/
def ceiling (p : GapPlan) : ℕ :=
  if p.status = .fits ∨ p.status = .overLimit ∨ p.status = .noNarrow ∨ p.regions = [] then p.budgetIn
  else
    let room := p.limit / budgetHeadroom - p.afterCells
    ⌊max (p.budgetIn : ℚ) (min (p.budgetIn + max 0 p.refined * ceilingSlack) room)⌋₊

end GapPlan

/-- What a pass is planned from: the boxes for each count, the cell they refine from, the plan's budget
and the limit, the refined mesh without the boxes, the count asked for, whether the user accepts fewer,
whether whole boxes are refined, and the wall-layer cells of the mesh without the boxes. -/
structure Pass where
  regionsAt : ℚ → List Box
  cellM : ℚ
  budget : ℕ
  limit : ℕ
  baseCells : Option ℚ
  target : ℚ
  acceptFewer : Bool
  wholeBox : Bool
  baseAfter : ℚ

namespace Pass

def refined (a : Pass) : ℚ := a.baseCells.getD ((1 - planBoxShare) * a.budget)

def after (a : Pass) : ℚ := max 0 a.baseAfter

def base (a : Pass) : ℚ := a.refined + a.after

/-- The cost of the boxes. -/
def costOf (a : Pass) (boxes : List Box) : ℚ := boxCost boxes a.cellM a.wholeBox

/-- `layers`. -/
def layers (boxes : List Box) : ℚ := (boxes.map Box.layers).sum

/-- `plan`: the plan of one status, whose budget is the ceiling that it refines to when it refines more
than planned. -/
def plan (a : Pass) (full : List Box) (status : Status) (boxes : List Box) (t cost : ℚ) (budget : ℕ)
    (affordable affordableCost : Option ℚ) : GapPlan :=
  let narrowest := full.argmin Box.radiusM
  let p : GapPlan :=
    { status := status
      regions := boxes
      target := t
      cost := cost
      baseCells := a.base
      budgetIn := a.budget
      budget := budget
      limit := a.limit
      fullCost := a.costOf full
      affordable := affordable
      affordableCost := affordableCost
      narrowestM := narrowest.map fun b => 2 * b.radiusM
      spots := full.length
      whereM := narrowest.map Box.middle
      rule := a.target
      baseAfter := a.after
      afterCells := a.after + layers boxes }
  if status = .raised ∨ status = .limited ∨ status = .acceptedFewer then
    { p with budget := max p.budgetIn p.ceiling }
  else p

/-- The room that the limit leaves to the boxes. -/
def room (a : Pass) : ℚ := a.limit / budgetHeadroom - a.base

/-- The most cells across the narrow spots that the room holds: the count, its boxes and their cost. -/
def most (a : Pass) : Option (ℚ × List Box × ℚ) :=
  let eval := fun t => (a.regionsAt t, a.costOf (a.regionsAt t))
  if 0 < a.room then
    let low := eval minAcceptedCells
    if low.2 ≤ a.room then
      some (Bisect.halve eval (fun found => decide (found.2 ≤ a.room)) 12 (minAcceptedCells, low)
        a.target)
    else none
  else none

/-- `plan_gaps`. -/
def planGaps (a : Pass) : GapPlan :=
  let full := a.regionsAt a.target
  if full = [] then
    { status := .noNarrow
      regions := []
      target := a.target
      cost := 0
      baseCells := a.base
      budgetIn := a.budget
      budget := a.budget
      limit := a.limit
      fullCost := 0
      affordable := none
      affordableCost := none
      narrowestM := none
      spots := 0
      whereM := none
      rule := 13
      baseAfter := a.after
      afterCells := a.after }
  else
    let fullCost := a.costOf full
    let need := ⌈(a.base + fullCost) * budgetHeadroom⌉
    if a.refined + fullCost - layers full ≤ a.budget ∧ need ≤ a.limit then
      a.plan full .fits full a.target fullCost a.budget none none
    else if need ≤ a.limit then
      a.plan full .raised full a.target fullCost a.budget none none
    else
      match a.most with
      | some (t, boxes, cost) =>
        a.plan full (if a.acceptFewer then .acceptedFewer else .limited) boxes t cost a.limit (some t)
          (some cost)
      | none => a.plan full .overLimit [] a.target 0 a.budget none none

end Pass

end MeshPipeline.GapSizing
