import Mathlib.Data.Rat.Floor
import MeshPipeline.SnapGrid.Layout

/-!
# The cell budget

A layout is sized to the budget: the background coarsens first, then the plan is relaxed. The mesh holds
its interfaces, which costs cells, and is sized again when it then is over the budget.
-/

namespace MeshPipeline.SnapGrid

open GridPlan

inductive GridError
  | value (text : String)
  | overBudget (text : String) (needed : ℕ)
  | outOfMemory (text : String) (needed : ℕ)
  deriving DecidableEq, Repr

/-- The blocks for one plan and background size, and what was relaxed for them. -/
structure Layout where
  plan : GridPlan
  H : ℚ
  blocks : Blocks
  balanced : ℕ
  relaxed : List String := []
  layersBudget : ℕ := 0
  rulesBudget : ℕ := 0

def Layout.nCells (l : Layout) : ℕ := cellCount l.blocks

/-- A placed model, with what is computed of it in floating point. -/
structure Model where
  /-- The longest side of the domain. -/
  longest : ℚ
  /-- The leaves of the tree for a plan, a background size and a leaf size, unless an axis gets too
  many lines. -/
  leaves : GridPlan → ℚ → ℕ → Except String Blocks
  field : GridPlan → ℚ → Field
  sqrt : ℚ → ℚ
  /-- The thermal rules that have something to act on. -/
  applicable : List String
  /-- A number in so many significant digits. -/
  digits : ℕ → ℚ → String

/-! ## Words -/

/-- `f"{n:,}"`. -/
def grouped (n : ℕ) : String :=
  String.ofList ((((Nat.toDigits 10 n).reverse.toChunks 3).intersperse [',']).flatten.reverse)

/-- A thermal rule, as it is said. -/
structure Rule where
  key : String
  value : GridPlan → ℚ
  words : (got want : String) → String
  off : Option (String → String)

def rules : List Rule :=
  [⟨"gap_cells", fun p => p.gapCells, fun got want =>
      "air gaps between solids (fin channels, gaps between parts) get " ++ got ++
        " cell(s) across (asked " ++ want ++ ")",
      some fun want => "air gaps between solids keep only the cells the rest of the grid gives " ++
        "them, at least one (asked " ++ want ++ " across)"⟩,
    ⟨"band_cells", fun p => p.bandCells, fun got want =>
      "the air next to heated surfaces gets " ++ got ++ " cell(s) inside its thermal boundary " ++
        "layer (asked " ++ want ++ ")",
      some fun want => "the air next to heated surfaces is left to the rest of the grid (asked " ++
        want ++ " cells inside its warm-air layer)"⟩,
    ⟨"spread_cells", fun p => p.spreadCells, fun got want =>
      "heat-producing parts get " ++ got ++ " cell(s) across their width (asked " ++ want ++ ")",
      some fun want => "heat-producing parts get no cells beyond the rest of the grid across " ++
        "their width (asked " ++ want ++ ")"⟩,
    ⟨"opening_cells", fun p => p.openingCells, fun got want =>
      "fans, vents and grilles get " ++ got ++ " cell(s) across (asked " ++ want ++ ")",
      some fun want => "fans, vents and grilles get no cells beyond the rest of the grid across " ++
        "them (asked " ++ want ++ ")"⟩,
    ⟨"hot_cells_across", fun p =>
        if p.hotCellsAcross = 0 then p.minCellsAcross else p.hotCellsAcross, fun got want =>
      "heated solids (heat sources, fins, what they sit on) get " ++ got ++
        " cell(s) through their thickness (asked " ++ want ++ ")",
      none⟩,
    ⟨"air_aspect", fun p => p.airAspect, fun got want =>
      "cells next to heated surfaces may be up to " ++ got ++ "x longer along the surface than " ++
        "across it (asked " ++ want ++ "x)",
      some fun want => "cells next to heated surfaces are no longer kept short along the surface " ++
        "(asked at most " ++ want ++ "x their size across it)"⟩]

/-- `_relaxed_words`. -/
def relaxedWords (digits : ℕ → ℚ → String) (want got : GridPlan) (applies : List String) :
    List String :=
  (if got.growth ≠ want.growth then
    ["neighbouring cells may differ by up to " ++ digits 6 got.growth ++ "x (asked " ++
      digits 6 want.growth ++ "x), to fit the cell budget"] else []) ++
  (if got.minCellsAcross ≠ want.minCellsAcross then
    ["parts get " ++ toString got.minCellsAcross ++ " cell(s) through their thickness (asked " ++
      toString want.minCellsAcross ++ "), to fit the cell budget"] else []) ++
  (if got.cylinderCells ≠ want.cylinderCells then
    ["cylinders get " ++ toString got.cylinderCells ++ " cells across (asked " ++
      toString want.cylinderCells ++ "), to fit the cell budget"] else []) ++
  rules.filterMap fun r =>
    let w : ℚ := r.value want
    let g : ℚ := r.value got
    let text := fun q : ℚ => if r.key = "air_aspect" then digits 6 q else toString q.num
    if r.key ∉ applies ∨ r.key = "hot_cells_across" ∧ w ≤ (want.minCellsAcross : ℚ) ∨ w = 0 ∨ g = w then
      none
    else
      match r.off with
      | some off => some ((if g = 0 then off (text w) else r.words (text g) (text w)) ++
          ", to fit the cell budget")
      | none => some (r.words (text g) (text w) ++ ", to fit the cell budget")

/-! ## The layout -/

namespace Model

variable (M : Model)

/-- `decompose`. -/
def decompose (plan : GridPlan) (H : ℚ) (leafCells : ℕ) : Except GridError Layout :=
  match M.leaves plan H leafCells with
  | .error text => .error (.value text)
  | .ok blocks =>
    let r := (M.field plan H).balance blocks
    .ok { plan := plan, H := H, blocks := r.1, balanced := r.2 }

/-- The first plan that fits at the coarsest background, between one that does not and one that
does. -/
def bisectPlans (coarsest : ℕ → Except GridError Layout) (budget : ℤ) (lo hi : ℕ) :
    Except GridError ℕ :=
  if hi - lo > 1 then do
    let layout ← coarsest ((lo + hi) / 2)
    if layout.nCells ≤ budget then bisectPlans coarsest budget lo ((lo + hi) / 2)
    else bisectPlans coarsest budget ((lo + hi) / 2) hi
  else .ok hi
termination_by hi - lo

/-- The finest background found that fits, with its layout. -/
def bisectBackground (plan : GridPlan) (leafCells : ℕ) (budget : ℤ) :
    ℕ → ℚ → ℚ → Layout → Except GridError (ℚ × Layout)
  | 0, _, hi, best => .ok (hi, best)
  | n + 1, lo, hi, best => do
    let mid := M.sqrt (lo * hi)
    let trial ← M.decompose plan mid leafCells
    let (lo, hi, best) := if trial.nCells ≤ budget then (lo, mid, trial) else (mid, hi, best)
    if hi / lo < 108 / 100 then .ok (hi, best)
    else bisectBackground plan leafCells budget n lo hi best

def leafCells (localGrid : Bool) : ℕ := if localGrid then 1024 else 10 ^ 18

/-- The layout of a relaxed plan at the background that was asked for. -/
def ownLayout (plan : GridPlan) (leaf : ℕ) (first : Layout) (k : ℕ) : Except GridError Layout :=
  if k = 0 then .ok first
  else M.decompose ((relaxations plan).getD k plan) (M.longest / plan.backgroundCells) leaf

/-- The fewest cells of a plan, where something was taken from it. -/
def neededFor (taken : Bool) (layout : Except GridError Layout) : Except GridError ℕ :=
  if taken then (·.nCells) <$> layout else .ok 0

/-- The layout of one of the relaxed plans, which fits at the coarsest background. -/
def layoutOf (plan : GridPlan) (leaf : ℕ) (first : Layout) (k : ℕ) : Except GridError Layout := do
  let candidates := relaxations plan
  let coarsest := fun k => M.decompose (candidates.getD k plan) M.longest leaf
  let cand := candidates.getD k plan
  let H₀ := M.longest / plan.backgroundCells
  let layout ← M.ownLayout plan leaf first k
  let rulesBudget ← neededFor (k ≠ 0) (coarsest 0)
  let keep := ((List.range k).filter fun j =>
    (candidates.getD j plan).minCellsAcross = plan.minCellsAcross).foldl max 0
  let layersBudget ← neededFor (cand.minCellsAcross < plan.minCellsAcross) (coarsest keep)
  let words := relaxedWords M.digits plan cand M.applicable
  if layout.nCells ≤ plan.maxCells then
    return { layout with
      relaxed := words, layersBudget := layersBudget, rulesBudget := rulesBudget }
  let (h, best) ← M.bisectBackground cand leaf plan.maxCells 30 H₀ M.longest (← coarsest k)
  return { best with
    relaxed := ("the cell budget (" ++ grouped plan.maxCells.toNat ++
      ") set the background cell size to " ++ M.digits 4 (h * 1000) ++ " mm instead of " ++
      M.digits 4 (H₀ * 1000) ++ " mm") :: words
    layersBudget := layersBudget, rulesBudget := rulesBudget }

/-- `build_layout`. -/
def buildLayout (plan : GridPlan) (localGrid : Bool) : Except GridError Layout := do
  if plan.problems ≠ [] then
    throw (.value ("; ".intercalate plan.problems))
  let leaf := leafCells localGrid
  let candidates := relaxations plan
  let coarsest := fun k => M.decompose (candidates.getD k plan) M.longest leaf
  let first ← M.decompose plan (M.longest / plan.backgroundCells) leaf
  if first.nCells ≤ plan.maxCells then
    return { first with relaxed := [] }
  if (← coarsest 0).nCells ≤ plan.maxCells then
    M.layoutOf plan leaf first 0
  else
    let last := candidates.length - 1
    let needed := (← coarsest last).nCells
    if plan.maxCells < needed then
      throw (.overBudget ("this model needs at least " ++ grouped needed ++ " cells to keep one " ++
        "cell through every part (its thinnest parts and narrowest gaps set the grid planes, " ++
        "refined locally), more than the budget of " ++ grouped plan.maxCells.toNat ++
        ". Raise the cell budget to at least " ++ grouped needed ++
        "; no layer is merged away to fit.") needed)
    let k ← bisectPlans coarsest plan.maxCells 0 last
    M.layoutOf plan leaf first k

/-! ## The mesh -/

/-- What the memory of a job was found to hold. -/
structure Memory where
  available : Option ℚ
  fit : ℤ := 0
  note : Option String := none

/-- `cells_that_fit`. -/
def cellsThatFit (bytes : ℚ) : ℤ := max 0 ⌊(9 / 10 * bytes - 5 / 10 * 10 ^ 9) / 3400⌋

/-- `_plan_for_memory`. -/
def planForMemory (plan : GridPlan) (memory : Option ℚ) : GridPlan × Memory :=
  match memory with
  | none => (plan, { available := none })
  | some have_ =>
    let fit := cellsThatFit have_
    if plan.maxCells ≤ fit then (plan, { available := some have_, fit := fit })
    else
      let lowered := max 1000 fit
      ({ plan with maxCells := lowered },
        { available := some have_, fit := fit
          note := some ("the memory this job has (" ++ M.digits 3 (have_ / 10 ^ 9) ++
            " GB) holds about " ++ grouped fit.toNat ++ " cells at " ++ M.digits 3 (34 / 10) ++
            " GB per million, so the cell budget was lowered from " ++
            grouped plan.maxCells.toNat ++ " to " ++ grouped lowered.toNat ++
            " before anything was built") })

/-- `memory_needed`. -/
def memoryNeeded (cells : ℕ) : ℚ := 5 / 10 * 10 ^ 9 + 3400 * cells

/-- `_memory_sentence`. -/
def memorySentence (needed : ℕ) (memory : Memory) : String :=
  "this model needs at least " ++ grouped needed ++ " cells to keep one cell through every part, " ++
    "about " ++ M.digits 3 (memoryNeeded needed / 10 ^ 9) ++ " GB of memory, but this job has " ++
    M.digits 3 (memory.available.getD 0 / 10 ^ 9) ++ " GB (room for about " ++
    grouped memory.fit.toNat ++ " cells); it is refused before anything is built rather than " ++
    "stopped by the system half way. Run it where at least " ++
    M.digits 3 (memoryNeeded needed / 10 ^ 9 / (9 / 10)) ++
    " GB is free; no layer is merged away to fit."

/-- What a mesh that stays over the budget says. -/
def overBudgetWords (cells : ℕ) (budget : ℤ) : String :=
  "the cuts that keep every interface under the skewness bar took the mesh to " ++ grouped cells ++
    " cells, over the budget of " ++ grouped budget.toNat ++ " (a grid sized down for them did " ++
    "not fit without costing cells through the thin layers)"

/-- The blocks of a layout held, in their layout. -/
def hold (layout : Layout) : Layout × Hold :=
  let r := (M.field layout.plan layout.H).holdInterfaceSkew layout.blocks
  ({ layout with blocks := r.1 }, r.2)

/-- The layout for another budget, if there is one. -/
def sizedFor (plan : GridPlan) (budget : ℤ) : Except GridError (Option Layout) :=
  match M.buildLayout { plan with maxCells := budget } true with
  | .ok layout => .ok (some layout)
  | .error (.overBudget _ _) => .ok none
  | .error e => .error e

/-- `_back_within_budget`. -/
def backWithinBudget (plan : GridPlan) (layout : Layout) (h : Hold) :
    Except GridError (Layout × Hold) := do
  let cells := layout.nCells
  let sized := max 1000 ⌊(plan.maxCells * plan.maxCells : ℚ) / cells * (98 / 100)⌋
  let trial ← M.sizedFor plan sized
  let kept : Layout × Hold :=
    ({ layout with relaxed := layout.relaxed ++ [overBudgetWords cells plan.maxCells] },
      { h with overBudget := some (cells - plan.maxCells) })
  match trial with
  | none => return kept
  | some trial =>
    let (trial, h₂) := M.hold trial
    if layout.plan.minCellsAcross ≤ trial.plan.minCellsAcross ∧
        layout.plan.cylinderCells ≤ trial.plan.cylinderCells ∧ trial.nCells ≤ plan.maxCells then
      return ({ trial with
        layersBudget := max trial.layersBudget layout.layersBudget
        relaxed := trial.relaxed.map fun r => r.replace ("(" ++ grouped sized.toNat ++ ")")
          ("(" ++ grouped plan.maxCells.toNat ++ ", less what the interface cuts cost)") },
        { h₂ with resizedForBudget := true })
    else return kept

/-- A mesh and what its report says of the budget. -/
structure Mesh where
  layout : Layout
  hold : Option Hold
  memory : Memory

/-- The layout for the memory of a job, its refusal in the memory's words where that is why. -/
def layoutInMemory (asked plan : GridPlan) (mem : Memory) (localGrid : Bool) :
    Except GridError Layout :=
  match M.buildLayout plan localGrid with
  | .ok layout =>
    match mem.note with
    | some note => .ok { layout with relaxed := note :: layout.relaxed }
    | none => .ok layout
  | .error (.overBudget text needed) =>
    if plan.maxCells < asked.maxCells ∧ needed ≤ asked.maxCells then
      .error (.outOfMemory (M.memorySentence needed mem) needed)
    else .error (.overBudget text needed)
  | .error e => .error e

/-- The layout with its interfaces held, sized again where that took it over the budget. -/
def holdWithinBudget (plan : GridPlan) (layout : Layout) : Except GridError (Layout × Hold) :=
  let (held, h) := M.hold layout
  if h.linesAdded ≠ 0 ∧ plan.maxCells < held.nCells then M.backWithinBudget plan held h
  else .ok (held, h)

/-- `mesh_ecxml`, of a placed model; `rest` is what is checked and written once the grid is there. -/
def meshEcxml (asked : GridPlan) (dryRun localGrid : Bool) (memory : Option ℚ)
    (rest : Layout → Except GridError Unit) : Except GridError Mesh := do
  let (plan, mem) := M.planForMemory asked memory
  let layout ← M.layoutInMemory asked plan mem localGrid
  if dryRun then
    return { layout := layout, hold := none, memory := mem }
  else if localGrid then
    let (layout, h) ← M.holdWithinBudget plan layout
    rest layout
    return { layout := layout, hold := some h, memory := mem }
  else
    rest layout
    return { layout := layout, hold := none, memory := mem }

end Model

end MeshPipeline.SnapGrid
