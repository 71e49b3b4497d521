import Mathlib.Algebra.Field.Rat
import Mathlib.Algebra.Order.Ring.Rat
import Mathlib.Data.Finset.Card
import Mathlib.Data.Nat.Find
import MeshPipeline.Library.Assoc
import MeshPipeline.Library.Buckets
import MeshPipeline.Library.Machine
import MeshPipeline.Library.Ranking

/-!
# The FEA ladder

After a pass, its failure allows some levers, and the next pass is meshed with the settings that all
levers pulled so far add up to. Every count and every factor is an exact number here.
-/

namespace MeshPipeline.Fea

namespace Ladder

def maxPasses : Nat := 3

def gentleGrowth : ℚ := 12 / 10

/-- `fea_plan.GROWTH`. -/
def planGrowth : ℚ := 13 / 10

def optimisePasses : Nat := 3

def tighten : ℚ := 8 / 10

inductive LeverId
  /-- Gentler growth, and more optimisation. -/
  | LAD1
  /-- The other 3D algorithm. -/
  | LAD2
  /-- The zones that fell short, finer. -/
  | LAD3
  /-- The finest zones coarser. -/
  | LAD4
  /-- The surfaces that went wrong, with MeshAdapt. -/
  | LAD6
  /-- `SURFACE_STALL`: gmsh's first mesh of every face is kept. -/
  | LAD8
  deriving DecidableEq, Repr

/-- A lever, with what it carries; a lever that carries none of something has it empty. -/
structure Lever where
  id : LeverId
  surfaces : Finset Int := ∅
  noSwitch : Finset Int := ∅
  factor : ℚ := 1
  zones : List String := []
  /-- `inputs["surface"]`. -/
  stalled : Option Int := none
  deriving DecidableEq

/-- What a pass measured, as the ladder and the delivery read it. -/
structure PassFacts where
  pass : Nat
  built : Bool
  valid : Bool
  offCount : Bool
  minSicn : Option ℚ
  cells : Nat
  limit : Nat
  short : List String
  badSurfaces : Finset Int
  surfacesTotal : Nat
  switched : Finset Int
  outOfMemory : Bool
  valid_built : valid = true → built = true
  memory_unbuilt : outOfMemory = true → built = false

/-- More elements than the limit, where there is one. -/
def PassFacts.overLimit (f : PassFacts) : Bool :=
  f.built && decide (f.limit ≠ 0) && decide (f.limit < f.cells)

/-- The element count that the user asked for. -/
structure Target where
  keptRules : Bool
  /-- A factor that is not there is zero. -/
  scale : ℚ
  beyond : ℚ

/-- What the ladder reads of a plan. -/
structure Plan where
  coarsened : Bool
  userSizes : Bool
  target : Option Target

/-- `by_choice`: the plan's sizes are the user's. -/
def Plan.byChoice (p : Plan) : Bool :=
  p.userSizes || p.target.any fun t =>
    !t.keptRules && ((t.scale ≠ 0 && t.scale ≠ 1) || (t.beyond ≠ 0 && t.beyond ≠ 1))

/-! ## The settings of a pass -/

section Settings

variable (levers : List Lever)

def pulled (id : LeverId) : Bool := levers.any (·.id == id)

def union (part : Lever → Finset Int) : Finset Int := levers.foldr (fun lv s => part lv ∪ s) ∅

/-- `_remeshed`. -/
def remeshed : Finset Int := union levers (·.surfaces)

/-- `_no_switched`. -/
def noSwitched : Finset Int := union levers (·.noSwitch)

/-- The surfaces that no later pass puts on MeshAdapt. -/
def stuck : Finset Int :=
  union levers (fun lv => if lv.id = .LAD8 then lv.stalled.elim ∅ ({·}) else ∅) ∪ noSwitched levers

def growth : ℚ := if pulled levers .LAD1 then gentleGrowth else planGrowth

def coarseFactor : ℚ := ((levers.filter (·.id = .LAD4)).map (·.factor)).prod

def tightened : List (String × ℚ) :=
  ((levers.filter (·.id = .LAD3)).flatMap (·.zones)).foldl
    (fun out z => Assoc.set out z ((out.lookup z).getD 1 * tighten)) []

inductive Algorithm
  | delaunay | hxt
  deriving DecidableEq, Repr

/-- Everything of a pass that the levers decide. -/
structure PassSettings where
  algorithm3d : Algorithm
  optimisePasses : Nat
  remeshSurfaces : Finset Int
  surfaceSwitch : Bool
  growth : ℚ
  coarseFactor : ℚ
  tightened : List (String × ℚ)
  deriving DecidableEq

/-- gmsh may put a surface on MeshAdapt by itself. -/
def surfaceSwitch : Bool :=
  !pulled levers .LAD8 && !levers.any fun lv => decide (lv.noSwitch ≠ ∅)

/-- `mesh_settings`, with the growth, the factor and the zones that the plan takes. -/
def settings : PassSettings where
  algorithm3d := if pulled levers .LAD2 then .hxt else .delaunay
  optimisePasses := if pulled levers .LAD1 then optimisePasses else 1
  remeshSurfaces := remeshed levers \ stuck levers
  surfaceSwitch := surfaceSwitch levers
  growth := growth levers
  coarseFactor := coarseFactor levers
  tightened := tightened levers

end Settings

/-! ## The levers a failure allows -/

/-- `surface_stall_lever`. -/
def surfaceStallLever (surface : Int) (levers : List Lever) : Option Lever :=
  if pulled levers .LAD8 ∨ maxPasses ≤ levers.length + 1 then none
  else some { id := .LAD8, stalled := some surface }

/-- The surfaces a pass went wrong on, when they are at most a quarter of the part's, that no lever
has re-meshed yet. -/
def PassFacts.fresh (f : PassFacts) (levers : List Lever) : Finset Int :=
  let bad := if f.surfacesTotal ≠ 0 ∧ f.surfacesTotal < 4 * f.badSurfaces.card then ∅
    else f.badSurfaces
  bad \ remeshed levers

/-- A cube root to four decimals, half to even, in ten-thousandths. -/
def cbrt4 (num den : Nat) : Nat :=
  let down := Nat.findGreatest (fun k => k ^ 3 * den ≤ 10 ^ 12 * num) (10 ^ 4 * (num / den + 1))
  let half := (2 * down + 1) ^ 3 * den
  if half < 8 * 10 ^ 12 * num ∨ half = 8 * 10 ^ 12 * num ∧ down % 2 = 1 then down + 1 else down

/-- The factor aimed at 85% of the limit. -/
def PassFacts.limitFactor (f : PassFacts) : ℚ :=
  (cbrt4 (85 * f.limit) (100 * max f.cells 1) : ℚ) / 10 ^ 4

/-- `_other_way`. -/
def otherWay (fresh : Finset Int) : Option Lever :=
  if fresh = ∅ then none else some { id := .LAD6, surfaces := fresh }

/-- The fill levers, the fixed ladder's own first. -/
def PassFacts.order (f : PassFacts) (levers : List Lever) : List Lever :=
  let hxt : Lever := { id := .LAD2, surfaces := f.fresh levers }
  let gentle : Lever := { id := .LAD1, surfaces := f.fresh levers }
  if f.built then [gentle, hxt] else [hxt, gentle]

/-- The fill levers that are left, with the surfaces that gmsh switched by itself riding along. -/
def PassFacts.rest (f : PassFacts) (levers : List Lever) : List Lever :=
  let rest := (f.order levers).filter fun o => !pulled levers o.id
  let switched := f.switched \ noSwitched levers
  if switched ≠ ∅ ∧ pulled levers .LAD8 = false then
    rest.map fun o => { o with noSwitch := switched }
  else rest

/-- `lever_options`. -/
def leverOptions (f : PassFacts) (levers : List Lever) (plan : Plan) : List Lever :=
  if maxPasses ≤ levers.length + 1 then []
  else if f.outOfMemory then []
  else if !f.built || !f.valid then
    let way := otherWay (f.fresh levers)
    if (f.order levers).head?.any fun o => pulled levers o.id then
      way.elim [] fun way => way :: f.rest levers
    else f.rest levers ++ way.toList
  else if f.overLimit then
    if pulled levers .LAD4 then [] else [{ id := .LAD4, factor := f.limitFactor }]
  else if f.short ≠ [] then
    if pulled levers .LAD3 || plan.coarsened || plan.byChoice then []
    else [{ id := .LAD3, zones := f.short.mergeSort }]
  else []

/-- `next_lever`. -/
def nextLever (f : PassFacts) (levers : List Lever) (plan : Plan) : Option Lever :=
  (leverOptions f levers plan).head?

/-! ## The passes -/

/-- What follows a pass: a choice among the levers its failure allows, or the lever of a surface
stage that stalled. -/
inductive Pull
  | choice (facts : PassFacts) (plan : Plan) (pick : Nat)
  | stall (surface : Int)

def Pull.lever (levers : List Lever) : Pull → Option Lever
  | .choice facts plan pick => (leverOptions facts levers plan)[pick]?
  | .stall surface => surfaceStallLever surface levers

/-- The levers pulled so far, under the pulls that follow the passes. -/
def machine : Transition.Machine (List Lever) Pull where
  step levers p := (p.lever levers).map fun lv => levers ++ [lv]

/-! ## The pass that is delivered -/

def mark (b : Bool) : ℚ := if b then 1 else 0

/-- `_rank`. -/
def rank (f : PassFacts) : List ℚ :=
  [mark !f.valid, mark f.offCount, mark (f.short ≠ []), mark f.overLimit, -(f.minSicn.getD 0), f.pass]

def deciding : List String :=
  ["a valid mesh", "the count asked for", "every rule met", "within the limit",
   "the better worst element", "the earlier pass"]

/-- `best_pass`: the pass delivered, and what decided it. -/
def bestPass (passes : List PassFacts) : Option Nat × String :=
  match Buckets.sortBy rank (passes.filter (·.valid)) with
  | [] => (none, "no valid mesh")
  | [f] => (some f.pass, "the only valid mesh")
  | f :: g :: _ =>
    let i := (Ranking.deciding (rank f) (rank g)).getD ((rank f).length - 1)
    (some f.pass, deciding.getD i "")

end Ladder

end MeshPipeline.Fea
