import Mathlib.Algebra.Order.Ring.Rat
import Mathlib.Data.List.Sort
import MeshPipeline.Library.Text
import MeshPipeline.Pipeline.State

/-!
# The mesh engines and what they declare

The catalogue that the fallback ladder reads: what an engine takes, what it delivers, and where it
stands on the ladder of a flow.
-/

namespace MeshPipeline.Pipeline

inductive Flow
  | external | internal | multiRegion | structural
  deriving DecidableEq, Repr

/-- `flow_of`: the flow that a declared purpose asks for. -/
def flowOf : String → Option Flow
  | "structural" => some .structural
  | "external_cfd" => some .external
  | "internal_cfd" => some .internal
  | "conjugate_heat_transfer" => some .multiRegion
  | _ => none

/-- `WALL_FITS`, weakest first. -/
inductive WallFit
  | staircased | bodyFitted
  deriving DecidableEq, Repr

def WallFit.index : WallFit → Nat
  | .staircased => 0
  | .bodyFitted => 1

inductive CellKind
  | hexDominant | tetrahedral
  deriving DecidableEq, Repr

structure DeliveredMesh where
  cells : CellKind
  walls : WallFit
  prismLayers : Bool
  wakeRefinement : Bool
  deriving DecidableEq, Repr

structure FlowSupport where
  flow : Flow
  maxPassages : Nat
  deriving DecidableEq, Repr

structure InputContract where
  minThicknessRatio : ℚ
  requireNoSelfIntersection : Bool
  deriving DecidableEq

structure ParamSpec where
  key : String
  values : List String
  default : String
  required : Bool
  deriving DecidableEq, Repr

abbrev EngineParams := List (String × String)

structure PatchSummary where
  name : String
  type : String
  deriving DecidableEq, Repr

/-- `AdmissionEvidence`: what an engine is asked to build. -/
structure AdmissionEvidence where
  engine : String
  purpose : String
  inputKind : Option String
  dimensionality : Option String
  patches : List PatchSummary
  engineParams : EngineParams
  geometryForm : Option String
  deriving DecidableEq, Repr

/-- A row of the catalogue. -/
structure EngineSpec where
  name : String
  implemented : Bool
  /-- The first is the native format. -/
  exportFormats : List String
  intakeParams : List ParamSpec
  accepts : List FlowSupport
  ladderRank : Nat
  deliveredMesh : Option DeliveredMesh
  inputContract : Option InputContract
  /-- `admit` finds no reason to reject the evidence. -/
  admits : AdmissionEvidence → Bool

namespace EngineSpec

/-- `max_passages_for`: nothing when the engine is not designed for the flow. -/
def maxPassagesFor (spec : EngineSpec) (flow : Flow) : Option Nat :=
  (spec.accepts.find? (·.flow = flow)).map (·.maxPassages)

/-- `designed_for`. -/
def designedFor (spec : EngineSpec) (flow : Flow) : Bool := spec.accepts.any (·.flow = flow)

/-- `covers_passages`: only a count of several passages, and only for an internal flow, rules an
engine out. -/
def coversPassages (spec : EngineSpec) (flow : Option Flow) (passages : Option Nat) : Bool :=
  match flow, passages with
  | some .internal, some n =>
    if n ≤ 1 then true
    else match spec.maxPassagesFor .internal with
      | none => true
      | some limit => decide (n ≤ limit)
  | _, _ => true

/-- `_measures_its_input`. -/
def measuresItsInput (spec : EngineSpec) : Bool :=
  spec.inputContract.any fun ic => ic.requireNoSelfIntersection || decide (0 < ic.minThicknessRatio)

/-- `resolve_engine_params`: an optional choice without a default is there only when it was made. -/
def resolveEngineParams (spec : EngineSpec) (given : EngineParams) : EngineParams :=
  spec.intakeParams.filterMap fun p =>
    let v := Text.key ((given.lookup p.key).getD "")
    if !p.required && p.default = "" && v ∉ p.values then none
    else some (p.key, if v ∈ p.values then v else p.default)

end EngineSpec

/-- The catalogue, with the readings of the laboratory record and of the gates that the ladder
takes from elsewhere. -/
structure Registry where
  catalog : List EngineSpec
  named : "" ∉ catalog.map (·.name)
  defaultEngine : String
  /-- `flow_ranking`: the engines of a flow by their record over the whole flow. -/
  flowRanking : Flow → List String
  /-- `_gate_cause`: the cause that a gate of an engine declares. -/
  gateCause : String → String → Option FailureCause

/-- `ranked_engines`: the ranked ones first, in ranking order, then the rest as they stand. A name
that the ranking repeats has its last place. -/
def rankedEngines (order ranking : List String) : List String :=
  (order.filter (· ∈ ranking)).insertionSort
      (fun a b => ranking.reverse.idxOf b ≤ ranking.reverse.idxOf a) ++
    order.filter (· ∉ ranking)

namespace Registry

def implemented (reg : Registry) : List EngineSpec := reg.catalog.filter (·.implemented)

/-- `engine_names`. -/
def engineNames (reg : Registry) : List String := reg.implemented.map (·.name)

/-- `get_spec`: a blank name is the default engine, an unknown one has no row. -/
def getSpec (reg : Registry) (name : String) : Option EngineSpec :=
  let key := Text.key name
  reg.catalog.find? (·.name = if key = "" then reg.defaultEngine else key)

/-- `ladder_order`: by rank, then by name. -/
def ladderOrder (reg : Registry) (flow : Flow) : List String :=
  ((reg.implemented.filter (·.designedFor flow)).insertionSort fun a b =>
    a.ladderRank < b.ladderRank ∨ a.ladderRank = b.ladderRank ∧ a.name ≤ b.name).map (·.name)

/-- `fallback_order`: the measured ranking over that of the flow. -/
def fallbackOrder (reg : Registry) (flow : Flow) (measured : List String) : List String :=
  rankedEngines (rankedEngines (reg.ladderOrder flow) (reg.flowRanking flow)) measured

end Registry

end MeshPipeline.Pipeline
