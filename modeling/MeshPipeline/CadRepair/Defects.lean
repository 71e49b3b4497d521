import Mathlib.Data.List.Basic
import Mathlib.Data.Finset.Basic
import Mathlib.Data.Prod.Lex
import Mathlib.Data.List.Sort
import Mathlib.Data.String.Basic

/-!
# Located defects and the operations that repair them

A defect names one entity of the current shape; an operation claims the defects of its codes and
names the entities that it would aim at.
-/

namespace MeshPipeline.CadRepair

inductive DefectCode
  | invalidBrep | openShell | wireGap | smallEdge | smallFace | degenerateEdge | curveInconsistency
  | selfIntersection | nonManifoldSurface | badOrientation | toleranceOutlier
  | duplicateSurfaceData | engineStagingFailure
  deriving DecidableEq, Repr

namespace DefectCode

def value : DefectCode → String
  | invalidBrep => "invalid_brep"
  | openShell => "open_shell"
  | wireGap => "wire_gap"
  | smallEdge => "small_edge"
  | smallFace => "small_face"
  | degenerateEdge => "degenerate_edge"
  | curveInconsistency => "curve_inconsistency"
  | selfIntersection => "self_intersection"
  | nonManifoldSurface => "non_manifold_surface"
  | badOrientation => "bad_orientation"
  | toleranceOutlier => "tolerance_outlier"
  | duplicateSurfaceData => "duplicate_surface_data"
  | engineStagingFailure => "engine_staging_failure"

def all : List DefectCode :=
  [invalidBrep, openShell, wireGap, smallEdge, smallFace, degenerateEdge, curveInconsistency,
    selfIntersection, nonManifoldSurface, badOrientation, toleranceOutlier, duplicateSurfaceData,
    engineStagingFailure]

/-- `DefectCode(value)`. -/
def parse (value : String) : Option DefectCode := all.find? fun c => c.value == value

end DefectCode

/-- Worse last. -/
inductive Severity
  | info | warning | error | fatal
  deriving DecidableEq, Repr

def Severity.isError (s : Severity) : Bool := s = .error ∨ s = .fatal

inductive EntityType
  | shell | face | wire | edge | vertex
  deriving DecidableEq, Repr

def EntityType.value : EntityType → String
  | shell => "shell"
  | face => "face"
  | wire => "wire"
  | edge => "edge"
  | vertex => "vertex"

/-- `EntityRef`. -/
structure EntityRef where
  entityType : EntityType
  fingerprint : String
  entityIndex : Nat
  ambiguous : Bool
  deriving DecidableEq, Repr

/-- `EntityDefect`, with the measurements that a repair reads. -/
structure Defect where
  code : DefectCode
  severity : Severity
  entityType : EntityType
  entityIndex : Nat
  fingerprint : String
  ambiguous : Bool
  /-- `measurements["boundary_edges"]`. -/
  boundaryEdges : List Nat
  /-- `measurements["crossing_faces"]` and `["crossing_face_indices"]`. -/
  crossingFaces : List String
  crossingFaceIndices : List Nat
  /-- Only the face analyzer reported it. -/
  analyzerOnly : Bool
  /-- The corners of its bounding box. -/
  box : Option (List Int × List Int)
  deriving DecidableEq, Repr

/-- The entity that a defect names. -/
def Defect.ref (d : Defect) : EntityRef := ⟨d.entityType, d.fingerprint, d.entityIndex, d.ambiguous⟩

/-- `held_fingerprints`. -/
def heldFingerprints (defects : List Defect) (reserved : List DefectCode) : List String :=
  (defects.filter fun d => d.fingerprint != "" && reserved.contains d.code).map Defect.fingerprint

/-! ## Operations -/

/-- The consents of a deployment that decide what an operation may aim at. -/
structure Consents where
  fixSmallFaces : Bool
  fillNonplanarHoles : Bool
  healSelfIntersections : Bool
  deriving DecidableEq, Repr

/-- `RepairOp`; what it does to a shape is the kernel's. -/
structure RepairOp where
  name : String
  answers : List DefectCode
  scope : Nat
  targetsFor : Defect → List EntityRef

/-- An aim at the entity of the defect itself. -/
def aimAt (answers : List DefectCode) (types : List EntityType) (d : Defect) : List EntityRef :=
  if d.code ∈ answers ∧ d.entityType ∈ types ∧ d.fingerprint ≠ "" then [d.ref] else []

def anyType : List EntityType := [.shell, .face, .wire, .edge, .vertex]

def fixSmallEdges : RepairOp :=
  let answers := [.smallEdge, .degenerateEdge]
  ⟨"fix_small_edges", answers, 1, aimAt answers [.edge]⟩

def fixFaceBoundary : RepairOp :=
  let answers := [.curveInconsistency, .wireGap, .duplicateSurfaceData]
  ⟨"fix_face_boundary", answers, 2, aimAt answers [.face]⟩

def fixSmallFaces (consents : Consents) : RepairOp :=
  let answers := [.smallFace, .smallEdge]
  ⟨"fix_small_faces", answers, 3, fun d =>
    if consents.fixSmallFaces then aimAt answers [.face, .edge] d else []⟩

def sewFaces : RepairOp := ⟨"sew_faces", [.openShell], 4, aimAt [.openShell] anyType⟩

/-- Only a located loop: the finding of a free boundary lists its edges. -/
def loopOf (d : Defect) : List EntityRef :=
  if d.boundaryEdges = [] then [] else aimAt [.openShell] [.edge] d

def fillPlanarHole : RepairOp := ⟨"fill_planar_hole", [.openShell], 5, loopOf⟩

def fillNonplanarHole (consents : Consents) : RepairOp :=
  ⟨"fill_nonplanar_hole", [.openShell], 6, fun d =>
    if consents.fillNonplanarHoles then loopOf d else []⟩

/-- References with one entity each, the first that was named. -/
def onePerEntity (refs : List EntityRef) : List EntityRef :=
  refs.foldl (fun out r => if out.any fun o => o.entityIndex == r.entityIndex then out
    else out ++ [r]) []

/-- `HealSelfIntersections.targets_for`: the face and the ones that the analyzer says it crosses. -/
def crossingOf (d : Defect) : List EntityRef :=
  if d.code ≠ .selfIntersection ∨ d.entityType ≠ .face ∨ d.fingerprint = "" then []
  else if d.crossingFaces = [] ∨ d.crossingFaces.length ≠ d.crossingFaceIndices.length ∨
    "" ∈ d.crossingFaces then []
  else
    onePerEntity (⟨.face, d.fingerprint, d.entityIndex, d.ambiguous⟩ ::
      List.zipWith (fun name index => ⟨.face, name, index, false⟩) d.crossingFaces
        d.crossingFaceIndices)

/-- `HEAL_OP`. -/
def healOp : String := "heal_self_intersections"

def healSelfIntersections (consents : Consents) : RepairOp :=
  ⟨healOp, [.selfIntersection], 7, fun d =>
    if consents.healSelfIntersections then crossingOf d else []⟩

def fixShapeGlobal : RepairOp :=
  let answers := [.invalidBrep, .curveInconsistency, .degenerateEdge, .smallEdge, .wireGap,
    .duplicateSurfaceData]
  ⟨"fix_shape_global", answers, 99, aimAt answers anyType⟩

/-- `OPERATIONS`. -/
def operations (consents : Consents) : List RepairOp :=
  [fixSmallEdges, fixFaceBoundary, fixSmallFaces consents, sewFaces, fillPlanarHole,
    fillNonplanarHole consents, healSelfIntersections consents, fixShapeGlobal]

/-- `FILL_OPS`. -/
def fillOps : List String := ["fill_planar_hole", "fill_nonplanar_hole"]

lemma aimAt_of_mem {answers : List DefectCode} {types : List EntityType} {d : Defect}
    {r : EntityRef} (h : r ∈ aimAt answers types d) : r = d.ref ∧ d.code ∈ answers := by
  unfold aimAt at h
  split at h
  · exact ⟨List.mem_singleton.mp h, ‹_ ∧ _›.1⟩
  · cases h

/-- A fill aims at the defect that it is asked about, which is a located loop. -/
lemma mem_fill_targetsFor {consents : Consents} {op : RepairOp} (hop : op ∈ operations consents)
    (hfill : op.name ∈ fillOps) {d : Defect} {r : EntityRef} (h : r ∈ op.targetsFor d) :
    r = d.ref ∧ d.code = .openShell ∧ d.boundaryEdges ≠ [] := by
  have hloop : r ∈ loopOf d := by
    simp only [operations, List.mem_cons, List.not_mem_nil, or_false] at hop
    rcases hop with rfl | rfl | rfl | rfl | rfl | rfl | rfl | rfl
    case inr.inr.inr.inr.inl => exact h
    case inr.inr.inr.inr.inr.inl =>
      simp only [fillNonplanarHole] at h
      split at h
      · exact h
      · cases h
    all_goals simp [fillOps, fixSmallEdges, fixFaceBoundary, fixSmallFaces, sewFaces, healOp,
      healSelfIntersections, fixShapeGlobal] at hfill
  unfold loopOf at hloop
  split at hloop
  · cases hloop
  · obtain ⟨hr, hcode⟩ := aimAt_of_mem hloop
    exact ⟨hr, List.mem_singleton.mp hcode, ‹_›⟩

end MeshPipeline.CadRepair
