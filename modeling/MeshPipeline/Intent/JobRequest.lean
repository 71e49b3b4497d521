import MeshPipeline.Intent.AdmissionToken

/-!
# The dispatch contract

What may be handed to a run: a payload of the current version whose geometry and interpretation
describe the same source, whose patches are exactly the approved ones, and whose approved intent,
computed again from its own fields, has the approved fingerprint.
-/

namespace MeshPipeline

/-- An entry of a stored patch contract. -/
structure NamedPatch where
  name : Option String
  role : Option String
  type : Option String
  deriving DecidableEq, Repr

/-- A stored patch contract. -/
structure ContractSnapshot where
  schemaVersion : Option Int
  required : Bool
  patches : List NamedPatch
  fingerprint : Option String
  deriving DecidableEq, Repr

structure ApprovedPatchContract where
  required : Bool
  patches : List (String × String)
  fingerprint : String
  deriving DecidableEq, Repr

namespace ApprovedPatchContract

/-- The loop of `normalize_patches`, on the names and roles without blanks. -/
def checkNames : List String → List (String × String) → Except String Unit
  | _, [] => .ok ()
  | seen, (name, _) :: entries =>
    if name = "" then .error "a patch entry has no name - malformed contract"
    else if name ∈ seen then
      .error s!"duplicate patch name {name} - a boundary is declared twice"
    else checkNames (name :: seen) entries

/-- `normalize_patches`. -/
def normalizePatches (entries : List (String × String)) :
    Except String (List (String × String)) := do
  checkNames [] entries
  return entries.insertionSort fun a b => a.1 < b.1 ∨ a.1 = b.1 ∧ a.2 ≤ b.2

/-- `compute_fingerprint`. -/
def computeFingerprint (required : Bool) (patches : List (String × String)) : String :=
  Sha256.hexdigest (JsonTree.dumps (.obj
    [("required", .bool required),
      ("patches", .arr (patches.map fun q => .arr [.str q.1, .str q.2]))]))

/-- The name and the role that an entry of a stored contract stands for. -/
def entry (p : NamedPatch) : String × String :=
  (Text.strip (orText p.name ""), Text.strip (orText p.role (orText p.type "")))

/-- `from_dict`. -/
def fromDict (d : ContractSnapshot) : Except String ApprovedPatchContract := do
  if d.schemaVersion ≠ some 1 then
    throw "approved_patch_contract schema_version is not supported by this code (1)"
  let patches ← normalizePatches (d.patches.map entry)
  if d.required ∧ patches = [] then throw "contract marked required but declares no patches"
  let recomputed := computeFingerprint d.required patches
  if d.fingerprint ≠ some recomputed then
    throw "approved_patch_contract fingerprint does not match its patches"
  return ⟨d.required, patches, recomputed⟩

/-- `assert_satisfied_by`. -/
def assertSatisfiedBy (c : ApprovedPatchContract) (execution : List DeclaredPatch) :
    Except String Unit := do
  let norm ← normalizePatches (execution.map fun p => (p.nameText, p.roleText))
  if !c.required then
    if norm ≠ [] then throw "approved snapshot declared NO patch contract, but the run carries some"
  else if norm ≠ c.patches then
    throw "the execution patch set does not match the approved contract exactly"

end ApprovedPatchContract

/-- A dispatch payload: the arguments of the run entry that the contract or the run's intent reads.
An argument that may be left out is `none`. -/
structure RunPayload where
  schemaVersion : Option Int
  jobId : Option String
  geometrySource : Option SourceSnapshot
  geometryInterpretation : Option InterpretationSnapshot
  requestTxt : String
  intakePatches : List DeclaredPatch
  dimensionality : String
  purpose : String
  inputKind : String
  requestedMeshFidelity : Option String
  effectiveMeshFidelity : Option String
  meshFidelitySource : Option String
  fidelityPolicyVersion : Option String
  meshEngine : String
  engineParams : PlainDict
  approvedSnapshotId : String
  approvedPatchContract : Option ContractSnapshot
  approvedIntentFingerprint : String
  requestedExtents : Option Extents
  referenceLengthM : Option PyNum
  requirementsStrict : Option Bool
  flowAxis : Option String

namespace DispatchContract

/-- `source_ref_of`. -/
def sourceRefOf (p : RunPayload) : Except String (Option GeometrySourceRef) :=
  match p.geometrySource with
  | none => .ok none
  | some snapshot => (GeometrySourceRef.fromPayload snapshot).map some

/-- `_check_geometry_pair`. -/
def checkGeometryPair (b : Builtins) (p : RunPayload) : Except String Unit :=
  match p.geometrySource, p.geometryInterpretation with
  | some _, none => .error "payload carries geometry_source but no geometry_interpretation"
  | none, some _ => .error "payload carries geometry_interpretation but no geometry_source"
  | none, none => .ok ()
  | some source, some interpretation => do
    let source ← GeometrySourceRef.fromPayload source
    let interpretation ← GeometryInterpretationRef.fromPayload b interpretation
    if interpretation.geometrySourceId ≠ source.sourceId then
      throw "the geometry interpretation describes another source than the payload carries"

/-- `_check_patch_contract`. -/
def checkPatchContract (p : RunPayload) : Except String Unit := do
  match p.approvedPatchContract with
  | some snapshot =>
    let contract ← ApprovedPatchContract.fromDict snapshot
    contract.assertSatisfiedBy p.intakePatches
  | none =>
    if Text.strip p.approvedSnapshotId ≠ "" then
      throw "this run comes from an approved snapshot but carries no typed approved_patch_contract"

/-- The fields that the fingerprint is computed from again; the interpretation is not among them. -/
def intentFields (p : RunPayload) (sourceRef : Option GeometrySourceRef) :
    AdmissionToken.IntentFields where
  engine := p.meshEngine
  purpose := p.purpose
  inputKind := p.inputKind
  dimensionality := p.dimensionality
  patches := p.intakePatches
  engineParams := p.engineParams
  requestTxt := p.requestTxt
  requestedMeshFidelity := p.requestedMeshFidelity
  effectiveMeshFidelity := p.effectiveMeshFidelity
  meshFidelitySource := p.meshFidelitySource
  fidelityPolicyVersion := p.fidelityPolicyVersion
  requestedExtents := p.requestedExtents
  referenceLengthM := p.referenceLengthM
  requirementsStrict := p.requirementsStrict.getD false
  flowAxis := p.flowAxis
  sourceRef := sourceRef
  interpretationRef := none

/-- The canonical form that `recompute_intent_fingerprint` digests. -/
def recomputedIntent (b : Builtins) (p : RunPayload) : Except String JsonTree := do
  let sourceRef ← sourceRefOf p
  AdmissionToken.approvedIntentCanonical b (intentFields p sourceRef)

/-- `recompute_intent_fingerprint`. -/
def recomputeIntentFingerprint (b : Builtins) (p : RunPayload) : Except String String := do
  let canonical ← recomputedIntent b p
  return AdmissionToken.fingerprint canonical

/-- `_check_intent_fingerprint`. -/
def checkIntentFingerprint (b : Builtins) (p : RunPayload) : Except String Unit := do
  let stored := Text.strip p.approvedIntentFingerprint
  if stored = "" then
    if Text.strip p.approvedSnapshotId ≠ "" then
      throw "this run comes from an approved snapshot but carries no approved_intent_fingerprint"
  else
    let recomputed ← recomputeIntentFingerprint b p
    if recomputed ≠ stored then
      throw "the run's approved intent does not match its fingerprint"

/-- `validate`. -/
def validate (b : Builtins) (p : RunPayload) : Except String Unit := do
  if p.schemaVersion ≠ some 2 then throw "payload schema_version is not 2 - refusing to run it"
  if p.jobId = none then throw "payload is missing required key(s): ['job_id']"
  checkGeometryPair b p
  checkPatchContract p
  checkIntentFingerprint b p

end DispatchContract

end MeshPipeline

/-!
## What a run gets

The request that the run entry builds from its arguments, with the defaults of its signature, and what
a mesher reads of a declared patch.
-/

namespace MeshPipeline

/-- The measures of a port. -/
structure PortMeasures where
  sizes : List JsonTree
  nearMm : Option (List JsonTree)
  interchangeable : List String

/-- What a mesher reads of a patch: its name, its type, and the measures of a port. -/
structure MesherPatch where
  name : String
  type : String
  port : Option PortMeasures

namespace DeclaredPatch

/-- The measures, with the keys of any dictionary in order. -/
def measures (p : DeclaredPatch) : PortMeasures where
  sizes := [p.diameterMm, p.areaMm2, p.innerDiameterMm, p.outerDiameterMm, p.widthMm,
    p.heightMm].map JsonTree.sorted
  nearMm := p.nearMm.map fun near => near.map JsonTree.sorted
  interchangeable := p.interchangeable

/-- A patch as a mesher reads it: a port is known by its `type`. -/
def read (p : DeclaredPatch) : MesherPatch where
  name := p.nameText
  type := p.typeText
  port := if p.typeText ∈ portWords then some p.measures else none

end DeclaredPatch

/-- `JobRequest`, the fields that decide what is meshed. -/
structure JobRequest where
  meshEngine : String
  purpose : String
  inputKind : String
  dimensionality : String
  fidelity : FidelityRecord
  requestedExtents : Option Extents
  referenceLengthM : Option PyFloat
  requirementsStrict : Bool
  flowAxis : Option String
  engineParams : PlainDict
  geometrySource : Option GeometrySourceRef
  geometryInterpretation : Option GeometryInterpretationRef
  intakePatches : List DeclaredPatch

namespace JobRequest

/-- The interpretation that a run parses. -/
def interpretationOf (b : Builtins) (p : RunPayload) :
    Except String (Option GeometryInterpretationRef) :=
  match p.geometryInterpretation with
  | none => .ok none
  | some snapshot => (GeometryInterpretationRef.fromPayload b snapshot).map some

/-- A field of the preference as the run entry passes it on. -/
def given (value : Option String) : Option String :=
  value.bind fun v => if v = "" then none else some v

/-- `to_run_kwargs`, `run_pipeline` and `JobRequest`: strictness that is left out is on. -/
def ofPayload (b : Builtins) (p : RunPayload) : Except String JobRequest := do
  let source ← DispatchContract.sourceRefOf p
  let interpretation ← interpretationOf b p
  let fidelity ← match given p.effectiveMeshFidelity, given p.meshFidelitySource with
    | some effective, some source =>
      fidelityRecord p.requestedMeshFidelity (some effective) (some source) p.fidelityPolicyVersion
    | _, _ => fidelityRecord p.requestedMeshFidelity none none p.fidelityPolicyVersion
  return {
    meshEngine := Text.key p.meshEngine
    purpose := Text.strip p.purpose
    inputKind := Text.strip p.inputKind
    dimensionality := p.dimensionality
    fidelity := fidelity
    requestedExtents := p.requestedExtents
    referenceLengthM := p.referenceLengthM.map b.float
    requirementsStrict := p.requirementsStrict.getD true
    flowAxis := AdmissionToken.flowAxisText p.flowAxis
    engineParams := p.engineParams
    geometrySource := source
    geometryInterpretation := interpretation
    intakePatches := p.intakePatches }

/-- Two runs get the same of everything that a mesh depends on. -/
structure Same (b : Builtins) (r s : JobRequest) : Prop where
  meshEngine : r.meshEngine = s.meshEngine
  purpose : r.purpose = s.purpose
  inputKind : r.inputKind = s.inputKind
  dimensionality : r.dimensionality = s.dimensionality
  fidelity : r.fidelity = s.fidelity
  extents : ∀ direction, (AdmissionToken.givenExtents b r.requestedExtents).lookup direction =
    (AdmissionToken.givenExtents b s.requestedExtents).lookup direction
  referenceLengthM : r.referenceLengthM = s.referenceLengthM
  requirementsStrict : r.requirementsStrict = s.requirementsStrict
  flowAxis : r.flowAxis = s.flowAxis
  engineParams : ∀ key, (r.engineParams.entries.lookup key).map JsonTree.sorted =
    (s.engineParams.entries.lookup key).map JsonTree.sorted
  bytes : r.geometrySource.map (fun ref => (ref.sourceId, ref.sha256, ref.sizeBytes)) =
    s.geometrySource.map (fun ref => (ref.sourceId, ref.sha256, ref.sizeBytes))
  meaning : r.geometryInterpretation.map (fun ref => (ref.unit, ref.scaleToMetres)) =
    s.geometryInterpretation.map (fun ref => (ref.unit, ref.scaleToMetres))
  patches : (r.intakePatches.map DeclaredPatch.read).Perm (s.intakePatches.map DeclaredPatch.read)

end JobRequest

end MeshPipeline
