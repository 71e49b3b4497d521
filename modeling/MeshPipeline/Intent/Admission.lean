import MeshPipeline.Intent.JobRequest

/-!
# Graph admission

The second gate. A run that has been rebuilt from its payload is checked again before any work: its
own fields are put back into a payload, with the defaults and the spelling that the request gave them,
and the fingerprint of that payload is compared with the approved one.
-/

namespace MeshPipeline

open DispatchContract

/-- `GeometrySourceRef.to_payload`. -/
def GeometrySourceRef.toPayload (r : GeometrySourceRef) : SourceSnapshot where
  sourceId := some r.sourceId
  ownerId := some r.ownerId
  objectKey := some r.objectKey
  sha256 := some r.sha256
  sizeBytes := some r.sizeBytes
  originalFilename := r.originalFilename
  suffixHint := r.suffixHint

/-- A source is read back from its own payload. -/
@[simp] lemma GeometrySourceRef.fromPayload_toPayload (r : GeometrySourceRef) :
    GeometrySourceRef.fromPayload r.toPayload = .ok r := by
  simp only [GeometrySourceRef.fromPayload, toPayload, dif_pos r.hex, dif_pos r.positive,
    dif_pos r.required]

/-- `GeometryInterpretationRef.to_payload`. -/
def GeometryInterpretationRef.toPayload (r : GeometryInterpretationRef) : InterpretationSnapshot where
  interpretationId := some r.interpretationId
  geometrySourceId := some r.geometrySourceId
  unit := some r.unit.value
  scaleToMetres := some (.float r.scaleToMetres)
  basis := some r.basis
  evidence := r.evidence

/-- A request with the approval that it carries. -/
structure ApprovedRequest extends JobRequest where
  requestTxt : String
  approvedPatchContract : Option ContractSnapshot
  approvedIntentFingerprint : String

namespace ApprovedRequest

/-- `JobRequest`, from the arguments of the run entry. -/
def ofPayload (b : Builtins) (p : RunPayload) : Except String ApprovedRequest := do
  let request ← JobRequest.ofPayload b p
  return {
    request with
    requestTxt := p.requestTxt
    approvedPatchContract := p.approvedPatchContract
    approvedIntentFingerprint := p.approvedIntentFingerprint }

/-- The payload that `check_admission` puts the fields of a request back into. -/
def payload (r : ApprovedRequest) : RunPayload where
  schemaVersion := none
  jobId := none
  geometrySource := r.geometrySource.map GeometrySourceRef.toPayload
  geometryInterpretation := r.geometryInterpretation.map GeometryInterpretationRef.toPayload
  requestTxt := r.requestTxt
  intakePatches := r.intakePatches
  dimensionality := r.dimensionality
  purpose := r.purpose
  inputKind := r.inputKind
  requestedMeshFidelity := r.fidelity.requested
  effectiveMeshFidelity := some r.fidelity.effective
  meshFidelitySource := some r.fidelity.source
  fidelityPolicyVersion := some r.fidelity.policyVersion
  meshEngine := r.meshEngine
  engineParams := r.engineParams
  approvedSnapshotId := ""
  approvedPatchContract := none
  approvedIntentFingerprint := ""
  requestedExtents := r.requestedExtents
  referenceLengthM := r.referenceLengthM.map PyNum.float
  requirementsStrict := some r.requirementsStrict
  flowAxis := r.flowAxis

/-- The patches of a request against its contract, when it carries one. -/
def checkPatches (r : ApprovedRequest) : Except String Unit :=
  match r.approvedPatchContract with
  | none => .ok ()
  | some snapshot => do
    let contract ← ApprovedPatchContract.fromDict snapshot
    contract.assertSatisfiedBy r.intakePatches

end ApprovedRequest

namespace DispatchContract

/-- `to_run_kwargs`: the payload that a run is given is validated once more. -/
def toRunKwargs (b : Builtins) (p : RunPayload) : Except String RunPayload := do
  validate b p
  return p

end DispatchContract

/-- `check_admission`: why a request is refused, if it is. -/
def checkAdmission (b : Builtins) (r : ApprovedRequest) : Except String (Option String) :=
  match r.checkPatches with
  | .error reason => .ok (some reason)
  | .ok () =>
    if r.approvedIntentFingerprint = "" then .ok none
    else do
      let recomputed ← recomputeIntentFingerprint b r.payload
      if recomputed ≠ r.approvedIntentFingerprint then
        return some "graph admission: the run's approved intent does not match its fingerprint"
      return none

/-- The run of a payload is admitted: the payload gives a request, and nothing is held against it. -/
def Admitted (b : Builtins) (p : RunPayload) : Prop :=
  ∃ kwargs r, toRunKwargs b p = .ok kwargs ∧ ApprovedRequest.ofPayload b kwargs = .ok r ∧
    checkAdmission b r = .ok none

/-! ## What storage leaves alone -/

/-- A patch with the keys of its measures in order. -/
def DeclaredPatch.ordered (p : DeclaredPatch) : DeclaredPatch where
  name := p.name
  role := p.role
  type := p.type
  diameterMm := p.diameterMm.sorted
  areaMm2 := p.areaMm2.sorted
  innerDiameterMm := p.innerDiameterMm.sorted
  outerDiameterMm := p.outerDiameterMm.sorted
  widthMm := p.widthMm.sorted
  heightMm := p.heightMm.sorted
  nearMm := p.nearMm.map fun near => near.map JsonTree.sorted
  interchangeableWith := p.interchangeableWith

/-- A payload as it comes back from storage as JSON: every value is what it was, and the keys of an
object may stand in another order. -/
structure Stored (p q : RunPayload) : Prop where
  patches : p.intakePatches.map DeclaredPatch.ordered = q.intakePatches.map DeclaredPatch.ordered
  engineParams : JsonTree.sorted (.obj p.engineParams.entries) =
    JsonTree.sorted (.obj q.engineParams.entries)
  extents : Option.Rel (fun e f => e.entries.Perm f.entries) p.requestedExtents q.requestedExtents
  rest : q = { p with
    intakePatches := q.intakePatches
    engineParams := q.engineParams
    requestedExtents := q.requestedExtents }

/-- A payload that is handed on as it is. -/
lemma Stored.refl (p : RunPayload) : Stored p p := by
  refine ⟨rfl, rfl, ?_, rfl⟩
  cases p.requestedExtents with
  | none => exact .none
  | some extents => exact .some (List.Perm.refl _)

end MeshPipeline
