import MeshPipeline.Library.JsonText
import MeshPipeline.Library.Text

/-!
# The parts of an approved intent

The mesh detail preference with its consistency rules, and the two references that a run carries for
its geometry: which bytes they are, and what one unit of them means.
-/

namespace MeshPipeline

/-- A number of a payload. -/
inductive PyNum
  | int (i : Int)
  | float (f : PyFloat)
  deriving DecidableEq

/-- What the code takes from its libraries: the float of an integer, the normal form NFC, and whether
the registry knows an engine with a deliverable. -/
structure Builtins where
  floatOfInt : Int → PyFloat
  nfc : String → String
  deliverable : String → Bool

/-- `float(value)`. -/
def Builtins.float (b : Builtins) : PyNum → PyFloat
  | .int i => b.floatOfInt i
  | .float f => f

/-! ## The mesh detail preference -/

inductive MeshFidelity
  | draft | standard | max
  deriving DecidableEq, Repr

inductive MeshFidelitySource
  | user | default
  deriving DecidableEq, Repr

namespace MeshFidelity

def value : MeshFidelity → String
  | .draft => "draft"
  | .standard => "standard"
  | .max => "max"

/-- `MeshFidelity(value)`. -/
def ofValue? (s : String) : Option MeshFidelity :=
  [MeshFidelity.draft, .standard, .max].find? fun m => m.value == s

/-- `DEFAULT_MESH_FIDELITY`. -/
def default : MeshFidelity := .standard

/-- `FIDELITY_POLICY_VERSION`. -/
def policyVersion : String := "3tier-v1"

end MeshFidelity

namespace MeshFidelitySource

def value : MeshFidelitySource → String
  | .user => "user"
  | .default => "default"

end MeshFidelitySource

/-- The four recorded fields of the preference. -/
structure FidelityRecord where
  requested : Option String
  effective : String
  source : String
  policyVersion : String
  deriving DecidableEq, Repr

/-- `canonical_mesh_fidelity`. -/
def canonicalMeshFidelity (value : Option String) : Except String (Option MeshFidelity) :=
  match value with
  | none => .ok none
  | some value =>
    let raw := Text.key value
    if raw = "" then .ok none
    else
      match MeshFidelity.ofValue? raw with
      | some m => .ok (some m)
      | none => .error s!"mesh detail preference {value} is not one of draft, standard, max"

/-- `resolve_mesh_fidelity`. -/
def resolveMeshFidelity (requested : Option String) :
    Except String (Option MeshFidelity × MeshFidelity × MeshFidelitySource) := do
  match ← canonicalMeshFidelity requested with
  | none => return (none, .default, .default)
  | some m => return (some m, m, .user)

/-- `assert_fidelity_consistent`: the trio is one that the resolver could have made, under the
policy of this code. -/
def FidelityRecord.Consistent (r : FidelityRecord) : Prop :=
  (r.source = "user" ∧ r.requested = some r.effective ∨
      r.source = "default" ∧ r.requested = none ∧ r.effective = MeshFidelity.default.value) ∧
    (MeshFidelity.ofValue? r.effective).isSome ∧ r.policyVersion = MeshFidelity.policyVersion

instance (r : FidelityRecord) : Decidable r.Consistent := by
  unfold FidelityRecord.Consistent
  infer_instance

/-- The fidelity fields of a payload, resolved from the requested one when the other two are not
given. -/
def fidelityRecord (requested effective source policyVersion : Option String) :
    Except String FidelityRecord := do
  let policyVersion := match policyVersion with
    | some v => if v = "" then MeshFidelity.policyVersion else v
    | none => MeshFidelity.policyVersion
  let record ← match effective, source with
    | some effective, some source => do
      let requested ← canonicalMeshFidelity requested
      pure ⟨requested.map MeshFidelity.value, Text.key effective, Text.key source, policyVersion⟩
    | _, _ => do
      let (requested, effective, source) ← resolveMeshFidelity requested
      pure ⟨requested.map MeshFidelity.value, effective.value, source.value, policyVersion⟩
  if record.Consistent then return record
  else throw "the mesh detail preference is not one that the policy of this code makes"

/-! ## The geometry -/

/-- `_HEX64`, whose `$` also stands before a last line break. -/
def isHex64 (s : String) : Bool :=
  let digits := if s.toList.getLast? = some '\n' then s.toList.dropLast else s.toList
  digits.length == 64 && digits.all fun c => c.isDigit || ('a' ≤ c && c ≤ 'f')

/-- The snapshot of a source in a payload. -/
structure SourceSnapshot where
  sourceId : Option String
  ownerId : Option String
  objectKey : Option String
  sha256 : Option String
  sizeBytes : Option Int
  originalFilename : String
  suffixHint : String
  deriving DecidableEq, Repr

structure GeometrySourceRef where
  sourceId : String
  ownerId : String
  objectKey : String
  sha256 : String
  sizeBytes : Int
  originalFilename : String
  suffixHint : String
  hex : isHex64 sha256
  positive : 0 < sizeBytes
  required : ∀ s ∈ [sourceId, ownerId, objectKey], Text.strip s ≠ ""

namespace GeometrySourceRef

/-- `from_payload`. -/
def fromPayload (d : SourceSnapshot) : Except String GeometrySourceRef :=
  match d.sourceId, d.ownerId, d.objectKey, d.sha256, d.sizeBytes with
  | some sourceId, some ownerId, some objectKey, some sha256, some sizeBytes =>
    if hex : isHex64 sha256 then
      if positive : 0 < sizeBytes then
        if required : ∀ s ∈ [sourceId, ownerId, objectKey], Text.strip s ≠ "" then
          .ok ⟨sourceId, ownerId, objectKey, sha256, sizeBytes, d.originalFilename, d.suffixHint,
            hex, positive, required⟩
        else .error "source source_id, owner_id and object_key are required"
      else .error "source size_bytes must be positive"
    else .error "source sha256 must be 64 lowercase hex characters"
  | _, _, _, _, _ => .error "geometry source snapshot is missing a field"

/-- `identity`. -/
def identity (r : GeometrySourceRef) : List (String × JsonTree) :=
  [("source_id", .str r.sourceId), ("sha256", .str r.sha256), ("size_bytes", .int r.sizeBytes),
    ("suffix_hint", .str r.suffixHint)]

end GeometrySourceRef

inductive LengthUnit
  | metre | millimetre | centimetre | inch
  deriving DecidableEq, Repr

namespace LengthUnit

def value : LengthUnit → String
  | .metre => "m"
  | .millimetre => "mm"
  | .centimetre => "cm"
  | .inch => "in"

def ofValue? (s : String) : Option LengthUnit :=
  [LengthUnit.metre, .millimetre, .centimetre, .inch].find? fun u => u.value == s

/-- `SCALE_TO_METRES`. -/
def scaleToMetres : LengthUnit → PyFloat
  | .metre => ⟨['1', '.', '0'], ⟨'1', rfl, by decide⟩, by simp [JsonTree.delimiters],
      ⟨'.', by simp, by decide⟩⟩
  | .millimetre => ⟨['0', '.', '0', '0', '1'], ⟨'0', rfl, by decide⟩, by simp [JsonTree.delimiters],
      ⟨'.', by simp, by decide⟩⟩
  | .centimetre => ⟨['0', '.', '0', '1'], ⟨'0', rfl, by decide⟩, by simp [JsonTree.delimiters],
      ⟨'.', by simp, by decide⟩⟩
  | .inch => ⟨['0', '.', '0', '2', '5', '4'], ⟨'0', rfl, by decide⟩, by simp [JsonTree.delimiters],
      ⟨'.', by simp, by decide⟩⟩

end LengthUnit

/-- The values of `ResolutionBasis`. -/
def resolutionBases : List String := ["file_declared", "user_confirmed"]

/-- The snapshot of an interpretation in a payload. -/
structure InterpretationSnapshot where
  interpretationId : Option String
  geometrySourceId : Option String
  unit : Option String
  scaleToMetres : Option PyNum
  basis : Option String
  evidence : String
  deriving DecidableEq

/-- What the coordinates of a source mean. Its scale is the one that its unit defines. -/
structure GeometryInterpretationRef where
  interpretationId : String
  geometrySourceId : String
  unit : LengthUnit
  scaleToMetres : PyFloat
  basis : String
  evidence : String
  required : ∀ s ∈ [interpretationId, geometrySourceId], Text.strip s ≠ ""
  scale : scaleToMetres = unit.scaleToMetres
  based : basis ∈ resolutionBases

namespace GeometryInterpretationRef

/-- `from_payload`. -/
def fromPayload (b : Builtins) (d : InterpretationSnapshot) :
    Except String GeometryInterpretationRef :=
  match d.interpretationId, d.geometrySourceId, d.unit, d.scaleToMetres, d.basis with
  | some interpretationId, some geometrySourceId, some unit, some scale, some basis =>
    if required : ∀ s ∈ [interpretationId, geometrySourceId], Text.strip s ≠ "" then
      match LengthUnit.ofValue? unit with
      | none => .error s!"unsupported geometry unit {unit}"
      | some unit =>
        if based : basis ∈ resolutionBases then
          if hscale : b.float scale = unit.scaleToMetres then
            .ok ⟨interpretationId, geometrySourceId, unit, b.float scale, basis, d.evidence,
              required, hscale, based⟩
          else .error s!"the scale does not match {unit.value}"
        else .error s!"unsupported resolution basis {basis}"
    else .error "interpretation interpretation_id and geometry_source_id are required"
  | _, _, _, _, _ => .error "geometry interpretation snapshot is missing a field"

/-- `identity`. -/
def identity (r : GeometryInterpretationRef) : List (String × JsonTree) :=
  [("interpretation_id", .str r.interpretationId), ("geometry_source_id", .str r.geometrySourceId),
    ("unit", .str r.unit.value), ("scale_to_metres", .float r.scaleToMetres),
    ("basis", .str r.basis)]

end GeometryInterpretationRef

end MeshPipeline
