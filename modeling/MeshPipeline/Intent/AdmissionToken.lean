import MeshPipeline.Intent.Contracts
import MeshPipeline.Library.Sha256

/-!
# The approved intent and its fingerprint

The canonical form of everything a user approved, and the digest of its text. Strings are taken
without surrounding blanks, a patch by its name and its role or else its type, the measures of a patch
only when that word names a port.
-/

namespace MeshPipeline

/-- A dictionary with plain values. -/
structure PlainDict where
  entries : List (String × JsonTree)
  nodup : (entries.map Prod.fst).Nodup

/-- The requested multiples of the reference length, by direction. -/
structure Extents where
  entries : List (String × Option PyNum)
  nodup : (entries.map Prod.fst).Nodup

/-- A declared patch; a measure that is not given is null. -/
structure DeclaredPatch where
  name : Option String
  role : Option String
  type : Option String
  diameterMm : JsonTree
  areaMm2 : JsonTree
  innerDiameterMm : JsonTree
  outerDiameterMm : JsonTree
  widthMm : JsonTree
  heightMm : JsonTree
  nearMm : Option (List JsonTree)
  interchangeableWith : List String

/-- `value or other`, of texts. -/
def orText (value : Option String) (other : String) : String :=
  match value with
  | some s => if s = "" then other else s
  | none => other

namespace DeclaredPatch

/-- `(p.get("name") or "").strip()`. -/
def nameText (p : DeclaredPatch) : String := Text.strip (orText p.name "")

/-- `(p.get("role") or p.get("type") or "").strip()`. -/
def roleText (p : DeclaredPatch) : String := Text.strip (orText p.role (orText p.type ""))

/-- `(p.get("type") or "").strip()`. -/
def typeText (p : DeclaredPatch) : String := Text.strip (orText p.type "")

/-- The names of the other ports, without blanks and in order. -/
def interchangeable (p : DeclaredPatch) : List String :=
  (p.interchangeableWith.map Text.strip).insertionSort (· ≤ ·)

end DeclaredPatch

/-- The words that make a patch a port. -/
def portWords : List String := ["inlet", "outlet"]

namespace AdmissionToken

/-- `canonical_payload`. -/
def canonicalPayload (engine purpose inputKind dimensionality : String)
    (patches : List DeclaredPatch) (engineParams : PlainDict) : List (String × JsonTree) :=
  let named := (patches.map fun p => (p.nameText, p.roleText)).insertionSort fun a b =>
    a.1 < b.1 ∨ a.1 = b.1 ∧ a.2 ≤ b.2
  [("engine", .str (Text.key engine)), ("purpose", .str (Text.strip purpose)),
    ("input_kind", .str (Text.strip inputKind)),
    ("dimensionality", .str (Text.strip dimensionality)),
    ("patches", .arr (named.map fun q => .obj [("name", .str q.1), ("role", .str q.2)])),
    ("engine_params", .obj (JsonTree.sortKeys engineParams.entries))]

/-- `fingerprint`. -/
def fingerprint (canonical : JsonTree) : String := Sha256.hexdigest canonical.dumps

/-- The `\r\n` and `\r` of a text as `\n`. -/
def lineBreaks : List Char → List Char
  | '\r' :: '\n' :: cs => '\n' :: lineBreaks cs
  | '\r' :: cs => '\n' :: lineBreaks cs
  | c :: cs => c :: lineBreaks cs
  | [] => []

/-- `approved_request_digest`. -/
def approvedRequestDigest (b : Builtins) (requestTxt : String) : String :=
  let raw := b.nfc (String.ofList (lineBreaks requestTxt.toList))
  let words := (raw.toList.splitOnP Text.isSpace).filter (· ≠ [])
  let norm := String.ofList (List.intercalate [' '] words)
  if norm = "" then "" else Sha256.hexdigest norm

/-- `dict.update`. -/
def update (d e : List (String × JsonTree)) : List (String × JsonTree) :=
  d.map (fun entry => (entry.1, (e.lookup entry.1).getD entry.2)) ++
    e.filter fun entry => (d.lookup entry.1).isNone

/-- `geometry_identity`. -/
def geometryIdentity (sourceRef : Option GeometrySourceRef) (revisionId : Option String)
    (interpretationRef : Option GeometryInterpretationRef) : List (String × JsonTree) :=
  let ident : List (String × JsonTree) :=
    [("identity_schema_version", .int 1), ("source_id", .str ""), ("sha256", .str ""),
      ("size_bytes", .int 0), ("suffix_hint", .str ""),
      ("revision_id", .str (Text.strip (revisionId.getD "")))]
  let ident := match sourceRef with
    | some ref => update ident ref.identity
    | none => ident
  match interpretationRef with
  | some ref => update ident ref.identity
  | none => ident

/-- `required_output_classes`. -/
def requiredOutputClasses (b : Builtins) (engine : String) : List String :=
  if Text.key engine = "" then []
  else if b.deliverable (Text.key engine) then ["mesh_bundle", "viewer_data"]
  else []

/-- The multiples that are given, as floats. -/
def givenExtents (b : Builtins) (extents : Option Extents) : List (String × PyFloat) :=
  ((extents.map (·.entries)).getD []).filterMap fun e => e.2.map fun v => (e.1, b.float v)

def ofOption {α : Type*} (f : α → JsonTree) : Option α → JsonTree
  | none => .null
  | some a => f a

/-- An entry of the port declaration. -/
def portEntry (p : DeclaredPatch) : JsonTree :=
  .obj
    [("name", .str p.nameText), ("role", .str p.roleText), ("diameter_mm", p.diameterMm),
      ("area_mm2", p.areaMm2), ("inner_diameter_mm", p.innerDiameterMm),
      ("outer_diameter_mm", p.outerDiameterMm), ("width_mm", p.widthMm),
      ("height_mm", p.heightMm), ("near_mm", ofOption .arr p.nearMm),
      ("interchangeable_with", .arr (p.interchangeable.map .str))]

/-- The port declaration: the patches whose role, or else type, names a port. -/
def portDeclaration (patches : List DeclaredPatch) : List JsonTree :=
  (((patches.filter fun p => p.roleText ∈ portWords).map fun p =>
    (p.nameText, portEntry p)).insertionSort fun a b => a.1 ≤ b.1).map Prod.snd

/-- The keyword arguments of `approved_intent_canonical` that a run's payload gives. -/
structure IntentFields where
  engine : String
  purpose : String
  inputKind : String
  dimensionality : String
  patches : List DeclaredPatch
  engineParams : PlainDict
  requestTxt : String
  requestedMeshFidelity : Option String
  effectiveMeshFidelity : Option String
  meshFidelitySource : Option String
  fidelityPolicyVersion : Option String
  requestedExtents : Option Extents
  referenceLengthM : Option PyNum
  requirementsStrict : Bool
  flowAxis : Option String
  sourceRef : Option GeometrySourceRef
  interpretationRef : Option GeometryInterpretationRef

/-- `str(flow_axis).strip().lower() if flow_axis else None`. -/
def flowAxisText (flowAxis : Option String) : Option String :=
  flowAxis.bind fun axis => if axis = "" then none else some (Text.key axis)

/-- `approved_intent_canonical`, with the fidelity fields resolved. -/
def intentEntries (b : Builtins) (f : IntentFields) (fidelity : FidelityRecord) :
    List (String × JsonTree) :=
  let extents := givenExtents b f.requestedExtents
  ("schema_version", .int 5) ::
    canonicalPayload f.engine f.purpose f.inputKind f.dimensionality f.patches f.engineParams ++
    [("requested_mesh_fidelity", ofOption .str fidelity.requested),
      ("effective_mesh_fidelity", .str fidelity.effective),
      ("mesh_fidelity_source", .str fidelity.source),
      ("fidelity_policy_version", .str fidelity.policyVersion),
      ("required_outputs", .arr ((requiredOutputClasses b f.engine).map .str)),
      ("artifact_policy_version", .str "artifacts-v2"),
      ("approved_request_digest", .str (approvedRequestDigest b f.requestTxt)),
      ("requested_extents", if extents = [] then .null
        else .obj (JsonTree.sortKeys (extents.map fun e => (e.1, .float e.2)))),
      ("reference_length_m", ofOption (fun v => .float (b.float v)) f.referenceLengthM),
      ("flow_axis", ofOption .str (flowAxisText f.flowAxis)),
      ("requirements_strict", .bool f.requirementsStrict),
      ("port_declaration", .arr (portDeclaration f.patches)),
      ("geometry", .obj (geometryIdentity f.sourceRef none f.interpretationRef))]

/-- `approved_intent_canonical`: an inconsistent preference is refused. -/
def approvedIntentCanonical (b : Builtins) (f : IntentFields) : Except String JsonTree := do
  let fidelity ← fidelityRecord f.requestedMeshFidelity f.effectiveMeshFidelity
    f.meshFidelitySource f.fidelityPolicyVersion
  return .obj (intentEntries b f fidelity)

end AdmissionToken

end MeshPipeline
