import MeshPipeline.Persistence.ArtifactRepository

/-!
# What a delivery uploads

The plan of a delivery, the keys its objects are stored under, and the checks made of a stored
object before its row is written. Every key is a function of the job and the file, so two deliveries
of one job share it.
-/

namespace MeshPipeline

/-- The bytes of a file or an object. -/
abbrev Content := String

/-- The provider's checksum of an object, and the md5 that the code takes of bytes itself. -/
structure Digests where
  etag : Content → Option String
  md5Hex : Content → String

/-- What the object store answers an upload. -/
structure StoredObject where
  objectKey : String
  sizeBytes : Nat
  checksum : Option String
  deriving DecidableEq, Repr

/-- A planned artifact; `source` is `none` where there is no regular file to read, and a streamed
one is sent in chunks whose length may be known ahead. -/
structure Planned where
  artifactType : ArtifactType
  logicalKey : String
  objectKey : String
  source : Option Content
  required : Bool
  streamed : Bool
  expectBytes : Option Nat
  deriving DecidableEq, Repr

namespace ArtifactUploader

/-! ## The plan -/

def prefixOf (job : String) : String := "jobs/" ++ job ++ "/"

def meshArtifactKey (job : String) : String := prefixOf job ++ "mesh.msh"

def exportKey (job fileName : String) : String := prefixOf job ++ "exports/" ++ fileName

def viewerKey (job : String) : String := prefixOf job ++ "viewer_data.json"

def bundleKey (job bundle : String) : String := prefixOf job ++ bundle

/-- A file of the workspace, on disk or kept in the exchange bucket. -/
structure WorkspaceFile where
  content : Option Content
  streamed : Bool
  expectBytes : Option Nat

def WorkspaceFile.planned (f : WorkspaceFile) (artifactType : ArtifactType)
    (logicalKey objectKey : String) (required : Bool) : Planned :=
  ⟨artifactType, logicalKey, objectKey, f.content, required, f.streamed, f.expectBytes⟩

/-- What `_build_plan` finds in a workspace that meets its engine's contract: the boundary surface
and the solver files where they are there, the viewer payload and the bundle. -/
structure Workspace where
  surface : Option WorkspaceFile
  /-- Logical key and file name with each export. -/
  exports : List (String × String × WorkspaceFile)
  viewer : WorkspaceFile
  viewerRequired : Bool
  bundleName : String
  bundle : WorkspaceFile

/-- `_build_plan`. -/
def buildPlan (job : String) (ws : Workspace) : List Planned :=
  (ws.surface.map fun f => f.planned .mesh "mesh" (meshArtifactKey job) false).toList ++
    ws.exports.map (fun e => e.2.2.planned .mesh e.1 (exportKey job e.2.1) false) ++
    [ws.viewer.planned .viewerData "viewer_data" (viewerKey job) ws.viewerRequired,
      ws.bundle.planned .meshBundle "mesh_bundle" (bundleKey job ws.bundleName) true]

/-! ## Stored objects -/

variable (d : Digests)

/-- The answer of an upload that left `held` in the store: a file's size is the local one and its
checksum the store's, a stream's are those of the bytes that were sent. -/
def reported (p : Planned) (source held : Content) : StoredObject :=
  if p.streamed then ⟨p.objectKey, source.length, some (d.md5Hex source)⟩
  else ⟨p.objectKey, source.length, d.etag held⟩

def stripBy (drops : Char → Bool) (text : List Char) : List Char :=
  ((text.dropWhile drops).reverse.dropWhile drops).reverse

/-- `strip().strip('"').lower()`. -/
def normalized (checksum : String) : List Char :=
  (stripBy (· == '"') (stripBy Char.isWhitespace checksum.toList)).map Char.toLower

/-- An md5 in hexadecimal, as opposed to the tag of a multipart upload. -/
def md5Shaped (checksum : List Char) : Bool :=
  checksum.length == 32 && checksum.all fun c => c.isDigit || ('a' ≤ c && c ≤ 'f')

/-- `_verify_integrity`: the sizes agree, and the checksums where the store reports an md5. -/
def verifyIntegrity (stored : StoredObject) (source : Content) : Bool :=
  stored.sizeBytes == source.length &&
    match stored.checksum with
    | none => true
    | some checksum =>
      !md5Shaped (normalized checksum) || normalized checksum == (d.md5Hex source).toList

/-- `_verify_streamed`: the length the record promised was sent, and the store, when it can be read
back, holds that many. -/
def verifyStreamed (p : Planned) (stored : StoredObject) (held : Content) (readBack : Bool) :
    Bool :=
  p.expectBytes.all (· == stored.sizeBytes) && readBack && held.length == stored.sizeBytes

def intact (p : Planned) (stored : StoredObject) (source held : Content) (readBack : Bool) : Bool :=
  if p.streamed then verifyStreamed p stored held readBack else verifyIntegrity d stored source

/-- What the store may hold after it acknowledged an upload. A stream of the full length is the one
that was sent; what became of a file is left to the checks. -/
def acknowledges (p : Planned) (source held : Content) : Bool :=
  !p.streamed || held == source || held.length != source.length

/-- The row a delivery writes for a stored object. -/
def rowOf (p : Planned) (stored : StoredObject) (attempt generation : Nat) : Artifact where
  artifactType := p.artifactType
  storageKey := stored.objectKey
  sizeBytes := stored.sizeBytes
  checksum := stored.checksum
  deliveryAttempt := attempt
  executionGeneration := generation

/-- The checksum is one that the code records for an object of this content. -/
def Records (content : Content) (checksum : Option String) : Prop :=
  checksum = d.etag content ∨ checksum = some (d.md5Hex content)

instance (content : Content) (checksum : Option String) : Decidable (Records d content checksum) :=
  inferInstanceAs (Decidable (_ ∨ _))

variable {d} {p : Planned} {source held : Content} {readBack : Bool}

@[simp]
theorem reported_objectKey : (reported d p source held).objectKey = p.objectKey := by
  unfold reported
  split <;> rfl

/-- An intact upload reports a checksum of what the store holds. -/
theorem records_reported (hack : acknowledges p source held)
    (hintact : intact d p (reported d p source held) source held readBack) :
    Records d held (reported d p source held).checksum := by
  unfold reported at hintact ⊢
  by_cases hs : p.streamed
  · -- a stream that passed its check has its full length, so it is what was sent
    simp only [intact, verifyStreamed, hs, if_true, Bool.and_eq_true, beq_iff_eq] at hintact
    have heq : held = source := by
      simpa [acknowledges, hs, hintact.2] using hack
    rw [if_pos hs, heq]
    exact .inr rfl
  · rw [if_neg hs]
    exact .inl rfl

end ArtifactUploader

end MeshPipeline
