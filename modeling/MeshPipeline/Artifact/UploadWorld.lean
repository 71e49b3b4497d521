import Mathlib.Logic.Function.Basic
import MeshPipeline.Application.ArtifactUploader
import MeshPipeline.Artifact.RowWorld

/-!
# The deliveries of one job

The object store, the artifact rows of a job and the calls of `upload_job_artifacts` on it. A call
takes the artifacts of its plan one after the other: it uploads, registers the row, and deletes the
object of a delivery that lost. Each of these is a step of its own, and so is the end of the call's
transaction; an upload can fail before or after the store took the bytes, a row write can raise, a
delete can fail, and a call can be cut off anywhere.
-/

namespace MeshPipeline

open ArtifactRepository ArtifactUploader

/-- Where a call stands with the artifact at the head of its plan. -/
inductive UploadPhase
  | planned
  /-- Stored and intact, with the row still to be written. -/
  | stored (object : StoredObject)
  /-- The upsert wrote nothing, and the incumbent is still to be read. -/
  | refused (object : StoredObject)
  /-- The object is to be deleted, for the delivery lost. -/
  | losing
  | raised
  deriving DecidableEq, Repr

/-- A call of `upload_job_artifacts` and the report it fills. -/
structure UploadCall where
  attempt : Nat
  generation : Nat
  plan : List Planned
  phase : UploadPhase
  delivered : List (Planned × DeliveryOutcome)
  optionalFailures : List ArtifactType
  orphans : List String
  deriving DecidableEq, Repr

/-- What becomes of an upload. -/
inductive UploadResult
  /-- It raised, and nothing was stored. -/
  | failed
  /-- It raised, and the store had taken the bytes. -/
  | lost (held : Content)
  | acknowledged (held : Content) (readBack : Bool)
  deriving DecidableEq, Repr

structure UploadWorld where
  objects : String → Option Content
  /-- The artifact rows by logical key. -/
  rows : String → ArtifactRow
  calls : Session → Option UploadCall

inductive UploadOp
  | begin (s : Session) (attempt generation : Nat) (plan : List Planned)
  | upload (s : Session) (result : UploadResult)
  | register (s : Session) (raises : Bool)
  | classify (s : Session)
  | discard (s : Session) (deletes : Bool)
  | commit (s : Session)
  | abandon (s : Session)
  deriving DecidableEq, Repr

namespace UploadCall

/-- `report.required` must not be empty. -/
def start (attempt generation : Nat) (plan : List Planned) : UploadCall :=
  ⟨attempt, generation, plan, if plan.any (·.required) then .planned else .raised, [], [], []⟩

/-- The artifact is given up: the call raises when it was required, and else goes on. -/
def fail (c : UploadCall) (p : Planned) (rest : List Planned) : UploadCall :=
  if p.required then { c with phase := .raised }
  else { c with
    plan := rest, phase := .planned, optionalFailures := c.optionalFailures ++ [p.artifactType] }

/-- The artifact is delivered. -/
def deliver (c : UploadCall) (p : Planned) (rest : List Planned) (outcome : DeliveryOutcome) :
    UploadCall :=
  { c with plan := rest, phase := .planned, delivered := c.delivered ++ [(p, outcome)] }

def row (c : UploadCall) (p : Planned) (object : StoredObject) : Artifact :=
  rowOf p object c.attempt c.generation

end UploadCall

/-- A session's transaction ends without a commit, in the middle of a delivery or after it. -/
def ArtifactRow.abandon (w : ArtifactRow) (s : Session) : ArtifactRow :=
  { w with blocked := w.blocked.filter (·.1 != s) }.rollback s

namespace UploadWorld

def empty : UploadWorld := ⟨fun _ => none, fun _ => .empty, fun _ => none⟩

def setCall (w : UploadWorld) (s : Session) (c : UploadCall) : UploadWorld :=
  { w with calls := Function.update w.calls s (some c) }

def setObject (w : UploadWorld) (key : String) (content : Option Content) : UploadWorld :=
  { w with objects := Function.update w.objects key content }

def setRow (w : UploadWorld) (logicalKey : String) (row : ArtifactRow) : UploadWorld :=
  { w with rows := Function.update w.rows logicalKey row }

/-- Steps 1 to 3 of the loop: read the source, upload it, check what was stored. -/
def upload (d : Digests) (w : UploadWorld) (s : Session) (c : UploadCall) (p : Planned)
    (rest : List Planned) (result : UploadResult) : Option UploadWorld :=
  match p.source with
  | none => some (w.setCall s (c.fail p rest))
  | some source =>
    match result with
    | .failed => some (w.setCall s (c.fail p rest))
    | .lost held => some ((w.setObject p.objectKey (some held)).setCall s (c.fail p rest))
    | .acknowledged held readBack =>
      let object := reported d p source held
      if acknowledges p source held then
        some ((w.setObject p.objectKey (some held)).setCall s { c with
          phase := if intact d p object source held readBack then .stored object else .losing })
      else none

/-- Step 4: `deliver_artifact`, up to its answer when it wrote a row. -/
def register (w : UploadWorld) (s : Session) (c : UploadCall) (p : Planned) (rest : List Planned)
    (object : StoredObject) (raises : Bool) : Option UploadWorld :=
  if raises then some (w.setCall s { c with phase := .losing })
  else
    let row := w.rows p.logicalKey
    let mine := c.row p object
    (row.step (.upsert s mine)).map fun row' =>
      (w.setRow p.logicalKey row').setCall s
        (match upsert (row.visible s) mine with
        | some written => c.deliver p rest (returned written mine)
        | none => { c with phase := .refused object })

/-- The answer of `deliver_artifact` when it wrote no row. -/
def classify (w : UploadWorld) (s : Session) (c : UploadCall) (p : Planned) (rest : List Planned)
    (object : StoredObject) : Option UploadWorld :=
  let row := w.rows p.logicalKey
  let outcome := ArtifactRepository.classify (row.visible s) (c.row p object)
  (row.step (.classify s)).map fun row' =>
    (w.setRow p.logicalKey row').setCall s
      (if outcome = .conflict then { c with phase := .losing } else c.deliver p rest outcome)

/-- `_reconcile_or_delete`; an object that could not be deleted is reported as an orphan. -/
def discard (w : UploadWorld) (s : Session) (c : UploadCall) (p : Planned) (rest : List Planned)
    (deletes : Bool) : UploadWorld :=
  if deletes then (w.setObject p.objectKey none).setCall s (c.fail p rest)
  else w.setCall s ({ c with orphans := c.orphans ++ [p.objectKey] }.fail p rest)

def endCall (w : UploadWorld) (s : Session) (ends : ArtifactRow → ArtifactRow) : UploadWorld :=
  { w with rows := fun k => ends (w.rows k), calls := Function.update w.calls s none }

def step (d : Digests) (w : UploadWorld) : UploadOp → Option UploadWorld
  | .begin s attempt generation plan =>
    if (w.calls s).isNone then some (w.setCall s (.start attempt generation plan)) else none
  | .upload s result =>
    match w.calls s with
    | some c => match c.phase, c.plan with
      | .planned, p :: rest => w.upload d s c p rest result
      | _, _ => none
    | none => none
  | .register s raises =>
    match w.calls s with
    | some c => match c.phase, c.plan with
      | .stored object, p :: rest => w.register s c p rest object raises
      | _, _ => none
    | none => none
  | .classify s =>
    match w.calls s with
    | some c => match c.phase, c.plan with
      | .refused object, p :: rest => w.classify s c p rest object
      | _, _ => none
    | none => none
  | .discard s deletes =>
    match w.calls s with
    | some c => match c.phase, c.plan with
      | .losing, p :: rest => some (w.discard s c p rest deletes)
      | _, _ => none
    | none => none
  | .commit s =>
    match w.calls s with
    | some c => match c.phase, c.plan with
      | .planned, [] => some (w.endCall s fun row => row.commit s)
      | _, _ => none
    | none => none
  | .abandon s =>
    if (w.calls s).isSome then some (w.endCall s fun row => row.abandon s) else none

def machine (d : Digests) : Transition.Machine UploadWorld UploadOp := ⟨step d⟩

end UploadWorld

end MeshPipeline
