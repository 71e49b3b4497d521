import Mathlib.Logic.Function.Basic
import MeshPipeline.Application.Reconcile
import MeshPipeline.Library.Machine

/-!
# A direct upload

The client sends the bytes of a file to the store itself. A cleanup intent is there before the link
that lets it; a finish reads the stored bytes back, checks them and adopts them in one transaction
with the close of the intent, or takes them away; a sweep takes away what nobody finished. Several
finishes, sweeps and sends of one upload run side by side. What a caller waits for is a step of its
own, and any of them can be cut off.
-/

namespace MeshPipeline.DirectUpload

abbrev Bytes := List UInt8

/-- What is known of a name and of bytes: `_checked_name`, `checked_upload`, `sha256_of` and
`_MAX_FILE_BYTES`. -/
structure Checks where
  checkedName : String → Option (String × String)
  checkedUpload : Bytes → String → Option String
  sha256Of : Bytes → String
  maxFileBytes : ℕ

/-- `UPLOAD_URL_TTL`, in seconds. -/
def uploadUrlTtl : ℕ := 30 * 60

/-- `UPLOAD_HOLD`. -/
def uploadHold : ℕ := 6 * 60 * 60

/-- `MAX_CLEANUP_RETRIES`. -/
def maxCleanupRetries : ℕ := 5

/-! ## The rows -/

/-- Who a caller is; an organisation that is absent or malformed is none. -/
structure Scope where
  ownerId : String
  organizationId : Option ℕ
  deriving DecidableEq

/-- The columns of `source_object_cleanups` that are read. -/
structure SourceObjectCleanup where
  scope : Scope
  state : ReconciliationState
  retryCount : ℕ
  nextAttemptAt : Option ℕ
  createdAt : ℕ
  deriving DecidableEq

/-- The columns of `geometry_sources` that an upload writes. -/
structure GeometrySource where
  scope : Scope
  originalFilename : String
  suffixHint : String
  sha256 : String
  sizeBytes : ℕ
  deriving DecidableEq

namespace SourceObjectCleanup

/-- `_upload_query`: the tenant's, and the actor's own. -/
def VisibleTo (row : SourceObjectCleanup) (scope : Scope) : Prop :=
  row.scope.ownerId = scope.ownerId ∧
    ∀ organization ∈ scope.organizationId, row.scope.organizationId = some organization

instance (row : SourceObjectCleanup) (scope : Scope) : Decidable (row.VisibleTo scope) :=
  inferInstanceAs (Decidable (_ ∧ ∀ organization ∈ scope.organizationId, _))

/-- `record_intent`, with a hold. -/
def recordIntent (scope : Scope) (hold now : ℕ) : SourceObjectCleanup :=
  ⟨scope, .pending, 0, some (now + hold), now⟩

/-- `resolve`. -/
def resolve (row : SourceObjectCleanup) (state : ReconciliationState) : SourceObjectCleanup :=
  { row with
    state := state
    nextAttemptAt := if state = .pending then row.nextAttemptAt else none }

/-- `record_failure`. -/
def recordFailure (row : SourceObjectCleanup) : SourceObjectCleanup :=
  { row with
    retryCount := row.retryCount + 1
    state := if maxCleanupRetries ≤ row.retryCount + 1 then .abandoned else row.state }

/-- `claim_pending`: due by the clock of the database. -/
def Due (row : SourceObjectCleanup) (now : ℕ) : Prop :=
  row.state = .pending ∧ ∀ t ∈ row.nextAttemptAt, t ≤ now

instance (row : SourceObjectCleanup) (now : ℕ) : Decidable (row.Due now) :=
  inferInstanceAs (Decidable (_ ∧ ∀ t ∈ row.nextAttemptAt, t ≤ now))

end SourceObjectCleanup

/-! ## The calls -/

/-- What a finish answers. -/
inductive Answer
  | unsupported | lookupFailed | notFound | expired | notArrived | storeDown | empty | tooLarge
  | refused | changed | quotaReached | notRecorded | replayed | finished
  deriving DecidableEq

/-- What a finish knows of the bytes it read. -/
structure Checked where
  suffix : String
  digest : String
  counted : ℕ
  deriving DecidableEq

inductive Stage
  | begun
  | opened
  | sized (size : ℕ)
  | checked (c : Checked)
  /-- The intent is locked, and pending. -/
  | adopting (c : Checked)
  | refusing (why : Answer)
  /-- The intent is locked, and the object is still to be deleted. -/
  | discarding (why : Answer)
  /-- The object is deleted, and the intent still to be closed. -/
  | discarded (why : Answer)
  | answered (answer : Answer)
  deriving DecidableEq

/-- A call of `finalize_direct_upload`. -/
structure Finish where
  scope : Scope
  filename : String
  suffix : String
  stage : Stage
  deriving DecidableEq

/-- The turn of the intent in `reclaim_orphan_source_objects`, up to the commit of the pass. -/
inductive Sweep
  | claimed
  | unowned
  | present
  | settled (row : SourceObjectCleanup)
  deriving DecidableEq

inductive Call
  | finish (f : Finish)
  | sweep (turn : Sweep)
  deriving DecidableEq

/-- The call has the lock on the intent. -/
def Call.holds : Call → Bool
  | .finish ⟨_, _, _, .adopting _⟩ | .finish ⟨_, _, _, .discarding _⟩
  | .finish ⟨_, _, _, .discarded _⟩ | .sweep _ => true
  | _ => false

/-- What becomes of a commit: one that raises may have been made. -/
inductive CommitAnswer
  | done | failed | lost
  deriving DecidableEq

def CommitAnswer.lands : CommitAnswer → Bool
  | .done | .lost => true
  | .failed => false

/-- What a call that waits is told: whether it is answered at all, whether the quota leaves room,
and what becomes of a delete and of a commit. -/
structure Reply where
  answers : Bool
  quota : Bool
  delete : Reconcile.DeleteAnswer
  commit : CommitAnswer
  deriving DecidableEq

/-- Everybody answers, and what is asked is done. -/
def Reply.allDone : Reply := ⟨true, true, .done, .done⟩

/-! ## The world of one upload -/

abbrev CallId := ℕ

structure World where
  now : ℕ
  intent : Option SourceObjectCleanup
  source : Option GeometrySource
  object : Option Bytes
  /-- The link is still to be signed. -/
  signing : Bool
  linkUntil : Option ℕ
  /-- How many sends are under way. -/
  sends : ℕ
  lock : Option CallId
  calls : CallId → Option Call

inductive Op
  | tick (seconds : ℕ)
  | begin (scope : Scope)
  | sign (signed : Bool) (reply : Reply)
  | send
  /-- A send ends: its bytes are stored, or it is given up. -/
  | land (data : Option Bytes)
  | finish (s : CallId) (scope : Scope) (filename : String)
  | claim (s : CallId)
  | go (s : CallId) (reply : Reply)
  | cut (s : CallId)
  deriving DecidableEq

namespace World

def start : World := ⟨0, none, none, none, false, none, 0, none, fun _ => none⟩

def setCall (w : World) (s : CallId) (c : Option Call) : World :=
  { w with calls := Function.update w.calls s c }

/-- The call takes the lock. -/
def acquire (w : World) (s : CallId) (c : Call) : World :=
  { w.setCall s (some c) with lock := some s }

/-- The transaction of the call is over. -/
def release (w : World) (s : CallId) (c : Option Call) : World :=
  { w.setCall s c with lock := none }

/-- `get_upload_for_owner`. -/
def getUploadForOwner (w : World) (scope : Scope) : Option SourceObjectCleanup :=
  w.intent.filter fun row => row.VisibleTo scope

/-- What the state of the intent comes to for a finish, when it is not pending. -/
def settledAnswer : Option ReconciliationState → Answer
  | none => .notFound
  | some .resolvedAdopted => .replayed
  | some _ => .expired

def intentState (w : World) (scope : Scope) : Option ReconciliationState :=
  (w.getUploadForOwner scope).map (·.state)

end World

namespace Finish

def at_ (f : Finish) (stage : Stage) : Call := .finish { f with stage := stage }

/-- The row that `_adopt` adds. -/
def source (f : Finish) (c : Checked) : GeometrySource :=
  ⟨f.scope, f.filename, c.suffix, c.digest, c.counted⟩

/-- Whose upload, and is it still open. -/
def look (w : World) (f : Finish) (reply : Reply) : Stage :=
  if reply.answers then
    if w.intentState f.scope = some .pending then .opened
    else .answered (World.settledAnswer (w.intentState f.scope))
  else .answered .lookupFailed

/-- What arrived. -/
def stat (C : Checks) (w : World) (reply : Reply) : Stage :=
  if reply.answers then
    match w.object with
    | none => .answered .notArrived
    | some data =>
      if data.length = 0 then .refusing .empty
      else if C.maxFileBytes < data.length then .refusing .tooLarge
      else .sized data.length
  else .answered .storeDown

/-- Read it back and check it. -/
def check (C : Checks) (w : World) (f : Finish) (size : ℕ) (reply : Reply) : Stage :=
  if reply.answers then
    match w.object with
    | none => .answered .notArrived
    | some data =>
      match C.checkedUpload data f.suffix with
      | none => .refusing .refused
      | some suffix =>
        if data.length = size then .checked ⟨suffix, C.sha256Of data, data.length⟩
        else .refusing .changed
  else .answered .storeDown

/-- `lock_upload_for_owner` in `_adopt`; it waits for the lock. -/
def lockToAdopt (w : World) (s : CallId) (f : Finish) (c : Checked) (reply : Reply) :
    Option World :=
  if reply.answers then
    if w.lock.isSome then none
    else if w.intentState f.scope = some .pending then some (w.acquire s (f.at_ (.adopting c)))
    else some (w.setCall s (f.at_ (.answered (World.settledAnswer (w.intentState f.scope)))))
  else some (w.setCall s (f.at_ (.answered .notRecorded)))

/-- The rest of `_adopt`: the quota, the source row, and the close of the intent with it. -/
def adopt (w : World) (s : CallId) (f : Finish) (c : Checked) (reply : Reply) : World :=
  if reply.answers then
    if reply.quota then
      let answer := if reply.commit = .done then Answer.finished else .notRecorded
      let w' := w.release s (f.at_ (.answered answer))
      if reply.commit.lands then
        { w' with
          source := some (f.source c)
          intent := w.intent.map (·.resolve .resolvedAdopted) }
      else w'
    else w.release s (f.at_ (.answered .quotaReached))
  else w.release s (f.at_ (.answered .notRecorded))

/-- `lock_upload_for_owner` in `_discard`. -/
def lockToDiscard (w : World) (s : CallId) (f : Finish) (why : Answer) (reply : Reply) :
    Option World :=
  if reply.answers then
    if w.lock.isSome then none
    else if w.intentState f.scope = some .pending then some (w.acquire s (f.at_ (.discarding why)))
    else some (w.setCall s (f.at_ (.answered why)))
  else some (w.setCall s (f.at_ (.answered why)))

/-- The delete in `_discard`. -/
def discard (w : World) (s : CallId) (f : Finish) (why : Answer) (reply : Reply) : World :=
  match reply.delete with
  | .done => { w.setCall s (f.at_ (.discarded why)) with object := none }
  | .failed => w.release s (f.at_ (.answered why))
  | .lost => { w.release s (f.at_ (.answered why)) with object := none }

/-- The close of the intent in `_discard`. -/
def close (w : World) (s : CallId) (f : Finish) (why : Answer) (reply : Reply) : World :=
  let w' := w.release s (f.at_ (.answered why))
  if reply.commit.lands then { w' with intent := w.intent.map (·.resolve .resolvedDeleted) } else w'

/-- What a finish does next. -/
def go (C : Checks) (w : World) (s : CallId) (f : Finish) (reply : Reply) : Option World :=
  match f.stage with
  | .begun => some (w.setCall s (f.at_ (f.look w reply)))
  | .opened => some (w.setCall s (f.at_ (stat C w reply)))
  | .sized size => some (w.setCall s (f.at_ (f.check C w size reply)))
  | .checked c => f.lockToAdopt w s c reply
  | .adopting c => some (f.adopt w s c reply)
  | .refusing why => f.lockToDiscard w s why reply
  | .discarding why => some (f.discard w s why reply)
  | .discarded why => some (f.close w s why reply)
  | .answered _ => none

end Finish

namespace Sweep

/-- The delete in the sweep, and what it makes of the row. -/
def reclaim (w : World) (s : CallId) (row : SourceObjectCleanup) (reply : Reply) : World :=
  let left := if reply.delete = .done then row.resolve .resolvedDeleted else row.recordFailure
  let w' := w.setCall s (some (.sweep (.settled left)))
  if reply.delete.lands then { w' with object := none } else w'

/-- What a sweep does next with the intent it claimed. -/
def go (w : World) (s : CallId) (row : SourceObjectCleanup) (reply : Reply) : Sweep → World
  | .claimed =>
    w.setCall s (some (.sweep
      (if w.source.isSome then .settled (row.resolve .resolvedAdopted) else .unowned)))
  | .unowned =>
    w.setCall s (some (.sweep
      (if reply.answers then
        if w.object.isSome then .present else .settled (row.resolve .resolvedDeleted)
      else .settled row.recordFailure)))
  | .present => reclaim w s row reply
  | .settled left =>
    if reply.commit.lands then { w.release s none with intent := some left } else w.release s none

end Sweep

namespace World

/-- The link is signed, or the intent is closed because it could not be (`_close_intent`). -/
def sign (w : World) (signed : Bool) (reply : Reply) : Option World :=
  if w.signing then
    if signed then some { w with signing := false, linkUntil := some (w.now + uploadUrlTtl) }
    else if reply.answers && reply.commit.lands then
      if w.lock.isSome then none
      else some { w with signing := false, intent := w.intent.map (·.resolve .resolvedDeleted) }
    else some { w with signing := false }
  else none

def step (C : Checks) (w : World) : Op → Option World
  | .tick seconds => some { w with now := w.now + seconds }
  | .begin scope =>
    if w.intent.isSome then none
    else some { w with
      intent := some (.recordIntent scope uploadHold w.now), signing := true }
  | .sign signed reply => w.sign signed reply
  | .send =>
    if ∃ t ∈ w.linkUntil, w.now < t then some { w with sends := w.sends + 1 } else none
  | .land data =>
    if w.sends = 0 then none
    else some { w with sends := w.sends - 1, object := data.or w.object }
  | .finish s scope filename =>
    if (w.calls s).isSome then none
    else some (w.setCall s (some (.finish (match C.checkedName filename with
      | none => ⟨scope, filename, "", .answered .unsupported⟩
      | some (cleaned, suffix) => ⟨scope, cleaned, suffix, .begun⟩))))
  | .claim s =>
    if (w.calls s).isNone ∧ w.lock.isNone ∧ ∃ row ∈ w.intent, row.Due w.now then
      some (w.acquire s (.sweep .claimed))
    else none
  | .go s reply =>
    match w.calls s with
    | some (.finish f) => f.go C w s reply
    | some (.sweep turn) => w.intent.map fun row => turn.go w s row reply
    | none => none
  | .cut s =>
    match w.calls s with
    | some c => some (if c.holds then w.release s none else w.setCall s none)
    | none => none

def machine (C : Checks) : Transition.Machine World Op := ⟨step C⟩

end World

end MeshPipeline.DirectUpload
