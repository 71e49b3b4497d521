import MeshPipeline.Persistence.Models

/-!
# The approval snapshot

The record of one proposed run, the engine selection behind it, and the message that may answer it.
A snapshot is answered by exactly one message of the user: a question about it moves the expected
message on, a change withdraws it.
-/

namespace MeshPipeline

/-- The `uuid4` of a snapshot. -/
abbrev SnapshotId := Nat

inductive ApprovalStatus
  | awaiting | approved | invalidated | dispatched
  deriving DecidableEq, Repr

/-- An engine selection on the gate. -/
structure EngineSelection where
  id : String
  state : String
  expiresAt : Int
  deriving DecidableEq, Repr

namespace EngineSelection

/-- `CONFIRMED`. -/
def confirmed : String := "confirmed_selection"

/-- `NO_SELECTION`. -/
def noSelection : String := "no_selection"

/-- `state_of`. -/
def stateOf (selection : Option EngineSelection) (now : Int) : String :=
  match selection with
  | none => noSelection
  | some sel =>
    if sel.expiresAt < now then noSelection else if sel.state = "" then noSelection else sel.state

end EngineSelection

structure Approval where
  id : SnapshotId
  owner : String
  session : String
  selectionId : String
  fingerprint : String
  intentFingerprint : String
  expectedConfirmationMsgCount : Int
  deferredCount : Nat
  revivedCount : Nat
  expiresAt : Int
  status : ApprovalStatus
  invalidatedReason : String
  jobId : Option JobId
  deriving DecidableEq, Repr

namespace Approval

/-- `APPROVAL_TTL_S`. -/
def ttl : Int := seconds 1800

def create (id : SnapshotId) (owner session selectionId fingerprint intentFingerprint : String)
    (proposalMsgCount : Nat) (now : Int) : Approval where
  id := id
  owner := owner
  session := session
  selectionId := selectionId
  fingerprint := fingerprint
  intentFingerprint := intentFingerprint
  expectedConfirmationMsgCount := proposalMsgCount + 1
  deferredCount := 0
  revivedCount := 0
  expiresAt := now + ttl
  status := .awaiting
  invalidatedReason := ""
  jobId := none

/-- `is_live`. -/
def isLive (approval : Option Approval) (now : Int) : Bool :=
  approval.any fun a => a.status == .awaiting && decide (now ≤ a.expiresAt)

/-- `verify`: the snapshot that may be dispatched, or why it may not. -/
def verify (approval : Option Approval) (ownerId sessionId : String)
    (selection : Option EngineSelection) (userMsgCount : Nat) (now : Int) :
    Except String Approval :=
  match approval with
  | none => .error "there is nothing awaiting your approval"
  | some a =>
    if a.status = .dispatched then .error "that configuration has already been dispatched"
    else if a.status ≠ .awaiting then .error "that configuration is no longer awaiting approval"
    else if a.owner ≠ ownerId ∨ a.session ≠ sessionId then
      .error "that configuration belongs to a different session or owner"
    else if a.expiresAt < now then
      .error "that summary has expired - I will re-check and show you a fresh one"
    else if EngineSelection.stateOf selection now ≠ EngineSelection.confirmed then
      .error "the engine selection behind that summary is no longer confirmed"
    else if some a.selectionId ≠ selection.map (·.id) then
      .error "the engine changed after that summary was shown"
    else if (userMsgCount : Int) ≠ a.expectedConfirmationMsgCount then
      .error
        "that summary is stale - you have said something else since, so I will re-check and show you a fresh one"
    else .ok a

def defer (a : Approval) : Approval :=
  { a with
    expectedConfirmationMsgCount := a.expectedConfirmationMsgCount + 1
    deferredCount := a.deferredCount + 1 }

def invalidate (a : Approval) (reason : String) : Approval :=
  { a with status := .invalidated, invalidatedReason := reason }

/-- `_ANSWERED_WITH`. -/
def answeredWith : String := "user replied with a "

/-- `revivable`. -/
def revivable (a : Approval) (userMsgCount : Nat) (now : Int) : Bool :=
  a.status == .invalidated && answeredWith.isPrefixOf a.invalidatedReason &&
    decide (now ≤ a.expiresAt) && a.expectedConfirmationMsgCount == (userMsgCount : Int)

def revive (a : Approval) (userMsgCount : Nat) : Approval :=
  { a with
    status := .awaiting
    invalidatedReason := ""
    expectedConfirmationMsgCount := userMsgCount + 1
    revivedCount := a.revivedCount + 1 }

/-- The mark of the approval transaction. -/
def dispatch (a : Approval) (jobId : JobId) : Approval :=
  { a with status := .dispatched, jobId := some jobId }

variable {a : Approval} {ownerId sessionId : String} {selection : Option EngineSelection}
  {userMsgCount : Nat} {now : Int}

/-- The snapshot may be dispatched on the given message, by its owner and for its session. -/
structure Answerable (a : Approval) (ownerId sessionId : String)
    (selection : Option EngineSelection) (userMsgCount : Nat) (now : Int) : Prop where
  awaiting : a.status = .awaiting
  owner : a.owner = ownerId
  session : a.session = sessionId
  unexpired : now ≤ a.expiresAt
  confirmed : EngineSelection.stateOf selection now = EngineSelection.confirmed
  selected : some a.selectionId = selection.map (·.id)
  expected : a.expectedConfirmationMsgCount = userMsgCount

theorem verify_eq_ok {approval : Option Approval} :
    verify approval ownerId sessionId selection userMsgCount now = .ok a ↔
      approval = some a ∧ Answerable a ownerId sessionId selection userMsgCount now := by
  cases approval with
  | none => simp [verify]
  | some b =>
    constructor
    · intro h
      unfold verify at h
      grind [Answerable]
    · rintro ⟨hb, awaiting, rfl, rfl, unexpired, confirmed, selected, expected⟩
      cases hb
      have hunexpired : ¬ a.expiresAt < now := by omega
      simp [verify, awaiting, hunexpired, confirmed, selected, expected]

@[simp] lemma defer_id (a : Approval) : a.defer.id = a.id := rfl
@[simp] lemma defer_status (a : Approval) : a.defer.status = a.status := rfl
@[simp] lemma invalidate_id (a : Approval) (reason : String) : (a.invalidate reason).id = a.id := rfl
@[simp] lemma invalidate_status (a : Approval) (reason : String) :
    (a.invalidate reason).status = .invalidated := rfl
@[simp] lemma revive_id (a : Approval) (n : Nat) : (a.revive n).id = a.id := rfl
@[simp] lemma dispatch_id (a : Approval) (j : JobId) : (a.dispatch j).id = a.id := rfl
@[simp] lemma dispatch_status (a : Approval) (j : JobId) : (a.dispatch j).status = .dispatched := rfl

/-- A deferral moves the expected message on by one, and nothing else of the answer. -/
theorem Answerable.defer (h : Answerable a ownerId sessionId selection userMsgCount now) (n : Nat) :
    Answerable a.defer ownerId sessionId selection n now ↔ n = userMsgCount + 1 := by
  constructor
  · rintro ⟨-, -, -, -, -, -, expected⟩
    have := h.expected
    simp only [Approval.defer] at expected
    omega
  · rintro rfl
    refine ⟨h.awaiting, h.owner, h.session, h.unexpired, h.confirmed, h.selected, ?_⟩
    simp [Approval.defer, h.expected]

end Approval

end MeshPipeline
