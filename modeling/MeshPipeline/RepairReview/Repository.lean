import Mathlib.Data.List.Basic
import MeshPipeline.Persistence.JobRepository
import MeshPipeline.Persistence.Models

/-!
# A parked repair and what is asked about it

A repair that left defects for a person parks with an item for each. An item is decided on its own
or covered by the answer given on another; the answers are sent to the re-run as directives.
-/

namespace MeshPipeline.RepairReview

abbrev ItemId := Nat

inductive ItemState
  | opened | accepted | left | redirected | unreviewed
  deriving DecidableEq, Repr

/-- What the repair would try next on a defect: `op` and `targets` of its dictionary. -/
structure Proposal where
  op : String
  targets : List String
  deriving DecidableEq, Repr

inductive DirectiveSource
  | engineer | replay
  deriving DecidableEq, Repr

/-- A directive of the re-run; `group` marks one that came of an answer over many defects. -/
structure Directive where
  op : String
  targets : List String
  defectCode : String
  defectFingerprint : String
  source : DirectiveSource
  itemId : Option ItemId
  group : Bool
  deriving DecidableEq, Repr

inductive Scope
  | item | group
  deriving DecidableEq, Repr

/-- The stored answer of an item. Each action has the entries that it writes. -/
inductive Decision
  | accept (proposal : Proposal)
  | leave
  | redirect (text : String) (directive : Directive) (playback : String) (scope : Scope)
  /-- `covered_by`: the answer was given on another item of the group. -/
  | covered (by' : ItemId) (text playback : String)
  | allLeave (fromItem : ItemId)
  | allAccept (proposal : Proposal)
  | allRedirect (fromItem : ItemId) (directive : Directive)
  | unreviewed
  deriving DecidableEq, Repr

/-- `RepairReviewItem`, in the fields that the answers read and write. -/
structure ReviewItem where
  id : ItemId
  groupKey : String
  defectCode : String
  fingerprint : String
  pairingKey : String
  proposal : Option Proposal
  state : ItemState
  decision : Option Decision
  decidedAt : Option Nat
  deriving DecidableEq, Repr

/-- An operation kept by the run that parked. -/
structure KeptOperation where
  name : String
  targets : List String
  defectCode : String
  source : String
  itemId : Option ItemId
  deriving DecidableEq, Repr

inductive ClosedBy
  | run | cancel
  deriving DecidableEq, Repr

/-- `RepairReviewPark` with its items. It is open until something has closed it. -/
structure ReviewPark where
  closedBy : Option ClosedBy
  keptOperations : List KeptOperation
  items : List ReviewItem
  deriving DecidableEq, Repr

namespace Decision

/-- `decision.get("covered_by")`. -/
def coveredBy : Decision → Option ItemId
  | covered by' _ _ => some by'
  | _ => none

/-- `decision.get("directive")`. -/
def directive : Decision → Option Directive
  | redirect _ d _ _ => some d
  | allRedirect _ d => some d
  | _ => none

/-- `decision.get("proposal")`. -/
def proposal : Decision → Option Proposal
  | accept q => some q
  | allAccept q => some q
  | _ => none

/-- `decision.get("scope") == "group"`. -/
def isGroup : Decision → Bool
  | redirect _ _ _ .group => true
  | covered _ _ _ => true
  | _ => false

end Decision

namespace ReviewItem

def coveredBy (i : ReviewItem) : Option ItemId := i.decision.bind Decision.coveredBy

/-- A row that a decision was recorded on. -/
def decided (i : ReviewItem) (state : ItemState) (decision : Decision) (now : Nat) : ReviewItem :=
  { i with state := state, decision := some decision, decidedAt := some now }

/-- A row that is asked again. -/
def reopened (i : ReviewItem) : ReviewItem :=
  { i with state := .opened, decision := none, decidedAt := none }

@[simp] lemma coveredBy_decided (i : ReviewItem) (state : ItemState) (d : Decision) (now : Nat) :
    (i.decided state d now).coveredBy = d.coveredBy := rfl

@[simp] lemma coveredBy_reopened (i : ReviewItem) : i.reopened.coveredBy = none := rfl

/-- Rows that ask the same, whatever they were answered. -/
lemma reopened_eq_iff {i j : ReviewItem} :
    i.reopened = j.reopened ↔ i.id = j.id ∧ i.groupKey = j.groupKey ∧
      i.defectCode = j.defectCode ∧ i.fingerprint = j.fingerprint ∧
      i.pairingKey = j.pairingKey ∧ i.proposal = j.proposal := by
  simp [reopened]

end ReviewItem

namespace ReviewPark

/-- An `UPDATE` of the items that meet `where'`. -/
def update (park : ReviewPark) (where' : ReviewItem → Bool) (set : ReviewItem → ReviewItem) :
    ReviewPark :=
  { park with items := park.items.map fun i => if where' i then set i else i }

end ReviewPark

/-- What the items ask, however they are answered: one for each defect of an entity. A group holds
the defects of one code that one operation was proposed for, and a proposal is for its own defect. -/
structure Asked (items : List ReviewItem) : Prop where
  ids : (items.map ReviewItem.id).Nodup
  defects : ∀ i ∈ items, ∀ j ∈ items, i.fingerprint ≠ "" → i.fingerprint = j.fingerprint →
    i.defectCode = j.defectCode → i.id = j.id
  groups : ∀ i ∈ items, ∀ j ∈ items, i.groupKey = j.groupKey →
    i.defectCode = j.defectCode ∧ ∀ q ∈ i.proposal, ∀ q' ∈ j.proposal, q.op = q'.op
  proposals : ∀ i ∈ items, ∀ q ∈ i.proposal, q.op ≠ "" ∧
    q.targets = if i.fingerprint = "" then [] else [i.fingerprint]

/-- A park as it is minted: open, and with nothing answered. -/
structure Minted (park : ReviewPark) : Prop where
  closedBy : park.closedBy = none
  asked : Asked park.items
  unanswered : ∀ i ∈ park.items, i.reopened = i

end MeshPipeline.RepairReview

/-!
## The rows of a review

Every write of a decision has the park's open status in its own `WHERE`.
-/

namespace MeshPipeline.RepairReview.RepairReviewRepository

inductive WriteError
  | notADecision | noItem | parkClosed
  deriving DecidableEq, Repr

/-- `record_decision`. -/
def recordDecision (park : ReviewPark) (item : ItemId) (state : ItemState) (decision : Decision)
    (now : Nat) : Except WriteError ReviewPark :=
  if state = .opened then .error .notADecision
  else if item ∉ park.items.map ReviewItem.id then .error .noItem
  else if park.closedBy ≠ none then .error .parkClosed
  else .ok (park.update (·.id == item) (·.decided state decision now))

/-- The rows that `record_group_decision` writes: the ones of a group that nobody has decided and
that have no partner. -/
def openOf (park : ReviewPark) (groupKey : String) (i : ReviewItem) : Bool :=
  i.groupKey == groupKey && i.pairingKey == "" && i.state == .opened && park.closedBy == none

/-- `record_group_decision`, which answers how many rows it wrote: here, which. -/
def recordGroupDecision (park : ReviewPark) (groupKey : String) (state : ItemState)
    (decision : Decision) (now : Nat) : List ItemId × ReviewPark :=
  ((park.items.filter (openOf park groupKey)).map ReviewItem.id,
    park.update (openOf park groupKey) (·.decided state decision now))

/-- `close_park`. -/
def closePark (park : ReviewPark) (closedBy : ClosedBy) : ReviewPark :=
  if park.closedBy = none then { park with closedBy := some closedBy } else park

/-- `reopen_park`. -/
def reopenPark (park : ReviewPark) : ReviewPark := { park with closedBy := none }

/-- `restore_open`. -/
def restoreOpen (park : ReviewPark) (items : List ItemId) : ReviewPark :=
  park.update (fun i => items.contains i.id && i.state == .unreviewed && park.closedBy == none)
    ReviewItem.reopened

/-- `reopen_covered`. -/
def reopenCovered (park : ReviewPark) (items : List ItemId) : ReviewPark :=
  park.update (fun i => items.contains i.id && i.state == .redirected && i.coveredBy.isSome &&
    park.closedBy == none) ReviewItem.reopened

end MeshPipeline.RepairReview.RepairReviewRepository

/-!
## What a review sends to the re-run

`run_review` reads the answers under the park's row lock, assembles their directives and closes the
park; a dispatch that fails is compensated.
-/

namespace MeshPipeline.RepairReview

open RepairReviewRepository

/-! ## The directives -/

/-- `_replay_directives`. -/
def replayDirectives (kept : List KeptOperation) : List Directive :=
  kept.filterMap fun op =>
    let targets := op.targets.filter (· ≠ "")
    let engineer := op.source == "engineer" && op.itemId.isSome
    if op.name = "" then none
    else targets.head?.map fun first =>
      ⟨op.name, targets, op.defectCode, first, if engineer then .engineer else .replay,
        if engineer then op.itemId else none, false⟩

/-- `_engineer_directive`. -/
def engineerDirective (item : ReviewItem) : Option Directive :=
  if item.state = .redirected then
    (item.decision.bind Decision.directive).map fun d => { d with source := .engineer }
  else
    let named := item.proposal.filter fun q => q.op != ""
    match named.orElse fun _ => item.decision.bind Decision.proposal with
    | none => none
    | some q =>
      if item.state ≠ .accepted ∨ q.op = "" then none
      else
        let own := (item.proposal.map Proposal.targets).getD []
        let targets :=
          if own ≠ [] then own else if item.fingerprint = "" then [] else [item.fingerprint]
        some ⟨q.op, targets, item.defectCode, item.fingerprint, .engineer, some item.id, false⟩

/-- `FILL_OPS`: an operation of these patches exactly one hole. -/
def fillOps : List String := ["fill_planar_hole", "fill_nonplanar_hole"]

/-- The item that answers for a target of a fill over a group. -/
def ownerOf (item : ReviewItem) (items : List ReviewItem) (fingerprint : String) : ReviewItem :=
  if item.fingerprint = fingerprint then item
  else
    ((items.filter fun m => m.fingerprint == fingerprint && m.coveredBy == some item.id).getLast?).getD
      item

/-- The fill of one hole, which the item that it answers owns. -/
def forHole (d : Directive) (owner : ReviewItem) (fingerprint : String) : Directive :=
  { d with
    targets := [fingerprint]
    defectFingerprint := fingerprint
    defectCode := if owner.defectCode = "" then d.defectCode else owner.defectCode
    itemId := some owner.id
    group := true }

/-- `_engineer_directives`: one, except a fill over a group, which is one for each hole. -/
def engineerDirectives (item : ReviewItem) (items : List ReviewItem) : List Directive :=
  match engineerDirective item with
  | none => []
  | some d =>
    let targets := d.targets.filter (· ≠ "")
    if item.state ≠ .redirected ∨ d.op ∉ fillOps ∨ targets.length < 2 then
      [if item.state = .redirected ∧ (item.decision.map Decision.isGroup).getD false then
        { d with group := true } else d]
    else
      targets.map fun fingerprint => forHole d (ownerOf item items fingerprint) fingerprint

/-- The decided items, oldest decision first. -/
def decidedOf (items : List ReviewItem) : List ReviewItem :=
  (items.filter fun i => i.state == .accepted || i.state == .redirected).mergeSort
    fun i j => i.decidedAt.getD 0 ≤ j.decidedAt.getD 0

/-- The directives of a park. -/
def directivesOf (park : ReviewPark) : List Directive :=
  replayDirectives park.keptOperations ++
    (decidedOf park.items).flatMap fun i => engineerDirectives i park.items

end MeshPipeline.RepairReview
