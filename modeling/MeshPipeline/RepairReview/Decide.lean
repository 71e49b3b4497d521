import MeshPipeline.RepairReview.Repository
import MeshPipeline.Library.Coverage
import MeshPipeline.Library.Text

/-!
# An engineer's answer

`decide` reads the items of the open park, and writes under the park's row lock what it made of that
reading. What the engineer is told of an answer is entered in a ledger.
-/

namespace MeshPipeline.RepairReview

open RepairReviewRepository

structure HttpError where
  status : Nat
  detail : String
  deriving DecidableEq, Repr

inductive Action
  | accept | leave | redirect | applyAll
  deriving DecidableEq, Repr

/-- `DecisionIn`. -/
structure DecisionIn where
  itemId : Option ItemId
  groupKey : Option String
  action : Action
  text : Option String
  deriving DecidableEq, Repr

/-! ## Reading a note -/

/-- A model's reply, with its runs of blanks taken out. -/
inductive ModelReply
  | directive (op : String) (scope : Scope) (playback : String)
  | refusal (reason : String)
  deriving DecidableEq, Repr

/-- `CATALOGUE`. -/
def catalogue : List String :=
  ["fix_small_edges", "fix_small_faces", "fix_face_boundary", "sew_faces", "fill_planar_hole",
    "fill_nonplanar_hole", "heal_self_intersections", "fix_shape_global"]

structure Interpretation where
  playback : String
  scope : Scope
  directive : Directive
  deriving DecidableEq, Repr

/-- `CATALOGUE_LIMITS`. -/
def catalogueLimits : String :=
  "the repair catalogue can only merge small edges, sweep away a few measured sliver faces, fix " ++
    "a face boundary, sew faces, fill a planar hole, cap a small curved hole with a constrained " ++
    "patch, re-trim only the faces the kernel says cross each other, or run a whole-shape fix; " ++
    "beyond those slivers it cannot move, redraw or delete geometry, change dimensions, or edit " ++
    "the part by hand"

/-- `_honest`. -/
def honest (reason : String) : String :=
  (if reason = "" then "i could not turn that into a repair" else reason) ++ "; " ++ catalogueLimits

/-- `interpret`, of the reply of a model; the error is the reason of a refusal. -/
def interpret (reply : Option ModelReply) (item : ReviewItem) (group : List ReviewItem) :
    Except String Interpretation :=
  match reply with
  | none => .error (honest "i could not read a clear answer from the model")
  | some (.refusal reason) => .error (honest reason)
  | some (.directive op scope playback) =>
    let members := if scope = .group then group else [item]
    let targets := (members.map ReviewItem.fingerprint).filter (· ≠ "")
    if op ∉ catalogue then
      .error (honest ((if op = "" then "that" else op) ++ " is not a repair operation i have"))
    else if targets = [] then .error (honest "that defect has no identity i can target")
    else
      let told := "i will try " ++ op ++ " on " ++
        if scope = .group then "every defect in this group" else "this defect"
      .ok ⟨if playback = "" then told else playback, scope,
        ⟨op, targets, item.defectCode, item.fingerprint, .engineer, some item.id, false⟩⟩

/-! ## What an answer covers -/

inductive Direction
  | accept | redirect | leave
  deriving DecidableEq, Repr

/-- `_DIRECTIONS`. -/
def directionOf : ItemState → Option Direction
  | .accepted => some .accept
  | .redirected => some .redirect
  | .left => some .leave
  | _ => none

/-- `_settled_direction`: the direction and the item it was read from. -/
def settledDirection (sampleSize : Nat) (members : List ReviewItem) :
    Option (Direction × ReviewItem) :=
  let answered := ((members.take sampleSize).filter fun m =>
    (directionOf m.state).isSome && m.decidedAt.isSome && m.coveredBy.isNone).mergeSort
      fun m m' => m.decidedAt.getD 0 ≤ m'.decidedAt.getD 0
  match (answered.filter fun m => m.state ≠ .left).getLast?, answered.getLast? with
  | some m, _ => (directionOf m.state).map (·, m)
  | none, some m => some (.leave, m)
  | none, none => none

/-- The members of its group that a redirect on `item` covers. -/
def coverable (item : ReviewItem) (items : List ReviewItem) : List ReviewItem :=
  items.filter fun m => m.groupKey == item.groupKey && m.id != item.id && m.fingerprint != "" &&
    m.pairingKey == "" && (m.state == .opened || m.coveredBy == some item.id)

/-- `_group_scope`. -/
def groupScope (item : ReviewItem) (items : List ReviewItem) (playback : String) :
    Option (List ReviewItem × String) :=
  if item.pairingKey ≠ "" then none
  else
    let paired := items.filter fun m =>
      m.groupKey == item.groupKey && m.id != item.id && m.pairingKey != ""
    some (coverable item items,
      if paired = [] then playback
      else playback ++ " - " ++ toString paired.length ++ " paired " ++
        (if paired.length = 1 then "defect" else "defects") ++ " in this group " ++
        (if paired.length = 1 then "is" else "are") ++ " left out: each one needs its own review")

/-! ## The answer -/

/-- What an answer asks for. -/
inductive Wish
  | leave
  | fix (op : String)
  deriving DecidableEq, Repr

/-- What the engineer is told, with the items that it is about. -/
inductive Told
  | applied (changed : List ItemId) (wish : Wish)
  | answered (item : ItemId) (wish : Wish) (covered : List ItemId)
  | refusal (reason : String)
  deriving DecidableEq, Repr

/-- What an answer will write, as it was made of what was read. -/
inductive Plan
  | refusal (reason : String)
  | allLeave (groupKey : String) (settledOn : ItemId)
  | allAccept (groupKey : String) (proposal : Option Proposal)
  | allRedirect (settledOn : ItemId) (shape : Option Directive) (rest : List ReviewItem)
  | answer (item : ItemId) (state : ItemState) (decision : Decision) (wish : Wish)
      (covered : List ItemId) (text playback : String) (orphaned : List ItemId)
  deriving DecidableEq, Repr

/-- The item that a plan answers on its own. -/
def Plan.answers : Plan → Option ItemId
  | .answer item _ _ _ _ _ _ _ => some item
  | _ => none

/-- The plan of `apply_all`. -/
def planAll (sampleSize : Nat) (items : List ReviewItem) (groupKey : String) :
    Except HttpError Plan :=
  let members := items.filter fun m => m.groupKey == groupKey
  if members = [] then .error ⟨404, "Review group not found"⟩
  else if members.any fun m => m.pairingKey != "" then
    .error ⟨409, "This group holds paired defects; decide each one on its own"⟩
  else
    match settledDirection sampleSize members with
    | none =>
      .error ⟨409, "Answer the sample first; apply-all repeats what you decided there"⟩
    | some (.leave, settledOn) => .ok (.allLeave groupKey settledOn.id)
    | some (.redirect, settledOn) =>
      .ok (.allRedirect settledOn.id (settledOn.decision.bind Decision.directive)
        (members.filter fun m => m.state == .opened && m.fingerprint != ""))
    | some (.accept, _) => .ok (.allAccept groupKey (members.findSome? ReviewItem.proposal))

/-- The items that an earlier answer on `item` covered and this one does not. -/
def orphanedBy (item : ReviewItem) (items : List ReviewItem) (covered : List ItemId) :
    List ItemId :=
  (items.filter fun m => !covered.contains m.id && m.coveredBy == some item.id).map ReviewItem.id

/-- The plan of a redirect. -/
def planRedirect (items : List ReviewItem) (item : ReviewItem) (text : String)
    (reply : Option ModelReply) : Except HttpError Plan :=
  if text = "" then .error ⟨422, "Say what you want tried instead"⟩
  else
    match interpret reply item (items.filter fun m => m.groupKey == item.groupKey) with
    | .error reason => .ok (.refusal reason)
    | .ok interp =>
      match interp.scope with
      | .item =>
        .ok (.answer item.id .redirected
          (.redirect text interp.directive interp.playback .item) (.fix interp.directive.op) []
          text interp.playback (orphanedBy item items []))
      | .group =>
        match groupScope item items interp.playback with
        | none =>
          .ok (.refusal ("this defect is one of a pair, and the answer for one changes what its " ++
            "partner means, so it can't cover the group - say what to do with this one alone"))
        | some (covered, playback) =>
          let directive := { interp.directive with
            targets := (item.fingerprint :: covered.map ReviewItem.fingerprint).filter (· ≠ "") }
          .ok (.answer item.id .redirected (.redirect text directive playback .group)
            (.fix directive.op) (covered.map ReviewItem.id) text playback
            (orphanedBy item items (covered.map ReviewItem.id)))

/-- The plan of an answer on one item. -/
def planOne (items : List ReviewItem) (body : DecisionIn) (reply : Option ModelReply) :
    Except HttpError Plan :=
  match items.find? fun i => some i.id == body.itemId with
  | none => .error ⟨404, "Review item not found"⟩
  | some item =>
    match body.action with
    | .redirect => planRedirect items item (Text.strip (body.text.getD "")) reply
    | .accept =>
      match item.proposal.filter fun q => q.op != "" with
      | none =>
        .error ⟨409, "Nothing was proposed for this defect; leave it or redirect it"⟩
      | some q =>
        .ok (.answer item.id .accepted (.accept q) (.fix q.op) [] "" "" (orphanedBy item items []))
    | _ => .ok (.answer item.id .left .leave .leave [] "" "" (orphanedBy item items []))

def closed : HttpError := ⟨409, "This review is already closed"⟩

/-- Rows that are decided one after the other. -/
def recordEach (state : ItemState) (now : Nat) : List (ItemId × Decision) → ReviewPark →
    Except HttpError ReviewPark
  | [], park => .ok park
  | (item, decision) :: rest, park =>
    match recordDecision park item state decision now with
    | .error _ => .error closed
    | .ok park => recordEach state now rest park

/-- What a plan writes. -/
def write (plan : Plan) (now : Nat) (park : ReviewPark) : Except HttpError (Told × ReviewPark) :=
  match plan with
  | .refusal reason => .ok (.refusal reason, park)
  | .allLeave groupKey settledOn =>
    let (changed, park) := recordGroupDecision park groupKey .left (.allLeave settledOn) now
    if changed = [] then .error ⟨409, "Every item in this group is already decided"⟩
    else .ok (.applied changed .leave, park)
  | .allAccept _ none =>
    .error ⟨409, "Nothing was proposed for this group, so there is nothing to apply"⟩
  | .allAccept groupKey (some q) =>
    let (changed, park) := recordGroupDecision park groupKey .accepted (.allAccept q) now
    if changed = [] then .error ⟨409, "Every item in this group is already decided"⟩
    else .ok (.applied changed (.fix q.op), park)
  | .allRedirect _ none _ =>
    .error ⟨409, "The sample's redirect carries no operation to repeat; answer the rest one by one"⟩
  | .allRedirect settledOn (some shape) rest =>
    let rows := rest.map fun m => (m.id, Decision.allRedirect settledOn
      ⟨shape.op, [m.fingerprint], m.defectCode, m.fingerprint, .engineer, some m.id, false⟩)
    match recordEach .redirected now rows park with
    | .error e => .error e
    | .ok park =>
      if rest = [] then .error ⟨409, "Every item in this group is already decided"⟩
      else .ok (.applied (rest.map ReviewItem.id) (.fix shape.op), park)
  | .answer item state decision wish covered text playback orphaned =>
    match recordEach state now [(item, decision)] park with
    | .error e => .error e
    | .ok park =>
      match recordEach .redirected now
          (covered.map fun m => (m, Decision.covered item text playback)) park with
      | .error e => .error e
      | .ok park => .ok (.answered item wish covered, reopenCovered park orphaned)

/-- What an answer comes to, of the items it read. -/
def plan (sampleSize : Nat) (items : List ReviewItem) (body : DecisionIn)
    (reply : Option ModelReply) : Except HttpError Plan :=
  match body.action with
  | .applyAll => planAll sampleSize items (body.groupKey.getD "")
  | _ => planOne items body reply

/-- `decide`, of the items that it read and of the park under its lock. -/
def decide (sampleSize : Nat) (reading : List ReviewItem) (body : DecisionIn)
    (reply : Option ModelReply) (now : Nat) (park : ReviewPark) :
    Except HttpError (Told × ReviewPark) :=
  match plan sampleSize reading body reply with
  | .error e => .error e
  | .ok (.refusal reason) => .ok (.refusal reason, park)
  | .ok plan => if park.closedBy = none then write plan now park else .error closed

/-- What the engineer has been told, entered in the ledger of their answers. -/
def Told.enter (told : Told) (answers : Ledger ItemId Wish) : Ledger ItemId Wish :=
  match told with
  | applied changed wish => answers.answerEach wish changed
  | answered item wish covered => answers.answer item wish covered
  | refusal _ => answers

end MeshPipeline.RepairReview
