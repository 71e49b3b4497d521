import MeshPipeline.CadRepair.Defects

/-!
# The rules planner

It proposes the worst defect first and the narrowest operation first, and fills nothing for the rest
of the run once it has seen the two rims of a missing bore. What the kernel says of a shape is a
parameter.
-/

namespace MeshPipeline.CadRepair

/-! ## The pairing test -/

/-- What one operation did: `OpOutcome`. -/
structure Outcome (Shape : Type*) where
  shape : Shape
  /-- `mapping.moved` and `mapping.gone`. -/
  moved : List (String × String)
  gone : List String
  added : List String
  declined : Option String
  removedFingerprints : List String

/-- The kernel, in what the planner and the session ask it. -/
structure Kernel (Shape Wire : Type*) where
  /-- `op.apply`; the error is the exception that it raises. -/
  apply : String → Shape → List EntityRef → Except String (Outcome Shape)
  /-- The checks of `caps`, of the upload, of the shape before and after an operation, and of the
  outcomes that were kept: the reason of a refusal. -/
  capRefusal : Shape → Shape → Outcome Shape → List (Outcome Shape) → Option String
  /-- `localize_scan`, with or without the face scan, and whether it was complete. -/
  scan : Shape → Bool → List Defect × Bool
  /-- `free_wire_containing`. -/
  freeWire : Shape → Nat → Option Wire
  /-- The pairs that `_paired_rims` finds among some loops; `none` is an exception. -/
  pairedRims : Shape → List Wire → Option (List (Nat × Nat))

/-- A set of rims; `unknown` is `RimsUnknown`, which holds every candidate. -/
structure Rims where
  fingerprints : List String
  unknown : Bool
  deriving DecidableEq, Repr

variable {Shape Wire : Type*} (kernel : Kernel Shape Wire)

/-- The open boundaries that a rim can be. -/
def candidateRims (defects : List Defect) : List Defect :=
  defects.filter fun d => d.code == .openShell && d.fingerprint != "" && d.boundaryEdges != []

/-- The loops of the candidates that have one, with their owners. -/
def resolvedRims (shape : Shape) (defects : List Defect) : List (Wire × String) :=
  (candidateRims defects).filterMap fun d =>
    (kernel.freeWire shape d.entityIndex).map (·, d.fingerprint)

/-- The pairs of rims, as places in the list of resolved ones; `none` when the question cannot be
answered. -/
def rimPairs (shape : Shape) (defects : List Defect) : Option (List (Nat × Nat)) :=
  let resolved := resolvedRims kernel shape defects
  let unresolved := (candidateRims defects).filter fun d =>
    (kernel.freeWire shape d.entityIndex).isNone
  if unresolved ≠ [] ∧ 2 ≤ resolved.length + unresolved.length then none
  else if resolved.length < 2 then some []
  else kernel.pairedRims shape (resolved.map Prod.fst)

/-- `paired_rim_fingerprints`. -/
def pairedRimFingerprints (shape : Shape) (defects : List Defect) : Rims :=
  match rimPairs kernel shape defects with
  | none => ⟨(defects.filter fun d => d.code == .openShell && d.fingerprint != "").map
      Defect.fingerprint, true⟩
  | some pairs => ⟨(pairs.flatMap fun (i, j) => [i, j]).filterMap fun i =>
      (resolvedRims kernel shape defects)[i]?.map Prod.snd, false⟩

/-! ## What a run has learned -/

structure Refusal where
  defect : String
  reason : String
  detail : String
  deriving DecidableEq, Repr

structure RunHistory where
  ineffective : List (String × String)
  declined : List (String × Finset String)
  refusals : List Refusal
  /-- Why filling is off for the rest of the run; empty when it is not. -/
  fillRefusedBecause : String
  deriving DecidableEq

namespace RunHistory

def empty : RunHistory := ⟨[], [], [], ""⟩

def refuseFilling (h : RunHistory) (reason : String) : RunHistory :=
  if h.fillRefusedBecause = "" then { h with fillRefusedBecause := reason } else h

def markIneffective (h : RunHistory) (fingerprint op : String) : RunHistory :=
  { h with ineffective := (fingerprint, op) :: h.ineffective }

def markDeclined (h : RunHistory) (op : String) (targets : List EntityRef) : RunHistory :=
  { h with declined := (op, (targets.map EntityRef.fingerprint).toFinset) :: h.declined }

def wasIneffective (h : RunHistory) (fingerprint op : String) : Bool :=
  h.ineffective.contains (fingerprint, op)

def wasDeclined (h : RunHistory) (op : String) (targets : List EntityRef) : Bool :=
  h.declined.contains (op, (targets.map EntityRef.fingerprint).toFinset)

/-- A defect that was not aimed at is recorded once. -/
def refuse (h : RunHistory) (defect reason detail : String) : RunHistory :=
  if h.refusals.any fun r => r.defect == defect && r.reason == reason then h
  else { h with refusals := h.refusals ++ [⟨defect, reason, detail⟩] }

/-- A rim that pairs with another. -/
def notePaired (h : RunHistory) (rim : String) : RunHistory :=
  (h.refuse rim "paired_rim" <|
    "this loop pairs with another as the two ends of one passage (the line " ++
      "between them leaves each no steeper than 70 degrees from its wall's normal, " ++
      "or a curved rim lies on the other's axis) - a missing tube wall, and " ++
      "patching both would seal a through-hole").refuseFilling
    ("a missing tube wall was detected: " ++ rim)

/-- A rim that was not judged. -/
def noteUnjudged (h : RunHistory) (rim : String) : RunHistory :=
  h.refuse rim "paired_rim" <|
    "the through-hole check could not run on this shape, so this loop may be one " ++
      "end of a missing tube wall and is not filled"

/-- What the rules planner records of the rims that it sees. -/
def noteRims (h : RunHistory) (rims : Rims) : RunHistory :=
  let sorted := rims.fingerprints.dedup.insertionSort (· ≤ ·)
  if rims.unknown then
    (sorted.foldl noteUnjudged h).refuseFilling "the through-hole (paired rim) check could not run"
  else sorted.foldl notePaired h

end RunHistory

/-! ## Proposals -/

/-- A directive, as it is given to a run. -/
structure Directive where
  op : String
  defectCode : String
  targets : List String
  defectFingerprint : String
  source : String
  /-- It came of one decision over many defects. -/
  group : Bool
  itemId : Option String
  deriving DecidableEq, Repr

/-- `Candidate`; its item and its source are those of the directive that it plays. -/
structure Candidate where
  op : RepairOp
  targets : List EntityRef
  defectCode : DefectCode
  defectFingerprint : String
  directive : Option Directive

def severityRank : Severity → Nat
  | .fatal => 0
  | .error => 1
  | .warning => 2
  | .info => 3

def codeRank (code : DefectCode) : Nat := if code = .invalidBrep then 1 else 0

def entityRank : EntityType → Nat
  | .shell => 0
  | .face => 1
  | .wire => 2
  | .edge => 3
  | .vertex => 4

/-- What the defects are sorted by. -/
def Defect.rank (d : Defect) : Nat ×ₗ Nat ×ₗ Nat ×ₗ Nat ×ₗ String :=
  toLex (severityRank d.severity, toLex (codeRank d.code, toLex (entityRank d.entityType,
    toLex (d.entityIndex, d.code.value))))

/-- What an operation offers for a defect. -/
inductive Offer
  /-- It is not for this defect. -/
  | unclaimed
  /-- It is, and what the run has learned or holds for review keeps it back. -/
  | claimed
  | aim (targets : List EntityRef)
  deriving DecidableEq, Repr

def offerOf (history : RunHistory) (held : List String) (d : Defect) (op : RepairOp) : Offer :=
  if d.code ∉ op.answers then .unclaimed
  else if history.wasIneffective d.fingerprint op.name then .claimed
  else if op.name ∈ fillOps ∧ history.fillRefusedBecause ≠ "" then .claimed
  else
    let targets := op.targetsFor d
    if targets = [] then .unclaimed
    else if history.wasDeclined op.name targets then .claimed
    else if targets.any fun t => held.contains t.fingerprint then .claimed
    else .aim targets

/-- The first operation that aims at a defect, or else whether one claimed it. -/
def firstAim (history : RunHistory) (held : List String) (d : Defect) :
    List RepairOp → Except Bool Candidate
  | [] => .error false
  | op :: ops =>
    match offerOf history held d op, firstAim history held d ops with
    | .aim targets, _ => .ok ⟨op, targets, d.code, d.fingerprint, none⟩
    | .unclaimed, rest => rest
    | .claimed, .error _ => .error true
    | .claimed, .ok c => .ok c

/-- The first proposal in an order of the defects; those that are passed over are recorded. -/
def firstProposal (ops : List RepairOp) (reserved : List DefectCode) (held : List String) :
    List Defect → RunHistory → Option Candidate × RunHistory
  | [], history => (none, history)
  | d :: ds, history =>
    if reserved.contains d.code then firstProposal ops reserved held ds history
    else if d.fingerprint = "" then
      firstProposal ops reserved held ds (history.refuse
        (d.entityType.value ++ ":" ++ toString d.entityIndex) "untargetable"
        ("a " ++ d.code.value ++ " on a " ++ d.entityType.value ++ " with no measurable extent"))
    else
      match firstAim history held d ops with
      | .ok c => (some c, history)
      | .error true => firstProposal ops reserved held ds history
      | .error false =>
        firstProposal ops reserved held ds (history.refuse d.fingerprint "no_operation_claims_it"
          (d.code.value ++ " needs a judgement no bounded operation makes"))

/-- `RulesPlanner.propose`. -/
def rulesPropose (consents : Consents) (reserved : List DefectCode) (shape : Shape)
    (defects : List Defect) (history : RunHistory) : Option Candidate × RunHistory :=
  firstProposal ((operations consents).insertionSort fun a b => a.scope ≤ b.scope) reserved
    (heldFingerprints defects reserved)
    (defects.insertionSort fun d e => d.rank ≤ e.rank)
    (history.noteRims (pairedRimFingerprints kernel shape defects))

end MeshPipeline.CadRepair
