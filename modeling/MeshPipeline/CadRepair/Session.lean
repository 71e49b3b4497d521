import MeshPipeline.CadRepair.Plan

/-!
# Trying one operation

A session holds one shape through a repair. It keeps the result of an operation when the defect that
it aimed at is gone and nothing new is broken, and otherwise goes back to the shape that it had.
-/

namespace MeshPipeline.CadRepair

inductive Status
  | kept | rolledBack | failed
  deriving DecidableEq, Repr

/-- `OpVerdict`. -/
structure OpVerdict where
  op : String
  targets : List String
  defectCode : DefectCode
  status : Status
  reason : String
  /-- `evidence["declined"]`. -/
  declined : Option String
  deriving DecidableEq, Repr

/-- `RepairSession`, with its defects scanned. -/
structure Session (Shape : Type*) where
  /-- The upload, which the cumulative caps are measured against. -/
  original : Shape
  shape : Shape
  defects : List Defect
  completeScan : Bool
  accounting : List (Outcome Shape)
  log : List OpVerdict
  reserved : List DefectCode

variable {Shape Wire : Type*}

/-- `_carries`. -/
def carries (targets : List EntityRef) (code : DefectCode) (defects : List Defect) : Bool :=
  defects.any fun d => (targets.map EntityRef.fingerprint).contains d.fingerprint && d.code == code

/-- The names that a target can have after an operation: `mapping.fate_of`. -/
def namesAfter (outcome : Outcome Shape) (fingerprint : String) : List String :=
  let successor :=
    if fingerprint ∈ outcome.gone then ""
    else ((outcome.moved.find? fun p => p.1 == fingerprint).map Prod.snd).getD fingerprint
  [fingerprint, successor].filter (· ≠ "")

/-- `_geometric_defect_key`. -/
def geometricKey (d : Defect) :
    Option (DefectCode × Severity × EntityType × List Int × List Int) :=
  d.box.map fun box => (d.code, d.severity, d.entityType, box.1, box.2)

/-- A finding that is held against an operation. -/
def isNewDefect (opName : String) (outcome : Outcome Shape) (previous found : List Defect)
    (d : Defect) : Bool :=
  let hasError := fun ds : List Defect => ds.any fun d => d.severity.isError
  let fewer := !hasError found && found.length < previous.length
  !((previous.any fun p => p.fingerprint == d.fingerprint && p.code == d.code) ||
    ((geometricKey d).isSome && previous.any fun p => geometricKey p == geometricKey d) ||
    d.severity == .info ||
    (d.severity == .warning &&
      ((hasError previous && fewer) || (opName == "fix_small_faces" && fewer) ||
        outcome.added.contains d.fingerprint)))

/-- `_progress_refusal`. -/
def progressRefusal (opName : String) (outcome : Outcome Shape) (targets : List EntityRef)
    (code : DefectCode) (previous found : List Defect) : Option String :=
  if targets.any fun t => found.any fun d =>
      (namesAfter outcome t.fingerprint).contains d.fingerprint && d.code == code then
    some "target_remains"
  else if found.any (isNewDefect opName outcome previous found) then some "new_defect"
  else none

namespace Session

/-- `_record`. -/
def record (s : Session Shape) (verdict : OpVerdict) : Session Shape × OpVerdict :=
  ({ s with log := s.log ++ [verdict] }, verdict)

/-- The held entities that an operation removed without being asked to. -/
def removedHeld (s : Session Shape) (answeredHeld : List String) (outcome : Outcome Shape) :
    List String :=
  (((heldFingerprints s.defects s.reserved).filter fun f => !answeredHeld.contains f &&
    outcome.removedFingerprints.contains f).dedup).insertionSort (· ≤ ·)

/-- `RepairSession.try_op`. -/
def tryOp (kernel : Kernel Shape Wire) (s : Session Shape) (op : RepairOp)
    (targets : List EntityRef) (code : DefectCode) (answeredHeld : List String) :
    Session Shape × OpVerdict :=
  let verdict := OpVerdict.mk op.name (targets.map EntityRef.fingerprint) code
  if targets.any fun t => t.fingerprint == "" then s.record (verdict .rolledBack "untargetable" none)
  else if !carries targets code s.defects then
    s.record (verdict .rolledBack "target_absent" none)
  else
    match kernel.apply op.name s.shape targets with
    | .error e => s.record (verdict .failed e none)
    | .ok outcome =>
      match s.removedHeld answeredHeld outcome with
      | first :: rest =>
        s.record (verdict .rolledBack ("held_for_review:" ++ toString (rest.length + 1) ++
          " removed entity(s) carry a defect an engineer is being asked about (" ++ first ++ ")")
          outcome.declined)
      | [] =>
        match kernel.capRefusal s.original s.shape outcome s.accounting, outcome.declined with
        | some refusal, declined => s.record (verdict .rolledBack ("cap:" ++ refusal) declined)
        | none, some declined =>
          s.record (verdict .rolledBack ("declined:" ++ (declined.take 200).toString) (some declined))
        | none, none =>
          -- only a heal is judged with the findings of the face scan
          let byFaceScan := op.name = healOp ∨ code = .selfIntersection
          let (scanned, complete) := kernel.scan outcome.shape byFaceScan
          let found := scanned.filter fun d => byFaceScan ∨ ¬ d.analyzerOnly
          let previous := s.defects.filter fun d => byFaceScan ∨ ¬ d.analyzerOnly
          match progressRefusal op.name outcome targets code previous found with
          | some reason => s.record (verdict .rolledBack reason none)
          | none =>
            let carried := s.defects.filter fun d => ¬ byFaceScan ∧ d.analyzerOnly ∧
              ¬ found.any fun e => e.fingerprint == d.fingerprint && e.code == d.code
            Session.record { s with
              shape := outcome.shape
              defects := found ++ carried
              completeScan := complete
              accounting := s.accounting ++ [outcome] } (verdict .kept "" none)

end Session

end MeshPipeline.CadRepair
