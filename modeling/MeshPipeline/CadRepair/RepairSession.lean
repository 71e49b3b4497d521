import MeshPipeline.CadRepair.Caps
import MeshPipeline.CadRepair.Session

/-!
# An attempt whose calls can fail

The session of a repair with its measurements, its caps and the list of defects that it scans once. Every
call of an attempt is answered by the outside, and each answer can be an exception.
-/

namespace MeshPipeline.CadRepair

/-- What one operation did, with the evidence that the caps read. -/
structure OpOutcome (Shape K : Type*) extends Outcome Shape where
  facesRemoved : Int
  declared : Declaration K

/-- An entry of the log, with its evidence. -/
structure Logged (K : Type*) where
  verdict : OpVerdict
  declared : Declaration K

/-- The declarations of the operations that a log says were kept. -/
def Accounting.of {K : Type*} [Zero K] [Add K] (log : List (Logged K)) : Accounting K :=
  (log.filter fun r => r.verdict.status = .kept).foldl (fun a r => a.plus r.declared) .zero

/-- `RepairSession`. Its accounting is that of the operations it kept. -/
structure RepairSession (Shape K : Type*) [Zero K] [Add K] where
  original : Measure K
  shape : Shape
  /-- Absent until the shape was scanned. -/
  defects : Option (List Defect)
  completeScan : Bool
  accounting : Accounting K
  log : List (Logged K)
  reserved : List DefectCode
  accounted : accounting = .of log

/-- What the calls of one attempt answer, in their order; an error is an exception. -/
structure Calls (Shape K : Type*) where
  firstScan : Except String (List Defect × Bool)
  measureBefore : Except String (Measure K)
  apply : Except String (OpOutcome Shape K)
  measureAfter : Except String (Measure K)
  rescan : Except String (List Defect × Bool)

variable {Shape K : Type*}

/-- A heal is judged on the face scan, and every other operation on the status walk alone. -/
def judgedByFaceScan (op : RepairOp) (code : DefectCode) : Bool :=
  op.name = healOp ∨ code = .selfIntersection

/-- The findings that an attempt is judged on. -/
def judgedFindings (op : RepairOp) (code : DefectCode) (defects : List Defect) : List Defect :=
  defects.filter fun d => judgedByFaceScan op code ∨ ¬ d.analyzerOnly

/-- The face scan's findings that an attempt without it leaves on the list. -/
def carriedFindings (op : RepairOp) (code : DefectCode) (previous found : List Defect) :
    List Defect :=
  previous.filter fun d => ¬ judgedByFaceScan op code ∧ d.analyzerOnly ∧
    ¬ found.any fun e => e.fingerprint == d.fingerprint && e.code == d.code

/-- The held entities that an operation says it removed, and that it was not asked about. -/
def removedHeld (reserved : List DefectCode) (previous : List Defect) (answeredHeld : List String)
    (outcome : Outcome Shape) : List String :=
  (((heldFingerprints previous reserved).filter fun f => !answeredHeld.contains f &&
    outcome.removedFingerprints.contains f).dedup).insertionSort (· ≤ ·)

section

variable [Zero K] [Add K]

namespace RepairSession

variable (s : RepairSession Shape K)

/-- `defects()`: scanned once for a shape. -/
def scanned (firstScan : Except String (List Defect × Bool)) :
    Except String (RepairSession Shape K × List Defect) :=
  match s.defects with
  | some defects => .ok (s, defects)
  | none =>
    match firstScan with
    | .error e => .error e
    | .ok (defects, complete) =>
      .ok ({ s with defects := some defects, completeScan := complete }, defects)

/-- `_record`, of an operation that was not kept. -/
def miss (verdict : OpVerdict) (declared : Declaration K) (h : verdict.status ≠ .kept) :
    RepairSession Shape K × Except String OpVerdict :=
  ({ s with
      log := s.log ++ [⟨verdict, declared⟩]
      accounted := by simp [s.accounted, Accounting.of, h] }, .ok verdict)

/-- `_record`, of an operation that was kept. -/
def keep (verdict : OpVerdict) (declared : Declaration K) (h : verdict.status = .kept) :
    RepairSession Shape K × Except String OpVerdict :=
  ({ s with
      accounting := s.accounting.plus declared
      log := s.log ++ [⟨verdict, declared⟩]
      accounted := by simp [s.accounted, Accounting.of, h] }, .ok verdict)

end RepairSession

end

variable [Zero K] [Add K] [Neg K] [Sub K] [Div K] [Max K] [LE K] [LT K] [DecidableLE K]
  [DecidableLT K]

/-- What the caps say of an outcome. -/
def capRefusal (policy : CapPolicy K) (s : RepairSession Shape K) (before after : Measure K)
    (outcome : OpOutcome Shape K) : Option CapRefusal :=
  (sanityRefusal policy before after outcome.facesRemoved).or
    (cumulativeRefusal policy s.original after (s.accounting.plus outcome.declared))

namespace RepairSession

/-- `try_op` from the outcome on: `snapshot` is the session before, with the defects `previous`. -/
def judgeOutcome (policy : CapPolicy K) (snapshot : RepairSession Shape K) (previous : List Defect)
    (calls : Calls Shape K) (op : RepairOp) (targets : List EntityRef) (code : DefectCode)
    (answeredHeld : List String) (before : Measure K) (outcome : OpOutcome Shape K) :
    RepairSession Shape K × Except String OpVerdict :=
  let verdict := OpVerdict.mk op.name (targets.map EntityRef.fingerprint) code
  let rolledBack (reason : String) (declined : Option String) :=
    snapshot.miss (verdict .rolledBack reason declined) outcome.declared (by simp [verdict])
  let s := { snapshot with shape := outcome.shape }
  match calls.measureAfter with
  | .error e => (s, .error e)
  | .ok after =>
    match removedHeld s.reserved previous answeredHeld outcome.toOutcome with
    | first :: rest =>
      rolledBack ("held_for_review:" ++ toString (rest.length + 1) ++
        " removed entity(s) carry a defect an engineer is being asked about (" ++ first ++ ")")
        outcome.declined
    | [] =>
      match capRefusal policy s before after outcome, outcome.declined with
      | some refusal, declined => rolledBack ("cap:" ++ policy.sentence refusal) declined
      | none, some declined =>
        rolledBack ("declined:" ++ (declined.take 200).toString) (some declined)
      | none, none =>
        match calls.rescan with
        | .error e => (s, .error e)
        | .ok (scan, complete) =>
          let found := judgedFindings op code scan
          match progressRefusal op.name outcome.toOutcome targets code
              (judgedFindings op code previous) found with
          | some reason => rolledBack reason none
          | none =>
            let s := { s with
              defects := some (found ++ carriedFindings op code previous found)
              completeScan := complete }
            s.keep (verdict .kept "" none) outcome.declared rfl

/-- `RepairSession.try_op`. -/
def tryOp (policy : CapPolicy K) (s : RepairSession Shape K) (calls : Calls Shape K)
    (op : RepairOp) (targets : List EntityRef) (code : DefectCode) (answeredHeld : List String) :
    RepairSession Shape K × Except String OpVerdict :=
  let verdict := OpVerdict.mk op.name (targets.map EntityRef.fingerprint) code
  if targets.any fun t => t.fingerprint == "" then
    s.miss (verdict .rolledBack "untargetable" none) ⟨0, 0⟩ (by simp [verdict])
  else
    match s.scanned calls.firstScan with
    | .error e => (s, .error e)
    | .ok (s, previous) =>
      if !carries targets code previous then
        s.miss (verdict .rolledBack "target_absent" none) ⟨0, 0⟩ (by simp [verdict])
      else
        match calls.measureBefore, calls.apply with
        | .error e, _ => (s, .error e)
        | .ok _, .error e => s.miss (verdict .failed e none) ⟨0, 0⟩ (by simp [verdict])
        | .ok before, .ok outcome =>
          s.judgeOutcome policy previous calls op targets code answeredHeld before outcome

end RepairSession

end MeshPipeline.CadRepair
