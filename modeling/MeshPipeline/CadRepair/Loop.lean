import MeshPipeline.CadRepair.Plan
import MeshPipeline.CadRepair.Session
import MeshPipeline.Library.Machine

/-!
# The directed planner

Directives are played first, then the rules. A fill that a directive asks for passes the pairing test
too, unless it is an engineer's answer on one rim.
-/

namespace MeshPipeline.CadRepair

/-- Why a directive was not played. -/
inductive Unplayable
  | targetAbsent | unknownOp | malformed | fillRefused | reservedForReview
  deriving DecidableEq, Repr

/-- `WHOLE_SHAPE_SCOPE`. -/
def wholeShapeScope : Nat := 99

/-- `HELD_ANSWERING_SOURCES`. -/
def heldAnsweringSources : List String := ["engineer", "replay"]

/-- `RepairPlanner`, in what changes during a run. -/
structure RepairPlanner where
  pending : List Directive
  unplayable : List (Directive × Unplayable)
  deriving DecidableEq, Repr

/-- `by_fingerprint.get`: the last defect of an entity. -/
def byFingerprint (defects : List Defect) (fingerprint : String) : Option Defect :=
  (defects.filter fun d => d.fingerprint != "" && d.fingerprint == fingerprint).getLast?

/-- `_crossing_components`. -/
def crossingComponents (op : RepairOp) (refs : List EntityRef) (defects : List Defect) :
    List EntityRef :=
  onePerEntity (refs.flatMap fun r =>
    match byFingerprint defects r.fingerprint with
    | none => [r]
    | some d => if op.targetsFor d = [] then [r] else op.targetsFor d)

/-- The entities that a directive aims at, among those that carry a defect now. -/
def refsOf (op : RepairOp) (code : DefectCode) (d : Directive) (defects : List Defect) :
    List EntityRef :=
  let raw :=
    if d.targets = [] ∧ wholeShapeScope ≤ op.scope then
      (defects.filter fun e => e.fingerprint != "" && e.code == code).map Defect.fingerprint
    else d.targets
  let refs := raw.filterMap fun fingerprint => (byFingerprint defects fingerprint).map Defect.ref
  if op.name = healOp then crossingComponents op refs defects else refs

variable {Shape Wire : Type*} (kernel : Kernel Shape Wire)

/-- `RepairPlanner._resolve`. -/
def resolve (consents : Consents) (reserved : List DefectCode) (shape : Shape)
    (defects : List Defect) (history : RunHistory) (d : Directive) : Except Unplayable Candidate :=
  match (operations consents).find? fun op => op.name == d.op, DefectCode.parse d.defectCode with
  | none, _ => .error .unknownOp
  | some _, none => .error .malformed
  | some op, some code =>
    let mayAnswerHeld := heldAnsweringSources.contains d.source
    let refs := refsOf op code d defects
    let rims := pairedRimFingerprints kernel shape defects
    if reserved.contains code ∧ ¬ mayAnswerHeld then .error .reservedForReview
    else if refs = [] then .error .targetAbsent
    else if ¬ mayAnswerHeld ∧
        refs.any fun r => (heldFingerprints defects reserved).contains r.fingerprint then
      .error .reservedForReview
    else if op.name ∈ fillOps ∧ ¬ (d.source = "engineer" ∧ refs.length = 1 ∧ ¬ d.group) ∧
        (history.fillRefusedBecause ≠ "" ∨ rims.unknown ∨
          refs.any fun r => rims.fingerprints.contains r.fingerprint) then
      .error .fillRefused
    else
      .ok ⟨op, refs, code,
        if d.defectFingerprint = "" then (refs.head?.map EntityRef.fingerprint).getD ""
        else d.defectFingerprint, some d⟩

/-- The first directive that can be played. -/
def play (consents : Consents) (reserved : List DefectCode) (shape : Shape)
    (defects : List Defect) (history : RunHistory) :
    List Directive → List (Directive × Unplayable) → Option Candidate × RepairPlanner
  | [], unplayable => (none, ⟨[], unplayable⟩)
  | d :: pending, unplayable =>
    match resolve kernel consents reserved shape defects history d with
    | .ok c => (some c, ⟨pending, unplayable⟩)
    | .error reason =>
      play consents reserved shape defects history pending (unplayable ++ [(d, reason)])

/-- `RepairPlanner.propose`. -/
def propose (consents : Consents) (reserved : List DefectCode) (shape : Shape)
    (defects : List Defect) (history : RunHistory) (planner : RepairPlanner) :
    Option Candidate × RunHistory × RepairPlanner :=
  match play kernel consents reserved shape defects history planner.pending planner.unplayable with
  | (some c, planner) => (some c, history, planner)
  | (none, planner) =>
    let (candidate, history) := rulesPropose kernel consents reserved shape defects history
    (candidate, history, planner)

end MeshPipeline.CadRepair

/-!
## The repair loop

Each step asks the planner for one operation and has the session try it. The kernel of a step is its
label: it may answer each step in its own way, and the loop may find at any step that its time is
spent.
-/

namespace MeshPipeline.CadRepair

inductive StopReason
  | resolved | noCandidate | opBudget | timeBudget | stalled | scanIncomplete
  deriving DecidableEq, Repr

/-- `LoopBudget`, with the consents of the deployment. -/
structure Limits where
  maxOps : Nat
  stallLimit : Nat
  consents : Consents
  deriving DecidableEq, Repr

/-- An operation that was tried, with the free boundaries that its targets lay on. -/
structure Try (Wire : Type*) where
  candidate : Candidate
  verdict : OpVerdict
  aimed : List Wire

/-- A run of the loop. -/
structure RepairRun (Shape Wire : Type*) where
  session : Session Shape
  planner : RepairPlanner
  history : RunHistory
  enteredWithErrors : Bool
  consecutiveMisses : Nat
  tries : List (Try Wire)
  stopped : Option StopReason

/-- What a step of the loop meets. -/
structure Tick (Shape Wire : Type*) where
  kernel : Kernel Shape Wire
  timeSpent : Bool

variable {Shape Wire : Type*}

namespace Session

/-- `_judged`. -/
def judged (s : Session Shape) : List Defect := s.defects.filter fun d => !d.analyzerOnly

/-- `_errors_remain`. -/
def errorsRemain (s : Session Shape) : Bool := s.judged.any fun d => d.severity.isError

/-- `_abandoned`. -/
def abandoned (s : Session Shape) : Bool :=
  s.judged.any fun d => s.log.any fun v =>
    v.status != .kept && v.op != healOp && v.targets.contains d.fingerprint

/-- `_terminal`. -/
def terminal (s : Session Shape) (fallback : StopReason) : StopReason :=
  if !s.completeScan then .scanIncomplete
  else if !s.errorsRemain && !s.abandoned then .resolved
  else fallback

/-- `_analyzer_heal`. -/
def analyzerHeal (s : Session Shape) (c : Candidate) : Bool :=
  c.op.name == healOp &&
    s.defects.any fun d => d.analyzerOnly && d.fingerprint == c.defectFingerprint

/-- `_enabled_sliver_sweep`. -/
def enabledSliverSweep (s : Session Shape) (consents : Consents) (c : Candidate) : Bool :=
  consents.fixSmallFaces && c.op.name == "fix_small_faces" &&
    !s.log.any fun v => v.op == "fix_small_faces"

end Session

namespace RepairRun

/-- What a candidate may answer, of the entities that are held for review. -/
def answeredHeld (c : Candidate) : List String :=
  match c.directive with
  | some d =>
    if heldAnsweringSources.contains d.source then
      c.defectFingerprint :: c.targets.map EntityRef.fingerprint
    else []
  | none => []

/-- A candidate is tried, and the run learns of its verdict. -/
def attempt (limits : Limits) (kernel : Kernel Shape Wire) (r : RepairRun Shape Wire)
    (c : Candidate) : RepairRun Shape Wire :=
  let (session, verdict) := r.session.tryOp kernel c.op c.targets c.defectCode (answeredHeld c)
  let aimed := c.targets.filterMap fun t => kernel.freeWire r.session.shape t.entityIndex
  let r := { r with session := session, tries := r.tries ++ [Try.mk c verdict aimed] }
  if verdict.status = .kept then
    { r with
      consecutiveMisses := 0
      stopped := if session.completeScan then none else some .scanIncomplete }
  else if verdict.declined.isSome then
    { r with history := r.history.markDeclined c.op.name c.targets }
  else
    { r with
      history := r.history.markIneffective c.defectFingerprint c.op.name
      consecutiveMisses := r.consecutiveMisses + 1
      stopped := if limits.stallLimit ≤ r.consecutiveMisses + 1 then some (session.terminal .stalled)
        else none }

/-- One turn of the loop of `run`. -/
def step (limits : Limits) (r : RepairRun Shape Wire) (tick : Tick Shape Wire) :
    Option (RepairRun Shape Wire) :=
  if r.stopped.isSome then none
  else if limits.maxOps ≤ r.session.log.length then
    some { r with stopped := some (r.session.terminal .opBudget) }
  else if tick.timeSpent then some { r with stopped := some (r.session.terminal .timeBudget) }
  else
    let (candidate, history, planner) := propose tick.kernel limits.consents r.session.reserved
      r.session.shape r.session.defects r.history r.planner
    let r := { r with history := history, planner := planner }
    match candidate with
    | none => some { r with stopped := some (r.session.terminal .noCandidate) }
    | some c =>
      if r.enteredWithErrors && !r.session.errorsRemain && !r.session.abandoned &&
          !r.session.analyzerHeal c && !r.session.enabledSliverSweep limits.consents c then
        some { r with stopped := some .resolved }
      else some (attempt limits tick.kernel r c)

def machine (limits : Limits) : Transition.Machine (RepairRun Shape Wire) (Tick Shape Wire) :=
  ⟨step limits⟩

/-- The first scan of `run`. -/
def start (kernel : Kernel Shape Wire) (upload : Shape) (reserved : List DefectCode)
    (directives : List Directive) : RepairRun Shape Wire :=
  let (defects, complete) := kernel.scan upload true
  let session : Session Shape := ⟨upload, upload, defects, complete, [], [], reserved⟩
  { session
    planner := ⟨directives, []⟩
    history := .empty
    enteredWithErrors := session.errorsRemain
    consecutiveMisses := 0
    tries := []
    stopped := if complete then none else some .scanIncomplete }

end RepairRun

end MeshPipeline.CadRepair
