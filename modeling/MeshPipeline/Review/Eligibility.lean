import Mathlib.Data.String.Basic
import MeshPipeline.Library.Buckets
import MeshPipeline.Library.Text
import MeshPipeline.Review.EvidenceLedger

/-!
# The eligibility of a submission

Whether the findings of a review may be accepted over the evidence it holds, and the verdict they
then give. Every reason that stands against a submission is collected, in its order.
-/

namespace MeshPipeline.Review

/-- `EvidenceRequirement`. -/
inductive Requirement
  | hardGate (key : String)
  | metric (key : String)
  | renderView (viewId : String)
  | renderTarget (kind : TargetKind) (selector : String)
  | spatialInspection (kind : TargetKind)
  deriving DecidableEq, Repr

structure ReviewAxis where
  name : String
  requires : List Requirement
  deriving DecidableEq, Repr

structure InspectionTarget where
  targetId : String
  kind : TargetKind
  deriving DecidableEq, Repr

structure AssurancePlan where
  axes : List ReviewAxis
  requiredGateKeys : List String
  requiredMetricKeys : List String
  requiredTargets : List InspectionTarget
  deriving DecidableEq, Repr

structure TargetObligation where
  kind : TargetKind
  exactIds : List String
  minCount : Nat
  provenance : String
  deriving DecidableEq, Repr

structure AxisFinding where
  axisKey : String
  finding : String
  evidenceIds : List String
  passed : Bool
  deriving DecidableEq, Repr

def isWildcard (selector : String) : Bool := selector = "*" || selector.endsWith ":*"

/-! ## What the plan obliges to -/

namespace AssurancePlan

variable (plan : AssurancePlan)

/-- The requirements of all axes. -/
def requirements : List Requirement := plan.axes.flatMap (·.requires)

def gateKeys : List String :=
  Buckets.unique (plan.requiredGateKeys ++ plan.requirements.filterMap fun
    | .hardGate key => some key
    | _ => none)

def metricKeys : List String :=
  Buckets.unique (plan.requiredMetricKeys ++ plan.requirements.filterMap fun
    | .metric key => some key
    | _ => none)

def viewIds : List String :=
  Buckets.unique (plan.requirements.filterMap fun
    | .renderView viewId => some viewId
    | _ => none)

/-- Every target that is required by its own name. -/
def exactRefs : List InspectionTargetRef :=
  (plan.requirements.filterMap fun
    | .renderTarget kind selector => if isWildcard selector then none else some ⟨kind, selector⟩
    | _ => none) ++
  plan.requiredTargets.filterMap fun t =>
    if isWildcard t.targetId then none else some ⟨t.kind, t.targetId⟩

/-- `exact_targets`: of targets with one name, the last. -/
def exactTargets : List InspectionTargetRef :=
  (Assoc.ofPairs (plan.exactRefs.map fun ref => (ref.targetId, ref))).map (·.2)

/-- The kinds of which any target is required. -/
def wildcardKinds : List TargetKind :=
  (plan.requirements.filterMap fun
    | .renderTarget kind selector => if isWildcard selector then some kind else none
    | .spatialInspection kind => some kind
    | _ => none) ++
  plan.requiredTargets.filterMap fun t => if isWildcard t.targetId then some t.kind else none

/-- `axes_by_name`: of axes with one name, the last. -/
def axesByName : List (String × ReviewAxis) :=
  Assoc.ofPairs (plan.axes.map fun ax => (ax.name, ax))

end AssurancePlan

/-- `advisory_gaps`: an advisory metric that was not measured. -/
def advisoryGap (l : EvidenceLedger) (key : String) : Bool :=
  l.metrics.any fun m => !m.usable && !m.gating && m.metricKey = key && (l.usableMetric key).isNone

/-! ## One finding -/

def citationSatisfies (req : Requirement) (records : List LedgerRecord) : Bool :=
  records.any fun r =>
    match req, r with
    | .hardGate key, .gate g => g.gateKey = key
    | .metric key, .metric m => m.metricKey = key
    | .renderView viewId, .view v => v.viewId = viewId
    | .renderTarget kind selector, .inspection t =>
      t.target.kind = kind && (isWildcard selector || t.target.targetId = selector)
    | .spatialInspection kind, .inspection t => t.target.kind = kind
    | _, _ => false

/-- A cited identifier: a usable record, or what is wrong with it. -/
def citation (l : EvidenceLedger) (id : String) : Except String LedgerRecord :=
  match l.get id with
  | none => .error ("unknown evidence id " ++ id)
  | some r => if r.usable then .ok r else .error ("unusable evidence " ++ id)

/-- `_usable_citations`. -/
def usableCitations (f : AxisFinding) (l : EvidenceLedger) : List LedgerRecord × List String :=
  (f.evidenceIds.filterMap fun id => (citation l id).toOption,
    f.evidenceIds.filterMap fun id =>
      match citation l id with
      | .error problem => some problem
      | .ok _ => none)

/-- `_req_applicable`. -/
def reqApplicable (req : Requirement) (expectedKinds : Option (List TargetKind)) : Bool :=
  match expectedKinds, req with
  | some kinds, .renderTarget kind _ => kinds.contains kind
  | some kinds, .spatialInspection kind => kinds.contains kind
  | _, _ => true

/-- `_or_cite`. -/
def orCite : List TargetInspectionEvidence → String
  | [] => " - produce that inspection, then cite the id it returns"
  | [t] => " - cite " ++ t.evidenceId ++ ", which is already on file"
  | several => " - cite one of " ++ ", ".intercalate (several.map (·.evidenceId)) ++
      ", which are already on file"

/-- `_requirement_hint`. -/
def requirementHint (l : EvidenceLedger) : Requirement → String
  | .hardGate key =>
    match l.usableGate key with
    | some g => "gate '" ++ key ++ "' - cite " ++ g.evidenceId ++ ", which is already on file; " ++
        "no tool call produces it"
    | none => "gate '" ++ key ++ "', which is not on file"
  | .metric key =>
    match l.usableMetric key with
    | some m => "metric '" ++ key ++ "' - cite " ++ m.evidenceId ++
        ", which is already on file. " ++
        "It is a MEASUREMENT: no render, slice or patch inspection can stand in for " ++
        "it, and quoting its number in the prose is not citing it"
    | none => "metric '" ++ key ++ "', which is not on file"
  | .renderView viewId =>
    match l.usableView viewId with
    | some v => "the '" ++ viewId ++ "' view - cite " ++ v.evidenceId ++
        ", which is already on file"
    | none => "the '" ++ viewId ++ "' view, which is not on file"
  | .renderTarget kind selector =>
    if isWildcard selector then
      "an inspection of any " ++ kind.value ++ orCite (l.usableInspectionsOfKind kind)
    else
      "an inspection of " ++ kind.value ++ " '" ++ selector ++ "'" ++
        orCite (l.usableInspectionOfTarget ⟨kind, selector⟩).toList
  | .spatialInspection kind =>
    "an inspection of any " ++ kind.value ++ orCite (l.usableInspectionsOfKind kind)

/-- A requirement that the finding of its axis has to cite evidence for. -/
def demanded (l : EvidenceLedger) (kinds : Option (List TargetKind)) (req : Requirement) : Bool :=
  reqApplicable req kinds &&
    match req with
    | .metric key => !advisoryGap l key
    | _ => true

/-- `_axis_finding_suitable`: what stands against a finding, if anything. -/
def axisFindingProblem (l : EvidenceLedger) (kinds : Option (List TargetKind)) (ax : ReviewAxis)
    (f : AxisFinding) : Option String :=
  let (records, problems) := usableCitations f l
  let axis := "axis '" ++ f.axisKey ++ "'"
  if Text.strip f.finding = "" then some (axis ++ " finding is blank")
  else if problems ≠ [] then some (axis ++ ": " ++ "; ".intercalate problems)
  else if records = [] then some (axis ++ " cites no usable evidence")
  else
    (ax.requires.find? fun req => demanded l kinds req && !citationSatisfies req records).map
      fun req => axis ++ " does not cite " ++ requirementHint l req

/-- `_grounds_a_defect`, for one record. -/
def groundsADefect : LedgerRecord → Bool
  | .gate g => !g.passed
  | .metric m => !m.passed
  | .inspection t => t.usable
  | _ => false

/-- `_defect_grounded`. -/
def defectGrounded (f : AxisFinding) (l : EvidenceLedger) : Bool :=
  let (records, problems) := usableCitations f l
  problems.isEmpty && records.any groundsADefect

/-! ## The evidence as a whole -/

/-- `_HOW_TO_INSPECT`. -/
def howToInspect : TargetKind → String
  | .patch => "inspect one with toggle_patch on a patch the viewer can show"
  | .region => "inspect one with inspect_region on a declared slice"
  | _ => ""

/-- `_check_obligation`. -/
def checkObligation (l : EvidenceLedger) (o : TargetObligation) : List String :=
  let prov := if o.provenance = "" then "" else " (" ++ o.provenance ++ ")"
  if o.exactIds ≠ [] then
    o.exactIds.filterMap fun tid =>
      if (l.usableInspectionOfTarget ⟨o.kind, tid⟩).isNone then
        some ("required " ++ o.kind.value ++ " '" ++ tid ++
          "' has not been inspected in this session. " ++
          "It IS available - inspect it now (for a region: the slice tool with region '" ++ tid ++
          "'), then cite the t- id that inspection returns" ++ prov)
      else none
  else
    let found := (l.usableInspectionsOfKind o.kind).length
    let need := max o.minCount 1
    if found < need then
      ["expected " ++ toString need ++ " " ++ o.kind.value ++ " inspection(s), have " ++
        toString found ++ prov ++
        if howToInspect o.kind = "" then ""
        else " - " ++ howToInspect o.kind ++ ", then cite the t- id it returns"]
    else []

/-- `_evidence_presence_reasons`. -/
def evidencePresenceReasons (plan : AssurancePlan) (l : EvidenceLedger)
    (obligations : Option (List TargetObligation)) : List String :=
  (plan.gateKeys.filter fun key => (l.usableGate key).isNone).map
      (fun key => "required gate '" ++ key ++ "' has no usable evidence") ++
    ((plan.metricKeys.filter fun key => !advisoryGap l key).filter fun key =>
      (l.usableMetric key).isNone).map
      (fun key => "required metric '" ++ key ++ "' has no usable evidence") ++
    (plan.viewIds.filter fun viewId => (l.usableView viewId).isNone).map
      (fun viewId => "required view '" ++ viewId ++ "' has no usable evidence") ++
    (plan.exactTargets.filter fun ref => (l.usableInspectionOfTarget ref).isNone).map
      (fun ref => "required target '" ++ ref.targetId ++
        "' has no usable target-specific evidence") ++
    match obligations with
    | none =>
      ((Buckets.sortBy TargetKind.value plan.wildcardKinds.dedup).filter fun kind =>
        (l.usableInspectionsOfKind kind).isEmpty).map
        fun kind => "required " ++ kind.value ++ " inspection has no usable evidence"
    | some obligations => obligations.flatMap (checkObligation l)

/-- `_objective_defects`: what a pass would contradict. -/
def objectiveDefects (plan : AssurancePlan) (l : EvidenceLedger) : List String :=
  (plan.gateKeys.filter fun key => (l.usableGate key).any fun g => !g.passed).map
      (fun key => "hard gate '" ++ key ++ "' failed") ++
    (plan.metricKeys.filter fun key => (l.usableMetric key).any fun m =>
      m.gating && (m.status = .FAIL || m.acceptable = some false)).map
      fun key => "required metric '" ++ key ++ "' is not acceptable"

/-! ## The rule -/

inductive ReviewVerdict
  | passed | failed
  deriving DecidableEq, Repr

inductive Eligibility
  | PASS | FAIL | REJECT
  deriving DecidableEq, Repr

/-- The verdict that an outcome carries. -/
def Eligibility.verdict : Eligibility → Option ReviewVerdict
  | PASS => some .passed
  | FAIL => some .failed
  | REJECT => none

structure EligibilityDecision where
  outcome : Eligibility
  verdict : Option ReviewVerdict
  reasons : List String
  correctionMessage : String
  agrees : verdict = outcome.verdict

def EligibilityDecision.accepted (d : EligibilityDecision) : Bool := d.outcome ≠ .REJECT

/-- `_correction`. -/
def correction (reasons : List String) : String :=
  "SUBMISSION NOT ACCEPTED - " ++ "; ".intercalate reasons ++
    ". Gather the missing evidence and cite it, or correct the findings. Do not describe " ++
    "evidence you have not produced, and do not resubmit unchanged findings."

/-- What a review is judged over. -/
structure ReviewCase where
  plan : AssurancePlan
  ledger : EvidenceLedger
  obligations : Option (List TargetObligation)
  lifecycleOk : Bool

namespace ReviewCase

variable (c : ReviewCase)

def obligatedKinds : Option (List TargetKind) := c.obligations.map fun os => os.map (·.kind)

/-- Exactly one finding for each axis. -/
def coverageReasons (findings : List AxisFinding) : List String :=
  c.plan.axesByName.filterMap fun e =>
    let n := findings.countP (·.axisKey = e.1)
    if n = 0 then some ("axis '" ++ e.1 ++ "' has no finding")
    else if 1 < n then
      some ("axis '" ++ e.1 ++ "' has " ++ toString n ++ " findings (exactly one required)")
    else none

def findingReasons (findings : List AxisFinding) : List String :=
  findings.filterMap fun f =>
    match c.plan.axesByName.lookup f.axisKey with
    | none => some ("finding for unknown axis '" ++ f.axisKey ++ "'")
    | some ax => axisFindingProblem c.ledger c.obligatedKinds ax f

/-- The findings that did not pass, of known axes. -/
def failedAxes (findings : List AxisFinding) : List AxisFinding :=
  findings.filter fun f => !f.passed && (c.plan.axesByName.lookup f.axisKey).isSome

def groundingReasons (findings : List AxisFinding) : List String :=
  ((c.failedAxes findings).filter fun f => !defectGrounded f c.ledger).map fun f =>
    "axis '" ++ f.axisKey ++ "' is marked not passed but cites no evidence that " ++
      "grounds a defect (a failed gate or metric, or a target-specific " ++
      "inspection you produced)"

def reasons (findings : List AxisFinding) : List String :=
  c.coverageReasons findings ++ c.findingReasons findings ++
    evidencePresenceReasons c.plan c.ledger c.obligations ++
    c.groundingReasons findings ++
    (if c.failedAxes findings = [] then objectiveDefects c.plan c.ledger else []) ++
    c.ledger.unresolvedConflicts.map ("unresolved evidence conflict: " ++ ·.summary) ++
    if c.lifecycleOk then [] else ["renderer/evidence lifecycle did not complete"]

/-- `evaluate_eligibility`. -/
def evaluate (findings : List AxisFinding) : EligibilityDecision :=
  if c.reasons findings ≠ [] then
    ⟨.REJECT, none, c.reasons findings, correction (c.reasons findings), rfl⟩
  else if c.failedAxes findings ≠ [] then ⟨.FAIL, some .failed, [], "", rfl⟩
  else ⟨.PASS, some .passed, [], "", rfl⟩

end ReviewCase

end MeshPipeline.Review
