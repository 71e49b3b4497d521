import MeshPipeline.Library.Dict
import MeshPipeline.Library.Text
import MeshPipeline.Persistence.Models

/-!
# What a finished run is entitled to

The facts of the final graph state that a terminal status depends on, the predicates that grant a
delivery and author what it says, and the status. The measured limits, the file's size and the
narrow gaps are read off the delivered mesh by tables of their own.
-/

namespace MeshPipeline.Ending

/-- One row of the review's findings. -/
structure Finding where
  axisKey : String
  passed : Option Bool
  blocking : String
  finding : String
  severity : String
  briefRequirement : String
  improve : Bool
  deriving DecidableEq, Repr

/-- The final graph state, in the fields that the ending reads. `M` is what was measured: the mesh's
manifest, and the words and the unit of the file it was built from. -/
structure FinalState (M : Type*) where
  apiFailure : String
  reviewerVerdict : String
  executorSuccess : Bool
  retryCount : Int
  executorFailedGate : String
  executorFailureCause : String
  executorFailureFacts : Dict
  userDispute : Bool
  reviewRerunCount : Int
  engine : String
  purpose : String
  dimensionality : String
  flowTopology : String
  approvedSnapshotId : String
  axisFindings : List Finding
  manifest : M
  requirementCaveats : List Dict
  layersPlanned : Bool

/-- `RunOutcome`. -/
structure RunOutcome (M : Type*) where
  apiFailure : String
  reviewerVerdict : String
  executorSuccess : Bool
  failedGate : String
  isDispute : Bool
  reviewReruns : Int
  engine : String
  purpose : String
  flowTopology : String
  axisFindings : List Finding
  manifest : M
  requirementCaveats : List Dict
  layersPlanned : Bool

/-- The marker inside `<<API_FAILURE:marker>>`, or the text itself. -/
def unwrap (raw : String) : String :=
  let cs := raw.toList
  let opening := "<<API_FAILURE:".toList
  if opening.isPrefixOf cs && ">>".toList.isSuffixOf cs then
    String.ofList ((cs.take (cs.length - 2)).drop opening.length)
  else raw

/-- `_bare_marker`. -/
def bareMarker (apiFailure : String) : String :=
  Text.strip (unwrap (Text.strip apiFailure))

def isReviewerMarker (marker : String) : Bool := "reviewer_".toList.isPrefixOf marker.toList

variable {M : Type*}

/-- `RunOutcome.from_graph_state`. -/
def RunOutcome.fromGraphState (s : FinalState M) : RunOutcome M where
  apiFailure := unwrap s.apiFailure
  reviewerVerdict := s.reviewerVerdict
  executorSuccess := s.executorSuccess
  failedGate := s.executorFailedGate
  isDispute := s.userDispute
  reviewReruns := s.reviewRerunCount
  engine := s.engine
  purpose := s.purpose
  flowTopology := s.flowTopology
  axisFindings := s.axisFindings
  manifest := s.manifest
  requirementCaveats := s.requirementCaveats
  layersPlanned := s.layersPlanned

/-- A row of the measured limits: whether the measured value meets its limit, if it was measured. -/
structure LimitRow where
  /-- `key`, `label`, `measured`, `op`, `limit` and `words`. -/
  row : Dict
  met : Option Bool

/-- What the tables of the engines say of a delivered mesh. None of them is given a word of the
review. -/
structure Tables (M : Type*) where
  /-- `topology_of(purpose)`. -/
  topologyOf : String → String
  /-- `verdict_limits.gating_rows`; `none` where reading the manifest raises. -/
  gatingRows : String → M → Option (List LimitRow)
  /-- The production limits, for the engine, the topology, the mesh, whether layers are planned, the
  requirements near missed and the concerns about its size. -/
  limitRows : String → String → M → Bool → Nat → Nat → Option (List LimitRow)
  /-- `fea_review.measured_valid(quality) is True`. -/
  feaMeasuredValid : M → Bool
  /-- `physical_scale_caveat`, in the topology: the entries beside its kind. -/
  physicalScale : M → String → Option Dict
  /-- `narrow_passage_caveat`: the entries beside its kind. -/
  narrowPassages : M → Option Dict
  /-- `engineering_text.plain`. -/
  plain : String → String
  /-- The sentence of a rubric axis, for the engine and the purpose. -/
  axisConcern : String → String → String → Option String
  /-- The measurement that settles a review point. -/
  settledBy : List LimitRow → M → String → String
  /-- The failed reason that an API failure is classified as. -/
  failedReasonFor : String → FailedReason

/-- `VERDICT_BY_LIMITS`. -/
structure Policy where
  verdictByLimits : Bool
  deriving DecidableEq, Repr

def reviewInconclusive : String := "review_inconclusive"
def reviewConcerns : String := "review_concerns"
def measuredVerdictKind : String := "measured_verdict"
def layerCoverage : String := "layer_coverage"
def reviewerNotes : String := "reviewer_notes"
def narrowPassages : String := "narrow_passages"
def physicalScale : String := "physical_scale"

/-- The notes a sound mesh carries, which are no near miss of a requirement. -/
def noteKinds : List String := ["resolution_short", "over_cell_limit"]

def kindOf (c : Dict) : String := (c.get "kind").toStr.getD ""

/-- `engines.fea_review.is_fea`. -/
def isFea (purpose : String) : Bool := Text.strip purpose == "structural"

/-- The classes in which a mesh is the wrong problem. -/
def wrongProblem : List String :=
  ["wrong_side_meshed", "missing_geometry", "wrong_scale", "wrong_flow_setup", "wrong_boundaries",
    "no_flow_path", "shape_changed", "junk_regions", "requirement_absent"]

/-- The gates that measure a wrong problem. -/
def wrongProblemGates : List String :=
  ["port_areas", "region_contract", "file_fidelity", "domain_extent", "patch_contract",
    "boundary_types", "regions_split"]

namespace RunOutcome

variable (t : Tables M) (p : Policy) (o : RunOutcome M)

/-- `review_inconclusive_caveat`. -/
def reviewInconclusiveCaveat : Option Dict :=
  let raw := bareMarker o.apiFailure
  if !isReviewerMarker raw then none
  else if !o.executorSuccess || o.failedGate != "" || o.isDispute then none
  else some [("kind", .str reviewInconclusive), ("marker", .str raw),
    ("reruns", .int (max 0 o.reviewReruns))]

/-- `limits_decide_for`. -/
def limitsDecideFor : Bool := p.verdictByLimits || isFea o.purpose

/-- `_concluded_on_valid_mesh`. -/
def concludedOnValidMesh : Bool :=
  o.apiFailure == "" && o.executorSuccess && o.failedGate == "" &&
    (o.reviewerVerdict == "PASS" || o.reviewerVerdict == "FAIL")

/-- `fea_measured_valid`. -/
def feaMeasuredValid : Bool := isFea o.purpose && t.feaMeasuredValid o.manifest

/-- `review_policy.blocking_findings`. -/
def blockingFindings (findings : List Finding) : List Finding :=
  findings.filter fun f => f.passed == some false && wrongProblem.contains f.blocking

/-- `review_blocking`. -/
def reviewBlocking : List Finding :=
  if p.verdictByLimits then []
  else if !o.concludedOnValidMesh || o.reviewerVerdict != "FAIL" then []
  else if o.feaMeasuredValid t then []
  else blockingFindings o.axisFindings

/-- `_review_points`. -/
def reviewPoints : List Dict :=
  (o.axisFindings.filter fun f => f.passed == some false).map fun f =>
    [("axis_key", .str f.axisKey),
      ("label", .str ((t.axisConcern o.engine o.purpose f.axisKey).getD
        "The reviewer raised a point it could not name here")),
      ("finding", .str (Text.upto 900 (t.plain f.finding))),
      ("severity", .str (if f.severity = "material" then "material" else "minor")),
      ("requirement", .str (Text.upto 300 f.briefRequirement)),
      ("asked_for_rebuild", .bool f.improve)]

/-- `review_concerns_caveat`. -/
def reviewConcernsCaveat : Option Dict :=
  if o.limitsDecideFor p then none
  else if !o.concludedOnValidMesh || o.reviewerVerdict != "FAIL" then none
  else if o.reviewBlocking t p ≠ [] then none
  else if o.reviewPoints t = [] then none
  else some [("kind", .str reviewConcerns), ("items", .arr ((o.reviewPoints t).map .obj))]

/-- `physical_scale_caveat`. -/
def physicalScaleCaveat : Option Dict :=
  (t.physicalScale o.manifest o.flowTopology).map fun c => ("kind", .str physicalScale) :: c

/-- `narrow_passage_caveat`. -/
def narrowPassageCaveat : Option Dict :=
  (t.narrowPassages o.manifest).map fun c => ("kind", .str narrowPassages) :: c

/-! ## The verdict by measured limits -/

inductive MeasuredOutcome
  | pass | concerns | fail | wrongProblem
  deriving DecidableEq, Repr

/-- The inputs of the verdict rule. -/
structure VerdictInputs where
  valid : Bool
  failedGate : String
  gating : List LimitRow
  limits : List LimitRow
  /-- For the record only. -/
  reviewNotes : Nat

/-- The rows that were measured and missed. -/
def missed (rows : List LimitRow) : List LimitRow := rows.filter (·.met == some false)

/-- `decision_record.verdict`. -/
def verdict (i : VerdictInputs) : MeasuredOutcome × String :=
  if i.valid = false ∨ missed i.gating ≠ [] then
    if wrongProblemGates.contains i.failedGate then (.wrongProblem, "VER-4") else (.fail, "VER-1")
  else if missed i.limits ≠ [] then (.concerns, "VER-2")
  else (.pass, "VER-3")

structure MeasuredVerdict where
  outcome : MeasuredOutcome
  rule : String
  inputs : VerdictInputs
  missed : List LimitRow

/-- `_near_misses`. -/
def nearMisses : Nat := o.requirementCaveats.countP fun c => !noteKinds.contains (kindOf c)

/-- `verdict_limits.inputs_for`. -/
def inputsFor : Option VerdictInputs := do
  let valid := o.executorSuccess && o.failedGate == ""
  let topology := if o.flowTopology = "" then t.topologyOf o.purpose else o.flowTopology
  let gating ← if valid then t.gatingRows o.engine o.manifest else some []
  let limits ← t.limitRows o.engine topology o.manifest o.layersPlanned o.nearMisses
    (if (o.physicalScaleCaveat t).isSome then 1 else 0)
  return ⟨valid, o.failedGate, gating, limits, (o.reviewPoints t).length⟩

/-- `measured_verdict`. -/
def measuredVerdict : Option MeasuredVerdict :=
  (o.inputsFor t).map fun i => ⟨(verdict i).1, (verdict i).2, i, missed i.limits⟩

/-- The outcome delivers the mesh. -/
def MeasuredOutcome.Delivers (m : MeasuredOutcome) : Bool := m == .pass || m == .concerns

/-- `_limits_apply`. -/
def limitsApply : Bool :=
  o.executorSuccess && o.failedGate == "" &&
    (o.apiFailure == "" || o.reviewInconclusiveCaveat.isSome)

/-- `limits_failure_checks`. -/
def limitsFailureChecks (v : MeasuredVerdict) : List LimitRow :=
  if missed v.inputs.gating = [] then missed v.inputs.limits else missed v.inputs.gating

def MeasuredOutcome.value : MeasuredOutcome → String
  | .pass => "pass"
  | .concerns => "concerns"
  | .fail => "fail"
  | .wrongProblem => "wrong_problem"

/-- `measured_verdict_caveat`. -/
def measuredVerdictCaveat : Option Dict :=
  if !o.limitsDecideFor p || !o.limitsApply then none
  else (o.measuredVerdict t).bind fun v =>
    if v.outcome.Delivers then
      some [("kind", .str measuredVerdictKind), ("outcome", .str v.outcome.value),
        ("rule", .str v.rule), ("missed", .arr (v.missed.map fun r => .obj r.row))]
    else none

/-- `reviewer_notes_caveat`. -/
def reviewerNotesCaveat : Option Dict :=
  if !o.limitsDecideFor p || !o.concludedOnValidMesh then none
  else if o.reviewPoints t = [] then none
  else
    let rows := ((o.measuredVerdict t).map fun v => v.inputs.gating ++ v.inputs.limits).getD []
    let by' := fun i : Dict => t.settledBy rows o.manifest ((i.get "axis_key").toStr.getD "")
    let settled := (o.reviewPoints t).filter fun i => by' i != ""
    some <| [("kind", .str reviewerNotes),
      ("items", .arr (((o.reviewPoints t).filter fun i => by' i == "").map .obj)),
      ("verdict_rule", .str "VER-6"), ("model_verdict", .str o.reviewerVerdict)] ++
      if settled = [] then [] else
        [("settled", .arr (settled.map fun i =>
          .obj (i ++ [("settled_by", .str (by' i)), ("rule", .str "VER-7")])))]

/-- `recorded_review_verdict`. -/
def recordedReviewVerdict : String :=
  if o.limitsDecideFor p && o.concludedOnValidMesh then
    match o.measuredVerdict t with
    | some v => if v.outcome.Delivers then "PASS" else o.reviewerVerdict
    | none => o.reviewerVerdict
  else o.reviewerVerdict

/-! ## The status -/

structure StatusDecision where
  status : JobStatus
  failedReason : Option FailedReason
  /-- The rows that the measured limits failed on a mesh every gate passed. -/
  limitsFailed : List LimitRow

def granted : StatusDecision := ⟨.succeeded, none, []⟩

/-- `derive_terminal_status`, from the review on. -/
def reviewLedStatus : StatusDecision :=
  if o.apiFailure != "" && o.reviewInconclusiveCaveat.isSome then granted
  else if o.apiFailure ≠ "" then ⟨.failed, some (t.failedReasonFor o.apiFailure), []⟩
  else if o.reviewerVerdict = "PASS" ∧ o.executorSuccess then granted
  else if (o.reviewConcernsCaveat t p).isSome then granted
  else ⟨.failed, some (if o.executorSuccess then .reviewerRejected else .meshGeneration), []⟩

/-- `derive_terminal_status`. -/
def deriveTerminalStatus : StatusDecision :=
  if o.limitsDecideFor p && o.limitsApply then
    match o.measuredVerdict t with
    | some v =>
      if v.outcome.Delivers then granted
      else ⟨.failed, some .meshGeneration, limitsFailureChecks v⟩
    | none => o.reviewLedStatus t p
  else o.reviewLedStatus t p

end RunOutcome

/-- An artifact delivery, in what the status reads. -/
structure Delivery where
  succeeded : Bool
  failedReason : Option FailedReason
  deriving DecidableEq, Repr

/-- `apply_delivery`. -/
def applyDelivery (decision : RunOutcome.StatusDecision) (delivery : Option Delivery) :
    RunOutcome.StatusDecision :=
  match delivery with
  | none => decision
  | some d => if d.succeeded then decision else ⟨.failed, d.failedReason, []⟩

end MeshPipeline.Ending
