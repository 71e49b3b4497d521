import MeshPipeline.Ending.RunOutcome

/-!
# The terminal record of a run

`build_final_result`: what the review came to, the category of a failure and its account, and the
record, which is stored as a dictionary and read back.
-/

namespace MeshPipeline.Ending

inductive ReviewVerdict
  | passed | failed
  deriving DecidableEq, Repr

inductive ReviewExecution
  | notReached | completed | failedToComplete
  deriving DecidableEq, Repr

def ReviewVerdict.value : ReviewVerdict → String
  | .passed => "passed"
  | .failed => "failed"

def ReviewVerdict.ofValue : String → Option ReviewVerdict
  | "passed" => some .passed
  | "failed" => some .failed
  | _ => none

def ReviewExecution.value : ReviewExecution → String
  | .notReached => "not_reached"
  | .completed => "completed"
  | .failedToComplete => "failed_to_complete"

def ReviewExecution.ofValue : String → Option ReviewExecution
  | "not_reached" => some .notReached
  | "completed" => some .completed
  | "failed_to_complete" => some .failedToComplete
  | _ => none

def terminalValue : TerminalStatus → String
  | .succeeded => "succeeded"
  | .failed => "failed"
  | .cancelled => "cancelled"

def terminalOfValue : String → Option TerminalStatus
  | "succeeded" => some .succeeded
  | "failed" => some .failed
  | "cancelled" => some .cancelled
  | _ => none

def categoryValue : FailureCategory → String
  | .incompatibleRequirements => "incompatible_requirements"
  | .authoringFailed => "authoring_failed"
  | .nativeExecutionFailed => "native_execution_failed"
  | .requiredOutputMissing => "required_output_missing"
  | .gateFailed => "gate_failed"
  | .inputRejected => "input_rejected"
  | .reviewRejected => "review_rejected"
  | .attemptsExhausted => "attempts_exhausted"
  | .deliveryFailed => "delivery_failed"
  | .timedOut => "timed_out"
  | .internalPipelineFailure => "internal_pipeline_failure"
  | .workerLost => "worker_lost"
  | .neverStarted => "never_started"

/-- `FinalResult`; a verdict is present exactly when the review concluded. -/
structure FinalResult where
  schemaVersion : Int
  jobId : String
  ownerId : String
  status : TerminalStatus
  engine : String
  purpose : String
  dimensionality : String
  requestedMeshFidelity : Option String
  effectiveMeshFidelity : String
  meshFidelitySource : String
  fidelityPolicyVersion : String
  approvedSnapshotId : String
  executorSuccess : Bool
  reviewerVerdict : Option ReviewVerdict
  reviewExecution : ReviewExecution
  failedGate : String
  patchContractOk : Option Bool
  outcomeCode : String
  failureCategory : Option String
  attempts : Int
  attemptsMax : Int
  requiredReady : Bool
  deliveredTypes : List String
  requirementCaveats : List Dict
  engineLadder : Dict
  repairLineage : Dict
  optionalWarnings : List String
  missingOutputs : List String
  finalizedAt : String
  failureCause : String
  failureDetail : String
  failureNextStep : String
  retrySkipped : Bool
  reviewParked : Int
  reviewLeft : Dict
  reviewTruncated : Int
  notesRemarks : List String
  concluded : reviewerVerdict.isSome = true ↔ reviewExecution = .completed

/-- What the record is built from: the arguments of `build_final_result`. -/
structure RecordRequest where
  jobId : String
  ownerId : String
  status : TerminalStatus
  engine : String
  purpose : String
  dimensionality : String
  approvedSnapshotId : String
  requestedMeshFidelity : Option String
  effectiveMeshFidelity : String
  meshFidelitySource : String
  fidelityPolicyVersion : String
  executorSuccess : Bool
  reviewerVerdict : String
  failedGate : String
  apiFailure : String
  attempts : Int
  attemptsMax : Int
  requiredReady : Bool
  deliveredTypes : List String
  optionalWarnings : List String
  pipelineTimedOut : Bool
  requirementCaveats : List Dict
  failureCause : String
  failureFacts : Dict
  reviewReruns : Int
  reviewBlocking : List Finding
  attemptsMade : Option Int
  finalizedAt : String

/-- The sentences of the failure causes, and what the engines declare. -/
structure Accounts where
  /-- `failure_cause.describe`: what failed, and what to do next. -/
  describe : String → Dict → String → String × String
  cleanReason : Json → String
  plain : String → String
  /-- What a class of wrong problem means, as a sentence begins. -/
  wrongProblemWords : String → String
  /-- `engine_label(engine) or engine`. -/
  engineLabel : String → String
  /-- `retry_can_help` of a cause that is known. -/
  retryCanHelp : String → Dict → Bool
  /-- `required_output_classes`, of an engine and a purpose. -/
  requiredOutputClasses : String → String → List String

/-- `artifact_policy.required_ready`. -/
def requiredReady (a : Accounts) (engine : String) (delivered : List String) (purpose : String) :
    Bool :=
  let required := a.requiredOutputClasses engine purpose
  !required.isEmpty && required.all fun c => delivered.contains c

/-- `artifact_policy.optional_warnings`. -/
def optionalWarnings (delivered : List String) : List String :=
  ["mesh"].filter fun c => !delivered.contains c

namespace FinalResult

/-! ## What the review came to -/

/-- `(reviewer_verdict or "").strip().upper()`. -/
def normVerdict (verdict : String) : String :=
  String.ofList ((Text.strip verdict).toList.map Char.toUpper)

/-- The execution state and the verdict of the review. -/
structure Review where
  execution : ReviewExecution
  verdict : Option ReviewVerdict
  concluded : verdict.isSome = true ↔ execution = .completed

/-- The review of the last attempt; a verdict that an earlier attempt left is none of its own. -/
def review (r : RecordRequest) : Review :=
  let verdict := normVerdict r.reviewerVerdict
  if r.apiFailure ≠ "" ∧
      (isReviewerMarker (bareMarker r.apiFailure) ∨ verdict = "PASS" ∨ verdict = "FAIL") then
    ⟨.failedToComplete, none, by decide⟩
  else if verdict ≠ "" ∧ (r.failedGate ≠ "" ∨ r.executorSuccess = false) then
    ⟨.notReached, none, by decide⟩
  else if verdict = "FAIL" then ⟨.completed, some .failed, by decide⟩
  else if verdict = "PASS" then ⟨.completed, some .passed, by decide⟩
  else ⟨.notReached, none, by decide⟩

def geometryInputGate : String := "geometry"

/-- `_derive_failure_category`. -/
def deriveFailureCategory (r : RecordRequest) : FailureCategory :=
  let v := review r
  if v.execution = .failedToComplete ∧ r.pipelineTimedOut = false then .internalPipelineFailure
  else if r.failedGate = geometryInputGate then .inputRejected
  else if r.failedGate ≠ "" then .gateFailed
  else if v.execution = .completed ∧ v.verdict = some .failed then .reviewRejected
  else if r.executorSuccess ∧ v.verdict = some .passed ∧ r.requiredReady = false then
    .deliveryFailed
  else if r.pipelineTimedOut then .timedOut
  else if r.apiFailure ≠ "" then .internalPipelineFailure
  else if r.executorSuccess = false then
    if r.attemptsMax ≠ 0 ∧ r.attemptsMax ≤ r.attempts then .attemptsExhausted
    else .nativeExecutionFailed
  else .internalPipelineFailure

/-! ## The account of a failure -/

/-- What is told beside the category. -/
structure Account where
  category : FailureCategory
  cause : String
  detail : String
  nextStep : String
  facts : Dict

def causes : List String :=
  ["contract_mismatch", "patch_not_captured", "boundary_type", "mesh_quality", "under_resolved",
    "cell_budget", "domain_extent", "not_solvable", "region_split", "engine_crashed", "not_built",
    "engine_timed_out", "run_infrastructure", "geometry_rejected", "review_incomplete"]

/-- `as_cause`. -/
def asCause (value : String) : Option String := if value ∈ causes then some value else none

/-- `SEAM_CAUSES`. -/
def seamCause : String → Option String
  | "finalize" => some "engine_crashed"
  | "domain_extent" => some "domain_extent"
  | "solvability" => some "not_solvable"
  | "geometry" => some "geometry_rejected"
  | _ => none

/-- `_cause_account`. -/
def causeAccount (a : Accounts) (failedGate failureCause : String) (facts : Dict)
    (engine : String) : String × String × String :=
  let known := asCause failureCause
  let facts := if known.isSome then facts else []
  match known.orElse fun _ => seamCause failedGate with
  | none => ("", "", "")
  | some cause =>
    let told := a.describe cause facts (a.engineLabel engine)
    if told.1 = "" then ("", "", "") else (cause, told.1, told.2)

/-- `_wrong_problem_account`. -/
def wrongProblemAccount (a : Accounts) (blocking : List Finding) : String × String :=
  let part := fun f : Finding =>
    let seen := Text.rstrip [' ', '.'] (Text.strip (a.plain f.finding))
    a.wrongProblemWords f.blocking ++
      (if seen = "" then "" else " - the reviewer saw: " ++ Text.upto 600 seen) ++ "."
  ("Every automatic check on the mesh passed, but it represents a different problem than the one " ++
      "you confirmed: " ++ " ".intercalate (blocking.map part),
    "Check the geometry and setup you confirmed - the boundaries, the flow direction, the size and " ++
      "units - then say \"run it again\", or tell me what to change first.")

/-- Python's `a or b` on strings. -/
def orElse (a b : String) : String := if a = "" then b else a

/-- `_admission_account`. -/
def admissionAccount (a : Accounts) (facts : Dict) (engine : String) :
    FailureCategory × String × String × String :=
  let phases := ((facts.list Json.toStr "phases").getD [])
  let reason := a.cleanReason (facts.get "reason")
  let declared := a.cleanReason (facts.get "declared_reason")
  if facts.truth "refused_by_design" ∧ declared ≠ "" then
    (.incompatibleRequirements, "geometry_rejected",
      declared ++ ". Nothing was built, and no attempt was used.", "")
  else if phases ≠ [] ∧ "measured" ∉ phases then
    let why := orElse declared reason
    let label := a.engineLabel engine
    (.incompatibleRequirements, "",
      "The requested setup cannot be meshed" ++ (if label = "" then "" else " by " ++ label) ++
        " as specified" ++ (if why = "" then "." else ": " ++ why ++ ".") ++
        " Your geometry was not the problem.",
      "Tell me what to change in this chat - the setting, or the engine - and I will set up a new run.")
  else if reason = "" then (.inputRejected, "", "", "")
  else
    let measured := orElse (a.cleanReason (facts.get "measured_reason")) reason
    let what := (a.describe "geometry_rejected" [("reason", .str measured)] engine).1
    let also :=
      if "declared" ∈ phases ∧ declared ≠ "" then
        " The setup also needs a change before this can run: " ++ declared ++
          ". Tell me what to change in this chat when you upload the fixed file."
      else ""
    (.inputRejected, "geometry_rejected", what ++ also, "")

/-- The account of a failure of this category. -/
def accountOf (a : Accounts) (r : RecordRequest) : Account :=
  let category := deriveFailureCategory r
  if category = .gateFailed then
    let told := causeAccount a r.failedGate r.failureCause r.failureFacts r.engine
    ⟨category, told.1, told.2.1, told.2.2, r.failureFacts⟩
  else if category = .reviewRejected ∧ r.reviewBlocking ≠ [] then
    let told := wrongProblemAccount a r.reviewBlocking
    ⟨category, "", told.1, told.2, r.failureFacts⟩
  else if category = .inputRejected then
    let told := admissionAccount a r.failureFacts r.engine
    ⟨told.1, told.2.1, told.2.2.1, told.2.2.2, r.failureFacts⟩
  else if category = .internalPipelineFailure ∧ (review r).execution = .failedToComplete ∧
      isReviewerMarker (bareMarker r.apiFailure) then
    let facts : Dict :=
      [("marker", .str (bareMarker r.apiFailure)), ("validated", .bool r.executorSuccess),
        ("reruns", .int (max 0 r.reviewReruns))]
    let told := a.describe "review_incomplete" facts ""
    ⟨category, "review_incomplete", told.1, told.2, facts⟩
  else ⟨category, "", "", "", r.failureFacts⟩

/-! ## The record -/

/-- `build_final_result` of a success. -/
def succeeded (r : RecordRequest) (shown : Int) : FinalResult where
  schemaVersion := finalResultSchemaVersion
  jobId := r.jobId
  ownerId := r.ownerId
  status := .succeeded
  engine := r.engine
  purpose := r.purpose
  dimensionality := r.dimensionality
  requestedMeshFidelity := r.requestedMeshFidelity
  effectiveMeshFidelity := r.effectiveMeshFidelity
  meshFidelitySource := r.meshFidelitySource
  fidelityPolicyVersion := r.fidelityPolicyVersion
  approvedSnapshotId := r.approvedSnapshotId
  executorSuccess := true
  reviewerVerdict := (review r).verdict
  reviewExecution := (review r).execution
  failedGate := ""
  patchContractOk := some true
  outcomeCode := "success"
  failureCategory := none
  attempts := shown
  attemptsMax := r.attemptsMax
  requiredReady := r.requiredReady
  deliveredTypes := r.deliveredTypes
  requirementCaveats := r.requirementCaveats
  engineLadder := []
  repairLineage := []
  optionalWarnings := r.optionalWarnings
  missingOutputs := []
  finalizedAt := r.finalizedAt
  failureCause := ""
  failureDetail := ""
  failureNextStep := ""
  retrySkipped := false
  reviewParked := 0
  reviewLeft := []
  reviewTruncated := 0
  notesRemarks := []
  concluded := (review r).concluded

/-- `build_final_result` of a failure. -/
def failed (a : Accounts) (r : RecordRequest) (shown : Int) : FinalResult :=
  let told := accountOf a r
  { schemaVersion := finalResultSchemaVersion
    jobId := r.jobId
    ownerId := r.ownerId
    status := r.status
    engine := r.engine
    purpose := r.purpose
    dimensionality := r.dimensionality
    requestedMeshFidelity := r.requestedMeshFidelity
    effectiveMeshFidelity := r.effectiveMeshFidelity
    meshFidelitySource := r.meshFidelitySource
    fidelityPolicyVersion := r.fidelityPolicyVersion
    approvedSnapshotId := r.approvedSnapshotId
    executorSuccess := r.executorSuccess
    reviewerVerdict := (review r).verdict
    reviewExecution := (review r).execution
    failedGate := r.failedGate
    patchContractOk :=
      if r.failedGate ≠ "" then some (r.failedGate != "patch_contract")
      else if r.executorSuccess then some true else none
    outcomeCode := categoryValue told.category
    failureCategory := some (categoryValue told.category)
    attempts := shown
    attemptsMax := r.attemptsMax
    requiredReady := false
    deliveredTypes := []
    requirementCaveats := []
    engineLadder := []
    repairLineage := []
    optionalWarnings := r.optionalWarnings
    missingOutputs := a.requiredOutputClasses r.engine ""
    finalizedAt := r.finalizedAt
    failureCause := told.cause
    failureDetail := told.detail
    failureNextStep := told.nextStep
    retrySkipped :=
      told.cause != "" && (asCause told.cause).isSome && !a.retryCanHelp told.cause told.facts
    reviewParked := 0
    reviewLeft := []
    reviewTruncated := 0
    notesRemarks := []
    concluded := (review r).concluded }

def saysConcerns (c : Dict) : Bool :=
  [layerCoverage, reviewConcerns, measuredVerdictKind].contains (kindOf c)

def saysInconclusive (c : Dict) : Bool := kindOf c == reviewInconclusive

/-- `build_final_result`: a success that the record would contradict is refused. -/
def build (a : Accounts) (r : RecordRequest) : Except String FinalResult :=
  let shown := r.attemptsMade.elim r.attempts (max 0)
  if r.status = .succeeded then
    if (review r).verdict = some .failed ∧ r.requirementCaveats.any saysConcerns = false then
      .error "succeeded with a FAIL review verdict"
    else if (review r).execution = .failedToComplete ∧
        r.requirementCaveats.any saysInconclusive = false then
      .error "succeeded with a review that did not finish"
    else .ok (succeeded r shown)
  else .ok (failed a r shown)

/-! ## The stored form -/

/-- `to_dict`. -/
def toDict (r : FinalResult) : Dict :=
  [("schema_version", .int r.schemaVersion), ("job_id", .str r.jobId), ("owner_id", .str r.ownerId),
    ("status", .str (terminalValue r.status)), ("engine", .str r.engine),
    ("purpose", .str r.purpose), ("dimensionality", .str r.dimensionality),
    ("requested_mesh_fidelity", .ofOption .str r.requestedMeshFidelity),
    ("effective_mesh_fidelity", .str r.effectiveMeshFidelity),
    ("mesh_fidelity_source", .str r.meshFidelitySource),
    ("fidelity_policy_version", .str r.fidelityPolicyVersion),
    ("approved_snapshot_id", .str r.approvedSnapshotId),
    ("executor_success", .bool r.executorSuccess),
    ("reviewer_verdict", .ofOption (fun v => .str v.value) r.reviewerVerdict),
    ("review_execution", .str r.reviewExecution.value), ("failed_gate", .str r.failedGate),
    ("patch_contract_ok", .ofOption .bool r.patchContractOk), ("outcome_code", .str r.outcomeCode),
    ("failure_category", .ofOption .str r.failureCategory), ("attempts", .int r.attempts),
    ("attempts_max", .int r.attemptsMax), ("required_ready", .bool r.requiredReady),
    ("delivered_types", .arr (r.deliveredTypes.map .str)),
    ("requirement_caveats", .arr (r.requirementCaveats.map .obj)),
    ("engine_ladder", .obj r.engineLadder), ("repair_lineage", .obj r.repairLineage),
    ("optional_warnings", .arr (r.optionalWarnings.map .str)),
    ("missing_outputs", .arr (r.missingOutputs.map .str)), ("finalized_at", .str r.finalizedAt),
    ("failure_cause", .str r.failureCause), ("failure_detail", .str r.failureDetail),
    ("failure_next_step", .str r.failureNextStep), ("retry_skipped", .bool r.retrySkipped),
    ("review_parked", .int r.reviewParked), ("review_left", .obj r.reviewLeft),
    ("review_truncated", .int r.reviewTruncated),
    ("notes_remarks", .arr (r.notesRemarks.map .str))]

def readableSchemaVersions : List Int := [4, 5]

/-- `ReviewVerdict(d["reviewer_verdict"])` where it is not `None`. -/
def readVerdict (d : Dict) : Option (Option ReviewVerdict) := do
  match ← d.text? "reviewer_verdict" with
  | none => some none
  | some value => (ReviewVerdict.ofValue value).map some

/-- `from_dict`: `none` where it raises. -/
def fromDict (d : Dict) : Option FinalResult := do
  let .int schemaVersion := d.get "schema_version" | none
  if schemaVersion ∉ readableSchemaVersions then none
  let jobId ← (d.get "job_id").toStr
  let ownerId ← (d.get "owner_id").toStr
  let status ← (d.get "status").toStr.bind terminalOfValue
  let engine ← d.text "engine" ""
  let purpose ← d.text "purpose" ""
  let dimensionality ← d.text "dimensionality" ""
  let requestedMeshFidelity ← d.text? "requested_mesh_fidelity"
  let effectiveMeshFidelity ← d.text "effective_mesh_fidelity" ""
  let meshFidelitySource ← d.text "mesh_fidelity_source" ""
  let fidelityPolicyVersion ← d.text "fidelity_policy_version" ""
  let approvedSnapshotId ← d.text "approved_snapshot_id" ""
  let reviewerVerdict ← readVerdict d
  let reviewExecution ← (d.text "review_execution" "not_reached").bind ReviewExecution.ofValue
  let failedGate ← d.text "failed_gate" ""
  let patchContractOk ← d.bool? "patch_contract_ok"
  let outcomeCode ← d.text "outcome_code" ""
  let failureCategory ← d.text? "failure_category"
  let attempts ← d.int "attempts"
  let attemptsMax ← d.int "attempts_max"
  let deliveredTypes ← d.list Json.toStr "delivered_types"
  let requirementCaveats ← d.list Json.toObj "requirement_caveats"
  let optionalWarnings ← d.list Json.toStr "optional_warnings"
  let missingOutputs ← d.list Json.toStr "missing_outputs"
  let finalizedAt ← d.text "finalized_at" ""
  let failureCause ← d.text "failure_cause" ""
  let failureDetail ← d.text "failure_detail" ""
  let failureNextStep ← d.text "failure_next_step" ""
  let reviewParked ← d.int "review_parked"
  let reviewTruncated ← d.int "review_truncated"
  let notesRemarks ← d.list Json.toStr "notes_remarks"
  if concluded : reviewerVerdict.isSome = true ↔ reviewExecution = .completed then
    some {
      schemaVersion, jobId, ownerId, status, engine, purpose, dimensionality,
      requestedMeshFidelity, effectiveMeshFidelity, meshFidelitySource, fidelityPolicyVersion,
      approvedSnapshotId, reviewerVerdict, reviewExecution, failedGate, patchContractOk,
      outcomeCode, failureCategory, attempts, attemptsMax, deliveredTypes, requirementCaveats,
      optionalWarnings, missingOutputs, finalizedAt, failureCause, failureDetail, failureNextStep,
      reviewParked, reviewTruncated, concluded
      executorSuccess := d.truth "executor_success"
      requiredReady := d.truth "required_ready"
      engineLadder := d.dict "engine_ladder"
      repairLineage := d.dict "repair_lineage"
      retrySkipped := d.truth "retry_skipped"
      reviewLeft := d.dict "review_left"
      notesRemarks := notesRemarks.filter fun r => Text.strip r ≠ "" }
  else none

end FinalResult

end MeshPipeline.Ending
