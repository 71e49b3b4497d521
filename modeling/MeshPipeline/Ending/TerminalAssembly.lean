import MeshPipeline.Ending.RecordedEnding

/-!
# From the final graph state to the terminal record

The outcome of a run decides a status, a failed delivery takes a granted one back, and the record is
built from both. The record tells the ending that was decided exactly for the runs that are
consistent.
-/

namespace MeshPipeline.Ending

variable {M : Type*}

/-- A run that reached its final graph state. -/
structure Run (M : Type*) where
  jobId : String
  ownerId : String
  state : FinalState M
  requestedMeshFidelity : Option String
  effectiveMeshFidelity : String
  meshFidelitySource : String
  fidelityPolicyVersion : String
  /-- What the delivery of its artifacts comes to, if one is made. -/
  delivery : Delivery
  /-- The artifact types that are stored when the record is assembled. -/
  deliveredTypes : List String
  timedOut : Bool
  /-- `_attempts_made`. -/
  attemptsMade : Int
  /-- `BUILDER_MAX_TOTAL_ATTEMPTS`. -/
  attemptsMax : Int
  finalizedAt : String

def measuredLimitsGate : String := "measured_limits"

namespace Run

section Assembly

variable (t : Tables M) (p : Policy) (a : Accounts) (run : Run M)

def outcome : RunOutcome M := .fromGraphState run.state

def decision : RunOutcome.StatusDecision := run.outcome.deriveTerminalStatus t p

/-- Only a granted success is delivered. -/
def attempted : Option Delivery :=
  if (run.decision t p).status = .succeeded then some run.delivery else none

def ending : RunOutcome.StatusDecision := applyDelivery (run.decision t p) (run.attempted t p)

/-- The caveats of the record, after those that the graph carries. -/
def authored : List Dict :=
  (run.outcome.reviewConcernsCaveat t p).toList ++ run.outcome.reviewInconclusiveCaveat.toList ++
    (run.outcome.narrowPassageCaveat t).toList ++ (run.outcome.physicalScaleCaveat t).toList ++
    (run.outcome.measuredVerdictCaveat t p).toList ++ (run.outcome.reviewerNotesCaveat t p).toList

/-- `TerminalAssembly` and `build_terminal_result`. -/
def request : RecordRequest :=
  let refused := (run.decision t p).limitsFailed
  let ready := requiredReady a run.state.engine run.deliveredTypes run.state.purpose
  { jobId := run.jobId
    ownerId := run.ownerId
    status := if (run.ending t p).status = .succeeded then .succeeded else .failed
    engine := run.state.engine
    purpose := run.state.purpose
    dimensionality := run.state.dimensionality
    approvedSnapshotId := run.state.approvedSnapshotId
    requestedMeshFidelity := run.requestedMeshFidelity
    effectiveMeshFidelity := run.effectiveMeshFidelity
    meshFidelitySource := run.meshFidelitySource
    fidelityPolicyVersion := run.fidelityPolicyVersion
    executorSuccess := run.state.executorSuccess
    reviewerVerdict := run.outcome.recordedReviewVerdict t p
    failedGate := if refused.isEmpty then run.state.executorFailedGate else measuredLimitsGate
    apiFailure := run.outcome.apiFailure
    attempts := run.state.retryCount
    attemptsMax := run.attemptsMax
    requiredReady := ready
    deliveredTypes := run.deliveredTypes
    optionalWarnings := if ready then optionalWarnings run.deliveredTypes else []
    pipelineTimedOut := run.timedOut
    requirementCaveats := run.state.requirementCaveats ++ run.authored t p
    failureCause := if refused.isEmpty then run.state.executorFailureCause else "mesh_quality"
    failureFacts :=
      if refused.isEmpty then run.state.executorFailureFacts
      else [("checks", .arr (refused.map fun r => .obj r.row))]
    reviewReruns := run.state.reviewRerunCount
    reviewBlocking := run.outcome.reviewBlocking t p
    attemptsMade := some run.attemptsMade
    finalizedAt := run.finalizedAt }

def record : Except String FinalResult := FinalResult.build a (run.request t p a)

end Assembly

/-! ## When a mesh may be delivered -/

section Deliverable

variable (t : Tables M) (p : Policy) (run : Run M)

/-- The limits decide on the mesh with this verdict. -/
def MeasuredAs (v : RunOutcome.MeasuredVerdict) : Prop :=
  run.outcome.limitsDecideFor p = true ∧ run.outcome.measuredVerdict t = some v

/-- The review of a mesh does not stand against its delivery. -/
def ReviewAllows : Prop :=
  run.outcome.apiFailure ≠ "" ∨ run.state.reviewerVerdict = "PASS" ∨
    run.outcome.limitsDecideFor p = false ∧ run.state.reviewerVerdict = "FAIL" ∧
      run.outcome.reviewBlocking t p = [] ∧ ∃ f ∈ run.state.axisFindings, f.passed = some false

/-- Every gate passed the mesh, its review concluded or stopped on its own, and the limits allow its
delivery, or the review does where they do not decide. -/
def Deliverable : Prop :=
  run.state.executorSuccess = true ∧ run.state.executorFailedGate = "" ∧
    (run.outcome.apiFailure = "" ∨ run.outcome.reviewInconclusiveCaveat.isSome = true) ∧
    ((∃ v, run.MeasuredAs t p v ∧ v.outcome.Delivers = true) ∨
      (∀ v, ¬ run.MeasuredAs t p v) ∧ run.ReviewAllows t p)

lemma inconclusive_isSome :
    run.outcome.reviewInconclusiveCaveat.isSome = true ↔
      isReviewerMarker (bareMarker run.outcome.apiFailure) = true ∧
        run.state.executorSuccess = true ∧ run.state.executorFailedGate = "" ∧
        run.state.userDispute = false := by
  simp only [RunOutcome.reviewInconclusiveCaveat, outcome, RunOutcome.fromGraphState]
  grind

lemma concludedOnValidMesh_iff :
    run.outcome.concludedOnValidMesh = true ↔
      run.outcome.apiFailure = "" ∧ run.state.executorSuccess = true ∧
        run.state.executorFailedGate = "" ∧
        (run.state.reviewerVerdict = "PASS" ∨ run.state.reviewerVerdict = "FAIL") := by
  simp only [RunOutcome.concludedOnValidMesh, outcome, RunOutcome.fromGraphState]
  grind

lemma reviewPoints_ne_nil :
    run.outcome.reviewPoints t ≠ [] ↔ ∃ f ∈ run.state.axisFindings, f.passed = some false := by
  simp [RunOutcome.reviewPoints, outcome, RunOutcome.fromGraphState]

lemma concerns_isSome :
    (run.outcome.reviewConcernsCaveat t p).isSome = true ↔
      run.outcome.limitsDecideFor p = false ∧ run.outcome.concludedOnValidMesh = true ∧
        run.state.reviewerVerdict = "FAIL" ∧ run.outcome.reviewBlocking t p = [] ∧
        ∃ f ∈ run.state.axisFindings, f.passed = some false := by
  rw [← reviewPoints_ne_nil t, RunOutcome.reviewConcernsCaveat]
  have hverdict : run.outcome.reviewerVerdict = run.state.reviewerVerdict := rfl
  grind

lemma limitsApply_iff :
    run.outcome.limitsApply = true ↔
      run.state.executorSuccess = true ∧ run.state.executorFailedGate = "" ∧
        (run.outcome.apiFailure = "" ∨ run.outcome.reviewInconclusiveCaveat.isSome = true) := by
  have hsuccess : run.outcome.executorSuccess = run.state.executorSuccess := rfl
  have hgate : run.outcome.failedGate = run.state.executorFailedGate := rfl
  simp only [RunOutcome.limitsApply, hsuccess, hgate]
  grind

variable {t} in
lemma inputsFor_eq (o : RunOutcome M) :
    o.inputsFor t =
      (if (o.executorSuccess && o.failedGate == "") = true then t.gatingRows o.engine o.manifest
        else some []).bind fun gating =>
        (t.limitRows o.engine
          (if o.flowTopology = "" then t.topologyOf o.purpose else o.flowTopology) o.manifest
          o.layersPlanned o.nearMisses
          (if (o.physicalScaleCaveat t).isSome then 1 else 0)).map fun limits =>
            ⟨o.executorSuccess && o.failedGate == "", o.failedGate, gating, limits,
              (o.reviewPoints t).length⟩ := by
  unfold RunOutcome.inputsFor
  dsimp only
  split <;> simp [bind, Option.map_eq_bind, Function.comp_def, pure]

variable {t} in
lemma inputsFor_valid {o : RunOutcome M} {i : RunOutcome.VerdictInputs}
    (h : o.inputsFor t = some i) : i.valid = (o.executorSuccess && o.failedGate == "") := by
  rw [inputsFor_eq] at h
  obtain ⟨gating, -, hlimits⟩ := Option.bind_eq_some_iff.mp h
  obtain ⟨limits, -, rfl⟩ := Option.map_eq_some_iff.mp hlimits
  rfl

variable {t p run}

/-- The limits fail a mesh that passed every gate over a gating row that it missed. -/
lemma limitsFailureChecks_ne_nil {v : RunOutcome.MeasuredVerdict}
    (hmeasured : run.outcome.measuredVerdict t = some v) (happly : run.outcome.limitsApply = true)
    (hfails : v.outcome.Delivers = false) : RunOutcome.limitsFailureChecks v ≠ [] := by
  obtain ⟨i, hi, rfl⟩ := Option.map_eq_some_iff.mp hmeasured
  have hvalid : i.valid = true := by
    obtain ⟨hsuccess, hgate, -⟩ := (limitsApply_iff run).mp happly
    rw [inputsFor_valid hi]
    simp [outcome, RunOutcome.fromGraphState, hsuccess, hgate]
  have hmissed : RunOutcome.missed i.gating ≠ [] := by
    rintro hnone
    have hverdict : (RunOutcome.verdict i).1 = .concerns ∨ (RunOutcome.verdict i).1 = .pass := by
      rw [RunOutcome.verdict, if_neg (by simp [hvalid, hnone])]
      split
      · exact .inl rfl
      · exact .inr rfl
    rcases hverdict with h | h <;> rw [h] at hfails <;> cases hfails
  simp [RunOutcome.limitsFailureChecks, hmissed]

variable (t p run) in
/-- The review-led decision, read off the inputs. -/
lemma reviewLed_iff :
    (run.outcome.reviewLedStatus t p).status = .succeeded ↔
      (run.outcome.apiFailure ≠ "" ∧ run.outcome.reviewInconclusiveCaveat.isSome = true) ∨
        run.outcome.apiFailure = "" ∧ ((run.state.reviewerVerdict = "PASS" ∧
          run.state.executorSuccess = true) ∨ (run.outcome.reviewConcernsCaveat t p).isSome = true) := by
  have hsuccess : run.outcome.executorSuccess = run.state.executorSuccess := rfl
  have hverdict : run.outcome.reviewerVerdict = run.state.reviewerVerdict := rfl
  simp only [RunOutcome.reviewLedStatus, RunOutcome.granted, hsuccess, hverdict]
  grind

/-- The decision, read off the inputs. -/
theorem granted_iff :
    (run.decision t p).status = .succeeded ↔
      run.Deliverable t p ∨ run.state.executorSuccess = true ∧ run.state.executorFailedGate ≠ "" ∧
        run.outcome.apiFailure = "" ∧ run.state.reviewerVerdict = "PASS" := by
  have happly := limitsApply_iff run
  have hled := reviewLed_iff t p run
  have hconcerns := concerns_isSome t p run
  have hconcluded := concludedOnValidMesh_iff run
  have hinconclusive := inconclusive_isSome run
  unfold decision RunOutcome.deriveTerminalStatus Deliverable MeasuredAs ReviewAllows
  cases hmeasured : run.outcome.measuredVerdict t with
  | none => grind
  | some v => 
    simp only [RunOutcome.granted]
    grind

lemma decision_of_granted (h : (run.decision t p).status = .succeeded) :
    run.decision t p = RunOutcome.granted := by
  unfold decision RunOutcome.deriveTerminalStatus RunOutcome.reviewLedStatus at h ⊢
  grind

/-- A mesh that the limits refuse is told as the check that it failed. -/
lemma refused_iff :
    (run.decision t p).limitsFailed ≠ [] ↔
      run.outcome.limitsApply = true ∧
        ∃ v, run.MeasuredAs t p v ∧ v.outcome.Delivers = false := by
  have hchecks : ∀ v, run.outcome.measuredVerdict t = some v → run.outcome.limitsApply = true →
      v.outcome.Delivers = false → RunOutcome.limitsFailureChecks v ≠ [] :=
    fun _ => limitsFailureChecks_ne_nil
  have hled : (run.outcome.reviewLedStatus t p).limitsFailed = [] := by
    unfold RunOutcome.reviewLedStatus RunOutcome.granted
    grind
  unfold decision RunOutcome.deriveTerminalStatus RunOutcome.granted MeasuredAs
  cases hmeasured : run.outcome.measuredVerdict t <;> grind

end Deliverable

section Recorded

variable (t : Tables M) (p : Policy) (run : Run M)

/-- The review concluded on a mesh that the limits let through. -/
def PassedByLimits : Prop :=
  run.outcome.concludedOnValidMesh = true ∧ ∃ v, run.MeasuredAs t p v ∧ v.outcome.Delivers = true

def ReviewPassed : Prop :=
  run.PassedByLimits t p ∨ FinalResult.normVerdict run.state.reviewerVerdict = "PASS"

def ReviewFailed : Prop :=
  ¬ run.PassedByLimits t p ∧ FinalResult.normVerdict run.state.reviewerVerdict = "FAIL"

variable {t p run}

variable (t p run) in
lemma recorded_eq :
    (run.PassedByLimits t p ∧ run.outcome.recordedReviewVerdict t p = "PASS") ∨
      ¬ run.PassedByLimits t p ∧
        run.outcome.recordedReviewVerdict t p = run.state.reviewerVerdict := by
  have hverdict : run.outcome.reviewerVerdict = run.state.reviewerVerdict := rfl
  unfold RunOutcome.recordedReviewVerdict PassedByLimits MeasuredAs
  cases hmeasured : run.outcome.measuredVerdict t <;> grind

lemma normVerdict_pass : FinalResult.normVerdict "PASS" = "PASS" := by decide

/-- What the record takes for the verdict of the review. -/
lemma recorded_passed :
    FinalResult.normVerdict (run.outcome.recordedReviewVerdict t p) = "PASS" ↔
      run.ReviewPassed t p := by
  unfold ReviewPassed
  rcases recorded_eq t p run with ⟨hlimits, h⟩ | ⟨hlimits, h⟩
  · simp [h, hlimits, normVerdict_pass]
  · simp [h, hlimits]

lemma recorded_failed :
    FinalResult.normVerdict (run.outcome.recordedReviewVerdict t p) = "FAIL" ↔
      run.ReviewFailed t p := by
  unfold ReviewFailed
  rcases recorded_eq t p run with ⟨hlimits, h⟩ | ⟨hlimits, h⟩
  · simp [h, hlimits, normVerdict_pass]
  · simp [h, hlimits]

end Recorded

section Telling

variable (t : Tables M) (p : Policy) (a : Accounts) (run : Run M)

/-- The record tells the ending that was decided. -/
structure Tells : Prop where
  /-- A success is granted to a validated mesh alone. -/
  granted : (run.decision t p).status = .succeeded →
    run.state.executorSuccess = true ∧ run.state.executorFailedGate = ""
  /-- A record is always built, and is a success exactly for a run that ended in one. -/
  built : ∃ result, run.record t p a = .ok result ∧
    (result.status = .succeeded ↔ (run.ending t p).status = .succeeded)
  /-- A success that could not be delivered is told as one, or as a run out of time. -/
  undelivered : (run.decision t p).status = .succeeded → run.delivery.succeeded = false →
    ∃ result, run.record t p a = .ok result ∧
      (result.failureCategory = some (categoryValue .deliveryFailed) ∨
        run.timedOut = true ∧ result.failureCategory = some (categoryValue .timedOut))
  /-- Only a finding of a wrong problem rejects a mesh. -/
  rejected : ∀ result, run.record t p a = .ok result →
    result.failureCategory = some (categoryValue .reviewRejected) →
    (run.decision t p).status ≠ .succeeded ∧ run.outcome.reviewBlocking t p ≠ []
  /-- Where the limits decide, no verdict and no finding changes the decision. -/
  measured : ∀ v, run.MeasuredAs t p v → run.outcome.limitsApply = true →
    ∀ verdict findings, ({ run.outcome with
      reviewerVerdict := verdict, axisFindings := findings }).deriveTerminalStatus t p =
        run.decision t p
  /-- The record is read back as it was stored. -/
  stored : ∀ result, run.record t p a = .ok result →
    FinalResult.fromDict (FinalResult.toDict result) = some result

/-- What a run has to be for its record to tell its ending. -/
structure Consistent : Prop where
  /-- A review passes no mesh that a gate failed. -/
  validated : run.outcome.apiFailure = "" → run.state.reviewerVerdict = "PASS" →
    run.state.executorSuccess = true → run.state.executorFailedGate = ""
  /-- An undelivered mesh had passed its review and lacks a required class, or the run is out of
  time and its review had not failed the mesh. -/
  undelivered : run.delivery.succeeded = false → run.Deliverable t p →
    (run.outcome.apiFailure = "" ∧ run.ReviewPassed t p ∧
        requiredReady a run.state.engine run.deliveredTypes run.state.purpose = false) ∨
      run.timedOut = true ∧ (run.outcome.apiFailure ≠ "" ∨ ¬ run.ReviewFailed t p)
  /-- A review that fails a mesh on which the limits have no verdict has a finding against it. -/
  rejected : run.outcome.apiFailure = "" → run.state.executorSuccess = true →
    run.state.executorFailedGate = "" → FinalResult.normVerdict run.state.reviewerVerdict = "FAIL" →
    (∀ v, ¬ run.MeasuredAs t p v) →
    run.state.reviewerVerdict = "FAIL" ∧ (run.outcome.reviewBlocking t p ≠ [] ∨
      run.outcome.limitsDecideFor p = false ∧ ∃ f ∈ run.state.axisFindings, f.passed = some false)

variable {t p a run}

lemma ending_succeeded :
    (run.ending t p).status = .succeeded ↔
      (run.decision t p).status = .succeeded ∧ run.delivery.succeeded = true := by
  unfold ending applyDelivery attempted
  grind

lemma request_succeeded :
    (run.request t p a).status = .succeeded ↔ (run.ending t p).status = .succeeded := by
  simp only [request]
  split <;> simp [*]

lemma told_of_mem {told : Dict → Bool} {c : Dict} (hc : c ∈ run.authored t p)
    (htold : told c = true) : (run.request t p a).requirementCaveats.any told = true :=
  List.any_eq_true.mpr ⟨c, List.mem_append_right _ hc, htold⟩

lemma told_inconclusive (h : run.outcome.reviewInconclusiveCaveat.isSome = true) :
    (run.request t p a).requirementCaveats.any FinalResult.saysInconclusive = true := by
  obtain ⟨c, hc⟩ := Option.isSome_iff_exists.mp h
  refine told_of_mem (c := c) (by simp [authored, hc]) ?_
  unfold RunOutcome.reviewInconclusiveCaveat at hc
  grind [FinalResult.saysInconclusive, kindOf, Dict.get, Json.toStr]

lemma told_concerns (h : (run.outcome.reviewConcernsCaveat t p).isSome = true) :
    (run.request t p a).requirementCaveats.any FinalResult.saysConcerns = true := by
  obtain ⟨c, hc⟩ := Option.isSome_iff_exists.mp h
  refine told_of_mem (c := c) (by simp [authored, hc]) ?_
  unfold RunOutcome.reviewConcernsCaveat at hc
  grind [FinalResult.saysConcerns, kindOf, Dict.get, Json.toStr]

lemma told_measured {v : RunOutcome.MeasuredVerdict} (hv : run.MeasuredAs t p v)
    (hdelivers : v.outcome.Delivers = true) (happly : run.outcome.limitsApply = true) :
    (run.request t p a).requirementCaveats.any FinalResult.saysConcerns = true := by
  obtain ⟨hdecide, hmeasured⟩ := hv
  have hcaveat : (run.outcome.measuredVerdictCaveat t p).isSome = true := by
    simp [RunOutcome.measuredVerdictCaveat, hdecide, happly, hmeasured, hdelivers]
  obtain ⟨c, hc⟩ := Option.isSome_iff_exists.mp hcaveat
  refine told_of_mem (c := c) (by simp [authored, hc]) ?_
  simp only [RunOutcome.measuredVerdictCaveat, hdecide, happly, hmeasured] at hc
  grind [FinalResult.saysConcerns, kindOf, Dict.get, Json.toStr]

/-- The gate that a run's record names: the limits, where they refused the mesh. -/
lemma request_failedGate :
    (run.request t p a).failedGate = "" ↔
      (run.decision t p).limitsFailed = [] ∧ run.state.executorFailedGate = "" := by
  have hgate : measuredLimitsGate ≠ "" := by decide
  simp only [request]
  grind

lemma request_reviewRejected :
    FinalResult.deriveFailureCategory (run.request t p a) = .reviewRejected ↔
      run.outcome.apiFailure = "" ∧ (run.decision t p).limitsFailed = [] ∧
        run.state.executorFailedGate = "" ∧ run.state.executorSuccess = true ∧
        run.ReviewFailed t p := by
  rw [FinalResult.category_reviewRejected, request_failedGate, ← recorded_failed, and_assoc]
  exact Iff.rfl

lemma request_deliveryFailed :
    FinalResult.deriveFailureCategory (run.request t p a) = .deliveryFailed ↔
      run.outcome.apiFailure = "" ∧ (run.decision t p).limitsFailed = [] ∧
        run.state.executorFailedGate = "" ∧ run.state.executorSuccess = true ∧
        run.ReviewPassed t p ∧
        requiredReady a run.state.engine run.deliveredTypes run.state.purpose = false := by
  rw [FinalResult.category_deliveryFailed, request_failedGate, ← recorded_passed, and_assoc]
  exact Iff.rfl

/-- The record of a run that did not end in a success. -/
lemma record_failed (h : (run.ending t p).status ≠ .succeeded) :
    ∃ result, run.record t p a = .ok result ∧ result.status = .failed ∧
      result.failureCategory =
        some (categoryValue (FinalResult.accountOf a (run.request t p a)).category) := by
  obtain ⟨shown, hbuild⟩ :=
    FinalResult.build_failed (a := a) (r := run.request t p a) (request_succeeded.not.mpr h)
  refine ⟨_, hbuild, ?_, rfl⟩
  simp [FinalResult.failed, request, h]

/-- A failed review of a granted mesh is said by the caveat that its delivery was granted with. -/
lemma concerns_told (hgranted : (run.decision t p).status = .succeeded)
    (hfailed : (FinalResult.review (run.request t p a)).verdict = some .failed) :
    (run.request t p a).requirementCaveats.any FinalResult.saysConcerns = true := by
  have hcompleted : (FinalResult.review (run.request t p a)).execution = .completed :=
    (FinalResult.review _).concluded.mp (by simp [hfailed])
  obtain ⟨hapi, hgate, -, hnorm⟩ := FinalResult.review_failed.mp ⟨hcompleted, hfailed⟩
  have hfail : FinalResult.normVerdict run.state.reviewerVerdict = "FAIL" :=
    (recorded_failed.mp hnorm).2
  have hnopass : run.state.reviewerVerdict ≠ "PASS" := by
    intro h
    rw [h, normVerdict_pass] at hfail
    exact absurd hfail (by decide)
  rcases granted_iff.mp hgranted with ⟨hsuccess, hno, hreview, hdelivers⟩ | ⟨-, -, -, h⟩
  · rcases hdelivers with ⟨v, hv, hdelivers⟩ | ⟨-, hstopped | hpass | hconcerns⟩
    · exact told_measured hv hdelivers ((limitsApply_iff run).mpr ⟨hsuccess, hno, hreview⟩)
    · exact absurd hapi hstopped
    · exact absurd hpass hnopass
    · obtain ⟨hdecide, hverdict, hblocking, hpoints⟩ := hconcerns
      exact told_concerns ((concerns_isSome t p run).mpr ⟨hdecide,
        (concludedOnValidMesh_iff run).mpr ⟨hapi, hsuccess, hno, .inr hverdict⟩, hverdict,
        hblocking, hpoints⟩)
  · exact absurd h hnopass

lemma inconclusive_told (hgranted : (run.decision t p).status = .succeeded)
    (hstopped : (FinalResult.review (run.request t p a)).execution = .failedToComplete) :
    (run.request t p a).requirementCaveats.any FinalResult.saysInconclusive = true := by
  have hapi : run.outcome.apiFailure ≠ "" := (FinalResult.review_stopped.mp hstopped).1
  rcases granted_iff.mp hgranted with ⟨-, -, hreview, -⟩ | ⟨-, -, h, -⟩
  · exact told_inconclusive (hreview.resolve_left hapi)
  · exact absurd h hapi

lemma record_succeeded (h : (run.ending t p).status = .succeeded) :
    ∃ result, run.record t p a = .ok result ∧ result.status = .succeeded ∧
      result.failureCategory = none := by
  have hgranted : (run.decision t p).status = .succeeded := (ending_succeeded.mp h).1
  obtain ⟨shown, hbuild⟩ := FinalResult.build_succeeded (a := a) (request_succeeded.mpr h)
    (concerns_told hgranted) (inconclusive_told hgranted)
  exact ⟨_, hbuild, rfl, rfl⟩

lemma categoryValue_inj {c c' : FailureCategory} : categoryValue c = categoryValue c' ↔ c = c' := by
  cases c <;> cases c' <;> simp [categoryValue]

/-- A category that no account renames is recorded exactly when it is derived. -/
lemma recorded_category {c : FailureCategory} (hfailed : (run.ending t p).status ≠ .succeeded)
    (hinput : c ≠ .inputRejected) (hrequirements : c ≠ .incompatibleRequirements) :
    (∃ result, run.record t p a = .ok result ∧
      result.failureCategory = some (categoryValue c)) ↔
      FinalResult.deriveFailureCategory (run.request t p a) = c := by
  obtain ⟨result, hrecord, -, hcategory⟩ := record_failed (a := a) hfailed
  have haccount := FinalResult.accountOf_category (a := a) (r := run.request t p a)
  simp only [hrecord, Except.ok.injEq, exists_eq_left', hcategory, Option.some.injEq,
    categoryValue_inj]
  grind

/-- The review leaves nothing in the inputs of the limits but the number of its points. -/
lemma inputsFor_review (o : RunOutcome M) (verdict : String) (findings : List Finding) :
    ∃ n, ({ o with reviewerVerdict := verdict, axisFindings := findings }).inputsFor t =
      (o.inputsFor t).map fun i => { i with reviewNotes := n } := by
  refine ⟨(({ o with axisFindings := findings } : RunOutcome M).reviewPoints t).length, ?_⟩
  rw [inputsFor_eq, inputsFor_eq, Option.map_bind]
  simp only [Option.map_map, Function.comp_def]
  rfl

/-- The status and the failure of a run do not depend on its review where the limits decide. -/
lemma decision_of_measured {v : RunOutcome.MeasuredVerdict} (hv : run.MeasuredAs t p v)
    (verdict : String) (findings : List Finding) (happly : run.outcome.limitsApply = true) :
    ({ run.outcome with
      reviewerVerdict := verdict, axisFindings := findings }).deriveTerminalStatus t p =
        run.decision t p := by
  obtain ⟨hdecide, hmeasured⟩ := hv
  obtain ⟨i, hi, rfl⟩ := Option.map_eq_some_iff.mp hmeasured
  obtain ⟨n, hn⟩ := inputsFor_review (t := t) run.outcome verdict findings
  have hdecide' : ({ run.outcome with
      reviewerVerdict := verdict, axisFindings := findings }).limitsDecideFor p = true := hdecide
  have happly' : ({ run.outcome with
      reviewerVerdict := verdict, axisFindings := findings }).limitsApply = true := happly
  simp only [decision, RunOutcome.deriveTerminalStatus, RunOutcome.measuredVerdict, hdecide, happly,
    hdecide', happly', hn, hi]
  rfl

lemma reviewPassed_not_failed (h : run.ReviewPassed t p) : ¬ run.ReviewFailed t p := by
  rintro ⟨hlimits, hfail⟩
  rcases h with h | hpass
  · exact hlimits h
  · exact absurd (hpass.symm.trans hfail) (by decide)

lemma blocking_verdict (h : run.outcome.reviewBlocking t p ≠ []) :
    run.state.reviewerVerdict = "FAIL" := by
  have hverdict : run.outcome.reviewerVerdict = run.state.reviewerVerdict := rfl
  unfold RunOutcome.reviewBlocking at h
  grind

/-- A mesh that the limits measured is delivered or refused by them. -/
lemma granted_or_refused {v : RunOutcome.MeasuredVerdict} (hv : run.MeasuredAs t p v)
    (happly : run.outcome.limitsApply = true) :
    (run.decision t p).status = .succeeded ∨ (run.decision t p).limitsFailed ≠ [] := by
  cases hdelivers : v.outcome.Delivers with
  | true =>
    obtain ⟨hsuccess, hgate, hreview⟩ := (limitsApply_iff run).mp happly
    exact .inl (granted_iff.mpr (.inl ⟨hsuccess, hgate, hreview, .inl ⟨v, hv, hdelivers⟩⟩))
  | false => exact .inr (refused_iff.mpr ⟨happly, v, hv, hdelivers⟩)

lemma Tells.consistent (h : run.Tells t p a) : run.Consistent t p a where
  validated hapi hpass hsuccess := by
    by_contra hgate
    exact hgate (h.granted (granted_iff.mpr (.inr ⟨hsuccess, hgate, hapi, hpass⟩))).2
  undelivered hdelivery hdeliverable := by
    have hgranted : (run.decision t p).status = .succeeded := granted_iff.mpr (.inl hdeliverable)
    have hended : (run.ending t p).status ≠ .succeeded := by simp [ending_succeeded, hdelivery]
    have hlimits : (run.decision t p).limitsFailed = [] := by
      rw [decision_of_granted hgranted]
      rfl
    obtain ⟨result, hrecord, hcategory | ⟨htime, hcategory⟩⟩ := h.undelivered hgranted hdelivery
    · have hderived := (recorded_category hended (by decide) (by decide)).mp
        ⟨result, hrecord, hcategory⟩
      obtain ⟨hapi, -, -, -, hpassed, hready⟩ := request_deliveryFailed.mp hderived
      exact .inl ⟨hapi, hpassed, hready⟩
    · have hderived := (recorded_category hended (by decide) (by decide)).mp
        ⟨result, hrecord, hcategory⟩
      refine .inr ⟨htime, or_iff_not_imp_left.mpr fun hapi hfailed => ?_⟩
      have hrejected := request_reviewRejected (a := a).mpr
        ⟨not_not.mp hapi, hlimits, hdeliverable.2.1, hdeliverable.1, hfailed⟩
      exact absurd (hderived.symm.trans hrejected) (by decide)
  rejected hapi hsuccess hgate hfail hunmeasured := by
    have hnopass : run.state.reviewerVerdict ≠ "PASS" := by
      intro hpass
      rw [hpass, normVerdict_pass] at hfail
      exact absurd hfail (by decide)
    by_cases hgranted : (run.decision t p).status = .succeeded
    · rcases granted_iff.mp hgranted with ⟨-, -, -, ⟨v, hv, -⟩ | ⟨-, hallows⟩⟩ | ⟨-, h, -⟩
      · exact absurd hv (hunmeasured v)
      · rcases hallows with hstopped | hpass | ⟨hdecide, hverdict, -, hpoints⟩
        · exact absurd hapi hstopped
        · exact absurd hpass hnopass
        · exact ⟨hverdict, .inr ⟨hdecide, hpoints⟩⟩
      · exact absurd hgate h
    · have hended : (run.ending t p).status ≠ .succeeded :=
        fun he => hgranted (ending_succeeded.mp he).1
      have hlimits : (run.decision t p).limitsFailed = [] := by
        by_contra hrefused
        obtain ⟨-, v, hv, -⟩ := refused_iff.mp hrefused
        exact hunmeasured v hv
      have hfailed : run.ReviewFailed t p := ⟨fun ⟨_, v, hv, _⟩ => hunmeasured v hv, hfail⟩
      obtain ⟨result, hrecord, hcategory⟩ :=
        (recorded_category hended (by decide) (by decide)).mpr
          (request_reviewRejected (a := a).mpr ⟨hapi, hlimits, hgate, hsuccess, hfailed⟩)
      have hblocking := (h.rejected result hrecord hcategory).2
      exact ⟨blocking_verdict hblocking, .inl hblocking⟩

namespace Consistent

variable (h : run.Consistent t p a)

include h

lemma deliverable (hgranted : (run.decision t p).status = .succeeded) : run.Deliverable t p := by
  rcases granted_iff.mp hgranted with hdeliverable | ⟨hsuccess, hgate, hapi, hpass⟩
  · exact hdeliverable
  · exact absurd (h.validated hapi hpass hsuccess) hgate

lemma undelivered_told (hgranted : (run.decision t p).status = .succeeded)
    (hdelivery : run.delivery.succeeded = false) :
    ∃ result, run.record t p a = .ok result ∧
      (result.failureCategory = some (categoryValue .deliveryFailed) ∨
        run.timedOut = true ∧ result.failureCategory = some (categoryValue .timedOut)) := by
  have hended : (run.ending t p).status ≠ .succeeded := by simp [ending_succeeded, hdelivery]
  have hlimits : (run.decision t p).limitsFailed = [] := by
    rw [decision_of_granted hgranted]
    rfl
  obtain ⟨hsuccess, hgate, -⟩ := h.deliverable hgranted
  rcases h.undelivered hdelivery (h.deliverable hgranted) with
    ⟨hapi, hpassed, hready⟩ | ⟨htime, hnot⟩
  · obtain ⟨result, hrecord, hcategory⟩ := (recorded_category hended (by decide) (by decide)).mpr
      (request_deliveryFailed (a := a).mpr ⟨hapi, hlimits, hgate, hsuccess, hpassed, hready⟩)
    exact ⟨result, hrecord, .inl hcategory⟩
  · by_cases hderived : FinalResult.deriveFailureCategory (run.request t p a) = .deliveryFailed
    · obtain ⟨result, hrecord, hcategory⟩ :=
        (recorded_category hended (by decide) (by decide)).mpr hderived
      exact ⟨result, hrecord, .inl hcategory⟩
    · have hkept : FinalResult.deriveFailureCategory (run.request t p a) ≠ .reviewRejected := by
        intro hrejected
        obtain ⟨hapi, -, -, -, hfailed⟩ := request_reviewRejected.mp hrejected
        exact hnot.elim (· hapi) (· hfailed)
      have htimed := (FinalResult.category_timedOut (request_failedGate.mpr ⟨hlimits, hgate⟩)
        hsuccess).mpr ⟨htime, hkept, hderived⟩
      obtain ⟨result, hrecord, hcategory⟩ :=
        (recorded_category hended (by decide) (by decide)).mpr htimed
      exact ⟨result, hrecord, .inr ⟨htime, hcategory⟩⟩

lemma rejected_told {result : FinalResult} (hrecord : run.record t p a = .ok result)
    (hcategory : result.failureCategory = some (categoryValue .reviewRejected)) :
    (run.decision t p).status ≠ .succeeded ∧ run.outcome.reviewBlocking t p ≠ [] := by
  have hended : (run.ending t p).status ≠ .succeeded := by
    intro hended
    obtain ⟨result', hrecord', -, hnone⟩ := record_succeeded (a := a) hended
    rw [hrecord] at hrecord'
    cases hrecord'
    simp [hnone] at hcategory
  obtain ⟨hapi, hlimits, hgate, hsuccess, hfailed⟩ := request_reviewRejected.mp
    ((recorded_category hended (by decide) (by decide)).mp ⟨result, hrecord, hcategory⟩)
  have happly : run.outcome.limitsApply = true :=
    (limitsApply_iff run).mpr ⟨hsuccess, hgate, .inl hapi⟩
  have hrefused : (run.decision t p).status ≠ .succeeded := by
    intro hgranted
    have hdelivery : run.delivery.succeeded = false := by
      simpa [ending_succeeded, hgranted] using hended
    rcases h.undelivered hdelivery (h.deliverable hgranted) with ⟨-, hpassed, -⟩ | ⟨-, hnot⟩
    · exact reviewPassed_not_failed hpassed hfailed
    · exact hnot.elim (· hapi) (· hfailed)
  have hunmeasured : ∀ v, ¬ run.MeasuredAs t p v := fun v hv =>
    (granted_or_refused hv happly).elim hrefused (· hlimits)
  refine ⟨hrefused, fun hblocking => ?_⟩
  obtain ⟨hverdict, hsome | ⟨hdecide, hpoints⟩⟩ :=
    h.rejected hapi hsuccess hgate hfailed.2 hunmeasured
  · exact hsome hblocking
  · exact hrefused (granted_iff.mpr (.inl ⟨hsuccess, hgate, .inl hapi,
      .inr ⟨hunmeasured, .inr (.inr ⟨hdecide, hverdict, hblocking, hpoints⟩)⟩⟩))

lemma tells : run.Tells t p a where
  granted hgranted := ⟨(h.deliverable hgranted).1, (h.deliverable hgranted).2.1⟩
  built := by
    by_cases hended : (run.ending t p).status = .succeeded
    · obtain ⟨result, hrecord, hstatus, -⟩ := record_succeeded (a := a) hended
      exact ⟨result, hrecord, by simp [hstatus, hended]⟩
    · obtain ⟨result, hrecord, hstatus, -⟩ := record_failed (a := a) hended
      exact ⟨result, hrecord, by simp [hstatus, hended]⟩
  undelivered := h.undelivered_told
  rejected _ := h.rejected_told
  measured _ hv happly verdict findings := decision_of_measured hv verdict findings happly
  stored _ hrecord := FinalResult.fromDict_build hrecord

end Consistent

theorem tells_iff : run.Tells t p a ↔ run.Consistent t p a :=
  ⟨Tells.consistent, Consistent.tells⟩

end Telling

/-! ## A mesh that was delivered with concerns and could not be stored -/

/-- A reviewer that left a minor point open on a mesh that passed every gate. -/
def withConcerns : Run Unit where
  jobId := "job"
  ownerId := "owner"
  state :=
    { apiFailure := ""
      reviewerVerdict := "FAIL"
      executorSuccess := true
      retryCount := 0
      executorFailedGate := ""
      executorFailureCause := ""
      executorFailureFacts := []
      userDispute := false
      reviewRerunCount := 0
      engine := "snappy"
      purpose := "external_aero"
      dimensionality := "3d"
      flowTopology := "external"
      approvedSnapshotId := "snapshot"
      axisFindings := [⟨"layers", some false, "", "thin layers", "minor", "", false⟩]
      manifest := ()
      requirementCaveats := []
      layersPlanned := false }
  requestedMeshFidelity := none
  effectiveMeshFidelity := "standard"
  meshFidelitySource := "default"
  fidelityPolicyVersion := "1"
  delivery := ⟨false, some .unhandled⟩
  deliveredTypes := []
  timedOut := false
  attemptsMade := 1
  attemptsMax := 3
  finalizedAt := ""

/-- Tables in which nothing is measured. -/
def unmeasured : Tables Unit where
  topologyOf _ := "external"
  gatingRows _ _ := some []
  limitRows _ _ _ _ _ _ := some []
  feaMeasuredValid _ := false
  physicalScale _ _ := none
  narrowPassages _ := none
  plain := id
  axisConcern _ _ _ := none
  settledBy _ _ _ := ""
  failedReasonFor _ := .apiFailure

def plainAccounts : Accounts where
  describe _ _ _ := ("", "")
  cleanReason _ := ""
  plain := id
  wrongProblemWords _ := "The mesh is the wrong problem"
  engineLabel := id
  retryCanHelp _ _ := true
  requiredOutputClasses _ _ := ["mesh"]

/-- Its record says that the review rejected it, not that it could not be stored. -/
theorem withConcerns_not_told : ¬ withConcerns.Tells unmeasured ⟨false⟩ plainAccounts := by
  intro h
  have hlimits : withConcerns.outcome.limitsDecideFor ⟨false⟩ = false := by decide
  have hunmeasured : ∀ v, ¬ withConcerns.MeasuredAs unmeasured ⟨false⟩ v := by
    rintro v ⟨hdecide, -⟩
    simp [hlimits] at hdecide
  have hdeliverable : withConcerns.Deliverable unmeasured ⟨false⟩ :=
    ⟨rfl, rfl, .inl (by decide), .inr ⟨hunmeasured, .inr (.inr ⟨hlimits, rfl, by decide, by decide⟩)⟩⟩
  rcases h.consistent.undelivered rfl hdeliverable with ⟨-, hpassed, -⟩ | ⟨htime, -⟩
  · rcases hpassed with ⟨-, v, hv, -⟩ | hnorm
    · exact hunmeasured v hv
    · exact absurd hnorm (by decide)
  · cases htime

end Run

end MeshPipeline.Ending
