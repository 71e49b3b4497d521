import MeshPipeline.Library.Machine
import MeshPipeline.Pipeline.State

/-!
# One turn of the builder

What a turn writes to the counters: the attempt it made, the no-ops it carries, and the attempts it
takes away when it stops without building.
-/

namespace MeshPipeline.Pipeline

namespace Noop

/-- `NOOP_LIMIT`. -/
def limit : Nat := 2

structure NoopVerdict where
  repeated : Bool
  consecutive : Nat
  retryCount : Nat
  deriving DecidableEq, Repr

def assess (cfg : GraphSettings) (before after : String) (carriedCount retryCount : Nat) :
    NoopVerdict :=
  let repeated := before ≠ "" ∧ after ≠ "" ∧ before = after
  let consecutive := if repeated then carriedCount + 1 else carriedCount
  ⟨repeated, consecutive, if limit ≤ consecutive then cfg.maxBuilderRetries + 1 else retryCount⟩

end Noop

/-- Whose failure it was that the engine could not prepare its input. -/
inductive StagingFailure
  | ours | file
  deriving DecidableEq, Repr

/-- What a builder turn meets outside the state. -/
structure BuilderTurn where
  budgetExhausted : Bool
  /-- The last attempt was caused by the same failure as this one. -/
  repeatsPrevious : Bool
  staging : Option StagingFailure
  apiFailure : Option ApiFailure
  /-- The driver would write the case the review rejected. -/
  repeatsReviewedCase : Bool
  authoredBefore : String
  authoredAfter : String
  deriving DecidableEq, Repr

/-- `TurnPatch`. -/
structure TurnPatch where
  retryCount : Nat
  noopCount : Nat
  apiFailure : Option ApiFailure
  stop : Option BuilderStop
  deriving DecidableEq, Repr

/-- The patch, applied: what does not apply is not written. -/
def TurnPatch.state (p : TurnPatch) (s : PipelineState) : PipelineState :=
  { s with
    retryCount := p.retryCount
    apiFailure := p.apiFailure.or s.apiFailure
    builderNoopCount := if p.apiFailure.isNone then p.noopCount else s.builderNoopCount
    reviewRerunCount := if p.apiFailure.isNone ∧ p.stop.isNone then 0 else s.reviewRerunCount
    builderStop := p.stop.or s.builderStop }

/-- `stop_without_building`: the run ends on the last mesh, or its attempts are spent. -/
def stopWithoutBuilding (cfg : GraphSettings) (s : PipelineState) (stopped : BuilderStop) :
    TurnPatch :=
  if s.executorSuccess then ⟨s.retryCount, s.builderNoopCount, none, some stopped⟩
  else ⟨cfg.maxBuilderRetries + 1, s.builderNoopCount, none, none⟩

/-- The attempt is the retry a concluded review asked for. -/
def reviewCausedRetry (s : PipelineState) : Bool :=
  s.classifierErrorSource == some .reviewerFail && s.userDispute.isNone

/-- The marker of a staging that failed on our side, which may be tried again. -/
def stagingSystemFailure : ApiFailure := ⟨true, false⟩

/-- What the no-op detector makes of a turn; only a retry has a case to compare with. -/
def BuilderTurn.noops (cfg : GraphSettings) (s : PipelineState) (t : BuilderTurn) :
    Noop.NoopVerdict :=
  let before := if s.builderMode = .retry then t.authoredBefore else ""
  Noop.assess cfg before t.authoredAfter s.builderNoopCount (s.retryCount + 1)

/-- The turn stops because a review's retry would only repeat the mesh that was reviewed. -/
def BuilderTurn.repeatsReview (cfg : GraphSettings) (s : PipelineState) (t : BuilderTurn) : Bool :=
  t.repeatsReviewedCase || (t.noops cfg s).repeated && reviewCausedRetry s

/-- The turn stops before it builds: the time is spent, or the last failure came back. -/
def BuilderTurn.unbuilt (s : PipelineState) (t : BuilderTurn) : Option BuilderStop :=
  if t.budgetExhausted then some .timeSpent
  else if s.builderMode = .retry ∧ t.repeatsPrevious then some .noProgress
  else none

/-- The patch of the turn. -/
def BuilderTurn.patch (cfg : GraphSettings) (s : PipelineState) (t : BuilderTurn) : TurnPatch :=
  match t.unbuilt s, t.staging, t.apiFailure with
  | some stopped, _, _ => stopWithoutBuilding cfg s stopped
  | none, some .ours, _ => ⟨s.retryCount + 1, 0, some stagingSystemFailure, none⟩
  | none, some .file, _ => ⟨s.retryCount + 1, s.builderNoopCount, none, none⟩
  | none, none, some failure => ⟨s.retryCount + 1, 0, some failure, none⟩
  | none, none, none =>
    if t.repeatsReview cfg s then
      ⟨s.retryCount, s.builderNoopCount, none, some .reviewedCaseRepeats⟩
    else ⟨(t.noops cfg s).retryCount, (t.noops cfg s).consecutive, none, none⟩

def nodeBuilder (cfg : GraphSettings) (s : PipelineState) (t : BuilderTurn) : PipelineState :=
  (t.patch cfg s).state s

end MeshPipeline.Pipeline

/-!
## The pipeline graph

The nodes and the routing functions of the state machine. A step runs the node the run stands at on
what the world outside the graph answers, and routes on the state it leaves.
-/

namespace MeshPipeline.Pipeline

inductive Node
  | intake | engineSelect | repairInspect | repairAttempt | geometryAdmission | builder | executor
  | classifier | engineFallback | reviewer | failureHandler | infraRetry | reviewRetry | guardReplay
  | deliverSound | END
  deriving DecidableEq, Repr

/-- What the executor finds of the attempt it judges. -/
structure Execution where
  success : Bool
  failedGate : String
  failureCause : Option FailureCause
  failureFacts : FailureFacts
  caveats : Bool
  deriving DecidableEq, Repr

/-- How a review ended: without a verdict, or with one. -/
inductive Review
  | nonVerdict (marker : ApiFailure)
  | concluded (verdict : Verdict) (findings : List AxisFinding) (rebuildRequired : Bool)
  deriving DecidableEq, Repr

/-- The resolution policy's and the engine ladder's answers on their own records. -/
structure Ladder where
  retryCanChange : Bool
  /-- `rung_after_switch` but for the ceiling of attempts. -/
  rungAfterSwitch : Bool
  betterEarlierSound : Bool
  /-- The sound mesh to deliver, if any, and whether it has caveats. -/
  deliverableSound : Option Bool
  /-- `decide` but for the attempts left. -/
  switchesEngine : Bool
  deriving DecidableEq, Repr

/-- What the world outside the graph answers, whichever node asks it now. -/
structure Answers where
  intakeFailure : Option ApiFailure
  geometryRefused : Bool
  turn : BuilderTurn
  execution : Execution
  ladder : Ladder
  review : Review
  deriving DecidableEq, Repr

/-! ## The nodes -/

def nodeIntake (s : PipelineState) (a : Answers) : PipelineState :=
  { s with apiFailure := a.intakeFailure.or s.apiFailure }

/-- A refused geometry spends every attempt. -/
def nodeGeometryAdmission (cfg : GraphSettings) (s : PipelineState) (a : Answers) : PipelineState :=
  if a.geometryRefused then
    { s with
      geometryUnsuitableReason := true
      executorSuccess := false
      retryCount := cfg.maxBuilderRetries + 1
      executorFailureFacts := a.execution.failureFacts }
  else s

def nodeExecutor (s : PipelineState) (a : Answers) : PipelineState :=
  let x := a.execution
  if s.geometryUnsuitableReason then
    { s with
      executorSuccess := false
      executorFailedGate := "geometry"
      executorFailureCause := some .geometryRejected }
  else
    { s with
      executorSuccess := x.success
      executorFailedGate := if x.success then "" else x.failedGate
      executorFailureCause := if x.success then none else x.failureCause
      executorFailureFacts := if x.success then .empty else x.failureFacts
      requirementCaveats := x.caveats }

/-- The review that sent the run to the classifier judged this attempt's mesh and failed it. -/
def reviewedThisAttempt (s : PipelineState) : Bool :=
  s.reviewerVerdict == some .FAIL &&
    s.reviewHistory.getLast?.any fun h => h.attempt == s.retryCount && h.verdict == .FAIL

def nodeClassifier (s : PipelineState) : PipelineState :=
  if s.executorSuccess ∧ s.requirementCaveats ∧ !reviewedThisAttempt s then
    { s with classifierErrorSource := some .nearMiss, builderMode := .retry }
  else if !s.executorSuccess then
    { s with classifierErrorSource := some .executorFail, builderMode := .retry }
  else
    { s with
      classifierErrorSource := some .reviewerFail
      builderMode := if s.reviewerRebuildRequired then .rebuild else .retry }

/-- `decide`: the ladder moves a failed attempt on while a regular attempt is left. -/
def movesOn (cfg : GraphSettings) (s : PipelineState) (a : Answers) : Bool :=
  a.ladder.switchesEngine && !s.executorSuccess && decide (s.retryCount ≤ cfg.maxBuilderRetries)

/-- Another engine starts afresh. -/
def nodeEngineFallback (cfg : GraphSettings) (s : PipelineState) (a : Answers) : PipelineState :=
  if movesOn cfg s a then
    { s with
      builderMode := .initial
      builderNoopCount := 0
      classifierErrorSource := some .engineFallback }
  else s

def nodeReviewer (s : PipelineState) (a : Answers) : PipelineState :=
  if s.executorSuccess then
    match a.review with
    | .nonVerdict marker => { s with apiFailure := some marker }
    | .concluded verdict findings rebuildRequired =>
      { s with
        reviewerVerdict := some verdict
        reviewerAxisFindings := findings
        reviewerRebuildRequired := rebuildRequired
        reviewHistory := s.reviewHistory ++ [⟨s.retryCount, verdict, findings⟩] }
  else { s with apiFailure := some ⟨false, false⟩ }

/-- The same attempt is run again after a failure on our side. -/
def nodeInfraRetry (s : PipelineState) : PipelineState :=
  { s with
    apiFailure := none
    infraRetryCount := s.infraRetryCount + 1
    retryCount := s.retryCount - 1 }

def nodeReviewRetry (s : PipelineState) : PipelineState :=
  { s with apiFailure := none, reviewRerunCount := s.reviewRerunCount + 1 }

/-- The same attempt is run again after a guard clock stopped it. -/
def nodeGuardReplay (s : PipelineState) : PipelineState :=
  { s with
    guardReplayCount := s.guardReplayCount + 1
    retryCount := s.retryCount - 1
    executorSuccess := false
    executorFailedGate := ""
    executorFailureCause := none
    executorFailureFacts := .empty }

/-- The run is moved back onto its best sound mesh. -/
def nodeDeliverSound (s : PipelineState) (a : Answers) : PipelineState :=
  match a.ladder.deliverableSound with
  | none => s
  | some caveats =>
    { s with
      executorSuccess := true
      executorFailedGate := ""
      executorFailureCause := none
      executorFailureFacts := .empty
      requirementCaveats := caveats
      apiFailure := none }

/-! ## The routes -/

def routeAfterIntake (s : PipelineState) : Node :=
  if s.apiFailure.isSome then .failureHandler else .engineSelect

def routeAfterEngineSelect (s : PipelineState) : Node :=
  if s.userDispute.isSome ∧ s.reviewerVerdict.isNone then .reviewer else .repairInspect

def routeAfterGeometryAdmission (s : PipelineState) : Node :=
  if s.geometryUnsuitableReason then .executor else .builder

def routeAfterBuilder (cfg : GraphSettings) (s : PipelineState) : Node :=
  if s.builderStop.isSome then .END
  else
    match s.apiFailure with
    | some failure =>
      if failure.isRetryable ∧ s.infraRetryCount < cfg.builderInfraRetryMax then .infraRetry
      else .failureHandler
    | none => .executor

/-- The run ends on a failed attempt, unless an earlier one built a sound mesh. -/
def soundOrEnd (s : PipelineState) (a : Answers) : Node :=
  if s.userDispute.isNone ∧ a.ladder.deliverableSound.isSome then .deliverSound else .END

/-- A guard clock stopped the attempt the executor just judged. -/
def guardTripOf (s : PipelineState) : Bool :=
  !s.executorSuccess && s.executorFailureCause == some .engineTimedOut &&
    s.executorFailureFacts.guard

/-- Where a mesh that passed every gate goes. -/
def routeAfterSuccess (cfg : GraphSettings) (s : PipelineState) (a : Answers) : Node :=
  let changeable := a.ladder.retryCanChange
  if s.requirementCaveats ∧ changeable ∧ s.retryCount ≤ cfg.maxBuilderRetries then .classifier
  else if s.requirementCaveats ∧ changeable ∧ a.ladder.rungAfterSwitch ∧
      s.retryCount < cfg.builderMaxTotalAttempts then .classifier
  else if s.requirementCaveats ∧ a.ladder.betterEarlierSound then .deliverSound
  else .reviewer

def routeAfterExecutor (cfg : GraphSettings) (s : PipelineState) (a : Answers) : Node :=
  if s.executorSuccess then routeAfterSuccess cfg s a
  else if guardTripOf s then
    if s.guardReplayCount < guardReplays then .guardReplay else soundOrEnd s a
  else if !retryCanHelp s.executorFailureCause s.executorFailureFacts then
    if s.retryCount ≤ cfg.maxBuilderRetries ∧ movesOn cfg s a then .classifier else soundOrEnd s a
  else if s.retryCount ≤ cfg.maxBuilderRetries then .classifier
  else soundOrEnd s a

/-- `limits_end_the_review`. -/
def limitsEndTheReview (cfg : GraphSettings) (s : PipelineState) : Bool :=
  cfg.verdictByLimits && s.executorSuccess && s.executorFailedGate == "" && s.userDispute.isNone

def reviewCanRerun (cfg : GraphSettings) (s : PipelineState) : Bool :=
  match s.apiFailure with
  | none => false
  | some marker =>
    s.executorSuccess && decide (s.reviewRerunCount < cfg.reviewerRerunMax) &&
      (marker.rerunnable || marker.isRetryable)

/-- Where a concluded review goes. -/
def routeAfterVerdict (cfg : GraphSettings) (s : PipelineState) : Node :=
  if s.userDispute = some .rebuild ∧ s.retryCount = 0 then .classifier
  else if cfg.verdictByLimits then .END
  else if s.reviewerVerdict = some .PASS then .END
  else if !asksForRebuild s.reviewerAxisFindings then .END
  else if concernRetrySpent s then .END
  else if s.retryCount ≤ cfg.maxBuilderRetries then .classifier
  -- the review's bonus attempt
  else if s.retryCount = cfg.maxBuilderRetries + 1 ∧ s.executorSuccess then .classifier
  else .END

def routeAfterReviewer (cfg : GraphSettings) (s : PipelineState) : Node :=
  if limitsEndTheReview cfg s then .END
  else if s.apiFailure.isSome then
    if reviewCanRerun cfg s then .reviewRetry else .failureHandler
  else routeAfterVerdict cfg s

/-! ## The graph -/

/-- A run of the graph: the node it stands at, its state and how often the builder ran. -/
structure GraphRun where
  node : Node
  state : PipelineState
  builderRuns : Nat
  deriving DecidableEq, Repr

namespace GraphRun

def move (w : GraphRun) (s : PipelineState) (node : Node) : GraphRun :=
  { w with state := s, node := node }

/-- One node and the route after it; `END` takes no step. -/
def step (cfg : GraphSettings) (w : GraphRun) (a : Answers) : Option GraphRun :=
  let s := w.state
  match w.node with
  | .intake =>
    let s' := nodeIntake s a
    some (w.move s' (routeAfterIntake s'))
  | .engineSelect => some (w.move s (routeAfterEngineSelect s))
  | .repairInspect => some (w.move s .repairAttempt)
  | .repairAttempt => some (w.move s .geometryAdmission)
  | .geometryAdmission =>
    let s' := nodeGeometryAdmission cfg s a
    some (w.move s' (routeAfterGeometryAdmission s'))
  | .builder =>
    let s' := nodeBuilder cfg s a.turn
    some { w.move s' (routeAfterBuilder cfg s') with builderRuns := w.builderRuns + 1 }
  | .executor =>
    let s' := nodeExecutor s a
    some (w.move s' (routeAfterExecutor cfg s' a))
  | .classifier => some (w.move (nodeClassifier s) .engineFallback)
  | .engineFallback => some (w.move (nodeEngineFallback cfg s a) .builder)
  | .reviewer =>
    let s' := nodeReviewer s a
    some (w.move s' (routeAfterReviewer cfg s'))
  | .infraRetry => some (w.move (nodeInfraRetry s) .builder)
  | .reviewRetry => some (w.move (nodeReviewRetry s) .reviewer)
  | .guardReplay => some (w.move (nodeGuardReplay s) .builder)
  | .deliverSound => some (w.move (nodeDeliverSound s a) .reviewer)
  | .failureHandler => some (w.move s .END)
  | .END => none

def machine (cfg : GraphSettings) : Transition.Machine GraphRun Answers := ⟨step cfg⟩

def start (dispute : Option DisputeMode) : GraphRun := ⟨.intake, .initial dispute, 0⟩

end GraphRun

end MeshPipeline.Pipeline
