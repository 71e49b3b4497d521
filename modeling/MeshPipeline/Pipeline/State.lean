import Mathlib.Data.List.Basic

/-!
# The state the pipeline graph routes on

The counters, verdicts and failures that the nodes write and the routing functions read.
-/

namespace MeshPipeline.Pipeline

/-- The settings the graph's counters are compared with. -/
structure GraphSettings where
  maxBuilderRetries : Nat
  builderInfraRetryMax : Nat
  reviewerRerunMax : Nat
  verdictByLimits : Bool

def GraphSettings.default : GraphSettings := ⟨1, 2, 2, false⟩

/-- `BUILDER_MAX_TOTAL_ATTEMPTS`: the first attempt, the retries and the review's bonus. -/
def GraphSettings.builderMaxTotalAttempts (cfg : GraphSettings) : Nat := cfg.maxBuilderRetries + 2

/-- `GUARD_REPLAYS`. -/
def guardReplays : Nat := 1

inductive FailureCause
  | contractMismatch | patchNotCaptured | boundaryType | meshQuality | underResolved | cellBudget
  | domainExtent | notSolvable | regionSplit | engineCrashed | notBuilt | engineTimedOut
  | runInfrastructure | geometryRejected | reviewIncomplete
  deriving DecidableEq, Repr

/-- The facts of a failure that decide what may run again. -/
structure FailureFacts where
  guard : Bool
  retryMayFix : Bool
  deterministic : Bool
  ladderExhausted : Bool
  rebuildCells : Option Int
  cellLimit : Option Int
  deriving DecidableEq, Repr

def FailureFacts.empty : FailureFacts := ⟨false, false, false, false, none, none⟩

/-- No rebuild within the cell limit reaches the floor. -/
def rebuildOverLimit (facts : FailureFacts) : Bool :=
  match facts.rebuildCells, facts.cellLimit with
  | some need, some limit => decide (0 < limit ∧ limit < need)
  | _, _ => false

/-- Whether another attempt of the same engine could change the outcome. -/
def retryCanHelp (cause : Option FailureCause) (facts : FailureFacts) : Bool :=
  match cause with
  | none => true
  | some c =>
    if c = .contractMismatch ∧ facts.retryMayFix then true
    else if c = .underResolved ∧ rebuildOverLimit facts then false
    else if facts.deterministic ∧ facts.ladderExhausted then false
    else if c = .notBuilt then !facts.deterministic
    else c ≠ .contractMismatch ∧ c ≠ .geometryRejected

/-- A failure marker, as `classify_api_failure` and `RERUNNABLE_MARKERS` read it. -/
structure ApiFailure where
  isRetryable : Bool
  rerunnable : Bool
  deriving DecidableEq, Repr

inductive BuilderMode
  | initial | retry | rebuild
  deriving DecidableEq, Repr

/-- Why the builder built nothing on purpose. -/
inductive BuilderStop
  | timeSpent | noProgress | reviewedCaseRepeats
  deriving DecidableEq, Repr

inductive DisputeMode
  | rebuild | accept
  deriving DecidableEq, Repr

inductive Verdict
  | PASS | FAIL
  deriving DecidableEq, Repr

/-- A finding; `improve` is absent from records written before findings were judged. -/
structure AxisFinding where
  passed : Bool
  improve : Option Bool
  /-- Its class is one of `WRONG_PROBLEM`. -/
  wrongProblem : Bool
  deriving DecidableEq, Repr

structure ReviewEntry where
  attempt : Nat
  verdict : Verdict
  findings : List AxisFinding
  deriving DecidableEq, Repr

inductive ErrorSource
  | nearMiss | executorFail | reviewerFail | engineFallback
  deriving DecidableEq, Repr

structure PipelineState where
  retryCount : Nat
  builderMode : BuilderMode
  builderNoopCount : Nat
  builderStop : Option BuilderStop
  apiFailure : Option ApiFailure
  infraRetryCount : Nat
  guardReplayCount : Nat
  reviewRerunCount : Nat
  userDispute : Option DisputeMode
  geometryUnsuitableReason : Bool
  executorSuccess : Bool
  executorFailedGate : String
  executorFailureCause : Option FailureCause
  executorFailureFacts : FailureFacts
  /-- The mesh passed with caveats. -/
  requirementCaveats : Bool
  reviewerVerdict : Option Verdict
  reviewerAxisFindings : List AxisFinding
  reviewerRebuildRequired : Bool
  reviewHistory : List ReviewEntry
  classifierErrorSource : Option ErrorSource
  deriving DecidableEq, Repr

/-- The state a run starts with; a dispute starts on its parent's delivered mesh. -/
def PipelineState.initial (dispute : Option DisputeMode) : PipelineState where
  retryCount := 0
  builderMode := .initial
  builderNoopCount := 0
  builderStop := none
  apiFailure := none
  infraRetryCount := 0
  guardReplayCount := 0
  reviewRerunCount := 0
  userDispute := dispute
  geometryUnsuitableReason := false
  executorSuccess := dispute.isSome
  executorFailedGate := ""
  executorFailureCause := none
  executorFailureFacts := .empty
  requirementCaveats := false
  reviewerVerdict := none
  reviewerAxisFindings := []
  reviewerRebuildRequired := false
  reviewHistory := []
  classifierErrorSource := none

/-- The findings that make the mesh the wrong problem. -/
def blockingFindings (rows : List AxisFinding) : List AxisFinding :=
  rows.filter fun f => !f.passed && f.wrongProblem

def asksForRebuild (rows : List AxisFinding) : Bool :=
  if rows.any (·.improve.isSome) then rows.any (·.improve == some true)
  else rows.isEmpty || rows.any fun f => !f.passed

/-- An earlier review of the run already spent the one improvement that concerns buy. -/
def concernRetrySpent (s : PipelineState) : Bool :=
  (blockingFindings s.reviewerAxisFindings).isEmpty &&
    s.reviewHistory.any fun h => decide (h.attempt < s.retryCount) && h.verdict == .FAIL &&
      (blockingFindings h.findings).isEmpty && asksForRebuild h.findings

end MeshPipeline.Pipeline
