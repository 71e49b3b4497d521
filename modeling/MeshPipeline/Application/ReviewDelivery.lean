import Mathlib.Algebra.Order.Floor.Ring
import Mathlib.Data.Rat.Floor
import MeshPipeline.Ending.RunOutcome
import MeshPipeline.Library.Ranking
import MeshPipeline.Pipeline.EngineFallback

/-!
# The attempt that a finished run delivers

A run that built several valid meshes is moved onto the best of them. Validity, the ranking and the
swap read the same records separately: the state of the last attempt, the concluded reviews and the
manifests on disk.
-/

namespace MeshPipeline.Application.ReviewDelivery

open Pipeline Ranking

/-! ## What the manifests hold -/

/-- A measurement of a manifest. -/
inductive Reading
  | number (value : ℚ)
  | truth (value : Bool)
  | nonFinite
  | other (empty : Bool)
  deriving DecidableEq

namespace Reading

/-- `_num`. -/
def num : Reading → Option ℚ
  | number value => some value
  | _ => none

/-- Python's `bool`. -/
def holds : Reading → Bool
  | number value => value ≠ 0
  | truth value => value
  | nonFinite => true
  | other empty => !empty

/-- The number that a comparison reads, where there is one. -/
def comparable : Reading → Option ℚ
  | number value => some value
  | truth value => some (if value then 1 else 0)
  | _ => none

end Reading

inductive CriterionOp
  | empty | equal | atMost | above
  deriving DecidableEq, Repr

structure Criterion where
  key : String
  label : String
  op : CriterionOp
  threshold : ℚ
  deriving DecidableEq

/-- `Criterion.evaluate`: nothing to judge gives `some none`, and a value that does not compare with
the bar raises. -/
def Criterion.evaluate (c : Criterion) (measurements : List (String × Reading)) :
    Option (Option Bool) :=
  match measurements.lookup c.key with
  | none | some .nonFinite => some none
  | some reading =>
    match c.op with
    | .empty => some (some (!reading.holds))
    | .equal => some (some (reading.comparable == some c.threshold))
    | .atMost => reading.comparable.map fun v => some (decide (v ≤ c.threshold))
    | .above => reading.comparable.map fun v => some (decide (c.threshold < v))

structure Manifest where
  meshMode : String
  engineParams : Option EngineParams
  quality : List (String × Reading)
  /-- The wake refinement is enabled and has its tiers. -/
  wakeRefined : Bool
  /-- The faces of the patches that the mesh roles as the body's walls, if there are any. -/
  wallFaces : Option Nat
  deriving DecidableEq

namespace Manifest

/-- A defect that makes the mesh invalid. -/
def fatal (m : Manifest) : Bool := ((m.quality.lookup "fatal").map (·.holds)).getD false

def measured (m : Manifest) (key : String) : Option ℚ := (m.quality.lookup key).bind (·.num)

/-- `measurements_from_manifest`. -/
def measurements (m : Manifest) : List (String × Reading) :=
  (m.wallFaces.map fun n => ("wall_faces", Reading.number n)).toList ++
    m.quality.filter fun row => row.1 ≠ "bounds" ∧ row.1 ≠ "wall_faces"

end Manifest

/-- `BUILD_TIME_KEYS`. -/
def buildTimeKeys : List String := ["rc", "timed_out"]

/-! ## The records of the attempts -/

/-- A finding of a review, with the attempt it was made on. -/
structure Finding extends AxisFinding where
  attempt : Nat
  deriving DecidableEq, Repr

/-- An entry of the run's reviews; its findings were made on its attempt. -/
structure ReviewRecord where
  attempt : Nat
  workspace : String
  verdict : Option Verdict
  findings : List Finding
  feedback : String
  caveats : List CaveatKind
  engine : String
  engineParams : Option EngineParams
  made : ∀ f ∈ findings, f.attempt = attempt
  deriving DecidableEq

/-- The entry is of a mesh that a review passed or failed. -/
def ReviewRecord.concluded (h : ReviewRecord) : Bool := h.verdict.isSome && h.workspace ≠ ""

/-- What a mesh is short of. -/
inductive Shortfall
  | check (criterion : Criterion) (measured : Option Reading)
  | noPrismLayers | layersUnmeasured | noWakeRefinement
  | requirement (kind : CaveatKind)
  deriving DecidableEq

structure Candidate where
  attempt : Nat
  engine : String
  workspace : String
  manifest : Manifest
  /-- The review it comes from. -/
  entry : Option ReviewRecord
  /-- It is the run's own last state. -/
  current : Bool
  failedChecks : List Shortfall
  unmet : List Shortfall
  maxNonOrtho : Option ℚ
  maxSkewness : Option ℚ
  layerCoverage : Option ℚ
  wrongProblem : Nat
  reviewLeftConcerns : Bool
  deriving DecidableEq

def Candidate.shortfalls (c : Candidate) : List Shortfall := c.failedChecks ++ c.unmet

/-- `delivered_from`: which attempt was delivered, by which engine, and why. -/
structure Account where
  attempt : Nat
  engine : String
  why : String
  rule : String
  shortOf : List Shortfall
  /-- The attempt, the engine and the rank of every candidate. -/
  candidates : List (Nat × String × List (WithTop ℚ))
  deriving DecidableEq

/-- The final state of a run, as far as the delivery reads or writes it. -/
structure FinalState where
  ladder : LadderState
  apiFailure : String
  workspace : String
  manifest : Option Manifest
  findings : List Finding
  feedback : String
  history : List ReviewRecord
  deliveredFrom : Option Account
  /-- The routes read the same findings. -/
  routed : ladder.pipeline.reviewerAxisFindings = findings.map (·.toAxisFinding)

/-- What the delivery reads beside the state. -/
structure DeliveryWorld where
  registry : Registry
  settings : GraphSettings
  /-- The criteria that an engine declares. -/
  criteria : String → List Criterion
  /-- The manifest that a workspace still holds. -/
  readManifest : String → Option Manifest

variable (w : DeliveryWorld) (s : FinalState)

/-! ## The candidates -/

/-- `_quality_rows`: the criteria with what they found; nothing where one of them raised. -/
def qualityRows (engine : String) (m : Manifest) : List (Criterion × Option Bool) :=
  let rows := (w.criteria engine).mapM fun c => (c.evaluate m.measurements).map fun passed =>
    (c, passed)
  (rows.getD []).filter fun row => row.1.key ∉ buildTimeKeys

/-- `_LAYERS_PRESENT_PCT`. -/
def layersPresentPct : ℚ := 1

/-- What the mesh is short of in the approved plan. -/
def unmetOf (m : Manifest) (requirement : Requirement) : List Shortfall :=
  match requirement with
  | .prismLayers =>
    match m.measured "layer_coverage_pct" with
    | none => [.layersUnmeasured]
    | some coverage => if coverage ≤ layersPresentPct then [.noPrismLayers] else []
  | .wakeRefinement => if m.wakeRefined then [] else [.noWakeRefinement]

/-- `plan_requirements` of the approved engine; an unknown one has no plan. -/
def requirements : List Requirement :=
  match w.registry.getSpec s.ladder.approvedEngine with
  | none => []
  | some approved => planRequirements s.ladder.approval approved

/-- `_measure`: the candidate that a mesh makes, unless it is broken. -/
def measure (attempt : Nat) (engine workspace : String) (m : Manifest) (entry : Option ReviewRecord)
    (current : Bool) (findings : List Finding) (caveats : List CaveatKind) : Option Candidate :=
  let verdict := (entry.bind (·.verdict)).or
    (if current then s.ladder.pipeline.reviewerVerdict else none)
  let decided := w.settings.verdictByLimits
  if m.fatal then none
  else some {
    attempt := attempt
    engine := engine
    workspace := workspace
    manifest := m
    entry := entry
    current := current
    failedChecks := ((qualityRows w engine m).filter (·.2 = some false)).map fun row =>
      .check row.1 (m.measurements.lookup row.1.key)
    unmet := (requirements w s).flatMap (unmetOf m) ++ caveats.map .requirement
    maxNonOrtho := m.measured "max_non_ortho"
    maxSkewness := m.measured "max_skewness"
    layerCoverage := m.measured "layer_coverage_pct"
    wrongProblem :=
      if decided then 0 else (blockingFindings (findings.map (·.toAxisFinding))).length
    reviewLeftConcerns := !decided && verdict == some .FAIL }

/-- The engine that built a mesh: the one that its manifest names, else its review, else the run. -/
def engineOf (m : Manifest) (entry : Option ReviewRecord) : String :=
  let reviewed := (entry.map (·.engine)).getD ""
  if m.meshMode ≠ "" then m.meshMode else if reviewed ≠ "" then reviewed else s.ladder.engine

/-- The last attempt passed its gates, and nothing failed but its review. -/
def lastPassed : Bool :=
  let api := Ending.bareMarker s.apiFailure
  s.ladder.pipeline.executorSuccess && s.ladder.pipeline.executorFailedGate == "" &&
    (api == "" || Ending.isReviewerMarker api)

/-- The manifest that the state holds, else the one on disk. -/
def lastManifest : Option Manifest := s.manifest.or (w.readManifest s.workspace)

/-- The candidate of the run's last state. -/
def lastCandidate : Option Candidate :=
  if lastPassed s ∧ s.workspace ≠ "" then
    (lastManifest w s).bind fun m =>
      measure w s s.ladder.pipeline.retryCount (engineOf s m none) s.workspace m
        (s.history.reverse.find? (·.workspace = s.workspace)) true s.findings
        s.ladder.report.caveats
  else none

/-- The candidate of a concluded review. -/
def reviewedCandidate (h : ReviewRecord) : Option Candidate :=
  if h.concluded then
    (w.readManifest h.workspace).bind fun m =>
      measure w s h.attempt (engineOf s m (some h)) h.workspace m (some h) false h.findings h.caveats
  else none

/-- One review of the history: the first candidate of a workspace stands. -/
def addReviewed (pool : List Candidate) (h : ReviewRecord) : List Candidate :=
  if h.workspace ∈ pool.map (·.workspace) then pool
  else pool ++ (reviewedCandidate w s h).toList

def candidates : List Candidate :=
  s.history.foldl (addReviewed w s) (lastCandidate w s).toList

/-! ## The ranking -/

/-- A truth among the marks: `False` before `True`. -/
def mark (b : Bool) : WithTop ℚ := ↑(if b then 1 else 0 : ℚ)

/-- An unmeasured cell metric ranks after every measured one. -/
def cellMetric (v : Option ℚ) : WithTop ℚ := v

/-- `rank_key`: lower first. -/
def rankKey (c : Candidate) : List (WithTop ℚ) :=
  [mark (0 < c.wrongProblem),
    mark (c.failedChecks ≠ []),
    ↑(c.failedChecks.length : ℚ),
    ↑(c.unmet.length : ℚ),
    cellMetric (c.maxNonOrtho.map fun v => (⌊v⌋ : ℚ)),
    mark c.reviewLeftConcerns,
    cellMetric c.maxNonOrtho,
    cellMetric c.maxSkewness,
    ↑(-c.layerCoverage.getD 0 : ℚ),
    ↑(c.attempt : ℚ)]

/-- `_WHY`. -/
def whyTexts : List String :=
  ["the review confirmed the other does not match what you asked for",
    "it passes every fixed quality limit and the other does not",
    "it fails fewer quality checks",
    "it meets more of the approved plan (layers, wake refinement, stated sizes)",
    "its worst cells are better shaped (lower non-orthogonality)",
    "its review passed and the other's left concerns, and they measure the same",
    "its worst cells are better shaped (lower non-orthogonality)",
    "its worst cells are better shaped (lower skewness)",
    "more of its wall is covered by prism layers",
    "it came first and measures the same"]

/-- `DELIVERY_RULES`. -/
def deliveryRules : List String :=
  ["DEL-1", "DEL-2", "DEL-3", "DEL-4", "DEL-5", "DEL-6", "DEL-7", "DEL-8", "DEL-9", "DEL-10"]

/-- `DELIVERY_ONLY_ONE`. -/
def deliveryOnlyOne : String := "DEL-0"

/-- `_deciding`. -/
def decidingPosition (best other : Candidate) : Nat :=
  (deciding (rankKey best) (rankKey other)).getD (whyTexts.length - 1)

def whyChosen (best other : Candidate) : String :=
  (whyTexts[decidingPosition best other]?).getD ""

def ruleChosen (best other : Candidate) : String :=
  (deliveryRules[decidingPosition best other]?).getD ""

/-! ## The delivery -/

/-- `_why_not_last`. -/
def whyNotLast : String :=
  let last := s.ladder.pipeline.retryCount
  if !s.ladder.pipeline.executorSuccess ∨ s.ladder.pipeline.executorFailedGate ≠ "" then
    s!"attempt {last} did not pass the automatic checks"
  else s!"attempt {last} measured worse"

/-- `_account`. -/
def account (best : Candidate) (pool : List Candidate) : Account :=
  let reason :=
    match firstBest rankKey (pool.erase best) with
    | some runner =>
      (s!"it was chosen over attempt {runner.attempt} ({runner.engine}) because " ++
        whyChosen best runner, ruleChosen best runner)
    | none =>
      (s!"it is the only valid mesh this run built - {whyNotLast s}", deliveryOnlyOne)
  { attempt := best.attempt
    engine := best.engine
    why := reason.1
    rule := reason.2
    shortOf := best.shortfalls
    candidates := pool.map fun c => (c.attempt, c.engine, rankKey c) }

/-- What the review of a candidate and its manifest recorded of its parameters. -/
def recordedParams (c : Candidate) : List EngineParams :=
  [c.entry.bind (·.engineParams), c.manifest.engineParams].filterMap id

/-- The parameters of a mesh whose records name none: the run's, filled in for another engine. -/
def carriedParams (engine : String) : EngineParams :=
  if engine = s.ladder.engine then s.ladder.engineParams
  else ((w.registry.getSpec engine).map (·.resolveEngineParams s.ladder.engineParams)).getD []

/-- `_params_of`. -/
def paramsOf (best : Candidate) : EngineParams :=
  ((recordedParams best).find? (· ≠ [])).getD (carriedParams w s best.engine)

/-- The ladder's record of the attempt that just ended. -/
def closingRecord : LadderRecord := withAttempt s.ladder (classify w.registry s.ladder)

/-- The state that is moved onto an earlier attempt. -/
def swapOnto (best : Candidate) (entry : ReviewRecord) (why : Account) : FinalState :=
  { s with
    ladder := { s.ladder with
      engine := best.engine
      engineParams := paramsOf w s best
      record := closingRecord w s
      report := { s.ladder.report with caveats := entry.caveats }
      pipeline := { s.ladder.pipeline with
        executorSuccess := true
        executorFailedGate := ""
        executorFailureCause := none
        executorFailureFacts := .empty
        requirementCaveats := !entry.caveats.isEmpty
        reviewerVerdict := entry.verdict
        reviewerAxisFindings := entry.findings.map (·.toAxisFinding)
        reviewerRebuildRequired := false
        apiFailure := none } }
    apiFailure := ""
    workspace := best.workspace
    manifest := some best.manifest
    findings := entry.findings
    feedback := entry.feedback
    deliveredFrom := some why
    routed := rfl }

/-- `select`. -/
def select : FinalState :=
  if s.ladder.pipeline.userDispute.isSome then s
  else
    let pool := candidates w s
    match firstBest rankKey pool with
    | none => s
    | some best =>
      match best.current, best.entry with
      | false, some entry => swapOnto w s best entry (account s best pool)
      | _, _ =>
        if 1 < pool.length then
          { s with
            ladder := { s.ladder with record := closingRecord w s }
            deliveredFrom := some (account s best pool) }
        else s

end MeshPipeline.Application.ReviewDelivery
