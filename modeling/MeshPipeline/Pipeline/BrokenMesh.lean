import MeshPipeline.Pipeline.EngineLadder

/-!
# Where a broken mesh moves the run

The builder is told before an attempt which engine a broken mesh of it would move the run to. The
ladder answers that on a made-up ending of the attempt, and again on the real one, after the
attempt's own staging was read and an order that was still missing was measured.
-/

namespace MeshPipeline.Pipeline

/-- The attempt now being built, ended on a broken mesh. -/
def brokenProbe (s : LadderState) : LadderState :=
  { s with
    pipeline := { s.pipeline with
      retryCount := s.pipeline.retryCount + 1
      executorSuccess := false
      executorFailedGate := "finalize"
      executorFailureCause := some .meshQuality
      executorFailureFacts := .empty
      requirementCaveats := false
      reviewerVerdict := none }
    report := ⟨[], ["broken cells"], false, some 1, false⟩ }

/-- `moves_on_from_broken_mesh`. -/
def movesOnFromBrokenMesh (cfg : LadderWorld) (s : LadderState) : Option String :=
  (EngineRun.decision cfg (brokenProbe s)).switchTarget

/-- How the attempt may really end on a broken mesh: the executor's state and its report. -/
structure BrokenEnding (s : LadderState) where
  pipeline : PipelineState
  report : AttemptReport
  counted : pipeline.retryCount = s.pipeline.retryCount + 1
  failed : pipeline.executorSuccess = false
  cause : pipeline.executorFailureCause = some .meshQuality
  broken : brokenCells report ≠ []
  dispute : pipeline.userDispute = s.pipeline.userDispute

/-- What is learned of the passages and of the order by the time that the ladder decides. -/
structure LateEvidence where
  measured : Option (List String × Option Nat)
  staged : Option Nat

/-- The record that the ladder decides on. -/
def LateEvidence.record (e : LateEvidence) (record : LadderRecord) : LadderRecord :=
  withStagedPassages (seedMeasuredOrder record e.measured) e.staged

/-- The state that `node_engine_fallback` decides on. -/
def BrokenEnding.judged {s : LadderState} (b : BrokenEnding s) (e : LateEvidence) : LadderState :=
  { s with pipeline := b.pipeline, report := b.report, record := e.record s.record }

/-- The engine that `node_engine_fallback` moves the run to. -/
def BrokenEnding.moveTarget {s : LadderState} (b : BrokenEnding s) (cfg : LadderWorld)
    (e : LateEvidence) : Option String :=
  (EngineRun.decision cfg (b.judged e)).switchTarget

/-! ## The open engines -/

/-- The rung of an engine that can build what was declared, whatever the passages. -/
def ableRung (reg : Registry) (s : LadderState) (approved : EngineSpec) (name : String) :
    Option Rung :=
  if name = s.approvedEngine ∨ name ∉ reg.engineNames then none
  else (reg.getSpec name).bind fun spec =>
    if !spec.admits (s.declaredEvidence spec) then none
    else
      let changes := changesOf s approved spec
      some ⟨name, changes, changes ≠ [] ∧ changes ⊆ kindChanges approved spec⟩

/-- The engines that can build what was declared, in ladder order. -/
def ableRungs (reg : Registry) (s : LadderState) : List Rung :=
  if s.approvedEngine = "" then []
  else match flowOf s.approval.purpose, reg.getSpec s.approvedEngine with
  | some flow, some approved =>
    if s.engineSource = .dispute then []
    else (reg.fallbackOrder flow s.record.order).filterMap (ableRung reg s approved)
  | _, _ => []

/-- `covers_case`: an unknown engine is judged by everything else. -/
def coversCase (reg : Registry) (s : LadderState) (name : String) : Bool :=
  ((reg.getSpec name).map fun spec =>
    spec.coversPassages (flowOf s.approval.purpose) s.passagesOf).getD true

/-- The able engines that the run may still move to in the middle of it. -/
def openRungs (reg : Registry) (s : LadderState) (sort : Rung → Bool) : List Rung :=
  (ableRungs reg s).filter fun r =>
    sort r && decide (r.engine ∉ triedEngines s) &&
      !(reg.getSpec r.engine).any (·.measuresItsInput)

/-- The engines that may take over a run whose engine made no usable mesh, the first choice first:
those of the approved mesh, then those of another kind of it. -/
def openEngines (reg : Registry) (s : LadderState) : List String :=
  (openRungs reg s (·.sameContract) ++ openRungs reg s (·.kindOnly)).map (·.engine)

/-- The open engine that takes over: the first that meshes the case's passages. -/
def firstTaker (reg : Registry) (s : LadderState) : Option String :=
  (openEngines reg s).find? (coversCase reg s)

/-- The ladder may move the run at the end of the attempt being built. -/
def MayMove (cfg : LadderWorld) (s : LadderState) : Prop :=
  cfg.settings.fallbackEnabled = true ∧ s.maySwitchOnItsOwn = true ∧
    s.pipeline.retryCount + 1 ≤ cfg.settings.graph.maxBuilderRetries

/-- The driver's own ladder ran out on the broken mesh, so nothing that runs again changes it. -/
def BrokenEnding.Exhausted {s : LadderState} (b : BrokenEnding s) : Prop :=
  b.pipeline.executorFailureFacts.deterministic = true ∧
    b.pipeline.executorFailureFacts.ladderExhausted = true

/-- Where the run may move: the driver is not exhausted unless no engine could take over, and the
first open engine to mesh the passages on the record is the first to mesh those read by then, in the
order measured by then. -/
def SameTaker (cfg : LadderWorld) (s : LadderState) (b : BrokenEnding s) (e : LateEvidence) : Prop :=
  MayMove cfg s →
    (b.Exhausted → firstTaker cfg.registry s = none) ∧
      (¬ b.Exhausted →
        firstTaker cfg.registry s = firstTaker cfg.registry { s with record := e.record s.record })

variable {reg : Registry} {cfg : LadderWorld} {s : LadderState} {approved : EngineSpec}

/-- A rung is an able one that meshes the passages. -/
theorem rungOf_eq_filter (name : String) :
    rungOf reg s approved name =
      (ableRung reg s approved name).filter fun r => coversCase reg s r.engine := by
  unfold rungOf ableRung
  split
  · rfl
  · cases hspec : reg.getSpec name with
    | none => rfl
    | some spec =>
      simp only [Option.bind_some]
      by_cases hadmits : spec.admits (s.declaredEvidence spec) = true
      · by_cases hcovers :
            spec.coversPassages (flowOf s.approval.purpose) s.passagesOf = true <;>
          simp [hadmits, hcovers, coversCase, hspec, Option.filter_some]
      · simp [hadmits]

theorem filterMap_rungOf (order : List String) :
    order.filterMap (rungOf reg s approved) =
      (order.filterMap (ableRung reg s approved)).filter fun r => coversCase reg s r.engine := by
  induction order with
  | nil => rfl
  | cons name order ih =>
    rw [List.filterMap_cons, List.filterMap_cons, rungOf_eq_filter, ih]
    cases ableRung reg s approved name with
    | none => rfl
    | some r =>
      by_cases hcovers : coversCase reg s r.engine = true <;>
        simp [Option.filter_some, hcovers]

/-- The ladder is the approved engine and the able rungs that mesh the passages. -/
theorem ladder_eq (reg : Registry) (s : LadderState) :
    ladder reg s = (if s.approvedEngine = "" then [] else [⟨s.approvedEngine, [], false⟩]) ++
      (ableRungs reg s).filter fun r => coversCase reg s r.engine := by
  by_cases hempty : s.approvedEngine = ""
  · simp [ladder, ableRungs, hempty]
  · cases hflow : flowOf s.approval.purpose with
    | none => simp [ladder, ableRungs, hempty, hflow]
    | some flow =>
      cases hspec : reg.getSpec s.approvedEngine with
      | none => simp [ladder, ableRungs, hempty, hflow, hspec]
      | some approved =>
        by_cases hdispute : s.engineSource = .dispute <;>
          simp [ladder, ableRungs, hempty, hflow, hspec, hdispute, filterMap_rungOf]

/-- The rungs that a run may move to are the open ones that mesh the passages: the approved engine
is never untried. -/
theorem untriedRungs_eq (reg : Registry) (s : LadderState) (sort : Rung → Bool) :
    untriedRungs reg s sort =
      (openRungs reg s sort).filter fun r => coversCase reg s r.engine := by
  have hfirst (hne : s.approvedEngine ≠ "") : s.approvedEngine ∈ triedEngines s :=
    mem_triedEngines.mpr ⟨.inl rfl, hne⟩
  unfold untriedRungs openRungs
  rw [ladder_eq, List.filter_append, List.filter_comm]
  by_cases hempty : s.approvedEngine = "" <;> simp [hempty, hfirst]

theorem head?_filter_map {α β : Type*} (f : α → β) (p : β → Bool) (l : List α) :
    ((l.filter fun a => p (f a)).head?).map f = (l.map f).find? p := by
  rw [List.head?_filter, List.find?_map]
  rfl

theorem firstTaker_eq (reg : Registry) (s : LadderState) :
    firstTaker reg s =
      ((untriedRungs reg s (·.sameContract) ++ untriedRungs reg s (·.kindOnly)).head?).map
        (·.engine) := by
  rw [untriedRungs_eq, untriedRungs_eq, ← List.filter_append, head?_filter_map]
  rfl

/-- Once an engine made no usable mesh, the first taker takes over, if the run may move at all. -/
theorem decideSwitch_of_engine {state : LadderState} {record : LadderRecord} {failure : Failure}
    (hfailure : classify reg state = some failure) (hkind : failure.kind = .engine) :
    (decideSwitch reg cfg.settings state record).switchTarget =
      if cfg.settings.fallbackEnabled = true ∧ state.maySwitchOnItsOwn = true ∧
          state.pipeline.retryCount ≤ cfg.settings.graph.maxBuilderRetries then
        firstTaker reg { state with record := record }
      else none := by
  rw [firstTaker_eq]
  unfold decideSwitch
  simp only [hfailure, hkind]
  by_cases henabled : cfg.settings.fallbackEnabled = true
  swap
  · simp [henabled]
  by_cases hmay : state.maySwitchOnItsOwn = true
  swap
  · simp [henabled, hmay]
  have hleft : (1 : Int) ≤ cfg.settings.graph.maxBuilderRetries + 1 - state.pipeline.retryCount ↔
      state.pipeline.retryCount ≤ cfg.settings.graph.maxBuilderRetries := by omega
  simp only [henabled, hmay]
  cases untriedRungs reg { state with record := record } (·.sameContract) with
  | nil =>
    cases untriedRungs reg { state with record := record } (·.kindOnly) with
    | nil => simp
    | cons rung rungs =>
      by_cases hroom : state.pipeline.retryCount ≤ cfg.settings.graph.maxBuilderRetries <;>
        simp [hleft, hroom]
  | cons rung rungs =>
    by_cases hroom : state.pipeline.retryCount ≤ cfg.settings.graph.maxBuilderRetries
    · have hnot : ¬ (cfg.settings.graph.maxBuilderRetries + 1 - state.pipeline.retryCount : Int) <
          1 := by omega
      simp [hroom, hnot]
    · have hnone : (cfg.settings.graph.maxBuilderRetries + 1 - state.pipeline.retryCount : Int) <
          1 := by omega
      simp [hroom, hnone]

/-! ## What the first taker depends on -/

/-- The two states agree in all that a taker is chosen by. -/
structure SameChoice (s t : LadderState) : Prop where
  approved : s.approvedEngine = t.approvedEngine
  source : s.engineSource = t.engineSource
  approval : s.approval = t.approval
  params : s.engineParams = t.engineParams
  order : s.record.order = t.record.order
  passages : s.passagesOf = t.passagesOf
  tried : ∀ e, e ∈ triedEngines s ↔ e ∈ triedEngines t

theorem SameChoice.firstTaker {t : LadderState} (h : SameChoice s t) :
    firstTaker reg s = firstTaker reg t := by
  have hcovers : coversCase reg s = coversCase reg t := by
    funext name
    simp only [coversCase, h.approval, h.passages]
  have hchanges : changesOf s = changesOf t := by
    funext approved spec
    simp only [changesOf, h.approval, h.params]
  have hevidence : s.declaredEvidence = t.declaredEvidence := by
    funext spec
    simp only [LadderState.declaredEvidence, h.approval]
  have hable : ableRung reg s = ableRung reg t := by
    unfold ableRung
    rw [hchanges, hevidence, h.approved]
  simp only [MeshPipeline.Pipeline.firstTaker, openEngines, openRungs, ableRungs, hcovers, hable,
    h.approved, h.source, h.approval, h.order, h.tried]

/-- The record of the attempt that just ended changes nothing of who may take over: its engine was
tried already. -/
theorem sameChoice_withAttempt (s : LadderState) (failure : Option Failure) :
    SameChoice { s with record := withAttempt s failure } s where
  approved := by
    cases happroved : s.record.approved <;>
      simp [LadderState.approvedEngine, withAttempt, happroved]
  source := rfl
  approval := rfl
  params := rfl
  order := rfl
  passages := rfl
  tried e := by
    refine ⟨fun h => ?_, fun h => mem_triedEngines_withAttempt h failure⟩
    have happroved : LadderState.approvedEngine { s with record := withAttempt s failure } =
        s.approvedEngine := by
      cases happroved : s.record.approved <;>
        simp [LadderState.approvedEngine, withAttempt, happroved]
    have hattempts : e ∈ (withAttempt s failure).attempts.map (·.engine) →
        e ∈ s.record.attempts.map (·.engine) ∨ e = s.engine := by
      simp only [withAttempt]
      split
      · simp [or_comm]
      · exact .inl
    rw [mem_triedEngines] at h ⊢
    rw [happroved] at h
    obtain ⟨htried, hne⟩ := h
    refine ⟨?_, hne⟩
    rcases htried with happroved | hattempt | hengine
    · exact .inl happroved
    · exact .inr (hattempts hattempt)
    · exact .inr (.inr hengine)

/-- The failure of an attempt that ended on a broken mesh. -/
theorem classify_broken (hfailed : s.pipeline.executorSuccess = false)
    (hcause : s.pipeline.executorFailureCause = some .meshQuality)
    (hbroken : brokenCells s.report ≠ []) :
    ∃ failure, classify reg s = some failure ∧
      (failure.kind = if s.pipeline.executorFailureFacts.deterministic = true ∧
        s.pipeline.executorFailureFacts.ladderExhausted = true then .never else .engine) := by
  have hgate : causeOf reg s = some .meshQuality := by simp [causeOf, hcause]
  refine ⟨failureOf s .meshQuality, by simp [classify, hfailed, hgate], ?_⟩
  by_cases hexhausted : s.pipeline.executorFailureFacts.deterministic = true ∧
      s.pipeline.executorFailureFacts.ladderExhausted = true
  · simp [failureOf, retryCanHelp, onlyAnotherEngineChanges, hexhausted]
  · simp [failureOf, retryCanHelp, onlyAnotherEngineChanges, hexhausted, ladderClass, hbroken]

theorem decideSwitch_never {state : LadderState} {record : LadderRecord} {failure : Failure}
    (hfailure : classify reg state = some failure) (hkind : failure.kind = .never) :
    (decideSwitch reg cfg.settings state record).switchTarget = none := by
  simp [decideSwitch, hfailure, hkind]

/-! ## The prediction and the move -/

instance (cfg : LadderWorld) (s : LadderState) : Decidable (MayMove cfg s) :=
  inferInstanceAs (Decidable (_ ∧ _ ∧ _))

instance {s : LadderState} (b : BrokenEnding s) : Decidable b.Exhausted :=
  inferInstanceAs (Decidable (_ ∧ _))

/-- The prediction is the first taker by the record that the builder is told from. -/
theorem movesOnFromBrokenMesh_eq (cfg : LadderWorld) (s : LadderState) :
    movesOnFromBrokenMesh cfg s = if MayMove cfg s then firstTaker cfg.registry s else none := by
  have hbroken : brokenCells (brokenProbe s).report ≠ [] := by
    simp only [brokenCells, brokenProbe]
    decide
  obtain ⟨failure, hfailure, hkind⟩ := @classify_broken cfg.registry (brokenProbe s) rfl rfl hbroken
  have hprobe : firstTaker cfg.registry (brokenProbe s) = firstTaker cfg.registry s :=
    SameChoice.firstTaker ⟨rfl, rfl, rfl, rfl, rfl, rfl, fun _ => Iff.rfl⟩
  unfold movesOnFromBrokenMesh EngineRun.decision
  rw [decideSwitch_of_engine hfailure hkind, (sameChoice_withAttempt _ _).firstTaker, hprobe]
  rfl

/-- The move is the first taker by what was learned since, unless the driver was exhausted. -/
theorem BrokenEnding.moveTarget_eq (b : BrokenEnding s) (cfg : LadderWorld) (e : LateEvidence) :
    b.moveTarget cfg e =
      if MayMove cfg s ∧ ¬ b.Exhausted then
        firstTaker cfg.registry { s with record := e.record s.record }
      else none := by
  obtain ⟨failure, hfailure, hkind⟩ := @classify_broken cfg.registry (b.judged e) b.failed b.cause b.broken
  have hjudged : firstTaker cfg.registry (b.judged e) =
      firstTaker cfg.registry { s with record := e.record s.record } := by
    refine SameChoice.firstTaker ⟨rfl, ?_, rfl, rfl, rfl, rfl, fun _ => Iff.rfl⟩
    simp only [LadderState.engineSource, BrokenEnding.judged, b.dispute]
  have hmay : (b.judged e).maySwitchOnItsOwn = s.maySwitchOnItsOwn := by
    simp only [LadderState.maySwitchOnItsOwn, LadderState.engineSource, BrokenEnding.judged,
      b.dispute]
  unfold BrokenEnding.moveTarget EngineRun.decision
  by_cases hexhausted : b.Exhausted
  · rw [if_neg (fun h => h.2 hexhausted)]
    exact decideSwitch_never hfailure (hkind.trans (if_pos hexhausted))
  · have hengine : failure.kind = .engine := hkind.trans (if_neg hexhausted)
    rw [decideSwitch_of_engine hfailure hengine, (sameChoice_withAttempt _ _).firstTaker, hjudged,
      hmay]
    have hcounted : (b.judged e).pipeline.retryCount = s.pipeline.retryCount + 1 := b.counted
    simp only [hcounted, MayMove, hexhausted, not_false_eq_true, and_true]

/-- An engine of the internal flow that meshes so many passages in one job. -/
def tubeEngine (name : String) (rank passages : Nat) : EngineSpec where
  name := name
  implemented := true
  exportFormats := ["openfoam"]
  intakeParams := []
  accepts := [⟨.internal, passages⟩]
  ladderRank := rank
  deliveredMesh := some ⟨.hexDominant, .bodyFitted, true, false⟩
  inputContract := none
  admits _ := true

def tubeEngines : LadderWorld where
  settings := ⟨.default, true⟩
  registry :=
    { catalog := [tubeEngine "cfmesh" 1 30, tubeEngine "snappy" 2 1]
      named := by decide
      defaultEngine := "snappy"
      flowRanking := fun _ => []
      gateCause := fun _ _ => none }
  approval := ⟨.system, "internal_cfd", none, none, [], none, false, false, false, false⟩

/-- The first attempt is about to be built on `cfmesh`, and nothing counted the passages yet. -/
def beforeFirstAttempt : LadderState where
  pipeline := .initial none
  engine := "cfmesh"
  engineParams := []
  approval := tubeEngines.approval
  report := ⟨[], [], false, none, false⟩
  record := ⟨none, none, [], [], ["cfmesh", "snappy"], none⟩

/-- Its mesh has negative-volume cells. -/
def brokenFirstAttempt : BrokenEnding beforeFirstAttempt where
  pipeline := { PipelineState.initial none with
    retryCount := 1
    executorFailedGate := "finalize"
    executorFailureCause := some .meshQuality }
  report := ⟨[], ["negative-volume cells"], false, some 1, false⟩
  counted := rfl
  failed := rfl
  cause := rfl
  broken := by decide
  dispute := rfl

end MeshPipeline.Pipeline
