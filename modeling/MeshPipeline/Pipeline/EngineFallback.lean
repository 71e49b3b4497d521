import MeshPipeline.Pipeline.EngineRegistry

/-!
# The fallback ladder

When a run moves to another engine on its own: from the failure of its last attempt, what the engines
declare, the engines it has tried and the attempts it has left. The approved engine stays the first
rung, and every other rung is marked with what it would change about the approved mesh.
-/

namespace MeshPipeline.Pipeline

/-- Who chose the engine. -/
inductive EngineSource
  | userDirect | suggestedConfirmed | dispute | system | unknown
  deriving DecidableEq, Repr

/-- What another engine could do about a failure. -/
inductive FailureKind
  | engine | fixable | never | review
  deriving DecidableEq, Repr

/-- What a failure is recorded as: its cause, the gate that names none, or what was noted of a sound
mesh. -/
inductive RecordedCause
  | cause (value : FailureCause)
  | gate (key : String)
  | resolutionShort | overCellLimit | requirementsNearMiss | review
  deriving DecidableEq, Repr

structure Failure where
  kind : FailureKind
  cause : RecordedCause
  deriving DecidableEq, Repr

inductive CaveatKind
  | resolutionShort | overCellLimit | domainExtent
  deriving DecidableEq, Repr

/-- `NOTE_KINDS`. -/
def CaveatKind.isNote : CaveatKind → Bool
  | .resolutionShort | .overCellLimit => true
  | .domainExtent => false

/-- What the executor kept of the attempt, beside the pipeline's own state. -/
structure AttemptReport where
  caveats : List CaveatKind
  /-- The fatal defects of the mesh. -/
  fatal : List String
  overSizeByRule : Bool
  meshersStarted : Option Nat
  beforeMeshing : Bool
  deriving DecidableEq, Repr

/-- What the user approved; the brief's words are read beforehand. -/
structure Approval where
  engineSource : EngineSource
  purpose : String
  inputKind : Option String
  dimensionality : Option String
  patches : List PatchSummary
  geometryForm : Option String
  /-- `effective_mesh_fidelity` is a draft. -/
  draft : Bool
  layersRequested : Bool
  mentionsNoLayers : Bool
  mentionsNoWake : Bool
  deriving DecidableEq, Repr

/-- An attempt on the ladder's record; one that passed has no failure. -/
structure LadderAttempt where
  attempt : Nat
  engine : String
  failure : Option Failure
  built : Bool
  deriving DecidableEq, Repr

/-- What a rung changes about the approved mesh. -/
inductive Change
  | incomparable
  | format (delivered approved : List String)
  | cells (delivered approved : CellKind)
  | walls (delivered approved : WallFit)
  | requestedLayers | plannedLayers | plannedWake | settings
  deriving DecidableEq, Repr

structure LadderSwitch where
  attempt : Nat
  source : String
  target : String
  failure : Failure
  changes : List Change
  deriving DecidableEq, Repr

/-- `engine_ladder`. -/
structure LadderRecord where
  approved : Option String
  source : Option EngineSource
  attempts : List LadderAttempt
  switches : List LadderSwitch
  /-- The measured order; empty when there is none. -/
  order : List String
  passages : Option Nat
  deriving DecidableEq, Repr

structure LadderSettings where
  graph : GraphSettings
  /-- `ENGINE_FALLBACK_ENABLED`. -/
  fallbackEnabled : Bool

/-- The part of the run's state that the ladder reads. -/
structure LadderState where
  pipeline : PipelineState
  engine : String
  engineParams : EngineParams
  approval : Approval
  report : AttemptReport
  record : LadderRecord
  deriving DecidableEq, Repr

namespace LadderState

def approvedEngine (s : LadderState) : String :=
  match s.record.approved with
  | none => s.engine
  | some approved => if approved = "" then s.engine else approved

def engineSource (s : LadderState) : EngineSource :=
  if s.pipeline.userDispute.isSome then .dispute else s.approval.engineSource

/-- `_SWITCHABLE_SOURCES`: an unknown source is the user's. -/
def maySwitchOnItsOwn (s : LadderState) : Bool :=
  s.engineSource == .suggestedConfirmed || s.engineSource == .system

/-- `passages_of`. -/
def passagesOf (s : LadderState) : Option Nat := s.record.passages.filter (0 < ·)

/-- `_declared_evidence`: the approved declaration, from this file. -/
def declaredEvidence (s : LadderState) (spec : EngineSpec) : AdmissionEvidence where
  engine := spec.name
  purpose := s.approval.purpose
  inputKind := s.approval.inputKind
  dimensionality := s.approval.dimensionality
  patches := s.approval.patches
  engineParams := spec.resolveEngineParams []
  geometryForm := s.approval.geometryForm

end LadderState

/-! ## The failure that just happened -/

/-- `_LADDER_CLASS`. -/
def ladderClass : FailureCause → FailureKind
  | .engineCrashed | .geometryRejected | .notBuilt => .engine
  | .meshQuality | .underResolved | .cellBudget | .notSolvable | .patchNotCaptured
  | .engineTimedOut => .fixable
  | .contractMismatch | .boundaryType | .domainExtent | .regionSplit | .reviewIncomplete
  | .runInfrastructure => .never

/-- `_ONLY_ANOTHER_ENGINE_CHANGES`. -/
def onlyAnotherEngineChanges : List FailureCause := [.geometryRejected, .underResolved, .notBuilt]

/-- `broken_cells`. -/
def brokenCells (report : AttemptReport) : List String :=
  report.fatal.filter fun defect => Text.strip defect ≠ ""

/-- The failure of an attempt that ended on a cause. -/
def failureOf (s : LadderState) (cause : FailureCause) : Failure :=
  let kind :=
    if !retryCanHelp (some cause) s.pipeline.executorFailureFacts ∧
        cause ∉ onlyAnotherEngineChanges then .never
    else ladderClass cause
  if s.report.overSizeByRule ∧ kind ≠ .never then ⟨.engine, .cause cause⟩
  else if brokenCells s.report ≠ [] ∧ kind ≠ .never then ⟨.engine, .cause cause⟩
  else ⟨kind, .cause cause⟩

/-- `_cause_of`: the recorded cause, or the one the failed gate declares. -/
def causeOf (reg : Registry) (s : LadderState) : Option FailureCause :=
  let gate := s.pipeline.executorFailedGate
  if s.pipeline.executorFailureCause.isSome ∨ gate = "" then s.pipeline.executorFailureCause
  else reg.gateCause s.engine gate

/-- `classify`. -/
def classify (reg : Registry) (s : LadderState) : Option Failure :=
  if s.pipeline.executorSuccess then
    if .resolutionShort ∈ s.report.caveats then some ⟨.never, .resolutionShort⟩
    else if s.report.caveats.any (·.isNote) then some ⟨.never, .overCellLimit⟩
    else if s.pipeline.requirementCaveats then some ⟨.never, .requirementsNearMiss⟩
    else if s.pipeline.reviewerVerdict = some .FAIL then some ⟨.review, .review⟩
    else none
  else
    match causeOf reg s with
    | some cause => some (failureOf s cause)
    | none =>
      if s.pipeline.executorFailedGate ≠ "" then
        some ⟨.fixable, .gate s.pipeline.executorFailedGate⟩
      else some (failureOf s .engineCrashed)

/-! ## The record -/

/-- `tried_engines`. -/
def triedEngines (s : LadderState) : List String :=
  ((s.approvedEngine :: s.record.attempts.map (·.engine) ++ [s.engine]).filter
    (· ≠ "")).eraseDups

/-- `mesher_started`: the attempt's own record of native runs is the authority. -/
def mesherStarted (s : LadderState) : Bool :=
  if s.pipeline.geometryUnsuitableReason then false
  else if s.pipeline.executorSuccess then true
  else match s.report.meshersStarted with
    | some started => decide (0 < started)
    | none => !s.report.beforeMeshing

/-- The number an attempt is recorded under; a refused geometry made none. -/
def attemptNumber (s : LadderState) : Nat :=
  if s.pipeline.geometryUnsuitableReason then 0 else s.pipeline.retryCount

/-- `with_attempt`: the attempt that just ended, once. -/
def withAttempt (s : LadderState) (failure : Option Failure) : LadderRecord :=
  let n := attemptNumber s
  let attempts := s.record.attempts
  { s.record with
    approved := some (s.record.approved.getD s.approvedEngine)
    source := some (s.record.source.getD s.engineSource)
    attempts :=
      if (0 < n ∨ s.pipeline.geometryUnsuitableReason) ∧ n ∉ attempts.map (·.attempt) then
        attempts ++ [⟨n, s.engine, failure, n == 0 || mesherStarted s⟩]
      else attempts }

/-- `with_switch`. -/
def withSwitch (record : LadderRecord) (switch : LadderSwitch) : LadderRecord :=
  if switch.attempt ∈ record.switches.map (·.attempt) then record
  else { record with switches := record.switches ++ [switch] }

/-! ## The rungs -/

inductive Requirement
  | prismLayers | wakeRefinement
  deriving DecidableEq, Repr

def DeliveredMesh.covers (mesh : DeliveredMesh) : Requirement → Bool
  | .prismLayers => mesh.prismLayers
  | .wakeRefinement => mesh.wakeRefinement

/-- `plan_requirements`: what the approved plan delivers that another engine must deliver too. -/
def planRequirements (approval : Approval) (approved : EngineSpec) : List Requirement :=
  let saidNoLayers := approval.mentionsNoLayers && !approval.layersRequested
  let layers := approval.layersRequested ||
    approved.deliveredMesh.any (·.prismLayers) && !approval.draft && !saidNoLayers
  let wake := flowOf approval.purpose == some .external &&
    approved.deliveredMesh.any (·.wakeRefinement) && !approval.mentionsNoWake
  (if layers then [.prismLayers] else []) ++ (if wake then [.wakeRefinement] else [])

/-- `uncovered`. -/
def uncovered (spec : EngineSpec) (requirements : List Requirement) : List Requirement :=
  match spec.deliveredMesh with
  | none => requirements
  | some mesh => requirements.filter fun r => !mesh.covers r

def changeIf (change : Change) (holds : Prop) [Decidable holds] : List Change :=
  if holds then [change] else []

/-- `_kind_changes`: the file format and the cells. -/
def kindChanges (approved spec : EngineSpec) : List Change :=
  match approved.deliveredMesh, spec.deliveredMesh with
  | some a, some c =>
    let delivered := spec.exportFormats.take 1
    let native := approved.exportFormats.take 1
    changeIf (.format delivered native) (delivered ≠ native) ++
      changeIf (.cells c.cells a.cells) (c.cells ≠ a.cells)
  | _, _ => []

/-- `_changes`. -/
def meshChanges (approved spec : EngineSpec) (layersRequested : Bool) : List Change :=
  match approved.deliveredMesh, spec.deliveredMesh with
  | some a, some c =>
    kindChanges approved spec ++
      changeIf (.walls c.walls a.walls) (c.walls.index < a.walls.index) ++
      changeIf .requestedLayers (layersRequested ∧ !c.prismLayers)
  | _, _ => [.incomparable]

/-- `_plan_changes`. -/
def planChanges (spec : EngineSpec) (layersRequested : Bool) (requirements : List Requirement) :
    List Change :=
  if spec.deliveredMesh = none then []
  else
    let missing := uncovered spec requirements
    changeIf .plannedLayers (.prismLayers ∈ missing ∧ !layersRequested) ++
      changeIf .plannedWake (.wakeRefinement ∈ missing)

/-- `_params_carry_over`: every question of the engine was answered in the approval. -/
def paramsCarryOver (params : EngineParams) (spec : EngineSpec) : Bool :=
  spec.intakeParams.all fun p =>
    let v := Text.key ((params.lookup p.key).getD "")
    if v = "" then !p.required else decide (v ∈ p.values)

structure Rung where
  engine : String
  changes : List Change
  /-- The only changes are those of the kind of mesh. -/
  kindOnly : Bool
  deriving DecidableEq, Repr

/-- The rung delivers what was approved. -/
def Rung.sameContract (rung : Rung) : Bool := rung.changes.isEmpty

/-- All that an engine would change about the approved mesh. -/
def changesOf (s : LadderState) (approved spec : EngineSpec) : List Change :=
  meshChanges approved spec s.approval.layersRequested ++
    planChanges spec s.approval.layersRequested (planRequirements s.approval approved) ++
    changeIf .settings (paramsCarryOver s.engineParams spec = false)

/-- The rung of an engine, if it can build what was declared and meshes the case's passages. -/
def rungOf (reg : Registry) (s : LadderState) (approved : EngineSpec) (name : String) :
    Option Rung :=
  if name = s.approvedEngine ∨ name ∉ reg.engineNames then none
  else (reg.getSpec name).bind fun spec =>
    if !spec.admits (s.declaredEvidence spec) then none
    else if !spec.coversPassages (flowOf s.approval.purpose) s.passagesOf then none
    else
      let changes := changesOf s approved spec
      some ⟨name, changes, changes ≠ [] ∧ changes ⊆ kindChanges approved spec⟩

/-- `ladder`: the approved engine, then every other engine that can build the approved request. -/
def ladder (reg : Registry) (s : LadderState) : List Rung :=
  let first : Rung := ⟨s.approvedEngine, [], false⟩
  if s.approvedEngine = "" then []
  else match flowOf s.approval.purpose, reg.getSpec s.approvedEngine with
  | some flow, some approved =>
    if s.engineSource = .dispute then [first]
    else first :: (reg.fallbackOrder flow s.record.order).filterMap (rungOf reg s approved)
  | _, _ => [first]

/-! ## The decision -/

structure Decision where
  switchTarget : Option String
  failure : Option Failure
  changes : List Change
  deriving DecidableEq, Repr

/-- `_NO_MESH_CAUSES`. -/
def noMeshCauses : List RecordedCause :=
  [.cause .engineTimedOut, .cause .engineCrashed, .cause .notBuilt]

/-- `_levers_spent`: two failed attempts on the engine that started a mesher. -/
def leversSpent (record : LadderRecord) (engine : String) : Bool :=
  decide (2 ≤ (record.attempts.filter fun a =>
    a.engine = engine && (a.failure.any fun f => f.kind = .fixable || f.kind = .engine) &&
      a.built).length)

/-- `_repeats`: the attempt before the last one on the engine failed the same way. -/
def repeatsFailure (record : LadderRecord) (engine : String) (failure : Failure) : Bool :=
  match (record.attempts.filter (·.engine = engine)).reverse with
  | _ :: previous :: _ => previous.failure == some failure
  | _ => false

/-- The rungs of one sort that the run has not tried and may move to in the middle of it. -/
def untriedRungs (reg : Registry) (s : LadderState) (sort : Rung → Bool) : List Rung :=
  (ladder reg s).filter fun r =>
    sort r && decide (r.engine ∉ triedEngines s) &&
      !(reg.getSpec r.engine).any (·.measuresItsInput)

/-- `decide`: stay on the engine for the next attempt, or move to the next rung. `record` already
holds the attempt that just failed. -/
def decideSwitch (reg : Registry) (cfg : LadderSettings) (state : LadderState)
    (record : LadderRecord) : Decision :=
  let s := { state with record := record }
  match classify reg state with
  | none => ⟨none, none, []⟩
  | some failure =>
    let stay : Decision := ⟨none, some failure, []⟩
    let left : Int := cfg.graph.maxBuilderRetries + 1 - (state.pipeline.retryCount : Int)
    if !cfg.fallbackEnabled then stay
    else if failure.kind = .never then stay
    else if failure.kind = .review then stay
    else if !state.maySwitchOnItsOwn then stay
    else
      match untriedRungs reg s (·.sameContract) with
      | [] =>
        if failure.kind = .engine ∨ failure.cause ∈ noMeshCauses then
          match untriedRungs reg s (·.kindOnly) with
          | rung :: _ => if 1 ≤ left then ⟨some rung.engine, some failure, rung.changes⟩ else stay
          | [] => stay
        else stay
      | rung :: rungs =>
        let room : Bool := decide ((rungs.length : Int) + 1 < left)
        if left < 1 then stay
        else if failure.kind = .fixable ∧ !leversSpent record state.engine ∧ room then stay
        else if failure.kind = .fixable ∧ !repeatsFailure record state.engine failure ∧ room then
          stay
        else ⟨some rung.engine, some failure, []⟩

/-! ## What a switch keeps -/

/-- All of the approved mesh but its kind: a wall at least as true to the body, the layers asked for,
what the approved plan builds, and settings that were all approved. -/
structure KeepsAllButKind (s : LadderState) (approved spec : EngineSpec) : Prop where
  comparable : approved.deliveredMesh.isSome ∧ spec.deliveredMesh.isSome
  walls : ∀ a ∈ approved.deliveredMesh, ∀ c ∈ spec.deliveredMesh, a.walls.index ≤ c.walls.index
  layers : s.approval.layersRequested → ∀ c ∈ spec.deliveredMesh, c.prismLayers
  plan : uncovered spec (planRequirements s.approval approved) = []
  settings : paramsCarryOver s.engineParams spec

/-- The approved mesh, of the same file format and the same cells. -/
structure SameContract (s : LadderState) (approved spec : EngineSpec) : Prop extends
    KeepsAllButKind s approved spec where
  format : spec.exportFormats.take 1 = approved.exportFormats.take 1
  cells : ∀ a ∈ approved.deliveredMesh, ∀ c ∈ spec.deliveredMesh, c.cells = a.cells

/-- Why the ladder may move a run to an engine. -/
structure SwitchPermitted (reg : Registry) (cfg : LadderSettings) (state : LadderState)
    (record : LadderRecord) (target : String) : Prop where
  source : state.engineSource = .suggestedConfirmed ∨ state.engineSource = .system
  untried : target ∉ triedEngines { state with record := record }
  attemptLeft : state.pipeline.retryCount ≤ cfg.graph.maxBuilderRetries
  /-- The failure may be another engine's to answer, and the engine can build what was approved. -/
  contract : ∃ failure approved spec, classify reg state = some failure ∧
    failure.kind ≠ .never ∧ failure.kind ≠ .review ∧
    reg.getSpec { state with record := record }.approvedEngine = some approved ∧
    reg.getSpec target = some spec ∧ spec.admits (state.declaredEvidence spec) ∧
    spec.coversPassages (flowOf state.approval.purpose)
      { state with record := record }.passagesOf ∧ spec.measuresItsInput = false ∧
    (SameContract state approved spec ∨
      KeepsAllButKind state approved spec ∧
        (failure.kind = .engine ∨ failure.cause ∈ noMeshCauses) ∧
        untriedRungs reg { state with record := record } (·.sameContract) = [])

variable {s : LadderState} {approved spec : EngineSpec}

theorem changeIf_eq_nil {change : Change} {holds : Prop} [Decidable holds] :
    changeIf change holds = [] ↔ ¬ holds := by
  unfold changeIf
  split <;> simp [*]

theorem mem_changeIf {change c : Change} {holds : Prop} [Decidable holds] :
    c ∈ changeIf change holds ↔ holds ∧ c = change := by
  unfold changeIf
  split <;> simp [*]

theorem mem_kindChanges {c : Change} (h : c ∈ kindChanges approved spec) :
    (∃ delivered native, c = .format delivered native) ∨
      ∃ delivered native, c = .cells delivered native := by
  unfold kindChanges at h
  split at h
  · rcases List.mem_append.mp h with h | h
    · exact .inl ⟨_, _, (mem_changeIf.mp h).2⟩
    · exact .inr ⟨_, _, (mem_changeIf.mp h).2⟩
  · cases h

/-- A requirement that the plan has and the engine does not cover is among the changes. -/
theorem uncovered_eq_nil {mesh : DeliveredMesh} (hmesh : spec.deliveredMesh = some mesh)
    {layersRequested : Bool} {requirements : List Requirement}
    (hplanned : Change.plannedLayers ∉ planChanges spec layersRequested requirements)
    (hwake : Change.plannedWake ∉ planChanges spec layersRequested requirements)
    (hlayers : layersRequested = true → mesh.prismLayers = true) :
    uncovered spec requirements = [] := by
  simp only [planChanges, hmesh, reduceCtorEq, if_false, List.mem_append, mem_changeIf, and_true,
    and_false, or_false, false_or] at hplanned hwake
  refine List.eq_nil_iff_forall_not_mem.mpr fun r hr => ?_
  cases r with
  | wakeRefinement => exact hwake hr
  | prismLayers =>
    have hrequested : layersRequested = true := by
      by_contra hno
      exact hplanned ⟨hr, by simpa using hno⟩
    have hcovers := hlayers hrequested
    simp [uncovered, hmesh, DeliveredMesh.covers, hcovers] at hr

theorem mem_changesOf (s : LadderState) {a c : DeliveredMesh}
    (ha : approved.deliveredMesh = some a) (hc : spec.deliveredMesh = some c) (change : Change) :
    change ∈ changesOf s approved spec ↔
      change ∈ kindChanges approved spec ∨
      c.walls.index < a.walls.index ∧ change = .walls c.walls a.walls ∨
      (s.approval.layersRequested = true ∧ c.prismLayers = false) ∧ change = .requestedLayers ∨
      change ∈ planChanges spec s.approval.layersRequested
        (planRequirements s.approval approved) ∨
      paramsCarryOver s.engineParams spec = false ∧ change = .settings := by
  simp [changesOf, meshChanges, ha, hc, mem_changeIf]

/-- What the changes leave out is kept. -/
theorem keepsAllButKind_of_changes
    (h : ∀ c ∈ changesOf s approved spec, c ∈ kindChanges approved spec) :
    KeepsAllButKind s approved spec := by
  have hkind {c : Change} (hc : c ∈ changesOf s approved spec) :
      (∃ delivered native, c = .format delivered native) ∨
        ∃ delivered native, c = .cells delivered native := mem_kindChanges (h c hc)
  obtain ⟨a, ha⟩ : ∃ a, approved.deliveredMesh = some a := by
    by_contra hnone
    have hchange : Change.incomparable ∈ changesOf s approved spec := by
      simp [changesOf, meshChanges, Option.eq_none_iff_forall_ne_some.mpr (not_exists.mp hnone)]
    simpa using hkind hchange
  obtain ⟨c, hc⟩ : ∃ c, spec.deliveredMesh = some c := by
    by_contra hnone
    have hchange : Change.incomparable ∈ changesOf s approved spec := by
      simp [changesOf, meshChanges, Option.eq_none_iff_forall_ne_some.mpr (not_exists.mp hnone)]
    simpa using hkind hchange
  have hmem (change : Change) := mem_changesOf s ha hc change
  have hlayers : s.approval.layersRequested = true → c.prismLayers = true := by
    intro hrequested
    by_contra hno
    have hchange := (hmem _).mpr (.inr (.inr (.inl ⟨⟨hrequested, by simpa using hno⟩, rfl⟩)))
    simpa using hkind hchange
  constructor
  · exact ⟨by simp [ha], by simp [hc]⟩
  · intro a' ha' c' hc'
    obtain rfl : a = a' := Option.some.inj (ha.symm.trans ha')
    obtain rfl : c = c' := Option.some.inj (hc.symm.trans hc')
    by_contra hlt
    have hchange := (hmem _).mpr (.inr (.inl ⟨Nat.lt_of_not_le hlt, rfl⟩))
    simpa using hkind hchange
  · intro hrequested c' hc'
    obtain rfl : c = c' := Option.some.inj (hc.symm.trans hc')
    exact hlayers hrequested
  · refine uncovered_eq_nil hc (fun hplan => ?_) (fun hplan => ?_) hlayers
    · simpa using hkind ((hmem _).mpr (.inr (.inr (.inr (.inl hplan)))))
    · simpa using hkind ((hmem _).mpr (.inr (.inr (.inr (.inl hplan)))))
  · by_contra hno
    have hchange := (hmem _).mpr
      (.inr (.inr (.inr (.inr ⟨by simpa using hno, rfl⟩))))
    simpa using hkind hchange

theorem sameContract_of_changes (h : changesOf s approved spec = []) :
    SameContract s approved spec := by
  have hkeeps : KeepsAllButKind s approved spec :=
    keepsAllButKind_of_changes fun c hc => by simp [h] at hc
  obtain ⟨a, ha⟩ := Option.isSome_iff_exists.mp hkeeps.comparable.1
  obtain ⟨c, hc⟩ := Option.isSome_iff_exists.mp hkeeps.comparable.2
  have hmem (change : Change) := mem_changesOf s ha hc change
  have hnil : kindChanges approved spec = [] := by
    refine List.eq_nil_iff_forall_not_mem.mpr fun change hchange => ?_
    have hlisted := (hmem _).mpr (.inl hchange)
    simp [h] at hlisted
  simp only [kindChanges, ha, hc, List.append_eq_nil_iff, changeIf_eq_nil, ne_eq, not_not] at hnil
  refine { hkeeps with format := hnil.1, cells := fun a' ha' c' hc' => ?_ }
  obtain rfl : a = a' := Option.some.inj (ha.symm.trans ha')
  obtain rfl : c = c' := Option.some.inj (hc.symm.trans hc')
  exact hnil.2

/-! ## The rungs and the decision -/

variable {reg : Registry} {cfg : LadderSettings} {record : LadderRecord}

/-- What every rung but the approved one has passed. -/
structure Admitted (reg : Registry) (s : LadderState) (r : Rung) (approved spec : EngineSpec) :
    Prop where
  listed : r.engine ∈ reg.engineNames
  knowsApproved : reg.getSpec s.approvedEngine = some approved
  knowsEngine : reg.getSpec r.engine = some spec
  admits : spec.admits (s.declaredEvidence spec) = true
  passages : spec.coversPassages (flowOf s.approval.purpose) s.passagesOf = true
  changes : r.changes = changesOf s approved spec
  kindOnly : r.kindOnly = true → r.changes ⊆ kindChanges approved spec

theorem admitted_of_rungOf {name : String} {r : Rung}
    (hspec : reg.getSpec s.approvedEngine = some approved)
    (h : rungOf reg s approved name = some r) : ∃ spec, Admitted reg s r approved spec := by
  unfold rungOf at h
  split at h
  · cases h
  · rename_i hlisted
    obtain ⟨-, hlisted⟩ := not_or.mp hlisted
    obtain ⟨spec, hname, hrung⟩ := Option.bind_eq_some_iff.mp h
    split at hrung
    · cases hrung
    · split at hrung
      · cases hrung
      · rename_i hadmits hcovers
        obtain rfl := Option.some.inj hrung
        exact ⟨spec, not_not.mp hlisted, hspec, hname, by simpa using hadmits,
          by simpa using hcovers, rfl, fun hkind => (of_decide_eq_true hkind).2⟩

/-- Every rung is the approved engine or was admitted. -/
theorem ladder_cases {r : Rung} (h : r ∈ ladder reg s) :
    (r.engine = s.approvedEngine ∧ s.approvedEngine ≠ "") ∨
      ∃ approved spec, Admitted reg s r approved spec := by
  unfold ladder at h
  split at h
  · cases h
  · rename_i hne
    split at h
    · rename_i flow approved _ hspec
      split at h
      · exact .inl ⟨by simp [List.mem_singleton.mp h], hne⟩
      · rcases List.mem_cons.mp h with rfl | h
        · exact .inl ⟨rfl, hne⟩
        · obtain ⟨name, _, hrung⟩ := List.mem_filterMap.mp h
          exact .inr ⟨approved, admitted_of_rungOf hspec hrung⟩
    · exact .inl ⟨by simp [List.mem_singleton.mp h], hne⟩

theorem mem_triedEngines {e : String} :
    e ∈ triedEngines s ↔
      (e = s.approvedEngine ∨ e ∈ s.record.attempts.map (·.engine) ∨ e = s.engine) ∧ e ≠ "" := by
  simp [triedEngines]

/-- A rung the run may move to was admitted and not tried, and does not measure its input. -/
theorem untried_cases {sort : Rung → Bool} {r : Rung} (h : r ∈ untriedRungs reg s sort) :
    sort r = true ∧ r.engine ∉ triedEngines s ∧
      ∃ approved spec, Admitted reg s r approved spec ∧ spec.measuresItsInput = false := by
  obtain ⟨hladder, hrest⟩ := List.mem_filter.mp h
  simp only [Bool.and_eq_true, Bool.not_eq_true', decide_eq_true_eq] at hrest
  obtain ⟨⟨hsort, huntried⟩, hmeasures⟩ := hrest
  refine ⟨hsort, huntried, ?_⟩
  rcases ladder_cases hladder with ⟨heq, hne⟩ | ⟨approved, spec, hadmitted⟩
  · exact absurd (mem_triedEngines.mpr ⟨.inl heq, heq ▸ hne⟩) huntried
  · refine ⟨approved, spec, hadmitted, ?_⟩
    simpa [hadmitted.knowsEngine] using hmeasures

/-- What a decision to move rests on. -/
theorem decideSwitch_cases {state : LadderState} {target : String}
    (h : (decideSwitch reg cfg state record).switchTarget = some target) :
    ∃ failure, classify reg state = some failure ∧ failure.kind ≠ .never ∧
      failure.kind ≠ .review ∧ state.maySwitchOnItsOwn = true ∧
      state.pipeline.retryCount ≤ cfg.graph.maxBuilderRetries ∧
      ∃ r, r.engine = target ∧
        (r ∈ untriedRungs reg { state with record := record } (·.sameContract) ∨
          r ∈ untriedRungs reg { state with record := record } (·.kindOnly) ∧
            (failure.kind = .engine ∨ failure.cause ∈ noMeshCauses) ∧
            untriedRungs reg { state with record := record } (·.sameContract) = []) := by
  unfold decideSwitch at h
  cases hfailure : classify reg state with
  | none => simp [hfailure] at h
  | some failure =>
    simp only [hfailure] at h
    refine ⟨failure, rfl, ?_⟩
    by_cases henabled : cfg.fallbackEnabled = false
    · simp [henabled] at h
    by_cases hnever : failure.kind = .never
    · simp [hnever] at h
    by_cases hreview : failure.kind = .review
    · simp [hreview] at h
    by_cases hmay : state.maySwitchOnItsOwn = false
    · simp [hmay] at h
    simp only [henabled, hnever, hreview, hmay, Bool.not_eq_true', Bool.true_eq_false,
      if_false] at h
    refine ⟨hnever, hreview, by simpa using hmay, ?_⟩
    cases hopen : untriedRungs reg { state with record := record } (·.sameContract) with
    | nil =>
      cases hkinds : untriedRungs reg { state with record := record } (·.kindOnly) with
      | nil => simp [hopen, hkinds] at h
      | cons rung rungs =>
        simp only [hopen, hkinds] at h
        split at h
        · rename_i hcause
          split at h
          · rename_i hleft
            refine ⟨by omega, rung, Option.some.inj h, .inr ⟨?_, hcause, rfl⟩⟩
            exact List.mem_cons_self
          · cases h
        · cases h
    | cons rung rungs =>
      simp only [hopen] at h
      split_ifs at h with hleft
      exact ⟨by omega, rung, Option.some.inj h, .inl List.mem_cons_self⟩

theorem ne_empty_of_mem_engineNames {name : String} (h : name ∈ reg.engineNames) : name ≠ "" := by
  rintro rfl
  obtain ⟨spec, hspec, hname⟩ := List.mem_map.mp h
  exact reg.named (List.mem_map.mpr ⟨spec, List.mem_of_mem_filter hspec, hname⟩)

/-- A run is moved to an engine of the catalogue that it has not tried. -/
theorem target_of_decide {state : LadderState} {target : String}
    (h : (decideSwitch reg cfg state record).switchTarget = some target) :
    target ≠ "" ∧ target ∉ triedEngines { state with record := record } := by
  obtain ⟨_, -, -, -, -, -, r, rfl, hrung⟩ := decideSwitch_cases h
  obtain ⟨sort, huntried⟩ : ∃ sort, r ∈ untriedRungs reg { state with record := record } sort := by
    rcases hrung with hrung | ⟨hrung, -⟩
    · exact ⟨_, hrung⟩
    · exact ⟨_, hrung⟩
  obtain ⟨-, huntried, approved, spec, hadmitted, -⟩ := untried_cases huntried
  exact ⟨ne_empty_of_mem_engineNames hadmitted.listed, huntried⟩

/-- A mesh that passed is never a reason to move. -/
theorem decideSwitch_passed {state : LadderState} (h : state.pipeline.executorSuccess = true) :
    (decideSwitch reg cfg state record).switchTarget = none := by
  by_contra hne
  obtain ⟨target, htarget⟩ := Option.ne_none_iff_exists'.mp hne
  obtain ⟨failure, hfailure, hnever, hreview, -⟩ := decideSwitch_cases htarget
  simp only [classify, h, if_true] at hfailure
  split_ifs at hfailure <;> cases hfailure <;> simp_all

/-! ## What the record remembers -/

/-- Of the engines a run has tried, a move to another engine can forget only the one it leaves. -/
theorem mem_triedEngines_move {e : String} (h : e ∈ triedEngines s) (target : String) :
    e = s.engine ∨ e ∈ triedEngines { s with engine := target } := by
  rw [mem_triedEngines] at h
  obtain ⟨happroved | hattempt | hengine, hne⟩ := h
  · cases hrecord : s.record.approved with
    | none => exact .inl (by simpa [LadderState.approvedEngine, hrecord] using happroved)
    | some approved =>
      by_cases hempty : approved = ""
      · exact .inl (by simpa [LadderState.approvedEngine, hrecord, hempty] using happroved)
      · right
        rw [mem_triedEngines]
        refine ⟨.inl ?_, hne⟩
        simpa [LadderState.approvedEngine, hrecord, hempty] using happroved
  · exact .inr (mem_triedEngines.mpr ⟨.inr (.inl hattempt), hne⟩)
  · exact .inl hengine

theorem attempts_withAttempt (failure : Option Failure) {a : LadderAttempt}
    (h : a ∈ (withAttempt s failure).attempts) :
    a ∈ s.record.attempts ∨ a.attempt = attemptNumber s := by
  simp only [withAttempt] at h
  split at h
  · rcases List.mem_append.mp h with h | h
    · exact .inl h
    · exact .inr (by rw [List.mem_singleton.mp h])
  · exact .inl h

/-- What was tried stays so when the last attempt is put on the record. -/
theorem mem_triedEngines_withAttempt {e : String} (h : e ∈ triedEngines s)
    (failure : Option Failure) :
    e ∈ triedEngines { s with record := withAttempt s failure } := by
  rw [mem_triedEngines] at h ⊢
  obtain ⟨happroved | hattempt | hengine, hne⟩ := h
  · refine ⟨.inl ?_, hne⟩
    rw [happroved]
    simp only [LadderState.approvedEngine, withAttempt]
    cases s.record.approved <;> simp
  · refine ⟨.inr (.inl ?_), hne⟩
    simp only [withAttempt]
    split
    · rw [List.map_append]
      exact List.mem_append_left _ hattempt
    · exact hattempt
  · exact ⟨.inr (.inr hengine), hne⟩

/-- An attempt that was not on the record is recorded under its engine. -/
theorem engine_mem_withAttempt (hnumber : 0 < attemptNumber s)
    (hnew : attemptNumber s ∉ s.record.attempts.map (·.attempt)) (failure : Option Failure) :
    s.engine ∈ (withAttempt s failure).attempts.map (·.engine) := by
  simp [withAttempt, hnumber, hnew]

/-- Every switch is permitted. -/
theorem switchPermitted_of_decide {state : LadderState} {target : String}
    (h : (decideSwitch reg cfg state record).switchTarget = some target) :
    SwitchPermitted reg cfg state record target := by
  obtain ⟨failure, hfailure, hnever, hreview, hmay, hleft, r, rfl, hrung⟩ := decideSwitch_cases h
  have hsource : state.engineSource = .suggestedConfirmed ∨ state.engineSource = .system := by
    simpa [LadderState.maySwitchOnItsOwn] using hmay
  rcases hrung with hrung | ⟨hrung, hcause, hnone⟩
  · obtain ⟨hsame, huntried, approved, spec, hadmitted, hmeasures⟩ := untried_cases hrung
    refine ⟨hsource, huntried, hleft, failure, approved, spec, hfailure, hnever, hreview,
      hadmitted.knowsApproved, hadmitted.knowsEngine, hadmitted.admits, hadmitted.passages,
      hmeasures, .inl ?_⟩
    have hchanges : r.changes = [] := List.isEmpty_iff.mp hsame
    exact sameContract_of_changes (hadmitted.changes.symm.trans hchanges)
  · obtain ⟨hkind, huntried, approved, spec, hadmitted, hmeasures⟩ := untried_cases hrung
    refine ⟨hsource, huntried, hleft, failure, approved, spec, hfailure, hnever, hreview,
      hadmitted.knowsApproved, hadmitted.knowsEngine, hadmitted.admits, hadmitted.passages,
      hmeasures, .inr ⟨?_, hcause, hnone⟩⟩
    have hsubset := hadmitted.kindOnly hkind
    rw [hadmitted.changes] at hsubset
    exact keepsAllButKind_of_changes fun c hc => hsubset hc

end MeshPipeline.Pipeline
