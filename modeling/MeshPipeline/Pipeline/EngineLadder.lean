import MeshPipeline.Pipeline.EngineFallback
import MeshPipeline.Pipeline.NextAttempt

/-!
# A run on the fallback ladder

The engine of a run and the ladder's record travel through the graph beside the meshes. An engine is
left in two ways: the ladder moves the run on, and the delivery of an earlier sound mesh moves it
back. The record has to remember every engine the run has been on, since it decides which one comes
next.
-/

namespace MeshPipeline.Pipeline

/-- The engine and the caveats of a sound mesh, as its row keeps them. -/
structure SoundEngine where
  engine : String
  engineParams : EngineParams
  caveats : List CaveatKind
  deriving DecidableEq, Repr

structure EngineRun where
  reviewed : ReviewedRun
  engine : String
  engineParams : EngineParams
  report : AttemptReport
  record : LadderRecord
  /-- By the workspace of the sound mesh. -/
  soundEngine : Nat → SoundEngine
  /-- The engines the run was moved on to, newest first, and the one it started on. A ghost. -/
  tried : List String

/-- What the world answers, with what the ladder learns of the run. -/
structure EngineAnswers where
  mesh : MeshAnswers
  report : AttemptReport
  /-- The order that the geometry was measured to have, and its passages. -/
  measured : Option (List String × Option Nat)
  /-- The passages that the attempt's own staging counted. -/
  staged : Option Nat

/-- `seed_measured_order`: once. -/
def seedMeasuredOrder (record : LadderRecord) (measured : Option (List String × Option Nat)) :
    LadderRecord :=
  match measured with
  | none => record
  | some (order, passages) =>
    if record.order ≠ [] then record
    else { record with order := order, passages := passages.or record.passages }

/-- `with_staged_passages`. -/
def withStagedPassages (record : LadderRecord) (staged : Option Nat) : LadderRecord :=
  { record with passages := staged.or record.passages }

/-- The settings, the catalogue and the approval that a run keeps. -/
structure LadderWorld where
  settings : LadderSettings
  registry : Registry
  approval : Approval

namespace EngineRun

variable (cfg : LadderWorld)

/-- What the ladder reads of the run. -/
def state (w : EngineRun) : LadderState :=
  ⟨w.reviewed.run.state, w.engine, w.engineParams, cfg.approval, w.report, w.record⟩

/-- The state that the route after the executor asks the ladder about. -/
def judged (w : EngineRun) (l : EngineAnswers) : LadderState :=
  let answers := { l.mesh.answers with execution := w.reviewed.execution l.mesh }
  { w.state cfg with
    pipeline := nodeExecutor w.reviewed.run.state answers
    report := l.report
    record := withStagedPassages w.record l.staged }

/-- The state that `node_engine_fallback` decides on. -/
def failed (w : EngineRun) (l : EngineAnswers) : LadderState :=
  { w.state cfg with
    record := withStagedPassages (seedMeasuredOrder w.record l.measured) l.staged }

/-- The ladder's answer for the attempt that a state holds. -/
def decision (s : LadderState) : Decision :=
  decideSwitch cfg.registry cfg.settings s (withAttempt s (classify cfg.registry s))

/-- The answers, with the ladder's own. -/
def answers (w : EngineRun) (l : EngineAnswers) : MeshAnswers :=
  let s := if w.reviewed.run.node = .executor then w.judged cfg l else w.failed cfg l
  { l.mesh with
    answers := { l.mesh.answers with
      ladder := { l.mesh.answers.ladder with
        switchesEngine := (decision cfg s).switchTarget.isSome } } }

/-- The executor keeps its report, and the engine of a mesh that passed. -/
def afterExecutor (w : EngineRun) (l : EngineAnswers) : EngineRun :=
  let reported := { w with report := l.report }
  let passed := !w.reviewed.run.state.geometryUnsuitableReason &&
    (w.reviewed.execution l.mesh).success
  match w.reviewed.openfoamWorkspace with
  | none => reported
  | some ws =>
    if passed then
      { reported with
        soundEngine :=
          Function.update w.soundEngine ws ⟨w.engine, w.engineParams, l.report.caveats⟩ }
    else reported

/-- `node_engine_fallback`. -/
def afterEngineFallback (w : EngineRun) (l : EngineAnswers) : EngineRun :=
  let s := w.failed cfg l
  let record := withAttempt s (classify cfg.registry s)
  let decision := decision cfg s
  match decision.switchTarget, decision.failure with
  | some target, some failure =>
    let attempt := w.reviewed.run.state.retryCount + 1
    { w with
      engine := target
      engineParams :=
        ((cfg.registry.getSpec target).map (·.resolveEngineParams w.engineParams)).getD []
      record := withSwitch record ⟨attempt, w.engine, target, failure, decision.changes⟩
      tried := target :: w.tried }
  | _, _ => { w with record := record }

/-- The run is moved back onto the engine of the mesh it delivers; the attempt is put on the record
only when it failed. -/
def afterDeliverSound (w : EngineRun) (l : EngineAnswers) : EngineRun :=
  match deliverableSound w.reviewed.soundAttempts l.mesh.reads with
  | none => w
  | some best =>
    let sound := w.soundEngine best.workspace
    { w with
      engine := if sound.engine = "" then w.engine else sound.engine
      engineParams := sound.engineParams
      report := ⟨sound.caveats, [], false, none, false⟩
      record :=
        if w.reviewed.run.state.executorSuccess then w.record
        else withAttempt (w.state cfg) (classify cfg.registry (w.state cfg)) }

/-- What the node does to the engine and to the ladder's record. -/
def work (w : EngineRun) (l : EngineAnswers) : EngineRun :=
  match w.reviewed.run.node with
  | .engineSelect => { w with record := seedMeasuredOrder w.record l.measured }
  | .executor => w.afterExecutor l
  | .engineFallback => w.afterEngineFallback cfg l
  | .deliverSound => w.afterDeliverSound cfg l
  | _ => w

def step (w : EngineRun) (l : EngineAnswers) : Option EngineRun :=
  (w.reviewed.step cfg.settings.graph (w.answers cfg l)).map fun reviewed =>
    { w.work cfg l with reviewed := reviewed }

def machine : Transition.Machine EngineRun EngineAnswers := ⟨step cfg⟩

/-- A run on the engine that was selected; a dispute has the mesh that it disputes. -/
def start (dispute : Option DisputeMode) (engine : String) (params : EngineParams) : EngineRun where
  reviewed := { ReviewedRun.start with
    run := GraphRun.start dispute
    openfoamWorkspace := dispute.map fun _ => 0 }
  engine := engine
  engineParams := params
  report := ⟨[], [], false, none, false⟩
  record := ⟨none, none, [], [], [], none⟩
  soundEngine _ := ⟨"", [], []⟩
  tried := [engine]

/-! ## The claim -/

/-- Whenever a sound last attempt is given up for an earlier sound mesh while a regular attempt is
left, the record still names its engine: as the engine of the delivered mesh, as the approved one or
on an attempt. -/
def KeepsRecord (w : EngineRun) (l : EngineAnswers) : Prop :=
  w.reviewed.run.node = .deliverSound → w.reviewed.run.state.executorSuccess = true →
    w.reviewed.run.state.retryCount < cfg.settings.graph.maxBuilderRetries →
    ∀ best ∈ deliverableSound w.reviewed.soundAttempts l.mesh.reads,
      (w.soundEngine best.workspace).engine ∈ ["", w.engine] ∨
        w.record.approved = some w.engine ∨ w.engine ∈ w.record.attempts.map (·.engine)

instance (w : EngineRun) (l : EngineAnswers) : Decidable (w.KeepsRecord cfg l) :=
  inferInstanceAs (Decidable (_ → _ → _ → ∀ best ∈ deliverableSound _ _, _))

variable {cfg : LadderWorld} {w v : EngineRun} {l : EngineAnswers}

theorem step_spec (h : w.step cfg l = some v) :
    w.reviewed.step cfg.settings.graph (w.answers cfg l) = some v.reviewed ∧
      v = { w.work cfg l with reviewed := v.reviewed } := by
  obtain ⟨reviewed, hreviewed, rfl⟩ := Option.map_eq_some_iff.mp h
  exact ⟨hreviewed, rfl⟩

/-- The graph's own decision to move on is the ladder's. -/
theorem movesOn_iff (hnode : w.reviewed.run.node = .engineFallback) :
    movesOn cfg.settings.graph w.reviewed.run.state
        ((w.reviewed.work cfg.settings.graph (w.answers cfg l)).answersOf
          (w.reviewed.execution (w.answers cfg l)) (w.answers cfg l)) = true ↔
      (decision cfg (w.failed cfg l)).switchTarget.isSome = true := by
  have hanswer : (w.answers cfg l).answers.ladder.switchesEngine =
      (decision cfg (w.failed cfg l)).switchTarget.isSome := by
    simp [answers, hnode]
  simp only [movesOn, ReviewedRun.answersOf, hanswer, Bool.and_eq_true, Bool.not_eq_true',
    decide_eq_true_eq]
  refine ⟨fun h => h.1.1, fun h => ⟨⟨h, ?_⟩, ?_⟩⟩
  · by_contra hpassed
    have hstays : (decision cfg (w.failed cfg l)).switchTarget = none :=
      decideSwitch_passed (by simpa [failed, state] using hpassed)
    simp [hstays] at h
  · obtain ⟨target, htarget⟩ := Option.isSome_iff_exists.mp h
    obtain ⟨_, -, -, -, -, hleft, -⟩ := decideSwitch_cases htarget
    exact hleft

/-! ## The engines a run was moved to -/

/-- What every run keeps. -/
structure Laddered (cfg : LadderWorld) (w : EngineRun) : Prop where
  numbered : w.reviewed.run.Numbered cfg.settings.graph
  current : w.engine ∈ w.tried
  sounds : ∀ e ∈ w.reviewed.soundAttempts, (w.soundEngine e.workspace).engine ∈ w.tried
  nodup : w.tried.Nodup
  /-- No regular attempt is on the record before it has failed. -/
  recorded : ∀ a ∈ w.record.attempts, a.attempt ≤ cfg.settings.graph.maxBuilderRetries →
    a.attempt < w.reviewed.run.nextAttempt
  /-- While a regular attempt is left, the record remembers every engine. -/
  remembered : w.reviewed.run.nextAttempt ≤ cfg.settings.graph.maxBuilderRetries →
    ∀ e ∈ w.tried, e ≠ "" → e ∈ triedEngines (w.state cfg)

theorem mem_triedEngines_of_same {s s' : LadderState} {e : String} (h : e ∈ triedEngines s)
    (happroved : s'.record.approved = s.record.approved)
    (hattempts : s'.record.attempts = s.record.attempts) (hengine : s'.engine = s.engine) :
    e ∈ triedEngines s' := by
  simpa only [triedEngines, LadderState.approvedEngine, happroved, hattempts, hengine] using h

/-- A step that leaves the engines alone. -/
theorem Laddered.of_same (h : w.Laddered cfg)
    (hnumbered : v.reviewed.run.Numbered cfg.settings.graph)
    (hfollows : GraphRun.Follows cfg.settings.graph w.reviewed.run v.reviewed.run)
    (hengine : v.engine = w.engine) (htried : v.tried = w.tried)
    (happroved : v.record.approved = w.record.approved)
    (hattempts : v.record.attempts = w.record.attempts)
    (hsounds : ∀ e ∈ v.reviewed.soundAttempts, (v.soundEngine e.workspace).engine ∈ w.tried) :
    v.Laddered cfg where
  numbered := hnumbered
  current := by
    rw [hengine, htried]
    exact h.current
  sounds := by
    rw [htried]
    exact hsounds
  nodup := htried ▸ h.nodup
  recorded a ha hle := by
    rw [hattempts] at ha
    have hlt := h.recorded a ha hle
    unfold GraphRun.Follows at hfollows
    omega
  remembered hle e he hne := by
    have hbefore : w.reviewed.run.nextAttempt ≤ cfg.settings.graph.maxBuilderRetries := by
      unfold GraphRun.Follows at hfollows
      omega
    rw [htried] at he
    have hknown := h.remembered hbefore e he hne
    exact mem_triedEngines_of_same hknown happroved hattempts hengine

theorem soundAttempts_work {graph : GraphSettings} {w : ReviewedRun} {l : MeshAnswers}
    (h : w.run.node ≠ .executor) : (w.work graph l).soundAttempts = w.soundAttempts := by
  unfold ReviewedRun.work
  split
  · rfl
  · next hnode => exact absurd hnode h
  · unfold ReviewedRun.afterGuardReplay
    split <;> rfl
  · unfold ReviewedRun.afterDeliverSound
    split <;> rfl
  · rfl

theorem seedMeasuredOrder_same (record : LadderRecord)
    (measured : Option (List String × Option Nat)) :
    (seedMeasuredOrder record measured).approved = record.approved ∧
      (seedMeasuredOrder record measured).attempts = record.attempts := by
  unfold seedMeasuredOrder
  split
  · exact ⟨rfl, rfl⟩
  · split <;> exact ⟨rfl, rfl⟩

theorem afterExecutor_same (w : EngineRun) (l : EngineAnswers) :
    (w.afterExecutor l).engine = w.engine ∧ (w.afterExecutor l).record = w.record ∧
      (w.afterExecutor l).tried = w.tried := by
  simp only [afterExecutor]
  split
  · exact ⟨rfl, rfl, rfl⟩
  · split <;> exact ⟨rfl, rfl, rfl⟩

/-- A mesh that passes is kept with its engine, by the workspace it lies in. -/
theorem Laddered.sounds_afterExecutor (h : w.Laddered cfg) :
    ∀ e ∈ (w.reviewed.afterExecutor (w.answers cfg l)).soundAttempts,
      ((w.afterExecutor l).soundEngine e.workspace).engine ∈ w.tried := by
  intro e he
  cases hws : w.reviewed.openfoamWorkspace with
  | none =>
    simp only [ReviewedRun.afterExecutor, hws] at he
    simpa only [afterExecutor, hws] using h.sounds e he
  | some ws =>
    have hkept {engine : SoundEngine} (hengine : engine.engine ∈ w.tried)
        (hold : e ∈ w.reviewed.soundAttempts ∧ e.workspace ≠ ws ∨ e.workspace = ws) :
        (Function.update w.soundEngine ws engine e.workspace).engine ∈ w.tried := by
      rcases hold with ⟨hold, hne⟩ | rfl
      · rw [Function.update_of_ne hne]
        exact h.sounds e hold
      · rw [Function.update_self]
        exact hengine
    have hexecution : w.reviewed.execution (w.answers cfg l) = w.reviewed.execution l.mesh := rfl
    have hsuccess : (w.reviewed.execution l.mesh).success =
        (l.mesh.answers.execution.success && !l.mesh.guardTripped) := by
      simp [ReviewedRun.execution, hws]
    have htripped : (w.answers cfg l).guardTripped = l.mesh.guardTripped := rfl
    simp only [ReviewedRun.afterExecutor, hws, hexecution, htripped] at he
    simp only [afterExecutor, hws]
    by_cases hpassed : !w.reviewed.run.state.geometryUnsuitableReason &&
        (w.reviewed.execution l.mesh).success
    · obtain ⟨hfit, hpassed'⟩ := Bool.and_eq_true_iff.mp hpassed
      have hclock : l.mesh.guardTripped = false := by
        rw [hsuccess] at hpassed'
        simpa using (Bool.and_eq_true_iff.mp hpassed').2
      rw [if_pos hpassed]
      rw [if_neg (by simpa [hclock] using hfit), if_pos hpassed'] at he
      refine hkept h.current ?_
      obtain hold | rfl := mem_withSound.mp he
      · exact .inl hold
      · exact .inr rfl
    · rw [if_neg hpassed]
      refine h.sounds e ?_
      split at he
      · exact he
      · next hjudged =>
        have hfit : w.reviewed.run.state.geometryUnsuitableReason = false := by
          simpa using (not_or.mp hjudged).1
        have hfailed : (w.reviewed.execution l.mesh).success = false := by
          simpa [hfit] using hpassed
        rw [if_neg (by simp [hfailed])] at he
        exact he

/-- The attempt that failed is put on the record under its engine. -/
theorem Laddered.engine_mem_record (h : w.Laddered cfg) {s : LadderState}
    (hstate : s.pipeline = w.reviewed.run.state) (hengine : s.engine = w.engine)
    (hattempts : s.record.attempts = w.record.attempts)
    (hpending : w.reviewed.run.pending = true)
    (hleft : w.reviewed.run.state.retryCount ≤ cfg.settings.graph.maxBuilderRetries)
    (failure : Option Failure) : w.engine ∈ (withAttempt s failure).attempts.map (·.engine) := by
  have hnext : w.reviewed.run.nextAttempt = w.reviewed.run.state.retryCount := if_pos hpending
  have hfit : w.reviewed.run.state.geometryUnsuitableReason = false := by
    by_contra hrefused
    have hover := h.numbered.refused (by simpa using hrefused)
    omega
  have hnumber : attemptNumber s = w.reviewed.run.state.retryCount := by
    simp [attemptNumber, hstate, hfit]
  rw [← hengine]
  refine engine_mem_withAttempt ?_ ?_ failure
  · have hpos := h.numbered.pending hpending
    omega
  · intro hmem
    obtain ⟨a, ha, hattempt⟩ := List.mem_map.mp hmem
    rw [hattempts] at ha
    have hlt := h.recorded a ha (by omega)
    omega

/-- Every attempt on the record with the last one was on it or is not a later one. -/
theorem Laddered.recorded_withAttempt (h : w.Laddered cfg) {s : LadderState}
    (hstate : s.pipeline = w.reviewed.run.state)
    (hattempts : s.record.attempts = w.record.attempts) (failure : Option Failure)
    {a : LadderAttempt} (ha : a ∈ (withAttempt s failure).attempts)
    (hle : a.attempt ≤ cfg.settings.graph.maxBuilderRetries) :
    a.attempt ≤ w.reviewed.run.state.retryCount := by
  rcases attempts_withAttempt failure ha with hold | hnew
  · rw [hattempts] at hold
    have hlt := h.recorded a hold hle
    unfold GraphRun.nextAttempt at hlt
    split at hlt <;> omega
  · rw [hnew, attemptNumber, hstate]
    split <;> omega

/-- What the run was moved to is remembered once the last attempt is on the record, wherever the run
goes next. -/
theorem Laddered.remembered_move (h : w.Laddered cfg) {s : LadderState}
    (hstate : s.pipeline = w.reviewed.run.state) (hengine : s.engine = w.engine)
    (happroved : s.record.approved = w.record.approved)
    (hattempts : s.record.attempts = w.record.attempts)
    (hpending : w.reviewed.run.pending = true)
    (hleft : w.reviewed.run.state.retryCount ≤ cfg.settings.graph.maxBuilderRetries)
    (failure : Option Failure) (target : String) {e : String} (he : e ∈ w.tried) (hne : e ≠ "") :
    e ∈ triedEngines { s with record := withAttempt s failure, engine := target } := by
  have hnext : w.reviewed.run.nextAttempt = w.reviewed.run.state.retryCount := if_pos hpending
  have hknown : e ∈ triedEngines s :=
    mem_triedEngines_of_same (h.remembered (by omega) e he hne) happroved hattempts hengine
  rcases mem_triedEngines_move (mem_triedEngines_withAttempt hknown failure) target with rfl | hkept
  · refine mem_triedEngines.mpr ⟨.inr (.inl ?_), hne⟩
    simpa only [← hengine] using
      h.engine_mem_record hstate hengine hattempts hpending hleft failure
  · exact hkept

/-- The ladder moves a run on only after a failed regular attempt. -/
theorem pending_of_switch (hnode : w.reviewed.run.node = .engineFallback) {target : String}
    (h : (decision cfg (w.failed cfg l)).switchTarget = some target) :
    w.reviewed.run.pending = true ∧
      w.reviewed.run.state.retryCount ≤ cfg.settings.graph.maxBuilderRetries := by
  obtain ⟨_, -, -, -, -, hleft, -⟩ := decideSwitch_cases h
  refine ⟨?_, hleft⟩
  by_contra hpassed
  have hstays : (decision cfg (w.failed cfg l)).switchTarget = none :=
    decideSwitch_passed
      (by simpa [failed, state, GraphRun.pending, Node.pending, hnode] using hpassed)
  simp [hstays] at h

theorem afterEngineFallback_moves {target : String} {failure : Failure}
    (htarget : (decision cfg (w.failed cfg l)).switchTarget = some target)
    (hfailure : (decision cfg (w.failed cfg l)).failure = some failure) :
    (w.afterEngineFallback cfg l).engine = target ∧
      (w.afterEngineFallback cfg l).tried = target :: w.tried ∧
      (w.afterEngineFallback cfg l).soundEngine = w.soundEngine := by
  simp [afterEngineFallback, htarget, hfailure]

theorem afterEngineFallback_stays
    (h : ¬ ∃ target failure, (decision cfg (w.failed cfg l)).switchTarget = some target ∧
      (decision cfg (w.failed cfg l)).failure = some failure) :
    w.afterEngineFallback cfg l = { w with
      record := withAttempt (w.failed cfg l) (classify cfg.registry (w.failed cfg l)) } := by
  simp only [afterEngineFallback]
  split
  · next target failure htarget hfailure => exact absurd ⟨target, failure, htarget, hfailure⟩ h
  · rfl

/-- Moving on or not, the failed attempt is on the record. -/
theorem record_afterEngineFallback (cfg : LadderWorld) (w : EngineRun) (l : EngineAnswers) :
    (w.afterEngineFallback cfg l).record.approved =
        (withAttempt (w.failed cfg l) (classify cfg.registry (w.failed cfg l))).approved ∧
      (w.afterEngineFallback cfg l).record.attempts =
        (withAttempt (w.failed cfg l) (classify cfg.registry (w.failed cfg l))).attempts := by
  simp only [afterEngineFallback]
  split
  · simp only [withSwitch]
    split <;> exact ⟨rfl, rfl⟩
  · exact ⟨rfl, rfl⟩

theorem Laddered.afterEngineFallback (h : w.Laddered cfg)
    (hnode : w.reviewed.run.node = .engineFallback) {reviewed : ReviewedRun}
    (hnumbered : reviewed.run.Numbered cfg.settings.graph)
    (hfollows : GraphRun.Follows cfg.settings.graph w.reviewed.run reviewed.run)
    (hnext : reviewed.run.nextAttempt = w.reviewed.run.state.retryCount + 1)
    (hsame : reviewed.soundAttempts = w.reviewed.soundAttempts) :
    Laddered cfg { w.afterEngineFallback cfg l with reviewed := reviewed } := by
  have hseeded := seedMeasuredOrder_same w.record l.measured
  have hrecord := record_afterEngineFallback cfg w l
  have hrecorded : ∀ a ∈ (w.afterEngineFallback cfg l).record.attempts,
      a.attempt ≤ cfg.settings.graph.maxBuilderRetries → a.attempt < reviewed.run.nextAttempt := by
    intro a ha hle
    rw [hrecord.2] at ha
    rw [hnext, Nat.lt_succ_iff]
    exact h.recorded_withAttempt (s := w.failed cfg l) rfl hseeded.2 _ ha hle
  by_cases hswitch : ∃ target failure, (decision cfg (w.failed cfg l)).switchTarget = some target ∧
      (decision cfg (w.failed cfg l)).failure = some failure
  · obtain ⟨target, failure, htarget, hfailure⟩ := hswitch
    obtain ⟨hengine, htried, hsound⟩ := afterEngineFallback_moves htarget hfailure
    obtain ⟨hpending, hleft⟩ := pending_of_switch hnode htarget
    obtain ⟨hne, huntried⟩ := target_of_decide htarget
    have hknown {e : String} (he : e ∈ w.tried) (hempty : e ≠ "") (next : String) :
        e ∈ triedEngines { w.failed cfg l with
          record := withAttempt (w.failed cfg l) (classify cfg.registry (w.failed cfg l))
          engine := next } :=
      h.remembered_move (s := w.failed cfg l) rfl rfl hseeded.1 hseeded.2 hpending hleft _ next he
        hempty
    have hnew : target ∉ w.tried := fun hold => huntried (hknown hold hne w.engine)
    constructor
    · exact hnumbered
    · simp [hengine, htried]
    · intro e he
      rw [hsame] at he
      rw [hsound, htried]
      exact List.mem_cons_of_mem _ (h.sounds e he)
    · rw [htried]
      exact List.nodup_cons.mpr ⟨hnew, h.nodup⟩
    · exact hrecorded
    · intro _ e he hempty
      rw [htried] at he
      rcases List.mem_cons.mp he with rfl | he
      · exact mem_triedEngines.mpr ⟨.inr (.inr hengine.symm), hempty⟩
      · exact mem_triedEngines_of_same (hknown he hempty target) hrecord.1 hrecord.2 hengine
  · have hstays := afterEngineFallback_stays hswitch
    constructor
    · exact hnumbered
    · rw [hstays]
      exact h.current
    · intro e he
      rw [hsame] at he
      rw [hstays]
      exact h.sounds e he
    · rw [hstays]
      exact h.nodup
    · exact hrecorded
    · intro hle e he hempty
      rw [hstays] at he
      have hbefore : w.reviewed.run.nextAttempt ≤ cfg.settings.graph.maxBuilderRetries := by
        unfold GraphRun.Follows at hfollows
        simp only at hle
        omega
      have hknown : e ∈ triedEngines (w.failed cfg l) :=
        mem_triedEngines_of_same (h.remembered hbefore e he hempty) hseeded.1 hseeded.2 rfl
      have hkept := mem_triedEngines_withAttempt hknown
        (classify cfg.registry (w.failed cfg l))
      rw [hstays]
      exact hkept

theorem afterDeliverSound_best (cfg : LadderWorld) {best : SoundEntry}
    (h : deliverableSound w.reviewed.soundAttempts l.mesh.reads = some best) :
    (w.afterDeliverSound cfg l).engine =
        (if (w.soundEngine best.workspace).engine = "" then w.engine
          else (w.soundEngine best.workspace).engine) ∧
      (w.afterDeliverSound cfg l).record =
        (if w.reviewed.run.state.executorSuccess then w.record
          else withAttempt (w.state cfg) (classify cfg.registry (w.state cfg))) ∧
      (w.afterDeliverSound cfg l).tried = w.tried ∧
      (w.afterDeliverSound cfg l).soundEngine = w.soundEngine := by
  simp [EngineRun.afterDeliverSound, h]

/-- Every engine is still remembered after a delivery, where a sound last attempt may have no row of
its own. -/
theorem Laddered.remembered_afterDeliverSound (h : w.Laddered cfg)
    (hnode : w.reviewed.run.node = .deliverSound) (hkeeps : w.KeepsRecord cfg l) {best : SoundEntry}
    (hbest : deliverableSound w.reviewed.soundAttempts l.mesh.reads = some best)
    (hleft : w.reviewed.run.state.retryCount + 1 ≤ cfg.settings.graph.maxBuilderRetries)
    {e : String} (he : e ∈ w.tried) (hne : e ≠ "") :
    e ∈ triedEngines ((w.afterDeliverSound cfg l).state cfg) := by
  obtain ⟨hengine, hrecord, -, -⟩ := afterDeliverSound_best cfg hbest
  by_cases hsound : w.reviewed.run.state.executorSuccess = true
  · rw [if_pos hsound] at hrecord
    have hpending : w.reviewed.run.pending = false := by
      simp [GraphRun.pending, Node.pending, hnode, hsound]
    have hknown : e ∈ triedEngines (w.state cfg) :=
      h.remembered (by simpa [GraphRun.nextAttempt, hpending] using hleft) e he hne
    have hmoved : e ∈ triedEngines
        { w.state cfg with engine := (w.afterDeliverSound cfg l).engine } := by
      rcases mem_triedEngines_move hknown (w.afterDeliverSound cfg l).engine with rfl | hkept
      · rw [mem_triedEngines]
        refine ⟨?_, hne⟩
        rcases hkeeps hnode hsound hleft best hbest with hsame | happroved | hattempt
        · refine .inr (.inr ?_)
          simp only [List.mem_cons, List.not_mem_nil, or_false] at hsame
          simp only [hengine]
          rcases hsame with hsame | hsame <;> simp [hsame, state]
        · refine .inl ?_
          have hstated : (w.state cfg).engine = w.engine := rfl
          simp [LadderState.approvedEngine, state, happroved, hstated ▸ hne]
        · exact .inr (.inl hattempt)
      · exact hkept
    exact mem_triedEngines_of_same hmoved (congrArg LadderRecord.approved hrecord)
      (congrArg LadderRecord.attempts hrecord) rfl
  · rw [if_neg hsound] at hrecord
    have hpending : w.reviewed.run.pending = true := by
      simpa [GraphRun.pending, Node.pending, hnode] using hsound
    have hmoved := h.remembered_move (s := w.state cfg) rfl rfl rfl rfl hpending (by omega)
      (classify cfg.registry (w.state cfg)) (w.afterDeliverSound cfg l).engine he hne
    exact mem_triedEngines_of_same hmoved (congrArg LadderRecord.approved hrecord)
      (congrArg LadderRecord.attempts hrecord) rfl

theorem Laddered.afterDeliverSound (h : w.Laddered cfg)
    (hnode : w.reviewed.run.node = .deliverSound) (hkeeps : w.KeepsRecord cfg l)
    {reviewed : ReviewedRun} (hnumbered : reviewed.run.Numbered cfg.settings.graph)
    (hfollows : GraphRun.Follows cfg.settings.graph w.reviewed.run reviewed.run)
    (hnext : reviewed.run.nextAttempt = w.reviewed.run.state.retryCount + 1)
    (hsame : reviewed.soundAttempts = w.reviewed.soundAttempts) :
    Laddered cfg { w.afterDeliverSound cfg l with reviewed := reviewed } := by
  cases hbest : deliverableSound w.reviewed.soundAttempts l.mesh.reads with
  | none =>
    have hstays : w.afterDeliverSound cfg l = w := by simp [EngineRun.afterDeliverSound, hbest]
    rw [hstays]
    refine h.of_same hnumbered hfollows rfl rfl rfl rfl fun e he => ?_
    rw [hsame] at he
    exact h.sounds e he
  | some best =>
    obtain ⟨hengine, hrecord, htried, hsound⟩ := afterDeliverSound_best cfg hbest
    constructor
    · exact hnumbered
    · simp only [hengine, htried]
      split
      · exact h.current
      · exact h.sounds best (mem_of_deliverableSound hbest)
    · intro e he
      rw [hsame] at he
      rw [hsound, htried]
      exact h.sounds e he
    · rw [htried]
      exact h.nodup
    · intro a ha hle
      rw [hrecord] at ha
      split at ha
      · have hlt := h.recorded a ha hle
        unfold GraphRun.Follows at hfollows
        simp only
        omega
      · have hlt := h.recorded_withAttempt (s := w.state cfg) rfl rfl _ ha hle
        simp only [hnext]
        omega
    · intro hle e he hne
      rw [htried] at he
      have hknown := h.remembered_afterDeliverSound hnode hkeeps hbest
        (by rw [← hnext]; exact hle) he hne
      exact mem_triedEngines_of_same hknown rfl rfl rfl

theorem laddered_step (h : w.Laddered cfg) (hkeeps : w.KeepsRecord cfg l)
    (hstep : w.step cfg l = some v) : v.Laddered cfg := by
  obtain ⟨hreviewed, hv⟩ := step_spec hstep
  obtain ⟨hrun, hkept⟩ := ReviewedRun.step_spec hreviewed
  obtain ⟨hnumbered, hfollows⟩ := GraphRun.numbered_step h.numbered hrun
  have hsounds : v.reviewed.soundAttempts =
      (w.reviewed.work cfg.settings.graph (w.answers cfg l)).soundAttempts := by
    rw [hkept]
  have hsame (hnode : w.reviewed.run.node ≠ .executor) :
      v.reviewed.soundAttempts = w.reviewed.soundAttempts :=
    hsounds.trans (soundAttempts_work hnode)
  rw [hv]
  cases hnode : w.reviewed.run.node with
  | executor =>
    have hwork : w.work cfg l = w.afterExecutor l := by simp only [work, hnode]
    obtain ⟨hengine, hrecord, htried⟩ := afterExecutor_same w l
    rw [hwork]
    refine h.of_same hnumbered hfollows hengine htried (congrArg LadderRecord.approved hrecord)
      (congrArg LadderRecord.attempts hrecord) ?_
    rw [hsounds]
    simp only [ReviewedRun.work, hnode]
    exact h.sounds_afterExecutor
  | engineFallback =>
    have hwork : w.work cfg l = w.afterEngineFallback cfg l := by simp only [work, hnode]
    rw [hwork]
    refine h.afterEngineFallback hnode hnumbered hfollows ?_ (hsame (by simp [hnode]))
    simp only [GraphRun.step, hnode, Option.some.injEq] at hrun
    rw [← hrun]
    simp [GraphRun.nextAttempt, GraphRun.pending, GraphRun.move, Node.pending,
      (sameCounters_nodeEngineFallback _ _ _).retry]
  | deliverSound =>
    have hwork : w.work cfg l = w.afterDeliverSound cfg l := by simp only [work, hnode]
    rw [hwork]
    refine h.afterDeliverSound hnode hkeeps hnumbered hfollows ?_ (hsame (by simp [hnode]))
    simp only [GraphRun.step, hnode, Option.some.injEq] at hrun
    rw [← hrun]
    simp [GraphRun.nextAttempt, GraphRun.pending, GraphRun.move, Node.pending,
      (sameCounters_nodeDeliverSound _ _).retry]
  | engineSelect =>
    obtain ⟨happroved, hattempts⟩ := seedMeasuredOrder_same w.record l.measured
    have hwork : w.work cfg l = { w with record := seedMeasuredOrder w.record l.measured } := by
      simp only [work, hnode]
    rw [hwork]
    refine h.of_same hnumbered hfollows rfl rfl happroved hattempts fun e he => ?_
    rw [hsame (by simp [hnode])] at he
    exact h.sounds e he
  | _ =>
    have hwork : w.work cfg l = w := by simp only [work, hnode]
    rw [hwork]
    refine h.of_same hnumbered hfollows rfl rfl rfl rfl fun e he => ?_
    rw [hsame (by simp [hnode])] at he
    exact h.sounds e he

theorem laddered_start (cfg : LadderWorld) (dispute : Option DisputeMode) (engine : String)
    (params : EngineParams) : (start dispute engine params).Laddered cfg where
  numbered := GraphRun.numbered_start _ dispute
  current := List.mem_singleton_self engine
  sounds e he := by cases he
  nodup := List.nodup_singleton engine
  recorded a ha := by cases ha
  remembered _ e he hne := mem_triedEngines.mpr ⟨.inr (.inr (List.mem_singleton.mp he)), hne⟩

/-! ## Two engines, and a run that forgets one -/

/-- An engine of the external flow; the two of the example differ in rank only. -/
def hexEngine (name : String) (rank : Nat) : EngineSpec where
  name := name
  implemented := true
  exportFormats := ["openfoam"]
  intakeParams := []
  accepts := [⟨.external, 1⟩]
  ladderRank := rank
  deliveredMesh := some ⟨.hexDominant, .bodyFitted, true, true⟩
  inputContract := none
  admits _ := true

def twoEngines : LadderWorld where
  settings := ⟨⟨4, 2, 2, false⟩, true⟩
  registry :=
    { catalog := [hexEngine "snappyhexmesh" 1, hexEngine "cfmesh" 2]
      named := by decide
      defaultEngine := "snappyhexmesh"
      flowRanking := fun _ => []
      gateCause := fun _ _ => none }
  approval := ⟨.system, "external_cfd", none, none, [], none, false, false, false, false⟩

/-- An attempt that passes with a mesh of so many cells across the narrowest gap. -/
def passes (changeable : Bool) (cellsAcross : ℚ) : EngineAnswers where
  mesh :=
    { answers :=
        { intakeFailure := none
          geometryRefused := false
          turn := ⟨false, false, none, none, false, "case", "revised case"⟩
          execution := ⟨true, "", none, .empty, false⟩
          ladder := ⟨changeable, false, false, none, false⟩
          review := .concluded .FAIL [] false }
      writesMesh := true
      guardTripped := false
      resolutionNote := some (some cellsAcross)
      reads := [1, 2, 3] }
  report := ⟨[], [], false, none, false⟩
  measured := none
  staged := none

/-- An attempt that the engine crashes on. -/
def crashes : EngineAnswers :=
  let l := passes true 1
  { l with mesh := { l.mesh with answers := { l.mesh.answers with
      execution := ⟨false, "checkMesh", some .engineCrashed, .empty, false⟩ } } }

/-- The first attempt is short of the floor, and the second crashes. -/
def firstEngineRun : List EngineAnswers :=
  List.replicate 9 (passes true 2) ++ List.replicate 4 crashes

/-- The next engine's mesh is no better, so the first one's is delivered; its review asks for
another attempt, which crashes too. -/
def forgetfulRun : List EngineAnswers :=
  firstEngineRun ++ List.replicate 6 (passes false 1) ++ List.replicate 4 crashes

/-- Every switch of the ladder is permitted, and a run whose record keeps the engine of every sound
attempt that it gives up is never moved to one engine twice. -/
theorem approved_contract_kept (cfg : LadderWorld) :
    (∀ state record target,
      (decideSwitch cfg.registry cfg.settings state record).switchTarget = some target →
        SwitchPermitted cfg.registry cfg.settings state record target) ∧
      ∀ dispute engine params ls w,
        (machine cfg).Meets (KeepsRecord cfg) (start dispute engine params) ls →
          (machine cfg).exec (start dispute engine params) ls = some w → w.tried.Nodup := by
  refine ⟨fun state record target h => switchPermitted_of_decide h, ?_⟩
  intro dispute engine params ls w hkeeps hrun
  have hladdered : w.Laddered cfg :=
    Transition.Machine.exec_invariant (I := Laddered cfg)
      (fun w l v h hkeeps hstep => laddered_step h hkeeps hstep)
      (laddered_start cfg dispute engine params) hkeeps hrun
  exact hladdered.nodup

/-- The crash of the second attempt moves the run to `cfmesh`. -/
theorem first_run_keeps_contract :
    (∃ w, (machine twoEngines).exec (start none "snappyhexmesh" []) (firstEngineRun.take 12) =
        some w ∧
      SwitchPermitted twoEngines.registry twoEngines.settings (w.failed twoEngines crashes)
        (withAttempt (w.failed twoEngines crashes)
          (classify twoEngines.registry (w.failed twoEngines crashes))) "cfmesh") ∧
      ∃ w, (machine twoEngines).exec (start none "snappyhexmesh" []) firstEngineRun = some w ∧
        w.tried = ["cfmesh", "snappyhexmesh"] ∧ w.tried.Nodup := by
  constructor
  · refine ⟨_, rfl, (approved_contract_kept twoEngines).1 _ _ _ ?_⟩
    decide +kernel
  · refine ⟨_, rfl, by decide +kernel, ?_⟩
    exact (approved_contract_kept twoEngines).2 none "snappyhexmesh" [] firstEngineRun _
      (by decide +kernel) rfl

/-- The attempt on `cfmesh` is never recorded, since its mesh passed and an earlier one is delivered:
the run is moved to `cfmesh` a second time. -/
theorem forgotten_engine_tried_twice :
    ¬ ∀ ls w, (machine twoEngines).exec (start none "snappyhexmesh" []) ls = some w →
      w.tried.Nodup := by
  intro hall
  obtain ⟨w, hw, htried⟩ : ∃ w,
      (machine twoEngines).exec (start none "snappyhexmesh" []) forgetfulRun = some w ∧
        w.tried = ["cfmesh", "cfmesh", "snappyhexmesh"] :=
    ⟨_, rfl, by decide +kernel⟩
  exact absurd (htried ▸ hall forgetfulRun w hw) (by decide)

end EngineRun

end MeshPipeline.Pipeline
