import MeshPipeline.Pipeline.SoundMesh
import MeshPipeline.Pipeline.Termination

/-!
# An unvalidated mesh is never reviewed

The flag that a mesh passed and the workspace it lies in travel through the graph side by side. A
run reaches the reviewer from the executor, from a review that did not conclude, and from a delivery
of an earlier sound mesh; only the last can bring a mesh that no executor passed.
-/

namespace MeshPipeline.Pipeline

/-- A run of the graph with the workspace of its state, the workspaces on disk and the run's sound
meshes. -/
structure ReviewedRun where
  run : GraphRun
  openfoamWorkspace : Option Nat
  disk : Workspaces
  soundAttempts : List SoundEntry
  /-- The meshes that the executor passed, each with its workspace. A ghost. -/
  validated : List (Nat × Nat)

/-- What the world answers, with what becomes of the workspaces. -/
structure MeshAnswers where
  answers : Answers
  /-- The builder leaves a new mesh in its workspace. -/
  writesMesh : Bool
  /-- A guard clock tripped while the attempt was built or measured. -/
  guardTripped : Bool
  resolutionNote : Option (Option ℚ)
  /-- The workspaces whose manifest reads with no fatal defect. -/
  reads : List Nat

/-- The turn gets as far as running the builder in its workspace. -/
def BuilderTurn.runs (s : PipelineState) (t : BuilderTurn) : Bool :=
  (t.unbuilt s).isNone && t.staging.isNone

namespace ReviewedRun

/-! ## What the nodes do to the workspaces -/

/-- What the executor finds: nothing without a workspace, and no success once a guard tripped. -/
def execution (w : ReviewedRun) (l : MeshAnswers) : Execution :=
  let x := l.answers.execution
  let s := w.run.state
  match w.openfoamWorkspace with
  | none => ⟨false, s.executorFailedGate, none, .empty, s.requirementCaveats⟩
  | some _ =>
    let success := x.success && !l.guardTripped
    { x with success := success, caveats := x.caveats || success && l.resolutionNote.isSome }

/-- An attempt builds in the workspace of its number; a stop stays on the last one. -/
def afterBuilder (cfg : GraphSettings) (w : ReviewedRun) (l : MeshAnswers) : ReviewedRun :=
  let s := w.run.state
  let t := l.answers.turn
  let ws := s.retryCount + 1
  let started := if t.runs s then w.disk.markAttemptStart ws else w.disk
  { w with
    disk := if t.runs s ∧ l.writesMesh then started.writeMesh ws else started
    openfoamWorkspace :=
      if (t.patch cfg s).stop.isSome then w.openfoamWorkspace.or (some ws) else some ws }

/-- The sound mesh of a workspace is put on the run's list. -/
def keepSound (w : ReviewedRun) (l : MeshAnswers) (ws : Nat) : ReviewedRun :=
  let mesh := w.disk.mesh ws
  let entry : SoundEntry :=
    ⟨w.run.state.retryCount, ws, (w.execution l).caveats, l.resolutionNote, mesh⟩
  { w with
    soundAttempts := withSound w.soundAttempts entry
    validated := (ws, mesh) :: w.validated }

def afterExecutor (w : ReviewedRun) (l : MeshAnswers) : ReviewedRun :=
  match w.openfoamWorkspace with
  | none => w
  | some ws =>
    if w.run.state.geometryUnsuitableReason ∨ l.guardTripped then w
    else
      let judged := { w with disk := w.disk.dropAttemptStart ws }
      if (w.execution l).success then judged.keepSound l ws else judged

/-- The workspace is put back as the attempt found it. -/
def afterGuardReplay (w : ReviewedRun) : ReviewedRun :=
  match w.openfoamWorkspace with
  | none => w
  | some ws => { w with disk := w.disk.restoreAttemptStart ws }

def afterDeliverSound (w : ReviewedRun) (l : MeshAnswers) : ReviewedRun :=
  match deliverableSound w.soundAttempts l.reads with
  | none => w
  | some best => { w with openfoamWorkspace := some best.workspace }

/-- What the node does beside the graph's own state. -/
def work (cfg : GraphSettings) (w : ReviewedRun) (l : MeshAnswers) : ReviewedRun :=
  match w.run.node with
  | .builder => w.afterBuilder cfg l
  | .executor => w.afterExecutor l
  | .guardReplay => w.afterGuardReplay
  | .deliverSound => w.afterDeliverSound l
  | _ => w

/-- The answers, with those that the executor and the sound meshes give. -/
def answersOf (w : ReviewedRun) (execution : Execution) (l : MeshAnswers) : Answers :=
  { l.answers with
    execution := execution
    ladder := { l.answers.ladder with
      betterEarlierSound :=
        (betterEarlierSound w.soundAttempts l.reads w.openfoamWorkspace).isSome
      deliverableSound := (deliverableSound w.soundAttempts l.reads).map (·.caveats) } }

def step (cfg : GraphSettings) (w : ReviewedRun) (l : MeshAnswers) : Option ReviewedRun :=
  (GraphRun.step cfg w.run ((w.work cfg l).answersOf (w.execution l) l)).map fun run =>
    { w.work cfg l with run := run }

def machine (cfg : GraphSettings) : Transition.Machine ReviewedRun MeshAnswers := ⟨step cfg⟩

/-- A run that no dispute started. -/
def start : ReviewedRun := ⟨GraphRun.start none, none, .empty, [], []⟩

/-! ## The claim -/

/-- The state says success, of a mesh that the executor passed and that its workspace holds. -/
def HoldsValidated (w : ReviewedRun) : Prop :=
  w.run.state.executorSuccess = true ∧
    ∃ ws ∈ w.openfoamWorkspace, (ws, w.disk.mesh ws) ∈ w.validated

/-- If the step enters the reviewer, it is with a validated mesh. -/
def ReviewsValidated (cfg : GraphSettings) (w : ReviewedRun) (l : MeshAnswers) : Prop :=
  ∀ v ∈ w.step cfg l, v.run.node = .reviewer → v.HoldsValidated

/-- A delivery of a sound mesh finds one whose workspace still holds it, or finds none after an
attempt that passed. -/
def DeliversKept (w : ReviewedRun) (l : MeshAnswers) : Prop :=
  w.run.node = .deliverSound →
    match deliverableSound w.soundAttempts l.reads with
    | some best => w.disk.mesh best.workspace = best.mesh
    | none => w.run.state.executorSuccess = true

variable {cfg : GraphSettings} {w v : ReviewedRun} {l : MeshAnswers}

/-! ## The list and the disk -/

/-- The list's meshes were validated, and a workspace that holds a validated mesh holds the one of
its row. -/
structure Recorded (w : ReviewedRun) : Prop where
  stamped : ∀ ws mesh, w.disk.Holds ws mesh → mesh ≤ w.disk.written
  written : ∀ p ∈ w.validated, p.2 ≤ w.disk.written
  recorded : ∀ e ∈ w.soundAttempts, (e.workspace, e.mesh) ∈ w.validated
  newest : ∀ e ∈ w.soundAttempts, ∀ mesh, w.disk.Holds e.workspace mesh →
    (e.workspace, mesh) ∈ w.validated → mesh = e.mesh

/-- What is on disk may be copied, put back and dropped. -/
theorem Recorded.of_holds {disk : Workspaces} (h : w.Recorded)
    (hholds : ∀ ws mesh, disk.Holds ws mesh → w.disk.Holds ws mesh)
    (hwritten : disk.written = w.disk.written) : Recorded { w with disk := disk } where
  stamped ws mesh hmesh := hwritten ▸ h.stamped ws mesh (hholds ws mesh hmesh)
  written p hp := hwritten ▸ h.written p hp
  recorded := h.recorded
  newest e he mesh hmesh := h.newest e he mesh (hholds _ mesh hmesh)

/-- A mesh that is written was never validated. -/
theorem Recorded.writeMesh (h : w.Recorded) (ws : Nat) :
    Recorded { w with disk := w.disk.writeMesh ws } where
  stamped ws' mesh hmesh := by
    obtain hold | rfl := Workspaces.holds_writeMesh hmesh
    · exact Nat.le_succ_of_le (h.stamped ws' mesh hold)
    · exact Nat.le_refl _
  written p hp := Nat.le_succ_of_le (h.written p hp)
  recorded := h.recorded
  newest e he mesh hmesh hvalid := by
    obtain hold | rfl := Workspaces.holds_writeMesh hmesh
    · exact h.newest e he mesh hold hvalid
    · exact absurd (h.written _ hvalid) (Nat.not_succ_le_self _)

theorem Recorded.keepSound (h : w.Recorded) (l : MeshAnswers) (ws : Nat) :
    ({ w with disk := w.disk.dropAttemptStart ws }.keepSound l ws).Recorded where
  stamped ws' mesh hmesh := by
    obtain hmesh | ⟨-, hold⟩ := Workspaces.holds_dropAttemptStart hmesh
    · exact h.stamped ws' mesh (.inl hmesh)
    · exact h.stamped ws' mesh hold
  written p hp := by
    obtain rfl | hp := List.mem_cons.mp hp
    · exact h.stamped ws _ (.inl rfl)
    · exact h.written p hp
  recorded e he := by
    obtain ⟨he, -⟩ | rfl := mem_withSound.mp he
    · exact List.mem_cons_of_mem _ (h.recorded e he)
    · exact List.mem_cons_self
  newest e he mesh hmesh hvalid := by
    obtain ⟨he, hws⟩ | rfl := mem_withSound.mp he
    · obtain heq | hvalid := List.mem_cons.mp hvalid
      · exact absurd (Prod.mk.inj heq).1 hws
      · obtain hmesh | ⟨-, hold⟩ := Workspaces.holds_dropAttemptStart hmesh
        · exact h.newest e he mesh (.inl hmesh) hvalid
        · exact h.newest e he mesh hold hvalid
    · obtain hmesh | ⟨hne, -⟩ := Workspaces.holds_dropAttemptStart hmesh
      · exact hmesh.symm
      · exact absurd rfl hne

theorem Recorded.afterBuilder (h : w.Recorded) : (w.afterBuilder cfg l).Recorded := by
  have hstarted :
      Recorded { w with disk := w.disk.markAttemptStart (w.run.state.retryCount + 1) } :=
    h.of_holds (fun _ _ => Workspaces.holds_markAttemptStart) rfl
  by_cases hruns : l.answers.turn.runs w.run.state
  · by_cases hwrites : l.writesMesh
    · have hnew := hstarted.writeMesh (w.run.state.retryCount + 1)
      simp only [ReviewedRun.afterBuilder, hruns, hwrites, if_true, and_self]
      exact ⟨hnew.stamped, hnew.written, hnew.recorded, hnew.newest⟩
    · simp only [ReviewedRun.afterBuilder, hruns, hwrites, if_true]
      exact ⟨hstarted.stamped, hstarted.written, hstarted.recorded, hstarted.newest⟩
  · simp only [ReviewedRun.afterBuilder, hruns]
    exact ⟨h.stamped, h.written, h.recorded, h.newest⟩

theorem Recorded.afterExecutor (h : w.Recorded) : (w.afterExecutor l).Recorded := by
  unfold ReviewedRun.afterExecutor
  split
  · exact h
  · next ws _ =>
    split
    · exact h
    · split
      · exact h.keepSound l ws
      · refine h.of_holds (fun ws' mesh hmesh => ?_) rfl
        obtain hmesh | ⟨-, hold⟩ := Workspaces.holds_dropAttemptStart hmesh
        · exact .inl hmesh
        · exact hold

theorem Recorded.work (h : w.Recorded) : (w.work cfg l).Recorded := by
  unfold ReviewedRun.work
  split
  · exact h.afterBuilder
  · exact h.afterExecutor
  · unfold ReviewedRun.afterGuardReplay
    split
    · exact h
    · exact h.of_holds (fun _ _ => Workspaces.holds_restoreAttemptStart) rfl
  · unfold ReviewedRun.afterDeliverSound
    split
    · exact h
    · exact ⟨h.stamped, h.written, h.recorded, h.newest⟩
  · exact h

/-! ## The edges that lead to the reviewer -/

end ReviewedRun

variable {cfg : GraphSettings}

theorem executorSuccess_of_route {s : PipelineState} {a : Answers}
    (h : routeAfterExecutor cfg s a = .reviewer) : s.executorSuccess = true := by
  have hsound := soundOrEnd_cases s a
  unfold routeAfterExecutor at h
  grind

theorem userDispute_step {r r' : GraphRun} {a : Answers} (h : r.step cfg a = some r') :
    r'.state.userDispute = r.state.userDispute := by
  unfold GraphRun.step at h
  split at h <;> cases h <;>
    simp only [GraphRun.move, nodeIntake, nodeGeometryAdmission, nodeBuilder, TurnPatch.state,
      nodeExecutor, nodeClassifier, nodeEngineFallback, nodeReviewer, nodeInfraRetry,
      nodeReviewRetry, nodeGuardReplay, nodeDeliverSound] <;>
    repeat' split
  all_goals rfl

/-- What leads to the reviewer, to its retry and to a delivery; every other step ends elsewhere. -/
inductive Approach (r r' : GraphRun) (a : Answers) : Prop
  | away (node : r'.node ∉ [.reviewer, .reviewRetry, .deliverSound])
  | executor (at' : r.node = .executor) (state : r'.state = nodeExecutor r.state a)
      (node : r'.node ∈ [.reviewer, .deliverSound])
      (passed : r'.node = .reviewer → r'.state.executorSuccess = true)
  | reviewer (at' : r.node = .reviewer) (node : r'.node = .reviewRetry)
      (same : r'.state.executorSuccess = r.state.executorSuccess)
  | reviewRetry (at' : r.node = .reviewRetry) (node : r'.node = .reviewer)
      (same : r'.state.executorSuccess = r.state.executorSuccess)
  | deliverSound (at' : r.node = .deliverSound) (node : r'.node = .reviewer)
      (state : r'.state = nodeDeliverSound r.state a)

theorem executorSuccess_nodeReviewer (s : PipelineState) (a : Answers) :
    (nodeReviewer s a).executorSuccess = s.executorSuccess := by
  unfold nodeReviewer
  split
  · split <;> rfl
  · rfl

theorem approach_step {r r' : GraphRun} {a : Answers} (hdispute : r.state.userDispute = none)
    (h : r.step cfg a = some r') : Approach r r' a := by
  unfold GraphRun.step at h
  split at h <;> cases h
  case h_1 =>
    refine .away ?_
    simp only [GraphRun.move, routeAfterIntake]
    split <;> decide
  case h_2 => exact .away (by simp [GraphRun.move, routeAfterEngineSelect, hdispute])
  case h_5 =>
    refine .away ?_
    simp only [GraphRun.move, routeAfterGeometryAdmission]
    split <;> decide
  case h_6 =>
    refine .away ?_
    obtain hroute | hroute | hroute | ⟨hroute, -⟩ :=
      routeAfterBuilder_cases cfg (nodeBuilder cfg r.state a.turn) <;> simp [GraphRun.move, hroute]
  case h_7 hnode =>
    obtain hroute | hroute | hroute | ⟨hroute, -⟩ | ⟨hroute, -⟩ :=
      routeAfterExecutor_cases cfg (nodeExecutor r.state a) a
    · exact .away (by simp [GraphRun.move, hroute])
    · exact .executor hnode rfl (by simp [GraphRun.move, hroute])
        fun _ => executorSuccess_of_route hroute
    · exact .executor hnode rfl (by simp [GraphRun.move, hroute])
        fun hreviewer => absurd (hroute.symm.trans hreviewer) (by decide)
    · exact .away (by simp [GraphRun.move, hroute])
    · exact .away (by simp [GraphRun.move, hroute])
  case h_10 hnode =>
    obtain hroute | hroute | ⟨hroute, -⟩ | ⟨hroute, -⟩ :=
      routeAfterReviewer_cases cfg (nodeReviewer r.state a)
    · exact .away (by simp [GraphRun.move, hroute])
    · exact .away (by simp [GraphRun.move, hroute])
    · exact .reviewer hnode hroute (executorSuccess_nodeReviewer r.state a)
    · exact .away (by simp [GraphRun.move, hroute])
  case h_12 hnode => exact .reviewRetry hnode rfl rfl
  case h_14 hnode => exact .deliverSound hnode rfl rfl
  all_goals exact .away (by simp [GraphRun.move])

namespace ReviewedRun

variable {w v : ReviewedRun} {l : MeshAnswers}

theorem step_spec (h : w.step cfg l = some v) :
    w.run.step cfg ((w.work cfg l).answersOf (w.execution l) l) = some v.run ∧
      v = { w.work cfg l with run := v.run } := by
  obtain ⟨run, hrun, rfl⟩ := Option.map_eq_some_iff.mp h
  exact ⟨hrun, rfl⟩

/-- An executor that says success has judged the mesh of the state's workspace. -/
theorem validated_of_passed (hnode : w.run.node = .executor)
    (hpassed : (nodeExecutor w.run.state
      ((w.work cfg l).answersOf (w.execution l) l)).executorSuccess = true) :
    ∃ ws ∈ (w.work cfg l).openfoamWorkspace,
      (ws, (w.work cfg l).disk.mesh ws) ∈ (w.work cfg l).validated := by
  simp only [nodeExecutor, answersOf] at hpassed
  split at hpassed
  · cases hpassed
  · next hgeometry =>
    simp only [work, hnode, afterExecutor]
    cases hws : w.openfoamWorkspace with
    | none => simp [execution, hws] at hpassed
    | some ws =>
      have htripped : l.guardTripped = false := by
        simp only [execution, hws, Bool.and_eq_true, Bool.not_eq_true'] at hpassed
        exact hpassed.2
      have hjudged : ¬ (w.run.state.geometryUnsuitableReason = true ∨ l.guardTripped = true) := by
        simp [hgeometry, htripped]
      simp only [if_neg hjudged, if_pos hpassed]
      exact ⟨ws, rfl, List.mem_cons_self⟩

/-- What every run keeps up to the delivery of a sound mesh. -/
structure Reviewing (w : ReviewedRun) : Prop extends Recorded w where
  dispute : w.run.state.userDispute = none
  judged : w.run.node ∈ [.reviewer, .reviewRetry] → w.HoldsValidated
  last : w.run.node = .deliverSound → w.run.state.executorSuccess = true → w.HoldsValidated

theorem reviewing_start : Reviewing start where
  stamped _ mesh h := by
    obtain h | h := h
    · exact Nat.le_of_eq h.symm
    · cases h
  written _ hp := by cases hp
  recorded _ he := by cases he
  newest _ he := by cases he
  dispute := rfl
  judged h := absurd h (by decide)
  last h := absurd h (by decide)

/-- A mesh that is held stays held at nodes that leave the workspaces alone. -/
theorem HoldsValidated.of_same (h : w.HoldsValidated) (hwork : w.work cfg l = w)
    (hv : v = { w.work cfg l with run := v.run })
    (hsame : v.run.state.executorSuccess = w.run.state.executorSuccess) : v.HoldsValidated := by
  obtain ⟨hsuccess, hheld⟩ := h
  rw [hv, hwork]
  exact ⟨hsame.trans hsuccess, hheld⟩

theorem reviewing_step (h : w.Reviewing) (hstep : w.step cfg l = some v)
    (hdelivered : w.run.node = .deliverSound → v.HoldsValidated) : v.Reviewing := by
  obtain ⟨hrun, hv⟩ := step_spec hstep
  have hrecorded : v.Recorded := by
    have hwork : (w.work cfg l).Recorded := h.toRecorded.work
    rw [hv]
    exact ⟨hwork.stamped, hwork.written, hwork.recorded, hwork.newest⟩
  have hdispute : v.run.state.userDispute = none := (userDispute_step hrun).trans h.dispute
  suffices hheld : v.run.node ∈ [.reviewer, .reviewRetry] ∨
      v.run.node = .deliverSound ∧ v.run.state.executorSuccess = true → v.HoldsValidated from
    { hrecorded with
      dispute := hdispute
      judged := fun hnode => hheld (.inl hnode)
      last := fun hnode hsuccess => hheld (.inr ⟨hnode, hsuccess⟩) }
  intro hnear
  cases approach_step h.dispute hrun with
  | away hnode =>
    simp only [List.mem_cons, List.not_mem_nil, or_false, not_or] at hnode hnear
    grind
  | executor hat hstate hnode hpassed =>
    have hsuccess : v.run.state.executorSuccess = true := by
      simp only [List.mem_cons, List.not_mem_nil, or_false] at hnode hnear
      grind
    refine ⟨hsuccess, ?_⟩
    rw [hv]
    exact validated_of_passed hat (hstate ▸ hsuccess)
  | reviewer hat hnode hsame =>
    exact (h.judged (by simp [hat])).of_same (by simp [work, hat]) hv hsame
  | reviewRetry hat hnode hsame =>
    exact (h.judged (by simp [hat])).of_same (by simp [work, hat]) hv hsame
  | deliverSound hat hnode hstate => exact hdelivered hat

/-- The delivery enters the reviewer with a validated mesh exactly when the mesh was kept. -/
theorem delivered_iff (h : w.Reviewing) (hat : w.run.node = .deliverSound)
    (hstep : w.step cfg l = some v) : v.HoldsValidated ↔ w.DeliversKept l := by
  obtain ⟨hrun, hv⟩ := step_spec hstep
  have hstate : v.run.state =
      nodeDeliverSound w.run.state ((w.work cfg l).answersOf (w.execution l) l) := by
    simp only [GraphRun.step, hat, Option.some.injEq] at hrun
    exact hrun ▸ rfl
  have hwork : w.work cfg l = w.afterDeliverSound l := by simp only [work, hat]
  unfold HoldsValidated DeliversKept
  rw [hstate, hv, hwork]
  cases hbest : deliverableSound w.soundAttempts l.reads with
  | none =>
    simp only [afterDeliverSound, answersOf, nodeDeliverSound, hbest, Option.map_none]
    refine ⟨fun hheld _ => hheld.1, fun hkept => ?_⟩
    exact h.last hat (hkept hat)
  | some best =>
    have hmem := mem_of_deliverableSound hbest
    simp only [afterDeliverSound, answersOf, nodeDeliverSound, hbest, Option.map_some,
      Option.mem_some_iff, exists_eq_left', true_and]
    constructor
    · intro hvalid _
      exact h.newest best hmem _ (.inl rfl) hvalid
    · intro hkept
      rw [hkept hat]
      exact h.recorded best hmem

theorem reviewsValidated_of_deliversKept (h : w.Reviewing) (hkept : w.DeliversKept l) :
    ReviewsValidated cfg w l := by
  intro v hv hnode
  have hheld := reviewing_step h hv fun hat => (delivered_iff h hat hv).mpr hkept
  exact hheld.judged (by simp [hnode])

theorem deliversKept_of_reviewsValidated (h : w.Reviewing) (hreviews : ReviewsValidated cfg w l) :
    w.DeliversKept l := by
  intro hat
  obtain ⟨v, hv, hnode⟩ : ∃ v, w.step cfg l = some v ∧ v.run.node = .reviewer := by
    simp [step, GraphRun.step, hat, GraphRun.move]
  exact (delivered_iff h hat hv).mp (hreviews v hv hnode) hat

/-- A run enters the reviewer with validated meshes only if and only if every delivery of a sound
mesh finds one that was kept, or none after an attempt that passed. -/
theorem reviewed_mesh_validated (cfg : GraphSettings) (ls : List MeshAnswers) :
    (machine cfg).Meets (ReviewsValidated cfg) start ls ↔
      (machine cfg).Meets DeliversKept start ls := by
  constructor
  · refine Transition.Machine.meets_of_invariant (I := Reviewing) ?_ ?_ reviewing_start
    · intro w l v h hreviews hv
      have hkept := deliversKept_of_reviewsValidated h hreviews
      exact reviewing_step h hv fun hat => (delivered_iff h hat hv).mpr hkept
    · exact fun w l h => deliversKept_of_reviewsValidated h
  · refine Transition.Machine.meets_of_invariant (I := Reviewing) ?_ ?_ reviewing_start
    · intro w l v h hkept hv
      exact reviewing_step h hv fun hat => (delivered_iff h hat hv).mpr hkept
    · exact fun w l h => reviewsValidated_of_deliversKept h

/-- An attempt that builds a mesh short of the resolution floor. -/
def shortOfFloor : MeshAnswers where
  answers :=
    { intakeFailure := none
      geometryRefused := false
      turn := ⟨false, false, none, none, false, "case", "revised case"⟩
      execution := ⟨true, "", none, .empty, false⟩
      ladder := ⟨true, false, false, none, false⟩
      review := .concluded .PASS [] false }
  writesMesh := true
  guardTripped := false
  resolutionNote := some (some 2)
  reads := [1]

/-- A rung of the ladder comes out broken. -/
def broken : MeshAnswers :=
  { shortOfFloor with answers :=
      { shortOfFloor.answers with
        execution := ⟨false, "mesh_quality", some .meshQuality, .empty, false⟩ } }

/-- The rung fails, the first attempt's mesh is to be delivered instead, and its manifest can no
longer be read when it is: the broken mesh is reviewed. -/
theorem vanished_mesh_reviewed :
    ¬ ∀ ls, (machine .default).Meets (ReviewsValidated .default) start ls := by
  intro hall
  obtain ⟨w, v, hw, hv, hnode, hfailed⟩ : ∃ w v,
      (machine .default).exec start (List.replicate 9 shortOfFloor ++ [broken, broken]) = some w ∧
        w.step .default { broken with reads := [] } = some v ∧ v.run.node = .reviewer ∧
        v.run.state.executorSuccess = false :=
    ⟨_, _, rfl, rfl, by decide +kernel, by decide +kernel⟩
  have hlast := ((Transition.Machine.meets_append hw).mp
    (hall (_ ++ [{ broken with reads := [] }]))).2.1
  have hheld := hlast v hv hnode
  exact absurd (hfailed.symm.trans hheld.1) (by decide)

end ReviewedRun

end MeshPipeline.Pipeline
