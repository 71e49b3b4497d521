import MeshPipeline.Pipeline.ReviewedMesh

/-!
# The number of the next attempt

`retry_count` is stepped back by a replay and jumps to the exhausted value, but the number under
which the next attempt is judged never falls while it is a regular one.
-/

namespace MeshPipeline.Pipeline

variable {cfg : GraphSettings}

/-- At the node an attempt of the state's number has still to be judged, or has failed and is not on
the ladder's record. -/
def Node.pending (success : Bool) : Node → Bool
  | .executor | .guardReplay | .infraRetry => true
  | .classifier | .engineFallback | .deliverSound => !success
  | _ => false

/-- The nodes before the first attempt. -/
def Node.opening : Node → Bool
  | .intake | .engineSelect | .repairInspect | .repairAttempt | .geometryAdmission => true
  | _ => false

namespace GraphRun

def pending (r : GraphRun) : Bool := r.node.pending r.state.executorSuccess

def nextAttempt (r : GraphRun) : Nat :=
  if r.pending then r.state.retryCount else r.state.retryCount + 1

/-- How the counter stands to the nodes. -/
structure Numbered (cfg : GraphSettings) (r : GraphRun) : Prop where
  opening : r.node.opening = true → r.state.geometryUnsuitableReason = false
  pending : r.pending = true → 1 ≤ r.state.retryCount
  refused : r.state.geometryUnsuitableReason = true → cfg.maxBuilderRetries < r.nextAttempt

/-- A regular attempt is followed by no earlier one. -/
def Follows (cfg : GraphSettings) (r r' : GraphRun) : Prop :=
  cfg.maxBuilderRetries < r'.nextAttempt ∨ r.nextAttempt ≤ r'.nextAttempt

variable {r r' : GraphRun} {a : Answers}

theorem Numbered.of_follows (h : r.Numbered cfg) (hopening : r'.node.opening = false)
    (hpending : r'.pending = true → 1 ≤ r'.state.retryCount)
    (hsame : r'.state.geometryUnsuitableReason = r.state.geometryUnsuitableReason)
    (hfollows : Follows cfg r r') : r'.Numbered cfg where
  opening ho := by simp [hopening] at ho
  pending := hpending
  refused hr := by
    have hlt := h.refused (hsame.symm.trans hr)
    unfold Follows at hfollows
    omega

/-- A step that leaves the counter alone and does not make an attempt pending. -/
theorem numbered_of_same (h : r.Numbered cfg)
    (hopening : r'.node.opening = true → r.node.opening = true)
    (hcount : r'.state.retryCount = r.state.retryCount)
    (hsame : r'.state.geometryUnsuitableReason = r.state.geometryUnsuitableReason)
    (hpending : r'.pending = true → r.pending = true) : r'.Numbered cfg ∧ Follows cfg r r' := by
  have hle : r.nextAttempt ≤ r'.nextAttempt := by
    unfold nextAttempt
    rw [hcount]
    grind
  refine ⟨⟨fun ho => hsame.trans (h.opening (hopening ho)), fun hp => ?_, fun hr => ?_⟩, .inr hle⟩
  · exact hcount ▸ h.pending (hpending hp)
  · exact Nat.lt_of_lt_of_le (h.refused (hsame.symm.trans hr)) hle

theorem retryCount_patch (cfg : GraphSettings) (s : PipelineState) (t : BuilderTurn) :
    (t.patch cfg s).stop.isSome ∧ (t.patch cfg s).retryCount = s.retryCount ∨
      (t.patch cfg s).retryCount = s.retryCount + 1 ∨
      (t.patch cfg s).retryCount = cfg.maxBuilderRetries + 1 := by
  unfold BuilderTurn.patch
  split
  · unfold stopWithoutBuilding
    split
    · exact .inl ⟨rfl, rfl⟩
    · exact .inr (.inr rfl)
  · exact .inr (.inl rfl)
  · exact .inr (.inl rfl)
  · exact .inr (.inl rfl)
  · split
    · exact .inl ⟨rfl, rfl⟩
    · rcases retryCount_noops cfg s t with ⟨heq, -⟩ | heq
      · exact .inr (.inr heq)
      · exact .inr (.inl heq)

/-- A turn that makes no new attempt ends the run. -/
theorem routeAfterBuilder_of_stop {s : PipelineState} {t : BuilderTurn}
    (h : (t.patch cfg s).stop.isSome) : routeAfterBuilder cfg (nodeBuilder cfg s t) = .END := by
  obtain ⟨stopped, hstopped⟩ := Option.isSome_iff_exists.mp h
  simp [routeAfterBuilder, nodeBuilder, TurnPatch.state, hstopped]

theorem numbered_turn (h : r.Numbered cfg) (hnode : r.node = .builder)
    (hnext : r'.node = routeAfterBuilder cfg (nodeBuilder cfg r.state a.turn))
    (hstate : r'.state = nodeBuilder cfg r.state a.turn) : r'.Numbered cfg ∧ Follows cfg r r' := by
  have hunsuitable : r'.state.geometryUnsuitableReason = r.state.geometryUnsuitableReason :=
    hstate ▸ rfl
  have hcount : r'.state.retryCount = (a.turn.patch cfg r.state).retryCount := hstate ▸ rfl
  have hbefore : r.nextAttempt = r.state.retryCount + 1 := by
    simp [nextAttempt, pending, Node.pending, hnode]
  have hroute := routeAfterBuilder_cases cfg (nodeBuilder cfg r.state a.turn)
  rw [← hnext] at hroute
  have hopening : r'.node.opening = false := by
    rcases hroute with hr | hr | hr | ⟨hr, -⟩ <;> rw [hr] <;> rfl
  rcases retryCount_patch cfg r.state a.turn with ⟨hstop, heq⟩ | hnew
  · have hend : r'.node = .END := hnext.trans (routeAfterBuilder_of_stop hstop)
    have hp : r'.pending = false := by simp [pending, Node.pending, hend]
    have hfollows : Follows cfg r r' := by
      right
      rw [hbefore]
      simp [nextAttempt, hp, hcount, heq]
    exact ⟨h.of_follows hopening (by simp [hp]) hunsuitable hfollows, hfollows⟩
  · have hfollows : Follows cfg r r' := by
      unfold Follows
      rw [hbefore, nextAttempt, hcount]
      split <;> omega
    exact ⟨h.of_follows hopening (fun _ => by omega) hunsuitable hfollows, hfollows⟩

/-- An attempt that is run again keeps its number. -/
theorem numbered_replay (h : r.Numbered cfg) (hpending : r.pending = true)
    (hnode : r'.node = .builder) (hcount : r'.state.retryCount = r.state.retryCount - 1)
    (hsame : r'.state.geometryUnsuitableReason = r.state.geometryUnsuitableReason) :
    r'.Numbered cfg ∧ Follows cfg r r' := by
  have hpos := h.pending hpending
  have hp : r'.pending = false := by simp [pending, Node.pending, hnode]
  have hfollows : Follows cfg r r' := by
    right
    simp only [nextAttempt, hpending, hp, if_true, hcount, Bool.false_eq_true, if_false]
    omega
  exact ⟨h.of_follows (by rw [hnode]; rfl) (by simp [hp]) hsame hfollows, hfollows⟩

/-- A mesh that did not pass is not sent back by its review. -/
theorem executorSuccess_of_classifier {s : PipelineState}
    (h : routeAfterReviewer cfg (nodeReviewer s a) = .classifier) : s.executorSuccess = true := by
  by_contra hfailed
  simp [routeAfterReviewer, limitsEndTheReview, reviewCanRerun, nodeReviewer, hfailed] at h

theorem numbered_step (h : r.Numbered cfg) (hstep : r.step cfg a = some r') :
    r'.Numbered cfg ∧ Follows cfg r r' := by
  cases hnode : r.node with
  | END => simp [step, hnode] at hstep
  | intake =>
    simp only [step, hnode, Option.some.injEq] at hstep
    subst hstep
    refine numbered_of_same h (by simp [hnode, Node.opening]) rfl rfl ?_
    simp only [pending, move, routeAfterIntake]
    split <;> simp [Node.pending]
  | engineSelect =>
    simp only [step, hnode, Option.some.injEq] at hstep
    subst hstep
    refine numbered_of_same h (by simp [hnode, Node.opening]) rfl rfl ?_
    simp only [pending, move, routeAfterEngineSelect]
    split <;> simp [Node.pending]
  | repairInspect | repairAttempt =>
    simp only [step, hnode, Option.some.injEq] at hstep
    subst hstep
    exact numbered_of_same h (by simp [hnode, Node.opening]) rfl rfl
      (by simp [pending, move, Node.pending])
  | geometryAdmission =>
    simp only [step, hnode, Option.some.injEq] at hstep
    subst hstep
    have hfit : r.state.geometryUnsuitableReason = false :=
      h.opening (by simp [hnode, Node.opening])
    by_cases hrefused : a.geometryRefused
    · have hnext : (r.move (nodeGeometryAdmission cfg r.state a)
          (routeAfterGeometryAdmission (nodeGeometryAdmission cfg r.state a))).nextAttempt =
          cfg.maxBuilderRetries + 1 := by
        simp [nextAttempt, pending, move, routeAfterGeometryAdmission, nodeGeometryAdmission,
          hrefused, Node.pending]
      refine ⟨⟨?_, fun _ => ?_, fun _ => ?_⟩, .inl ?_⟩
      · simp [move, routeAfterGeometryAdmission, nodeGeometryAdmission, hrefused, Node.opening]
      · simp [move, nodeGeometryAdmission, hrefused]
      · omega
      · omega
    · have hkept : nodeGeometryAdmission cfg r.state a = r.state := if_neg hrefused
      rw [hkept]
      refine numbered_of_same h ?_ rfl rfl ?_ <;>
        simp [move, pending, routeAfterGeometryAdmission, hfit, Node.opening, Node.pending]
  | builder =>
    simp only [step, hnode, Option.some.injEq] at hstep
    subst hstep
    exact numbered_turn h hnode rfl rfl
  | executor =>
    simp only [step, hnode, Option.some.injEq] at hstep
    subst hstep
    have hp : r.pending = true := by simp [pending, Node.pending, hnode]
    refine numbered_of_same h ?_ (sameCounters_nodeExecutor r.state a).retry ?_ fun _ => hp
    · rcases routeAfterExecutor_cases cfg (nodeExecutor r.state a) a with
        hr | hr | hr | ⟨hr, -⟩ | ⟨hr, -⟩ <;> simp [move, hr, Node.opening]
    · simp only [move, nodeExecutor]
      split <;> rfl
  | classifier =>
    simp only [step, hnode, Option.some.injEq] at hstep
    subst hstep
    refine numbered_of_same h (by simp [move, Node.opening])
      (sameCounters_nodeClassifier r.state).retry ?_ ?_
    · simp only [move, nodeClassifier]
      repeat' split
      all_goals rfl
    · simp only [pending, move, hnode, Node.pending, nodeClassifier]
      repeat' split
      all_goals exact id
  | engineFallback =>
    simp only [step, hnode, Option.some.injEq] at hstep
    subst hstep
    refine numbered_of_same h (by simp [move, Node.opening])
      (sameCounters_nodeEngineFallback cfg r.state a).retry ?_
        (by simp [pending, move, Node.pending])
    simp only [move, nodeEngineFallback]
    split <;> rfl
  | reviewer =>
    simp only [step, hnode, Option.some.injEq] at hstep
    subst hstep
    have hsuccess := executorSuccess_nodeReviewer r.state a
    refine numbered_of_same h ?_ (sameCounters_nodeReviewer r.state a).retry ?_ ?_
    · rcases routeAfterReviewer_cases cfg (nodeReviewer r.state a) with
        hr | hr | ⟨hr, -⟩ | ⟨hr, -⟩ <;> simp [move, hr, Node.opening]
    · simp only [move, nodeReviewer]
      repeat' split
      all_goals rfl
    · rcases routeAfterReviewer_cases cfg (nodeReviewer r.state a) with
        hr | hr | ⟨hr, -⟩ | ⟨hr, -⟩
      · simp [pending, move, hr, Node.pending]
      · simp [pending, move, hr, Node.pending]
      · simp [pending, move, hr, Node.pending]
      · simp [pending, move, hr, Node.pending, hsuccess, executorSuccess_of_classifier hr]
  | infraRetry =>
    simp only [step, hnode, Option.some.injEq] at hstep
    subst hstep
    exact numbered_replay h (by simp [pending, Node.pending, hnode]) rfl rfl rfl
  | guardReplay =>
    simp only [step, hnode, Option.some.injEq] at hstep
    subst hstep
    exact numbered_replay h (by simp [pending, Node.pending, hnode]) rfl rfl rfl
  | reviewRetry | failureHandler =>
    simp only [step, hnode, Option.some.injEq] at hstep
    subst hstep
    exact numbered_of_same h (by simp [move, Node.opening]) rfl rfl
      (by simp [pending, move, Node.pending])
  | deliverSound =>
    simp only [step, hnode, Option.some.injEq] at hstep
    subst hstep
    refine numbered_of_same h (by simp [move, Node.opening])
      (sameCounters_nodeDeliverSound r.state a).retry ?_ (by simp [pending, move, Node.pending])
    simp only [move, nodeDeliverSound]
    split <;> rfl

theorem numbered_start (cfg : GraphSettings) (dispute : Option DisputeMode) :
    (start dispute).Numbered cfg where
  opening _ := rfl
  pending h := by simp [GraphRun.pending, start, Node.pending] at h
  refused h := by simp [start, PipelineState.initial] at h

end GraphRun

end MeshPipeline.Pipeline
