import MeshPipeline.Pipeline.Graph

/-!
# The graph run ends by its own counters

Every turn of the builder spends an attempt, an infrastructure retry or a guard replay, unless it
sets the counter back to the review's bonus attempt. Between two turns the run only goes down.
-/

namespace MeshPipeline.Pipeline

variable {cfg : GraphSettings} {s : PipelineState} {t : BuilderTurn} {a : Answers}

/-- A turn that starts with the regular attempts spent sets the counter back: it stops unbuilt on a
failed attempt, or it ends with the no-ops at their limit. -/
def LosesBonus (cfg : GraphSettings) (s : PipelineState) (t : BuilderTurn) : Prop :=
  cfg.maxBuilderRetries < s.retryCount ∧
    match t.unbuilt s, t.staging, t.apiFailure with
    | some _, _, _ => s.executorSuccess = false
    | none, none, none => t.repeatsReview cfg s = false ∧ Noop.limit ≤ (t.noops cfg s).consecutive
    | _, _, _ => False

theorem retryCount_noops (cfg : GraphSettings) (s : PipelineState) (t : BuilderTurn) :
    (t.noops cfg s).retryCount = cfg.maxBuilderRetries + 1 ∧
        Noop.limit ≤ (t.noops cfg s).consecutive ∨
      (t.noops cfg s).retryCount = s.retryCount + 1 := by
  simp only [BuilderTurn.noops, Noop.assess]
  split <;> grind

/-- A turn stops the run where it stands, or makes an attempt. -/
theorem patch_spends (hr : s.retryCount ≤ cfg.maxBuilderRetries + 1) (h : ¬ LosesBonus cfg s t) :
    (t.patch cfg s).stop.isSome ∧ (t.patch cfg s).retryCount = s.retryCount ∨
      s.retryCount < (t.patch cfg s).retryCount ∧
        (t.patch cfg s).retryCount ≤ cfg.builderMaxTotalAttempts := by
  unfold LosesBonus at h
  unfold BuilderTurn.patch GraphSettings.builderMaxTotalAttempts
  split
  · rename_i hunbuilt
    simp only [hunbuilt] at h
    unfold stopWithoutBuilding
    split
    · exact .inl ⟨rfl, rfl⟩
    · right
      grind
  · exact .inr ⟨Nat.lt_succ_self _, Nat.succ_le_succ hr⟩
  · exact .inr ⟨Nat.lt_succ_self _, Nat.succ_le_succ hr⟩
  · exact .inr ⟨Nat.lt_succ_self _, Nat.succ_le_succ hr⟩
  · rename_i hunbuilt hstaging happi
    simp only [hunbuilt, hstaging, happi] at h
    split
    · exact .inl ⟨rfl, rfl⟩
    · right
      rcases retryCount_noops cfg s t with ⟨heq, hlimit⟩ | heq
      · grind
      · grind

/-! ## The routes -/

theorem routeAfterBuilder_cases (cfg : GraphSettings) (s : PipelineState) :
    routeAfterBuilder cfg s = .END ∨ routeAfterBuilder cfg s = .failureHandler ∨
      routeAfterBuilder cfg s = .executor ∨
      routeAfterBuilder cfg s = .infraRetry ∧ s.infraRetryCount < cfg.builderInfraRetryMax := by
  unfold routeAfterBuilder
  split
  · exact .inl rfl
  · right
    split
    · split
      · rename_i hretry
        exact .inr (.inr ⟨rfl, hretry.2⟩)
      · exact .inl rfl
    · exact .inr (.inl rfl)

theorem soundOrEnd_cases (s : PipelineState) (a : Answers) :
    soundOrEnd s a = .END ∨ soundOrEnd s a = .deliverSound := by
  unfold soundOrEnd
  grind

theorem routeAfterExecutor_cases (cfg : GraphSettings) (s : PipelineState) (a : Answers) :
    routeAfterExecutor cfg s a = .END ∨ routeAfterExecutor cfg s a = .reviewer ∨
      routeAfterExecutor cfg s a = .deliverSound ∨
      routeAfterExecutor cfg s a = .guardReplay ∧ s.guardReplayCount < guardReplays ∨
      routeAfterExecutor cfg s a = .classifier ∧ s.retryCount ≤ cfg.maxBuilderRetries + 1 := by
  have hsound := soundOrEnd_cases s a
  unfold routeAfterExecutor routeAfterSuccess GraphSettings.builderMaxTotalAttempts
  grind

theorem routeAfterVerdict_cases (cfg : GraphSettings) (s : PipelineState) :
    routeAfterVerdict cfg s = .END ∨
      routeAfterVerdict cfg s = .classifier ∧ s.retryCount ≤ cfg.maxBuilderRetries + 1 := by
  fun_cases routeAfterVerdict cfg s <;> grind

theorem reviewRerunCount_of_reviewCanRerun (h : reviewCanRerun cfg s) :
    s.reviewRerunCount < cfg.reviewerRerunMax := by
  unfold reviewCanRerun at h
  grind

theorem routeAfterReviewer_cases (cfg : GraphSettings) (s : PipelineState) :
    routeAfterReviewer cfg s = .END ∨ routeAfterReviewer cfg s = .failureHandler ∨
      routeAfterReviewer cfg s = .reviewRetry ∧ s.reviewRerunCount < cfg.reviewerRerunMax ∨
      routeAfterReviewer cfg s = .classifier ∧ s.retryCount ≤ cfg.maxBuilderRetries + 1 := by
  unfold routeAfterReviewer
  split
  · exact .inl rfl
  · split
    · split
      · rename_i hrerun
        exact .inr (.inr (.inl ⟨rfl, reviewRerunCount_of_reviewCanRerun hrerun⟩))
      · exact .inr (.inl rfl)
    · rcases routeAfterVerdict_cases cfg s with hend | hclassifier
      · exact .inl hend
      · exact .inr (.inr (.inr hclassifier))

/-! ## The measure -/

/-- How often the builder may still run. -/
def PipelineState.turnsLeft (cfg : GraphSettings) (s : PipelineState) : Nat :=
  (cfg.builderMaxTotalAttempts - s.retryCount) +
    (cfg.builderInfraRetryMax - s.infraRetryCount) + (guardReplays - s.guardReplayCount)

/-- How far a node is from the next turn of the builder, or from the end. -/
def Node.rank (reruns : Nat) : Node → Nat
  | .END => 0
  | .failureHandler | .builder => 1
  | .engineFallback | .infraRetry | .guardReplay => 2
  | .classifier => 3
  | .reviewRetry => 3 + 2 * reruns
  | .reviewer => 4 + 2 * reruns
  | .deliverSound => 5 + 2 * reruns
  | .executor => 6 + 2 * reruns
  | .geometryAdmission => 7 + 2 * reruns
  | .repairAttempt => 8 + 2 * reruns
  | .repairInspect => 9 + 2 * reruns
  | .engineSelect => 10 + 2 * reruns
  | .intake => 11 + 2 * reruns

/-- The nodes from which the builder is entered without a replay. -/
def Node.entersBuilder : Node → Bool
  | .intake | .engineSelect | .repairInspect | .repairAttempt | .geometryAdmission | .builder
  | .classifier | .engineFallback => true
  | _ => false

/-- What holds of the counters at a node: the attempts stay under their ceiling, and the nodes that
build or retry were admitted. -/
structure Node.Admits (cfg : GraphSettings) (node : Node) (s : PipelineState) : Prop where
  attempts : s.retryCount ≤ cfg.builderMaxTotalAttempts
  entry : node.entersBuilder → s.retryCount ≤ cfg.maxBuilderRetries + 1
  infra : node = .infraRetry → s.infraRetryCount < cfg.builderInfraRetryMax
  guard : node = .guardReplay → s.guardReplayCount < guardReplays
  rerun : node = .reviewRetry → s.reviewRerunCount < cfg.reviewerRerunMax

theorem Node.admits_of_entry {node : Node} (h : s.retryCount ≤ cfg.maxBuilderRetries + 1)
    (hnode : node ∉ [.infraRetry, .guardReplay, .reviewRetry]) : node.Admits cfg s := by
  refine ⟨Nat.le_succ_of_le h, fun _ => h, ?_, ?_, ?_⟩ <;>
    exact fun heq => absurd (by simp [heq]) hnode

theorem Node.admits_of_attempts {node : Node} (h : s.retryCount ≤ cfg.builderMaxTotalAttempts)
    (hentry : node.entersBuilder = false)
    (hnode : node ∉ [.infraRetry, .guardReplay, .reviewRetry]) : node.Admits cfg s := by
  refine ⟨h, fun hbuilds => absurd (hentry.symm.trans hbuilds) nofun, ?_, ?_, ?_⟩ <;>
    exact fun heq => absurd (by simp [heq]) hnode

/-- The four counters stay as they are. -/
structure SameCounters (s s' : PipelineState) : Prop where
  retry : s'.retryCount = s.retryCount
  infra : s'.infraRetryCount = s.infraRetryCount
  guard : s'.guardReplayCount = s.guardReplayCount
  rerun : s'.reviewRerunCount = s.reviewRerunCount

theorem sameCounters_nodeExecutor (s : PipelineState) (a : Answers) :
    SameCounters s (nodeExecutor s a) := by
  unfold nodeExecutor
  split <;> exact ⟨rfl, rfl, rfl, rfl⟩

theorem sameCounters_nodeClassifier (s : PipelineState) : SameCounters s (nodeClassifier s) := by
  unfold nodeClassifier
  split
  · exact ⟨rfl, rfl, rfl, rfl⟩
  · split <;> exact ⟨rfl, rfl, rfl, rfl⟩

theorem sameCounters_nodeEngineFallback (cfg : GraphSettings) (s : PipelineState) (a : Answers) :
    SameCounters s (nodeEngineFallback cfg s a) := by
  unfold nodeEngineFallback
  split <;> exact ⟨rfl, rfl, rfl, rfl⟩

theorem sameCounters_nodeReviewer (s : PipelineState) (a : Answers) :
    SameCounters s (nodeReviewer s a) := by
  unfold nodeReviewer
  split
  · split <;> exact ⟨rfl, rfl, rfl, rfl⟩
  · exact ⟨rfl, rfl, rfl, rfl⟩

theorem sameCounters_nodeDeliverSound (s : PipelineState) (a : Answers) :
    SameCounters s (nodeDeliverSound s a) := by
  unfold nodeDeliverSound
  split <;> exact ⟨rfl, rfl, rfl, rfl⟩

namespace GraphRun

variable {w w' : GraphRun}

def reruns (cfg : GraphSettings) (w : GraphRun) : Nat :=
  cfg.reviewerRerunMax - w.state.reviewRerunCount

def rank (cfg : GraphSettings) (w : GraphRun) : Nat := w.node.rank (w.reruns cfg)

theorem rank_lt (cfg : GraphSettings) (w : GraphRun) :
    w.rank cfg < 12 + 2 * cfg.reviewerRerunMax := by
  have hreruns : w.reruns cfg ≤ cfg.reviewerRerunMax := Nat.sub_le ..
  unfold rank Node.rank
  split <;> omega

/-- The edges of the graph, by what they do to the counters. -/
inductive Edge (cfg : GraphSettings) (w : GraphRun) (a : Answers) : GraphRun → Prop
  /-- Down to a node that is nearer the builder or the end. -/
  | lower (at' : w.node ≠ .builder) (s : PipelineState) (node : Node)
    (same : SameCounters w.state s)
      (rank : node.rank (w.reruns cfg) < w.node.rank (w.reruns cfg)) (admits : node.Admits cfg s) :
      Edge cfg w a (w.move s node)
  | refused (at' : w.node = .geometryAdmission) (refused : a.geometryRefused) :
      Edge cfg w a (w.move (nodeGeometryAdmission cfg w.state a) .executor)
  | turn (at' : w.node = .builder) : Edge cfg w a
      { w.move (nodeBuilder cfg w.state a.turn)
          (routeAfterBuilder cfg (nodeBuilder cfg w.state a.turn))
        with builderRuns := w.builderRuns + 1 }
  | infraRetry (at' : w.node = .infraRetry) :
    Edge cfg w a (w.move (nodeInfraRetry w.state) .builder)
  | guardReplay (at' : w.node = .guardReplay) :
      Edge cfg w a (w.move (nodeGuardReplay w.state) .builder)
  | reviewRetry (at' : w.node = .reviewRetry) :
      Edge cfg w a (w.move (nodeReviewRetry w.state) .reviewer)

theorem edge_step (ha : w.node.Admits cfg w.state) (h : step cfg w a = some w') :
    Edge cfg w a w' := by
  have hattempts := ha.attempts
  have hentry := ha.entry
  cases hnode : w.node with
  | END => simp [step, hnode] at h
  | intake =>
    simp only [step, hnode, Option.some.injEq] at h
    subst h
    refine .lower (by rw [hnode]; nofun) _ _ ⟨rfl, rfl, rfl, rfl⟩ ?_ ?_
    · unfold routeAfterIntake
      split <;> simp only [hnode, Node.rank] <;> omega
    · unfold routeAfterIntake
      split <;> exact Node.admits_of_entry (hentry (by rw [hnode]; rfl)) (by decide)
  | engineSelect =>
    simp only [step, hnode, Option.some.injEq] at h
    subst h
    refine .lower (by rw [hnode]; nofun) _ _ ⟨rfl, rfl, rfl, rfl⟩ ?_ ?_
    · unfold routeAfterEngineSelect
      split <;> simp only [hnode, Node.rank] <;> omega
    · unfold routeAfterEngineSelect
      split <;> exact Node.admits_of_entry (hentry (by rw [hnode]; rfl)) (by decide)
  | repairInspect | repairAttempt =>
    simp only [step, hnode, Option.some.injEq] at h
    subst h
    refine .lower (by rw [hnode]; nofun) _ _ ⟨rfl, rfl, rfl, rfl⟩ ?_ ?_
    · simp only [hnode, Node.rank]
      omega
    · exact Node.admits_of_entry (hentry (by rw [hnode]; rfl)) (by decide)
  | geometryAdmission =>
    simp only [step, hnode, Option.some.injEq] at h
    subst h
    by_cases hrefused : a.geometryRefused
    · have hroute : routeAfterGeometryAdmission (nodeGeometryAdmission cfg w.state a) =
          .executor := by
        simp [routeAfterGeometryAdmission, nodeGeometryAdmission, hrefused]
      rw [hroute]
      exact .refused hnode hrefused
    · have hkept : nodeGeometryAdmission cfg w.state a = w.state := if_neg hrefused
      rw [hkept]
      refine .lower (by rw [hnode]; nofun) _ _ ⟨rfl, rfl, rfl, rfl⟩ ?_ ?_
      · unfold routeAfterGeometryAdmission
        split <;> simp only [hnode, Node.rank] <;> omega
      · unfold routeAfterGeometryAdmission
        split <;> exact Node.admits_of_entry (hentry (by rw [hnode]; rfl)) (by decide)
  | builder =>
    simp only [step, hnode, Option.some.injEq] at h
    subst h
    exact .turn hnode
  | executor =>
    simp only [step, hnode, Option.some.injEq] at h
    subst h
    have hsame := sameCounters_nodeExecutor w.state a
    have hle := hsame.retry ▸ hattempts
    rcases routeAfterExecutor_cases cfg (nodeExecutor w.state a) a with
      hroute | hroute | hroute | ⟨hroute, hguard⟩ | ⟨hroute, hentry⟩ <;> rw [hroute] <;>
      refine .lower (by rw [hnode]; nofun) _ _ hsame (by simp only [hnode, Node.rank]; omega) ?_
    · exact Node.admits_of_attempts hle rfl (by decide)
    · exact Node.admits_of_attempts hle rfl (by decide)
    · exact Node.admits_of_attempts hle rfl (by decide)
    · exact ⟨hle, nofun, nofun, fun _ => hguard, nofun⟩
    · exact Node.admits_of_entry hentry (by decide)
  | reviewer =>
    simp only [step, hnode, Option.some.injEq] at h
    subst h
    have hsame := sameCounters_nodeReviewer w.state a
    have hle := hsame.retry ▸ hattempts
    rcases routeAfterReviewer_cases cfg (nodeReviewer w.state a) with
      hroute | hroute | ⟨hroute, hrerun⟩ | ⟨hroute, hentry⟩ <;> rw [hroute] <;>
      refine .lower (by rw [hnode]; nofun) _ _ hsame (by simp only [hnode, Node.rank]; omega) ?_
    · exact Node.admits_of_attempts hle rfl (by decide)
    · exact Node.admits_of_attempts hle rfl (by decide)
    · exact ⟨hle, nofun, nofun, nofun, fun _ => hrerun⟩
    · exact Node.admits_of_entry hentry (by decide)
  | classifier =>
    simp only [step, hnode, Option.some.injEq] at h
    subst h
    have hsame := sameCounters_nodeClassifier w.state
    refine .lower (by rw [hnode]; nofun) _ _ hsame (by simp only [hnode, Node.rank]; omega) ?_
    exact Node.admits_of_entry (hsame.retry ▸ hentry (by rw [hnode]; rfl)) (by decide)
  | engineFallback =>
    simp only [step, hnode, Option.some.injEq] at h
    subst h
    have hsame := sameCounters_nodeEngineFallback cfg w.state a
    refine .lower (by rw [hnode]; nofun) _ _ hsame (by simp only [hnode, Node.rank]; omega) ?_
    exact Node.admits_of_entry (hsame.retry ▸ hentry (by rw [hnode]; rfl)) (by decide)
  | deliverSound =>
    simp only [step, hnode, Option.some.injEq] at h
    subst h
    have hsame := sameCounters_nodeDeliverSound w.state a
    refine .lower (by rw [hnode]; nofun) _ _ hsame (by simp only [hnode, Node.rank]; omega) ?_
    exact Node.admits_of_attempts (hsame.retry ▸ hattempts) rfl (by decide)
  | failureHandler =>
    simp only [step, hnode, Option.some.injEq] at h
    subst h
    refine .lower (by rw [hnode]; nofun) _ _ ⟨rfl, rfl, rfl, rfl⟩
      (by simp only [hnode, Node.rank]; omega) ?_
    exact Node.admits_of_attempts hattempts rfl (by decide)
  | infraRetry =>
    simp only [step, hnode, Option.some.injEq] at h
    subst h
    exact .infraRetry hnode
  | guardReplay =>
    simp only [step, hnode, Option.some.injEq] at h
    subst h
    exact .guardReplay hnode
  | reviewRetry =>
    simp only [step, hnode, Option.some.injEq] at h
    subst h
    exact .reviewRetry hnode

/-! ## What an edge spends -/

theorem admits_edge (ha : w.node.Admits cfg w.state)
    (hkeeps : w.node = .builder → ¬ LosesBonus cfg w.state a.turn) (h : Edge cfg w a w') :
    w'.node.Admits cfg w'.state := by
  cases h with
  | lower _ s node same rank admits => exact admits
  | refused at' refused =>
    have hset : (nodeGeometryAdmission cfg w.state a).retryCount = cfg.maxBuilderRetries + 1 := by
      simp only [nodeGeometryAdmission, refused, if_true]
    show Node.executor.Admits cfg _
    exact Node.admits_of_entry (Nat.le_of_eq hset) (by decide)
  | turn at' =>
    have hle : (nodeBuilder cfg w.state a.turn).retryCount ≤ cfg.builderMaxTotalAttempts := by
      rcases patch_spends (ha.entry (by rw [at']; rfl)) (hkeeps at') with ⟨-, hsame⟩ | ⟨-, hle⟩
      · exact Nat.le_trans (Nat.le_of_eq hsame) ha.attempts
      · exact hle
    rcases routeAfterBuilder_cases cfg (nodeBuilder cfg w.state a.turn) with
      hroute | hroute | hroute | ⟨hroute, hinfra⟩ <;> simp only [move, hroute]
    · exact Node.admits_of_attempts hle rfl (by decide)
    · exact Node.admits_of_attempts hle rfl (by decide)
    · exact Node.admits_of_attempts hle rfl (by decide)
    · exact ⟨hle, nofun, fun _ => hinfra, nofun, nofun⟩
  | infraRetry | guardReplay =>
    show Node.builder.Admits cfg _
    exact Node.admits_of_entry (Nat.sub_le_of_le_add ha.attempts) (by decide)
  | reviewRetry =>
    show Node.reviewer.Admits cfg _
    exact Node.admits_of_attempts ha.attempts rfl (by decide)

/-- Away from the builder a step goes down, and gives no turn back. -/
structure Descends (cfg : GraphSettings) (w w' : GraphRun) : Prop where
  runs : w'.builderRuns = w.builderRuns
  turns : w'.state.turnsLeft cfg ≤ w.state.turnsLeft cfg
  rank : w'.rank cfg < w.rank cfg

theorem descends_edge (ha : w.node.Admits cfg w.state) (hbuilder : w.node ≠ .builder)
    (h : Edge cfg w a w') : Descends cfg w w' := by
  have hattempts := ha.attempts
  cases h with
  | lower _ s node same rank admits =>
    refine ⟨rfl, ?_, ?_⟩
    · simp only [move, PipelineState.turnsLeft, same.retry, same.infra, same.guard, Nat.le_refl]
    · simpa only [GraphRun.rank, reruns, move, same.rerun] using rank
  | refused at' refused =>
    have hentry := ha.entry (by rw [at']; rfl)
    refine ⟨rfl, ?_, ?_⟩
    · simp only [move, nodeGeometryAdmission, refused, if_true, PipelineState.turnsLeft]
      omega
    · simp only [rank, reruns, move, nodeGeometryAdmission, refused, if_true, at', Node.rank]
      omega
  | turn at' => exact absurd at' hbuilder
  | infraRetry at' =>
    have hinfra := ha.infra at'
    refine ⟨rfl, ?_, ?_⟩
    · simp only [move, nodeInfraRetry, PipelineState.turnsLeft]
      omega
    · simp only [rank, move, at', Node.rank]
      omega
  | guardReplay at' =>
    have hguard := ha.guard at'
    refine ⟨rfl, ?_, ?_⟩
    · simp only [move, nodeGuardReplay, PipelineState.turnsLeft]
      omega
    · simp only [rank, move, at', Node.rank]
      omega
  | reviewRetry at' =>
    have hrerun := ha.rerun at'
    refine ⟨rfl, Nat.le_refl _, ?_⟩
    simp only [rank, reruns, move, nodeReviewRetry, at', Node.rank]
    omega

/-- The builder's step stops the run, or spends a turn. -/
theorem turn_spends (ha : w.node.Admits cfg w.state) (hnode : w.node = .builder)
    (hkeeps : ¬ LosesBonus cfg w.state a.turn) (h : Edge cfg w a w') :
    w'.builderRuns = w.builderRuns + 1 ∧
      (w'.node = .END ∧ w'.state.turnsLeft cfg ≤ w.state.turnsLeft cfg ∨
        w'.state.turnsLeft cfg < w.state.turnsLeft cfg) := by
  cases h with
  | turn =>
    refine ⟨rfl, ?_⟩
    rcases patch_spends (ha.entry (by rw [hnode]; rfl)) hkeeps with ⟨hstop, hsame⟩ | ⟨hlt, hle⟩
    · left
      refine ⟨?_, ?_⟩
      · have hstopped : (nodeBuilder cfg w.state a.turn).builderStop.isSome := by
          simp only [nodeBuilder, TurnPatch.state, Option.isSome_or, hstop, Bool.true_or]
        simp only [move, routeAfterBuilder, hstopped, if_true]
      · simp only [move, nodeBuilder, TurnPatch.state, PipelineState.turnsLeft, hsame, Nat.le_refl]
    · right
      simp only [move, nodeBuilder, TurnPatch.state, PipelineState.turnsLeft]
      omega
  | lower at' => exact absurd hnode at'
  | refused at' | infraRetry at' | guardReplay at' | reviewRetry at' =>
    rw [hnode] at at'
    cases at'

/-! ## Every run -/

/-- What the builder ran and may still run is within the bound. -/
structure Bounded (cfg : GraphSettings) (w : GraphRun) : Prop where
  admits : w.node.Admits cfg w.state
  left : w.node ≠ .END → w.builderRuns + w.state.turnsLeft cfg ≤
    cfg.builderMaxTotalAttempts + cfg.builderInfraRetryMax + guardReplays
  runs : w.builderRuns ≤ cfg.builderMaxTotalAttempts + cfg.builderInfraRetryMax + guardReplays

/-- A step keeps the bonus attempt, if it is a turn of the builder. -/
def KeepsBonus (cfg : GraphSettings) (w : GraphRun) (a : Answers) : Prop :=
  w.node = .builder → ¬ LosesBonus cfg w.state a.turn

theorem ne_END_of_step (h : step cfg w a = some w') : w.node ≠ .END := by
  intro hnode
  simp [step, hnode] at h

theorem turnsLeft_pos (hb : w.node.Admits cfg w.state) (hnode : w.node = .builder) :
    0 < w.state.turnsLeft cfg := by
  have hentry := hb.entry (by rw [hnode]; rfl)
  unfold PipelineState.turnsLeft GraphSettings.builderMaxTotalAttempts
  omega

theorem bounded_step (hb : w.Bounded cfg) (hkeeps : KeepsBonus cfg w a)
    (h : step cfg w a = some w') : w'.Bounded cfg := by
  have hedge := edge_step hb.admits h
  have hadmits := admits_edge hb.admits hkeeps hedge
  have hleft := hb.left (ne_END_of_step h)
  by_cases hnode : w.node = .builder
  · have hpos := turnsLeft_pos hb.admits hnode
    obtain ⟨hruns, ⟨hend, -⟩ | hlt⟩ := turn_spends hb.admits hnode (hkeeps hnode) hedge
    · exact ⟨hadmits, fun hne => absurd hend hne, by omega⟩
    · exact ⟨hadmits, fun _ => by omega, by omega⟩
  · obtain ⟨hruns, hturns, -⟩ := descends_edge hb.admits hnode hedge
    exact ⟨hadmits, fun _ => by omega, by omega⟩

/-- Turns of the builder count for more than every node between two of them. -/
def measure (cfg : GraphSettings) (w : GraphRun) : Nat :=
  (12 + 2 * cfg.reviewerRerunMax) * w.state.turnsLeft cfg + w.rank cfg

theorem measure_step (hb : w.Bounded cfg) (hkeeps : KeepsBonus cfg w a)
    (h : step cfg w a = some w') : w'.measure cfg < w.measure cfg := by
  have hedge := edge_step hb.admits h
  unfold measure
  by_cases hnode : w.node = .builder
  · obtain ⟨-, ⟨hend, hle⟩ | hlt⟩ := turn_spends hb.admits hnode (hkeeps hnode) hedge
    · have hscaled := Nat.mul_le_mul_left (12 + 2 * cfg.reviewerRerunMax) hle
      have hranks : w'.rank cfg < w.rank cfg := by
        simp only [rank, hend, hnode, Node.rank]
        omega
      omega
    · have hscaled := Nat.mul_le_mul_left (12 + 2 * cfg.reviewerRerunMax) (Nat.succ_le_of_lt hlt)
      have hrank := rank_lt cfg w'
      rw [Nat.succ_eq_add_one, Nat.mul_add, Nat.mul_one] at hscaled
      omega
  · obtain ⟨-, hturns, hrank⟩ := descends_edge hb.admits hnode hedge
    have hscaled := Nat.mul_le_mul_left (12 + 2 * cfg.reviewerRerunMax) hturns
    omega

theorem bounded_start (cfg : GraphSettings) (dispute : Option DisputeMode) :
    (start dispute).Bounded cfg := by
  have hadmits : Node.intake.Admits cfg (.initial dispute) :=
    Node.admits_of_entry (Nat.zero_le _) (by decide)
  refine ⟨hadmits, fun _ => ?_, Nat.zero_le _⟩
  simp [start, PipelineState.initial, PipelineState.turnsLeft]

theorem isSome_step (h : w.node ≠ .END) : (step cfg w a).isSome := by
  cases hnode : w.node <;> simp_all [step]

/-- Whatever the nodes answer, a run that keeps the bonus attempt ends, and the builder runs no more
often than its attempts, its infrastructure retries and its guard replays add up to. -/
theorem graph_run_ends (cfg : GraphSettings) (dispute : Option DisputeMode)
    (answers : Nat → Answers)
    (h : ∀ n, (machine cfg).Meets (KeepsBonus cfg) (start dispute) ((List.range n).map answers)) :
    ∃ n w, (machine cfg).exec (start dispute) ((List.range n).map answers) = some w ∧
      w.node = .END ∧
      w.builderRuns ≤ cfg.builderMaxTotalAttempts + cfg.builderInfraRetryMax + guardReplays := by
  obtain ⟨n, w, hexec, hbounded, hend⟩ :=
    Transition.Machine.exec_reaches (m := machine cfg) (F := fun w => w.node = .END) (measure cfg)
      (fun _ _ _ hb hkeeps hstep => bounded_step hb hkeeps hstep)
      (fun _ _ _ hb hkeeps hstep => measure_step hb hkeeps hstep)
      (fun _ _ hnode => isSome_step hnode) answers (bounded_start cfg dispute) h
  exact ⟨n, w, hexec, hend, hbounded.runs⟩

/-- A turn that left the authored case as this. -/
def turn (authoredAfter : String) : BuilderTurn :=
  ⟨false, false, none, none, false, "case", authoredAfter⟩

/-- An engine that no answer of the resolution policy moves. -/
def noLadder : Ladder := ⟨false, false, false, none, false⟩

def accepted : Execution := ⟨true, "", none, .empty, false⟩

/-- The provider is down, whatever is asked of it. -/
def outage : Answers where
  intakeFailure := none
  geometryRefused := false
  turn := { turn "case" with apiFailure := some ⟨true, false⟩ }
  execution := accepted
  ladder := noLadder
  review := .nonVerdict ⟨true, false⟩

theorem graph_run_ends_outage :
    ∃ n w, (machine .default).exec (start none) ((List.range n).map fun _ => outage) = some w ∧
      w.node = .END ∧ w.builderRuns ≤ GraphSettings.default.builderMaxTotalAttempts +
        GraphSettings.default.builderInfraRetryMax + guardReplays := by
  refine graph_run_ends .default none (fun _ => outage) fun n => ?_
  refine Transition.Machine.meets_mono (P := fun _ a => a = outage) ?_
    (Transition.Machine.meets_of_labels (by simp))
  rintro w _ rfl - ⟨-, hloses⟩
  cases hunbuilt : outage.turn.unbuilt w.state <;> simp_all [outage, turn, BuilderTurn.unbuilt]

/-- The first attempt fails, and its retry changes nothing. -/
def unchanged : Answers where
  intakeFailure := none
  geometryRefused := false
  turn := turn "case"
  execution := ⟨false, "mesh_quality", some .meshQuality, .empty, false⟩
  ladder := noLadder
  review := .concluded .FAIL [⟨false, some true, true⟩] false

/-- A guard clock stops the retry, and its replay changes nothing. -/
def tripped : Answers :=
  { unchanged with execution :=
      ⟨false, "finalize", some .engineTimedOut, { FailureFacts.empty with guard := true }, false⟩ }

/-- Every later turn builds a sound mesh, and every review asks for another. -/
def reviewed : Answers := { unchanged with turn := turn "revised case", execution := accepted }

def bonusLoop (n : Nat) : Answers :=
  if n < 10 then unchanged else if n < 13 then tripped else reviewed

/-- The run goes round between the builder and the reviewer, with the counter set back each time. -/
structure Looping (w : GraphRun) : Prop where
  node : w.node ∈ [.builder, .executor, .reviewer, .classifier, .engineFallback]
  retry : w.state.retryCount = 2
  noops : w.state.builderNoopCount = 2
  stop : w.state.builderStop = none
  api : w.state.apiFailure = none
  dispute : w.state.userDispute = none
  geometry : w.state.geometryUnsuitableReason = false
  sound : w.node ∈ [.reviewer, .classifier, .engineFallback] →
    w.state.executorSuccess = true ∧ w.state.requirementCaveats = false
  judged : w.node = .classifier → w.state.reviewerRebuildRequired = false

theorem noops_reviewed (s : PipelineState) (hnoops : s.builderNoopCount = 2) :
    reviewed.turn.noops .default s = ⟨false, 2, 2⟩ := by
  cases hmode : s.builderMode <;>
    simp [BuilderTurn.noops, hmode, hnoops, reviewed, turn, Noop.assess, Noop.limit,
      GraphSettings.default]

theorem patch_reviewed (s : PipelineState) (hnoops : s.builderNoopCount = 2) :
    reviewed.turn.patch .default s = ⟨2, 2, none, none⟩ := by
  have hunbuilt : reviewed.turn.unbuilt s = none := by
    simp [BuilderTurn.unbuilt, reviewed, turn]
  have hreview : reviewed.turn.repeatsReview .default s = false := by
    rw [BuilderTurn.repeatsReview, noops_reviewed s hnoops]
    rfl
  have hrest : reviewed.turn.staging = none ∧ reviewed.turn.apiFailure = none := ⟨rfl, rfl⟩
  simp [BuilderTurn.patch, hunbuilt, hrest, hreview, noops_reviewed s hnoops]

theorem looping_step (hl : w.Looping) :
    ∃ w', step .default w reviewed = some w' ∧ w'.Looping := by
  obtain ⟨hnode, hretry, hnoops, hstop, hapi, hdispute, hgeometry, hsound, hjudged⟩ := hl
  simp only [List.mem_cons, List.not_mem_nil, or_false] at hnode
  rcases hnode with hnode | hnode | hnode | hnode | hnode
  · -- the builder's revised case leaves the counter where the no-ops put it
    have hbuilt : nodeBuilder .default w.state reviewed.turn =
        { w.state with reviewRerunCount := 0 } := by
      simp [nodeBuilder, patch_reviewed w.state hnoops, TurnPatch.state, hretry, hnoops]
    refine ⟨{ w.move { w.state with reviewRerunCount := 0 } .executor with
      builderRuns := w.builderRuns + 1 }, ?_, ?_⟩
    · simp [step, hnode, hbuilt, routeAfterBuilder, hstop, hapi]
    · constructor <;> simp [move, hretry, hnoops, hstop, hapi, hdispute, hgeometry]
  · have hroute : routeAfterExecutor .default (nodeExecutor w.state reviewed) reviewed =
        .reviewer := by
      simp [routeAfterExecutor, routeAfterSuccess, nodeExecutor, hgeometry, reviewed, accepted]
    refine ⟨w.move (nodeExecutor w.state reviewed) .reviewer, ?_, ?_⟩
    · simp [step, hnode, hroute]
    · constructor <;> simp [move, nodeExecutor, hretry, hnoops, hstop, hapi, hdispute, hgeometry,
        reviewed, accepted]
  · obtain ⟨hsuccess, hcaveats⟩ := hsound (by rw [hnode]; decide)
    have hroute : routeAfterReviewer .default (nodeReviewer w.state reviewed) = .classifier := by
      simp [routeAfterReviewer, routeAfterVerdict, limitsEndTheReview, nodeReviewer, hsuccess, hapi,
        hdispute, hretry, reviewed, unchanged, asksForRebuild, concernRetrySpent, blockingFindings,
        GraphSettings.default]
    refine ⟨w.move (nodeReviewer w.state reviewed) .classifier, ?_, ?_⟩
    · simp [step, hnode, hroute]
    · constructor <;> simp [move, nodeReviewer, hretry, hnoops, hstop, hapi, hdispute, hgeometry,
        hsuccess, hcaveats, reviewed, unchanged]
  · obtain ⟨hsuccess, hcaveats⟩ := hsound (by rw [hnode]; decide)
    refine ⟨w.move (nodeClassifier w.state) .engineFallback, by simp [step, hnode], ?_⟩
    constructor <;> simp [move, nodeClassifier, hretry, hnoops, hstop, hapi, hdispute, hgeometry,
      hsuccess, hcaveats]
  · obtain ⟨hsuccess, hcaveats⟩ := hsound (by rw [hnode]; decide)
    have hstays : nodeEngineFallback .default w.state reviewed = w.state := by
      simp [nodeEngineFallback, movesOn, hsuccess]
    refine ⟨w.move w.state .builder, by simp [step, hnode, hstays], ?_⟩
    constructor <;> simp [move, hretry, hnoops, hstop, hapi, hdispute, hgeometry]

theorem looping_add (k : Nat) :
    ∃ w, (machine .default).exec (start none) ((List.range (13 + k)).map bonusLoop) = some w ∧
      w.Looping := by
  induction k with
  | zero =>
    refine ⟨_, rfl, ?_⟩
    constructor <;> decide
  | succ k ih =>
    obtain ⟨w, hexec, hl⟩ := ih
    have hlabel : bonusLoop (13 + k) = reviewed := by
      rw [bonusLoop, if_neg (by omega), if_neg (by omega)]
    obtain ⟨w', hstep, hl'⟩ := looping_step hl
    refine ⟨w', ?_, hl'⟩
    rw [← Nat.add_assoc, Transition.Machine.exec_range_succ, hexec, hlabel]
    exact hstep

theorem runs_before_loop : ∀ n < 13,
    ((machine .default).exec (start none) ((List.range n).map bonusLoop)).any (·.node == .END) =
      false := by
  decide

/-- The no-op detector sets the bonus attempt back to an attempt that buys it again. -/
theorem graph_run_loops :
    ¬ ∀ answers : Nat → Answers, ∃ n w,
      (machine .default).exec (start none) ((List.range n).map answers) = some w ∧
        w.node = .END ∧ w.builderRuns ≤ GraphSettings.default.builderMaxTotalAttempts +
          GraphSettings.default.builderInfraRetryMax + guardReplays := by
  intro hall
  obtain ⟨n, w, hexec, hend, -⟩ := hall bonusLoop
  rcases Nat.lt_or_ge n 13 with hn | hn
  · have hrunning := runs_before_loop n hn
    simp [hexec, hend] at hrunning
  · obtain ⟨k, rfl⟩ := Nat.exists_eq_add_of_le hn
    obtain ⟨w', hexec', hl⟩ := looping_add k
    obtain rfl : w' = w := Option.some.inj (hexec'.symm.trans hexec)
    have hnode := hl.node
    simp [hend] at hnode

end GraphRun

end MeshPipeline.Pipeline
