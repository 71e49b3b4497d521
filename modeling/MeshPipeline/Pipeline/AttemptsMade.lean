import Mathlib.Data.Finset.Card
import MeshPipeline.Pipeline.EngineLadder

/-!
# How many attempts were made

The number a user is shown is counted down from the run's own counter, by the attempts that the
ladder's record says started no mesher. It is the number of the attempts that started one as long as
the counter goes up with the turns.
-/

namespace MeshPipeline.Pipeline

/-- An attempt and whether it started a mesher, as the record keeps them. -/
def marks (attempts : List LadderAttempt) : List (Nat × Bool) :=
  attempts.map fun a => (a.attempt, a.built)

/-- The attempts up to the counter that started no mesher. -/
def notMade (attempts : List (Nat × Bool)) (turns : Nat) : Finset Nat :=
  ((attempts.filter fun a => !a.2).map (·.1)).toFinset.filter fun n => 0 < n ∧ n ≤ turns

/-- `attempts_made`. -/
def attemptsMade (reg : Registry) (s : LadderState) : Nat :=
  if s.pipeline.geometryUnsuitableReason then 0
  else
    let failure := if s.pipeline.executorSuccess then none else classify reg s
    s.pipeline.retryCount -
      (notMade (marks (withAttempt s failure).attempts) s.pipeline.retryCount).card

/-! ## The marks -/

/-- What an attempt adds, once. -/
def mark (n : Nat) (built : Bool) (old : List (Nat × Bool)) : List (Nat × Bool) :=
  if 0 < n ∧ n ∉ old.map (·.1) then old ++ [(n, built)] else old

theorem mark_of_mem {old : List (Nat × Bool)} {n : Nat} (built : Bool)
    (h : n = 0 ∨ n ∈ old.map (·.1)) : mark n built old = old := by
  unfold mark
  grind

theorem mem_mark (n : Nat) (built : Bool) (old : List (Nat × Bool)) :
    n = 0 ∨ n ∈ (mark n built old).map (·.1) := by
  unfold mark
  split
  · simp
  · grind

theorem notMade_of_le {old : List (Nat × Bool)} {n m : Nat} (hold : ∀ a ∈ old, a.1 ≤ n)
    (hle : n ≤ m) : notMade old m = notMade old n := by
  unfold notMade
  refine Finset.filter_congr fun k hk => ?_
  obtain ⟨a, ha, rfl⟩ := List.mem_map.mp (List.mem_toFinset.mp hk)
  have hbound := hold a (List.mem_of_mem_filter ha)
  omega

/-- A new attempt adds itself if it started no mesher. -/
theorem card_notMade_append {old : List (Nat × Bool)} {n : Nat} (built : Bool)
    (hold : ∀ a ∈ old, a.1 ≤ n) :
    (notMade (old ++ [(n + 1, built)]) (n + 1)).card =
      (notMade old n).card + if built then 0 else 1 := by
  rw [← notMade_of_le hold (Nat.le_succ n)]
  cases built with
  | true => simp [notMade]
  | false =>
    have hnew : n + 1 ∉ notMade old (n + 1) := by
      intro hmem
      obtain ⟨a, ha, hn⟩ := List.mem_map.mp (List.mem_toFinset.mp (Finset.mem_filter.mp hmem).1)
      have hbound := hold a (List.mem_of_mem_filter ha)
      omega
    have hinsert : notMade (old ++ [(n + 1, false)]) (n + 1) =
        insert (n + 1) (notMade old (n + 1)) := by
      ext k
      simp only [notMade, List.filter_append, List.map_append, List.toFinset_append,
        Finset.mem_filter, Finset.mem_union, Finset.mem_insert, List.mem_toFinset]
      grind
    rw [hinsert, Finset.card_insert_of_notMem hnew]
    rfl

variable {s : LadderState}

theorem marks_withAttempt (hfit : s.pipeline.geometryUnsuitableReason = false)
    (failure : Option Failure) :
    marks (withAttempt s failure).attempts =
      mark s.pipeline.retryCount (mesherStarted s) (marks s.record.attempts) := by
  have hnumbers : (marks s.record.attempts).map (·.1) = s.record.attempts.map (·.attempt) := by
    simp [marks]
  have hnumber : attemptNumber s = s.pipeline.retryCount := by simp [attemptNumber, hfit]
  unfold mark
  rw [hnumbers]
  by_cases hnew : 0 < s.pipeline.retryCount ∧
      s.pipeline.retryCount ∉ s.record.attempts.map (·.attempt)
  · have hne : s.pipeline.retryCount ≠ 0 := Nat.pos_iff_ne_zero.mp hnew.1
    simp only [withAttempt, hnumber, hfit, if_pos hnew]
    simp [hnew.1, hnew.2, marks, hne]
  · simp only [withAttempt, hnumber, hfit, if_neg hnew, Bool.false_eq_true, or_false]

/-- Up to the counter, every attempt started a mesher or is marked as one that did not. -/
structure Settled (attempts : List (Nat × Bool)) (n started : Nat) : Prop where
  bounded : ∀ a ∈ attempts, a.1 ≤ n
  counted : started + (notMade attempts n).card = n

/-- The next attempt, marked as it was. -/
theorem Settled.mark {attempts : List (Nat × Bool)} {n started : Nat}
    (h : Settled attempts n started) (built : Bool) :
    Settled (mark (n + 1) built attempts) (n + 1) (started + if built then 1 else 0) := by
  have hnew : n + 1 ∉ attempts.map (·.1) := by
    intro hmem
    obtain ⟨a, ha, hn⟩ := List.mem_map.mp hmem
    have hbound := h.bounded a ha
    omega
  have hmark : MeshPipeline.Pipeline.mark (n + 1) built attempts = attempts ++ [(n + 1, built)] :=
    if_pos ⟨Nat.succ_pos n, hnew⟩
  rw [hmark]
  constructor
  · intro a ha
    obtain ha | ha := List.mem_append.mp ha
    · exact Nat.le_succ_of_le (h.bounded a ha)
    · simp [List.mem_singleton.mp ha]
  · have hcounted := h.counted
    rw [card_notMade_append built h.bounded]
    cases built <;> simp <;> omega

/-- Once the last attempt is marked too, the number shown is that of the turns. -/
theorem attemptsMade_of_settled (reg : Registry) {started : Nat}
    (hfit : s.pipeline.geometryUnsuitableReason = false)
    (h : Settled (MeshPipeline.Pipeline.mark s.pipeline.retryCount (mesherStarted s)
      (marks s.record.attempts)) s.pipeline.retryCount started) : attemptsMade reg s = started := by
  have hcounted := h.counted
  simp only [attemptsMade, hfit, Bool.false_eq_true, if_false, marks_withAttempt hfit]
  omega

/-! ## The turns of a run -/

/-- The turn sets the counter to the exhausted value where that is not the next number: it stops
unbuilt on a failed attempt, or it ends with the no-ops at their limit. -/
def forcesCounter (cfg : GraphSettings) (s : PipelineState) (t : BuilderTurn) : Bool :=
  s.retryCount != cfg.maxBuilderRetries &&
    match t.unbuilt s, t.staging, t.apiFailure with
    | some _, _, _ => !s.executorSuccess
    | none, none, none =>
      !t.repeatsReview cfg s && decide (Noop.limit ≤ (t.noops cfg s).consecutive)
    | _, _, _ => false

theorem retryCount_of_not_forces {cfg : GraphSettings} {s : PipelineState} {t : BuilderTurn}
    (h : forcesCounter cfg s t = false) :
    (t.patch cfg s).retryCount = s.retryCount + if (t.patch cfg s).stop.isSome then 0 else 1 := by
  unfold forcesCounter at h
  unfold BuilderTurn.patch
  split
  · unfold stopWithoutBuilding
    grind
  · rfl
  · rfl
  · rfl
  · split
    · rfl
    · rcases retryCount_noops cfg s t with ⟨heq, hlimit⟩ | heq
      · grind
      · exact heq

/-- A run with the turns of its builder that started a mesher. -/
structure CountedRun where
  run : EngineRun
  /-- How many turns did. A ghost. -/
  turns : Nat
  /-- How many attempts did in the end: a turn that is run again is no attempt of its own. A ghost. -/
  attempts : Nat
  /-- The last turn did. A ghost. -/
  launched : Bool

namespace CountedRun

variable (cfg : LadderWorld)

def node (w : CountedRun) : Node := w.run.reviewed.run.node

def pipeline (w : CountedRun) : PipelineState := w.run.reviewed.run.state

/-- A step; the label tells whether a turn of the builder starts a mesher. -/
def step (w : CountedRun) (l : EngineAnswers × Bool) : Option CountedRun :=
  (w.run.step cfg l.1).map fun run =>
    let one := if l.2 then 1 else 0
    match w.node with
    | .builder => ⟨run, w.turns + one, w.attempts + one, l.2⟩
    | .infraRetry | .guardReplay =>
      ⟨run, w.turns, w.attempts - (if w.launched then 1 else 0), w.launched⟩
    | _ => { w with run := run }

def machine : Transition.Machine CountedRun (EngineAnswers × Bool) := ⟨step cfg⟩

def start (dispute : Option DisputeMode) (engine : String) (params : EngineParams) : CountedRun :=
  ⟨EngineRun.start dispute engine params, 0, 0, false⟩

/-- What a run that ended shows is the number of its attempts that started a mesher. -/
def ShowsAttempts (w : CountedRun) : Prop :=
  w.node = .END → attemptsMade cfg.registry (w.run.state cfg) = w.attempts

/-- A turn forces no counter, and one that stops the run has started no mesher; what the executor
notes of an attempt is what its turn did, and so is what the state holds when a failure of the
builder ends the run. -/
def TurnCounts (w : CountedRun) (l : EngineAnswers × Bool) : Prop :=
  let graph := cfg.settings.graph
  let turn := l.1.mesh.answers.turn
  let next := routeAfterBuilder graph (nodeBuilder graph w.pipeline turn)
  (w.node = .builder →
    forcesCounter graph w.pipeline turn = false ∧ (next = .END → l.2 = false) ∧
      (next = .failureHandler → l.2 = mesherStarted (w.run.state cfg))) ∧
  (w.node = .executor → w.pipeline.geometryUnsuitableReason = false →
    mesherStarted (w.run.judged cfg l.1) = w.launched)

instance (w : CountedRun) (l : EngineAnswers × Bool) : Decidable (w.TurnCounts cfg l) :=
  inferInstanceAs (Decidable ((_ → _ ∧ _ ∧ _) ∧ (_ → _ → _)))

/-- The nodes that an attempt goes through once it is judged. -/
def judgedNodes : List Node :=
  [.classifier, .engineFallback, .reviewer, .reviewRetry, .deliverSound, .failureHandler, .END]

/-- What every such run keeps, by the node it stands at. -/
inductive Counted (w : CountedRun) : Prop
  | opening (at' : w.node.opening = true) (fit : w.pipeline.geometryUnsuitableReason = false)
      (number : w.pipeline.retryCount = 0) (none : w.attempts = 0)
      (record : w.run.record.attempts = []) (sounds : w.run.reviewed.soundAttempts = [])
  | turn (at' : w.node = .builder) (fit : w.pipeline.geometryUnsuitableReason = false)
      (settled : Settled (marks w.run.record.attempts) w.pipeline.retryCount w.attempts)
      (marked : w.pipeline.retryCount = 0 ∨
        w.pipeline.retryCount ∈ (marks w.run.record.attempts).map (·.1))
  | pending (at' : w.node ∈ [.executor, .infraRetry, .guardReplay])
      (fit : w.pipeline.geometryUnsuitableReason = false) (n before : Nat)
      (number : w.pipeline.retryCount = n + 1)
      (settled : Settled (marks w.run.record.attempts) n before)
      (marked : n = 0 ∨ n ∈ (marks w.run.record.attempts).map (·.1))
      (attempts : w.attempts = before + if w.launched then 1 else 0)
  | judged (at' : w.node ∈ judgedNodes) (fit : w.pipeline.geometryUnsuitableReason = false)
      (settled : Settled (mark w.pipeline.retryCount (mesherStarted (w.run.state cfg))
        (marks w.run.record.attempts)) w.pipeline.retryCount w.attempts)
  | refused (at' : w.node ∈ [.executor, .END])
      (unfit : w.pipeline.geometryUnsuitableReason = true) (none : w.attempts = 0)
      (spent : cfg.settings.graph.maxBuilderRetries < w.pipeline.retryCount)
      (sounds : w.run.reviewed.soundAttempts = [])

variable {cfg : LadderWorld} {w v : CountedRun} {l : EngineAnswers × Bool}

theorem showsAttempts_of_counted (h : w.Counted cfg) : w.ShowsAttempts cfg := by
  intro hend
  cases h with
  | opening at' => simp [hend, Node.opening] at at'
  | turn at' => simp [hend] at at'
  | pending at' => simp [hend] at at'
  | judged at' fit settled => exact attemptsMade_of_settled cfg.registry fit settled
  | refused at' unfit none =>
    rw [none]
    exact if_pos unfit

/-! ## One step -/

/-- What the graph is answered. -/
def answered (cfg : LadderWorld) (w : CountedRun) (l : EngineAnswers × Bool) : Answers :=
  let reviewed := w.run.reviewed
  let answers := w.run.answers cfg l.1
  (reviewed.work cfg.settings.graph answers).answersOf (reviewed.execution answers) answers

/-- What a step does to what is counted. -/
structure Stepped (cfg : LadderWorld) (w : CountedRun) (l : EngineAnswers × Bool)
    (v : CountedRun) : Prop where
  graph : w.run.reviewed.run.step cfg.settings.graph (w.answered cfg l) = some v.run.reviewed.run
  record : v.run.record = (w.run.work cfg l.1).record
  report : v.run.report = (w.run.work cfg l.1).report
  sounds : w.node ≠ .executor ∨ w.pipeline.geometryUnsuitableReason = true →
    v.run.reviewed.soundAttempts = w.run.reviewed.soundAttempts
  turn : w.node = .builder → v.attempts = w.attempts + (if l.2 then 1 else 0) ∧ v.launched = l.2
  replay : w.node ∈ [.infraRetry, .guardReplay] →
    v.attempts = w.attempts - if w.launched then 1 else 0
  idle : w.node ∉ [.builder, .infraRetry, .guardReplay] →
    v.attempts = w.attempts ∧ v.launched = w.launched

/-- A refused geometry leaves no sound mesh. -/
theorem soundAttempts_of_refused {reviewed : ReviewedRun} {answers : MeshAnswers}
    (h : reviewed.run.state.geometryUnsuitableReason = true) :
    (reviewed.work cfg.settings.graph answers).soundAttempts = reviewed.soundAttempts := by
  by_cases hnode : reviewed.run.node = .executor
  · simp only [ReviewedRun.work, hnode, ReviewedRun.afterExecutor, h, true_or, if_true]
    split <;> rfl
  · exact EngineRun.soundAttempts_work hnode

theorem step_spec (h : w.step cfg l = some v) : Stepped cfg w l v := by
  obtain ⟨run, hrun, hv⟩ := Option.map_eq_some_iff.mp h
  obtain ⟨hreviewed, hrunEq⟩ := EngineRun.step_spec hrun
  obtain ⟨hgraph, hreviewedEq⟩ := ReviewedRun.step_spec hreviewed
  have hrunOf : v.run = run := by
    rw [← hv]
    dsimp only
    split <;> rfl
  constructor
  · rw [hrunOf]
    exact hgraph
  · rw [hrunOf, hrunEq]
  · rw [hrunOf, hrunEq]
  · intro hnode
    rw [hrunOf, hreviewedEq]
    obtain hnode | hunfit := hnode
    · exact EngineRun.soundAttempts_work hnode
    · exact soundAttempts_of_refused hunfit
  · intro hnode
    simp [← hv, hnode]
  · intro hnode
    simp only [List.mem_cons, List.not_mem_nil, or_false] at hnode
    obtain hnode | hnode := hnode <;> simp [← hv, hnode]
  · intro hnode
    rw [← hv]
    dsimp only
    split
    · next hat => exact absurd hnode (by simp [hat])
    · next hat => exact absurd hnode (by simp [hat])
    · next hat => exact absurd hnode (by simp [hat])
    · exact ⟨rfl, rfl⟩

/-- A turn that stops ends the run. -/
theorem unstopped_step {cfg : GraphSettings} {r r' : GraphRun} {a : Answers}
    (h : r.state.builderStop = none) (hstep : r.step cfg a = some r') :
    r'.node = .END ∨ r'.state.builderStop = none := by
  cases hnode : r.node with
  | END => simp [GraphRun.step, hnode] at hstep
  | builder =>
    simp only [GraphRun.step, hnode, Option.some.injEq] at hstep
    subst hstep
    by_cases hstop : (nodeBuilder cfg r.state a.turn).builderStop.isSome
    · exact .inl (if_pos hstop)
    · exact .inr (by simpa [GraphRun.move] using hstop)
  | _ =>
    right
    simp only [GraphRun.step, hnode, Option.some.injEq] at hstep
    rw [← h, ← hstep]
    simp only [GraphRun.move, nodeIntake, nodeGeometryAdmission, nodeExecutor, nodeClassifier,
      nodeEngineFallback, nodeReviewer, nodeInfraRetry, nodeReviewRetry, nodeGuardReplay,
      nodeDeliverSound]
    repeat' split
    all_goals rfl


theorem mesherStarted_of_same {s s' : LadderState}
    (hgeometry : s'.pipeline.geometryUnsuitableReason = s.pipeline.geometryUnsuitableReason)
    (hsuccess : s'.pipeline.executorSuccess = s.pipeline.executorSuccess)
    (hreport : s'.report = s.report) : mesherStarted s' = mesherStarted s := by
  simp only [mesherStarted, hgeometry, hsuccess, hreport]

/-- A step that leaves alone what is counted of a judged attempt. -/
theorem counted_of_same (hfit : w.pipeline.geometryUnsuitableReason = false)
    (hsettled : Settled (mark w.pipeline.retryCount (mesherStarted (w.run.state cfg))
      (marks w.run.record.attempts)) w.pipeline.retryCount w.attempts)
    (hnode : v.node ∈ judgedNodes) (hretry : v.pipeline.retryCount = w.pipeline.retryCount)
    (hgeometry : v.pipeline.geometryUnsuitableReason = w.pipeline.geometryUnsuitableReason)
    (hmesher : mesherStarted (v.run.state cfg) = mesherStarted (w.run.state cfg))
    (hattempts : v.run.record.attempts = w.run.record.attempts) (hcount : v.attempts = w.attempts) :
    v.Counted cfg := by
  refine .judged hnode (hgeometry.trans hfit) ?_
  rw [hretry, hmesher, hattempts, hcount]
  exact hsettled

/-- Before the first attempt nothing is counted. -/
theorem counted_unstarted (hfit : v.pipeline.geometryUnsuitableReason = false)
    (hnumber : v.pipeline.retryCount = 0) (hcount : v.attempts = 0)
    (hattempts : v.run.record.attempts = []) (hsounds : v.run.reviewed.soundAttempts = [])
    (hnode : v.node.opening = true ∨ v.node = .builder ∨ v.node ∈ judgedNodes) :
    v.Counted cfg := by
  have hempty : Settled (marks v.run.record.attempts) v.pipeline.retryCount v.attempts := by
    rw [hattempts, hnumber, hcount]
    exact ⟨by simp [marks], by simp [marks, notMade]⟩
  obtain hnode | hnode | hnode := hnode
  · exact .opening hnode hfit hnumber hcount hattempts hsounds
  · exact .turn hnode hfit hempty (.inl hnumber)
  · refine .judged hnode hfit ?_
    rw [mark_of_mem _ (.inl hnumber)]
    exact hempty

theorem counted_opening (hstep : Stepped cfg w l v) (hat : w.node.opening = true)
    (hfit : w.pipeline.geometryUnsuitableReason = false) (hnumber : w.pipeline.retryCount = 0)
    (hcount : w.attempts = 0) (hattempts : w.run.record.attempts = [])
    (hsounds : w.run.reviewed.soundAttempts = []) : v.Counted cfg := by
  have hgraph := hstep.graph
  have hidle : v.attempts = 0 := by
    refine (hstep.idle fun hnode => ?_).1.trans hcount
    simp only [List.mem_cons, List.not_mem_nil, or_false] at hnode
    obtain hnode | hnode | hnode := hnode <;> simp [hnode, Node.opening] at hat
  have hsame : v.run.reviewed.soundAttempts = [] := by
    refine (hstep.sounds (.inl fun hnode => ?_)).trans hsounds
    simp [hnode, Node.opening] at hat
  have hrecord := hstep.record
  simp only [node, pipeline] at hat hfit hnumber
  cases hnode : w.run.reviewed.run.node with
  | intake =>
    simp only [GraphRun.step, hnode, Option.some.injEq] at hgraph
    have hkept : v.run.record.attempts = [] := by simpa only [hrecord, EngineRun.work, hnode]
    refine counted_unstarted ?_ ?_ hidle hkept hsame ?_
    · simpa only [pipeline, ← hgraph]
    · simpa only [pipeline, ← hgraph]
    · simp only [node, ← hgraph, GraphRun.move, routeAfterIntake]
      split <;> simp [Node.opening, judgedNodes]
  | engineSelect =>
    simp only [GraphRun.step, hnode, Option.some.injEq] at hgraph
    have hkept : v.run.record.attempts = [] := by
      simp only [hrecord, EngineRun.work, hnode]
      exact (EngineRun.seedMeasuredOrder_same _ _).2.trans hattempts
    refine counted_unstarted ?_ ?_ hidle hkept hsame ?_
    · simpa only [pipeline, ← hgraph]
    · simpa only [pipeline, ← hgraph]
    · simp only [node, ← hgraph, GraphRun.move, routeAfterEngineSelect]
      split <;> simp [Node.opening, judgedNodes]
  | repairInspect | repairAttempt =>
    simp only [GraphRun.step, hnode, Option.some.injEq] at hgraph
    have hkept : v.run.record.attempts = [] := by simpa only [hrecord, EngineRun.work, hnode]
    refine counted_unstarted ?_ ?_ hidle hkept hsame ?_
    · simpa only [pipeline, ← hgraph]
    · simpa only [pipeline, ← hgraph]
    · simp [node, ← hgraph, GraphRun.move, Node.opening]
  | geometryAdmission =>
    simp only [GraphRun.step, hnode, Option.some.injEq] at hgraph
    have hkept : v.run.record.attempts = [] := by simpa only [hrecord, EngineRun.work, hnode]
    by_cases hrefused : (w.answered cfg l).geometryRefused
    · refine .refused ?_ ?_ hidle ?_ hsame
      · simp [node, ← hgraph, GraphRun.move, routeAfterGeometryAdmission, nodeGeometryAdmission,
          hrefused]
      · simp [pipeline, ← hgraph, GraphRun.move, nodeGeometryAdmission, hrefused]
      · simp [pipeline, ← hgraph, GraphRun.move, nodeGeometryAdmission, hrefused]
    · simp only [nodeGeometryAdmission, hrefused, Bool.false_eq_true, if_false] at hgraph
      refine counted_unstarted ?_ ?_ hidle hkept hsame ?_
      · simpa only [pipeline, ← hgraph]
      · simpa only [pipeline, ← hgraph]
      · simp [node, ← hgraph, GraphRun.move, routeAfterGeometryAdmission, hfit]
  | _ => simp [hnode, Node.opening] at hat

/-- A turn of the builder. -/
theorem counted_turn (hstep : Stepped cfg w l v) (hnode : w.node = .builder)
    (hfit : w.pipeline.geometryUnsuitableReason = false)
    (hsettled : Settled (marks w.run.record.attempts) w.pipeline.retryCount w.attempts)
    (hmarked : w.pipeline.retryCount = 0 ∨
      w.pipeline.retryCount ∈ (marks w.run.record.attempts).map (·.1))
    (hfresh : w.pipeline.builderStop = none) (hcounts : w.TurnCounts cfg l) : v.Counted cfg := by
  have hgraph := hstep.graph
  have hrecord := hstep.record
  have hreport := hstep.report
  obtain ⟨hcount, hlaunched⟩ := hstep.turn hnode
  have hat : w.run.reviewed.run.node = .builder := hnode
  simp only [GraphRun.step, hat, Option.some.injEq] at hgraph
  have hturn : (w.answered cfg l).turn = l.1.mesh.answers.turn := rfl
  rw [hturn] at hgraph
  have hattempts : v.run.record.attempts = w.run.record.attempts := by
    simp only [hrecord, EngineRun.work, hat]
  have hgeometry : v.pipeline.geometryUnsuitableReason = false := by
    rw [← hfit]
    simp only [pipeline, ← hgraph]
    rfl
  have hretry : v.pipeline.retryCount =
      (l.1.mesh.answers.turn.patch cfg.settings.graph w.pipeline).retryCount := by
    simp only [pipeline, ← hgraph]
    rfl
  have hmesher : mesherStarted (v.run.state cfg) = mesherStarted (w.run.state cfg) := by
    refine mesherStarted_of_same (hgeometry.trans hfit.symm) ?_ ?_
    · simp only [EngineRun.state, ← hgraph]
      rfl
    · simp only [EngineRun.state, hreport, EngineRun.work, hat]
  obtain ⟨hfree, hstopped, hfailed⟩ := hcounts.1 hnode
  have hcounter := retryCount_of_not_forces hfree
  have hroute : v.node = routeAfterBuilder cfg.settings.graph
      (nodeBuilder cfg.settings.graph w.pipeline l.1.mesh.answers.turn) := by
    simp only [node, ← hgraph]
    rfl
  by_cases hstop : (l.1.mesh.answers.turn.patch cfg.settings.graph w.pipeline).stop.isSome = true
  · rw [if_pos hstop] at hcounter
    have hend := GraphRun.routeAfterBuilder_of_stop hstop
    have hidle : l.2 = false := hstopped hend
    rw [hend] at hroute
    refine .judged (by simp [hroute, judgedNodes]) hgeometry ?_
    rw [hretry, hcounter, hattempts, hcount, Nat.add_zero, mark_of_mem _ hmarked]
    simpa [hidle] using hsettled
  rw [if_neg hstop] at hcounter
  have hgoes : routeAfterBuilder cfg.settings.graph
      (nodeBuilder cfg.settings.graph w.pipeline l.1.mesh.answers.turn) ≠ .END := by
    have hnone : (nodeBuilder cfg.settings.graph w.pipeline
        l.1.mesh.answers.turn).builderStop = none := by
      simpa [nodeBuilder, TurnPatch.state, hfresh] using hstop
    unfold routeAfterBuilder
    grind
  have hpending (hnext : v.node ∈ [.executor, .infraRetry, .guardReplay]) : v.Counted cfg := by
    refine .pending hnext hgeometry w.pipeline.retryCount w.attempts ?_ ?_ ?_ ?_
    · exact hretry.trans hcounter
    · rw [hattempts]
      exact hsettled
    · rw [hattempts]
      exact hmarked
    · rw [hcount, hlaunched]
  obtain hr | hr | hr | ⟨hr, -⟩ := routeAfterBuilder_cases cfg.settings.graph
    (nodeBuilder cfg.settings.graph w.pipeline l.1.mesh.answers.turn)
  · exact absurd hr hgoes
  · have hread : l.2 = mesherStarted (w.run.state cfg) := hfailed hr
    refine .judged (by simp [hroute, hr, judgedNodes]) hgeometry ?_
    rw [hretry, hcounter, hattempts, hcount, hmesher, ← hread]
    exact hsettled.mark l.2
  · exact hpending (by simp [hroute, hr])
  · exact hpending (by simp [hroute, hr])

/-- The attempt is judged, unless a guard clock stopped it. -/
theorem counted_executor (hstep : Stepped cfg w l v) (hnode : w.node = .executor)
    (hfit : w.pipeline.geometryUnsuitableReason = false) {n before : Nat}
    (hnumber : w.pipeline.retryCount = n + 1)
    (hsettled : Settled (marks w.run.record.attempts) n before)
    (hmarked : n = 0 ∨ n ∈ (marks w.run.record.attempts).map (·.1))
    (hturns : w.attempts = before + if w.launched then 1 else 0) (hcounts : w.TurnCounts cfg l) :
    v.Counted cfg := by
  have hgraph := hstep.graph
  have hat : w.run.reviewed.run.node = .executor := hnode
  obtain ⟨hcount, hlaunched⟩ := hstep.idle (by simp [hnode])
  simp only [GraphRun.step, hat, Option.some.injEq] at hgraph
  have hattempts : v.run.record.attempts = w.run.record.attempts := by
    simp only [hstep.record, EngineRun.work, hat, (EngineRun.afterExecutor_same _ _).2.1]
  have hreport : v.run.report = l.1.report := by
    simp only [hstep.report, EngineRun.work, hat, EngineRun.afterExecutor]
    repeat' split
    all_goals rfl
  have hpipeline : v.pipeline = nodeExecutor w.pipeline (w.answered cfg l) := by
    simp only [pipeline, ← hgraph]
    rfl
  have hgeometry : v.pipeline.geometryUnsuitableReason = false := by
    rw [hpipeline, nodeExecutor, if_neg (by simp [hfit])]
    exact hfit
  have hretry : v.pipeline.retryCount = n + 1 := by
    rw [hpipeline, (sameCounters_nodeExecutor _ _).retry, hnumber]
  have hmesher : mesherStarted (v.run.state cfg) = w.launched := by
    rw [← hcounts.2 hnode hfit]
    refine mesherStarted_of_same (hgeometry.trans ?_) ?_ hreport
    · simp only [EngineRun.judged, nodeExecutor]
      split
      · exact hfit.symm
      · exact hfit.symm
    · exact congrArg PipelineState.executorSuccess hpipeline
  have hjudged (hnext : v.node ∈ judgedNodes) : v.Counted cfg := by
    refine .judged hnext hgeometry ?_
    rw [hretry, hmesher, hattempts, hcount, hturns]
    exact hsettled.mark w.launched
  have hroute : v.node = routeAfterExecutor cfg.settings.graph
      (nodeExecutor w.pipeline (w.answered cfg l)) (w.answered cfg l) := by
    simp only [node, ← hgraph]
    rfl
  obtain hr | hr | hr | ⟨hr, -⟩ | ⟨hr, -⟩ := routeAfterExecutor_cases cfg.settings.graph
    (nodeExecutor w.pipeline (w.answered cfg l)) (w.answered cfg l) <;> rw [hr] at hroute
  · exact hjudged (by simp [hroute, judgedNodes])
  · exact hjudged (by simp [hroute, judgedNodes])
  · exact hjudged (by simp [hroute, judgedNodes])
  · refine .pending (by simp [hroute]) hgeometry n before hretry ?_ ?_ ?_
    · rw [hattempts]
      exact hsettled
    · rw [hattempts]
      exact hmarked
    · rw [hcount, hlaunched, hturns]
  · exact hjudged (by simp [hroute, judgedNodes])

/-- A refused geometry ends the run, with no sound mesh to deliver. -/
theorem counted_refused (hstep : Stepped cfg w l v) (hnode : w.node = .executor)
    (hunfit : w.pipeline.geometryUnsuitableReason = true) (hcount : w.attempts = 0)
    (hspent : cfg.settings.graph.maxBuilderRetries < w.pipeline.retryCount)
    (hsounds : w.run.reviewed.soundAttempts = []) : v.Counted cfg := by
  have hgraph := hstep.graph
  have hat : w.run.reviewed.run.node = .executor := hnode
  simp only [GraphRun.step, hat, Option.some.injEq] at hgraph
  have hkept : (w.run.reviewed.work cfg.settings.graph (w.run.answers cfg l.1)).soundAttempts =
      [] := (soundAttempts_of_refused hunfit).trans hsounds
  have hnone : (w.answered cfg l).ladder.deliverableSound = none := by
    simp [answered, ReviewedRun.answersOf, hkept, deliverableSound]
  have hpipeline : v.pipeline = nodeExecutor w.pipeline (w.answered cfg l) := by
    simp only [pipeline, ← hgraph]
    rfl
  have hrefused : nodeExecutor w.pipeline (w.answered cfg l) =
      { w.pipeline with
        executorSuccess := false
        executorFailedGate := "geometry"
        executorFailureCause := some .geometryRejected } := if_pos hunfit
  have hend : v.node = .END := by
    have hroute : v.node = routeAfterExecutor cfg.settings.graph
        (nodeExecutor w.pipeline (w.answered cfg l)) (w.answered cfg l) := by
      simp only [node, ← hgraph]
      rfl
    rw [hroute, hrefused]
    simp [routeAfterExecutor, guardTripOf, retryCanHelp, soundOrEnd, hnone, Nat.not_le.mpr hspent]
  refine .refused (by simp [hend]) ?_ ((hstep.idle (by simp [hnode])).1.trans hcount) ?_ ?_
  · rw [hpipeline, hrefused]
    exact hunfit
  · rw [hpipeline, hrefused]
    exact hspent
  · exact (hstep.sounds (.inr hunfit)).trans hsounds

/-- An attempt that is run again gives its number back. -/
theorem counted_replay (hstep : Stepped cfg w l v) (hnode : w.node ∈ [.infraRetry, .guardReplay])
    (hfit : w.pipeline.geometryUnsuitableReason = false) {n : Nat}
    (hnumber : w.pipeline.retryCount = n + 1)
    {before : Nat} (hsettled : Settled (marks w.run.record.attempts) n before)
    (hmarked : n = 0 ∨ n ∈ (marks w.run.record.attempts).map (·.1))
    (hturns : w.attempts = before + if w.launched then 1 else 0) : v.Counted cfg := by
  have hgraph := hstep.graph
  have hcount : v.attempts = before := by
    rw [hstep.replay hnode, hturns, Nat.add_sub_cancel]
  have hkept : v.node = .builder ∧ v.pipeline.geometryUnsuitableReason = false ∧
      v.pipeline.retryCount = n ∧ v.run.record.attempts = w.run.record.attempts := by
    simp only [node, pipeline, List.mem_cons, List.not_mem_nil, or_false] at hnode hfit hnumber
    obtain hat | hat := hnode
    all_goals
      simp only [GraphRun.step, hat, Option.some.injEq] at hgraph
      refine ⟨?_, ?_, ?_, ?_⟩
      · simp only [node, ← hgraph, GraphRun.move]
      · simpa only [pipeline, ← hgraph]
      · simp [pipeline, ← hgraph, GraphRun.move, nodeInfraRetry, nodeGuardReplay, hnumber]
      · simp only [hstep.record, EngineRun.work, hat]
  obtain ⟨hnext, hgeometry, hretry, hattempts⟩ := hkept
  refine .turn hnext hgeometry ?_ ?_
  · rw [hattempts, hretry, hcount]
    exact hsettled
  · rw [hattempts, hretry]
    exact hmarked

/-- The failed attempt is put on the ladder's record, and the next one is built. -/
theorem counted_engineFallback (hstep : Stepped cfg w l v) (hnode : w.node = .engineFallback)
    (hfit : w.pipeline.geometryUnsuitableReason = false)
    (hsettled : Settled (mark w.pipeline.retryCount (mesherStarted (w.run.state cfg))
      (marks w.run.record.attempts)) w.pipeline.retryCount w.attempts) : v.Counted cfg := by
  have hgraph := hstep.graph
  have hat : w.run.reviewed.run.node = .engineFallback := hnode
  obtain ⟨hcount, -⟩ := hstep.idle (by simp [hnode])
  simp only [GraphRun.step, hat, Option.some.injEq] at hgraph
  have hpipeline : v.pipeline =
      nodeEngineFallback cfg.settings.graph w.pipeline (w.answered cfg l) := by
    simp only [pipeline, ← hgraph]
    rfl
  have hretry : v.pipeline.retryCount = w.pipeline.retryCount := by
    rw [hpipeline, (sameCounters_nodeEngineFallback _ _ _).retry]
  have hgeometry : v.pipeline.geometryUnsuitableReason = false := by
    rw [hpipeline, nodeEngineFallback]
    split <;> exact hfit
  have hattempts : marks v.run.record.attempts =
      mark w.pipeline.retryCount (mesherStarted (w.run.state cfg)) (marks w.run.record.attempts) := by
    rw [hstep.record]
    simp only [EngineRun.work, hat]
    rw [(EngineRun.record_afterEngineFallback cfg w.run l.1).2]
    refine (marks_withAttempt hfit _).trans ?_
    simp only [EngineRun.failed, withStagedPassages,
      (EngineRun.seedMeasuredOrder_same w.run.record l.1.measured).2]
    rfl
  refine .turn ?_ hgeometry ?_ ?_
  · simp only [node, ← hgraph, GraphRun.move]
  · rw [hattempts, hretry, hcount]
    exact hsettled
  · rw [hattempts, hretry]
    exact mem_mark _ _ _

/-- The run goes back to an earlier sound mesh, with the attempt it leaves on the record. -/
theorem counted_deliverSound (hstep : Stepped cfg w l v) (hnode : w.node = .deliverSound)
    (hfit : w.pipeline.geometryUnsuitableReason = false)
    (hsettled : Settled (mark w.pipeline.retryCount (mesherStarted (w.run.state cfg))
      (marks w.run.record.attempts)) w.pipeline.retryCount w.attempts) : v.Counted cfg := by
  have hgraph := hstep.graph
  have hat : w.run.reviewed.run.node = .deliverSound := hnode
  obtain ⟨hcount, -⟩ := hstep.idle (by simp [hnode])
  simp only [GraphRun.step, hat, Option.some.injEq] at hgraph
  have hpipeline : v.pipeline = nodeDeliverSound w.pipeline (w.answered cfg l) := by
    simp only [pipeline, ← hgraph]
    rfl
  have hretry : v.pipeline.retryCount = w.pipeline.retryCount := by
    rw [hpipeline, (sameCounters_nodeDeliverSound _ _).retry]
  have hgeometry : v.pipeline.geometryUnsuitableReason = w.pipeline.geometryUnsuitableReason := by
    rw [hpipeline, nodeDeliverSound]
    split <;> rfl
  have hnext : v.node ∈ judgedNodes := by
    simp only [node, ← hgraph, GraphRun.move]
    decide
  have hsounds : (w.run.reviewed.work cfg.settings.graph (w.run.answers cfg l.1)).soundAttempts =
      w.run.reviewed.soundAttempts := EngineRun.soundAttempts_work (by simp [hat])
  have hrecord := hstep.record
  have hreport := hstep.report
  simp only [EngineRun.work, hat] at hrecord hreport
  cases hbest : deliverableSound w.run.reviewed.soundAttempts l.1.mesh.reads with
  | none =>
    have hstays : w.run.afterDeliverSound cfg l.1 = w.run := by
      simp [EngineRun.afterDeliverSound, hbest]
    have hsame : v.pipeline = w.pipeline := by
      have hread : (w.answered cfg l).ladder.deliverableSound =
          (deliverableSound (w.run.reviewed.work cfg.settings.graph
            (w.run.answers cfg l.1)).soundAttempts l.1.mesh.reads).map (·.caveats) := rfl
      rw [hpipeline, nodeDeliverSound, hread, hsounds, hbest]
      rfl
    rw [hstays] at hrecord hreport
    refine counted_of_same hfit hsettled hnext hretry hgeometry ?_ ?_ hcount
    · exact mesherStarted_of_same hgeometry (congrArg PipelineState.executorSuccess hsame) hreport
    · rw [hrecord]
  | some best =>
    obtain ⟨-, hdelivered, -, -⟩ := EngineRun.afterDeliverSound_best cfg hbest
    rw [hdelivered] at hrecord
    have hsuccess : v.pipeline.executorSuccess = true := by
      have hread : (w.answered cfg l).ladder.deliverableSound =
          (deliverableSound (w.run.reviewed.work cfg.settings.graph
            (w.run.answers cfg l.1)).soundAttempts l.1.mesh.reads).map (·.caveats) := rfl
      rw [hpipeline, nodeDeliverSound, hread, hsounds, hbest]
      rfl
    have hmesher : mesherStarted (v.run.state cfg) = true := by
      have hfit' : (v.run.state cfg).pipeline.geometryUnsuitableReason = false :=
        hgeometry.trans hfit
      have hsuccess' : (v.run.state cfg).pipeline.executorSuccess = true := hsuccess
      simp [mesherStarted, hfit', hsuccess']
    by_cases hpassed : w.run.reviewed.run.state.executorSuccess = true
    · rw [if_pos hpassed] at hrecord
      refine counted_of_same hfit hsettled hnext hretry hgeometry ?_ (by rw [hrecord]) hcount
      have hfit' : (w.run.state cfg).pipeline.geometryUnsuitableReason = false := hfit
      have hpassed' : (w.run.state cfg).pipeline.executorSuccess = true := hpassed
      rw [hmesher]
      simp [mesherStarted, hfit', hpassed']
    · rw [if_neg hpassed] at hrecord
      have hattempts : marks v.run.record.attempts = mark w.pipeline.retryCount
          (mesherStarted (w.run.state cfg)) (marks w.run.record.attempts) := by
        rw [hrecord]
        exact marks_withAttempt (s := w.run.state cfg) hfit _
      refine .judged hnext (hgeometry.trans hfit) ?_
      -- the attempt is marked by now, whatever the delivered mesh would say of it
      rw [hattempts, hretry, hcount, mark_of_mem _ (mem_mark _ _ _)]
      exact hsettled

/-- The other nodes leave alone what is counted. -/
theorem counted_judged (hstep : Stepped cfg w l v)
    (hnode : w.node ∈ [.classifier, .reviewer, .reviewRetry, .failureHandler])
    (hfit : w.pipeline.geometryUnsuitableReason = false)
    (hsettled : Settled (mark w.pipeline.retryCount (mesherStarted (w.run.state cfg))
      (marks w.run.record.attempts)) w.pipeline.retryCount w.attempts) : v.Counted cfg := by
  have hgraph := hstep.graph
  obtain ⟨hcount, -⟩ := hstep.idle (by simp only [List.mem_cons] at hnode ⊢; grind)
  suffices hkept : v.node ∈ judgedNodes ∧ v.pipeline.retryCount = w.pipeline.retryCount ∧
      v.pipeline.geometryUnsuitableReason = w.pipeline.geometryUnsuitableReason ∧
      v.pipeline.executorSuccess = w.pipeline.executorSuccess ∧
      v.run.report = w.run.report ∧ v.run.record = w.run.record by
    obtain ⟨hnext, hretry, hgeometry, hsuccess, hreport, hrecord⟩ := hkept
    refine counted_of_same hfit hsettled hnext hretry hgeometry ?_ (by rw [hrecord]) hcount
    exact mesherStarted_of_same hgeometry hsuccess hreport
  simp only [node, List.mem_cons, List.not_mem_nil, or_false] at hnode
  obtain hat | hat | hat | hat := hnode
  · simp only [GraphRun.step, hat, Option.some.injEq] at hgraph
    refine ⟨?_, ?_, ?_, ?_, ?_, ?_⟩
    · simp [node, ← hgraph, GraphRun.move, judgedNodes]
    · simp only [pipeline, ← hgraph, GraphRun.move, (sameCounters_nodeClassifier _).retry]
    · simp only [pipeline, ← hgraph, GraphRun.move, nodeClassifier]
      repeat' split
      all_goals rfl
    · simp only [pipeline, ← hgraph, GraphRun.move, nodeClassifier]
      repeat' split
      all_goals rfl
    · simp only [hstep.report, EngineRun.work, hat]
    · simp only [hstep.record, EngineRun.work, hat]
  · simp only [GraphRun.step, hat, Option.some.injEq] at hgraph
    refine ⟨?_, ?_, ?_, ?_, ?_, ?_⟩
    · simp only [node, ← hgraph, GraphRun.move]
      obtain hr | hr | ⟨hr, -⟩ | ⟨hr, -⟩ := routeAfterReviewer_cases cfg.settings.graph
        (nodeReviewer w.run.reviewed.run.state (w.answered cfg l)) <;> simp [hr, judgedNodes]
    · simp only [pipeline, ← hgraph, GraphRun.move, (sameCounters_nodeReviewer _ _).retry]
    · simp only [pipeline, ← hgraph, GraphRun.move, nodeReviewer]
      repeat' split
      all_goals rfl
    · simp only [pipeline, ← hgraph, GraphRun.move, executorSuccess_nodeReviewer]
    · simp only [hstep.report, EngineRun.work, hat]
    · simp only [hstep.record, EngineRun.work, hat]
  all_goals
    simp only [GraphRun.step, hat, Option.some.injEq] at hgraph
    refine ⟨?_, ?_, ?_, ?_, ?_, ?_⟩
    · simp [node, ← hgraph, GraphRun.move, judgedNodes]
    · simp [pipeline, ← hgraph, GraphRun.move, nodeReviewRetry]
    · simp [pipeline, ← hgraph, GraphRun.move, nodeReviewRetry]
    · simp [pipeline, ← hgraph, GraphRun.move, nodeReviewRetry]
    · simp only [hstep.report, EngineRun.work, hat]
    · simp only [hstep.record, EngineRun.work, hat]

theorem counted_step (h : w.Counted cfg) (hfresh : w.node = .END ∨ w.pipeline.builderStop = none)
    (hcounts : w.TurnCounts cfg l) (hstep : Stepped cfg w l v) : v.Counted cfg := by
  have hlive : w.node ≠ .END := by
    intro hend
    have hgraph := hstep.graph
    have hat : w.run.reviewed.run.node = .END := hend
    simp [GraphRun.step, hat] at hgraph
  cases h with
  | opening hat hfit hnumber hnone hrecord hsounds =>
    exact counted_opening hstep hat hfit hnumber hnone hrecord hsounds
  | turn hat hfit hsettled hmarked =>
    exact counted_turn hstep hat hfit hsettled hmarked (hfresh.resolve_left hlive) hcounts
  | pending hat hfit n before hnumber hsettled hmarked hturns =>
    simp only [List.mem_cons, List.not_mem_nil, or_false] at hat
    obtain hat | hat | hat := hat
    · exact counted_executor hstep hat hfit hnumber hsettled hmarked hturns hcounts
    · exact counted_replay hstep (by simp [hat]) hfit hnumber hsettled hmarked hturns
    · exact counted_replay hstep (by simp [hat]) hfit hnumber hsettled hmarked hturns
  | judged hat hfit hsettled =>
    simp only [judgedNodes, List.mem_cons, List.not_mem_nil, or_false] at hat
    obtain hat | hat | hat | hat | hat | hat | hat := hat
    · exact counted_judged hstep (by simp [hat]) hfit hsettled
    · exact counted_engineFallback hstep hat hfit hsettled
    · exact counted_judged hstep (by simp [hat]) hfit hsettled
    · exact counted_judged hstep (by simp [hat]) hfit hsettled
    · exact counted_deliverSound hstep hat hfit hsettled
    · exact counted_judged hstep (by simp [hat]) hfit hsettled
    · exact absurd hat hlive
  | refused hat hunfit hnone hspent hsounds =>
    simp only [List.mem_cons, List.not_mem_nil, or_false] at hat
    obtain hat | hat := hat
    · exact counted_refused hstep hat hunfit hnone hspent hsounds
    · exact absurd hat hlive

theorem counted_start (cfg : LadderWorld) (dispute : Option DisputeMode) (engine : String)
    (params : EngineParams) : (start dispute engine params).Counted cfg :=
  counted_unstarted rfl rfl rfl rfl rfl (.inl rfl)

/-- A run whose turns all count shows, when it ends, the number of its attempts that started a
mesher. -/
theorem shows_attempts_of_turns_count (cfg : LadderWorld) (dispute : Option DisputeMode)
    (engine : String) (params : EngineParams) (ls : List (EngineAnswers × Bool)) (w : CountedRun)
    (hcounts : (machine cfg).Meets (TurnCounts cfg) (start dispute engine params) ls)
    (hrun : (machine cfg).exec (start dispute engine params) ls = some w) :
    w.ShowsAttempts cfg := by
  have hkept : w.Counted cfg ∧ (w.node = .END ∨ w.pipeline.builderStop = none) := by
    refine Transition.Machine.exec_invariant
      (I := fun w => Counted cfg w ∧ (w.node = .END ∨ w.pipeline.builderStop = none)) ?_
      ⟨counted_start cfg dispute engine params, .inr rfl⟩ hcounts hrun
    intro w l v h hcounts hstep
    have hstepped := step_spec hstep
    refine ⟨counted_step h.1 h.2 hcounts hstepped, ?_⟩
    obtain hend | hfresh := h.2
    · have hgraph := hstepped.graph
      have hat : w.run.reviewed.run.node = .END := hend
      simp [GraphRun.step, hat] at hgraph
    · exact unstopped_step hfresh hstepped.graph
  exact showsAttempts_of_counted hkept.1

/-! ## A run with an attempt that is run again -/

open EngineRun (passes twoEngines)

/-- A guard clock stops the mesher. -/
def stopped : EngineAnswers :=
  let l := passes true 1
  { l with
    mesh := { l.mesh with answers := { l.mesh.answers with
      execution := ⟨false, "guard", some .engineTimedOut, { FailureFacts.empty with guard := true },
        false⟩ } }
    report := { l.report with meshersStarted := some 1 } }

/-- A mesh that its review is content with. -/
def accepted : EngineAnswers :=
  let l := passes true 1
  { l with mesh := { l.mesh with
      answers := { l.mesh.answers with review := .concluded .PASS [] false }
      resolutionNote := none } }

/-- The first attempt is stopped by a guard clock and run again. -/
def replayedRun : List (EngineAnswers × Bool) :=
  List.replicate 7 (stopped, true) ++ List.replicate 4 (accepted, true)

theorem replayed_run_shows_attempts :
    ∃ w, (machine twoEngines).exec (start none "snappyhexmesh" []) replayedRun = some w ∧
      w.node = .END ∧ w.attempts = 1 ∧ w.ShowsAttempts twoEngines := by
  refine ⟨_, rfl, by decide +kernel, by decide +kernel, ?_⟩
  exact shows_attempts_of_turns_count twoEngines none "snappyhexmesh" [] replayedRun _
    (by decide +kernel) rfl

/-- Both turns of the attempt start a mesher, and it is shown as one. -/
theorem replayed_turns_shown_once :
    ¬ ∀ ls w, (machine twoEngines).exec (start none "snappyhexmesh" []) ls = some w →
      w.node = .END → attemptsMade twoEngines.registry (w.run.state twoEngines) = w.turns := by
  intro hall
  obtain ⟨w, hw, hend, hmade, hturns⟩ : ∃ w,
      (machine twoEngines).exec (start none "snappyhexmesh" []) replayedRun = some w ∧
        w.node = .END ∧ attemptsMade twoEngines.registry (w.run.state twoEngines) = 1 ∧
        w.turns = 2 :=
    ⟨_, rfl, by decide +kernel, by decide +kernel, by decide +kernel⟩
  exact absurd (hmade.symm.trans ((hall replayedRun w hw hend).trans hturns)) (by decide)

end CountedRun

end MeshPipeline.Pipeline
