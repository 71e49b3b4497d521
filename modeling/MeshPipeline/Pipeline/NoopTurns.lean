import Mathlib.Data.List.Basic
import MeshPipeline.Pipeline.Termination

/-!
# The no-ops that spend the retry budget

A turn that leaves the authored case as it found it is a no-op, and the detector takes the remaining
attempts away once it has counted enough of them. The count is carried in the state of the graph, and
a turn that is no no-op carries it on.
-/

namespace MeshPipeline.Pipeline

namespace BuilderTurn

variable (cfg : GraphSettings) (s : PipelineState) (t : BuilderTurn)

/-- The turn builds, and the case it leaves is compared with the one it found. -/
def assessed : Bool := (t.unbuilt s).isNone && t.staging.isNone && t.apiFailure.isNone

/-- The turn leaves the authored case as it found it. -/
def leavesCase : Bool := t.assessed s && (t.noops cfg s).repeated

/-- The no-op detector takes the remaining attempts away at this turn. -/
def spendsBudget : Bool :=
  t.assessed s && !t.repeatsReview cfg s && decide (Noop.limit ≤ (t.noops cfg s).consecutive)

end BuilderTurn

/-- A run with what the turns of its builder did. -/
structure TurnedRun where
  run : GraphRun
  /-- For each turn, the last one first, whether it left the case as it found it. A ghost. -/
  turns : List Bool
  deriving DecidableEq, Repr

namespace TurnedRun

variable (cfg : GraphSettings)

def step (w : TurnedRun) (a : Answers) : Option TurnedRun :=
  (w.run.step cfg a).map fun run =>
    { run := run
      turns :=
        if w.run.node = .builder then a.turn.leavesCase cfg w.run.state :: w.turns else w.turns }

def machine : Transition.Machine TurnedRun Answers := ⟨step cfg⟩

def start (dispute : Option DisputeMode) : TurnedRun := ⟨GraphRun.start dispute, []⟩

/-- The budget is spent only at the last of `NOOP_LIMIT` turns in a row that left the case alone. -/
def SpentInARow (w : TurnedRun) (a : Answers) : Prop :=
  w.run.node = .builder → a.turn.spendsBudget cfg w.run.state = true →
    List.replicate Noop.limit true <+: a.turn.leavesCase cfg w.run.state :: w.turns

/-- A turn that is no no-op is made while none is counted. -/
def CarriesNothing (w : TurnedRun) (a : Answers) : Prop :=
  w.run.node = .builder → a.turn.leavesCase cfg w.run.state = false →
    w.run.state.builderNoopCount = 0

instance (w : TurnedRun) (a : Answers) : Decidable (w.SpentInARow cfg a) :=
  inferInstanceAs (Decidable (_ → _ → _))

instance (w : TurnedRun) (a : Answers) : Decidable (w.CarriesNothing cfg a) :=
  inferInstanceAs (Decidable (_ → _ → _))

/-- The no-ops that are counted are the last turns. -/
def Counted (w : TurnedRun) : Prop :=
  List.replicate w.run.state.builderNoopCount true <+: w.turns

end TurnedRun

variable {cfg : GraphSettings} {s : PipelineState} {t : BuilderTurn}

theorem consecutive_noops :
    (t.noops cfg s).consecutive =
      s.builderNoopCount + if (t.noops cfg s).repeated then 1 else 0 := by
  simp only [BuilderTurn.noops, Noop.assess]
  grind

/-- Every exit of the turn carries the count on, but the one that assesses it. -/
theorem noopCount_nodeBuilder :
    (nodeBuilder cfg s t).builderNoopCount =
      if t.assessed s && !t.repeatsReview cfg s then (t.noops cfg s).consecutive
      else s.builderNoopCount := by
  unfold nodeBuilder BuilderTurn.patch BuilderTurn.assessed
  split
  · next hunbuilt =>
    unfold stopWithoutBuilding
    split <;> simp [TurnPatch.state, hunbuilt]
  · next hunbuilt hstaging => simp [TurnPatch.state, hunbuilt, hstaging]
  · next hunbuilt hstaging => simp [TurnPatch.state, hunbuilt, hstaging]
  · next hunbuilt hstaging hfailure => simp [TurnPatch.state, hunbuilt, hstaging, hfailure]
  · next hunbuilt hstaging hfailure =>
    split
    · next hreview => simp [TurnPatch.state, hreview]
    · next hreview => simp [TurnPatch.state, hunbuilt, hstaging, hfailure, hreview]

/-- Away from the builder the count stands, or another engine starts afresh. -/
theorem noopCount_step {w v : GraphRun} {a : Answers} (hstep : w.step cfg a = some v)
    (hnode : w.node ≠ .builder) :
    v.state.builderNoopCount = w.state.builderNoopCount ∨ v.state.builderNoopCount = 0 := by
  unfold GraphRun.step at hstep
  split at hstep
  case h_6 hbuilder => exact absurd hbuilder hnode
  case h_16 => cases hstep
  all_goals obtain rfl := Option.some.inj hstep
  case h_5 =>
    unfold nodeGeometryAdmission
    split <;> exact .inl rfl
  case h_7 =>
    unfold nodeExecutor
    split <;> exact .inl rfl
  case h_8 =>
    unfold nodeClassifier GraphRun.move
    grind
  case h_9 =>
    unfold nodeEngineFallback
    split
    · exact .inr rfl
    · exact .inl rfl
  case h_10 =>
    unfold nodeReviewer GraphRun.move
    grind
  case h_14 =>
    unfold nodeDeliverSound
    split <;> exact .inl rfl
  all_goals exact .inl rfl

theorem replicate_of_le {m n : Nat} (h : m ≤ n) :
    List.replicate m true <+: List.replicate n true :=
  List.prefix_replicate_iff.mpr ⟨by simpa using h, by simp⟩

namespace TurnedRun

variable {w v : TurnedRun} {a : Answers} {dispute : Option DisputeMode}

/-- A turn made under the condition counts itself, or leaves nothing counted. -/
theorem counted_builder (h : w.Counted) (hcarries : w.CarriesNothing cfg a)
    (hnode : w.run.node = .builder) :
    List.replicate (nodeBuilder cfg w.run.state a.turn).builderNoopCount true <+:
      a.turn.leavesCase cfg w.run.state :: w.turns := by
  rw [noopCount_nodeBuilder]
  cases hleaves : a.turn.leavesCase cfg w.run.state with
  | false =>
    have hzero := hcarries hnode hleaves
    split
    · next hassessed =>
      have hrepeated : (a.turn.noops cfg w.run.state).repeated = false := by
        simp only [BuilderTurn.leavesCase, Bool.and_eq_true, Bool.and_eq_false_iff]
          at hassessed hleaves
        grind
      simp [consecutive_noops, hzero, hrepeated]
    · simp [hzero]
  | true =>
    have hcounted : List.replicate (w.run.state.builderNoopCount + 1) true <+: true :: w.turns :=
      List.cons_prefix_cons.mpr ⟨rfl, h⟩
    split
    · refine (replicate_of_le ?_).trans hcounted
      rw [consecutive_noops]
      split <;> omega
    · exact (replicate_of_le (by omega)).trans hcounted

theorem counted_step (h : w.Counted) (hcarries : w.CarriesNothing cfg a)
    (hstep : w.step cfg a = some v) : v.Counted := by
  obtain ⟨run, hrun, rfl⟩ := Option.map_eq_some_iff.mp hstep
  unfold Counted
  by_cases hnode : w.run.node = .builder
  · have hstate : run.state = nodeBuilder cfg w.run.state a.turn := by
      simp only [GraphRun.step, hnode] at hrun
      rw [← Option.some.inj hrun]
      rfl
    simpa [hnode, hstate] using counted_builder h hcarries hnode
  · simp only [hnode, if_false]
    obtain hkept | hzero := noopCount_step hrun hnode
    · rw [hkept]
      exact h
    · simp [hzero]

theorem spentInARow_of_counted (h : w.Counted) (hcarries : w.CarriesNothing cfg a) :
    w.SpentInARow cfg a := by
  intro hnode hspends
  simp only [BuilderTurn.spendsBudget, Bool.and_eq_true, decide_eq_true_eq] at hspends
  obtain ⟨hassessed, hlimit⟩ := hspends
  have hcount := counted_builder h hcarries hnode
  rw [noopCount_nodeBuilder, if_pos (by simpa using hassessed)] at hcount
  exact (replicate_of_le hlimit).trans hcount

theorem counted_start (dispute : Option DisputeMode) : (start dispute).Counted := List.nil_prefix

/-- In a run whose turns, but for the no-ops, are made while no no-op is counted, the budget is only
spent by no-ops in a row. -/
theorem spent_by_noops_in_a_row (cfg : GraphSettings) (dispute : Option DisputeMode)
    (answers : List Answers) (h : (machine cfg).Meets (CarriesNothing cfg) (start dispute) answers) :
    (machine cfg).Meets (SpentInARow cfg) (start dispute) answers :=
  Transition.Machine.meets_of_invariant (I := Counted)
    (fun _ _ _ hcounted hcarries hstep => counted_step hcounted hcarries hstep)
    (fun _ _ hcounted hcarries => spentInARow_of_counted hcounted hcarries)
    (counted_start dispute) h

/-- Four retries are allowed, and the builder is asked until it has made two of them. -/
def fourRetries : GraphSettings := { GraphSettings.default with maxBuilderRetries := 4 }

/-- The builder's retries are two no-ops. -/
theorem spent_by_noops_in_a_row_twice :
    (machine fourRetries).Meets (SpentInARow fourRetries) (start none)
      (List.replicate 14 GraphRun.unchanged) :=
  spent_by_noops_in_a_row fourRetries none _ (by decide +kernel)

/-- A no-op, a revised case and a no-op: the last turn spends the attempts that are left. -/
theorem spent_by_noops_apart :
    ¬ ∀ (cfg : GraphSettings) (dispute : Option DisputeMode) (answers : List Answers),
      (machine cfg).Meets (SpentInARow cfg) (start dispute) answers := by
  intro hall
  have hspent := hall fourRetries none (List.replicate 10 GraphRun.unchanged ++
    List.replicate 4 { GraphRun.unchanged with turn := GraphRun.turn "revised case" } ++
    List.replicate 4 GraphRun.unchanged)
  revert hspent
  decide +kernel

end TurnedRun

end MeshPipeline.Pipeline
