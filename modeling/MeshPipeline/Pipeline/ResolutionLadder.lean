import MeshPipeline.Library.DecimalRound
import MeshPipeline.Library.Text
import MeshPipeline.Pipeline.Graph

/-!
# The resolution ladder

A sound mesh that is short of the resolution floor sends the next attempt up one rung, which sizes
its narrow spots finer by a factor. The rung a run is on lies in its state; the attempt reads it from
a fact beside its case.
-/

namespace MeshPipeline.Pipeline

namespace ResolutionPolicy

/-- `RUNG_FACTORS`. -/
def rungFactors : List ℚ := [1, 3 / 2, 2]

/-- `RUNG_CAP`. -/
def rungCap : ℚ := 3

/-- `ROOM_SHARE`. -/
def roomShare : ℚ := 9 / 10

inductive CaveatKind
  | resolutionShort | overCellLimit | domainExtent
  deriving DecidableEq, Repr

/-- What the floor measured: the cells across the narrowest gap and the floor itself. -/
structure Shortfall where
  cellsAcross : Option ℚ
  needed : Option ℚ
  deriving DecidableEq, Repr

/-- The attempt's narrow-gap plan as a note keeps it. -/
structure GapPlan where
  status : String
  budget : Option ℚ
  limit : Option ℚ
  deriving DecidableEq, Repr

/-- A requirement caveat, as far as the ladder reads it. -/
structure Caveat where
  kind : CaveatKind
  cells : Option ℚ
  cellLimit : Option ℚ
  plan : Option GapPlan
  facts : Shortfall
  deriving DecidableEq, Repr

/-- The run's ladder record. -/
structure Rungs where
  rung : Nat
  engine : Option String
  switched : Bool
  afterSwitch : Bool
  factor : Option ℚ
  measured : Option ℚ
  floor : Option ℚ
  deriving DecidableEq, Repr

/-- The workspace fact an attempt is built from. -/
structure RungFact where
  rung : Nat
  factor : ℚ
  measured : Option ℚ
  floor : Option ℚ
  engine : String
  deriving DecidableEq, Repr

/-- The state the policy reads. A success leaves no failure cause. -/
structure State where
  pipeline : PipelineState
  engine : String
  /-- The floor's facts among `executor_failure_facts`. -/
  shortfall : Option Shortfall
  caveats : List Caveat
  /-- The engine ladder's record lists a switch. -/
  movedEngines : Bool
  ladder : Rungs
  cleared : pipeline.executorSuccess → pipeline.executorFailureCause = none

/-! ## The factor of a rung -/

/-- What a measured shortfall needs. -/
def need (measured floor : Option ℚ) : ℚ :=
  match measured, floor with
  | some m, some f => if 0 < m ∧ f ≠ 0 then (f + 1) / m else 0
  | _, _ => 0

/-- The factor of the table. -/
def base (rung : Nat) : ℚ := rungFactors.getD (min rung (rungFactors.length - 1)) 1

/-- `rung_factor`. -/
def rungFactor (rung : Nat) (measured floor : Option ℚ) : ℚ :=
  if rung = 0 then 1
  else DecimalRound.round 3 (min rungCap (max (base rung) (need measured floor)))

/-- `fact_for`: none at rung 0, which builds the plan as it is. -/
def factFor (s : State) : Option RungFact :=
  if s.ladder.rung = 0 then none
  else some
    { rung := s.ladder.rung
      factor := (s.ladder.factor.filter (· ≠ 0)).getD (rungFactor s.ladder.rung none none)
      measured := s.ladder.measured
      floor := s.ladder.floor
      engine := (s.ladder.engine.filter (· ≠ "")).getD s.engine }

/-- `factor_of`, of the attempt that is built from the state. -/
def factorOf (s : State) : ℚ :=
  match factFor s with
  | none => 1
  | some fact => if 1 ≤ fact.factor then fact.factor else 1

/-! ## The router's questions -/

/-- `resolution_caveat`. -/
def resolutionCaveat (s : State) : Option Caveat :=
  s.caveats.find? (·.kind = .resolutionShort)

/-- `under_resolved_facts`. -/
def underResolvedFacts (s : State) : Option Shortfall :=
  if s.pipeline.executorFailureCause = some .underResolved then s.shortfall
  else if s.pipeline.executorSuccess then (resolutionCaveat s).map (·.facts)
  else none

/-- `HELD_PLANS`. -/
def heldPlans : List String := ["limited", "over_limit", "accepted_fewer"]

/-- The plan was held with the whole one-job limit as its budget. -/
def planHeld (plan : GapPlan) : Bool :=
  decide (plan.status ∈ heldPlans) &&
    match plan.budget, plan.limit with
    | some budget, some limit => decide (0 < limit ∧ 999 / 1000 * limit ≤ budget)
    | _, _ => false

/-- `_over_limit`: no room is left to refine. -/
def overLimit (c : Caveat) : Bool :=
  c.plan.any planHeld ||
    match c.cells, c.cellLimit with
    | some cells, some limit => decide (0 < limit ∧ roomShare * limit ≤ cells)
    | _, _ => false

/-- `rung_left`. -/
def rungLeft (s : State) : Bool := s.ladder.rung + 1 < rungFactors.length

/-- `retry_can_change`. -/
def retryCanChange (s : State) : Bool :=
  s.caveats.any fun c =>
    match c.kind with
    | .resolutionShort => rungLeft s && !overLimit c
    | .overCellLimit => false
    | .domainExtent => true

/-- `switched`. -/
def switched (s : State) : Bool := s.movedEngines || s.ladder.switched

/-- `rung_after_switch` but for the ceiling of attempts. -/
def rungAfterSwitch (s : State) : Bool :=
  (resolutionCaveat s).any fun c =>
    switched s && s.ladder.rung == 0 && !s.ladder.afterSwitch && rungLeft s && !overLimit c

/-- The pipeline state the router sees. -/
def routed (s : State) : PipelineState :=
  { s.pipeline with requirementCaveats := !s.caveats.isEmpty }

/-- The policy's answers to the router, beside the answers of others. -/
def answers (s : State) (a : Answers) : Answers :=
  { a with ladder := { a.ladder with
      retryCanChange := retryCanChange s
      rungAfterSwitch := rungAfterSwitch s } }

/-! ## The ladder of the next attempt -/

/-- `next_ladder`; `switchTo` is the engine the run moves to. -/
def nextLadder (s : State) (switchTo : Option String) : Rungs :=
  match switchTo.filter fun next => next ≠ "" && next ≠ s.engine with
  | some next =>
    { rung := 0, engine := some next, switched := true, afterSwitch := false, factor := none
      measured := none, floor := none }
  | none =>
    match underResolvedFacts s with
    | none => { s.ladder with engine := some (s.ladder.engine.getD s.engine) }
    | some facts =>
      let rung := min (s.ladder.rung + 1) (rungFactors.length - 1)
      { rung := rung
        engine := some s.engine
        switched := s.ladder.switched
        afterSwitch := s.ladder.afterSwitch ||
          (s.ladder.switched && s.ladder.rung == 0 && decide (1 < s.pipeline.retryCount))
        factor := some (rungFactor rung facts.cellsAcross facts.needed)
        measured := facts.cellsAcross
        floor := facts.needed }

/-- `_ladder_step`, when the run stays on its engine. -/
def ladderStep (s : State) : State := { s with ladder := nextLadder s none }

/-- What the executor leaves of an attempt. -/
structure Ended where
  pipeline : PipelineState
  shortfall : Option Shortfall
  caveats : List Caveat
  cleared : pipeline.executorSuccess → pipeline.executorFailureCause = none

/-- The attempt that ended, judged. -/
def judged (s : State) (e : Ended) : State :=
  { s with pipeline := e.pipeline, shortfall := e.shortfall, caveats := e.caveats
           cleared := e.cleared }

/-- The attempts of a run on one engine, each ended and followed by the next. -/
def machine : Transition.Machine State Ended where
  step s e := some (ladderStep (judged s e))

/-- A ladder on the plan as it is. -/
def onPlan (engine : Option String) (switched : Bool) : Rungs where
  rung := 0
  engine := engine
  switched := switched
  afterSwitch := false
  factor := none
  measured := none
  floor := none

variable {s t : State} {measured floor : Option ℚ} {rung : Nat}

/-! ## The factor stays between the plan and the cap -/

theorem base_cases (rung : Nat) : base rung = 1 ∨ base rung = 3 / 2 ∨ base rung = 2 := by
  unfold base rungFactors
  match rung with
  | 0 => exact .inl rfl
  | 1 => exact .inr (.inl rfl)
  | n + 2 =>
    right; right
    simp

theorem round_base (rung : Nat) : DecimalRound.round 3 (base rung) = base rung := by
  obtain h | h | h := base_cases rung
  · exact DecimalRound.round_of_multiple (show _ = ((1000 : ℤ) : ℚ) by rw [h]; norm_num)
  · exact DecimalRound.round_of_multiple (show _ = ((1500 : ℤ) : ℚ) by rw [h]; norm_num)
  · exact DecimalRound.round_of_multiple (show _ = ((2000 : ℤ) : ℚ) by rw [h]; norm_num)

theorem round_rungCap : DecimalRound.round 3 rungCap = rungCap :=
  DecimalRound.round_of_multiple (show _ = ((3000 : ℤ) : ℚ) by norm_num [rungCap])

/-- A factor is its table's or the rounded need, within the cap. -/
theorem rungFactor_eq (h : rung ≠ 0) : rungFactor rung measured floor =
    min rungCap (max (base rung) (DecimalRound.round 3 (need measured floor))) := by
  rw [rungFactor, if_neg h, DecimalRound.round_clamp, round_base, round_rungCap]

theorem one_le_base (rung : Nat) : 1 ≤ base rung := by
  obtain h | h | h := base_cases rung <;> rw [h] <;> norm_num

theorem rungFactor_mem (rung : Nat) (measured floor : Option ℚ) :
    1 ≤ rungFactor rung measured floor ∧ rungFactor rung measured floor ≤ rungCap := by
  by_cases h : rung = 0
  · simp [rungFactor, h, rungCap]
  · rw [rungFactor_eq h]
    refine ⟨le_min (by norm_num [rungCap]) (le_max_of_le_left (one_le_base rung)), min_le_left _ _⟩

/-! ## A climb -/

/-- The ladder goes up one rung, on a fact of its own and a factor between the plan and the cap. -/
structure Climbs (s : State) : Prop where
  rung : (ladderStep s).ladder.rung = s.ladder.rung + 1
  within : (ladderStep s).ladder.rung < rungFactors.length
  fact : factFor (ladderStep s) ≠ factFor s
  factor_ge : 1 ≤ factorOf (ladderStep s)
  factor_le : factorOf (ladderStep s) ≤ rungCap

theorem underResolvedFacts_of_sound (sound : s.pipeline.executorSuccess = true) :
    underResolvedFacts s = (resolutionCaveat s).map (·.facts) := by
  simp [underResolvedFacts, s.cleared sound, sound]

/-- The ladder after a shortfall on the same engine. -/
theorem ladderStep_of_facts {facts : Shortfall} (h : underResolvedFacts s = some facts) :
    (ladderStep s).ladder.rung = min (s.ladder.rung + 1) (rungFactors.length - 1) ∧
      (ladderStep s).ladder.factor = some (rungFactor
        (min (s.ladder.rung + 1) (rungFactors.length - 1)) facts.cellsAcross facts.needed) := by
  simp [ladderStep, nextLadder, h]

/-- The factor of an attempt above the plan is the one its ladder records. -/
theorem factorOf_of_recorded {f : ℚ} (hrung : s.ladder.rung ≠ 0) (hfactor : s.ladder.factor = some f)
    (hf : 1 ≤ f) : factorOf s = f := by
  have hkept : (some f).filter (· ≠ 0) = some f := by
    have hne : f ≠ 0 := by linarith
    simp [Option.filter, hne]
  simp only [factorOf, factFor, hrung, if_false, hfactor, hkept, Option.getD_some, hf, if_true]

/-- The factor reads two columns of the ladder. -/
theorem factorOf_congr (hrung : s.ladder.rung = t.ladder.rung)
    (hfactor : s.ladder.factor = t.ladder.factor) : factorOf s = factorOf t := by
  by_cases hzero : t.ladder.rung = 0 <;> simp [factorOf, factFor, hrung, hfactor, hzero]

@[simp]
theorem judged_ladder (s : State) (e : Ended) : (judged s e).ladder = s.ladder := rfl

/-- Without a shortfall the rung and its factor stand. -/
theorem ladderStep_of_no_facts (h : underResolvedFacts s = none) :
    (ladderStep s).ladder.rung = s.ladder.rung ∧
      (ladderStep s).ladder.factor = s.ladder.factor := by
  simp [ladderStep, nextLadder, h]

theorem factorOf_of_facts {facts : Shortfall} (h : underResolvedFacts s = some facts) :
    factorOf (ladderStep s) = rungFactor (min (s.ladder.rung + 1) (rungFactors.length - 1))
      facts.cellsAcross facts.needed := by
  obtain ⟨hrung, hfactor⟩ := ladderStep_of_facts h
  refine factorOf_of_recorded ?_ hfactor (rungFactor_mem _ _ _).1
  rw [hrung]
  simp [rungFactors]

/-- A short sound mesh climbs exactly when a rung is left. -/
theorem climbs_iff (sound : s.pipeline.executorSuccess = true)
    (short : (resolutionCaveat s).isSome) : Climbs s ↔ rungLeft s = true := by
  obtain ⟨c, hc⟩ := Option.isSome_iff_exists.mp short
  have hfacts : underResolvedFacts s = some c.facts := by
    rw [underResolvedFacts_of_sound sound, hc]
    rfl
  obtain ⟨hrung, hfactor⟩ := ladderStep_of_facts hfacts
  have hlength : rungFactors.length = 3 := rfl
  simp only [hlength] at hrung hfactor
  simp only [rungLeft, hlength, decide_eq_true_eq]
  constructor
  · intro climbs
    have hup := climbs.rung
    omega
  · intro left
    have hup : (ladderStep s).ladder.rung = s.ladder.rung + 1 := by omega
    obtain ⟨hge, hle⟩ := rungFactor_mem (min (s.ladder.rung + 1) (rungFactors.length - 1))
      c.facts.cellsAcross c.facts.needed
    refine ⟨hup, by omega, ?_, ?_, ?_⟩
    · -- the rung is part of the fact, and rung 0 has none
      intro hsame
      have hrungs := congrArg (Option.map RungFact.rung) hsame
      unfold factFor at hrungs
      rw [hup] at hrungs
      split at hrungs
      · omega
      · split at hrungs
        · cases hrungs
        · simp at hrungs
    · rw [factorOf_of_facts hfacts]
      exact hge
    · rw [factorOf_of_facts hfacts]
      exact hle

/-- A sound mesh is sent back for its resolution alone, or for another requirement too. -/
theorem rungLeft_of_sentBack {cfg : GraphSettings} {a : Answers}
    (sound : s.pipeline.executorSuccess = true)
    (sent : routeAfterExecutor cfg (routed s) (answers s a) = .classifier)
    (alone : ∀ c ∈ s.caveats, c.kind ≠ .domainExtent) : rungLeft s = true := by
  have hchange : retryCanChange s = true := by
    by_contra hno
    simp [routeAfterExecutor, routed, sound, routeAfterSuccess, answers, hno] at sent
    split at sent <;> cases sent
  obtain ⟨c, hc, hchanges⟩ := List.any_eq_true.mp hchange
  have hkind := alone c hc
  cases hk : c.kind <;> simp_all

/-! ## The factor along a run -/

/-- The shortfall asks for no less than the factor the attempt had. -/
def Rises (s : State) (e : Ended) : Prop :=
  ∀ facts ∈ underResolvedFacts (judged s e),
    factorOf s ≤ base (min (s.ladder.rung + 1) (rungFactors.length - 1)) ∨
      factorOf s ≤ DecimalRound.round 3 (need facts.cellsAcross facts.needed)

/-- A ladder that the policy wrote: on the plan, or with the factor of its rung. -/
def Planned (s : State) : Prop :=
  s.ladder.rung = 0 ∨ ∃ f, s.ladder.factor = some f ∧ 1 ≤ f ∧ f ≤ rungCap

theorem factorOf_le_cap (h : Planned s) : factorOf s ≤ rungCap := by
  by_cases hrung : s.ladder.rung = 0
  · simp [factorOf, factFor, hrung, rungCap]
  · obtain hzero | ⟨f, hf, hge, hle⟩ := h
    · exact absurd hzero hrung
    · rw [factorOf_of_recorded hrung hf hge]
      exact hle

theorem planned_step {e : Ended} (h : Planned s) : Planned (ladderStep (judged s e)) := by
  cases hfacts : underResolvedFacts (judged s e) with
  | none =>
    obtain ⟨hrung, hfactor⟩ := ladderStep_of_no_facts hfacts
    obtain hzero | ⟨f, hf, hmem⟩ := h
    · exact .inl (hrung.trans hzero)
    · exact .inr ⟨f, hfactor.trans hf, hmem⟩
  | some facts =>
    obtain ⟨-, hfactor⟩ := ladderStep_of_facts hfacts
    exact .inr ⟨_, hfactor, rungFactor_mem _ _ _⟩

/-- One attempt lowers the factor exactly when its shortfall asks for less. -/
theorem factorOf_le_step_iff {e : Ended} (h : Planned s) :
    factorOf s ≤ factorOf (ladderStep (judged s e)) ↔ Rises s e := by
  have hcap := factorOf_le_cap h
  cases hfacts : underResolvedFacts (judged s e) with
  | none =>
    obtain ⟨hrung, hfactor⟩ := ladderStep_of_no_facts hfacts
    have hsame : factorOf (ladderStep (judged s e)) = factorOf s := factorOf_congr hrung hfactor
    simp [hsame, Rises, hfacts]
  | some facts =>
    rw [factorOf_of_facts hfacts, rungFactor_eq (by simp [rungFactors])]
    simp only [le_min_iff, hcap, true_and, le_max_iff, Rises, hfacts, Option.mem_some_iff,
      forall_eq']
    rfl

theorem factorOf_mono_of_run {run : List Ended} (h : Planned s)
    (rises : machine.Meets Rises s run) (hrun : machine.exec s run = some t) :
    factorOf s ≤ factorOf t := by
  refine Transition.Machine.exec_relates (I := Planned) (R := fun a b => factorOf a ≤ factorOf b)
    (fun _ => le_rfl) le_trans ?_ ?_ h rises hrun
  · rintro a e b ha - hb
    obtain rfl := Option.some.inj hb
    exact planned_step ha
  · rintro a e b ha hrises hb
    obtain rfl := Option.some.inj hb
    exact (factorOf_le_step_iff ha).mpr hrises

theorem planned_of_run {run : List Ended} (h : Planned s) (hrun : machine.exec s run = some t) :
    Planned t := by
  refine Transition.Machine.exec_invariant_of_step ?_ h hrun
  intro a e b ha hb
  obtain rfl := Option.some.inj hb
  exact planned_step ha

/-- A short sound mesh that is sent back climbs exactly when a rung is left. Along a run on one
engine whose shortfalls ask for no less than the factor they were measured at, the factor never
falls. -/
theorem ladder_climbs (cfg : GraphSettings) (s : State) (a : Answers) :
    (s.pipeline.executorSuccess = true → (resolutionCaveat s).isSome →
      routeAfterExecutor cfg (routed s) (answers s a) = .classifier →
      (Climbs s ↔ rungLeft s = true)) ∧
    ∀ (mid last : State) (first rest : List Ended), s.ladder.rung = 0 →
      machine.Meets Rises s (first ++ rest) → machine.exec s first = some mid →
      machine.exec mid rest = some last → factorOf mid ≤ factorOf last := by
  refine ⟨fun sound short _ => climbs_iff sound short, ?_⟩
  intro mid last first rest hzero rises hfirst hrest
  have hrises := (Transition.Machine.meets_append hfirst).mp rises
  exact factorOf_mono_of_run (planned_of_run (.inl hzero) hfirst) hrises.2 hrest

instance (s : State) (e : Ended) : Decidable (Rises s e) :=
  inferInstanceAs (Decidable (∀ facts ∈ underResolvedFacts (judged s e), _ ∨ _))

/-- A sound mesh with so many cells across, under a floor of twelve. -/
def note (cellsAcross : ℚ) : Caveat where
  kind := .resolutionShort
  cells := some 1000000
  cellLimit := some 8000000
  plan := none
  facts := ⟨some cellsAcross, some 12⟩

def soundState : PipelineState := { PipelineState.initial none with executorSuccess := true }

def soundAttempt (caveats : List Caveat) : Ended where
  pipeline := soundState
  shortfall := none
  caveats := caveats
  cleared _ := rfl

/-- A sound mesh of so many cells across, built at a rung. -/
def soundAt (rung : Nat) (caveats : List Caveat) : State where
  pipeline := soundState
  engine := "snappy"
  shortfall := none
  caveats := caveats
  movedEngines := false
  ladder := { onPlan (some "snappy") false with rung := rung }
  cleared _ := rfl

def ladderAnswers : Answers where
  intakeFailure := none
  geometryRefused := false
  turn := ⟨false, false, none, none, false, "", ""⟩
  execution := ⟨true, "", none, .empty, true⟩
  ladder := ⟨false, false, false, none, false⟩
  review := .concluded .PASS [] false

/-- Ten cells across at the plan, then four at a half more. -/
theorem ladder_climbs_twice :
    Climbs (soundAt 0 [note 10]) ∧
      ∃ mid last, machine.exec (soundAt 0 []) [soundAttempt [note 10]] = some mid ∧
        machine.exec mid [soundAttempt [note 4]] = some last ∧ factorOf mid = 3 / 2 ∧
        factorOf last = 3 ∧ factorOf mid ≤ factorOf last :=
  ⟨((ladder_climbs .default _ ladderAnswers).1 rfl rfl (by decide +kernel)).mpr (by decide +kernel),
    _, _, rfl, rfl, by decide +kernel, by decide +kernel,
    (ladder_climbs .default (soundAt 0 []) ladderAnswers).2 _ _ [soundAttempt [note 10]]
      [soundAttempt [note 4]] rfl (by decide +kernel) rfl rfl⟩

/-- On the last rung a short mesh that also misses its domain is sent back to the same rung; and a
mesh of five cells across, rebuilt at 2.6 and then ten across, is next built at 2. -/
theorem ladder_repeats_and_falls :
    let stuck := soundAt 2 [note 10, { note 10 with kind := .domainExtent }]
    routeAfterExecutor .default (routed stuck) (answers stuck ladderAnswers) = .classifier ∧
      (resolutionCaveat stuck).isSome ∧ ¬ Climbs stuck ∧
      ∃ mid last, machine.exec (soundAt 0 []) [soundAttempt [note 5]] = some mid ∧
        machine.exec mid [soundAttempt [note 10]] = some last ∧
        factorOf mid = 13 / 5 ∧ factorOf last = 2 :=
  ⟨by decide +kernel, rfl, fun climbs => absurd climbs.rung (by decide +kernel),
    _, _, rfl, rfl, by decide +kernel, by decide +kernel⟩

end ResolutionPolicy

end MeshPipeline.Pipeline
