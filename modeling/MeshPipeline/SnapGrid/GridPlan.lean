import Mathlib.Algebra.Order.Floor.Ring
import Mathlib.Algebra.Order.Ring.Rat
import Mathlib.Data.Int.Range

/-!
# Grid plans and how they are relaxed

What the grid of a model is asked for. A model that does not fit its cell budget is tried with plans
that ask for less and less.
-/

namespace MeshPipeline.SnapGrid

structure GridPlan where
  maxCells : ℤ := 2000000
  backgroundCells : ℤ := 50
  minCellsAcross : ℤ := 2
  cylinderCells : ℤ := 12
  growth : ℚ := 13 / 10
  /-- The thermal rules, each off at 0. -/
  hotCellsAcross : ℤ := 0
  gapCells : ℤ := 0
  bandCells : ℤ := 0
  spreadCells : ℤ := 0
  openingCells : ℤ := 0
  airAspect : ℚ := 0
  deriving DecidableEq, Repr

namespace GridPlan

/-- What is wrong with a plan where each holds. -/
def checks (p : GridPlan) : List (Bool × String) :=
  [(decide (p.maxCells < 1000), "max_cells must be at least 1000"),
    (decide (p.backgroundCells < 2), "background_cells must be at least 2"),
    (decide (p.minCellsAcross < 1), "min_cells_across must be at least 1"),
    (decide (p.cylinderCells < 2), "cylinder_cells must be at least 2"),
    (decide (¬ (105 / 100 ≤ p.growth ∧ p.growth ≤ 4)), "growth must be between 1.05 and 4")] ++
  [("hot_cells_across", p.hotCellsAcross), ("gap_cells", p.gapCells),
    ("band_cells", p.bandCells), ("spread_cells", p.spreadCells),
    ("opening_cells", p.openingCells)].map (fun f => (decide (f.2 < 0), f.1 ++ " must not be negative")) ++
  [(decide (p.airAspect ≠ 0 ∧ p.airAspect < 1), "air_aspect must be at least 1 (or 0: no limit)")]

def problems (p : GridPlan) : List String := (p.checks.filter (·.1)).map (·.2)

/-- What a plan without problems keeps. -/
structure Valid (p : GridPlan) : Prop where
  maxCells : 1000 ≤ p.maxCells
  backgroundCells : 2 ≤ p.backgroundCells
  minCellsAcross : 1 ≤ p.minCellsAcross
  cylinderCells : 2 ≤ p.cylinderCells
  hotCellsAcross : 0 ≤ p.hotCellsAcross
  gapCells : 0 ≤ p.gapCells
  bandCells : 0 ≤ p.bandCells
  spreadCells : 0 ≤ p.spreadCells
  openingCells : 0 ≤ p.openingCells
  airAspect : p.airAspect = 0 ∨ 1 ≤ p.airAspect

lemma valid_of_problems {p : GridPlan} (h : p.problems = []) : p.Valid := by
  have hc : ∀ c ∈ p.checks, c.1 = false := by
    simpa only [problems, List.map_eq_nil_iff, List.filter_eq_nil_iff, Bool.not_eq_true] using h
  simp only [checks, List.map_cons, List.map_nil, List.cons_append, List.nil_append,
    List.forall_mem_cons, decide_eq_false_iff_not, not_lt] at hc
  obtain ⟨h1, h2, h3, h4, -, h6, h7, h8, h9, h10, h11, -⟩ := hc
  have ha : p.airAspect = 0 ∨ 1 ≤ p.airAspect := by
    rw [← not_lt]
    tauto
  exact ⟨h1, h2, h3, h4, h6, h7, h8, h9, h10, ha⟩

/-- Another budget makes no problem. -/
lemma problems_of_maxCells {p : GridPlan} (h : p.problems = []) {budget : ℤ} (hb : 1000 ≤ budget) :
    { p with maxCells := budget }.problems = [] := by
  rw [problems, List.map_eq_nil_iff, List.filter_eq_nil_iff] at h ⊢
  exact List.forall_mem_cons.2 ⟨by simpa using hb, (List.forall_mem_cons.1 h).2⟩

/-- `_down`: from `n` down to the floor, a quarter at a time. -/
def down (n floor : ℤ) : List ℤ :=
  if floor < n then
    max floor (min (n - 1) (3 * n / 4)) :: down (max floor (min (n - 1) (3 * n / 4))) floor
  else []
termination_by (n - floor).toNat
decreasing_by omega

/-- `range(n - 1, stop, -1)`. -/
def countdown (n stop : ℤ) : List ℤ :=
  (List.range (n - 1 - stop).toNat).map fun k : ℕ => n - 1 - k

/-- Cylinders two cells fewer at a time, down to six. -/
def cylinderSteps (c : ℤ) : List ℤ :=
  if 6 < c then max 6 (c - 2) :: cylinderSteps (max 6 (c - 2)) else []
termination_by c.toNat
decreasing_by omega

/-- The steps that leave the cells through the parts alone. -/
def thermalSteps (plan : GridPlan) : List (GridPlan → GridPlan) :=
  (if plan.airAspect ≠ 0 ∧ plan.bandCells ≠ 0 then
    [2, 4].map fun (k : ℚ) p => { p with airAspect := plan.airAspect * k } else []) ++
  ((countdown plan.bandCells 1).map fun n p => { p with bandCells := n }) ++
  ((down plan.openingCells 4).map fun n p => { p with openingCells := n }) ++
  ((down plan.spreadCells 3).map fun n p => { p with spreadCells := n }) ++
  ([3 / 2, 2].map fun (g : ℚ) p => if p.growth < g then { p with growth := g } else p) ++
  (((countdown plan.hotCellsAcross (plan.minCellsAcross - 1)).filter (1 ≤ ·)).map
    fun n p => { p with hotCellsAcross := n }) ++
  ((countdown plan.gapCells 1).map fun n p => { p with gapCells := n }) ++
  [fun p => { p with
    bandCells := 0, spreadCells := 0, openingCells := 0, gapCells := 0, airAspect := 0,
    hotCellsAcross := 0 }]

/-- The steps that take cells out of parts. -/
def partSteps (plan : GridPlan) : List (GridPlan → GridPlan) :=
  ((countdown plan.minCellsAcross 0).map fun n p => { p with minCellsAcross := n }) ++
  ((cylinderSteps plan.cylinderCells).map fun n p => { p with cylinderCells := n })

/-- The plans after `p` that the steps give, less those that change nothing. -/
def taken (p : GridPlan) : List (GridPlan → GridPlan) → List GridPlan
  | [] => []
  | f :: fs => if f p ≠ p then f p :: taken (f p) fs else taken p fs

def relaxations (plan : GridPlan) : List GridPlan :=
  plan :: taken plan (thermalSteps plan ++ partSteps plan)

/-! ## Each step relaxes -/

/-- The second plan asks for nothing that the first does not, a rule that is off asking nothing. -/
structure Weaker (p q : GridPlan) : Prop where
  maxCells : q.maxCells = p.maxCells
  backgroundCells : q.backgroundCells = p.backgroundCells
  minCellsAcross : q.minCellsAcross ≤ p.minCellsAcross
  cylinderCells : q.cylinderCells ≤ p.cylinderCells
  growth : p.growth ≤ q.growth
  hotCellsAcross : q.hotCellsAcross ≤ p.hotCellsAcross
  gapCells : q.gapCells ≤ p.gapCells
  bandCells : q.bandCells ≤ p.bandCells
  spreadCells : q.spreadCells ≤ p.spreadCells
  openingCells : q.openingCells ≤ p.openingCells
  airAspect : q.airAspect = 0 ∨ p.airAspect ≠ 0 ∧ p.airAspect ≤ q.airAspect

/-- The second plan is weaker, and another one. -/
def Relaxes (p q : GridPlan) : Prop := Weaker p q ∧ q ≠ p

/-- The plan that the steps lead to. -/
def final (p : GridPlan) (fs : List (GridPlan → GridPlan)) : GridPlan := fs.foldl (fun p f => f p) p

/-- No step asks for more. -/
def Eases (p : GridPlan) : List (GridPlan → GridPlan) → Prop
  | [] => True
  | f :: fs => Weaker p (f p) ∧ Eases (f p) fs

lemma eases_append {p : GridPlan} {fs gs : List (GridPlan → GridPlan)} :
    Eases p (fs ++ gs) ↔ Eases p fs ∧ Eases (p.final fs) gs := by
  induction fs generalizing p with
  | nil => simp [Eases, final]
  | cons f fs ih => simp [Eases, final, ih, and_assoc]

lemma taken_append {p : GridPlan} {fs gs : List (GridPlan → GridPlan)} :
    taken p (fs ++ gs) = taken p fs ++ taken (p.final fs) gs := by
  induction fs generalizing p with
  | nil => simp [taken, final]
  | cons f fs ih =>
    by_cases h : f p = p <;> simp [taken, h, ih, final]

lemma chain_of_eases {p : GridPlan} {fs : List (GridPlan → GridPlan)} (h : Eases p fs) :
    (p :: taken p fs).IsChain Relaxes := by
  induction fs generalizing p with
  | nil => simp [taken]
  | cons f fs ih =>
    by_cases hf : f p = p
    · have := ih h.2
      rw [hf] at this
      simpa [taken, hf] using this
    · simpa [taken, hf] using ⟨⟨h.1, hf⟩, ih h.2⟩

/-- What holds of a plan and is kept by the steps holds of every plan they give. -/
lemma forall_taken {P : GridPlan → Prop} {p : GridPlan} {fs : List (GridPlan → GridPlan)}
    (hp : P p) (hf : ∀ f ∈ fs, ∀ q, P q → P (f q)) : ∀ q ∈ p :: taken p fs, P q := by
  induction fs generalizing p with
  | nil => simpa [taken] using hp
  | cons f fs ih =>
    have := ih (hf f (by simp) p hp) fun g hg => hf g (by simp [hg])
    by_cases h : f p = p
    · rw [h] at this
      simpa [taken, h] using this
    · simpa [taken, h, hp] using this

lemma countdown_chain (n stop : ℤ) : (n :: countdown n stop).IsChain (· ≥ ·) := by
  apply List.Pairwise.isChain
  simp only [countdown, List.pairwise_cons, List.pairwise_map, List.mem_map]
  refine ⟨?_, List.pairwise_lt_range.imp ?_⟩
  · rintro _ ⟨k, -, rfl⟩
    omega
  · omega

lemma lt_of_mem_countdown {n stop m : ℤ} (h : m ∈ countdown n stop) : stop < m := by
  simp only [countdown, List.mem_map, List.mem_range] at h
  omega

lemma le_of_mem_down {n floor m : ℤ} (h : m ∈ down n floor) : floor ≤ m ∧ m ≤ n := by
  fun_induction down n floor <;> grind

lemma down_chain (n floor : ℤ) : (n :: down n floor).IsChain (· ≥ ·) := by
  fun_induction down n floor with
  | case1 n h ih => exact List.isChain_cons_cons.2 ⟨by omega, ih⟩
  | case2 => simp

lemma le_of_mem_cylinderSteps {c m : ℤ} (h : m ∈ cylinderSteps c) : 6 ≤ m ∧ m ≤ c := by
  fun_induction cylinderSteps c <;> grind

lemma cylinderSteps_chain (c : ℤ) : (c :: cylinderSteps c).IsChain (· ≥ ·) := by
  fun_induction cylinderSteps c with
  | case1 c h ih => exact List.isChain_cons_cons.2 ⟨by omega, ih⟩
  | case2 => simp

/-- The steps ease the one plan down to the other. -/
def LeadsTo (p : GridPlan) (fs : List (GridPlan → GridPlan)) (q : GridPlan) : Prop :=
  Eases p fs ∧ p.final fs = q

lemma LeadsTo.append {p q r : GridPlan} {fs gs : List (GridPlan → GridPlan)}
    (hf : LeadsTo p fs q) (hg : LeadsTo q gs r) : LeadsTo p (fs ++ gs) r := by
  obtain ⟨hf, rfl⟩ := hf
  exact ⟨eases_append.2 ⟨hf, hg.1⟩, by simpa [final] using hg.2⟩

/-- A field set to smaller and smaller values eases the plan, and nothing else of it changes. -/
lemma leadsTo_values (set : ℤ → GridPlan → GridPlan)
    (hs : ∀ m n p, set n (set m p) = set n p)
    (hw : ∀ m n p, n ≤ m → Weaker (set m p) (set n p)) {v : ℤ} {vals : List ℤ} (p : GridPlan)
    (h : (v :: vals).IsChain (· ≥ ·)) :
    ∃ w ∈ v :: vals, LeadsTo (set v p) (vals.map set) (set w p) := by
  induction vals generalizing v with
  | nil => simp [LeadsTo, Eases, final]
  | cons u vals ih =>
    obtain ⟨hv, hu⟩ := List.isChain_cons_cons.1 h
    obtain ⟨w, hw', he, hf⟩ := ih hu
    refine ⟨w, by simp [hw'], ?_⟩
    rw [List.map_cons, LeadsTo, Eases, hs]
    exact ⟨⟨hw v u p hv, he⟩, by simpa [final, hs] using hf⟩

lemma Weaker.refl (p : GridPlan) : Weaker p p := by
  constructor <;> first | rfl | tauto

lemma leadsTo_aspect {plan : GridPlan} (h : plan.Valid) :
    ∃ a, LeadsTo plan
      (if plan.airAspect ≠ 0 ∧ plan.bandCells ≠ 0 then
        [2, 4].map fun (k : ℚ) p => { p with airAspect := plan.airAspect * k } else [])
      { plan with airAspect := a } := by
  split_ifs with hc
  · have ha : 1 ≤ plan.airAspect := h.airAspect.resolve_left hc.1
    refine ⟨plan.airAspect * 4, ⟨?_, ?_, trivial⟩, rfl⟩
    · exact { Weaker.refl plan with airAspect := .inr ⟨hc.1, by dsimp only; linarith⟩ }
    · exact { Weaker.refl { plan with airAspect := plan.airAspect * 2 } with
        airAspect := .inr ⟨by simpa using hc.1, by dsimp only; linarith⟩ }
  · exact ⟨plan.airAspect, trivial, rfl⟩

lemma leadsTo_growth (p : GridPlan) :
    ∃ g, LeadsTo p
      ([3 / 2, 2].map fun (g : ℚ) p => if p.growth < g then { p with growth := g } else p)
      { p with growth := g } := by
  have hmax (p : GridPlan) (g : ℚ) : (if p.growth < g then { p with growth := g } else p) =
      { p with growth := max p.growth g } := by
    split_ifs with hg
    · rw [max_eq_right hg.le]
    · rw [max_eq_left (not_lt.1 hg)]
  have hw (p : GridPlan) (g : ℚ) : Weaker p { p with growth := max p.growth g } :=
    { Weaker.refl p with growth := le_max_left _ _ }
  refine ⟨max (max p.growth (3 / 2)) 2, ?_⟩
  simp only [hmax, List.map_cons, List.map_nil]
  exact ⟨⟨hw _ _, hw _ _, trivial⟩, rfl⟩

lemma hot_chain (plan : GridPlan) :
    (plan.hotCellsAcross ::
      (countdown plan.hotCellsAcross (plan.minCellsAcross - 1)).filter (1 ≤ ·)).IsChain (· ≥ ·) := by
  have h := (countdown_chain plan.hotCellsAcross (plan.minCellsAcross - 1)).pairwise
  exact (h.sublist (List.filter_sublist.cons_cons _)).isChain

/-- The thermal steps end with every thermal rule off, and leave the parts' cells alone. -/
lemma leadsTo_thermal {plan : GridPlan} (h : plan.Valid) :
    ∃ g, LeadsTo plan (thermalSteps plan) { plan with
      growth := g, hotCellsAcross := 0, gapCells := 0, bandCells := 0, spreadCells := 0,
      openingCells := 0, airAspect := 0 } := by
  obtain ⟨a, h1⟩ := leadsTo_aspect h
  obtain ⟨b, hb, h2⟩ := leadsTo_values (fun n p => { p with bandCells := n }) (fun _ _ _ => rfl)
    (fun m _ p h => { Weaker.refl { p with bandCells := m } with bandCells := h })
    { plan with airAspect := a } (countdown_chain plan.bandCells 1)
  obtain ⟨o, ho, h3⟩ := leadsTo_values (fun n p => { p with openingCells := n }) (fun _ _ _ => rfl)
    (fun m _ p h => { Weaker.refl { p with openingCells := m } with openingCells := h })
    { plan with airAspect := a, bandCells := b } (down_chain plan.openingCells 4)
  obtain ⟨s, hs, h4⟩ := leadsTo_values (fun n p => { p with spreadCells := n }) (fun _ _ _ => rfl)
    (fun m _ p h => { Weaker.refl { p with spreadCells := m } with spreadCells := h })
    { plan with airAspect := a, bandCells := b, openingCells := o } (down_chain plan.spreadCells 3)
  obtain ⟨g, h5⟩ := leadsTo_growth
    { plan with airAspect := a, bandCells := b, openingCells := o, spreadCells := s }
  obtain ⟨t, ht, h6⟩ := leadsTo_values (fun n p => { p with hotCellsAcross := n })
    (fun _ _ _ => rfl)
    (fun m _ p h => { Weaker.refl { p with hotCellsAcross := m } with hotCellsAcross := h })
    { plan with airAspect := a, bandCells := b, openingCells := o, spreadCells := s, growth := g }
    (hot_chain plan)
  obtain ⟨c, hc, h7⟩ := leadsTo_values (fun n p => { p with gapCells := n }) (fun _ _ _ => rfl)
    (fun m _ p h => { Weaker.refl { p with gapCells := m } with gapCells := h })
    { plan with
      airAspect := a, bandCells := b, openingCells := o, spreadCells := s, growth := g,
      hotCellsAcross := t } (countdown_chain plan.gapCells 1)
  have hall := ((((((h1.append h2).append h3).append h4).append h5).append h6).append h7)
  refine ⟨g, hall.append ⟨⟨?_, trivial⟩, rfl⟩⟩
  have hb0 : 0 ≤ b := by
    obtain rfl | hb := List.mem_cons.1 hb
    · exact h.bandCells
    · have := lt_of_mem_countdown hb
      omega
  have ho0 : 0 ≤ o := by
    obtain rfl | ho := List.mem_cons.1 ho
    · exact h.openingCells
    · have := le_of_mem_down ho
      omega
  have hs0 : 0 ≤ s := by
    obtain rfl | hs := List.mem_cons.1 hs
    · exact h.spreadCells
    · have := le_of_mem_down hs
      omega
  have ht0 : 0 ≤ t := by
    obtain rfl | ht := List.mem_cons.1 ht
    · exact h.hotCellsAcross
    · have : 1 ≤ t := by simpa using (List.mem_filter.1 ht).2
      omega
  have hc0 : 0 ≤ c := by
    obtain rfl | hc := List.mem_cons.1 hc
    · exact h.gapCells
    · have := lt_of_mem_countdown hc
      omega
  exact { Weaker.refl { plan with
      airAspect := a, bandCells := b, openingCells := o, spreadCells := s, growth := g,
      hotCellsAcross := t, gapCells := c } with
    bandCells := hb0, openingCells := ho0, spreadCells := hs0, hotCellsAcross := ht0
    gapCells := hc0, airAspect := .inl rfl }

/-- The other steps change the cells through the parts and across the cylinders alone. -/
lemma leadsTo_parts (p plan : GridPlan) (hm : p.minCellsAcross = plan.minCellsAcross)
    (hc : p.cylinderCells = plan.cylinderCells) :
    ∃ m c, LeadsTo p (partSteps plan) { p with minCellsAcross := m, cylinderCells := c } := by
  obtain ⟨m, -, h1⟩ := leadsTo_values (fun n p => { p with minCellsAcross := n })
    (fun _ _ _ => rfl)
    (fun m _ p h => { Weaker.refl { p with minCellsAcross := m } with minCellsAcross := h })
    p (countdown_chain p.minCellsAcross 0)
  obtain ⟨c, -, h2⟩ := leadsTo_values (fun n p => { p with cylinderCells := n })
    (fun _ _ _ => rfl)
    (fun m _ p h => { Weaker.refl { p with cylinderCells := m } with cylinderCells := h })
    { p with minCellsAcross := m } (cylinderSteps_chain p.cylinderCells)
  unfold partSteps
  rw [← hm, ← hc]
  exact ⟨m, c, h1.append h2⟩

/-- Each plan of the list relaxes the one before it. -/
theorem relaxations_chain {plan : GridPlan} (h : plan.Valid) :
    (relaxations plan).IsChain Relaxes := by
  obtain ⟨g, h1⟩ := leadsTo_thermal h
  obtain ⟨m, c, h2⟩ := leadsTo_parts { plan with
      growth := g, hotCellsAcross := 0, gapCells := 0, bandCells := 0, spreadCells := 0,
      openingCells := 0, airAspect := 0 } plan rfl rfl
  exact chain_of_eases (h1.append h2).1

/-- Every thermal rule is off. -/
structure ThermalOff (p : GridPlan) : Prop where
  hotCellsAcross : p.hotCellsAcross = 0
  gapCells : p.gapCells = 0
  bandCells : p.bandCells = 0
  spreadCells : p.spreadCells = 0
  openingCells : p.openingCells = 0
  airAspect : p.airAspect = 0

/-- The parts have the cells that were asked for. -/
def PartsKept (plan p : GridPlan) : Prop :=
  p.minCellsAcross = plan.minCellsAcross ∧ p.cylinderCells = plan.cylinderCells

lemma thermalSteps_keep {plan : GridPlan} {f : GridPlan → GridPlan} (hf : f ∈ thermalSteps plan)
    (q : GridPlan) (hq : PartsKept plan q) : PartsKept plan (f q) := by
  simp only [thermalSteps, List.mem_append, List.mem_map, List.mem_singleton] at hf
  obtain ((((((hf | ⟨n, -, rfl⟩) | ⟨n, -, rfl⟩) | ⟨n, -, rfl⟩) | ⟨g, -, rfl⟩) | ⟨n, -, rfl⟩) |
    ⟨n, -, rfl⟩) | rfl := hf
  · split_ifs at hf
    · obtain ⟨k, -, rfl⟩ := List.mem_map.1 hf
      exact hq
    · simp at hf
  · exact hq
  · exact hq
  · exact hq
  · dsimp only
    split_ifs <;> exact hq
  · exact hq
  · exact hq
  · exact hq

/-- The thermal rules are off, and a cell is left through every part and across every cylinder. -/
structure PartsLeft (p : GridPlan) : Prop where
  off : ThermalOff p
  minCellsAcross : 1 ≤ p.minCellsAcross
  cylinderCells : 1 ≤ p.cylinderCells

lemma partSteps_keep {plan : GridPlan} {f : GridPlan → GridPlan} (hf : f ∈ partSteps plan)
    (q : GridPlan) (hq : PartsLeft q) : PartsLeft (f q) := by
  simp only [partSteps, List.mem_append, List.mem_map] at hf
  obtain ⟨n, hn, rfl⟩ | ⟨n, hn, rfl⟩ := hf
  · exact ⟨{ hq.off with }, lt_of_mem_countdown hn, hq.cylinderCells⟩
  · have := le_of_mem_cylinderSteps hn
    exact ⟨{ hq.off with }, hq.minCellsAcross, by dsimp only; omega⟩

/-- Cells come out of a part only when every thermal rule is off, and one is left. -/
theorem relaxations_parts {plan q : GridPlan} (h : plan.Valid) (hq : q ∈ relaxations plan) :
    (PartsKept plan q ∨ ThermalOff q) ∧ 1 ≤ q.minCellsAcross ∧ 1 ≤ q.cylinderCells := by
  obtain ⟨g, h1⟩ := leadsTo_thermal h
  have hm := h.minCellsAcross
  have hc := h.cylinderCells
  rw [relaxations, taken_append, h1.2, ← List.cons_append, List.mem_append] at hq
  obtain hq | hq := hq
  · have hk := forall_taken ⟨rfl, rfl⟩ (fun f => @thermalSteps_keep plan f) q hq
    exact ⟨.inl hk, by rw [hk.1]; exact hm, by rw [hk.2]; omega⟩
  · have hl := forall_taken ⟨⟨rfl, rfl, rfl, rfl, rfl, rfl⟩, hm, by dsimp only; omega⟩
      (fun f => partSteps_keep) q (.tail _ hq)
    exact ⟨.inr hl.off, hl.minCellsAcross, hl.cylinderCells⟩

end GridPlan

end MeshPipeline.SnapGrid
