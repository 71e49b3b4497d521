import Mathlib.Tactic.Linarith
import MeshPipeline.Library.Outcome
import MeshPipeline.SnapGrid.CellBudget

/-!
# The budget is kept with the least relaxing

What a layout that is built has given up, when a model is refused, and what a mesh over the budget says.
-/

namespace MeshPipeline.SnapGrid

open GridPlan

/-- A layout is there, and is over the budget. -/
def Over (budget : ℤ) (x : Except GridError Layout) : Prop := ∃ l, x = .ok l ∧ budget < l.nCells

/-- A layout is there, within the budget. -/
def Fits (budget : ℤ) (x : Except GridError Layout) : Prop := ∃ l, x = .ok l ∧ l.nCells ≤ budget

lemma Over.not_fits {budget : ℤ} {x : Except GridError Layout} (h : Over budget x) :
    ¬ Fits budget x := by
  rintro ⟨l', h', hf⟩
  obtain ⟨l, hl, ho⟩ := h
  obtain rfl : l = l' := Except.ok.inj (hl.symm.trans h')
  exact absurd hf (not_le.2 ho)

namespace Model

variable (M : Model)

/-- The layout of a relaxed plan at the coarsest background. -/
def coarsest (plan : GridPlan) (leaf k : ℕ) : Except GridError Layout :=
  M.decompose ((relaxations plan).getD k plan) M.longest leaf

/-- The grid of one of the relaxed plans cannot be made. -/
def GridFails (plan : GridPlan) (leaf : ℕ) (e : GridError) : Prop :=
  ∃ p ∈ relaxations plan, ∃ H text, M.leaves p H leaf = .error text ∧ e = .value text

lemma decompose_plan {p : GridPlan} {H : ℚ} {leaf : ℕ} {l : Layout}
    (h : M.decompose p H leaf = .ok l) : l.plan = p := by
  unfold decompose at h
  split at h <;> simp at h
  rw [← h]

lemma decompose_error {plan p : GridPlan} (hp : p ∈ relaxations plan) {H : ℚ} {leaf : ℕ}
    {e : GridError} (h : M.decompose p H leaf = .error e) : M.GridFails plan leaf e := by
  unfold decompose at h
  split at h
  · next text ht => exact ⟨p, hp, H, text, ht, by simpa using h.symm⟩
  · cases h

lemma candidate_mem (plan : GridPlan) (k : ℕ) :
    (relaxations plan).getD k plan ∈ relaxations plan := by
  rw [List.getD_eq_getElem?_getD]
  cases h : (relaxations plan)[k]? with
  | none => exact .head _
  | some p => exact List.mem_of_getElem? h

lemma coarsest_error {plan : GridPlan} {leaf k : ℕ} {e : GridError}
    (h : M.coarsest plan leaf k = .error e) : M.GridFails plan leaf e :=
  M.decompose_error (candidate_mem plan k) h

/-- What the search between a plan that does not fit and one that does ends with: neighbours. -/
lemma bisectPlans_spec {c : ℕ → Except GridError Layout} {budget : ℤ} {lo hi : ℕ}
    {E : GridError → Prop} (hE : ∀ k e, c k = .error e → E e) (hlt : lo < hi)
    (hlo : Over budget (c lo)) (hhi : Fits budget (c hi)) :
    Outcome (fun k => 0 < k ∧ k ≤ hi ∧ Over budget (c (k - 1)) ∧ Fits budget (c k)) E
      (bisectPlans c budget lo hi) := by
  fun_induction bisectPlans c budget lo hi with
  | case1 lo hi h ih1 ih2 =>
    refine (Outcome.self (hE _)).bind fun l hl => Outcome.ite (fun hf => ?_) fun hf => ?_
    · refine (ih1 (by omega) hlo ⟨l, hl, hf⟩).weaken (fun k hk => ?_) fun _ => id
      exact ⟨hk.1, by omega, hk.2.2⟩
    · exact ih2 (by omega) ⟨l, hl, not_le.1 hf⟩ hhi
  | case2 lo hi h =>
    obtain rfl : lo = hi - 1 := by omega
    exact ⟨by omega, le_rfl, hlo, hhi⟩

/-- The search of a background keeps a layout of the plan that fits. -/
lemma bisectBackground_spec {p : GridPlan} {leaf : ℕ} {budget : ℤ} {E : GridError → Prop}
    (hE : ∀ H e, M.decompose p H leaf = .error e → E e) (n : ℕ) (lo hi : ℚ) {best : Layout}
    (hb : best.plan = p ∧ best.nCells ≤ budget) :
    Outcome (fun r => r.2.plan = p ∧ r.2.nCells ≤ budget) E
      (M.bisectBackground p leaf budget n lo hi best) := by
  induction n generalizing lo hi best with
  | zero => exact hb
  | succ n ih =>
    unfold bisectBackground
    refine (Outcome.self (hE _)).bind fun trial ht => ?_
    dsimp only
    by_cases hf : trial.nCells ≤ budget
    · simp only [hf, if_true]
      have hb : trial.plan = p ∧ trial.nCells ≤ budget := ⟨M.decompose_plan ht, hf⟩
      exact Outcome.ite (fun _ => hb) fun _ => ih _ _ hb
    · simp only [hf, if_false]
      exact Outcome.ite (fun _ => hb) fun _ => ih _ _ hb

lemma ownLayout_spec {plan : GridPlan} {leaf k : ℕ} {first : Layout} (hfirst : first.plan = plan) :
    Outcome (fun l => l.plan = (relaxations plan).getD k plan) (M.GridFails plan leaf)
      (M.ownLayout plan leaf first k) := by
  refine Outcome.ite (fun h0 => ?_) fun _ => ?_
  · subst h0
    exact hfirst
  · exact (Outcome.self fun _ => M.decompose_error (candidate_mem plan k)).weaken
      (fun _ => M.decompose_plan) fun _ => id

/-- A layout of the plan chosen comes out, within the budget. -/
lemma layoutOf_spec {plan : GridPlan} {leaf k : ℕ} {first : Layout} (hfirst : first.plan = plan)
    (hk : Fits plan.maxCells (M.coarsest plan leaf k)) :
    Outcome (fun l => l.plan = (relaxations plan).getD k plan ∧ l.nCells ≤ plan.maxCells)
      (M.GridFails plan leaf) (M.layoutOf plan leaf first k) := by
  have hneeded (b : Bool) (j : ℕ) : Outcome (fun _ => True) (M.GridFails plan leaf)
      (neededFor b (M.coarsest plan leaf j)) :=
    Outcome.ite (fun _ => (Outcome.self fun _ => M.coarsest_error).map fun _ _ => trivial)
      fun _ => trivial
  refine (M.ownLayout_spec hfirst).bind fun layout hl => ?_
  refine (hneeded _ 0).bind fun rules _ => (hneeded _ _).bind fun layers _ => ?_
  refine Outcome.ite (fun hf => ⟨hl, hf⟩) fun _ => ?_
  refine (Outcome.self fun _ => M.coarsest_error).bind fun best hbest => ?_
  obtain ⟨l, hl, hf⟩ := hk
  obtain rfl : l = best := Except.ok.inj (hl.symm.trans hbest)
  exact (M.bisectBackground_spec (fun _ _ => M.decompose_error (candidate_mem plan k)) _ _ _
    ⟨M.decompose_plan hl, hf⟩).bind fun _ hr => hr

/-- Within the budget, and relaxed no further than the plan before it in the list makes needed. -/
structure LeastRelaxed (plan : GridPlan) (leaf : ℕ) (l : Layout) : Prop where
  fits : l.nCells ≤ plan.maxCells
  least : ∃ k, (relaxations plan)[k]? = some l.plan ∧
    (k = 0 ∨ Over plan.maxCells (M.coarsest plan leaf (k - 1)))

/-- The plan as asked does not fit, and neither it nor its last relaxation does at the coarsest
background. -/
structure NeverFits (plan : GridPlan) (leaf needed : ℕ) : Prop where
  asked : Over plan.maxCells (M.decompose plan (M.longest / plan.backgroundCells) leaf)
  coarsest : Over plan.maxCells (M.coarsest plan leaf 0)
  last : ∃ l, M.coarsest plan leaf ((relaxations plan).length - 1) = .ok l ∧
    plan.maxCells < l.nCells ∧ l.nCells = needed

lemma getElem?_candidate {plan : GridPlan} {k : ℕ} (hk : k ≤ (relaxations plan).length - 1) :
    (relaxations plan)[k]? = some ((relaxations plan).getD k plan) := by
  have : k < (relaxations plan).length := by
    rw [relaxations, List.length_cons] at hk ⊢
    omega
  rw [List.getD_eq_getElem?_getD, List.getElem?_eq_getElem this, Option.getD_some]

lemma buildLayout_spec {plan : GridPlan} (h : plan.problems = []) (localGrid : Bool) :
    Outcome (M.LeastRelaxed plan (leafCells localGrid))
      (fun e => M.GridFails plan (leafCells localGrid) e ∨
        ∃ text needed, e = .overBudget text needed ∧
          M.NeverFits plan (leafCells localGrid) needed)
      (M.buildLayout plan localGrid) := by
  have hgrid {k : ℕ} {e : GridError} (he : M.coarsest plan (leafCells localGrid) k = .error e) :=
    M.coarsest_error he
  unfold buildLayout
  simp only [h, ne_eq, not_true_eq_false, if_false]
  refine (Outcome.self fun e he => .inl (M.decompose_error (.head _) he)).bind fun first h1 => ?_
  have hplan := M.decompose_plan h1
  refine Outcome.ite (fun hf => ⟨hf, 0, by simp [relaxations, hplan], .inl rfl⟩) fun ho => ?_
  have h1 : Over plan.maxCells (M.decompose plan _ _) := ⟨first, h1, not_le.1 ho⟩
  refine (Outcome.self fun e he => .inl (hgrid he)).bind fun l₀ h2 => ?_
  refine Outcome.ite (fun hf => ?_) fun ho => ?_
  · refine (M.layoutOf_spec hplan ⟨l₀, h2, hf⟩).weaken (fun l hl => ?_) fun e => .inl
    exact ⟨hl.2, 0, by simp [relaxations, hl.1], .inl rfl⟩
  have h2 : Over plan.maxCells (M.coarsest plan _ 0) := ⟨l₀, h2, not_le.1 ho⟩
  refine (Outcome.self fun e he => .inl (hgrid he)).bind fun l₁ h3 => ?_
  refine Outcome.ite (fun hneeded => ?_) fun hf => ?_
  · exact .inr ⟨_, _, rfl, h1, h2, l₁, h3, hneeded, rfl⟩
  · have h3 : Fits plan.maxCells (M.coarsest plan _ ((relaxations plan).length - 1)) :=
      ⟨l₁, h3, not_lt.1 hf⟩
    have hlast : 0 < (relaxations plan).length - 1 := by
      by_contra h0
      rw [Nat.eq_zero_of_not_pos h0] at h3
      exact h2.not_fits h3
    refine (bisectPlans_spec (fun k e he => .inl (hgrid he)) hlast h2 h3).bind fun k hk => ?_
    refine (M.layoutOf_spec hplan hk.2.2.2).weaken (fun l hl => ?_) fun e => .inl
    exact ⟨hl.2, k, by rw [getElem?_candidate hk.2.1, hl.1], .inr hk.2.2.1⟩

/-- A refusal says how many cells it would take, and is made of the models that never fit. -/
lemma overBudget_iff {plan : GridPlan} (h : plan.problems = []) (localGrid : Bool) (needed : ℕ) :
    (∃ text, M.buildLayout plan localGrid = .error (.overBudget text needed)) ↔
      M.NeverFits plan (leafCells localGrid) needed := by
  constructor
  · rintro ⟨text, he⟩
    have hE := (M.buildLayout_spec h localGrid).of_error he
    obtain hg | ⟨text', needed', he', hn⟩ := hE
    · obtain ⟨_, _, _, _, _, he'⟩ := hg
      cases he'
    · obtain ⟨rfl, rfl⟩ := GridError.overBudget.inj he'
      exact hn
  · rintro ⟨⟨first, h1, ho1⟩, ⟨l₀, h2, ho2⟩, l₁, h3, ho3, rfl⟩
    unfold coarsest at h2 h3
    unfold buildLayout
    simp only [h, h1, h2, h3, ho3, not_le.2 ho1, not_le.2 ho2, ne_eq, not_true_eq_false, if_false,
      if_true, bind, Except.bind, throw, throwThe, MonadExceptOf.throw]
    exact ⟨_, rfl⟩

/-! ## The mesh -/

/-- A mesh says by how much it is over the budget, in words and in the record of the hold. -/
def Mesh.Says (m : Mesh) (budget : ℤ) : Prop :=
  overBudgetWords m.layout.nCells budget ∈ m.layout.relaxed ∧
    ∃ h, m.hold = some h ∧ h.overBudget = some (m.layout.nCells - budget)

lemma backWithinBudget_spec {plan : GridPlan} {layout : Layout} {h : Hold} :
    Outcome (fun r => r.1.nCells ≤ plan.maxCells ∨
        overBudgetWords r.1.nCells plan.maxCells ∈ r.1.relaxed ∧
          r.2.overBudget = some (r.1.nCells - plan.maxCells))
      (fun _ => True) (M.backWithinBudget plan layout h) := by
  refine Outcome.bind (P := fun _ => True) ?_ fun trial _ => ?_
  · unfold sizedFor
    split <;> trivial
  cases trial with
  | none => exact .inr ⟨by simp [Layout.nCells], rfl⟩
  | some trial =>
    exact Outcome.ite (fun hf => .inl hf.2.2) fun _ => .inr ⟨by simp [Layout.nCells], rfl⟩

lemma holdWithinBudget_spec {plan : GridPlan} {layout : Layout}
    (hfits : layout.nCells ≤ plan.maxCells) :
    Outcome (fun r => r.1.nCells ≤ plan.maxCells ∨
        overBudgetWords r.1.nCells plan.maxCells ∈ r.1.relaxed ∧
          r.2.overBudget = some (r.1.nCells - plan.maxCells))
      (fun _ => True) (M.holdWithinBudget plan layout) := by
  unfold holdWithinBudget
  dsimp only
  refine Outcome.ite (fun _ => M.backWithinBudget_spec) fun h => .inl ?_
  by_cases hz : (M.hold layout).2.linesAdded = 0
  · have hsame : (M.hold layout).1.blocks = layout.blocks := Field.holdInterfaceSkew_sound _ hz
    rwa [Layout.nCells, hsame]
  · exact not_lt.1 fun hlt => h ⟨hz, hlt⟩

/-- The budget of a mesh: that of the plan, lowered to what the memory holds. -/
def budgetFor (asked : GridPlan) (memory : Option ℚ) : ℤ := (M.planForMemory asked memory).1.maxCells

lemma planForMemory_problems {asked : GridPlan} (h : asked.problems = []) (memory : Option ℚ) :
    (M.planForMemory asked memory).1.problems = [] := by
  unfold planForMemory
  split
  · exact h
  · dsimp only
    split_ifs
    · exact h
    · exact problems_of_maxCells h (le_max_left _ _)

lemma layoutInMemory_spec {asked plan : GridPlan} (h : plan.problems = []) (mem : Memory)
    (localGrid : Bool) :
    Outcome (fun l => l.nCells ≤ plan.maxCells) (fun _ => True)
      (M.layoutInMemory asked plan mem localGrid) := by
  unfold layoutInMemory
  split
  · next layout hl =>
    have hfits := ((M.buildLayout_spec h localGrid).of_ok hl).fits
    split <;> exact hfits
  · split_ifs <;> trivial
  · trivial

lemma meshEcxml_spec {asked : GridPlan} (h : asked.problems = []) (dryRun localGrid : Bool)
    (memory : Option ℚ) (rest : Layout → Except GridError Unit) :
    Outcome (fun m => M.budgetFor asked memory < m.layout.nCells →
        m.Says (M.budgetFor asked memory))
      (fun _ => True) (M.meshEcxml asked dryRun localGrid memory rest) := by
  have hp := M.planForMemory_problems h memory
  unfold meshEcxml budgetFor
  generalize M.planForMemory asked memory = pm at hp ⊢
  obtain ⟨plan, mem⟩ := pm
  have hrest (l : Layout) : Outcome (fun _ => True) (fun _ => True) (rest l) := by
    cases rest l <;> trivial
  refine (M.layoutInMemory_spec hp mem localGrid).bind fun layout hfits => ?_
  refine Outcome.ite (fun _ hover => absurd hfits (not_le.2 hover)) fun _ => ?_
  refine Outcome.ite (fun _ => ?_) fun _ => ?_
  · refine (M.holdWithinBudget_spec hfits).bind fun r hr => (hrest _).bind fun _ _ hover => ?_
    obtain hle | ⟨hwords, hhold⟩ := hr
    · exact absurd hle (not_le.2 hover)
    · exact ⟨hwords, r.2, rfl, hhold⟩
  · exact (hrest _).bind fun _ _ hover => absurd hfits (not_le.2 hover)

/-- For every placed model and valid plan: a layout fits, and is of the plan asked for or of one whose
predecessor does not fit; the refusal is that of a plan that never fits; only a grid that cannot be made
ends otherwise. Each plan of the list relaxes the one before, the parts last. A mesh over the budget
says so. -/
theorem cell_budget_kept {plan : GridPlan} (h : plan.problems = []) :
    (∀ localGrid,
      (∀ l, M.buildLayout plan localGrid = .ok l →
        M.LeastRelaxed plan (leafCells localGrid) l) ∧
      (∀ needed, (∃ text, M.buildLayout plan localGrid = .error (.overBudget text needed)) ↔
        M.NeverFits plan (leafCells localGrid) needed) ∧
      ∀ e, M.buildLayout plan localGrid = .error e →
        M.GridFails plan (leafCells localGrid) e ∨ ∃ text needed, e = .overBudget text needed) ∧
    (relaxations plan).IsChain Relaxes ∧
    (∀ q ∈ relaxations plan,
      (PartsKept plan q ∨ ThermalOff q) ∧ 1 ≤ q.minCellsAcross ∧ 1 ≤ q.cylinderCells) ∧
    ∀ dryRun localGrid memory rest m, M.meshEcxml plan dryRun localGrid memory rest = .ok m →
      M.budgetFor plan memory < m.layout.nCells → m.Says (M.budgetFor plan memory) := by
  have hv := valid_of_problems h
  refine ⟨fun localGrid => ⟨fun l => ?_, M.overBudget_iff h localGrid, fun e he => ?_⟩,
    relaxations_chain hv, fun q => relaxations_parts hv, fun dryRun localGrid memory rest m hm => ?_⟩
  · exact (M.buildLayout_spec h localGrid).of_ok
  · refine ((M.buildLayout_spec h localGrid).of_error he).imp_right ?_
    rintro ⟨text, needed, he, -⟩
    exact ⟨text, needed, he⟩
  · exact (M.meshEcxml_spec h dryRun localGrid memory rest).of_ok hm

end Model

/-- A model of one block, of so many cells along each side for a background size. -/
def oneBlock (cells : ℚ → Except String ℕ) : Model where
  longest := 1
  leaves := fun _ H _ => (cells H).map fun n => [⟨fun _ => Finset.range (n + 1)⟩]
  field := fun _ _ => {
    smooth := fun _ lines => lines
    adjacent := fun _ => []
    tooWide := fun _ _ _ _ => []
    skewed := fun _ => [] }
  sqrt := fun x => x
  applicable := []
  digits := fun _ q => toString q.num

/-- Its layout. -/
def oneBlockLayout (p : GridPlan) (H : ℚ) (n : ℕ) : Layout where
  plan := p
  H := H
  blocks := [⟨fun _ => Finset.range (n + 1)⟩]
  balanced := 0

@[simp] lemma oneBlockLayout_nCells (p : GridPlan) (H : ℚ) (n : ℕ) :
    (oneBlockLayout p H n).nCells = n * n * n := by
  simp [oneBlockLayout, Layout.nCells, cellCount, Block.nCells]

lemma oneBlock_decompose_error {cells : ℚ → Except String ℕ} {p : GridPlan} {H : ℚ} {leaf : ℕ}
    {text : String} (h : cells H = .error text) :
    (oneBlock cells).decompose p H leaf = .error (.value text) := by
  simp only [Model.decompose, oneBlock, h, Except.map]

lemma oneBlock_decompose {cells : ℚ → Except String ℕ} {p : GridPlan} {H : ℚ} {leaf n : ℕ}
    (h : cells H = .ok n) : (oneBlock cells).decompose p H leaf = .ok (oneBlockLayout p H n) := by
  simp only [Model.decompose, oneBlock, h, Except.map]
  rfl

/-- A plan that fits at its own background is taken as it is. -/
lemma buildLayout_first {M : Model} {plan : GridPlan} {localGrid : Bool} {l : Layout}
    (h : plan.problems = [])
    (hl : M.decompose plan (M.longest / plan.backgroundCells) (Model.leafCells localGrid) = .ok l)
    (hf : l.nCells ≤ plan.maxCells) (hr : l.relaxed = []) :
    M.buildLayout plan localGrid = .ok l := by
  unfold Model.buildLayout
  simp only [h, hl, hf, ne_eq, not_true_eq_false, if_false, if_true, bind, Except.bind, pure,
    Except.pure, ← hr]

lemma buildLayout_error {M : Model} {plan : GridPlan} {localGrid : Bool} {e : GridError}
    (h : plan.problems = [])
    (he : M.decompose plan (M.longest / plan.backgroundCells) (Model.leafCells localGrid) =
      .error e) : M.buildLayout plan localGrid = .error e := by
  unfold Model.buildLayout
  simp only [h, he, ne_eq, not_true_eq_false, if_false, bind, Except.bind]

/-- A cube of one metre with nothing in it, where an axis has at most 20000 lines. -/
def emptyCube : Model := oneBlock fun H =>
  if 20000 < ⌈1 / H⌉ then .error "internal: an interval asks for more cells than any plan allows"
  else .ok ⌈1 / H⌉.toNat

theorem cell_budget_kept_emptyCube :
    emptyCube.LeastRelaxed {} (Model.leafCells true) (oneBlockLayout {} (1 / 50) 50) := by
  have hp : ({} : GridPlan).problems = [] := by decide +kernel
  have hl : emptyCube.decompose {} (1 / 50) (Model.leafCells true) =
      .ok (oneBlockLayout {} (1 / 50) 50) := oneBlock_decompose (by decide +kernel)
  exact ((emptyCube.cell_budget_kept hp).1 true).1 _
    (buildLayout_first hp hl (by simp) rfl)

/-- A model whose coarsest layouts are the largest. -/
def swelling : Model := oneBlock fun H => if H = 1 then .ok 200 else .ok 1

/-- A plan for too many lines on an axis is neither laid out nor refused for its budget; and a plan
that fits is laid out although its last relaxation does not fit at the coarsest background. -/
theorem build_layout_other_endings :
    (({ backgroundCells := 30000 } : GridPlan).problems = [] ∧
      emptyCube.buildLayout { backgroundCells := 30000 } true =
        .error (.value "internal: an interval asks for more cells than any plan allows")) ∧
    ({} : GridPlan).problems = [] ∧
      swelling.buildLayout {} true = .ok (oneBlockLayout {} (1 / 50) 1) ∧
      Over 2000000 (swelling.coarsest {} (Model.leafCells true) ((relaxations {}).length - 1)) := by
  have hp : ({ backgroundCells := 30000 } : GridPlan).problems = [] := by decide +kernel
  have hp₀ : ({} : GridPlan).problems = [] := by decide +kernel
  refine ⟨⟨hp, ?_⟩, hp₀, ?_, ?_⟩
  · exact buildLayout_error hp (oneBlock_decompose_error (by decide +kernel))
  · exact buildLayout_first hp₀ (oneBlock_decompose (by decide +kernel)) (by simp) rfl
  · exact ⟨_, oneBlock_decompose (n := 200) rfl, by simp⟩

end MeshPipeline.SnapGrid
