import Mathlib.Algebra.Order.Field.Basic
import Mathlib.Data.List.Nodup
import Mathlib.Tactic.NormNum
import MeshPipeline.Fea.Ladder

/-!
# No identical retry

Every lever changes what no earlier pass had, but for the two that may change nothing: the other way
for surfaces that are kept from MeshAdapt, and the lever of a stalled surface stage once gmsh's own
switch is off.
-/

namespace MeshPipeline.Fea.Ladder

/-- No two passes have the same settings. -/
def SettingsDiffer (levers : List Lever) : Prop :=
  ∀ i j, i < j → j ≤ levers.length → settings (levers.take i) ≠ settings (levers.take j)

/-- No lever is pulled twice, but for the other way. -/
def Once (levers : List Lever) : Prop := ((levers.map (·.id)).filter (· ≠ .LAD6)).Nodup

/-- The pass was not out of memory, and not valid within its limit and short of nothing. -/
def Pull.Failed : Pull → Prop
  | .choice f _ _ =>
    f.outOfMemory = false ∧ ¬ (f.valid = true ∧ f.overLimit = false ∧ f.short = [])
  | .stall _ => True

/-- The pass delivered is valid, and none of the valid passes ranks before it. -/
def DeliversBest (passes : List PassFacts) : Prop :=
  match (bestPass passes).1 with
  | none => ∀ f ∈ passes, f.valid = false
  | some n => ∃ f ∈ passes, f.pass = n ∧ f.valid = true ∧
      ∀ g ∈ passes, g.valid = true → rank f ≤ rank g

structure LadderSound (pulls : List Pull) (levers : List Lever) : Prop where
  differ : SettingsDiffer levers
  count : levers.length + 1 ≤ maxPasses
  once : Once levers
  failed : ∀ p ∈ pulls, p.Failed
  best : ∀ passes, DeliversBest passes

/-- The other way is only pulled for a surface that may still go on MeshAdapt, and the lever of a
stalled surface stage while gmsh's switch is on or for a surface that is on MeshAdapt by a lever. -/
def Changes (levers : List Lever) : Pull → Prop
  | .choice f plan pick =>
    (leverOptions f levers plan)[pick]?.map (·.id) = some .LAD6 →
      ¬ f.fresh levers ⊆ stuck levers
  | .stall surface =>
    pulled levers .LAD8 = false →
      surfaceSwitch levers = true ∨ surface ∈ remeshed levers \ stuck levers

instance (levers : List Lever) (p : Pull) : Decidable (Changes levers p) := by
  cases p <;> unfold Changes <;> infer_instance

/-! ## The levers -/

/-- What the lever that is pulled after a pass may be. -/
inductive Pulled (levers : List Lever) : Pull → Lever → Prop
  | fill (f plan pick id noSwitch) (kind : id = .LAD1 ∨ id = .LAD2)
      (new : pulled levers id = false) :
      Pulled levers (.choice f plan pick) { id, surfaces := f.fresh levers, noSwitch }
  | otherWay (f plan pick) (left : f.fresh levers ≠ ∅) :
      Pulled levers (.choice f plan pick) { id := .LAD6, surfaces := f.fresh levers }
  | coarser (f plan pick) (tooMany : f.overLimit = true) (new : pulled levers .LAD4 = false) :
      Pulled levers (.choice f plan pick) { id := .LAD4, factor := f.limitFactor }
  | finer (f plan pick) (short : f.short ≠ []) (new : pulled levers .LAD3 = false) :
      Pulled levers (.choice f plan pick) { id := .LAD3, zones := f.short.mergeSort }
  | stall (surface) (new : pulled levers .LAD8 = false) :
      Pulled levers (.stall surface) { id := .LAD8, stalled := some surface }

variable {f : PassFacts} {levers : List Lever} {plan : Plan} {p : Pull} {lv : Lever} {pick : Nat}
  {id : LeverId} {ks : List Lever} {pulls : List Pull}

lemma mem_order (h : lv ∈ f.order levers) :
    (lv.id = .LAD1 ∨ lv.id = .LAD2) ∧ lv = { id := lv.id, surfaces := f.fresh levers } := by
  unfold PassFacts.order at h
  grind

lemma mem_rest (h : lv ∈ f.rest levers) :
    ∃ id noSwitch, (id = .LAD1 ∨ id = .LAD2) ∧ pulled levers id = false ∧
      lv = { id, surfaces := f.fresh levers, noSwitch } := by
  unfold PassFacts.rest at h
  dsimp only at h
  split at h
  · obtain ⟨o, ho, rfl⟩ := List.mem_map.mp h
    obtain ⟨horder, hnew⟩ := List.mem_filter.mp ho
    obtain ⟨hid, heq⟩ := mem_order horder
    exact ⟨o.id, _, hid, by simpa using hnew, by rw [heq]⟩
  · obtain ⟨horder, hnew⟩ := List.mem_filter.mp h
    obtain ⟨hid, heq⟩ := mem_order horder
    exact ⟨lv.id, ∅, hid, by simpa using hnew, heq⟩

/-- A lever is only allowed after a pass that failed, and only while a pass is left. -/
theorem pulled_of_choice (h : lv ∈ leverOptions f levers plan) :
    levers.length + 1 < maxPasses ∧ (Pull.choice f plan pick).Failed ∧
      Pulled levers (.choice f plan pick) lv := by
  unfold leverOptions at h
  split at h
  · cases h
  next hleft =>
  split at h
  · cases h
  next hmemory =>
  refine ⟨by omega, ?_⟩
  split at h
  · next hfailed =>
    have hinvalid : f.valid = false := by
      have := f.valid_built
      grind
    refine ⟨⟨by simpa using hmemory, by simp [hinvalid]⟩, ?_⟩
    have hmem : lv ∈ f.rest levers ∨ otherWay (f.fresh levers) = some lv := by
      dsimp only at h
      split at h <;> cases hway : otherWay (f.fresh levers) <;> grind
    obtain hrest | hway := hmem
    · obtain ⟨id, noSwitch, hid, hnew, rfl⟩ := mem_rest hrest
      exact .fill f plan pick id noSwitch hid hnew
    · unfold otherWay at hway
      split at hway
      · cases hway
      · next hsome =>
        obtain rfl := Option.some.inj hway
        exact .otherWay f plan pick hsome
  split at h
  · next hover =>
    split at h
    · cases h
    · next hnew =>
      obtain rfl := List.mem_singleton.mp h
      exact ⟨⟨by simpa using hmemory, by simp [hover]⟩,
        .coarser f plan pick hover (by simpa using hnew)⟩
  split at h
  · next hshort =>
    split at h
    · cases h
    · next hnew =>
      obtain rfl := List.mem_singleton.mp h
      exact ⟨⟨by simpa using hmemory, by simp [hshort]⟩, .finer f plan pick hshort (by grind)⟩
  · cases h

theorem pulled_of_lever (h : p.lever levers = some lv) :
    levers.length + 1 < maxPasses ∧ p.Failed ∧ Pulled levers p lv := by
  cases p with
  | choice f plan pick => exact pulled_of_choice (List.mem_of_getElem? h)
  | stall surface =>
    simp only [Pull.lever, surfaceStallLever] at h
    split at h
    · cases h
    · next hleft =>
      obtain rfl := Option.some.inj h
      exact ⟨by omega, trivial, .stall surface (by grind)⟩

/-! ## The settings with one more lever -/

lemma pulled_append : pulled (levers ++ [lv]) id = (pulled levers id || lv.id == id) := by
  simp [pulled]

lemma pulled_take (h : pulled levers id = false) (i : Nat) : pulled (levers.take i) id = false := by
  simp only [pulled, List.any_eq_false] at h ⊢
  exact fun lv hlv => h lv (List.mem_of_mem_take hlv)

lemma mem_union {part : Lever → Finset Int} {x : Int} :
    x ∈ union levers part ↔ ∃ lv ∈ levers, x ∈ part lv := by
  induction levers with
  | nil => simp [union]
  | cons lv levers ih =>
    simp only [union, List.foldr_cons, Finset.mem_union, List.mem_cons, exists_eq_or_imp] at ih ⊢
    rw [ih]

lemma union_append (part : Lever → Finset Int) :
    union (levers ++ [lv]) part = union levers part ∪ part lv := by
  ext x
  simp [mem_union]

lemma union_take_subset (part : Lever → Finset Int) (i : Nat) :
    union (levers.take i) part ⊆ union levers part := by
  intro x hx
  obtain ⟨lv, hlv, hx⟩ := mem_union.mp hx
  exact mem_union.mpr ⟨lv, List.mem_of_mem_take hlv, hx⟩

lemma surfaceSwitch_append :
    surfaceSwitch (levers ++ [lv]) =
      (surfaceSwitch levers && !(lv.id == .LAD8) && decide (lv.noSwitch = ∅)) := by
  simp only [surfaceSwitch, pulled, List.any_append, List.any_cons, List.any_nil, Bool.or_false]
  grind

lemma surfaceSwitch_take (h : surfaceSwitch levers = true) (i : Nat) :
    surfaceSwitch (levers.take i) = true := by
  simp only [surfaceSwitch, pulled, Bool.and_eq_true, Bool.not_eq_true', List.any_eq_false] at h ⊢
  exact ⟨fun lv hlv => h.1 lv (List.mem_of_mem_take hlv),
    fun lv hlv => h.2 lv (List.mem_of_mem_take hlv)⟩

lemma filter_id_of_not_pulled (h : pulled levers id = false) : levers.filter (·.id = id) = [] := by
  simp only [pulled, List.any_eq_false, beq_iff_eq] at h
  exact List.filter_eq_nil_iff.mpr (by simpa using h)

lemma coarseFactor_of_not_pulled (h : pulled levers .LAD4 = false) : coarseFactor levers = 1 := by
  simp [coarseFactor, filter_id_of_not_pulled h]

lemma tightened_of_not_pulled (h : pulled levers .LAD3 = false) : tightened levers = [] := by
  simp [tightened, filter_id_of_not_pulled h]

lemma set_ne_nil (d : List (String × ℚ)) (k : String) (v : ℚ) : Assoc.set d k v ≠ [] := by
  unfold Assoc.set
  split
  · next hkey =>
    obtain ⟨e, he, -⟩ := hkey
    exact fun hnil => List.ne_nil_of_mem he (List.map_eq_nil_iff.mp hnil)
  · simp

lemma foldl_set_ne_nil (zones : List String) (factor : List (String × ℚ) → String → ℚ)
    (d : List (String × ℚ)) (h : d ≠ [] ∨ zones ≠ []) :
    zones.foldl (fun out z => Assoc.set out z (factor out z)) d ≠ [] := by
  induction zones generalizing d with
  | nil => exact h.resolve_right (by simp)
  | cons z zones ih => exact ih _ (.inl (set_ne_nil d z _))

/-! ## The factor aimed at the limit -/

/-- Of at most 85 hundredths, the cube root stays under one when it is rounded. -/
lemma cbrt4_lt {num den : Nat} (hden : 0 < den) (h : 100 * num ≤ 85 * den) :
    cbrt4 num den < 10 ^ 4 := by
  unfold cbrt4
  dsimp only
  generalize hdown : Nat.findGreatest (fun k => k ^ 3 * den ≤ 10 ^ 12 * num)
    (10 ^ 4 * (num / den + 1)) = down
  have hspec : down ^ 3 * den ≤ 10 ^ 12 * num := by
    rw [← hdown]
    exact Nat.findGreatest_spec (P := fun k => k ^ 3 * den ≤ 10 ^ 12 * num) (Nat.zero_le _)
      (by simp)
  have hcube : 100 * down ^ 3 ≤ 85 * 10 ^ 12 := by
    refine Nat.le_of_mul_le_mul_right ?_ hden
    calc 100 * down ^ 3 * den = 100 * (down ^ 3 * den) := Nat.mul_assoc ..
      _ ≤ 100 * (10 ^ 12 * num) := Nat.mul_le_mul_left _ hspec
      _ = 10 ^ 12 * (100 * num) := by omega
      _ ≤ 10 ^ 12 * (85 * den) := Nat.mul_le_mul_left _ h
      _ = 85 * 10 ^ 12 * den := by omega
  have hlt : down < 9999 := by
    by_contra hge
    have hpow : 9999 ^ 3 ≤ down ^ 3 := Nat.pow_le_pow_left (by omega) 3
    omega
  split <;> omega

lemma limitFactor_lt_one (h : f.overLimit = true) : f.limitFactor < 1 := by
  simp only [PassFacts.overLimit, Bool.and_eq_true, decide_eq_true_eq] at h
  have hlt : cbrt4 (85 * f.limit) (100 * max f.cells 1) < 10 ^ 4 :=
    cbrt4_lt (by omega) (by omega)
  unfold PassFacts.limitFactor
  rw [div_lt_one (by norm_num)]
  exact_mod_cast hlt

/-! ## What a pull changes -/

/-- What every run keeps of the levers pulled. -/
structure Kept (levers : List Lever) : Prop where
  count : levers.length + 1 ≤ maxPasses
  once : Once levers
  /-- Surfaces that gmsh switched by itself ride along with a fill lever only. -/
  riding : ∀ lv ∈ levers, lv.noSwitch ≠ ∅ → lv.id = .LAD1 ∨ lv.id = .LAD2

lemma id_not_mem (h : pulled levers id = false) : id ∉ levers.map (·.id) := by
  simp only [pulled, List.any_eq_false, beq_iff_eq] at h
  simpa using h

theorem kept_append (h : Kept levers) (hleft : levers.length + 1 < maxPasses)
    (hp : Pulled levers p lv) : Kept (levers ++ [lv]) := by
  refine ⟨by simp only [List.length_append, List.length_singleton]; omega, ?_, ?_⟩
  · have hnew : lv.id = .LAD6 ∨ pulled levers lv.id = false := by
      cases hp with
      | otherWay => exact .inl rfl
      | fill _ _ _ _ _ _ hnew | coarser _ _ _ _ hnew | finer _ _ _ _ hnew | stall _ hnew =>
        exact .inr hnew
    unfold Once
    rw [List.map_append, List.filter_append]
    obtain hway | hnew := hnew
    · simpa [hway, Once] using h.once
    · refine List.nodup_append'.mpr ⟨h.once, List.Nodup.filter _ (List.nodup_singleton _), ?_⟩
      intro i hi hlv
      have hi' := List.mem_of_mem_filter hi
      obtain rfl : i = lv.id := by simpa using List.mem_of_mem_filter hlv
      exact id_not_mem hnew hi'
  · intro v hv hriding
    obtain hv | hv := List.mem_append.mp hv
    · exact h.riding v hv hriding
    · obtain rfl := List.mem_singleton.mp hv
      cases hp with
      | fill _ _ _ _ _ hid => exact hid
      | otherWay | coarser | finer | stall => exact absurd rfl hriding

/-- A fill lever that no earlier pass had shows in the algorithm or in the optimisation. -/
lemma settings_ne_of_fill {ks ls : List Lever} (hid : id = .LAD1 ∨ id = .LAD2)
    (hk : pulled ks id = false) (hl : pulled ls id = true) : settings ks ≠ settings ls := by
  intro heq
  obtain rfl | rfl := hid
  · have hopt := congrArg PassSettings.optimisePasses heq
    simp [settings, hk, hl, optimisePasses] at hopt
  · have halg := congrArg PassSettings.algorithm3d heq
    simp [settings, hk, hl] at halg

lemma pulled_of_mem (h : lv ∈ levers) : pulled levers lv.id = true :=
  List.any_eq_true.mpr ⟨lv, h, beq_self_eq_true _⟩

lemma fill_of_switch_off (h : Kept levers) (hnew : pulled levers .LAD8 = false)
    (hoff : surfaceSwitch levers = false) : ∃ lv ∈ levers, lv.id = .LAD1 ∨ lv.id = .LAD2 := by
  simp only [surfaceSwitch, hnew, Bool.not_false, Bool.true_and, Bool.not_eq_false',
    List.any_eq_true, decide_eq_true_eq] at hoff
  obtain ⟨lv, hlv, hriding⟩ := hoff
  exact ⟨lv, hlv, h.riding lv hlv hriding⟩

/-- Where the pull meets the condition, the next pass has settings that no pass before it had. -/
theorem settings_ne_append (h : Kept levers) (hleft : levers.length + 1 < maxPasses)
    (hlever : p.lever levers = some lv) (hchanges : Changes levers p) {i : Nat}
    (hi : i ≤ levers.length) : settings (levers.take i) ≠ settings (levers ++ [lv]) := by
  obtain ⟨-, -, hp⟩ := pulled_of_lever hlever
  cases hp with
  | fill f plan pick id noSwitch hid hnew =>
    exact settings_ne_of_fill hid (pulled_take hnew i) (by simp [pulled_append])
  | otherWay f plan pick hsome =>
    -- a surface that no lever has named before goes on MeshAdapt
    have hfresh : ¬ f.fresh levers ⊆ stuck levers := hchanges (by
      rw [show (leverOptions f levers plan)[pick]? = _ from hlever]
      rfl)
    obtain ⟨x, hx, hfree⟩ := Finset.not_subset.mp hfresh
    intro heq
    have hremesh := congrArg (x ∈ PassSettings.remeshSurfaces ·) heq
    have hnot : x ∉ remeshed levers := by
      simp only [PassFacts.fresh, Finset.mem_sdiff] at hx
      exact hx.2
    have hbefore : x ∉ remeshed (levers.take i) := fun hmem => hnot (union_take_subset _ i hmem)
    simp only [settings, Finset.mem_sdiff, hbefore, false_and, eq_iff_iff, false_iff, not_and,
      not_not] at hremesh
    refine hfree ?_
    have hstuck := hremesh (by simp [remeshed, union_append, hx])
    simpa [stuck, noSwitched, union_append] using hstuck
  | coarser f plan pick htooMany hnew =>
    intro heq
    have hfactor : coarseFactor (levers.take i) = coarseFactor _ :=
      congrArg PassSettings.coarseFactor heq
    have hnow : coarseFactor (levers ++ [{ id := .LAD4, factor := f.limitFactor }]) =
        f.limitFactor := by
      simp [coarseFactor, filter_id_of_not_pulled hnew]
    rw [coarseFactor_of_not_pulled (pulled_take hnew i), hnow] at hfactor
    exact absurd (limitFactor_lt_one htooMany) (by simp [← hfactor])
  | finer f plan pick hshort hnew =>
    intro heq
    have hzones : tightened (levers.take i) = tightened _ := congrArg PassSettings.tightened heq
    rw [tightened_of_not_pulled (pulled_take hnew i)] at hzones
    refine foldl_set_ne_nil _ (fun out z => (out.lookup z).getD 1 * tighten) [] (.inr ?_)
      hzones.symm
    have hsorted : f.short.mergeSort ≠ [] := fun hnil =>
      hshort (List.perm_nil.mp (hnil ▸ (List.mergeSort_perm _ _).symm))
    simpa [filter_id_of_not_pulled hnew] using hsorted
  | stall surface hnew =>
    intro heq
    have hoff : surfaceSwitch (levers ++ [{ id := .LAD8, stalled := some surface }]) = false := by
      simp [surfaceSwitch_append]
    cases hon : surfaceSwitch levers with
    | true =>
      have hswitch := congrArg PassSettings.surfaceSwitch heq
      simp [settings, surfaceSwitch_take hon i, hoff] at hswitch
    | false =>
      have hmem := (hchanges hnew).resolve_left (by simp [hon])
      obtain hlt | rfl := Nat.lt_or_eq_of_le hi
      · -- gmsh's switch went off with a fill lever, and that one is the first
        obtain ⟨v, hv, hid⟩ := fill_of_switch_off h hnew hon
        have hzero : i = 0 := by
          unfold maxPasses at hleft
          omega
        subst hzero
        exact settings_ne_of_fill hid rfl (by simp [pulled_append, pulled_of_mem hv]) heq
      · -- the stalled surface is taken off MeshAdapt
        have hremesh := congrArg PassSettings.remeshSurfaces heq
        rw [List.take_length] at hremesh
        have hstuck : surface ∈ stuck (levers ++ [{ id := .LAD8, stalled := some surface }]) := by
          simp [stuck, union_append]
        have hmem' : surface ∈ (settings levers).remeshSurfaces := hmem
        rw [hremesh] at hmem'
        exact (Finset.mem_sdiff.mp hmem').2 hstuck

/-- The other way and the lever of a stalled stage show in the surfaces and the switch only. -/
lemma settings_append_of_surfaces (hid : lv.id = .LAD6 ∨ lv.id = .LAD8)
    (hremesh : remeshed (levers ++ [lv]) \ stuck (levers ++ [lv]) =
      remeshed levers \ stuck levers)
    (hswitch : surfaceSwitch (levers ++ [lv]) = surfaceSwitch levers) :
    settings (levers ++ [lv]) = settings levers := by
  have hsame {id : LeverId} (hne : lv.id ≠ id) : pulled (levers ++ [lv]) id = pulled levers id := by
    simp [pulled_append, hne]
  have hfilter {id : LeverId} (hne : lv.id ≠ id) :
      (levers ++ [lv]).filter (·.id = id) = levers.filter (·.id = id) := by
    simp [List.filter_append, hne]
  have hone : lv.id ≠ .LAD1 := by grind
  have htwo : lv.id ≠ .LAD2 := by grind
  have hthree : lv.id ≠ .LAD3 := by grind
  have hfour : lv.id ≠ .LAD4 := by grind
  simp only [settings, growth, coarseFactor, tightened, hremesh, hswitch, hsame hone, hsame htwo,
    hfilter hthree, hfilter hfour]

/-- Where it does not, the next pass has the settings of the one before. -/
theorem settings_append_eq (hlever : p.lever levers = some lv) (h : ¬ Changes levers p) :
    settings (levers ++ [lv]) = settings levers := by
  obtain ⟨-, -, hp⟩ := pulled_of_lever hlever
  cases hp with
  | fill f plan pick id noSwitch hid =>
    refine absurd (fun hway => ?_) h
    rw [show (leverOptions f levers plan)[pick]? = _ from hlever] at hway
    obtain rfl : id = .LAD6 := Option.some.inj hway
    simp at hid
  | coarser f plan pick | finer f plan pick =>
    refine absurd (fun hway => ?_) h
    rw [show (leverOptions f levers plan)[pick]? = _ from hlever] at hway
    cases hway
  | otherWay f plan pick =>
    have hstuck : f.fresh levers ⊆ stuck levers := by
      by_contra hnot
      exact h fun _ => hnot
    refine settings_append_of_surfaces (.inl rfl) ?_ (by simp [surfaceSwitch_append])
    have hsame : stuck (levers ++ [{ id := .LAD6, surfaces := f.fresh levers }]) =
        stuck levers := by
      simp [stuck, noSwitched, union_append]
    rw [hsame, remeshed, union_append, Finset.union_sdiff_distrib,
      Finset.sdiff_eq_empty_iff_subset.mpr hstuck, Finset.union_empty]
    rfl
  | stall surface hnew =>
    obtain ⟨hoff, hnot⟩ : surfaceSwitch levers = false ∧
        surface ∉ remeshed levers \ stuck levers := by
      simpa [Changes, hnew] using h
    refine settings_append_of_surfaces (.inr rfl) ?_ (by simp [surfaceSwitch_append, hoff])
    ext x
    simp only [remeshed, stuck, noSwitched, union_append, Finset.mem_sdiff, Finset.mem_union]
      at hnot ⊢
    grind

/-! ## Runs -/

lemma differ_append (h : SettingsDiffer levers)
    (hnew : ∀ i ≤ levers.length, settings (levers.take i) ≠ settings (levers ++ [lv])) :
    SettingsDiffer (levers ++ [lv]) := by
  intro i j hij hj
  rw [List.length_append, List.length_singleton] at hj
  rw [List.take_append_of_le_length (by omega)]
  obtain hle | rfl := Nat.le_succ_iff.mp hj
  · rw [List.take_append_of_le_length hle]
    exact h i j hij hle
  · have hwhole : (levers ++ [lv]).take levers.length.succ = levers ++ [lv] :=
      List.take_of_length_le (by simp)
    rw [hwhole]
    exact hnew i (by omega)

lemma step_eq (h : machine.step levers p = some ks) :
    ∃ lv, p.lever levers = some lv ∧ ks = levers ++ [lv] := by
  obtain ⟨lv, hlever, rfl⟩ := Option.map_eq_some_iff.mp h
  exact ⟨lv, hlever, rfl⟩

theorem kept_step (h : Kept levers) (hstep : machine.step levers p = some ks) : Kept ks := by
  obtain ⟨lv, hlever, rfl⟩ := step_eq hstep
  obtain ⟨hleft, -, hp⟩ := pulled_of_lever hlever
  exact kept_append h hleft hp

theorem differ_step (h : Kept levers ∧ SettingsDiffer levers) (hchanges : Changes levers p)
    (hstep : machine.step levers p = some ks) : Kept ks ∧ SettingsDiffer ks := by
  refine ⟨kept_step h.1 hstep, ?_⟩
  obtain ⟨lv, hlever, rfl⟩ := step_eq hstep
  obtain ⟨hleft, -⟩ := pulled_of_lever hlever
  exact differ_append h.2 fun i hi => settings_ne_append h.1 hleft hlever hchanges hi

lemma kept_start : Kept [] := ⟨by decide, List.nodup_nil, by simp⟩

/-- The levers pulled are never taken back. -/
theorem prefix_exec (hexec : machine.exec levers pulls = some ks) : levers <+: ks := by
  refine Transition.Machine.exec_relates (m := machine) (P := fun _ _ => True)
    (I := fun _ => True) (R := (· <+: ·)) (fun _ => List.prefix_rfl) List.IsPrefix.trans
    (fun _ _ _ _ _ _ => trivial) ?_ trivial (Transition.Machine.meets_of_forall fun _ _ => trivial)
    hexec
  rintro s p t - - hstep
  obtain ⟨lv, -, rfl⟩ := step_eq hstep
  exact List.prefix_append _ _

/-- A run without two like passes meets the condition at every pull. -/
theorem changes_of_differ (hexec : machine.exec levers pulls = some ks)
    (hdiffer : SettingsDiffer ks) : machine.Meets Changes levers pulls := by
  induction pulls generalizing levers with
  | nil => trivial
  | cons p pulls ih =>
    obtain ⟨t, hstep, hrest⟩ := Transition.Machine.exec_cons_eq_some.mp hexec
    refine (Transition.Machine.meets_cons hstep).mpr ⟨?_, ih hrest⟩
    by_contra hsame
    obtain ⟨lv, hlever, rfl⟩ := step_eq hstep
    obtain ⟨later, rfl⟩ := prefix_exec hrest
    refine hdiffer levers.length (levers.length + 1) (Nat.lt_succ_self _) (by simp) ?_
    have hafter : (levers ++ [lv] ++ later).take (levers.length + 1) = levers ++ [lv] := by
      rw [List.take_append_of_le_length (by simp), List.take_of_length_le (by simp)]
    have hbefore : (levers ++ [lv] ++ later).take levers.length = levers := by
      rw [List.append_assoc, List.take_left']
      rfl
    rw [hafter, hbefore]
    exact (settings_append_eq hlever hsame).symm

theorem failed_exec (hexec : machine.exec levers pulls = some ks) : ∀ p ∈ pulls, p.Failed := by
  induction pulls generalizing levers with
  | nil => simp
  | cons p pulls ih =>
    obtain ⟨t, hstep, hrest⟩ := Transition.Machine.exec_cons_eq_some.mp hexec
    obtain ⟨lv, hlever, rfl⟩ := step_eq hstep
    obtain ⟨-, hfailed, -⟩ := pulled_of_lever hlever
    exact List.forall_mem_cons.mpr ⟨hfailed, ih hrest⟩

theorem deliversBest (passes : List PassFacts) : DeliversBest passes := by
  have hmem (f : PassFacts) : f ∈ Buckets.sortBy rank (passes.filter (·.valid)) ↔
      f ∈ passes ∧ f.valid = true := by
    rw [Buckets.mem_sortBy, List.mem_filter]
  have hsorted := Buckets.pairwise_sortBy rank (passes.filter (·.valid))
  unfold DeliversBest bestPass
  cases hranked : Buckets.sortBy rank (passes.filter (·.valid)) with
  | nil =>
    intro f hf
    have hnone : f ∉ Buckets.sortBy rank (passes.filter (·.valid)) := by simp [hranked]
    simpa [hf] using (hmem f).not.mp hnone
  | cons f ranked =>
    rw [hranked] at hsorted hmem
    obtain ⟨hf, hvalid⟩ := (hmem f).mp List.mem_cons_self
    have hbest : ∃ f' ∈ passes, f'.pass = f.pass ∧ f'.valid = true ∧
        ∀ g ∈ passes, g.valid = true → rank f' ≤ rank g := by
      refine ⟨f, hf, rfl, hvalid, fun g hg hgvalid => ?_⟩
      obtain rfl | hlater := List.mem_cons.mp ((hmem g).mpr ⟨hg, hgvalid⟩)
      · exact le_rfl
      · exact (List.pairwise_cons.mp hsorted).1 g hlater
    cases ranked <;> exact hbest

/-- The fixed ladder's own lever is one of the choices. -/
theorem lever_choice_zero (f : PassFacts) (levers : List Lever) (plan : Plan) :
    (Pull.choice f plan 0).lever levers = nextLever f levers plan := by
  simp [Pull.lever, nextLever, List.head?_eq_getElem?]

/-- A run of the ladder is sound exactly when each of its pulls meets the condition. -/
theorem ladder_sound_iff {pulls : List Pull} {levers : List Lever}
    (h : machine.exec [] pulls = some levers) :
    LadderSound pulls levers ↔ machine.Meets Changes [] pulls := by
  constructor
  · exact fun hsound => changes_of_differ h hsound.differ
  · intro hchanges
    have hnone : SettingsDiffer [] := by
      intro i j hij hj
      simp at hj
      omega
    obtain ⟨hkept, hdiffer⟩ := Transition.Machine.exec_invariant
      (I := fun ls => Kept ls ∧ SettingsDiffer ls) (fun _ _ _ => differ_step)
      ⟨kept_start, hnone⟩ hchanges h
    exact ⟨hdiffer, hkept.count, hkept.once, failed_exec h, deliversBest⟩

/-- A fill that came back without a mesh. -/
def failedFill (badSurfaces switched : Finset Int) : PassFacts where
  pass := 1
  built := false
  valid := false
  offCount := false
  minSicn := none
  cells := 0
  limit := 1000000
  short := []
  badSurfaces := badSurfaces
  surfacesTotal := 40
  switched := switched
  outOfMemory := false
  valid_built h := h
  memory_unbuilt _ := rfl

def rulesPlan : Plan := ⟨false, false, none⟩

/-- The other algorithm, and then the other way for a surface of its own. -/
def otherWayRun : List Pull :=
  [.choice (failedFill {5} {7}) rulesPlan 0, .choice (failedFill {8} ∅) rulesPlan 0]

theorem ladder_sound_otherWayRun :
    ∃ levers, machine.exec [] otherWayRun = some levers ∧ LadderSound otherWayRun levers :=
  ⟨_, rfl, (@ladder_sound_iff otherWayRun _ rfl).mpr (by decide +kernel)⟩

/-- Surface 7, which gmsh had switched by itself, is the one that goes wrong next. -/
def stuckRun : List Pull :=
  [.choice (failedFill {5} {7}) rulesPlan 0, .choice (failedFill {7} ∅) rulesPlan 0]

/-- The surface stage stalls once gmsh's switch is off. -/
def stalledRun : List Pull := [.choice (failedFill ∅ {7}) rulesPlan 0, .stall 9]

/-- The third pass of either run has the settings of the second. -/
theorem ladder_repeats :
    ¬ (∀ pulls levers, machine.exec [] pulls = some levers → LadderSound pulls levers) ∧
      ∃ levers, machine.exec [] stalledRun = some levers ∧
        settings (levers.take 1) = settings (levers.take 2) := by
  refine ⟨fun hall => ?_, _, rfl, by decide +kernel⟩
  have hdiffer := (hall stuckRun _ rfl).differ 1 2 (by decide) (by decide)
  exact hdiffer (by decide +kernel)

end MeshPipeline.Fea.Ladder
