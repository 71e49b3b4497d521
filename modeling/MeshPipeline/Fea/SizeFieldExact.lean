import Mathlib.Algebra.Order.Ring.Rat
import Mathlib.Tactic.Positivity
import MeshPipeline.Fea.ElementCount
import MeshPipeline.Fea.SizeField

/-!
# The size field is exact

Neither the boxes that rule groups out nor the order of the groups nor the slices show in the sizes,
and at no point is a size coarser than any zone alone asks for.
-/

namespace MeshPipeline.Fea

namespace SizeField

variable {T E P K : Type*} [Field K] [LinearOrder K] {growth r : K} {g : Group P K} {p : P}

/-! ## Groups and the items they hold -/

section Items

variable {S : Surface T E P K} {faces faces' : List String} {t : T}

lemma mem_trisOf : t ∈ S.trisOf faces ↔
    t ∈ S.tris ∧ ∃ f ∈ faces, ∃ k, S.index f = some k ∧ S.label t = some k := by
  simp only [Surface.trisOf, List.mem_filter, List.any_eq_true, List.mem_filterMap,
    decide_eq_true_eq]
  grind

lemma trisOf_congr (h : ∀ f, f ∈ faces ↔ f ∈ faces') : S.trisOf faces = S.trisOf faces' := by
  refine List.filter_congr fun t _ => Bool.eq_iff_iff.mpr ?_
  simp only [List.any_eq_true, List.mem_filterMap, h]

omit [Field K] [LinearOrder K] in
lemma mem_sortedFaces {zs : List (Zone P K)} {f : String} :
    f ∈ sortedFaces zs ↔ ∃ z ∈ zs, f ∈ z.faces := by
  simp [sortedFaces]

lemma edgesOf_take_two [DecidableEq E] : S.edgesOf (faces.take 2) = S.edgesOf faces := by
  simp [Surface.edgesOf, List.take_take]

lemma mem_around {X : Type*} (D : Distances X P K) (size reach : K) {xs : List X}
    (balls : Option (P → K)) (h : xs ≠ []) : ∃ g, D.around size reach xs balls = some g ∧
      g.size = size ∧ g.reach = reach ∧ g.balls = balls ∧ g.inside = false ∧
        g.dist = D.nearest xs := by
  rw [Distances.around, dif_neg h]
  exact ⟨_, rfl, rfl, rfl, rfl, rfl, rfl⟩

/-- A face group reaches every triangle of its faces. -/
lemma exists_faceGroup [DecidableEq E] {zg : ZoneGroup P K} (hpart : zg.part = "")
    (hballs : zg.balls = []) (hedge : zg.edge = false) (ht : t ∈ S.trisOf zg.faces) :
    ∃ g ∈ groupsOf S zg, g.size = zg.size ∧ g.reach = zg.reach ∧ g.balls = none ∧
      g.inside = false ∧ ∀ p, g.dist p ≤ S.faces.dist t p := by
  obtain ⟨htris, f, hf, hlabel⟩ := mem_trisOf.mp ht
  obtain ⟨fs, hfs, hmem⟩ :=
    Assoc.exists_mem_group (f := fun f => some ((faceKey f).1, f)) hf rfl
  have ht' : t ∈ S.trisOf fs := mem_trisOf.mpr ⟨htris, f, hmem, hlabel⟩
  obtain ⟨g, hg, hsize, hreach, hnone, hin, hdist⟩ :=
    mem_around S.faces zg.size zg.reach none (List.ne_nil_of_mem ht')
  refine ⟨g, ?_, hsize, hreach, hnone, hin, fun p => hdist ▸ S.faces.nearest_le ht' p⟩
  simp only [groupsOf, hpart, hballs, hedge]
  exact List.mem_filterMap.mpr ⟨_, hfs, hg⟩

end Items

section ZoneGroups

variable (bands : Bands K) {zones : List (Zone P K)} {z : Zone P K}

lemma mem_sized (hz : z ∈ zones) (hpos : 0 < z.size) : z ∈ zones.filter (0 < ·.size) :=
  List.mem_filter.mpr ⟨hz, by simpa using hpos⟩

/-- A zone's bucket is as fine, reaches as far and holds its faces. -/
lemma exists_bucketGroup {k : ℤ ×ₗ Bool ×ₗ ℤ} (hz : z ∈ zones) (hpos : 0 < z.size)
    (h : bucketOf bands z = some (k, z)) : ∃ zg ∈ groupZones bands zones, zg.size ≤ z.size ∧
      z.reach ≤ zg.reach ∧ zg.part = "" ∧ zg.balls = [] ∧ zg.edge = (ofLex (ofLex k).2).1 ∧
        (∀ f ∈ z.faces, f ∈ zg.faces) ∧ (zg.edge = true → z.faces.take 2 ∈ zg.edges) := by
  obtain ⟨zs, hzs, hmem⟩ := Assoc.exists_mem_group (mem_sized hz hpos) h
  refine ⟨bucketGroup (k, zs), ?_, least_le (List.mem_map_of_mem hmem),
    le_greatest (List.mem_map_of_mem hmem), rfl, rfl, rfl,
    fun f hf => mem_sortedFaces.mpr ⟨z, hmem, hf⟩, fun hedge => ?_⟩
  · refine List.mem_append_left _ (List.mem_append_left _ (List.mem_map_of_mem ?_))
    exact Buckets.mem_sortBy.mpr hzs
  · have hk : (ofLex (ofLex k).2).1 = true := hedge
    simp only [bucketGroup, hk, if_true]
    exact List.mem_map_of_mem (f := (·.faces.take 2)) hmem

lemma exists_spotGroup {k : ℤ × String} {ball : Ball P K} (hz : z ∈ zones) (hpos : 0 < z.size)
    (h : spotOf bands z = some (k, z, ball)) : ∃ zg ∈ groupZones bands zones, zg.size ≤ z.size ∧
      z.reach ≤ zg.reach ∧ zg.part = "" ∧ ball ∈ zg.balls ∧ zg.faces = [k.2] := by
  obtain ⟨zs, hzs, hmem⟩ := Assoc.exists_mem_group (mem_sized hz hpos) h
  refine ⟨spotGroup (k, zs), ?_, least_le ?_, le_greatest ?_, rfl,
    List.mem_map_of_mem (f := (·.2)) hmem, rfl⟩
  · refine List.mem_append_left _ (List.mem_append_right _ (List.mem_map_of_mem ?_))
    exact Buckets.mem_sortBy.mpr hzs
  · exact List.mem_map_of_mem (f := (·.1.size)) hmem
  · exact List.mem_map_of_mem (f := (·.1.reach)) hmem

lemma mem_groupZones_of_part {label : String} (hz : z ∈ zones) (hpos : 0 < z.size)
    (h : z.kind = .part label) :
    { size := z.size, reach := z.reach, edge := false, faces := sortedFaces [z], part := label } ∈
      groupZones bands zones :=
  List.mem_append_right _ (List.mem_filterMap.mpr ⟨z, mem_sized hz hpos, by simp [partGroup, h]⟩)

end ZoneGroups

/-! ## The readings of groups -/

lemma Group.reading_fst_le_snd : (g.reading growth r p).1 ≤ (g.reading growth r p).2 := by
  unfold Group.reading
  split
  · exact le_top
  · exact le_rfl

lemma Group.reading_of_outside (h : g.inside = false) :
    g.reading growth r p = (g.law growth p, g.law growth p) := by
  simp [Group.reading, h]

lemma inFull_eq_total (gs : List (Group P K)) :
    inFull growth r gs p = PrunedInf.total (Group.reading growth r · p) gs := by
  rw [inFull, PrunedInf.total, Multiset.inf, Multiset.coe_fold_l, List.foldl_map]

lemma sizes_le (F : SizeField P K) (hg : g ∈ F.groups) :
    (inFull F.growth r F.groups p).1 ≤ g.law F.growth p := by
  rw [inFull_eq_total]
  exact (PrunedInf.total_le (Group.reading F.growth r · p) hg).1

lemma inFull_fst_le_snd (gs : List (Group P K)) :
    (inFull growth r gs p).1 ≤ (inFull growth r gs p).2 := by
  induction gs using List.reverseRecOn with
  | nil => exact le_rfl
  | append_singleton gs g ih =>
    rw [inFull, List.foldl_append]
    exact inf_le_inf ih Group.reading_fst_le_snd

/-! ## Pruning -/

/-- A group's box rules it out. -/
def ruledOut (growth : K) (p : P) (s : Sizes K) (g : Group P K) : Prop :=
  g.inside = false ∧ s.2 ≤ g.floor growth p

instance : ∀ s (g : Group P K), Decidable (ruledOut growth p s g) :=
  fun _ _ => inferInstanceAs (Decidable (_ ∧ _))

/-- A group met at all points is the group met at each. -/
lemma measure_eq (rows : List (P × Sizes K)) : measure growth r rows g = rows.map fun row =>
    (row.1, if ruledOut growth row.1 row.2 g then row.2 else row.2 ⊓ g.reading growth r row.1) := by
  unfold measure
  by_cases hin : g.inside
  · simp [hin, ruledOut]
  · rw [if_neg hin]
    have hout : g.inside = false := by simpa using hin
    dsimp only
    split
    · refine List.map_congr_left fun row _ => ?_
      by_cases hlook : g.floor growth row.1 < row.2.2
      · simp [ruledOut, hlook, Group.reading_of_outside hout]
      · have hle : row.2.2 ≤ g.floor growth row.1 := not_lt.mp hlook
        have htop : row.2 ⊓ ((⊤, ⊤) : Sizes K) = row.2 := inf_top_eq row.2
        simp [ruledOut, hle, hout, not_lt.mpr hle, htop]
    · next hnone =>
      -- where no point has to look, the group is passed over as a whole
      refine (List.map_id' rows).symm.trans (List.map_congr_left fun row hrow => ?_)
      have hle : row.2.2 ≤ g.floor growth row.1 := by
        by_contra hlt
        exact hnone (List.any_eq_true.mpr ⟨row, hrow, by simpa using hlt⟩)
      simp [ruledOut, hle, hout]

lemma foldl_measure (gs : List (Group P K)) (rows : List (P × Sizes K)) :
    gs.foldl (measure growth r) rows = rows.map fun row =>
      (row.1, PrunedInf.sweep (ruledOut growth row.1) (Group.reading growth r · row.1) gs row.2) := by
  induction gs generalizing rows with
  | nil => simp [PrunedInf.sweep]
  | cons g gs ih =>
    rw [List.foldl_cons, measure_eq, ih, List.map_map]
    rfl

variable [IsStrictOrderedRing K]

/-- A finer size that has grown from further out is finer. -/
lemma grown_mono {size size' past past' : K} (hgrowth : 1 ≤ growth) (hsize : size ≤ size')
    (hpast : past ≤ past') : grown growth size past ≤ grown growth size' past' := by
  have hrate : 0 ≤ growth - 1 := sub_nonneg.mpr hgrowth
  unfold grown
  gcongr

lemma Group.floor_le_law (hgrowth : 1 ≤ growth) (h : g.inside = false) :
    g.floor growth p ≤ g.law growth p := by
  refine WithTop.coe_le_coe.mpr (grown_mono hgrowth le_rfl ?_)
  have hbox : g.box p - g.reach ≤ g.measured p - g.reach := by
    simpa [Group.measured, h] using g.box_le h p
  unfold Group.past
  cases g.balls with
  | none => simpa [h] using hbox
  | some balls => simpa [h] using Or.inl hbox

/-- At every point stands what all groups ask for there, in whatever order. -/
theorem sizes_eq_inFull (F : SizeField P K) {order : List (Group P K)} (h : order.Perm F.groups)
    (ps : List P) (r : K) : F.sizes ps r = ps.map (inFull F.growth r order) := by
  rw [sizes, foldl_measure, List.map_map, List.map_map]
  refine List.map_congr_left fun p _ => ?_
  have hkeep : ∀ (s : Sizes K) (g : Group P K), s.1 ≤ s.2 →
      (s ⊓ g.reading F.growth r p).1 ≤ (s ⊓ g.reading F.growth r p).2 :=
    fun s g hs => inf_le_inf hs Group.reading_fst_le_snd
  have hskip : ∀ (s : Sizes K) (g : Group P K), s.1 ≤ s.2 → ruledOut F.growth p s g →
      s ≤ g.reading F.growth r p := by
    rintro s g hs ⟨hout, hle⟩
    rw [Group.reading_of_outside hout]
    have hlaw := hle.trans (Group.floor_le_law F.growth_ge hout)
    exact ⟨hs.trans hlaw, hlaw⟩
  rw [inFull_eq_total, PrunedInf.total_perm h]
  exact (PrunedInf.sweep_eq F.groups hkeep hskip le_rfl).trans (top_inf_eq _)

/-- Evaluating slices evaluates the whole. -/
theorem flatMap_sizes (F : SizeField P K) {slices : List (List P)} {ps : List P}
    (h : slices.flatten = ps) (r : K) : slices.flatMap (F.sizes · r) = F.sizes ps r := by
  subst h
  simp only [sizes_eq_inFull F (List.Perm.refl _)]
  rw [List.map_flatten]
  rfl

lemma flatten_arraySplit {α : Type*} {n : ℕ} (hn : 0 < n) (xs : List α) :
    (arraySplit n xs).flatten = xs := by
  refine List.flatten_splitLengths _ _ (le_of_eq ?_)
  have hlt := Nat.mod_lt xs.length hn
  have hdiv := Nat.div_add_mod xs.length n
  simp only [List.sum_append, List.sum_replicate, nsmul_eq_mul, Nat.cast_id]
  rw [mul_add, mul_one, add_right_comm, ← add_mul, Nat.add_sub_cancel' hlt.le, hdiv]

theorem on_eq_sizes (F : SizeField P K) (pool : Option ℕ+) (ps : List P) (r : K) :
    F.on pool ps r = F.sizes ps r := by
  cases pool with
  | none => rfl
  | some n =>
    unfold on
    dsimp only
    split
    · rfl
    · exact flatMap_sizes F (flatten_arraySplit (by positivity) ps) r

/-! ## What the zones ask for -/

/-- A group that is as fine as a size, and reaches as far, is as fine where it is as near. -/
lemma Group.law_le {size past : K} (hgrowth : 1 ≤ growth) (hsize : g.size ≤ size)
    (hpast : g.past p ≤ past) : g.law growth p ≤ grown growth size past :=
  WithTop.coe_le_coe.mpr (grown_mono hgrowth hsize hpast)

section Zones

variable {S : Surface T E P K} {bands : Bands K} {zones : List (Zone P K)} {z : Zone P K}
  {zg : ZoneGroup P K}

variable [DecidableEq E] in
/-- A face group asks for no more than a zone of it does. -/
lemma exists_law_le_of_faces (hgrowth : 1 ≤ growth) (hpart : zg.part = "") (hballs : zg.balls = [])
    (hedge : zg.edge = false) (hsize : zg.size ≤ z.size) (hreach : z.reach ≤ zg.reach)
    (hfaces : ∀ f ∈ z.faces, f ∈ zg.faces) (hts : S.trisOf z.faces ≠ []) (p : P) :
    ∃ g ∈ groupsOf S zg,
      g.law growth p ≤ grown growth z.size (S.faces.nearest (S.trisOf z.faces) p - z.reach) := by
  obtain ⟨t, ht, hnear⟩ := S.faces.exists_nearest hts p
  obtain ⟨htris, f, hf, hlabel⟩ := mem_trisOf.mp ht
  obtain ⟨g, hg, hs, hr, hb, hin, hdist⟩ :=
    exists_faceGroup hpart hballs hedge (mem_trisOf.mpr ⟨htris, f, hfaces f hf, hlabel⟩)
  refine ⟨g, hg, Group.law_le hgrowth (hs.trans_le hsize) ?_⟩
  have hpast : g.past p = g.dist p - g.reach := by simp [Group.past, Group.measured, hb, hin]
  rw [hpast, hnear]
  exact sub_le_sub (hdist p) (hr ▸ hreach)

/-- A part's group asks for no more than the part's base does: outside, the distance to its box is
no more than the distance to the part. -/
lemma law_through_le {ts : List T} (hgrowth : 1 ≤ growth) (size reach : K) (hts : ts ≠ []) (p : P) :
    ∃ g, S.through size reach ts = some g ∧
      g.law growth p ≤ grown growth size (max 0 (S.signed ts p) - reach) := by
  rw [Surface.through, if_neg hts]
  refine ⟨_, rfl, Group.law_le hgrowth le_rfl ?_⟩
  refine sub_le_sub_right (max_le_max_left 0 ?_) reach
  rw [Group.measured, if_pos rfl]
  split
  · next hbox => exact S.box_le_signed ts p hbox
  · exact le_rfl

/-- Thin spots ask for no more than one of them does. -/
lemma law_around_balls_le {size reach : K} {ts : List T} {ball : Ball P K} {balls : List (Ball P K)}
    (hgrowth : 1 ≤ growth) (hsize : size ≤ z.size) (hreach : z.reach ≤ reach) (hts : ts ≠ [])
    (hball : ball ∈ balls) (p : P) :
    ∃ g, S.faces.around size reach ts (some (pastBalls S balls)) = some g ∧
      g.law growth p ≤
        grown growth z.size (max (S.faces.nearest ts p - z.reach) (ball.past S p)) := by
  obtain ⟨g, hg, hs, hr, hb, hin, hdist⟩ := mem_around S.faces size reach
    (some (pastBalls S balls)) hts
  refine ⟨g, hg, Group.law_le hgrowth (hs.trans_le hsize) ?_⟩
  have hnear : pastBalls S balls p ≤ ball.past S p :=
    least_le (List.mem_map_of_mem (f := (·.past S p)) hball)
  have hpast : g.past p = max (S.faces.nearest ts p - reach) (pastBalls S balls p) := by
    simp [Group.past, Group.measured, hb, hin, hdist, hr]
  rw [hpast]
  exact max_le_max (sub_le_sub_left hreach _) hnear

/-- Edges ask for no more than a corner on one of them does. -/
lemma law_around_edges_le {size reach : K} {es es' : List E} (hgrowth : 1 ≤ growth)
    (hsize : size ≤ z.size) (hreach : z.reach ≤ reach) (hes : es ≠ []) (hsub : es ⊆ es') (p : P) :
    ∃ g, S.shared.around size reach es' none = some g ∧
      g.law growth p ≤ grown growth z.size (S.shared.nearest es p - z.reach) := by
  obtain ⟨e, he, hnear⟩ := S.shared.exists_nearest hes p
  obtain ⟨g, hg, hs, hr, hb, hin, hdist⟩ := mem_around S.shared size reach none
    (List.ne_nil_of_mem (hsub he))
  refine ⟨g, hg, Group.law_le hgrowth (hs.trans_le hsize) ?_⟩
  have hpast : g.past p = S.shared.nearest es' p - reach := by
    simp [Group.past, Group.measured, hb, hin, hdist, hr]
  rw [hpast, hnear]
  exact sub_le_sub (S.shared.nearest_le (hsub he) p) hreach

/-- Every zone with a size is in a group that asks for no more than the zone. -/
theorem exists_law_le_asks [DecidableEq E] (S : Surface T E P K) (bands : Bands K) (growth : {g : K // 1 ≤ g})
    (hz : z ∈ zones) (hpos : 0 < z.size) (p : P) (hon : z.asks S growth.1 p ≠ ⊤) :
    ∃ g ∈ (ofZones S bands growth zones).groups, g.law growth.1 p ≤ z.asks S growth.1 p := by
  suffices h : ∃ zg ∈ groupZones bands zones, ∃ g ∈ groupsOf S zg,
      g.law growth.1 p ≤ z.asks S growth.1 p by
    obtain ⟨zg, hzg, g, hg, hle⟩ := h
    exact ⟨g, Buckets.mem_sortBy.mpr (List.mem_flatMap.mpr ⟨zg, hzg, hg⟩), hle⟩
  have hkeep : ∀ {faces : List String} {size : WithTop K},
      (if S.trisOf faces = [] then ⊤ else size) ≠ ⊤ → S.trisOf faces ≠ [] :=
    fun h hnil => h (if_pos hnil)
  unfold Zone.asks at hon ⊢
  cases hkind : z.kind with
  | part label =>
    simp only [hkind] at hon ⊢
    have hzg := mem_groupZones_of_part bands hz hpos hkind
    have hsame : ∀ f, f ∈ sortedFaces [z] ↔ f ∈ z.faces := by simp [mem_sortedFaces]
    by_cases hlabel : label = ""
    · simp only [hlabel, if_true] at hon ⊢
      have hts := hkeep hon
      rw [if_neg hts]
      exact ⟨_, hzg, exists_law_le_of_faces growth.2 hlabel rfl rfl le_rfl le_rfl
        (fun f hf => (hsame f).mpr hf) hts p⟩
    · simp only [hlabel, if_false] at hon ⊢
      have hts := hkeep hon
      have hsets : S.trisOf (sortedFaces [z]) = S.trisOf z.faces := trisOf_congr hsame
      rw [if_neg hts, ← hsets]
      obtain ⟨g, hg, hle⟩ := law_through_le (S := S) growth.2 z.size z.reach
        (hsets.trans_ne hts) p
      refine ⟨_, hzg, g, ?_, hle⟩
      simp [groupsOf, hlabel, hg]
  | wallSpot ball =>
    simp only [hkind] at hon ⊢
    have hts := hkeep hon
    rw [if_neg hts]
    obtain ⟨zg, hzg, hsize, hreach, hpart, hball, hfaces⟩ :=
      exists_spotGroup bands hz hpos (show spotOf bands z = some (_, z, ball) by rw [spotOf, hkind])
    obtain ⟨g, hg, hle⟩ := law_around_balls_le (S := S) growth.2 hsize hreach hts hball p
    refine ⟨zg, hzg, g, ?_, hle⟩
    rw [groupsOf, if_neg (by simp [hpart]), if_pos (List.ne_nil_of_mem hball), hfaces, hg]
    exact List.mem_singleton_self g
  | corner =>
    simp only [hkind] at hon ⊢
    have hes : S.edgesOf z.faces ≠ [] := fun hnil => hon (if_pos hnil)
    rw [if_neg hes]
    obtain ⟨zg, hzg, hsize, hreach, hpart, hballs, hedge, -, hedges⟩ :=
      exists_bucketGroup bands hz hpos (by rw [bucketOf, hkind])
    have hsub : S.edgesOf z.faces ⊆ zg.edges.flatMap S.edgesOf := fun e he =>
      List.mem_flatMap.mpr ⟨_, hedges hedge, by rwa [edgesOf_take_two]⟩
    obtain ⟨g, hg, hle⟩ := law_around_edges_le (S := S) growth.2 hsize hreach hes hsub p
    refine ⟨zg, hzg, g, ?_, hle⟩
    have hedge' : zg.edge = true := hedge
    rw [groupsOf, if_neg (by simp [hpart]), if_neg (by simp [hballs]), if_pos hedge', hg]
    exact List.mem_singleton_self g
  | other =>
    simp only [hkind] at hon ⊢
    have hts := hkeep hon
    rw [if_neg hts]
    obtain ⟨zg, hzg, hsize, hreach, hpart, hballs, hedge, hfaces, -⟩ :=
      exists_bucketGroup bands hz hpos (by rw [bucketOf, hkind])
    exact ⟨zg, hzg, exists_law_le_of_faces growth.2 hpart hballs hedge hsize hreach hfaces hts p⟩

end Zones

/-- The field reads every group at every point, at no point coarser than a zone with a size asks,
and a coarser base never counts more elements. -/
theorem sizes_exact [DecidableEq E] (S : Surface T E P K) (bands : Bands K)
    (growth : {g : K // 1 ≤ g}) (zones : List (Zone P K)) :
    (∀ order : List (Group P K), order.Perm (ofZones S bands growth zones).groups → ∀ ps r,
      (ofZones S bands growth zones).sizes ps r = ps.map (inFull growth.1 r order)) ∧
    (∀ ps r, List.Forall₂
      (fun p s => s.1 ≤ s.2 ∧ ∀ z ∈ zones, 0 < z.size → s.1 ≤ z.asks S growth.1 p)
      ps ((ofZones S bands growth zones).sizes ps r)) ∧
    (∀ (slices : List (List P)) r, slices.flatMap ((ofZones S bands growth zones).sizes · r) =
      (ofZones S bands growth zones).sizes slices.flatten r) ∧
    (∀ pool ps r, (ofZones S bands growth zones).on pool ps r =
      (ofZones S bands growth zones).sizes ps r) ∧
    ∀ (hist : Histogram K) (perH3 a b : K), 0 ≤ perH3 → 0 < a → a ≤ b →
      elements hist b perH3 ≤ elements hist a perH3 := by
  refine ⟨fun order horder => sizes_eq_inFull _ horder, fun ps r => ?_,
    fun slices => flatMap_sizes _ rfl, on_eq_sizes _, fun hist _ _ _ => elements_antitone hist⟩
  rw [sizes_eq_inFull _ (List.Perm.refl _), List.forall₂_map_right_iff, List.forall₂_same]
  refine fun p _ => ⟨inFull_fst_le_snd _, fun z hz hpos => ?_⟩
  by_cases hon : z.asks S growth.1 p = ⊤
  · exact hon ▸ le_top
  · obtain ⟨g, hg, hle⟩ := exists_law_le_asks S bands growth hz hpos p hon
    exact (sizes_le _ hg).trans hle

/-! ## A zone without a size -/

/-- One triangle at zero, on a line. -/
def onePoint : Surface Unit Unit ℚ ℚ where
  index f := if f = "Face_1" then some 0 else none
  tris := [()]
  label _ := some 0
  edges _ := []
  faces := { dist := fun _ p => |p|, box := fun _ p => |p|, box_le := fun _ _ => le_rfl }
  shared := { dist := fun _ p => |p|, box := fun _ p => |p|, box_le := fun _ _ => le_rfl }
  signed _ p := |p|
  toCentre c p := |p - c|
  box_le_signed _ _ _ := le_rfl

def unsized : Zone ℚ ℚ := { kind := .other, size := 0, reach := 0, faces := ["Face_1"] }

/-- One face that asks for one. -/
def sized : Zone ℚ ℚ := { kind := .other, size := 1, reach := 0, faces := ["Face_1"] }

theorem sizes_exact_sized :
    List.Forall₂
      (fun p s => s.1 ≤ s.2 ∧
        ∀ z ∈ [sized], 0 < z.size → s.1 ≤ z.asks onePoint (13 / 10) p)
      [0, 2]
      ((ofZones onePoint ⟨fun _ => 0, fun _ => 0⟩ ⟨13 / 10, by norm_num⟩ [sized]).sizes [0, 2] 0) :=
  (sizes_exact onePoint ⟨fun _ => 0, fun _ => 0⟩ ⟨13 / 10, by norm_num⟩ [sized]).2.1 [0, 2] 0

/-- A zone of size zero is left out of the groups, and the field is as coarse as can be on it. -/
theorem unsized_not_held :
    ¬ ∀ s ∈ (ofZones onePoint ⟨fun _ => 0, fun _ => 0⟩ ⟨13 / 10, by norm_num⟩ [unsized]).sizes [0] 0,
      s.1 ≤ unsized.asks onePoint (13 / 10) 0 := by
  have hsizes : (ofZones onePoint ⟨fun _ => 0, fun _ => 0⟩ ⟨13 / 10, by norm_num⟩ [unsized]).sizes
      [0] 0 = [⊤] := rfl
  have hasks : unsized.asks onePoint (13 / 10) 0 = ((0 : ℚ) : WithTop ℚ) := by
    norm_num [unsized, Zone.asks, Surface.trisOf, onePoint, Distances.nearest, least, grown]
  rw [hsizes, hasks]
  simp

end SizeField

end MeshPipeline.Fea
