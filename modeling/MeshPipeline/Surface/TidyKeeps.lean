import Mathlib.Tactic.Linarith
import MeshPipeline.Library.ParityTree
import MeshPipeline.Surface.Oriented

/-!
# Tidying keeps the surface

What a tidied surface has of the triangles it was made of, that a surface in order is not changed,
and that tidying again changes nothing: when this holds.
-/

namespace MeshPipeline.Surface

/-! ## Turning and dropping -/

section

variable {V : Type} [DecidableEq V] {t : List (Face V)} {bfs : BreadthFirst} {f g : Face V}
  {xs : List ℕ} {x : ℕ}

/-- A triangle some copy of which goes. -/
lemma dropped_iff : Sliver t f ∨ WrittenTwice t f ↔
    1 < copies t f ∧ ((∀ e ∈ f.edges, others t f e ≤ 1) ∨ SameWay t f ∧ Loose t f) := by
  unfold WrittenTwice Sliver
  tauto

lemma kept_eq_self_iff_dropped (ht : AllDistinct t) :
    kept t = t ↔ ∀ f ∈ t, ¬ (Sliver t f ∨ WrittenTwice t f) := by
  rw [kept_eq_self_iff ht]
  exact forall₂_congr fun _ _ => not_or.symm

/-- Copies none of which is turned run the same way round before and after. -/
lemma sameWay_turn_iff (hnone : ∀ y g, t[y]? = some g → g.key = f.key → y ∉ xs) :
    SameWay (turn xs t) f ↔ SameWay t f := by
  constructor
  · intro hsame g hg hkey
    obtain ⟨y, hy⟩ := List.mem_iff_getElem?.mp hg
    exact hsame g (mem_turn.mpr ⟨y, g, hy, by rw [if_neg (hnone y g hy hkey)]⟩) hkey
  · intro hsame g' hg' hkey
    obtain ⟨y, g, hy, rfl⟩ := mem_turn.mp hg'
    have hkey' : g.key = f.key := by
      split at hkey
      · rwa [Face.key_turned] at hkey
      · exact hkey
    rw [if_neg (hnone y g hy hkey')]
    exact hsame g (List.mem_of_getElem? hy) hkey'

/-- What is left to be dropped does not change when triangles are turned. -/
lemma kept_turn_iff (hbfs : SpansPieces bfs) (ht : AllDistinct t) (hpairs : PairsRead t) :
    kept (turn (flips bfs t) t) = turn (flips bfs t) t ↔ kept t = t := by
  rw [kept_eq_self_iff_dropped ht, kept_eq_self_iff_dropped (ht.turn _)]
  -- a triangle is dropped before exactly if it is afterwards
  have hone : ∀ x f, t[x]? = some f →
      ∀ f' : Face V, f' = (if x ∈ flips bfs t then f.turned else f) →
      ((Sliver (turn (flips bfs t) t) f' ∨ WrittenTwice (turn (flips bfs t) t) f') ↔
        (Sliver t f ∨ WrittenTwice t f)) := by
    intro x f hx f' hf'
    have hkey : f'.key = f.key := by
      rw [hf']
      split
      · exact Face.key_turned f
      · rfl
    have hedges : f'.edges = f.edges := by
      rw [hf']
      split
      · exact Face.edges_turned f
      · rfl
    have hothers : others (turn (flips bfs t) t) f' = others t f := by
      funext e
      rw [others_turn, others_of_key hkey]
    rw [dropped_iff, dropped_iff, Loose, hothers, hedges, copies_turn, copies_of_key hkey, Loose]
    refine and_congr_right fun hmany => ?_
    by_cases hfew : ∀ e ∈ f.edges, others t f e ≤ 1
    · exact iff_of_true (.inl hfew) (.inl hfew)
    · rw [or_iff_right hfew, or_iff_right hfew]
      refine and_congr_left fun hloose => ?_
      push Not at hfew
      -- no copy is turned
      have hnone : ∀ y g, t[y]? = some g → g.key = f.key → y ∉ flips bfs t := fun y g hy hg => by
        have hmem := List.mem_of_getElem? hx
        have hwall : ∃ e ∈ g.edges, 1 < others t g e := by
          rw [ht.edges_of_key (List.mem_of_getElem? hy) hg]
          simpa only [others_of_key hg] using hfew
        exact not_mem_flips_of_loose hbfs ht hpairs hy (by rwa [copies_of_key hg])
          (Loose.of_key ht hmem hg.symm hloose) hwall
      rw [hf', if_neg (hnone x f hx rfl)]
      exact sameWay_turn_iff hnone
  constructor
  · intro h f hf
    obtain ⟨x, hx⟩ := List.mem_iff_getElem?.mp hf
    rw [← hone x f hx _ rfl]
    exact h _ (mem_turn.mpr ⟨x, f, hx, rfl⟩)
  · intro h f' hf'
    obtain ⟨x, f, hx, rfl⟩ := mem_turn.mp hf'
    rw [hone x f hx _ rfl]
    exact h f (List.mem_of_getElem? hx)

end

/-! ## What is kept -/

section

variable {V : Type} [DecidableEq V]

/-- What a tidied surface `out` has of the triangles `t`; `k` has the triangles of `out` as they
were. -/
structure Keeps (t k out : List (Face V)) : Prop where
  nonempty : out ≠ []
  old : ∀ f ∈ out, ∃ g ∈ t, g.key = f.key
  /-- Only repeated triangles go, with two edges that no other triangle uses. -/
  covered : ∀ f ∈ t, (∃ g ∈ out, g.key = f.key) ∨ 1 < copies t f ∧ Loose t f
  sameWay : ∀ f ∈ t, SameWay t f → 0 < copies out f → copies out f = 1 ∨ copies out f = copies t f
  opposite : ∀ f ∈ t, ¬ SameWay t f → copies out f = copies t f
  groups : ∀ f ∈ t, ∀ g ∈ t, g.key.1 = f.key.1 → g.group ≠ f.group → 0 < copies out f
  oriented : ∀ x, Orientable out x → ∀ y, ∀ e ∈ shared out x y, disagree out x y e = false
  majority : ∀ x (piece : Finset ℕ), (∀ z, z ∈ piece ↔ Piece out x z) →
    2 * (piece.filter fun z => out[z]? ≠ k[z]?).card ≤ piece.card

/-- A surface as tidying leaves one: each triangle encloses something, one that is written several
times the same way is part of a wall that others meet, and a piece that can be oriented is. -/
structure Clean (t : List (Face Point)) : Prop where
  area : ∀ f ∈ t, HasArea f
  loose : ∀ f ∈ t, 1 < copies t f → SameWay t f → ¬ Loose t f
  wall : ∀ f ∈ t, 1 < copies t f → SameWay t f → ∃ e ∈ f.edges, 1 < others t f e
  oriented : ∀ x, Orientable t x → ∀ y, ∀ e ∈ shared t x y, disagree t x y e = false

/-- `tidy` keeps the surface: it raises or returns what it should, it leaves a surface in order as
it is, and tidying what it returns changes nothing. -/
def TidyKeeps (bfs : BreadthFirst) (m : SurfaceMesh) : Prop :=
  ∀ m' r, tidy bfs m = .ok (m', r) →
    Keeps (solid m) (kept (solid m)) m'.faces ∧
    (Clean m.faces → m'.faces = m.faces) ∧
    ∃ m'' r', tidy bfs m' = .ok (m'', r') ∧ r'.changed = false ∧ m''.faces = m'.faces ∧
      m''.names = m'.names ∧ m''.notes = m'.notes

/-- The surfaces that are kept. Some triangle is no sliver, a face that is written twice faces one
way, pairs of triangles with several edges of their own share three and agree, what is left has
neither a sliver nor a face written twice, and a surface in order has no search tree across
triangles that face different ways. -/
structure Tame (bfs : BreadthFirst) (m : SurfaceMesh) : Prop where
  stays : ∃ f ∈ solid m, ¬ Sliver (solid m) f
  opposite : ∀ f ∈ solid m, 1 < copies (solid m) f → (∀ e ∈ f.edges, others (solid m) f e ≤ 1) →
    SameWay (solid m) f
  pairs : PairsRead (kept (solid m))
  settled : ∀ f ∈ kept (solid m), ¬ Sliver (kept (solid m)) f ∧ ¬ WrittenTwice (kept (solid m)) f
  trees : Clean m.faces → TreesAgree bfs m.faces

end

/-! ## Triangles that go -/

section

variable {V : Type} [DecidableEq V] {t : List (Face V)} {bfs : BreadthFirst} {f g : Face V}
  {xs : List ℕ} {x : ℕ}

lemma exists_key_iff : (∃ g ∈ t, g.key = f.key) ↔ 0 < copies t f := by
  simp [copies, List.countP_pos_iff]

/-- A triangle of which a copy is in another group is no sliver: the other one uses its edges. -/
lemma not_sliver_of_groups (ht : AllDistinct t) (hf : f ∈ t)  (hg : g ∈ t)
    (hcorners : g.key.1 = f.key.1) (hgroup : g.group ≠ f.group) : ¬ Sliver t f := by
  rintro ⟨-, -, hloose⟩
  obtain ⟨e, he⟩ := Finset.card_pos.mp (Nat.zero_lt_of_lt hloose)
  obtain ⟨he, hzero⟩ := Finset.mem_filter.mp he
  have hedges : f.edges = g.edges := Face.edges_of_corners (ht f hf) hcorners
  have hmore : copies t f < uses t e := by
    have hboth : copies t f + copies t g ≤ uses t e := by
      refine countP_add_le fun f' hf' => ?_
      simp only [decide_eq_true_eq]
      refine ⟨fun hkey => ?_, fun hkey => ?_, fun hkey => ?_⟩
      · rwa [ht.edges_of_key hf' hkey]
      · rwa [ht.edges_of_key hf' hkey, ← hedges]
      · exact hgroup (congrArg Prod.snd (hkey.2.symm.trans hkey.1))
    have := copies_pos hg
    omega
  unfold others at hzero
  omega

lemma turn_eq_nil_iff : turn xs t = [] ↔ t = [] := by simp [turn]

lemma key_mem_of_turn_kept (hf : f ∈ turn xs (kept t)) : ∃ g ∈ t, g.key = f.key := by
  obtain ⟨x, g, hx, rfl⟩ := mem_turn.mp hf
  refine ⟨g, (kept_sublist t).subset (List.mem_of_getElem? hx), ?_⟩
  split
  · exact (Face.key_turned g).symm
  · rfl

/-- What differs from before is what is turned. -/
lemma turned_iff (ht : AllDistinct t) (hx : x < t.length) : (turn xs t)[x]? ≠ t[x]? ↔ x ∈ xs := by
  rw [getElem?_turn, List.getElem?_eq_getElem hx, Option.map_some, ne_eq, Option.some_inj]
  split
  · next hmem => exact iff_of_true (ht _ (List.getElem_mem hx)).turned_ne hmem
  · next hmem => exact iff_of_false (fun h => h rfl) hmem

/-- A piece that can be oriented after some triangles are turned can be before. -/
lemma Orientable.of_turn (ht : AllDistinct t) (h : Orientable (turn xs t) x) : Orientable t x := by
  obtain ⟨side, hside⟩ := h
  refine ⟨fun z => side z ^^ decide (z ∈ xs), fun z hz y e he => ?_⟩
  have hturn := hside z (by rwa [Piece, joined_turn]) y e (by rwa [shared_turn])
  rw [disagree_turn ht he] at hturn
  dsimp only
  revert hturn
  cases disagree t z y e <;> cases side z <;> cases side y <;> cases decide (z ∈ xs) <;>
    cases decide (y ∈ xs) <;> simp

section

variable (hbfs : SpansPieces bfs) (ht : AllDistinct t)

include hbfs ht

lemma Keeps.of_tame (hstays : ∃ f ∈ t, ¬ Sliver t f)
    (hopposite : ∀ f ∈ t, 1 < copies t f → (∀ e ∈ f.edges, others t f e ≤ 1) → SameWay t f)
    (hpairs : PairsRead (kept t)) : Keeps t (kept t) (turn (flips bfs (kept t)) (kept t)) where
  nonempty := by
    obtain ⟨f, hf, hsliver⟩ := hstays
    rw [ne_eq, turn_eq_nil_iff]
    intro hnil
    have hpos := copies_kept_pos ht hf hsliver
    rw [hnil] at hpos
    exact absurd hpos (lt_irrefl 0)
  old f hf := key_mem_of_turn_kept hf
  covered f hf := by
    rw [exists_key_iff, copies_turn]
    by_cases hsliver : Sliver t f
    · exact .inr ⟨hsliver.1, hsliver.2.2⟩
    · exact .inl (copies_kept_pos ht hf hsliver)
  sameWay f hf _ hpos := by
    rw [copies_turn] at hpos ⊢
    by_cases htwice : WrittenTwice t f
    · exact .inl (copies_kept_of_twice ht hf htwice)
    · refine .inr (copies_kept_of_plain ht hf (fun hsliver => ?_) htwice)
      rw [copies_kept_of_sliver ht hf hsliver] at hpos
      exact absurd hpos (lt_irrefl 0)
  opposite f hf hways := by
    rw [copies_turn]
    exact copies_kept_of_plain ht hf (fun hsliver => hways hsliver.2.1) fun htwice =>
      hways (hopposite f hf htwice.1 htwice.2.2)
  groups f hf g hg hcorners hgroup := by
    rw [copies_turn]
    exact copies_kept_pos ht hf (not_sliver_of_groups ht hf hg hcorners hgroup)
  oriented x horient y e he := by
    rw [shared_turn] at he
    exact disagree_turn_flips hbfs ht.kept hpairs (horient.of_turn ht.kept) .refl he
  majority x piece hpiece := by
    rw [Piece, joined_turn] at hpiece
    have hturned : ∀ z, ((turn (flips bfs (kept t)) (kept t))[z]? ≠ (kept t)[z]?) ↔
        z ∈ flips bfs (kept t) := fun z => by
      by_cases hz : z < (kept t).length
      · exact turned_iff ht.kept hz
      · have hnone := List.getElem?_eq_none (not_lt.mp hz)
        rw [getElem?_turn, hnone]
        refine iff_of_false (fun h => h rfl) fun hmem => hz ?_
        exact lt_of_mem_roots (mem_roots_of_mem_flips hbfs hmem)
    rw [Finset.filter_congr fun z _ => hturned z]
    exact card_turned_le hbfs piece hpiece

end

lemma Keeps.stays (ht : AllDistinct t) (h : Keeps t (kept t) (turn xs (kept t))) :
    ∃ f ∈ t, ¬ Sliver t f := by
  obtain ⟨g, hg⟩ := List.exists_mem_of_ne_nil _ h.nonempty
  obtain ⟨f, hf, hkey⟩ := h.old g hg
  refine ⟨f, hf, fun hsliver => ?_⟩
  have hzero := copies_kept_of_sliver ht hf hsliver
  have hpos := copies_pos hg
  rw [copies_turn, ← copies_of_key hkey] at hpos
  omega

lemma Keeps.sameWay_of_few (ht : AllDistinct t) (h : Keeps t (kept t) (turn xs (kept t))) :
    ∀ f ∈ t, 1 < copies t f → (∀ e ∈ f.edges, others t f e ≤ 1) → SameWay t f := by
  intro f hf hmany hfew
  by_contra hways
  have htwice : WrittenTwice t f := ⟨hmany, fun hsliver => hways hsliver.2.1, hfew⟩
  have hall := h.opposite f hf hways
  have hone := copies_kept_of_twice ht hf htwice
  rw [copies_turn] at hall
  omega

lemma Keeps.pairsRead (hbfs : SpansPieces bfs) (ht : AllDistinct t)
    (h : Keeps t (kept t) (turn (flips bfs (kept t)) (kept t))) : PairsRead (kept t) := by
  by_contra hnot
  obtain ⟨hany, hpairs⟩ := not_or.mp hnot
  rw [not_not] at hany
  refine hpairs fun x y hmany => ?_
  -- the pair can be oriented, so it faces one way in the end, so it is read right
  have hread : ∀ e ∈ shared (kept t) x y,
      (shared (kept t) x y).card = 3 ∧ disagree (kept t) x y e = false := fun e he => by
    by_contra hbad
    have hwrong := disagree_of_misread hbfs ht.kept hany hmany he hbad
    have hright := h.oriented x (orientable_pair (ht.kept.turn _) (by rwa [shared_turn])
      (by rwa [shared_turn] : e ∈ shared _ x y)) y e (by rwa [shared_turn])
    rw [hwrong] at hright
    cases hright
  obtain ⟨e, he⟩ := Finset.card_pos.mp (Nat.zero_lt_of_lt hmany)
  exact ⟨(hread e he).1, fun e he => (hread e he).2⟩

end

/-! ## The cleanup -/

section

variable {bfs : BreadthFirst} {m m' : SurfaceMesh} {r : TidyReport} {f : Face Point} {v : Point}

lemma HasArea.turned (h : HasArea f) : HasArea f.turned := by
  obtain ⟨hab, hbc, hac, hcross⟩ := h
  refine ⟨hbc.symm, hab.symm, hac.symm, fun hzero => hcross ?_⟩
  simp only [Face.turned, Point.cross, Prod.mk.injEq] at hzero ⊢
  obtain ⟨hx, hy, hz⟩ := hzero
  refine ⟨?_, ?_, ?_⟩ <;> linarith

lemma allDistinct_solid (m : SurfaceMesh) : AllDistinct (solid m) := fun f hf => by
  obtain ⟨-, hf⟩ := List.mem_filter.mp hf
  obtain ⟨hab, hbc, hac, -⟩ := of_decide_eq_true hf
  exact ⟨hab, hbc, hac⟩

lemma solid_eq_faces_iff : solid m = m.faces ↔ ∀ f ∈ m.faces, HasArea f := by
  simp [solid, List.filter_eq_self]

lemma mem_vertices {fs : List (Face Point)} : v ∈ vertices fs ↔ ∃ f ∈ fs, v ∈ f.corners := by
  simp [vertices, Finset.mem_sort]

/-- Numbering the corners does not change a triangle. -/
lemma map_getD_map_idxOf {pts : List Point} (h : ∀ v ∈ f.corners, v ∈ pts) :
    (f.map (pts.idxOf ·)).map (fun i => pts.getD i (Point.mk 0 0 0)) = f := by
  have hv : ∀ v ∈ f.corners, pts.getD (pts.idxOf v) (Point.mk 0 0 0) = v := fun v hmem => by
    rw [List.getD_eq_getElem?_getD,
      List.getElem?_eq_getElem (List.idxOf_lt_length_of_mem (h v hmem)),
      List.getElem_idxOf]
    rfl
  simp only [Face.map, hv f.a (by simp [Face.corners]), hv f.b (by simp [Face.corners]),
    hv f.c (by simp [Face.corners])]

/-- The triangles that `tidy` returns. -/
def tidied (bfs : BreadthFirst) (m : SurfaceMesh) : List (Face Point) :=
  turn (flips bfs (kept (solid m))) (kept (solid m))

lemma tidied_subset (hf : f ∈ tidied bfs m) : f ∈ solid m ∨ f.turned ∈ solid m := by
  obtain ⟨x, g, hx, rfl⟩ := mem_turn.mp hf
  have hg := (kept_sublist (solid m)).subset (List.mem_of_getElem? hx)
  split
  · exact .inr hg
  · exact .inl hg

lemma hasArea_of_tidied (hf : f ∈ tidied bfs m) : HasArea f := by
  have hsolid : ∀ g ∈ solid m, HasArea g := fun g hg => of_decide_eq_true (List.mem_filter.mp hg).2
  obtain hf | hf := tidied_subset hf
  · exact hsolid f hf
  · exact (hsolid _ hf).turned

lemma mem_vertices_of_tidied (hf : f ∈ tidied bfs m) (hv : v ∈ f.corners) :
    v ∈ vertices m.faces := by
  have hfaces : ∀ g ∈ solid m, g ∈ m.faces := fun g hg => List.mem_of_mem_filter hg
  rw [mem_vertices]
  obtain hf | hf := tidied_subset hf
  · exact ⟨f, hfaces f hf, hv⟩
  · refine ⟨f.turned, hfaces _ hf, ?_⟩
    simp only [Face.corners, Face.turned, List.mem_cons, List.not_mem_nil, or_false] at hv ⊢
    tauto

lemma exists_tidy (h : solid m ≠ []) : ∃ m' r, tidy bfs m = .ok (m', r) := by
  unfold tidy
  rw [if_neg h]
  exact ⟨_, _, rfl⟩

/-- What `tidy` returns, and what it reports. -/
lemma tidy_ok (h : tidy bfs m = .ok (m', r)) : solid m ≠ [] ∧ m'.faces = tidied bfs m ∧
    m'.names = m.names ∧ m'.notes = m.notes ++ r.notes.filter (· ∉ m.notes) ∧
    r.zeroArea = m.faces.length - (solid m).length ∧
    r.duplicates = (solid m).length - (kept (solid m)).length ∧
    r.turned = (flips bfs (kept (solid m))).length := by
  unfold tidy at h
  dsimp only at h
  split at h
  · cases h
  · next hsolid =>
    obtain ⟨rfl, rfl⟩ := Prod.mk.inj (Except.ok.inj h)
    refine ⟨hsolid, ?_, rfl, rfl, rfl, rfl, rfl⟩
    have hsame : ∀ f ∈ tidied bfs m, (f.map ((vertices m.faces).idxOf ·)).map
        (fun i => (vertices m.faces).getD i (Point.mk 0 0 0)) = f := fun f hf =>
      map_getD_map_idxOf fun v hv => mem_vertices_of_tidied hf hv
    unfold SurfaceMesh.faces
    rw [List.map_map]
    exact (List.map_congr_left hsame).trans (List.map_id _)

lemma solid_of_tidy (h : tidy bfs m = .ok (m', r)) : solid m' = tidied bfs m := by
  obtain ⟨-, hfaces, -⟩ := tidy_ok h
  rw [← hfaces, solid_eq_faces_iff, hfaces]
  exact fun f hf => hasArea_of_tidied hf

/-- A surface that is left as it is: nothing is dropped of what `tidy` returns, and nothing is
turned. -/
lemma tidy_again_iff (hbfs : SpansPieces bfs) (hpairs : PairsRead (kept (solid m)))
    (h : tidy bfs m = .ok (m', r)) (hstay : m'.faces ≠ []) :
    (∃ m'' r', tidy bfs m' = .ok (m'', r') ∧ r'.changed = false ∧ m''.faces = m'.faces ∧
      m''.names = m'.names ∧ m''.notes = m'.notes) ↔ kept (kept (solid m)) = kept (solid m) := by
  have ht := (allDistinct_solid m).kept
  obtain ⟨hsome, hfaces, -⟩ := tidy_ok h
  have hsolid := solid_of_tidy h
  rw [← kept_turn_iff hbfs ht hpairs]
  constructor
  · rintro ⟨m'', r', hagain, hchanged, -⟩
    obtain ⟨-, -, -, -, -, hduplicates, -⟩ := tidy_ok hagain
    have hzero : r'.duplicates = 0 := by
      simp only [TidyReport.changed] at hchanged
      simp_all
    rw [hduplicates, hsolid] at hzero
    have hsub := kept_sublist (tidied bfs m)
    exact hsub.eq_of_length_le (by omega)
  · intro hkept
    have hstay' : solid m' ≠ [] := by rwa [hsolid, ← hfaces]
    obtain ⟨m'', r', hagain⟩ : ∃ m'' r', tidy bfs m' = .ok (m'', r') := exists_tidy hstay'
    obtain ⟨-, hfaces', hnames, hnotes, hzero, hduplicates, hturned⟩ := tidy_ok hagain
    have hflips : flips bfs (kept (tidied bfs m)) = [] := by
      rw [tidied, hkept]
      exact flips_turn_flips hbfs ht hpairs
    have hreport : r'.zeroArea = 0 ∧ r'.duplicates = 0 ∧ r'.turned = 0 := by
      rw [hzero, hduplicates, hturned, hsolid, hfaces, hflips, tidied, hkept]
      simp
    obtain ⟨hzero, hduplicates, hturned⟩ := hreport
    refine ⟨m'', r', hagain, ?_, ?_, hnames, ?_⟩
    · simp [TidyReport.changed, hzero, hduplicates, hturned]
    · rw [hfaces', hfaces, tidied, hsolid, hflips, turn_nil, tidied, hkept]
    · rw [hnotes, TidyReport.notes, hzero, hduplicates, hturned]
      simp

/-- A surface in order is left as it is exactly where no search tree crosses triangles that face
different ways. -/
lemma tidied_eq_faces_iff (hbfs : SpansPieces bfs) (hclean : Clean m.faces)
    (hopposite : ∀ f ∈ solid m, 1 < copies (solid m) f →
      (∀ e ∈ f.edges, others (solid m) f e ≤ 1) → SameWay (solid m) f)
    (hpairs : PairsRead (kept (solid m))) :
    tidied bfs m = m.faces ↔ TreesAgree bfs m.faces := by
  have hsolid : solid m = m.faces := solid_eq_faces_iff.mpr hclean.area
  have ht := allDistinct_solid m
  rw [hsolid] at ht hopposite hpairs
  have hkept : kept m.faces = m.faces := by
    rw [kept_eq_self_iff ht]
    refine fun f hf => ⟨fun hsliver => hclean.loose f hf hsliver.1 hsliver.2.1 hsliver.2.2,
      fun htwice => ?_⟩
    have hsame := hopposite f hf htwice.1 htwice.2.2
    obtain ⟨e, he, hmore⟩ := hclean.wall f hf htwice.1 hsame
    exact absurd (htwice.2.2 e he) (not_le.mpr hmore)
  rw [hkept] at hpairs
  rw [tidied, hsolid, hkept, ← flips_eq_nil_iff hbfs ht hpairs]
  constructor
  · intro hturn
    rw [List.eq_nil_iff_forall_not_mem]
    intro x hx
    have hlt := lt_of_mem_roots (mem_roots_of_mem_flips hbfs hx)
    exact (turned_iff ht hlt).mpr hx (by rw [hturn])
  · intro hnil
    rw [hnil, turn_nil]

/-- Tidying keeps exactly the surfaces that have no triangle with an area, where it raises, and
those that are tame. -/
theorem tidy_keeps_iff (hbfs : SpansPieces bfs) (m : SurfaceMesh) :
    TidyKeeps bfs m ↔ solid m = [] ∨ Tame bfs m := by
  have ht := allDistinct_solid m
  constructor
  · intro h
    by_cases hsolid : solid m = []
    · exact .inl hsolid
    · obtain ⟨m', r, htidy⟩ : ∃ m' r, tidy bfs m = .ok (m', r) := exists_tidy hsolid
      obtain ⟨hkeeps, hclean, hagain⟩ := h m' r htidy
      have hstay := hkeeps.nonempty
      obtain ⟨-, hfaces, -⟩ := tidy_ok htidy
      rw [hfaces] at hkeeps hclean
      have hopposite := hkeeps.sameWay_of_few ht
      have hpairs := hkeeps.pairsRead hbfs ht
      refine .inr ⟨hkeeps.stays ht, hopposite, hpairs, ?_, fun hin => ?_⟩
      · rw [← kept_eq_self_iff ht.kept]
        exact (tidy_again_iff hbfs hpairs htidy hstay).mp hagain
      · exact (tidied_eq_faces_iff hbfs hin hopposite hpairs).mp (hclean hin)
  · rintro (hsolid | htame) m' r htidy
    · exact absurd hsolid (tidy_ok htidy).1
    · obtain ⟨-, hfaces, -⟩ := tidy_ok htidy
      have hkeeps := Keeps.of_tame hbfs ht htame.stays htame.opposite htame.pairs
      have hstay : m'.faces ≠ [] := by
        rw [hfaces]
        exact hkeeps.nonempty
      refine ⟨by rwa [hfaces], fun hclean => ?_, ?_⟩
      · rw [hfaces]
        exact (tidied_eq_faces_iff hbfs hclean htame.opposite htame.pairs).mpr (htame.trees hclean)
      · rw [tidy_again_iff hbfs htame.pairs htidy hstay, kept_eq_self_iff ht.kept]
        exact htame.settled

end

/-! ## Two surfaces -/

/-- A breadth-first search with a queue. -/
def queueSearch : BreadthFirst := fun m adj root => BreadthFirst.search (List.range m) adj root

lemma spansPieces_queueSearch : SpansPieces queueSearch := fun _ _ _ hrange _ hroot =>
  BreadthFirst.spans_search List.nodup_range
    (fun x y hadj => List.mem_range.mpr (hrange x y hadj).2) (List.mem_range.mpr hroot)

/-- Two triangles of a square, which face the same way. -/
def square : SurfaceMesh where
  points := [.mk 0 0 0, .mk 1 0 0, .mk 1 1 0, .mk 0 1 0]
  triangles := [⟨0, 1, 2, 0⟩, ⟨0, 2, 3, 0⟩]
  names := ["wall"]
  notes := []

theorem square_kept : TidyKeeps queueSearch square :=
  (tidy_keeps_iff spansPieces_queueSearch square).mpr (.inr {
    stays := by decide +kernel
    opposite := by decide +kernel
    pairs := .inl (by decide +kernel)
    settled := by decide +kernel
    trees := fun _ _ _ p _ e he => by
      have hagree : ¬ AnyDisagree square.faces := by decide +kernel
      by_contra hdisagree
      exact hagree (anyDisagree_of_shared he (by simpa using hdisagree)) })

/-- The two sides of a sheet without thickness. -/
def sheet : SurfaceMesh where
  points := [.mk 0 0 0, .mk 1 0 0, .mk 0 1 0]
  triangles := [⟨0, 1, 2, 0⟩, ⟨2, 1, 0, 0⟩]
  names := ["baffle"]
  notes := []

/-- One side of the sheet is left out as a second copy of the other. -/
theorem sheet_not_kept : ¬ TidyKeeps queueSearch sheet := by
  intro h
  obtain ⟨m', r, htidy⟩ : ∃ m' r, tidy queueSearch sheet = .ok (m', r) :=
    exists_tidy (by decide +kernel)
  obtain ⟨hkeeps, -⟩ := h m' r htidy
  obtain ⟨-, hfaces, -⟩ := tidy_ok htidy
  rw [hfaces] at hkeeps
  have hsame := hkeeps.sameWay_of_few (allDistinct_solid sheet)
  revert hsame
  decide +kernel

end MeshPipeline.Surface
