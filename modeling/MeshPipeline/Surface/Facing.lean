import MeshPipeline.Surface.Kept

/-!
# Which triangles are turned

The graph of triangles that share an edge with one other, what turning does to it, and how the
turned ones split every piece of it in two sides.
-/

namespace MeshPipeline.Surface

variable {V : Type} [DecidableEq V] {t : List (Face V)} {x y : ℕ} {e e' : Sym2 V} {f g : Face V}

/-! ## Pairs -/

lemma mem_shared : e ∈ shared t x y ↔
    ∃ f g, t[x]? = some f ∧ t[y]? = some g ∧ x ≠ y ∧ e ∈ f.edges ∧ e ∈ g.edges ∧ uses t e = 2 := by
  unfold shared
  cases hx : t[x]? with
  | none => simp
  | some f =>
    cases hy : t[y]? with
    | none => simp
    | some g =>
      by_cases hxy : x = y
      · simp [hxy]
      · simp [hxy, and_assoc]

lemma shared_eq (hx : t[x]? = some f) (hy : t[y]? = some g) (hxy : x ≠ y) :
    shared t x y = (f.edges ∩ g.edges).filter (uses t · = 2) := by
  simp [shared, hx, hy, hxy]

lemma shared_comm (t : List (Face V)) (x y : ℕ) : shared t x y = shared t y x := by
  ext e
  rw [mem_shared, mem_shared]
  constructor <;>
  · rintro ⟨f, g, hx, hy, hxy, hf, hg, huses⟩
    exact ⟨g, f, hy, hx, hxy.symm, hg, hf, huses⟩

lemma disagree_eq (hx : t[x]? = some f) (hy : t[y]? = some g) :
    disagree t x y e = decide (∃ p ∈ f.walk ∩ g.walk, s(p.1, p.2) = e) := by
  simp [disagree, hx, hy]

lemma disagree_comm (t : List (Face V)) (x y : ℕ) (e : Sym2 V) :
    disagree t x y e = disagree t y x e := by
  unfold disagree
  cases t[x]? with
  | none => cases t[y]? <;> rfl
  | some f =>
    cases t[y]? with
    | none => rfl
    | some g =>
      dsimp only
      rw [Finset.inter_comm]

lemma adjacent_iff : adjacent t x y = true ↔ (shared t x y).Nonempty := by
  unfold adjacent weight
  simp only [ne_eq, Finset.sum_eq_zero_iff, decide_eq_true_eq]
  push Not
  constructor
  · rintro ⟨e, he, -⟩
    exact ⟨e, he⟩
  · rintro ⟨e, he⟩
    exact ⟨e, he, by split <;> omega⟩

lemma adjacent_symm (h : adjacent t x y = true) : adjacent t y x = true := by
  rw [adjacent_iff] at h ⊢
  rwa [shared_comm]

lemma lt_of_adjacent (h : adjacent t x y = true) : x < t.length ∧ y < t.length := by
  obtain ⟨e, he⟩ := adjacent_iff.mp h
  obtain ⟨f, g, hx, hy, -⟩ := mem_shared.mp he
  exact ⟨(List.getElem?_eq_some_iff.mp hx).1, (List.getElem?_eq_some_iff.mp hy).1⟩

/-- An edge of a triangle is walked in one direction, so of two triangles in the same or in opposite
ones. -/
lemma Face.Distinct.turned_disagrees (hf : f.Distinct) (hg : g.Distinct) (he : e ∈ f.edges)
    (he' : e ∈ g.edges) :
    (∃ p ∈ f.turned.walk ∩ g.walk, s(p.1, p.2) = e) ↔ ¬ ∃ p ∈ f.walk ∩ g.walk, s(p.1, p.2) = e := by
  obtain ⟨p, hp, rfl⟩ := Face.mem_edges.mp he
  obtain ⟨q, hq, heq⟩ := Face.mem_edges.mp he'
  have hswap : s(p.swap.1, p.swap.2) = s(p.1, p.2) := Sym2.eq_swap
  have hone : ∀ r, s(r.1, r.2) = s(p.1, p.2) → r = p ∨ r = p.swap := fun r hr => by
    simpa [Sym2.eq_iff, Prod.ext_iff] using hr
  constructor
  · rintro ⟨r, hr, hre⟩ ⟨r', hr', hre'⟩
    obtain ⟨hrf, hrg⟩ := Finset.mem_inter.mp hr
    obtain ⟨hrf', hrg'⟩ := Finset.mem_inter.mp hr'
    rw [Face.mem_walk_turned] at hrf
    have hne : r ≠ r' := by
      rintro rfl
      exact hf.swap_not_mem hrf' hrf
    obtain rfl | rfl := hone r hre <;> obtain rfl | rfl := hone r' hre'
    · exact hne rfl
    · exact hg.swap_not_mem hrg hrg'
    · exact hg.swap_not_mem hrg' hrg
    · exact hne rfl
  · intro hnot
    obtain rfl | rfl := hone q heq
    · exact absurd ⟨q, Finset.mem_inter.mpr ⟨hp, hq⟩, rfl⟩ hnot
    · exact ⟨p.swap, Finset.mem_inter.mpr ⟨Face.mem_walk_turned.mpr (by simpa using hp), hq⟩, hswap⟩

/-! ## Turning -/

variable {xs : List ℕ}

@[simp]
lemma length_turn (xs : List ℕ) (t : List (Face V)) :
    (turn xs t).length = t.length := by simp [turn]

lemma getElem?_turn (xs : List ℕ) (t : List (Face V)) (x : ℕ) :
    (turn xs t)[x]? = t[x]?.map fun f => if x ∈ xs then f.turned else f := by
  simp [turn]

@[simp]
lemma turn_nil (t : List (Face V)) : turn [] t = t := by
  apply List.ext_getElem?
  intro x
  simp [getElem?_turn]

/-- What does not depend on the facing is counted alike before and after. -/
lemma countP_turn {P : Face V → Bool} (hP : ∀ f, P f.turned = P f) (xs : List ℕ)
    (t : List (Face V)) :
    (turn xs t).countP P = t.countP P := by
  have hmap : (turn xs t).map P = t.map P := by
    apply List.ext_getElem?
    intro x
    rw [List.getElem?_map, List.getElem?_map, getElem?_turn, Option.map_map]
    congr 1
    funext f
    simp only [Function.comp_apply]
    split
    · exact hP f
    · rfl
  have hcount : ∀ l : List (Face V), l.countP P = (l.map P).countP id := fun l => by
    rw [List.countP_map]
    rfl
  rw [hcount, hcount, hmap]

@[simp]
lemma uses_turn (xs : List ℕ) (t : List (Face V)) (e : Sym2 V) : uses (turn xs t) e = uses t e :=
  countP_turn (by simp) xs t

@[simp]
lemma copies_turn (xs : List ℕ) (t : List (Face V)) (f : Face V) :
    copies (turn xs t) f = copies t f :=
  countP_turn (by simp) xs t

@[simp]
lemma others_turn (xs : List ℕ) (t : List (Face V)) (f : Face V) (e : Sym2 V) :
    others (turn xs t) f e = others t f e := by
  simp [others]

lemma mem_turn : g ∈ turn xs t ↔ ∃ x f, t[x]? = some f ∧ g = if x ∈ xs then f.turned else f := by
  rw [List.mem_iff_getElem?]
  simp only [getElem?_turn, Option.map_eq_some_iff]
  grind

lemma AllDistinct.turn (ht : AllDistinct t) (xs : List ℕ) : AllDistinct (turn xs t) := by
  intro g hg
  obtain ⟨x, f, hx, rfl⟩ := mem_turn.mp hg
  have hf := ht f (List.mem_of_getElem? hx)
  split
  · exact hf.turned
  · exact hf

@[simp]
lemma shared_turn (xs : List ℕ) (t : List (Face V)) (x y : ℕ) :
    shared (turn xs t) x y = shared t x y := by
  have hedges : ∀ (z : ℕ) (f : Face V), (if z ∈ xs then f.turned else f).edges = f.edges := by
    intro z f
    split
    · exact Face.edges_turned f
    · rfl
  unfold shared
  rw [getElem?_turn, getElem?_turn]
  cases t[x]? with
  | none => rfl
  | some f =>
    cases t[y]? with
    | none => rfl
    | some g => simp [hedges]

@[simp]
lemma adjacent_turn (xs : List ℕ) (t : List (Face V)) : adjacent (turn xs t) = adjacent t := by
  funext x y
  rw [Bool.eq_iff_iff, adjacent_iff, adjacent_iff, shared_turn]

/-- Turning one of two triangles makes them agree where they disagreed. -/
lemma disagree_turn (ht : AllDistinct t) (he : e ∈ shared t x y) :
    disagree (turn xs t) x y e = (disagree t x y e ^^ decide (x ∈ xs) ^^ decide (y ∈ xs)) := by
  obtain ⟨f, g, hx, hy, -, hf, hg, -⟩ := mem_shared.mp he
  have hdf := ht f (List.mem_of_getElem? hx)
  have hdg := ht g (List.mem_of_getElem? hy)
  have hx' : (turn xs t)[x]? = some (if x ∈ xs then f.turned else f) := by
    rw [getElem?_turn, hx]
    rfl
  have hy' : (turn xs t)[y]? = some (if y ∈ xs then g.turned else g) := by
    rw [getElem?_turn, hy]
    rfl
  have hleft := hdf.turned_disagrees hdg hf hg
  have hright := hdg.turned_disagrees hdf hg hf
  have hboth := hdf.turned_disagrees hdg.turned hf (by rwa [Face.edges_turned])
  rw [disagree_eq hx' hy', disagree_eq hx hy]
  rw [Finset.inter_comm, Finset.inter_comm g.walk] at hright
  by_cases hxs : x ∈ xs <;> by_cases hys : y ∈ xs <;> simp only [hxs, hys, if_true, if_false]
  · simp only [hboth, hright, not_not]
    simp
  · simp only [hleft]
    simp
  · simp only [hright]
    simp
  · simp

/-- Two edges between two triangles are walked in the same way, both or none. -/
lemma disagree_eq_of_shared (ht : AllDistinct t) (he : e ∈ shared t x y) (he' : e' ∈ shared t x y)
    (hne : e ≠ e') : disagree t x y e = disagree t x y e' := by
  obtain ⟨f, g, hx, hy, -, hf, hg, -⟩ := mem_shared.mp he
  obtain ⟨f', g', hx', hy', -, hf', hg', -⟩ := mem_shared.mp he'
  obtain rfl : f = f' := Option.some.inj (hx.symm.trans hx')
  obtain rfl : g = g' := Option.some.inj (hy.symm.trans hy')
  have hdf := ht f (List.mem_of_getElem? hx)
  have hdg := ht g (List.mem_of_getElem? hy)
  have hcorners :=
    hdf.same_corners hdg (Finset.mem_inter.mpr ⟨hf, hg⟩) (Finset.mem_inter.mpr ⟨hf', hg'⟩) hne
  rw [disagree_eq hx hy, disagree_eq hx hy]
  have hself : ∀ {e}, e ∈ f.edges → ∃ p ∈ f.walk ∩ f.walk, s(p.1, p.2) = e := fun he => by
    obtain ⟨p, hp, rfl⟩ := Face.mem_edges.mp he
    exact ⟨p, Finset.mem_inter.mpr ⟨hp, hp⟩, rfl⟩
  obtain hwalk | hwalk := Face.walk_of_corners hdg hcorners
  · rw [hwalk, decide_eq_true (hself hf), decide_eq_true (hself hf')]
  · rw [hwalk, Finset.inter_comm,
      decide_eq_false fun h => (hdf.turned_disagrees hdf hf hf).mp h (hself hf),
      decide_eq_false fun h => (hdf.turned_disagrees hdf hf' hf').mp h (hself hf')]

/-! ## Pieces -/

/-- Two triangles that share an edge with no other one. -/
def Joined (t : List (Face V)) (x y : ℕ) : Prop := (shared t x y).Nonempty

/-- The piece of a triangle, through edges that exactly two triangles share. -/
def Piece (t : List (Face V)) : ℕ → ℕ → Prop := Relation.ReflTransGen (Joined t)

lemma Joined.symm (h : Joined t x y) : Joined t y x := by
  unfold Joined at *
  rwa [shared_comm]

lemma joined_turn (xs : List ℕ) (t : List (Face V)) : Joined (turn xs t) = Joined t := by
  funext x y
  rw [Joined, Joined, shared_turn]

lemma Piece.symm (h : Piece t x y) : Piece t y x := by
  induction h with
  | refl => exact .refl
  | tail _ hjoin ih => exact .head hjoin.symm ih

/-- What a breadth-first search gives: a tree of all that its root reaches. -/
def SpansPieces (bfs : BreadthFirst) : Prop :=
  ∀ m adj, (∀ x y, adj x y = true → adj y x = true) → (∀ x y, adj x y = true → x < m ∧ y < m) →
    ∀ root < m, ParityTree.Spans (fun x y => adj x y = true) root (bfs m adj root)

variable {bfs : BreadthFirst} {root : ℕ}

lemma SpansPieces.spans (hbfs : SpansPieces bfs) (t : List (Face V)) (hroot : root < t.length) :
    ParityTree.Spans (Joined t) root (bfs t.length (adjacent t) root) := by
  have h := hbfs t.length (adjacent t) (fun _ _ => adjacent_symm) (fun _ _ => lt_of_adjacent) root
    hroot
  have heq : (fun x y => adjacent t x y = true) = Joined t := by
    funext x y
    exact propext adjacent_iff
  rwa [heq] at h

lemma mem_roots : x ∈ roots t ↔ ∃ y, Joined t x y := by
  unfold roots
  simp only [List.mem_filter, List.mem_range, decide_eq_true_eq]
  constructor
  · rintro ⟨-, y, -, hy⟩
    exact ⟨y, adjacent_iff.mp hy⟩
  · rintro ⟨y, hy⟩
    have hadj : adjacent t x y = true := adjacent_iff.mpr hy
    obtain ⟨hx, hy'⟩ := lt_of_adjacent hadj
    exact ⟨hx, y, hy', hadj⟩

lemma lt_of_mem_roots (h : x ∈ roots t) : x < t.length := by
  obtain ⟨y, hy⟩ := mem_roots.mp h
  exact (lt_of_adjacent (adjacent_iff.mpr hy)).1

/-- A triangle of the piece of a root has a neighbour. -/
lemma mem_roots_of_piece (h : root ∈ roots t) (hx : Piece t root x) : x ∈ roots t := by
  induction hx with
  | refl => exact h
  | tail _ hjoin _ => exact mem_roots.mpr ⟨_, hjoin.symm⟩

lemma mem_piece_of_mem_pieceFlips (hbfs : SpansPieces bfs) (hroot : root < t.length)
    (h : x ∈ pieceFlips bfs t root) : Piece t root x := by
  have hmem := ParityTree.smaller_subset h
  rw [ParityTree.sides, ParityTree.map_fst_spread] at hmem
  exact (hbfs.spans t hroot).mem_nodes_iff.mp hmem

/-- What the roots that are done leave: whole pieces seen, each with its own triangles turned. -/
structure PiecesDone (bfs : BreadthFirst) (t : List (Face V)) (st : List ℕ × List ℕ) : Prop where
  closed : ∀ x ∈ st.1, ∀ y, Piece t x y → y ∈ st.1
  turned : ∀ x ∈ st.2, x ∈ st.1
  pieces : ∀ x ∈ st.1, ∃ root ∈ roots t, Piece t root x ∧ (∀ z, Piece t root z → root ≤ z) ∧
    ∀ z, Piece t root z → (z ∈ st.2 ↔ z ∈ pieceFlips bfs t root)

lemma PiecesDone.step (hbfs : SpansPieces bfs) {st : List ℕ × List ℕ} (h : PiecesDone bfs t st)
    (hroot : root ∈ roots t) (hbefore : ∀ z ∈ roots t, z < root → z ∈ st.1) :
    PiecesDone bfs t (turnPiece bfs t st root) ∧ root ∈ (turnPiece bfs t st root).1 := by
  unfold turnPiece
  split
  · next hseen => exact ⟨h, hseen⟩
  · next hnew =>
    have hlt := lt_of_mem_roots hroot
    have hnodes : ∀ z, z ∈ ParityTree.nodes [root] (bfs t.length (adjacent t) root) ↔
        Piece t root z :=
      fun z => (hbfs.spans t hlt).mem_nodes_iff
    -- the piece of a root that is not seen yet has nothing in common with what is
    have hapart : ∀ z, Piece t root z → z ∉ st.1 := fun z hz hmem =>
      hnew (h.closed z hmem root hz.symm)
    refine ⟨⟨?_, ?_, ?_⟩, ?_⟩
    · intro x hx y hxy
      obtain hx | hx := List.mem_append.mp hx
      · exact List.mem_append_left _ ((hnodes y).mpr (((hnodes x).mp hx).trans hxy))
      · exact List.mem_append_right _ (h.closed x hx y hxy)
    · intro x hx
      obtain hx | hx := List.mem_append.mp hx
      · exact List.mem_append_left _ ((hnodes x).mpr (mem_piece_of_mem_pieceFlips hbfs hlt hx))
      · exact List.mem_append_right _ (h.turned x hx)
    · intro x hx
      obtain hx | hx := List.mem_append.mp hx
      · refine ⟨root, hroot, (hnodes x).mp hx, fun z hz => ?_, fun z hz => ?_⟩
        · by_contra hlt
          exact hapart z hz (hbefore z (mem_roots_of_piece hroot hz) (not_le.mp hlt))
        have hold : z ∉ st.2 := fun hmem => hapart z hz (h.turned z hmem)
        simp [hold]
      · obtain ⟨r, hr, hrx, hleast, hflips⟩ := h.pieces x hx
        refine ⟨r, hr, hrx, hleast, fun z hz => ?_⟩
        have hz' : z ∈ st.1 := h.closed x hx z (hrx.symm.trans hz)
        have hother : z ∉ pieceFlips bfs t root := fun hmem =>
          hapart z (mem_piece_of_mem_pieceFlips hbfs hlt hmem) hz'
        simp [hother, hflips z hz]
    · exact List.mem_append_left _ ((hnodes root).mpr .refl)

lemma PiecesDone.mono_step {st : List ℕ × List ℕ} (hx : x ∈ st.1) :
    x ∈ (turnPiece bfs t st root).1 := by
  unfold turnPiece
  split
  · exact hx
  · exact List.mem_append_right _ hx

lemma PiecesDone.run (hbfs : SpansPieces bfs) {st : List ℕ × List ℕ} (h : PiecesDone bfs t st)
    {rs : List ℕ} (hrs : rs ⊆ roots t) (hsorted : rs.Pairwise (· < ·))
    (hleft : ∀ z ∈ roots t, z ∉ st.1 → z ∈ rs) :
    PiecesDone bfs t (rs.foldl (turnPiece bfs t) st) ∧
      ∀ x ∈ roots t, x ∈ (rs.foldl (turnPiece bfs t) st).1 := by
  induction rs generalizing st with
  | nil => exact ⟨h, fun x hx => by_contra fun hnew => List.not_mem_nil (hleft x hx hnew)⟩
  | cons r rs ih =>
    obtain ⟨hfirst, hsorted⟩ := List.pairwise_cons.mp hsorted
    obtain ⟨hstep, hr⟩ := h.step hbfs (hrs List.mem_cons_self) fun z hz hlt => by
      by_contra hnew
      obtain rfl | hmem := List.mem_cons.mp (hleft z hz hnew)
      · exact lt_irrefl z hlt
      · exact lt_asymm hlt (hfirst z hmem)
    refine ih hstep (fun x hx => hrs (List.mem_cons_of_mem r hx)) hsorted fun z hz hnew => ?_
    obtain rfl | hmem := List.mem_cons.mp (hleft z hz fun hold => hnew (PiecesDone.mono_step hold))
    · exact absurd hr hnew
    · exact hmem

lemma piecesDone_roots (hbfs : SpansPieces bfs) (t : List (Face V)) :
    PiecesDone bfs t ((roots t).foldl (turnPiece bfs t) ([], [])) ∧
      ∀ x ∈ roots t, x ∈ ((roots t).foldl (turnPiece bfs t) ([], [])).1 := by
  have hstart : PiecesDone bfs t ([], []) := ⟨nofun, nofun, nofun⟩
  exact hstart.run hbfs (List.Subset.refl (roots t)) (List.pairwise_lt_range.filter _)
    fun _ h _ => h

lemma flips_of_agree (h : ¬ AnyDisagree t) : flips bfs t = [] := if_neg h

/-- Every triangle with a neighbour is in the piece of a root, its least triangle, which is turned
as that root says. -/
lemma exists_root (hbfs : SpansPieces bfs) (hany : AnyDisagree t) (hx : x ∈ roots t) :
    ∃ root ∈ roots t, Piece t root x ∧ (∀ z, Piece t root z → root ≤ z) ∧
      ∀ z, Piece t root z → (z ∈ flips bfs t ↔ z ∈ pieceFlips bfs t root) := by
  obtain ⟨hrun, hseen⟩ := piecesDone_roots hbfs t
  obtain ⟨root, hroot, hpiece, hleast, hflips⟩ := hrun.pieces x (hseen x hx)
  refine ⟨root, hroot, hpiece, hleast, fun z hz => ?_⟩
  rw [flips, if_pos hany]
  exact hflips z hz

/-- Only triangles with a neighbour are turned. -/
lemma mem_roots_of_mem_flips (hbfs : SpansPieces bfs) (hx : x ∈ flips bfs t) : x ∈ roots t := by
  obtain ⟨hrun, -⟩ := piecesDone_roots hbfs t
  unfold flips at hx
  split at hx
  · obtain ⟨root, hroot, hpiece, -⟩ := hrun.pieces x (hrun.turned x hx)
    exact mem_roots_of_piece hroot hpiece
  · cases hx

end MeshPipeline.Surface
