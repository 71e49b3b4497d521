import MeshPipeline.Surface.Facing
import Mathlib.Algebra.Order.BigOperators.Group.Finset

/-!
# Pieces that face one way

Where every pair of triangles is read right, a piece that can be oriented is, at most half of it is
turned, and nothing is turned again. Two triangles with two edges of their own are a piece by
themselves, and read wrong unless they share three edges and agree.
-/

namespace MeshPipeline.Surface

variable {V : Type} [DecidableEq V] {t : List (Face V)} {x y z root : ℕ} {e : Sym2 V} {f g : Face V}
  {bfs : BreadthFirst}

/-- A piece has two sides such that the triangles on one of them face the same way. -/
def Orientable (t : List (Face V)) (root : ℕ) : Prop :=
  ∃ side : ℕ → Bool, ∀ x, Piece t root x → ∀ y, ∀ e ∈ shared t x y,
    disagree t x y e = (side x ^^ side y)

/-- Two triangles that share more than one edge share all three and face the same way. -/
def PairsAgree (t : List (Face V)) : Prop :=
  ∀ x y, 2 ≤ (shared t x y).card →
    (shared t x y).card = 3 ∧ ∀ e ∈ shared t x y, disagree t x y e = false

/-- Every pair is read right, or none has to be. -/
def PairsRead (t : List (Face V)) : Prop := ¬ AnyDisagree t ∨ PairsAgree t

/-! ## Reading a pair -/

lemma weight_comm (t : List (Face V)) (x y : ℕ) : weight t x y = weight t y x := by
  unfold weight
  rw [shared_comm]
  exact Finset.sum_congr rfl fun e _ => by rw [disagree_comm]

/-- What several edges between two triangles add up to. -/
lemma weight_eq (ht : AllDistinct t) (he : e ∈ shared t x y) :
    weight t x y = (shared t x y).card * if disagree t x y e then 2 else 1 := by
  unfold weight
  rw [Finset.sum_congr rfl fun e' he' => ?_, Finset.sum_const, smul_eq_mul]
  by_cases heq : e' = e
  · rw [heq]
  · rw [disagree_eq_of_shared ht he' he heq]

lemma card_shared_le (ht : AllDistinct t) : (shared t x y).card ≤ 3 := by
  by_cases hne : (shared t x y).Nonempty
  · obtain ⟨e, he⟩ := hne
    obtain ⟨f, g, hx, hy, hxy, -⟩ := mem_shared.mp he
    rw [← (ht f (List.mem_of_getElem? hx)).card_edges, shared_eq hx hy hxy]
    exact Finset.card_le_card ((Finset.filter_subset _ _).trans Finset.inter_subset_left)
  · rw [Finset.not_nonempty_iff_eq_empty.mp hne]
    simp

lemma weight_eq_two (ht : AllDistinct t) (hpairs : PairsAgree t) (he : e ∈ shared t x y) :
    decide (weight t x y = 2) = disagree t x y e := by
  have hpos : 0 < (shared t x y).card := Finset.card_pos.mpr ⟨e, he⟩
  rw [weight_eq ht he]
  by_cases hmany : 2 ≤ (shared t x y).card
  · obtain ⟨hcard, hagree⟩ := hpairs x y hmany
    simp [hcard, hagree e he]
  · have hone : (shared t x y).card = 1 := by omega
    rw [hone]
    cases disagree t x y e <;> simp

lemma anyDisagree_of_shared (he : e ∈ shared t x y) (h : disagree t x y e = true) :
    AnyDisagree t := by
  obtain ⟨f, g, hx, hy, -⟩ := mem_shared.mp he
  exact ⟨x, (List.getElem?_eq_some_iff.mp hx).1, y, (List.getElem?_eq_some_iff.mp hy).1, e, he, h⟩

/-! ## Sides of a piece -/

/-- Along the tree of a root the turned triangles change side where a pair is read as disagreeing.
-/
lemma flips_edge (hbfs : SpansPieces bfs) (hroot : root < t.length)
    (hflips : ∀ z, Piece t root z → (z ∈ flips bfs t ↔ z ∈ pieceFlips bfs t root)) {p : ℕ × ℕ}
    (hp : p ∈ bfs t.length (adjacent t) root) :
    (decide (p.1 ∈ flips bfs t) ^^ decide (p.2 ∈ flips bfs t)) = decide (weight t p.1 p.2 = 2) := by
  have hspans := hbfs.spans t hroot
  have hkeys : (ParityTree.sides (fun x p => decide (weight t x p = 2)) root
      (bfs t.length (adjacent t) root)).map Prod.fst =
        ParityTree.nodes [root] (bfs t.length (adjacent t) root) := ParityTree.map_fst_spread
  have hnodup := hspans.grows.nodup (List.nodup_singleton root)
  obtain ⟨c, hc⟩ := ParityTree.mem_smaller (hkeys ▸ hnodup)
  obtain ⟨hnew, hold⟩ := hspans.grows.mem_nodes hp
  have hleft := (hflips p.1 (hspans.mem_nodes_iff.mp hnew)).trans (hc p.1 (hkeys ▸ hnew))
  have hright := (hflips p.2 (hspans.mem_nodes_iff.mp hold)).trans (hc p.2 (hkeys ▸ hold))
  have hedge : (ParityTree.side (ParityTree.sides (fun x p => decide (weight t x p = 2)) root
      (bfs t.length (adjacent t) root)) p.1 ^^ ParityTree.side (ParityTree.sides (fun x p =>
        decide (weight t x p = 2)) root (bfs t.length (adjacent t) root)) p.2) =
          decide (weight t p.1 p.2 = 2) := ParityTree.side_edge hspans.grows rfl hp
  rw [← hedge]
  simp only [hleft, hright, ParityTree.sides]
  cases c <;> cases ParityTree.side _ p.1 <;> cases ParityTree.side _ p.2 <;> simp

/-- A piece that can be oriented faces one way once its triangles are turned. -/
lemma disagree_turn_flips (hbfs : SpansPieces bfs) (ht : AllDistinct t) (hpairs : PairsRead t)
    (horient : Orientable t root) (hx : Piece t root x) (he : e ∈ shared t x y) :
    disagree (turn (flips bfs t) t) x y e = false := by
  by_cases hany : AnyDisagree t
  · have hagree := hpairs.resolve_left (not_not.mpr hany)
    obtain ⟨side, hside⟩ := horient
    have hjoin : Joined t x y := ⟨e, he⟩
    obtain ⟨r, hr, hrx, -, hflips⟩ := exists_root hbfs hany (mem_roots.mpr ⟨y, hjoin⟩)
    have hspans := hbfs.spans t (lt_of_mem_roots hr)
    have hedge : ∀ p ∈ bfs t.length (adjacent t) r,
        (decide (p.1 ∈ flips bfs t) ^^ decide (p.2 ∈ flips bfs t)) = (side p.1 ^^ side p.2) := by
      intro p hp
      have hpiece := hspans.mem_nodes_iff.mp (hspans.grows.mem_nodes hp).1
      obtain ⟨e', he'⟩ : (shared t p.1 p.2).Nonempty := by
        rw [shared_comm]
        exact hspans.grows.adj_of_mem hp
      rw [flips_edge hbfs (lt_of_mem_roots hr) hflips hp, weight_eq_two ht hagree he']
      exact hside p.1 ((hx.trans hrx.symm).trans hpiece) p.2 e' he'
    have hleft := hspans.grows.sides_agree (σ := fun z => decide (z ∈ flips bfs t)) hedge
      (hspans.mem_nodes_iff.mpr hrx)
    have hright := hspans.grows.sides_agree (σ := fun z => decide (z ∈ flips bfs t)) hedge
      (hspans.mem_nodes_iff.mpr (hrx.tail hjoin))
    rw [disagree_turn ht he, hside x hx y e he]
    revert hleft hright
    cases decide (x ∈ flips bfs t) <;> cases decide (y ∈ flips bfs t) <;> cases side x <;>
      cases side y <;> cases decide (r ∈ flips bfs t) <;> cases side r <;> simp
  · rw [flips_of_agree hany, turn_nil]
    by_contra hdisagree
    exact hany (anyDisagree_of_shared he (by simpa using hdisagree))

/-- At most half of a piece is turned. -/
lemma card_turned_le (hbfs : SpansPieces bfs) (L : Finset ℕ) (hL : ∀ z, z ∈ L ↔ Piece t root z) :
    2 * (L.filter (· ∈ flips bfs t)).card ≤ L.card := by
  by_cases hany : AnyDisagree t
  · by_cases hroot : root ∈ roots t
    · obtain ⟨r, hr, hrx, -, hflips⟩ := exists_root hbfs hany hroot
      have hspans := hbfs.spans t (lt_of_mem_roots hr)
      have hnodup := hspans.grows.nodup (List.nodup_singleton r)
      have hkeys : (ParityTree.sides (fun x p => decide (weight t x p = 2)) r
          (bfs t.length (adjacent t) r)).map Prod.fst =
            ParityTree.nodes [r] (bfs t.length (adjacent t) r) := ParityTree.map_fst_spread
      have hpiece : ∀ z, z ∈ L ↔ Piece t r z := fun z =>
        (hL z).trans ⟨fun h => hrx.trans h, fun h => hrx.symm.trans h⟩
      have hall : L = (ParityTree.nodes [r] (bfs t.length (adjacent t) r)).toFinset := by
        ext z
        rw [hpiece, List.mem_toFinset, hspans.mem_nodes_iff]
        rfl
      have hturned : L.filter (· ∈ flips bfs t) = (pieceFlips bfs t r).toFinset := by
        ext z
        rw [Finset.mem_filter, List.mem_toFinset, hpiece]
        constructor
        · rintro ⟨hz, hmem⟩
          exact (hflips z hz).mp hmem
        · intro hmem
          have hz := mem_piece_of_mem_pieceFlips hbfs (lt_of_mem_roots hr) hmem
          exact ⟨hz, (hflips z hz).mpr hmem⟩
      have hcard : L.card = (ParityTree.sides (fun x p => decide (weight t x p = 2)) r
          (bfs t.length (adjacent t) r)).length := by
        rw [hall, List.toFinset_card_of_nodup hnodup, ← hkeys, List.length_map]
      have hsmall : (pieceFlips bfs t r).Nodup := ParityTree.nodup_smaller (hkeys ▸ hnodup)
      rw [hturned, List.toFinset_card_of_nodup hsmall, hcard]
      exact ParityTree.length_smaller
    · have hnone : L.filter (· ∈ flips bfs t) = ∅ := by
        rw [Finset.filter_eq_empty_iff]
        intro z hz hmem
        exact hroot (mem_roots_of_piece (mem_roots_of_mem_flips hbfs hmem) ((hL z).mp hz).symm)
      simp [hnone]
  · simp [flips_of_agree hany]

/-! ## A pair that is read wrong -/

/-- Two triangles with two edges of their own have no other neighbour. -/
lemma joined_pair (ht : AllDistinct t) (hmany : 2 ≤ (shared t x y).card) (h : Joined t x z) :
    z = y := by
  obtain ⟨e₁, he₁, e₂, he₂, hne⟩ := Finset.one_lt_card.mp hmany
  obtain ⟨f, g, hx, hy, hxy, hf₁, hg₁, -⟩ := mem_shared.mp he₁
  obtain ⟨f', g', hx', hy', -, hf₂, hg₂, -⟩ := mem_shared.mp he₂
  obtain rfl : f = f' := Option.some.inj (hx.symm.trans hx')
  obtain rfl : g = g' := Option.some.inj (hy.symm.trans hy')
  obtain ⟨e, he⟩ := h
  obtain ⟨f', h, hx', hz, hxz, hf, hh, huses⟩ := mem_shared.mp he
  obtain rfl : f = f' := Option.some.inj (hx.symm.trans hx')
  have hdf := ht f (List.mem_of_getElem? hx)
  have hdg := ht g (List.mem_of_getElem? hy)
  have hcorners := hdf.same_corners hdg (Finset.mem_inter.mpr ⟨hf₁, hg₁⟩)
    (Finset.mem_inter.mpr ⟨hf₂, hg₂⟩) hne
  have hg : e ∈ g.edges := by rwa [Face.edges_of_corners hdg hcorners]
  have hcount : t.countP (fun f => decide (e ∈ f.edges)) ≤ 2 := huses.le
  have hthird := eq_or_eq_of_countP_le hcount hx hy hz hxy (by simpa using hf) (by simpa using hg)
    (by simpa using hh)
  exact hthird.resolve_left hxz.symm

lemma piece_pair (ht : AllDistinct t) (hmany : 2 ≤ (shared t x y).card) (h : Piece t x z) :
    z = x ∨ z = y := by
  induction h with
  | refl => exact .inl rfl
  | tail _ hjoin ih =>
    obtain rfl | rfl := ih
    · exact .inr (joined_pair ht hmany hjoin)
    · rw [shared_comm] at hmany
      exact .inl (joined_pair ht hmany hjoin)

/-- Such a pair can be oriented. -/
lemma orientable_pair (ht : AllDistinct t) (hmany : 2 ≤ (shared t x y).card)
    (he : e ∈ shared t x y) :
    Orientable t x := by
  have hxy : x ≠ y := by
    obtain ⟨-, -, -, -, hxy, -⟩ := mem_shared.mp he
    exact hxy
  have hone : ∀ e' ∈ shared t x y, disagree t x y e' = disagree t x y e := fun e' he' => by
    by_cases heq : e' = e
    · rw [heq]
    · exact disagree_eq_of_shared ht he' he heq
  have hmany' : 2 ≤ (shared t y x).card := by rwa [shared_comm]
  refine ⟨fun z => decide (z = y) && disagree t x y e, fun z hz w e' he' => ?_⟩
  have hjoin : Joined t z w := ⟨e', he'⟩
  obtain rfl | rfl := piece_pair ht hmany hz
  · obtain rfl := joined_pair ht hmany hjoin
    simp [hone e' he', hxy]
  · obtain rfl := joined_pair ht hmany' hjoin
    rw [shared_comm] at he'
    rw [disagree_comm]
    simp [hone e' he', hxy]

/-- Its two triangles are turned against each other where the entries add up to two. -/
lemma flips_pair (hbfs : SpansPieces bfs) (ht : AllDistinct t) (hany : AnyDisagree t)
    (hmany : 2 ≤ (shared t x y).card) :
    (decide (x ∈ flips bfs t) ^^ decide (y ∈ flips bfs t)) = decide (weight t x y = 2) := by
  obtain ⟨e, he⟩ := Finset.card_pos.mp (Nat.zero_lt_of_lt hmany)
  have hjoin : Joined t x y := ⟨e, he⟩
  have hxy : x ≠ y := by
    obtain ⟨-, -, -, -, hxy, -⟩ := mem_shared.mp he
    exact hxy
  have hmany' : 2 ≤ (shared t y x).card := by rwa [shared_comm]
  obtain ⟨r, hr, hrx, -, hflips⟩ := exists_root hbfs hany (mem_roots.mpr ⟨y, hjoin⟩)
  have hspans := hbfs.spans t (lt_of_mem_roots hr)
  -- the node of the pair that is not the root hangs on the one that is
  have hhangs : ∀ z, Piece t r z → z ≠ r → ∃ p ∈ bfs t.length (adjacent t) r, p.1 = z := by
    intro z hz hne
    have hmem := hspans.covers z hz
    simp only [ParityTree.nodes, List.mem_append, List.mem_reverse, List.mem_singleton] at hmem
    simpa using List.mem_map.mp (hmem.resolve_right hne)
  have hjoined : ∀ p ∈ bfs t.length (adjacent t) r, Joined t p.1 p.2 := fun p hp =>
    Joined.symm (hspans.grows.adj_of_mem hp)
  obtain rfl | rfl := piece_pair ht hmany (Piece.symm hrx)
  · obtain ⟨p, hp, rfl⟩ := hhangs y (.single hjoin) hxy.symm
    obtain heq := joined_pair ht hmany' (hjoined p hp)
    have hedge := flips_edge hbfs (lt_of_mem_roots hr) hflips hp
    rw [heq] at hedge
    rw [weight_comm, ← hedge, Bool.xor_comm]
  · obtain ⟨p, hp, rfl⟩ := hhangs x hrx hxy
    obtain heq := joined_pair ht hmany (hjoined p hp)
    have hedge := flips_edge hbfs (lt_of_mem_roots hr) hflips hp
    rwa [heq] at hedge

/-- A pair of triangles with several edges of their own that is read wrong faces different ways
afterwards. -/
lemma disagree_of_misread (hbfs : SpansPieces bfs) (ht : AllDistinct t) (hany : AnyDisagree t)
    (hmany : 2 ≤ (shared t x y).card) (he : e ∈ shared t x y)
    (hbad : ¬ ((shared t x y).card = 3 ∧ disagree t x y e = false)) :
    disagree (turn (flips bfs t) t) x y e = true := by
  have hpair := flips_pair hbfs ht hany hmany
  have hle := card_shared_le (x := x) (y := y) ht
  rw [weight_eq ht he] at hpair
  rw [disagree_turn ht he, Bool.xor_assoc, hpair]
  obtain hcard | hcard : (shared t x y).card = 2 ∨ (shared t x y).card = 3 := by omega
  · rw [hcard]
    cases disagree t x y e <;> simp
  · rw [hcard]
    cases hdis : disagree t x y e
    · exact absurd ⟨hcard, hdis⟩ hbad
    · simp

/-! ## Nothing to turn -/

/-- The triangle of a piece from which it is searched. -/
def Leads (t : List (Face V)) (root : ℕ) : Prop := root ∈ roots t ∧ ∀ z, Piece t root z → root ≤ z

/-- No edge of a search tree is walked the same way by its two triangles. -/
def TreesAgree (bfs : BreadthFirst) (t : List (Face V)) : Prop :=
  ∀ root, Leads t root → ∀ p ∈ bfs t.length (adjacent t) root, ∀ e ∈ shared t p.1 p.2,
    disagree t p.1 p.2 e = false

/-- The triangle that leads a piece is the root its triangles are turned by. -/
lemma Leads.flips (hbfs : SpansPieces bfs) (hany : AnyDisagree t) (h : Leads t root) (z : ℕ)
    (hz : Piece t root z) : z ∈ flips bfs t ↔ z ∈ pieceFlips bfs t root := by
  obtain ⟨r, -, hpiece, hleast, hflips⟩ := exists_root hbfs hany h.1
  obtain rfl : r = root := le_antisymm (hleast root hpiece) (h.2 r hpiece.symm)
  exact hflips z hz

lemma shared_of_tree (hbfs : SpansPieces bfs) (hroot : root < t.length) {p : ℕ × ℕ}
    (hp : p ∈ bfs t.length (adjacent t) root) : Joined t p.1 p.2 :=
  Joined.symm ((hbfs.spans t hroot).grows.adj_of_mem hp)

/-- Nothing is turned exactly where all the search trees agree. -/
lemma flips_eq_nil_iff (hbfs : SpansPieces bfs) (ht : AllDistinct t) (hpairs : PairsRead t) :
    flips bfs t = [] ↔ TreesAgree bfs t := by
  by_cases hany : AnyDisagree t
  · have hagree := hpairs.resolve_left (not_not.mpr hany)
    constructor
    · intro hnil root hleads p hp e he
      have hedge := flips_edge hbfs (lt_of_mem_roots hleads.1) (hleads.flips hbfs hany) hp
      rw [weight_eq_two ht hagree he, hnil] at hedge
      simpa using hedge.symm
    · intro htrees
      rw [List.eq_nil_iff_forall_not_mem]
      intro x hx
      obtain ⟨r, hr, hrx, hleast, hflips⟩ := exists_root hbfs hany (mem_roots_of_mem_flips hbfs hx)
      have hnil : pieceFlips bfs t r = [] := by
        refine ParityTree.smaller_eq_nil (ParityTree.spread_eq_false (fun p hp => ?_) (by simp))
        obtain ⟨e, he⟩ := shared_of_tree hbfs (lt_of_mem_roots hr) hp
        rw [weight_eq_two ht hagree he]
        exact htrees r ⟨hr, hleast⟩ p hp e he
      have hmem := (hflips x hrx).mp hx
      rw [hnil] at hmem
      cases hmem
  · refine iff_of_true (flips_of_agree hany) fun _ _ p _ e he => ?_
    by_contra hdisagree
    exact hany (anyDisagree_of_shared he (by simpa using hdisagree))

/-- Pairs that agree are not turned against each other. -/
lemma PairsAgree.turn_flips (hbfs : SpansPieces bfs) (ht : AllDistinct t) (hany : AnyDisagree t)
    (hpairs : PairsAgree t) : PairsAgree (turn (flips bfs t) t) := by
  intro x y hmany
  rw [shared_turn] at hmany ⊢
  obtain ⟨hcard, hagree⟩ := hpairs x y hmany
  refine ⟨hcard, fun e he => ?_⟩
  rw [disagree_turn ht he, Bool.xor_assoc, flips_pair hbfs ht hany hmany,
    weight_eq_two ht hpairs he,
    hagree e he]
  rfl

/-- Once its triangles are turned, nothing of a surface is turned again. -/
lemma flips_turn_flips (hbfs : SpansPieces bfs) (ht : AllDistinct t) (hpairs : PairsRead t) :
    flips bfs (turn (flips bfs t) t) = [] := by
  by_cases hany : AnyDisagree t
  · have hagree := hpairs.resolve_left (not_not.mpr hany)
    rw [flips_eq_nil_iff hbfs (ht.turn _) (.inr (hagree.turn_flips hbfs ht hany))]
    -- both runs search the same trees
    intro root hleads p hp e he
    have hleads' : Leads t root := by
      simpa only [Leads, Piece, joined_turn, roots, length_turn, adjacent_turn] using hleads
    rw [length_turn, adjacent_turn] at hp
    rw [shared_turn] at he
    have hedge := flips_edge hbfs (lt_of_mem_roots hleads'.1) (hleads'.flips hbfs hany) hp
    rw [weight_eq_two ht hagree he] at hedge
    rw [disagree_turn ht he, Bool.xor_assoc, hedge, Bool.xor_self]
  · rw [flips_of_agree hany, turn_nil, flips_of_agree hany]

/-! ## What turning leaves to be dropped -/

/-- Copies that hang loose at two edges, a third of which others use twice, are not turned: there
are more than two of them, or they would be a pair by themselves. -/
lemma not_mem_flips_of_loose (hbfs : SpansPieces bfs) (ht : AllDistinct t) (hpairs : PairsRead t)
    (hx : t[x]? = some f) (hmany : 1 < copies t f) (hloose : Loose t f)
    (hwall : ∃ e ∈ f.edges, 1 < others t f e) : x ∉ flips bfs t := by
  intro hmem
  have hagree : PairsAgree t := hpairs.resolve_left fun hnot => by
    rw [flips_of_agree hnot] at hmem
    cases hmem
  have hfmem := List.mem_of_getElem? hx
  obtain ⟨z, e, he⟩ := mem_roots.mp (mem_roots_of_mem_flips hbfs hmem)
  obtain ⟨f', -, hx', -, -, hf, -, huses⟩ := mem_shared.mp he
  obtain rfl : f = f' := Option.some.inj (hx.symm.trans hx')
  have htwo := ht.copies_le_uses hf
  obtain ⟨y, g, hy, hkey, hyx⟩ := exists_ne_of_one_lt_countP hmany x
  have hedges : f.edges = g.edges :=
    (ht.edges_of_key (List.mem_of_getElem? hy) (by simpa using hkey)).symm
  have hshared : shared t x y = f.edges.filter (others t f · = 0) := by
    rw [shared_eq hx hy hyx.symm, ← hedges, Finset.inter_self]
    refine Finset.filter_congr fun e he => ?_
    have hle := ht.copies_le_uses he
    unfold others
    omega
  have hcard := (hagree x y (by rw [hshared]; exact hloose)).1
  obtain ⟨e', he', hmore⟩ := hwall
  have hall : f.edges.filter (others t f · = 0) = f.edges :=
    Finset.eq_of_subset_of_card_le (Finset.filter_subset _ _) (by
      rw [(ht f hfmem).card_edges, ← hshared, hcard])
  rw [← hall] at he'
  have hzero := (Finset.mem_filter.mp he').2
  omega

end MeshPipeline.Surface
