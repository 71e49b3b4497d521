import MeshPipeline.Surface.Tidy

/-!
# The triangles that stay

Facts about single triangles, and which copies of a doubled one stay: none of a sliver, the first of
a face written twice, and all of any other.
-/

namespace MeshPipeline.Surface

namespace Face

variable {V : Type} [DecidableEq V] {f g : Face V} {p : V × V} {e e' : Sym2 V}

/-- Three different corners. -/
def Distinct (f : Face V) : Prop := f.a ≠ f.b ∧ f.b ≠ f.c ∧ f.a ≠ f.c

omit [DecidableEq V] in
@[simp]
lemma turned_turned (f : Face V) : f.turned.turned = f := rfl

omit [DecidableEq V] in
lemma Distinct.turned (h : f.Distinct) : f.turned.Distinct := ⟨h.2.1.symm, h.1.symm, h.2.2.symm⟩

omit [DecidableEq V] in
lemma Distinct.turned_ne (h : f.Distinct) : f.turned ≠ f := fun heq =>
  h.2.2 (congrArg Face.c heq)

@[simp]
lemma edges_turned (f : Face V) : f.turned.edges = f.edges := by
  ext e
  simp only [edges, turned, Finset.mem_insert, Finset.mem_singleton, Sym2.eq_swap]
  grind

@[simp]
lemma key_turned (f : Face V) : f.turned.key = f.key := by
  simp only [key, turned, Prod.mk.injEq, and_true]
  grind

lemma mem_walk_turned : p ∈ f.turned.walk ↔ p.swap ∈ f.walk := by
  obtain ⟨x, y⟩ := p
  simp only [walk, turned, Finset.mem_insert, Finset.mem_singleton, Prod.swap_prod_mk,
    Prod.mk.injEq]
  grind

lemma mem_edges : e ∈ f.edges ↔ ∃ p ∈ f.walk, s(p.1, p.2) = e := by
  simp only [edges, walk, Finset.mem_insert, Finset.mem_singleton]
  grind

lemma Distinct.swap_not_mem (h : f.Distinct) (hp : p ∈ f.walk) : p.swap ∉ f.walk := by
  obtain ⟨x, y⟩ := p
  obtain ⟨hab, hbc, hac⟩ := h
  simp only [walk, Finset.mem_insert, Finset.mem_singleton, Prod.swap_prod_mk, Prod.mk.injEq] at *
  grind

lemma Distinct.card_edges (h : f.Distinct) : f.edges.card = 3 := by
  obtain ⟨hab, hbc, hac⟩ := h
  rw [edges, Finset.card_eq_three]
  refine ⟨_, _, _, ?_, ?_, ?_, rfl⟩ <;> simp only [ne_eq, Sym2.eq_iff] <;> grind

/-- Two triangles with two edges in common have the same corners. -/
lemma Distinct.same_corners (hf : f.Distinct) (hg : g.Distinct) (he : e ∈ f.edges ∩ g.edges)
    (he' : e' ∈ f.edges ∩ g.edges) (hne : e ≠ e') : f.key.1 = g.key.1 := by
  obtain ⟨hab, hbc, hac⟩ := hf
  obtain ⟨hab', hbc', hac'⟩ := hg
  simp only [edges, Finset.mem_inter, Finset.mem_insert, Finset.mem_singleton] at he he'
  ext v
  simp only [key, Finset.mem_insert, Finset.mem_singleton]
  rcases he with ⟨rfl | rfl | rfl, he⟩ <;> rcases he' with ⟨rfl | rfl | rfl, he'⟩ <;>
    simp only [Sym2.eq_iff] at he he' hne <;> grind

/-- Two triangles of the same corners walk the same way round or opposite ways. -/
lemma walk_of_corners (hg : g.Distinct) (h : f.key.1 = g.key.1) :
    g.walk = f.walk ∨ g.walk = f.turned.walk := by
  obtain ⟨hab, hbc, hac⟩ := hg
  have ha : g.a ∈ f.key.1 := by
    rw [h]
    simp [key]
  have hb : g.b ∈ f.key.1 := by
    rw [h]
    simp [key]
  have hc : g.c ∈ f.key.1 := by
    rw [h]
    simp [key]
  simp only [key, Finset.mem_insert, Finset.mem_singleton] at ha hb hc
  simp only [walk, turned]
  rcases ha with ha | ha | ha <;> rcases hb with hb | hb | hb <;> rcases hc with hc | hc | hc <;>
    simp_all <;> grind

/-- Two triangles of the same corners have the same edges. -/
lemma edges_of_corners (hg : g.Distinct) (h : f.key.1 = g.key.1) : g.edges = f.edges := by
  ext e
  rw [mem_edges, ← edges_turned f]
  obtain hsame | hopposite := walk_of_corners hg h
  · rw [hsame, edges_turned, mem_edges]
  · rw [hopposite, mem_edges]

end Face

variable {V : Type} [DecidableEq V] {t before : List (Face V)} {f g : Face V} {e : Sym2 V}

/-- Triangles of three different corners each. -/
def AllDistinct (t : List (Face V)) : Prop := ∀ f ∈ t, f.Distinct

/-! ## Counting by places -/

section

variable {α : Type} {P : α → Bool} {l : List α} {x y z : ℕ} {a b c : α}

/-- A list is counted by its places. -/
lemma countP_eq_card (P : α → Bool) (l : List α) :
    l.countP P = ((Finset.range l.length).filter fun i => (l[i]?).any P).card := by
  induction l using List.reverseRecOn with
  | nil => rfl
  | append_singleton l a ih =>
    have hold : (Finset.range l.length).filter (fun i => ((l ++ [a])[i]?).any P) =
        (Finset.range l.length).filter fun i => (l[i]?).any P :=
      Finset.filter_congr fun i hi => by rw [List.getElem?_append_left (Finset.mem_range.mp hi)]
    rw [List.countP_append, List.length_append, List.length_singleton, Finset.range_add_one,
      Finset.filter_insert, hold, ih, List.countP_singleton]
    split <;> simp_all

/-- Two kinds of elements of which none is both are counted side by side. -/
lemma countP_add_le {Q R : α → Bool} (h : ∀ a ∈ l, (P a → R a) ∧ (Q a → R a) ∧ ¬ (P a ∧ Q a)) :
    l.countP P + l.countP Q ≤ l.countP R := by
  induction l with
  | nil => rfl
  | cons a l ih =>
    have hrest := ih fun b hb => h b (List.mem_cons_of_mem a hb)
    have ha := h a List.mem_cons_self
    simp only [List.countP_cons]
    grind

lemma exists_ne_of_one_lt_countP (h : 1 < l.countP P) (x : ℕ) :
    ∃ y b, l[y]? = some b ∧ P b = true ∧ y ≠ x := by
  rw [countP_eq_card] at h
  obtain ⟨y, hy, hne⟩ := Finset.exists_mem_ne h x
  obtain ⟨-, hany⟩ := Finset.mem_filter.mp hy
  cases hb : l[y]? with
  | none => simp [hb] at hany
  | some b => exact ⟨y, b, hb, by simpa [hb] using hany, hne⟩

lemma eq_or_eq_of_countP_le (h : l.countP P ≤ 2) (hx : l[x]? = some a) (hy : l[y]? = some b)
    (hz : l[z]? = some c) (hxy : x ≠ y) (ha : P a) (hb : P b) (hc : P c) : z = x ∨ z = y := by
  by_contra hnot
  obtain ⟨hzx, hzy⟩ := not_or.mp hnot
  have hmem : ∀ {i d}, l[i]? = some d → P d →
      i ∈ (Finset.range l.length).filter fun i => (l[i]?).any P := fun hi hd =>
    Finset.mem_filter.mpr
      ⟨Finset.mem_range.mpr (List.getElem?_eq_some_iff.mp hi).1, by rw [hi]; exact hd⟩
  have hthree := Finset.two_lt_card.mpr
    ⟨x, hmem hx ha, y, hmem hy hb, z, hmem hz hc, hxy, Ne.symm hzx, Ne.symm hzy⟩
  rw [← countP_eq_card] at hthree
  omega

end

/-! ## Copies -/

lemma copies_of_key (h : f.key = g.key) : copies t f = copies t g := by rw [copies, copies, h]

lemma others_of_key (h : f.key = g.key) : others t f e = others t g e := by
  rw [others, others, copies_of_key h]

lemma AllDistinct.edges_of_key (ht : AllDistinct t) (hf : f ∈ t) (h : f.key = g.key) :
    f.edges = g.edges := Face.edges_of_corners (ht f hf) (by rw [h])

lemma copies_pos (hf : f ∈ t) : 0 < copies t f := List.countP_pos_iff.mpr ⟨f, hf, by simp⟩

/-- A copy uses every edge of the triangle. -/
lemma AllDistinct.copies_le_uses (ht : AllDistinct t) (he : e ∈ f.edges) :
    copies t f ≤ uses t e := by
  refine List.countP_mono_left fun g hg hkey => ?_
  simpa [ht.edges_of_key hg (by simpa using hkey)] using he

section

variable (ht : AllDistinct t) (hf : f ∈ t) (hg : g ∈ t) (h : f.key = g.key)

include hg h in
lemma SameWay.of_key (hsame : SameWay t f) : SameWay t g := fun f' hf' hkey =>
  (hsame f' hf' (hkey.trans h.symm)).trans (hsame g hg h.symm).symm

include ht hf h in
lemma Loose.of_key (hloose : Loose t f) : Loose t g := by
  have hothers : others t g = others t f := funext fun e => (others_of_key h).symm
  rw [Loose, hothers, ← ht.edges_of_key hf h]
  exact hloose

include ht hf hg h in
lemma Sliver.of_key (hsliver : Sliver t f) : Sliver t g :=
  ⟨copies_of_key h ▸ hsliver.1, hsliver.2.1.of_key hg h, hsliver.2.2.of_key ht hf h⟩

include ht hf hg h in
lemma WrittenTwice.of_key (htwice : WrittenTwice t f) : WrittenTwice t g := by
  refine ⟨copies_of_key h ▸ htwice.1, fun hsliver => htwice.2.1 (hsliver.of_key ht hg hf h.symm),
    ?_⟩
  intro e he
  rw [← others_of_key h]
  exact htwice.2.2 e (ht.edges_of_key hf h ▸ he)

end

/-! ## What stays -/

lemma keptAfter_sublist (t before rest : List (Face V)) :
    (keptAfter t before rest).Sublist rest := by
  induction rest generalizing before with
  | nil => exact List.Sublist.slnil
  | cons f rest ih =>
    unfold keptAfter
    split
    · exact (ih _).cons f
    · exact (ih _).cons_cons f

lemma kept_sublist (t : List (Face V)) : (kept t).Sublist t := keptAfter_sublist t [] t

lemma AllDistinct.kept (ht : AllDistinct t) : AllDistinct (kept t) := fun f hf =>
  ht f ((kept_sublist t).subset hf)

/-- A triangle that neither is a sliver nor is written twice keeps its copies. -/
lemma copies_keptAfter_of_plain {rest : List (Face V)} (hrest : rest ⊆ t)
    (h : ∀ g ∈ t, g.key = f.key → ¬ Sliver t g ∧ ¬ WrittenTwice t g) :
    copies (keptAfter t before rest) f = copies rest f := by
  induction rest generalizing before with
  | nil => rfl
  | cons g rest ih =>
    have hrest' : rest ⊆ t := fun x hx => hrest (List.mem_cons_of_mem g hx)
    unfold keptAfter
    by_cases hkey : g.key = f.key
    · have hplain := h g (hrest List.mem_cons_self) hkey
      rw [if_neg (by tauto)]
      simpa [copies, List.countP_cons, hkey] using ih hrest'
    · split
      · simpa [copies, List.countP_cons, hkey] using ih hrest'
      · simpa [copies, List.countP_cons, hkey] using ih hrest'

/-- No copy of a sliver stays. -/
lemma copies_keptAfter_of_sliver {rest : List (Face V)} (hrest : rest ⊆ t)
    (h : ∀ g ∈ t, g.key = f.key → Sliver t g) : copies (keptAfter t before rest) f = 0 := by
  induction rest generalizing before with
  | nil => rfl
  | cons g rest ih =>
    have hrest' : rest ⊆ t := fun x hx => hrest (List.mem_cons_of_mem g hx)
    unfold keptAfter
    by_cases hkey : g.key = f.key
    · rw [if_pos (.inl (h g (hrest List.mem_cons_self) hkey))]
      exact ih hrest'
    · split
      · exact ih hrest'
      · simpa [copies, List.countP_cons, hkey] using ih hrest'

/-- One copy of a face written twice stays, the first. -/
lemma copies_keptAfter_of_twice {rest : List (Face V)} (hrest : rest ⊆ t)
    (h : ∀ g ∈ t, g.key = f.key → WrittenTwice t g) : copies (keptAfter t before rest) f =
      if f.key ∈ before.map Face.key then 0 else min 1 (copies rest f) := by
  induction rest generalizing before with
  | nil => simp [keptAfter, copies]
  | cons g rest ih =>
    have hrest' : rest ⊆ t := fun x hx => hrest (List.mem_cons_of_mem g hx)
    have hih : copies (keptAfter t (before ++ [g]) rest) f =
        if f.key ∈ (before ++ [g]).map Face.key then 0 else min 1 (copies rest f) := ih hrest'
    unfold keptAfter
    by_cases hkey : g.key = f.key
    · have htwice := h g (hrest List.mem_cons_self) hkey
      rw [List.map_append, List.map_singleton, hkey] at hih
      by_cases hseen : f.key ∈ before.map Face.key
      · rw [if_pos (.inr ⟨htwice, hkey ▸ hseen⟩), if_pos hseen, hih]
        simp
      · rw [if_neg (by rw [hkey]; have := htwice.2.1; tauto), if_neg hseen]
        simp only [copies, List.countP_cons, hkey, decide_true, if_true] at hih ⊢
        simp only [List.mem_append, List.mem_singleton, or_true, if_true] at hih
        omega
    · have hseen : f.key ∈ (before ++ [g]).map Face.key ↔ f.key ∈ before.map Face.key := by
        simp [Ne.symm hkey]
      rw [if_congr hseen rfl rfl] at hih
      split
      · simpa [copies, List.countP_cons, hkey] using hih
      · simpa [copies, List.countP_cons, hkey] using hih

section

variable (ht : AllDistinct t) (hf : f ∈ t)

include ht hf

lemma copies_kept_of_sliver (h : Sliver t f) : copies (kept t) f = 0 :=
  copies_keptAfter_of_sliver (List.Subset.refl t) fun _ hg hkey => h.of_key ht hf hg hkey.symm

lemma copies_kept_of_twice (h : WrittenTwice t f) : copies (kept t) f = 1 := by
  have hcopies : copies (keptAfter t [] t) f = _ := copies_keptAfter_of_twice (List.Subset.refl t)
    fun _ hg hkey => h.of_key ht hf hg hkey.symm
  have hpos := copies_pos hf
  rw [kept, hcopies, List.map_nil, if_neg List.not_mem_nil]
  omega

lemma copies_kept_of_plain (hsliver : ¬ Sliver t f) (htwice : ¬ WrittenTwice t f) :
    copies (kept t) f = copies t f :=
  copies_keptAfter_of_plain (List.Subset.refl t) fun _ hg hkey =>
    ⟨fun h => hsliver (h.of_key ht hg hf hkey), fun h => htwice (h.of_key ht hg hf hkey)⟩

/-- A triangle that is no sliver keeps a copy. -/
lemma copies_kept_pos (hsliver : ¬ Sliver t f) : 0 < copies (kept t) f := by
  by_cases htwice : WrittenTwice t f
  · rw [copies_kept_of_twice ht hf htwice]
    exact Nat.one_pos
  · rw [copies_kept_of_plain ht hf hsliver htwice]
    exact copies_pos hf

end

/-- Everything stays where there is no sliver and no face written twice. -/
lemma kept_eq_self_iff (ht : AllDistinct t) :
    kept t = t ↔ ∀ f ∈ t, ¬ Sliver t f ∧ ¬ WrittenTwice t f := by
  constructor
  · intro h f hf
    have hpos := copies_pos hf
    constructor
    · intro hsliver
      have hzero := copies_kept_of_sliver ht hf hsliver
      rw [h] at hzero
      omega
    · intro htwice
      have hone := copies_kept_of_twice ht hf htwice
      have hmany := htwice.1
      rw [h] at hone
      omega
  · intro h
    have hall (before rest : List (Face V)) (hrest : rest ⊆ t) :
        keptAfter t before rest = rest := by
      induction rest generalizing before with
      | nil => rfl
      | cons g rest ih =>
        have hplain := h g (hrest List.mem_cons_self)
        rw [keptAfter, if_neg (by tauto), ih _ fun x hx => hrest (List.mem_cons_of_mem g hx)]
    exact hall [] t (List.Subset.refl t)

end MeshPipeline.Surface
