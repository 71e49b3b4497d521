import Mathlib.Data.Bool.Basic
import Mathlib.Data.List.Nodup
import Mathlib.Logic.Relation
import MeshPipeline.Library.Assoc

/-!
# Two sides along a tree

A tree grown from a root, each edge of which says whether its ends are on different sides. The sides
are spread from the root, and the smaller side is told from the larger.
-/

namespace ParityTree

variable {V : Type*}

/-- A tree that grows from the nodes `seen`, as pairs of a node and what it hangs on: every node is
new and hangs on an earlier neighbour. -/
def Grows (adj : V → V → Prop) : List V → List (V × V) → Prop
  | _, [] => True
  | seen, e :: tree => e.2 ∈ seen ∧ e.1 ∉ seen ∧ adj e.2 e.1 ∧ Grows adj (e.1 :: seen) tree

/-- The nodes of a tree, the last one first. -/
def nodes (seen : List V) (tree : List (V × V)) : List V := (tree.map Prod.fst).reverse ++ seen

/-- A tree of all that can be reached from its root. -/
structure Spans (adj : V → V → Prop) (root : V) (tree : List (V × V)) : Prop where
  grows : Grows adj [root] tree
  covers : ∀ x, Relation.ReflTransGen adj root x → x ∈ nodes [root] tree

variable {adj : V → V → Prop} {seen : List V} {tree : List (V × V)} {root x : V}

@[simp]
lemma nodes_nil : nodes seen [] = seen := rfl

@[simp]
lemma nodes_cons (e : V × V) : nodes seen (e :: tree) = nodes (e.1 :: seen) tree := by
  simp [nodes]

lemma nodes_append (tree tree' : List (V × V)) :
    nodes seen (tree ++ tree') = nodes (nodes seen tree) tree' := by
  simp [nodes]

lemma nodes_map_pair (new : List V) (p : V) :
    nodes seen (new.map (·, p)) = new.reverse ++ seen := by
  simp [nodes, Function.comp_def]

lemma mem_nodes_of_seen (h : x ∈ seen) : x ∈ nodes seen tree := List.mem_append_right _ h

lemma Grows.append {tree' : List (V × V)} (h : Grows adj seen tree)
    (h' : Grows adj (nodes seen tree) tree') : Grows adj seen (tree ++ tree') := by
  induction tree generalizing seen with
  | nil => exact h'
  | cons e tree ih =>
    obtain ⟨hold, hnew, hadj, htree⟩ := h
    rw [nodes_cons] at h'
    exact ⟨hold, hnew, hadj, ih htree h'⟩

lemma Grows.nodup (h : Grows adj seen tree) (hseen : seen.Nodup) : (nodes seen tree).Nodup := by
  induction tree generalizing seen with
  | nil => exact hseen
  | cons e tree ih =>
    obtain ⟨-, hnew, -, htree⟩ := h
    rw [nodes_cons]
    exact ih htree (List.nodup_cons.mpr ⟨hnew, hseen⟩)

lemma Grows.mem_nodes {e : V × V} (h : Grows adj seen tree) (he : e ∈ tree) :
    e.1 ∈ nodes seen tree ∧ e.2 ∈ nodes seen tree := by
  induction tree generalizing seen with
  | nil => cases he
  | cons e' tree ih =>
    obtain ⟨hold, -, -, htree⟩ := h
    rw [nodes_cons]
    obtain rfl | he := List.mem_cons.mp he
    · exact ⟨mem_nodes_of_seen List.mem_cons_self, mem_nodes_of_seen (List.mem_cons_of_mem _ hold)⟩
    · exact ih htree he

lemma Grows.adj_of_mem {e : V × V} (h : Grows adj seen tree) (he : e ∈ tree) : adj e.2 e.1 := by
  induction tree generalizing seen with
  | nil => cases he
  | cons e' tree ih =>
    obtain ⟨-, -, hadj, htree⟩ := h
    obtain rfl | he := List.mem_cons.mp he
    · exact hadj
    · exact ih htree he

/-- What holds of the start and is passed on along edges holds of every node. -/
lemma Grows.forall_mem {P : V → Prop} (h : Grows adj seen tree) (hseen : ∀ x ∈ seen, P x)
    (hstep : ∀ e ∈ tree, adj e.2 e.1 → P e.2 → P e.1) : ∀ x ∈ nodes seen tree, P x := by
  induction tree generalizing seen with
  | nil => exact hseen
  | cons e tree ih =>
    obtain ⟨hold, -, hadj, htree⟩ := h
    rw [nodes_cons]
    refine ih htree (fun x hx => ?_) fun e' he' => hstep e' (List.mem_cons_of_mem e he')
    obtain rfl | hx := List.mem_cons.mp hx
    · exact hstep e List.mem_cons_self hadj (hseen e.2 hold)
    · exact hseen x hx

lemma Spans.mem_nodes_iff (h : Spans adj root tree) :
    x ∈ nodes [root] tree ↔ Relation.ReflTransGen adj root x := by
  refine ⟨?_, h.covers x⟩
  refine h.grows.forall_mem (fun y hy => ?_) (fun e _ hadj hreach => hreach.tail hadj) x
  obtain rfl := List.mem_singleton.mp hy
  exact .refl

/-- Two sidings that agree along the edges agree up to the side of the root. -/
lemma Grows.sides_agree {σ τ : V → Bool} (h : Grows adj [root] tree)
    (hedge : ∀ e ∈ tree, (σ e.1 ^^ σ e.2) = (τ e.1 ^^ τ e.2)) (hx : x ∈ nodes [root] tree) :
    (σ x ^^ σ root) = (τ x ^^ τ root) := by
  refine h.forall_mem (P := fun x => (σ x ^^ σ root) = (τ x ^^ τ root)) (fun y hy => ?_)
    (fun e he _ hold => ?_) x hx
  · obtain rfl := List.mem_singleton.mp hy
    simp
  · have hnew := hedge e he
    revert hnew hold
    cases σ e.1 <;> cases σ e.2 <;> cases σ root <;> cases τ e.1 <;> cases τ e.2 <;>
      cases τ root <;> simp

/-! ## The sides -/

section

variable [DecidableEq V]

def side (sides : List (V × Bool)) (x : V) : Bool := (sides.lookup x).getD false

/-- The sides spread along a tree, the last node first. -/
def spread (odd : V → V → Bool) (sides : List (V × Bool)) (tree : List (V × V)) : List (V × Bool) :=
  tree.foldl (fun sides e => (e.1, side sides e.2 ^^ odd e.1 e.2) :: sides) sides

def sides (odd : V → V → Bool) (root : V) (tree : List (V × V)) : List (V × Bool) :=
  spread odd [(root, false)] tree

variable {odd : V → V → Bool} {s : List (V × Bool)} {b : Bool}

@[simp]
lemma side_cons_self : side ((x, b) :: s) x = b := by simp [side]

lemma side_cons_of_ne {y : V} (h : x ≠ y) : side ((y, b) :: s) x = side s x := by
  simp [side, List.lookup_cons, beq_false_of_ne h]

lemma spread_cons (e : V × V) :
    spread odd s (e :: tree) = spread odd ((e.1, side s e.2 ^^ odd e.1 e.2) :: s) tree := rfl

@[simp]
lemma map_fst_spread : (spread odd s tree).map Prod.fst = nodes (s.map Prod.fst) tree := by
  induction tree generalizing s with
  | nil => rfl
  | cons e tree ih =>
    rw [nodes_cons]
    exact ih

/-- What has a side keeps it. -/
lemma side_spread (h : Grows adj seen tree) (hs : s.map Prod.fst = seen) (hx : x ∈ seen) :
    side (spread odd s tree) x = side s x := by
  induction tree generalizing s seen with
  | nil => rfl
  | cons e tree ih =>
    obtain ⟨-, hnew, -, htree⟩ := h
    have hne : x ≠ e.1 := fun heq => hnew (heq ▸ hx)
    rw [spread_cons, ih htree (by simp [hs]) (List.mem_cons_of_mem _ hx), side_cons_of_ne hne]

/-- Every edge of the tree says whether its ends are on different sides. -/
lemma side_edge (h : Grows adj seen tree) (hs : s.map Prod.fst = seen) {e : V × V} (he : e ∈ tree) :
    (side (spread odd s tree) e.1 ^^ side (spread odd s tree) e.2) = odd e.1 e.2 := by
  induction tree generalizing s seen with
  | nil => cases he
  | cons e' tree ih =>
    obtain ⟨hold, hnew, -, htree⟩ := h
    have hs' : ((e'.1, side s e'.2 ^^ odd e'.1 e'.2) :: s).map Prod.fst = e'.1 :: seen := by
      simp [hs]
    rw [spread_cons]
    obtain rfl | he := List.mem_cons.mp he
    · have hne : e.2 ≠ e.1 := fun heq => hnew (heq ▸ hold)
      rw [side_spread htree hs' List.mem_cons_self,
        side_spread htree hs' (List.mem_cons_of_mem _ hold), side_cons_self, side_cons_of_ne hne]
      cases side s e.2 <;> cases odd e.1 e.2 <;> rfl
    · exact ih htree hs' he

/-- Without an edge between two sides all is on the side of the root. -/
lemma spread_eq_false (h : ∀ e ∈ tree, odd e.1 e.2 = false) (hs : ∀ e ∈ s, e.2 = false) :
    ∀ e ∈ spread odd s tree, e.2 = false := by
  induction tree generalizing s with
  | nil => exact hs
  | cons e tree ih =>
    rw [spread_cons]
    refine ih (fun e' he' => h e' (List.mem_cons_of_mem e he')) fun e' he' => ?_
    obtain rfl | he' := List.mem_cons.mp he'
    · have hside : side s e.2 = false := by
        unfold side
        cases hlookup : s.lookup e.2 with
        | none => rfl
        | some b => exact hs _ (Assoc.mem_of_lookup hlookup)
      simp [hside, h e List.mem_cons_self]
    · exact hs e' he'

lemma side_of_mem (hnodup : (s.map Prod.fst).Nodup) {e : V × Bool} (he : e ∈ s) :
    side s e.1 = e.2 := by
  rw [side, Assoc.lookup_of_mem hnodup he]
  rfl

end

/-! ## The smaller side -/

variable {s : List (V × Bool)}

/-- The nodes on the other side than the root's, or those on the root's where these are fewer. -/
def smaller (s : List (V × Bool)) : List V :=
  if s.length < 2 * (s.filter fun e => e.2).length then (s.filter fun e => !e.2).map Prod.fst
  else (s.filter fun e => e.2).map Prod.fst

lemma mem_side_iff [DecidableEq V] (hnodup : (s.map Prod.fst).Nodup) (hx : x ∈ s.map Prod.fst)
    (b : Bool) : x ∈ (s.filter fun e => e.2 == b).map Prod.fst ↔ side s x = b := by
  obtain ⟨e, he, rfl⟩ := List.mem_map.mp hx
  rw [side_of_mem hnodup he]
  constructor
  · intro hmem
    obtain ⟨e', he', heq⟩ := List.mem_map.mp hmem
    obtain ⟨he', hb⟩ := List.mem_filter.mp he'
    obtain rfl : e' = e := List.inj_on_of_nodup_map hnodup he' he heq
    simpa using hb
  · intro hb
    exact List.mem_map_of_mem (List.mem_filter.mpr ⟨he, by simpa using hb⟩)

lemma smaller_subset (h : x ∈ smaller s) : x ∈ s.map Prod.fst := by
  unfold smaller at h
  split at h <;> exact List.map_subset _ (List.filter_subset_self _) h

/-- The smaller side is a side. -/
lemma mem_smaller [DecidableEq V] (hnodup : (s.map Prod.fst).Nodup) :
    ∃ c, ∀ x ∈ s.map Prod.fst, (x ∈ smaller s ↔ side s x = c) := by
  unfold smaller
  split
  · refine ⟨false, fun x hx => ?_⟩
    rw [← mem_side_iff hnodup hx false]
    simp
  · refine ⟨true, fun x hx => ?_⟩
    rw [← mem_side_iff hnodup hx true]
    simp

lemma length_smaller : 2 * (smaller s).length ≤ s.length := by
  have hsum := List.length_eq_length_filter_add (l := s) fun e => e.2
  unfold smaller
  split
  · simp only [List.length_map]
    omega
  · simp only [List.length_map]
    omega

lemma nodup_smaller (hnodup : (s.map Prod.fst).Nodup) : (smaller s).Nodup := by
  unfold smaller
  split <;> exact hnodup.sublist (List.filter_sublist.map _)

lemma smaller_eq_nil (h : ∀ e ∈ s, e.2 = false) : smaller s = [] := by
  have hnone : s.filter (fun e => e.2) = [] := by
    rw [List.filter_eq_nil_iff]
    exact fun e he => by simp [h e he]
  simp [smaller, hnone]

end ParityTree

/-!
## Breadth-first search

A search with a queue gives a tree of all that its root reaches.
-/

namespace BreadthFirst

variable {V : Type*} [DecidableEq V]

/-- What is not seen yet and next to a node. -/
def unseen (nodes : List V) (adj : V → V → Bool) (seen : List V) (p : V) : List V :=
  nodes.filter fun x => adj p x && decide (x ∉ seen)

/-- The tree of a search that has these in its queue, at most so many steps of it. -/
def visit (nodes : List V) (adj : V → V → Bool) : ℕ → List V → List V → List (V × V)
  | 0, _, _ => []
  | _ + 1, _, [] => []
  | fuel + 1, seen, p :: queue =>
    let new := unseen nodes adj seen p
    new.map (·, p) ++ visit nodes adj fuel (new.reverse ++ seen) (queue ++ new)

/-- The nodes other than the root that it reaches, each with the node that it is reached from. -/
def search (nodes : List V) (adj : V → V → Bool) (root : V) : List (V × V) :=
  visit nodes adj nodes.length [root] [root]

variable {nodes seen queue : List V} {adj : V → V → Bool} {root p x : V} {fuel : ℕ}

lemma mem_unseen : x ∈ unseen nodes adj seen p ↔ x ∈ nodes ∧ adj p x = true ∧ x ∉ seen := by
  simp [unseen]

omit [DecidableEq V] in
/-- New neighbours of a node that is seen hang on it. -/
lemma grows_star {new : List V} (hp : p ∈ seen) (hnodup : new.Nodup)
    (hnew : ∀ x ∈ new, adj p x = true ∧ x ∉ seen) :
    ParityTree.Grows (fun x y => adj x y = true) seen (new.map (·, p)) := by
  induction new generalizing seen with
  | nil => trivial
  | cons x new ih =>
    obtain ⟨hx, hnodup⟩ := List.nodup_cons.mp hnodup
    refine ⟨hp, (hnew x List.mem_cons_self).2, (hnew x List.mem_cons_self).1, ?_⟩
    refine ih (List.mem_cons_of_mem x hp) hnodup fun y hy => ?_
    obtain ⟨hadj, hold⟩ := hnew y (List.mem_cons_of_mem x hy)
    refine ⟨hadj, fun hmem => ?_⟩
    obtain rfl | hmem := List.mem_cons.mp hmem
    · exact hx hy
    · exact hold hmem

lemma grows_visit (hnodup : nodes.Nodup) (hqueue : queue ⊆ seen) :
    ParityTree.Grows (fun x y => adj x y = true) seen (visit nodes adj fuel seen queue) := by
  induction fuel generalizing seen queue with
  | zero => trivial
  | succ fuel ih =>
    cases queue with
    | nil => trivial
    | cons p queue =>
      refine ParityTree.Grows.append ?_ ?_
      · exact grows_star (hqueue List.mem_cons_self) (hnodup.filter _) fun x hx =>
          (mem_unseen.mp hx).2
      · rw [ParityTree.nodes_map_pair]
        refine ih fun x hx => ?_
        obtain hx | hx := List.mem_append.mp hx
        · exact List.mem_append_right _ (hqueue (List.mem_cons_of_mem p hx))
        · exact List.mem_append_left _ (List.mem_reverse.mpr hx)

/-- A step takes one node from the queue and puts in what is no longer unseen. -/
lemma length_unseen_add (nodes seen : List V) (adj : V → V → Bool) (p : V) :
    (nodes.filter (· ∉ (unseen nodes adj seen p).reverse ++ seen)).length +
      (unseen nodes adj seen p).length = (nodes.filter (· ∉ seen)).length := by
  rw [List.length_eq_length_filter_add (l := nodes.filter (· ∉ seen)) (adj p), Nat.add_comm]
  congr 1
  · rw [unseen, List.filter_filter]
  · rw [List.filter_filter]
    congr 1
    refine List.filter_congr fun x hx => ?_
    by_cases hseen : x ∈ seen <;> cases hadj : adj p x <;> simp [mem_unseen, hx, hseen, hadj]

/-- With steps for all that is in the queue or not seen yet, the search ends with all neighbours
seen. -/
lemma closed_visit (hnodes : ∀ x y, adj x y = true → y ∈ nodes)
    (hfuel : queue.length + (nodes.filter (· ∉ seen)).length ≤ fuel)
    (hdone : ∀ x ∈ seen, x ∉ queue → ∀ y, adj x y = true → y ∈ seen) :
    ∀ x ∈ ParityTree.nodes seen (visit nodes adj fuel seen queue), ∀ y, adj x y = true →
      y ∈ ParityTree.nodes seen (visit nodes adj fuel seen queue) := by
  induction fuel generalizing seen queue with
  | zero =>
    obtain rfl : queue = [] := List.length_eq_zero_iff.mp (by omega)
    exact fun x hx => hdone x hx List.not_mem_nil
  | succ fuel ih =>
    cases queue with
    | nil => exact fun x hx => hdone x hx List.not_mem_nil
    | cons p queue =>
      have hcount := length_unseen_add nodes seen adj p
      simp only [visit, ParityTree.nodes_append, ParityTree.nodes_map_pair]
      refine ih ?_ ?_
      · simp only [List.length_cons, List.length_append] at *
        omega
      · intro x hx hleft y hadj
        rw [List.mem_append, List.mem_reverse] at hx ⊢
        obtain hx | hx := hx
        · exact absurd (List.mem_append_right _ hx) hleft
        · by_cases hp : x = p
          · subst hp
            by_cases hy : y ∈ seen
            · exact .inr hy
            · exact .inl (mem_unseen.mpr ⟨hnodes x y hadj, hadj, hy⟩)
          · refine .inr (hdone x hx ?_ y hadj)
            simp_all

theorem spans_search (hnodup : nodes.Nodup) (hnodes : ∀ x y, adj x y = true → y ∈ nodes)
    (hroot : root ∈ nodes) :
    ParityTree.Spans (fun x y => adj x y = true) root (search nodes adj root) where
  grows := grows_visit hnodup (List.Subset.refl [root])
  covers x hx := by
    have hfuel : [root].length + (nodes.filter (· ∉ [root])).length ≤ nodes.length := by
      have hsum := List.length_eq_length_filter_add (l := nodes) (· ∉ [root])
      have hpos : 0 < (nodes.filter fun x => !decide (x ∉ [root])).length :=
        List.length_pos_of_mem (List.mem_filter.mpr ⟨hroot, by simp⟩)
      simp only [List.length_singleton]
      omega
    have hclosed := closed_visit hnodes hfuel fun x hx hout => absurd hx hout
    induction hx with
    | refl => exact ParityTree.mem_nodes_of_seen (List.mem_singleton_self root)
    | tail _ hadj ih => exact hclosed _ ih _ hadj

end BreadthFirst
