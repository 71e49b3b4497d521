import Mathlib.Data.Fintype.Card
import Mathlib.Data.Fintype.Pigeonhole
import Mathlib.Data.List.Sort
import Mathlib.Logic.Relation

/-!
# Kahn's algorithm with a priority queue

The vertices of a finite graph in an order in which every vertex comes after those with an edge to
it, the least ready one first. What is left over are the vertices on cycles and everything that
cycles lead to.
-/

namespace Kahn

variable {V : Type*} [DecidableEq V]

/-- The ready vertices in the order of the queue, the edges still to be taken into each vertex, and
the vertices taken so far. -/
structure State (V : Type*) where
  ready : List V
  indegree : V → Nat
  order : List V

section

variable (le edge : V → V → Prop) [DecidableRel le] [DecidableRel edge] (vertices : List V)

/-- One edge into `w` is taken: `w` is ready after the last one. -/
def arrive (s : (V → Nat) × List V) (w : V) : (V → Nat) × List V :=
  let d := s.1 w - 1
  (Function.update s.1 w d, if d = 0 then s.2.orderedInsert le w else s.2)

/-- The vertices that `k` has an edge to. -/
def after (k : V) : List V := vertices.filter fun w => edge k w

/-- The least ready vertex is taken, and its edges with it. -/
def visit (s : State V) : State V :=
  match s.ready with
  | [] => s
  | k :: rest =>
    let arrived := (after edge vertices k).foldl (arrive le) (s.indegree, rest)
    ⟨arrived.2, arrived.1, s.order ++ [k]⟩

def start : State V where
  ready := (vertices.filter fun w => (vertices.filter fun v => edge v w) = []).insertionSort le
  indegree w := (vertices.filter fun v => edge v w).length
  order := []

/-- The loop: it stops changing when no vertex is ready. -/
def run : Nat → State V → State V
  | 0, s => s
  | n + 1, s => run n (visit le edge vertices s)

/-- The order, of the vertices that become ready. -/
def ordered : List V := (run le edge vertices vertices.length (start le edge vertices)).order

/-- The vertices that never do. -/
def leftOver : List V := vertices.filter fun v => v ∉ ordered le edge vertices

/-- The edges between the vertices. -/
def Edge (u v : V) : Prop := u ∈ vertices ∧ v ∈ vertices ∧ edge u v

/-- The edges into `w` that are still to be taken. -/
def pending (order : List V) (w : V) : List V :=
  (vertices.filter fun v => edge v w).filter fun v => v ∉ order

/-- The invariant of the loop: the counts are of the edges still to be taken, a vertex is ready or
taken once none is, and what was taken came after all its edges. -/
structure Inv (s : State V) : Prop where
  nodup : (s.ready ++ s.order).Nodup
  subset : ∀ v ∈ s.ready ++ s.order, v ∈ vertices
  count : ∀ w ∈ vertices, s.indegree w = (pending edge vertices s.order w).length
  ready : ∀ w ∈ vertices, w ∈ s.ready ++ s.order ↔ s.indegree w = 0
  before : ∀ u v, Edge edge vertices u v → v ∈ s.order →
    u ∈ s.order ∧ s.order.idxOf u < s.order.idxOf v

end

variable {le edge : V → V → Prop} [DecidableRel le] [DecidableRel edge] {vertices : List V}
  {s : State V}

/-! ## The loop -/

variable (le) in
/-- What the edges into different vertices do together. -/
lemma foldl_arrive {ws : List V} (hws : ws.Nodup) (d : V → Nat) (ready : List V) :
    (∀ w, (ws.foldl (arrive le) (d, ready)).1 w = if w ∈ ws then d w - 1 else d w) ∧
      (ws.foldl (arrive le) (d, ready)).2.Perm (ws.filter (fun w => d w - 1 = 0) ++ ready) := by
  induction ws generalizing d ready with
  | nil => simp
  | cons x ws ih =>
    obtain ⟨hx, hws⟩ := List.nodup_cons.mp hws
    rw [List.foldl_cons]
    obtain ⟨hcount, hready⟩ := ih hws (arrive le (d, ready) x).1 (arrive le (d, ready) x).2
    have hother : ∀ w, w ≠ x → (arrive le (d, ready) x).1 w = d w := by
      intro w hw
      simp [arrive, hw]
    have hsame : (arrive le (d, ready) x).1 x = d x - 1 := by simp [arrive]
    refine ⟨fun w => ?_, ?_⟩
    · rw [hcount]
      by_cases hw : w = x
      · subst hw
        simp [hx, hsame]
      · simp [hw, hother w hw]
    · refine hready.trans ?_
      have hfilter : ws.filter (fun w => (arrive le (d, ready) x).1 w - 1 = 0) =
          ws.filter (fun w => d w - 1 = 0) := by
        refine List.filter_congr fun w hw => ?_
        rw [hother w (ne_of_mem_of_not_mem hw hx)]
      rw [hfilter, List.filter_cons]
      by_cases hzero : d x - 1 = 0
      · simp only [arrive, hzero, if_true, decide_true, List.cons_append]
        refine ((List.perm_orderedInsert le x ready).append_left _).trans ?_
        exact List.perm_middle
      · simp [arrive, hzero]

variable (le) in
lemma inv_start (hvertices : vertices.Nodup) : Inv edge vertices (start le edge vertices) := by
  have hperm := List.perm_insertionSort le
    (vertices.filter fun w => (vertices.filter fun v => edge v w) = [])
  refine ⟨?_, ?_, ?_, ?_, ?_⟩
  · simpa [start] using hperm.nodup_iff.mpr (hvertices.filter _)
  · intro v hv
    simp only [start, List.append_nil] at hv
    exact List.mem_of_mem_filter (hperm.mem_iff.mp hv)
  · intro w _
    simp [start, pending]
  · intro w hw
    simp only [start, List.append_nil]
    rw [hperm.mem_iff, List.mem_filter]
    simp [hw]
  · intro u v _ hv
    simp [start] at hv

lemma mem_pending {order : List V} {v w : V} :
    v ∈ pending edge vertices order w ↔ v ∈ vertices ∧ edge v w ∧ v ∉ order := by
  grind [pending]

/-- Taking a ready vertex takes its edges. -/
lemma pending_append {k : V} {order : List V} (hk : k ∈ vertices) (hfresh : k ∉ order)
    (hvertices : vertices.Nodup) (w : V) :
    (pending edge vertices (order ++ [k]) w).length =
      if edge k w then (pending edge vertices order w).length - 1
      else (pending edge vertices order w).length := by
  have hnodup : (pending edge vertices order w).Nodup := (hvertices.filter _).filter _
  have herase : pending edge vertices (order ++ [k]) w = (pending edge vertices order w).erase k := by
    rw [hnodup.erase_eq_filter]
    unfold pending
    rw [List.filter_filter, List.filter_filter, List.filter_filter]
    refine List.filter_congr fun v _ => ?_
    grind
  rw [herase]
  split_ifs with hedge
  · exact List.length_erase_of_mem (mem_pending.mpr ⟨hk, hedge, hfresh⟩)
  · rw [List.erase_of_not_mem fun hmem => hedge (mem_pending.mp hmem).2.1]

lemma inv_visit (hvertices : vertices.Nodup) (hs : Inv edge vertices s) :
    Inv edge vertices (visit le edge vertices s) := by
  obtain ⟨ready, d, order⟩ := s
  cases ready with
  | nil => exact hs
  | cons k rest =>
    obtain ⟨hnodup, hsubset, hcount, hready, hbefore⟩ := hs
    simp only at hnodup hsubset hcount hready hbefore
    have hk : k ∈ vertices := hsubset k (by simp)
    have hfresh : k ∉ order := by grind
    obtain ⟨hd, hperm⟩ := foldl_arrive le (hvertices.filter fun w => edge k w) d rest
    have hafter : ∀ w, w ∈ after edge vertices k ↔ w ∈ vertices ∧ edge k w := by simp [after]
    -- a vertex that becomes ready was not: `k` was still to be taken into it
    have hnew : ∀ w ∈ after edge vertices k, w ∉ k :: rest ++ order := by
      intro w hw hmem
      obtain ⟨hw, hedge⟩ := (hafter w).mp hw
      have hzero := (hready w hw).mp hmem
      rw [hcount w hw, List.length_eq_zero_iff] at hzero
      have hpending : k ∈ pending edge vertices order w := mem_pending.mpr ⟨hk, hedge, hfresh⟩
      simp [hzero] at hpending
    have hmem : ∀ w, w ∈ (visit le edge vertices ⟨k :: rest, d, order⟩).ready ++ (order ++ [k]) ↔
        (w ∈ after edge vertices k ∧ d w - 1 = 0) ∨ w ∈ k :: rest ++ order := by
      intro w
      have hready : w ∈ (visit le edge vertices ⟨k :: rest, d, order⟩).ready ↔
          (w ∈ after edge vertices k ∧ d w - 1 = 0) ∨ w ∈ rest := by
        rw [show w ∈ (visit le edge vertices ⟨k :: rest, d, order⟩).ready ↔ _ from hperm.mem_iff]
        grind [after]
      grind
    have hindegree : ∀ w, (visit le edge vertices ⟨k :: rest, d, order⟩).indegree w =
      if w ∈ after edge vertices k then d w - 1 else d w := hd
    refine ⟨?_, ?_, ?_, ?_, ?_⟩
    · have hqueue : (visit le edge vertices ⟨k :: rest, d, order⟩).ready.Nodup := by
        refine hperm.nodup_iff.mpr (List.nodup_append.mpr ⟨(hvertices.filter _).filter _, ?_, ?_⟩)
        · exact (List.nodup_cons.mp (List.nodup_append.mp hnodup).1).2
        · intro w hw x hx heq
          subst heq
          exact hnew w (List.mem_of_mem_filter hw) (by simp [hx])
      have hdisjoint : ∀ w ∈ (visit le edge vertices ⟨k :: rest, d, order⟩).ready,
          w ∉ order ++ [k] := by
        intro w hw
        obtain hw | hw := List.mem_append.mp (hperm.mem_iff.mp hw)
        · have := hnew w (List.mem_of_mem_filter hw)
          grind
        · grind
      refine List.nodup_append.mpr ⟨hqueue, ?_, fun w hw x hx heq => ?_⟩
      · change (order ++ [k]).Nodup
        grind
      · subst heq
        exact hdisjoint w hw hx
    · intro w hw
      obtain ⟨hw, -⟩ | hw := (hmem w).mp hw
      · exact ((hafter w).mp hw).1
      · exact hsubset w hw
    · intro w hw
      rw [hindegree]
      change _ = (pending edge vertices (order ++ [k]) w).length
      rw [pending_append hk hfresh hvertices, hcount w hw]
      simp [hafter, hw]
    · intro w hw
      rw [hindegree]
      refine (hmem w).trans ?_
      rw [hready w hw]
      split_ifs with h <;> grind
    · intro u v huv hv
      have hu := huv.1
      have hedge := huv.2.2
      change v ∈ order ++ [k] at hv
      change u ∈ order ++ [k] ∧ (order ++ [k]).idxOf u < (order ++ [k]).idxOf v
      obtain hv | hv := List.mem_append.mp hv
      · have := hbefore u v huv hv
        grind
      · obtain rfl := List.mem_singleton.mp hv
        have hzero := (hready v hk).mp (by simp)
        rw [hcount v hk, List.length_eq_zero_iff] at hzero
        have hu : u ∈ order := by
          by_contra hnot
          have hpending : u ∈ pending edge vertices order v := mem_pending.mpr ⟨hu, hedge, hnot⟩
          simp [hzero] at hpending
        grind [List.idxOf_lt_length_iff]

variable (le) in
lemma inv_run (hvertices : vertices.Nodup) (n : Nat) (hs : Inv edge vertices s) :
    Inv edge vertices (run le edge vertices n s) := by
  induction n generalizing s with
  | zero => exact hs
  | succ n ih => exact ih (inv_visit hvertices hs)

/-- Each visit takes a vertex while one is ready. -/
lemma length_run (n : Nat) (hready : (run le edge vertices n s).ready ≠ []) :
    (run le edge vertices n s).order.length = s.order.length + n := by
  induction n generalizing s with
  | zero => rfl
  | succ n ih =>
    rw [run, ih hready]
    have hs : s.ready ≠ [] := by
      intro hnil
      have hstuck : ∀ m, (run le edge vertices m s).ready = [] := by
        intro m
        induction m with
        | zero => exact hnil
        | succ m ihm =>
          have hvisit : visit le edge vertices s = s := by
            unfold visit
            rw [hnil]
          rw [run, hvisit]
          exact ihm
      exact hready (hstuck (n + 1))
    obtain ⟨k, rest, hcons⟩ := List.exists_cons_of_ne_nil hs
    have hvisit : (visit le edge vertices s).order = s.order ++ [k] := by
      unfold visit
      rw [hcons]
    rw [hvisit, List.length_append, List.length_singleton]
    omega

variable (le edge) in
/-- No vertex is ready at the end. -/
lemma ready_end (hvertices : vertices.Nodup) :
    (run le edge vertices vertices.length (start le edge vertices)).ready = [] := by
  have hend : Inv edge vertices (run le edge vertices vertices.length (start le edge vertices)) :=
    inv_run le hvertices vertices.length (inv_start le hvertices)
  by_contra hready
  have hlength := length_run vertices.length hready
  obtain ⟨v, rest, hcons⟩ := List.exists_cons_of_ne_nil hready
  have hsub := (List.subperm_of_subset hend.nodup hend.subset).length_le
  rw [hcons, List.length_append, List.length_cons, hlength] at hsub
  omega

/-! ## The order and what is left over -/

lemma nodup_ordered (hvertices : vertices.Nodup) : (ordered le edge vertices).Nodup :=
  (List.nodup_append.mp (inv_run le hvertices vertices.length (inv_start le hvertices)).nodup).2.1

lemma mem_of_ordered (hvertices : vertices.Nodup) {v : V} (h : v ∈ ordered le edge vertices) :
    v ∈ vertices :=
  (inv_run le hvertices vertices.length (inv_start le hvertices)).subset v (List.mem_append_right _ h)

/-- A vertex of the order comes after every vertex with an edge to it. -/
lemma ordered_before (hvertices : vertices.Nodup) {u v : V} (huv : Edge edge vertices u v)
    (hv : v ∈ ordered le edge vertices) : u ∈ ordered le edge vertices ∧
      (ordered le edge vertices).idxOf u < (ordered le edge vertices).idxOf v :=
  (inv_run le hvertices vertices.length (inv_start le hvertices)).before u v huv hv

lemma ordered_before_of_path (hvertices : vertices.Nodup) {u v : V}
    (huv : Relation.TransGen (Edge edge vertices) u v) (hv : v ∈ ordered le edge vertices) :
    u ∈ ordered le edge vertices ∧
      (ordered le edge vertices).idxOf u < (ordered le edge vertices).idxOf v := by
  induction huv using Relation.TransGen.head_induction_on with
  | single h => exact ordered_before hvertices h hv
  | head h _ ih =>
    obtain ⟨hmid, hlt⟩ := ih
    obtain ⟨hu, hlt'⟩ := ordered_before hvertices h hmid
    exact ⟨hu, hlt'.trans hlt⟩

/-- A vertex that is left over has an edge into it from another one. -/
lemma exists_leftOver (hvertices : vertices.Nodup) {v : V} (hv : v ∈ leftOver le edge vertices) :
    ∃ u ∈ leftOver le edge vertices, Edge edge vertices u v := by
  obtain ⟨hv, hnot⟩ := List.mem_filter.mp hv
  have hend : Inv edge vertices (run le edge vertices vertices.length (start le edge vertices)) :=
    inv_run le hvertices vertices.length (inv_start le hvertices)
  have hready := ready_end le edge hvertices
  have hnot : v ∉ (run le edge vertices vertices.length (start le edge vertices)).order :=
    of_decide_eq_true hnot
  have hcount : (pending edge vertices (ordered le edge vertices) v).length ≠ 0 := by
    intro hzero
    have hmem := (hend.ready v hv).mpr ((hend.count v hv).trans hzero)
    rw [hready, List.nil_append] at hmem
    exact hnot hmem
  obtain ⟨u, hu⟩ := List.exists_mem_of_length_pos (Nat.pos_of_ne_zero hcount)
  obtain ⟨hu, hedge, hfresh⟩ := mem_pending.mp hu
  exact ⟨u, List.mem_filter.mpr ⟨hu, by simpa using hfresh⟩, hu, hv, hedge⟩

/-- In a finite set where every element has one before it, every element follows a cycle. -/
lemma exists_cycle {α : Type*} [Finite α] {r : α → α → Prop} (h : ∀ v, ∃ u, r u v) (v : α) :
    ∃ c, Relation.TransGen r c c ∧ Relation.ReflTransGen r c v := by
  choose back hback using h
  have hpath : ∀ n x, Relation.ReflTransGen r (back^[n] x) x := by
    intro n
    induction n with
    | zero => exact fun x => .refl
    | succ n ih =>
      intro x
      rw [Function.iterate_succ_apply]
      exact (ih (back x)).tail (hback x)
  obtain ⟨i, j, hne, heq⟩ := Finite.exists_ne_map_eq_of_infinite fun n => back^[n] v
  wlog hlt : i < j generalizing i j
  · exact this j i hne.symm heq.symm (by omega)
  refine ⟨back^[j] v, ?_, hpath j v⟩
  obtain ⟨k, rfl⟩ := Nat.exists_eq_add_of_lt hlt
  have hcycle : back^[i + k + 1] v = back (back^[k] (back^[i] v)) := by
    rw [← Function.iterate_add_apply, Nat.add_comm i k]
    exact Function.iterate_succ_apply' back (k + i) v
  have hstep := Relation.TransGen.head' (hback (back^[k] (back^[i] v))) (hpath k (back^[i] v))
  rw [← hcycle] at hstep
  have heq : back^[i] v = back^[i + k + 1] v := heq
  rwa [heq] at hstep

/-- What is left over is what a cycle leads to. -/
theorem mem_leftOver_iff (hvertices : vertices.Nodup) {v : V} (hv : v ∈ vertices) :
    v ∈ leftOver le edge vertices ↔ ∃ c, Relation.TransGen (Edge edge vertices) c c ∧
      Relation.ReflTransGen (Edge edge vertices) c v := by
  constructor
  · intro hleft
    obtain ⟨c, hcycle, hpath⟩ := exists_cycle
      (r := fun u w : { u // u ∈ leftOver le edge vertices } => Edge edge vertices u w)
      (fun w => by
        obtain ⟨u, hu, huw⟩ := exists_leftOver hvertices w.2
        exact ⟨⟨u, hu⟩, huw⟩) ⟨v, hleft⟩
    exact ⟨c, hcycle.lift Subtype.val fun _ _ => id, hpath.lift Subtype.val fun _ _ => id⟩
  · rintro ⟨c, hcycle, hpath⟩
    refine List.mem_filter.mpr ⟨hv, ?_⟩
    simp only [decide_eq_true_eq]
    intro hordered
    have hc : c ∈ ordered le edge vertices := by
      obtain rfl | hpath := Relation.reflTransGen_iff_eq_or_transGen.mp hpath
      · exact hordered
      · exact (ordered_before_of_path hvertices hpath hordered).1
    exact lt_irrefl _ (ordered_before_of_path hvertices hcycle hc).2

/-! ## The whole order -/

lemma rel_of_idxOf_lt {r : V → V → Prop} {vs : List V} (hvs : vs.Pairwise r) {u v : V}
    (hv : v ∈ vs) (h : vs.idxOf u < vs.idxOf v) : r u v := by
  have hlt := List.idxOf_lt_length_of_mem hv
  have hget := List.pairwise_iff_getElem.mp hvs (vs.idxOf u) (vs.idxOf v) (h.trans hlt) hlt h
  rwa [List.getElem_idxOf, List.getElem_idxOf] at hget

omit [DecidableRel le] in
/-- In a sorted list the lesser comes first. -/
lemma idxOf_lt_of_rel [Std.Antisymm le] {vs : List V} (hvs : vs.Pairwise le) {u v : V}
    (hu : u ∈ vs) (hne : u ≠ v) (h : le u v) : vs.idxOf u < vs.idxOf v := by
  by_contra hge
  obtain hlt | heq := Nat.lt_or_eq_of_le (Nat.le_of_not_lt hge)
  · exact hne (Std.Antisymm.antisymm u v h (rel_of_idxOf_lt hvs hu hlt))
  · exact hne ((List.idxOf_inj hu).mp heq.symm)

variable (le edge vertices) in
/-- The order, with what is left over behind it, the least first. -/
def whole : List V :=
  ordered le edge vertices ++ (leftOver le edge vertices).insertionSort le

variable [Std.Total le] [IsTrans V le] [Std.Antisymm le]

/-- Where an edge leads to a later vertex: whenever it leaves a vertex of the order, and among what
is left over when its two ends are sorted so. -/
theorem whole_before_iff (hvertices : vertices.Nodup) {u v : V} (huv : Edge edge vertices u v)
    (hne : u ≠ v) : (whole le edge vertices).idxOf u < (whole le edge vertices).idxOf v ↔
      u ∈ ordered le edge vertices ∨ le u v := by
  have hperm := List.perm_insertionSort le (leftOver le edge vertices)
  have hsorted := List.pairwise_insertionSort le (leftOver le edge vertices)
  have hleft : ∀ {x}, x ∈ vertices → x ∉ ordered le edge vertices →
      x ∈ (leftOver le edge vertices).insertionSort le := by
    intro x hx hnot
    exact hperm.mem_iff.mpr (List.mem_filter.mpr ⟨hx, by simpa using hnot⟩)
  unfold whole
  by_cases hu : u ∈ ordered le edge vertices
  · simp only [hu, true_or, iff_true]
    rw [List.idxOf_append_of_mem hu]
    by_cases hv : v ∈ ordered le edge vertices
    · rw [List.idxOf_append_of_mem hv]
      exact (ordered_before hvertices huv hv).2
    · rw [List.idxOf_append_of_notMem hv]
      exact Nat.lt_of_lt_of_le (List.idxOf_lt_length_of_mem hu) (Nat.le_add_right _ _)
  · have hv : v ∉ ordered le edge vertices := fun hv => hu (ordered_before hvertices huv hv).1
    rw [List.idxOf_append_of_notMem hu, List.idxOf_append_of_notMem hv]
    simp only [hu, false_or]
    constructor
    · intro hlt
      exact rel_of_idxOf_lt hsorted (hleft huv.2.1 hv) (Nat.lt_of_add_lt_add_left hlt)
    · intro hle
      exact Nat.add_lt_add_left (idxOf_lt_of_rel hsorted (hleft huv.1 hu) hne hle) _

end Kahn
