import Mathlib.Algebra.Order.Group.Defs
import Mathlib.Order.WithBot
import Mathlib.Tactic.Linarith

/-!
# Clusters of a sorted list

A sorted list is cut into clusters, greedily. An item joins the cluster before it when it is within
the noise of its first item, or within the reach of every item of the cluster and within its own.
-/

namespace Clusters

variable {α K : Type*} [Field K] [LinearOrder K]

/-- What an item is placed by: its value, and how far it may be from others of its cluster. -/
structure Measure (α K : Type*) where
  value : α → K
  room : α → WithTop K
  noise : K
  merge : K

namespace Measure

variable (m : Measure α K)

/-- The distance is noise, or the item has room for it. -/
def Near (v : α) (distance : K) : Prop :=
  distance ≤ m.noise ∨ distance ≤ m.merge ∧ (distance : WithTop K) ≤ m.room v

/-- The item joins a cluster that has this start and this room left. -/
def Joins (start : K) (left : WithTop K) (v : α) : Prop :=
  m.value v - start ≤ m.noise ∨
    m.value v - start ≤ m.merge ∧ ((m.value v - start : K) : WithTop K) ≤ min left (m.room v)

instance (start : K) (left : WithTop K) (v : α) : Decidable (m.Joins start left v) :=
  inferInstanceAs (Decidable (_ ∨ _))

/-- The clusters of a list, the first of them begun. -/
def grow : K → WithTop K → List α → List α → List (List α)
  | _, _, cur, [] => [cur]
  | start, left, cur, v :: vs =>
    if m.Joins start left v then grow start (min left (m.room v)) (cur ++ [v]) vs
    else cur :: grow (m.value v) (m.room v) [v] vs

def clusters : List α → List (List α)
  | [] => []
  | v :: vs => m.grow (m.value v) (m.room v) [v] vs

/-! ## What a cluster keeps -/

/-- Every two items of a cluster are as near as each of its items allows. -/
def Tight (c : List α) : Prop :=
  ∀ u ∈ c, ∀ v ∈ c, ∀ w ∈ c, m.value u ≤ m.value v → m.Near w (m.value v - m.value u)

/-- Items of one value have room for the same distances from the items before them. -/
def Uniform (vs : List α) : Prop :=
  ∀ u ∈ vs, ∀ v ∈ vs, m.value u = m.value v → ∀ s ∈ vs, m.value s ≤ m.value u →
    m.Near u (m.value u - m.value s) → m.Near v (m.value v - m.value s)

/-- A cluster that is before another one: it ends where that begins, more than the noise from its
own first item. -/
structure Before (c d : List α) : Prop where
  le : ∀ u ∈ c, ∀ v ∈ d, m.value u ≤ m.value v
  noise_lt : ∀ a, c.head? = some a → ∀ v ∈ d, m.noise < m.value v - m.value a

/-- A cluster that is still growing. -/
structure Open (start : K) (left : WithTop K) (cur : List α) : Prop where
  head : ∃ a, cur.head? = some a ∧ m.value a = start
  le : ∀ u ∈ cur, start ≤ m.value u
  near : ∀ u ∈ cur, m.value u - start ≤ m.noise ∨
    m.value u - start ≤ m.merge ∧ ((m.value u - start : K) : WithTop K) ≤ left
  left_le : ∀ u ∈ cur, left ≤ m.room u

variable {m}

/-- What does not join a cluster is further than the noise from its first item. -/
lemma noise_lt_of_not_joins {start : K} {left : WithTop K} {v : α} (h : ¬ m.Joins start left v) :
    m.noise < m.value v - start :=
  not_le.1 fun hn => h (.inl hn)

lemma flatten_grow (start : K) (left : WithTop K) (cur vs : List α) :
    (m.grow start left cur vs).flatten = cur ++ vs := by
  induction vs generalizing start left cur with
  | nil => simp [grow]
  | cons v vs ih =>
    unfold grow
    split_ifs <;> simp [ih]

lemma flatten_clusters (vs : List α) : (m.clusters vs).flatten = vs := by
  cases vs with
  | nil => rfl
  | cons v vs => exact flatten_grow _ _ _ _

/-- Where items of one value have the same room, what does not join a cluster has another value. -/
lemma lt_of_not_joins {start : K} {left : WithTop K} {cur vs : List α} {u v : α}
    (h : m.Open start left cur) (hu : m.Uniform (cur ++ v :: vs)) (huc : u ∈ cur)
    (hle : m.value u ≤ m.value v) (hj : ¬ m.Joins start left v) : m.value u < m.value v := by
  refine lt_of_le_of_ne hle fun heq => hj ?_
  obtain ⟨a, ha, rfl⟩ := h.head
  have hac := List.mem_of_head? ha
  obtain hn | ⟨hm, hl⟩ := h.near u huc
  · exact .inl (heq ▸ hn)
  · have hnear := hu u (by simp [huc]) v (by simp) heq a (by simp [hac]) (h.le u huc)
      (.inr ⟨hm, hl.trans (h.left_le u huc)⟩)
    exact hnear.imp_right fun ⟨hm, hr⟩ => ⟨hm, le_min (heq ▸ hl) hr⟩

variable [IsStrictOrderedRing K]

lemma open_singleton (h : 0 ≤ m.noise) (v : α) : m.Open (m.value v) (m.room v) [v] where
  head := ⟨v, rfl, rfl⟩
  le := by simp
  near := by simp [h]
  left_le := by simp

lemma Open.join {start : K} {left : WithTop K} {cur : List α} {v : α} (h : m.Open start left cur)
    (hs : ∀ u ∈ cur, m.value u ≤ m.value v) (hj : m.Joins start left v) :
    m.Open start (min left (m.room v)) (cur ++ [v]) := by
  obtain ⟨a, ha, hstart⟩ := h.head
  refine ⟨⟨a, by simp [List.head?_append, ha], hstart⟩, ?_, ?_, ?_⟩
  · intro u hu
    obtain hu | rfl : u ∈ cur ∨ u = v := by simpa using hu
    · exact h.le u hu
    · exact hstart ▸ hs a (List.mem_of_head? ha)
  · intro u hu
    obtain hu | rfl : u ∈ cur ∨ u = v := by simpa using hu
    · have hle : m.value u - start ≤ m.value v - start := sub_le_sub_right (hs u hu) _
      obtain hj | ⟨hj, hroom⟩ := hj
      · exact .inl (hle.trans hj)
      · refine (h.near u hu).imp_right fun ⟨hm, hl⟩ => ⟨hm, le_min hl ?_⟩
        exact (WithTop.coe_le_coe.2 hle).trans (hroom.trans (min_le_right _ _))
    · exact hj
  · intro u hu
    obtain hu | rfl : u ∈ cur ∨ u = v := by simpa using hu
    · exact (min_le_left _ _).trans (h.left_le u hu)
    · exact min_le_right _ _

lemma Open.tight {start : K} {left : WithTop K} {cur : List α} (h : m.Open start left cur) :
    m.Tight cur := by
  intro u hu v hv w hw _
  have hle : m.value v - m.value u ≤ m.value v - start := sub_le_sub_left (h.le u hu) _
  obtain hn | ⟨hm, hl⟩ := h.near v hv
  · exact .inl (hle.trans hn)
  · exact .inr ⟨hle.trans hm, (WithTop.coe_le_coe.2 hle).trans (hl.trans (h.left_le w hw))⟩

lemma grow_tight (hn : 0 ≤ m.noise) {start : K} {left : WithTop K} {cur vs : List α}
    (h : m.Open start left cur) (hs : (cur ++ vs).Pairwise (m.value · ≤ m.value ·)) :
    ∀ c ∈ m.grow start left cur vs, m.Tight c := by
  induction vs generalizing start left cur with
  | nil => simpa [grow] using h.tight
  | cons v vs ih =>
    have hle : ∀ u ∈ cur, m.value u ≤ m.value v :=
      fun u hu => (List.pairwise_append.1 hs).2.2 u hu v (.head _)
    unfold grow
    split_ifs with hj
    · exact ih (h.join hle hj) (by simpa using hs)
    · exact List.forall_mem_cons.2
        ⟨h.tight, ih (open_singleton hn v) (List.pairwise_append.1 hs).2.1⟩

lemma grow_before (hn : 0 ≤ m.noise) {start : K} {left : WithTop K} {cur vs : List α}
    (h : m.Open start left cur) (hs : (cur ++ vs).Pairwise (m.value · ≤ m.value ·)) :
    (m.grow start left cur vs).Pairwise m.Before := by
  induction vs generalizing start left cur with
  | nil => simp [grow]
  | cons v vs ih =>
    obtain ⟨-, hvs, hcur⟩ := List.pairwise_append.1 hs
    unfold grow
    split_ifs with hj
    · exact ih (h.join (fun u hu => hcur u hu v (.head _)) hj) (by simpa using hs)
    · refine List.pairwise_cons.2 ⟨fun d hd => ?_, ih (open_singleton hn v) hvs⟩
      have hmem : ∀ x ∈ d, x ∈ v :: vs := fun x hx => by
        simpa [flatten_grow] using List.mem_flatten.2 ⟨d, hd, hx⟩
      have hv : ∀ x ∈ v :: vs, m.value v ≤ m.value x :=
        List.forall_mem_cons.2 ⟨le_rfl, (List.pairwise_cons.1 hvs).1⟩
      refine ⟨fun u hu x hx => hcur u hu x (hmem x hx), fun a ha x hx => ?_⟩
      obtain ⟨b, hb, rfl⟩ := h.head
      obtain rfl : b = a := Option.some.inj (hb.symm.trans ha)
      linarith [noise_lt_of_not_joins hj, hv x (hmem x hx)]

lemma grow_lt (hn : 0 ≤ m.noise) {start : K} {left : WithTop K} {cur vs : List α}
    (h : m.Open start left cur) (hs : (cur ++ vs).Pairwise (m.value · ≤ m.value ·))
    (hu : m.Uniform (cur ++ vs)) :
    (m.grow start left cur vs).Pairwise fun c d => ∀ u ∈ c, ∀ v ∈ d, m.value u < m.value v := by
  induction vs generalizing start left cur with
  | nil => simp [grow]
  | cons v vs ih =>
    obtain ⟨-, hvs, hcur⟩ := List.pairwise_append.1 hs
    unfold grow
    split_ifs with hj
    · exact ih (h.join (fun u hu => hcur u hu v (.head _)) hj) (by simpa using hs)
        (by simpa using hu)
    · have hu' : m.Uniform ([v] ++ vs) := fun x hx y hy hxy s hsm => hu x (by simp_all)
        y (by simp_all) hxy s (by simp_all)
      refine List.pairwise_cons.2 ⟨fun d hd u huc x hx => ?_, ih (open_singleton hn v) hvs hu'⟩
      have hx : x ∈ v :: vs := by simpa [flatten_grow] using List.mem_flatten.2 ⟨d, hd, hx⟩
      have hv : ∀ x ∈ v :: vs, m.value v ≤ m.value x :=
        List.forall_mem_cons.2 ⟨le_rfl, (List.pairwise_cons.1 hvs).1⟩
      exact (lt_of_not_joins h hu huc (hcur u huc v (.head _)) hj).trans_le (hv x hx)

/-! ## Clusters of a sorted list -/

lemma clusters_tight (hn : 0 ≤ m.noise) {vs : List α}
    (hs : vs.Pairwise (m.value · ≤ m.value ·)) : ∀ c ∈ m.clusters vs, m.Tight c := by
  cases vs with
  | nil => simp [clusters]
  | cons v vs => exact grow_tight hn (open_singleton hn v) hs

lemma clusters_before (hn : 0 ≤ m.noise) {vs : List α}
    (hs : vs.Pairwise (m.value · ≤ m.value ·)) : (m.clusters vs).Pairwise m.Before := by
  cases vs with
  | nil => simp [clusters]
  | cons v vs => exact grow_before hn (open_singleton hn v) hs

lemma clusters_lt (hn : 0 ≤ m.noise) {vs : List α}
    (hs : vs.Pairwise (m.value · ≤ m.value ·)) (hu : m.Uniform vs) :
    (m.clusters vs).Pairwise fun c d => ∀ u ∈ c, ∀ v ∈ d, m.value u < m.value v := by
  cases vs with
  | nil => simp [clusters]
  | cons v vs => exact grow_lt hn (open_singleton hn v) hs hu

end Measure

end Clusters
