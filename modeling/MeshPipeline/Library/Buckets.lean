import Mathlib.Data.List.Dedup
import Mathlib.Data.List.Sort

/-!
# Stable sorts and their buckets

A stable sort by a key lays the elements of one key side by side, in the order they came in. Where a
bucket begins is found by a search in the sorted keys, or by adding up the counts of the distinct
keys before it; both have to agree with the sort.
-/

namespace Buckets

variable {α κ : Type*}

/-- `xs[i:j]`. -/
def slice (xs : List α) (i j : ℕ) : List α := (xs.take j).drop i

lemma slice_append (pre xs post : List α) :
    slice (pre ++ xs ++ post) pre.length (pre.length + xs.length) = xs := by
  rw [slice, List.append_assoc, List.take_length_add_append, List.take_left', List.drop_left]
  rfl

lemma slice_of_eq_append {ys pre xs post : List α} (h : ys = pre ++ xs ++ post) {i j : ℕ}
    (hi : i = pre.length) (hj : j = pre.length + xs.length) : slice ys i j = xs := by
  subst h hi hj
  exact slice_append pre xs post

/-! ## Lists that are sorted by a key -/

/-- A test that holds of everything before what it holds of cuts the list in two. -/
lemma filter_append_filter_not {p : α → Bool} {xs : List α}
    (h : xs.Pairwise fun a b => p b = true → p a = true) :
    xs.filter p ++ xs.filter (fun a => !p a) = xs := by
  induction xs with
  | nil => rfl
  | cons x xs ih =>
    obtain ⟨hx, hxs⟩ := List.pairwise_cons.mp h
    by_cases hp : p x = true
    · simpa [hp] using ih hxs
    · have hnone : xs.filter p = [] := List.filter_eq_nil_iff.mpr fun a ha hpa => hp (hx a ha hpa)
      have hall : xs.filter (fun a => !p a) = xs := List.filter_eq_self.mpr fun a ha => by
        simpa using fun hpa => hp (hx a ha hpa)
      simp [hp, hnone, hall]

variable [LinearOrder κ] {g : α → κ} {xs ys : List α}

/-- The first place in the sorted keys where the key is not below `v`. -/
def searchsorted (keys : List κ) (v : κ) : ℕ := (keys.takeWhile (· < v)).length

lemma searchsorted_map (h : ys.Pairwise fun a b => g a ≤ g b) (v : κ) :
    searchsorted (ys.map g) v = (ys.filter (g · < v)).length := by
  induction ys with
  | nil => rfl
  | cons y ys ih =>
    obtain ⟨hy, hys⟩ := List.pairwise_cons.mp h
    by_cases hlt : g y < v
    · simpa [searchsorted, hlt] using ih hys
    · have hnone : ys.filter (g · < v) = [] := by
        refine List.filter_eq_nil_iff.mpr fun a ha => ?_
        simpa using (not_lt.mp hlt).trans (hy a ha)
      simp [searchsorted, hlt, hnone]

lemma pairwise_below (h : ys.Pairwise fun a b => g a ≤ g b) (v : κ) :
    ys.Pairwise fun a b => decide (g b < v) = true → decide (g a < v) = true :=
  h.imp fun hab hb => by simpa using hab.trans_lt (by simpa using hb)

/-- What lies below a key comes first. -/
lemma filter_lt_append (h : ys.Pairwise fun a b => g a ≤ g b) (v : κ) :
    ys.filter (g · < v) ++ ys.filter (fun a => !decide (g a < v)) = ys :=
  filter_append_filter_not (pairwise_below h v)

lemma filter_lt_split (h : ys.Pairwise fun a b => g a ≤ g b) {v w : κ} (hle : v ≤ w) :
    ys.filter (g · < w) =
      ys.filter (g · < v) ++ ys.filter fun a => decide (v ≤ g a ∧ g a < w) := by
  have hsorted : (ys.filter (g · < w)).Pairwise fun a b => g a ≤ g b := h.filter _
  have hsplit := filter_lt_append hsorted v
  rw [List.filter_filter, List.filter_filter] at hsplit
  rw [← hsplit]
  refine congrArg₂ (· ++ ·) (List.filter_congr fun a _ => ?_) (List.filter_congr fun a _ => ?_)
  · simpa using fun ha => ha.trans_le hle
  · grind

/-- What two searches in the sorted keys enclose are the elements between the two keys. -/
theorem slice_searchsorted (h : ys.Pairwise fun a b => g a ≤ g b) {v w : κ} (hle : v ≤ w) :
    slice ys (searchsorted (ys.map g) v) (searchsorted (ys.map g) w) =
      ys.filter fun a => decide (v ≤ g a ∧ g a < w) := by
  have hsplit := filter_lt_append h w
  rw [filter_lt_split h hle] at hsplit
  refine slice_of_eq_append hsplit.symm (searchsorted_map h v) ?_
  rw [searchsorted_map h w, filter_lt_split h hle, List.length_append]

/-- The bucket of a number in a list sorted by number. -/
theorem slice_bucket {g : α → ℕ} (h : ys.Pairwise fun a b => g a ≤ g b) (k : ℕ) :
    slice ys (searchsorted (ys.map g) k) (searchsorted (ys.map g) (k + 1)) =
      ys.filter (g · = k) := by
  rw [slice_searchsorted h (Nat.le_succ k)]
  exact List.filter_congr fun a _ => decide_eq_decide.mpr (by omega)

/-! ## The stable sort -/

/-- The elements by key, those of one key in the order they came in. -/
def sortBy (g : α → κ) (xs : List α) : List α := xs.insertionSort fun a b => g a ≤ g b

lemma perm_sortBy (g : α → κ) (xs : List α) : (sortBy g xs).Perm xs := List.perm_insertionSort _ xs

@[simp] lemma mem_sortBy {a : α} : a ∈ sortBy g xs ↔ a ∈ xs := (perm_sortBy g xs).mem_iff

lemma pairwise_sortBy (g : α → κ) (xs : List α) :
    (sortBy g xs).Pairwise fun a b => g a ≤ g b :=
  have : Std.Total fun a b : α => g a ≤ g b := ⟨fun a b => le_total (g a) (g b)⟩
  have : IsTrans α fun a b => g a ≤ g b := ⟨fun _ _ _ => le_trans⟩
  List.pairwise_insertionSort _ xs

/-- Lists of the same elements, sorted by a key that tells them apart, are one list. -/
theorem sortBy_eq_of_perm {ys : List α} (h : xs.Perm ys) (hxs : (xs.map g).Nodup)
    (hys : ys.Pairwise fun a b => g a ≤ g b) : sortBy g xs = ys := by
  refine ((perm_sortBy g xs).trans h).eq_of_pairwise (fun a b ha hb hab hba => ?_)
    (pairwise_sortBy g xs) hys
  exact List.inj_on_of_nodup_map hxs (mem_sortBy.mp ha) (h.mem_iff.mpr hb) (le_antisymm hab hba)

/-- A map that keeps the order of the keys keeps the sort. -/
theorem sortBy_map {β : Type*} {f : β → α} {k : β → κ} {l : List β}
    (h : ∀ a ∈ l, ∀ b ∈ l, k a ≤ k b ↔ g (f a) ≤ g (f b)) :
    sortBy g (l.map f) = (sortBy k l).map f :=
  (List.map_insertionSort (fun a b => k a ≤ k b) (fun a b => g a ≤ g b) f l h).symm

/-- The sort is stable. -/
theorem filter_sortBy (g : α → κ) (xs : List α) (k : κ) :
    (sortBy g xs).filter (g · = k) = xs.filter (g · = k) := by
  have : Std.Total fun a b : α => g a ≤ g b := ⟨fun a b => le_total (g a) (g b)⟩
  have : IsTrans α fun a b => g a ≤ g b := ⟨fun _ _ _ => le_trans⟩
  have hsame : (xs.filter (g · = k)).Pairwise fun a b => g a ≤ g b := by
    refine List.pairwise_of_forall_mem_list fun a ha b hb => ?_
    simp only [List.mem_filter, decide_eq_true_eq] at ha hb
    exact (ha.2.trans hb.2.symm).le
  have hsub := (List.sublist_insertionSort hsame List.filter_sublist).filter (g · = k)
  rw [List.filter_filter, show (fun a => decide (g a = k) && decide (g a = k)) =
    fun a => decide (g a = k) by simp] at hsub
  exact (hsub.eq_of_length ((perm_sortBy g xs).filter _).length_eq.symm).symm

/-! ## The distinct keys and their counts -/

/-- The distinct keys in order. -/
def unique (keys : List κ) : List κ := keys.dedup.insertionSort (· ≤ ·)

/-- The distinct keys in order, each with how often it is there. -/
def uniqueCounts (keys : List κ) : List (κ × ℕ) :=
  (unique keys).map fun k => (k, keys.count k)

@[simp] lemma mem_unique {keys : List κ} {k : κ} : k ∈ unique keys ↔ k ∈ keys := by
  simp [unique]

theorem pairwise_unique (keys : List κ) : (unique keys).Pairwise (· < ·) := by
  have hle : (unique keys).Pairwise (· ≤ ·) := List.pairwise_insertionSort _ _
  have hne : (unique keys).Nodup := (List.perm_insertionSort _ _).nodup_iff.mpr keys.nodup_dedup
  exact (hle.and hne).imp fun h => lt_of_le_of_ne h.1 h.2

theorem nodup_unique (keys : List κ) : (unique keys).Nodup :=
  (pairwise_unique keys).imp fun h => h.ne

/-- Lists of the same keys have the same distinct keys. -/
theorem unique_congr {keys keys' : List κ} (h : ∀ k, k ∈ keys ↔ k ∈ keys') :
    unique keys = unique keys' := by
  have hperm : (unique keys).Perm (unique keys') := by
    refine (List.perm_ext_iff_of_nodup (nodup_unique keys) (nodup_unique keys')).mpr fun k => ?_
    rw [mem_unique, mem_unique, h]
  refine hperm.eq_of_pairwise (fun a b _ _ hab hba => le_antisymm hab hba) ?_ ?_
  · exact (pairwise_unique keys).imp le_of_lt
  · exact (pairwise_unique keys').imp le_of_lt

/-- A search in distinct keys finds a key at its own place. -/
theorem getElem?_searchsorted {keys : List κ} (h : keys.Pairwise (· < ·)) {k : κ} (hk : k ∈ keys) :
    keys[searchsorted keys k]? = some k := by
  induction keys with
  | nil => cases hk
  | cons j keys ih =>
    obtain ⟨hj, hkeys⟩ := List.pairwise_cons.mp h
    rcases List.mem_cons.mp hk with rfl | hk
    · simp [searchsorted]
    · simpa [searchsorted, hj k hk] using ih hkeys hk

lemma count_map (g : α → κ) (ys : List α) (k : κ) :
    (ys.map g).count k = (ys.filter (g · = k)).length := by
  induction ys with
  | nil => rfl
  | cons y ys ih => by_cases h : g y = k <;> simp [h, ih]

/-- A sorted list is its buckets one after the other. -/
theorem flatMap_filter_of_pairwise (h : ys.Pairwise fun a b => g a ≤ g b) {ks : List κ}
    (hks : ks.Pairwise (· < ·)) (hcover : ∀ y ∈ ys, g y ∈ ks) :
    (ks.flatMap fun k => ys.filter (g · = k)) = ys := by
  induction ks generalizing ys with
  | nil =>
    cases ys with
    | nil => rfl
    | cons y ys => exact absurd (hcover y List.mem_cons_self) (List.not_mem_nil)
  | cons k ks ih =>
    obtain ⟨hk, hks⟩ := List.pairwise_cons.mp hks
    have hfirst : ys.Pairwise fun a b => decide (g b = k) = true → decide (g a = k) = true := by
      refine h.imp_of_mem fun {a b} ha _ hab hb => ?_
      simp only [decide_eq_true_eq] at hb ⊢
      rcases List.mem_cons.mp (hcover a ha) with hak | hak
      · exact hak
      · exact absurd (hk _ hak) (not_lt.mpr (hab.trans hb.le))
    have hlater : ∀ y ∈ ys.filter fun a => !decide (g a = k), g y ∈ ks := by
      intro y hy
      simp only [List.mem_filter, Bool.not_eq_true', decide_eq_false_iff_not] at hy
      exact (List.mem_cons.mp (hcover y hy.1)).resolve_left hy.2
    have hrest := ih (h.filter _) hks hlater
    have hsame : (ks.flatMap fun j => (ys.filter fun a => !decide (g a = k)).filter (g · = j)) =
        ks.flatMap fun j => ys.filter (g · = j) := by
      refine List.flatMap_congr fun j hj => ?_
      rw [List.filter_filter]
      refine List.filter_congr fun a _ => ?_
      have hne : j ≠ k := (hk j hj).ne'
      grind
    rw [hsame] at hrest
    rw [List.flatMap_cons, hrest]
    exact filter_append_filter_not hfirst

theorem flatMap_unique (h : ys.Pairwise fun a b => g a ≤ g b) :
    ((unique (ys.map g)).flatMap fun k => ys.filter (g · = k)) = ys :=
  flatMap_filter_of_pairwise h (pairwise_unique _) fun y hy => by
    simpa using ⟨y, hy, rfl⟩

end Buckets
