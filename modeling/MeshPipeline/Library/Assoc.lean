import Mathlib.Data.Bool.Basic
import Mathlib.Data.List.Nodup

/-!
# Association lists in insertion order

A dictionary that keeps its keys in the order they came in: a key that is set again keeps its place.
-/

namespace Assoc

variable {α β κ : Type*} [DecidableEq κ]

/-- The dictionary with a key set. -/
def set (d : List (κ × β)) (k : κ) (v : β) : List (κ × β) :=
  if ∃ e ∈ d, e.1 = k then d.map fun e => if e.1 = k then (k, v) else e else d ++ [(k, v)]

/-- The dictionary of a list of pairs: the last pair of a key counts. -/
def ofPairs (xs : List (κ × β)) : List (κ × β) := xs.foldl (fun d e => set d e.1 e.2) []

/-- The list under a key with one more value, a new list for a new key. -/
def append (d : List (κ × List β)) (k : κ) (v : β) : List (κ × List β) :=
  set d k ((d.lookup k).getD [] ++ [v])

/-- The values that are read off a list, each under its key. -/
def group (f : α → Option (κ × β)) (xs : List α) : List (κ × List β) :=
  xs.foldl (fun d a => (f a).elim d fun e => append d e.1 e.2) []

variable {d : List (κ × β)} {k j : κ} {v : β}

theorem set_of_fresh (h : ∀ e ∈ d, e.1 ≠ k) : set d k v = d ++ [(k, v)] :=
  if_neg (by grind)

theorem lookup_map_set : (d.map fun e => if e.1 = k then (k, v) else e).lookup j =
    if j = k then (d.lookup k).map fun _ => v else d.lookup j := by
  induction d with
  | nil => simp
  | cons e d ih =>
    simp only [List.map_cons, List.lookup_cons, ih]
    grind

theorem lookup_set : (set d k v).lookup j = if j = k then some v else d.lookup j := by
  unfold set
  split
  · next hkey =>
    obtain ⟨e, he, hk⟩ := hkey
    have hsome : (d.lookup k).isSome := by
      rw [List.lookup_isSome_iff]
      exact ⟨e, he, by simp [hk]⟩
    obtain ⟨w, hw⟩ := Option.isSome_iff_exists.mp hsome
    rw [lookup_map_set, hw]
    rfl
  · next hkey =>
    have hnone : d.lookup k = none := List.lookup_eq_none_iff.mpr (by grind)
    rw [List.lookup_append]
    grind

theorem mem_of_lookup (h : d.lookup k = some v) : (k, v) ∈ d := by
  obtain ⟨l, r, heq, -⟩ := List.lookup_eq_some_iff.mp h
  simp [heq]

theorem lookup_map_key {ι : Type*} [BEq ι] [LawfulBEq ι] {g : ι → ι} (hg : Function.Injective g)
    (d : List (ι × β)) (k : ι) : (d.map (Prod.map g id)).lookup (g k) = d.lookup k := by
  induction d with
  | nil => rfl
  | cons e d ih =>
    obtain ⟨k', v⟩ := e
    have hbeq : (g k == g k') = (k == k') := hg.beq_eq
    simp only [List.map_cons, Prod.map_apply, id, List.lookup_cons, ih, hbeq]

theorem set_map_key {g : κ → κ} (hg : Function.Injective g) :
    set (d.map (Prod.map g id)) (g k) v = (set d k v).map (Prod.map g id) := by
  have hkey : (∃ e ∈ d.map (Prod.map g id), e.1 = g k) ↔ ∃ e ∈ d, e.1 = k := by
    simp [hg.eq_iff]
  unfold set
  simp only [hkey]
  split
  · rw [List.map_map, List.map_map]
    apply List.map_congr_left
    intro e _
    by_cases he : e.1 = k <;> simp [he, hg.eq_iff]
  · simp

/-- Keys that are renamed one to one keep their values and their places. -/
theorem ofPairs_map_key {g : κ → κ} (hg : Function.Injective g) (xs : List (κ × β)) :
    ofPairs (xs.map (Prod.map g id)) = (ofPairs xs).map (Prod.map g id) := by
  have hfold : ∀ d : List (κ × β),
      (xs.map (Prod.map g id)).foldl (fun d e => set d e.1 e.2) (d.map (Prod.map g id)) =
        (xs.foldl (fun d e => set d e.1 e.2) d).map (Prod.map g id) := by
    induction xs with
    | nil => exact fun _ => rfl
    | cons e xs ih =>
      intro d
      simp only [List.map_cons, List.foldl_cons, Prod.map_fst, Prod.map_snd, id,
        set_map_key hg, ih]
  exact hfold []

theorem lookup_of_mem (hnodup : (d.map (·.1)).Nodup) (h : (k, v) ∈ d) : d.lookup k = some v := by
  induction d with
  | nil => cases h
  | cons e d ih =>
    obtain ⟨hfresh, hd⟩ := List.nodup_cons.mp hnodup
    obtain rfl | h := List.mem_cons.mp h
    · simp
    · have hne : k ≠ e.1 := by
        rintro rfl
        exact hfresh (List.mem_map_of_mem (f := (·.1)) h)
      rw [List.lookup_cons, show (k == e.1) = false by simpa using hne]
      exact ih hd h

/-- The order of the keys does not matter to a lookup. -/
theorem lookup_eq_of_perm {d' : List (κ × β)} (h : d.Perm d') (hnodup : (d.map (·.1)).Nodup) :
    d.lookup k = d'.lookup k := by
  have hnodup' : (d'.map (·.1)).Nodup := (h.map _).nodup_iff.mp hnodup
  cases hcase : d.lookup k with
  | some v => exact (lookup_of_mem hnodup' (h.subset (mem_of_lookup hcase))).symm
  | none =>
    symm
    rw [List.lookup_eq_none_iff] at hcase ⊢
    exact fun e he => hcase e (h.symm.subset he)

theorem mem_set {e : κ × β} (h : e ∈ set d k v) : e = (k, v) ∨ e ∈ d := by
  unfold set at h
  split at h
  · obtain ⟨e', he', rfl⟩ := List.mem_map.mp h
    split
    · exact .inl rfl
    · exact .inr he'
  · simpa [or_comm] using h

/-- A key that is set keeps its place, or comes last. -/
theorem keys_set : k ∈ d.map (·.1) ∧ (set d k v).map (·.1) = d.map (·.1) ∨
    k ∉ d.map (·.1) ∧ (set d k v).map (·.1) = d.map (·.1) ++ [k] := by
  by_cases hkey : ∃ e ∈ d, e.1 = k
  · refine .inl ⟨by simpa using hkey, ?_⟩
    rw [set, if_pos hkey, List.map_map]
    refine List.map_congr_left fun e _ => ?_
    simp only [Function.comp_apply]
    grind
  · refine .inr ⟨by simpa using hkey, ?_⟩
    rw [set, if_neg hkey]
    simp

theorem nodup_set (h : (d.map (·.1)).Nodup) : ((set d k v).map (·.1)).Nodup := by
  obtain ⟨-, heq⟩ | ⟨hfresh, heq⟩ := @keys_set β κ _ d k v <;> rw [heq]
  · exact h
  · exact List.nodup_append'.mpr ⟨h, List.nodup_singleton k, by simpa using hfresh⟩

theorem mem_keys_set : j ∈ (set d k v).map (·.1) ↔ j ∈ d.map (·.1) ∨ j = k := by
  obtain ⟨hkey, heq⟩ | ⟨-, heq⟩ := @keys_set β κ _ d k v <;> rw [heq]
  · constructor
    · exact .inl
    · rintro (h | rfl)
      · exact h
      · exact hkey
  · simp

/-! ## Dictionaries of pairs -/

theorem mem_foldl_set {xs : List (κ × β)} {e : κ × β}
    (h : e ∈ xs.foldl (fun d e => set d e.1 e.2) d) : e ∈ xs ∨ e ∈ d := by
  induction xs generalizing d with
  | nil => exact .inr h
  | cons x xs ih =>
    obtain h | h := ih h
    · exact .inl (List.mem_cons_of_mem _ h)
    · obtain rfl | h := mem_set h
      · exact .inl List.mem_cons_self
      · exact .inr h

theorem mem_of_mem_ofPairs {xs : List (κ × β)} {e : κ × β} (h : e ∈ ofPairs xs) : e ∈ xs :=
  (mem_foldl_set h).resolve_right List.not_mem_nil

theorem nodup_foldl_set (xs : List (κ × β)) (h : (d.map (·.1)).Nodup) :
    ((xs.foldl (fun d e => set d e.1 e.2) d).map (·.1)).Nodup := by
  induction xs generalizing d with
  | nil => exact h
  | cons x xs ih => exact ih (nodup_set h)

theorem nodup_ofPairs (xs : List (κ × β)) : ((ofPairs xs).map (·.1)).Nodup :=
  nodup_foldl_set xs List.nodup_nil

theorem mem_keys_foldl_set (xs : List (κ × β)) :
    j ∈ (xs.foldl (fun d e => set d e.1 e.2) d).map (·.1) ↔ j ∈ d.map (·.1) ∨ j ∈ xs.map (·.1) := by
  induction xs generalizing d with
  | nil => simp
  | cons x xs ih =>
    rw [List.foldl_cons, ih, mem_keys_set, List.map_cons, List.mem_cons, or_assoc]

theorem mem_keys_ofPairs {xs : List (κ × β)} : j ∈ (ofPairs xs).map (·.1) ↔ j ∈ xs.map (·.1) := by
  rw [ofPairs, mem_keys_foldl_set, List.map_nil]
  simp

/-! ## Groups -/

theorem lookup_foldl_append (f : α → Option (κ × β)) (xs : List α) (d : List (κ × List β)) (k : κ) :
    ((xs.foldl (fun d a => (f a).elim d fun e => append d e.1 e.2) d).lookup k).getD [] =
      (d.lookup k).getD [] ++
        xs.filterMap fun a => (f a).bind fun e => if e.1 = k then some e.2 else none := by
  induction xs generalizing d with
  | nil => simp
  | cons a xs ih =>
    rw [List.foldl_cons, ih]
    cases hf : f a with
    | none => simp [hf]
    | some e =>
      by_cases hk : e.1 = k
      · simp [hf, hk, append, lookup_set]
      · simp [hf, hk, append, lookup_set, Ne.symm hk]

/-- Under a key stand the values read with it, in the order of the list. -/
theorem lookup_group (f : α → Option (κ × β)) (xs : List α) (k : κ) :
    ((group f xs).lookup k).getD [] =
      xs.filterMap fun a => (f a).bind fun e => if e.1 = k then some e.2 else none := by
  simp [group, lookup_foldl_append]

theorem mem_group {f : α → Option (κ × β)} {xs : List α} {vs : List β} (hne : vs ≠ [])
    (h : (xs.filterMap fun a => (f a).bind fun e => if e.1 = k then some e.2 else none) = vs) :
    (k, vs) ∈ group f xs := by
  have hlookup := lookup_group f xs k
  rw [h] at hlookup
  cases hcase : (group f xs).lookup k with
  | none =>
    rw [hcase] at hlookup
    exact absurd hlookup.symm hne
  | some ws =>
    rw [hcase] at hlookup
    obtain rfl : ws = vs := hlookup
    exact mem_of_lookup hcase

/-- What is read off a member stands in its group. -/
theorem exists_mem_group {f : α → Option (κ × β)} {xs : List α} {a : α} (ha : a ∈ xs)
    (h : f a = some (k, v)) : ∃ vs, (k, vs) ∈ group f xs ∧ v ∈ vs := by
  have hmem : v ∈ xs.filterMap fun a => (f a).bind fun e => if e.1 = k then some e.2 else none :=
    List.mem_filterMap.mpr ⟨a, ha, by simp [h]⟩
  exact ⟨_, mem_group (List.ne_nil_of_mem hmem) rfl, hmem⟩

end Assoc
