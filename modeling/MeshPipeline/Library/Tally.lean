import Mathlib.Algebra.BigOperators.Group.List.Basic
import Mathlib.Algebra.GroupWithZero.Nat
import Mathlib.Data.List.Count
import Mathlib.Data.List.Nodup

/-!
# A tally

The items of a list counted under their keys, each key with the first item that has it.
-/

namespace Tally

variable {α β κ : Type*} [DecidableEq κ] [DecidableEq β] {key : α → κ} {f : α → β}

/-- One more of an item. -/
def add (key : α → κ) (d : List (α × ℕ)) (x : α) : List (α × ℕ) :=
  match d with
  | [] => [(x, 1)]
  | e :: es => if key e.1 = key x then (e.1, e.2 + 1) :: es else e :: add key es x

/-- The items counted, in the order in which their keys come first. -/
def tally (key : α → κ) (xs : List α) : List (α × ℕ) := xs.foldl (add key) []

/-- What is counted for the entries of a value. -/
def total (f : α → β) (v : β) (d : List (α × ℕ)) : ℕ :=
  ((d.filter fun e => f e.1 = v).map (·.2)).sum

variable {d : List (α × ℕ)} {x y : α} {e e' : α × ℕ} {v : β} {xs : List α}

/-- An item is counted for a value where it has it, and so does the entry of its key. -/
theorem total_add (h : ∀ e ∈ d, key e.1 = key x → (f e.1 = v ↔ f x = v)) :
    total f v (add key d x) = total f v d + if f x = v then 1 else 0 := by
  induction d with
  | nil => by_cases hv : f x = v <;> simp [add, total, hv]
  | cons e d ih =>
    have ih := ih fun e he => h e (List.mem_cons_of_mem _ he)
    simp only [add]
    split
    · next hkey =>
      have hval := h e List.mem_cons_self hkey
      by_cases hv : f x = v
      · simp [total, hval.mpr hv, hv]
        omega
      · simp [total, hval.not.mpr hv, hv]
    · by_cases hv : f e.1 = v
      · simp only [total, hv, decide_true, List.filter_cons_of_pos, List.map_cons, List.sum_cons]
          at ih ⊢
        omega
      · simpa [total, hv] using ih

lemma mem_of_mem_add (h : e ∈ add key d x) : e.1 = x ∨ e.1 ∈ d.map (·.1) := by
  induction d with
  | nil => exact .inl (by simpa [add] using congrArg Prod.fst (List.mem_singleton.mp h))
  | cons e' d ih =>
    simp only [add] at h
    grind

lemma mem_of_mem_foldl (h : e ∈ xs.foldl (add key) d) : e.1 ∈ xs ∨ e.1 ∈ d.map (·.1) := by
  induction xs generalizing d with
  | nil => exact .inr (List.mem_map_of_mem h)
  | cons x xs ih =>
    obtain hx | hd := ih h
    · exact .inl (List.mem_cons_of_mem _ hx)
    · obtain ⟨e', he', heq⟩ := List.mem_map.mp hd
      obtain hx | hd := mem_of_mem_add he'
      · exact .inl (by simp [← heq, hx])
      · exact .inr (heq ▸ hd)

/-- What is counted was in the list. -/
theorem mem_of_mem_tally (h : e ∈ tally key xs) : e.1 ∈ xs := by
  simpa using mem_of_mem_foldl h

lemma total_foldl (h : ∀ x ∈ d.map (·.1) ++ xs, ∀ y ∈ xs, key x = key y → (f x = v ↔ f y = v)) :
    total f v (xs.foldl (add key) d) = total f v d + xs.countP (f · = v) := by
  induction xs generalizing d with
  | nil => simp
  | cons x xs ih =>
    have hstep : total f v (add key d x) = total f v d + if f x = v then 1 else 0 :=
      total_add fun e he => h e.1 (by simp [List.mem_map_of_mem he]) x (by simp)
    have hrest := ih (d := add key d x) fun y hy z hz => by
      apply h y _ z (List.mem_cons_of_mem _ hz)
      obtain hy | hy := List.mem_append.mp hy
      · obtain ⟨e, he, rfl⟩ := List.mem_map.mp hy
        obtain heq | hmem := mem_of_mem_add he
        · simp [heq]
        · simp [List.mem_append_left _ hmem]
      · simp [hy]
    rw [List.foldl_cons, hrest, hstep, List.countP_cons]
    simp only [decide_eq_true_eq]
    omega

/-- The entries of a value that no key shares with another value count the items that have it. -/
theorem total_tally (h : ∀ x ∈ xs, ∀ y ∈ xs, key x = key y → (f x = v ↔ f y = v)) :
    total f v (tally key xs) = xs.countP (f · = v) := by
  simpa [total, tally] using total_foldl (d := []) (by simpa using h)

lemma keys_add : (add key d x).map (key ·.1) =
    if key x ∈ d.map (key ·.1) then d.map (key ·.1) else d.map (key ·.1) ++ [key x] := by
  induction d with
  | nil => simp [add]
  | cons e d ih =>
    simp only [add]
    grind

lemma keys_nodup_foldl (h : (d.map (key ·.1)).Nodup) :
    ((xs.foldl (add key) d).map (key ·.1)).Nodup := by
  induction xs generalizing d with
  | nil => exact h
  | cons x xs ih =>
    apply ih
    rw [keys_add]
    split
    · exact h
    · next hnew => exact List.nodup_append.mpr ⟨h, by simp, by grind⟩

lemma key_mem_foldl (h : key x ∈ d.map (key ·.1) ∨ x ∈ xs) :
    key x ∈ (xs.foldl (add key) d).map (key ·.1) := by
  induction xs generalizing d with
  | nil => simpa using h
  | cons y xs ih =>
    apply ih
    rw [keys_add]
    grind

/-- A key has one entry. -/
theorem eq_of_key_eq (he : e ∈ tally key xs) (he' : e' ∈ tally key xs) (h : key e.1 = key e'.1) :
    e = e' :=
  List.inj_on_of_nodup_map (keys_nodup_foldl (d := []) List.nodup_nil) he he' h

/-- Two values under one key are not both counted, when neither is found under another key. -/
theorem exists_total_ne (hx : x ∈ xs) (hy : y ∈ xs) (hkey : key x = key y) (hne : f x ≠ f y)
    (hfx : ∀ z ∈ xs, f z = f x → key z = key x) (hfy : ∀ z ∈ xs, f z = f y → key z = key y) :
    ∃ v, total f v (tally key xs) ≠ xs.countP (f · = v) := by
  have hentry : key x ∈ (tally key xs).map (key ·.1) := key_mem_foldl (.inr hx)
  obtain ⟨e, he, hek⟩ := List.mem_map.mp hentry
  -- the one entry of the key has at most one of the two values
  have hlost : ∀ z ∈ xs, key z = key x → (∀ w ∈ xs, f w = f z → key w = key z) → f e.1 ≠ f z →
      ∃ v, total f v (tally key xs) ≠ xs.countP (f · = v) := by
    intro z hz hzk hfz hez
    refine ⟨f z, ?_⟩
    have hnone : total f (f z) (tally key xs) = 0 := by
      have hempty : (tally key xs).filter (fun e => decide (f e.1 = f z)) = [] := by
        apply List.filter_eq_nil_iff.mpr
        intro e' he' hval
        have hval : f e'.1 = f z := by simpa using hval
        have hk := hfz e'.1 (mem_of_mem_tally he') hval
        have : e' = e := eq_of_key_eq he' he (by rw [hk, hzk, hek])
        exact hez (this ▸ hval)
      rw [total, hempty]
      rfl
    have hpos : 0 < xs.countP (f · = f z) := List.countP_pos_iff.mpr ⟨z, hz, by simp⟩
    omega
  by_cases hex : f e.1 = f x
  · exact hlost y hy hkey.symm hfy (hex ▸ hne)
  · exact hlost x hx rfl hfx hex

/-- One more item counts. -/
theorem countP_lt {p q : α → Bool} (h : ∀ y ∈ xs, p y → q y) (hx : x ∈ xs) (hp : ¬ p x)
    (hq : q x) : xs.countP p < xs.countP q := by
  obtain ⟨before, after, rfl⟩ := List.append_of_mem hx
  have hbefore : before.countP p ≤ before.countP q :=
    List.countP_mono_left fun y hy => h y (by simp [hy])
  have hafter : after.countP p ≤ after.countP q :=
    List.countP_mono_left fun y hy => h y (by simp [hy])
  simp only [List.countP_append, List.countP_cons, hp, hq]
  simp
  omega

end Tally
