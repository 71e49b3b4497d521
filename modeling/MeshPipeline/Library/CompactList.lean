import Mathlib.Algebra.GroupWithZero.Nat
import Mathlib.Data.List.GetD
import MeshPipeline.Library.Buckets

/-!
# Rows in one flat list

Rows of different lengths are stored one after the other, with the offsets where each begins and
where the last one ends. Rows are read, mapped, joined and laid out through the offsets alone; the
rules below say what each of that does to the rows.
-/

namespace CompactList

open Buckets

variable {α β : Type*}

/-- Where rows of the given sizes begin, from `base` on, and where the last one ends. -/
def offsetsFrom (base : ℕ) : List ℕ → List ℕ
  | [] => [base]
  | n :: ns => base :: offsetsFrom (base + n) ns

/-- `concatenate(([0], cumsum(sizes)))`. -/
def offsets (sizes : List ℕ) : List ℕ := offsetsFrom 0 sizes

@[simp] lemma length_offsetsFrom (base : ℕ) (ns : List ℕ) :
    (offsetsFrom base ns).length = ns.length + 1 := by
  induction ns generalizing base with
  | nil => rfl
  | cons n ns ih => simp [offsetsFrom, ih]

lemma getD_offsetsFrom (base : ℕ) {ns : List ℕ} {i : ℕ} (h : i ≤ ns.length) :
    (offsetsFrom base ns).getD i 0 = base + (ns.take i).sum := by
  induction ns generalizing base i with
  | nil =>
    obtain rfl : i = 0 := by simpa using h
    rfl
  | cons n ns ih =>
    cases i with
    | zero => simp [offsetsFrom]
    | succ i =>
      simp only [offsetsFrom, List.getD_cons_succ, List.take_succ_cons, List.sum_cons]
      rw [ih (base + n) (by simpa using h), Nat.add_assoc]

lemma offsetsFrom_add (a b : ℕ) (ns : List ℕ) :
    offsetsFrom (a + b) ns = (offsetsFrom b ns).map (a + ·) := by
  induction ns generalizing b with
  | nil => rfl
  | cons n ns ih => simp [offsetsFrom, Nat.add_assoc, ih]

lemma offsetsFrom_append (base : ℕ) (ns ms : List ℕ) :
    offsetsFrom base (ns ++ ms) =
      offsetsFrom base ns ++ (offsetsFrom (base + ns.sum) ms).tail := by
  induction ns generalizing base with
  | nil => cases ms <;> simp [offsetsFrom]
  | cons n ns ih => simp [offsetsFrom, ih, Nat.add_assoc]

lemma getLastD_offsetsFrom (base : ℕ) (ns : List ℕ) (d : ℕ) :
    (offsetsFrom base ns).getLastD d = base + ns.sum := by
  induction ns generalizing base d with
  | nil => simp [offsetsFrom]
  | cons n ns ih => rw [offsetsFrom, List.getLastD_cons, ih, List.sum_cons, Nat.add_assoc]

/-! ## Rows -/

/-- The row between two offsets. -/
def row (off : List ℕ) (flat : List α) (i : ℕ) : List α :=
  slice flat (off.getD i 0) (off.getD (i + 1) 0)

/-- The offsets and the flat list hold exactly these rows. -/
structure IsCompact (off : List ℕ) (flat : List α) (rows : List (List α)) : Prop where
  off_eq : off = offsets (rows.map List.length)
  flat_eq : flat = rows.flatten

namespace IsCompact

variable {off off' : List ℕ} {flat flat' : List α} {rows rows' : List (List α)}

lemma getD_off (h : IsCompact off flat rows) {i : ℕ} (hi : i ≤ rows.length) :
    off.getD i 0 = (rows.take i).flatten.length := by
  rw [h.off_eq, offsets, getD_offsetsFrom 0 (by simpa using hi), List.length_flatten, List.map_take]
  simp

lemma last_off (h : IsCompact off flat rows) : off.getLastD 0 = flat.length := by
  rw [h.off_eq, offsets, getLastD_offsetsFrom, h.flat_eq, List.length_flatten, Nat.zero_add]

lemma length_off (h : IsCompact off flat rows) : off.length = rows.length + 1 := by
  rw [h.off_eq, offsets, length_offsetsFrom, List.length_map]

lemma flat_split (h : IsCompact off flat rows) {i : ℕ} (hi : i < rows.length) :
    flat = (rows.take i).flatten ++ rows[i] ++ (rows.drop (i + 1)).flatten := by
  have hrows : rows = rows.take i ++ rows[i] :: rows.drop (i + 1) := by simp
  calc flat = rows.flatten := h.flat_eq
    _ = (rows.take i ++ rows[i] :: rows.drop (i + 1)).flatten := congrArg List.flatten hrows
    _ = _ := by rw [List.flatten_append, List.flatten_cons, List.append_assoc]

lemma getD_off_succ (h : IsCompact off flat rows) {i : ℕ} (hi : i < rows.length) :
    off.getD (i + 1) 0 = off.getD i 0 + rows[i].length := by
  rw [h.getD_off hi, h.getD_off hi.le, List.take_succ_eq_append_getElem hi, List.flatten_append,
    List.length_append]
  simp

/-- A row is read back through its offsets. -/
theorem row_eq (h : IsCompact off flat rows) {i : ℕ} (hi : i < rows.length) :
    row off flat i = rows[i] := by
  refine slice_of_eq_append (h.flat_split hi) (h.getD_off hi.le) ?_
  rw [h.getD_off_succ hi, h.getD_off hi.le]

lemma rows_eq (h : IsCompact off flat rows) :
    rows = (List.range rows.length).map (row off flat) := by
  apply List.ext_getElem
  · simp
  · intro i hi _
    simp [h.row_eq hi]

/-- The element at a place of a row. -/
lemma getD_flat (h : IsCompact off flat rows) {i k : ℕ} (hi : i < rows.length)
    (hk : k < rows[i].length) (d : α) : flat.getD (off.getD i 0 + k) d = rows[i].getD k d := by
  rw [h.getD_off hi.le, h.flat_split hi, List.append_assoc,
    List.getD_append_right _ _ _ _ (by omega), Nat.add_sub_cancel_left, List.getD_append _ _ _ _ hk]

lemma map (h : IsCompact off flat rows) (f : α → β) :
    IsCompact off (flat.map f) (rows.map (List.map f)) where
  off_eq := by
    rw [h.off_eq]
    simp [Function.comp_def]
  flat_eq := by rw [h.flat_eq, List.map_flatten]

/-- Two tables are joined by moving the offsets of the second behind the first. -/
theorem append (h : IsCompact off flat rows) (h' : IsCompact off' flat' rows') :
    IsCompact (off ++ off'.tail.map (off.getLastD 0 + ·)) (flat ++ flat') (rows ++ rows') where
  off_eq := by
    have hlast : off.getLastD 0 = 0 + (rows.map List.length).sum := by
      rw [h.off_eq, offsets, getLastD_offsetsFrom]
    have hmove := offsetsFrom_add (0 + (rows.map List.length).sum) 0 (rows'.map List.length)
    rw [hlast, h.off_eq, h'.off_eq, List.map_append, offsets, offsets, offsets, offsetsFrom_append,
      List.map_tail, ← hmove, Nat.add_zero]
  flat_eq := by rw [h.flat_eq, h'.flat_eq, List.flatten_append]

end IsCompact

/-! ## Repeating a value along a row -/

/-- Every value as often as its count says. -/
def repeatEach (xs : List α) (counts : List ℕ) : List α :=
  (xs.zip counts).flatMap fun p => List.replicate p.2 p.1

lemma zipWith_replicate_length {γ : Type*} (f : α → β → γ) (x : α) (r : List β) :
    List.zipWith f (List.replicate r.length x) r = r.map (f x) := by
  induction r with
  | nil => rfl
  | cons b r ih => simp [List.replicate_succ, ih]

/-- What is done with the value of its row to each element of a flat list is done row by row. -/
theorem zipWith_repeatEach {γ : Type*} (f : α → β → γ) {xs : List α} {rows : List (List β)}
    (h : xs.length = rows.length) :
    List.zipWith f (repeatEach xs (rows.map List.length)) rows.flatten =
      (List.zipWith (fun x r => r.map (f x)) xs rows).flatten := by
  induction xs generalizing rows with
  | nil => simp [repeatEach]
  | cons x xs ih =>
    cases rows with
    | nil => simp at h
    | cons r rows =>
      have hlength : xs.length = rows.length := by simpa using h
      have hrest := ih hlength
      simp only [repeatEach, List.map_cons, List.zip_cons_cons, List.flatMap_cons,
        List.flatten_cons, List.zipWith_cons_cons] at hrest ⊢
      rw [List.zipWith_append (by simp), zipWith_replicate_length, hrest]

/-- The place of every element in its row. -/
theorem places_eq (base : ℕ) (sizes : List ℕ) :
    List.zipWith (fun k o => k - o) (List.range' base sizes.sum)
        (repeatEach (offsetsFrom base sizes).dropLast sizes) =
      (sizes.map List.range).flatten := by
  induction sizes generalizing base with
  | nil => simp [repeatEach, offsetsFrom]
  | cons n ns ih =>
    have hne : offsetsFrom (base + n) ns ≠ [] := by
      intro hnil
      simpa [hnil] using length_offsetsFrom (base + n) ns
    have hrow : List.zipWith (fun k o => k - o) (List.range' base n) (List.replicate n base) =
        List.range n := by
      apply List.ext_getElem
      · simp
      · intro i hi _
        simp
    have hrange : List.range' base (n + ns.sum) =
        List.range' base n ++ List.range' (base + n) ns.sum := by
      simp [List.range'_append_1]
    simp only [offsetsFrom, List.dropLast_cons_of_ne_nil hne, repeatEach, List.zip_cons_cons,
      List.flatMap_cons, List.sum_cons, List.map_cons, List.flatten_cons]
    rw [hrange, List.zipWith_append (by simp), hrow]
    exact congrArg (List.range n ++ ·) (ih (base + n))

/-! ## Groups laid out one after the other -/

/-- Each group with the place where it begins and its size, from `start` on. -/
def layOut (start : ℕ) : List (β × ℕ) → List (β × ℕ × ℕ)
  | [] => []
  | (b, n) :: rest => (b, start, n) :: layOut (start + n) rest

lemma layOut_append (start : ℕ) (gs hs : List (β × ℕ)) :
    layOut start (gs ++ hs) = layOut start gs ++ layOut (start + (gs.map (·.2)).sum) hs := by
  induction gs generalizing start with
  | nil => simp [layOut]
  | cons g gs ih => simp [layOut, ih, Nat.add_assoc]

@[simp] lemma length_layOut (start : ℕ) (gs : List (β × ℕ)) :
    (layOut start gs).length = gs.length := by
  induction gs generalizing start with
  | nil => rfl
  | cons g gs ih => simp [layOut, ih]

lemma layOut_map {γ : Type*} (start : ℕ) (f : β → γ) (gs : List (β × ℕ)) :
    layOut start (gs.map fun g => (f g.1, g.2)) =
      (layOut start gs).map fun e => (f e.1, e.2) := by
  induction gs generalizing start with
  | nil => rfl
  | cons g gs ih => simp [layOut, ih]

/-- A group that is laid out is found again where it begins. -/
theorem exists_mem_layOut (group : β → List α) {ks : List β} {k : β} (hk : k ∈ ks)
    (pre post : List α) :
    ∃ start, (k, start, (group k).length) ∈
        layOut pre.length (ks.map fun k => (k, (group k).length)) ∧
      slice (pre ++ ks.flatMap group ++ post) start (start + (group k).length) = group k := by
  induction ks generalizing pre with
  | nil => cases hk
  | cons j ks ih =>
    rcases List.mem_cons.mp hk with rfl | hk
    · have hsplit : pre ++ (k :: ks).flatMap group ++ post =
          pre ++ group k ++ (ks.flatMap group ++ post) := by simp
      exact ⟨pre.length, List.mem_cons_self, slice_of_eq_append hsplit rfl rfl⟩
    · obtain ⟨start, hmem, hslice⟩ := ih hk (pre ++ group j)
      rw [List.length_append] at hmem
      refine ⟨start, List.mem_cons_of_mem _ hmem, ?_⟩
      simpa using hslice

end CompactList
