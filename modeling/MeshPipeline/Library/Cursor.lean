import Mathlib.Data.List.Basic
import Mathlib.Order.Lattice

/-!
# A line that is read by a cursor

Numbered items wait in a line, some of them more than once and not all of them in order. A reader
takes them from the front and skips what its cursor has passed, so it misses no item that comes up
before every number above it.
-/

namespace Cursor

variable {α : Type*} {num : α → Nat} {line rest : List α} {a b : α}

/-- The item comes up in the line while all numbers before it are below its own. -/
def Ahead (num : α → Nat) (line : List α) (a : α) : Prop :=
  ∃ before after, line = before ++ a :: after ∧ ∀ x ∈ before, num x < num a

lemma Ahead.mem (h : Ahead num line a) : a ∈ line := by
  obtain ⟨before, after, rfl, -⟩ := h
  simp

lemma Ahead.append (h : Ahead num line a) : Ahead num (line ++ rest) a := by
  obtain ⟨before, after, rfl, hbefore⟩ := h
  exact ⟨before, after ++ rest, by simp, hbefore⟩

/-- An item with a new number joins at the end. -/
lemma ahead_concat (h : ∀ x ∈ line, num x < num a) : Ahead num (line ++ [a]) a :=
  ⟨line, [], rfl, h⟩

/-- The front of the line is the item, or is below it. -/
lemma ahead_cons : Ahead num (b :: line) a ↔ a = b ∨ num b < num a ∧ Ahead num line a := by
  constructor
  · rintro ⟨before, after, heq, hbefore⟩
    cases before with
    | nil =>
      cases heq
      exact .inl rfl
    | cons x before =>
      cases heq
      exact .inr ⟨hbefore b (by simp), before, after, rfl,
        fun x hx => hbefore x (List.mem_cons_of_mem b hx)⟩
  · rintro (rfl | ⟨hlt, before, after, rfl, hbefore⟩)
    · exact ⟨[], line, rfl, by simp⟩
    · refine ⟨b :: before, after, rfl, ?_⟩
      simpa using ⟨hlt, hbefore⟩

/-- In a line in order every item comes up so. -/
lemma ahead_of_pairwise (h : line.Pairwise fun a b => num a < num b) (ha : a ∈ line) :
    Ahead num line a := by
  induction line with
  | nil => cases ha
  | cons b line ih =>
    obtain ⟨hb, hline⟩ := List.pairwise_cons.mp h
    rw [ahead_cons]
    rcases List.mem_cons.mp ha with rfl | ha
    · exact .inl rfl
    · exact .inr ⟨hb a ha, ih hline ha⟩

end Cursor

/-!
## A line that is read by pages

Each page is cut from the line as it stands then, at the place where the page before it ended.
-/

namespace Paged

variable {α β : Type*} {size n o : ℕ} {line : List α} {lines : List (List α)}

/-- What the pages show, and where the next one would begin if there is more. -/
def walk (size : ℕ) : List (List α) → ℕ → List α × Option ℕ
  | [], o => ([], some o)
  | line :: lines, o =>
    let page := (line.drop o).take size
    if o + size < line.length then
      let rest := walk size lines (o + size)
      (page ++ rest.1, rest.2)
    else (page, none)

lemma walk_cons_of_lt (h : o + size < line.length) : walk size (line :: lines) o =
    ((line.drop o).take size ++ (walk size lines (o + size)).1,
      (walk size lines (o + size)).2) := by
  simp [walk, h]

lemma walk_cons_of_le (h : line.length ≤ o + size) :
    walk size (line :: lines) o = (line.drop o, none) := by
  have hall : (line.drop o).take size = line.drop o :=
    List.take_of_length_le (by rw [List.length_drop]; omega)
  simp [walk, Nat.not_lt.mpr h, hall]

lemma walk_map (f : α → β) : walk size (lines.map (List.map f)) o =
    ((walk size lines o).1.map f, (walk size lines o).2) := by
  induction lines generalizing o with
  | nil => rfl
  | cons line lines ih =>
    simp only [List.map_cons, walk, List.length_map, ih]
    split <;> simp [List.map_drop, List.map_take]

/-- A line that does not change is shown once, from where the reader begins. -/
theorem walk_replicate (hn : line.length ≤ o + n * size) (hpos : 0 < n) :
    walk size (List.replicate n line) o = (line.drop o, none) := by
  induction n generalizing o with
  | zero => omega
  | succ n ih =>
    rw [List.replicate_succ]
    by_cases h : o + size < line.length
    · have hrest : line.length ≤ o + size + n * size := by
        rw [Nat.succ_mul] at hn
        omega
      have hmore : 0 < n := by
        by_contra hzero
        obtain rfl : n = 0 := by omega
        omega
      rw [walk_cons_of_lt h, ih hrest hmore]
      rw [← List.drop_drop, List.take_append_drop]
    · exact walk_cons_of_le (Nat.not_lt.mp h)

variable [BEq α] [LawfulBEq α]

/-- Whoever never moves forward in a line that changes is shown by the time the reader is
through. -/
theorem mem_walk {a : α} (hmem : ∀ l ∈ lines, a ∈ l)
    (hback : lines.Pairwise fun l l' => l.idxOf a ≤ l'.idxOf a)
    (hfirst : ∀ l ∈ lines.head?, o ≤ l.idxOf a) (hend : (walk size lines o).2 = none) :
    a ∈ (walk size lines o).1 := by
  induction lines generalizing o with
  | nil => cases hend
  | cons line lines ih =>
    obtain ⟨hlater, hrest⟩ := List.pairwise_cons.mp hback
    have hin : a ∈ line := hmem line List.mem_cons_self
    have hplace : line.idxOf a < line.length := List.idxOf_lt_length_of_mem hin
    have ho : o ≤ line.idxOf a := hfirst line rfl
    have hget : (line.drop o)[line.idxOf a - o]? = some a := by
      rw [List.getElem?_drop, Nat.add_sub_cancel' ho, List.getElem?_eq_getElem hplace,
        List.getElem_idxOf]
    by_cases h : o + size < line.length
    · rw [walk_cons_of_lt h] at hend ⊢
      by_cases hpage : line.idxOf a < o + size
      · have htake : ((line.drop o).take size)[line.idxOf a - o]? = some a := by
          rw [List.getElem?_take_of_lt (by omega), hget]
        exact List.mem_append_left _ (List.mem_of_getElem? htake)
      · refine List.mem_append_right _ (ih (fun l hl => hmem l (List.mem_cons_of_mem _ hl)) hrest
          ?_ hend)
        intro l hl
        have := hlater l (List.mem_of_mem_head? hl)
        omega
    · rw [walk_cons_of_le (Nat.not_lt.mp h)]
      exact List.mem_of_getElem? hget

/-- In a line in order the place of an item is the number of those that are below it. -/
lemma idxOf_of_pairwise {κ : Type*} [LinearOrder κ] [BEq κ] [LawfulBEq κ] {ks : List κ} {k : κ}
    (h : ks.Pairwise (· < ·)) (hk : k ∈ ks) : ks.idxOf k = (ks.filter (· < k)).length := by
  induction ks with
  | nil => cases hk
  | cons b ks ih =>
    obtain ⟨hb, hks⟩ := List.pairwise_cons.mp h
    by_cases hbk : b = k
    · subst hbk
      have hnone : ks.filter (· < b) = [] := List.filter_eq_nil_iff.mpr fun c hc => by
        simpa using le_of_lt (hb c hc)
      simp [hnone]
    · have hin : k ∈ ks := (List.mem_cons.mp hk).resolve_left (Ne.symm hbk)
      have hlt : b < k := hb k hin
      rw [List.idxOf_cons_ne _ hbk, ih hks hin, List.filter_cons_of_pos (by simpa using hlt),
        List.length_cons]

end Paged
