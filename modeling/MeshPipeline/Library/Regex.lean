import Mathlib.Data.List.Basic

/-!
# Regular expressions as a backtracking matcher reads them

A pattern matches a text in ways that come in an order of preference, and what is found is the first
of them. Groups are kept by their numbers, the last text of a group before the earlier ones.
-/

namespace Regex

/-- A pattern. Of an `alt` the left side is preferred, of a greedy `star` the longer match. -/
inductive Pattern
  | char (p : Char → Bool)
  | empty
  | seq (a b : Pattern)
  | alt (a b : Pattern)
  | star (greedy : Bool) (a : Pattern)
  | group (number : ℕ) (a : Pattern)

/-- The texts of the groups that took part in a match. -/
abbrev Groups := List (ℕ × List Char)

/-- What is left after each way to match, with the groups. -/
abbrev Matcher := List Char → Groups → List (List Char × Groups)

/-- A matcher again and again, each time on less of the text. -/
def again (m : Matcher) (greedy : Bool) : ℕ → Matcher
  | 0, s, g => [(s, g)]
  | n + 1, s, g =>
    let more := (m s g).flatMap fun r =>
      if r.1.length < s.length then again m greedy n r.1 r.2 else []
    if greedy then more ++ [(s, g)] else (s, g) :: more

def Pattern.run : Pattern → Matcher
  | char p, s, g =>
    match s with
    | [] => []
    | c :: cs => if p c then [(cs, g)] else []
  | empty, s, g => [(s, g)]
  | seq a b, s, g => (a.run s g).flatMap fun r => b.run r.1 r.2
  | alt a b, s, g => a.run s g ++ b.run s g
  | star greedy a, s, g => again a.run greedy s.length s g
  | group n a, s, g => (a.run s g).map fun r => (r.1, (n, s.take (s.length - r.1.length)) :: r.2)

/-- A match at the start of a text: what is left, and the groups, the whole match as group 0. -/
def Pattern.matchAt (p : Pattern) (s : List Char) : Option (List Char × Groups) :=
  ((Pattern.group 0 p).run s []).head?

/-- The first place after a character that `after` allows at which the pattern matches. -/
def Pattern.searchAfter (p : Pattern) (after : Option Char → Bool) (before : Option Char) :
    List Char → Option Groups
  | [] => if after before then (p.matchAt []).map (·.2) else none
  | c :: cs =>
    match if after before then p.matchAt (c :: cs) else none with
    | some r => some r.2
    | none => p.searchAfter after (some c) cs

def Pattern.search (p : Pattern) (s : List Char) : Option Groups :=
  p.searchAfter (fun _ => true) none s

/-- The matches one after the other; `skip` counts the characters of the last one. -/
def Pattern.findAllAfter (p : Pattern) (after : Option Char → Bool) :
    ℕ → Option Char → List Char → List Groups
  | _, _, [] => []
  | skip + 1, _, c :: cs => p.findAllAfter after skip (some c) cs
  | 0, before, c :: cs =>
    match if after before then p.matchAt (c :: cs) else none with
    | some r => r.2 :: p.findAllAfter after (cs.length - r.1.length) (some c) cs
    | none => p.findAllAfter after 0 (some c) cs

/-- The matches of a pattern that matches no empty text. -/
def Pattern.findAll (p : Pattern) (s : List Char) : List Groups :=
  p.findAllAfter (fun _ => true) 0 none s

/-- The text of a group, empty when the group took no part. -/
def Groups.text (g : Groups) (n : ℕ) : List Char := (g.lookup n).getD []

/-! ## Patterns -/

/-- The characters of a text, as they are. -/
def lit (s : String) : Pattern := s.toList.foldr (fun c p => .seq (.char (· == c)) p) .empty

/-- One pattern after the other. -/
def sequence (ps : List Pattern) : Pattern := ps.foldr .seq .empty

def noneOf (s : String) : Pattern := .char fun c => !s.toList.contains c

def anyOf (s : String) : Pattern := .char fun c => s.toList.contains c

def many (p : Pattern) : Pattern := .star true p

def many1 (p : Pattern) : Pattern := .seq p (.star true p)

def optional (p : Pattern) : Pattern := .alt p .empty

def isSpace (c : Char) : Bool := c == ' ' || '\t' ≤ c && c ≤ '\r'

def isDigit (c : Char) : Bool := '0' ≤ c && c ≤ '9'

/-- `\s*`. -/
def spaces : Pattern := many (.char isSpace)

/-- `\d+`. -/
def digits : Pattern := many1 (.char isDigit)

example : (many (lit "ab")).matchAt "ababc".toList = some (['c'], [(0, "abab".toList)]) := by
  decide +kernel

example : ((Pattern.group 1 digits).findAll "#12,#7".toList).map (Groups.text · 1) =
    [['1', '2'], ['7']] := by
  decide +kernel

/-! ## A match within the start of a text

What a pattern matches without reaching past a part of the text, it matches in that part alone: a
pattern does not look ahead. So a text that is cut where no match goes on is searched piece by
piece.
-/

variable {p : Pattern} {m : Matcher} {s t u v : List Char} {g : Groups}
  {r : List Char × Groups} {greedy : Bool} {after : Option Char → Bool} {sep c : Char}

/-- A matcher that leaves a part of the text it is given. -/
def Leaves (m : Matcher) : Prop := ∀ s g, ∀ r ∈ m s g, r.1 <:+ s

/-- A matcher that finds in a part of a text what it finds in the text without reaching past it. -/
def Near (m : Matcher) : Prop := ∀ s t g,
  (m (s ++ t) g).filter (fun r => t.length ≤ r.1.length) =
    (m s g).map fun r => (r.1 ++ t, r.2)

/-- A round, with as many rounds after it as what is left has characters. -/
def round (m : Matcher) (greedy : Bool) (s : List Char) (g : Groups) : List (List Char × Groups) :=
  let more := (m s g).flatMap fun r =>
    if r.1.length < s.length then again m greedy r.1.length r.1 r.2 else []
  if greedy then more ++ [(s, g)] else (s, g) :: more

/-- More rounds than there are characters change nothing. -/
lemma again_eq {n : ℕ} (h : s.length ≤ n) : again m greedy n s g = round m greedy s g := by
  induction n using Nat.strongRecOn generalizing s g with
  | ind n ih =>
    have hmore : (m s g).flatMap (fun r =>
        if r.1.length < s.length then again m greedy (n - 1) r.1 r.2 else []) =
        (m s g).flatMap fun r =>
          if r.1.length < s.length then again m greedy r.1.length r.1 r.2 else [] := by
      apply List.flatMap_congr
      intro r _
      split
      · next hless =>
        rw [ih (n - 1) (by omega) (by omega), ih r.1.length (by omega) (Nat.le_refl _)]
      · rfl
    cases n with
    | zero =>
      have : s = [] := List.length_eq_zero_iff.mp (by omega)
      subst this
      cases greedy <;> simp [again, round]
    | succ n => simp only [again, round, ← hmore, Nat.add_sub_cancel]

lemma mem_round : r ∈ round m greedy s g ↔ r = (s, g) ∨
    ∃ r' ∈ m s g, r'.1.length < s.length ∧ r ∈ round m greedy r'.1 r'.2 := by
  have hmore : r ∈ (m s g).flatMap (fun r =>
      if r.1.length < s.length then again m greedy r.1.length r.1 r.2 else []) ↔
      ∃ r' ∈ m s g, r'.1.length < s.length ∧ r ∈ round m greedy r'.1 r'.2 := by
    rw [List.mem_flatMap]
    refine exists_congr fun r' => and_congr_right fun _ => ?_
    by_cases hless : r'.1.length < s.length
    · simp [hless, again_eq (Nat.le_refl _)]
    · simp [hless]
  rw [round, ← hmore]
  cases greedy <;> simp [or_comm]

lemma Leaves.length_le (hm : Leaves m) (hr : r ∈ m s g) : r.1.length ≤ s.length :=
  (hm s g r hr).length_le

lemma Leaves.round (hm : Leaves m) : Leaves (round m greedy) := by
  intro s
  induction hn : s.length using Nat.strongRecOn generalizing s with
  | ind n ih =>
    intro g r hr
    obtain rfl | ⟨r', hr', hless, hr⟩ := mem_round.mp hr
    · exact List.suffix_refl s
    · exact (ih _ (hn ▸ hless) r'.1 rfl r'.2 r hr).trans (hm s g r' hr')

theorem Pattern.leaves : ∀ p : Pattern, Leaves p.run
  | char p => by
    intro s g r hr
    cases s with
    | nil => cases hr
    | cons c cs =>
      have : r = (cs, g) := by
        by_cases hc : p c <;> simp_all [run]
      exact this ▸ List.suffix_cons c cs
  | empty => by
    intro s g r hr
    obtain rfl := List.mem_singleton.mp hr
    exact List.suffix_refl s
  | seq a b => by
    intro s g r hr
    obtain ⟨r', hr', hr⟩ := List.mem_flatMap.mp hr
    exact (b.leaves _ _ r hr).trans (a.leaves s g r' hr')
  | alt a b => by
    intro s g r hr
    obtain hr | hr := List.mem_append.mp hr
    · exact a.leaves s g r hr
    · exact b.leaves s g r hr
  | star greedy a => by
    intro s g r hr
    rw [run, again_eq (Nat.le_refl _)] at hr
    exact a.leaves.round s g r hr
  | group n a => by
    intro s g r hr
    obtain ⟨r', hr', rfl⟩ := List.mem_map.mp hr
    exact a.leaves s g r' hr'

/-- One matcher after another: both near, and what is past the part stays past it. -/
lemma Near.bind {k f : Matcher} (hm : Near m)
    (hk : ∀ r : List Char × Groups, ∀ x ∈ k r.1 r.2, x.1.length ≤ r.1.length)
    (hnear : ∀ r ∈ m s g, (k (r.1 ++ t) r.2).filter (fun x => t.length ≤ x.1.length) =
      (f r.1 r.2).map fun x => (x.1 ++ t, x.2)) :
    ((m (s ++ t) g).flatMap fun r => k r.1 r.2).filter (fun x => t.length ≤ x.1.length) =
      ((m s g).flatMap fun r => f r.1 r.2).map fun x => (x.1 ++ t, x.2) := by
  have hdrop : ∀ l : List (List Char × Groups),
      (l.flatMap fun r => k r.1 r.2).filter (fun x => t.length ≤ x.1.length) =
        (l.filter fun r => t.length ≤ r.1.length).flatMap fun r =>
          (k r.1 r.2).filter fun x => t.length ≤ x.1.length := by
    intro l
    induction l with
    | nil => rfl
    | cons r l ih =>
      rw [List.flatMap_cons, List.filter_append, ih, List.filter_cons]
      by_cases hq : t.length ≤ r.1.length
      · simp [hq]
      · have hnone : (k r.1 r.2).filter (fun x => t.length ≤ x.1.length) = [] := by
          apply List.filter_eq_nil_iff.mpr
          intro x hx
          have := hk r x hx
          simp
          omega
        simp [hq, hnone]
  rw [hdrop, hm, List.flatMap_map, List.map_flatMap]
  exact List.flatMap_congr hnear

lemma Near.round (hm : Near m) (hleaves : Leaves m) : Near (round m greedy) := by
  intro s t
  induction hn : s.length using Nat.strongRecOn generalizing s with
  | ind n ih =>
    intro g
    have hmore : ((m (s ++ t) g).flatMap fun r =>
        if r.1.length < (s ++ t).length then again m greedy r.1.length r.1 r.2 else []).filter
          (fun x => t.length ≤ x.1.length) =
        ((m s g).flatMap fun r =>
          if r.1.length < s.length then again m greedy r.1.length r.1 r.2 else []).map
            fun x => (x.1 ++ t, x.2) := by
      apply hm.bind (k := fun s' g' =>
          if s'.length < (s ++ t).length then again m greedy s'.length s' g' else [])
        (f := fun s' g' => if s'.length < s.length then again m greedy s'.length s' g' else [])
      · intro r x hx
        split at hx
        · rw [again_eq (Nat.le_refl _)] at hx
          exact hleaves.round.length_le hx
        · cases hx
      · intro r _
        simp only [List.length_append, Nat.add_lt_add_iff_right]
        split
        · next hless =>
          rw [again_eq (by simp), again_eq (Nat.le_refl _)]
          exact ih _ (hn ▸ hless) r.1 rfl r.2
        · rfl
    simp only [Regex.round]
    cases greedy with
    | true =>
      simp only [if_true]
      rw [List.filter_append, hmore, List.map_append]
      simp
    | false =>
      simp only [Bool.false_eq_true, if_false]
      rw [List.filter_cons_of_pos (by simp), hmore]
      rfl

theorem Pattern.near : ∀ p : Pattern, Near p.run
  | char p => by
    intro s t g
    cases s with
    | nil =>
      cases t with
      | nil => rfl
      | cons c cs => by_cases hc : p c <;> simp [run, hc]
    | cons c cs => by_cases hc : p c <;> simp [run, hc]
  | empty => by
    intro s t g
    simp [run]
  | seq a b => by
    intro s t g
    exact a.near.bind (fun r x hx => b.leaves.length_le hx) fun r _ => b.near r.1 t r.2
  | alt a b => by
    intro s t g
    simp only [run, List.filter_append, a.near s t g, b.near s t g, List.map_append]
  | star greedy a => by
    intro s t g
    simp only [run, again_eq (Nat.le_refl _)]
    exact a.near.round a.leaves s t g
  | group n a => by
    intro s t g
    have hlift := a.near s t g
    have hfilter : ((group n a).run (s ++ t) g).filter (fun r => t.length ≤ r.1.length) =
        ((a.run (s ++ t) g).filter fun r => t.length ≤ r.1.length).map fun r =>
          (r.1, (n, (s ++ t).take ((s ++ t).length - r.1.length)) :: r.2) := by
      rw [run, List.filter_map]
      rfl
    rw [hfilter, a.near s t g, run, List.map_map, List.map_map]
    apply List.map_congr_left
    intro r _
    have htake : (s ++ t).take ((s ++ t).length - (r.1 ++ t).length) =
        s.take (s.length - r.1.length) := by
      rw [List.length_append, List.length_append, Nat.add_sub_add_right,
        List.take_append_of_le_length (Nat.sub_le _ _)]
    simp only [Function.comp, htake]

end Regex
