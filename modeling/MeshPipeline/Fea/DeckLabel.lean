import Mathlib.Data.List.DropRight
import MeshPipeline.Library.Text

/-!
# The names of a solver deck

How any text becomes a set name that the solvers accept, and which of a CAD file's face names are
worth one.
-/

namespace MeshPipeline.Fea

abbrev Str := List Char

/-- What `_LABEL` leaves alone. -/
def isLabelChar (c : Char) : Bool := c.isAlphanum || c == '_' || c == '-'

def maxLabel : Nat := 80

/-- `rstrip("_")`. -/
def rstripUnderscores (cs : Str) : Str := cs.rdropWhile (· == '_')

/-- `deck_label`. -/
def deckLabel (name : Str) : Str :=
  let s := (Text.stripList name).map fun c => if isLabelChar c then c else '_'
  let s := if s = [] then "group".toList else s
  let s := if s.head?.any Char.isAlpha then s else "G_".toList ++ s
  let cut := rstripUnderscores (s.take maxLabel)
  if cut = [] then "group".toList else cut

/-- A set name that every solver accepts. -/
structure IsLabel (n : Str) : Prop where
  letter : n.head?.any Char.isAlpha = true
  chars : ∀ c ∈ n, isLabelChar c = true
  length : n.length ≤ maxLabel
  last : n.getLast? ≠ some '_'

/-! ## The CAD's own names -/

/-- `" ".join(name.split())`. -/
def oneSpaced (name : Str) : Str :=
  [' '].intercalate ((name.splitOnP Text.isSpace).filter (· ≠ []))

/-- The zeros of the decimal digits of Unicode 14. -/
def decimalZeros : List Nat :=
  [48, 1632, 1776, 1984, 2406, 2534, 2662, 2790, 2918, 3046, 3174, 3302, 3430, 3558, 3664, 3792,
   3872, 4160, 4240, 6112, 6160, 6470, 6608, 6784, 6800, 6992, 7088, 7232, 7248, 42528, 43216,
   43264, 43472, 43504, 43600, 44016, 65296, 66720, 68912, 69734, 69872, 69942, 70096, 70384,
   70736, 70864, 71248, 71360, 71472, 71904, 72016, 72784, 73040, 73120, 92768, 92864, 93008,
   120782, 120792, 120802, 120812, 120822, 123200, 123632, 125264, 130032]

/-- A regular expression's `\d`. -/
def isDecimal (c : Char) : Bool := decimalZeros.any fun z => z ≤ c.toNat && c.toNat < z + 10

/-- The spelling under which a regular expression without case compares ASCII letters. -/
def caseless (c : Char) : Char := if c = 'ſ' then 's' else c.toLower

/-- What may follow the word of a generic name: opening marks, a number, a closing mark. -/
def isGenericTail (cs : Str) : Bool :=
  let opener := fun c => Text.isSpace c || ['#', '<', '(', '[', '_', '-'].contains c
  let rest := ((cs.dropWhile opener).dropWhile isDecimal).dropWhile Text.isSpace
  match rest with
  | [] => true
  | c :: rest => (Text.isSpace c || ['>', ')', ']'].contains c) && rest.all Text.isSpace

/-- `_GENERIC_FACE_NAME`: no greedier reading of a part leaves the rest better off. -/
def isGenericFaceName (n : Str) : Bool :=
  let n := n.dropWhile Text.isSpace
  ["face".toList, "surface".toList, "surf".toList, "f".toList].any fun stem =>
    stem.isPrefixOf (n.map caseless) && isGenericTail (n.drop stem.length)

/-- `readable_face_name`: empty for a name not worth writing. -/
def readableFaceName (name : Str) : Str :=
  let n := oneSpaced name
  if n = [] ∨ isGenericFaceName n then [] else n

/-! ## Labels -/

variable {n name : Str} {c : Char}

lemma isLabelChar_of_isAlpha (h : c.isAlpha = true) : isLabelChar c = true := by
  simp [isLabelChar, Char.isAlphanum, h]

lemma isSpace_of_isLabelChar (h : isLabelChar c = true) : Text.isSpace c = false := by
  have hrange : (48 ≤ c.toNat ∧ c.toNat ≤ 57) ∨ (65 ≤ c.toNat ∧ c.toNat ≤ 122) ∨ c.toNat = 45 := by
    unfold isLabelChar Char.isAlphanum Char.isAlpha Char.isUpper Char.isLower Char.isDigit at h
    simp only [Bool.or_eq_true, Bool.and_eq_true, decide_eq_true_eq, beq_iff_eq] at h
    obtain (((⟨hlo, hhi⟩ | ⟨hlo, hhi⟩) | ⟨hlo, hhi⟩) | rfl) | rfl := h
    · exact .inr (.inl ⟨hlo, Nat.le_trans hhi (by decide)⟩)
    · exact .inr (.inl ⟨Nat.le_trans (by decide) hlo, hhi⟩)
    · exact .inl ⟨hlo, hhi⟩
    · exact .inr (.inl (by decide))
    · exact .inr (.inr (by decide))
  exact Text.isSpace_of_ascii (by omega) (by omega)

/-- What is cut out of a text that starts with a letter is a label. -/
lemma isLabel_cut {s : Str} (hchars : ∀ c ∈ s, isLabelChar c = true)
    (hletter : s.head?.any Char.isAlpha = true) :
    rstripUnderscores (s.take maxLabel) ≠ [] ∧ IsLabel (rstripUnderscores (s.take maxLabel)) := by
  obtain _ | ⟨c, cs⟩ := s
  · simp at hletter
  have hc : c.isAlpha = true := hletter
  have hcut : rstripUnderscores ((c :: cs).take maxLabel) <+: (c :: cs).take maxLabel :=
    List.rdropWhile_prefix _ _
  have hne : rstripUnderscores ((c :: cs).take maxLabel) ≠ [] := by
    intro hnil
    have hall := List.rdropWhile_eq_nil_iff.mp hnil c (by simp [maxLabel])
    obtain rfl := beq_iff_eq.mp hall
    exact absurd hc (by decide)
  refine ⟨hne, ?_, fun d hd => hchars d (List.mem_of_mem_take (hcut.subset hd)),
    hcut.length_le.trans (List.length_take_le _ _), ?_⟩
  · obtain ⟨d, ds, hds⟩ := List.exists_cons_of_ne_nil hne
    rw [hds] at hcut ⊢
    obtain ⟨rfl, -⟩ := List.cons_prefix_cons.mp hcut
    exact hc
  · intro hlast
    have hnot := List.rdropWhile_last_not (· == '_') _ hne
    rw [List.getLast?_eq_some_getLast hne] at hlast
    exact hnot (beq_iff_eq.mpr (Option.some.inj hlast))

/-- Whatever the name, `deck_label` answers a label. -/
theorem isLabel_deckLabel (name : Str) : IsLabel (deckLabel name) := by
  unfold deckLabel
  dsimp only
  generalize hs : (Text.stripList name).map (fun c => if isLabelChar c then c else '_') = s
  have hclean : ∀ c ∈ s, isLabelChar c = true := by
    subst hs
    intro c hc
    obtain ⟨d, -, rfl⟩ := List.mem_map.mp hc
    grind [isLabelChar]
  generalize ht : (if s = [] then "group".toList else s) = t
  have hgroup : ∀ c ∈ t, isLabelChar c = true := by
    subst ht
    split
    · exact List.all_eq_true.mp (by decide)
    · exact hclean
  generalize hu : (if t.head?.any Char.isAlpha then t else "G_".toList ++ t) = u
  have hchars : ∀ c ∈ u, isLabelChar c = true := by
    subst hu
    split
    · exact hgroup
    · intro c hc
      obtain hc | hc := List.mem_append.mp hc
      · exact List.all_eq_true.mp (show "G_".toList.all isLabelChar = true by decide) c hc
      · exact hgroup c hc
  have hletter : u.head?.any Char.isAlpha = true := by
    subst hu
    split
    · assumption
    · rfl
  obtain ⟨hne, hlabel⟩ := isLabel_cut hchars hletter
  rw [if_neg hne]
  exact hlabel

/-- Another underscore is stripped off a label again, or cut off it. -/
theorem deckLabel_underscore (h : IsLabel n) : deckLabel (n ++ ['_']) = n := by
  have hne : n ≠ [] := by
    rintro rfl
    exact absurd h.letter (by decide)
  have hchars : ∀ c ∈ n ++ ['_'], isLabelChar c = true := by
    intro c hc
    obtain hc | hc := List.mem_append.mp hc
    · exact h.chars c hc
    · rw [List.mem_singleton.mp hc]
      rfl
  have hclean : ((n ++ ['_']).map fun c => if isLabelChar c then c else '_') = n ++ ['_'] := by
    refine (List.map_congr_left fun c hc => ?_).trans (List.map_id _)
    simp [hchars c hc]
  have hhead : ((n ++ ['_']).head?.any Char.isAlpha) = true := by
    rw [List.head?_append_of_ne_nil _ hne]
    exact h.letter
  have hself : rstripUnderscores n = n := by
    refine List.rdropWhile_eq_self_iff.mpr fun hne hlast => h.last ?_
    rw [List.getLast?_eq_some_getLast hne, beq_iff_eq.mp hlast]
  have hcut : rstripUnderscores ((n ++ ['_']).take maxLabel) = n := by
    obtain hlt | heq := Nat.lt_or_eq_of_le h.length
    · rw [List.take_of_length_le (by simp only [List.length_append, List.length_singleton]; omega)]
      exact (List.rdropWhile_concat_pos _ _ _ (by decide)).trans hself
    · rw [List.take_left' heq]
      exact hself
  simp only [deckLabel, Text.stripList_of_no_space fun c hc => isSpace_of_isLabelChar (hchars c hc),
    hclean, hhead, if_true, hcut, hne, if_false, List.append_eq_nil_iff, false_and]

end MeshPipeline.Fea
