import Mathlib.Data.List.Basic
import Mathlib.Data.List.DropRight
import Mathlib.Data.List.Infix

/-!
# Text as the sources compare it

Stripping and lowering of strings, by their characters. Lowering is that of ASCII letters: the words
it is compared with have no others.
-/

namespace Text

/-- The characters that `str.strip` removes. -/
def isSpace (c : Char) : Bool :=
  let n := c.toNat
  decide (9 ≤ n ∧ n ≤ 13 ∨ 28 ≤ n ∧ n ≤ 32 ∨ 0x2000 ≤ n ∧ n ≤ 0x200A) ||
    [0x85, 0xA0, 0x1680, 0x2028, 0x2029, 0x202F, 0x205F, 0x3000].contains n

def stripList (cs : List Char) : List Char :=
  ((cs.dropWhile isSpace).reverse.dropWhile isSpace).reverse

def strip (s : String) : String := String.ofList (stripList s.toList)

def lower (s : String) : String := String.ofList (s.toList.map Char.toLower)

/-- `strip().lower()`, the spelling under which names are compared. -/
def key (s : String) : String := lower (strip s)

/-- `s.rstrip(chars)`. -/
def rstrip (chars : List Char) (s : String) : String :=
  String.ofList (s.toList.reverse.dropWhile chars.contains).reverse

/-- Python's slice `s[:n]`. -/
def upto (n : Nat) (s : String) : String := String.ofList (s.toList.take n)

/-- The value of a digit, in a base up to sixteen. -/
def digit? (base : Nat) (c : Char) : Option Nat :=
  let n := c.toNat
  let value :=
    if 48 ≤ n ∧ n ≤ 57 then n - 48
    else if 97 ≤ n ∧ n ≤ 102 then n - 87
    else if 65 ≤ n ∧ n ≤ 70 then n - 55
    else base
  if value < base then some value else none

def ofDigits? (base : Nat) (cs : List Char) : Option Nat :=
  if cs = [] then none else cs.foldlM (fun n c => (digit? base c).map (n * base + ·)) 0

/-- Python's `int(s.strip())`. -/
def int? (s : String) : Option Int :=
  match stripList s.toList with
  | '-' :: cs => (ofDigits? 10 cs).map fun n => -(n : Int)
  | '+' :: cs => (ofDigits? 10 cs).map Int.ofNat
  | cs => (ofDigits? 10 cs).map Int.ofNat

/-- Every occurrence of a pattern taken out, from the left; `skip` counts what is left of one. -/
def remove (pattern : List Char) : Nat → List Char → List Char
  | _, [] => []
  | skip + 1, _ :: cs => remove pattern skip cs
  | 0, c :: cs =>
    if pattern.isPrefixOf (c :: cs) then remove pattern (pattern.length - 1) cs
    else c :: remove pattern 0 cs

/-- `uuid.UUID(s).int`: the URN spelling, the braces and the hyphens are optional. -/
def uuid? (s : String) : Option Nat :=
  let cs := remove "uuid:".toList 0 (remove "urn:".toList 0 s.toList)
  let brace := fun c : Char => c.toNat == 123 || c.toNat == 125
  let hex := ((cs.dropWhile brace).reverse.dropWhile brace).reverse.filter (· ≠ '-')
  if hex.length = 32 then ofDigits? 16 hex else none

/-- A printable ASCII character is no blank. -/
theorem isSpace_of_ascii {c : Char} (hlo : 33 ≤ c.toNat) (hhi : c.toNat ≤ 126) :
    isSpace c = false := by
  have hfar : c.toNat ∉ [0x85, 0xA0, 0x1680, 0x2028, 0x2029, 0x202F, 0x205F, 0x3000] := by
    simp only [List.mem_cons, List.not_mem_nil, or_false]
    omega
  simp only [isSpace, Bool.or_eq_false_iff, decide_eq_false_iff_not]
  refine ⟨by omega, ?_⟩
  simpa using hfar

theorem dropWhile_of_no_space {cs : List Char} (h : ∀ c ∈ cs, isSpace c = false) :
    cs.dropWhile isSpace = cs := by
  cases cs with
  | nil => rfl
  | cons c cs => exact List.dropWhile_cons_of_neg (by simp [h c List.mem_cons_self])

/-- Text without blanks has none around it. -/
theorem stripList_of_no_space {cs : List Char} (h : ∀ c ∈ cs, isSpace c = false) :
    stripList cs = cs := by
  rw [stripList, dropWhile_of_no_space h,
    dropWhile_of_no_space (fun c hc => h c (List.mem_reverse.mp hc)), List.reverse_reverse]

/-! ## Stripping and lowering again -/

theorem stripList_stripList (cs : List Char) : stripList (stripList cs) = stripList cs := by
  have hhead : (stripList cs).dropWhile isSpace = stripList cs := by
    rw [List.dropWhile_eq_self_iff]
    intro hpos
    have hstart : stripList cs <+: cs.dropWhile isSpace := List.rdropWhile_prefix isSpace _
    have hne : cs.dropWhile isSpace ≠ [] := by
      intro hnil
      rw [hnil, List.prefix_nil] at hstart
      simp [hstart] at hpos
    rw [hstart.getElem hpos, List.getElem_zero]
    simp [List.head_dropWhile_not isSpace hne]
  calc stripList (stripList cs)
      = (stripList cs).rdropWhile isSpace := congrArg (List.rdropWhile isSpace) hhead
    _ = stripList cs := List.rdropWhile_idempotent isSpace _

theorem strip_strip (s : String) : strip (strip s) = strip s := by
  rw [strip, strip, String.toList_ofList, stripList_stripList]

/-- A letter is lowered by its distance from the capitals. -/
theorem toLower_cases (c : Char) : c.toLower = c ∨
    65 ≤ c.toNat ∧ c.toNat ≤ 90 ∧ c.toLower.toNat = c.toNat + 32 := by
  unfold Char.toLower
  split
  · rename_i h
    obtain ⟨hlo, hhi⟩ := h
    have hlo : 65 ≤ c.val.toNat := hlo
    have hhi : c.val.toNat ≤ 90 := hhi
    refine .inr ⟨hlo, hhi, ?_⟩
    change (c.val + 32).toNat = c.val.toNat + 32
    rw [UInt32.toNat_add]
    have : (32 : UInt32).toNat = 32 := rfl
    omega
  · exact .inl rfl

theorem toLower_toLower (c : Char) : c.toLower.toLower = c.toLower := by
  obtain h | ⟨hcapital, -, h⟩ := toLower_cases c
  · simp [h]
  · obtain h' | ⟨hlo, hhi, -⟩ := toLower_cases c.toLower
    · exact h'
    · omega

theorem isSpace_toLower (c : Char) : isSpace c.toLower = isSpace c := by
  obtain h | ⟨hlo, hhi, h⟩ := toLower_cases c
  · rw [h]
  · rw [isSpace_of_ascii (by omega) (by omega), isSpace_of_ascii (by omega) (by omega)]

theorem dropWhile_map_toLower (cs : List Char) :
    (cs.map Char.toLower).dropWhile isSpace = (cs.dropWhile isSpace).map Char.toLower := by
  rw [List.dropWhile_map]
  congr 2
  funext c
  exact isSpace_toLower c

theorem stripList_map_toLower (cs : List Char) :
    stripList (cs.map Char.toLower) = (stripList cs).map Char.toLower := by
  simp only [stripList, dropWhile_map_toLower, ← List.map_reverse]

theorem strip_lower (s : String) : strip (lower s) = lower (strip s) := by
  rw [strip, lower, String.toList_ofList, stripList_map_toLower, lower, strip, String.toList_ofList]

theorem lower_lower (s : String) : lower (lower s) = lower s := by
  simp [lower, Function.comp_def, toLower_toLower]

theorem key_key (s : String) : key (key s) = key s := by
  rw [key, key, strip_lower, strip_strip, lower_lower]

theorem upto_eq_empty_iff {n : Nat} {s : String} (h : n ≠ 0) : upto n s = "" ↔ s = "" := by
  rw [← String.toList_inj, ← String.toList_inj]
  simp [upto, h]

theorem key_eq_empty_iff {s : String} : key s = "" ↔ strip s = "" := by
  simp [key, lower]

/-- A word without blanks is what is left when one blank after it is stripped. -/
theorem strip_push {s : String} {c : Char} (hs : ∀ d ∈ s.toList, isSpace d = false)
    (hne : s ≠ "") (hc : isSpace c) : strip (s.push c) = s := by
  obtain ⟨d, ds, hd⟩ := List.exists_cons_of_ne_nil (mt String.toList_eq_nil_iff.mp hne)
  have hfront : (s.toList ++ [c]).dropWhile isSpace = s.toList ++ [c] := by
    rw [hd, List.cons_append]
    exact List.dropWhile_cons_of_neg (by simp [hs d (hd ▸ List.mem_cons_self)])
  have hback : (s.toList ++ [c]).reverse.dropWhile isSpace = s.toList.reverse := by
    rw [List.reverse_append, List.reverse_singleton, List.singleton_append,
      List.dropWhile_cons_of_pos hc]
    exact dropWhile_of_no_space fun d hd => hs d (List.mem_reverse.mp hd)
  rw [strip, String.toList_push, stripList, hfront, hback, List.reverse_reverse, String.ofList_toList]

end Text

/-!
## Finding a word in a text

The first place where a word stands, as the text that is left from there. A word that no proper end
of itself begins is found where it stands first, whatever comes before it.
-/

namespace Find

variable {α : Type*} [DecidableEq α] {w a s t u : List α} {c x : α}

/-- The text from the first place where a word stands. -/
def find (w : List α) : List α → Option (List α)
  | [] => if w = [] then some [] else none
  | c :: cs => if w <+: c :: cs then some (c :: cs) else find w cs

/-- No proper end of the word begins it. -/
def Unbordered (w : List α) : Prop := ∀ k ∈ List.range w.length, 0 < k → ¬ w.drop k <+: w

instance (w : List α) : Decidable (Unbordered w) :=
  inferInstanceAs (Decidable (∀ k ∈ List.range w.length, 0 < k → ¬ w.drop k <+: w))

theorem find_of_begins (h : w <+: s) : find w s = some s := by
  cases s with
  | nil => simp [find, List.prefix_nil.mp h]
  | cons c cs => simp [find, h]

theorem find_cons_of_ne (h : c ≠ x) : find (x :: w) (c :: s) = find (x :: w) s := by
  simp [find, Ne.symm h]

theorem find_append_of_notMem (h : x ∉ a) : find (x :: w) (a ++ s) = find (x :: w) s := by
  induction a with
  | nil => rfl
  | cons c a ih =>
    rw [List.cons_append, find_cons_of_ne (by grind), ih (by grind)]

/-- What is found is an end of the text and begins with the word. -/
theorem find_spec (h : find w s = some t) : t <:+ s ∧ w <+: t := by
  induction s with
  | nil =>
    simp only [find, Option.ite_none_right_eq_some] at h
    obtain ⟨rfl, ⟨⟩⟩ := h
    exact ⟨List.suffix_rfl, List.prefix_rfl⟩
  | cons c cs ih =>
    simp only [find] at h
    split at h
    · next hp =>
      cases h
      exact ⟨List.suffix_rfl, hp⟩
    · obtain ⟨hsuffix, hp⟩ := ih h
      exact ⟨hsuffix.trans (List.suffix_cons c cs), hp⟩

/-- A word that stands in the text is found. -/
theorem exists_find (h : w <:+: s) : ∃ t, find w s = some t := by
  induction s with
  | nil => exact ⟨[], find_of_begins (by simp_all)⟩
  | cons c cs ih =>
    by_cases hp : w <+: c :: cs
    · exact ⟨c :: cs, find_of_begins hp⟩
    · have hcs : w <:+: cs := (List.infix_cons_iff.mp h).resolve_left hp
      rw [find, if_neg hp]
      exact ih hcs

/-- More text after the place changes nothing. -/
theorem find_append (h : find w s = some t) : find w (s ++ u) = some (t ++ u) := by
  induction s with
  | nil =>
    simp only [find, Option.ite_none_right_eq_some] at h
    obtain ⟨rfl, ⟨⟩⟩ := h
    exact find_of_begins List.nil_prefix
  | cons c cs ih =>
    simp only [find] at h
    split at h
    · next hp =>
      cases h
      exact find_of_begins (hp.trans (List.prefix_append _ _))
    · next hp =>
      by_cases hp' : w <+: c :: cs ++ u
      · -- the word would end after `cs`, but it stands in `cs`
        obtain ⟨hsuffix, hw⟩ := find_spec h
        have hlength : w.length ≤ (c :: cs).length :=
          hw.length_le.trans (hsuffix.length_le.trans (by simp))
        exact absurd (List.prefix_of_prefix_length_le hp' (List.prefix_append _ _) hlength) hp
      · rw [List.cons_append] at hp' ⊢
        rw [find, if_neg hp', ih h]

/-- A word is found where it stands, when it does not stand before. -/
theorem find_of_not_infix (hw : Unbordered w) (h : ¬ w <:+: a) :
    find w (a ++ (w ++ s)) = some (w ++ s) := by
  induction a with
  | nil => exact find_of_begins (List.prefix_append _ _)
  | cons c a ih =>
    have ha : ¬ w <:+: a := fun hin => h (hin.trans (List.suffix_cons c a).isInfix)
    have hp : ¬ w <+: c :: (a ++ (w ++ s)) := by
      intro hp
      rw [← List.cons_append] at hp
      obtain hle | hlt := le_or_gt w.length (c :: a).length
      · exact h (List.prefix_of_prefix_length_le hp (List.prefix_append _ _) hle).isInfix
      · -- the rest of the word after `c :: a` begins the word
        have hca : c :: a <+: w :=
          List.prefix_of_prefix_length_le (List.prefix_append _ _) hp hlt.le
        obtain ⟨p, hp'⟩ := hca
        have hpw : p <+: w ++ s := by
          rw [← hp', List.prefix_append_right_inj] at hp
          rwa [hp'] at hp
        have hlength : p.length ≤ w.length := by
          have := congrArg List.length hp'
          rw [List.length_append] at this
          omega
        have hbegins : p <+: w :=
          List.prefix_of_prefix_length_le hpw (List.prefix_append _ _) hlength
        have hdrop : w.drop (c :: a).length = p := by
          rw [← hp']
          simp
        exact hw _ (List.mem_range.mpr hlt) (by simp) (hdrop ▸ hbegins)
    rw [List.cons_append, find, if_neg hp, ih ha]

end Find
