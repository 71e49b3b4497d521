import Mathlib.Algebra.Group.Nat.Defs
import Mathlib.Data.Bool.AllAny
import Mathlib.Data.List.TakeWhile
import MeshPipeline.Library.CaseFold

/-!
# What a boundary patch may be called

The spelling that every mesher can write, the names that the meshers keep for themselves, and the
words people use for a kind of boundary and for the ground.
-/

namespace MeshPipeline.Boundary

abbrev Str := List Char

scoped instance lawfulBEqStr : LawfulBEq Str := List.instLawfulBEq

/-! ## Spelling -/

/-- `MAX_NAME_LENGTH`. -/
def maxNameLength : Nat := 64

/-- A letter, a digit or an underscore, all ASCII. -/
def isWordChar (c : Char) : Bool := c.isAlphanum || c == '_'

/-- `is_mesh_safe`: a letter, then letters, digits and underscores. -/
def isMeshSafe : Str → Bool
  | [] => false
  | c :: cs => c.isAlpha && cs.all isWordChar && decide (cs.length < maxNameLength)

/-- `re.sub(r"_+", "_", s)`. -/
def squeeze : Str → Str
  | [] => []
  | c :: cs => if c = '_' ∧ (squeeze cs).head? = some '_' then squeeze cs else c :: squeeze cs

def lstripUnderscores (cs : Str) : Str := cs.dropWhile (· == '_')

def rstripUnderscores (cs : Str) : Str := (cs.reverse.dropWhile (· == '_')).reverse

/-- `mesh_safe`. A run of other characters comes out as one underscore when it is squeezed. -/
def meshSafe (name : Str) : Str :=
  let text := Text.stripList name
  if isMeshSafe text then text
  else
    let words := text.map fun c => if isWordChar c then c else '_'
    let safe := squeeze (rstripUnderscores (lstripUnderscores words))
    let safe := if safe = [] then "patch".toList else safe
    let safe := if safe.head?.any Char.isAlpha then safe else "p_".toList ++ safe
    let cut := rstripUnderscores (safe.take maxNameLength)
    if cut = [] then "patch".toList else cut

theorem isWordChar_of_isAlpha {c : Char} (h : c.isAlpha = true) : isWordChar c = true := by
  simp [isWordChar, Char.isAlphanum, h]

theorem isMeshSafe_iff {name : Str} :
    isMeshSafe name = true ↔
      (∀ c ∈ name, isWordChar c = true) ∧ name.length ≤ maxNameLength ∧
        name.head?.any Char.isAlpha = true := by
  cases name with
  | nil => simp [isMeshSafe]
  | cons c cs =>
    simp only [isMeshSafe, Bool.and_eq_true, List.all_eq_true, decide_eq_true_eq, List.mem_cons,
      forall_eq_or_imp, List.length_cons, List.head?_cons, Option.any_some, Nat.succ_le_iff]
    constructor
    · rintro ⟨⟨hc, hcs⟩, hlen⟩
      exact ⟨⟨isWordChar_of_isAlpha hc, hcs⟩, hlen, hc⟩
    · rintro ⟨⟨-, hcs⟩, hlen, hc⟩
      exact ⟨⟨hc, hcs⟩, hlen⟩

theorem isSpace_of_isWordChar {c : Char} (h : isWordChar c = true) : Text.isSpace c = false := by
  have hrange : (48 ≤ c.toNat ∧ c.toNat ≤ 57) ∨ (65 ≤ c.toNat ∧ c.toNat ≤ 122) := by
    unfold isWordChar Char.isAlphanum Char.isAlpha Char.isUpper Char.isLower Char.isDigit at h
    simp only [Bool.or_eq_true, Bool.and_eq_true, decide_eq_true_eq, beq_iff_eq] at h
    obtain ((⟨hlo, hhi⟩ | ⟨hlo, hhi⟩) | ⟨hlo, hhi⟩) | rfl := h
    · exact .inr ⟨hlo, Nat.le_trans hhi (by decide)⟩
    · exact .inr ⟨Nat.le_trans (by decide) hlo, hhi⟩
    · exact .inl ⟨hlo, hhi⟩
    · exact .inr (by decide)
  exact Text.isSpace_of_ascii (by omega) (by omega)

/-- A word has no blanks around it. -/
theorem stripList_of_word {name : Str} (h : ∀ c ∈ name, isWordChar c = true) :
    Text.stripList name = name :=
  Text.stripList_of_no_space fun c hc => isSpace_of_isWordChar (h c hc)

theorem mem_squeeze {cs : Str} {c : Char} (h : c ∈ squeeze cs) : c ∈ cs := by
  induction cs with
  | nil => exact h
  | cons d cs ih =>
    rw [squeeze] at h
    split at h
    · exact List.mem_cons_of_mem d (ih h)
    · obtain rfl | h := List.mem_cons.mp h
      · exact List.mem_cons_self
      · exact List.mem_cons_of_mem d (ih h)

theorem head?_squeeze (cs : Str) : (squeeze cs).head? = cs.head? := by
  cases cs with
  | nil => rfl
  | cons d cs =>
    rw [squeeze]
    split
    · next h => rw [h.2, h.1]; rfl
    · rfl

/-- Stripping the right end keeps a first character that is no underscore. -/
theorem head?_rstrip {cs : Str} {c : Char} (hc : c ≠ '_') :
    (rstripUnderscores (c :: cs)).head? = some c := by
  have hlast : (c :: cs).reverse = cs.reverse ++ [c] := List.reverse_cons
  rw [rstripUnderscores, hlast, List.dropWhile_append]
  split
  · simp [hc]
  · simp

theorem mem_rstrip {cs : Str} {c : Char} (h : c ∈ rstripUnderscores cs) : c ∈ cs :=
  List.mem_reverse.mp ((List.dropWhile_suffix _).subset (List.mem_reverse.mp h))

/-- What is cut out of a word that starts with a letter is mesh-safe. -/
theorem isMeshSafe_cut {safe : Str} (hword : ∀ c ∈ safe, isWordChar c = true)
    (hletter : safe.head?.any Char.isAlpha = true) :
    isMeshSafe (rstripUnderscores (safe.take maxNameLength)) = true := by
  obtain _ | ⟨c, cs⟩ := safe
  · simp at hletter
  have hc : c.isAlpha = true := hletter
  have hne : c ≠ '_' := by
    rintro rfl
    exact absurd hc (by decide)
  rw [isMeshSafe_iff]
  refine ⟨fun d hd => hword d (List.mem_of_mem_take (mem_rstrip hd)), ?_, ?_⟩
  · have hcut : (rstripUnderscores ((c :: cs).take maxNameLength)).length ≤
        ((c :: cs).take maxNameLength).length := by
      have hdropped := (List.dropWhile_suffix (l := ((c :: cs).take maxNameLength).reverse)
        (· == '_')).length_le
      simpa [rstripUnderscores] using hdropped
    exact Nat.le_trans hcut (List.length_take_le _ _)
  · have hhead : (rstripUnderscores ((c :: cs).take maxNameLength)).head? = some c :=
      @head?_rstrip (cs.take 63) c hne
    rw [hhead]
    exact hc

/-- Whatever was typed, `mesh_safe` spells it as a mesher can. -/
theorem isMeshSafe_meshSafe (name : Str) : isMeshSafe (meshSafe name) = true := by
  unfold meshSafe
  dsimp only
  split
  · assumption
  · next hunsafe =>
    generalize hsafe : squeeze (rstripUnderscores (lstripUnderscores
      ((Text.stripList name).map fun c => if isWordChar c then c else '_'))) = safe
    have hword : ∀ c ∈ safe, isWordChar c = true := by
      intro c hc
      rw [← hsafe] at hc
      have hmem := (List.dropWhile_suffix _).subset (mem_rstrip (mem_squeeze hc))
      obtain ⟨d, -, rfl⟩ := List.mem_map.mp hmem
      split
      · assumption
      · decide
    have hfallback : ∀ c ∈ (if safe = [] then "patch".toList else safe), isWordChar c = true := by
      split
      · exact List.all_eq_true.mp (by decide)
      · exact hword
    generalize (if safe = [] then "patch".toList else safe) = kept at hfallback
    have hletter : ∀ c ∈ (if kept.head?.any Char.isAlpha then kept else "p_".toList ++ kept),
        isWordChar c = true := by
      split
      · exact hfallback
      · intro c hc
        obtain hc | hc := List.mem_append.mp hc
        · exact List.all_eq_true.mp (by decide : "p_".toList.all isWordChar = true) c hc
        · exact hfallback c hc
    have hhead : (if kept.head?.any Char.isAlpha then kept else
        "p_".toList ++ kept).head?.any Char.isAlpha = true := by
      split
      · assumption
      · rfl
    generalize (if kept.head?.any Char.isAlpha then kept else "p_".toList ++ kept) = spelled
      at hletter hhead ⊢
    split
    · decide
    · exact isMeshSafe_cut hletter hhead

theorem meshSafe_of_isMeshSafe {name : Str} (h : isMeshSafe name = true) : meshSafe name = name := by
  have hstrip := stripList_of_word (isMeshSafe_iff.mp h).1
  unfold meshSafe
  dsimp only
  rw [hstrip, if_pos h]

/-! ## The names the meshers keep -/

/-- `RESERVED_PATCH_NAMES`. -/
def reservedPatchNames : List String :=
  ["FoamFile", "outer", "seedZone", "defaultFaces", "fixedWalls", "bottomEmptyFaces",
    "topEmptyFaces", "solid"]

def reservedFolded : List Str := reservedPatchNames.map fun n => Text.casefold n.toList

/-- What follows a stem and one digit or more. -/
def afterNumbered (stem cs : Str) : Option Str :=
  let rest := cs.drop stem.length
  if stem.isPrefixOf cs ∧ rest.head?.any Char.isDigit then some (rest.dropWhile Char.isDigit)
  else none

/-- `_RESERVED_PATTERN`. The names asked about are ASCII, where `\d` is a digit. -/
def isNumberedFamily (cs : Str) : Bool :=
  afterNumbered "thinzone".toList cs == some [] ||
    (afterNumbered "procboundary".toList cs).any (fun rest =>
      afterNumbered "to".toList rest == some []) ||
    afterNumbered "processor".toList cs == some []

/-- `is_reserved`. -/
def isReserved (name : Str) : Bool :=
  let folded := Text.casefold (Text.stripList name)
  reservedFolded.contains folded || isNumberedFamily folded

/-- `RESERVED_SUFFIX`. -/
def reservedSuffix : Str := "_patch".toList

/-- `unreserved`. -/
def unreserved (name : Str) : Str :=
  if isReserved name then name.take (maxNameLength - reservedSuffix.length) ++ reservedSuffix
  else name

/-- `case_name`. -/
def caseName (name : Str) : Str := unreserved (meshSafe name)

/-- `_suffixed`. -/
def suffixed (base : Str) (n : Nat) : Str :=
  let suffix := '_' :: Nat.toDigits 10 n
  base.take (maxNameLength - suffix.length) ++ suffix

theorem afterNumbered_eq {stem cs rest : Str} (h : afterNumbered stem cs = some rest) :
    ∃ digits, digits ≠ [] ∧ (∀ d ∈ digits, d.isDigit = true) ∧ cs = stem ++ digits ++ rest := by
  unfold afterNumbered at h
  dsimp only at h
  split at h
  · next hstem =>
    obtain ⟨hstart, hdigit⟩ := hstem
    obtain ⟨tail, rfl⟩ := List.isPrefixOf_iff_prefix.mp hstart
    rw [List.drop_left] at h hdigit
    refine ⟨tail.takeWhile Char.isDigit, ?_, fun d hd => List.mem_takeWhile_imp hd, ?_⟩
    · cases tail with
      | nil => simp at hdigit
      | cons c cs => simp_all
    · rw [← Option.some.inj h, List.append_assoc, List.takeWhile_append_dropWhile]
  · cases h

/-- A name of a numbered family ends on a digit, and has letters and digits only. -/
theorem family_cases {cs : Str} (h : isNumberedFamily cs = true) :
    (∃ as d, cs = as ++ [d] ∧ d.isDigit = true) ∧ '_' ∉ cs := by
  have hends {stem digits : Str} (hne : digits ≠ []) (hdigits : ∀ d ∈ digits, d.isDigit = true)
      (hstem : '_' ∉ stem) :
      (∃ as d, stem ++ digits = as ++ [d] ∧ d.isDigit = true) ∧ '_' ∉ stem ++ digits := by
    refine ⟨⟨stem ++ digits.dropLast, digits.getLast hne, ?_, hdigits _ (List.getLast_mem hne)⟩, ?_⟩
    · rw [List.append_assoc, List.dropLast_append_getLast]
    · intro hmem
      obtain hmem | hmem := List.mem_append.mp hmem
      · exact hstem hmem
      · exact absurd (hdigits _ hmem) (by decide)
  simp only [isNumberedFamily, Bool.or_eq_true, beq_iff_eq, Option.any_eq_true] at h
  obtain (h | ⟨rest, hfirst, h⟩) | h := h
  · obtain ⟨digits, hne, hdigits, rfl⟩ := afterNumbered_eq h
    rw [List.append_nil]
    exact hends hne hdigits (by decide)
  · obtain ⟨first, hne, hfirst', rfl⟩ := afterNumbered_eq hfirst
    obtain ⟨digits, hne', hdigits, rfl⟩ := afterNumbered_eq h
    rw [List.append_nil, ← List.append_assoc]
    refine hends hne' hdigits fun hmem => ?_
    simp only [List.mem_append] at hmem
    obtain (hmem | hmem) | hmem := hmem
    · exact absurd hmem (by decide)
    · exact absurd (hfirst' _ hmem) (by decide)
    · exact absurd hmem (by decide)
  · obtain ⟨digits, hne, hdigits, rfl⟩ := afterNumbered_eq h
    rw [List.append_nil]
    exact hends hne hdigits (by decide)

theorem underscore_mem_casefold {cs : Str} (h : '_' ∈ cs) : '_' ∈ Text.casefold cs := by
  refine List.mem_flatMap.mpr ⟨'_', h, ?_⟩
  rw [Text.foldChar_small (.inr (.inr rfl))]
  exact List.mem_singleton_self _

/-- No reserved name has an underscore. -/
theorem isReserved_of_underscore {name : Str} (hword : ∀ c ∈ name, isWordChar c = true)
    (h : '_' ∈ name) : isReserved name = false := by
  have hfolded := underscore_mem_casefold h
  simp only [isReserved, stripList_of_word hword, Bool.or_eq_false_iff]
  constructor
  · by_contra hlisted
    have hmem : Text.casefold name ∈ reservedFolded := by simpa using hlisted
    exact (by decide +kernel : ∀ r ∈ reservedFolded, '_' ∉ r) _ hmem hfolded
  · by_contra hfamily
    exact (family_cases (by simpa using hfamily)).2 hfolded

/-- What a part of a mesh-safe name and a suffix of it make. -/
theorem isMeshSafe_suffix {base suffix : Str} (h : isMeshSafe base = true)
    (hword : ∀ c ∈ suffix, isWordChar c = true) (hlen : suffix.length < maxNameLength) :
    isMeshSafe (base.take (maxNameLength - suffix.length) ++ suffix) = true := by
  obtain ⟨hbase, -, hletter⟩ := isMeshSafe_iff.mp h
  refine isMeshSafe_iff.mpr ⟨fun c hc => ?_, ?_, ?_⟩
  · obtain hc | hc := List.mem_append.mp hc
    · exact hbase c (List.mem_of_mem_take hc)
    · exact hword c hc
  · rw [List.length_append, List.length_take]
    omega
  · obtain ⟨k, hk⟩ : ∃ k, maxNameLength - suffix.length = k + 1 :=
      ⟨maxNameLength - suffix.length - 1, by omega⟩
    rw [hk]
    cases base with
    | nil => simp at hletter
    | cons c cs => exact hletter

theorem isMeshSafe_unreserved {name : Str} (h : isMeshSafe name = true) :
    isMeshSafe (unreserved name) = true := by
  unfold unreserved
  split
  · exact isMeshSafe_suffix h (List.all_eq_true.mp (by decide)) (by decide)
  · exact h

theorem isReserved_unreserved {name : Str} (h : isMeshSafe name = true) :
    isReserved (unreserved name) = false := by
  have hsafe := isMeshSafe_unreserved h
  unfold unreserved at hsafe ⊢
  split at hsafe
  · next hreserved =>
    rw [if_pos hreserved]
    refine isReserved_of_underscore (isMeshSafe_iff.mp hsafe).1 ?_
    exact List.mem_append_right _ (by decide)
  · next hfree =>
    rw [if_neg hfree]
    simpa using hfree

/-- The numbers that a list of Python can lead to. -/
def maxNumber : Nat := 2 ^ 65

theorem length_suffix {n : Nat} (h : n < maxNumber) :
    ('_' :: Nat.toDigits 10 n).length < maxNameLength := by
  have hdigits : (Nat.toDigits 10 n).length ≤ 20 := by
    rw [Nat.length_toDigits_le_iff (by decide) (by decide)]
    exact Nat.lt_trans h (by decide)
  simp only [List.length_cons, maxNameLength]
  omega

theorem isWordChar_suffix {n : Nat} : ∀ c ∈ '_' :: Nat.toDigits 10 n, isWordChar c = true := by
  intro c hc
  obtain rfl | hc := List.mem_cons.mp hc
  · rfl
  · simp [isWordChar, Char.isAlphanum, Nat.isDigit_of_mem_toDigits (by decide) (by decide) hc]

theorem isMeshSafe_suffixed {base : Str} {n : Nat} (h : isMeshSafe base = true)
    (hn : n < maxNumber) : isMeshSafe (suffixed base n) = true :=
  isMeshSafe_suffix h isWordChar_suffix (length_suffix hn)

theorem isReserved_suffixed {base : Str} {n : Nat} (h : isMeshSafe base = true)
    (hn : n < maxNumber) : isReserved (suffixed base n) = false := by
  refine isReserved_of_underscore (isMeshSafe_iff.mp (isMeshSafe_suffixed h hn)).1 ?_
  exact List.mem_append_right _ List.mem_cons_self

theorem casefold_digits {digits : Str} (h : ∀ d ∈ digits, d.isDigit = true) :
    Text.casefold digits = digits := by
  induction digits with
  | nil => rfl
  | cons d digits ih =>
    rw [Text.casefold, List.flatMap_cons, Text.foldChar_small (.inr (.inl (h d List.mem_cons_self)))]
    exact congrArg (d :: ·) (ih fun e he => h e (List.mem_cons_of_mem d he))

/-- The number can be read off a suffixed name, in any capitals. -/
theorem suffixed_inj {base : Str} {n m : Nat}
    (h : Text.casefold (suffixed base n) = Text.casefold (suffixed base m)) : n = m := by
  have hread (k : Nat) : (Text.casefold (suffixed base k)).reverse.takeWhile (· ≠ '_') =
      (Nat.toDigits 10 k).reverse := by
    have hdigits : ∀ d ∈ Nat.toDigits 10 k, d.isDigit = true := fun d hd =>
      Nat.isDigit_of_mem_toDigits (by decide) (by decide) hd
    have hfolded : Text.casefold ('_' :: Nat.toDigits 10 k) = '_' :: Nat.toDigits 10 k := by
      rw [Text.casefold, List.flatMap_cons, Text.foldChar_small (.inr (.inr rfl))]
      exact congrArg ('_' :: ·) (casefold_digits hdigits)
    rw [suffixed, Text.casefold_append, hfolded, List.reverse_append, List.reverse_cons,
      List.append_assoc, List.takeWhile_append_of_pos]
    · simp
    · intro d hd
      have hdigit := hdigits d (List.mem_reverse.mp hd)
      simp only [decide_eq_true_eq]
      rintro rfl
      exact absurd hdigit (by decide)
  have hdigits : Nat.toDigits 10 n = Nat.toDigits 10 m :=
    List.reverse_injective ((hread n).symm.trans ((congrArg _ (congrArg _ h)).trans (hread m)))
  have hnumber := congrArg (fun ds => Nat.ofDigitChars 10 ds 0) hdigits
  simpa using hnumber

/-! ## Words -/

/-- One character of `str.split`, from the right. -/
def splitStep (c : Char) (words : List Str) : List Str :=
  if Text.isSpace c then [] :: words
  else match words with
    | [] => [[c]]
    | w :: ws => (c :: w) :: ws

/-- `str.split()`. -/
def split (cs : Str) : List Str := (cs.foldr splitStep [[]]).filter (· ≠ [])

/-- The characters that `_word` reads as a blank. -/
def wordSeparators : Str := "-_/.,;:()[]".toList ++ [Char.ofNat 123, Char.ofNat 125]

/-- What `_word` makes of a folded text. -/
def wordOf (folded : Str) : Str :=
  [' '].intercalate (split (folded.map fun c => if c ∈ wordSeparators then ' ' else c))

/-- `_word`: a typed word as the tables compare it. -/
def word (text : Str) : Str := wordOf (Text.casefold text)

/-- `GROUND_WORDS`. -/
def groundWords : List String :=
  ["ground", "ground plane", "groundplane", "floor", "floor plane", "road", "road surface",
    "ground surface", "rolling road", "moving ground", "moving floor", "ground wall", "the ground",
    "ground floor"]

/-- `is_ground_word`. -/
def isGroundWord (text : Str) : Bool := (groundWords.map String.toList).contains (word text)

theorem getLast?_foldr_split (cs : Str) {d : Char} (hd : Text.isSpace d = false) :
    ∃ ws w, (cs ++ [d]).foldr splitStep [[]] = ws ++ [w ++ [d]] := by
  induction cs with
  | nil => exact ⟨[], [], by simp [splitStep, hd]⟩
  | cons c cs ih =>
    obtain ⟨ws, w, hws⟩ := ih
    rw [List.cons_append, List.foldr_cons, hws]
    unfold splitStep
    split
    · exact ⟨[] :: ws, w, rfl⟩
    · cases ws with
      | nil => exact ⟨[], c :: w, rfl⟩
      | cons v ws => exact ⟨(c :: v) :: ws, w, rfl⟩

theorem getLast?_intercalate (ws : List Str) (w : Str) (d : Char) :
    ([' '].intercalate (ws ++ [w ++ [d]])).getLast? = some d := by
  induction ws with
  | nil => simp [List.intercalate]
  | cons v ws ih =>
    obtain ⟨x, xs, hxs⟩ : ∃ x xs, ws ++ [w ++ [d]] = x :: xs := by
      cases ws with
      | nil => exact ⟨_, _, rfl⟩
      | cons x xs => exact ⟨_, _, rfl⟩
    have hsplit : [' '].intercalate (v :: x :: xs) = v ++ (' ' :: [' '].intercalate (x :: xs)) := by
      simp [List.intercalate]
    rw [List.cons_append, hxs, hsplit, ← hxs, List.getLast?_append, List.getLast?_cons, ih]
    rfl

/-- A word ends as its text does. -/
theorem getLast?_wordOf (folded : Str) {d : Char} (hd : Text.isSpace d = false)
    (hsep : d ∉ wordSeparators) : (wordOf (folded ++ [d])).getLast? = some d := by
  rw [wordOf, List.map_append, List.map_singleton, if_neg hsep, split]
  obtain ⟨ws, w, hws⟩ := getLast?_foldr_split
    (folded.map fun c => if c ∈ wordSeparators then ' ' else c) hd
  rw [hws, List.filter_append]
  have hlast : [w ++ [d]].filter (· ≠ []) = [w ++ [d]] := by simp
  rw [hlast]
  exact getLast?_intercalate _ w d

theorem getLast?_groundWords :
    ∀ w ∈ groundWords.map String.toList, ∀ d ∈ w.getLast?, d ∉ 'h' :: "0123456789".toList := by
  have hall : ∀ w ∈ groundWords.map String.toList,
      w.getLast?.all (fun d => decide (d ∉ 'h' :: "0123456789".toList)) = true := by decide +kernel
  intro w hw d hd
  exact of_decide_eq_true ((Option.all_eq_true _ _).mp (hall w hw) d hd)

theorem digit_mem {d : Char} (h : d.isDigit = true) : d ∈ "0123456789".toList := by
  simp only [Char.isDigit, Bool.and_eq_true, decide_eq_true_eq] at h
  have hn : d.toNat ∈ List.range' 48 10 := by
    rw [List.mem_range'_1]
    exact ⟨h.1, Nat.lt_succ_of_le h.2⟩
  have hd : d = Char.ofNat d.toNat := (Char.ofNat_toNat d).symm
  rw [hd]
  exact (by decide : ∀ n ∈ List.range' 48 10, Char.ofNat n ∈ "0123456789".toList) _ hn

/-- No ground word ends on a digit or as the reserved suffix does. -/
theorem isGroundWord_of_end {folded : Str} {d : Char} (h : d.isDigit = true ∨ d = 'h') :
    wordOf (folded ++ [d]) ∉ groundWords.map String.toList := by
  have hmem : d ∈ 'h' :: "0123456789".toList := by
    obtain h | rfl := h
    · exact List.mem_cons_of_mem _ (digit_mem h)
    · exact List.mem_cons_self
  obtain ⟨hspace, hsep⟩ : Text.isSpace d = false ∧ d ∉ wordSeparators :=
    List.all_iff_forall_prop (p := fun d => Text.isSpace d = false ∧ d ∉ wordSeparators).mp
      (by decide) d hmem
  intro hground
  exact getLast?_groundWords _ hground d (getLast?_wordOf folded hspace hsep) hmem

theorem isGroundWord_eq_false {text : Str} {d : Char} (h : d.isDigit = true ∨ d = 'h') :
    isGroundWord (text ++ [d]) = false := by
  have hfold : Text.foldChar d = [d] := by
    obtain h | rfl := h
    · exact Text.foldChar_small (.inr (.inl h))
    · exact Text.foldChar_small (.inl rfl)
  have hfolded : Text.casefold (text ++ [d]) = Text.casefold text ++ [d] := by
    rw [Text.casefold_append]
    simp [Text.casefold, hfold]
  have hend := @isGroundWord_of_end (Text.casefold text) d h
  simpa [isGroundWord, word, hfolded] using hend

theorem isGroundWord_suffixed (base : Str) (n : Nat) : isGroundWord (suffixed base n) = false := by
  obtain ⟨digits, d, hdigits⟩ : ∃ digits d, Nat.toDigits 10 n = digits ++ [d] :=
    ⟨_, _, (List.dropLast_append_getLast Nat.toDigits_ne_nil).symm⟩
  have hd : d.isDigit = true :=
    Nat.isDigit_of_mem_toDigits (by decide) (by decide) (hdigits ▸ List.mem_append_right _
      (List.mem_singleton_self d))
  have hname : suffixed base n = base.take (maxNameLength - ('_' :: Nat.toDigits 10 n).length) ++
      '_' :: digits ++ [d] := by
    rw [suffixed, hdigits]
    simp
  rw [hname]
  exact isGroundWord_eq_false (.inl hd)

theorem isGroundWord_patch (base : Str) : isGroundWord (base ++ reservedSuffix) = false := by
  have hname : base ++ reservedSuffix = base ++ "_patc".toList ++ ['h'] := by
    rw [List.append_assoc]
    rfl
  rw [hname]
  exact isGroundWord_eq_false (.inr rfl)

theorem reserved_not_ground :
    ∀ r ∈ reservedFolded, wordOf r ∉ groundWords.map String.toList := by
  decide +kernel

/-- A mesher keeps no ground word for itself. -/
theorem isReserved_of_isGroundWord {name : Str} (hword : ∀ c ∈ name, isWordChar c = true)
    (h : isGroundWord name = true) : isReserved name = false := by
  have hground : wordOf (Text.casefold name) ∈ groundWords.map String.toList := by
    simpa [isGroundWord, word] using h
  simp only [isReserved, stripList_of_word hword, Bool.or_eq_false_iff]
  constructor
  · by_contra hlisted
    exact reserved_not_ground _ (by simpa using hlisted) hground
  · by_contra hfamily
    obtain ⟨⟨as, d, heq, hd⟩, -⟩ := family_cases (by simpa using hfamily)
    exact isGroundWord_of_end (.inl hd) (heq ▸ hground)

/-! ## Roles -/

/-- `_ROLE_WORDS`: the roles that a word can mean. -/
def roleWords : List (List String × List String) :=
  [(["wall"], ["wall", "walls", "no slip", "no slip wall", "noslip", "noslip wall", "solid wall",
      "wall boundary", "viscous wall", "adiabatic wall", "isothermal wall", "heated wall",
      "stationary wall", "moving wall", "body", "body wall", "body surface"]),
    (["inlet"], ["inlet", "inlets", "inflow", "velocity inlet", "velocity inflow",
      "mass flow inlet", "mass flow rate inlet", "mass flow", "total pressure inlet",
      "pressure inlet", "stagnation inlet", "intake", "inlet boundary", "supply"]),
    (["outlet"], ["outlet", "outlets", "outflow", "pressure outlet", "static pressure outlet",
      "exit", "exhaust", "outlet boundary", "return"]),
    (["farfield"], ["farfield", "far field", "far field boundary", "freestream", "free stream",
      "free stream boundary", "outer boundary", "outer domain", "domain boundary",
      "pressure far field", "farfield boundary", "far field wall", "ambient"]),
    (["symmetry"], ["symmetry", "symmetry plane", "symmetryplane", "symmetry boundary",
      "plane of symmetry", "mirror plane", "mirror", "symmetric", "symmetric plane"]),
    (["empty"], ["empty", "front and back", "frontandback", "front back", "empty 2d", "2d empty"]),
    (["fixed"], ["fixed", "fixed support", "fixed supports", "fixed constraint", "fixed face",
      "fixed boundary", "encastre", "encastré", "clamped", "clamp", "built in", "support",
      "constraint", "anchor", "anchored", "fixture"]),
    (["load"], ["load", "loads", "load face", "load surface", "applied load", "force", "traction",
      "pressure load", "bolt load", "bearing load", "moment", "torque", "remote load"]),
    (["contact"], ["contact", "contact surface", "contact face", "bonded", "bonded contact",
      "frictional contact"]),
    (["free"], ["free", "free surface", "free face", "traction free", "unconstrained", "unloaded"]),
    (["external"], ["external"]),
    (["farfield", "inlet", "outlet"], ["opening", "open boundary", "opening boundary"]),
    (["load", "inlet", "outlet"], ["pressure", "pressure boundary"]),
    (["wall"], groundWords)]

/-- `ALL_ROLES`. -/
def allRoles : List Str :=
  ["wall", "inlet", "outlet", "farfield", "symmetry", "empty", "fixed", "load", "contact", "free",
    "external"].map String.toList

/-- `role_candidates`. -/
def roleCandidates (text : Str) : List Str :=
  match roleWords.find? fun row => (row.2.map String.toList).contains (word text) with
  | some row => row.1.map String.toList
  | none => []

/-- `canonical_role`: the one role that a word means among the allowed ones. -/
def canonicalRole (text : Str) (allowed : Option (List Str)) : Option Str :=
  let candidates := match allowed with
    | some roles => (roleCandidates text).filter (roles.contains ·)
    | none => roleCandidates text
  match candidates with
  | [role] => some role
  | _ => none

theorem roleCandidates_known (text : Str) : ∀ role ∈ roleCandidates text, role ∈ allRoles := by
  unfold roleCandidates
  split
  · next row hrow =>
    exact (by decide +kernel : ∀ row ∈ roleWords, ∀ role ∈ row.1.map String.toList,
      role ∈ allRoles) row (List.mem_of_find?_eq_some hrow)
  · simp

/-- A role that a word means is one the purpose routes on. -/
theorem canonicalRole_known {text role : Str} {allowed : Option (List Str)}
    (h : canonicalRole text allowed = some role) : role ∈ allowed.getD allRoles := by
  unfold canonicalRole at h
  cases allowed with
  | none =>
    dsimp only at h
    split at h
    · next hone =>
      obtain rfl := Option.some.inj h
      exact roleCandidates_known text _ (hone ▸ List.mem_singleton_self _)
    · cases h
  | some roles =>
    dsimp only at h
    split at h
    · next found hone =>
      obtain rfl : found = role := Option.some.inj h
      have hmem := hone ▸ List.mem_singleton_self found
      simpa using (List.mem_filter.mp hmem).2
    · cases h

end MeshPipeline.Boundary
