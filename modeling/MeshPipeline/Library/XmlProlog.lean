import MeshPipeline.Library.Text

/-!
# The prolog of an XML document

What XML 1.0 lets stand before the root element: a declaration, comments, processing instructions
and white space. A parser that reads on meets a document type declaration there or nowhere, and
entity declarations only inside one. A file is read in an encoding that keeps the ASCII bytes, or in
UTF-16; a byte is the character of its number.
-/

namespace Xml

/-! ## The grammar -/

def isWhite (c : Char) : Bool := [' ', '\t', '\r', '\n'].contains c

def inRanges (n : ℕ) (ranges : List (ℕ × ℕ)) : Bool := ranges.any fun r => r.1 ≤ n && n ≤ r.2

/-- The production `Char`. -/
def isChar (c : Char) : Bool :=
  inRanges c.toNat [(9, 10), (13, 13), (0x20, 0xD7FF), (0xE000, 0xFFFD), (0x10000, 0x10FFFF)]

def isNameStart (c : Char) : Bool :=
  c = ':' || c = '_' || c.isAlpha ||
    inRanges c.toNat [(0xC0, 0xD6), (0xD8, 0xF6), (0xF8, 0x2FF), (0x370, 0x37D), (0x37F, 0x1FFF),
      (0x200C, 0x200D), (0x2070, 0x218F), (0x2C00, 0x2FEF), (0x3001, 0xD7FF), (0xF900, 0xFDCF),
      (0xFDF0, 0xFFFD), (0x10000, 0xEFFFF)]

def isNameChar (c : Char) : Bool :=
  isNameStart c || c = '-' || c = '.' || c.isDigit ||
    inRanges c.toNat [(0xB7, 0xB7), (0x300, 0x36F), (0x203F, 0x2040)]

/-- No two hyphens stand together in a comment, and none before its end. -/
def Comment (m : List Char) : Prop :=
  ∃ body, m = ['<', '!', '-', '-'] ++ (body ++ ['-', '-', '>']) ∧ (∀ c ∈ body, isChar c = true) ∧
    ¬ ['-', '-'] <:+: body ++ ['-']

/-- A target that is not `xml`, and data after white space. -/
def Instruction (m : List Char) : Prop :=
  ∃ c name data, m = ['<', '?'] ++ ((c :: name) ++ data ++ ['?', '>']) ∧
    isNameStart c = true ∧ (∀ d ∈ name, isNameChar d = true) ∧
    (c :: name).map Char.toLower ≠ "xml".toList ∧
    (∀ d ∈ data.head?, isWhite d = true) ∧ (∀ d ∈ data, isChar d = true) ∧ ¬ ['?', '>'] <:+: data

/-- White space, a name, an equals sign and a value in quotes. -/
def Attribute (name : List Char) (value : List Char → Prop) (s : List Char) : Prop :=
  ∃ before left right quote v,
    s = before ++ name ++ left ++ ['='] ++ right ++ (quote :: v ++ [quote]) ∧
    before ≠ [] ∧ (∀ c ∈ before ++ left ++ right, isWhite c = true) ∧
    (quote = '"' ∨ quote = '\'') ∧ value v

def VersionNum (v : List Char) : Prop :=
  ∃ digits, v = "1.".toList ++ digits ∧ digits ≠ [] ∧ ∀ c ∈ digits, c.isDigit = true

def EncName (v : List Char) : Prop :=
  ∃ c cs, v = c :: cs ∧ c.isAlpha = true ∧
    ∀ d ∈ cs, d.isAlphanum = true ∨ d = '.' ∨ d = '_' ∨ d = '-'

def YesNo (v : List Char) : Prop := v = "yes".toList ∨ v = "no".toList

/-- The XML declaration. -/
def Declaration (m : List Char) : Prop :=
  ∃ version encoding standalone after,
    m = "<?xml".toList ++ (version ++ encoding ++ standalone ++ after ++ ['?', '>']) ∧
    Attribute "version".toList VersionNum version ∧
    (encoding = [] ∨ Attribute "encoding".toList EncName encoding) ∧
    (standalone = [] ∨ Attribute "standalone".toList YesNo standalone) ∧
    ∀ c ∈ after, isWhite c = true

/-- Comments, processing instructions and white space. -/
inductive Misc : List Char → Prop
  | nil : Misc []
  | white {c s} (hc : isWhite c = true) (hs : Misc s) : Misc (c :: s)
  | comment {m s} (hm : Comment m) (hs : Misc s) : Misc (m ++ s)
  | instruction {m s} (hm : Instruction m) (hs : Misc s) : Misc (m ++ s)

/-- What is read before a document type declaration or the root element. -/
def Prolog (s : List Char) : Prop := Misc s ∨ ∃ d m, Declaration d ∧ Misc m ∧ s = d ++ m

def doctype : List Char := "<!DOCTYPE".toList

/-- A parser that reads the text meets a document type declaration. -/
def MeetsDoctype (s : List Char) : Prop := ∃ pre post, Prolog pre ∧ s = pre ++ (doctype ++ post)

/-- What the grammar allows next in a prolog. -/
def Piece (pre m : List Char) : Prop :=
  (∃ c, m = [c] ∧ isWhite c = true) ∨ Comment m ∨ Instruction m ∨ pre = [] ∧ Declaration m

/-- A parser reads a prolog and no more of it, and no element begins there: it stops with an error,
or it meets a document type declaration. -/
def Stops (s pre : List Char) : Prop :=
  Prolog pre ∧ pre <+: s ∧ (∀ m, Piece pre m → ¬ pre ++ m <+: s) ∧
    ∀ c, isNameStart c = true → ¬ pre ++ ['<', c] <+: s

/-! ## Encodings -/

/-- An encoding that keeps the ASCII bytes: another character takes other bytes. -/
inductive KeepsAscii : List Char → List Char → Prop
  | nil : KeepsAscii [] []
  | ascii {c bs cs} (hc : c.toNat < 128) (h : KeepsAscii bs cs) : KeepsAscii (c :: bs) (c :: cs)
  | other {b unit c bs cs} (hunit : ∀ d ∈ b :: unit, 128 ≤ Char.toNat d) (hc : 128 ≤ Char.toNat c)
      (h : KeepsAscii bs cs) : KeepsAscii (b :: unit ++ bs) (c :: cs)

/-- The two bytes of an ASCII character in UTF-16. -/
def pair (little : Bool) (c : Char) : List Char := if little then [c, '\x00'] else ['\x00', c]

/-- UTF-16: an ASCII character takes its byte and a zero. -/
inductive Utf16 (little : Bool) : List Char → List Char → Prop
  | nil : Utf16 little [] []
  | ascii {c bs cs} (hc : c.toNat < 128) (h : Utf16 little bs cs) :
      Utf16 little (pair little c ++ bs) (c :: cs)
  | other {unit c bs cs} (hc : 128 ≤ Char.toNat c) (h : Utf16 little bs cs) :
      Utf16 little (unit ++ bs) (c :: cs)

def utf8Mark : List Char := ['\xEF', '\xBB', '\xBF']

def utf16Mark (little : Bool) : List Char := if little then ['\xFF', '\xFE'] else ['\xFE', '\xFF']

/-- A file reads as a text, a byte order mark aside. -/
def Reads (file s : List Char) : Prop :=
  ∃ mark body, file = mark ++ body ∧
    ((mark = [] ∨ mark = utf8Mark) ∧ KeepsAscii body s ∨
      ∃ little, (mark = [] ∨ mark = utf16Mark little) ∧ Utf16 little body s)

variable {c : Char} {a b m s t w bs cs pre : List Char}

/-! ## What a prolog begins with -/

lemma Misc.append (hs : Misc s) (ht : Misc t) : Misc (s ++ t) := by
  induction hs with
  | nil => exact ht
  | white hc _ ih => exact .white hc ih
  | comment hm _ ih =>
    rw [List.append_assoc]
    exact .comment hm ih
  | instruction hm _ ih =>
    rw [List.append_assoc]
    exact .instruction hm ih

lemma Prolog.append_piece (hpre : Prolog pre) (hm : Piece pre m) : Prolog (pre ++ m) := by
  have hmisc : Misc m ∨ pre = [] ∧ Declaration m := by
    obtain ⟨c, rfl, hc⟩ | hm | hm | hm := hm
    · exact .inl (.white hc .nil)
    · exact .inl (by simpa using Misc.comment hm .nil)
    · exact .inl (by simpa using Misc.instruction hm .nil)
    · exact .inr hm
  obtain hmisc | ⟨rfl, hdeclaration⟩ := hmisc
  · obtain hpre | ⟨d, s, hd, hs, rfl⟩ := hpre
    · exact .inl (hpre.append hmisc)
    · exact .inr ⟨d, s ++ m, hd, hs.append hmisc, by simp⟩
  · exact .inr ⟨m, [], hdeclaration, .nil, by simp⟩

/-- An instruction or a declaration ends where it first can. -/
def Marked (m : List Char) : Prop :=
  ∃ c data, m = ['<', '?'] ++ (c :: data ++ ['?', '>']) ∧ c ≠ '>' ∧ ¬ ['?', '>'] <:+: c :: data

lemma infix_of_infix_append {x : Char} (hx : x ∉ a) (h : x :: w <:+: a ++ b) : x :: w <:+: b := by
  induction a with
  | nil => exact h
  | cons c a ih =>
    obtain hbegins | hin := List.infix_cons_iff.mp h
    · simp only [List.cons_prefix_cons] at hbegins
      exact absurd hbegins.1 (by grind)
    · exact ih (by grind) hin

lemma Instruction.marked (h : Instruction m) : Marked m := by
  obtain ⟨c, name, data, rfl, hc, hname, -, -, -, hend⟩ := h
  have hmark : '?' ∉ c :: name := by
    intro hd
    obtain rfl | hd := List.mem_cons.mp hd
    · exact absurd hc (by decide)
    · exact absurd (hname _ hd) (by decide)
  refine ⟨c, name ++ data, by simp, ?_, fun hin => hend (infix_of_infix_append hmark hin)⟩
  rintro rfl
  exact absurd hc (by decide)

lemma Attribute.notMem {name : List Char} {value : List Char → Prop} (hname : '?' ∉ name)
    (hvalue : ∀ v, value v → '?' ∉ v) (h : Attribute name value s) : '?' ∉ s := by
  obtain ⟨before, left, right, quote, v, rfl, -, hwhite, hquote, hv⟩ := h
  have hv' := hvalue v hv
  have hspace : '?' ∉ before ++ left ++ right := by
    intro hmem
    exact absurd (hwhite _ hmem) (by decide)
  have hquote' : quote ≠ '?' := by
    obtain rfl | rfl := hquote <;> decide
  grind

lemma Declaration.marked (h : Declaration m) : Marked m := by
  obtain ⟨version, encoding, standalone, after, rfl, hversion, hencoding, hstandalone, hafter⟩ := h
  have hdigit : ∀ v, VersionNum v → '?' ∉ v := by
    rintro v ⟨digits, rfl, -, hdigits⟩ hmem
    obtain hmem | hmem := List.mem_append.mp hmem
    · exact absurd hmem (by decide)
    · exact absurd (hdigits _ hmem) (by decide)
  have hname : ∀ v, EncName v → '?' ∉ v := by
    rintro v ⟨c, cs, rfl, hc, hcs⟩ hmem
    obtain rfl | hmem := List.mem_cons.mp hmem
    · exact absurd hc (by decide)
    · exact absurd (hcs _ hmem) (by decide)
  have hyes : ∀ v, YesNo v → '?' ∉ v := by
    rintro v (rfl | rfl) <;> decide
  have h₁ := hversion.notMem (by decide) hdigit
  have h₂ : '?' ∉ encoding := by
    obtain rfl | h := hencoding
    · simp
    · exact h.notMem (by decide) hname
  have h₃ : '?' ∉ standalone := by
    obtain rfl | h := hstandalone
    · simp
    · exact h.notMem (by decide) hyes
  have h₄ : '?' ∉ after := by
    intro hmem
    exact absurd (hafter _ hmem) (by decide)
  have hall : '?' ∉ 'x' :: ("ml".toList ++ (version ++ encoding ++ standalone ++ after)) := by
    have : '?' ∉ "ml".toList := by decide
    grind
  refine ⟨'x', "ml".toList ++ (version ++ encoding ++ standalone ++ after), ?_, by decide, ?_⟩
  · have hxml : "<?xml".toList = ['<', '?'] ++ 'x' :: "ml".toList := by decide
    rw [hxml]
    simp
  · intro hin
    exact hall (hin.subset (by simp))

lemma Piece.ne_nil (h : Piece pre m) : m ≠ [] := by
  have hmarked : Marked m → m ≠ [] := by
    rintro ⟨c, data, rfl, -⟩
    simp
  obtain ⟨c, rfl, -⟩ | ⟨body, rfl, -⟩ | hm | ⟨-, hm⟩ := h
  · simp
  · simp
  · exact hmarked hm.marked
  · exact hmarked hm.marked

/-- A prolog that is not empty begins with white space or with a mark. -/
lemma Prolog.start (h : Prolog s) (hne : s ≠ []) :
    (∃ c t, s = c :: t ∧ isWhite c = true) ∨ ['<', '!', '-', '-'] <+: s ∨ ['<', '?'] <+: s := by
  have hmisc : ∀ m, Misc m → m ≠ [] →
      (∃ c t, m = c :: t ∧ isWhite c = true) ∨ ['<', '!', '-', '-'] <+: m ∨ ['<', '?'] <+: m := by
    intro m hm hne
    cases hm with
    | nil => exact absurd rfl hne
    | white hc hs => exact .inl ⟨_, _, rfl, hc⟩
    | comment hm hs =>
      obtain ⟨body, rfl, -⟩ := hm
      exact .inr (.inl ((List.prefix_append _ _).trans (List.prefix_append _ _)))
    | instruction hm hs =>
      obtain ⟨c, data, rfl, -⟩ := hm.marked
      exact .inr (.inr ((List.prefix_append _ _).trans (List.prefix_append _ _)))
  obtain hm | ⟨d, m, hd, -, rfl⟩ := h
  · exact hmisc s hm hne
  · obtain ⟨c, data, rfl, -⟩ := hd.marked
    exact .inr (.inr ((List.prefix_append _ _).trans (List.prefix_append _ _)))

/-! ## What an encoding keeps -/

/-- A word of ASCII characters. -/
def Ascii (w : List Char) : Prop := (w.all fun c => c.toNat < 128) = true

instance (w : List Char) : Decidable (Ascii w) := inferInstanceAs (Decidable (_ = true))

lemma Ascii.lt {c : Char} (h : Ascii w) (hc : c ∈ w) : c.toNat < 128 := by
  simpa using List.all_eq_true.mp h c hc

lemma Ascii.tail {c : Char} (h : Ascii (c :: w)) : Ascii w := by
  unfold Ascii at h ⊢
  rw [List.all_cons, Bool.and_eq_true] at h
  exact h.2

namespace KeepsAscii

lemma refl (h : Ascii s) : KeepsAscii s s := by
  induction s with
  | nil => exact .nil
  | cons c s ih => exact .ascii (h.lt (by simp)) (ih h.tail)

/-- ASCII bytes read as themselves. -/
lemma eq_of_ascii (h : KeepsAscii bs cs) (hascii : Ascii bs) : bs = cs := by
  induction h with
  | nil => rfl
  | ascii hc _ ih => rw [ih hascii.tail]
  | @other b unit c bs cs hunit hc h ih =>
    have hlow := hascii.lt (c := b) (by simp)
    have hhigh := hunit b (by simp)
    omega

lemma append (h : KeepsAscii a s) (h' : KeepsAscii b t) : KeepsAscii (a ++ b) (s ++ t) := by
  induction h with
  | nil => exact h'
  | ascii hc _ ih => exact .ascii hc ih
  | other hunit hc _ ih =>
    rw [List.append_assoc]
    exact .other hunit hc ih

/-- An ASCII word begins the bytes where it begins the text. -/
lemma prefix_iff (h : KeepsAscii bs cs) (hw : Ascii w) : w <+: bs ↔ w <+: cs := by
  induction w generalizing bs cs with
  | nil => simp
  | cons x w ih =>
    have hx : x.toNat < 128 := hw.lt (by simp)
    cases h with
    | nil => simp
    | ascii hc h =>
      simp only [List.cons_prefix_cons]
      rw [ih h hw.tail]
    | @other b unit c bs cs hunit hc h =>
      have hb := hunit b (by simp)
      simp only [List.cons_append, List.cons_prefix_cons]
      constructor
      · rintro ⟨rfl, -⟩
        omega
      · rintro ⟨rfl, -⟩
        omega

lemma tail {c : Char} (h : KeepsAscii (c :: bs) (c :: cs)) (hc : c.toNat < 128) :
    KeepsAscii bs cs := by
  generalize hb : c :: bs = bs' at h
  cases h with
  | ascii hc' h =>
    cases hb
    exact h
  | other hunit hc' h => omega

/-- An ASCII word is found in the bytes where it is found in the text. -/
lemma find {x : Char} (h : KeepsAscii bs cs) (hw : Ascii (x :: w)) :
    Find.find (x :: w) bs = none ∧ Find.find (x :: w) cs = none ∨
      ∃ a b s t, Find.find (x :: w) bs = some b ∧ Find.find (x :: w) cs = some t ∧
        bs = a ++ b ∧ cs = s ++ t ∧ KeepsAscii a s ∧ KeepsAscii b t := by
  induction h with
  | nil => exact .inl ⟨by simp [Find.find], by simp [Find.find]⟩
  | @ascii c bs cs hc h ih =>
    have hbegins := prefix_iff (.ascii hc h) hw
    by_cases hstart : x :: w <+: c :: bs
    · exact .inr ⟨[], c :: bs, [], c :: cs, Find.find_of_begins hstart,
        Find.find_of_begins (hbegins.mp hstart), rfl, rfl, .nil, .ascii hc h⟩
    · have hstart' : ¬ x :: w <+: c :: cs := fun h => hstart (hbegins.mpr h)
      simp only [Find.find, if_neg hstart, if_neg hstart']
      obtain hnone | ⟨a, b, s, t, hb, ht, rfl, rfl, ha, hbt⟩ := ih
      · exact .inl hnone
      · exact .inr ⟨c :: a, b, c :: s, t, hb, ht, rfl, rfl, .ascii hc ha, hbt⟩
  | @other b unit c bs cs hunit hc h ih =>
    have hx : x.toNat < 128 := hw.lt (by simp)
    have hfirst : x ∉ b :: unit := by
      intro hmem
      have := hunit x hmem
      omega
    have hne : c ≠ x := by
      rintro rfl
      omega
    rw [Find.find_append_of_notMem hfirst, Find.find_cons_of_ne hne]
    obtain hnone | ⟨a, b', s, t, hb, ht, rfl, rfl, ha, hbt⟩ := ih
    · exact .inl hnone
    · exact .inr ⟨b :: unit ++ a, b', c :: s, t, hb, ht, by simp, rfl, .other hunit hc ha, hbt⟩

/-- An ASCII word that stands in the text stands in the bytes. -/
lemma isInfix {x : Char} (h : KeepsAscii bs cs) (hw : Ascii (x :: w))
    (hin : x :: w <:+: cs) : x :: w <:+: bs := by
  obtain ⟨t, ht⟩ := Find.exists_find hin
  obtain ⟨-, hnone⟩ | ⟨a, b, s, t', hb, -, -, -, -, -⟩ := h.find hw
  · rw [hnone] at ht
    cases ht
  · obtain ⟨hsuffix, hbegins⟩ := Find.find_spec hb
    exact hbegins.isInfix.trans hsuffix.isInfix

end KeepsAscii

end Xml
