import Mathlib.Data.Bool.AllAny
import Mathlib.Data.List.Sort
import Mathlib.Data.List.Basic

/-!
# JSON texts with sorted keys

Values as `json.dumps` knows them, and the text it writes with `sort_keys`. The text determines the
value up to the order of the keys: an atom ends where a delimiter stands, a string where its quote
does, and brackets match. A float is known by the text that `repr` gives it.
-/

/-- The characters that may follow a value inside an array or an object. -/
def JsonTree.delimiters : List Char := [',', ']', '\x7d']

/-- A float, by its shortest text: it begins as a number does, holds no delimiter, and is not the
text of an integer. -/
structure PyFloat where
  text : List Char
  starts : ∃ c ∈ text.head?, c.isDigit ∨ c = '-' ∨ c = 'N' ∨ c = 'I'
  plain : ∀ c ∈ text, c ∉ JsonTree.delimiters
  notInt : ∃ c ∈ text, ¬ c.isDigit ∧ c ≠ '-'

instance : DecidableEq PyFloat := fun f g =>
  decidable_of_iff (f.text = g.text) ⟨fun h => by cases f; cases g; simp_all, fun h => by rw [h]⟩

/-- The values without structure, strings apart. -/
inductive JsonAtom
  | null
  | bool (b : Bool)
  | int (i : Int)
  | float (f : PyFloat)
  deriving DecidableEq

inductive JsonTree
  | atom (a : JsonAtom)
  | str (s : String)
  | arr (items : List JsonTree)
  | obj (entries : List (String × JsonTree))

namespace JsonTree

@[match_pattern] abbrev null : JsonTree := .atom .null
@[match_pattern] abbrev bool (b : Bool) : JsonTree := .atom (.bool b)
@[match_pattern] abbrev int (i : Int) : JsonTree := .atom (.int i)
@[match_pattern] abbrev float (f : PyFloat) : JsonTree := .atom (.float f)

/-! ## The text -/

def intText : Int → List Char
  | .ofNat n => Nat.toDigits 10 n
  | .negSucc n => '-' :: Nat.toDigits 10 (n + 1)

def atomText : JsonAtom → List Char
  | .null => ['n', 'u', 'l', 'l']
  | .bool true => ['t', 'r', 'u', 'e']
  | .bool false => ['f', 'a', 'l', 's', 'e']
  | .int i => intText i
  | .float f => f.text

def hexDigit (n : Nat) : Char := if n < 10 then Char.ofNat (48 + n) else Char.ofNat (87 + n)

/-- `\uXXXX`. -/
def unicodeEscape (n : Nat) : List Char :=
  ['\\', 'u', hexDigit (n / 4096), hexDigit (n / 256 % 16), hexDigit (n / 16 % 16),
    hexDigit (n % 16)]

/-- A character beyond the first plane is written as two surrogates. -/
def surrogates (n : Nat) : List Char :=
  unicodeEscape (0xD800 + (n - 0x10000) / 1024) ++ unicodeEscape (0xDC00 + (n - 0x10000) % 1024)

/-- The characters that have an escape of one letter. -/
def shortEscapes : List (Char × Char) :=
  [('"', '"'), ('\\', '\\'), ('\n', 'n'), ('\r', 'r'), ('\t', 't'), ('\x0c', 'f'), ('\x08', 'b')]

def escapeChar (c : Char) : List Char :=
  match shortEscapes.lookup c with
  | some letter => ['\\', letter]
  | none =>
    if 0x20 ≤ c.toNat ∧ c.toNat ≤ 0x7e then [c]
    else if c.toNat < 0x10000 then unicodeEscape c.toNat
    else surrogates c.toNat

def escape (cs : List Char) : List Char := cs.flatMap escapeChar

def quote (s : String) : List Char := '"' :: escape s.toList ++ ['"']

mutual

def render : JsonTree → List Char
  | .atom a => atomText a
  | .str s => quote s
  | .arr items => '[' :: renderItems items ++ [']']
  | .obj entries => '\x7b' :: renderEntries entries ++ ['\x7d']

def renderItems : List JsonTree → List Char
  | [] => []
  | j :: items => render j ++ renderMore items

/-- The items after the first. -/
def renderMore : List JsonTree → List Char
  | [] => []
  | j :: items => [',', ' '] ++ (render j ++ renderMore items)

def renderEntries : List (String × JsonTree) → List Char
  | [] => []
  | (key, j) :: entries => quote key ++ ([':', ' '] ++ (render j ++ renderMoreEntries entries))

def renderMoreEntries : List (String × JsonTree) → List Char
  | [] => []
  | (key, j) :: entries =>
    [',', ' '] ++ (quote key ++ ([':', ' '] ++ (render j ++ renderMoreEntries entries)))

end

/-! ## Escapes -/

variable {r s : List Char}

lemma hexDigit_inj : ∀ n < 16, ∀ m < 16, hexDigit n = hexDigit m → n = m := by decide

lemma unicodeEscape_append_inj {n m : Nat} (hn : n < 65536) (hm : m < 65536)
    (h : unicodeEscape n ++ r = unicodeEscape m ++ s) : n = m ∧ r = s := by
  simp only [unicodeEscape, List.cons_append, List.nil_append, List.cons.injEq, true_and] at h
  obtain ⟨h₁, h₂, h₃, h₄, h₅⟩ := h
  have e₁ := hexDigit_inj _ (by omega) _ (by omega) h₁
  have e₂ := hexDigit_inj _ (by omega) _ (by omega) h₂
  have e₃ := hexDigit_inj _ (by omega) _ (by omega) h₃
  have e₄ := hexDigit_inj _ (by omega) _ (by omega) h₄
  exact ⟨by omega, h₅⟩

lemma toNat_valid (c : Char) : c.toNat < 0xD800 ∨ (0xDFFF < c.toNat ∧ c.toNat < 0x110000) :=
  c.valid

/-- How a character is written. -/
inductive Escape (c : Char) : List Char → Prop
  | short (letter : Char) (h : (c, letter) ∈ shortEscapes) : Escape c ['\\', letter]
  | plain (h : c ≠ '"' ∧ c ≠ '\\') : Escape c [c]
  | unicode (h : c.toNat < 0x10000) : Escape c (unicodeEscape c.toNat)
  | surrogates (h : 0x10000 ≤ c.toNat) : Escape c (surrogates c.toNat)

lemma mem_of_lookup {α β : Type*} [BEq α] [LawfulBEq α] {a : α} {b : β} {xs : List (α × β)}
    (h : xs.lookup a = some b) : (a, b) ∈ xs := by
  induction xs with
  | nil => simp at h
  | cons x xs ih =>
    obtain ⟨k, v⟩ := x
    by_cases hk : a = k
    · subst hk
      simp at h
      simp [h]
    · rw [List.lookup_cons, beq_eq_false_iff_ne.mpr hk] at h
      exact List.mem_cons_of_mem _ (ih h)

lemma escapeChar_cases (c : Char) : Escape c (escapeChar c) := by
  unfold escapeChar
  split
  next letter h => exact .short letter (mem_of_lookup h)
  next h =>
    split
    · refine .plain ⟨?_, ?_⟩ <;> rintro rfl <;> simp [shortEscapes] at h
    · split
      next h => exact .unicode h
      next h => exact .surrogates (by omega)

lemma escape_short_letter : ∀ p ∈ shortEscapes, p.2 ≠ 'u' := by decide

lemma escape_short_inj : ∀ p ∈ shortEscapes, ∀ q ∈ shortEscapes, p.2 = q.2 → p.1 = q.1 := by
  decide

/-- The first surrogate of a character is no character. -/
lemma surrogates_append_inj {n m : Nat} (hn : 0x10000 ≤ n) (hn' : n < 0x110000)
    (hm : 0x10000 ≤ m) (hm' : m < 0x110000) (h : surrogates n ++ r = surrogates m ++ s) :
    n = m ∧ r = s := by
  simp only [surrogates, List.append_assoc] at h
  obtain ⟨hhigh, h⟩ := unicodeEscape_append_inj (by omega) (by omega) h
  obtain ⟨hlow, h⟩ := unicodeEscape_append_inj (by omega) (by omega) h
  exact ⟨by omega, h⟩

lemma not_unicode_append_surrogates {c : Char} {n : Nat} (hc : c.toNat < 0x10000)
    (hn : 0x10000 ≤ n) (hn' : n < 0x110000) :
    unicodeEscape c.toNat ++ r ≠ surrogates n ++ s := by
  intro h
  simp only [surrogates, List.append_assoc] at h
  have := toNat_valid c
  obtain ⟨hhigh, -⟩ := unicodeEscape_append_inj (by omega) (by omega) h
  omega

/-- A character is read back from the front of a text. -/
lemma escapeChar_append_inj {c d : Char} (h : escapeChar c ++ r = escapeChar d ++ s) :
    c = d ∧ r = s := by
  have hcv := toNat_valid c
  have hdv := toNat_valid d
  generalize hx : escapeChar c = x at h
  generalize hy : escapeChar d = y at h
  have hc : Escape c x := hx ▸ escapeChar_cases c
  have hd : Escape d y := hy ▸ escapeChar_cases d
  cases hc with
  | short letter hletter =>
    cases hd with
    | short letter' hletter' =>
      simp only [List.cons_append, List.nil_append, List.cons.injEq, true_and] at h
      exact ⟨escape_short_inj _ hletter _ hletter' h.1, h.2⟩
    | plain hd => exact absurd (List.cons.inj h).1.symm hd.2
    | unicode => simp_all [unicodeEscape, escape_short_letter _ hletter]
    | surrogates => simp_all [surrogates, unicodeEscape, escape_short_letter _ hletter]
  | plain hc =>
    cases hd with
    | short => simp_all
    | plain hd => simpa using h
    | unicode => simp_all [unicodeEscape]
    | surrogates => simp_all [surrogates, unicodeEscape]
  | unicode hc =>
    cases hd with
    | short letter hletter =>
      simp_all [unicodeEscape, (escape_short_letter _ hletter).symm]
    | plain hd => exact absurd (List.cons.inj h).1.symm hd.2
    | unicode hd =>
      obtain ⟨hn, h⟩ := unicodeEscape_append_inj hc hd h
      exact ⟨Char.toNat_inj.mp hn, h⟩
    | surrogates hd => exact absurd h (not_unicode_append_surrogates hc hd (by omega))
  | surrogates hc =>
    cases hd with
    | short letter hletter =>
      simp_all [surrogates, unicodeEscape, (escape_short_letter _ hletter).symm]
    | plain hd => exact absurd (List.cons.inj h).1.symm hd.2
    | unicode hd => exact absurd h.symm (not_unicode_append_surrogates hd hc (by omega))
    | surrogates hd =>
      obtain ⟨hn, h⟩ := surrogates_append_inj hc (by omega) hd (by omega) h
      exact ⟨Char.toNat_inj.mp hn, h⟩

/-- An escaped character does not begin with a quote. -/
lemma escapeChar_ne_quote (c : Char) : escapeChar c ++ r ≠ '"' :: s := by
  intro h
  generalize hx : escapeChar c = x at h
  have hc : Escape c x := hx ▸ escapeChar_cases c
  cases hc <;> simp_all [unicodeEscape, surrogates]

lemma escape_append_inj {cs ds : List Char}
    (h : escape cs ++ '"' :: r = escape ds ++ '"' :: s) : cs = ds ∧ r = s := by
  induction cs generalizing ds with
  | nil =>
    cases ds with
    | nil => simpa [escape] using h
    | cons d ds =>
      simp only [escape, List.flatMap_nil, List.nil_append, List.flatMap_cons,
        List.append_assoc] at h
      exact absurd h.symm (escapeChar_ne_quote d)
  | cons c cs ih =>
    cases ds with
    | nil =>
      simp only [escape, List.flatMap_nil, List.nil_append, List.flatMap_cons,
        List.append_assoc] at h
      exact absurd h (escapeChar_ne_quote c)
    | cons d ds =>
      simp only [escape, List.flatMap_cons, List.append_assoc] at h
      obtain ⟨hcd, hrest⟩ := escapeChar_append_inj h
      obtain ⟨hcs, hrs⟩ := ih hrest
      exact ⟨by rw [hcd, hcs], hrs⟩

/-- A quoted string is read back from the front of a text. -/
lemma quote_append_inj {a b : String} (h : quote a ++ r = quote b ++ s) : a = b ∧ r = s := by
  simp only [quote, List.cons_append, List.append_assoc, List.nil_append, List.cons.injEq,
    true_and] at h
  obtain ⟨hab, h⟩ := escape_append_inj h
  exact ⟨String.toList_inj.mp hab, h⟩

/-! ## Atoms -/

lemma intText_ne_nil (i : Int) : intText i ≠ [] := by
  cases i with
  | ofNat n => exact Nat.toDigits_ne_nil
  | negSucc n => simp [intText]

lemma mem_intText {i : Int} {c : Char} (h : c ∈ intText i) : c.isDigit ∨ c = '-' := by
  cases i with
  | ofNat n => exact .inl (Nat.isDigit_of_mem_toDigits (by omega) (by omega) h)
  | negSucc n =>
    obtain rfl | h := List.mem_cons.mp h
    · exact .inr rfl
    · exact .inl (Nat.isDigit_of_mem_toDigits (by omega) (by omega) h)

lemma toDigits_inj {n m : Nat} (h : Nat.toDigits 10 n = Nat.toDigits 10 m) : n = m := by
  rw [← Nat.ofDigitChars_ten_toDigits (n := n), h, Nat.ofDigitChars_ten_toDigits]

lemma minus_not_mem_toDigits (n : Nat) : '-' ∉ Nat.toDigits 10 n := by
  intro h
  have := Nat.isDigit_of_mem_toDigits (by omega) (by omega) h
  simp [Char.isDigit] at this

lemma intText_inj {i j : Int} (h : intText i = intText j) : i = j := by
  cases i with
  | ofNat n =>
    cases j with
    | ofNat m => exact congrArg Int.ofNat (toDigits_inj h)
    | negSucc m =>
      change Nat.toDigits 10 n = '-' :: Nat.toDigits 10 (m + 1) at h
      exact absurd (by simp [h]) (minus_not_mem_toDigits n)
  | negSucc n =>
    cases j with
    | ofNat m =>
      change '-' :: Nat.toDigits 10 (n + 1) = Nat.toDigits 10 m at h
      exact absurd (by simp [← h]) (minus_not_mem_toDigits m)
    | negSucc m =>
      have := toDigits_inj (List.cons.inj h).2
      exact congrArg Int.negSucc (by omega)

/-- An atom does not begin as a string, an array or an object does. -/
def AtomStart (cs : List Char) : Prop := ∃ c ∈ cs.head?, c ≠ '"' ∧ c ≠ '[' ∧ c ≠ '\x7b'

lemma intText_start (i : Int) : ∃ c ∈ (intText i).head?, c.isDigit ∨ c = '-' := by
  obtain ⟨c, cs, h⟩ := List.exists_cons_of_ne_nil (intText_ne_nil i)
  have hmem : c ∈ intText i := by simp [h]
  exact ⟨c, by simp [h], mem_intText hmem⟩

lemma atomText_start (a : JsonAtom) : AtomStart (atomText a) := by
  have hnumber : ∀ c : Char, c.isDigit ∨ c = '-' ∨ c = 'N' ∨ c = 'I' →
      c ≠ '"' ∧ c ≠ '[' ∧ c ≠ '\x7b' := by
    intro c hc
    refine ⟨?_, ?_, ?_⟩ <;> rintro rfl <;> revert hc <;> decide
  cases a with
  | null => exact ⟨'n', rfl, by decide⟩
  | bool b => cases b with
    | true => exact ⟨'t', rfl, by decide⟩
    | false => exact ⟨'f', rfl, by decide⟩
  | int i =>
    obtain ⟨c, hc, hstart⟩ := intText_start i
    exact ⟨c, hc, hnumber c (hstart.imp_right .inl)⟩
  | float f =>
    obtain ⟨c, hc, hstart⟩ := f.starts
    exact ⟨c, hc, hnumber c hstart⟩

lemma delimiter_not_mem_atomText {a : JsonAtom} {c : Char} (h : c ∈ atomText a) :
    c ∉ delimiters := by
  cases a with
  | null => exact List.all_iff_forall_prop (p := (· ∉ delimiters)).mp (by decide) c h
  | bool b =>
    cases b <;> exact List.all_iff_forall_prop (p := (· ∉ delimiters)).mp (by decide) c h
  | int i =>
    intro hc
    have hint := mem_intText h
    simp only [delimiters, List.mem_cons, List.not_mem_nil, or_false] at hc
    obtain rfl | rfl | rfl := hc <;> revert hint <;> decide
  | float f => exact f.plain c h

/-- A word is no number. -/
lemma number_ne_word {cs : List Char} {w : Char} {ws : List Char}
    (hstart : ∃ c ∈ cs.head?, c.isDigit ∨ c = '-' ∨ c = 'N' ∨ c = 'I')
    (hw : w = 'n' ∨ w = 't' ∨ w = 'f') : cs ≠ w :: ws := by
  rintro rfl
  obtain ⟨c, hc, hstart⟩ := hstart
  obtain rfl : w = c := by simpa using hc
  obtain rfl | rfl | rfl := hw <;> revert hstart <;> decide

/-- The texts of integers and of floats differ. -/
lemma intText_ne_float (i : Int) (f : PyFloat) : intText i ≠ f.text := by
  intro h
  obtain ⟨c, hc, hdigit, hminus⟩ := f.notInt
  obtain hc | hc := mem_intText (h ▸ hc)
  · exact hdigit hc
  · exact hminus hc

lemma atomText_inj {a b : JsonAtom} (h : atomText a = atomText b) : a = b := by
  have hint : ∀ i, ∃ c ∈ (intText i).head?, c.isDigit ∨ c = '-' ∨ c = 'N' ∨ c = 'I' := by
    intro i
    obtain ⟨c, hc, hstart⟩ := intText_start i
    exact ⟨c, hc, by tauto⟩
  cases a with
  | null =>
    cases b with
    | null => rfl
    | bool b => cases b <;> simp [atomText] at h
    | int i => exact absurd h.symm (number_ne_word (hint i) (by simp))
    | float f => exact absurd h.symm (number_ne_word f.starts (by simp))
  | bool a =>
    cases b with
    | null => cases a <;> simp [atomText] at h
    | bool b => cases a <;> cases b <;> simp_all [atomText]
    | int i => cases a <;> exact absurd h.symm (number_ne_word (hint i) (by simp))
    | float f => cases a <;> exact absurd h.symm (number_ne_word f.starts (by simp))
  | int i =>
    cases b with
    | null => exact absurd h (number_ne_word (hint i) (by simp))
    | bool b => cases b <;> exact absurd h (number_ne_word (hint i) (by simp))
    | int j => rw [intText_inj h]
    | float f => exact absurd h (intText_ne_float i f)
  | float f =>
    cases b with
    | null => exact absurd h (number_ne_word f.starts (by simp))
    | bool b => cases b <;> exact absurd h (number_ne_word f.starts (by simp))
    | int j => exact absurd h.symm (intText_ne_float j f)
    | float g =>
      obtain rfl : f = g := by cases f; cases g; simpa [atomText] using h
      rfl

/-- A text that follows a value: none, or one that begins with a delimiter. -/
def Follows (r : List Char) : Prop := ∀ c ∈ r.head?, c ∈ delimiters

lemma atomText_append_inj {a b : JsonAtom} (hr : Follows r) (hs : Follows s)
    (h : atomText a ++ r = atomText b ++ s) : a = b ∧ r = s := by
  have hcut : ∀ (a : JsonAtom) (r : List Char), Follows r →
      (atomText a ++ r).takeWhile (fun c => decide (c ∉ delimiters)) = atomText a := by
    intro a r hr
    rw [List.takeWhile_append_of_pos (by
      intro c hc
      simpa using delimiter_not_mem_atomText hc)]
    cases r with
    | nil => simp
    | cons c r => simp [hr c rfl]
  have htext : atomText a = atomText b := by rw [← hcut a r hr, h, hcut b s hs]
  exact ⟨atomText_inj htext, List.append_cancel_left (htext ▸ h)⟩

/-! ## Values -/

lemma quote_start (a : String) : (quote a).head? = some '"' := rfl

/-- The four shapes begin with different characters. -/
lemma atomText_ne {a : JsonAtom} {c : Char} {cs : List Char}
    (hc : c = '"' ∨ c = '[' ∨ c = '\x7b') : atomText a ++ r ≠ c :: cs := by
  intro h
  obtain ⟨d, hd, hstart⟩ := atomText_start a
  have : d = c := by
    have := congrArg List.head? h
    rw [List.head?_append, Option.mem_def.mp hd] at this
    simpa using this
  grind

lemma render_ne_delimiter (j : JsonTree) {c : Char} {cs : List Char} (hc : c ∈ delimiters) :
    render j ++ r ≠ c :: cs := by
  cases j with
  | atom a =>
    intro h
    obtain ⟨d, hd, -⟩ := atomText_start a
    obtain ⟨ds, hds⟩ := List.head?_eq_some_iff.mp hd
    rw [render, hds] at h
    have hmem : d ∈ atomText a := by simp [hds]
    obtain rfl : d = c := (List.cons.inj h).1
    exact delimiter_not_mem_atomText hmem hc
  | str a | arr items | obj entries =>
    rintro h
    obtain rfl := (List.cons.inj h).1
    revert hc
    decide

lemma follows_cons {c : Char} {cs : List Char} (hc : c ∈ delimiters) : Follows (c :: cs) := by
  intro d hd
  obtain rfl : c = d := by simpa using hd
  exact hc

lemma follows_renderMore (xs : List JsonTree) : Follows (renderMore xs ++ ']' :: r) := by
  cases xs <;> exact follows_cons (by decide)

lemma follows_renderMoreEntries (xs : List (String × JsonTree)) :
    Follows (renderMoreEntries xs ++ '\x7d' :: r) := by
  cases xs <;> exact follows_cons (by decide)

mutual

/-- A value is read back from the front of a text, where its end shows. -/
theorem render_append_inj : ∀ (a b : JsonTree) {r s : List Char}, Follows r → Follows s →
    render a ++ r = render b ++ s → a = b ∧ r = s
  | .atom a, b, r, s, hr, hs, h => by
    cases b with
    | atom b =>
      obtain ⟨hab, hrs⟩ := atomText_append_inj hr hs h
      exact ⟨by rw [hab], hrs⟩
    | str b => exact absurd h (atomText_ne (.inl rfl))
    | arr items => exact absurd h (atomText_ne (.inr (.inl rfl)))
    | obj entries => exact absurd h (atomText_ne (.inr (.inr rfl)))
  | .str a, b, r, s, hr, hs, h => by
    cases b with
    | atom b => exact absurd h.symm (atomText_ne (.inl rfl))
    | str b =>
      obtain ⟨hab, hrs⟩ := quote_append_inj h
      exact ⟨by rw [hab], hrs⟩
    | arr items => simp [render, quote] at h
    | obj entries => simp [render, quote] at h
  | .arr items, b, r, s, hr, hs, h => by
    cases b with
    | atom b => exact absurd h.symm (atomText_ne (.inr (.inl rfl)))
    | str b => simp [render, quote] at h
    | arr items' =>
      simp only [render, List.cons_append, List.append_assoc, List.nil_append, List.cons.injEq,
        true_and] at h
      obtain ⟨hab, hrs⟩ := renderItems_append_inj items items' h
      exact ⟨by rw [hab], hrs⟩
    | obj entries => simp [render] at h
  | .obj entries, b, r, s, hr, hs, h => by
    cases b with
    | atom b => exact absurd h.symm (atomText_ne (.inr (.inr rfl)))
    | str b => simp [render, quote] at h
    | arr items => simp [render] at h
    | obj entries' =>
      simp only [render, List.cons_append, List.append_assoc, List.nil_append, List.cons.injEq,
        true_and] at h
      obtain ⟨hab, hrs⟩ := renderEntries_append_inj entries entries' h
      exact ⟨by rw [hab], hrs⟩

theorem renderItems_append_inj : ∀ (xs ys : List JsonTree) {r s : List Char},
    renderItems xs ++ ']' :: r = renderItems ys ++ ']' :: s → xs = ys ∧ r = s
  | [], ys, r, s, h => by
    cases ys with
    | nil => exact ⟨rfl, (List.cons.inj h).2⟩
    | cons y ys =>
      rw [renderItems, renderItems, List.append_assoc] at h
      exact absurd h.symm (render_ne_delimiter y (by decide))
  | x :: xs, ys, r, s, h => by
    cases ys with
    | nil =>
      rw [renderItems, renderItems, List.append_assoc] at h
      exact absurd h (render_ne_delimiter x (by decide))
    | cons y ys =>
      simp only [renderItems, List.append_assoc] at h
      obtain ⟨hxy, hmore⟩ :=
        render_append_inj x y (follows_renderMore xs) (follows_renderMore ys) h
      obtain ⟨hxs, hrs⟩ := renderMore_append_inj xs ys hmore
      exact ⟨by rw [hxy, hxs], hrs⟩

theorem renderMore_append_inj : ∀ (xs ys : List JsonTree) {r s : List Char},
    renderMore xs ++ ']' :: r = renderMore ys ++ ']' :: s → xs = ys ∧ r = s
  | [], ys, r, s, h => by
    cases ys with
    | nil => exact ⟨rfl, (List.cons.inj h).2⟩
    | cons y ys => simp [renderMore] at h
  | x :: xs, ys, r, s, h => by
    cases ys with
    | nil => simp [renderMore] at h
    | cons y ys =>
      simp only [renderMore, List.append_assoc, List.cons_append, List.nil_append,
        List.cons.injEq, true_and] at h
      obtain ⟨hxy, hmore⟩ :=
        render_append_inj x y (follows_renderMore xs) (follows_renderMore ys) h
      obtain ⟨hxs, hrs⟩ := renderMore_append_inj xs ys hmore
      exact ⟨by rw [hxy, hxs], hrs⟩

theorem renderEntries_append_inj : ∀ (xs ys : List (String × JsonTree)) {r s : List Char},
    renderEntries xs ++ '\x7d' :: r = renderEntries ys ++ '\x7d' :: s → xs = ys ∧ r = s
  | [], ys, r, s, h => by
    cases ys with
    | nil => exact ⟨rfl, (List.cons.inj h).2⟩
    | cons y ys => simp [renderEntries, quote] at h
  | (k, x) :: xs, ys, r, s, h => by
    cases ys with
    | nil => simp [renderEntries, quote] at h
    | cons y ys =>
      simp only [renderEntries, List.append_assoc] at h
      obtain ⟨hk, hvalue⟩ := quote_append_inj h
      simp only [List.cons_append, List.nil_append, List.cons.injEq, true_and] at hvalue
      obtain ⟨hxy, hmore⟩ := render_append_inj x y.2 (follows_renderMoreEntries xs)
        (follows_renderMoreEntries ys) hvalue
      obtain ⟨hxs, hrs⟩ := renderMoreEntries_append_inj xs ys hmore
      exact ⟨by rw [hk, hxy, hxs], hrs⟩

theorem renderMoreEntries_append_inj : ∀ (xs ys : List (String × JsonTree)) {r s : List Char},
    renderMoreEntries xs ++ '\x7d' :: r = renderMoreEntries ys ++ '\x7d' :: s → xs = ys ∧ r = s
  | [], ys, r, s, h => by
    cases ys with
    | nil => exact ⟨rfl, (List.cons.inj h).2⟩
    | cons y ys => simp [renderMoreEntries] at h
  | (k, x) :: xs, ys, r, s, h => by
    cases ys with
    | nil => simp [renderMoreEntries] at h
    | cons y ys =>
      simp only [renderMoreEntries, List.append_assoc, List.cons_append, List.nil_append,
        List.cons.injEq, true_and] at h
      obtain ⟨hk, hvalue⟩ := quote_append_inj h
      simp only [List.cons.injEq, true_and] at hvalue
      obtain ⟨hxy, hmore⟩ := render_append_inj x y.2 (follows_renderMoreEntries xs)
        (follows_renderMoreEntries ys) hvalue
      obtain ⟨hxs, hrs⟩ := renderMoreEntries_append_inj xs ys hmore
      exact ⟨by rw [hk, hxy, hxs], hrs⟩

end

/-- The text of a value determines it. -/
theorem render_inj {a b : JsonTree} (h : render a = render b) : a = b :=
  (render_append_inj a b (r := []) (s := []) (by simp [Follows]) (by simp [Follows])
    (by simpa using h)).1

/-! ## The order of keys -/

/-- The entries of a dictionary, by their keys. -/
def sortKeys (entries : List (String × JsonTree)) : List (String × JsonTree) :=
  entries.insertionSort fun a b => a.1 ≤ b.1

mutual

/-- The value with the keys of each object in order. -/
def sorted : JsonTree → JsonTree
  | .atom a => .atom a
  | .str s => .str s
  | .arr items => .arr (sortedItems items)
  | .obj entries => .obj (sortKeys (sortedEntries entries))

def sortedItems : List JsonTree → List JsonTree
  | [] => []
  | j :: items => sorted j :: sortedItems items

def sortedEntries : List (String × JsonTree) → List (String × JsonTree)
  | [] => []
  | (key, j) :: entries => (key, sorted j) :: sortedEntries entries

end

/-- `json.dumps(value, sort_keys=True)`. -/
def dumps (j : JsonTree) : String := String.ofList (render (sorted j))

/-- The text with sorted keys determines the value up to the order of its keys. -/
theorem dumps_inj {a b : JsonTree} : dumps a = dumps b ↔ sorted a = sorted b := by
  constructor
  · intro h
    exact render_inj (String.ofList_inj.mp h)
  · intro h
    rw [dumps, dumps, h]

lemma sortedItems_eq (items : List JsonTree) : sortedItems items = items.map sorted := by
  induction items with
  | nil => rfl
  | cons j items ih => rw [sortedItems, ih, List.map_cons]

lemma sortedEntries_eq (entries : List (String × JsonTree)) :
    sortedEntries entries = entries.map fun e => (e.1, sorted e.2) := by
  induction entries with
  | nil => rfl
  | cons e entries ih => rw [sortedEntries, ih, List.map_cons]

/-- Python's truth of a value. -/
def truthy : JsonTree → Bool
  | .null => false
  | .bool b => b
  | .int i => i != 0
  | .float f => f.text != ['0', '.', '0'] && f.text != ['-', '0', '.', '0']
  | .str s => s != ""
  | .arr items => !items.isEmpty
  | .obj entries => !entries.isEmpty

/-- `value.get(key)`, of a dictionary. -/
def get? (j : JsonTree) (key : String) : Option JsonTree :=
  match j with
  | .obj entries => entries.lookup key
  | _ => none

/-- `value.get(key)` of a dictionary, `null` when the key is absent. -/
def get (j : JsonTree) (key : String) : JsonTree := (j.get? key).getD null

lemma lookup_eq_some_iff {β : Type*} {k : String} {b : β} {es : List (String × β)}
    (h : (es.map Prod.fst).Nodup) : es.lookup k = some b ↔ (k, b) ∈ es := by
  constructor
  · exact mem_of_lookup
  · intro hmem
    induction es with
    | nil => simp at hmem
    | cons e es ih =>
      obtain ⟨k', b'⟩ := e
      rw [List.map_cons, List.nodup_cons] at h
      obtain heq | hrest := List.mem_cons.mp hmem
      · cases heq
        simp
      · have hne : k ≠ k' := by
          rintro rfl
          have hkey : k ∈ es.map Prod.fst := List.mem_map_of_mem (f := Prod.fst) hrest
          exact h.1 hkey
        rw [List.lookup_cons, beq_eq_false_iff_ne.mpr hne]
        exact ih h.2 hrest

/-- A dictionary gives the same value for a key however its keys are ordered. -/
lemma lookup_perm {β : Type*} {es fs : List (String × β)} (hperm : es.Perm fs)
    (h : (es.map Prod.fst).Nodup) (k : String) : es.lookup k = fs.lookup k := by
  have h' : (fs.map Prod.fst).Nodup := (hperm.map Prod.fst).nodup_iff.mp h
  ext b
  rw [lookup_eq_some_iff h, lookup_eq_some_iff h', hperm.mem_iff]

lemma lookup_map {β γ : Type*} (f : β → γ) (es : List (String × β)) (k : String) :
    (es.map fun e => (e.1, f e.2)).lookup k = (es.lookup k).map f := by
  induction es with
  | nil => rfl
  | cons e es ih =>
    obtain ⟨k', b⟩ := e
    by_cases hk : k = k'
    · simp [hk]
    · simp [List.lookup_cons, beq_eq_false_iff_ne.mpr hk, ih]

/-- The value of a key, when the keys of an object are put in order. -/
theorem get?_sorted {entries : List (String × JsonTree)} (h : (entries.map Prod.fst).Nodup)
    (key : String) : (sorted (.obj entries)).get? key = ((obj entries).get? key).map sorted := by
  have hkeys : ((sortedEntries entries).map Prod.fst).Nodup := by
    rw [sortedEntries_eq, List.map_map]
    exact h
  have hperm : (sortKeys (sortedEntries entries)).Perm (sortedEntries entries) :=
    List.perm_insertionSort _ _
  calc (sortKeys (sortedEntries entries)).lookup key
      = (sortedEntries entries).lookup key := (lookup_perm hperm.symm hkeys key).symm
    _ = (entries.lookup key).map sorted := by rw [sortedEntries_eq, lookup_map]

end JsonTree
