import Mathlib.Data.List.TakeWhile
import MeshPipeline.Library.Text
import MeshPipeline.Library.XmlProlog

/-!
# The prolog check of a COLLADA file

Before a file goes to the XML parser its head is looked at: what comes before the first element is
stepped over, and refused where it declares a document type or an entity, or where the first element
is not a COLLADA root. A byte is the character of its number.
-/

namespace MeshPipeline.Collada

open Find

abbrev Data := List Char

def headBytes : ℕ := 64 * 1024

/-- The bytes that are stripped from the front: those of the byte order mark, and white space. -/
def isLead (c : Char) : Bool := ['\xEF', '\xBB', '\xBF', ' ', '\t', '\r', '\n'].contains c

def declarations : List Data := ["<!DOCTYPE".toList, "<!ENTITY".toList]

/-! ## The root tag -/

def isWordChar (c : Char) : Bool := c.isAlphanum || c = '_'

/-- `COLLADA`, and a character that ends a name. -/
def namesRoot (s : Data) : Bool :=
  "COLLADA".toList.isPrefixOf s &&
    (s.drop 7).head?.any fun c =>
      [' ', '\t', '\n', '\r', '\x0B', '\x0C', '>', '/'].contains c

/-- `_ROOT_TAG`: a name space, if there is one, ends at its colon. -/
def rootTag : Data → Bool
  | '<' :: s =>
    namesRoot s || (s.head?.any fun c => c.isAlpha || c = '_') &&
      match s.tail.dropWhile fun c => isWordChar c || c = '.' || c = '-' with
      | ':' :: t => namesRoot t
      | _ => false
  | _ => false

/-! ## Stepping over the prolog -/

/-- What a round of `_first_element_at` comes to: nothing more, an element, or a mark that it steps
over and the text that it goes on with. -/
inductive Step
  | stuck
  | element (start : Data)
  | past (start next : Data)
  deriving DecidableEq

/-- The search goes on one byte after the place where the end of a mark is found. -/
def close (mark start : Data) : Step :=
  match find mark start with
  | none => .stuck
  | some found => .past start (found.drop 1)

def step (text : Data) : Step :=
  match find ['<'] text with
  | none => .stuck
  | some start =>
    if ['<', '?'] <+: start then close ['?', '>'] start
    else if ['<', '!', '-', '-'] <+: start then close ['-', '-', '>'] start
    else if ['<', '!'] <+: start then close ['>'] start
    else .element start

lemma close_spec {mark start s next : Data} (hmark : mark ≠ [])
    (h : close mark start = .past s next) :
    s = start ∧ ∃ found, find mark start = some found ∧ next = found.drop 1 ∧ found ≠ [] := by
  unfold close at h
  split at h
  · cases h
  · next found hfound =>
    cases h
    refine ⟨rfl, found, hfound, rfl, ?_⟩
    rintro rfl
    exact hmark (List.prefix_nil.mp (find_spec hfound).2)

/-- A step goes on with less text. -/
lemma step_past {text start next : Data} (h : step text = .past start next) :
    start <:+ text ∧ next <:+ start ∧ next.length < start.length := by
  unfold step at h
  split at h
  · cases h
  · next s hs =>
    have hsuffix := (find_spec hs).1
    have hclose : ∀ mark : Data, mark ≠ [] → close mark s = .past start next →
        start <:+ text ∧ next <:+ start ∧ next.length < start.length := by
      intro mark hmark hclose
      obtain ⟨rfl, found, hfound, rfl, hne⟩ := close_spec hmark hclose
      have hend := (find_spec hfound).1
      refine ⟨hsuffix, (List.drop_suffix 1 found).trans hend, ?_⟩
      have := hend.length_le
      have := List.length_pos_of_ne_nil hne
      rw [List.length_drop]
      omega
    split at h
    · exact hclose _ (by decide) h
    · split at h
      · exact hclose _ (by decide) h
      · split at h
        · exact hclose _ (by decide) h
        · cases h

lemma step_lt {text start next : Data} (h : step text = .past start next) :
    next.length < text.length := by
  obtain ⟨hsuffix, -, hlt⟩ := step_past h
  exact hlt.trans_le hsuffix.length_le

/-- The text from the first element on. -/
def firstElement (text : Data) : Option Data :=
  match h : step text with
  | .stuck => none
  | .element start => some start
  | .past _ next => firstElement next
termination_by text.length
decreasing_by exact step_lt h

/-- The marks that are stepped over, each with the text after it. -/
def marks (text : Data) : List Data :=
  match h : step text with
  | .stuck | .element _ => []
  | .past start next => start :: marks next
termination_by text.length
decreasing_by exact step_lt h

/-- `_first_element_at`. -/
def firstElementAt (text : Data) : Option ℕ :=
  (firstElement text).map fun rest => text.length - rest.length

def noRoot : String := "the file is not a COLLADA document (no root element where one belongs)"

def declaresEntities : String :=
  "the COLLADA file declares XML entities, which a COLLADA model never needs"

def otherRoot : String := "the file is not a COLLADA document (its root element is not <COLLADA>)"

def prologRefusal (head : Data) : String :=
  let text := head.dropWhile isLead
  match firstElementAt text with
  | none => noRoot
  | some pos =>
    if declarations.any fun d => decide (d <:+: text.take pos) then declaresEntities
    else if !rootTag (text.drop pos) then otherRoot
    else ""

end MeshPipeline.Collada

/-!
## No document type declaration behind the check

What the check steps over is what a parser reads as prolog, or the parser stops in it; so a file
that is accepted has no document type declaration for the parser to meet. This leaves out the
comments that the check ends at the hyphens that open them.
-/

namespace MeshPipeline.Collada

open Xml Find

variable {c : Char} {m r s text rest start next pre post : Data}

/-- A comment whose end is found in its own opening. -/
def SelfClosed (start : Data) : Prop := ['<', '!', '-', '-', '>'] <+: start ∨ ['<', '!', '-', '-', '-', '>'] <+: start

/-- No comment that is stepped over closes itself. -/
def Opened (text : Data) : Prop := ∀ start ∈ marks text, ¬ SelfClosed start

/-! ## Rounds -/

lemma firstElement_stuck (h : step text = .stuck) : firstElement text = none := by
  rw [firstElement]
  split <;> simp_all

lemma firstElement_element (h : step text = .element start) : firstElement text = some start := by
  rw [firstElement]
  split <;> simp_all

lemma firstElement_past (h : step text = .past start next) :
    firstElement text = firstElement next := by
  rw [firstElement]
  split <;> simp_all

lemma marks_past (h : step text = .past start next) : marks text = start :: marks next := by
  rw [marks]
  split <;> simp_all

lemma marks_of_not_past (h : ∀ start next, step text ≠ .past start next) : marks text = [] := by
  rw [marks]
  split <;> simp_all

lemma step_cons_of_ne (h : c ≠ '<') : step (c :: s) = step s := by
  unfold step
  rw [find_cons_of_ne h]

/-- At a bracket the mark decides. -/
lemma step_bracket (s : Data) : step ('<' :: s) =
    if ['?'] <+: s then close ['?', '>'] ('<' :: s)
    else if ['!', '-', '-'] <+: s then close ['-', '-', '>'] ('<' :: s)
    else if ['!'] <+: s then close ['>'] ('<' :: s)
    else .element ('<' :: s) := by
  have hfind : find ['<'] ('<' :: s) = some ('<' :: s) := find_of_begins (by simp)
  unfold step
  rw [hfind]
  simp only [List.cons_prefix_cons, true_and]

lemma firstElement_cons_of_ne (h : c ≠ '<') : firstElement (c :: s) = firstElement s := by
  have hstep := step_cons_of_ne (s := s) h
  cases hs : step s with
  | stuck => rw [firstElement_stuck hs, firstElement_stuck (hstep.trans hs)]
  | element start => rw [firstElement_element hs, firstElement_element (hstep.trans hs)]
  | past start next => rw [firstElement_past hs, firstElement_past (hstep.trans hs)]

lemma marks_cons_of_ne (h : c ≠ '<') : marks (c :: s) = marks s := by
  have hstep := step_cons_of_ne (s := s) h
  cases hs : step s with
  | stuck | element start =>
    have hnone : marks s = [] := marks_of_not_past (by simp [hs])
    rw [hnone, marks_of_not_past (by simp [hstep, hs])]
  | past start next => rw [marks_past hs, marks_past (hstep.trans hs)]

/-- What is answered is an end of the text. -/
lemma firstElement_suffix (h : firstElement text = some rest) : rest <:+ text := by
  induction hn : text.length using Nat.strong_induction_on generalizing text with
  | h n ih =>
    cases hs : step text with
    | stuck =>
      rw [firstElement_stuck hs] at h
      cases h
    | element start =>
      rw [firstElement_element hs] at h
      cases h
      unfold step at hs
      split at hs
      · cases hs
      · next found hfound =>
        have hend := (find_spec hfound).1
        simp only [close] at hs
        split at hs
        · split at hs <;> cases hs
        · split at hs
          · split at hs <;> cases hs
          · split at hs
            · split at hs <;> cases hs
            · cases hs
              exact hend
    | past start next =>
      obtain ⟨hstart, hnext, -⟩ := step_past hs
      rw [firstElement_past hs] at h
      exact (ih next.length (hn ▸ step_lt hs) h rfl).trans (hnext.trans hstart)

/-! ## The pieces of a prolog -/

lemma step_marked (h : Marked m) : step (m ++ r) = .past (m ++ r) ('>' :: r) := by
  obtain ⟨c, data, rfl, hc, hend⟩ := h
  have hnone : ¬ ['?', '>'] <:+: '<' :: '?' :: c :: data := by
    rw [List.infix_cons_iff, List.infix_cons_iff]
    simp only [List.cons_prefix_cons]
    rintro (⟨h, -⟩ | ⟨-, h, -⟩ | hin)
    · exact absurd h (by decide)
    · exact hc h.symm
    · exact hend hin
  have hfind := find_of_not_infix (s := r) (by decide) hnone
  have hshape : ['<', '?'] ++ (c :: data ++ ['?', '>']) ++ r =
      '<' :: '?' :: c :: data ++ (['?', '>'] ++ r) := by simp
  rw [hshape, List.cons_append, step_bracket, if_pos (by simp), close, ← List.cons_append, hfind]
  rfl

lemma step_begins (h : ['<', '!', '-', '-'] <+: s) : step s = close ['-', '-', '>'] s := by
  obtain ⟨t, rfl⟩ := h
  rw [List.cons_append, step_bracket]
  simp

lemma exists_step_comment (h : Comment m) : ∃ next, step (m ++ r) = .past (m ++ r) next := by
  obtain ⟨body, rfl, -, -⟩ := h
  have hend : ['-', '-', '>'] <:+: ['<', '!', '-', '-'] ++ (body ++ ['-', '-', '>']) ++ r :=
    ⟨['<', '!', '-', '-'] ++ body, r, by simp⟩
  obtain ⟨found, hfound⟩ := exists_find hend
  rw [step_begins ((List.prefix_append _ _).trans (List.prefix_append _ _)), close, hfound]
  exact ⟨_, rfl⟩

lemma step_comment (h : Comment m) (hopen : ¬ SelfClosed (m ++ r)) :
    step (m ++ r) = .past (m ++ r) ('-' :: '>' :: r) := by
  obtain ⟨body, rfl, -, hend⟩ := h
  have hnone : ¬ ['-', '-', '>'] <:+: ['<', '!', '-', '-'] ++ body := by
    unfold SelfClosed at hopen
    simp only [List.cons_append, List.nil_append, List.infix_cons_iff, List.cons_prefix_cons]
    rintro (⟨h, -⟩ | ⟨h, -⟩ | ⟨-, -, hbegin⟩ | ⟨-, hbegin⟩ | hin)
    · exact absurd h (by decide)
    · exact absurd h (by decide)
    · obtain ⟨t, rfl⟩ := hbegin
      exact hopen (.inl (by simp))
    · obtain ⟨t, rfl⟩ := hbegin
      exact hopen (.inr (by simp))
    · -- two hyphens would stand in the body
      have htwo : ['-', '-'] <:+: body := List.IsInfix.trans (by decide) hin
      exact hend (htwo.trans (List.prefix_append _ _).isInfix)
  have hfind := find_of_not_infix (s := r) (by decide) hnone
  have hshape : ['<', '!', '-', '-'] ++ (body ++ ['-', '-', '>']) ++ r =
      ['<', '!', '-', '-'] ++ body ++ (['-', '-', '>'] ++ r) := by simp
  rw [step_begins ((List.prefix_append _ _).trans (List.prefix_append _ _)), close]
  rw [hshape, hfind]
  rfl

/-- A name after the bracket begins an element. -/
lemma step_element (hc : isNameStart c = true) :
    step ('<' :: c :: r) = .element ('<' :: c :: r) := by
  have hmark : ∀ d, isNameStart d = false → d ≠ c := by
    rintro d hd rfl
    rw [hc] at hd
    cases hd
  have hask : '?' ≠ c := hmark '?' (by decide)
  have hbang : '!' ≠ c := hmark '!' (by decide)
  rw [step_bracket]
  simp [hask, hbang]

/-- A piece of a prolog is stepped over. -/
lemma firstElement_piece (hm : Piece pre m) (hopen : Opened (m ++ r)) :
    firstElement (m ++ r) = firstElement r ∧ Opened r := by
  have hmarked : Marked m → firstElement (m ++ r) = firstElement r ∧ Opened r := by
    intro hm
    have hstep := step_marked (r := r) hm
    rw [firstElement_past hstep, firstElement_cons_of_ne (by decide)]
    refine ⟨rfl, ?_⟩
    intro start hstart
    apply hopen
    rw [marks_past hstep, marks_cons_of_ne (by decide)]
    exact List.mem_cons_of_mem _ hstart
  obtain ⟨c, rfl, hc⟩ | hm | hm | ⟨-, hm⟩ := hm
  · have hne : c ≠ '<' := by
      rintro rfl
      exact absurd hc (by decide)
    refine ⟨firstElement_cons_of_ne hne, ?_⟩
    intro start hstart
    apply hopen
    rwa [List.cons_append, List.nil_append, marks_cons_of_ne hne]
  · by_cases hself : SelfClosed (m ++ r)
    · -- a comment that closes itself is a mark, whatever its end is
      obtain ⟨next, hstep⟩ := exists_step_comment (r := r) hm
      refine absurd hself (hopen (m ++ r) ?_)
      rw [marks_past hstep]
      exact List.mem_cons_self
    · have hstep := step_comment hm hself
      rw [firstElement_past hstep, firstElement_cons_of_ne (by decide),
        firstElement_cons_of_ne (by decide)]
      refine ⟨rfl, ?_⟩
      intro start hstart
      apply hopen
      rw [marks_past hstep, marks_cons_of_ne (by decide), marks_cons_of_ne (by decide)]
      exact List.mem_cons_of_mem _ hstart
  · exact hmarked hm.marked
  · exact hmarked hm.marked

/-- Before the first element stands a prolog, or a parser stops there. -/
theorem reads_or_stops (hpre : Prolog pre) (hopen : Opened s) (h : firstElement s = some rest) :
    ∃ before, s = before ++ rest ∧
      (Prolog (pre ++ before) ∨
        ∃ q, Stops (pre ++ s) q ∧ q <+: pre ++ before ∧ q ≠ pre ++ before) := by
  induction hn : s.length using Nat.strong_induction_on generalizing s pre with
  | h n ih =>
    by_cases hpiece : ∃ m r, Piece pre m ∧ s = m ++ r ∧ m ≠ []
    · obtain ⟨m, r, hm, rfl, hne⟩ := hpiece
      obtain ⟨hsame, hopen'⟩ := firstElement_piece hm hopen
      have hlt : r.length < n := by
        have := List.length_pos_of_ne_nil hne
        rw [← hn, List.length_append]
        omega
      obtain ⟨before, rfl, hbefore⟩ := ih r.length hlt (hpre.append_piece hm) hopen' (hsame ▸ h) rfl
      refine ⟨m ++ before, by simp, ?_⟩
      simpa only [List.append_assoc] using hbefore
    · obtain ⟨before, hbefore⟩ := firstElement_suffix h
      refine ⟨before, hbefore.symm, ?_⟩
      by_cases hnil : before = []
      · exact .inl (by simpa [hnil] using hpre)
      · refine .inr ⟨pre, ⟨hpre, List.prefix_append _ _, ?_, ?_⟩, List.prefix_append _ _, ?_⟩
        · intro m hm hbegins
          rw [List.prefix_append_right_inj] at hbegins
          obtain ⟨r, rfl⟩ := hbegins
          exact hpiece ⟨m, r, hm, rfl, hm.ne_nil⟩
        · -- an element would be answered
          intro c hc hbegins
          rw [List.prefix_append_right_inj] at hbegins
          obtain ⟨r, rfl⟩ := hbegins
          rw [List.cons_append, List.cons_append, List.nil_append,
            firstElement_element (step_element hc)] at h
          cases h
          exact hnil (by simpa using hbefore)
        · simpa using hnil

/-! ## A document type declaration -/

/-- Past its name a declaration is left as any other mark. -/
lemma doctype_passed (h : firstElement (doctype ++ post) = some rest) : rest <:+ post := by
  have hname : '>' ∉ doctype := by decide
  have hdoctype : doctype = '<' :: '!' :: 'D' :: "OCTYPE".toList := by decide
  have hstep : step (doctype ++ post) = close ['>'] (doctype ++ post) := by
    rw [hdoctype, List.cons_append, step_bracket]
    simp
  unfold close at hstep
  rw [find_append_of_notMem hname] at hstep
  split at hstep
  · rw [firstElement_stuck hstep] at h
    cases h
  · next found hfound =>
    rw [firstElement_past hstep] at h
    exact (firstElement_suffix h).trans ((List.drop_suffix 1 found).trans (find_spec hfound).1)

/-- What is stepped over has the declaration that a parser meets. -/
theorem doctype_stepped (hpre : Prolog pre) (hopen : Opened (pre ++ (doctype ++ post)))
    (h : firstElement (pre ++ (doctype ++ post)) = some rest) :
    ∃ before, pre ++ (doctype ++ post) = before ++ rest ∧ doctype <:+: before := by
  have hmisc : ∀ m, Misc m → Opened (m ++ (doctype ++ post)) →
      firstElement (m ++ (doctype ++ post)) = firstElement (doctype ++ post) := by
    intro m hm hopen
    induction hm with
    | nil => rfl
    | @white c s hc _ ih =>
      have hpiece : Piece [] [c] := .inl ⟨c, rfl, hc⟩
      obtain ⟨hsame, hopen⟩ := firstElement_piece hpiece hopen
      exact hsame.trans (ih hopen)
    | @comment m s hm _ ih =>
      have hpiece : Piece [] m := .inr (.inl hm)
      rw [List.append_assoc] at hopen ⊢
      obtain ⟨hsame, hopen⟩ := firstElement_piece hpiece hopen
      exact hsame.trans (ih hopen)
    | @instruction m s hm _ ih =>
      have hpiece : Piece [] m := .inr (.inr (.inl hm))
      rw [List.append_assoc] at hopen ⊢
      obtain ⟨hsame, hopen⟩ := firstElement_piece hpiece hopen
      exact hsame.trans (ih hopen)
  have hsame : firstElement (pre ++ (doctype ++ post)) = firstElement (doctype ++ post) := by
    obtain hpre | ⟨d, m, hd, hm, rfl⟩ := hpre
    · exact hmisc pre hpre hopen
    · rw [List.append_assoc] at hopen ⊢
      obtain ⟨hsame, hopen⟩ := firstElement_piece (.inr (.inr (.inr ⟨rfl, hd⟩))) hopen
      exact hsame.trans (hmisc m hm hopen)
  obtain ⟨more, rfl⟩ := doctype_passed (hsame ▸ h)
  exact ⟨pre ++ doctype ++ more, by simp, ⟨pre, more, rfl⟩⟩

/-! ## Bytes -/

variable {bs cs : List Char}

lemma kept_close {x : Char} {w : Data} (h : KeepsAscii bs cs) (hw : Ascii (x :: w)) :
    close (x :: w) bs = .stuck ∧ close (x :: w) cs = .stuck ∨
      ∃ a b s t, close (x :: w) bs = .past bs b ∧ close (x :: w) cs = .past cs t ∧
        bs = a ++ b ∧ cs = s ++ t ∧ KeepsAscii a s ∧ KeepsAscii b t := by
  have hx : x.toNat < 128 := hw.lt (by simp)
  obtain ⟨hb, hc⟩ | ⟨a, b, s, t, hb, hc, rfl, rfl, ha, hbt⟩ := h.find hw
  · exact .inl ⟨by simp [close, hb], by simp [close, hc]⟩
  · obtain ⟨b, rfl⟩ := (find_spec hb).2
    obtain ⟨t, rfl⟩ := (find_spec hc).2
    simp only [List.cons_append] at *
    refine .inr ⟨a ++ [x], w ++ b, s ++ [x], w ++ t, by simp [close, hb], by simp [close, hc],
      by simp, by simp, ha.append (.ascii hx .nil), hbt.tail hx⟩

/-- A round over the bytes is the round over the text. -/
lemma kept_step (h : KeepsAscii bs cs) :
    step bs = .stuck ∧ step cs = .stuck ∨
      (∃ a b s t, step bs = .element b ∧ step cs = .element t ∧
        bs = a ++ b ∧ cs = s ++ t ∧ KeepsAscii a s ∧ KeepsAscii b t) ∨
      ∃ start start' a b s t, step bs = .past start b ∧ step cs = .past start' t ∧
        KeepsAscii start start' ∧ bs = a ++ b ∧ cs = s ++ t ∧ KeepsAscii a s ∧ KeepsAscii b t := by
  obtain ⟨hb, hc⟩ | ⟨a, b, s, t, hb, hc, rfl, rfl, ha, hbt⟩ :=
    h.find (x := '<') (w := []) (by decide)
  · exact .inl ⟨by simp [step, hb], by simp [step, hc]⟩
  · have hclose : ∀ x (w : Data), Ascii (x :: w) →
        close (x :: w) b = .stuck ∧ close (x :: w) t = .stuck ∨
          ∃ start start' a' b' s' t', close (x :: w) b = .past start b' ∧
            close (x :: w) t = .past start' t' ∧ KeepsAscii start start' ∧
            a ++ b = a' ++ b' ∧ s ++ t = s' ++ t' ∧ KeepsAscii a' s' ∧ KeepsAscii b' t' := by
      intro x w hw
      obtain hstuck | ⟨a', b', s', t', hb', ht', rfl, rfl, ha', hbt'⟩ := kept_close hbt hw
      · exact .inl hstuck
      · exact .inr ⟨_, _, a ++ a', b', s ++ s', t', hb', ht', hbt, by simp, by simp,
          ha.append ha', hbt'⟩
    have hiff : ∀ w : Data, Ascii w → (w <+: b ↔ w <+: t) :=
      fun w hw => hbt.prefix_iff hw
    simp only [step, hb, hc, hiff ['<', '?'] (by decide), hiff ['<', '!', '-', '-'] (by decide),
      hiff ['<', '!'] (by decide)]
    split
    · exact (hclose '?' ['>'] (by decide)).imp_right .inr
    · split
      · exact (hclose '-' ['-', '>'] (by decide)).imp_right .inr
      · split
        · exact (hclose '>' [] (by decide)).imp_right .inr
        · exact .inr (.inl ⟨a, b, s, t, rfl, rfl, rfl, rfl, ha, hbt⟩)

/-- The first element of the bytes is that of the text. -/
lemma kept_firstElement (h : KeepsAscii bs cs) (hrest : firstElement bs = some rest) :
    ∃ a s t, firstElement cs = some t ∧ bs = a ++ rest ∧ cs = s ++ t ∧ KeepsAscii a s ∧
      KeepsAscii rest t := by
  induction hn : bs.length using Nat.strong_induction_on generalizing bs cs with
  | h n ih =>
    obtain ⟨hb, -⟩ | ⟨a, b, s, t, hb, hc, rfl, rfl, ha, hbt⟩ |
      ⟨_, _, a, b, s, t, hb, hc, -, rfl, rfl, ha, hbt⟩ := kept_step h
    · rw [firstElement_stuck hb] at hrest
      cases hrest
    · rw [firstElement_element hb] at hrest
      cases hrest
      exact ⟨a, s, t, firstElement_element hc, rfl, rfl, ha, hbt⟩
    · rw [firstElement_past hb] at hrest
      obtain ⟨a', s', t', ht', rfl, rfl, ha', hrest'⟩ := ih b.length (hn ▸ step_lt hb) hbt hrest rfl
      exact ⟨a ++ a', s ++ s', t', (firstElement_past hc).trans ht', by simp, by simp,
        ha.append ha', hrest'⟩

lemma kept_opened (h : KeepsAscii bs cs) (hopen : Opened bs) : Opened cs := by
  induction hn : bs.length using Nat.strong_induction_on generalizing bs cs with
  | h n ih =>
    obtain ⟨-, hc⟩ | ⟨a, b, s, t, hb, hc, -⟩ |
      ⟨start, start', a, b, s, t, hb, hc, hstart, rfl, rfl, ha, hbt⟩ := kept_step h
    · intro start hstart
      rw [marks_of_not_past (by simp [hc])] at hstart
      cases hstart
    · intro start hstart
      rw [marks_of_not_past (by simp [hc])] at hstart
      cases hstart
    · have hb' : Opened b := by
        intro m hm
        apply hopen
        rw [marks_past hb]
        exact List.mem_cons_of_mem _ hm
      have ht := ih b.length (hn ▸ step_lt hb) hbt hb' rfl
      intro m hm
      rw [marks_past hc] at hm
      obtain rfl | hm := List.mem_cons.mp hm
      · have hself := hopen start (by rw [marks_past hb]; exact List.mem_cons_self)
        unfold SelfClosed at hself ⊢
        rwa [← hstart.prefix_iff (by decide), ← hstart.prefix_iff (by decide)]
      · exact ht m hm

/-! ## Files -/

variable {file tail : Data} {little : Bool}

lemma begins_append {w : Data} (hlength : w.length ≤ start.length) :
    w <+: start ++ tail ↔ w <+: start := by
  constructor
  · intro h
    exact List.prefix_of_prefix_length_le h (List.prefix_append _ _) hlength
  · intro h
    exact h.trans (List.prefix_append _ _)

lemma close_append {mark : Data} (hmark : mark ≠ []) (h : close mark text = .past start next) :
    close mark (text ++ tail) = .past (start ++ tail) (next ++ tail) := by
  obtain ⟨rfl, found, hfound, rfl, hne⟩ := close_spec hmark h
  have hmore := find_append (u := tail) hfound
  obtain ⟨c, found, rfl⟩ := List.exists_cons_of_ne_nil hne
  simp [close, hmore]

/-- A round that is finished in the head is the round of the file. -/
lemma step_append_past (h : step text = .past start next) :
    step (text ++ tail) = .past (start ++ tail) (next ++ tail) := by
  unfold step at h
  split at h
  · cases h
  · next s hs =>
    have hfind := find_append (u := tail) hs
    unfold step
    rw [hfind]
    simp only
    split at h
    · next hmark =>
      rw [if_pos (hmark.trans (List.prefix_append _ _))]
      exact close_append (by decide) h
    · next hmark =>
      split at h
      · next hcomment =>
        have hlength : ['<', '?'].length ≤ s.length := by
          have := hcomment.length_le
          simp at this ⊢
          omega
        rw [if_neg (mt (begins_append hlength).mp hmark),
          if_pos (hcomment.trans (List.prefix_append _ _))]
        exact close_append (by decide) h
      · next hcomment =>
        split at h
        · next hbang =>
          have hlength : ['<', '?'].length ≤ s.length := by simpa using hbang.length_le
          have hcomment' : ¬ ['<', '!', '-', '-'] <+: s ++ tail := by
            intro hbegins
            obtain hle | hlt := le_or_gt ['<', '!', '-', '-'].length s.length
            · exact hcomment ((begins_append hle).mp hbegins)
            · -- the mark would end inside of the opening of a comment
              obtain ⟨-, found, hfound, -⟩ := close_spec (by decide) h
              have hmem : '>' ∈ s := by
                obtain ⟨hend, hclose⟩ := find_spec hfound
                exact hend.subset (hclose.subset (by decide))
              have hpre : s <+: ['<', '!', '-', '-'] :=
                List.prefix_of_prefix_length_le (List.prefix_append _ _) hbegins hlt.le
              exact absurd (hpre.subset hmem) (by decide)
          rw [if_neg (mt (begins_append hlength).mp hmark), if_neg hcomment',
            if_pos (hbang.trans (List.prefix_append _ _))]
          exact close_append (by decide) h
        · cases h

lemma step_append_element (hlength : 4 ≤ start.length) (h : step text = .element start) :
    step (text ++ tail) = .element (start ++ tail) := by
  unfold step at h
  split at h
  · cases h
  · next s hs =>
    have hfind := find_append (u := tail) hs
    have hclose : ∀ mark : Data, close mark s ≠ .element start := by
      intro mark
      unfold close
      split <;> simp
    split at h
    · exact absurd h (hclose _)
    · next h₁ =>
      split at h
      · exact absurd h (hclose _)
      · next h₂ =>
        split at h
        · exact absurd h (hclose _)
        · next h₃ =>
          cases h
          unfold step
          rw [hfind]
          simp only
          have hle : ∀ w : Data, w.length ≤ 4 → ¬ w <+: start → ¬ w <+: start ++ tail :=
            fun w hw hnot h => hnot ((begins_append (hw.trans hlength)).mp h)
          rw [if_neg (hle _ (by decide) h₁), if_neg (hle _ (by decide) h₂),
            if_neg (hle _ (by decide) h₃)]

lemma firstElement_append (hlength : 4 ≤ rest.length) (h : firstElement text = some rest) :
    firstElement (text ++ tail) = some (rest ++ tail) := by
  induction hn : text.length using Nat.strong_induction_on generalizing text with
  | h n ih =>
    cases hs : step text with
    | stuck =>
      rw [firstElement_stuck hs] at h
      cases h
    | element start =>
      rw [firstElement_element hs] at h
      cases h
      exact firstElement_element (step_append_element hlength hs)
    | past start next =>
      rw [firstElement_past hs] at h
      rw [firstElement_past (step_append_past hs)]
      exact ih next.length (hn ▸ step_lt hs) h rfl

lemma namesRoot_length (h : namesRoot s = true) : 7 ≤ s.length := by
  simp only [namesRoot, Bool.and_eq_true, List.isPrefixOf_iff_prefix] at h
  simpa using h.1.length_le

lemma rootTag_length (h : rootTag rest = true) : 4 ≤ rest.length := by
  unfold rootTag at h
  split at h
  · next s =>
    simp only [Bool.or_eq_true, Bool.and_eq_true] at h
    obtain h | ⟨-, h⟩ := h
    · have := namesRoot_length h
      simp only [List.length_cons]
      omega
    · split at h
      · next t ht =>
        have hroot := namesRoot_length h
        have hend := (List.dropWhile_suffix (l := s.tail)
          fun c => isWordChar c || c = '.' || c = '-').length_le
        rw [ht] at hend
        simp only [List.length_cons, List.length_tail] at hend ⊢
        omega
      · cases h
  · cases h

/-- What a head that is accepted has. -/
lemma accepted_spec {head : Data} (h : prologRefusal head = "") :
    ∃ before rest, head.dropWhile isLead = before ++ rest ∧
      firstElement (head.dropWhile isLead) = some rest ∧ ¬ doctype <:+: before ∧
      rootTag rest = true := by
  unfold prologRefusal firstElementAt at h
  simp only at h
  split at h
  · exact absurd h (by decide)
  · next pos hpos =>
    obtain ⟨rest, hrest, rfl⟩ := Option.map_eq_some_iff.mp hpos
    obtain ⟨before, hbefore⟩ := firstElement_suffix hrest
    have hlength : (head.dropWhile isLead).length - rest.length = before.length := by
      rw [← hbefore]
      simp
    rw [hlength] at h
    split at h
    · exact absurd h (by decide)
    · next hdeclares =>
      split at h
      · exact absurd h (by decide)
      · next hroot =>
        rw [← hbefore] at hdeclares hroot
        simp only [List.take_left, List.drop_left] at hdeclares hroot
        refine ⟨before, rest, hbefore.symm, hrest, ?_, by simpa using hroot⟩
        intro hin
        apply hdeclares
        rw [List.any_eq_true]
        exact ⟨doctype, by decide, by simpa using hin⟩

/-- The white space before a prolog aside, the text begins with a mark. -/
lemma dropWhile_prolog (hpre : Prolog pre) : ∃ pre' c t,
    (pre ++ (doctype ++ post)).dropWhile isWhite = pre' ++ (doctype ++ post) ∧ Prolog pre' ∧
      pre' ++ (doctype ++ post) = '<' :: c :: t ∧ (c = '!' ∨ c = '?') := by
  have hstart : ∀ s, Prolog s → (∀ c t, s = c :: t → isWhite c = false) →
      ∃ pre' c t, (s ++ (doctype ++ post)).dropWhile isWhite = pre' ++ (doctype ++ post) ∧
        Prolog pre' ∧ pre' ++ (doctype ++ post) = '<' :: c :: t ∧ (c = '!' ∨ c = '?') := by
    intro s hs hwhite
    have hmark : ∃ c t, s ++ (doctype ++ post) = '<' :: c :: t ∧ (c = '!' ∨ c = '?') := by
      by_cases hnil : s = []
      · refine ⟨'!', "DOCTYPE".toList ++ post, ?_, .inl rfl⟩
        have : doctype = '<' :: '!' :: "DOCTYPE".toList := by decide
        rw [hnil, this]
        rfl
      · obtain ⟨c, t, rfl, hc⟩ | ⟨t, rfl⟩ | ⟨t, rfl⟩ := hs.start hnil
        · rw [hwhite c t rfl] at hc
          cases hc
        · exact ⟨'!', '-' :: '-' :: t ++ (doctype ++ post), rfl, .inl rfl⟩
        · exact ⟨'?', t ++ (doctype ++ post), rfl, .inr rfl⟩
    obtain ⟨c, t, hmark, hc⟩ := hmark
    refine ⟨s, c, t, ?_, hs, hmark, hc⟩
    rw [hmark]
    rfl
  obtain hm | hd := hpre
  · induction hm with
    | nil => exact hstart [] (.inl .nil) (by simp)
    | @white c s hc hs ih =>
      rw [List.cons_append, List.dropWhile_cons_of_pos hc]
      exact ih
    | @comment m s hm hs ih =>
      refine hstart (m ++ s) (.inl (.comment hm hs)) ?_
      obtain ⟨body, rfl, -⟩ := hm
      rintro c t heq
      cases heq
      decide
    | @instruction m s hm hs ih =>
      refine hstart (m ++ s) (.inl (.instruction hm hs)) ?_
      obtain ⟨_, data, rfl, -⟩ := hm.marked
      rintro c t heq
      cases heq
      decide
  · refine hstart pre (.inr hd) ?_
    obtain ⟨d, m, hd, -, rfl⟩ := hd
    obtain ⟨_, data, rfl, -⟩ := hd.marked
    rintro c t heq
    cases heq
    decide

lemma isWhite_cases (h : isWhite c = true) : c = ' ' ∨ c = '\t' ∨ c = '\r' ∨ c = '\n' := by
  simpa [isWhite] using h

lemma not_isWhite (hc : 128 ≤ c.toNat) : ¬ isWhite c = true := by
  intro h
  obtain rfl | rfl | rfl | rfl := isWhite_cases h <;> exact absurd hc (by decide)

lemma kept_dropWhile (h : KeepsAscii bs cs) :
    KeepsAscii (bs.dropWhile isWhite) (cs.dropWhile isWhite) ∨
      ∃ c t, cs.dropWhile isWhite = c :: t ∧ 128 ≤ c.toNat := by
  induction h with
  | nil => exact .inl .nil
  | @ascii c bs cs hc h ih =>
    by_cases hwhite : isWhite c = true
    · rw [List.dropWhile_cons_of_pos hwhite, List.dropWhile_cons_of_pos hwhite]
      exact ih
    · rw [List.dropWhile_cons_of_neg hwhite, List.dropWhile_cons_of_neg hwhite]
      exact .inl (.ascii hc h)
  | @other b unit c bs cs hunit hc h ih =>
    have hwhite : ¬ isWhite c = true := not_isWhite hc
    rw [List.dropWhile_cons_of_neg hwhite]
    exact .inr ⟨c, cs, rfl, hc⟩

lemma isLead_of_isWhite (h : isWhite c = true) : isLead c = true := by
  obtain rfl | rfl | rfl | rfl := isWhite_cases h <;> decide

lemma dropWhile_isWhite (bs : Data) :
    (bs.dropWhile isWhite).dropWhile isLead = bs.dropWhile isLead := by
  induction bs with
  | nil => rfl
  | cons c bs ih =>
    by_cases hwhite : isWhite c = true
    · rw [List.dropWhile_cons_of_pos hwhite,
        List.dropWhile_cons_of_pos (isLead_of_isWhite hwhite), ih]
    · rw [List.dropWhile_cons_of_neg hwhite]

/-- In UTF-16 the first bracket among the bytes is the one of the text. -/
lemma utf16_find {x : Char} {t : Data} (h : Utf16 little bs cs)
    (hcs : cs.dropWhile isWhite = '<' :: x :: t) (hx : x.toNat < 128) :
    ∃ more, find ['<'] bs = some ('<' :: '\x00' :: more) := by
  induction h with
  | nil => cases hcs
  | @ascii c bs cs hc h ih =>
    by_cases hwhite : isWhite c = true
    · rw [List.dropWhile_cons_of_pos hwhite] at hcs
      obtain ⟨more, hmore⟩ := ih hcs
      refine ⟨more, ?_⟩
      have hskip : '<' ∉ pair little c := by
        have hne : c ≠ '<' := by
          rintro rfl
          exact absurd hwhite (by decide)
        cases little <;> simp [pair, Ne.symm hne]
      rw [find_append_of_notMem hskip, hmore]
    · rw [List.dropWhile_cons_of_neg hwhite] at hcs
      cases hcs
      cases little with
      | true => exact ⟨bs, find_of_begins ⟨_, rfl⟩⟩
      | false =>
        cases h with
        | @ascii _ bs _ _ _ => exact ⟨x :: bs, by simp [pair, find]⟩
        | other hx' _ => omega
  | @other unit c bs cs hc h ih =>
    have hwhite : ¬ isWhite c = true := not_isWhite hc
    rw [List.dropWhile_cons_of_neg hwhite] at hcs
    cases hcs
    exact absurd hc (by decide)

lemma lead_notMem (file : Data) : '<' ∉ file.takeWhile isLead := by
  intro hmem
  exact absurd (List.mem_takeWhile_imp hmem) (by decide)

/-- A head whose first bracket has a zero byte after it is not accepted. -/
lemma not_accepted_of_zero {more : Data}
    (h : find ['<'] (text ++ tail) = some ('<' :: '\x00' :: more))
    (hrest : firstElement text = some rest) : rootTag rest = false := by
  cases hfind : find ['<'] text with
  | none =>
    have hstuck : step text = .stuck := by
      unfold step
      rw [hfind]
    rw [firstElement_stuck hstuck] at hrest
    cases hrest
  | some start =>
    have hmore := find_append (u := tail) hfind
    rw [h] at hmore
    have hzero : ∀ c w, c ≠ '\x00' → ¬ '<' :: c :: w <+: start := by
      rintro c w hc ⟨r, rfl⟩
      simp only [List.cons_append, Option.some.injEq, List.cons.injEq, true_and] at hmore
      exact hc hmore.1.symm
    have h₁ : ¬ ['<', '?'] <+: start := hzero '?' [] (by decide)
    have h₂ : ¬ ['<', '!', '-', '-'] <+: start := hzero '!' ['-', '-'] (by decide)
    have h₃ : ¬ ['<', '!'] <+: start := hzero '!' [] (by decide)
    have hstep : step text = .element start := by
      unfold step
      rw [hfind]
      simp only [h₁, h₂, h₃, if_false]
    rw [firstElement_element hstep, Option.some.injEq] at hrest
    rw [← hrest]
    match start, hmore with
    | [], _ => rfl
    | [c], hmore =>
      cases hmore
      decide
    | c :: d :: start, hmore =>
      cases hmore
      simp [rootTag, namesRoot]

/-- A file whose head is accepted has no document type declaration for a parser. -/
theorem no_doctype {s : Data} (hreads : Reads file s)
    (haccepted : prologRefusal (file.take headBytes) = "") (hopen : Opened (file.dropWhile isLead)) : ¬ MeetsDoctype s := by
  rintro ⟨pre, post, hpre, rfl⟩
  obtain ⟨before, rest, htext, hfirst, hnodoctype, hroot⟩ := accepted_spec haccepted
  have hlength := rootTag_length hroot
  have hfull : file.dropWhile isLead =
      (file.take headBytes).dropWhile isLead ++ file.drop headBytes := by
    conv_lhs => rw [← List.take_append_drop headBytes file]
    rw [List.dropWhile_append, if_neg]
    rw [htext]
    cases rest with
    | nil => simp at hlength
    | cons c rest => simp
  obtain ⟨pre', c, t, hstart, hpre', hmark, hc⟩ : ∃ pre' c t,
      (pre ++ (doctype ++ post)).dropWhile isWhite = pre' ++ (doctype ++ post) ∧ Prolog pre' ∧
        pre' ++ (doctype ++ post) = '<' :: c :: t ∧ (c = '!' ∨ c = '?') := dropWhile_prolog hpre
  obtain ⟨mark, body, rfl, ⟨hbom, hkept⟩ | ⟨little, hbom, hutf⟩⟩ := hreads
  · have hkept' : KeepsAscii (body.dropWhile isWhite) (pre' ++ (doctype ++ post)) := by
      obtain h | ⟨d, u, hd, hwide⟩ := kept_dropWhile hkept
      · rwa [hstart] at h
      · rw [hstart, hmark] at hd
        cases hd
        exact absurd hwide (by decide)
    have hbegin : ['<'] <+: body.dropWhile isWhite := by
      rw [hkept'.prefix_iff (by decide), hmark]
      exact ⟨c :: t, rfl⟩
    have hbody : (mark ++ body).dropWhile isLead = body.dropWhile isWhite := by
      have hlead : ∀ d ∈ mark, isLead d = true := by
        obtain rfl | rfl := hbom <;> simp [utf8Mark, isLead]
      obtain ⟨u, hu⟩ := hbegin
      rw [List.dropWhile_append_of_pos hlead, ← dropWhile_isWhite, ← hu]
      rfl
    rw [hbody] at hfull hopen
    have hfile : firstElement (body.dropWhile isWhite) =
        some (rest ++ (mark ++ body).drop headBytes) := by
      rw [hfull]
      exact firstElement_append hlength hfirst
    obtain ⟨a, x, u, hu, ha, hx, hax, -⟩ := kept_firstElement hkept' hfile
    obtain ⟨before', hbefore', hin⟩ := doctype_stepped hpre' (kept_opened hkept' hopen) hu
    obtain rfl : before' = x := List.append_cancel_right (hbefore'.symm.trans hx)
    have hsame : before = a := by
      rw [hfull, htext, List.append_assoc] at ha
      exact List.append_cancel_right ha
    have hword : doctype = '<' :: "!DOCTYPE".toList := by decide
    rw [hword] at hin
    apply hnodoctype
    rw [hsame, hword]
    exact hax.isInfix (by decide) hin
  · have hascii : c.toNat < 128 := by
      obtain rfl | rfl := hc <;> decide
    obtain ⟨more, hmore⟩ := utf16_find hutf (hstart.trans hmark) hascii
    have hmark' : '<' ∉ mark := by
      obtain rfl | rfl := hbom
      · simp
      · cases little <;> decide
    rw [← find_append_of_notMem hmark', ← List.takeWhile_append_dropWhile (p := isLead)
      (l := mark ++ body), find_append_of_notMem (lead_notMem _), hfull] at hmore
    rw [not_accepted_of_zero hmore hfirst] at hroot
    cases hroot

/-- Before the position that is answered a parser reads prolog, or it stops there. -/
theorem before_element {s : Data} {pos : ℕ} (hkept : KeepsAscii text s)
    (hpos : firstElementAt text = some pos) (hopen : Opened text) :
    ∃ before after, s = before ++ after ∧ KeepsAscii (text.take pos) before ∧
      KeepsAscii (text.drop pos) after ∧
      (Prolog before ∨ ∃ q, Stops s q ∧ q <+: before ∧ q ≠ before) := by
  obtain ⟨rest, hrest, rfl⟩ := Option.map_eq_some_iff.mp hpos
  obtain ⟨a, before, after, hafter, rfl, rfl, ha, hrest'⟩ := kept_firstElement hkept hrest
  have hlength : (a ++ rest).length - rest.length = a.length := by simp
  obtain ⟨before', hbefore', hreads⟩ :=
    reads_or_stops (.inl .nil) (kept_opened hkept hopen) hafter
  obtain rfl : before' = before := List.append_cancel_right hbefore'.symm
  refine ⟨before', after, rfl, ?_, ?_, by simpa using hreads⟩
  · rwa [hlength, List.take_left]
  · rwa [hlength, List.drop_left]

/-- The prolog check, of a file and of a text. -/
theorem prolog_checked :
    (∀ file s, Reads file s → prologRefusal (file.take headBytes) = "" →
      Opened (file.dropWhile isLead) → ¬ MeetsDoctype s) ∧
    ∀ text s pos, KeepsAscii text s → firstElementAt text = some pos → Opened text →
      ∃ before after, s = before ++ after ∧ KeepsAscii (text.take pos) before ∧
        KeepsAscii (text.drop pos) after ∧
        (Prolog before ∨ ∃ q, Stops s q ∧ q <+: before ∧ q ≠ before) :=
  ⟨fun _ _ hreads haccepted hopen => no_doctype hreads haccepted hopen,
    fun _ _ _ hkept hpos hopen => before_element hkept hpos hopen⟩

/-- A document type, and the root element. -/
def declared : Data := "<!DOCTYPE C><COLLADA/>".toList

/-- A comment that closes itself for the check, a document type and the root element. -/
def hidden : Data := "<!--><COLLADA >-->".toList ++ "<!DOCTYPE C []><COLLADA/>".toList

lemma hidden_accepted : prologRefusal (hidden.take headBytes) = "" := by
  have hpast : step hidden = .past hidden (hidden.drop 3) := by decide +kernel
  have helement : step (hidden.drop 3) = .element (hidden.drop 5) := by decide +kernel
  have hfirst := (firstElement_past hpast).trans (firstElement_element helement)
  have hhead : (hidden.take headBytes).dropWhile isLead = hidden := by
    have hlength : hidden.length ≤ headBytes := by
      unfold headBytes
      exact Nat.le_trans (by decide +kernel : hidden.length ≤ 43) (by omega)
    rw [List.take_of_length_le hlength]
    decide +kernel
  unfold prologRefusal firstElementAt
  simp only [hhead, hfirst]
  decide +kernel

lemma hidden_meets : MeetsDoctype hidden := by
  refine ⟨"<!--><COLLADA >-->".toList, " C []><COLLADA/>".toList, .inl ?_, by decide +kernel⟩
  have hchar : "><COLLADA >".toList.all isChar = true := by decide +kernel
  have hcomment : Comment "<!--><COLLADA >-->".toList :=
    ⟨"><COLLADA >".toList, by decide +kernel, List.all_eq_true.mp hchar, by decide +kernel⟩
  simpa using Misc.comment hcomment .nil

/-- A document type declaration is stepped over as such, and one may hide behind a comment. -/
theorem doctype_before_element :
    (¬ ∀ text s pos, KeepsAscii text s → firstElementAt text = some pos →
      ∃ before after, s = before ++ after ∧ KeepsAscii (text.take pos) before ∧ Prolog before) ∧
    ¬ ∀ file s, Reads file s → prologRefusal (file.take headBytes) = "" → ¬ MeetsDoctype s := by
  constructor
  · intro h
    have hascii : Ascii declared := by decide +kernel
    have hpast : step declared = .past declared (declared.drop 12) := by decide +kernel
    have helement : step (declared.drop 12) = .element (declared.drop 12) := by decide +kernel
    have hfirst := (firstElement_past hpast).trans (firstElement_element helement)
    have hpos : firstElementAt declared = some 12 := by
      rw [firstElementAt, hfirst]
      decide +kernel
    obtain ⟨before, after, -, hkept, hprolog⟩ := h _ _ _ (.refl hascii) hpos
    have hbefore : declared.take 12 = before := hkept.eq_of_ascii (by decide +kernel)
    rw [← hbefore] at hprolog
    have hdeclared : declared.take 12 = '<' :: "!DOCTYPE C>".toList := by decide +kernel
    obtain ⟨c, t, heq, hc⟩ | hbegins | hbegins := hprolog.start (by rw [hdeclared]; simp)
    · rw [hdeclared] at heq
      cases heq
      exact absurd hc (by decide)
    · exact absurd hbegins (by decide +kernel)
    · exact absurd hbegins (by decide +kernel)
  · intro h
    have hascii : Ascii hidden := by decide +kernel
    exact h hidden hidden ⟨[], hidden, rfl, .inl ⟨.inl rfl, .refl hascii⟩⟩ hidden_accepted
      hidden_meets

end MeshPipeline.Collada
