import MeshPipeline.Library.Text

/-!
# The case guard

An authored dictionary is scanned for directives before a mesher parses it. Comments are taken out
by two substitutions, one after the other, where the parser reads from left to right.
-/

namespace MeshPipeline.Sandbox

/-! ## The two substitutions -/

/-- An open block comment ends. -/
def closed : List Char → Bool
  | '*' :: '/' :: _ => true
  | _ :: cs => closed cs
  | [] => false

/-- `re.sub(r"/\*.*?\*/", " ", text)`; the flag is set inside a comment. -/
def stripBlocks : Bool → List Char → List Char
  | false, '/' :: '*' :: cs =>
    if closed cs then ' ' :: stripBlocks true cs else '/' :: '*' :: stripBlocks false cs
  | true, '*' :: '/' :: cs => stripBlocks false cs
  | true, _ :: cs => stripBlocks true cs
  | false, c :: cs => c :: stripBlocks false cs
  | _, [] => []

/-- `re.sub(r"//[^\n]*", " ", text)`; the flag is set inside a comment. -/
def stripLines : Bool → List Char → List Char
  | false, '/' :: '/' :: cs => ' ' :: stripLines true cs
  | true, '\n' :: cs => '\n' :: stripLines false cs
  | true, _ :: cs => stripLines true cs
  | false, c :: cs => c :: stripLines false cs
  | _, [] => []

/-- `_strip_comments`. -/
def stripComments (text : List Char) : List Char := stripLines false (stripBlocks false text)

/-! ## Directives -/

def isLetter (c : Char) : Bool := ('A' ≤ c ∧ c ≤ 'Z') ∨ ('a' ≤ c ∧ c ≤ 'z')

def isWord (c : Char) : Bool := isLetter c ∨ ('0' ≤ c ∧ c ≤ '9') ∨ c = '_'

/-- A letter is next, after white space. -/
def letterNext (cs : List Char) : Bool := (cs.dropWhile Text.isSpace).head?.any isLetter

/-- `_HASH_DIRECTIVE.search`. -/
def hashDirective : List Char → Bool
  | [] => false
  | c :: cs => (c = '#' ∧ letterNext cs) ∨ hashDirective cs

def libKeywords : List String := ["libs", "dynamicCode", "codedFixedValue", "codedSource"]

/-- The keyword that stands here, with no word character after it. -/
def keywordHere (cs : List Char) : Option String :=
  libKeywords.find? fun k => k.toList.isPrefixOf cs ∧ ¬ (cs.drop k.length).head?.any isWord

/-- `_LIB_DIRECTIVE.search`; `inWord` says that a word character was just before. -/
def libDirective (inWord : Bool) : List Char → Option String
  | [] => none
  | c :: cs => (if inWord then none else keywordHere (c :: cs)).or (libDirective (isWord c) cs)

/-- An active directive is in the text. -/
def Active (cs : List Char) : Prop :=
  hashDirective cs = true ∨ (libDirective false cs).isSome = true

instance (cs : List Char) : Decidable (Active cs) := inferInstanceAs (Decidable (_ ∨ _))

/-! ## The guard -/

/-- A file below the workspace, with what each step of reading it gives. -/
structure CaseFile where
  rel : List String
  resolve : Option (List String)
  workspace : Option (List String)
  size : Option Nat
  bytes : Option ByteArray

def dataSuffixes : List String :=
  [".stl", ".obj", ".eMesh", ".fms", ".ftr", ".nas", ".vtk", ".vtp", ".vtu", ".gz", ".png", ".jpg"]

def dataDirs : List String := ["polyMesh", "extendedFeatureEdgeMesh"]

def maxBytes : Nat := 8 * 1024 * 1024

/-- `PurePath.suffix`. -/
def suffix (rel : List String) : String :=
  let name := (rel.getLast?.getD "").toList
  let ending := (name.reverse.takeWhile (· ≠ '.')).reverse
  if ending = [] ∨ name.length ≤ ending.length + 1 then "" else String.ofList ('.' :: ending)

/-- `_is_data_file`. -/
def isDataFile (rel : List String) : Bool :=
  suffix rel ∈ dataSuffixes ∨ ∃ p ∈ rel, p ∈ dataDirs

/-- `_scan_one`: the reason to refuse the file. -/
def scanOne (f : CaseFile) : Option String :=
  let rel := "/".intercalate f.rel
  match f.resolve, f.workspace with
  | some real, some ws =>
    if ¬ ws <+: real then
      some (rel ++ " resolves outside the workspace - refusing (possible symlink escape)")
    else if isDataFile f.rel then none
    else
      match f.size, f.bytes with
      | none, _ => some (rel ++ " could not be read - refusing")
      | some size, bytes =>
        if maxBytes < size then
          some (rel ++ " is larger than the " ++ toString maxBytes ++ " byte scan cap - refusing")
        else
          match bytes with
          | none => some (rel ++ " could not be read - refusing")
          | some raw =>
            if 0 ∈ raw.data then
              some (rel ++ " is binary where a dictionary is expected - refusing")
            else
              match String.fromUTF8? raw with
              | none =>
                some (rel ++ " is not decodable text where a dictionary is expected - refusing")
              | some text =>
                let body := stripComments text.toList
                if hashDirective body then
                  some (rel ++ " contains an active OpenFOAM preprocessor directive (#…) - " ++
                    "code/include directives are not allowed in authored case dictionaries")
                else
                  (libDirective false body).map fun keyword =>
                    rel ++ " contains an active '" ++ keyword ++ "' directive - dynamic " ++
                      "library/code loading is not allowed in authored case dictionaries"
  | _, _ => some (rel ++ " could not be resolved safely - refusing")

/-! ## Left to right -/

inductive Mode
  | code | line | block | quoted | escaped
  deriving DecidableEq, Repr

/-- The text without its comments, each a space, read from left to right. -/
def scan : Mode → List Char → List Char
  | .code, '/' :: '/' :: cs => ' ' :: scan .line cs
  | .code, '/' :: '*' :: cs => ' ' :: scan .block cs
  | .code, '"' :: cs => '"' :: scan .quoted cs
  | .code, c :: cs => c :: scan .code cs
  | .line, '\n' :: cs => '\n' :: scan .code cs
  | .line, _ :: cs => scan .line cs
  | .block, '*' :: '/' :: cs => scan .code cs
  | .block, _ :: cs => scan .block cs
  | .quoted, '"' :: cs => '"' :: scan .code cs
  | .quoted, '\\' :: cs => '\\' :: scan .escaped cs
  | .quoted, c :: cs => c :: scan .quoted cs
  | .escaped, c :: cs => c :: scan .quoted cs
  | _, [] => []

/-- Every block comment that opens before the end of the line ends there or nowhere. -/
def lineKept : Bool → List Char → Bool
  | _, [] => true
  | false, '\n' :: _ => true
  | true, '\n' :: _ => false
  | false, '/' :: '*' :: cs => if closed cs then lineKept true cs else lineKept false cs
  | true, '*' :: '/' :: cs => lineKept false cs
  | inBlock, _ :: cs => lineKept inBlock cs

/-- A block comment opens here and ends. -/
@[simp] def opensBlock : List Char → Bool
  | c :: d :: cs => c = '/' ∧ d = '*' ∧ closed cs
  | _ => false

/-- A line comment opens here. -/
@[simp] def opensLine : List Char → Bool
  | c :: d :: _ => c = '/' ∧ d = '/'
  | _ => false

def opensNone (cs : List Char) : Bool := ¬ opensBlock cs ∧ ¬ opensLine cs

/-- No line comment has a block comment that goes on below it, or starts with its own second slash;
no string holds the opening of a comment. -/
def plain : Mode → List Char → Bool
  | .code, '/' :: '/' :: cs => ¬ opensBlock ('/' :: cs) ∧ lineKept false cs ∧ plain .line cs
  | .code, '/' :: '*' :: cs => plain .block cs
  | .code, '"' :: cs => plain .quoted cs
  | .code, _ :: cs => plain .code cs
  | .line, '\n' :: cs => plain .code cs
  | .line, _ :: cs => plain .line cs
  | .block, '*' :: '/' :: cs => plain .code cs
  | .block, _ :: cs => plain .block cs
  | .quoted, '"' :: cs => plain .code cs
  | .quoted, '\\' :: cs => plain .escaped cs
  | .quoted, c :: cs => opensNone (c :: cs) ∧ plain .quoted cs
  | .escaped, c :: cs => opensNone (c :: cs) ∧ plain .quoted cs
  | _, [] => true

/-! ## Where the two readings agree -/

/-- The texts are equal, but for a block comment without an end: the first has a space for it. -/
inductive Ends : List Char → List Char → Prop
  | same (cs) : Ends cs cs
  | cut (tail) : Ends [' '] ('/' :: tail)
  | cons (c) {cs ds} : Ends cs ds → Ends (c :: cs) (c :: ds)

/-- What is left of a text when its first line is over. -/
def lineEnd : List Char → List Char
  | [] => []
  | '\n' :: cs => '\n' :: cs
  | _ :: cs => lineEnd cs

lemma opensBlock_iff {c : Char} {cs : List Char} :
    opensBlock (c :: cs) ↔ ∃ ds, c = '/' ∧ cs = '*' :: ds ∧ closed ds := by
  cases cs <;> simp [and_assoc]

lemma stripBlocks_cons {c : Char} {cs : List Char} (h : ¬ opensBlock (c :: cs)) :
    stripBlocks false (c :: cs) = c :: stripBlocks false cs := by
  by_cases hc : ∃ ds, c = '/' ∧ cs = '*' :: ds
  · obtain ⟨ds, rfl, rfl⟩ := hc
    have : closed ds = false := by simpa using h
    simp [stripBlocks, this]
  · rw [stripBlocks]
    exact fun ds h1 h2 => hc ⟨ds, h1, h2⟩

lemma stripLines_cons {c : Char} {cs : List Char} (h : ¬ opensLine (c :: cs)) :
    stripLines false (c :: cs) = c :: stripLines false cs := by
  rw [stripLines]
  rintro ds rfl rfl
  simp at h

/-- A line comment that is there when the block comments are out was there before. -/
lemma opensLine_of_strip {c : Char} {cs : List Char} (h : opensLine (c :: stripBlocks false cs)) :
    opensLine (c :: cs) := by
  match cs with
  | [] => simp [stripBlocks] at h
  | d :: ds =>
    by_cases hd : opensBlock (d :: ds)
    · obtain ⟨es, rfl, rfl, hc⟩ := opensBlock_iff.1 hd
      simp [stripBlocks, hc] at h
    · simpa [stripBlocks_cons hd] using h

lemma stripComments_cons {c : Char} {cs : List Char} (h : opensNone (c :: cs)) :
    stripComments (c :: cs) = c :: stripComments cs := by
  obtain ⟨hb, hl⟩ : ¬ opensBlock (c :: cs) ∧ ¬ opensLine (c :: cs) := by
    simpa only [opensNone, decide_eq_true_eq] using h
  unfold stripComments
  rw [stripBlocks_cons hb, stripLines_cons fun h => hl (opensLine_of_strip h)]

lemma opensNone_of_ne {c : Char} {cs : List Char} (h : c ≠ '/') : opensNone (c :: cs) := by
  cases cs <;> simp [opensNone, h]

lemma opensNone_of_code {c : Char} {cs : List Char}
    (h1 : ∀ ds, c = '/' → cs = '/' :: ds → False) (h2 : ∀ ds, c = '/' → cs = '*' :: ds → False) : opensNone (c :: cs) := by
  match cs with
  | [] => simp [opensNone]
  | d :: ds =>
    have hb : ¬ (c = '/' ∧ d = '*') := fun h => h2 ds h.1 (by rw [h.2])
    have hl : ¬ (c = '/' ∧ d = '/') := fun h => h1 ds h.1 (by rw [h.2])
    simp only [opensNone, opensBlock, opensLine, decide_eq_true_eq]
    exact ⟨fun h => hb ⟨h.1, h.2.1⟩, hl⟩

lemma Ends.step {c : Char} {cs s : List Char} (h : Ends s (stripComments cs))
    (hn : opensNone (c :: cs)) : Ends (c :: s) (stripComments (c :: cs)) := by
  rw [stripComments_cons hn]
  exact .cons _ h

lemma strip_line {b : Bool} {cs : List Char} (h : lineKept b cs) :
    stripLines true (stripBlocks b cs) = stripLines true (stripBlocks false (lineEnd cs)) := by
  fun_induction lineKept b cs with
  | case7 b c cs => cases b <;> simp_all [stripBlocks, stripLines, lineEnd]
  | _ => simp_all [stripBlocks, stripLines, lineEnd]

lemma scan_open {cs : List Char} (h : ¬ closed cs) : scan .block cs = [] := by
  fun_induction closed cs <;> simp_all [scan]

/-- What the substitutions leave where the scanner is in the given mode. -/
def stripFrom : Mode → List Char → List Char
  | .line, cs => stripLines true (stripBlocks false (lineEnd cs))
  | .block, cs => stripLines false (stripBlocks true cs)
  | _, cs => stripComments cs

lemma scan_ends (m : Mode) (cs : List Char) (h : plain m cs) (hb : m = .block → closed cs) :
    Ends (scan m cs) (stripFrom m cs) := by
  fun_induction scan m cs with
  | case1 cs ih =>
    simp only [plain, decide_eq_true_eq] at h
    obtain ⟨h1, h2, h3⟩ := h
    have hl : stripComments ('/' :: '/' :: cs) = ' ' :: stripFrom .line cs := by
      unfold stripComments
      rw [stripBlocks_cons (by simp), stripBlocks_cons h1, stripLines, strip_line h2, stripFrom]
    simpa only [stripFrom, hl] using .cons _ (ih h3 (by simp))
  | case2 cs ih =>
    by_cases hc : closed cs
    · have hl : stripComments ('/' :: '*' :: cs) = ' ' :: stripFrom .block cs := by
        simp [stripComments, stripBlocks, stripLines, stripFrom, hc]
      simpa only [stripFrom, hl] using .cons _ (ih h fun _ => hc)
    · rw [scan_open hc]
      have hl : stripComments ('/' :: '*' :: cs) =
          '/' :: stripLines false ('*' :: stripBlocks false cs) := by
        simp [stripComments, stripBlocks, stripLines, hc]
      simpa only [stripFrom, hl] using .cut _
  | case3 cs ih => exact (ih h (by simp)).step (opensNone_of_ne (by decide))
  | case4 c cs h1 h2 h3 ih =>
    rw [plain] at h
    · exact (ih h (by simp)).step (opensNone_of_code h1 h2)
    all_goals assumption
  | case5 cs ih =>
    have hl : stripFrom .line ('\n' :: cs) = '\n' :: stripComments cs := by
      simp [stripFrom, stripBlocks, stripLines, lineEnd, stripComments]
    rw [hl]
    exact .cons _ (ih h (by simp))
  | case6 c cs h1 ih =>
    rw [plain] at h
    · rw [stripFrom, lineEnd]
      · exact ih h (by simp)
      · assumption
    · assumption
  | case7 cs ih =>
    exact ih h (by simp)
  | case8 c cs h1 ih =>
    rw [plain] at h
    · rw [stripFrom, stripBlocks]
      · refine ih h fun _ => ?_
        have := hb rfl
        rwa [closed] at this
        assumption
      · assumption
    · assumption
  | case9 cs ih => exact (ih h (by simp)).step (opensNone_of_ne (by decide))
  | case10 cs ih => exact (ih h (by simp)).step (opensNone_of_ne (by decide))
  | case11 c cs h1 h2 ih =>
    rw [plain] at h
    · simp only [decide_eq_true_eq] at h
      exact (ih h.2 (by simp)).step h.1
    all_goals assumption
  | case12 c cs ih =>
    simp only [plain, decide_eq_true_eq] at h
    exact (ih h.2 (by simp)).step h.1
  | case13 m =>
    cases m <;> simp [stripFrom, stripComments, stripBlocks, stripLines, lineEnd, Ends.same]

/-! ## Directives in both readings -/

@[simp] lemma letterNext_cons (c : Char) (cs : List Char) :
    letterNext (c :: cs) = if Text.isSpace c then letterNext cs else isLetter c := by
  by_cases h : Text.isSpace c <;> simp [letterNext, h]

lemma Ends.letterNext {s t : List Char} (h : Ends s t) (hs : letterNext s) : letterNext t := by
  induction h with
  | same => exact hs
  | cut => exact absurd hs (by decide)
  | cons c h ih =>
    simp only [letterNext_cons] at hs ⊢
    split_ifs at hs ⊢
    · exact ih hs
    · exact hs

lemma Ends.hashDirective {s t : List Char} (h : Ends s t) (hs : hashDirective s) :
    hashDirective t := by
  induction h with
  | same => exact hs
  | cut => exact absurd hs (by decide)
  | cons c h ih =>
    simp only [Sandbox.hashDirective, decide_eq_true_eq] at hs ⊢
    exact hs.imp (fun ⟨hc, hn⟩ => ⟨hc, h.letterNext hn⟩) ih

/-- A word that stands as such in the first text stands so in the second. -/
lemma Ends.word {s t word : List Char} (h : Ends s t) (hw : ∀ c ∈ word, isWord c)
    (hp : word.isPrefixOf s) (hn : ¬ (s.drop word.length).head?.any isWord) :
    word.isPrefixOf t ∧ ¬ (t.drop word.length).head?.any isWord := by
  induction h generalizing word with
  | same => exact ⟨hp, hn⟩
  | cut tail =>
    match word with
    | [] => exact ⟨rfl, by simp; decide⟩
    | c :: _ =>
      obtain ⟨rfl, -⟩ : c = ' ' ∧ _ := by simpa [List.isPrefixOf] using hp
      exact absurd (hw ' ' (by simp)) (by decide)
  | cons c h ih =>
    match word with
    | [] => exact ⟨rfl, by simpa using hn⟩
    | w :: ws =>
      simp only [List.isPrefixOf, Bool.and_eq_true, List.length_cons,
        List.drop_succ_cons] at hp hn ⊢
      obtain ⟨h1, h2⟩ := ih (fun c hc => hw c (by simp [hc])) hp.2 hn
      exact ⟨⟨hp.1, h1⟩, h2⟩

lemma Ends.keywordHere {s t : List Char} (h : Ends s t) (hs : (keywordHere s).isSome) :
    (keywordHere t).isSome := by
  simp only [Sandbox.keywordHere, List.find?_isSome, decide_eq_true_eq] at hs ⊢
  obtain ⟨k, hk, hp, hn⟩ := hs
  have hw : ∀ k ∈ libKeywords, k.toList.all isWord = true := by decide
  exact ⟨k, hk, h.word (List.all_eq_true.mp (hw k hk)) hp hn⟩

lemma Ends.libDirective {s t : List Char} (h : Ends s t) (b : Bool)
    (hs : (libDirective b s).isSome) : (libDirective b t).isSome := by
  induction h generalizing b with
  | same => exact hs
  | cut => cases b <;> exact absurd hs (by decide)
  | cons c h ih =>
    simp only [Sandbox.libDirective, Option.isSome_or, Bool.or_eq_true] at hs ⊢
    refine hs.imp ?_ (ih (isWord c))
    split_ifs
    · simp
    · exact (h.cons c).keywordHere

lemma Ends.active {s t : List Char} (h : Ends s t) (hs : Active s) : Active t :=
  hs.imp h.hashDirective (h.libDirective false)

/-! ## What the guard sees -/

/-- A dictionary that can be read has this text. -/
structure Dictionary (f : CaseFile) (text : String) : Prop where
  not_data : isDataFile f.rel = false
  decodes : f.bytes.bind String.fromUTF8? = some text

/-- Every active directive outside the comments of the text gets the file refused. -/
def GuardSees (f : CaseFile) (text : String) : Prop :=
  Active (scan .code text.toList) → (scanOne f).isSome

/-- The guard refuses a dictionary in whose text the substitutions leave an active directive. -/
lemma refused_of_active {f : CaseFile} {text : String} (hf : Dictionary f text)
    (h : Active (stripComments text.toList)) : (scanOne f).isSome := by
  obtain ⟨raw, hraw, htext⟩ := Option.bind_eq_some_iff.1 hf.decodes
  simp only [scanOne, hf.not_data, hraw]
  unfold Active at h
  split <;> try rfl
  split_ifs <;> try rfl
  · contradiction
  split <;> try rfl
  simp only [htext]
  split_ifs with _ _ hd <;> try rfl
  have hl : (libDirective false (stripComments text.toList)).isSome := h.resolve_left hd
  simpa using hl

theorem guard_sees_of_plain {f : CaseFile} {text : String} (hf : Dictionary f text)
    (hp : plain .code text.toList) : GuardSees f text := by
  intro h
  have hends : Ends (scan .code text.toList) (stripComments text.toList) :=
    scan_ends .code text.toList hp (by simp)
  exact refused_of_active hf (hends.active h)

/-- A controlDict in a workspace. -/
def controlDict (text : String) : CaseFile where
  rel := ["system", "controlDict"]
  resolve := some ["", "ws", "system", "controlDict"]
  workspace := some ["", "ws"]
  size := some text.utf8ByteSize
  bytes := some text.toUTF8

lemma controlDict_dictionary (text : String) : Dictionary (controlDict text) text where
  not_data := show isDataFile ["system", "controlDict"] = false by decide +kernel
  decodes := by
    simp only [controlDict, Option.bind_some, String.fromUTF8?, String.toUTF8_eq_toByteArray]
    rw [dif_pos text.isValidUTF8]
    rfl

def foamText : String := "// a /* note */\n/* // */ libs (\"a.so\");"

theorem guard_sees_foamText :
    Active (scan .code foamText.toList) ∧ GuardSees (controlDict foamText) foamText :=
  ⟨by decide +kernel, guard_sees_of_plain (controlDict_dictionary foamText) (by decide +kernel)⟩

def hiddenText : String := "// /*\n#include \"x\"\n// */"

theorem hiddenText_not_seen : ¬ ∀ f text, Dictionary f text → GuardSees f text := by
  intro h
  have hd := controlDict_dictionary hiddenText
  exact absurd (h _ _ hd (by decide +kernel)) (by decide +kernel)

end MeshPipeline.Sandbox
