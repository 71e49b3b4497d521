import MeshPipeline.StepUnits.Reader

/-!
# What a STEP file declares

The text is read as the exchange format has it: comments are blank, what a string quotes is no
keyword, an instance is a statement that starts with a name and an equals sign, and a keyword is a
whole word. Metres per unit are what the chain of conversions comes to, however long it is.
-/

namespace MeshPipeline.StepUnits

open Regex

/-- Where in the text a character stands. -/
inductive Region
  | plain | quoted | comment

/-- The text with its comments blank and its strings filled with one letter. -/
def plain : Region → Data → Data
  | _, [] => []
  | .plain, '/' :: '*' :: cs => ' ' :: ' ' :: plain .comment cs
  | .plain, '\'' :: cs => '\'' :: plain .quoted cs
  | .plain, c :: cs => c :: plain .plain cs
  | .quoted, '\'' :: cs => '\'' :: plain .plain cs
  | .quoted, _ :: cs => 'x' :: plain .quoted cs
  | .comment, '*' :: '/' :: cs => ' ' :: ' ' :: plain .plain cs
  | .comment, _ :: cs => ' ' :: plain .comment cs

/-- What the semicolons end. -/
def statements (data : Data) : List Data := ((plain .plain data).splitOn ';').dropLast

/-- The number and the body of a statement that is an instance. -/
def instanceOf (statement : Data) : Option (ℕ × Data) :=
  ((sequence [spaces, lit "#", .group 1 digits, spaces, lit "=", spaces]).matchAt statement).map
    fun r => (int (r.2.text 1), r.1)

def instances (data : Data) : List (ℕ × Data) := (statements data).filterMap instanceOf

def body (data : Data) (ref : ℕ) : Option Data :=
  ((instances data).find? fun e => e.1 = ref).map (·.2)

/-- A word does not go on from a character of one. -/
def wordStarts : Option Char → Bool
  | none => true
  | some c => !(c.isAlphanum || c == '_')

def hasKeyword (word : String) (body : Data) : Bool :=
  ((sequence [lit word, spaces, lit "("]).searchAfter wordStarts none body).isSome

/-- The references of every context that an instance is or has. -/
def declaredContexts (data : Data) : List (List ℕ) :=
  (instances data).flatMap fun e =>
    (context.findAllAfter wordStarts 0 none e.2).map fun ctx =>
      (reference.findAll (ctx.text 1)).map fun r => int (r.text 1)

/-! ## Units -/

/-- What an instance is as a unit of length. -/
inductive Meaning
  | converted (value : ℚ) (base : ℕ)
  | metre (scale : ℚ)
  | malformed
  deriving DecidableEq

/-- What an instance is for a context: a length unit, an SI unit of the metre, and its meaning. -/
structure View where
  length : Bool
  siMetre : Bool
  meaning : Meaning
  deriving DecidableEq

/-- The scale of an SI unit of the metre: one of the prefixes between dots, or none. -/
def siScale (word : Data) : Option ℚ :=
  if word = ['$'] ∨ word = [] then some 1
  else (siPrefixes.find? fun e => word = '.' :: e.1.toList ++ ['.']).map (·.2)

def declaredMeaning (data : Data) (body : Data) : Meaning :=
  match conversion.searchAfter wordStarts none body with
  | some conv =>
    match measure.search ((StepUnits.body data (int (conv.text 2))).getD []) with
    | some m =>
      let value := float (if m.text 1 = [] then m.text 2 else m.text 1)
      if 0 < value then .converted value (int (m.text 3)) else .malformed
    | none => .malformed
  | none =>
    match si.searchAfter wordStarts none body with
    | some g =>
      if strip (g.text 2) = ".METRE.".toList then
        (siScale (strip (g.text 1))).elim .malformed .metre
      else .malformed
    | none => .malformed

def declaredView (data : Data) (ref : ℕ) : View :=
  match body data ref with
  | none => ⟨false, false, .malformed⟩
  | some body =>
    { length := hasKeyword "LENGTH_UNIT" body
      siMetre := (si.searchAfter wordStarts none body).any fun g =>
        strip (g.text 2) = ".METRE.".toList
      meaning := declaredMeaning data body }

/-- The unit of length among the units of a context: the first that is said to be one, else the
first SI unit of the metre. -/
def assigned (view : ℕ → View) (refs : List ℕ) : Option ℕ :=
  (refs.find? fun n => (view n).length).or (refs.find? fun n => (view n).siMetre)

/-- A chain of so many conversions from an instance to the SI metre, and what it comes to. -/
inductive Chain (view : ℕ → View) : ℕ → ℕ → ℚ → Prop
  | metre {n : ℕ} {scale : ℚ} (h : (view n).meaning = .metre scale) : Chain view 0 n scale
  | converted {n base links : ℕ} {value metres : ℚ} (h : (view n).meaning = .converted value base)
      (hbase : Chain view links base metres) : Chain view (links + 1) n (value * metres)

open Classical in
/-- Metres per unit, where a chain leads to the metre at all. -/
noncomputable def metresOf (view : ℕ → View) (n : ℕ) : Option ℚ :=
  if h : ∃ metres links, Chain view links n metres then some h.choose else none

/-- For each context that assigns a unit of length its metres, none where the unit is malformed. -/
noncomputable def declared (data : Data) : List (Option ℚ) :=
  (declaredContexts data).filterMap fun refs =>
    (assigned (declaredView data) refs).map (metresOf (declaredView data))

variable {view view' : ℕ → View} {n links links' : ℕ} {metres metres' : ℚ}

theorem Chain.unique (h : Chain view links n metres) (h' : Chain view links' n metres') :
    links = links' ∧ metres = metres' := by
  induction h generalizing links' metres' with
  | metre hm =>
    cases h' with
    | metre hm' => exact ⟨rfl, by simpa [hm] using hm'⟩
    | converted hc _ => simp [hm] at hc
  | converted hc _ ih =>
    cases h' with
    | metre hm => simp [hm] at hc
    | converted hc' hbase' =>
      obtain ⟨rfl, rfl⟩ : _ ∧ _ := by simpa [hc] using hc'
      obtain ⟨rfl, rfl⟩ := ih hbase'
      exact ⟨rfl, rfl⟩

theorem metresOf_eq_some : metresOf view n = some metres ↔ ∃ links, Chain view links n metres := by
  unfold metresOf
  split
  · next h =>
    obtain ⟨links, hchosen⟩ := h.choose_spec
    constructor
    · rintro heq
      exact ⟨links, Option.some.inj heq ▸ hchosen⟩
    · rintro ⟨links', h'⟩
      rw [(hchosen.unique h').2]
  · next h =>
    constructor
    · simp
    · rintro ⟨links, hc⟩
      exact absurd ⟨metres, links, hc⟩ h

theorem metresOf_eq_none :
    metresOf view n = none ↔ ∀ links metres, ¬ Chain view links n metres := by
  rw [Option.eq_none_iff_forall_ne_some]
  simp only [ne_eq, metresOf_eq_some, not_exists]
  exact forall_comm

end MeshPipeline.StepUnits
