import Mathlib.Algebra.Field.Rat
import Mathlib.Data.List.DropRight
import MeshPipeline.Library.DecimalRound
import MeshPipeline.Library.Regex
import MeshPipeline.Library.Tally

/-!
# The length unit that a STEP file declares

The reader finds the contexts of the file by a pattern over its bytes, the instances they refer to
by a search for their names, and what a unit is by patterns over the instance. Numbers are exact
here.
-/

namespace MeshPipeline.StepUnits

open Regex

/-- The bytes of a file, each as the Latin-1 character of its number. -/
abbrev Data := List Char

/-- The SI prefixes STEP spells, as powers of ten of the metre. -/
def siPrefixes : List (String × ℚ) :=
  [("EXA", 10 ^ 18), ("PETA", 10 ^ 15), ("TERA", 10 ^ 12), ("GIGA", 10 ^ 9), ("MEGA", 10 ^ 6),
    ("KILO", 10 ^ 3), ("HECTO", 10 ^ 2), ("DECA", 10), ("DECI", 1 / 10), ("CENTI", 1 / 10 ^ 2),
    ("MILLI", 1 / 10 ^ 3), ("MICRO", 1 / 10 ^ 6), ("NANO", 1 / 10 ^ 9), ("PICO", 1 / 10 ^ 12),
    ("FEMTO", 1 / 10 ^ 15), ("ATTO", 1 / 10 ^ 18)]

def siPrefix (word : Data) : Option ℚ :=
  (siPrefixes.find? fun e => e.1.toList = word).map (·.2)

/-! ## The patterns -/

def num : Pattern :=
  sequence [optional (anyOf "-+"),
    .alt (sequence [digits, optional (lit "."), many (.char isDigit)]) (sequence [lit ".", digits]),
    optional (sequence [anyOf "eE", optional (anyOf "-+"), digits])]

def context : Pattern :=
  sequence [lit "GLOBAL_UNIT_ASSIGNED_CONTEXT", spaces, lit "(", spaces, lit "(",
    .group 1 (many (noneOf ")")), lit ")", spaces, lit ")"]

def reference : Pattern := sequence [lit "#", .group 1 digits]

def si : Pattern :=
  sequence [lit "SI_UNIT", spaces, lit "(", spaces, .group 1 (.star false (noneOf ",()")), spaces,
    lit ",", spaces, .group 2 (.star false (noneOf ",()")), spaces, lit ")"]

def conversion : Pattern :=
  sequence [lit "CONVERSION_BASED_UNIT", spaces, lit "(", spaces, lit "'",
    .group 1 (many (.alt (noneOf "'") (lit "''"))), lit "'", spaces, lit ",", spaces, lit "#",
    .group 2 digits, spaces, lit ")"]

/-- The measure of a conversion, typed or bare, and then the unit it is counted in. -/
def measure : Pattern :=
  sequence [lit "MEASURE_WITH_UNIT", spaces, lit "(", spaces,
    .alt (sequence [many (.char fun c => 'A' ≤ c && c ≤ 'Z' || c == '_'), lit "MEASURE", spaces,
        lit "(", spaces, .group 1 num, spaces, lit ")"])
      (.group 2 num),
    spaces, lit ",", spaces, lit "#", .group 3 digits]

def assign : Pattern := sequence [spaces, lit "=", spaces]

/-! ## Numbers and texts -/

/-- `int` of a text of digits. -/
def int (ds : Data) : ℕ := ds.foldl (fun n c => n * 10 + (c.toNat - '0'.toNat)) 0

def signed : Data → Bool × Data
  | '-' :: ds => (true, ds)
  | '+' :: ds => (false, ds)
  | ds => (false, ds)

/-- The number that is written, as `float` reads it but exact. -/
def float (written : Data) : ℚ :=
  let (negative, unsigned) := signed written
  let whole := unsigned.takeWhile isDigit
  let (fraction, rest) :=
    match unsigned.dropWhile isDigit with
    | '.' :: cs => (cs.takeWhile isDigit, cs.dropWhile isDigit)
    | cs => ([], cs)
  let exponent : ℤ :=
    match rest with
    | [] => 0
    | _ :: cs => if (signed cs).1 then -(int (signed cs).2 : ℤ) else int (signed cs).2
  let size : ℚ := int (whole ++ fraction) * 10 ^ (exponent - fraction.length)
  if negative then -size else size

def strip (s : Data) : Data := (s.dropWhile isSpace).rdropWhile isSpace

def hexDigit (n : ℕ) : Char := "0123456789abcdef".toList.getD n '?'

/-- A character inside the quotes of `repr`. -/
def reprChar (quote c : Char) : Data :=
  let n := c.toNat
  if c = quote ∨ c = '\\' then ['\\', c]
  else if c = '\n' then ['\\', 'n']
  else if c = '\r' then ['\\', 'r']
  else if c = '\t' then ['\\', 't']
  else if n < 32 ∨ 127 ≤ n ∧ n ≤ 160 ∨ n = 173 then
    ['\\', 'x', hexDigit (n / 16), hexDigit (n % 16)]
  else [c]

/-- `repr` of a Latin-1 text. -/
def repr (s : Data) : String :=
  let quote := if '\'' ∈ s ∧ '"' ∉ s then '"' else '\''
  String.ofList (quote :: s.flatMap (reprChar quote) ++ [quote])

/-- `replace("''", "'")`. -/
def unescape : Data → Data
  | '\'' :: '\'' :: cs => '\'' :: unescape cs
  | c :: cs => c :: unescape cs
  | [] => []

/-! ## The instances -/

/-- The name of an instance as the search looks for it. -/
def needle (ref : ℕ) : Data := '#' :: Nat.toDigits 10 ref

def beforeOk : Option Char → Bool
  | none => true
  | some c => [';', ' ', '\n', '\r', '\t'].contains c

/-- What follows the first name that stands where an instance starts and is assigned to. The names
cannot overlap, so the search may go on at the next character. -/
def findAssigned (needle : Data) (before : Option Char) : Data → Option Data
  | [] => none
  | c :: cs =>
    match if needle.isPrefixOf (c :: cs) && beforeOk before
        then assign.matchAt ((c :: cs).drop needle.length) else none with
    | some r => some r.1
    | none => findAssigned needle (some c) cs

/-- A text up to the first semicolon outside a quoted string. -/
def untilSemicolon (quoted : Bool) : Data → Option Data
  | [] => none
  | c :: cs =>
    if c = '\'' then (untilSemicolon (!quoted) cs).map (c :: ·)
    else if c = ';' ∧ !quoted then some []
    else (untilSemicolon quoted cs).map (c :: ·)

/-- `_Instances._find`; the cache of `body` changes no answer. -/
def find (data : Data) (ref : ℕ) : Option Data :=
  (findAssigned (needle ref) none data).bind (untilSemicolon false)

/-! ## The units -/

/-- One length unit: metres per file unit, or none and the reason. -/
structure DeclaredLength where
  metres : Option ℚ
  name : String
  problem : String
  deriving DecidableEq

/-- How deep a conversion may chain. -/
def maxDepth : ℕ := 4

/-- `_unit_metres`, with the depths that are left. -/
def unitMetres (data : Data) : ℕ → ℕ → DeclaredLength
  | left, ref =>
    match find data ref with
    | none => ⟨none, "", s!"unit #{ref} is missing"⟩
    | some body =>
      match left with
      | 0 => ⟨none, "", "the unit definitions refer to each other in a loop"⟩
      | left + 1 =>
        match conversion.search body with
        | some conv =>
          let name := unescape (conv.text 1)
          match measure.search ((find data (int (conv.text 2))).getD []) with
          | none => ⟨none, String.ofList name, s!"the conversion of {repr name} states no length"⟩
          | some m =>
            let base := unitMetres data left (int (m.text 3))
            match base.metres with
            | none => ⟨none, String.ofList name, base.problem⟩
            | some metres =>
              let value := float (if m.text 1 = [] then m.text 2 else m.text 1)
              if ¬ 0 < value then
                ⟨none, String.ofList name,
                  s!"the conversion of {repr name} is not a positive length"⟩
              else ⟨some (value * metres), String.ofList name, ""⟩
        | none =>
          match si.search body with
          | none =>
            ⟨none, "", "the length unit is neither an SI nor a conversion-based unit"⟩
          | some g =>
            let siWord := strip (g.text 1)
            let unit := strip (g.text 2)
            if unit ≠ ".METRE.".toList then
              ⟨none, "", s!"the SI length unit names {repr unit}, not the metre"⟩
            else if siWord = ['$'] ∨ siWord = [] then ⟨some 1, "metre", ""⟩
            else
              let word := (siWord.dropWhile (· == '.')).rdropWhile (· == '.')
              match if siWord.head? = some '.' ∧ siWord.getLast? = some '.'
                  then siPrefix word else none with
              | none => ⟨none, "", s!"the SI prefix {repr siWord} is not one STEP defines"⟩
              | some scale =>
                ⟨some scale, String.ofList (word.map Char.toLower) ++ "metre", ""⟩

/-- The loop of `_length_unit_of_context`, with the SI unit of the metre seen so far. -/
def lengthUnitAmong (data : Data) (fallback : Option ℕ) : List ℕ → Option DeclaredLength
  | [] => fallback.map (unitMetres data (maxDepth + 1))
  | ref :: refs =>
    match find data ref with
    | none => lengthUnitAmong data fallback refs
    | some body =>
      if "LENGTH_UNIT".toList <:+: body then some (unitMetres data (maxDepth + 1) ref)
      else if fallback = none ∧ ".METRE.".toList <:+: body ∧ "SI_UNIT".toList <:+: body then
        lengthUnitAmong data (some ref) refs
      else lengthUnitAmong data fallback refs

def lengthUnitOfContext (data : Data) (refs : List ℕ) : Option DeclaredLength :=
  lengthUnitAmong data none refs

/-- The references of every context the pattern finds. -/
def contexts (data : Data) : List (List ℕ) :=
  (context.findAll data).map fun ctx =>
    (reference.findAll (ctx.text 1)).map fun r => int (r.text 1)

/-- Under what two lengths are the same. -/
def useKey (found : DeclaredLength) : Option ℚ × String :=
  (found.metres.map (DecimalRound.round 12), found.problem)

/-- Every distinct length unit the contexts assign, with how many contexts assign it. -/
def declaredLengthUses (data : Data) : List (DeclaredLength × ℕ) :=
  Tally.tally useKey ((contexts data).filterMap (lengthUnitOfContext data))

end MeshPipeline.StepUnits
