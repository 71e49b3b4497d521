import Mathlib.Data.List.Basic

/-!
# Dictionaries of plain values

What a record is stored as: text keys with plain values, read back with the getters of the sources.
A getter answers nothing where the stored value has another type.
-/

/-- A plain value. -/
inductive Json
  | null
  | bool (b : Bool)
  | int (n : Int)
  | str (s : String)
  | arr (xs : List Json)
  | obj (entries : List (String × Json))

abbrev Dict := List (String × Json)

namespace Json

/-- Python's truth of a value. -/
def truthy : Json → Bool
  | null => false
  | bool b => b
  | int n => n != 0
  | str s => s != ""
  | arr xs => !xs.isEmpty
  | obj entries => !entries.isEmpty

def ofOption {α : Type*} (f : α → Json) : Option α → Json
  | none => null
  | some a => f a

def toStr : Json → Option String
  | str s => some s
  | _ => none

def toObj : Json → Option Dict
  | obj d => some d
  | _ => none

end Json

namespace Dict

/-- `d.get(key)`. -/
def get (d : Dict) (key : String) : Json := (d.lookup key).getD .null

/-- `d.get(key, default)` of a text. -/
def text (d : Dict) (key : String) (default : String) : Option String :=
  match d.lookup key with
  | none => some default
  | some (.str s) => some s
  | some _ => none

/-- `d.get(key)` of a text that may be missing. -/
def text? (d : Dict) (key : String) : Option (Option String) :=
  match d.get key with
  | .null => some none
  | .str s => some (some s)
  | _ => none

/-- `d.get(key)` of a truth value that may be missing. -/
def bool? (d : Dict) (key : String) : Option (Option Bool) :=
  match d.get key with
  | .null => some none
  | .bool b => some (some b)
  | _ => none

/-- `bool(d.get(key, False))`. -/
def truth (d : Dict) (key : String) : Bool := (d.get key).truthy

/-- `int(d.get(key, 0) or 0)`. -/
def int (d : Dict) (key : String) : Option Int :=
  match d.get key with
  | .null => some 0
  | .int n => some n
  | .bool b => some b.toNat
  | _ => none

/-- `list(d.get(key) or [])`, with every element read by `read`. -/
def list {α : Type*} (read : Json → Option α) (d : Dict) (key : String) : Option (List α) :=
  match d.get key with
  | .null => some []
  | .arr xs => xs.mapM read
  | _ => none

/-- `dict(d[key]) if isinstance(d.get(key), Mapping) else {}`. -/
def dict (d : Dict) (key : String) : Dict :=
  match d.get key with
  | .obj entries => entries
  | _ => []

end Dict

lemma Json.mapM_map {α : Type*} {f : α → Json} {read : Json → Option α}
    (h : ∀ a, read (f a) = some a) (xs : List α) : (xs.map f).mapM read = some xs := by
  induction xs with
  | nil => rfl
  | cons x xs ih => simp [h, ih]
