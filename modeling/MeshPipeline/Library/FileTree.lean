import Mathlib.Data.List.Basic
import Mathlib.Order.Defs.LinearOrder

/-!
# Directory trees

A directory lists leaves and directories by name. A path is looked up from the top, a leaf is
written with the directories above it, and neither is written where the other is.
-/

/-- A directory; `leaf` and `dir` are its first entry and the others. -/
inductive FileTree (α β : Type*)
  | nil
  | leaf (name : α) (content : β) (rest : FileTree α β)
  | dir (name : α) (inside : FileTree α β) (rest : FileTree α β)
  deriving DecidableEq, Repr

namespace FileTree

variable {α β : Type*}

/-- What a name stands for. -/
inductive Item (α β : Type*)
  | leaf (content : β)
  | dir (inside : FileTree α β)
  deriving DecidableEq, Repr

@[grind] def names : FileTree α β → List α
  | nil => []
  | leaf n _ rest => n :: rest.names
  | dir n _ rest => n :: rest.names

@[grind] def cons (n : α) : Item α β → FileTree α β → FileTree α β
  | .leaf x, rest => .leaf n x rest
  | .dir inside, rest => .dir n inside rest

/-- No directory has two entries of one name. -/
@[grind] def WF : FileTree α β → Prop
  | nil => True
  | leaf n _ rest => n ∉ rest.names ∧ rest.WF
  | dir n inside rest => n ∉ rest.names ∧ inside.WF ∧ rest.WF

@[grind] def Item.WF : Item α β → Prop
  | .leaf _ => True
  | .dir inside => inside.WF

section

variable [DecidableEq α]

@[grind] def get : FileTree α β → α → Option (Item α β)
  | nil, _ => none
  | leaf m x rest, n => if m = n then some (.leaf x) else rest.get n
  | dir m inside rest, n => if m = n then some (.dir inside) else rest.get n

@[grind] def lookup : List α → FileTree α β → Option (Item α β)
  | [], t => some (.dir t)
  | n :: p, t =>
    match t.get n with
    | none => none
    | some (.leaf x) => if p = [] then some (.leaf x) else none
    | some (.dir inside) => lookup p inside

end

section

variable [DecidableEq α] [LT α] [DecidableLT α]

/-- An entry in the place of its name, or else before the first greater one. -/
@[grind] def put (n : α) (i : Item α β) : FileTree α β → FileTree α β
  | nil => cons n i nil
  | leaf m x rest =>
    if m = n then cons n i rest
    else if n < m ∧ n ∉ rest.names then cons n i (.leaf m x rest)
    else .leaf m x (put n i rest)
  | dir m inside rest =>
    if m = n then cons n i rest
    else if n < m ∧ n ∉ rest.names then cons n i (.dir m inside rest)
    else .dir m inside (put n i rest)

/-- A directory with the directories above it; it fails where a leaf is in the way. -/
def makeDirs : List α → FileTree α β → Option (FileTree α β)
  | [], t => some t
  | n :: p, t =>
    match t.get n with
    | none => (makeDirs p nil).map fun inside => t.put n (.dir inside)
    | some (.leaf _) => none
    | some (.dir inside) => (makeDirs p inside).map fun inside => t.put n (.dir inside)

/-- A leaf with the directories above it; it fails where a directory is in its place. -/
def write (x : β) : List α → FileTree α β → Option (FileTree α β)
  | [], _ => none
  | n :: p, t =>
    match t.get n with
    | none =>
      if p = [] then some (t.put n (.leaf x))
      else (write x p nil).map fun inside => t.put n (.dir inside)
    | some (.leaf _) => if p = [] then some (t.put n (.leaf x)) else none
    | some (.dir inside) =>
      if p = [] then none else (write x p inside).map fun inside => t.put n (.dir inside)

end

/-! ## Entries -/

@[simp, grind =] lemma names_cons (n : α) (i : Item α β) (t : FileTree α β) :
    (cons n i t).names = n :: t.names := by
  cases i <;> rfl

@[grind =] lemma wf_cons (n : α) (i : Item α β) (t : FileTree α β) :
    (cons n i t).WF ↔ n ∉ t.names ∧ i.WF ∧ t.WF := by
  cases i <;> grind [cons, WF, Item.WF]

section

variable [DecidableEq α]

@[grind =] lemma get_cons (n m : α) (i : Item α β) (t : FileTree α β) :
    (cons n i t).get m = if n = m then some i else t.get m := by
  cases i <;> rfl

@[grind =] lemma get_eq_none_iff {t : FileTree α β} {n : α} : t.get n = none ↔ n ∉ t.names := by
  induction t <;> grind

@[grind →] lemma mem_names_of_get {t : FileTree α β} {n : α} {i : Item α β}
    (h : t.get n = some i) : n ∈ t.names := by
  by_contra hn
  rw [get_eq_none_iff.mpr hn] at h
  cases h

/-- What a name stands for in a well-formed directory is well-formed. -/
@[grind →] lemma wf_of_get {t : FileTree α β} (ht : t.WF) {n : α} {i : Item α β}
    (h : t.get n = some i) : i.WF := by
  induction t <;> grind

variable [LT α] [DecidableLT α]

@[grind =] lemma get_put (t : FileTree α β) (n m : α) (i : Item α β) :
    (t.put n i).get m = if n = m then some i else t.get m := by
  induction t <;> grind

@[simp] lemma get_put_self (t : FileTree α β) (n : α) (i : Item α β) :
    (t.put n i).get n = some i := by
  rw [get_put, if_pos rfl]

lemma put_get_self {t : FileTree α β} {n : α} {i : Item α β} (h : t.get n = some i) :
    t.put n i = t := by
  induction t <;> grind

@[grind =] lemma mem_names_put {t : FileTree α β} {n m : α} {i : Item α β} :
    m ∈ (t.put n i).names ↔ m = n ∨ m ∈ t.names := by
  rw [← not_iff_not, not_or, ← get_eq_none_iff, ← get_eq_none_iff, get_put]
  split
  · next h => simp [h]
  · next h => simp [Ne.symm h]

lemma wf_put {t : FileTree α β} (ht : t.WF) {n : α} {i : Item α β} (hi : i.WF) :
    (t.put n i).WF := by
  induction t <;> grind

/-! ## Paths -/

/-- The directories of a path that were made are there, and everything that was there still is. -/
lemma lookup_put_ne (t : FileTree α β) {n m : α} (h : n ≠ m) (i : Item α β) (p : List α) :
    (t.put n i).lookup (m :: p) = t.lookup (m :: p) := by
  grind

lemma wf_makeDirs {p : List α} {t t' : FileTree α β} (ht : t.WF) (h : makeDirs p t = some t') :
    t'.WF := by
  fun_induction makeDirs p t generalizing t' with
  | case1 => grind
  | case2 t n p hget ih =>
    obtain ⟨inside, hinside, rfl⟩ := Option.map_eq_some_iff.mp h
    exact wf_put ht (ih trivial hinside)
  | case3 => cases h
  | case4 t n p inside hget ih =>
    obtain ⟨inside', hinside, rfl⟩ := Option.map_eq_some_iff.mp h
    exact wf_put ht (ih (wf_of_get ht hget) hinside)

lemma wf_write {x : β} {p : List α} {t t' : FileTree α β} (ht : t.WF)
    (h : write x p t = some t') : t'.WF := by
  fun_induction write x p t generalizing t' with
  | case1 => cases h
  | case2 t n hget =>
    cases h
    exact wf_put ht trivial
  | case3 t n p hget hp ih =>
    obtain ⟨inside, hinside, rfl⟩ := Option.map_eq_some_iff.mp h
    exact wf_put ht (ih trivial hinside)
  | case4 t n y hget =>
    cases h
    exact wf_put ht trivial
  | case5 => cases h
  | case6 => cases h
  | case7 t n p inside hget hp ih =>
    obtain ⟨inside', hinside, rfl⟩ := Option.map_eq_some_iff.mp h
    exact wf_put ht (ih (wf_of_get ht hget) hinside)

/-- The leaf that was written is there. -/
lemma lookup_write_self {x : β} {p : List α} {t t' : FileTree α β} (h : write x p t = some t') :
    t'.lookup p = some (.leaf x) := by
  fun_induction write x p t generalizing t' with
  | case1 => cases h
  | case2 t n hget =>
    cases h
    simp [lookup]
  | case3 t n p hget hp ih =>
    obtain ⟨inside, hinside, rfl⟩ := Option.map_eq_some_iff.mp h
    simpa [lookup] using ih hinside
  | case4 t n y hget =>
    cases h
    simp [lookup]
  | case5 => cases h
  | case6 => cases h
  | case7 t n p inside hget hp ih =>
    obtain ⟨inside', hinside, rfl⟩ := Option.map_eq_some_iff.mp h
    simpa [lookup] using ih hinside

omit [LT α] [DecidableLT α] in
lemma lookup_nil (q : List α) (y : β) : (nil : FileTree α β).lookup q ≠ some (.leaf y) := by
  cases q <;> grind

/-- At every other path the leaves are those that were there. -/
lemma lookup_write_ne {x y : β} {p q : List α} {t t' : FileTree α β} (h : write x p t = some t')
    (hne : p ≠ q) : t'.lookup q = some (.leaf y) ↔ t.lookup q = some (.leaf y) := by
  fun_induction write x p t generalizing t' q with
  | case1 => cases h
  | case2 t n hget =>
    cases h
    cases q <;> grind
  | case3 t n p hget hp ih =>
    obtain ⟨inside, hinside, rfl⟩ := Option.map_eq_some_iff.mp h
    cases q with
    | nil => grind
    | cons m q =>
      have hleaf := @ih q inside hinside
      have hnil := lookup_nil q y
      grind
  | case4 t n z hget =>
    cases h
    cases q <;> grind
  | case5 => cases h
  | case6 => cases h
  | case7 t n p inside hget hp ih =>
    obtain ⟨inside', hinside, rfl⟩ := Option.map_eq_some_iff.mp h
    cases q with
    | nil => grind
    | cons m q =>
      have hleaf := @ih q inside' hinside
      grind

/-- Directories that are made change no leaf. -/
lemma lookup_makeDirs {y : β} {p q : List α} {t t' : FileTree α β} (h : makeDirs p t = some t') :
    t'.lookup q = some (.leaf y) ↔ t.lookup q = some (.leaf y) := by
  fun_induction makeDirs p t generalizing t' q with
  | case1 => grind
  | case2 t n p hget ih =>
    obtain ⟨inside, hinside, rfl⟩ := Option.map_eq_some_iff.mp h
    cases q with
    | nil => grind
    | cons m q =>
      have hleaf := @ih q inside hinside
      have hnil := lookup_nil q y
      grind
  | case3 => cases h
  | case4 t n p inside hget ih =>
    obtain ⟨inside', hinside, rfl⟩ := Option.map_eq_some_iff.mp h
    cases q with
    | nil => grind
    | cons m q =>
      have hleaf := @ih q inside' hinside
      grind

end

end FileTree
