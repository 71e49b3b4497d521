import Mathlib.Data.Option.Basic

/-!
# Answers that cover other answers

A ledger holds, for each key, an answer of its own or the key whose answer covers it. Answering a
key again releases what its old answer covered, and an answer of its own is replaced by nothing but
another answer of its own.
-/

inductive Entry (ι α : Type*)
  | own (answer : α)
  | covered (key : ι)
  deriving DecidableEq, Repr

abbrev Ledger (ι α : Type*) := ι → Option (Entry ι α)

namespace Ledger

variable {ι α : Type*} [DecidableEq ι]

def empty : Ledger ι α := fun _ => none

/-- `k` has no answer, or one that an answer on `j` gave it. -/
def coverable (l : Ledger ι α) (j k : ι) : Bool :=
  match l k with
  | none => true
  | some (.own _) => false
  | some (.covered i) => i = j

/-- An answer on `j`, which covers those of `ks` that it may cover. -/
def answer (l : Ledger ι α) (j : ι) (a : α) (ks : List ι) : Ledger ι α := fun k =>
  if k = j then some (.own a)
  else if l.coverable j k then (if k ∈ ks then some (.covered j) else none)
  else l k

/-- The same answer on each of `ks` that has none. -/
def answerEach (l : Ledger ι α) (a : α) (ks : List ι) : Ledger ι α := fun k =>
  if (l k).isNone ∧ k ∈ ks then some (.own a) else l k

/-- The answer that holds for `k`: its own, or that of the key which covers it. -/
def resolve (l : Ledger ι α) (k : ι) : Option α :=
  match l k with
  | none => none
  | some (.own a) => some a
  | some (.covered j) =>
    match l j with
    | some (.own a) => some a
    | _ => none

section Rules

variable {l : Ledger ι α} {j k : ι} {a : α} {ks : List ι}

@[simp] lemma answer_self : l.answer j a ks j = some (.own a) := by simp [answer]

lemma answer_of_coverable (hk : k ≠ j) (h : l.coverable j k = true) :
    l.answer j a ks k = if k ∈ ks then some (.covered j) else none := by
  simp [answer, hk, h]

/-- An answer leaves alone what it may not cover. -/
lemma answer_of_not_coverable (hk : k ≠ j) (h : l.coverable j k = false) :
    l.answer j a ks k = l k := by
  simp [answer, hk, h]

lemma coverable_iff : l.coverable j k = true ↔ l k = none ∨ l k = some (.covered j) := by
  unfold coverable
  cases l k with
  | none => simp
  | some e => cases e <;> simp

lemma answerEach_of_none (hk : l k = none) :
    l.answerEach a ks k = if k ∈ ks then some (.own a) else none := by
  simp [answerEach, hk]

lemma answerEach_of_some {e : Entry ι α} (hk : l k = some e) : l.answerEach a ks k = l k := by
  simp [answerEach, hk]

lemma answerEach_of_notMem (hk : k ∉ ks) : l.answerEach a ks k = l k := by
  simp [answerEach, hk]

/-- The answer on another key never replaces an answer of its own. -/
theorem own_kept {b : α} (hk : k ≠ j) (h : l k = some (.own b)) :
    l.answer j a ks k = some (.own b) := by
  rw [answer_of_not_coverable hk (by simp [coverable, h]), h]

end Rules

end Ledger
