import Mathlib.Data.Option.Basic
import Mathlib.Data.Set.Insert
import Mathlib.Logic.Relation

/-!
# Keys that lapse

A key of a store with expiry: a value, and the moment from which it reads as absent. Nothing is
removed when that moment comes; a lapsed value is one that can no longer be read.
-/

structure Lapsing (α : Type*) where
  value : α
  expiresAt : Int
  deriving DecidableEq, Repr

namespace Lapsing

variable {α : Type*} {key : Option (Lapsing α)} {a : α} {now later deadline : Int}

/-- What a read at `now` finds. -/
def live (key : Option (Lapsing α)) (now : Int) : Option α :=
  key.bind fun e => if now < e.expiresAt then some e.value else none

@[simp]
theorem live_none : live (none : Option (Lapsing α)) now = none := rfl

theorem live_some {e : Lapsing α} :
    live (some e) now = if now < e.expiresAt then some e.value else none := rfl

theorem live_eq_some :
    live key now = some a ↔ ∃ e, key = some e ∧ now < e.expiresAt ∧ e.value = a := by
  cases key <;> simp [live]

end Lapsing

/-!
## Exclusive tenure

An office has at most one holder, and every appointment is of someone who never held it before.
Whoever has left the office, by withdrawal or because another was appointed, never holds it
again. This is the abstract purpose of a lease whose ownerships are drawn fresh.
-/

namespace Tenure

variable {α : Type*}

/-- The present holder, and everyone who was ever appointed. -/
structure Office (α : Type*) where
  holder : Option α
  granted : Set α

/-- What may happen to an office. -/
inductive Step : Office α → Office α → Prop
  | keep (s : Office α) : Step s s
  | withdraw (s : Office α) : Step s { s with holder := none }
  | grant (s : Office α) (a : α) (fresh : a ∉ s.granted) :
      Step s { holder := some a, granted := insert a s.granted }

/-- `a` held the office once and does not hold it now. -/
def Office.Lost (s : Office α) (a : α) : Prop := a ∈ s.granted ∧ s.holder ≠ some a

theorem Office.holder_unique {s : Office α} {a b : α} (ha : s.holder = some a)
    (hb : s.holder = some b) : a = b :=
  Option.some.inj (ha.symm.trans hb)

theorem Step.granted_subset {s t : Office α} (h : Step s t) : s.granted ⊆ t.granted := by
  cases h with
  | keep => exact subset_rfl
  | withdraw => exact subset_rfl
  | grant b _ => exact Set.subset_insert b s.granted

/-- Losing the office is final. -/
theorem Step.lost {s t : Office α} (h : Step s t) {a : α} (ha : s.Lost a) : t.Lost a := by
  refine ⟨h.granted_subset ha.1, ?_⟩
  cases h with
  | keep => exact ha.2
  | withdraw => exact fun h => nomatch h
  | grant b fresh =>
    intro hb
    exact fresh (Option.some.inj hb ▸ ha.1)

theorem lost_of_path {s t : Office α} (h : Relation.ReflTransGen Step s t) {a : α}
    (ha : s.Lost a) : t.Lost a := by
  induction h with
  | refl => exact ha
  | tail _ hstep ih => exact hstep.lost ih

end Tenure
