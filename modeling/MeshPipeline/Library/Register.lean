import Mathlib.Data.List.MinMax

/-!
# Versioned registers

A register holds one value under a version drawn from a linear order, and a digest of its content.
A write takes effect when its version is later than the one held, or when it repeats the very write
that is held. Whatever the order the writes arrive in, the register ends at the latest version, and
no write ever changes the digest held under a version.
-/

namespace Versioned

structure Stamp (V D : Type*) where
  version : V
  digest : D
  deriving DecidableEq, Repr

variable {V D : Type*} [LinearOrder V]

/-- `b` may take the place of `a`: its version is later, or it is `a` again. -/
def Advances (a b : Stamp V D) : Prop := a.version < b.version ∨ a = b

instance [DecidableEq D] (a b : Stamp V D) : Decidable (Advances a b) :=
  inferInstanceAs (Decidable (_ ∨ _))

theorem Advances.refl (a : Stamp V D) : Advances a a := .inr rfl

theorem Advances.trans {a b c : Stamp V D} (hab : Advances a b) (hbc : Advances b c) :
    Advances a c := by
  obtain hab | rfl := hab
  · obtain hbc | rfl := hbc
    · exact .inl (hab.trans hbc)
    · exact .inl hab
  · exact hbc

theorem Advances.version_le {a b : Stamp V D} (h : Advances a b) : a.version ≤ b.version := by
  obtain h | rfl := h
  · exact h.le
  · exact le_rfl

theorem Advances.digest_eq {a b : Stamp V D} (h : Advances a b) (hv : a.version = b.version) :
    a.digest = b.digest := by
  obtain h | rfl := h
  · exact absurd h (by simp [hv])
  · rfl

/-- What a register refuses, it refuses after every advance. -/
theorem Advances.refuses {a b c : Stamp V D} (hab : Advances a b) (hac : ¬ Advances a c) :
    ¬ Advances b c :=
  fun hbc => hac (hab.trans hbc)

/-- A register only ever moves on. -/
def Grows (r r' : Option (Stamp V D)) : Prop := ∀ a, r = some a → ∃ b, r' = some b ∧ Advances a b

theorem Grows.refl (r : Option (Stamp V D)) : Grows r r := fun a h => ⟨a, h, .refl a⟩

theorem Grows.trans {r s t : Option (Stamp V D)} (hrs : Grows r s) (hst : Grows s t) :
    Grows r t := by
  intro a ha
  obtain ⟨b, hb, hab⟩ := hrs a ha
  obtain ⟨c, hc, hbc⟩ := hst b hb
  exact ⟨c, hc, hab.trans hbc⟩

/-- The version held, below every version while the register is empty. -/
def version (r : Option (Stamp V D)) : WithBot V := r.map Stamp.version

variable [DecidableEq D]

def write (r : Option (Stamp V D)) (s : Stamp V D) : Option (Stamp V D) :=
  match r with
  | none => some s
  | some a => if Advances a s then some s else some a

theorem grows_write (r : Option (Stamp V D)) (s : Stamp V D) : Grows r (write r s) := by
  rintro a rfl
  by_cases h : Advances a s
  · exact ⟨s, by simp [write, h], h⟩
  · exact ⟨a, by simp [write, h], .refl a⟩

theorem grows_foldl (r : Option (Stamp V D)) (l : List (Stamp V D)) :
    Grows r (l.foldl write r) := by
  induction l generalizing r with
  | nil => exact .refl r
  | cons s l ih => exact (grows_write r s).trans (ih (write r s))

theorem version_write (r : Option (Stamp V D)) (s : Stamp V D) :
    version (write r s) = max (version r) s.version := by
  cases r with
  | none => exact (max_bot_left _).symm
  | some a =>
    by_cases h : Advances a s
    · have hle : version (some a) ≤ s.version := WithBot.coe_le_coe.mpr h.version_le
      rw [write, if_pos h, max_eq_right hle]
      rfl
    · have hle : s.version ≤ a.version := not_lt.mp fun hlt => h (.inl hlt)
      have hle' : (s.version : WithBot V) ≤ version (some a) := WithBot.coe_le_coe.mpr hle
      rw [write, if_neg h, max_eq_left hle']

/-- A register filled by writes in any order holds the latest of their versions. -/
theorem version_foldl (l : List (Stamp V D)) :
    version (l.foldl write none) = (l.map Stamp.version).maximum := by
  induction l using List.reverseRecOn with
  | nil => rfl
  | append_singleton l s ih =>
    rw [List.foldl_append, List.map_append, List.map_singleton, List.maximum_concat, ← ih]
    exact version_write _ s

end Versioned
