import Mathlib.Data.List.Basic

/-!
# While loops

A loop that changes a value as long as a test holds, run for at most a number of rounds. A body that
leaves a value alone for which the test holds never ends.
-/

namespace While

variable {α : Type*} (again : α → Bool) (body : α → α)

/-- The value that the loop ends with; `none` while it is still running. -/
def run : Nat → α → Option α
  | 0, _ => none
  | n + 1, a => if again a then run n (body a) else some a

variable {again : α → Bool} {body : α → α} {a b : α} {n : Nat}

theorem run_of_exit (h : again a = false) : run again body (n + 1) a = some a := by
  simp [run, h]

/-- The loop ends only where its test fails. -/
theorem exit_of_run (h : run again body n a = some b) : again b = false := by
  induction n generalizing a with
  | zero => cases h
  | succ n ih =>
    rw [run] at h
    split at h
    · exact ih h
    · next hexit =>
      obtain rfl := Option.some.inj h
      simpa using hexit

/-- A value that the body leaves alone is looked at again for ever. -/
theorem run_of_stuck (h : again a = true) (hstuck : body a = a) : run again body n a = none := by
  induction n with
  | zero => rfl
  | succ n ih => rw [run, if_pos h, hstuck, ih]

/-- A loop over such values ends at once or never. -/
theorem eq_of_run (hstuck : body a = a) (h : run again body n a = some b) :
    a = b ∧ again a = false := by
  cases hagain : again a with
  | true =>
    rw [run_of_stuck hagain hstuck] at h
    cases h
  | false =>
    cases n with
    | zero => cases h
    | succ n =>
      rw [run_of_exit hagain] at h
      exact ⟨Option.some.inj h, rfl⟩

end While

/-!
## Steps that count what they change

A step returns the new state and how many changes it made. Steps are run one after the other, or
round after round until one changes nothing.
-/

namespace Counted

variable {σ ι : Type*}

/-- A step that counts no change has made none. -/
def Sound (f : σ → σ × ℕ) : Prop := ∀ s, (f s).2 = 0 → (f s).1 = s

/-- A step for each item, the counts added up. -/
def each (f : ι → σ → σ × ℕ) : List ι → σ → σ × ℕ
  | [], s => (s, 0)
  | i :: is, s => ((each f is (f i s).1).1, (f i s).2 + (each f is (f i s).1).2)

/-- A step and then another one. -/
def andThen (f g : σ → σ × ℕ) (s : σ) : σ × ℕ := ((g (f s).1).1, (f s).2 + (g (f s).1).2)

/-- Rounds of a step, till one that has nothing to do or changes nothing. -/
def rounds (done : σ → Bool) (f : σ → σ × ℕ) : ℕ → σ → σ × ℕ
  | 0, s => (s, 0)
  | n + 1, s =>
    if done s then (s, 0)
    else if (f s).2 = 0 then f s
    else ((rounds done f n (f s).1).1, (f s).2 + (rounds done f n (f s).1).2)

lemma Sound.each {f : ι → σ → σ × ℕ} (h : ∀ i, Sound (f i)) (is : List ι) :
    Sound (Counted.each f is) := by
  intro s hs
  induction is generalizing s with
  | nil => rfl
  | cons i is ih =>
    simp only [Counted.each, Nat.add_eq_zero_iff] at hs ⊢
    rw [ih _ hs.2, h i s hs.1]

lemma Sound.andThen {f g : σ → σ × ℕ} (hf : Sound f) (hg : Sound g) :
    Sound (Counted.andThen f g) := by
  intro s hs
  simp only [Counted.andThen, Nat.add_eq_zero_iff] at hs ⊢
  rw [hg _ hs.2, hf s hs.1]

lemma Sound.rounds {f : σ → σ × ℕ} (h : Sound f) (done : σ → Bool) (n : ℕ) :
    Sound (Counted.rounds done f n) := by
  intro s hs
  induction n generalizing s with
  | zero => rfl
  | succ n ih =>
    simp only [Counted.rounds] at hs ⊢
    split_ifs at hs ⊢ with hd h0
    · rfl
    · exact h s h0
    · simp only [Nat.add_eq_zero_iff] at hs
      exact absurd hs.1 h0

/-- A step after which a property still holds. -/
def Keeps (I : σ → Prop) (f : σ → σ × ℕ) : Prop := ∀ s, I s → I (f s).1

variable {I : σ → Prop}

lemma Keeps.each {f : ι → σ → σ × ℕ} (h : ∀ i, Keeps I (f i)) (is : List ι) :
    Keeps I (Counted.each f is) := by
  intro s hs
  induction is generalizing s with
  | nil => exact hs
  | cons i is ih => exact ih _ (h i s hs)

lemma Keeps.andThen {f g : σ → σ × ℕ} (hf : Keeps I f) (hg : Keeps I g) :
    Keeps I (Counted.andThen f g) := fun s hs => hg _ (hf s hs)

lemma Keeps.rounds {f : σ → σ × ℕ} (h : Keeps I f) (done : σ → Bool) (n : ℕ) :
    Keeps I (Counted.rounds done f n) := by
  intro s hs
  induction n generalizing s with
  | zero => exact hs
  | succ n ih =>
    simp only [Counted.rounds]
    split_ifs
    · exact hs
    · exact h s hs
    · exact ih _ (h s hs)

end Counted
