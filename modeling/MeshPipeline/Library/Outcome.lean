import Mathlib.Data.List.Forall2
import Mathlib.Tactic.SplitIfs

/-!
# Outcomes of computations that can fail

What every result and every error of a computation satisfies, with a rule for each way to build one.
-/

/-- Results satisfy the one predicate and errors the other. -/
def Outcome {ε α : Type*} (P : α → Prop) (E : ε → Prop) : Except ε α → Prop
  | .ok a => P a
  | .error e => E e

namespace Outcome

section

variable {ε α β : Type*} {P R : α → Prop} {E F : ε → Prop} {x : Except ε α}

lemma weaken (h : Outcome P E x) (hP : ∀ a, P a → R a) (hE : ∀ e, E e → F e) : Outcome R F x := by
  cases x with
  | ok a => exact hP a h
  | error e => exact hE e h

lemma of_ok {a : α} (h : Outcome P E x) (hx : x = .ok a) : P a := by
  subst hx
  exact h

lemma of_error {e : ε} (h : Outcome P E x) (hx : x = .error e) : E e := by
  subst hx
  exact h

/-- A computation taken with its own result. -/
lemma self (hE : ∀ e, x = .error e → E e) : Outcome (fun a => x = .ok a) E x := by
  cases x with
  | ok a => rfl
  | error e => exact hE e rfl

lemma ite {c : Prop} [Decidable c] {y : Except ε α} (hx : c → Outcome P E x)
    (hy : ¬ c → Outcome P E y) : Outcome P E (if c then x else y) := by
  split_ifs with h
  · exact hx h
  · exact hy h

end

section

variable {ε α β : Type} {P : α → Prop} {R : β → Prop} {E : ε → Prop} {x : Except ε α}
  {f : α → Except ε β}

lemma bind (hx : Outcome P E x) (hf : ∀ a, P a → Outcome R E (f a)) : Outcome R E (x >>= f) := by
  cases x with
  | ok a => exact hf a hx
  | error e => exact hx

lemma map {g : α → β} (hx : Outcome P E x) (hg : ∀ a, P a → R (g a)) : Outcome R E (g <$> x) := by
  cases x with
  | ok a => exact hg a hx
  | error e => exact hx

end

section

variable {ε α γ : Type} {E : ε → Prop} {f : α → γ → Except ε α}

/-- The rule of a loop: what holds of the state once a part of the list is done. -/
theorem foldlM {P : List γ → α → Prop} {a : α} (l : List γ) (hstart : P [] a)
    (hstep : ∀ done c rest a, l = done ++ c :: rest → P done a →
      Outcome (P (done ++ [c])) E (f a c)) : Outcome (P l) E (l.foldlM f a) := by
  have hrest (done rest : List γ) (a : α) (hl : l = done ++ rest) (ha : P done a) :
      Outcome (P l) E (rest.foldlM f a) := by
    induction rest generalizing done a with
    | nil =>
      obtain rfl : l = done := by rw [hl, List.append_nil]
      exact ha
    | cons c rest ih =>
      rw [List.foldlM_cons]
      refine bind (hstep done c rest a hl ha) fun b hb => ih (done ++ [c]) b ?_ hb
      rw [hl, List.append_assoc, List.singleton_append]
  exact hrest [] l a rfl hstart

end

/-! ## Two computations -/

/-- Both fail, or both give a result and the results are related. -/
def Alike {ε α β : Type} (R : α → β → Prop) : Except ε α → Except ε β → Prop
  | .ok a, .ok b => R a b
  | .error _, .error _ => True
  | _, _ => False

namespace Alike

variable {ε α β γ δ : Type} {R : α → β → Prop} {S : γ → δ → Prop} {x : Except ε α} {y : Except ε β}

lemma ok {a : α} {b : β} (h : R a b) : Alike R (.ok a : Except ε α) (.ok b) := h

lemma error (e e' : ε) : Alike R (.error e) (.error e') := trivial

lemma bind {f : α → Except ε γ} {g : β → Except ε δ} (h : Alike R x y)
    (hfg : ∀ a b, x = .ok a → y = .ok b → R a b → Alike S (f a) (g b)) :
    Alike S (x >>= f) (y >>= g) := by
  cases x with
  | ok a =>
    cases y with
    | ok b => exact hfg a b rfl rfl h
    | error e => exact h.elim
  | error e =>
    cases y with
    | ok b => exact h.elim
    | error e' => trivial

lemma ite {c d : Prop} [Decidable c] [Decidable d] {x' : Except ε α} {y' : Except ε β}
    (hcd : c ↔ d) (hyes : c → Alike R x y) (hno : ¬ c → Alike R x' y') :
    Alike R (if c then x else x') (if d then y else y') := by
  by_cases hc : c
  · rw [if_pos hc, if_pos (hcd.mp hc)]
    exact hyes hc
  · rw [if_neg hc, if_neg (mt hcd.mpr hc)]
    exact hno hc

/-- Two loops over related lists, whose steps keep the states related. -/
theorem foldlM {T : γ → δ → Prop} {f : α → γ → Except ε α} {g : β → δ → Except ε β}
    {l : List γ} {m : List δ} (hlm : List.Forall₂ T l m)
    (hstep : ∀ a b c d, R a b → T c d → Alike R (f a c) (g b d)) {a : α} {b : β} (hab : R a b) :
    Alike R (l.foldlM f a) (m.foldlM g b) := by
  induction hlm generalizing a b with
  | nil => exact hab
  | cons hcd _ ih =>
    rw [List.foldlM_cons, List.foldlM_cons]
    exact bind (hstep _ _ _ _ hab hcd) fun _ _ _ _ h => ih h

end Alike

end Outcome

/-!
## Programs that change a state and may fail

A failure keeps the state that it was raised in. A program is specified by what holds before it, of
its results and of its failures; there is a rule for each way to build one.
-/

/-- A program over the state `S` that gives an `α` or fails with an `E`. -/
def Effect (S E α : Type) : Type := S → Except E α × S

namespace Effect

variable {S E α β : Type}

instance : Monad (Effect S E) where
  pure a := fun s => (.ok a, s)
  bind m f := fun s =>
    match m s with
    | (.ok a, s') => f a s'
    | (.error e, s') => (.error e, s')

def fail (e : E) : Effect S E α := fun s => (.error e, s)

/-- The outcome of a program, a failure included. -/
def attempt (m : Effect S E α) : Effect S E (Except E α) := fun s => (.ok (m s).1, (m s).2)

def read (f : S → α) : Effect S E α := fun s => (.ok (f s), s)

def change (f : S → S) : Effect S E Unit := fun s => (.ok (), f s)

/-- From a state with `P`, a result satisfies `Q` and a failure `R`. -/
def Holds (P : S → Prop) (m : Effect S E α) (Q : α → S → Prop) (R : E → S → Prop) : Prop :=
  ∀ s, P s → Outcome (fun a => Q a (m s).2) (fun e => R e (m s).2) (m s).1

namespace Holds

variable {P P' : S → Prop} {m : Effect S E α} {Q Q' : α → S → Prop} {R R' : E → S → Prop}

lemma weaken (h : Holds P m Q R) (hP : ∀ s, P' s → P s) (hQ : ∀ a s, Q a s → Q' a s)
    (hR : ∀ e s, R e s → R' e s) : Holds P' m Q' R' :=
  fun s hs => (h s (hP s hs)).weaken (fun a => hQ a _) fun e => hR e _

lemma pre (h : Holds P m Q R) (hP : ∀ s, P' s → P s) : Holds P' m Q R :=
  h.weaken hP (fun _ _ => id) fun _ _ => id

lemma post (h : Holds P m Q R) (hQ : ∀ a s, Q a s → Q' a s) : Holds P m Q' R :=
  h.weaken (fun _ => id) hQ fun _ _ => id

lemma pure (a : α) (h : ∀ s, P s → Q a s) : Holds P (Pure.pure a) Q R := h

lemma fail (e : E) (h : ∀ s, P s → R e s) : Holds P (Effect.fail e : Effect S E α) Q R := h

lemma read (f : S → α) (h : ∀ s, P s → Q (f s) s) : Holds P (Effect.read f) Q R := h

lemma change (f : S → S) {Q : Unit → S → Prop} (h : ∀ s, P s → Q () (f s)) :
    Holds P (Effect.change f) Q R := h

lemma bind {f : α → Effect S E β} {U : β → S → Prop} (hm : Holds P m Q R)
    (hf : ∀ a, Holds (Q a) (f a) U R) : Holds P (m >>= f) U R := by
  intro s hs
  have h := hm s hs
  simp only [Bind.bind]
  cases hx : m s with
  | mk x s' =>
    rw [hx] at h
    cases x with
    | ok a => exact hf a s' h
    | error e => exact h

lemma attempt {Q : Except E α → S → Prop}
    (h : Holds P m (fun a => Q (.ok a)) fun e => Q (.error e)) : Holds P (Effect.attempt m) Q R := by
  intro s hs
  have hout := h s hs
  show Q (m s).1 (m s).2
  cases hx : (m s).1 with
  | ok a =>
    rw [hx] at hout
    exact hout
  | error e =>
    rw [hx] at hout
    exact hout

lemma ite {c : Prop} [Decidable c] {m' : Effect S E α} (hyes : c → Holds P m Q R)
    (hno : ¬ c → Holds P m' Q R) : Holds P (if c then m else m') Q R := by
  by_cases h : c
  · rw [if_pos h]
    exact hyes h
  · rw [if_neg h]
    exact hno h

end Holds

end Effect
