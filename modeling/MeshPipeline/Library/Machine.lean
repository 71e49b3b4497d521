import Mathlib.Data.List.Basic
import Mathlib.Logic.Relation

/-!
# Deterministic labelled machines

A `Machine` steps a state under a label, and refuses a label by answering `none`. A run is the
list of its labels, so a run is data: it can be evaluated, cut in two and reasoned about by
induction. The rules below turn what one step preserves into what every run preserves, for
arbitrary runs and for runs whose steps all meet a side condition.
-/

namespace Transition

/-- A partial step function; `none` means that the label is not enabled in the state. -/
structure Machine (σ ι : Type*) where
  step : σ → ι → Option σ

namespace Machine

variable {σ ι : Type*} (m : Machine σ ι)

/-- The state a run leads to, when each of its labels is enabled in turn. -/
def exec : σ → List ι → Option σ
  | s, [] => some s
  | s, l :: ls => (m.step s l).bind fun t => exec t ls

/-- Every step of the run meets `P`, which reads the state before the step and its label. -/
def Meets (P : σ → ι → Prop) : σ → List ι → Prop
  | _, [] => True
  | s, l :: ls => P s l ∧ ∀ t, m.step s l = some t → Meets P t ls

variable {m} {s t : σ} {l : ι} {ls ks : List ι} {P Q : σ → ι → Prop}

@[simp]
theorem exec_nil : m.exec s [] = some s := rfl

theorem exec_cons_eq_some :
    m.exec s (l :: ls) = some t ↔ ∃ u, m.step s l = some u ∧ m.exec u ls = some t := by
  simp [exec, Option.bind_eq_some_iff]

theorem exec_append : m.exec s (ls ++ ks) = (m.exec s ls).bind fun u => m.exec u ks := by
  induction ls generalizing s with
  | nil => simp
  | cons l ls ih => cases h : m.step s l <;> simp [exec, h, ih]

theorem meets_cons (ht : m.step s l = some t) :
    m.Meets P s (l :: ls) ↔ P s l ∧ m.Meets P t ls := by
  simp [Meets, ht]

theorem meets_cons_of_refused (ht : m.step s l = none) : m.Meets P s (l :: ls) ↔ P s l := by
  simp [Meets, ht]

/-- A side condition that can be decided of a step can be decided of a run. -/
instance decidableMeets (m : Machine σ ι) (P : σ → ι → Prop) [∀ s l, Decidable (P s l)] :
    (s : σ) → (ls : List ι) → Decidable (m.Meets P s ls)
  | _, [] => isTrue trivial
  | s, l :: ls =>
    match h : m.step s l with
    | none => decidable_of_iff _ (meets_cons_of_refused h).symm
    | some t =>
      have := decidableMeets m P t ls
      decidable_of_iff _ (meets_cons h).symm

theorem meets_mono (hPQ : ∀ s l, P s l → Q s l) (h : m.Meets P s ls) : m.Meets Q s ls := by
  induction ls generalizing s with
  | nil => trivial
  | cons l ls ih => exact ⟨hPQ s l h.1, fun t ht => ih (h.2 t ht)⟩

theorem meets_and : m.Meets (fun s l => P s l ∧ Q s l) s ls ↔ m.Meets P s ls ∧ m.Meets Q s ls := by
  induction ls generalizing s with
  | nil => simp [Meets]
  | cons l ls ih =>
    cases ht : m.step s l with
    | none => simp [meets_cons_of_refused ht]
    | some t =>
      simp only [meets_cons ht, ih]
      tauto

theorem meets_of_forall (h : ∀ s l, P s l) : m.Meets P s ls := by
  induction ls generalizing s with
  | nil => trivial
  | cons l ls ih => exact ⟨h s l, fun t _ => ih⟩

theorem meets_append (hs : m.exec s ls = some t) :
    m.Meets P s (ls ++ ks) ↔ m.Meets P s ls ∧ m.Meets P t ks := by
  induction ls generalizing s with
  | nil =>
    obtain rfl : s = t := by simpa using hs
    simp [Meets]
  | cons l ls ih =>
    obtain ⟨u, hu, hls⟩ := exec_cons_eq_some.mp hs
    simp [Meets, hu, ih hls, and_assoc]

/-- Labels that all lie in a class give a run whose steps do. -/
theorem meets_of_labels {C : ι → Prop} (h : ∀ l ∈ ls, C l) : m.Meets (fun _ l => C l) s ls := by
  induction ls generalizing s with
  | nil => trivial
  | cons l ls ih =>
    exact ⟨h l (by simp), fun t _ => ih fun k hk => h k (by simp [hk])⟩

/-- The invariant rule: what every permitted step preserves holds wherever the run leads. -/
theorem exec_invariant {I : σ → Prop}
    (hstep : ∀ s l t, I s → P s l → m.step s l = some t → I t)
    (hs : I s) (hP : m.Meets P s ls) (h : m.exec s ls = some t) : I t := by
  induction ls generalizing s with
  | nil =>
    obtain rfl : s = t := by simpa using h
    exact hs
  | cons l ls ih =>
    obtain ⟨u, hu, hls⟩ := exec_cons_eq_some.mp h
    exact ih (hstep s l u hs hP.1 hu) (hP.2 u hu) hls

/-- The invariant rule for runs without a side condition. -/
theorem exec_invariant_of_step {I : σ → Prop}
    (hstep : ∀ s l t, I s → m.step s l = some t → I t)
    (hs : I s) (h : m.exec s ls = some t) : I t :=
  exec_invariant (P := fun _ _ => True) (fun s l t hI _ => hstep s l t hI) hs
    (meets_of_forall fun _ _ => trivial) h

/-- The rule for steps: what an invariant adds to a side condition, every step of the run has. -/
theorem meets_of_invariant {I : σ → Prop}
    (hstep : ∀ s l t, I s → P s l → m.step s l = some t → I t)
    (hPQ : ∀ s l, I s → P s l → Q s l) (hs : I s) (hP : m.Meets P s ls) : m.Meets Q s ls := by
  induction ls generalizing s with
  | nil => trivial
  | cons l ls ih =>
    refine ⟨hPQ s l hs hP.1, ?_⟩
    intro t ht
    exact ih (hstep s l t hs hP.1 ht) (hP.2 t ht)

/-- The relation rule: a reflexive transitive relation that every permitted step of an invariant
state respects relates the two ends of a run. -/
theorem exec_relates {I : σ → Prop} {R : σ → σ → Prop} (hrefl : ∀ s, R s s)
    (htrans : ∀ {a b c}, R a b → R b c → R a c)
    (hinv : ∀ s l t, I s → P s l → m.step s l = some t → I t)
    (hstep : ∀ s l t, I s → P s l → m.step s l = some t → R s t)
    (hs : I s) (hP : m.Meets P s ls) (h : m.exec s ls = some t) : R s t := by
  induction ls generalizing s with
  | nil =>
    obtain rfl : s = t := by simpa using h
    exact hrefl s
  | cons l ls ih =>
    obtain ⟨u, hu, hls⟩ := exec_cons_eq_some.mp h
    exact htrans (hstep s l u hs hP.1 hu) (ih (hinv s l u hs hP.1 hu) (hP.2 u hu) hls)

/-- The run of a machine that refines an abstract transition relation is a path of it. -/
theorem exec_refines {α : Type*} {A : α → α → Prop} (abs : σ → α) {I : σ → Prop}
    (hinv : ∀ s l t, I s → P s l → m.step s l = some t → I t)
    (hstep : ∀ s l t, I s → P s l → m.step s l = some t → A (abs s) (abs t))
    (hs : I s) (hP : m.Meets P s ls) (h : m.exec s ls = some t) :
    Relation.ReflTransGen A (abs s) (abs t) :=
  exec_relates (R := fun a b => Relation.ReflTransGen A (abs a) (abs b)) (fun _ => .refl)
    (fun hab hbc => hab.trans hbc) hinv
    (fun s l t hI hP ht => .single (hstep s l t hI hP ht)) hs hP h

/-- A run under a sequence of labels grows by one step at its end. -/
theorem exec_range_succ (labels : Nat → ι) (n : Nat) :
    m.exec s ((List.range (n + 1)).map labels) =
      (m.exec s ((List.range n).map labels)).bind fun t => m.step t (labels n) := by
  rw [List.range_succ, List.map_append, exec_append]
  congr 1
  funext t
  cases h : m.step t (labels n) <;> simp [exec, h]

/-- The termination rule: when the permitted steps of invariant states lower a measure and only
final states refuse a label, going on under any labels leads to a final state. -/
theorem exec_reaches {I F : σ → Prop} (μ : σ → Nat)
    (hinv : ∀ s l t, I s → P s l → m.step s l = some t → I t)
    (hstep : ∀ s l t, I s → P s l → m.step s l = some t → μ t < μ s)
    (hprogress : ∀ s l, ¬ F s → (m.step s l).isSome) (labels : Nat → ι) (hs : I s)
    (hP : ∀ n, m.Meets P s ((List.range n).map labels)) :
    ∃ n t, m.exec s ((List.range n).map labels) = some t ∧ I t ∧ F t := by
  induction hμ : μ s using Nat.strongRecOn generalizing s labels with
  | ind k ih =>
    by_cases hF : F s
    · exact ⟨0, s, rfl, hs, hF⟩
    obtain ⟨u, hu⟩ := Option.isSome_iff_exists.mp (hprogress s (labels 0) hF)
    have hshift : ∀ n, (List.range (n + 1)).map labels =
        labels 0 :: (List.range n).map fun i => labels (i + 1) := by
      intro n
      simp [List.range_succ_eq_map, Function.comp_def]
    have hmeets : ∀ n, P s (labels 0) ∧ m.Meets P u ((List.range n).map fun i => labels (i + 1)) :=
      fun n => (meets_cons hu).mp (hshift n ▸ hP (n + 1))
    have hperm := (hmeets 0).1
    obtain ⟨n, t, hexec, ht, hfinal⟩ := ih (μ u) (hμ ▸ hstep s _ u hs hperm hu)
      (fun i => labels (i + 1)) (hinv s _ u hs hperm hu) (fun n => (hmeets n).2) rfl
    refine ⟨n + 1, t, ?_, ht, hfinal⟩
    rw [hshift, exec, hu]
    exact hexec

/-! ## What a run commits -/

section Trace

variable {κ : Type*}

/-- The commits of a run, in their order, where a step commits at most one thing. -/
def trace (m : Machine σ ι) (commits : σ → ι → Option κ) : σ → List ι → List κ
  | _, [] => []
  | s, l :: ls => (commits s l).toList ++ (m.step s l).elim [] fun t => trace m commits t ls

/-- The history rule: an invariant of the state and of what has been committed to get there. -/
theorem exec_history {commits : σ → ι → Option κ} {I : σ → List κ → Prop}
    (hstep : ∀ s l t ks, I s ks → P s l → m.step s l = some t → I t (ks ++ (commits s l).toList))
    {ks : List κ} (hs : I s ks) (hP : m.Meets P s ls) (h : m.exec s ls = some t) :
    I t (ks ++ m.trace commits s ls) := by
  induction ls generalizing s ks with
  | nil =>
    obtain rfl : s = t := by simpa using h
    simpa [trace] using hs
  | cons l ls ih =>
    obtain ⟨u, hu, hls⟩ := exec_cons_eq_some.mp h
    have hnext := ih (hstep s l u ks hs hP.1 hu) (hP.2 u hu) hls
    simpa [trace, hu] using hnext

theorem mem_trace {commits : σ → ι → Option κ} {k : κ} (h : k ∈ m.trace commits s ls) :
    ∃ u, ∃ l ∈ ls, commits u l = some k := by
  induction ls generalizing s with
  | nil => cases h
  | cons l ls ih =>
    obtain hk | hk := List.mem_append.mp h
    · exact ⟨s, l, List.mem_cons_self, Option.mem_toList.mp hk⟩
    · cases ht : m.step s l with
      | none => simp [ht] at hk
      | some t =>
        obtain ⟨u, k', hmem, hcommit⟩ := ih (s := t) (by simpa [ht] using hk)
        exact ⟨u, k', List.mem_cons_of_mem _ hmem, hcommit⟩

theorem trace_append {commits : σ → ι → Option κ} (hs : m.exec s ls = some t) :
    m.trace commits s (ls ++ ks) = m.trace commits s ls ++ m.trace commits t ks := by
  induction ls generalizing s with
  | nil =>
    obtain rfl : s = t := by simpa using hs
    rfl
  | cons l ls ih =>
    obtain ⟨u, hu, hls⟩ := exec_cons_eq_some.mp hs
    simp [trace, hu, ih hls]

end Trace

end Machine

end Transition
