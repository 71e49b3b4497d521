import Mathlib.Tactic.Linarith
import MeshPipeline.IdleRetire.Retirer

/-!
# An idle machine leaves safely

A drain asks the group with nothing held and nothing taken, on a reading that counts what others
asked while they had the lock; and what stops a worker's work is undone wherever the drain ends
without the group's word. This holds of the runs in which no call that stops or asks raises after it
took effect and no job comes later than the drain waits for it.
-/

namespace MeshPipeline.IdleRetire

variable {w w' : World} {i j : ℕ} {k k' : Worker} {answer : Answer} {e : Effect}

namespace Worker

/-- A worker that takes work. -/
def Takes (k : Worker) : Prop := k.consuming = true ∧ k.stopAsked = false

/-- A worker that has nothing and gets nothing. -/
def Empty (k : Worker) : Prop := k.consuming = false ∧ k.holding = 0

/-- No removal or recycling was accepted of late. -/
def Passed (k : Worker) (now : ℚ) : Prop := ∀ t ∈ k.accepted, t + stillHereSeconds ≤ now

end Worker

/-- What others removed while they had the lock came before a reading of the group. -/
def World.Counted (w : World) (i read : ℕ) : Prop :=
  ∀ r ∈ w.removals, r.worker ≠ i → r.locked = true → r.step < read

/-- After the last look at the jobs that the worker holds. -/
def Phase.checked : Phase → Bool
  | .neighbour _ | .rereading _ | .asking _ _ | .gone _ => true
  | _ => false

/-- At the call that stops the work or the one that asks the group. -/
def Phase.stopsOrAsks : Phase → Bool
  | .stopping _ | .asking _ _ => true
  | _ => false

/-- The condition on a step: no job reaches a worker that has looked for the last time, and no call
that stops the work or asks the group raises after it took effect. -/
def Orderly (w : World) : Event → Prop
  | .deliver i => ∀ k ∈ w.workers[i]?, k.phase.checked = false
  | .act i (.raises _ true) => ∀ k ∈ w.workers[i]?, k.phase.stopsOrAsks = false
  | _ => True

instance (w : World) : ∀ event, Decidable (Orderly w event)
  | .deliver i => inferInstanceAs (Decidable (∀ k ∈ w.workers[i]?, k.phase.checked = false))
  | .act i (.raises _ true) =>
    inferInstanceAs (Decidable (∀ k ∈ w.workers[i]?, k.phase.stopsOrAsks = false))
  | .act _ (.raises _ false) | .act _ .returns | .act _ (.group _) | .act _ (.checks _)
  | .advance _ | .finish _ | .landStop _ => .isTrue trivial

/-- A worker in a state of a run. -/
def Worker.Sound (w : World) (i : ℕ) (k : Worker) : Prop :=
  match k.phase with
  | .between | .looking _ | .reading _ | .locking _ | .stopping _ | .unlocking =>
    k.Passed w.now ∧ k.Takes
  | .confirming _ _ | .confirmed _ => k.Passed w.now
  | .settling _ _ => k.Passed w.now ∧ k.consuming = false
  | .neighbour _ | .rereading _ => k.Passed w.now ∧ k.Empty
  | .asking _ read => k.Passed w.now ∧ k.Empty ∧ (w.Owns i → w.Counted i read)
  | .resuming stopped => k.Passed w.now ∧ (stopped = false → k.Takes)
  | .gone deadline => k.Empty ∧ ∃ t, k.accepted = some t ∧ t + stillHereSeconds ≤ deadline

structure World.Sound (w : World) : Prop where
  stamped : ∀ r ∈ w.removals, r.step < w.steps
  workers : ∀ (i : ℕ) (k : Worker), w.workers[i]? = some k → k.Sound w i

/-- A worker stays sound while time goes on and what it has read stays good. -/
lemma Worker.Sound.mono (h : k.Sound w i) (hnow : w.now ≤ w'.now)
    (hcounted : ∀ read, (w.Owns i → w.Counted i read) → w'.Owns i → w'.Counted i read) :
    k.Sound w' i := by
  have hpassed : k.Passed w.now → k.Passed w'.now := fun h t ht => (h t ht).trans hnow
  unfold Sound at h ⊢
  cases hphase : k.phase <;> simp only [hphase] at h ⊢
  case between | looking | reading | locking | stopping | unlocking => exact ⟨hpassed h.1, h.2⟩
  case confirming | confirmed => exact hpassed h
  case settling | neighbour | rereading | resuming => exact ⟨hpassed h.1, h.2⟩
  case asking => exact ⟨hpassed h.1, h.2.1, hcounted _ h.2.2⟩
  case gone => exact h

/-- The world after a call of worker `i`. -/
def World.after (w : World) (i : ℕ) (e : Effect) : World :=
  { w.setWorker i e.worker with
    lock := e.lock
    removals := w.removals ++
      if e.removed then [⟨i, w.steps, Decidable.decide (w.Owns i)⟩] else [] }

/-- What a call of a worker does well: the worker is sound, and another one's lock was its own
before. -/
structure Effect.Good (w : World) (i : ℕ) (e : Effect) : Prop where
  worker : e.worker.Sound (w.after i e) i
  others : ∀ l ∈ e.lock, l.1 ≠ i → w.lock = some l

/-- A call that leaves the lock alone. -/
lemma good_of_same (hlock : e.lock = w.lock) (hsound : e.worker.Sound (w.after i e) i) :
    e.Good w i where
  worker := hsound
  others _ hl _ := hlock ▸ hl

/-- Another worker keeps what it has read, through a call that is good. -/
lemma Effect.Good.counted (h : e.Good w i) (hne : j ≠ i) {read : ℕ}
    (hcounted : w.Owns j → w.Counted j read) (howns : (w.after i e).Owns j) :
    (w.after i e).Counted j read := by
  obtain ⟨l, hl, rfl, hlt⟩ := howns
  have hlock : w.lock = some l := h.others l hl hne
  intro r hr hother hlocked
  obtain hr | hr := List.mem_append.mp hr
  · exact hcounted ⟨l, hlock, rfl, hlt⟩ r hr hother hlocked
  · split at hr
    · -- the lock is another worker's when this one asks
      obtain rfl := List.mem_singleton.mp hr
      obtain ⟨l', hl', hi, -⟩ := of_decide_eq_true hlocked
      rw [hlock] at hl'
      cases hl'
      exact absurd hi hne
    · cases hr

section Call

variable (hk : k.Sound w i) (h : k.act i w.now w.lock w.steps answer = some e)

include hk h

lemma good_looking {start : ℚ} (hphase : k.phase = .looking start) : e.Good w i := by
  simp only [Worker.Sound, hphase] at hk
  cases answer <;> simp only [Worker.act.eq_def, hphase, reduceCtorEq] at h
  case raises refused after =>
    cases h
    exact good_of_same rfl hk
  case returns =>
    split at h
    · cases h
      exact good_of_same rfl hk
    · split at h
      · cases h
        exact good_of_same rfl hk
      · split at h <;> cases h <;> exact good_of_same rfl hk

lemma good_reading {start : ℚ} (hphase : k.phase = .reading start) : e.Good w i := by
  simp only [Worker.Sound, hphase] at hk
  cases answer <;> simp only [Worker.act.eq_def, hphase, reduceCtorEq] at h
  case raises refused after =>
    cases h
    exact good_of_same rfl hk
  case group state =>
    split at h <;> cases h <;> exact good_of_same rfl hk

lemma good_locking {action : Action} (hphase : k.phase = .locking action) : e.Good w i := by
  simp only [Worker.Sound, hphase] at hk
  -- a lock that is taken is nobody else's
  have htaken : ∀ l ∈ some (i, w.now + lockSeconds action), l.1 ≠ i → w.lock = some l := by
    rintro _ ⟨⟩ hne
    exact absurd rfl hne
  cases answer <;> simp only [Worker.act.eq_def, hphase, reduceCtorEq] at h
  case returns =>
    split at h
    · cases h
      exact ⟨hk, htaken⟩
    · cases h
      exact good_of_same rfl hk
  case raises refused after =>
    cases h
    refine ⟨hk, ?_⟩
    intro l hl hne
    simp only at hl
    split at hl
    · exact htaken l hl hne
    · exact hl

lemma good_stopping {action : Action} (hphase : k.phase = .stopping action)
    (hw : w.workers[i]? = some k) (horder : Orderly w (.act i answer)) : e.Good w i := by
  simp only [Worker.Sound, hphase] at hk
  cases answer <;> simp only [Worker.act.eq_def, hphase, reduceCtorEq] at h
  case returns =>
    cases h
    exact good_of_same rfl hk.1
  case raises refused after =>
    cases after with
    | true =>
      have := horder k hw
      simp [hphase, Phase.stopsOrAsks] at this
    | false =>
      cases h
      refine good_of_same rfl ⟨hk.1, fun _ => ⟨hk.2.1, ?_⟩⟩
      simp [hk.2.2]

lemma good_confirming {action : Action} {deadline : ℚ}
    (hphase : k.phase = .confirming action deadline) : e.Good w i := by
  have hpassed : k.Passed w.now := by simpa only [Worker.Sound, hphase] using hk
  cases answer <;> simp only [Worker.act.eq_def, hphase, reduceCtorEq] at h
  case returns =>
    split at h
    · cases h
      refine good_of_same rfl ?_
      simp only [Worker.Sound, hphase]
      exact hpassed
    · cases h
      exact good_of_same rfl hpassed
  case raises refused after =>
    cases h
    exact good_of_same rfl ⟨hpassed, by simp⟩

lemma good_confirmed {action : Action} (hphase : k.phase = .confirmed action) : e.Good w i := by
  simp only [Worker.Sound, hphase] at hk
  cases answer <;> simp only [Worker.act.eq_def, hphase, reduceCtorEq] at h
  case returns =>
    split at h
    · cases h
      exact good_of_same rfl ⟨hk, by simp⟩
    · next hconsuming =>
      cases h
      exact good_of_same rfl ⟨hk, by simpa [Worker.toPhase] using hconsuming⟩
  case raises refused after =>
    cases h
    exact good_of_same rfl ⟨hk, by simp⟩

lemma good_settling {action : Action} {deadline : ℚ}
    (hphase : k.phase = .settling action deadline) : e.Good w i := by
  simp only [Worker.Sound, hphase] at hk
  cases answer <;> simp only [Worker.act.eq_def, hphase, reduceCtorEq] at h
  case returns =>
    split at h
    · cases h
    · split at h
      · cases h
        exact good_of_same rfl ⟨hk.1, by simp⟩
      · next hholding =>
        cases h
        exact good_of_same rfl ⟨hk.1, hk.2, Nat.eq_zero_of_not_pos hholding⟩
  case raises refused after =>
    cases h
    exact good_of_same rfl ⟨hk.1, by simp⟩

lemma good_neighbour {action : Action} (hphase : k.phase = .neighbour action) : e.Good w i := by
  simp only [Worker.Sound, hphase] at hk
  cases answer <;> simp only [Worker.act.eq_def, hphase, reduceCtorEq] at h
  case checks running =>
    split at h
    · cases h
      exact good_of_same rfl ⟨hk.1, by simp⟩
    · cases h
      exact good_of_same rfl hk
  case raises refused after =>
    cases h
    exact good_of_same rfl ⟨hk.1, by simp⟩

lemma good_rereading {action : Action} (hphase : k.phase = .rereading action)
    (hstamped : ∀ r ∈ w.removals, r.step < w.steps) : e.Good w i := by
  simp only [Worker.Sound, hphase] at hk
  cases answer <;> simp only [Worker.act.eq_def, hphase, reduceCtorEq] at h
  case group state =>
    split at h
    · cases h
      -- every removal so far came before this reading
      refine good_of_same rfl ⟨hk.1, hk.2, ?_⟩
      intro _ r hr _ _
      exact hstamped r (by simpa [World.after] using hr)
    · cases h
      exact good_of_same rfl ⟨hk.1, by simp⟩
  case raises refused after =>
    cases h
    exact good_of_same rfl ⟨hk.1, by simp⟩

lemma good_asking {action : Action} {read : ℕ} (hphase : k.phase = .asking action read)
    (hw : w.workers[i]? = some k) (horder : Orderly w (.act i answer)) : e.Good w i := by
  simp only [Worker.Sound, hphase] at hk
  obtain ⟨hpassed, hempty, -⟩ := hk
  cases answer <;> simp only [Worker.act.eq_def, hphase, reduceCtorEq] at h
  case returns =>
    cases h
    exact good_of_same rfl ⟨hempty, _, rfl, le_rfl⟩
  case raises refused after =>
    cases after with
    | true =>
      have := horder k hw
      simp [hphase, Phase.stopsOrAsks] at this
    | false =>
      cases h
      exact good_of_same rfl ⟨hpassed, by simp⟩

lemma good_resuming {stopped : Bool} (hphase : k.phase = .resuming stopped) : e.Good w i := by
  simp only [Worker.Sound, hphase] at hk
  cases answer <;> simp only [Worker.act.eq_def, hphase, reduceCtorEq] at h
  case returns =>
    split at h
    · cases h
      exact good_of_same rfl ⟨hk.1, rfl, rfl⟩
    · next hstopped =>
      cases h
      exact good_of_same rfl ⟨hk.1, hk.2 (by simpa using hstopped)⟩

lemma good_unlocking (hphase : k.phase = .unlocking) : e.Good w i := by
  simp only [Worker.Sound, hphase] at hk
  have hfreed : ∀ l ∈ w.lock.filter fun l => Decidable.decide (l.1 ≠ i), l.1 ≠ i →
      w.lock = some l := by
    intro l hl _
    exact (Option.filter_eq_some_iff.mp hl).1
  obtain _ | _ | _ | ⟨_, _ | _⟩ := answer <;>
    simp only [Worker.act.eq_def, hphase, reduceCtorEq] at h
  case returns | raises.true =>
    cases h
    exact ⟨hk, hfreed⟩
  case raises.false =>
    cases h
    exact good_of_same rfl hk

lemma good_gone {deadline : ℚ} (hphase : k.phase = .gone deadline) : e.Good w i := by
  simp only [Worker.Sound, hphase] at hk
  obtain ⟨-, t, ht, hle⟩ := hk
  cases answer <;> simp only [Worker.act.eq_def, hphase, reduceCtorEq] at h
  case returns =>
    split at h
    · cases h
    · next hdeadline =>
      cases h
      refine good_of_same rfl ⟨?_, rfl, rfl⟩
      intro t' ht'
      obtain rfl : t = t' := by simpa [Worker.backoff, ht] using ht'
      exact hle.trans (not_lt.mp hdeadline)

/-- Every call of a sound worker is good. -/
lemma good_act (hstamped : ∀ r ∈ w.removals, r.step < w.steps)
    (hw : w.workers[i]? = some k) (horder : Orderly w (.act i answer)) : e.Good w i := by
  cases hphase : k.phase with
  | between =>
    simp only [Worker.Sound, hphase] at hk
    cases answer <;> simp only [Worker.act.eq_def, hphase, reduceCtorEq] at h
    cases h
    exact good_of_same rfl hk
  | looking start => exact good_looking hk h hphase
  | reading start => exact good_reading hk h hphase
  | locking action => exact good_locking hk h hphase
  | stopping action => exact good_stopping hk h hphase hw horder
  | confirming action deadline => exact good_confirming hk h hphase
  | confirmed action => exact good_confirmed hk h hphase
  | settling action deadline => exact good_settling hk h hphase
  | neighbour action => exact good_neighbour hk h hphase
  | rereading action => exact good_rereading hk h hphase hstamped
  | asking action read => exact good_asking hk h hphase hw horder
  | resuming stopped => exact good_resuming hk h hphase
  | unlocking => exact good_unlocking hk h hphase
  | gone deadline => exact good_gone hk h hphase

end Call

/-! ## One step of the fleet -/

/-- A step of one worker, the others sound after it. -/
lemma sound_set {w₁ : World} (hw : w.Sound) (hi : w.workers[i]? = some k)
    (hworkers : w₁.workers = w.workers.set i k') (hstamped : ∀ r ∈ w₁.removals, r.step < w₁.steps)
    (hk : k'.Sound w₁ i)
    (hothers : ∀ j k, j ≠ i → w.workers[j]? = some k → k.Sound w j → k.Sound w₁ j) : w₁.Sound where
  stamped := hstamped
  workers j k₁ hj := by
    rw [hworkers, List.getElem?_set] at hj
    split at hj
    · next heq =>
      subst heq
      rw [if_pos (List.getElem?_eq_some_iff.mp hi).1] at hj
      cases hj
      exact hk
    · next hne => exact hothers j k₁ (Ne.symm hne) hj (hw.workers j k₁ hj)

/-- A step that is not a call: one worker's jobs or its consumer. -/
lemma sound_setWorker (hw : w.Sound) (hi : w.workers[i]? = some k) (hk : k'.Sound w i) :
    (w.setWorker i k').Sound := by
  have hsame : ∀ (j : ℕ) (k : Worker), k.Sound w j → k.Sound (w.setWorker i k') j :=
    fun j k h => h.mono le_rfl fun _ h => h
  refine sound_set hw hi rfl ?_ (hsame i k' hk) fun j k _ _ h => hsame j k h
  intro r hr
  exact Nat.lt_succ_of_lt (hw.stamped r hr)

theorem sound_step (hw : w.Sound) {event : Event} (horder : Orderly w event)
    (h : w.step event = some w') : w'.Sound := by
  cases event with
  | advance later =>
    simp only [World.step, Option.ite_none_right_eq_some] at h
    obtain ⟨hle, ⟨⟩⟩ := h
    refine ⟨fun r hr => Nat.lt_succ_of_lt (hw.stamped r hr), ?_⟩
    intro i k hi
    apply (hw.workers i k hi).mono hle
    rintro read hcounted ⟨l, hl, rfl, hlt⟩
    exact hcounted ⟨l, hl, rfl, hle.trans_lt hlt⟩
  | deliver i =>
    simp only [World.step, Option.map_eq_some_iff] at h
    obtain ⟨k, hi, rfl⟩ := h
    apply sound_setWorker hw hi
    have hk := hw.workers i k hi
    have hunchecked := horder k hi
    unfold Worker.Sound at hk ⊢
    cases hphase : k.phase <;> simp_all [Phase.checked, Worker.Passed, Worker.Takes]
  | finish i =>
    simp only [World.step, Option.map_eq_some_iff] at h
    obtain ⟨k, hi, rfl⟩ := h
    apply sound_setWorker hw hi
    have hk := hw.workers i k hi
    unfold Worker.Sound at hk ⊢
    cases hphase : k.phase <;> simp_all [Worker.Passed, Worker.Takes, Worker.Empty]
  | landStop i =>
    simp only [World.step, Option.bind_eq_some_iff, Option.ite_none_right_eq_some] at h
    obtain ⟨k, hi, hasked, ⟨⟩⟩ := h
    apply sound_setWorker hw hi
    have hk := hw.workers i k hi
    unfold Worker.Sound at hk ⊢
    cases hphase : k.phase <;> simp_all [Worker.Passed, Worker.Takes, Worker.Empty]
  | act i answer =>
    simp only [World.step, Option.bind_eq_some_iff, Option.map_eq_some_iff] at h
    obtain ⟨k, hi, e, he, rfl⟩ := h
    have hgood : e.Good w i := good_act (hw.workers i k hi) he hw.stamped hi horder
    have hafter : (w.after i e).Sound := by
      refine sound_set hw hi rfl ?_ hgood.worker ?_
      · intro r hr
        obtain hr | hr := List.mem_append.mp hr
        · exact Nat.lt_succ_of_lt (hw.stamped r hr)
        · split at hr
          · rw [List.mem_singleton.mp hr]
            exact Nat.lt_succ_self _
          · cases hr
      · intro j k hne _ hk
        have hnow : w.now ≤ (w.after i e).now := le_refl w.now
        apply hk.mono hnow
        intro read hcounted howns
        exact hgood.counted hne hcounted howns
    exact hafter

/-! ## Every run -/

/-- What is safe about a state: a worker that asks next has nothing, takes nothing and, while its
lock lasts, has read the group after what others removed under theirs; one that is between two looks
takes work unless the group accepted that it goes; and one that was accepted takes no job while it
is expected to go. -/
structure Safe (w : World) : Prop where
  asks : ∀ (i : ℕ) (k : Worker) action read, w.workers[i]? = some k →
    k.phase = .asking action read →
      k.holding = 0 ∧ k.consuming = false ∧ (w.Owns i → w.Counted i read)
  takes : ∀ (i : ℕ) (k : Worker), w.workers[i]? = some k → k.phase = .between →
    k.accepted = none → k.consuming = true ∧ k.stopAsked = false
  leaves : ∀ (i : ℕ) (k : Worker) t, w.workers[i]? = some k → k.accepted = some t →
    w.now < t + stillHereSeconds → k.consuming = false ∧ k.holding = 0

lemma World.Sound.safe (hw : w.Sound) : Safe w where
  asks i k action read hi hphase := by
    have hk := hw.workers i k hi
    simp only [Worker.Sound, hphase] at hk
    exact ⟨hk.2.1.2, hk.2.1.1, hk.2.2⟩
  takes i k hi hphase _ := by
    have hk := hw.workers i k hi
    simp only [Worker.Sound, hphase] at hk
    exact hk.2
  leaves i k t hi haccepted hnow := by
    have hk := hw.workers i k hi
    have hpassed : ¬ k.Passed w.now := fun h => absurd hnow (not_lt.mpr (h t haccepted))
    unfold Worker.Sound at hk
    cases hphase : k.phase <;> simp only [hphase] at hk
    case gone => exact hk.1
    case confirming | confirmed => exact absurd hk hpassed
    all_goals exact absurd hk.1 hpassed

lemma initial_sound (fleet : List (Option String × ℚ)) : (World.initial fleet).Sound where
  stamped _ hr := by cases hr
  workers i k hi := by
    simp only [World.initial, List.getElem?_map, Option.map_eq_some_iff] at hi
    obtain ⟨f, -, rfl⟩ := hi
    have hpassed : (Worker.start 0 f.1 f.2).Passed 0 := by
      intro t ht
      cases ht
    exact ⟨hpassed, rfl, rfl⟩

/-- In every run whose steps are orderly, every state is safe. -/
theorem leaves_safely (fleet : List (Option String × ℚ)) (events : List Event)
    (hmeets : World.machine.Meets Orderly (World.initial fleet) events)
    (h : World.machine.exec (World.initial fleet) events = some w) : Safe w := by
  have hsound : w.Sound := by
    apply Transition.Machine.exec_invariant _ (initial_sound fleet) hmeets h
    intro w event w' hw horder hstep
    exact sound_step hw horder hstep
  exact hsound.safe

/-- A group of three that needs one. -/
def tooMany : GroupState := ⟨3, some 1, some 1, true, false, none⟩

/-- A lone worker, ten minutes idle, drains and is removed. -/
def removed : List Event :=
  [.advance 600, .act 0 .returns, .act 0 .returns, .act 0 (.group tooMany), .act 0 .returns,
    .act 0 .returns, .landStop 0, .act 0 .returns, .act 0 .returns, .advance 603, .act 0 .returns,
    .act 0 (.checks (some 0)), .act 0 (.group tooMany), .act 0 .returns]

/-- The worker when the group has accepted. -/
def afterRemoved : World :=
  ⟨603, some (0, 780), [⟨none, 600, 0, false, false, 0, 0, .gone 1203, some 603⟩], 14,
    [⟨0, 13, true⟩]⟩

theorem afterRemoved_safe : Safe afterRemoved :=
  leaves_safely [(none, 600)] removed (by decide +kernel) (by decide +kernel)

/-- The stop takes effect and raises: the drain ends with the lock free. -/
def stopRaised : List Event :=
  [.advance 600, .act 0 .returns, .act 0 .returns, .act 0 (.group tooMany), .act 0 .returns,
    .act 0 (.raises false true), .landStop 0, .act 0 .returns, .act 0 .returns]

/-- The worker stays, alive and deaf. -/
def afterStopRaised : World :=
  ⟨600, none, [⟨none, 600, 0, false, false, 0, 720, .between, none⟩], 9, []⟩

lemma exec_stopRaised :
    World.machine.exec (World.initial [(none, 600)]) stopRaised = some afterStopRaised := by
  decide +kernel

theorem stays_deaf : ¬ ∀ fleet events w,
    World.machine.exec (World.initial fleet) events = some w → Safe w := by
  intro h
  have hsafe := h _ _ _ exec_stopRaised
  have htakes := (hsafe.takes 0 _ rfl rfl rfl).1
  cases htakes

end MeshPipeline.IdleRetire
