import Mathlib.Algebra.Ring.Int.Defs
import MeshPipeline.Resilience.Calls

/-!
# The breaker never wedges

The slots in use are at most the calls that could hold one: a failure frees every slot before its call
asks again, and the last step of a call gives back one slot at most.
-/

namespace MeshPipeline

open CircuitBreaker

variable {T : Type*} [Sub T] [LE T] [DecidableLE T] {c : BreakerConfig T} {now : T}
  {b : CircuitBreaker T} {k : Call} {e : CallEffect T}

namespace CircuitBreaker

/-! ## One use of the breaker -/

lemma maybeHalfOpen_cases (c : BreakerConfig T) (now : T) (b : CircuitBreaker T) :
    maybeHalfOpen c now b = b ∨ b.state = .opened ∧
      maybeHalfOpen c now b = { b with state := .halfOpen, halfOpenInflight := 0 } := by
  unfold maybeHalfOpen
  split_ifs with h
  · exact .inr ⟨h.1, rfl⟩
  · exact .inl rfl

/-- A yes takes one slot at most, while half open exactly one. -/
lemma allow_slots (hb : Sound c b) (now : T) :
    (allow c now b).2.halfOpenInflight ≤ b.halfOpenInflight + (allow c now b).1.toNat ∧
      ((allow c now b).2.state = .halfOpen →
        b.halfOpenInflight + (allow c now b).1.toNat ≤ (allow c now b).2.halfOpenInflight) := by
  have hslots := hb.slots
  obtain hm | ⟨hstate, hm⟩ := maybeHalfOpen_cases c now b <;>
    obtain ⟨hclosed, ha⟩ | ⟨hhalf, hfree, ha⟩ | ⟨hrefused, ha⟩ := allow_cases c now b <;>
    rw [ha] <;> rw [hm] at * <;> simp <;> grind

/-- An answer leaves an open breaker as it was. -/
lemma allow_opened (h : (allow c now b).2.state = .opened) :
    b.state = .opened ∧ (allow c now b).2.openedAt = b.openedAt := by
  revert h
  obtain hm | ⟨hstate, hm⟩ := maybeHalfOpen_cases c now b <;>
    obtain ⟨hclosed, ha⟩ | ⟨hhalf, hfree, ha⟩ | ⟨hrefused, ha⟩ := allow_cases c now b <;>
    rw [ha, hm] <;> grind

omit [Sub T] [LE T] [DecidableLE T] in
/-- A failure that leaves the breaker open is what it waits from. -/
lemma Sound.recordFailure_opened (hb : Sound c b)
    (h : (CircuitBreaker.recordFailure c now b).state = .opened) :
    (CircuitBreaker.recordFailure c now b).openedAt = now := by
  obtain ⟨htrip, -⟩ | ⟨hclosed, hcount⟩ := hb.recordFailure_cases now
  · rw [htrip]
    rfl
  · rw [hcount] at h
    simp [hclosed] at h

omit [Sub T] [LE T] [DecidableLE T] in
lemma Sound.recordFailure_not_halfOpen (hb : Sound c b) :
    (CircuitBreaker.recordFailure c now b).state ≠ .halfOpen := by
  obtain ⟨htrip, -⟩ | ⟨hclosed, hcount⟩ := hb.recordFailure_cases now
  · simp [htrip, trip]
  · simp [hcount, hclosed]

end CircuitBreaker

/-! ## One step of one call -/

/-- What a step of a call does, for the counts and the waiting. -/
structure CallEffect.Kept (c : BreakerConfig T) (k : Call) (b : CircuitBreaker T)
    (e : CallEffect T) : Prop where
  sound : Sound c e.breaker
  slots : e.breaker.halfOpenInflight = 0 ∨
    e.breaker.halfOpenInflight + k.phase.holding.toNat ≤
      b.halfOpenInflight + e.phase.holding.toNat
  opened : e.breaker.state = .opened → e.failedAt = some e.breaker.openedAt ∨
    e.failedAt = none ∧ b.state = .opened ∧ e.breaker.openedAt = b.openedAt
  window : e.breaker.state = .halfOpen →
    b.halfOpenInflight + e.admitted.toNat ≤
      e.breaker.halfOpenInflight + (k.phase == .leaving).toNat

omit [Sub T] [LE T] [DecidableLE T] in
/-- A step that leaves the breaker alone, of a call that stays what it was to the breaker. -/
lemma kept_of_same (hb : Sound c b) (hphase : k.phase.holding = false ∨ e.phase.holding = true)
    (hbreaker : e.breaker = b) (hadmitted : e.admitted = false) (hfailed : e.failedAt = none) :
    e.Kept c k b := by
  subst hbreaker
  refine ⟨hb, .inr ?_, fun hopen => .inr ⟨hfailed, hopen, rfl⟩, fun _ => ?_⟩
  · obtain h | h := hphase
    · simp [h]
    · rw [h]
      exact Nat.add_le_add_left (Bool.toNat_le _) _
  · simp [hadmitted]

omit [Sub T] [LE T] [DecidableLE T] in
/-- A step that records a failure. -/
lemma kept_of_failure (hb : Sound c b) (hbreaker : e.breaker = recordFailure c now b)
    (hfailed : e.failedAt = some now) : e.Kept c k b := by
  refine ⟨hbreaker ▸ hb.recordFailure now, .inl ?_, fun hopen => .inl ?_, fun hhalf => ?_⟩
  · rw [hbreaker, hb.recordFailure_inflight]
  · rw [hbreaker] at hopen ⊢
    rw [hfailed, hb.recordFailure_opened hopen]
  · exact absurd (hbreaker ▸ hhalf) hb.recordFailure_not_halfOpen

/-- A step that asks the breaker, of a call that holds nothing. -/
lemma kept_of_allow (hb : Sound c b) (now : T) (hphase : k.phase.holding = false)
    (hnext : e.admitted → e.phase.holding) (hbreaker : e.breaker = (allow c now b).2)
    (hadmitted : e.admitted = (allow c now b).1) (hfailed : e.failedAt = none) :
    e.Kept c k b := by
  obtain ⟨hle, hge⟩ := allow_slots hb now
  refine ⟨hbreaker ▸ hb.allow now, .inr ?_, fun hopen => .inr ⟨hfailed, ?_⟩, fun hhalf => ?_⟩
  · rw [hbreaker, hphase]
    have hbool : e.admitted.toNat ≤ e.phase.holding.toNat := by
      cases hyes : e.admitted <;> simp_all
    rw [← hadmitted] at hle
    simp only [Bool.toNat_false]
    omega
  · rw [hbreaker] at hopen ⊢
    exact allow_opened hopen
  · rw [hbreaker] at hhalf ⊢
    rw [hadmitted]
    exact Nat.le_trans (hge hhalf) (Nat.le_add_right _ _)

lemma Call.step_kept (hb : Sound c b) {event : CallEvent T} (h : k.step c b event = some e) :
    e.Kept c k b := by
  cases event with
  | enter now =>
    simp only [Call.step] at h
    split at h
    case isFalse => cases h
    rename_i hentry
    cases h
    refine kept_of_allow hb now (by simp [hentry, CallPhase.holding]) ?_ rfl rfl rfl
    intro hyes
    have hyes : (allow c now b).1 = true := hyes
    simp only [hyes, if_true]
    cases k.kind with
    | resilience maxRetries => dsimp only; split_ifs <;> rfl
    | target => rfl
  | succeed =>
    simp only [Call.step] at h
    have hkept : (⟨recordSuccess b, .leaving, false, none⟩ : CallEffect T).Kept c k b :=
      ⟨sound_recordSuccess, .inl rfl, fun hopen => absurd hopen (by simp [recordSuccess]),
        fun hhalf => absurd hhalf (by simp [recordSuccess])⟩
    split at h <;> cases h <;> exact hkept
  | fail now failure =>
    simp only [Call.step] at h
    split at h
    · cases h
      exact kept_of_failure hb rfl rfl
    · cases h
  | decide now =>
    simp only [Call.step] at h
    split at h
    · rename_i hphase
      split at h <;> cases h
      · exact kept_of_same hb (.inr rfl) rfl rfl rfl
      · refine kept_of_allow hb now (by simp [hphase, CallPhase.holding]) ?_ rfl rfl rfl
        intro hyes
        have hyes : (allow c now b).1 = true := hyes
        simp only [hyes, if_true]
        rfl
    · cases h
  | wake =>
    simp only [Call.step] at h
    split at h <;> cases h
    exact kept_of_same hb (.inr rfl) rfl rfl rfl
  | granted =>
    simp only [Call.step] at h
    split_ifs at h
    cases h
    exact kept_of_same hb (.inr rfl) rfl rfl rfl
  | targetFail now failure =>
    simp only [Call.step] at h
    split_ifs at h <;> cases h
    · exact kept_of_failure hb rfl rfl
    · exact kept_of_same hb (.inr rfl) rfl rfl rfl
  | leave =>
    simp only [Call.step] at h
    split at h <;> cases h <;> exact kept_of_same hb (.inr rfl) rfl rfl rfl
  | release =>
    simp only [Call.step] at h
    split_ifs at h with hleaving
    cases h
    have hslots := hb.slots
    refine ⟨hb.releaseProbe, ?_, fun hopen => .inr ⟨rfl, ?_⟩, fun hhalf => ?_⟩
    all_goals
      simp only [hleaving, releaseProbe] at *
      grind [CallPhase.holding]

/-! ## Any run -/

namespace BreakerWorld

variable {w v : BreakerWorld T}

/-- The invariant: no more slots are in use than calls that could hold one, an open breaker waits from
the last failure, and while half open what was admitted holds a slot or has ended. -/
structure Inv (c : BreakerConfig T) (w : BreakerWorld T) : Prop where
  sound : Sound c w.breaker
  slots : w.breaker.halfOpenInflight ≤ w.calls.countP fun k => k.phase.holding
  opened : w.breaker.state = .opened → w.lastFailure = some w.breaker.openedAt
  window : w.breaker.state = .halfOpen → w.admitted ≤ w.breaker.halfOpenInflight + w.ended

omit [Sub T] [LE T] [DecidableLE T] in
lemma inv_initial [Zero T] : Inv c (initial : BreakerWorld T) :=
  ⟨sound_initial, Nat.le_refl 0, (by cases ·), (by cases ·)⟩

omit [Sub T] [LE T] [DecidableLE T] in
@[simp]
lemma observe_breaker (w : BreakerWorld T) (b : CircuitBreaker T) (admitted ended : Bool) :
    (w.observe b admitted ended).breaker = b := by
  unfold observe
  split_ifs <;> rfl

omit [Sub T] [LE T] [DecidableLE T] in
@[simp]
lemma observe_calls (w : BreakerWorld T) (b : CircuitBreaker T) (admitted ended : Bool) :
    (w.observe b admitted ended).calls = w.calls := by
  unfold observe
  split_ifs <;> rfl

omit [Sub T] [LE T] [DecidableLE T] in
@[simp]
lemma observe_lastFailure (w : BreakerWorld T) (b : CircuitBreaker T) (admitted ended : Bool) :
    (w.observe b admitted ended).lastFailure = w.lastFailure := by
  unfold observe
  split_ifs <;> rfl

omit [Sub T] [LE T] [DecidableLE T] in
/-- What is counted since the breaker turned half open stays within what is held or has ended. -/
lemma observe_window (hw : Inv c w) {admitted ended : Bool}
    (h : b.state = .halfOpen →
      w.breaker.halfOpenInflight + admitted.toNat ≤ b.halfOpenInflight + ended.toNat)
    (hhalf : b.state = .halfOpen) :
    (w.observe b admitted ended).admitted ≤
      b.halfOpenInflight + (w.observe b admitted ended).ended := by
  have hnow := h hhalf
  unfold observe
  rw [if_neg (by simp [hhalf])]
  split_ifs with hbefore
  · change admitted.toNat ≤ b.halfOpenInflight + ended.toNat
    omega
  · have hwindow := hw.window (not_not.mp hbefore)
    change w.admitted + admitted.toNat ≤ b.halfOpenInflight + (w.ended + ended.toNat)
    omega

omit [Sub T] [LE T] [DecidableLE T] in
/-- A call that moves on moves the number of calls that could hold a slot with it. -/
lemma countP_set {calls : List Call} {i : Nat} (hk : calls[i]? = some k) (phase : CallPhase) :
    (calls.set i ⟨k.kind, phase⟩).countP (fun k => k.phase.holding) + k.phase.holding.toNat =
      calls.countP (fun k => k.phase.holding) + phase.holding.toNat := by
  induction calls generalizing i with
  | nil => simp at hk
  | cons x calls ih =>
    cases i with
    | zero =>
      obtain rfl : x = k := by simpa using hk
      simp only [List.set_cons_zero, List.countP_cons]
      cases x.phase.holding <;> cases phase.holding <;> simp
    | succ i =>
      have hi := ih (by simpa using hk)
      simp only [List.set_cons_succ, List.countP_cons]
      omega

lemma inv_step (hw : Inv c w) {l : BreakerStep T} (h : (machine c).step w l = some v) :
    Inv c v := by
  cases l with
  | start kind =>
    cases h
    refine ⟨hw.sound, ?_, hw.opened, hw.window⟩
    simpa [List.countP_append, CallPhase.holding] using hw.slots
  | look now =>
    cases h
    have hslots := hw.slots
    have hbefore := hw.sound.slots
    have hopened := hw.opened
    obtain hm | ⟨hstate, hm⟩ := maybeHalfOpen_cases c now w.breaker
    · refine ⟨?_, ?_, ?_, fun hhalf => ?_⟩
      · simpa using hw.sound.maybeHalfOpen now
      · simpa [hm] using hslots
      · simpa [hm] using hopened
      · simp only [observe_breaker] at hhalf ⊢
        exact observe_window hw (fun _ => by simp [hm]) hhalf
    · refine ⟨?_, ?_, ?_, fun hhalf => ?_⟩
      · simpa using hw.sound.maybeHalfOpen now
      · simp [hm]
      · simp [hm]
      · simp only [observe_breaker] at hhalf ⊢
        refine observe_window hw (fun _ => ?_) hhalf
        simp [hm, hbefore, hstate]
  | call i event =>
    obtain ⟨k, hk, h⟩ := Option.bind_eq_some_iff.mp h
    obtain ⟨e, he, rfl⟩ := Option.map_eq_some_iff.mp h
    dsimp only
    have hkept := Call.step_kept hw.sound he
    have hcount := countP_set hk e.phase
    have hslots := hw.slots
    refine ⟨?_, ?_, fun hopen => ?_, fun hhalf => ?_⟩
    · simpa using hkept.sound
    · have := hkept.slots
      simp only [observe_breaker]
      omega
    · simp only [observe_breaker] at hopen ⊢
      obtain hfailed | ⟨hfailed, hbefore, hsame⟩ := hkept.opened hopen
      · rw [hfailed]
        rfl
      · rw [hfailed, hsame, ← hw.opened hbefore]
        rfl
    · simp only [observe_breaker] at hhalf ⊢
      exact observe_window hw hkept.window hhalf

/-- With no slot in use, a breaker that has waited long enough says yes. -/
lemma Inv.allows (hw : Inv c w) (hidle : w.inFlight = 0)
    (hwaited : ∀ t, w.lastFailure = some t → c.recoveryTimeout ≤ now - t) :
    (allow c now w.breaker).1 = true := by
  have hnone : w.breaker.halfOpenInflight = 0 := by
    have hslots := hw.slots
    have hle : (w.calls.countP fun k => k.phase.holding) ≤ w.inFlight :=
      List.countP_mono_left fun k _ => CallPhase.inFlight_of_holding
    omega
  have hprobes := c.probes_pos
  unfold allow
  cases hstate : w.breaker.state with
  | closed => simp [maybeHalfOpen, hstate]
  | opened =>
    have hlast := hwaited _ (hw.opened hstate)
    simp [maybeHalfOpen, hstate, hlast, hprobes]
  | halfOpen => simp [maybeHalfOpen, hstate, hnone, hprobes]

/-- The breaker never wedges. In every reachable state the slots in use are at most the admitted calls
in flight; once none is in flight, the answer is yes as soon as the recovery time since the last failure
is over; and while half open no more calls were admitted than there are slots and calls that ended in
the meantime. -/
theorem breaker_never_wedges [Zero T] {ls : List (BreakerStep T)}
    (h : (machine c).exec initial ls = some w) :
    w.breaker.halfOpenInflight ≤ w.inFlight ∧
      (w.inFlight = 0 → ∀ now, (∀ t, w.lastFailure = some t → c.recoveryTimeout ≤ now - t) →
        (allow c now w.breaker).1 = true) ∧
      (w.breaker.state = .halfOpen → w.admitted ≤ c.halfOpenMax + w.ended) := by
  have hw : Inv c w :=
    Transition.Machine.exec_invariant_of_step (fun _ _ _ hs => inv_step hs) inv_initial h
  refine ⟨?_, fun hidle now => hw.allows hidle, fun hhalf => ?_⟩
  · have hle : (w.calls.countP fun k => k.phase.holding) ≤ w.inFlight :=
      List.countP_mono_left fun k _ => CallPhase.inFlight_of_holding
    exact Nat.le_trans hw.slots hle
  · have hwindow := hw.window hhalf
    have hbounded := hw.sound.bounded
    omega

/-- A call that was admitted while closed gives back the slot of a probe, which is still in flight. -/
theorem breaker_never_wedges_probe :
    let c : BreakerConfig Int := ⟨1, 30, 1, by decide, by decide⟩
    let ls : List (BreakerStep Int) :=
      [.start .target, .start (.resilience 3), .start (.resilience 3), .call 0 (.enter 0),
        .call 0 .granted, .call 1 (.enter 0), .call 1 (.fail 0 .internal), .call 2 (.enter 30),
        .call 0 .leave, .call 0 .release]
    ∃ w, (machine c).exec initial ls = some w ∧ w.breaker.state = .halfOpen ∧
      w.breaker.halfOpenInflight ≤ w.inFlight ∧
      (w.inFlight = 0 → ∀ now, (∀ t, w.lastFailure = some t → c.recoveryTimeout ≤ now - t) →
        (allow c now w.breaker).1 = true) ∧
      (w.breaker.state = .halfOpen → w.admitted ≤ c.halfOpenMax + w.ended) := by
  intro c ls
  have hstate : ((machine c).exec initial ls).map (fun w => w.breaker.state) = some .halfOpen := by
    decide +kernel
  obtain ⟨w, hw, hhalf⟩ := Option.map_eq_some_iff.mp hstate
  exact ⟨w, hw, hhalf, breaker_never_wedges hw⟩

end BreakerWorld

end MeshPipeline
