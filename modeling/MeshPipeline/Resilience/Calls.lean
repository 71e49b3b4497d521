import Mathlib.Data.List.Basic
import MeshPipeline.Library.Machine

/-!
# The circuit breaker of a dependency

The state machine that decides whether a call is attempted. The clock is whatever is read at each
use, over any type whose readings subtract and compare.
-/

namespace MeshPipeline

inductive CircuitState
  | closed | opened | halfOpen
  deriving DecidableEq, Repr

/-- The settings of a breaker, of which the constructor takes at least one each. -/
structure BreakerConfig (T : Type*) where
  failureThreshold : Nat
  recoveryTimeout : T
  halfOpenMax : Nat
  threshold_pos : 0 < failureThreshold
  probes_pos : 0 < halfOpenMax

/-- `CircuitBreaker.__init__`: `max(1, int(value))` for the two counts. -/
def BreakerConfig.ofSettings {T : Type*} (failureThreshold : Int) (recoveryTimeout : T)
    (halfOpenMax : Int) : BreakerConfig T where
  failureThreshold := (max 1 failureThreshold).toNat
  recoveryTimeout := recoveryTimeout
  halfOpenMax := (max 1 halfOpenMax).toNat
  threshold_pos := by omega
  probes_pos := by omega

structure CircuitBreaker (T : Type*) where
  state : CircuitState
  consecutiveFailures : Nat
  openedAt : T
  halfOpenInflight : Nat
  deriving DecidableEq, Repr

namespace CircuitBreaker

variable {T : Type*} [Sub T] [LE T] [DecidableLE T] (c : BreakerConfig T) (now : T)
  (b : CircuitBreaker T)

def initial [Zero T] : CircuitBreaker T := ⟨.closed, 0, 0, 0⟩

/-- `_maybe_half_open`. -/
def maybeHalfOpen : CircuitBreaker T :=
  if b.state = .opened ∧ c.recoveryTimeout ≤ now - b.openedAt then
    { b with state := .halfOpen, halfOpenInflight := 0 }
  else b

/-- `allow`: the answer, and the breaker after it. -/
def allow : Bool × CircuitBreaker T :=
  let b := maybeHalfOpen c now b
  match b.state with
  | .closed => (true, b)
  | .opened => (false, b)
  | .halfOpen =>
    if b.halfOpenInflight < c.halfOpenMax then
      (true, { b with halfOpenInflight := b.halfOpenInflight + 1 })
    else (false, b)

/-- `record_success`. -/
def recordSuccess : CircuitBreaker T :=
  { b with state := .closed, consecutiveFailures := 0, halfOpenInflight := 0 }

/-- `release_probe`. -/
def releaseProbe : CircuitBreaker T :=
  if b.state = .halfOpen ∧ 0 < b.halfOpenInflight then
    { b with halfOpenInflight := b.halfOpenInflight - 1 }
  else b

/-- `_trip`. -/
def trip : CircuitBreaker T :=
  { b with state := .opened, openedAt := now, halfOpenInflight := 0 }

/-- `record_failure`. -/
def recordFailure : CircuitBreaker T :=
  let b := { b with consecutiveFailures := b.consecutiveFailures + 1 }
  if b.state = .halfOpen then trip now b
  else if c.failureThreshold ≤ b.consecutiveFailures then trip now b
  else b

/-- What holds of a breaker at any time: slots are in use only while half open, no more than there
are, and what is not closed has failed often enough to be tripped by one more failure. -/
structure Sound : Prop where
  slots : b.state ≠ .halfOpen → b.halfOpenInflight = 0
  bounded : b.halfOpenInflight ≤ c.halfOpenMax
  failed : b.state ≠ .closed → c.failureThreshold ≤ b.consecutiveFailures

variable {c now b}

omit [Sub T] [LE T] [DecidableLE T] in
lemma sound_initial [Zero T] : Sound c (initial : CircuitBreaker T) :=
  ⟨fun _ => rfl, Nat.zero_le _, fun h => absurd rfl h⟩

lemma Sound.maybeHalfOpen (h : Sound c b) (now : T) : Sound c (maybeHalfOpen c now b) := by
  obtain ⟨hslots, hbounded, hfailed⟩ := h
  unfold CircuitBreaker.maybeHalfOpen
  split_ifs with hopen
  · refine ⟨fun hne => absurd rfl hne, Nat.zero_le _, fun _ => ?_⟩
    apply hfailed
    simp [hopen.1]
  · exact ⟨hslots, hbounded, hfailed⟩

/-- The answer is yes exactly when the breaker is closed or has a free slot, and only a slot that is
taken changes it further. -/
lemma allow_cases (c : BreakerConfig T) (now : T) (b : CircuitBreaker T) :
    let m := CircuitBreaker.maybeHalfOpen c now b
    m.state = .closed ∧ allow c now b = (true, m) ∨
      m.state = .halfOpen ∧ m.halfOpenInflight < c.halfOpenMax ∧
        allow c now b = (true, { m with halfOpenInflight := m.halfOpenInflight + 1 }) ∨
      (m.state = .opened ∨ m.state = .halfOpen ∧ c.halfOpenMax ≤ m.halfOpenInflight) ∧
        allow c now b = (false, m) := by
  intro m
  unfold allow
  cases hstate : m.state with
  | closed => grind
  | opened => grind
  | halfOpen =>
    by_cases hfree : m.halfOpenInflight < c.halfOpenMax
    · grind
    · grind

lemma Sound.allow (h : Sound c b) (now : T) : Sound c (allow c now b).2 := by
  have hm := h.maybeHalfOpen now
  obtain ⟨-, ha⟩ | ⟨hstate, hfree, ha⟩ | ⟨-, ha⟩ := allow_cases c now b
  · rw [ha]
    exact hm
  · rw [ha]
    exact ⟨fun hne => absurd hstate hne, hfree, hm.failed⟩
  · rw [ha]
    exact hm

omit [Sub T] [LE T] [DecidableLE T] in
lemma sound_recordSuccess : Sound c (recordSuccess b) :=
  ⟨fun _ => rfl, Nat.zero_le _, fun h => absurd rfl h⟩

omit [Sub T] [LE T] [DecidableLE T] in
lemma Sound.releaseProbe (h : Sound c b) : Sound c (releaseProbe b) := by
  obtain ⟨hslots, hbounded, hfailed⟩ := h
  unfold CircuitBreaker.releaseProbe
  split_ifs with hheld
  · refine ⟨fun hne => absurd hheld.1 hne, ?_, hfailed⟩
    change b.halfOpenInflight - 1 ≤ _
    omega
  · exact ⟨hslots, hbounded, hfailed⟩

omit [Sub T] [LE T] [DecidableLE T] in
/-- A failure frees every slot, and while the breaker is not closed it is what the breaker waits
from. -/
lemma Sound.recordFailure_cases (h : Sound c b) (now : T) :
    recordFailure c now b = trip now { b with consecutiveFailures := b.consecutiveFailures + 1 } ∧
        c.failureThreshold ≤ b.consecutiveFailures + 1 ∨
      b.state = .closed ∧
        recordFailure c now b = { b with consecutiveFailures := b.consecutiveFailures + 1 } := by
  have hfailed := h.failed
  unfold recordFailure
  cases hstate : b.state with
  | closed => grind
  | opened => grind
  | halfOpen => grind

omit [Sub T] [LE T] [DecidableLE T] in
lemma Sound.recordFailure (h : Sound c b) (now : T) : Sound c (recordFailure c now b) := by
  obtain ⟨htrip, hthreshold⟩ | ⟨hclosed, hcount⟩ := h.recordFailure_cases now
  · rw [htrip]
    exact ⟨fun _ => rfl, Nat.zero_le _, fun _ => hthreshold⟩
  · rw [hcount]
    exact ⟨h.slots, h.bounded, fun hne => absurd hclosed hne⟩

omit [Sub T] [LE T] [DecidableLE T] in
lemma Sound.recordFailure_inflight (h : Sound c b) (now : T) :
    (CircuitBreaker.recordFailure c now b).halfOpenInflight = 0 := by
  obtain ⟨htrip, -⟩ | ⟨hclosed, hcount⟩ := h.recordFailure_cases now
  · rw [htrip]
    rfl
  · rw [hcount]
    exact h.slots (by simp [hclosed])

end CircuitBreaker

end MeshPipeline

/-!
## The calls that one breaker admits

Any number of `call_with_resilience` calls and of targets that `routing.execute` dials on one breaker.
A step is one use of the breaker, which its lock makes atomic, or what one of them meets at an await;
any order of steps is a run.
-/

namespace MeshPipeline

/-- `FailureClass`. -/
inductive FailureClass
  | userInput | domainRejected | notAuthorized | dataIntegrity | providerTransient | providerDown
  | dependencyDown | resource | internal | workerLost | neverStarted | reviewEvidenceMissing
  deriving DecidableEq, Repr

/-- `is_retryable`. -/
def FailureClass.isRetryable : FailureClass → Bool
  | .providerTransient | .dependencyDown => true
  | _ => false

/-- The failure categories of a route's target. -/
inductive TargetFailure
  | rateLimit | overload | timeout | connection | serviceUnavailable | modelUnavailable
  | circuitOpen | auth | insufficientBalance | invalidRequest | applicationDefect | toolSchema
  | policyRejection | invalidOutput | qualityFailed | emptyResponse
  deriving DecidableEq, Repr

/-- The categories that `execute` counts against the provider. -/
def TargetFailure.recorded : TargetFailure → Bool
  | .rateLimit | .overload | .timeout | .connection | .serviceUnavailable | .modelUnavailable => true
  | _ => false

inductive CallKind
  /-- `call_with_resilience` with its `max_retries`. -/
  | resilience (maxRetries : Int)
  /-- One target of `execute`. -/
  | target
  deriving DecidableEq, Repr

/-- Where a call is: before its first `allow`, in an attempt, between a failure it recorded and what it
makes of it, in the backoff before an attempt, in its `finally`, or past it. -/
inductive CallPhase
  | entry
  | attempting (attempt : Nat)
  | failed (attempt : Nat) (failure : FailureClass)
  | backingOff (attempt : Nat)
  | admitting
  | dialling
  | leaving
  | over
  deriving DecidableEq, Repr

namespace CallPhase

/-- Admitted, and its `finally` has not run. -/
def inFlight : CallPhase → Bool
  | .entry | .over => false
  | _ => true

/-- In flight, and not on its way from a failure that it recorded. -/
def holding : CallPhase → Bool
  | .entry | .over | .failed _ _ => false
  | _ => true

lemma inFlight_of_holding {p : CallPhase} (h : p.holding) : p.inFlight := by
  cases p <;> simp_all [holding, inFlight]

end CallPhase

structure Call where
  kind : CallKind
  phase : CallPhase
  deriving DecidableEq, Repr

/-- What a call meets. -/
inductive CallEvent (T : Type*)
  /-- The first `allow`. -/
  | enter (now : T)
  /-- The attempt returns. -/
  | succeed
  /-- The attempt raises, or its time is up. -/
  | fail (now : T) (failure : FailureClass)
  /-- The decision on another attempt, with its `allow`. -/
  | decide (now : T)
  /-- The backoff is over. -/
  | wake
  /-- The capacity of the domain is granted. -/
  | granted
  /-- The target fails. -/
  | targetFail (now : T) (failure : TargetFailure)
  /-- A cancellation, a refused admission or an error that is not recorded. -/
  | leave
  /-- The `finally`. -/
  | release
  deriving DecidableEq, Repr

/-- What one step of a call does: to the breaker, to the call, and what is told of it. -/
structure CallEffect (T : Type*) where
  breaker : CircuitBreaker T
  phase : CallPhase
  /-- `allow` answered yes. -/
  admitted : Bool
  /-- The reading at which a failure was recorded. -/
  failedAt : Option T

/-- The calls and their breaker, with what was seen of them: the reading at the last recorded failure,
and how many were admitted and how many ended since the breaker last turned half open. -/
structure BreakerWorld (T : Type*) where
  breaker : CircuitBreaker T
  calls : List Call
  lastFailure : Option T
  admitted : Nat
  ended : Nat

inductive BreakerStep (T : Type*)
  | start (kind : CallKind)
  /-- A reading of the `state` property. -/
  | look (now : T)
  | call (i : Nat) (event : CallEvent T)
  deriving DecidableEq, Repr

section

open CircuitBreaker

variable {T : Type*} [Sub T] [LE T] [DecidableLE T] (c : BreakerConfig T)

/-- One step of one call. -/
def Call.step (k : Call) (b : CircuitBreaker T) : CallEvent T → Option (CallEffect T)
  | .enter now =>
    if k.phase = .entry then
      let (allowed, b) := allow c now b
      let phase := match k.kind with
        | .resilience maxRetries => if 0 ≤ maxRetries then .attempting 0 else .leaving
        | .target => .admitting
      some ⟨b, if allowed then phase else .over, allowed, none⟩
    else none
  | .succeed =>
    match k.phase with
    | .attempting _ | .dialling => some ⟨recordSuccess b, .leaving, false, none⟩
    | _ => none
  | .fail now failure =>
    match k.phase with
    | .attempting n => some ⟨recordFailure c now b, .failed n failure, false, some now⟩
    | _ => none
  | .decide now =>
    match k.kind, k.phase with
    | .resilience maxRetries, .failed n failure =>
      if !failure.isRetryable ∨ (n : Int) = maxRetries then some ⟨b, .leaving, false, none⟩
      else
        let (allowed, b) := allow c now b
        some ⟨b, if allowed then .backingOff (n + 1) else .leaving, allowed, none⟩
    | _, _ => none
  | .wake =>
    match k.phase with
    | .backingOff n => some ⟨b, .attempting n, false, none⟩
    | _ => none
  | .granted => if k.phase = .admitting then some ⟨b, .dialling, false, none⟩ else none
  | .targetFail now failure =>
    if k.phase = .dialling then
      if failure.recorded then some ⟨recordFailure c now b, .leaving, false, some now⟩
      else some ⟨b, .leaving, false, none⟩
    else none
  | .leave =>
    match k.phase with
    | .attempting _ | .backingOff _ | .admitting | .dialling | .failed _ _ =>
      some ⟨b, .leaving, false, none⟩
    | _ => none
  | .release => if k.phase = .leaving then some ⟨releaseProbe b, .over, false, none⟩ else none

namespace BreakerWorld

def initial [Zero T] : BreakerWorld T := ⟨CircuitBreaker.initial, [], none, 0, 0⟩

/-- The counts since the breaker last turned half open. -/
def observe (w : BreakerWorld T) (b : CircuitBreaker T) (admitted ended : Bool) : BreakerWorld T :=
  if b.state ≠ .halfOpen then { w with breaker := b, admitted := 0, ended := 0 }
  else if w.breaker.state ≠ .halfOpen then
    { w with breaker := b, admitted := admitted.toNat, ended := ended.toNat }
  else { w with
    breaker := b, admitted := w.admitted + admitted.toNat, ended := w.ended + ended.toNat }

def step (w : BreakerWorld T) : BreakerStep T → Option (BreakerWorld T)
  | .start kind => some { w with calls := w.calls ++ [⟨kind, .entry⟩] }
  | .look now => some (w.observe (maybeHalfOpen c now w.breaker) false false)
  | .call i event =>
    w.calls[i]?.bind fun k =>
      (k.step c w.breaker event).map fun e =>
        { w.observe e.breaker e.admitted (k.phase == .leaving) with
          calls := w.calls.set i ⟨k.kind, e.phase⟩
          lastFailure := e.failedAt.or w.lastFailure }

def machine : Transition.Machine (BreakerWorld T) (BreakerStep T) := ⟨step c⟩

/-- How many admitted calls are in flight. -/
def inFlight (w : BreakerWorld T) : Nat := w.calls.countP fun k => k.phase.inFlight

end BreakerWorld

end

end MeshPipeline
