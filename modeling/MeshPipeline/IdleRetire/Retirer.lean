import Mathlib.Algebra.Order.Ring.Rat
import MeshPipeline.Library.Machine

/-!
# Idle self-retire

A worker looks at itself on every poll. Idle long enough, and wanted by no one, it takes the fleet's
lock, stops taking work, waits till its consumer has stopped, looks again at what it holds and at
its group, and only then asks the group to remove or recycle its machine. Every call may fail,
before it took effect or after. Jobs are delivered while the consumer takes work, and late ones
after it stopped.
-/

namespace MeshPipeline.IdleRetire

def recycleIdleSeconds : ℚ := 120
def groupRecheckSeconds : ℚ := 60
def drainConfirmSeconds : ℚ := 10
def drainSettleSeconds : ℚ := 3
def retireLockSeconds : ℚ := 180
def recycleLockSeconds : ℚ := 420
def refusedBackoffSeconds : ℚ := 600
def errorBackoffSeconds : ℚ := 120
def stillHereSeconds : ℚ := 600

inductive Action
  | stay | retire | recycle
  deriving DecidableEq

/-- What the group's own settings say. -/
structure GroupState where
  targetSize : ℤ
  minSize : Option ℤ
  recommendedSize : Option ℤ
  workersScaleIn : Bool
  opportunistic : Bool
  targetTemplate : Option String
  deriving DecidableEq

/-- The reasons of `decide`, with the numbers and names that their texts show. -/
inductive Why
  | holding (jobs : ℕ)
  | idleAbove (idleSeconds : ℚ) (wanted targetSize : ℤ) (floor : Option ℤ)
  | outdated (own target : String)
  | fixedByHand
  | scalesInByItself
  | atFloor (targetSize : ℤ)
  | stillWanted (targetSize : ℤ) (recommended : Option ℤ)
  | idle (idleSeconds idleLimitSeconds : ℚ)

/-- A template that is named. -/
def named (template : Option String) : Option String := template.filter (· ≠ "")

/-- Remove, recycle, or stay, and why. -/
def decide (holding : ℕ) (idleSeconds idleLimitSeconds : ℚ) (group : GroupState)
    (ownTemplate : Option String) : Action × Why :=
  if 0 < holding then (.stay, .holding holding)
  else
    let wanted := group.minSize.bind fun floor => group.recommendedSize.map (max floor)
    let above := wanted.filter fun n =>
      group.workersScaleIn && n < group.targetSize && idleLimitSeconds ≤ idleSeconds
    match above with
    | some n => (.retire, .idleAbove idleSeconds n group.targetSize group.minSize)
    | none =>
      match named ownTemplate, named group.targetTemplate with
      | some own, some target =>
        if group.opportunistic ∧ own ≠ target ∧ recycleIdleSeconds ≤ idleSeconds then
          (.recycle, .outdated own target)
        else stays wanted
      | _, _ => stays wanted
where
  stays (wanted : Option ℤ) : Action × Why :=
    match group.minSize with
    | none => (.stay, .fixedByHand)
    | some floor =>
      if !group.workersScaleIn then (.stay, .scalesInByItself)
      else if group.targetSize ≤ floor then (.stay, .atFloor group.targetSize)
      else if ∀ n ∈ wanted, group.targetSize ≤ n then
        (.stay, .stillWanted group.targetSize group.recommendedSize)
      else (.stay, .idle idleSeconds idleLimitSeconds)

/-- Where a worker's retirer is: the call that it makes next. `stopped` is the flag of the drain,
and `read` counts the steps there were before the last reading of the group. -/
inductive Phase
  | between
  | looking (now : ℚ)
  | reading (now : ℚ)
  | locking (action : Action)
  | stopping (action : Action)
  | confirming (action : Action) (deadline : ℚ)
  | confirmed (action : Action)
  | settling (action : Action) (deadline : ℚ)
  | neighbour (action : Action)
  | rereading (action : Action)
  | asking (action : Action) (read : ℕ)
  | resuming (stopped : Bool)
  | unlocking
  | gone (deadline : ℚ)
  deriving DecidableEq

/-- A worker: its jobs and its consumer, its idle clock, and when the group accepted that it goes. A
stop that was asked for and has not landed yet is `stopAsked`. -/
structure Worker where
  ownTemplate : Option String
  idleLimitSeconds : ℚ
  holding : ℕ
  consuming : Bool
  stopAsked : Bool
  idleSince : ℚ
  notBefore : ℚ
  phase : Phase
  accepted : Option ℚ
  deriving DecidableEq

/-- A removal that the group accepted: whose, after how many steps, and whether the worker's lock
lasted then. -/
structure Removal where
  worker : ℕ
  step : ℕ
  locked : Bool
  deriving DecidableEq

/-- The fleet: the time, the lock with its owner and its end, the workers, the steps so far and the
removals that the group accepted. -/
structure World where
  now : ℚ
  lock : Option (ℕ × ℚ)
  workers : List Worker
  steps : ℕ
  removals : List Removal
  deriving DecidableEq

/-- How a call ends. -/
inductive Answer
  | returns
  | group (state : GroupState)
  | checks (running : Option ℕ)
  | raises (refused after : Bool)
  deriving DecidableEq

inductive Event
  | advance (later : ℚ)
  /-- A job reaches a worker. -/
  | deliver (i : ℕ)
  | finish (i : ℕ)
  /-- The consumer's loop runs the stop. -/
  | landStop (i : ℕ)
  /-- The worker's next call is made and ends. -/
  | act (i : ℕ) (answer : Answer)
  deriving DecidableEq

namespace Worker

variable (k : Worker) (now : ℚ)

def backoff (seconds : ℚ) : Worker := { k with notBefore := now + seconds }

/-- The back-off after a call that raised. -/
def backoffRaised (refused : Bool) : Worker :=
  k.backoff now (if refused then refusedBackoffSeconds else errorBackoffSeconds)

def toPhase (phase : Phase) : Worker := { k with phase }

/-- The worker, when it next polls. -/
def start (ownTemplate : Option String) (idleLimitSeconds : ℚ) : Worker :=
  ⟨ownTemplate, idleLimitSeconds, 0, true, false, now, 0, .between, none⟩

end Worker

def lockSeconds : Action → ℚ
  | .retire => retireLockSeconds
  | _ => recycleLockSeconds

/-- What one call does: to its worker, to the lock, and whether the group accepted a removal. -/
structure Effect where
  worker : Worker
  lock : Option (ℕ × ℚ)
  removed : Bool := false

/-- The lock is free at a time. -/
def free (lock : Option (ℕ × ℚ)) (now : ℚ) : Prop := ∀ l ∈ lock, l.2 ≤ now

instance (lock : Option (ℕ × ℚ)) (now : ℚ) : Decidable (free lock now) :=
  inferInstanceAs (Decidable (∀ l ∈ lock, l.2 ≤ now))

/-- The next call of worker `i`, with its answer. -/
def Worker.act (i : ℕ) (k : Worker) (now : ℚ) (lock : Option (ℕ × ℚ)) (steps : ℕ)
    (answer : Answer) : Option Effect :=
  match k.phase, answer with
  | .between, .returns => some ⟨k.toPhase (.looking now), lock, false⟩
  -- tick: `holding`, whose failure ends the tick
  | .looking _, .raises _ _ => some ⟨k.toPhase .between, lock, false⟩
  | .looking start, .returns =>
    if 0 < k.holding then some ⟨{ k with idleSince := start, phase := .between }, lock, false⟩
    else if start < k.notBefore then some ⟨k.toPhase .between, lock, false⟩
    else if start - k.idleSince < min k.idleLimitSeconds recycleIdleSeconds then
      some ⟨k.toPhase .between, lock, false⟩
    else some ⟨k.toPhase (.reading start), lock, false⟩
  | .reading _, .raises refused _ =>
    some ⟨(k.backoffRaised now refused).toPhase .between, lock, false⟩
  | .reading start, .group state =>
    match (decide 0 (start - k.idleSince) k.idleLimitSeconds state k.ownTemplate).1 with
    | .stay => some ⟨(k.backoff now groupRecheckSeconds).toPhase .between, lock, false⟩
    | action => some ⟨k.toPhase (.locking action), lock, false⟩
  -- `RedisLock.acquire`, which answers no when it fails
  | .locking action, .returns =>
    if free lock now then
      some ⟨k.toPhase (.stopping action), some (i, now + lockSeconds action), false⟩
    else some ⟨(k.backoff now groupRecheckSeconds).toPhase .between, lock, false⟩
  | .locking action, .raises _ after =>
    some ⟨(k.backoff now groupRecheckSeconds).toPhase .between,
      if after ∧ free lock now then some (i, now + lockSeconds action) else lock, false⟩
  | .stopping action, .returns =>
    some ⟨{ k with
      stopAsked := true, phase := .confirming action (now + drainConfirmSeconds) }, lock, false⟩
  | .stopping _, .raises refused after =>
    some ⟨{ k.backoffRaised now refused with
      stopAsked := k.stopAsked || after, phase := .resuming false }, lock, false⟩
  | .confirming action deadline, .returns =>
    if k.consuming ∧ now < deadline then some ⟨k, lock, false⟩
    else some ⟨k.toPhase (.confirmed action), lock, false⟩
  | .confirmed action, .returns =>
    if k.consuming then
      some ⟨(k.backoff now errorBackoffSeconds).toPhase (.resuming true), lock, false⟩
    else some ⟨k.toPhase (.settling action (now + drainSettleSeconds)), lock, false⟩
  | .settling action deadline, .returns =>
    if now < deadline then none
    else if 0 < k.holding then
      some ⟨{ k with idleSince := now, phase := .resuming true }, lock, false⟩
    else some ⟨k.toPhase (.neighbour action), lock, false⟩
  | .neighbour action, .checks running =>
    if ∃ n ∈ running, 0 < n then
      some ⟨(k.backoff now groupRecheckSeconds).toPhase (.resuming true), lock, false⟩
    else some ⟨k.toPhase (.rereading action), lock, false⟩
  | .rereading action, .group state =>
    if (decide 0 (now - k.idleSince) k.idleLimitSeconds state k.ownTemplate).1 = action then
      some ⟨k.toPhase (.asking action steps), lock, false⟩
    else some ⟨(k.backoff now groupRecheckSeconds).toPhase (.resuming true), lock, false⟩
  -- `remove_self` or `recycle_self`, and then the wait of `run`
  | .asking action _, .returns =>
    some ⟨{ k with accepted := some now, phase := .gone (now + stillHereSeconds) }, lock,
      action = .retire⟩
  | .asking action _, .raises refused after =>
    some ⟨{ k.backoffRaised now refused with
      accepted := if after then some now else k.accepted, phase := .resuming true }, lock,
      after && action = .retire⟩
  | .confirming _ _, .raises refused _ | .confirmed _, .raises refused _
  | .settling _ _, .raises refused _ | .neighbour _, .raises refused _
  | .rereading _, .raises refused _ =>
    some ⟨(k.backoffRaised now refused).toPhase (.resuming true), lock, false⟩
  -- the `finally` of a drain that did not act
  | .resuming stopped, .returns =>
    if stopped then
      some ⟨{ k with consuming := true, stopAsked := false, phase := .unlocking }, lock, false⟩
    else some ⟨k.toPhase .unlocking, lock, false⟩
  | .unlocking, .returns | .unlocking, .raises _ true =>
    some ⟨k.toPhase .between, lock.filter fun l => l.1 ≠ i, false⟩
  | .unlocking, .raises _ false => some ⟨k.toPhase .between, lock, false⟩
  -- still here after the wait: it takes work again
  | .gone deadline, .returns =>
    if now < deadline then none
    else
      some ⟨{ k.backoff now errorBackoffSeconds with
        consuming := true, stopAsked := false, idleSince := now, phase := .between }, lock, false⟩
  | _, _ => none

namespace World

/-- The lock is a worker's, and lasts. -/
def Owns (w : World) (i : ℕ) : Prop := ∃ l ∈ w.lock, l.1 = i ∧ w.now < l.2

instance (w : World) (i : ℕ) : Decidable (w.Owns i) :=
  inferInstanceAs (Decidable (∃ l ∈ w.lock, l.1 = i ∧ w.now < l.2))

def setWorker (w : World) (i : ℕ) (k : Worker) : World :=
  { w with workers := w.workers.set i k, steps := w.steps + 1 }

def step (w : World) : Event → Option World
  | .advance later =>
    if w.now ≤ later then some { w with now := later, steps := w.steps + 1 } else none
  | .deliver i => w.workers[i]?.map fun k => w.setWorker i { k with holding := k.holding + 1 }
  | .finish i => w.workers[i]?.map fun k => w.setWorker i { k with holding := k.holding - 1 }
  | .landStop i => w.workers[i]?.bind fun k =>
      if k.stopAsked then some (w.setWorker i { k with consuming := false, stopAsked := false })
      else none
  | .act i answer => w.workers[i]?.bind fun k =>
      (k.act i w.now w.lock w.steps answer).map fun e =>
        { w.setWorker i e.worker with
          lock := e.lock
          removals := w.removals ++
            if e.removed then [⟨i, w.steps, Decidable.decide (w.Owns i)⟩] else [] }

def machine : Transition.Machine World Event := ⟨step⟩

/-- The workers of a fleet as they start, each with its template and its idle limit. -/
def initial (fleet : List (Option String × ℚ)) : World :=
  ⟨0, none, fleet.map fun f => Worker.start 0 f.1 f.2, 0, []⟩

end World

end MeshPipeline.IdleRetire
