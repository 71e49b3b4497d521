import MeshPipeline.EventStream.Fence
import MeshPipeline.Library.Machine
import MeshPipeline.Persistence.Lease

/-!
# One job's claim and its mirror

The row in PostgreSQL, the keys in Redis, and the workers between them. A row-locked operation is
two steps: it takes the lock and makes its mirror writes, and later its transaction commits or is
rolled back. The mirror install, the first half of a hand-back, the ownership check of a
publication and its write to Redis are steps of their own, outside any lock.
-/

namespace MeshPipeline

open LeaseRepository

/-- An open transaction that holds the row lock, with the claim it will grant. -/
structure RowTx where
  row : SimulationJob
  granted : Option ExecutionOwnership

/-- A publication that passed its ownership check and has not reached Redis yet. -/
structure Publication where
  own : ExecutionOwnership
  event : String
  opKey : String

structure FencingWorld where
  clock : Int
  row : SimulationJob
  tx : Option RowTx
  stream : JobStream
  /-- Every ownership a committed claim granted, newest first. -/
  granted : List ExecutionOwnership
  /-- The ownerships whose delivery installed its fence and started. -/
  running : List ExecutionOwnership
  inFlight : List Publication

inductive FenceOp
  | tick (microseconds : Nat)
  /-- Redis drops the fence key on its own. -/
  | lapse
  | claimLock (workerToken : Token) (backend : String) (backendExecutionId : Option String)
      (now : Int)
  | heartbeatLock (own : ExecutionOwnership) (extendDeadlineTo : Option Int) (now : Int)
  | evictLock (now : Int)
  | releaseLock (own : ExecutionOwnership) (now : Int)
  | handBackRevoke (own : ExecutionOwnership)
  | handBackLock (own : ExecutionOwnership) (now : Int)
  | commit
  | rollback
  | install (own : ExecutionOwnership)
  | authorize (own : ExecutionOwnership) (event opKey : String)
  | emit (i : Nat)

namespace FencingWorld

def fence (w : FencingWorld) : FenceKey := w.stream.fence

/-- The fingerprint Redis holds now. -/
def mirrored (w : FencingWorld) : Option Fingerprint := Fence.current w.fence w.clock

def setFence (w : FencingWorld) (key : FenceKey) : FencingWorld :=
  { w with stream := { w.stream with fence := key } }

/-- The row lock is taken, and the mirror written under it. -/
def lock (w : FencingWorld) (row : SimulationJob) (granted : Option ExecutionOwnership)
    (key : FenceKey) : FencingWorld :=
  { w.setFence key with tx := some ⟨row, granted⟩ }

/-- A lock can be taken, by an operation that read its own clock before it waited for it. -/
def lockable (w : FencingWorld) (now : Int) : Bool := w.tx.isNone && decide (now ≤ w.clock)

/-- The mirror after a revoke made under the lock, if one is made. -/
def revoked (w : FencingWorld) (value : Option Fingerprint) : FenceKey :=
  value.elim w.fence fun value => (Fence.revoke w.fence value w.clock).1

/-- Tokens are drawn fresh by each delivery. -/
def freshToken (w : FencingWorld) (token : Token) : Bool :=
  w.granted.all fun own => own.workerToken != token

def claimLock (cfg : Settings) (w : FencingWorld) (workerToken : Token) (backend : String)
    (backendExecutionId : Option String) (now : Int) : FencingWorld :=
  match claimExecution (some w.row) workerToken backend backendExecutionId true now cfg.lease
      cfg.pipelineTotal with
  | .ok ⟨_, some own, some row, outgoing⟩ => w.lock row (some own) (w.revoked outgoing)
  | _ => w

def heartbeatLock (cfg : Settings) (w : FencingWorld) (own : ExecutionOwnership)
    (extendDeadlineTo : Option Int) (now : Int) : FencingWorld :=
  let beat := heartbeat (some w.row) own extendDeadlineTo now cfg.lease
  let row := beat.2.getD w.row
  w.lock row none (if beat.1 then
    Fence.refreshOrHeal w.fence own.fingerprint (fenceTtlSeconds row now) w.clock else w.fence)

/-- The mirror half of a `release`: only of what the row names and has not ended. -/
def releaseRevokes (row : SimulationJob) (own : ExecutionOwnership) : Option Fingerprint :=
  if ¬ row.status.Terminal ∧ names row own then some own.fingerprint else none

/-- `install_execution_fence`, with the time to live the claim handed out. -/
def install (w : FencingWorld) (own : ExecutionOwnership) : FencingWorld :=
  { w.setFence (Fence.install w.fence own.fingerprint
      (if own.fenceTtlSeconds = 0 then 1 else own.fenceTtlSeconds) w.clock) with
    running := own :: w.running }

/-- The ownership check of `OwnershipCheckedPublisher`; a refused call publishes nothing. -/
def authorize (w : FencingWorld) (own : ExecutionOwnership) (event opKey : String) :
    FencingWorld :=
  if isCurrentOwner (some w.row) own then
    { w with inFlight := w.inFlight ++ [⟨own, event, opKey⟩] }
  else w

/-- The write a publication makes once it reaches Redis. -/
def publish (w : FencingWorld) (p : Publication) : EmitResult × JobStream :=
  w.stream.emit p.event p.opKey (some p.own.fingerprint) w.clock

def step (cfg : Settings) (w : FencingWorld) : FenceOp → Option FencingWorld
  | .tick d => some { w with clock := w.clock + d }
  | .lapse => some (w.setFence none)
  | .claimLock token backend execution now =>
    if w.lockable now ∧ w.freshToken token then some (w.claimLock cfg token backend execution now)
    else none
  | .heartbeatLock own target now =>
    if w.lockable now then some (w.heartbeatLock cfg own target now) else none
  | .evictLock now =>
    if w.lockable now then
      some (w.lock ((evictOwner (some w.row) now).2.getD w.row) none
        (w.revoked (holderFingerprint w.row)))
    else none
  | .releaseLock own now =>
    if w.lockable now then
      some (w.lock ((release (some w.row) own now).getD w.row) none
        (w.revoked (releaseRevokes w.row own)))
    else none
  | .handBackRevoke own => some (w.setFence (w.revoked (some own.fingerprint)))
  | .handBackLock own now =>
    if w.lockable now then
      some (w.lock ((handBack (some w.row) own now).2.getD w.row) none w.fence)
    else none
  | .commit => w.tx.map fun tx =>
    { w with row := tx.row, tx := none, granted := tx.granted.toList ++ w.granted }
  | .rollback => w.tx.map fun _ => { w with tx := none }
  | .install own =>
    if own ∈ w.granted ∧ own ∉ w.running then some (w.install own) else none
  | .authorize own event opKey =>
    if own ∈ w.running then some (w.authorize own event opKey) else none
  | .emit i => (w.inFlight[i]?).map fun p =>
    { w with stream := (w.publish p).2, inFlight := w.inFlight.eraseIdx i }

/-- The machine whose runs are the interleavings of the workers of one job. -/
def machine (cfg : Settings) : Transition.Machine FencingWorld FenceOp := ⟨step cfg⟩

/-- A job just created, with nothing in Redis. -/
def created (id : JobId) (ownerId : String) (organizationId : Option Nat) (now : Int) :
    FencingWorld where
  clock := now
  row := JobRepository.create id ownerId organizationId now
  tx := none
  stream := .empty
  granted := []
  running := []
  inFlight := []

variable (w : FencingWorld) (key : FenceKey)

@[simp]
theorem mirrored_setFence : (w.setFence key).mirrored = Fence.current key w.clock := rfl

@[simp]
theorem mirrored_lock (row : SimulationJob) (granted : Option ExecutionOwnership) :
    (w.lock row granted key).mirrored = Fence.current key w.clock := rfl

end FencingWorld

end MeshPipeline
