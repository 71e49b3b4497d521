import Mathlib.Data.Rat.Floor
import MeshPipeline.Library.Machine

/-!
# The capacity controller and its store

Calls of `acquire` ask one sorted set for a slot, over and over until one is granted or their time
is up. A request and its reply travel on their own: each may be late or lost, and a caller whose
call raises does not know whether its request ran. All clocks agree and times are exact. A call and
its token are known by one number.
-/

namespace MeshPipeline.ModelCapacity

structure Controller where
  leaseTtlS : ℚ
  pollIntervalS : ℚ

/-- `RedisCapacityController()`, as the composition makes it. -/
def Controller.default : Controller := ⟨1900, 1 / 4⟩

/-- The set of one domain: its tokens with their scores, and when the key itself goes. -/
structure Store where
  members : List (ℕ × ℚ)
  expireAt : Option ℚ
  deriving DecidableEq

namespace Store

/-- The members that a command finds at a time. -/
def live (s : Store) (now : ℚ) : List (ℕ × ℚ) :=
  if ∃ t ∈ s.expireAt, t ≤ now then [] else s.members

end Store

/-- `ZREMRANGEBYSCORE key 0 now`. -/
def zremrangebyscore (now : ℚ) (members : List (ℕ × ℚ)) : List (ℕ × ℚ) :=
  members.filter fun m => ¬ (0 ≤ m.2 ∧ m.2 ≤ now)

def zrem (token : ℕ) (members : List (ℕ × ℚ)) : List (ℕ × ℚ) := members.filter (·.1 ≠ token)

def zadd (score : ℚ) (token : ℕ) (members : List (ℕ × ℚ)) : List (ℕ × ℚ) :=
  zrem token members ++ [(token, score)]

/-- What a script leaves and what it answers. -/
structure Admission where
  store : Store
  admitted : Bool
  active : ℕ

/-- `_ACQUIRE_LUA` at a time of the store, with the arguments that `acquire` gives at a reading
`now` of its own. -/
def acquireLua (c : Controller) (s : Store) (time now : ℚ) (limit : ℤ) (token : ℕ) : Admission :=
  let members := zremrangebyscore now (s.live time)
  let active := members.length
  if active < limit then
    ⟨⟨zadd (now + c.leaseTtlS) token members, some (time + ⌊c.leaseTtlS * 2⌋)⟩, true, active⟩
  else ⟨{ s with members }, false, active⟩

/-- `_DEPTH_LUA`. -/
def depthLua (s : Store) (time now : ℚ) : Store :=
  { s with members := zremrangebyscore now (s.live time) }

structure Lease where
  token : ℕ
  waitedS : ℚ
  activeAtAdmission : ℕ
  deriving DecidableEq

/-- Where a call of `acquire` is, with the reading that its last request was made at. -/
inductive Phase
  | asking (asked : ℚ)
  | sleeping (wakeAt : ℚ)
  | leased (lease : Lease) (asked : ℚ)
  /-- It has answered None: at its deadline, or because this request failed. -/
  | refused (failed : Option ℚ)
  /-- Its lease was released, by a request that has run or not. -/
  | released (asked : ℚ) (freed : Bool)
  deriving DecidableEq

/-- A call, and what is on its way for it. -/
structure Call where
  limit : ℤ
  deadlineS : ℚ
  started : ℚ
  phase : Phase
  request : Option ℚ
  reply : Option (Bool × ℕ)
  releasing : Bool
  deriving DecidableEq

structure World where
  now : ℚ
  store : Store
  calls : List Call
  /-- The readings of the depth requests on their way. -/
  depths : List ℚ
  /-- The limit that was last admitted under. -/
  lastLimit : Option ℤ
  deriving DecidableEq

def World.initial : World := ⟨0, ⟨[], none⟩, [], [], none⟩

inductive Event
  | advance (later : ℚ)
  | acquire (limit : ℤ) (deadlineS : ℚ)
  /-- The request of a call reaches the store. -/
  | execute (i : ℕ)
  | loseRequest (i : ℕ)
  /-- The reply reaches the call. -/
  | deliver (i : ℕ)
  | loseReply (i : ℕ)
  /-- The client of a waiting call raises. -/
  | fail (i : ℕ)
  | poll (i : ℕ)
  | release (i : ℕ)
  | executeRelease (i : ℕ)
  | loseRelease (i : ℕ)
  | depth
  | executeDepth (j : ℕ)
  | loseDepth (j : ℕ)
  deriving DecidableEq

/-- What a call makes of a reply. -/
def Call.answered (c : Controller) (now : ℚ) (i : ℕ) (k : Call) (admitted : Bool) (active : ℕ) :
    Call :=
  match k.phase with
  | .asking asked =>
    let waited := now - k.started
    if admitted then { k with reply := none, phase := .leased ⟨i, waited, active⟩ asked }
    else if k.deadlineS ≤ waited then { k with reply := none, phase := .refused none }
    else { k with
      reply := none
      phase := .sleeping (now + min c.pollIntervalS (max 0 (k.deadlineS - waited))) }
  | _ => { k with reply := none }

namespace World

variable (c : Controller)

/-- A step of one call, with what it does to the store. -/
def call (w : World) (i : ℕ) (k : Call) : Event → Option World
  | .execute _ => k.request.map fun now =>
      let a := acquireLua c w.store w.now now k.limit i
      { w with
        store := a.store
        calls := w.calls.set i { k with request := none, reply := some (a.admitted, a.active) }
        lastLimit := if a.admitted then some k.limit else w.lastLimit }
  | .loseRequest _ => k.request.map fun _ =>
      { w with calls := w.calls.set i { k with request := none } }
  | .deliver _ => k.reply.map fun reply =>
      { w with calls := w.calls.set i (k.answered c w.now i reply.1 reply.2) }
  | .loseReply _ => k.reply.map fun _ =>
      { w with calls := w.calls.set i { k with reply := none } }
  | .fail _ =>
    match k.phase with
    | .asking asked =>
      some { w with calls := w.calls.set i { k with phase := .refused (some asked) } }
    | _ => none
  | .poll _ =>
    match k.phase with
    | .sleeping wakeAt =>
      if wakeAt ≤ w.now then
        some { w with
          calls := w.calls.set i { k with phase := .asking w.now, request := some w.now } }
      else none
    | _ => none
  | .release _ =>
    match k.phase with
    | .leased _ asked =>
      some { w with
        calls := w.calls.set i { k with phase := .released asked false, releasing := true } }
    | _ => none
  | .executeRelease _ =>
    match k.phase with
    | .released asked _ =>
      if k.releasing then
        some { w with
          store := { w.store with members := zrem i (w.store.live w.now) }
          calls := w.calls.set i { k with phase := .released asked true, releasing := false } }
      else none
    | _ => none
  | .loseRelease _ =>
    if k.releasing then some { w with calls := w.calls.set i { k with releasing := false } }
    else none
  | _ => none

def step (w : World) (e : Event) : Option World :=
  match e with
  | .advance later => if w.now ≤ later then some { w with now := later } else none
  | .acquire limit deadlineS =>
    some { w with
      calls := w.calls ++ [⟨limit, deadlineS, w.now, .asking w.now, some w.now, none, false⟩] }
  | .depth => some { w with depths := w.depths ++ [w.now] }
  | .executeDepth j => w.depths[j]?.map fun now =>
      { w with store := depthLua w.store w.now now, depths := w.depths.eraseIdx j }
  | .loseDepth j => some { w with depths := w.depths.eraseIdx j }
  | .execute i | .loseRequest i | .deliver i | .loseReply i | .fail i | .poll i | .release i
  | .executeRelease i | .loseRelease i => w.calls[i]?.bind fun k => w.call c i k e

def machine : Transition.Machine World Event := ⟨step c⟩

def live (w : World) : List (ℕ × ℚ) := w.store.live w.now

/-- The leases in the store whose time has not passed. -/
def unexpired (w : World) : List (ℕ × ℚ) := w.live.filter (w.now < ·.2)

end World

end MeshPipeline.ModelCapacity
