import MeshPipeline.Persistence.Models

/-!
# The fence mirror

One Redis key per job mirrors the PostgreSQL claim. A fingerprint is the digest of a job's
generation and token; it is modelled by the pair it digests, so digests do not collide.
-/

namespace MeshPipeline

/-- `fence_fingerprint(job_id, generation, worker_token)` of the one job the key belongs to. -/
structure Fingerprint where
  generation : Nat
  token : Token
  deriving DecidableEq, Repr

def ExecutionOwnership.fingerprint (own : ExecutionOwnership) : Fingerprint :=
  ⟨own.executionGeneration, own.workerToken⟩

/-- The value of the fence key and the moment Redis drops it. -/
structure FenceEntry where
  value : Fingerprint
  expiresAt : Int
  deriving DecidableEq, Repr

/-- The fence key; `none` when it was never set, deleted or evicted. -/
abbrev FenceKey := Option FenceEntry

namespace Fence

/-- `GET`: a value past its expiry is absent. -/
def current (key : FenceKey) (now : Int) : Option Fingerprint :=
  key.bind fun e => if now < e.expiresAt then some e.value else none

/-- `ex=max(1, ttl_seconds)` from `now` on. -/
def entry (value : Fingerprint) (ttlSeconds now : Int) : FenceEntry :=
  ⟨value, now + seconds (max 1 ttlSeconds)⟩

/-- A plain `SET`. -/
def install (_ : FenceKey) (value : Fingerprint) (ttlSeconds now : Int) : FenceKey :=
  some (entry value ttlSeconds now)

/-- Extends the expiry of what is still ours, and never sets a value. -/
def refresh (key : FenceKey) (value : Fingerprint) (ttlSeconds now : Int) : FenceKey × Bool :=
  if current key now = some value then (some (entry value ttlSeconds now), true) else (key, false)

/-- `SET NX`: fills a hole and loses to whatever is there. -/
def heal (key : FenceKey) (value : Fingerprint) (ttlSeconds now : Int) : FenceKey × Bool :=
  if current key now = none then (some (entry value ttlSeconds now), true) else (key, false)

/-- Deletes what is still ours. -/
def revoke (key : FenceKey) (value : Fingerprint) (now : Int) : FenceKey × Bool :=
  if current key now = some value then (none, true) else (key, false)

/-- The mirror half of a heartbeat: `refresh`, then `heal` when nothing of ours was there. -/
def refreshOrHeal (key : FenceKey) (value : Fingerprint) (ttlSeconds now : Int) : FenceKey :=
  if (refresh key value ttlSeconds now).2 then (refresh key value ttlSeconds now).1
  else (heal key value ttlSeconds now).1

variable {key : FenceKey} {value other : Fingerprint} {ttl now later : Int}

@[simp]
theorem current_none : current none now = none := rfl

@[simp]
theorem current_entry : current (some (entry value ttl now)) now = some value := by
  simp only [current, entry, seconds, Option.bind_some, ite_eq_left_iff]
  omega

@[simp]
theorem current_install : current (install key value ttl now) now = some value := current_entry

/-- The mirror only ever loses its value as time passes. -/
theorem current_mono (hle : now ≤ later) (h : current key later = some value) :
    current key now = some value := by
  obtain _ | e := key
  · cases h
  · simp only [current, Option.bind_some, ite_eq_iff] at h ⊢
    obtain ⟨hlt, he⟩ | ⟨-, hn⟩ := h
    · exact .inl ⟨by omega, he⟩
    · cases hn

@[simp]
theorem current_revoke_ne : current (revoke key value now).1 now ≠ some value := by
  unfold revoke
  split
  · simp
  · assumption

/-- A revoke brings nothing into the mirror. -/
theorem current_of_revoke (h : current (revoke key value now).1 now = some other) :
    current key now = some other := by
  unfold revoke at h
  split at h
  · cases h
  · exact h

/-- After a heartbeat the mirror holds our value, or another's that was already there. -/
theorem current_refreshOrHeal :
    current (refreshOrHeal key value ttl now) now =
      if current key now = none then some value else current key now := by
  by_cases hv : current key now = some value
  · simp [refreshOrHeal, refresh, hv]
  · by_cases hn : current key now = none <;> simp [refreshOrHeal, refresh, heal, hv, hn]

/-- Where nothing but our own value can stand, a heartbeat leaves it for its whole time. -/
theorem refreshOrHeal_eq (h : current key now = none ∨ current key now = some value) :
    refreshOrHeal key value ttl now = some (entry value ttl now) := by
  obtain h | h := h <;> simp [refreshOrHeal, refresh, heal, h]

/-- A value that has not expired is the one Redis shows. -/
theorem current_of_live {e : FenceEntry} (hlive : now < e.expiresAt) :
    current (some e) now = some e.value := by
  simp [current, hlive]

end Fence

end MeshPipeline

/-!
## The fenced emit script

A job's stream and the one script that appends to it. The fence comparison, the replay check, the
sequence number and the append are one atomic step of Redis.
-/

namespace MeshPipeline

/-- An entry of the log: the event, with the number the script spliced into it. -/
structure StreamEvent where
  event : String
  seq : Nat
  deriving DecidableEq, Repr

/-- The Redis keys of one job. -/
structure JobStream where
  fence : FenceKey
  opKeys : List String
  seq : Nat
  log : List StreamEvent
  deriving DecidableEq, Repr

/-- The script's answers `-2`, `-1` and the sequence number. -/
inductive EmitResult
  | stale | replayed | appended (seq : Nat)
  deriving DecidableEq, Repr

namespace JobStream

def empty : JobStream := ⟨none, [], 0, []⟩

/-- `_EMIT_LUA`; an empty operation key is not claimed, and `expected` is `none` for a publication
that runs without a claim. -/
def emit (s : JobStream) (event opKey : String) (expected : Option Fingerprint) (now : Int) :
    EmitResult × JobStream :=
  if expected.isSome ∧ Fence.current s.fence now ≠ expected then (.stale, s)
  else if opKey ≠ "" ∧ opKey ∈ s.opKeys then (.replayed, s)
  else
    let seq := s.seq + 1
    (.appended seq,
      { s with
        opKeys := if opKey ≠ "" then opKey :: s.opKeys else s.opKeys
        seq := seq
        log := s.log ++ [⟨event, seq⟩] })

variable {s : JobStream} {event opKey : String} {fp : Fingerprint} {now : Int}

/-- Publication never touches the fence key. -/
@[simp]
theorem emit_fence (expected : Option Fingerprint) :
    (s.emit event opKey expected now).2.fence = s.fence := by
  unfold emit
  split
  · rfl
  · split <;> rfl

theorem emit_stale_iff :
    (s.emit event opKey (some fp) now).1 = .stale ↔ Fence.current s.fence now ≠ some fp := by
  unfold emit
  by_cases h : Fence.current s.fence now = some fp
  · simp only [h, ne_eq, not_true, and_false, if_false, iff_false]
    split <;> simp
  · simp [h]

/-- A refused publication changes nothing. -/
theorem emit_of_stale (h : Fence.current s.fence now ≠ some fp) :
    s.emit event opKey (some fp) now = (.stale, s) := by
  simp [emit, h]

end JobStream

end MeshPipeline
