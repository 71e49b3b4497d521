import Mathlib.Data.List.Nodup
import MeshPipeline.EventStream.Fence
import MeshPipeline.Library.Machine
import MeshPipeline.Library.Tenure

/-!
# The emit script and the expiry of its keys

The log, the counter and the operation-key set of a job are three Redis keys. Every append sets the
counter and the log to lapse together; the set is set to lapse by the appends that carry a key and
by no others. Read at one instant, the script does what `JobStream.emit` says.
-/

namespace MeshPipeline

/-- An entry of the log, with the operation key its emission carried. -/
structure LoggedEvent where
  entry : StreamEvent
  opKey : String
  deriving DecidableEq, Repr

/-- The Redis keys the script reads and writes. -/
structure EventKeys where
  fence : FenceKey
  opKeys : Option (Lapsing (List String))
  seq : Option (Lapsing Nat)
  log : Option (Lapsing (List LoggedEvent))
  deriving DecidableEq, Repr

/-- What `_emit_once` passes to the script. -/
structure Emission where
  event : String
  opKey : String
  expected : Option Fingerprint
  deriving DecidableEq, Repr

namespace EventKeys

open Lapsing

def empty : EventKeys := ⟨none, none, none, none⟩

def liveOpKeys (k : EventKeys) (now : Int) : List String := (live k.opKeys now).getD []

def liveSeq (k : EventKeys) (now : Int) : Nat := (live k.seq now).getD 0

def liveLog (k : EventKeys) (now : Int) : List LoggedEvent := (live k.log now).getD []

/-- The fence refuses the emission. -/
def refuses (k : EventKeys) (e : Emission) (now : Int) : Bool :=
  e.expected.isSome && Fence.current k.fence now != e.expected

/-- `SADD` and its `EXPIRE`, which run when the emission carries a key. -/
def claimOpKey (k : EventKeys) (e : Emission) (ttl now : Int) : Option (Lapsing (List String)) :=
  if e.opKey ≠ "" then some ⟨e.opKey :: k.liveOpKeys now, now + seconds ttl⟩ else k.opKeys

/-- `INCR`, `RPUSH` and the two `EXPIRE`s. -/
def append (k : EventKeys) (e : Emission) (ttl now : Int) : EventKeys :=
  { k with
    opKeys := k.claimOpKey e ttl now
    seq := some ⟨k.liveSeq now + 1, now + seconds ttl⟩
    log := some ⟨k.liveLog now ++ [⟨⟨e.event, k.liveSeq now + 1⟩, e.opKey⟩], now + seconds ttl⟩ }

/-- `_EMIT_LUA` on keys that lapse; `ttl` is `EVENT_LOG_TTL_SECONDS`, and one instant holds for the
whole script. -/
def emit (k : EventKeys) (e : Emission) (ttl now : Int) : EmitResult × EventKeys :=
  if k.refuses e now then (.stale, k)
  else if e.opKey ≠ "" ∧ e.opKey ∈ k.liveOpKeys now then (.replayed, k)
  else (.appended (k.liveSeq now + 1), k.append e ttl now)

variable {k : EventKeys} {e : Emission} {ttl now : Int}

theorem emit_of_refuses (h : k.refuses e now) : k.emit e ttl now = (.stale, k) := if_pos h

theorem refuses_of_stale (h : (k.emit e ttl now).1 = .stale) : k.refuses e now := by
  unfold emit at h
  grind

/-- The three things the script can do. -/
theorem emit_cases (k : EventKeys) (e : Emission) (ttl now : Int) :
    k.refuses e now ∧ k.emit e ttl now = (.stale, k) ∨
      ¬ k.refuses e now ∧ e.opKey ≠ "" ∧ e.opKey ∈ k.liveOpKeys now ∧
        k.emit e ttl now = (.replayed, k) ∨
      ¬ k.refuses e now ∧ (e.opKey ≠ "" → e.opKey ∉ k.liveOpKeys now) ∧
        k.emit e ttl now = (.appended (k.liveSeq now + 1), k.append e ttl now) := by
  unfold emit
  grind

/-! ## The script at one instant -/

/-- The stream as a reader at `now` finds it. -/
def view (k : EventKeys) (now : Int) : JobStream :=
  ⟨k.fence, k.liveOpKeys now, k.liveSeq now, (k.liveLog now).map (·.entry)⟩

theorem view_append (httl : 0 < ttl) :
    (k.append e ttl now).view now =
      { k.view now with
        opKeys := if e.opKey ≠ "" then e.opKey :: k.liveOpKeys now else k.liveOpKeys now
        seq := k.liveSeq now + 1
        log := (k.view now).log ++ [⟨e.event, k.liveSeq now + 1⟩] } := by
  have hlive : now < now + seconds ttl := by
    unfold seconds
    omega
  have hkeys : (k.append e ttl now).liveOpKeys now =
      if e.opKey ≠ "" then e.opKey :: k.liveOpKeys now else k.liveOpKeys now := by
    by_cases hkey : e.opKey = ""
    · simp [append, claimOpKey, liveOpKeys, hkey]
    · simp [append, claimOpKey, liveOpKeys, hkey, live_some, hlive]
  simp only [view, hkeys]
  simp [append, liveSeq, liveLog, live_some, hlive]

/-- Read at the instant it runs, the script is the one without expiry. -/
theorem view_emit (httl : 0 < ttl) :
    ((k.emit e ttl now).1, (k.emit e ttl now).2.view now) =
      (k.view now).emit e.event e.opKey e.expected now := by
  have hrefuses : k.refuses e now = true ↔
      e.expected.isSome ∧ Fence.current k.fence now ≠ e.expected := by
    simp [refuses]
  obtain ⟨h, heq⟩ | ⟨h, hne, hmem, heq⟩ | ⟨h, hfresh, heq⟩ := emit_cases k e ttl now
  · rw [heq]
    exact (if_pos (hrefuses.mp h)).symm
  · rw [heq]
    exact ((if_neg fun hc => h (hrefuses.mpr hc)).trans (if_pos ⟨hne, hmem⟩)).symm
  · rw [heq, view_append httl]
    exact ((if_neg fun hc => h (hrefuses.mpr hc)).trans
      (if_neg fun hc => hfresh hc.1 hc.2)).symm

end EventKeys

end MeshPipeline

/-!
## One job's event log over time

Emissions of any kind, in any order, while time passes, keys lapse and the fence is written by the
workers that hold it. The counter and the log lapse together, so the numbers of a log only ever
rise. The operation-key set can lapse under a living log, and then forgets what the log holds.
-/

namespace MeshPipeline

open Lapsing

structure EventWorld where
  clock : Int
  keys : EventKeys
  deriving DecidableEq, Repr

inductive EventOp
  | tick (microseconds : Nat)
  /-- The fence key is installed, refreshed, healed or revoked. -/
  | setFence (key : FenceKey)
  | emit (e : Emission)

namespace EventWorld

def created (clock : Int) : EventWorld := ⟨clock, .empty⟩

def log (w : EventWorld) : List LoggedEvent := w.keys.liveLog w.clock

def opKeys (w : EventWorld) : List String := w.keys.liveOpKeys w.clock

def step (ttl : Int) (w : EventWorld) : EventOp → Option EventWorld
  | .tick n => some { w with clock := w.clock + n }
  | .setFence key => some { w with keys := { w.keys with fence := key } }
  | .emit e => some { w with keys := (w.keys.emit e ttl w.clock).2 }

def machine (ttl : Int) : Transition.Machine EventWorld EventOp := ⟨step ttl⟩

/-- The sequence numbers strictly increase in log order. -/
def Increasing (w : EventWorld) : Prop := w.log.Pairwise fun a b => a.entry.seq < b.entry.seq

/-- The operation keys in the log, in log order. -/
def loggedKeys (log : List LoggedEvent) : List String := (log.map (·.opKey)).filter (· ≠ "")

/-- No operation key is in the living log twice. -/
def LoggedOnce (w : EventWorld) : Prop := (loggedKeys w.log).Nodup

instance (w : EventWorld) : Decidable (LoggedOnce w) :=
  inferInstanceAs (Decidable (List.Nodup _))

/-- No keyed emission passes the fence while the living log holds keyed events and the
operation-key set has lapsed. -/
def KeysRetained (w : EventWorld) (op : EventOp) : Prop :=
  ∀ e, op = .emit e → e.opKey ≠ "" → ¬ w.keys.refuses e w.clock → loggedKeys w.log ≠ [] →
    (live w.keys.opKeys w.clock).isSome

variable {ttl : Int} {w v : EventWorld} {k : EventKeys} {e : Emission} {now later : Int}

theorem loggedKeys_concat (log : List LoggedEvent) (e : LoggedEvent) :
    loggedKeys (log ++ [e]) = loggedKeys log ++ (if e.opKey = "" then [] else [e.opKey]) := by
  by_cases h : e.opKey = "" <;> simp [loggedKeys, h]

/-! ## The counter and the log -/

/-- The counter lapses with the log, and is past every number in it. -/
structure Counted (k : EventKeys) : Prop where
  counter : ∀ l, k.log = some l →
    ∃ n, k.seq = some ⟨n, l.expiresAt⟩ ∧ ∀ e ∈ l.value, e.entry.seq ≤ n
  increasing : ∀ l, k.log = some l → l.value.Pairwise fun a b => a.entry.seq < b.entry.seq

theorem Counted.le_liveSeq (h : Counted k) {a : LoggedEvent} (ha : a ∈ k.liveLog now) :
    a.entry.seq ≤ k.liveSeq now := by
  unfold EventKeys.liveLog at ha
  cases hlog : live k.log now with
  | none => simp [hlog] at ha
  | some events =>
    obtain ⟨l, hl, hlt, rfl⟩ := live_eq_some.mp hlog
    obtain ⟨n, hn, hle⟩ := h.counter l hl
    have hseq : live k.seq now = some n := live_eq_some.mpr ⟨_, hn, hlt, rfl⟩
    simpa [EventKeys.liveSeq, hseq] using hle a (by simpa [hlog] using ha)

theorem Counted.pairwise (h : Counted k) :
    (k.liveLog now).Pairwise fun a b => a.entry.seq < b.entry.seq := by
  unfold EventKeys.liveLog
  cases hlog : live k.log now with
  | none => simp
  | some events =>
    obtain ⟨l, hl, -, rfl⟩ := live_eq_some.mp hlog
    exact h.increasing l hl

theorem counted_append (h : Counted k) : Counted (k.append e ttl now) := by
  constructor
  · rintro _ ⟨⟩
    refine ⟨k.liveSeq now + 1, rfl, ?_⟩
    intro a ha
    obtain ha | rfl : a ∈ k.liveLog now ∨ a = ⟨⟨e.event, k.liveSeq now + 1⟩, e.opKey⟩ := by
      simpa using ha
    · have := h.le_liveSeq ha
      omega
    · exact Nat.le_refl _
  · rintro _ ⟨⟩
    apply List.pairwise_append.mpr
    refine ⟨h.pairwise, List.pairwise_singleton _ _, ?_⟩
    intro a ha b hb
    obtain rfl := List.mem_singleton.mp hb
    exact Nat.lt_succ_of_le (h.le_liveSeq ha)

theorem counted_step {op : EventOp} (h : Counted w.keys)
    (hstep : (machine ttl).step w op = some v) :
    Counted v.keys := by
  cases op with
  | tick n =>
    cases hstep
    exact h
  | setFence key =>
    cases hstep
    exact ⟨h.counter, h.increasing⟩
  | emit e =>
    cases hstep
    obtain ⟨-, heq⟩ | ⟨-, -, -, heq⟩ | ⟨-, -, heq⟩ := w.keys.emit_cases e ttl w.clock
    · simpa only [heq] using h
    · simpa only [heq] using h
    · simpa only [heq] using counted_append h

/-! ## The operation keys -/

/-- Every key in the log is in the set that was kept beside it, unless the set has lapsed, and none
is in the log twice. -/
structure Kept (k : EventKeys) : Prop where
  inSet : ∀ l, k.log = some l → ∀ key ∈ loggedKeys l.value,
    ∃ set, k.opKeys = some set ∧ key ∈ set.value
  nodup : ∀ l, k.log = some l → (loggedKeys l.value).Nodup

theorem Kept.live_inSet (h : Kept k) {key : String} (hkey : key ∈ loggedKeys (k.liveLog now)) :
    ∃ set, k.opKeys = some set ∧ key ∈ set.value := by
  unfold EventKeys.liveLog at hkey
  cases hlog : live k.log now with
  | none => simp [hlog, loggedKeys] at hkey
  | some events =>
    obtain ⟨l, hl, -, rfl⟩ := live_eq_some.mp hlog
    exact h.inSet l hl key (by simpa [hlog] using hkey)

theorem Kept.live_nodup (h : Kept k) : (loggedKeys (k.liveLog now)).Nodup := by
  unfold EventKeys.liveLog
  cases hlog : live k.log now with
  | none => simp [loggedKeys]
  | some events =>
    obtain ⟨l, hl, -, rfl⟩ := live_eq_some.mp hlog
    exact h.nodup l hl

/-- While the set lives it holds every key of the living log. -/
theorem Kept.mem_liveOpKeys (h : Kept k) (hlive : (live k.opKeys now).isSome) {key : String}
    (hkey : key ∈ loggedKeys (k.liveLog now)) : key ∈ k.liveOpKeys now := by
  obtain ⟨set, hset, hmem⟩ := h.live_inSet hkey
  obtain ⟨keys, hkeys⟩ := Option.isSome_iff_exists.mp hlive
  obtain ⟨set', hset', -, rfl⟩ := live_eq_some.mp hkeys
  obtain rfl : set = set' := by simpa using hset.symm.trans hset'
  simpa [EventKeys.liveOpKeys, hkeys] using hmem

theorem kept_append_plain (h : Kept k) (hplain : e.opKey = "") : Kept (k.append e ttl now) := by
  have hlogged : loggedKeys (k.liveLog now ++ [⟨⟨e.event, k.liveSeq now + 1⟩, e.opKey⟩]) =
      loggedKeys (k.liveLog now) := by
    rw [loggedKeys_concat, if_pos hplain, List.append_nil]
  have hset : k.claimOpKey e ttl now = k.opKeys := by simp [EventKeys.claimOpKey, hplain]
  constructor
  · rintro _ ⟨⟩ key hkey
    rw [hlogged] at hkey
    obtain ⟨set, hk, hmem⟩ := h.live_inSet hkey
    exact ⟨set, hset.trans hk, hmem⟩
  · rintro _ ⟨⟩
    rw [hlogged]
    exact h.live_nodup

theorem kept_append_keyed (h : Kept k) (hkeyed : e.opKey ≠ "") (hfresh : e.opKey ∉ k.liveOpKeys now)
    (hlive : loggedKeys (k.liveLog now) ≠ [] → (live k.opKeys now).isSome) :
    Kept (k.append e ttl now) := by
  have hmem : ∀ key ∈ loggedKeys (k.liveLog now), key ∈ k.liveOpKeys now := fun key hkey =>
    h.mem_liveOpKeys (hlive (List.ne_nil_of_mem hkey)) hkey
  have hlogged : loggedKeys (k.liveLog now ++ [⟨⟨e.event, k.liveSeq now + 1⟩, e.opKey⟩]) =
      loggedKeys (k.liveLog now) ++ [e.opKey] := by
    rw [loggedKeys_concat, if_neg hkeyed]
  have hset : k.claimOpKey e ttl now = some ⟨e.opKey :: k.liveOpKeys now, now + seconds ttl⟩ := by
    simp [EventKeys.claimOpKey, hkeyed]
  constructor
  · rintro _ ⟨⟩ key hkey
    rw [hlogged, List.mem_append, List.mem_singleton] at hkey
    refine ⟨_, hset, ?_⟩
    obtain hkey | rfl := hkey
    · exact List.mem_cons_of_mem _ (hmem key hkey)
    · exact List.mem_cons_self
  · rintro _ ⟨⟩
    rw [hlogged, ← List.concat_eq_append]
    apply List.Nodup.concat _ h.live_nodup
    exact fun hkey => hfresh (hmem _ hkey)

theorem kept_step {op : EventOp} (h : Kept w.keys) (hretained : KeysRetained w op)
    (hstep : (machine ttl).step w op = some v) : Kept v.keys := by
  cases op with
  | tick n =>
    cases hstep
    exact h
  | setFence key =>
    cases hstep
    exact ⟨h.inSet, h.nodup⟩
  | emit e =>
    cases hstep
    obtain ⟨-, heq⟩ | ⟨-, -, -, heq⟩ | ⟨hpass, hfresh, heq⟩ := w.keys.emit_cases e ttl w.clock
    · simpa only [heq] using h
    · simpa only [heq] using h
    · simp only [heq]
      by_cases hkey : e.opKey = ""
      · exact kept_append_plain h hkey
      · exact kept_append_keyed h hkey (hfresh hkey) (hretained e rfl hkey hpass)

/-! ## Every run -/

/-- A refused emission changes none of the keys. -/
def RefusedUntouched (ttl : Int) (w : EventWorld) (op : EventOp) : Prop :=
  ∀ e, op = .emit e → (w.keys.emit e ttl w.clock).1 = .stale →
    (machine ttl).step w op = some w

theorem refusedUntouched (ttl : Int) (w : EventWorld) (op : EventOp) :
    RefusedUntouched ttl w op := by
  rintro e rfl hstale
  have hkeys : w.keys.emit e ttl w.clock = (.stale, w.keys) :=
    EventKeys.emit_of_refuses (EventKeys.refuses_of_stale hstale)
  simp [machine, step, hkeys]

/-- In every run the numbers of the log increase and a refused emission changes nothing; in a run
that emits no key after the set lapsed under a log that holds keys, each key is logged once. -/
theorem event_log (ttl clock : Int) {ops : List EventOp} {w : EventWorld}
    (h : (machine ttl).exec (created clock) ops = some w) :
    Increasing w ∧ (∀ op, RefusedUntouched ttl w op) ∧
      ((machine ttl).Meets KeysRetained (created clock) ops → LoggedOnce w) := by
  refine ⟨?_, refusedUntouched ttl w, fun hmeets => ?_⟩
  · have hcounted : Counted w.keys :=
      Transition.Machine.exec_invariant_of_step (I := fun w => Counted w.keys)
        (fun _ _ _ => counted_step) ⟨by simp [created, EventKeys.empty],
          by simp [created, EventKeys.empty]⟩ h
    exact hcounted.pairwise
  · have hkept : Kept w.keys :=
      Transition.Machine.exec_invariant (I := fun w => Kept w.keys) (fun _ _ _ => kept_step)
        ⟨by simp [created, EventKeys.empty], by simp [created, EventKeys.empty]⟩ hmeets h
    exact hkept.live_nodup

/-- Once the set has lapsed under a log that holds a key, an emission of that key which passes the
fence is logged again. -/
theorem logged_twice_of_lapsed (httl : 0 < ttl) (hlapsed : live w.keys.opKeys w.clock = none)
    (hkey : e.opKey ∈ loggedKeys w.log) (hpass : ¬ w.keys.refuses e w.clock) :
    ∃ v, (machine ttl).step w (.emit e) = some v ∧ ¬ LoggedOnce v := by
  have hkeyed : e.opKey ≠ "" := by simpa [loggedKeys] using (List.mem_filter.mp hkey).2
  have hno : w.keys.liveOpKeys w.clock = [] := by simp [EventKeys.liveOpKeys, hlapsed]
  have hemit : (w.keys.emit e ttl w.clock).2 = w.keys.append e ttl w.clock := by
    simp [EventKeys.emit, hpass, hno]
  refine ⟨_, rfl, fun honce => ?_⟩
  have hlive : w.clock < w.clock + seconds ttl := by
    unfold seconds
    omega
  have hlog : loggedKeys (log { w with keys := w.keys.append e ttl w.clock }) =
      loggedKeys w.log ++ [e.opKey] := by
    simp only [log, EventKeys.append, EventKeys.liveLog, live_some, if_pos hlive, Option.getD_some]
    rw [loggedKeys_concat, if_neg hkeyed]
  rw [LoggedOnce, hemit, hlog, List.nodup_append] at honce
  exact honce.2.2 _ hkey _ (List.mem_singleton_self _) rfl

/-- An event without a claim to check against. -/
def unfenced (event opKey : String) : Emission := ⟨event, opKey, none⟩

/-- A keyed event, a plain one that keeps the log, and the first again. -/
def replayed : List EventOp :=
  [.emit (unfenced "{}" "closing"), .tick 50000000000, .emit (unfenced "{}" ""),
    .emit (unfenced "{}" "closing")]

theorem event_log_replayed :
    ∃ w, (machine 86400).exec (created 0) replayed = some w ∧ Increasing w ∧
      (∀ op, RefusedUntouched 86400 w op) ∧
      ((machine 86400).Meets KeysRetained (created 0) replayed → LoggedOnce w) :=
  ⟨_, rfl, event_log 86400 0 rfl⟩

/-- The set lapses a day after its one key, under a log that a plain event kept alive; the replay
of the key is logged again. -/
theorem event_logged_twice :
    ∃ w, (machine 86400).exec (created 0)
      [.emit (unfenced "{}" "closing"), .tick 50000000000, .emit (unfenced "{}" ""),
        .tick 50000000000, .emit (unfenced "{}" "closing")] = some w ∧ ¬ LoggedOnce w :=
  ⟨_, rfl, by decide +kernel⟩

end EventWorld

end MeshPipeline
