import MeshPipeline.Job.Exclusivity

/-!
# The fenced checkpointer

What a generation's durable thread holds, how it is read back, and how a run goes on from it. A write
is fenced when it is asked for and made later, in up to eight tries.
-/

namespace MeshPipeline

/-- The `source` of a checkpoint's metadata. -/
inductive CheckpointSource
  | input | loop | update | fork
  deriving DecidableEq, Repr

/-- What one write adds: a checkpoint, or the writes of one task of it. -/
inductive CheckpointEntry
  | checkpoint (id : Nat) (source : CheckpointSource)
  | taskWrites (checkpointId : Nat) (taskId : String)
  deriving DecidableEq, Repr

/-- The key under which the saver upserts. -/
def CheckpointEntry.key : CheckpointEntry → Nat × Option String
  | .checkpoint id _ => (id, none)
  | .taskWrites checkpointId taskId => (checkpointId, some taskId)

/-- An entry of a thread, with what is seen of the write that made it: whether its writer owned the job
then, and whether a later claim had been granted by then. -/
structure SavedEntry where
  entry : CheckpointEntry
  writer : ExecutionOwnership
  current : Bool
  superseded : Bool
  deriving DecidableEq, Repr

/-- The rows of one thread. -/
abbrev CheckpointThread := List SavedEntry

namespace CheckpointThread

def upsert (thread : CheckpointThread) (saved : SavedEntry) : CheckpointThread :=
  thread.filter (fun e => e.entry.key ≠ saved.entry.key) ++ [saved]

/-- The checkpoint that is read back: that with the greatest id. -/
def latest : CheckpointThread → Option SavedEntry
  | [] => none
  | e :: thread =>
    match e.entry, latest thread with
    | .checkpoint _ _, none => some e
    | .checkpoint id _, some l => if l.entry.key.1 ≤ id then some e else some l
    | .taskWrites _ _, l => l

/-- The task writes that are read back with a checkpoint. -/
def writesOf (thread : CheckpointThread) (id : Nat) : List SavedEntry :=
  thread.filter fun e => e.entry.key.1 = id ∧ e.entry.key.2.isSome

variable {thread : CheckpointThread} {saved e : SavedEntry}

lemma mem_upsert (h : e ∈ thread.upsert saved) : e ∈ thread ∨ e = saved := by
  rw [upsert, List.mem_append, List.mem_singleton] at h
  exact h.imp List.mem_of_mem_filter id

lemma mem_of_latest (h : thread.latest = some e) : e ∈ thread := by
  induction thread with
  | nil => cases h
  | cons x thread ih => grind [latest]

end CheckpointThread

/-- What a resumed run continues from: a checkpoint and the task writes saved with it. -/
structure CheckpointPosition where
  checkpoint : SavedEntry
  writes : List SavedEntry
  deriving DecidableEq, Repr

/-- The position a thread is read back as. -/
def CheckpointThread.position (thread : CheckpointThread) : Option CheckpointPosition :=
  thread.latest.map fun e => ⟨e, CheckpointThread.writesOf thread e.entry.key.1⟩

inductive ThreadDisposition
  | absent | unstarted | pending | complete
  deriving DecidableEq, Repr

/-- `disposition_of`; `next` is the graph's account of the nodes that are still to run. -/
def dispositionOf (next : CheckpointPosition → List String) :
    Option CheckpointPosition → ThreadDisposition
  | none => .absent
  | some position =>
    match position.checkpoint.entry with
    | .checkpoint _ .input => .unstarted
    | _ => if next position = [] then .complete else .pending

structure Continuation (S : Type*) where
  graphInput : Option S
  refreshGeometry : Bool
  disposition : ThreadDisposition

/-- `plan_continuation`. -/
def planContinuation {S : Type*} (disposition : ThreadDisposition) (initialState : S)
    (materialized : Bool) : Continuation S :=
  match disposition with
  | .absent | .unstarted => ⟨some initialState, false, disposition⟩
  | .pending => ⟨none, materialized, disposition⟩
  | .complete => ⟨none, false, disposition⟩

/-- A write that has passed its ownership check, with the tries it has left. -/
structure PendingCheckpoint where
  own : ExecutionOwnership
  entry : CheckpointEntry
  tries : Nat
  deriving DecidableEq, Repr

/-- The tries of `retry_transient`: one, and one after each wait of `BACKOFF_S`. -/
def checkpointTries : Nat := 8

/-- How one try of a write ends: it is saved, it is saved and the answer is lost, the database is
unavailable, or it fails in another way. -/
inductive WriteTry
  | saved | savedUnanswered | unavailable | failed
  deriving DecidableEq, Repr

def WriteTry.lands : WriteTry → Bool
  | .saved | .savedUnanswered => true
  | .unavailable | .failed => false

/-- What is left of a write after a try: an unavailable database is tried again and at last skipped,
any other error is raised. -/
def PendingCheckpoint.after (p : PendingCheckpoint) : WriteTry → Option PendingCheckpoint
  | .saved | .failed => none
  | .savedUnanswered | .unavailable => if p.tries ≤ 1 then none else some { p with tries := p.tries - 1 }

end MeshPipeline
