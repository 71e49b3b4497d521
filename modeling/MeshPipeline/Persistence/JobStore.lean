import MeshPipeline.Persistence.Lease
import MeshPipeline.Persistence.JobRepository

/-!
# One job's rows

The job row with the rows of the other tables that its terminal writers touch in the same
transaction: its review parks, the terminal outbox and the credit ledger.
-/

namespace MeshPipeline

inductive ParkCloser
  | run | cancel
  deriving DecidableEq, Repr

/-- A row of `repair_review_parks`; it is open while nobody closed it. -/
structure Park where
  id : Nat
  closedBy : Option ParkCloser
  deriving DecidableEq, Repr

/-- `dedup_key`: one terminal event for a job, and one for each of its parks. -/
inductive DedupKey
  | terminal (job : JobId)
  | park (job : JobId) (park : Nat)
  deriving DecidableEq, Repr

/-- A row of `terminal_outbox`, with the event it announces. -/
structure OutboxRow where
  jobId : JobId
  executionGeneration : Nat
  terminalStatus : JobStatus
  finalResultSchemaVersion : Nat
  closingMessage : String
  finalResult : FinalResult
  dedupKey : DedupKey
  deriving DecidableEq, Repr

inductive CreditEntryType
  | grant | debit | refund
  deriving DecidableEq, Repr

/-- A ledger row written for a job. A debit is stored negated. -/
structure CreditLedgerEntry where
  entryType : CreditEntryType
  organizationId : Nat
  amount : Int
  jobId : JobId
  overage : Int
  deriving DecidableEq, Repr

structure JobStore where
  row : SimulationJob
  parks : List Park
  outbox : List OutboxRow
  ledger : List CreditLedgerEntry
  deriving DecidableEq, Repr

namespace TerminalOutboxRepository

/-- `dedup_key_for`. -/
def dedupKeyFor (job : JobId) : DedupKey := .terminal job

/-- `enqueue`: an insert that does nothing on a key already there. -/
def enqueue (outbox : List OutboxRow) (row : OutboxRow) : Bool × List OutboxRow :=
  if outbox.any (·.dedupKey = row.dedupKey) then (false, outbox) else (true, outbox ++ [row])

/-- The row announces the job's ending, and not a park. -/
def announcesEnding (row : OutboxRow) : Bool :=
  match row.dedupKey with
  | .terminal _ => true
  | .park _ _ => false

/-- The announcements of an ending among outbox rows. -/
def terminalRows (outbox : List OutboxRow) : List OutboxRow := outbox.filter (announcesEnding ·)

variable {outbox : List OutboxRow} {row : OutboxRow}

/-- The announcement of a park adds none of an ending. -/
theorem terminalRows_enqueue_park (h : announcesEnding row = false) :
    terminalRows (enqueue outbox row).2 = terminalRows outbox := by
  unfold enqueue
  split <;> simp [terminalRows, h]

/-- The first announcement of an ending is inserted: its key is not taken. -/
theorem terminalRows_enqueue (h : announcesEnding row) (hnone : terminalRows outbox = []) :
    terminalRows (enqueue outbox row).2 = [row] := by
  have hfree : ¬ outbox.any (·.dedupKey = row.dedupKey) := by
    simp only [List.any_eq_true, decide_eq_true_eq, not_exists, not_and]
    intro r hr hkey
    refine List.filter_eq_nil_iff.mp hnone r hr ?_
    simpa [announcesEnding, hkey] using h
  rw [enqueue, if_neg hfree]
  simpa [terminalRows, h] using hnone

end TerminalOutboxRepository

namespace RepairReviewRepository

/-- `open_park`: the newest park nobody closed. -/
def openPark (parks : List Park) : Option Park := parks.reverse.find? (·.closedBy.isNone)

/-- `create_park`; identities are drawn fresh. -/
def createPark (parks : List Park) : Nat × List Park :=
  (parks.length, parks ++ [⟨parks.length, none⟩])

/-- `close_park`: only an open park. -/
def closePark (parks : List Park) (id : Nat) (by' : ParkCloser) : List Park :=
  parks.map fun p => if p.id = id ∧ p.closedBy = none then { p with closedBy := some by' } else p

/-- `reopen_park`: only a closed park. -/
def reopenPark (parks : List Park) (id : Nat) : List Park :=
  parks.map fun p => if p.id = id then { p with closedBy := none } else p

end RepairReviewRepository

end MeshPipeline
