import MeshPipeline.Library.Machine
import MeshPipeline.Persistence.ArtifactRepository

/-!
# One artifact row and its deliveries

The row of one job and logical key, and the sessions that deliver to it. A delivery is its upsert
and, when that wrote nothing, the read of the incumbent that classifies it; anything another
session may do can come between the two. A row that a transaction wrote is locked until the
transaction commits or is rolled back, so the upserts of other sessions wait.
-/

namespace MeshPipeline

open ArtifactRepository

abbrev Session := Nat

/-- An open transaction that wrote the row, with the deliveries it made since. -/
structure RowWrite where
  session : Session
  row : Artifact
  delivered : List Artifact

structure ArtifactRow where
  /-- The row as last committed. -/
  committed : Option Artifact
  /-- What was delivered by committed transactions and by deliveries that wrote nothing. -/
  delivered : List Artifact
  tx : Option RowWrite
  /-- The deliveries whose upsert wrote nothing and that have not read the incumbent yet. -/
  blocked : List (Session × Artifact)

inductive RowOp
  | upsert (session : Session) (mine : Artifact)
  | classify (session : Session)
  | commit (session : Session)
  | rollback (session : Session)

namespace ArtifactRow

def empty : ArtifactRow := ⟨none, [], none, []⟩

/-- The transaction of `s`, if it wrote the row. -/
def writeOf (w : ArtifactRow) (s : Session) : Option RowWrite := w.tx.filter (·.session == s)

/-- No transaction but that of `s` holds the row. -/
def free (w : ArtifactRow) (s : Session) : Bool := w.tx.all (·.session == s)

/-- The row as `s` sees it: its own write, else the last commit. -/
def visible (w : ArtifactRow) (s : Session) : Option Artifact :=
  match w.writeOf s with
  | some tx => some tx.row
  | none => w.committed

def isBlocked (w : ArtifactRow) (s : Session) : Bool := w.blocked.any (·.1 == s)

/-- The delivery of `s` that waits to be classified. -/
def waiting (w : ArtifactRow) (s : Session) : Option Artifact :=
  (w.blocked.find? (·.1 == s)).map (·.2)

/-- The transaction of `s` after it wrote `row`. -/
def written (w : ArtifactRow) (s : Session) (row mine : Artifact) : ArtifactRow :=
  { w with tx := some ⟨s, row, ((w.writeOf s).elim [] (·.delivered)) ++ [mine]⟩ }

/-- A delivery that wrote nothing joins the deliveries of its transaction. -/
def refused (w : ArtifactRow) (s : Session) (mine : Artifact) : ArtifactRow :=
  match w.writeOf s with
  | some tx => { w with
      tx := some { tx with delivered := tx.delivered ++ [mine] }
      blocked := w.blocked ++ [(s, mine)] }
  | none => { w with
      delivered := w.delivered ++ [mine]
      blocked := w.blocked ++ [(s, mine)] }

def commit (w : ArtifactRow) (s : Session) : ArtifactRow :=
  match w.writeOf s with
  | some tx => { w with
      committed := some tx.row, delivered := w.delivered ++ tx.delivered, tx := none }
  | none => w

def rollback (w : ArtifactRow) (s : Session) : ArtifactRow :=
  if (w.writeOf s).isSome then { w with tx := none } else w

def step (w : ArtifactRow) : RowOp → Option ArtifactRow
  | .upsert s mine =>
    if w.free s ∧ ¬ w.isBlocked s then
      match upsert (w.visible s) mine with
      | some row => some (w.written s row mine)
      | none => some (w.refused s mine)
    else none
  | .classify s =>
    if w.isBlocked s then some { w with blocked := w.blocked.filter (·.1 != s) } else none
  | .commit s => if w.isBlocked s then none else some (w.commit s)
  | .rollback s => if w.isBlocked s then none else some (w.rollback s)

def machine : Transition.Machine ArtifactRow RowOp := ⟨step⟩

/-- What a step answers its caller: the row the delivery met, the delivery and the outcome. -/
def answer (w : ArtifactRow) : RowOp → Option (Option Artifact × Artifact × DeliveryOutcome)
  | .upsert s mine =>
    (upsert (w.visible s) mine).map fun row => (w.visible s, mine, returned row mine)
  | .classify s =>
    (w.waiting s).map fun mine =>
      (w.visible s, mine, ArtifactRepository.classify (w.visible s) mine)
  | .commit _ | .rollback _ => none

/-- The outcome that the two currencies and checksums call for. -/
def dictated (row? : Option Artifact) (mine : Artifact) : DeliveryOutcome :=
  match row? with
  | none => .created
  | some row =>
    if row.currency < mine.currency then .updated
    else if mine.currency < row.currency then .superseded
    else if row.checksum = mine.checksum then .idempotent
    else .conflict

/-- Every answer given at the step is the one called for. -/
def RightlyReported (w : ArtifactRow) (op : RowOp) : Prop :=
  ∀ row? mine outcome, w.answer op = some (row?, mine, outcome) → outcome = dictated row? mine

/-- The step is no upsert that replaces an older row or rewrites its equal. -/
def FindsNoOlder (w : ArtifactRow) (op : RowOp) : Prop :=
  ∀ s mine row, op = .upsert s mine → w.visible s = some row → ¬ givesWay row mine

end ArtifactRow

end MeshPipeline
