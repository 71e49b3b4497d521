import MeshPipeline.Library.Machine
import MeshPipeline.RepairQueue.Jobs

/-!
# Operators at one job

The calls of operators on one repair job, statement by statement: what a call read may be stale when
it writes, an update holds the row until its transaction ends, and a transaction that fails leaves
nothing. Beside them the pipeline moves the job and records its attempts.
-/

namespace MeshPipeline.RepairQueue

abbrev CallId := ℕ

/-- What an operator asks for. -/
inductive Request
  | decide (a : Ask)
  | assign (b : AssignIn)
  deriving DecidableEq

/-! ## One thing at a time -/

/-- The rows of a job. -/
structure Desk where
  job : CadRepairJob
  attempts : List CadRepairAttempt
  decisions : List CadRepairDecision
  deriving DecidableEq

/-- What can happen to the rows of a job. -/
inductive Action
  | called (s : CallId) (r : Request)
  | moved (target : RepairJobStatus) (p : Passed) (expectedFrom : Option RepairJobStatus)
  | attempted (mode inputSha256 outputSha256 : String)
  deriving DecidableEq

/-- The call that did it. -/
def Action.caller : Action → Option CallId
  | .called s _ => some s
  | _ => none

namespace Desk

/-- `transition` of a caller that holds nothing else. -/
def move (d : Desk) (target : RepairJobStatus) (p : Passed)
    (expectedFrom : Option RepairJobStatus) : Option Desk :=
  if (transition d.job target p expectedFrom).1 = .applied then
    some { d with job := (transition d.job target p expectedFrom).2 }
  else none

/-- The attempt is appended, when it is in order. -/
def attempt (d : Desk) (mode inputSha256 outputSha256 : String) : Option Desk :=
  match recordAttempt d.attempts mode inputSha256 outputSha256 with
  | .ok t => some { d with attempts := d.attempts ++ [t] }
  | .error _ => none

/-- A decision as it should be: on the job as it is, with the evidence that is there now, and
written down with the move. -/
def decide (d : Desk) (a : Ask) : Option Desk :=
  if d.job.status ∈ legalSources a.target ∧ a.HasOutput d.job.simulationJobId d.attempts then
    match recordDecision a.name a.actor d.job.status.value a.reason a.notes with
    | .ok row => some ⟨a.passed.set d.job a.target, d.attempts, d.decisions ++ [row]⟩
    | .error _ => none
  else none

/-- An assignment on the job as it is. -/
def assign (d : Desk) (b : AssignIn) : Option Desk :=
  (b.onRow d.job).map fun job => { d with job := job }

def step (d : Desk) : Action → Option Desk
  | .called _ (.decide a) => d.decide a
  | .called _ (.assign b) => d.assign b
  | .moved target p expectedFrom => d.move target p expectedFrom
  | .attempted mode input output => d.attempt mode input output

/-- A job at which one thing happens after the other. -/
def machine : Transition.Machine Desk Action := ⟨step⟩

end Desk

/-! ## Many at once -/

/-- What becomes of a statement or a commit; a commit that raises may have been made. -/
inductive Answer
  | done | failed | lost
  deriving DecidableEq

def Answer.lands : Answer → Bool
  | .done | .lost => true
  | .failed => false

inductive Reply
  | done (r : Request)
  | refused (why : Detail)
  /-- 409: the row was not as the call had read it. -/
  | overtaken
  /-- 500. -/
  | failed
  deriving DecidableEq

/-- What a decision has left to do. -/
inductive DecideTurn
  /-- `operator_job`. -/
  | read
  /-- `attempts_for_job`. -/
  | weigh (was : RepairJobStatus)
  /-- `transition`. -/
  | move (was : RepairJobStatus)
  /-- `record_decision` and the commit; the row is held. -/
  | record (was : RepairJobStatus) (moved : CadRepairJob)
  deriving DecidableEq

inductive AssignTurn
  | read
  | write
  /-- The commit; the row is held. -/
  | commit (left : CadRepairJob)
  deriving DecidableEq

inductive Call
  | decide (a : Ask) (turn : DecideTurn)
  | assign (b : AssignIn) (turn : AssignTurn)
  | answered (r : Reply)
  deriving DecidableEq

/-- The call holds the row. -/
def Call.holds : Call → Bool
  | .decide _ (.record ..) | .assign _ (.commit _) => true
  | _ => false

structure World where
  desk : Desk
  lock : Option CallId
  calls : CallId → Option Call

inductive Op
  | decide (s : CallId) (body : DecideIn)
  | assign (s : CallId) (body : AssignIn)
  | go (s : CallId) (answer : Answer)
  | worker (target : RepairJobStatus) (p : Passed) (expectedFrom : Option RepairJobStatus)
  | attempt (mode inputSha256 outputSha256 : String)
  deriving DecidableEq

namespace World

/-- A job that has just been created. -/
def start (id : ℕ) (servicePriority : ℤ) (now : ℕ) : World :=
  ⟨⟨create id servicePriority now, [], []⟩, none, fun _ => none⟩

def setCall (w : World) (s : CallId) (c : Call) : World :=
  { w with calls := Function.update w.calls s (some c) }

/-- The call takes the row. -/
def acquire (w : World) (s : CallId) (c : Call) : World :=
  { w.setCall s c with lock := some s }

/-- The transaction of the call is over, and the row is free. -/
def release (w : World) (s : CallId) (r : Reply) : World :=
  { w.setCall s (.answered r) with lock := none }

/-- The transaction of the call ends with a commit of `d`. -/
def commit (w : World) (s : CallId) (r : Request) (d : Desk) (answer : Answer) : World :=
  let w' := w.release s (if answer = .done then .done r else .failed)
  if answer.lands then { w' with desk := d } else w'

end World

namespace DecideTurn

/-- What the read row leads to. -/
def looked (a : Ask) (job : CadRepairJob) : Call :=
  if job.status ∉ legalSources a.target then
    .answered (.refused (.notAvailable a.name job.status.value))
  else if a.name = "deliver" ∧ job.simulationJobId = none then
    .answered (.refused (.nothingRecorded a.name "mesh"))
  else .decide a (if a.name = "deliver_repair" then .weigh job.status else .move job.status)

/-- What the read attempts lead to. -/
def weighed (a : Ask) (was : RepairJobStatus) (attempts : List CadRepairAttempt) : Call :=
  if ∃ t ∈ attempts, ∃ sha ∈ t.outputSha256, sha ≠ "" then .decide a (.move was)
  else .answered (.refused (.nothingRecorded a.name "repaired geometry"))

/-- The update; it waits for the row. -/
def update (w : World) (s : CallId) (a : Ask) (was : RepairJobStatus) : Option World :=
  if w.lock.isSome then none
  else
    match transition w.desk.job a.target a.passed (some was) with
    | (.applied, moved) => some (w.acquire s (.decide a (.record was moved)))
    | _ => some (w.setCall s (.answered .overtaken))

/-- The decision is appended, and all of it committed. -/
def write (w : World) (s : CallId) (a : Ask) (was : RepairJobStatus) (moved : CadRepairJob)
    (answer : Answer) : World :=
  match recordDecision a.name a.actor was.value a.reason a.notes with
  | .error _ => w.release s .failed
  | .ok row => w.commit s (.decide a) ⟨moved, w.desk.attempts, w.desk.decisions ++ [row]⟩ answer

/-- The next statement of `decide_job`. -/
def go (w : World) (s : CallId) (a : Ask) (answer : Answer) : DecideTurn → Option World
  | read => some (w.setCall s
      (if answer = .done then looked a w.desk.job else .answered .failed))
  | weigh was => some (w.setCall s
      (if answer = .done then weighed a was w.desk.attempts else .answered .failed))
  | move was =>
    if answer = .done then update w s a was else some (w.setCall s (.answered .failed))
  | record was moved => some (write w s a was moved answer)

end DecideTurn

namespace AssignTurn

/-- The update; it waits for the row. -/
def update (w : World) (s : CallId) (b : AssignIn) : Option World :=
  if w.lock.isSome then none
  else
    match b.onRow w.desk.job with
    | some left => some (w.acquire s (.assign b (.commit left)))
    | none => some (w.setCall s (.answered .overtaken))

/-- The next statement of `assign_job`. -/
def go (w : World) (s : CallId) (b : AssignIn) (answer : Answer) : AssignTurn → Option World
  | read => some (w.setCall s (if answer = .done then .assign b write else .answered .failed))
  | write => if answer = .done then update w s b else some (w.setCall s (.answered .failed))
  | commit left => some (w.commit s (.assign b) { w.desk with job := left } answer)

end AssignTurn

namespace World

def step (w : World) : Op → Option World
  | .decide s body =>
    if (w.calls s).isSome ∨ ¬ body.Valid then none
    else some (w.setCall s (match ask body with
      | .ok a => .decide a .read
      | .error why => .answered (.refused why)))
  | .assign s body =>
    if (w.calls s).isSome ∨ ¬ body.Valid then none else some (w.setCall s (.assign body .read))
  | .go s answer =>
    match w.calls s with
    | some (.decide a turn) => turn.go w s a answer
    | some (.assign b turn) => turn.go w s b answer
    | _ => none
  | .worker target p expectedFrom =>
    if w.lock.isSome then none
    else some { w with desk := (w.desk.move target p expectedFrom).getD w.desk }
  | .attempt mode input output =>
    some { w with desk := (w.desk.attempt mode input output).getD w.desk }

def machine : Transition.Machine World Op := ⟨step⟩

/-- What a step does to the rows, when it does anything. -/
def commits (w : World) : Op → Option Action
  | .go s answer =>
    if answer.lands then
      match w.calls s with
      | some (.decide a (.record was _)) =>
        match recordDecision a.name a.actor was.value a.reason a.notes with
        | .ok _ => some (.called s (.decide a))
        | .error _ => none
      | some (.assign b (.commit _)) => some (.called s (.assign b))
      | _ => none
    else none
  | .worker target p expectedFrom =>
    if (w.desk.move target p expectedFrom).isSome then some (.moved target p expectedFrom) else none
  | .attempt mode input output =>
    if (w.desk.attempt mode input output).isSome then some (.attempted mode input output) else none
  | _ => none

end World

end MeshPipeline.RepairQueue
