import MeshPipeline.CadRepair.Loop
import MeshPipeline.CadRepair.RepairSession

/-!
# The repair loop under any planner

The loop of a repair over a session whose calls can raise, with the planner as a parameter. A label of the
machine is what one turn of the loop meets.
-/

namespace MeshPipeline.CadRepair

/-- A planner with its state: what it proposes, given the answers of the kernel to its own questions, and
the directives that it has not played. -/
structure Planner (Shape P Q : Type*) where
  propose : Q → List Defect → RunHistory → Shape → P → Option Candidate × RunHistory × P
  pending : P → List Directive
  unplayable : P → List (Directive × Unplayable)

/-- The directed planner over the rules. -/
def directed {Shape Wire : Type*} (consents : Consents) (reserved : List DefectCode) :
    Planner Shape RepairPlanner (Kernel Shape Wire) where
  propose kernel defects history shape planner :=
    propose kernel consents reserved shape defects history planner
  pending := RepairPlanner.pending
  unplayable := RepairPlanner.unplayable

/-- A proposal, and what the session made of it; nothing when the run ended on it. -/
structure Proposal where
  candidate : Candidate
  answer : Option (Except String OpVerdict)

inductive Ending
  | stopped (because : StopReason)
  | raised (exception : String)
  deriving DecidableEq, Repr

/-- A run of the loop. -/
structure DrivenRun (Shape K P : Type*) [Zero K] [Add K] where
  session : RepairSession Shape K
  planner : P
  history : RunHistory
  enteredWithErrors : Bool
  consecutiveMisses : Nat
  proposals : List Proposal
  ended : Option Ending

/-- What a turn of the loop meets. -/
structure Turn (Shape K Q : Type*) where
  query : Q
  timeSpent : Bool
  calls : Calls Shape K

/-- What the loop reads of a session. -/
def RepairSession.view {Shape K : Type*} [Zero K] [Add K] (s : RepairSession Shape K) :
    Session Shape where
  original := s.shape
  shape := s.shape
  defects := s.defects.getD []
  completeScan := s.completeScan
  accounting := []
  log := s.log.map Logged.verdict
  reserved := s.reserved

namespace DrivenRun

variable {Shape K P Q : Type*} [Zero K] [Add K]

def stop (r : DrivenRun Shape K P) (because : StopReason) : DrivenRun Shape K P :=
  { r with ended := some (.stopped because) }

/-- What the run reports of the directives that were not played; a missing reason is `not_reached`. -/
def report (planner : Planner Shape P Q) (r : DrivenRun Shape K P) :
    List (Directive × Option Unplayable) :=
  (planner.unplayable r.planner).map (fun d => (d.1, some d.2)) ++
    (planner.pending r.planner).map (·, none)

variable [Neg K] [Sub K] [Div K] [Max K] [LE K] [LT K] [DecidableLE K] [DecidableLT K]

/-- A candidate is tried, and the run learns of its verdict. -/
def attempt (policy : CapPolicy K) (limits : Limits) (calls : Calls Shape K)
    (r : DrivenRun Shape K P) (c : Candidate) : DrivenRun Shape K P :=
  let (session, answer) := r.session.tryOp policy calls c.op c.targets c.defectCode
    (RepairRun.answeredHeld c)
  let r := { r with session := session, proposals := r.proposals ++ [Proposal.mk c (some answer)] }
  match answer with
  | .error e => { r with ended := some (.raised e) }
  | .ok verdict =>
    if verdict.status = .kept then
      { r with
        consecutiveMisses := 0
        ended := if session.completeScan then none else some (.stopped .scanIncomplete) }
    else if verdict.declined.isSome then
      { r with history := r.history.markDeclined c.op.name c.targets }
    else
      { r with
        history := r.history.markIneffective c.defectFingerprint c.op.name
        consecutiveMisses := r.consecutiveMisses + 1
        ended := if limits.stallLimit ≤ r.consecutiveMisses + 1 then
            some (.stopped (session.view.terminal .stalled))
          else none }

/-- The errors that a run entered with are gone: what remains of the proposals are two exceptions. -/
def settled (limits : Limits) (r : DrivenRun Shape K P) (c : Candidate) : Bool :=
  r.enteredWithErrors && !r.session.view.errorsRemain && !r.session.view.abandoned &&
    !r.session.view.analyzerHeal c && !r.session.view.enabledSliverSweep limits.consents c

/-- One turn of the loop of `run`. -/
def step (planner : Planner Shape P Q) (policy : CapPolicy K) (limits : Limits)
    (r : DrivenRun Shape K P) (turn : Turn Shape K Q) : Option (DrivenRun Shape K P) :=
  if r.ended.isSome then none
  else if limits.maxOps ≤ r.session.log.length then
    some (r.stop (r.session.view.terminal .opBudget))
  else if turn.timeSpent then some (r.stop (r.session.view.terminal .timeBudget))
  else
    let (candidate, history, p) := planner.propose turn.query r.session.view.defects r.history
      r.session.shape r.planner
    let r := { r with history := history, planner := p }
    match candidate with
    | none => some (r.stop (r.session.view.terminal .noCandidate))
    | some c =>
      if r.settled limits c then
        some { r.stop .resolved with proposals := r.proposals ++ [⟨c, none⟩] }
      else some (r.attempt policy limits turn.calls c)

def machine (planner : Planner Shape P Q) (policy : CapPolicy K) (limits : Limits) :
    Transition.Machine (DrivenRun Shape K P) (Turn Shape K Q) :=
  ⟨step planner policy limits⟩

/-- The first scan of `run`, of a session that may have been used before. -/
def start (session : RepairSession Shape K) (p : P)
    (firstScan : Except String (List Defect × Bool)) : DrivenRun Shape K P :=
  match session.scanned firstScan with
  | .error e => ⟨session, p, .empty, false, 0, [], some (.raised e)⟩
  | .ok (session, _) =>
    ⟨session, p, .empty, session.view.errorsRemain, 0, [],
      if session.completeScan then none else some (.stopped .scanIncomplete)⟩

end DrivenRun

end MeshPipeline.CadRepair
