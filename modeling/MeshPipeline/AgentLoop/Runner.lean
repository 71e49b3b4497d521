import MeshPipeline.AgentLoop.Accounting
import MeshPipeline.Library.Outcome

/-!
# The conversation of an agent run

The messages a provider is asked with. A turn of the assistant that calls tools is answered by one result
for each of its calls, in their order, before the next turn.
-/

namespace MeshPipeline.AgentLoop

/-- A message. `own` tells the turns of this run from those it was started with. -/
inductive Message (V : Type)
  | assistant (own : Bool) (text : String) (calls : List ToolCallRequest)
  | tool (callId : String) (content : V)
  | user (content : String)
  | other (content : V)

namespace Message

variable {V : Type}

/-- A message that the run was started with. -/
def given : Message V → Message V
  | .assistant _ text calls => .assistant false text calls
  | m => m

def isPlain : Message V → Bool
  | .user _ => true
  | .other _ => true
  | _ => false

end Message

/-- `assistant_turn`. -/
def assistantTurn {V : Type} (result : ModelRoundResult) : Message V :=
  .assistant true result.assistantText result.toolCalls

/-- How the caller writes a tool's result: one result, and then what it shows beside it. -/
structure ResultWriter (V : Type) where
  write : String → V → List (Message V)
  one : ∀ id content, ∃ text rest, write id content = .tool id text :: rest ∧ ∀ m ∈ rest, m.isPlain

/-- What the last turn of this run still waits for. -/
inductive Debt
  | free
  | owes (ids : List String)
  | broken
  deriving DecidableEq

namespace Debt

variable {V : Type}

/-- The debt after one more message. -/
def after : Debt → Message V → Debt
  | d, .user _ => d
  | d, .other _ => d
  | .free, .tool _ _ => .free
  | .owes (id :: ids), .tool callId _ => if id = callId then .owes ids else .broken
  | .owes [], .tool _ _ => .broken
  | .free, .assistant own _ calls => if own then .owes (calls.map (·.id)) else .free
  | .owes [], .assistant own _ calls => if own then .owes (calls.map (·.id)) else .free
  | .owes (_ :: _), .assistant _ _ _ => .broken
  | .broken, _ => .broken

def isPaid : Debt → Bool
  | .free => true
  | .owes ids => ids.isEmpty
  | .broken => false

def of (messages : List (Message V)) : Debt := messages.foldl after .free

variable {messages : List (Message V)} {d : Debt}

@[simp]
lemma of_append (m : List (Message V)) : of (messages ++ m) = m.foldl after (of messages) :=
  List.foldl_append

lemma after_plain {m : Message V} (h : m.isPlain) : d.after m = d := by
  cases m <;> simp_all [Message.isPlain, after]

lemma foldl_plain {ms : List (Message V)} (h : ∀ m ∈ ms, m.isPlain) : ms.foldl after d = d := by
  induction ms with
  | nil => rfl
  | cons m ms ih =>
    rw [List.foldl_cons, after_plain (h m List.mem_cons_self)]
    exact ih fun m' hm' => h m' (List.mem_cons_of_mem m hm')

/-- A conversation without turns of this run owes nothing. -/
lemma of_given (messages : List (Message V)) : of (messages.map Message.given) = .free := by
  unfold of
  induction messages with
  | nil => rfl
  | cons m ms ih =>
    have hfree : Debt.free.after m.given = .free := by cases m <;> simp [Message.given, after]
    rw [List.map_cons, List.foldl_cons, hfree]
    exact ih

lemma after_turn (h : d.isPaid) (result : ModelRoundResult) :
    d.after (assistantTurn result : Message V) = .owes (result.toolCalls.map (·.id)) := by
  cases d with
  | free => rfl
  | owes ids =>
    obtain rfl : ids = [] := by simpa [isPaid] using h
    rfl
  | broken => cases h

/-- A result pays the call it answers. -/
lemma foldl_write (w : ResultWriter V) (id : String) (ids : List String) (content : V) :
    (w.write id content).foldl after (.owes (id :: ids)) = .owes ids := by
  obtain ⟨text, rest, heq, hrest⟩ := w.one id content
  rw [heq, List.foldl_cons]
  simp [after, foldl_plain hrest]

end Debt

/-- Every call of every turn of this run is followed by one result, in order, before the next turn. -/
def Settled {V : Type} (messages : List (Message V)) : Prop := (Debt.of messages).isPaid

end MeshPipeline.AgentLoop

/-!
## The agent loop

Rounds of a provider and its tool calls, ended by the first of many ways out. Everything outside the loop
(the driver, the provider, the tools, the traces, the clock) is a `World` that answers or raises.
-/

namespace MeshPipeline.AgentLoop

/-! ## What is raised -/

/-- The kinds of exceptions that the loop tells apart. -/
inductive ExcKind
  | cancelled | timeout | stalePublish | staleWorker | eventStream | error | base
  deriving DecidableEq, Repr

namespace ExcKind

/-- A subclass of `Exception`. -/
def isException (k : ExcKind) : Bool := !(k = .cancelled || k = .base)

def isEventStream (k : ExcKind) : Bool := k = .stalePublish || k = .eventStream

/-- `_NEVER_SWALLOWED`. -/
def isFence (k : ExcKind) : Bool := k = .stalePublish || k = .staleWorker

end ExcKind

/-- An exception, and whether the task was being cancelled when it was raised. -/
structure Exc where
  kind : ExcKind
  text : String
  cancelling : Bool
  deriving DecidableEq

/-- Where an exception comes from: a trace publication, a provider call, a tool call, a close-out, or
anything else that the loop asks of its driver and caller. -/
inductive Step
  | trace | provider | execute | closeOut | hook
  deriving DecidableEq

structure Raised where
  step : Step
  exc : Exc

/-! ## What the loop asks for -/

structure ToolOutcome (V : Type) where
  content : V
  accepted : Bool
  terminal : Bool
  payload : Option V
  endsLoop : Bool

structure RoundDecision (V : Type) where
  message : String
  complete : Bool
  payload : Option V
  exit : LoopExit

inductive Publication (V : Type)
  | roundBegin (roundNo : ℕ)
  | roundEnd (result : Option ModelRoundResult) (phase : String)
  | toolCall (inv : ToolInvocation V) (id : String) (status : String)
  | toolResult (inv : ToolInvocation V) (id : String) (result : Option V) (status : String)

/-- The driver, the provider, the tools, the hooks, the traces and the clock of a run. -/
structure World (σ V : Type) where
  expired : σ → Bool × σ
  beforeRound : LoopTally → List (Message V) → Effect σ Exc (List (Message V))
  forcedTool : LoopTally → Effect σ Exc (Option String)
  provider : List (Message V) → Option String → Effect σ Exc ModelRoundResult
  publish : Publication V → Effect σ Exc Unit
  onRound : ModelRoundResult → Effect σ Exc Unit
  onRoundAwaited : ModelRoundResult → Effect σ Exc Unit
  onPlaintext : LoopTally → Effect σ Exc (RoundDecision V)
  loads : String → Option V
  noArguments : V
  execute : ToolInvocation V → Effect σ Exc (ToolOutcome V)
  categoryOf : String → String
  isSupersession : Exc → Bool
  closeOut : LoopTally → Effect σ Exc (Option (ToolOutcome V))
  observe : LoopTally → Effect σ Exc ProgressObservation
  correction : LoopStage → LoopTally → ProgressObservation → Effect σ Exc (Option String)
  extension : Effect σ Exc V
  marker : LoopExit → Effect σ Exc String
  results : ResultWriter V

/-- What happened in a run, in order. -/
inductive Event (V : Type)
  | prepared (was is : List (Message V))
  | asked (messages : List (Message V))
  | answered (result : ModelRoundResult)
  | ran (tool : String)
  | broke (r : Raised)
  | record (r : AgentRunRecord V)
  | superseded (tally : LoopTally)

structure Run (σ V : Type) where
  world : σ
  messages : List (Message V)
  acct : AgentRunAccountant
  log : List (Event V)

structure LoopResult (V : Type) where
  exit : LoopExit
  record : AgentRunRecord V
  payload : Option V
  failureMarker : String

abbrev Loop (σ V α : Type) := Effect (Run σ V) Raised α

variable {σ V α : Type}

open Effect

/-- A question to the world; what it raises is noted. -/
def ask (step : Step) (m : Effect σ Exc α) : Loop σ V α := fun st =>
  match m st.world with
  | (.ok a, w) => (.ok a, { st with world := w })
  | (.error e, w) => (.error ⟨step, e⟩, { st with world := w, log := st.log ++ [.broke ⟨step, e⟩] })

def note (e : Event V) : Loop σ V Unit := change fun st => { st with log := st.log ++ [e] }

def append (ms : List (Message V)) : Loop σ V Unit :=
  change fun st => { st with messages := st.messages ++ ms }

def nudge (text : Option String) : Loop σ V Unit :=
  append (match text with
    | none => []
    | some text => if text = "" then [] else [.user text])

def account (f : AgentRunAccountant → AgentRunAccountant) : Loop σ V Unit :=
  change fun st => { st with acct := f st.acct }

def tally : Loop σ V LoopTally := read fun st => st.acct.tally

def expired (w : World σ V) : Loop σ V Bool := fun st =>
  (.ok (w.expired st.world).1, { st with world := (w.expired st.world).2 })

/-- A trace event: a failure costs the run nothing, but that the execution trace passes on the refusals of
its publisher. -/
def publish (w : World σ V) (s : RunSettings) (p : Publication V) : Loop σ V Bool := do
  match ← attempt (ask .trace (w.publish p)) with
  | .ok _ => pure true
  | .error r =>
    if r.exc.kind.isException && !(s.executionTrace && r.exc.kind.isEventStream) then pure false
    else fail r

/-! ## A provider round -/

inductive ProviderOutcome
  | answered (result : ModelRoundResult)
  | ended (exit : LoopExit) (failureMarker : String)

/-- `ROUND_RAISED_MARKER`. -/
def roundRaisedMarker : String := "<<API_FAILURE:provider_round_transient>>"

/-- `_ended` of a round, for a round whose begin was published. -/
def roundEnded (w : World σ V) (s : RunSettings) (rid : Bool) (result : Option ModelRoundResult)
    (phase : String) : Loop σ V Bool :=
  if rid then publish w s (.roundEnd result phase) else pure false

/-- An answer is counted, whatever it says. -/
def countRound (s : RunSettings) (result : ModelRoundResult) : Loop σ V Unit := do
  note (.answered result)
  account (AgentRunAccountant.recordRound s.limits result)

/-- `ProviderRound.invoke`. -/
def invoke (w : World σ V) (s : RunSettings) (forcedTool : Option String) (roundNo : ℕ) :
    Loop σ V ProviderOutcome := do
  let rid ← publish w s (.roundBegin roundNo)
  let messages ← read fun st => st.messages
  note (.asked messages)
  match ← attempt (ask .provider (w.provider messages forcedTool)) with
  | .ok result =>
    countRound s result
    if result.failureMarker ≠ "" then
      let _ ← roundEnded w s rid none "failed"
      pure (.ended .providerFailed result.failureMarker)
    else
      let _ ← roundEnded w s rid (some result) "completed"
      pure (.answered result)
  | .error r =>
    if r.exc.kind = .timeout then
      let _ ← roundEnded w s rid none "failed"
      pure (.ended .deadlineExhausted "")
    else if r.exc.kind.isFence || !r.exc.kind.isException then fail r
    else
      match ← attempt (roundEnded w s rid none "failed") with
      | .ok _ => pure (.ended .providerFailed roundRaisedMarker)
      | .error r' =>
        if r'.exc.kind.isFence || !r'.exc.kind.isException then fail r'
        else pure (.ended .providerFailed roundRaisedMarker)

/-! ## A tool call -/

/-- `parse_arguments`. -/
def parseArguments (w : World σ V) (raw : String) : Option V :=
  if Text.strip raw = "" then some w.noArguments else w.loads raw

structure CallOutcome (V : Type) where
  payload : Option V
  terminal : Bool
  endsLoop : Bool
  timedOut : Bool
  raised : Option Raised
  superseded : Bool

namespace CallOutcome

def timeout : CallOutcome V := ⟨none, false, false, true, none, false⟩

def broke (r : Raised) (superseded : Bool) : CallOutcome V := ⟨none, false, false, false, some r, superseded⟩

def ofOutcome (o : ToolOutcome V) : CallOutcome V := ⟨o.payload, o.terminal, o.endsLoop, false, none, false⟩

end CallOutcome

/-- `ToolExecution._count`, of a call that ran. -/
def countCall (w : World σ V) (inv : ToolInvocation V) (accepted : Bool) : Loop σ V Unit := do
  note (.ran inv.tool)
  account (AgentRunAccountant.recordToolCall inv (w.categoryOf inv.tool) accepted)

/-- `ToolExecution.run`. -/
def runCall (w : World σ V) (s : RunSettings) (call : ToolCallRequest) (roundIndex : ℕ) :
    Loop σ V (CallOutcome V) := do
  let parsed := parseArguments w call.arguments
  let t ← tally
  let inv : ToolInvocation V := ⟨roundIndex, t.toolCalls + 1, call.name, call.arguments, parsed⟩
  let _ ← publish w s (.toolCall inv call.id (if parsed.isNone then "blocked" else "started"))
  match ← attempt (ask .execute (w.execute inv)) with
  | .ok outcome =>
    countCall w inv outcome.accepted
    let status := if parsed.isNone then "blocked" else if outcome.accepted then "success" else "failure"
    let _ ← publish w s (.toolResult inv call.id (some outcome.content) status)
    append (w.results.write call.id outcome.content)
    pure (.ofOutcome outcome)
  | .error r =>
    if r.exc.kind = .cancelled then fail r
    else if r.exc.kind = .timeout then
      countCall w inv false
      let _ ← publish w s (.toolResult inv call.id none "failure")
      pure .timeout
    else if r.exc.cancelling then
      -- a clean-up failure that masks the cancellation
      fail ⟨.execute, { r.exc with kind := .cancelled }⟩
    else if w.isSupersession r.exc then pure (.broke r true)
    else
      countCall w inv false
      let _ ← publish w s (.toolResult inv call.id none "failure")
      pure (.broke r false)

/-! ## The loop -/

/-- `_finish`. -/
def finish (w : World σ V) (s : RunSettings) (exit : LoopExit) (payload : Option V) (failure : String) :
    Loop σ V (LoopResult V) := do
  let extension ← ask .hook w.extension
  let record ← read fun st => st.acct.report s exit extension failure
  note (.record record)
  pure ⟨exit, record, payload, failure⟩

/-- `_exhausted`. -/
def exhausted (w : World σ V) (s : RunSettings) (exit : LoopExit) : Loop σ V (LoopResult V) := do
  let failure ← ask .hook (w.marker exit)
  finish w s exit none failure

/-- `_superseded`, and the exception goes on. -/
def supersededBy (r : Raised) : Loop σ V α := do
  let t ← tally
  note (.superseded t)
  fail r

/-- An unexpected failure: one record, and the exception goes on. -/
def executorFailed (w : World σ V) (s : RunSettings) (r : Raised) : Loop σ V α := do
  let _ ← exhausted w s .executorFailed
  fail r

/-- A terminal action: the agent's own end. -/
def terminated (w : World σ V) (s : RunSettings) (payload : Option V) : Loop σ V (LoopResult V) := do
  account AgentRunAccountant.recordTerminalAction
  finish w s .terminalAction payload ""

/-- The tool calls of a round, till one of them ends the run. -/
def runCalls (w : World σ V) (s : RunSettings) (roundIndex : ℕ) :
    List ToolCallRequest → Loop σ V (Option (LoopResult V))
  | [] => pure none
  | call :: calls => do
    if ← expired w then some <$> exhausted w s .deadlineExhausted
    else
      let outcome ← runCall w s call roundIndex
      if outcome.timedOut then some <$> exhausted w s .deadlineExhausted
      else
        match outcome.raised with
        | some r => if outcome.superseded then supersededBy r else executorFailed w s r
        | none =>
          if outcome.terminal then some <$> terminated w s outcome.payload
          else if outcome.endsLoop then some <$> finish w s .policyAbort none ""
          else runCalls w s roundIndex calls

/-- The close-out of a round, asked for with the same classification as a tool call. -/
def closeOut (w : World σ V) (s : RunSettings) : Loop σ V (Option (ToolOutcome V)) := do
  let t ← tally
  match ← attempt (ask .closeOut (w.closeOut t)) with
  | .ok closing => pure closing
  | .error r =>
    if r.exc.kind = .cancelled then fail r
    else if r.exc.cancelling then fail ⟨.closeOut, { r.exc with kind := .cancelled }⟩
    else if w.isSupersession r.exc then supersededBy r
    else executorFailed w s r

/-- `stalled`. -/
def stalled (consecutiveNoProgress : ℕ) (limits : LoopLimits) : Bool :=
  limits.noProgressThreshold.any (· ≤ consecutiveNoProgress)

/-- How far a round has moved the agent, and what the agent is told. -/
def progress (w : World σ V) (s : RunSettings) : Loop σ V (Option (LoopResult V)) := do
  let before ← tally
  let observation ← ask .hook (w.observe before)
  account (AgentRunAccountant.recordProgress observation)
  let t ← tally
  if stalled t.consecutiveNoProgress s.limits then
    nudge (← ask .hook (w.correction .closing t observation))
    some <$> exhausted w s .noProgress
  else
    nudge (← ask .hook (w.correction (t.stage s.limits) t observation))
    pure none

/-- A round that answered in plain text. -/
def plaintext (w : World σ V) (s : RunSettings) : Loop σ V (Option (LoopResult V)) := do
  let t ← tally
  let decision ← ask .hook (w.onPlaintext t)
  if decision.complete then some <$> finish w s decision.exit decision.payload ""
  else
    nudge (some decision.message)
    pure none

/-- What follows an answer: its tool calls, the close-out, the progress. -/
def afterAnswer (w : World σ V) (s : RunSettings) (result : ModelRoundResult) :
    Loop σ V (Option (LoopResult V)) := do
  append [assistantTurn result]
  ask .hook (w.onRound result)
  ask .hook (w.onRoundAwaited result)
  if result.toolCalls = [] then plaintext w s
  else
    let t ← tally
    match ← runCalls w s t.rounds result.toolCalls with
    | some ended => pure (some ended)
    | none =>
      let closing ← closeOut w s
      match closing.filter (·.terminal) with
      | some outcome => some <$> terminated w s outcome.payload
      | none => progress w s

/-- The hook before a round, which may rewrite the conversation. -/
def beforeRound (w : World σ V) : Loop σ V Unit := do
  let t ← tally
  let messages ← read fun st => st.messages
  let rewritten ← ask .hook (w.beforeRound t messages)
  note (.prepared messages rewritten)
  change fun st => { st with messages := rewritten }

/-- One turn of the loop: nothing, or the result that the run ends with. -/
def oneRound (w : World σ V) (s : RunSettings) : Loop σ V (Option (LoopResult V)) := do
  if ← expired w then some <$> exhausted w s .deadlineExhausted
  else
    beforeRound w
    let t ← tally
    let forced ← ask .hook (w.forcedTool t)
    match ← invoke w s forced t.rounds with
    | .ended exit failure =>
      if failure ≠ "" then some <$> finish w s exit none failure
      else some <$> exhausted w s exit
    | .answered result => afterAnswer w s result

/-- So many turns of the loop; nothing when it would go on. -/
def rounds (w : World σ V) (s : RunSettings) : ℕ → Loop σ V (Option (LoopResult V))
  | 0 => pure none
  | fuel + 1 => do
    let t ← tally
    if s.limits.maxRounds.any (· ≤ t.rounds) then some <$> exhausted w s .roundsExhausted
    else
      match ← oneRound w s with
      | some ended => pure (some ended)
      | none => rounds w s fuel

/-- The run before its first round. -/
def Run.start (world : σ) (messages : List (Message V)) : Run σ V :=
  ⟨world, messages.map Message.given, .start, []⟩

/-- `run_agent_loop`, for so many turns. -/
def runAgentLoop (w : World σ V) (s : RunSettings) (world : σ) (messages : List (Message V)) (fuel : ℕ) :
    Except Raised (Option (LoopResult V)) × Run σ V :=
  rounds w s fuel (.start world messages)

end MeshPipeline.AgentLoop
