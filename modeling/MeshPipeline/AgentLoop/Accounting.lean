import MeshPipeline.Library.Assoc
import MeshPipeline.Library.Text
import Mathlib.Data.List.Sort

/-!
# What an agent run counts

The rounds and tool calls that a run had, with the tally and the record made of them. Times are not
modelled.
-/

namespace MeshPipeline.AgentLoop

inductive AgentRole
  | intake | builder | reviewer
  deriving DecidableEq, Repr

inductive LoopStage
  | running | warned | closing
  deriving DecidableEq, Repr

inductive LoopExit
  | terminalAction | roundsExhausted | deadlineExhausted | noProgress | providerFailed | policyAbort
  | executorFailed | turnComplete | attemptsExhausted
  deriving DecidableEq, Repr

structure LoopLimits where
  maxRounds : Option ℕ
  warnAtRemainingRounds : Option ℕ
  closingAtRemainingRounds : Option ℕ
  noProgressThreshold : Option ℕ

structure LoopTally where
  rounds : ℕ
  toolCalls : ℕ
  callsByCategory : List (String × ℕ)
  providerAttempts : ℕ
  malformedCalls : ℕ
  plaintextTurns : ℕ
  progressCount : ℕ
  consecutiveNoProgress : ℕ

namespace LoopTally

def remainingRounds (t : LoopTally) (limits : LoopLimits) : Option ℕ :=
  limits.maxRounds.map (· - t.rounds)

def stage (t : LoopTally) (limits : LoopLimits) : LoopStage :=
  match t.remainingRounds limits with
  | none => .running
  | some left =>
    if limits.closingAtRemainingRounds.any (left ≤ ·) then .closing
    else if limits.warnAtRemainingRounds.any (left ≤ ·) then .warned
    else .running

end LoopTally

/-! ## What a round and a tool call are -/

structure ToolCallRequest where
  id : String
  name : String
  arguments : String
  deriving DecidableEq

/-- What a provider call answers. -/
structure ModelRoundResult where
  toolCalls : List ToolCallRequest
  assistantText : String
  finishReason : String
  inputTokens : ℕ
  cachedInputTokens : ℕ
  outputTokens : ℕ
  attempts : ℕ
  failureMarker : String

/-- A tool call with its arguments read; `V` is what the loop hands on without looking into it. -/
structure ToolInvocation (V : Type) where
  roundIndex : ℕ
  callIndex : ℕ
  tool : String
  rawArguments : String
  parsed : Option V

def ToolInvocation.malformed {V : Type} (inv : ToolInvocation V) : Bool :=
  inv.parsed.isNone && decide (Text.strip inv.rawArguments ≠ "")

structure RoundRecord where
  index : ℕ
  providerAttempts : ℕ
  finishReason : String
  hadToolCalls : Bool
  inputTokens : ℕ
  cachedInputTokens : ℕ
  outputTokens : ℕ
  stage : LoopStage

structure ToolCallRecord where
  roundIndex : ℕ
  callIndex : ℕ
  tool : String
  category : String
  malformed : Bool
  accepted : Bool

structure ProgressObservation where
  madeProgress : Bool
  signature : String
  detail : String

/-- The record of a run. -/
structure AgentRunRecord (V : Type) where
  role : AgentRole
  jobId : String
  pipelineAttempt : ℕ
  agentAttempt : ℕ
  limits : LoopLimits
  tally : LoopTally
  exit : LoopExit
  extension : V
  rounds : List RoundRecord
  toolCalls : List ToolCallRecord
  failureMarker : String

/-! ## The accountant -/

/-- What a run is and how long it may take. -/
structure RunSettings where
  role : AgentRole
  jobId : String
  pipelineAttempt : ℕ
  agentAttempt : ℕ
  limits : LoopLimits
  /-- Every trace event is published under an ownership check. -/
  executionTrace : Bool

structure AgentRunAccountant where
  rounds : List RoundRecord
  toolCalls : List ToolCallRecord
  byCategory : List (String × ℕ)
  providerAttempts : ℕ
  malformed : ℕ
  plaintext : ℕ
  progress : ℕ
  consecutiveNoProgress : ℕ
  lastSignature : Option String
  terminalActionDone : Bool

namespace AgentRunAccountant

def start : AgentRunAccountant where
  rounds := []
  toolCalls := []
  byCategory := []
  providerAttempts := 0
  malformed := 0
  plaintext := 0
  progress := 0
  consecutiveNoProgress := 0
  lastSignature := none
  terminalActionDone := false

def tally (a : AgentRunAccountant) : LoopTally where
  rounds := a.rounds.length
  toolCalls := a.toolCalls.length
  callsByCategory := a.byCategory.mergeSort fun c d => decide (c.1 ≤ d.1)
  providerAttempts := a.providerAttempts
  malformedCalls := a.malformed
  plaintextTurns := a.plaintext
  progressCount := a.progress
  consecutiveNoProgress := a.consecutiveNoProgress

def recordRound (limits : LoopLimits) (result : ModelRoundResult) (a : AgentRunAccountant) :
    AgentRunAccountant :=
  { a with
    providerAttempts := a.providerAttempts + result.attempts
    plaintext := if result.toolCalls = [] ∧ result.failureMarker = "" then a.plaintext + 1 else a.plaintext
    rounds := a.rounds ++ [{
      index := a.rounds.length + 1
      providerAttempts := result.attempts
      finishReason := result.finishReason
      hadToolCalls := !result.toolCalls.isEmpty
      inputTokens := result.inputTokens
      cachedInputTokens := result.cachedInputTokens
      outputTokens := result.outputTokens
      stage := a.tally.stage limits }] }

def recordToolCall {V : Type} (inv : ToolInvocation V) (category : String) (accepted : Bool)
    (a : AgentRunAccountant) : AgentRunAccountant :=
  { a with
    malformed := if inv.malformed then a.malformed + 1 else a.malformed
    byCategory := Assoc.set a.byCategory category ((a.byCategory.lookup category).getD 0 + 1)
    toolCalls := a.toolCalls ++ [{
      roundIndex := inv.roundIndex
      callIndex := inv.callIndex
      tool := inv.tool
      category := category
      malformed := inv.malformed
      accepted := accepted && !inv.malformed }] }

/-- `progress.advance`: the same signature again counts on, a new one starts at one. -/
def recordProgress (o : ProgressObservation) (a : AgentRunAccountant) : AgentRunAccountant :=
  let signature := if o.signature = "" then none else some o.signature
  if o.madeProgress then
    { a with progress := a.progress + 1, consecutiveNoProgress := 0, lastSignature := signature }
  else if o.signature ≠ "" ∧ some o.signature = a.lastSignature then
    { a with consecutiveNoProgress := a.consecutiveNoProgress + 1 }
  else { a with consecutiveNoProgress := 1, lastSignature := signature }

def recordTerminalAction (a : AgentRunAccountant) : AgentRunAccountant :=
  { a with terminalActionDone := true }

def report {V : Type} (s : RunSettings) (exit : LoopExit) (extension : V) (failureMarker : String)
    (a : AgentRunAccountant) : AgentRunRecord V where
  role := s.role
  jobId := s.jobId
  pipelineAttempt := s.pipelineAttempt
  agentAttempt := s.agentAttempt
  limits := s.limits
  tally := a.tally
  exit := exit
  extension := extension
  rounds := a.rounds
  toolCalls := a.toolCalls
  failureMarker := failureMarker

/-! ## What is counted -/

/-- How often a category was counted. -/
def count (a : AgentRunAccountant) (category : String) : ℕ := (a.byCategory.lookup category).getD 0

variable {V : Type} {a : AgentRunAccountant} {limits : LoopLimits} {result : ModelRoundResult}
  {inv : ToolInvocation V} {accepted : Bool} {c category : String}

@[simp]
lemma length_recordRound : (a.recordRound limits result).rounds.length = a.rounds.length + 1 := by
  simp [recordRound]

@[simp]
lemma toolCalls_recordRound : (a.recordRound limits result).toolCalls = a.toolCalls := rfl

@[simp]
lemma byCategory_recordRound : (a.recordRound limits result).byCategory = a.byCategory := rfl

@[simp]
lemma count_recordRound : (a.recordRound limits result).count c = a.count c := rfl

@[simp]
lemma rounds_recordToolCall : (a.recordToolCall inv category accepted).rounds = a.rounds := rfl

@[simp]
lemma length_recordToolCall :
    (a.recordToolCall inv category accepted).toolCalls.length = a.toolCalls.length + 1 := by
  simp [recordToolCall]

lemma count_recordToolCall : (a.recordToolCall inv category accepted).count c =
    a.count c + if category = c then 1 else 0 := by
  unfold count recordToolCall
  dsimp only
  rw [Assoc.lookup_set]
  grind

lemma nodup_recordToolCall (h : (a.byCategory.map (·.1)).Nodup) :
    ((a.recordToolCall inv category accepted).byCategory.map (·.1)).Nodup :=
  Assoc.nodup_set h

@[simp]
lemma rounds_recordProgress (o : ProgressObservation) : (a.recordProgress o).rounds = a.rounds := by
  unfold recordProgress
  grind

@[simp]
lemma toolCalls_recordProgress (o : ProgressObservation) :
    (a.recordProgress o).toolCalls = a.toolCalls := by
  unfold recordProgress
  grind

@[simp]
lemma byCategory_recordProgress (o : ProgressObservation) :
    (a.recordProgress o).byCategory = a.byCategory := by
  unfold recordProgress
  grind

/-- The tally of a category is what was counted of it, though the tally is sorted. -/
lemma lookup_callsByCategory (h : (a.byCategory.map (·.1)).Nodup) (c : String) :
    (a.tally.callsByCategory.lookup c).getD 0 = a.count c := by
  have hperm : a.tally.callsByCategory.Perm a.byCategory := List.mergeSort_perm _ _
  rw [← Assoc.lookup_eq_of_perm hperm.symm h]
  rfl

end AgentRunAccountant

end MeshPipeline.AgentLoop
