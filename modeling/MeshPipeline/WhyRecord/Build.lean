import Mathlib.Data.List.Sort
import MeshPipeline.Application.ReviewDelivery

/-!
# The rules that decide again

The pure rule functions of the why record, each over the inputs that an entry keeps, and the replay
that compares what they give with what was recorded.
-/

namespace MeshPipeline.WhyRecord

open Application.ReviewDelivery Ranking

/-! ## The engine a run starts on -/

structure PickInputs where
  engineSource : String
  approved : String
  recommended : String
  recommendedRule : String
  measured : Bool
  /-- The candidates that read the format of the upload themselves, in the order of the ladder. -/
  ownFormat : List String

/-- `engine_pick`. -/
def enginePick (inputs : PickInputs) : String × String :=
  let own := inputs.ownFormat.filter (· ≠ "")
  let rule :=
    if inputs.engineSource ∈ ["user_direct", "dispute"] then "ENG-6"
    else if own.head? = some inputs.approved then "ENG-7"
    else if inputs.measured ∧ inputs.recommended ≠ "" ∧ inputs.approved = inputs.recommended then
      if inputs.recommendedRule ∈ ["ENG-2", "ENG-3"] then inputs.recommendedRule else "ENG-4"
    else if inputs.engineSource = "suggested_confirmed" then "ENG-9"
    else "ENG-8"
  (inputs.approved, rule)

/-! ## A switch to another engine -/

/-- `SWITCH_RULES`: the opening words of a reason, and the rule behind it. -/
def switchRules : List (String × String) :=
  [("this engine's mesh of this shape came out broken", "SW-1"),
    ("this engine could not build a mesh", "SW-2"),
    ("the same failure repeated here", "SW-3"),
    ("the shared attempts go to the untried engine", "SW-4"),
    ("a measured check failed - this engine's own levers are tried first", "SW-5"),
    ("a retry here fits and still leaves every untried rung an attempt", "SW-6"),
    ("a review never moves the run to another engine", "SW-7"),
    ("the engine is not ours to change", "SW-8"),
    ("another engine cannot change this failure", "SW-9"),
    ("no untried engine delivers the approved mesh", "SW-10"),
    ("no untried engine meshes ", "SW-11"),
    ("no regular attempt is left", "SW-12"),
    ("the fallback ladder is switched off", "SW-14"),
    ("the last attempt did not fail", "SW-15"),
    ("the system's own pick made no usable mesh", "SW-16")]

def opensWith (words text : String) : Bool :=
  words.toList.isPrefixOf (text.toList.dropWhile Text.isSpace)

/-- `switch_rule`. -/
def switchRule (why : String) : String :=
  ((switchRules.find? fun row => opensWith row.1 why).map (·.2)).getD ""

/-- `_MOVES_ON`: the failures that a moving rule can follow. -/
def movesOn : List (String × List String) :=
  [("SW-1", ["engine"]), ("SW-2", ["engine"]), ("SW-3", ["fixable"]), ("SW-4", ["fixable"]),
    ("SW-16", ["engine", "fixable"])]

structure SwitchInputs where
  why : String
  source : String
  target : String
  attempt : Nat
  because : String
  kind : String

/-- `switch`: a move whose facts do not fit its reason has no rule. -/
def switch (inputs : SwitchInputs) : String × String :=
  let rule := switchRule inputs.why
  match movesOn.lookup rule with
  | some kinds =>
    if inputs.kind ∉ kinds ∨ inputs.target = "" ∨ inputs.target = inputs.source then
      (inputs.target, "")
    else (inputs.target, rule)
  | none => (inputs.source, rule)

/-! ## The attempt that is delivered -/

/-- A candidate as an account keeps it: the attempt, the engine and the rank. -/
abbrev RankedAttempt := Nat × String × List (WithTop ℚ)

/-- `delivery_rule`. -/
def deliveryRule (best runnerUp : List (WithTop ℚ)) : String :=
  let last := (deliveryRules.getLast?).getD ""
  match deciding best runnerUp with
  | some i => (deliveryRules[i]?).getD last
  | none => last

/-- `sorted`, on the rank: what is level keeps its order. -/
def ranked (pool : List RankedAttempt) : List RankedAttempt :=
  pool.insertionSort fun c d => c.2.2 ≤ d.2.2

/-- `delivered`. -/
def delivered (pool : List RankedAttempt) : Option Nat × String :=
  match ranked pool with
  | [] => (none, "")
  | [only] => (some only.1, deliveryOnlyOne)
  | best :: runner :: _ => (some best.1, deliveryRule best.2.2 runner.2.2)

/-! ## The verdict -/

/-- A measured number and its limit; a row that has to be empty has none. -/
structure LimitRow where
  key : String
  label : String
  measured : Option Reading
  op : String
  limit : Option ℚ

/-- `limit_met`: nothing that was measured decides nothing. -/
def LimitRow.met (row : LimitRow) : Option Bool :=
  match row.measured with
  | none | some .nonFinite => none
  | some measured =>
    if row.op = "empty" then some (!measured.holds)
    else if row.op = "==" then
      some (match row.limit with
        | some limit => measured.comparable == some limit
        | none => measured == .other true)
    else
      match measured, row.limit with
      | .number m, some limit =>
        if row.op = "<=" then some (m ≤ limit)
        else if row.op = ">=" then some (limit ≤ m)
        else if row.op = "<" then some (m < limit)
        else if row.op = ">" then some (limit < m)
        else none
      | _, _ => none

structure VerdictInputs where
  valid : Bool
  failedGate : String
  gating : List LimitRow
  limits : List LimitRow

def missedLimits (inputs : VerdictInputs) : List LimitRow :=
  inputs.limits.filter (·.met = some false)

def failedGating (inputs : VerdictInputs) : List LimitRow :=
  inputs.gating.filter (·.met = some false)

/-- `WRONG_PROBLEM_GATES`. -/
def wrongProblemGates : List String :=
  ["port_areas", "region_contract", "file_fidelity", "domain_extent", "patch_contract",
    "boundary_types", "regions_split"]

/-- `verdict`. -/
def verdict (inputs : VerdictInputs) : String × String :=
  if !inputs.valid ∨ failedGating inputs ≠ [] then
    if inputs.failedGate ∈ wrongProblemGates then ("wrong_problem", "VER-4") else ("fail", "VER-1")
  else if missedLimits inputs ≠ [] then ("concerns", "VER-2")
  else ("pass", "VER-3")

/-! ## The guards -/

/-- The planned work of a step, and the least and the most guard that it may have. -/
structure PlannedWork where
  step : String
  unit : String
  amount : Option ℚ
  rate : Option ℚ
  floorS : ℚ
  ceilingS : ℚ
  steps : ℚ

namespace PlannedWork

/-- `planned_seconds`. -/
def plannedSeconds (work : PlannedWork) : Option ℚ :=
  match work.amount, work.rate with
  | some amount, some rate =>
    if amount ≤ 0 ∨ rate ≤ 0 then none else some (amount / rate * max 1 work.steps)
  | _, _ => none

/-- `guard_seconds`: three times the planned time, within the floor and the ceiling. -/
def guardSeconds (work : PlannedWork) : ℤ :=
  let floor := max 1 work.floorS
  let ceiling := max floor work.ceilingS
  match work.plannedSeconds with
  | none => ⌊floor⌋
  | some planned => if planned ≤ 0 then ⌊floor⌋ else ⌊min ceiling (max floor (3 * planned))⌋

end PlannedWork

/-- Python's `x or 1.0`. -/
def orOne (x : ℚ) : ℚ := if x = 0 then 1 else x

/-- `work_limit`, from the planned work as it was recorded. -/
def workLimit (work : PlannedWork) : ℤ × String :=
  ({ work with
      floorS := orOne work.floorS
      ceilingS := orOne work.ceilingS
      steps := orOne work.steps }.guardSeconds, "TIME-2")

/-- `after_trip`. -/
def afterTrip (replays allowed : Nat) : String × String :=
  (if replays < allowed then "replay" else "ran_out_of_time", "TIME-3")

/-! ## Entries -/

/-- What was decided. -/
inductive Value
  | text (value : String)
  | number (value : ℤ)
  | nothing
  deriving DecidableEq

/-- The stage of an entry and the inputs its rule read; the rule function of a stage that is not
here is in the code that cites it. -/
inductive Inputs
  | enginePick (inputs : PickInputs)
  | switch (inputs : SwitchInputs)
  | delivered (candidates : List RankedAttempt)
  | verdict (inputs : VerdictInputs) (decides : Bool)
  | workLimit (work : PlannedWork)
  | guard (replays allowed : Nat)
  | cited (stage : String)

structure Entry where
  inputs : Inputs
  value : Value
  rule : String

/-- `REPLAYERS`: what the rule of a stage gives. -/
def Inputs.decideAgain : Inputs → Option (Value × String)
  | .enginePick inputs =>
    some (.text (WhyRecord.enginePick inputs).1, (WhyRecord.enginePick inputs).2)
  | .switch inputs => some (.text (WhyRecord.switch inputs).1, (WhyRecord.switch inputs).2)
  | .delivered pool =>
    let (attempt, rule) := WhyRecord.delivered pool
    some ((attempt.map fun n => Value.number n).getD .nothing, rule)
  | .verdict inputs _ => some (.text (WhyRecord.verdict inputs).1, (WhyRecord.verdict inputs).2)
  | .workLimit work => some (.number (WhyRecord.workLimit work).1, (WhyRecord.workLimit work).2)
  | .guard replays allowed =>
    some (.text (afterTrip replays allowed).1, (afterTrip replays allowed).2)
  | .cited _ => none

/-- The entry agrees with its rule, or no rule decides it here. -/
def Entry.agrees (e : Entry) : Bool :=
  match e.inputs.decideAgain with
  | none => true
  | some (value, rule) => rule == e.rule && value == e.value

/-- `replay`: the entries whose rule gives something else, with their places. -/
def replay (entries : List Entry) : List (Entry × Nat) :=
  entries.zipIdx.filter fun row => !row.1.agrees

end MeshPipeline.WhyRecord

/-!
## The why record of a finished run

The entries that are read back out of the final state, and those that were cited as they were made.
-/

namespace MeshPipeline.WhyRecord

open Application.ReviewDelivery Pipeline

/-! ## The run -/

/-- What the ladder's record says beside its attempts: the ranking, and the words of a switch. -/
structure LadderNotes where
  orderRecommended : String
  orderRule : String
  /-- `order_source` is `measured`. -/
  measured : Bool
  whyOf : LadderSwitch → String
  becauseOf : LadderSwitch → String

/-- A decision that is put into the record where it is made. -/
inductive Cited
  /-- `record_verdict`. -/
  | verdict (inputs : VerdictInputs) (decides : Bool)
  /-- `pass_guard`. -/
  | passGuard (work : PlannedWork)
  /-- `_cite_run_guard`, with what the run plan of the case planned. -/
  | runGuard (engine : String) (cap : ℕ+) (planned : Option PlannedWork)
  /-- `_after_guard_trip`. -/
  | afterTrip (replays : Nat)
  /-- Any stage whose rule is not in the record's module. -/
  | other (stage : String) (value : Value) (rule : String)

/-- `LAD_DELIVER_SOUND`. -/
def ladDeliverSound : String := "LAD-cfd-3"

/-- The account that `node_deliver_sound` leaves, of the last attempt and the sound mesh: it keeps
no candidates. -/
def soundAccount (lastSound : Bool) (last attempt : Nat) (engine : String)
    (shortOf : List Shortfall) : Account where
  attempt := attempt
  engine := engine
  why :=
    if lastSound then
      s!"attempt {last} resolved the narrowest gap less well than attempt {attempt}"
    else
      s!"attempt {last} did not pass the automatic checks, and attempt {attempt} built a sound " ++
        "mesh"
  rule := ladDeliverSound
  shortOf := shortOf
  candidates := []

/-- A run as the graph leaves it. An account in it is of a sound mesh that was gone back to: all
others are written afterwards. -/
structure FinishedRun where
  state : FinalState
  notes : LadderNotes
  /-- The format of the upload, when its name tells it. -/
  sourceFormat : String
  /-- The decisions that the staging of an internal flow wrote down. -/
  fluidRegion : List (String × Value × String)
  /-- How many notes of the user the run had. -/
  userNotes : Nat
  cited : List Cited
  accounted : ∀ a, state.deliveredFrom = some a →
    ∃ lastSound last attempt engine shortOf, a = soundAccount lastSound last attempt engine shortOf

/-- `reads_own_format`, for an engine and a format. -/
abbrev OwnFormat := String → String → Bool

variable (reads : OwnFormat) (run : FinishedRun) (s : FinalState)

/-! ## The entries -/

/-- `engine_source`, as it is spelled. -/
def sourceText (s : LadderState) : String :=
  match s.engineSource with
  | .userDirect => "user_direct"
  | .suggestedConfirmed => "suggested_confirmed"
  | .dispute => "dispute"
  | .system => "system"
  | .unknown => ""

def kindText : FailureKind → String
  | .engine => "engine"
  | .fixable => "fixable"
  | .never => "never"
  | .review => "review"

/-- The engine the run started on: the approved one, else the first attempt's, else the run's. -/
def startedOn : String :=
  let approved := s.ladder.record.approved.getD ""
  if approved ≠ "" then approved
  else ((s.ladder.record.attempts.find? (·.engine ≠ "")).map (·.engine)).getD s.ladder.engine

def pickInputs (approved : String) : PickInputs where
  engineSource := sourceText s.ladder
  approved := approved
  recommended := run.notes.orderRecommended
  recommendedRule := run.notes.orderRule
  measured := run.notes.measured
  ownFormat :=
    let order := s.ladder.record.order.filter (· ≠ "")
    if run.sourceFormat = "" then []
    else (if order = [] then [approved] else order).filter (reads · run.sourceFormat)

/-- `engine_pick_entry`. -/
def enginePickEntry : Option Entry :=
  let approved := startedOn s
  if approved = "" then none
  else
    let inputs := pickInputs reads run s approved
    some ⟨.enginePick inputs, .text (enginePick inputs).1, (enginePick inputs).2⟩

def switchInputs (row : LadderSwitch) : SwitchInputs where
  why := run.notes.whyOf row
  source := row.source
  target := row.target
  attempt := row.attempt
  because := run.notes.becauseOf row
  kind := kindText row.failure.kind

/-- `switch_entries`. -/
def switchEntries : List Entry :=
  s.ladder.record.switches.map fun row =>
    let inputs := switchInputs run row
    ⟨.switch inputs, .text (switch inputs).1, (switch inputs).2⟩

/-- `_delivered_a_mesh`. -/
def deliveredAMesh : Bool :=
  s.ladder.pipeline.executorSuccess && s.ladder.pipeline.executorFailedGate == ""

/-- The entry of an account: by the rule that it names, else by the rule of its candidates. -/
def accountEntry (a : Account) : Entry where
  inputs := .delivered a.candidates
  value := .number a.attempt
  rule := if a.rule ≠ "" then a.rule else (delivered a.candidates).2

/-- `delivered_entry`. -/
def deliveredEntry : Option Entry :=
  match s.deliveredFrom with
  | some a => some (accountEntry a)
  | none =>
    if deliveredAMesh s then
      let attempt := s.ladder.pipeline.retryCount
      some ⟨.delivered [(attempt, s.ladder.engine, [])], .number attempt, deliveryOnlyOne⟩
    else none

def fluidRegionEntries : List Entry :=
  run.fluidRegion.map fun row => ⟨.cited row.1, row.2.1, row.2.2⟩

def userNotesEntry : Option Entry :=
  if run.userNotes = 0 then none else some ⟨.cited "user_notes", .number run.userNotes, "NOTE-2"⟩

/-- `entries`, of the final state. -/
def entries : List Entry :=
  fluidRegionEntries run ++ (enginePickEntry reads run s).toList ++ switchEntries run s ++
    (deliveredEntry s).toList ++ (userNotesEntry run).toList

/-- The planned work that a run's guard is put down with: what the case planned when the guard is
its, else the engine's own cap. -/
def guardWork (engine : String) (cap : ℕ+) (planned : Option PlannedWork) : PlannedWork :=
  (planned.filter (·.guardSeconds = ((cap : ℕ) : ℤ))).getD
    { step := engine
      unit := "cells"
      amount := none
      rate := none
      floorS := (cap : ℕ)
      ceilingS := (cap : ℕ)
      steps := 1 }

/-- `GUARD_REPLAYS`. -/
def guardReplays : Nat := 1

def Cited.entry : Cited → Entry
  | .verdict inputs decides =>
    ⟨.verdict inputs decides, .text (WhyRecord.verdict inputs).1, (WhyRecord.verdict inputs).2⟩
  | .passGuard work => ⟨.workLimit work, .number work.guardSeconds, "TIME-2"⟩
  | .runGuard engine cap planned =>
    ⟨.workLimit (guardWork engine cap planned), .number (cap : ℕ), "TIME-2"⟩
  | .afterTrip replays =>
    ⟨.guard replays guardReplays, .text (WhyRecord.afterTrip replays guardReplays).1,
      (WhyRecord.afterTrip replays guardReplays).2⟩
  | .other stage value rule => ⟨.cited stage, value, rule⟩

/-- `build`, of the state that the delivery selected. -/
def build (w : DeliveryWorld) : List Entry :=
  entries reads run (select w run.state) ++ run.cited.map Cited.entry

end MeshPipeline.WhyRecord
