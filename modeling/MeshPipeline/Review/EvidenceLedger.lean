import Mathlib.Data.List.Nodup
import MeshPipeline.Library.Assoc

/-!
# The evidence of a review

What a review observed, in the order it was added. A record has an identifier of its own, and says
by what it holds whether it can be used.
-/

namespace MeshPipeline.Review

inductive EvidenceStatus
  | PASS | FAIL | ERROR | UNAVAILABLE | INFO
  deriving DecidableEq, Repr

inductive TargetKind
  | patch | region | group | slice | interface | opening | branch | layerRegion | coordinateRegion
  deriving DecidableEq, Repr

def TargetKind.value : TargetKind → String
  | patch => "patch"
  | region => "region"
  | group => "group"
  | slice => "slice"
  | interface => "interface"
  | opening => "opening"
  | branch => "branch"
  | layerRegion => "layer_region"
  | coordinateRegion => "coordinate_region"

structure InspectionTargetRef where
  kind : TargetKind
  targetId : String
  deriving DecidableEq, Repr

/-- A calculation that came to a result, whichever. -/
def EvidenceStatus.definite (s : EvidenceStatus) : Bool := s = .PASS || s = .FAIL

structure HardGateEvidence where
  evidenceId : String
  gateKey : String
  status : EvidenceStatus
  deriving DecidableEq, Repr

structure MetricEvidence where
  evidenceId : String
  metricKey : String
  /-- `none` where the metric has no threshold. -/
  acceptable : Option Bool
  status : EvidenceStatus
  gating : Bool
  deriving DecidableEq, Repr

structure RenderViewEvidence where
  evidenceId : String
  viewId : String
  imageOk : Bool
  deriving DecidableEq, Repr

structure TargetInspectionEvidence where
  evidenceId : String
  target : InspectionTargetRef
  imageOk : Bool
  covered : Bool
  deriving DecidableEq, Repr

def HardGateEvidence.passed (g : HardGateEvidence) : Bool := g.status = .PASS

def HardGateEvidence.usable (g : HardGateEvidence) : Bool := g.status.definite

def MetricEvidence.passed (m : MetricEvidence) : Bool := m.status = .PASS

def MetricEvidence.usable (m : MetricEvidence) : Bool := m.status.definite

def RenderViewEvidence.usable (v : RenderViewEvidence) : Bool := v.imageOk

def TargetInspectionEvidence.usable (t : TargetInspectionEvidence) : Bool := t.imageOk && t.covered

/-- A record of the ledger. -/
inductive LedgerRecord
  | gate (g : HardGateEvidence)
  | metric (m : MetricEvidence)
  | view (v : RenderViewEvidence)
  | inspection (t : TargetInspectionEvidence)
  | validation (evidenceId : String)
  deriving DecidableEq, Repr

namespace LedgerRecord

def evidenceId : LedgerRecord → String
  | gate g => g.evidenceId
  | metric m => m.evidenceId
  | view v => v.evidenceId
  | inspection t => t.evidenceId
  | validation evidenceId => evidenceId

def usable : LedgerRecord → Bool
  | gate g => g.usable
  | metric m => m.usable
  | view v => v.usable
  | inspection t => t.usable
  | validation _ => false

def gate? : LedgerRecord → Option HardGateEvidence
  | gate g => some g
  | _ => none

def metric? : LedgerRecord → Option MetricEvidence
  | metric m => some m
  | _ => none

def view? : LedgerRecord → Option RenderViewEvidence
  | view v => some v
  | _ => none

def inspection? : LedgerRecord → Option TargetInspectionEvidence
  | inspection t => some t
  | _ => none

variable {r : LedgerRecord}

lemma gate?_eq_some {g : HardGateEvidence} : r.gate? = some g ↔ r = .gate g := by
  cases r <;> simp [gate?]

lemma metric?_eq_some {m : MetricEvidence} : r.metric? = some m ↔ r = .metric m := by
  cases r <;> simp [metric?]

lemma view?_eq_some {v : RenderViewEvidence} : r.view? = some v ↔ r = .view v := by
  cases r <;> simp [view?]

lemma inspection?_eq_some {t : TargetInspectionEvidence} :
    r.inspection? = some t ↔ r = .inspection t := by
  cases r <;> simp [inspection?]

end LedgerRecord

structure EvidenceConflict where
  conflictId : String
  summary : String
  resolved : Bool
  deriving DecidableEq, Repr

structure EvidenceLedger where
  records : List LedgerRecord
  counters : List (String × Nat)
  conflicts : List EvidenceConflict
  unique : (records.map (·.evidenceId)).Nodup

namespace EvidenceLedger

def empty : EvidenceLedger := ⟨[], [], [], List.nodup_nil⟩

/-- A number in three digits or more. -/
def padded (n : Nat) : String := "".pushn '0' (3 - (toString n).length) ++ toString n

variable (l : EvidenceLedger)

/-- `_mint`: the next identifier under a letter, and the counters after it. -/
def mint (letter : String) : String × List (String × Nat) :=
  let n := (l.counters.lookup letter).getD 0 + 1
  (letter ++ "-" ++ padded n, Assoc.set l.counters letter n)

/-- `_append`: no identifier is given twice. -/
def append (counters : List (String × Nat)) (r : LedgerRecord) : Option EvidenceLedger :=
  if h : r.evidenceId ∈ l.records.map (·.evidenceId) then none
  else some
    { l with
      records := l.records ++ [r]
      counters := counters
      unique := by
        rw [List.map_append]
        exact List.nodup_append'.mpr ⟨l.unique, List.nodup_singleton _, by simpa using h⟩ }

/-- What may be added to a ledger. -/
inductive Addition
  | gate (key : String) (status : EvidenceStatus)
  | metric (key : String) (acceptable : Option Bool) (status : EvidenceStatus) (gating : Bool)
  | view (viewId : String) (imageOk : Bool)
  | inspection (target : InspectionTargetRef) (imageOk covered : Bool)
  | validation
  | conflict (summary : String)
  | resolve (conflictId : String)
  deriving DecidableEq, Repr

/-- The `add_` functions and `resolve_conflict`; `none` where one raises. -/
def add : Addition → Option EvidenceLedger
  | .gate key status =>
    let (id, counters) := l.mint "g"
    l.append counters (.gate ⟨id, key, status⟩)
  | .metric key acceptable status gating =>
    let (id, counters) := l.mint "m"
    l.append counters (.metric ⟨id, key, acceptable, status, gating⟩)
  | .view viewId imageOk =>
    let (id, counters) := l.mint "v"
    l.append counters (.view ⟨id, viewId, imageOk⟩)
  | .inspection target imageOk covered =>
    let (id, counters) := l.mint "t"
    l.append counters (.inspection ⟨id, target, imageOk, covered⟩)
  | .validation =>
    let (id, counters) := l.mint "x"
    l.append counters (.validation id)
  | .conflict summary =>
    let (id, counters) := l.mint "c"
    some { l with counters := counters, conflicts := l.conflicts ++ [⟨id, summary, false⟩] }
  | .resolve conflictId =>
    match l.conflicts.findIdx? (·.conflictId = conflictId) with
    | some i => some { l with conflicts := l.conflicts.modify i ({ · with resolved := true }) }
    | none => none

/-! ## Queries -/

def unresolvedConflicts : List EvidenceConflict := l.conflicts.filter (!·.resolved)

def get (evidenceId : String) : Option LedgerRecord :=
  l.records.find? (·.evidenceId = evidenceId)

def gates : List HardGateEvidence := l.records.filterMap (·.gate?)

def metrics : List MetricEvidence := l.records.filterMap (·.metric?)

def renderViews : List RenderViewEvidence := l.records.filterMap (·.view?)

def targetInspections : List TargetInspectionEvidence := l.records.filterMap (·.inspection?)

/-- The first usable record of a gate. -/
def usableGate (key : String) : Option HardGateEvidence :=
  l.gates.find? fun g => g.gateKey = key && g.usable

/-- The first usable record of a metric. -/
def usableMetric (key : String) : Option MetricEvidence :=
  l.metrics.find? fun m => m.metricKey = key && m.usable

def usableView (viewId : String) : Option RenderViewEvidence :=
  l.renderViews.find? fun v => v.viewId = viewId && v.usable

def usableInspectionsOfKind (kind : TargetKind) : List TargetInspectionEvidence :=
  l.targetInspections.filter fun t => t.usable && t.target.kind = kind

def usableInspectionOfTarget (ref : InspectionTargetRef) : Option TargetInspectionEvidence :=
  l.targetInspections.find? fun t => t.usable && t.target = ref

/-! ## What the queries find -/

variable {l} {r : LedgerRecord}

/-- A record is found under its identifier. -/
theorem get_evidenceId (h : r ∈ l.records) : l.get r.evidenceId = some r := by
  obtain ⟨s, hs⟩ : ∃ s, l.get r.evidenceId = some s := by
    rw [← Option.isSome_iff_exists, get, List.find?_isSome]
    exact ⟨r, h, by simp⟩
  have hid : s.evidenceId = r.evidenceId := by simpa using List.find?_some hs
  rw [hs, List.inj_on_of_nodup_map l.unique (List.mem_of_find?_eq_some hs) h hid]

theorem mem_of_get {id : String} (h : l.get id = some r) : r ∈ l.records :=
  List.mem_of_find?_eq_some h

theorem mem_gates {g : HardGateEvidence} : g ∈ l.gates ↔ .gate g ∈ l.records := by
  simp [gates, LedgerRecord.gate?_eq_some]

theorem mem_metrics {m : MetricEvidence} : m ∈ l.metrics ↔ .metric m ∈ l.records := by
  simp [metrics, LedgerRecord.metric?_eq_some]

theorem mem_renderViews {v : RenderViewEvidence} : v ∈ l.renderViews ↔ .view v ∈ l.records := by
  simp [renderViews, LedgerRecord.view?_eq_some]

theorem mem_targetInspections {t : TargetInspectionEvidence} :
    t ∈ l.targetInspections ↔ .inspection t ∈ l.records := by
  simp [targetInspections, LedgerRecord.inspection?_eq_some]

end EvidenceLedger

end MeshPipeline.Review
