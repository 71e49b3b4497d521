import Mathlib.Algebra.Ring.Int.Defs
import MeshPipeline.CadRepair.RepairSession

/-!
# All or nothing

An attempt that is not kept leaves the session as it was, and one that is kept meets the caps, spares what
is held and breaks nothing.
-/

namespace MeshPipeline.CadRepair

variable {Shape K : Type*} [Zero K] [Add K]

namespace RepairSession

/-- What `defects()` answers, and `complete_scan` after it. -/
def listed (s : RepairSession Shape K) (firstScan : Except String (List Defect × Bool)) :
    Except String (List Defect × Bool) :=
  match s.defects with
  | some defects => .ok (defects, s.completeScan)
  | none => firstScan

/-- Two sessions that no caller can tell apart, but for their logs. -/
structure Untouched (firstScan : Except String (List Defect × Bool))
    (s t : RepairSession Shape K) : Prop where
  shape : t.shape = s.shape
  listed : t.listed firstScan = s.listed firstScan
  accounting : t.accounting = s.accounting

end RepairSession

/-- The attempt was not kept, and the session is as it was. -/
structure Spared (firstScan : Except String (List Defect × Bool)) (s : RepairSession Shape K)
    (result : RepairSession Shape K × Except String OpVerdict) : Prop where
  untouched : s.Untouched firstScan result.1
  missed : ∀ v, result.2 = .ok v → v.status ≠ .kept

def errorCount (defects : List Defect) : Nat := defects.countP fun d => d.severity.isError

/-- A finding has the name or the place of an earlier one. -/
def knownBefore (previous : List Defect) (d : Defect) : Bool :=
  (previous.any fun p => p.fingerprint == d.fingerprint && p.code == d.code) ||
    (geometricKey d).isSome && previous.any fun p => geometricKey p == geometricKey d

/-- The errors at the names and the places of the earlier findings are more than the earlier errors. -/
def Outnumbered (previous found : List Defect) : Prop :=
  errorCount previous < errorCount (found.filter (knownBefore previous))

section

variable [Neg K] [Sub K] [Div K] [Max K] [LE K] [LT K] [DecidableLE K] [DecidableLT K]
  (policy : CapPolicy K) (s : RepairSession Shape K) (calls : Calls Shape K) (op : RepairOp)
  (targets : List EntityRef) (code : DefectCode) (answeredHeld : List String)

/-- The operation is applied, and returns. -/
structure Reaches (previous : List Defect) (complete : Bool) (before : Measure K)
    (outcome : OpOutcome Shape K) : Prop where
  targetable : ∀ t ∈ targets, t.fingerprint ≠ ""
  listed : s.listed calls.firstScan = .ok (previous, complete)
  carried : carries targets code previous = true
  before : calls.measureBefore = .ok before
  applied : calls.apply = .ok outcome

/-- The outcome passes every check before the re-inspection. -/
structure Cleared (previous : List Defect) (before after : Measure K)
    (outcome : OpOutcome Shape K) : Prop where
  measured : calls.measureAfter = .ok after
  held : removedHeld s.reserved previous answeredHeld outcome.toOutcome = []
  caps : capRefusal policy s before after outcome = none
  performed : outcome.declined = none

/-- What holds of an operation that was kept. -/
structure KeptSound (log : List (Logged K)) (previous scan : List Defect) (after : Measure K)
    (outcome : OpOutcome Shape K) : Prop where
  caps : CapsHold policy s.original after (.of log)
  held : ∀ d ∈ previous, d.fingerprint ≠ "" → d.code ∈ s.reserved →
    d.fingerprint ∉ answeredHeld → d.fingerprint ∉ outcome.removedFingerprints
  absent : ∀ t ∈ targets, ∀ d ∈ judgedFindings op code scan,
    d.fingerprint ∈ namesAfter outcome.toOutcome t.fingerprint → d.code ≠ code
  errors : errorCount (judgedFindings op code scan) ≤ errorCount (judgedFindings op code previous)

/-- An attempt is all or nothing. -/
structure AllOrNothing (result : RepairSession Shape K × Except String OpVerdict) : Prop where
  raised : ∀ e, result.2 = .error e → s.Untouched calls.firstScan result.1
  missed : ∀ v, result.2 = .ok v → v.status ≠ .kept → s.Untouched calls.firstScan result.1
  kept : ∀ v, result.2 = .ok v → v.status = .kept →
    ∃ previous complete outcome after scan rescanComplete,
      s.listed calls.firstScan = .ok (previous, complete) ∧ calls.apply = .ok outcome ∧
        calls.measureAfter = .ok after ∧ calls.rescan = .ok (scan, rescanComplete) ∧
          KeptSound policy s op targets code answeredHeld result.1.log previous scan after outcome

/-- No call fails once an operation has returned another shape, and where the attempt passes, the errors
at the known names and places do not outnumber those before. -/
structure Whole : Prop where
  measured : ∀ previous complete before outcome e,
    Reaches s calls targets code previous complete before outcome →
      calls.measureAfter = .error e → outcome.shape = s.shape
  rescanned : ∀ previous complete before outcome after e,
    Reaches s calls targets code previous complete before outcome →
      Cleared policy s calls answeredHeld previous before after outcome →
        calls.rescan = .error e → outcome.shape = s.shape
  judged : ∀ previous complete before outcome after scan rescanComplete,
    Reaches s calls targets code previous complete before outcome →
      Cleared policy s calls answeredHeld previous before after outcome →
        calls.rescan = .ok (scan, rescanComplete) →
          progressRefusal op.name outcome.toOutcome targets code (judgedFindings op code previous)
              (judgedFindings op code scan) = none →
            ¬ Outnumbered (judgedFindings op code previous) (judgedFindings op code scan)

end

/-! ## The list of defects -/

variable {s : RepairSession Shape K} {firstScan : Except String (List Defect × Bool)}

lemma scanned_of_listed {previous : List Defect} {complete : Bool}
    (h : s.listed firstScan = .ok (previous, complete)) : s.scanned firstScan =
      .ok ({ s with defects := some previous, completeScan := complete }, previous) := by
  obtain ⟨original, shape, defects, completeScan, accounting, log, reserved, accounted⟩ := s
  cases defects with
  | none =>
    have h : firstScan = .ok (previous, complete) := h
    subst h
    rfl
  | some defects =>
    have h : Except.ok (defects, completeScan) = Except.ok (previous, complete) := h
    obtain ⟨rfl, rfl⟩ := Prod.mk.inj (Except.ok.inj h)
    rfl

lemma scanned_of_not_listed {e : String} (h : s.listed firstScan = .error e) :
    s.scanned firstScan = .error e := by
  obtain ⟨original, shape, defects, completeScan, accounting, log, reserved, accounted⟩ := s
  cases defects with
  | none =>
    have h : firstScan = .error e := h
    subst h
    rfl
  | some defects => exact absurd h (by simp [RepairSession.listed])

/-- Scanning a shape for the first time touches nothing. -/
lemma untouched_scanned {previous : List Defect} {complete : Bool}
    (h : s.listed firstScan = .ok (previous, complete)) : s.Untouched firstScan
      { s with defects := some previous, completeScan := complete } :=
  ⟨rfl, h.symm, rfl⟩

lemma spared_miss {t : RepairSession Shape K} (h : s.Untouched firstScan t) (v : OpVerdict)
    (d : Declaration K) (hv : v.status ≠ .kept) : Spared firstScan s (t.miss v d hv) := by
  refine ⟨⟨h.shape, h.listed, h.accounting⟩, ?_⟩
  rintro w ⟨⟩
  exact hv

lemma spared_error {t : RepairSession Shape K} (h : s.Untouched firstScan t) (e : String) :
    Spared firstScan s (t, .error e) :=
  ⟨h, fun v hv => by cases hv⟩

/-! ## Findings -/

/-- Where nothing new was held against an operation, each error is at a known name or place. -/
lemma known_of_progress {opName : String} {outcome : Outcome Shape} {targets : List EntityRef}
    {code : DefectCode} {previous found : List Defect}
    (h : progressRefusal opName outcome targets code previous found = none) {d : Defect}
    (hd : d ∈ found) (herror : d.severity.isError) : knownBefore previous d := by
  unfold progressRefusal at h
  split_ifs at h with htarget hnew
  have hnot : isNewDefect opName outcome previous found d = false := by
    by_contra hnew'
    exact hnew (List.any_eq_true.mpr ⟨d, hd, by simpa using hnew'⟩)
  have hsevere : d.severity ≠ .info ∧ d.severity ≠ .warning := by
    constructor
    all_goals
      intro heq
      simp [heq, Severity.isError] at herror
  unfold knownBefore
  unfold isNewDefect at hnot
  grind

lemma absent_of_progress {opName : String} {outcome : Outcome Shape} {targets : List EntityRef}
    {code : DefectCode} {previous found : List Defect}
    (h : progressRefusal opName outcome targets code previous found = none) {t : EntityRef}
    (ht : t ∈ targets) {d : Defect} (hd : d ∈ found)
    (hname : d.fingerprint ∈ namesAfter outcome t.fingerprint) : d.code ≠ code := by
  unfold progressRefusal at h
  split_ifs at h with htarget
  intro hcode
  refine htarget (List.any_eq_true.mpr ⟨t, ht, List.any_eq_true.mpr ⟨d, hd, ?_⟩⟩)
  simp [hcode, hname]

/-- Where every error is known, the errors grow exactly when the known ones outnumber. -/
lemma errorCount_known {previous found : List Defect}
    (h : ∀ d ∈ found, d.severity.isError → knownBefore previous d) :
    errorCount (found.filter (knownBefore previous)) = errorCount found := by
  unfold errorCount
  rw [List.countP_filter]
  refine List.countP_congr fun d hd => ?_
  have := h d hd
  grind

lemma spared_of_removedHeld {reserved : List DefectCode} {previous : List Defect}
    {answeredHeld : List String} {outcome : Outcome Shape}
    (h : removedHeld reserved previous answeredHeld outcome = []) {d : Defect} (hd : d ∈ previous)
    (hname : d.fingerprint ≠ "") (hcode : d.code ∈ reserved) (hasked : d.fingerprint ∉ answeredHeld) :
    d.fingerprint ∉ outcome.removedFingerprints := by
  intro hremoved
  have hheld : d.fingerprint ∈ heldFingerprints previous reserved := by
    refine List.mem_map.mpr ⟨d, List.mem_filter.mpr ⟨hd, ?_⟩, rfl⟩
    simp [hname, hcode]
  have hmem : d.fingerprint ∈ removedHeld reserved previous answeredHeld outcome := by
    unfold removedHeld
    rw [(List.perm_insertionSort _ _).mem_iff, List.mem_dedup, List.mem_filter]
    simp [hheld, hasked, hremoved]
  simp [h] at hmem

/-! ## The attempt -/

variable [Neg K] [Sub K] [Div K] [Max K] [LE K] [LT K] [DecidableLE K] [DecidableLT K]
  {policy : CapPolicy K} {calls : Calls Shape K} {op : RepairOp} {targets : List EntityRef}
  {code : DefectCode} {answeredHeld : List String} {previous : List Defect} {complete : Bool}
  {before : Measure K} {outcome : OpOutcome Shape K}

/-- How an attempt ends when no operation returned. -/
lemma tryOp_of_not_reaches (h : ∀ previous complete before outcome,
      ¬ Reaches s calls targets code previous complete before outcome) :
    Spared calls.firstScan s (s.tryOp policy calls op targets code answeredHeld) := by
  have hself : s.Untouched calls.firstScan s := ⟨rfl, rfl, rfl⟩
  unfold RepairSession.tryOp
  by_cases htargetable : (targets.any fun t => t.fingerprint == "") = true
  · rw [if_pos htargetable]
    exact spared_miss hself _ _ (by simp)
  rw [if_neg htargetable]
  cases hlisted : s.listed calls.firstScan with
  | error e =>
    rw [scanned_of_not_listed hlisted]
    exact spared_error hself e
  | ok listed =>
    obtain ⟨previous, complete⟩ := listed
    have htouched := untouched_scanned hlisted
    rw [scanned_of_listed hlisted]
    cases hcarries : carries targets code previous with
    | false => simpa [hcarries] using spared_miss htouched _ _ (by simp)
    | true =>
      cases hbefore : calls.measureBefore with
      | error e => simpa [hcarries] using spared_error htouched e
      | ok before =>
        cases happly : calls.apply with
        | error e => simpa [hcarries] using spared_miss htouched _ _ (by simp)
        | ok outcome =>
          exact absurd ⟨by simpa using htargetable, hlisted, hcarries, hbefore, happly⟩
            (h previous complete before outcome)

lemma tryOp_of_reaches
    (h : Reaches s calls targets code previous complete before outcome) :
    s.tryOp policy calls op targets code answeredHeld =
      RepairSession.judgeOutcome policy { s with defects := some previous, completeScan := complete }
        previous calls op targets code answeredHeld before outcome := by
  have htargetable : ¬ (targets.any fun t => t.fingerprint == "") = true := by
    simpa using h.targetable
  unfold RepairSession.tryOp
  rw [if_neg htargetable, scanned_of_listed h.listed]
  simp [h.carried, h.before, h.applied]

/-- The ways in which an outcome is judged. -/
inductive Judged (policy : CapPolicy K) (snapshot : RepairSession Shape K) (previous : List Defect)
    (calls : Calls Shape K) (op : RepairOp) (targets : List EntityRef) (code : DefectCode)
    (answeredHeld : List String) (before : Measure K) (outcome : OpOutcome Shape K) :
    RepairSession Shape K × Except String OpVerdict → Prop
  | unmeasured (e : String) (h : calls.measureAfter = .error e) :
    Judged policy snapshot previous calls op targets code answeredHeld before outcome
      ({ snapshot with shape := outcome.shape }, .error e)
  | rolledBack (after : Measure K) (h : calls.measureAfter = .ok after) (v : OpVerdict)
      (hv : v.status ≠ .kept)
      (hwhy : Cleared policy snapshot calls answeredHeld previous before after outcome →
        ∃ scan rescanComplete, calls.rescan = .ok (scan, rescanComplete) ∧
          progressRefusal op.name outcome.toOutcome targets code (judgedFindings op code previous)
            (judgedFindings op code scan) ≠ none) :
    Judged policy snapshot previous calls op targets code answeredHeld before outcome
      (snapshot.miss v outcome.declared hv)
  | unscanned (after : Measure K) (e : String)
      (h : Cleared policy snapshot calls answeredHeld previous before after outcome)
      (hscan : calls.rescan = .error e) :
    Judged policy snapshot previous calls op targets code answeredHeld before outcome
      ({ snapshot with shape := outcome.shape }, .error e)
  | kept (after : Measure K) (scan : List Defect) (rescanComplete : Bool) (v : OpVerdict)
      (hv : v.status = .kept)
      (h : Cleared policy snapshot calls answeredHeld previous before after outcome)
      (hscan : calls.rescan = .ok (scan, rescanComplete))
      (hprogress : progressRefusal op.name outcome.toOutcome targets code
        (judgedFindings op code previous) (judgedFindings op code scan) = none) :
    Judged policy snapshot previous calls op targets code answeredHeld before outcome
      (RepairSession.keep { snapshot with
        shape := outcome.shape
        defects := some (judgedFindings op code scan ++
          carriedFindings op code previous (judgedFindings op code scan))
        completeScan := rescanComplete } v outcome.declared hv)

lemma judgeOutcome_judged (policy : CapPolicy K) (snapshot : RepairSession Shape K)
    (previous : List Defect) (calls : Calls Shape K) (op : RepairOp) (targets : List EntityRef)
    (code : DefectCode) (answeredHeld : List String) (before : Measure K)
    (outcome : OpOutcome Shape K) :
    Judged policy snapshot previous calls op targets code answeredHeld before outcome
      (snapshot.judgeOutcome policy previous calls op targets code answeredHeld before outcome) := by
  unfold RepairSession.judgeOutcome
  cases hafter : calls.measureAfter with
  | error e => exact .unmeasured e hafter
  | ok after =>
    cases hheld : removedHeld snapshot.reserved previous answeredHeld outcome.toOutcome with
    | cons first rest =>
      simp only [hheld]
      refine .rolledBack after hafter _ _ fun hcleared => ?_
      exact absurd hcleared.held (by simp [hheld])
    | nil =>
      simp only [hheld]
      cases hcap : capRefusal policy { snapshot with shape := outcome.shape } before after outcome with
      | some refusal =>
        refine .rolledBack after hafter _ _ fun hcleared => ?_
        exact absurd (hcleared.caps.symm.trans hcap) (by simp)
      | none =>
        cases hdeclined : outcome.declined with
        | some declined =>
          refine .rolledBack after hafter _ _ fun hcleared => ?_
          exact absurd hcleared.performed (by simp [hdeclined])
        | none =>
          have hcleared : Cleared policy snapshot calls answeredHeld previous before after outcome :=
            ⟨hafter, hheld, hcap, hdeclined⟩
          cases hscan : calls.rescan with
          | error e => exact .unscanned after e hcleared hscan
          | ok rescan =>
            obtain ⟨scan, rescanComplete⟩ := rescan
            cases hprogress : progressRefusal op.name outcome.toOutcome targets code
                (judgedFindings op code previous) (judgedFindings op code scan) with
            | some reason =>
              simp only [hprogress]
              refine .rolledBack after hafter _ _ fun _ => ?_
              exact ⟨scan, rescanComplete, hscan, by simp [hprogress]⟩
            | none =>
              simp only [hprogress]
              exact .kept after scan rescanComplete _ _ hcleared hscan hprogress

/-- What the kept operation meets; the errors are what the known ones leave open. -/
lemma keptSound_iff {after : Measure K} {scan : List Defect} {log : List (Logged K)}
    {declared : Declaration K} (hlog : Accounting.of log = s.accounting.plus declared)
    (hdeclared : declared = outcome.declared)
    (hcleared : Cleared policy s calls answeredHeld previous before after outcome)
    (hprogress : progressRefusal op.name outcome.toOutcome targets code
      (judgedFindings op code previous) (judgedFindings op code scan) = none) :
    KeptSound policy s op targets code answeredHeld log previous scan after outcome ↔
      ¬ Outnumbered (judgedFindings op code previous) (judgedFindings op code scan) := by
  subst hdeclared
  have hknown := errorCount_known fun d hd herror => known_of_progress hprogress (d := d) hd herror
  unfold Outnumbered
  rw [hknown, Nat.not_lt]
  constructor
  · exact fun h => h.errors
  · intro herrors
    have hcaps := Option.or_eq_none_iff.mp hcleared.caps
    refine ⟨?_, ?_, ?_, herrors⟩
    · rw [hlog]
      exact cumulativeRefusal_eq_none_iff.mp hcaps.2
    · intro d hd hname hcode hasked
      exact spared_of_removedHeld hcleared.held hd hname hcode hasked
    · intro t ht d hd hname
      exact absent_of_progress hprogress ht hd hname

omit [Neg K] [Sub K] [Div K] [Max K] [LE K] [LT K] [DecidableLE K] [DecidableLT K] in
lemma reaches_unique {previous' : List Defect} {complete' : Bool} {before' : Measure K}
    {outcome' : OpOutcome Shape K}
    (h : Reaches s calls targets code previous complete before outcome)
    (h' : Reaches s calls targets code previous' complete' before' outcome') :
    previous' = previous ∧ complete' = complete ∧ before' = before ∧ outcome' = outcome := by
  have hlisted := Except.ok.inj (h'.listed.symm.trans h.listed)
  exact ⟨congrArg Prod.fst hlisted, congrArg Prod.snd hlisted,
    Except.ok.inj (h'.before.symm.trans h.before), Except.ok.inj (h'.applied.symm.trans h.applied)⟩

/-- The condition, of an attempt whose operation returned. -/
lemma whole_iff_of_reaches (h : Reaches s calls targets code previous complete before outcome) :
    Whole policy s calls op targets code answeredHeld ↔
      (∀ e, calls.measureAfter = .error e → outcome.shape = s.shape) ∧
      (∀ after e, Cleared policy s calls answeredHeld previous before after outcome →
        calls.rescan = .error e → outcome.shape = s.shape) ∧
      ∀ after scan rescanComplete,
        Cleared policy s calls answeredHeld previous before after outcome →
          calls.rescan = .ok (scan, rescanComplete) →
            progressRefusal op.name outcome.toOutcome targets code
                (judgedFindings op code previous) (judgedFindings op code scan) = none →
              ¬ Outnumbered (judgedFindings op code previous) (judgedFindings op code scan) := by
  constructor
  · intro hwhole
    exact ⟨fun e => hwhole.measured _ _ _ _ e h,
      fun after e hcleared => hwhole.rescanned _ _ _ _ after e h hcleared,
      fun after scan rc hcleared => hwhole.judged _ _ _ _ after scan rc h hcleared⟩
  · rintro ⟨hmeasured, hrescanned, hjudged⟩
    refine ⟨?_, ?_, ?_⟩
    · intro previous' complete' before' outcome' e h'
      obtain ⟨rfl, rfl, rfl, rfl⟩ := reaches_unique h h'
      exact hmeasured e
    · intro previous' complete' before' outcome' after e h'
      obtain ⟨rfl, rfl, rfl, rfl⟩ := reaches_unique h h'
      exact hrescanned after e
    · intro previous' complete' before' outcome' after scan rc h'
      obtain ⟨rfl, rfl, rfl, rfl⟩ := reaches_unique h h'
      exact hjudged after scan rc

omit [DecidableLE K] in
lemma allOrNothing_of_spared {result : RepairSession Shape K × Except String OpVerdict}
    (h : Spared calls.firstScan s result) :
    AllOrNothing policy s calls op targets code answeredHeld result :=
  ⟨fun _ _ => h.untouched, fun _ _ _ => h.untouched,
    fun v hv hkept => absurd hkept (h.missed v hv)⟩

omit [DecidableLE K] in
/-- An attempt that raised with another shape in its place: it is all or nothing only where the shape is
the same one. -/
lemma allOrNothing_raised_iff
    (h : Reaches s calls targets code previous complete before outcome) (e : String) :
    AllOrNothing policy s calls op targets code answeredHeld
        ({ s with shape := outcome.shape, defects := some previous, completeScan := complete },
          .error e) ↔ outcome.shape = s.shape := by
  constructor
  · intro hall
    exact (hall.raised e rfl).shape
  · intro hshape
    have htouched : s.Untouched calls.firstScan
        { s with shape := outcome.shape, defects := some previous, completeScan := complete } :=
      ⟨hshape, h.listed.symm, rfl⟩
    exact allOrNothing_of_spared (spared_error htouched e)

/-- An attempt is all or nothing exactly when no call fails on a shape that an operation has replaced, and
the errors at known names and places do not outgrow the errors before. -/
theorem attempt_all_or_nothing_iff (policy : CapPolicy K) (s : RepairSession Shape K)
    (calls : Calls Shape K) (op : RepairOp) (targets : List EntityRef) (code : DefectCode)
    (answeredHeld : List String) :
    AllOrNothing policy s calls op targets code answeredHeld
        (s.tryOp policy calls op targets code answeredHeld) ↔
      Whole policy s calls op targets code answeredHeld := by
  by_cases hreach : ∃ previous complete before outcome,
      Reaches s calls targets code previous complete before outcome
  · obtain ⟨previous, complete, before, outcome, h⟩ := hreach
    have hcleared : ∀ after,
        Cleared policy { s with defects := some previous, completeScan := complete } calls
            answeredHeld previous before after outcome ↔
          Cleared policy s calls answeredHeld previous before after outcome := by
      intro after
      exact ⟨fun h => ⟨h.measured, h.held, h.caps, h.performed⟩,
        fun h => ⟨h.measured, h.held, h.caps, h.performed⟩⟩
    rw [tryOp_of_reaches h, whole_iff_of_reaches h]
    have hjudged := judgeOutcome_judged policy
      { s with defects := some previous, completeScan := complete } previous calls op targets code
      answeredHeld before outcome
    generalize RepairSession.judgeOutcome policy _ previous calls op targets code answeredHeld before
      outcome = result at hjudged ⊢
    cases hjudged with
    | unmeasured e hafter =>
      rw [allOrNothing_raised_iff h]
      refine ⟨fun hshape => ⟨fun _ _ => hshape, fun _ _ _ _ => hshape, ?_⟩, fun hw => hw.1 e hafter⟩
      intro after scan rc hcl
      simp [hcl.measured] at hafter
    | rolledBack after hafter v hv hwhy =>
      have hspared := spared_miss (untouched_scanned h.listed) v outcome.declared hv
      refine ⟨fun _ => ⟨?_, ?_, ?_⟩, fun _ => allOrNothing_of_spared hspared⟩
      · intro e he
        simp [hafter] at he
      · intro after' e hcl he
        obtain rfl := Except.ok.inj (hafter.symm.trans hcl.measured)
        obtain ⟨scan, rc, hscan, -⟩ := hwhy ((hcleared after).mpr hcl)
        simp [hscan] at he
      · intro after' scan rc hcl hscan hprogress
        obtain rfl := Except.ok.inj (hafter.symm.trans hcl.measured)
        obtain ⟨scan', rc', hscan', hrefused⟩ := hwhy ((hcleared after).mpr hcl)
        obtain ⟨rfl, rfl⟩ := Prod.mk.inj (Except.ok.inj (hscan.symm.trans hscan'))
        exact absurd hprogress hrefused
    | unscanned after e hcl hscan =>
      rw [allOrNothing_raised_iff h]
      refine ⟨fun hshape => ⟨fun _ _ => hshape, fun _ _ _ _ => hshape, ?_⟩,
        fun hw => hw.2.1 after e ((hcleared after).mp hcl) hscan⟩
      intro after' scan rc _ hok
      simp [hscan] at hok
    | kept after scan rc v hv hcl hscan hprogress =>
      have hcl := (hcleared after).mp hcl
      have hlog : Accounting.of (s.log ++ [⟨v, outcome.declared⟩]) =
          s.accounting.plus outcome.declared := by
        simp [s.accounted, Accounting.of, hv]
      have hsound := keptSound_iff hlog rfl hcl hprogress
      constructor
      · intro hall
        obtain ⟨previous', complete', outcome', after', scan', rc', hlisted, happly, hafter, hscan',
          hsound'⟩ := hall.kept v rfl hv
        obtain ⟨rfl, rfl⟩ := Prod.mk.inj (Except.ok.inj (h.listed.symm.trans hlisted))
        obtain rfl := Except.ok.inj (h.applied.symm.trans happly)
        obtain rfl := Except.ok.inj (hcl.measured.symm.trans hafter)
        obtain ⟨rfl, rfl⟩ := Prod.mk.inj (Except.ok.inj (hscan.symm.trans hscan'))
        refine ⟨fun e he => ?_, fun _ e _ he => ?_, ?_⟩
        · simp [hcl.measured] at he
        · simp [hscan] at he
        · intro after' scan' rc' _ hscan' _
          obtain ⟨rfl, rfl⟩ := Prod.mk.inj (Except.ok.inj (hscan.symm.trans hscan'))
          exact hsound.mp hsound'
      · rintro ⟨-, -, hfew⟩
        have hkept : ∀ w, Except.ok v = (Except.ok w : Except String OpVerdict) → w.status = .kept := by
          rintro w ⟨⟩
          exact hv
        refine ⟨?_, fun w hw hmiss => absurd (hkept w hw) hmiss, fun w _ _ => ?_⟩
        · rintro e ⟨⟩
        · exact ⟨previous, complete, outcome, after, scan, rc, h.listed, h.applied, hcl.measured,
            hscan, hsound.mpr (hfew after scan rc hcl hscan hprogress)⟩
  · have hspared : Spared calls.firstScan s (s.tryOp policy calls op targets code answeredHeld) := by
      refine tryOp_of_not_reaches fun previous complete before outcome h => ?_
      exact hreach ⟨previous, complete, before, outcome, h⟩
    refine ⟨fun _ => ⟨?_, ?_, ?_⟩, fun _ => allOrNothing_of_spared hspared⟩
    · exact fun _ _ _ _ _ h => absurd ⟨_, _, _, _, h⟩ hreach
    · exact fun _ _ _ _ _ _ h => absurd ⟨_, _, _, _, h⟩ hreach
    · exact fun _ _ _ _ _ _ _ h => absurd ⟨_, _, _, _, h⟩ hreach

def exactCaps : CapPolicy Int := ⟨false, 1, 0, 0, 0, fun _ => true, fun _ => "the caps refuse it"⟩

/-- A small edge, on the first of two shapes. -/
def edgeSession : RepairSession Nat Int :=
  ⟨⟨true, 1, 6, 10, 0, 100, 100⟩, 0,
    some [⟨.smallEdge, .error, .edge, 3, "edge-3", false, [], [], [], false, none⟩],
    true, .zero, [], [], rfl⟩

/-- The operation returns the second shape, and its measurement raises. -/
def unmeasurable : Calls Nat Int :=
  ⟨.error "not asked", .ok edgeSession.original,
    .ok ⟨⟨1, [], [], [], none, []⟩, 0, ⟨0, 0⟩⟩, .error "Standard_Failure", .ok ([], true)⟩

/-- The measurement of the new shape raises, and the session holds it with the defects of the old. -/
theorem unmeasured_shape_stays :
    ¬ AllOrNothing exactCaps edgeSession unmeasurable fixSmallEdges [⟨.edge, "edge-3", 3, false⟩]
      .smallEdge [] (edgeSession.tryOp exactCaps unmeasurable fixSmallEdges
        [⟨.edge, "edge-3", 3, false⟩] .smallEdge []) := by
  intro h
  have hshape := (h.raised "Standard_Failure" rfl).shape
  exact absurd hshape (by decide)

end MeshPipeline.CadRepair
