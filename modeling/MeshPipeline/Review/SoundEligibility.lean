import MeshPipeline.Review.Eligibility

/-!
# What an accepted submission rests on, and when one exists

An accepted submission is sound by the record that stands for each key, the first usable one. Over
complete evidence a submission can be accepted exactly when every axis has something to cite, and
something on file grounds a defect wherever something stands against a pass.
-/

namespace MeshPipeline.Review

namespace ReviewCase

variable (c : ReviewCase)

/-- Nothing that is required lacks usable evidence, and nothing else is open. -/
structure Complete : Prop where
  gates : ∀ key ∈ c.plan.gateKeys, (c.ledger.usableGate key).isSome
  metrics : ∀ key ∈ c.plan.metricKeys,
    advisoryGap c.ledger key = true ∨ (c.ledger.usableMetric key).isSome
  views : ∀ viewId ∈ c.plan.viewIds, (c.ledger.usableView viewId).isSome
  targets : ∀ ref ∈ c.plan.exactRefs, (c.ledger.usableInspectionOfTarget ref).isSome
  kinds : c.obligations = none →
    ∀ kind ∈ c.plan.wildcardKinds, c.ledger.usableInspectionsOfKind kind ≠ []
  obligations : ∀ os ∈ c.obligations, ∀ o ∈ os, checkObligation c.ledger o = []
  conflicts : c.ledger.unresolvedConflicts = []
  lifecycle : c.lifecycleOk = true

/-- Every axis has something to cite, and where something stands against a pass, an axis can fail on
something on file. -/
def CanConclude : Prop :=
  (c.plan.axes ≠ [] → ∃ r ∈ c.ledger.records, r.usable = true) ∧
    (objectiveDefects c.plan c.ledger ≠ [] →
      c.plan.axes ≠ [] ∧ ∃ r ∈ c.ledger.records, r.usable = true ∧ groundsADefect r = true)

/-- What acceptance promises of the findings. -/
structure AcceptedSoundly (findings : List AxisFinding) : Prop where
  oneEach : ∀ ax ∈ c.plan.axes, findings.countP (·.axisKey = ax.name) = 1
  cited : ∀ f ∈ findings, ∀ id ∈ f.evidenceIds,
    ∃ r, c.ledger.get id = some r ∧ r.usable = true
  passes : (c.evaluate findings).verdict = some .passed →
    (∀ key ∈ c.plan.gateKeys, ∀ g ∈ c.ledger.usableGate key, g.status = .PASS) ∧
      ∀ key ∈ c.plan.metricKeys, ∀ m ∈ c.ledger.usableMetric key, m.gating = true →
        m.status ≠ .FAIL ∧ m.acceptable ≠ some false
  fails : (c.evaluate findings).verdict = some .failed →
    (∃ f ∈ findings, f.passed = false) ∧ ∀ f ∈ findings, f.passed = false →
      ∃ id ∈ f.evidenceIds, ∃ r, c.ledger.get id = some r ∧ r.usable = true ∧
        groundsADefect r = true

end ReviewCase

variable {c : ReviewCase} {l : EvidenceLedger} {plan : AssurancePlan} {f : AxisFinding}
  {findings : List AxisFinding} {kinds : Option (List TargetKind)} {ax : ReviewAxis}
  {req : Requirement} {name : String}

/-! ## The axes by name -/

lemma mem_axesByName {e : String × ReviewAxis} (h : e ∈ plan.axesByName) :
    e.2 ∈ plan.axes ∧ e.2.name = e.1 := by
  obtain ⟨ax, hax, rfl⟩ := List.mem_map.mp (Assoc.mem_of_mem_ofPairs h)
  exact ⟨hax, rfl⟩

lemma exists_axesByName (h : ax ∈ plan.axes) : ∃ e ∈ plan.axesByName, e.1 = ax.name := by
  have hkey : ax.name ∈ plan.axesByName.map (·.1) := by
    rw [AssurancePlan.axesByName, Assoc.mem_keys_ofPairs, List.map_map]
    exact List.mem_map.mpr ⟨ax, h, rfl⟩
  simpa using hkey

lemma lookup_axesByName {e : String × ReviewAxis} (h : e ∈ plan.axesByName) :
    plan.axesByName.lookup e.1 = some e.2 :=
  Assoc.lookup_of_mem (Assoc.nodup_ofPairs _) h

lemma mem_of_lookup (h : plan.axesByName.lookup name = some ax) : ax ∈ plan.axes ∧ ax.name = name :=
  mem_axesByName (e := (name, ax)) (Assoc.mem_of_lookup h)

/-! ## The reasons -/

lemma reasons_eq_nil : c.reasons findings = [] ↔
    c.coverageReasons findings = [] ∧ c.findingReasons findings = [] ∧
      evidencePresenceReasons c.plan c.ledger c.obligations = [] ∧
      c.groundingReasons findings = [] ∧
      (c.failedAxes findings = [] → objectiveDefects c.plan c.ledger = []) ∧
      c.ledger.unresolvedConflicts = [] ∧ c.lifecycleOk = true := by
  simp only [ReviewCase.reasons, List.append_eq_nil_iff, List.map_eq_nil_iff, and_assoc,
    ite_eq_right_iff, ite_eq_left_iff]
  simp

lemma accepted_iff : (c.evaluate findings).accepted = true ↔ c.reasons findings = [] := by
  unfold ReviewCase.evaluate EligibilityDecision.accepted
  grind

lemma coverage_iff : c.coverageReasons findings = [] ↔
    ∀ e ∈ c.plan.axesByName, findings.countP (·.axisKey = e.1) = 1 := by
  simp only [ReviewCase.coverageReasons, List.filterMap_eq_nil_iff]
  refine forall₂_congr fun e _ => ?_
  grind

lemma usable_of_citation {id : String} {r : LedgerRecord} (h : citation l id = .ok r) :
    l.get id = some r ∧ r.usable = true := by
  unfold citation at h
  split at h
  · cases h
  · split at h
    · next hget husable =>
      cases h
      exact ⟨hget, husable⟩
    · cases h

lemma cited_of_no_problems (h : (usableCitations f l).2 = []) :
    ∀ id ∈ f.evidenceIds, ∃ r, l.get id = some r ∧ r.usable = true := by
  intro id hid
  have hnone := List.filterMap_eq_nil_iff.mp h id hid
  cases hcited : citation l id with
  | error problem => simp [hcited] at hnone
  | ok r => exact ⟨r, usable_of_citation hcited⟩

lemma mem_usableCitations {r : LedgerRecord} (h : r ∈ (usableCitations f l).1) :
    ∃ id ∈ f.evidenceIds, l.get id = some r ∧ r.usable = true := by
  obtain ⟨id, hid, hr⟩ := List.mem_filterMap.mp h
  cases hcited : citation l id with
  | error problem => simp [hcited, Except.toOption] at hr
  | ok s =>
    obtain rfl : s = r := by simpa [hcited, Except.toOption] using hr
    exact ⟨id, hid, usable_of_citation hcited⟩

/-- A suitable finding cites something, everything it cites is usable, and its axis has what it
demands. -/
lemma axisFindingProblem_eq_none : axisFindingProblem l kinds ax f = none ↔
    Text.strip f.finding ≠ "" ∧ (usableCitations f l).2 = [] ∧ (usableCitations f l).1 ≠ [] ∧
      ∀ req ∈ ax.requires, demanded l kinds req = true →
        citationSatisfies req (usableCitations f l).1 = true := by
  unfold axisFindingProblem
  dsimp only
  split
  · simp_all
  split
  · simp_all
  split
  · simp_all
  · simp_all [List.find?_eq_none]

lemma findingReasons_iff : c.findingReasons findings = [] ↔
    ∀ f ∈ findings, ∃ ax, c.plan.axesByName.lookup f.axisKey = some ax ∧
      axisFindingProblem c.ledger c.obligatedKinds ax f = none := by
  simp only [ReviewCase.findingReasons, List.filterMap_eq_nil_iff]
  refine forall₂_congr fun f _ => ?_
  cases c.plan.axesByName.lookup f.axisKey <;> simp

lemma groundingReasons_iff : c.groundingReasons findings = [] ↔
    ∀ f ∈ c.failedAxes findings, defectGrounded f c.ledger = true := by
  simp [ReviewCase.groundingReasons, List.filter_eq_nil_iff]

lemma objectiveDefects_iff : objectiveDefects plan l = [] ↔
    (∀ key ∈ plan.gateKeys, ∀ g ∈ l.usableGate key, g.status = .PASS) ∧
      ∀ key ∈ plan.metricKeys, ∀ m ∈ l.usableMetric key, m.gating = true →
        m.status ≠ .FAIL ∧ m.acceptable ≠ some false := by
  simp only [objectiveDefects, List.append_eq_nil_iff, List.map_eq_nil_iff, List.filter_eq_nil_iff]
  refine and_congr (forall₂_congr fun key _ => ?_) (forall₂_congr fun key _ => ?_)
  · cases l.usableGate key <;> simp [HardGateEvidence.passed]
  · cases l.usableMetric key <;> simp

/-! ## What acceptance promises -/

/-- In an accepted submission every finding is for an axis, so the failed findings fail an axis. -/
lemma failedAxes_of_known (h : c.findingReasons findings = []) :
    c.failedAxes findings = findings.filter fun f => !f.passed := by
  refine List.filter_congr fun f hf => ?_
  obtain ⟨ax, hlookup, -⟩ := findingReasons_iff.mp h f hf
  simp [hlookup]

theorem acceptedSoundly (h : (c.evaluate findings).accepted = true) :
    c.AcceptedSoundly findings := by
  have hreasons := accepted_iff.mp h
  obtain ⟨hcoverage, hfindings, -, hgrounding, hdefects, -⟩ := reasons_eq_nil.mp hreasons
  have hverdict : (c.evaluate findings).verdict =
      if c.failedAxes findings ≠ [] then some .failed else some .passed := by
    simp only [ReviewCase.evaluate, hreasons, ne_eq, not_true_eq_false, if_false]
    split <;> rfl
  constructor
  · intro ax hax
    obtain ⟨e, he, hname⟩ := exists_axesByName hax
    rw [← hname]
    exact coverage_iff.mp hcoverage e he
  · intro f hf
    obtain ⟨ax, -, hsuitable⟩ := findingReasons_iff.mp hfindings f hf
    exact cited_of_no_problems (axisFindingProblem_eq_none.mp hsuitable).2.1
  · intro hpassed
    refine objectiveDefects_iff.mp (hdefects ?_)
    by_contra hfailed
    rw [hverdict, if_pos hfailed] at hpassed
    cases hpassed
  · intro hfailed
    have hsome : c.failedAxes findings ≠ [] := by
      rintro hnone
      rw [hverdict, if_neg (by simpa using hnone)] at hfailed
      cases hfailed
    rw [failedAxes_of_known hfindings] at hsome
    have hgrounded := groundingReasons_iff.mp hgrounding
    rw [failedAxes_of_known hfindings] at hgrounded
    constructor
    · obtain ⟨f, hf⟩ := List.exists_mem_of_ne_nil _ hsome
      simp only [List.mem_filter, Bool.not_eq_true'] at hf
      exact ⟨f, hf⟩
    · intro f hf hnot
      have hground := hgrounded f (List.mem_filter.mpr ⟨hf, by simpa using hnot⟩)
      simp only [defectGrounded, Bool.and_eq_true, List.any_eq_true] at hground
      obtain ⟨-, r, hr, hdefect⟩ := hground
      obtain ⟨id, hid, hget, husable⟩ := mem_usableCitations hr
      exact ⟨id, hid, r, hget, husable, hdefect⟩

/-! ## The submission that cites everything -/

lemma of_usableGate {key : String} {g : HardGateEvidence} (h : l.usableGate key = some g) :
    .gate g ∈ l.records ∧ g.gateKey = key ∧ g.usable = true := by
  have hkey := List.find?_some h
  simp only [Bool.and_eq_true, decide_eq_true_eq] at hkey
  exact ⟨EvidenceLedger.mem_gates.mp (List.mem_of_find?_eq_some h), hkey⟩

lemma of_usableMetric {key : String} {m : MetricEvidence} (h : l.usableMetric key = some m) :
    .metric m ∈ l.records ∧ m.metricKey = key ∧ m.usable = true := by
  have hkey := List.find?_some h
  simp only [Bool.and_eq_true, decide_eq_true_eq] at hkey
  exact ⟨EvidenceLedger.mem_metrics.mp (List.mem_of_find?_eq_some h), hkey⟩

lemma of_usableView {viewId : String} {v : RenderViewEvidence}
    (h : l.usableView viewId = some v) :
    .view v ∈ l.records ∧ v.viewId = viewId ∧ v.usable = true := by
  have hkey := List.find?_some h
  simp only [Bool.and_eq_true, decide_eq_true_eq] at hkey
  exact ⟨EvidenceLedger.mem_renderViews.mp (List.mem_of_find?_eq_some h), hkey⟩

lemma of_usableInspectionOfTarget {ref : InspectionTargetRef} {t : TargetInspectionEvidence}
    (h : l.usableInspectionOfTarget ref = some t) :
    .inspection t ∈ l.records ∧ t.usable = true ∧ t.target = ref := by
  have hkey := List.find?_some h
  simp only [Bool.and_eq_true, decide_eq_true_eq] at hkey
  exact ⟨EvidenceLedger.mem_targetInspections.mp (List.mem_of_find?_eq_some h), hkey⟩

lemma of_usableInspectionsOfKind {kind : TargetKind} (h : l.usableInspectionsOfKind kind ≠ []) :
    ∃ t, .inspection t ∈ l.records ∧ t.usable = true ∧ t.target.kind = kind := by
  obtain ⟨t, ht⟩ := List.exists_mem_of_ne_nil _ h
  simp only [EvidenceLedger.usableInspectionsOfKind, List.mem_filter, Bool.and_eq_true,
    decide_eq_true_eq] at ht
  exact ⟨t, EvidenceLedger.mem_targetInspections.mp ht.1, ht.2⟩

/-- An obligation that nothing stands against has an inspection of its kind. -/
lemma kind_of_obligation {o : TargetObligation} (h : checkObligation l o = []) :
    l.usableInspectionsOfKind o.kind ≠ [] := by
  unfold checkObligation at h
  dsimp only at h
  split at h
  · next hexact =>
    obtain ⟨tid, htid⟩ := List.exists_mem_of_ne_nil _ hexact
    have hsome := List.filterMap_eq_nil_iff.mp h tid htid
    obtain ⟨t, ht⟩ : ∃ t, l.usableInspectionOfTarget ⟨o.kind, tid⟩ = some t := by
      rw [← Option.isSome_iff_exists]
      cases hfind : l.usableInspectionOfTarget ⟨o.kind, tid⟩ <;> simp_all
    obtain ⟨hmem, husable, htarget⟩ := of_usableInspectionOfTarget ht
    refine List.ne_nil_of_mem (a := t) (List.mem_filter.mpr
      ⟨EvidenceLedger.mem_targetInspections.mpr hmem, ?_⟩)
    simp [husable, htarget]
  · split at h
    · cases h
    · rintro hnil
      simp_all

/-- Over complete evidence an axis finds all that it demands among the usable records. -/
theorem satisfies_of_complete (h : c.Complete) (hreq : req ∈ c.plan.requirements)
    (hdemanded : demanded c.ledger c.obligatedKinds req = true) :
    citationSatisfies req (c.ledger.records.filter (·.usable)) = true := by
  have hcite {r : LedgerRecord} (hr : r ∈ c.ledger.records) (husable : r.usable = true) :
      r ∈ c.ledger.records.filter (·.usable) := List.mem_filter.mpr ⟨hr, husable⟩
  have hkind {kind : TargetKind} (hwild : kind ∈ c.plan.wildcardKinds)
      (happlies : ∀ kinds ∈ c.obligatedKinds, kind ∈ kinds) :
      c.ledger.usableInspectionsOfKind kind ≠ [] := by
    cases hobligations : c.obligations with
    | none => exact h.kinds hobligations kind hwild
    | some os =>
      obtain ⟨o, ho, rfl⟩ := List.mem_map.mp
        (happlies (os.map (·.kind)) (by simp [ReviewCase.obligatedKinds, hobligations]))
      exact kind_of_obligation (h.obligations os hobligations o ho)
  simp only [demanded, Bool.and_eq_true] at hdemanded
  obtain ⟨happlies, hgap⟩ := hdemanded
  rw [citationSatisfies, List.any_eq_true]
  cases req with
  | hardGate key =>
    obtain ⟨g, hg⟩ := Option.isSome_iff_exists.mp (h.gates key (by
      simpa [AssurancePlan.gateKeys] using .inr ⟨_, hreq, rfl⟩))
    obtain ⟨hmem, hkey, husable⟩ := of_usableGate hg
    exact ⟨_, hcite hmem husable, by simpa using hkey⟩
  | metric key =>
    have hmetric := h.metrics key (by
      simpa [AssurancePlan.metricKeys] using .inr ⟨_, hreq, rfl⟩)
    obtain ⟨m, hm⟩ := Option.isSome_iff_exists.mp (hmetric.resolve_left (by simpa using hgap))
    obtain ⟨hmem, hkey, husable⟩ := of_usableMetric hm
    exact ⟨_, hcite hmem husable, by simpa using hkey⟩
  | renderView viewId =>
    obtain ⟨v, hv⟩ := Option.isSome_iff_exists.mp (h.views viewId (by
      simpa [AssurancePlan.viewIds] using ⟨_, hreq, rfl⟩))
    obtain ⟨hmem, hkey, husable⟩ := of_usableView hv
    exact ⟨_, hcite hmem husable, by simpa using hkey⟩
  | renderTarget kind selector =>
    cases hwild : isWildcard selector with
    | true =>
      have hrequired : kind ∈ c.plan.wildcardKinds :=
        List.mem_append_left _ (List.mem_filterMap.mpr ⟨_, hreq, by simp [hwild]⟩)
      obtain ⟨t, hmem, husable, hsame⟩ := of_usableInspectionsOfKind (hkind hrequired (by
        intro kinds hkinds
        simpa [reqApplicable, Option.mem_def.mp hkinds] using happlies))
      exact ⟨_, hcite hmem husable, by simp [hsame, hwild]⟩
    | false =>
      obtain ⟨t, ht⟩ := Option.isSome_iff_exists.mp (h.targets ⟨kind, selector⟩
        (List.mem_append_left _ (List.mem_filterMap.mpr ⟨_, hreq, by simp [hwild]⟩)))
      obtain ⟨hmem, husable, htarget⟩ := of_usableInspectionOfTarget ht
      exact ⟨_, hcite hmem husable, by simp [htarget]⟩
  | spatialInspection kind =>
    have hrequired : kind ∈ c.plan.wildcardKinds :=
      List.mem_append_left _ (List.mem_filterMap.mpr ⟨_, hreq, rfl⟩)
    obtain ⟨t, hmem, husable, hsame⟩ := of_usableInspectionsOfKind (hkind hrequired (by
      intro kinds hkinds
      simpa [reqApplicable, Option.mem_def.mp hkinds] using happlies))
    exact ⟨_, hcite hmem husable, by simpa using hsame⟩

/-- For each axis one finding, passed or not, that cites every usable record. -/
def everything (c : ReviewCase) (passed : Bool) : List AxisFinding :=
  c.plan.axesByName.map fun e =>
    ⟨e.1, "seen", (c.ledger.records.filter (·.usable)).map (·.evidenceId), passed⟩

lemma usableCitations_everything {passed : Bool} (h : f ∈ everything c passed) :
    usableCitations f c.ledger = (c.ledger.records.filter (·.usable), []) := by
  obtain ⟨e, -, rfl⟩ := List.mem_map.mp h
  have hcited : ∀ r ∈ c.ledger.records.filter (·.usable),
      citation c.ledger r.evidenceId = .ok r := by
    intro r hr
    obtain ⟨hr, husable⟩ := List.mem_filter.mp hr
    simp [citation, EvidenceLedger.get_evidenceId hr, husable]
  refine Prod.ext ?_ ?_
  · simp only [usableCitations, List.filterMap_map]
    refine (List.filterMap_congr fun r hr => ?_).trans (List.filterMap_some)
    simp [hcited r hr, Except.toOption]
  · simp only [usableCitations, List.filterMap_map, List.filterMap_eq_nil_iff]
    intro r hr
    simp [hcited r hr]

lemma passed_of_mem_everything {passed : Bool} (h : f ∈ everything c passed) :
    f.passed = passed := by
  obtain ⟨e, -, rfl⟩ := List.mem_map.mp h
  rfl

lemma countP_everything (passed : Bool) {e : String × ReviewAxis} (h : e ∈ c.plan.axesByName) :
    (everything c passed).countP (·.axisKey = e.1) = 1 := by
  rw [everything, List.countP_map]
  have hcount : (c.plan.axesByName.map (·.1)).count e.1 = 1 :=
    List.count_eq_one_of_mem (Assoc.nodup_ofPairs _) (List.mem_map_of_mem h)
  rw [List.count, List.countP_map] at hcount
  refine (List.countP_congr fun e' _ => ?_).trans hcount
  simp

lemma presence_of_complete (h : c.Complete) :
    evidencePresenceReasons c.plan c.ledger c.obligations = [] := by
  have htargets : ∀ ref ∈ c.plan.exactTargets, (c.ledger.usableInspectionOfTarget ref).isSome := by
    intro ref href
    obtain ⟨e, he, rfl⟩ := List.mem_map.mp href
    obtain ⟨ref, hmem, rfl⟩ := List.mem_map.mp (Assoc.mem_of_mem_ofPairs he)
    exact h.targets ref hmem
  simp only [evidencePresenceReasons, List.append_eq_nil_iff, List.map_eq_nil_iff,
    List.filter_eq_nil_iff, Option.isNone_iff_eq_none, and_assoc]
  refine ⟨fun key hkey => ?_, fun key hkey => ?_, fun viewId hview => ?_, fun ref href => ?_, ?_⟩
  · exact Option.ne_none_iff_isSome.mpr (h.gates key hkey)
  · obtain ⟨hkey, hgap⟩ := List.mem_filter.mp hkey
    exact Option.ne_none_iff_isSome.mpr ((h.metrics key hkey).resolve_left (by simpa using hgap))
  · exact Option.ne_none_iff_isSome.mpr (h.views viewId hview)
  · exact Option.ne_none_iff_isSome.mpr (htargets ref href)
  · cases hobligations : c.obligations with
    | none =>
      simp only [List.map_eq_nil_iff, List.filter_eq_nil_iff, Buckets.mem_sortBy, List.mem_dedup]
      intro kind hkind
      simpa using h.kinds hobligations kind hkind
    | some os =>
      simp only [List.flatMap_eq_nil_iff]
      exact h.obligations os hobligations

/-- Over complete evidence, the findings that cite everything are suitable. -/
lemma suitable_everything (h : c.Complete) (passed : Bool)
    (hcite : c.plan.axes ≠ [] → ∃ r ∈ c.ledger.records, r.usable = true) :
    c.findingReasons (everything c passed) = [] := by
  rw [findingReasons_iff]
  intro f hf
  have hcitations := usableCitations_everything hf
  obtain ⟨e, he, rfl⟩ := List.mem_map.mp hf
  obtain ⟨hax, -⟩ := mem_axesByName he
  refine ⟨e.2, lookup_axesByName he, axisFindingProblem_eq_none.mpr ⟨?_, ?_, ?_, ?_⟩⟩
  · exact show Text.strip "seen" ≠ "" by decide
  · rw [hcitations]
  · obtain ⟨r, hr, husable⟩ := hcite (List.ne_nil_of_mem hax)
    rw [hcitations]
    exact List.ne_nil_of_mem (List.mem_filter.mpr ⟨hr, husable⟩)
  · intro req hreq hdemanded
    rw [hcitations]
    exact satisfies_of_complete h (List.mem_flatMap.mpr ⟨e.2, hax, hreq⟩) hdemanded

/-- A submission that is accepted shows that the review can conclude. -/
theorem canConclude_of_accepted (h : (c.evaluate findings).accepted = true) : c.CanConclude := by
  obtain ⟨hcoverage, hfindings, -, hgrounding, hdefects, -⟩ := reasons_eq_nil.mp (accepted_iff.mp h)
  have hcitedBy : ∀ f ∈ findings, ∃ r ∈ (usableCitations f c.ledger).1, r ∈ c.ledger.records ∧
      r.usable = true := by
    intro f hf
    obtain ⟨ax, -, hsuitable⟩ := findingReasons_iff.mp hfindings f hf
    obtain ⟨r, hr⟩ := List.exists_mem_of_ne_nil _ (axisFindingProblem_eq_none.mp hsuitable).2.2.1
    obtain ⟨id, -, hget, husable⟩ := mem_usableCitations hr
    exact ⟨r, hr, EvidenceLedger.mem_of_get hget, husable⟩
  constructor
  · intro haxes
    obtain ⟨ax, hax⟩ := List.exists_mem_of_ne_nil _ haxes
    have hone := (acceptedSoundly h).oneEach ax hax
    obtain ⟨f, hf, -⟩ := List.countP_pos_iff.mp (hone ▸ Nat.one_pos)
    obtain ⟨r, -, hr, husable⟩ := hcitedBy f hf
    exact ⟨r, hr, husable⟩
  · intro hstands
    have hsome : c.failedAxes findings ≠ [] := fun hnone => hstands (hdefects hnone)
    obtain ⟨f, hf⟩ := List.exists_mem_of_ne_nil _ hsome
    have hground := groundingReasons_iff.mp hgrounding f hf
    simp only [defectGrounded, Bool.and_eq_true, List.any_eq_true] at hground
    obtain ⟨-, r, hr, hdefect⟩ := hground
    obtain ⟨id, -, hget, husable⟩ := mem_usableCitations hr
    refine ⟨?_, r, EvidenceLedger.mem_of_get hget, husable, hdefect⟩
    obtain ⟨ax, hlookup, -⟩ := findingReasons_iff.mp hfindings f (List.mem_of_mem_filter hf)
    exact List.ne_nil_of_mem (mem_of_lookup hlookup).1

/-- Over complete evidence, a review that can conclude has a submission that is accepted. -/
theorem exists_accepted (h : c.Complete) (hcan : c.CanConclude) :
    ∃ findings, (c.evaluate findings).accepted = true := by
  by_cases hstands : objectiveDefects c.plan c.ledger = []
  · refine ⟨everything c true, accepted_iff.mpr (reasons_eq_nil.mpr ⟨coverage_iff.mpr fun e he =>
      countP_everything true he, suitable_everything h true hcan.1, presence_of_complete h, ?_,
      fun _ => hstands, h.conflicts, h.lifecycle⟩)⟩
    rw [groundingReasons_iff, failedAxes_of_known (suitable_everything h true hcan.1)]
    intro f hf
    obtain ⟨hf, hnot⟩ := List.mem_filter.mp hf
    simp [passed_of_mem_everything hf] at hnot
  · obtain ⟨haxes, r, hr, husable, hdefect⟩ := hcan.2 hstands
    have hknown := suitable_everything h false hcan.1
    refine ⟨everything c false, accepted_iff.mpr (reasons_eq_nil.mpr ⟨coverage_iff.mpr fun e he =>
      countP_everything false he, hknown, presence_of_complete h, ?_, ?_, h.conflicts,
      h.lifecycle⟩)⟩
    · rw [groundingReasons_iff]
      intro f hf
      rw [defectGrounded, usableCitations_everything (List.mem_of_mem_filter hf)]
      simpa using ⟨r, hr, husable, hdefect⟩
    · -- every axis fails, so nothing has to be free of defects
      intro hnone
      obtain ⟨ax, hax⟩ := List.exists_mem_of_ne_nil _ haxes
      obtain ⟨e, he, -⟩ := exists_axesByName hax
      rw [failedAxes_of_known hknown, List.filter_eq_nil_iff] at hnone
      exact absurd rfl (hnone _ (List.mem_map_of_mem he))

/-- An accepted submission is sound, and over complete evidence one exists exactly when the review
can conclude. -/
theorem eligibility_sound_and_open (c : ReviewCase) :
    (∀ findings, (c.evaluate findings).accepted = true → c.AcceptedSoundly findings) ∧
      (c.Complete → ((∃ findings, (c.evaluate findings).accepted = true) ↔ c.CanConclude)) :=
  ⟨fun _ => acceptedSoundly,
    fun h => ⟨fun ⟨_, haccepted⟩ => canConclude_of_accepted haccepted, exists_accepted h⟩⟩

/-- A review of one axis with one requirement. -/
def oneAxis (req : Requirement) (ledger : EvidenceLedger) : ReviewCase where
  plan := ⟨[⟨"cells", [req]⟩], [], [], []⟩
  ledger := ledger
  obligations := none
  lifecycleOk := true

def passedGate : EvidenceLedger where
  records := [.gate ⟨"g-001", "rc", .PASS⟩]
  counters := [("g", 1)]
  conflicts := []
  unique := by decide

theorem eligibility_of_passed_gate :
    (oneAxis (.hardGate "rc") passedGate).AcceptedSoundly
        [⟨"cells", "closed", ["g-001"], true⟩] ∧
      ∃ findings, ((oneAxis (.hardGate "rc") passedGate).evaluate findings).accepted = true := by
  have hcomplete : (oneAxis (.hardGate "rc") passedGate).Complete := by
    constructor
    · decide +kernel
    · decide +kernel
    · decide +kernel
    · decide +kernel
    · decide +kernel
    · exact fun os hos => by cases hos
    · rfl
    · rfl
  exact ⟨(eligibility_sound_and_open _).1 _ (by decide +kernel),
    ((eligibility_sound_and_open _).2 hcomplete).mpr
      ⟨fun _ => ⟨_, List.mem_singleton_self _, rfl⟩, fun hstands => absurd rfl hstands⟩⟩

/-! ## Behind the first record -/

/-- The ledger holds a failed required gate, or a required metric that gates and is not
acceptable, whether or not it is the first record of its key. -/
def HoldsFailure (c : ReviewCase) : Prop :=
  (∃ g ∈ c.ledger.gates, g.gateKey ∈ c.plan.gateKeys ∧ g.status = .FAIL) ∨
    ∃ m ∈ c.ledger.metrics, m.metricKey ∈ c.plan.metricKeys ∧ m.gating = true ∧
      (m.status = .FAIL ∨ m.acceptable = some false)

/-- A gate that passed, and then failed. -/
def repeatedGate : EvidenceLedger where
  records := [.gate ⟨"g-001", "rc", .PASS⟩, .gate ⟨"g-002", "rc", .FAIL⟩]
  counters := [("g", 2)]
  conflicts := []
  unique := by decide

/-- A metric with a pass that is not acceptable. -/
def unacceptablePass : EvidenceLedger where
  records := [.metric ⟨"m-001", "skew", some false, .PASS, true⟩]
  counters := [("m", 1)]
  conflicts := []
  unique := by decide

/-- A pass is accepted over a gate's second record, which failed; and over a gating metric with an
unacceptable pass, complete as the evidence is, nothing can be accepted. -/
theorem pass_behind_first_record_and_dead_end :
    [.gate "rc" .PASS, .gate "rc" .FAIL].foldlM EvidenceLedger.add .empty = some repeatedGate ∧
      (∃ findings, ((oneAxis (.hardGate "rc") repeatedGate).evaluate findings).verdict =
        some .passed ∧ HoldsFailure (oneAxis (.hardGate "rc") repeatedGate)) ∧
      [.metric "skew" (some false) .PASS true].foldlM EvidenceLedger.add .empty =
        some unacceptablePass ∧
      (oneAxis (.metric "skew") unacceptablePass).Complete ∧
      ¬ ∃ findings, ((oneAxis (.metric "skew") unacceptablePass).evaluate findings).accepted =
        true := by
  refine ⟨rfl, ⟨[⟨"cells", "closed", ["g-001"], true⟩], by decide +kernel, .inl ?_⟩, rfl, ?_,
    ?_⟩
  · exact ⟨⟨"g-002", "rc", .FAIL⟩, by decide +kernel, by decide +kernel, rfl⟩
  · constructor
    · decide +kernel
    · decide +kernel
    · decide +kernel
    · decide +kernel
    · decide +kernel
    · exact fun os hos => by cases hos
    · rfl
    · rfl
  · rintro ⟨findings, haccepted⟩
    have hconclude := (canConclude_of_accepted haccepted).2 (by decide +kernel)
    revert hconclude
    decide +kernel

end MeshPipeline.Review
