import MeshPipeline.CadRepair.Loop

/-!
# A through-hole is not sealed

The pairing is tested on the shape as it is now, so once one rim of a hole is filled the other pairs
with nothing. As long as the test still pairs what is left of the rims of the upload, or filling is
refused, every fill of such a rim is an engineer's answer on that rim alone.
-/

namespace MeshPipeline.CadRepair

variable {Shape Wire : Type*} {kernel : Kernel Shape Wire} {consents : Consents}
  {reserved : List DefectCode} {shape : Shape} {defects : List Defect}
  {history history' : RunHistory} {planner planner' : RepairPlanner} {c : Candidate}

/-! ## What the planner records -/

namespace RunHistory

@[simp] lemma refuse_fillRefusedBecause (h : RunHistory) (defect reason detail : String) :
    (h.refuse defect reason detail).fillRefusedBecause = h.fillRefusedBecause := by
  unfold refuse
  split <;> rfl

@[simp] lemma refuseFilling_eq_empty (h : RunHistory) (reason : String) :
    (h.refuseFilling reason).fillRefusedBecause = "" ↔ h.fillRefusedBecause = "" ∧ reason = "" := by
  unfold refuseFilling
  split
  · simp [*]
  · simp [*]

lemma notePaired_ne_empty (h : RunHistory) (rim : String) :
    (h.notePaired rim).fillRefusedBecause ≠ "" := by
  simp [notePaired]

lemma foldl_notePaired_eq_empty {rims : List String} {h : RunHistory}
    (hnone : (rims.foldl notePaired h).fillRefusedBecause = "") :
    h.fillRefusedBecause = "" ∧ rims = [] := by
  induction rims generalizing h with
  | nil => exact ⟨hnone, rfl⟩
  | cons rim rims ih => exact absurd (ih hnone).1 (notePaired_ne_empty h rim)

/-- A pair that is seen turns filling off, and so does a test that cannot be run. -/
lemma noteRims_eq_empty {rims : Rims} (h : (history.noteRims rims).fillRefusedBecause = "") :
    history.fillRefusedBecause = "" ∧ rims.unknown = false ∧ rims.fingerprints = [] := by
  unfold noteRims at h
  dsimp only at h
  split at h
  · simp at h
  rename_i hunknown
  obtain ⟨hfill, hsorted⟩ := foldl_notePaired_eq_empty h
  have hperm := List.perm_insertionSort (· ≤ ·) rims.fingerprints.dedup
  rw [hsorted] at hperm
  exact ⟨hfill, by simpa using hunknown, (List.dedup_eq_nil _).mp hperm.symm.eq_nil⟩

end RunHistory

/-! ## What is proposed -/

/-- An engineer's answer on one defect. -/
def Directive.Single (d : Directive) : Prop :=
  d.source = "engineer" ∧ d.group = false ∧ d.targets.length = 1

instance (d : Directive) : Decidable d.Single := inferInstanceAs (Decidable (_ ∧ _ ∧ _))

/-- An engineer's fill of one defect that is still there. -/
def Directive.Answers (d : Directive) (defects : List Defect) : Prop :=
  d.Single ∧ d.op ∈ fillOps ∧ (DefectCode.parse d.defectCode).isSome ∧
    ∀ fingerprint ∈ d.targets, (byFingerprint defects fingerprint).isSome

instance (d : Directive) (defects : List Defect) : Decidable (d.Answers defects) :=
  inferInstanceAs (Decidable (_ ∧ _ ∧ _ ∧ _))

/-- A defect that a fill may be aimed at by the rules, or by a directive that is not an answer on one
defect. -/
def Aimable (pending : List Directive) (d : Defect) : Prop :=
  (d.code = .openShell ∧ d.boundaryEdges ≠ []) ∨
    ∃ e ∈ pending, e.op ∈ fillOps ∧ ¬ e.Single ∧ d.fingerprint ∈ e.targets

instance (pending : List Directive) (d : Defect) : Decidable (Aimable pending d) :=
  inferInstanceAs (Decidable (_ ∨ _))

/-- A fill that passed the pairing test. -/
structure Passed (kernel : Kernel Shape Wire) (shape : Shape) (defects : List Defect)
    (history : RunHistory) (pending : List Directive) (c : Candidate) : Prop where
  allowed : history.fillRefusedBecause = ""
  known : (pairedRimFingerprints kernel shape defects).unknown = false
  unpaired : ∀ t ∈ c.targets, t.fingerprint ∉ (pairedRimFingerprints kernel shape defects).fingerprints
  aimable : ∀ t ∈ c.targets, ∃ d ∈ defects, d.ref = t ∧ Aimable pending d

lemma aim_of_offerOf {held : List String} {d : Defect} {op : RepairOp} {targets : List EntityRef}
    (h : offerOf history held d op = .aim targets) (hfill : op.name ∈ fillOps) :
    targets = op.targetsFor d ∧ history.fillRefusedBecause = "" := by
  unfold offerOf at h
  grind

lemma aim_of_firstAim {held : List String} {d : Defect} {ops : List RepairOp}
    (h : firstAim history held d ops = .ok c) (hfill : c.op.name ∈ fillOps) :
    c.op ∈ ops ∧ c.targets = c.op.targetsFor d ∧ history.fillRefusedBecause = "" := by
  induction ops with
  | nil => cases h
  | cons op ops ih =>
    unfold firstAim at h
    split at h
    · cases h
      exact ⟨List.mem_cons_self, aim_of_offerOf ‹_› hfill⟩
    · exact (ih h).imp_left (List.mem_cons_of_mem op)
    · cases h
    · cases h
      exact (ih ‹_›).imp_left (List.mem_cons_of_mem op)

lemma aim_of_firstProposal {ops : List RepairOp} {held : List String} {ordered : List Defect}
    (h : firstProposal ops reserved held ordered history = (some c, history'))
    (hfill : c.op.name ∈ fillOps) :
    c.op ∈ ops ∧ (∃ d ∈ ordered, c.targets = c.op.targetsFor d) ∧
      history.fillRefusedBecause = "" := by
  induction ordered generalizing history with
  | nil => cases h
  | cons d ds ih =>
    have hrest : ∀ {g : RunHistory}, g.fillRefusedBecause = history.fillRefusedBecause →
        firstProposal ops reserved held ds g = (some c, history') →
        c.op ∈ ops ∧ (∃ d' ∈ d :: ds, c.targets = c.op.targetsFor d') ∧
          history.fillRefusedBecause = "" := by
      intro g hg hrest
      obtain ⟨hop, ⟨d', hd', htargets⟩, hallowed⟩ := ih hrest
      exact ⟨hop, ⟨d', List.mem_cons_of_mem d hd', htargets⟩, hg ▸ hallowed⟩
    unfold firstProposal at h
    split at h
    · exact hrest rfl h
    split at h
    · exact hrest (by simp) h
    split at h
    · cases h
      obtain ⟨hop, htargets, hallowed⟩ := aim_of_firstAim ‹_› hfill
      exact ⟨hop, ⟨d, List.mem_cons_self, htargets⟩, hallowed⟩
    · exact hrest rfl h
    · exact hrest (by simp) h

/-- The rules fill nothing while a pair is seen. -/
lemma passed_of_rulesPropose {pending : List Directive}
    (h : rulesPropose kernel consents reserved shape defects history = (some c, history'))
    (hfill : c.op.name ∈ fillOps) : Passed kernel shape defects history pending c := by
  obtain ⟨hop, ⟨d, hd, htargets⟩, hallowed⟩ := aim_of_firstProposal h hfill
  obtain ⟨hallowed, hknown, hnone⟩ := RunHistory.noteRims_eq_empty hallowed
  have hop := (List.perm_insertionSort _ _).subset hop
  have hd := (List.perm_insertionSort _ _).subset hd
  refine ⟨hallowed, hknown, by simp [hnone], ?_⟩
  intro t ht
  obtain ⟨rfl, hcode, hloop⟩ := mem_fill_targetsFor hop hfill (htargets ▸ ht)
  exact ⟨d, hd, rfl, .inl ⟨hcode, hloop⟩⟩

lemma byFingerprint_spec {fingerprint : String} {d : Defect}
    (h : byFingerprint defects fingerprint = some d) :
    d ∈ defects ∧ d.fingerprint = fingerprint := by
  have hmem := List.mem_filter.mp (List.mem_of_getLast? h)
  simp only [Bool.and_eq_true, beq_iff_eq] at hmem
  exact ⟨hmem.1, hmem.2.2⟩

lemma scope_of_fill {op : RepairOp} (hop : op ∈ operations consents) (hfill : op.name ∈ fillOps) :
    op.name ≠ healOp ∧ op.scope < wholeShapeScope := by
  simp only [operations, List.mem_cons, List.not_mem_nil, or_false] at hop
  rcases hop with rfl | rfl | rfl | rfl | rfl | rfl | rfl | rfl
  all_goals
    simp [fillOps, fixSmallEdges, fixFaceBoundary, fixSmallFaces, sewFaces, healOp, fillPlanarHole,
      fillNonplanarHole, healSelfIntersections, fixShapeGlobal, wholeShapeScope] at hfill ⊢

/-- A fill aims at what its directive names, of what carries a defect now. -/
lemma refsOf_fill {op : RepairOp} (hop : op ∈ operations consents) (hfill : op.name ∈ fillOps)
    (code : DefectCode) (d : Directive) :
    refsOf op code d defects =
      d.targets.filterMap fun fingerprint => (byFingerprint defects fingerprint).map Defect.ref := by
  obtain ⟨hheal, hscope⟩ := scope_of_fill hop hfill
  unfold refsOf
  rw [if_neg hheal, if_neg (by omega)]

/-- What a directive that can be played comes to. -/
lemma resolve_ok {d : Directive}
    (h : resolve kernel consents reserved shape defects history d = .ok c) :
    c.op ∈ operations consents ∧ c.op.name = d.op ∧ c.directive = some d ∧
      c.targets = refsOf c.op c.defectCode d defects ∧ c.targets ≠ [] ∧
      (c.op.name ∈ fillOps → (d.source = "engineer" ∧ c.targets.length = 1 ∧ d.group = false) ∨
        history.fillRefusedBecause = "" ∧
        (pairedRimFingerprints kernel shape defects).unknown = false ∧
        ∀ t ∈ c.targets, t.fingerprint ∉
          (pairedRimFingerprints kernel shape defects).fingerprints) := by
  unfold resolve at h
  split at h
  · cases h
  · cases h
  rename_i op code hfind hcode
  dsimp only at h
  split at h
  · cases h
  split at h
  · cases h
  rename_i hrefs
  split at h
  · cases h
  split at h
  · cases h
  rename_i hguard
  cases h
  refine ⟨List.mem_of_find?_eq_some hfind, by simpa using List.find?_some hfind, rfl, rfl, hrefs, ?_⟩
  intro hfill
  simp only [hfill, true_and, not_and_or, not_not, not_or] at hguard
  refine hguard.imp (fun hone => ⟨hone.1, hone.2.1, by simpa using hone.2.2⟩) ?_
  simp

/-- An answer on one defect aims at it. -/
lemma targets_of_single {d : Directive} (hsingle : d.Single) (hfill : d.op ∈ fillOps)
    (h : resolve kernel consents reserved shape defects history d = .ok c) :
    c.targets.map EntityRef.fingerprint = d.targets := by
  obtain ⟨hop, hname, -, htargets, hne, -⟩ := resolve_ok h
  rw [refsOf_fill hop (hname.symm ▸ hfill)] at htargets
  obtain ⟨fingerprint, hfingerprint⟩ := List.length_eq_one_iff.mp hsingle.2.2
  rw [htargets, hfingerprint] at hne ⊢
  cases he : byFingerprint defects fingerprint with
  | none => simp [he] at hne
  | some e => simp [he, Defect.ref, (byFingerprint_spec he).2]

/-- A fill that a directive asks for is an answer on one rim, or passed the pairing test. -/
lemma passed_of_resolve {pending : List Directive} {d : Directive} (hd : d ∈ pending)
    (hone : d.source = "engineer" → d.group = false → d.op ∈ fillOps → d.targets.length = 1)
    (h : resolve kernel consents reserved shape defects history d = .ok c)
    (hfill : c.op.name ∈ fillOps) :
    (c.directive = some d ∧ d.Single ∧ c.targets.map EntityRef.fingerprint = d.targets) ∨
      Passed kernel shape defects history pending c := by
  obtain ⟨hop, hname, hdirective, htargets, -, hguard⟩ := resolve_ok h
  rw [refsOf_fill hop hfill] at htargets
  have hfill' : d.op ∈ fillOps := hname ▸ hfill
  by_cases hd' : d.Single
  · exact .inl ⟨hdirective, hd', targets_of_single hd' hfill' h⟩
  rcases hguard hfill with ⟨hsource, -, hgroup⟩ | ⟨hallowed, hknown, hunpaired⟩
  · exact absurd ⟨hsource, hgroup, hone hsource hgroup hfill'⟩ hd'
  refine .inr ⟨hallowed, hknown, hunpaired, ?_⟩
  intro t ht
  rw [htargets, List.mem_filterMap] at ht
  obtain ⟨fingerprint, hmem, ht⟩ := ht
  obtain ⟨e, he, rfl⟩ := Option.map_eq_some_iff.mp ht
  obtain ⟨hemem, rfl⟩ := byFingerprint_spec he
  exact ⟨e, hemem, rfl, .inr ⟨d, hd, hfill', hd', hmem⟩⟩

/-- An engineer's fill of one defect is played as long as the defect is there. -/
lemma resolve_of_answers {d : Directive} (h : d.Answers defects) :
    ∃ c, resolve kernel consents reserved shape defects history d = .ok c := by
  obtain ⟨⟨hsource, hgroup, hone⟩, hfill, hcode, hthere⟩ := h
  obtain ⟨code, hcode⟩ := Option.isSome_iff_exists.mp hcode
  obtain ⟨op, hfind⟩ : ∃ op, (operations consents).find? (fun op => op.name == d.op) = some op := by
    simp only [fillOps, List.mem_cons, List.not_mem_nil, or_false] at hfill
    rcases hfill with hfill | hfill <;> rw [hfill] <;> exact ⟨_, rfl⟩
  have hname : op.name = d.op := by simpa using List.find?_some hfind
  have hop : op.name ∈ fillOps := hname ▸ hfill
  obtain ⟨fingerprint, hfingerprint⟩ := List.length_eq_one_iff.mp hone
  obtain ⟨e, he⟩ := Option.isSome_iff_exists.mp (hthere fingerprint (by simp [hfingerprint]))
  have hrefs : refsOf op code d defects = [e.ref] := by
    rw [refsOf_fill (List.mem_of_find?_eq_some hfind) hop, hfingerprint]
    simp [he]
  simp [resolve, hfind, hcode, hrefs, hsource, hgroup, heldAnsweringSources]

/-- What is left of the directives after one was played. -/
lemma play_spec {pending : List Directive} {unplayable : List (Directive × Unplayable)}
    {candidate : Option Candidate}
    (h : play kernel consents reserved shape defects history pending unplayable =
      (candidate, planner')) :
    planner'.pending ⊆ pending ∧ ∀ c, candidate = some c →
      ∃ d ∈ pending, resolve kernel consents reserved shape defects history d = .ok c := by
  induction pending generalizing unplayable with
  | nil =>
    cases h
    exact ⟨List.Subset.refl _, by simp⟩
  | cons d pending ih =>
    unfold play at h
    split at h
    · cases h
      refine ⟨List.subset_cons_self d pending, ?_⟩
      rintro c ⟨⟩
      exact ⟨d, List.mem_cons_self, ‹_›⟩
    · obtain ⟨hsubset, hplayed⟩ := ih h
      refine ⟨List.Subset.trans hsubset (List.subset_cons_self d pending), ?_⟩
      intro c hc
      obtain ⟨e, he, hresolve⟩ := hplayed c hc
      exact ⟨e, List.mem_cons_of_mem d he, hresolve⟩

/-- A fill that is proposed is an engineer's answer on one rim, or passed the pairing test. -/
lemma propose_spec {candidate : Option Candidate}
    (hone : ∀ d ∈ planner.pending, d.source = "engineer" → d.group = false → d.op ∈ fillOps →
      d.targets.length = 1)
    (h : propose kernel consents reserved shape defects history planner =
      (candidate, history', planner')) :
    planner'.pending ⊆ planner.pending ∧ ∀ c, candidate = some c → c.op.name ∈ fillOps →
      (∃ d ∈ c.directive, d.Single ∧ c.targets.map EntityRef.fingerprint = d.targets) ∨
      Passed kernel shape defects history planner.pending c := by
  unfold propose at h
  split at h
  · cases h
    obtain ⟨hsubset, hplayed⟩ := play_spec ‹_›
    refine ⟨hsubset, ?_⟩
    rintro _ ⟨⟩ hfill
    obtain ⟨d, hd, hresolve⟩ := hplayed _ rfl
    exact (passed_of_resolve hd (hone d hd) hresolve hfill).imp_left
      fun ⟨hdirective, hsingle⟩ => ⟨d, hdirective, hsingle⟩
  · dsimp only at h
    cases h
    refine ⟨(play_spec ‹_›).1, ?_⟩
    intro c hc hfill
    exact .inr (passed_of_rulesPropose (Prod.ext hc rfl) hfill)

/-! ## Both rims of a pair -/

/-- The loops that the test pairs on a shape. -/
def pairedLoops (kernel : Kernel Shape Wire) (shape : Shape) (defects : List Defect) :
    List (Wire × Wire) :=
  let resolved := resolvedRims kernel shape defects
  ((rimPairs kernel shape defects).getD []).filterMap fun (i, j) =>
    resolved[i]?.bind fun a => resolved[j]?.map fun b => (a.1, b.1)

namespace Try

/-- A kept fill of what became of a rim of the upload, as `descends` tells it. -/
def Fills (descends : Wire → Wire → Prop) (t : Try Wire) (rim : Wire) : Prop :=
  t.verdict.status = .kept ∧ t.candidate.op.name ∈ fillOps ∧ ∃ w ∈ t.aimed, descends w rim

/-- An engineer's directive that names one rim individually. -/
def Individual (t : Try Wire) : Prop :=
  ∃ d ∈ t.candidate.directive, d.Single ∧
    t.candidate.targets.map EntityRef.fingerprint = d.targets

instance {descends : Wire → Wire → Prop} [∀ w rim, Decidable (descends w rim)] (t : Try Wire)
    (rim : Wire) : Decidable (t.Fills descends rim) :=
  inferInstanceAs (Decidable (_ ∧ _ ∧ _))

instance (t : Try Wire) : Decidable t.Individual :=
  inferInstanceAs (Decidable (∃ d ∈ t.candidate.directive, d.Single ∧
    t.candidate.targets.map EntityRef.fingerprint = d.targets))

end Try

namespace RepairRun

variable {descends : Wire → Wire → Prop} {pairs : List (Wire × Wire)} {limits : Limits}
  {r r' : RepairRun Shape Wire} {tick : Tick Shape Wire}

/-- No pair is filled at both ends, unless by answers on each. -/
def NeverSealed (descends : Wire → Wire → Prop) (pairs : List (Wire × Wire))
    (r : RepairRun Shape Wire) : Prop :=
  ∀ p ∈ pairs, ∀ t ∈ r.tries, ∀ t' ∈ r.tries, t.Fills descends p.1 → t'.Fills descends p.2 →
    t.Individual ∧ t'.Individual

/-- An engineer's fill of one defect comes next, or filling is refused, or the test still pairs what
is left of the rims and a fill may be aimed at. -/
def StillPaired (descends : Wire → Wire → Prop) (pairs : List (Wire × Wire))
    (r : RepairRun Shape Wire) (tick : Tick Shape Wire) : Prop :=
  (∃ d ∈ r.planner.pending.head?, d.Answers r.session.defects) ∨
  r.history.fillRefusedBecause ≠ "" ∨
  (pairedRimFingerprints tick.kernel r.session.shape r.session.defects).unknown = true ∨
  ∀ d ∈ r.session.defects, Aimable r.planner.pending d →
    ∀ w ∈ tick.kernel.freeWire r.session.shape d.entityIndex, ∀ p ∈ pairs,
      descends w p.1 ∨ descends w p.2 → d.fingerprint ∈
        (pairedRimFingerprints tick.kernel r.session.shape r.session.defects).fingerprints

instance [∀ w rim, Decidable (descends w rim)] (r : RepairRun Shape Wire) :
    Decidable (r.NeverSealed descends pairs) :=
  inferInstanceAs (Decidable (∀ p ∈ pairs, ∀ t ∈ r.tries, ∀ t' ∈ r.tries, t.Fills descends p.1 →
    t'.Fills descends p.2 → t.Individual ∧ t'.Individual))

instance [∀ w rim, Decidable (descends w rim)] (r : RepairRun Shape Wire) (tick : Tick Shape Wire) :
    Decidable (r.StillPaired descends pairs tick) :=
  inferInstanceAs (Decidable ((∃ d ∈ r.planner.pending.head?, d.Answers r.session.defects) ∨ _ ∨ _ ∨
    ∀ d ∈ r.session.defects, Aimable r.planner.pending d →
    ∀ w ∈ tick.kernel.freeWire r.session.shape d.entityIndex, ∀ p ∈ pairs,
      descends w p.1 ∨ descends w p.2 → d.fingerprint ∈
        (pairedRimFingerprints tick.kernel r.session.shape r.session.defects).fingerprints))

structure Inv (descends : Wire → Wire → Prop) (pairs : List (Wire × Wire))
    (r : RepairRun Shape Wire) : Prop where
  pending : ∀ d ∈ r.planner.pending, d.source = "engineer" → d.group = false → d.op ∈ fillOps →
    d.targets.length = 1
  individual : ∀ t ∈ r.tries, ∀ p ∈ pairs, t.Fills descends p.1 ∨ t.Fills descends p.2 →
    t.Individual

lemma individual_of_answers {history' : RunHistory} {planner' : RepairPlanner} {d : Directive}
    (hd : d ∈ planner.pending.head?) (hanswers : d.Answers defects)
    (h : propose kernel consents reserved shape defects history planner =
      (some c, history', planner')) :
    ∃ d ∈ c.directive, d.Single ∧ c.targets.map EntityRef.fingerprint = d.targets := by
  obtain ⟨c', hresolve⟩ : ∃ c', resolve kernel consents reserved shape defects history d = .ok c' :=
    resolve_of_answers hanswers
  obtain ⟨pending, hpending⟩ := List.head?_eq_some_iff.mp hd
  have hplay : play kernel consents reserved shape defects history planner.pending
      planner.unplayable = (some c', ⟨pending, planner.unplayable⟩) := by
    rw [hpending, play, hresolve]
  rw [propose, hplay] at h
  cases h
  obtain ⟨-, -, hdirective, -⟩ := resolve_ok hresolve
  exact ⟨d, hdirective, hanswers.1, targets_of_single hanswers.1 hanswers.2.1 hresolve⟩

lemma attempt_spec (limits : Limits) (kernel : Kernel Shape Wire) (r : RepairRun Shape Wire) (c : Candidate) :
    (attempt limits kernel r c).planner = r.planner ∧ ∃ verdict,
      (attempt limits kernel r c).tries = r.tries ++ [⟨c, verdict,
        c.targets.filterMap fun t => kernel.freeWire r.session.shape t.entityIndex⟩] := by
  unfold attempt
  dsimp only
  split_ifs <;> exact ⟨rfl, _, rfl⟩

/-- A fill that is tried of what became of a rim is an answer on that rim. -/
lemma Inv.after_attempt (h : r.Inv descends pairs) (hstill : r.StillPaired descends pairs tick)
    {c : Candidate} {history' : RunHistory} {planner' : RepairPlanner}
    (hpropose : propose tick.kernel limits.consents r.session.reserved r.session.shape
      r.session.defects r.history r.planner = (some c, history', planner')) :
    (attempt limits tick.kernel { r with history := history', planner := planner' } c).Inv descends
      pairs := by
  obtain ⟨hsubset, hfill⟩ := propose_spec h.pending hpropose
  obtain ⟨hplanner, verdict, htries⟩ := attempt_spec limits tick.kernel
    { r with history := history', planner := planner' } c
  refine ⟨fun d hd => h.pending d (hsubset ?_), ?_⟩
  · rwa [hplanner] at hd
  intro t ht p hp hfills
  rw [htries] at ht
  rcases List.mem_append.mp ht with ht | ht
  · exact h.individual t ht p hp hfills
  obtain rfl := List.mem_singleton.mp ht
  have hname : c.op.name ∈ fillOps := hfills.elim (·.2.1) (·.2.1)
  rcases hfill c rfl hname with hone | hpassed
  · exact hone
  obtain ⟨w, hw, hdescends⟩ : ∃ w ∈ c.targets.filterMap fun t =>
      tick.kernel.freeWire r.session.shape t.entityIndex, descends w p.1 ∨ descends w p.2 := by
    rcases hfills with ⟨-, -, w, hw, hdescends⟩ | ⟨-, -, w, hw, hdescends⟩
    · exact ⟨w, hw, .inl hdescends⟩
    · exact ⟨w, hw, .inr hdescends⟩
  obtain ⟨target, htarget, hwire⟩ := List.mem_filterMap.mp hw
  obtain ⟨d, hd, rfl, haimable⟩ := hpassed.aimable target htarget
  rcases hstill with ⟨d', hd', hanswers⟩ | hrefused | hunknown | hpaired
  · exact individual_of_answers hd' hanswers hpropose
  · exact absurd hpassed.allowed hrefused
  · rw [hpassed.known] at hunknown
    cases hunknown
  · exact absurd (hpaired d hd haimable w hwire p hp hdescends) (hpassed.unpaired _ htarget)

lemma Inv.after_step (h : r.Inv descends pairs) (hstill : r.StillPaired descends pairs tick)
    (hstep : r.step limits tick = some r') : r'.Inv descends pairs := by
  unfold step at hstep
  split at hstep
  · cases hstep
  split at hstep
  · cases hstep
    exact ⟨h.pending, h.individual⟩
  split at hstep
  · cases hstep
    exact ⟨h.pending, h.individual⟩
  rcases hpropose : propose tick.kernel limits.consents r.session.reserved r.session.shape
    r.session.defects r.history r.planner with ⟨candidate, history', planner'⟩
  rw [hpropose] at hstep
  have hpending : ∀ d ∈ planner'.pending, d.source = "engineer" → d.group = false →
      d.op ∈ fillOps → d.targets.length = 1 :=
    fun d hd => h.pending d ((propose_spec h.pending hpropose).1 hd)
  cases candidate with
  | none =>
    cases hstep
    exact ⟨hpending, h.individual⟩
  | some c =>
    dsimp only at hstep
    split at hstep <;> cases hstep
    · exact ⟨hpending, h.individual⟩
    · exact h.after_attempt hstill hpropose

/-- In a run that does not forget a pair, no hole is sealed except by an engineer who answered each of
its rims. -/
theorem never_sealed {upload : Shape} {directives : List Directive} {run : List (Tick Shape Wire)}
    (hone : ∀ d ∈ directives, d.source = "engineer" → d.group = false → d.op ∈ fillOps →
      d.targets.length = 1)
    (hrun : (machine limits).Meets
      (StillPaired descends (pairedLoops kernel upload (kernel.scan upload true).1))
      (start kernel upload reserved directives) run)
    (h : (machine limits).exec (start kernel upload reserved directives) run = some r) :
    r.NeverSealed descends (pairedLoops kernel upload (kernel.scan upload true).1) := by
  have hinv := (machine limits).exec_invariant (fun _ _ _ hI hP => hI.after_step hP)
    (⟨hone, by simp [start]⟩ : (start kernel upload reserved directives).Inv descends _) hrun h
  intro p hp t ht t' ht' hfills hfills'
  exact ⟨hinv.individual t ht p hp (.inl hfills), hinv.individual t' ht' p hp (.inr hfills')⟩

/-! ## A plate with a missing bore -/

end RepairRun

/-- The name of a rim. -/
def rimName (edge : Nat) : String := if edge = 1 then "edge:near" else "edge:far"

def openRim (edge : Nat) : Defect :=
  ⟨.openShell, .error, .edge, edge, rimName edge, false, [edge], [], [], false, none⟩

/-- A plate is the edges of its open rims. A fill closes the rims that it is aimed at, and rims `1`
and `2` are the ends of one bore. -/
def plate : Kernel (List Nat) Nat where
  apply op shape targets :=
    .ok ⟨if op ∈ fillOps then shape.filter fun edge => targets.all fun t => t.entityIndex != edge
      else shape, [], [], [], none, []⟩
  capRefusal _ _ _ _ := none
  scan shape _ := (shape.map openRim, true)
  freeWire shape edge := shape.find? (· = edge)
  pairedRims _ loops := some (if loops = [1, 2] then [(0, 1)] else [])

def plateLimits : Limits := ⟨6, 2, ⟨false, false, false⟩⟩

/-- An engineer's approval of a fill of one rim. -/
def fillRim (edge : Nat) (item : String) : Directive :=
  ⟨"fill_planar_hole", "open_shell", [rimName edge], rimName edge, "engineer", false, some item⟩

namespace RepairRun

/-- An engineer approves the fills of both rims. -/
theorem never_sealed_approved : ∃ r,
    (machine plateLimits).exec (start plate [1, 2] [] [fillRim 1 "a", fillRim 2 "b"])
      (List.replicate 3 ⟨plate, false⟩) = some r ∧
      r.NeverSealed Eq (pairedLoops plate [1, 2] (plate.scan [1, 2] true).1) := by
  have hrun : (machine plateLimits).Meets
      (StillPaired Eq (pairedLoops plate [1, 2] (plate.scan [1, 2] true).1))
      (start plate [1, 2] [] [fillRim 1 "a", fillRim 2 "b"]) (List.replicate 3 ⟨plate, false⟩) := by
    decide +kernel
  exact ⟨_, rfl, never_sealed (by decide) hrun rfl⟩

/-- The near rim is filled as the engineer asks, and the rules then fill the far one. -/
theorem far_rim_filled : ∃ r,
    (machine plateLimits).exec (start plate [1, 2] [] [fillRim 1 "a"])
      (List.replicate 3 ⟨plate, false⟩) = some r ∧
      ¬ r.NeverSealed Eq (pairedLoops plate [1, 2] (plate.scan [1, 2] true).1) := by
  refine ⟨_, rfl, ?_⟩
  decide +kernel

end RepairRun

end MeshPipeline.CadRepair
