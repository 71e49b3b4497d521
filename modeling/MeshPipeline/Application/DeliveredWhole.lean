import MeshPipeline.Application.ReviewDelivery

/-!
# A run delivers its best attempt whole

What is delivered is the best of the run's valid meshes, and the account names the mark that decided.
Whether all of it is of one attempt is another matter: the last attempt stands in a state that keeps
what an earlier review found, and an attempt that recorded no parameters is given the run's.
-/

namespace MeshPipeline.Application.ReviewDelivery

open Pipeline Ranking

variable (w : DeliveryWorld) (s : FinalState)

/-! ## The claim -/

/-- A complete, valid mesh of the run lies in the workspace. -/
inductive ValidMesh : String → Prop
  | last {m : Manifest} (passed : lastPassed s = true) (named : s.workspace ≠ "")
      (held : lastManifest w s = some m) (sound : m.fatal = false) : ValidMesh s.workspace
  | reviewed {h : ReviewRecord} {m : Manifest} (listed : h ∈ s.history)
      (concluded : h.concluded = true) (held : w.readManifest h.workspace = some m)
      (sound : m.fatal = false) : ValidMesh h.workspace

/-- A valid mesh that no valid mesh of the run outranks. -/
structure Best (c : Candidate) : Prop where
  mem : c ∈ candidates w s
  valid : ValidMesh w s c.workspace
  sound : c.manifest.fatal = false
  least : ∀ ws, ValidMesh w s ws →
    ∃ d ∈ candidates w s, d.workspace = ws ∧ rankKey c ≤ rankKey d

/-- All that a state holds of a mesh is of the candidate's attempt. -/
structure HoldsOnly (d : FinalState) (c : Candidate) : Prop where
  workspace : d.workspace = c.workspace
  manifest : d.manifest = some c.manifest ∨ d.manifest = none
  engine : d.ladder.engine = c.engine
  params : recordedParams c = [] ∨ d.ladder.engineParams ∈ recordedParams c
  findings : ∀ f ∈ d.findings, f.attempt = c.attempt

/-- Where there is a runner-up, the account names the first mark at which it is beaten. -/
def NamesTheRule (d : FinalState) (best : Candidate) : Prop :=
  (∃ c ∈ candidates w s, c ≠ best) →
    ∃ why ∈ d.deliveredFrom, ∃ runner ∈ candidates w s, runner ≠ best ∧
      (∀ c ∈ candidates w s, c ≠ best → rankKey runner ≤ rankKey c) ∧
      ∃ i, BeatsAt (rankKey best) (rankKey runner) i ∧ deliveryRules[i]? = some why.rule

/-- A run that nobody disputed and that has a valid mesh delivers the best of them whole. -/
def DeliversWhole : Prop :=
  s.ladder.pipeline.userDispute = none → (∃ ws, ValidMesh w s ws) →
    ∃ best, Best w s best ∧ HoldsOnly (select w s) best ∧ NamesTheRule w s (select w s) best

/-- The last attempt's mesh stands in a state with its own engine, parameters and findings; an
earlier one recorded some parameters, or nothing would be filled in for it. -/
def Unmixed (c : Candidate) : Prop :=
  if c.current then
    c.manifest.meshMode ∈ ["", s.ladder.engine] ∧
      (recordedParams c = [] ∨ s.ladder.engineParams ∈ recordedParams c) ∧
      ∀ f ∈ s.findings, f.attempt = s.ladder.pipeline.retryCount
  else
    recordedParams c = [] ∨ (∃ p ∈ recordedParams c, p ≠ []) ∨ carriedParams w s c.engine = []

/-- Every candidate that none outranks is unmixed and ranks alone. -/
def BestIsUnmixed : Prop :=
  s.ladder.pipeline.userDispute = none →
    ∀ c ∈ candidates w s, (∀ d ∈ candidates w s, rankKey c ≤ rankKey d) →
      Unmixed w s c ∧ ∀ d ∈ candidates w s, d ≠ c → rankKey d ≠ rankKey c

variable {w : DeliveryWorld} {s : FinalState} {c best : Candidate} {h : ReviewRecord}

/-! ## What a candidate is -/

theorem length_rankKey (c : Candidate) : (rankKey c).length = 10 := rfl

/-- A candidate is never a broken mesh, and keeps what it was measured with. -/
theorem measure_spec {attempt : Nat} {engine workspace : String} {m : Manifest}
    {entry : Option ReviewRecord} {current : Bool} {findings : List Finding}
    {caveats : List CaveatKind}
    (h : measure w s attempt engine workspace m entry current findings caveats = some c) :
    m.fatal = false ∧ c.attempt = attempt ∧ c.engine = engine ∧ c.workspace = workspace ∧
      c.manifest = m ∧ c.entry = entry ∧ c.current = current := by
  simp only [measure] at h
  split at h
  · cases h
  · next hsound =>
    obtain rfl := Option.some.inj h
    exact ⟨by simpa using hsound, rfl, rfl, rfl, rfl, rfl, rfl⟩

theorem measure_isSome {attempt : Nat} {engine workspace : String} {m : Manifest}
    {entry : Option ReviewRecord} {current : Bool} {findings : List Finding}
    {caveats : List CaveatKind} (h : m.fatal = false) :
    ∃ c, measure w s attempt engine workspace m entry current findings caveats = some c := by
  simp [measure, h]

/-- The candidate of the last state. -/
structure FromLast (w : DeliveryWorld) (s : FinalState) (c : Candidate) : Prop where
  passed : lastPassed s = true
  named : s.workspace ≠ ""
  held : lastManifest w s = some c.manifest
  sound : c.manifest.fatal = false
  current : c.current = true
  workspace : c.workspace = s.workspace
  attempt : c.attempt = s.ladder.pipeline.retryCount
  engine : c.engine = engineOf s c.manifest none

theorem fromLast_of_lastCandidate (h : lastCandidate w s = some c) : FromLast w s c := by
  unfold lastCandidate at h
  split at h
  · next hlast =>
    obtain ⟨m, hheld, hmeasure⟩ := Option.bind_eq_some_iff.mp h
    obtain ⟨hsound, hattempt, hengine, hworkspace, rfl, -, hcurrent⟩ := measure_spec hmeasure
    exact ⟨hlast.1, hlast.2, hheld, hsound, hcurrent, hworkspace, hattempt, hengine⟩
  · cases h

/-- The candidate of a review. -/
structure FromReview (w : DeliveryWorld) (h : ReviewRecord) (c : Candidate) : Prop where
  concluded : h.concluded = true
  held : w.readManifest h.workspace = some c.manifest
  sound : c.manifest.fatal = false
  current : c.current = false
  entry : c.entry = some h
  workspace : c.workspace = h.workspace
  attempt : c.attempt = h.attempt

theorem fromReview_of_reviewedCandidate (hc : reviewedCandidate w s h = some c) :
    FromReview w h c := by
  unfold reviewedCandidate at hc
  split at hc
  · next hconcluded =>
    obtain ⟨m, hheld, hmeasure⟩ := Option.bind_eq_some_iff.mp hc
    obtain ⟨hsound, hattempt, -, hworkspace, rfl, hentry, hcurrent⟩ := measure_spec hmeasure
    exact ⟨hconcluded, hheld, hsound, hcurrent, hentry, hworkspace, hattempt⟩
  · cases hc

/-! ## The pool -/

theorem mem_foldl_addReviewed {history : List ReviewRecord} {pool : List Candidate}
    (hc : c ∈ history.foldl (addReviewed w s) pool) :
    c ∈ pool ∨ ∃ h ∈ history, reviewedCandidate w s h = some c := by
  induction history generalizing pool with
  | nil => exact .inl hc
  | cons h history ih =>
    obtain hc | ⟨h', hh', hc⟩ := ih hc
    · unfold addReviewed at hc
      split at hc
      · exact .inl hc
      · obtain hc | hc := List.mem_append.mp hc
        · exact .inl hc
        · exact .inr ⟨h, List.mem_cons_self, by simpa using hc⟩
    · exact .inr ⟨h', List.mem_cons_of_mem _ hh', hc⟩

theorem subset_foldl_addReviewed (history : List ReviewRecord) (pool : List Candidate) :
    pool ⊆ history.foldl (addReviewed w s) pool := by
  induction history generalizing pool with
  | nil => exact List.Subset.refl pool
  | cons h history ih =>
    refine List.Subset.trans ?_ (ih _)
    unfold addReviewed
    split
    · exact List.Subset.refl pool
    · exact List.subset_append_left _ _

/-- A mesh that makes a candidate has one in its workspace. -/
theorem exists_mem_foldl_addReviewed {history : List ReviewRecord} (pool : List Candidate)
    (hh : h ∈ history) (hc : reviewedCandidate w s h = some c) :
    ∃ d ∈ history.foldl (addReviewed w s) pool, d.workspace = h.workspace := by
  induction history generalizing pool with
  | nil => cases hh
  | cons h' history ih =>
    obtain rfl | hh := List.mem_cons.mp hh
    · have hadded : ∃ d ∈ addReviewed w s pool h, d.workspace = h.workspace := by
        unfold addReviewed
        split
        · next hseen => exact List.mem_map.mp hseen
        · exact ⟨c, by simp [hc], (fromReview_of_reviewedCandidate hc).workspace⟩
      obtain ⟨d, hd, hworkspace⟩ := hadded
      exact ⟨d, subset_foldl_addReviewed history _ hd, hworkspace⟩
    · exact ih _ hh

theorem nodup_foldl_addReviewed (history : List ReviewRecord) {pool : List Candidate}
    (hpool : (pool.map (·.workspace)).Nodup) :
    ((history.foldl (addReviewed w s) pool).map (·.workspace)).Nodup := by
  induction history generalizing pool with
  | nil => exact hpool
  | cons h history ih =>
    apply ih
    unfold addReviewed
    split
    · exact hpool
    · next hnew =>
      cases hc : reviewedCandidate w s h with
      | none => simpa using hpool
      | some c =>
        have hworkspace : c.workspace = h.workspace :=
          (fromReview_of_reviewedCandidate hc).workspace
        rw [List.map_append, List.nodup_append']
        exact ⟨hpool, by simp, by simpa [hworkspace] using hnew⟩

/-- Every candidate is of the last state or of a review. -/
theorem cases_of_mem_candidates (hc : c ∈ candidates w s) :
    FromLast w s c ∨ ∃ h ∈ s.history, FromReview w h c := by
  obtain hc | ⟨h, hh, hc⟩ := mem_foldl_addReviewed hc
  · exact .inl (fromLast_of_lastCandidate (by simpa using hc))
  · exact .inr ⟨h, hh, fromReview_of_reviewedCandidate hc⟩

theorem nodup_candidates : (candidates w s).Nodup := by
  refine List.Nodup.of_map (·.workspace) (nodup_foldl_addReviewed s.history ?_)
  cases lastCandidate w s <;> simp

/-- Every candidate is a valid mesh. -/
theorem valid_of_mem (hc : c ∈ candidates w s) :
    ValidMesh w s c.workspace ∧ c.manifest.fatal = false := by
  obtain hlast | ⟨h, hh, hreview⟩ := cases_of_mem_candidates hc
  · rw [hlast.workspace]
    exact ⟨.last hlast.passed hlast.named hlast.held hlast.sound, hlast.sound⟩
  · rw [hreview.workspace]
    exact ⟨.reviewed hh hreview.concluded hreview.held hreview.sound, hreview.sound⟩

/-- Every valid mesh has its candidate. -/
theorem exists_mem_of_valid {ws : String} (hvalid : ValidMesh w s ws) :
    ∃ c ∈ candidates w s, c.workspace = ws := by
  cases hvalid with
  | last passed named held sound =>
    obtain ⟨c, hc⟩ : ∃ c, lastCandidate w s = some c := by
      simpa [lastCandidate, passed, named, held] using measure_isSome sound
    exact ⟨c, subset_foldl_addReviewed _ _ (by simp [hc]), (fromLast_of_lastCandidate hc).workspace⟩
  | @reviewed h m listed concluded held sound =>
    obtain ⟨c, hc⟩ : ∃ c, reviewedCandidate w s h = some c := by
      simpa [reviewedCandidate, concluded, held] using measure_isSome sound
    exact exists_mem_foldl_addReviewed _ listed hc

theorem best_of_least (hc : c ∈ candidates w s)
    (hleast : ∀ d ∈ candidates w s, rankKey c ≤ rankKey d) : Best w s c where
  mem := hc
  valid := (valid_of_mem hc).1
  sound := (valid_of_mem hc).2
  least ws hvalid := by
    obtain ⟨d, hd, hworkspace⟩ := exists_mem_of_valid hvalid
    exact ⟨d, hd, hworkspace, hleast d hd⟩

/-! ## What the delivered state holds -/

/-- The last attempt is delivered as it stands. -/
theorem select_last (hopen : s.ladder.pipeline.userDispute = none)
    (hbest : firstBest rankKey (candidates w s) = some best) (hlast : FromLast w s best) :
    (select w s).workspace = s.workspace ∧ (select w s).manifest = s.manifest ∧
      (select w s).ladder.engine = s.ladder.engine ∧
      (select w s).ladder.engineParams = s.ladder.engineParams ∧
      (select w s).findings = s.findings := by
  simp only [select, hopen, hbest, hlast.current, Option.isSome_none, Bool.false_eq_true,
    if_false]
  split <;> exact ⟨rfl, rfl, rfl, rfl, rfl⟩

theorem select_review (hopen : s.ladder.pipeline.userDispute = none)
    (hbest : firstBest rankKey (candidates w s) = some best) (hreview : FromReview w h best) :
    select w s = swapOnto w s best h (account s best (candidates w s)) := by
  simp [select, hopen, hbest, hreview.current, hreview.entry]

/-- The chosen parameters are the attempt's own unless all that it recorded is empty. -/
theorem paramsOf_mem_iff (c : Candidate) :
    (recordedParams c = [] ∨ paramsOf w s c ∈ recordedParams c) ↔
      recordedParams c = [] ∨ (∃ p ∈ recordedParams c, p ≠ []) ∨
        carriedParams w s c.engine = [] := by
  unfold paramsOf
  generalize recordedParams c = recorded
  cases hfind : recorded.find? (· ≠ []) with
  | some p =>
    have hmem : p ∈ recorded := List.mem_of_find?_eq_some hfind
    have hne : p ≠ [] := by simpa using List.find?_some hfind
    simp only [Option.getD_some, hmem, or_true, true_iff]
    exact .inr (.inl ⟨p, hmem, hne⟩)
  | none =>
    have hempty : ∀ p ∈ recorded, p = [] := by simpa using hfind
    have hnone : ¬ ∃ p ∈ recorded, p ≠ [] := fun ⟨p, hp, hne⟩ => hne (hempty p hp)
    simp only [Option.getD_none, hnone, false_or]
    refine or_congr_right' fun hrecorded => ⟨hempty _, fun hcarried => ?_⟩
    obtain ⟨p, hp⟩ := List.exists_mem_of_ne_nil recorded hrecorded
    rw [hcarried, ← hempty p hp]
    exact hp

theorem holdsOnly_last_iff {d : FinalState} (hlast : FromLast w s c)
    (hkept : d.workspace = s.workspace ∧ d.manifest = s.manifest ∧
      d.ladder.engine = s.ladder.engine ∧ d.ladder.engineParams = s.ladder.engineParams ∧
      d.findings = s.findings) : HoldsOnly d c ↔ Unmixed w s c := by
  obtain ⟨hworkspace, hmanifest, hengine, hparams, hfindings⟩ := hkept
  have hnamed : s.ladder.engine = c.engine ↔ c.manifest.meshMode ∈ ["", s.ladder.engine] := by
    rw [hlast.engine]
    by_cases hmode : c.manifest.meshMode = ""
    · simp [engineOf, hmode]
    · simp only [engineOf, hmode, ne_eq, not_false_eq_true, if_true, List.mem_cons,
        List.not_mem_nil, or_false, false_or]
      exact eq_comm
  have hheld : s.manifest = some c.manifest ∨ s.manifest = none := by
    have hheld := hlast.held
    cases hmanifest : s.manifest with
    | none => exact .inr rfl
    | some m => exact .inl (by simpa [lastManifest, hmanifest] using hheld)
  simp only [Unmixed, hlast.current, if_true]
  constructor
  · intro hholds
    refine ⟨hnamed.mp (hengine ▸ hholds.engine), hparams ▸ hholds.params, fun f hf => ?_⟩
    rw [hholds.findings f (hfindings ▸ hf), hlast.attempt]
  · rintro ⟨hmode, hrecorded, hmade⟩
    exact {
      workspace := hworkspace.trans hlast.workspace.symm
      manifest := hmanifest ▸ hheld
      engine := hengine.trans (hnamed.mpr hmode)
      params := hparams ▸ hrecorded
      findings := fun f hf => (hmade f (hfindings ▸ hf)).trans hlast.attempt.symm }

theorem holdsOnly_swapOnto_iff {why : Account} (hreview : FromReview w h c) :
    HoldsOnly (swapOnto w s c h why) c ↔ Unmixed w s c := by
  simp only [Unmixed, hreview.current, Bool.false_eq_true, if_false]
  rw [← paramsOf_mem_iff]
  constructor
  · exact fun hholds => hholds.params
  · intro hparams
    exact {
      workspace := rfl
      manifest := .inl rfl
      engine := rfl
      params := hparams
      findings := fun f hf => (h.made f hf).trans hreview.attempt.symm }

theorem holdsOnly_select_iff (hopen : s.ladder.pipeline.userDispute = none)
    (hbest : firstBest rankKey (candidates w s) = some best) :
    HoldsOnly (select w s) best ↔ Unmixed w s best := by
  obtain hlast | ⟨h, -, hreview⟩ := cases_of_mem_candidates (mem_of_firstBest hbest)
  · exact holdsOnly_last_iff hlast (select_last hopen hbest hlast)
  · rw [select_review hopen hbest hreview]
    exact holdsOnly_swapOnto_iff hreview

/-! ## What the account says -/

theorem deliveredFrom_select (hopen : s.ladder.pipeline.userDispute = none)
    (hbest : firstBest rankKey (candidates w s) = some best)
    (hothers : ∃ c ∈ candidates w s, c ≠ best) :
    (select w s).deliveredFrom = some (account s best (candidates w s)) := by
  have hmany : 1 < (candidates w s).length := by
    obtain ⟨c, hc, hne⟩ := hothers
    have hmem := mem_of_firstBest hbest
    match hpool : candidates w s with
    | [] => simp [hpool] at hc
    | [d] =>
      rw [hpool, List.mem_singleton] at hc hmem
      exact absurd (hc.trans hmem.symm) hne
    | _ :: _ :: _ => simp
  obtain hlast | ⟨h, -, hreview⟩ := cases_of_mem_candidates (mem_of_firstBest hbest)
  · simp [select, hopen, hbest, hlast.current, hmany]
  · rw [select_review hopen hbest hreview]
    rfl

/-- The runner-up of the account: the best of the others. -/
theorem exists_runner (hothers : ∃ c ∈ candidates w s, c ≠ best) :
    ∃ runner ∈ candidates w s, runner ≠ best ∧
      (∀ c ∈ candidates w s, c ≠ best → rankKey runner ≤ rankKey c) ∧
      (account s best (candidates w s)).rule = ruleChosen best runner := by
  have hothers_iff {c : Candidate} : c ∈ (candidates w s).erase best ↔
      c ≠ best ∧ c ∈ candidates w s := nodup_candidates.mem_erase_iff
  cases hrunner : firstBest rankKey ((candidates w s).erase best) with
  | none =>
    obtain ⟨c, hc, hne⟩ := hothers
    have hnil := firstBest_eq_none.mp hrunner
    simpa [hnil] using hothers_iff.mpr ⟨hne, hc⟩
  | some runner =>
    obtain ⟨hne, hmem⟩ := hothers_iff.mp (mem_of_firstBest hrunner)
    refine ⟨runner, hmem, hne, fun c hc hcne => ?_, by simp [account, hrunner]⟩
    exact le_of_firstBest hrunner (hothers_iff.mpr ⟨hcne, hc⟩)

/-- Every mark has its rule. -/
theorem ruleChosen_of_lt {runner : Candidate} (hlt : rankKey best < rankKey runner) :
    ∃ i, BeatsAt (rankKey best) (rankKey runner) i ∧
      deliveryRules[i]? = some (ruleChosen best runner) := by
  obtain ⟨i, hi, hbeats⟩ := beatsAt_deciding
    ((length_rankKey best).trans (length_rankKey runner).symm) hlt
  have hrule : i < deliveryRules.length := hbeats.lt_length
  exact ⟨i, hbeats, by simp [ruleChosen, decidingPosition, hi, List.getElem?_eq_getElem hrule]⟩

theorem namesTheRule_select (hopen : s.ladder.pipeline.userDispute = none)
    (hbest : firstBest rankKey (candidates w s) = some best)
    (halone : ∀ d ∈ candidates w s, d ≠ best → rankKey d ≠ rankKey best) :
    NamesTheRule w s (select w s) best := by
  intro hothers
  obtain ⟨runner, hmem, hne, hleast, hrule⟩ := exists_runner hothers
  have hlt : rankKey best < rankKey runner :=
    lt_of_le_of_ne (le_of_firstBest hbest hmem) (halone runner hmem hne).symm
  obtain ⟨i, hbeats, hi⟩ := ruleChosen_of_lt hlt
  exact ⟨_, deliveredFrom_select hopen hbest hothers, runner, hmem, hne, hleast, i, hbeats,
    hi.trans (congrArg some hrule.symm)⟩

/-- No other candidate ranks with one whose account names a mark at which it wins. -/
theorem alone_of_namesTheRule {d : FinalState} (hnames : NamesTheRule w s d best)
    (hleast : ∀ c ∈ candidates w s, rankKey best ≤ rankKey c) :
    ∀ c ∈ candidates w s, c ≠ best → rankKey c ≠ rankKey best := by
  intro c hc hne heq
  obtain ⟨why, -, runner, hmem, -, hsecond, i, hbeats, -⟩ := hnames ⟨c, hc, hne⟩
  have hlevel : rankKey runner = rankKey best :=
    le_antisymm ((hsecond c hc hne).trans heq.le) (hleast runner hmem)
  exact hbeats.ne hlevel.symm

theorem Best.outranked_by_none (hbest : Best w s best) :
    ∀ c ∈ candidates w s, rankKey best ≤ rankKey c := by
  intro c hc
  obtain ⟨d, hd, hworkspace, hle⟩ := hbest.least c.workspace (valid_of_mem hc).1
  have hsame : d = c := by
    refine List.inj_on_of_nodup_map ?_ hd hc hworkspace
    exact nodup_foldl_addReviewed s.history (by cases lastCandidate w s <;> simp)
  exact hsame ▸ hle

theorem bestIsUnmixed_of_deliversWhole (hwhole : DeliversWhole w s) : BestIsUnmixed w s := by
  intro hopen c hc hleast
  obtain ⟨best, hbest, hholds, hnames⟩ := hwhole hopen ⟨c.workspace, (valid_of_mem hc).1⟩
  have halone := alone_of_namesTheRule hnames hbest.outranked_by_none
  -- two that none outranks are level, so there is only one of them
  have honly : ∀ d ∈ candidates w s, (∀ d' ∈ candidates w s, rankKey d ≤ rankKey d') →
      d = best := by
    intro d hd hdleast
    by_contra hne
    exact halone d hd hne (le_antisymm (hdleast best hbest.mem) (hbest.outranked_by_none d hd))
  obtain ⟨m, hm⟩ := exists_firstBest rankKey hc
  obtain rfl := honly m (mem_of_firstBest hm) fun _ hd => le_of_firstBest hm hd
  obtain rfl := honly c hc hleast
  exact ⟨(holdsOnly_select_iff hopen hm).mp hholds, halone⟩

theorem deliversWhole_of_bestIsUnmixed (hunmixed : BestIsUnmixed w s) : DeliversWhole w s := by
  rintro hopen ⟨ws, hvalid⟩
  obtain ⟨c, hc, -⟩ := exists_mem_of_valid hvalid
  obtain ⟨best, hbest⟩ := exists_firstBest rankKey hc
  have hmem := mem_of_firstBest hbest
  have hleast : ∀ d ∈ candidates w s, rankKey best ≤ rankKey d :=
    fun _ hd => le_of_firstBest hbest hd
  obtain ⟨hown, halone⟩ := hunmixed hopen best hmem hleast
  exact ⟨best, best_of_least hmem hleast, (holdsOnly_select_iff hopen hbest).mpr hown,
    namesTheRule_select hopen hbest halone⟩

/-- A run delivers its best valid mesh whole exactly when every candidate that none outranks is
unmixed and ranks alone. -/
theorem delivers_whole_iff (w : DeliveryWorld) (s : FinalState) :
    DeliversWhole w s ↔ BestIsUnmixed w s :=
  ⟨bestIsUnmixed_of_deliversWhole, deliversWhole_of_bestIsUnmixed⟩

/-! ## Where an attempt is mixed -/

/-- Two attempts of one run; the second one's worst cells are the better shaped. -/
def twoMeshes : DeliveryWorld where
  registry := {
    catalog := []
    named := by simp
    defaultEngine := "snappy"
    flowRanking _ := []
    gateCause _ _ := none }
  settings := .default
  criteria _ := []
  readManifest ws :=
    some ⟨"", none, [("max_non_ortho", .number (if ws = "attempt_1" then 60 else 50))], false, none⟩

/-- The first review's finding. -/
def wrongSide : Finding := ⟨⟨false, some true, true⟩, 1⟩

/-- The second attempt passed its gates and its review did not conclude: the state still holds what
the first review found. -/
def stalledReview : FinalState where
  ladder := {
    pipeline := { PipelineState.initial none with
      retryCount := 2
      executorSuccess := true
      reviewerVerdict := some .FAIL
      reviewerAxisFindings := [wrongSide.toAxisFinding] }
    engine := "snappy"
    engineParams := []
    approval := ⟨.system, "external_cfd", none, none, [], none, false, false, false, false⟩
    report := ⟨[], [], false, none, false⟩
    record := ⟨none, none, [], [], [], none⟩ }
  apiFailure := "reviewer_stalled"
  workspace := "attempt_2"
  manifest := none
  findings := [wrongSide]
  feedback := ""
  history := [⟨1, "attempt_1", some .FAIL, [wrongSide], "", [], "snappy", some [], by decide⟩]
  deliveredFrom := none
  routed := rfl

/-- The second attempt is delivered with the finding of the first. -/
theorem delivers_another_attempts_finding : ¬ DeliversWhole twoMeshes stalledReview := by
  intro hwhole
  obtain ⟨⟨-, -, hmade⟩, -⟩ := bestIsUnmixed_of_deliversWhole hwhole rfl
    ((lastCandidate twoMeshes stalledReview).get (by decide)) (by decide) (by decide)
  exact absurd (hmade wrongSide (by decide)) (by decide)

end MeshPipeline.Application.ReviewDelivery
