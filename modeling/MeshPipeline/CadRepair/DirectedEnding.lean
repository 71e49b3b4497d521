import Mathlib.Algebra.Ring.Int.Defs
import MeshPipeline.CadRepair.HonestEnding
import MeshPipeline.CadRepair.ThroughHole

/-!
# The ending of a directed run

The rules do not repeat themselves, and directives are accounted for unless the run ends on one.
-/

namespace MeshPipeline.CadRepair

/-! ## What the planner proposes -/

variable {Shape Wire : Type*} {kernel : Kernel Shape Wire} {consents : Consents}
  {reserved : List DefectCode} {shape : Shape} {defects : List Defect}
  {history history' : RunHistory} {planner planner' : RepairPlanner} {c : Candidate}

/-- Two histories of the same attempts. -/
def SameAttempts (h h' : RunHistory) : Prop :=
  h'.ineffective = h.ineffective ∧ h'.declined = h.declined

lemma same_refuse (h : RunHistory) (defect reason detail : String) :
    SameAttempts h (h.refuse defect reason detail) := by
  unfold RunHistory.refuse
  split
  · exact ⟨rfl, rfl⟩
  · exact ⟨rfl, rfl⟩

lemma same_refuseFilling (h : RunHistory) (reason : String) :
    SameAttempts h (h.refuseFilling reason) := by
  unfold RunHistory.refuseFilling
  split
  · exact ⟨rfl, rfl⟩
  · exact ⟨rfl, rfl⟩

lemma SameAttempts.trans {h h' h'' : RunHistory} (a : SameAttempts h h')
    (b : SameAttempts h' h'') : SameAttempts h h'' :=
  ⟨b.1.trans a.1, b.2.trans a.2⟩

lemma same_foldl {note : RunHistory → String → RunHistory}
    (hnote : ∀ h rim, SameAttempts h (note h rim)) (rims : List String) (h : RunHistory) :
    SameAttempts h (rims.foldl note h) := by
  induction rims generalizing h with
  | nil => exact ⟨rfl, rfl⟩
  | cons rim rims ih => exact (hnote h rim).trans (ih (note h rim))

lemma same_noteRims (h : RunHistory) (rims : Rims) : SameAttempts h (h.noteRims rims) := by
  unfold RunHistory.noteRims
  dsimp only
  split
  · refine (same_foldl (fun h rim => ?_) _ h).trans (same_refuseFilling _ _)
    exact same_refuse h rim _ _
  · refine same_foldl (fun h rim => ?_) _ h
    exact (same_refuse h rim _ _).trans (same_refuseFilling _ _)

/-- A proposal of the rules that the run has not learned to leave. -/
structure Fresh (history : RunHistory) (c : Candidate) : Prop where
  directive : c.directive = none
  effective : history.wasIneffective c.defectFingerprint c.op.name = false
  undeclined : history.wasDeclined c.op.name c.targets = false

lemma fresh_of_offerOf {held : List String} {d : Defect} {op : RepairOp}
    {targets : List EntityRef} (h : offerOf history held d op = .aim targets) :
    Fresh history ⟨op, targets, d.code, d.fingerprint, none⟩ := by
  unfold offerOf at h
  refine ⟨rfl, ?_, ?_⟩
  · grind
  · grind

lemma fresh_of_firstAim {held : List String} {d : Defect} {ops : List RepairOp}
    (h : firstAim history held d ops = .ok c) : Fresh history c := by
  induction ops with
  | nil => cases h
  | cons op ops ih =>
    unfold firstAim at h
    split at h
    · cases h
      exact fresh_of_offerOf ‹_›
    · exact ih h
    · cases h
    · cases h
      exact ih ‹_›

lemma Fresh.of_same (hsame : SameAttempts history history') (h : Fresh history' c) :
    Fresh history c := by
  refine ⟨h.directive, ?_, ?_⟩
  · have := h.effective
    unfold RunHistory.wasIneffective at this ⊢
    rwa [← hsame.1]
  · have := h.undeclined
    unfold RunHistory.wasDeclined at this ⊢
    rwa [← hsame.2]

lemma firstProposal_same {ops : List RepairOp} {held : List String} {ordered : List Defect}
    {candidate : Option Candidate}
    (h : firstProposal ops reserved held ordered history = (candidate, history')) :
    SameAttempts history history' ∧ ∀ c, candidate = some c → Fresh history' c := by
  induction ordered generalizing history with
  | nil =>
    cases h
    exact ⟨⟨rfl, rfl⟩, by simp⟩
  | cons d ds ih =>
    have hrest : ∀ {g : RunHistory}, SameAttempts history g →
        firstProposal ops reserved held ds g = (candidate, history') →
        SameAttempts history history' ∧ ∀ c, candidate = some c → Fresh history' c := by
      intro g hg hrest
      obtain ⟨hsame, hfresh⟩ := ih hrest
      exact ⟨hg.trans hsame, hfresh⟩
    unfold firstProposal at h
    split at h
    · exact hrest ⟨rfl, rfl⟩ h
    split at h
    · exact hrest (same_refuse _ _ _ _) h
    split at h
    · cases h
      refine ⟨⟨rfl, rfl⟩, ?_⟩
      rintro c ⟨⟩
      exact fresh_of_firstAim ‹_›
    · exact hrest ⟨rfl, rfl⟩ h
    · exact hrest (same_refuse _ _ _ _) h

/-- The directives that a planner was given and that no proposal plays. -/
def RepairPlanner.left (planner : RepairPlanner) : List Directive :=
  planner.unplayable.map Prod.fst ++ planner.pending

/-- A directive is played, or it is noted why not. -/
lemma play_left {pending : List Directive} {unplayable : List (Directive × Unplayable)}
    {candidate : Option Candidate}
    (h : play kernel consents reserved shape defects history pending unplayable =
      (candidate, planner')) :
    ((candidate.bind Candidate.directive).toList ++ planner'.left).Perm
        (unplayable.map Prod.fst ++ pending) ∧
      ∀ c, candidate = some c → c.directive.isSome := by
  induction pending generalizing unplayable with
  | nil =>
    cases h
    exact ⟨.refl _, by simp⟩
  | cons d pending ih =>
    unfold play at h
    split at h
    · rename_i c hresolve
      cases h
      have hdirective := (resolve_ok hresolve).2.2.1
      refine ⟨?_, ?_⟩
      · simpa [hdirective, RepairPlanner.left] using List.perm_middle.symm
      · rintro c ⟨⟩
        simp [hdirective]
    · obtain ⟨hperm, hplayed⟩ := ih h
      refine ⟨hperm.trans ?_, hplayed⟩
      simp

/-- What a proposal does to the history and to the directives. -/
lemma propose_left {candidate : Option Candidate}
    (h : propose kernel consents reserved shape defects history planner =
      (candidate, history', planner')) :
    SameAttempts history history' ∧
      ((candidate.bind Candidate.directive).toList ++ planner'.left).Perm planner.left ∧
      ∀ c, candidate = some c → c.directive = none → Fresh history' c := by
  unfold propose at h
  split at h
  · rename_i c planner'' hplay
    cases h
    obtain ⟨hperm, hdirective⟩ := play_left hplay
    refine ⟨⟨rfl, rfl⟩, hperm, ?_⟩
    rintro c ⟨⟩ hnone
    have := hdirective c rfl
    simp [hnone] at this
  · rename_i planner'' hplay
    obtain ⟨hperm, -⟩ := play_left hplay
    unfold rulesPropose at h
    generalize hrules : firstProposal ((operations consents).insertionSort fun a b =>
      a.scope ≤ b.scope) reserved (heldFingerprints defects reserved)
      (defects.insertionSort fun d e => d.rank ≤ e.rank)
      (history.noteRims (pairedRimFingerprints kernel shape defects)) = rules at h
    obtain ⟨candidate', history''⟩ := rules
    cases h
    obtain ⟨hsame, hfresh⟩ := firstProposal_same hrules
    refine ⟨(same_noteRims _ _).trans hsame, ?_, fun c hc _ => hfresh c hc⟩
    have hnone : candidate.bind Candidate.directive = none := by
      cases candidate with
      | none => rfl
      | some c => exact (hfresh c rfl).directive
    rw [hnone]
    exact hperm

/-! ## What a run does with them -/

namespace DrivenRun

section

variable {K P Q : Type*} [Zero K] [Add K]

/-- The rules do not propose again what was rolled back, and not an aim that was declined. -/
def NeverAgain (r : DrivenRun Shape K P) : Prop :=
  r.proposals.Pairwise fun p q => q.candidate.directive = none →
    ∀ v, p.answer = some (.ok v) → v.status ≠ .kept →
      if v.declined.isSome then
        ¬ (q.candidate.op.name = p.candidate.op.name ∧
          (q.candidate.targets.map EntityRef.fingerprint).toFinset =
            (p.candidate.targets.map EntityRef.fingerprint).toFinset)
      else
        ¬ (q.candidate.op.name = p.candidate.op.name ∧
          q.candidate.defectFingerprint = p.candidate.defectFingerprint)

/-- The directives that were played. -/
def played (r : DrivenRun Shape K P) : List Directive :=
  (attempts r.proposals).filterMap fun p => p.candidate.directive

/-- Each directive was played or is reported, once. -/
def Accounted (planner : Planner Shape P Q) (directives : List Directive)
    (r : DrivenRun Shape K P) : Prop :=
  (r.played ++ (r.report planner).map Prod.fst).Perm directives

/-- The run would end on a directive: its errors are gone, and the next directive that can be played
is none of the exceptions. -/
def EndsOnDirective (consents : Consents) (reserved : List DefectCode)
    (limits : Limits) (r : DrivenRun Shape K RepairPlanner) (turn : Turn Shape K (Kernel Shape Wire)) :
    Prop :=
  r.ended = none ∧ r.session.log.length < limits.maxOps ∧ turn.timeSpent = false ∧
    ∃ c ∈ (play turn.query consents reserved r.session.shape r.session.view.defects r.history
      r.planner.pending r.planner.unplayable).1, r.settled limits c

instance (consents : Consents) (reserved : List DefectCode) (limits : Limits)
    (r : DrivenRun Shape K RepairPlanner) (turn : Turn Shape K (Kernel Shape Wire)) :
    Decidable (r.EndsOnDirective consents reserved limits turn) :=
  inferInstanceAs (Decidable (_ ∧ _ ∧ _ ∧ _))

end

variable {K : Type*} [Zero K] [Add K] {limits : Limits} {r t : DrivenRun Shape K RepairPlanner}
  {directives : List Directive} {turn : Turn Shape K (Kernel Shape Wire)}

/-- What the history knows of the proposals: each one that was rolled back, and each aim that was
declined; and the rules have left both. -/
structure Learned (r : DrivenRun Shape K RepairPlanner) : Prop where
  ineffective : ∀ p ∈ r.proposals, ∀ v, p.answer = some (.ok v) → v.status ≠ .kept →
    v.declined.isSome = false →
      r.history.wasIneffective p.candidate.defectFingerprint p.candidate.op.name
  declined : ∀ p ∈ r.proposals, ∀ v, p.answer = some (.ok v) → v.status ≠ .kept →
    v.declined.isSome → r.history.wasDeclined p.candidate.op.name p.candidate.targets
  never : r.NeverAgain

/-- Each directive is with a proposal or with the planner. -/
def Given (directives : List Directive) (r : DrivenRun Shape K RepairPlanner) : Prop :=
  (r.proposals.filterMap (fun p => p.candidate.directive) ++ r.planner.left).Perm directives

lemma Learned.of_same (h : r.Learned) (hsame : SameAttempts r.history history')
    (planner' : RepairPlanner) :
    Learned { r with history := history', planner := planner' } := by
  refine ⟨?_, ?_, h.never⟩
  · intro p hp v hv hkept hdeclined
    have := h.ineffective p hp v hv hkept hdeclined
    unfold RunHistory.wasIneffective at this ⊢
    rwa [hsame.1]
  · intro p hp v hv hkept hdeclined
    have := h.declined p hp v hv hkept hdeclined
    unfold RunHistory.wasDeclined at this ⊢
    rwa [hsame.2]

/-- A proposal that is fresh is none of those that were rolled back or declined. -/
lemma Learned.never_append (h : r.Learned) (hfresh : c.directive = none → Fresh r.history c)
    (answer : Option (Except String OpVerdict)) :
    NeverAgain { r with proposals := r.proposals ++ [⟨c, answer⟩] } := by
  refine List.pairwise_append.mpr ⟨h.never, List.pairwise_singleton _ _, ?_⟩
  intro p hp q hq hdirective v hv hkept
  obtain rfl := List.mem_singleton.mp hq
  obtain ⟨-, heffective, hundeclined⟩ := hfresh hdirective
  split
  · rename_i hdeclined
    rintro ⟨hop, htargets⟩
    have hknown := h.declined p hp v hv hkept hdeclined
    unfold RunHistory.wasDeclined at hknown hundeclined
    rw [hop, htargets, hknown] at hundeclined
    cases hundeclined
  · rename_i hdeclined
    rintro ⟨hop, hdefect⟩
    have hknown := h.ineffective p hp v hv hkept (by simpa using hdeclined)
    rw [hop, hdefect, hknown] at heffective
    cases heffective

/-- Where the new proposal is known as what it became, and nothing is forgotten, all is known. -/
lemma Learned.append (h : r.Learned) (hfresh : c.directive = none → Fresh r.history c)
    {answer : Option (Except String OpVerdict)} (ht : t.proposals = r.proposals ++ [⟨c, answer⟩])
    (hineffective : ∀ f o, r.history.wasIneffective f o → t.history.wasIneffective f o)
    (hdeclined : ∀ o ts, r.history.wasDeclined o ts → t.history.wasDeclined o ts)
    (hmissed : ∀ v, answer = some (.ok v) → v.status ≠ .kept → v.declined.isSome = false →
      t.history.wasIneffective c.defectFingerprint c.op.name)
    (hrefused : ∀ v, answer = some (.ok v) → v.status ≠ .kept → v.declined.isSome →
      t.history.wasDeclined c.op.name c.targets) : t.Learned := by
  refine ⟨?_, ?_, ?_⟩
  · intro p hp v hv hkept hnone
    obtain hp | hp := List.mem_append.mp (ht ▸ hp)
    · exact hineffective _ _ (h.ineffective p hp v hv hkept hnone)
    · obtain rfl := List.mem_singleton.mp hp
      exact hmissed v hv hkept hnone
  · intro p hp v hv hkept hsome
    obtain hp | hp := List.mem_append.mp (ht ▸ hp)
    · exact hdeclined _ _ (h.declined p hp v hv hkept hsome)
    · obtain rfl := List.mem_singleton.mp hp
      exact hrefused v hv hkept hsome
  · unfold NeverAgain
    rw [ht]
    exact h.never_append hfresh answer

lemma Learned.after_attempt (h : r.Learned) (hfresh : c.directive = none → Fresh r.history c)
    (ht : Attempted limits r c t) : t.Learned := by
  cases ht with
  | raised s e => exact h.append hfresh rfl (fun _ _ => id) (fun _ _ => id) (by simp) (by simp)
  | declined v d hv hdeclined =>
    refine h.append hfresh rfl (fun _ _ => id) ?_ ?_ ?_
    · intro o ts hknown
      simp [RunHistory.markDeclined, RunHistory.wasDeclined] at hknown ⊢
      exact .inr hknown
    · rintro w ⟨⟩ - hnone
      simp [hnone] at hdeclined
    · intro w _ _ _
      simp [RunHistory.markDeclined, RunHistory.wasDeclined]
  | missed v d hv hdeclined =>
    refine h.append hfresh rfl ?_ (fun _ _ => id) ?_ ?_
    · intro f o hknown
      simp [RunHistory.markIneffective, RunHistory.wasIneffective] at hknown ⊢
      exact .inr hknown
    · intro w _ _ _
      simp [RunHistory.markIneffective, RunHistory.wasIneffective]
    · rintro w ⟨⟩ - hsome
      exact absurd hsome hdeclined
  | kept shape found complete v d hv =>
    refine h.append hfresh rfl (fun _ _ => id) (fun _ _ => id) ?_ ?_
    · rintro w ⟨⟩ hkept
      exact absurd hv hkept
    · rintro w ⟨⟩ hkept
      exact absurd hv hkept

lemma proposals_of_attempted {r t : DrivenRun Shape K RepairPlanner} (ht : Attempted limits r c t) :
    t.planner = r.planner ∧ ∃ answer, t.proposals = r.proposals ++ [⟨c, some answer⟩] := by
  cases ht <;> exact ⟨rfl, _, rfl⟩

lemma Given.append (h : r.Given directives)
    (hleft : (c.directive.toList ++ planner'.left).Perm r.planner.left) (hp : t.planner = planner')
    {answer : Option (Except String OpVerdict)}
    (ht : t.proposals = r.proposals ++ [⟨c, answer⟩]) : t.Given directives := by
  unfold Given
  rw [ht, hp, List.filterMap_append, List.append_assoc]
  have hone : [(⟨c, answer⟩ : Proposal)].filterMap (fun p => p.candidate.directive) =
      c.directive.toList := by
    cases hdirective : c.directive <;> simp [hdirective]
  rw [hone]
  exact (hleft.append_left _).trans h

lemma learned_turned (hlearned : r.Learned) (hgiven : r.Given directives)
    (ht : Turned (directed consents reserved) limits r turn t) : t.Learned ∧ t.Given directives := by
  cases ht with
  | spent because => exact ⟨⟨hlearned.ineffective, hlearned.declined, hlearned.never⟩, hgiven⟩
  | dry history p hpropose =>
    obtain ⟨hsame, hleft, -⟩ := propose_left hpropose
    have hlearned := hlearned.of_same hsame p
    exact ⟨⟨hlearned.ineffective, hlearned.declined, hlearned.never⟩,
      (hleft.append_left _).trans hgiven⟩
  | settled c history p hpropose =>
    obtain ⟨hsame, hleft, hfresh⟩ := propose_left hpropose
    have hlearned := hlearned.of_same hsame p
    exact ⟨hlearned.append (hfresh c rfl) rfl (fun _ _ => id) (fun _ _ => id) (by simp) (by simp),
      hgiven.append hleft rfl rfl⟩
  | tried c history p t hroom hpropose hgoes ht =>
    obtain ⟨hsame, hleft, hfresh⟩ := propose_left hpropose
    have hlearned := hlearned.of_same hsame p
    obtain ⟨hplanner, answer, hproposals⟩ := proposals_of_attempted ht
    exact ⟨hlearned.after_attempt (hfresh c rfl) ht, hgiven.append hleft hplanner hproposals⟩

/-! ## The end of a directed run -/

/-- A directive was proposed, and the run ended on it. -/
def Dropped (r : DrivenRun Shape K RepairPlanner) : Prop :=
  ∃ p ∈ r.proposals, p.answer = none ∧ p.candidate.directive ≠ none

/-- The directives are accounted for unless one was dropped. -/
lemma accounted_iff (hgiven : r.Given directives) :
    r.Accounted (directed consents reserved : Planner Shape RepairPlanner (Kernel Shape Wire))
      directives ↔ ¬ r.Dropped := by
  have hreport : (r.report (directed consents reserved :
      Planner Shape RepairPlanner (Kernel Shape Wire))).map Prod.fst = r.planner.left := by
    simp [report, directed, RepairPlanner.left, Function.comp_def]
  have hsplit := (List.filter_append_perm (fun p => p.answer.isSome) r.proposals).filterMap
    fun p => p.candidate.directive
  rw [List.filterMap_append] at hsplit
  have hdropped : (r.proposals.filter fun p => !p.answer.isSome).filterMap
      (fun p => p.candidate.directive) = [] ↔ ¬ r.Dropped := by
    rw [List.filterMap_eq_nil_iff]
    simp [Dropped, List.mem_filter]
  rw [← hdropped]
  unfold Accounted played attempts
  rw [hreport]
  constructor
  · intro hperm
    have hlength := hperm.length_eq.trans hgiven.length_eq.symm
    have hparts := hsplit.length_eq
    rw [List.length_append, List.length_append] at hlength
    rw [List.length_append] at hparts
    exact List.length_eq_zero_iff.mp (by omega)
  · intro hnone
    rw [hnone, List.append_nil] at hsplit
    exact (hsplit.append_right _).trans hgiven

lemma play_of_propose (h : propose kernel consents reserved shape defects history planner =
    (some c, history', planner')) :
    (play kernel consents reserved shape defects history planner.pending planner.unplayable).1 =
      if c.directive = none then none else some c := by
  unfold propose at h
  split at h
  · rename_i c' planner'' hplay
    cases h
    have hdirective := (play_left hplay).2 c rfl
    simp [hplay, Option.isSome_iff_ne_none.mp hdirective]
  · rename_i planner'' hplay
    unfold rulesPropose at h
    generalize hrules : firstProposal ((operations consents).insertionSort fun a b =>
      a.scope ≤ b.scope) reserved (heldFingerprints defects reserved)
      (defects.insertionSort fun d e => d.rank ≤ e.rank)
      (history.noteRims (pairedRimFingerprints kernel shape defects)) = rules at h
    obtain ⟨candidate', history''⟩ := rules
    cases h
    have hdirective := ((firstProposal_same hrules).2 c rfl).directive
    simp [hplay, hdirective]

lemma play_of_dry (h : propose kernel consents reserved shape defects history planner =
    (none, history', planner')) :
    (play kernel consents reserved shape defects history planner.pending planner.unplayable).1 =
      none := by
  unfold propose at h
  split at h
  · cases h
  · rename_i planner'' hplay
    simp [hplay]

/-- A turn drops a directive exactly when the run would end on it. -/
lemma dropped_turned (hrunning : r.ended = none)
    (ht : Turned (directed consents reserved) limits r turn t) :
    t.Dropped ↔ r.Dropped ∨ r.EndsOnDirective consents reserved limits turn := by
  cases ht with
  | spent because _ hspent =>
    have hnot : ¬ r.EndsOnDirective consents reserved limits turn := by
      rintro ⟨-, hroom, htime, -⟩
      obtain hspent | hspent := hspent
      · omega
      · simp [htime] at hspent
    simp only [hnot, or_false]
    rfl
  | dry history p hpropose =>
    have hnot : ¬ r.EndsOnDirective consents reserved limits turn := by
      rintro ⟨-, -, -, c, hc, -⟩
      rw [play_of_dry hpropose] at hc
      cases hc
    simp only [hnot, or_false]
    rfl
  | settled c history p hpropose hroom htime hsettled =>
    have hends : r.EndsOnDirective consents reserved limits turn ↔ c.directive ≠ none := by
      constructor
      · rintro ⟨-, -, -, c', hc', -⟩ hnone
        rw [play_of_propose hpropose, if_pos hnone] at hc'
        cases hc'
      · intro hsome
        refine ⟨hrunning, hroom, htime, c, ?_, hsettled⟩
        rw [play_of_propose hpropose, if_neg hsome]
        rfl
    rw [hends]
    simp [Dropped, or_and_right, exists_or]
  | tried c history p t hroom hpropose hgoes ht =>
    have hnot : ¬ r.EndsOnDirective consents reserved limits turn := by
      rintro ⟨-, -, -, c', hc', hsettled⟩
      rw [play_of_propose hpropose] at hc'
      split at hc'
      · cases hc'
      · cases hc'
        rw [hgoes] at hsettled
        cases hsettled
    obtain ⟨-, answer, hproposals⟩ := proposals_of_attempted ht
    simp only [hnot, or_false]
    unfold Dropped
    rw [hproposals]
    simp

variable [Neg K] [Sub K] [Div K] [Max K] [LE K] [LT K] [DecidableLE K] [DecidableLT K]
  {policy : CapPolicy K} {run : List (Turn Shape K (Kernel Shape Wire))}

/-- A run drops a directive exactly when one of its turns does. -/
lemma dropped_run (hinv : r.Inv limits)
    (h : (machine (directed consents reserved) policy limits).exec r run = some t) :
    ¬ t.Dropped ↔ ¬ r.Dropped ∧ (machine (directed consents reserved) policy limits).Meets
      (fun r turn => ¬ r.EndsOnDirective consents reserved limits turn) r run := by
  induction run generalizing r with
  | nil =>
    obtain rfl : r = t := by simpa using h
    simp [Transition.Machine.Meets]
  | cons turn run ih =>
    obtain ⟨u, hu, hrest⟩ := Transition.Machine.exec_cons_eq_some.mp h
    obtain ⟨hrunning, hturned⟩ := hinv.turned hu
    rw [ih (hinv.step hu) hrest, Transition.Machine.meets_cons hu, dropped_turned hrunning hturned]
    tauto

lemma learned_run {session : RepairSession Shape K} {firstScan : Except String (List Defect × Bool)}
    (h : (machine (directed consents reserved) policy limits).exec
      (start session ⟨directives, []⟩ firstScan) run = some r) : r.Learned ∧ r.Given directives := by
  have hnil : (start session (⟨directives, []⟩ : RepairPlanner) firstScan).proposals = [] ∧
      (start session (⟨directives, []⟩ : RepairPlanner) firstScan).planner = ⟨directives, []⟩ := by
    unfold start
    split <;> exact ⟨rfl, rfl⟩
  have hlearned : (start session (⟨directives, []⟩ : RepairPlanner) firstScan).Learned := by
    refine ⟨?_, ?_, ?_⟩
    · simp [hnil.1]
    · simp [hnil.1]
    · simp [NeverAgain, hnil.1]
  have hgiven : (start session (⟨directives, []⟩ : RepairPlanner) firstScan).Given directives := by
    simp [Given, hnil, RepairPlanner.left]
  have hstep : ∀ (r : DrivenRun Shape K RepairPlanner) (turn : Turn Shape K (Kernel Shape Wire)) t,
      r.Inv limits ∧ r.Learned ∧ r.Given directives →
      (machine (directed consents reserved) policy limits).step r turn = some t →
      t.Inv limits ∧ t.Learned ∧ t.Given directives := by
    rintro r turn t ⟨hinv, hlearned, hgiven⟩ hstep
    exact ⟨hinv.step hstep, learned_turned hlearned hgiven (hinv.turned hstep).2⟩
  exact (Transition.Machine.exec_invariant_of_step hstep
    ⟨inv_start session ⟨directives, []⟩ firstScan, hlearned, hgiven⟩ h).2

/-- Under any planner, and whatever its calls answer, a run ends after no more attempts than it may make,
and neither `resolved` nor `stalled` is said in vain. A directed run does not repeat itself, and one that
reports accounts for its directives exactly when no turn of it ends on a directive. -/
theorem repair_run_honest {Shape W K P Q : Type*} [Zero K] [Add K] [Neg K] [Sub K] [Div K] [Max K]
    [LE K] [LT K] [DecidableLE K] [DecidableLT K] (policy : CapPolicy K) (limits : Limits)
    (session : RepairSession Shape K) (firstScan : Except String (List Defect × Bool)) :
    (∀ (planner : Planner Shape P Q) (p : P),
      (∀ turns : Nat → Turn Shape K Q, ∃ n t, (machine planner policy limits).exec
        (start session p firstScan) ((List.range n).map turns) = some t ∧ t.ended.isSome) ∧
      ∀ run t, (machine planner policy limits).exec (start session p firstScan) run = some t →
        t.HonestEnding limits) ∧
    ∀ consents reserved directives (run : List (Turn Shape K (Kernel Shape W))) t,
      (machine (directed consents reserved) policy limits).exec
          (start session ⟨directives, []⟩ firstScan) run = some t →
        t.NeverAgain ∧
          (t.Accounted (directed consents reserved : Planner Shape RepairPlanner (Kernel Shape W))
              directives ↔
            (machine (directed consents reserved) policy limits).Meets
              (fun r turn => ¬ r.EndsOnDirective consents reserved limits turn)
              (start session ⟨directives, []⟩ firstScan) run) := by
  refine ⟨fun planner p => ⟨run_ends planner policy limits session p firstScan,
    fun run t h => run_honest h⟩, fun consents reserved directives run t h => ?_⟩
  obtain ⟨hlearned, hgiven⟩ := learned_run h
  refine ⟨hlearned.never, ?_⟩
  rw [accounted_iff hgiven, dropped_run (inv_start session _ firstScan) h]
  have hstart : ¬ (start session (⟨directives, []⟩ : RepairPlanner) firstScan).Dropped := by
    have hnil : (start session (⟨directives, []⟩ : RepairPlanner) firstScan).proposals = [] := by
      unfold start
      split <;> rfl
    simp [Dropped, hnil]
  simp [hstart]

end DrivenRun

/-! ## Two small edges -/

def smallEdge (edge : Nat) (severity : Severity) : Defect :=
  ⟨.smallEdge, severity, .edge, edge, "edge-" ++ toString edge, false, [], [], [], false, none⟩

def collapseEdge (edge : Nat) : Directive :=
  ⟨"fix_small_edges", "small_edge", ["edge-" ++ toString edge], "", "engineer", false, none⟩

/-- A part without open boundaries. -/
def closedPart : Kernel Nat Nat where
  apply _ _ _ := .error "not asked"
  capRefusal _ _ _ _ := none
  scan _ _ := ([], true)
  freeWire _ _ := none
  pairedRims _ _ := some []

/-- The operation of a turn leaves some findings. -/
def leaving (shape : Nat) (found : List Defect) : Turn Nat Int (Kernel Nat Nat) :=
  ⟨closedPart, false, .error "not asked", .ok edgeSession.original,
    .ok ⟨⟨shape, [], [], [], none, []⟩, 0, ⟨0, 0⟩⟩, .ok edgeSession.original, .ok (found, true)⟩

def uploadedPart : RepairSession Nat Int := { edgeSession with defects := none }

def edgeLimits : Limits := ⟨6, 2, ⟨false, false, false⟩⟩

namespace DrivenRun

def edgePlanner : Planner Nat RepairPlanner (Kernel Nat Nat) := directed edgeLimits.consents []

/-- A run with a directive for each of two edges. -/
def edgeStart (found : List Defect) : DrivenRun Nat Int RepairPlanner :=
  start uploadedPart ⟨[collapseEdge 1, collapseEdge 2], []⟩ (.ok (found, true))

/-- Two errors, each with its directive. -/
theorem repair_run_honest_edges : ∃ t, (machine edgePlanner exactCaps edgeLimits).exec
      (edgeStart [smallEdge 1 .error, smallEdge 2 .error])
      [leaving 1 [smallEdge 2 .error], leaving 2 [], leaving 3 []] = some t ∧
    t.HonestEnding edgeLimits ∧ t.NeverAgain ∧
      t.Accounted edgePlanner [collapseEdge 1, collapseEdge 2] := by
  have hhonest := repair_run_honest (W := Nat) (P := RepairPlanner) (Q := Kernel Nat Nat) exactCaps
    edgeLimits uploadedPart (.ok ([smallEdge 1 .error, smallEdge 2 .error], true))
  have hrun : ((machine edgePlanner exactCaps edgeLimits).exec
      (edgeStart [smallEdge 1 .error, smallEdge 2 .error])
      [leaving 1 [smallEdge 2 .error], leaving 2 [], leaving 3 []]).isSome := by decide +kernel
  obtain ⟨t, ht⟩ := Option.isSome_iff_exists.mp hrun
  obtain ⟨hnever, haccounted⟩ := hhonest.2 _ _ _ _ t ht
  refine ⟨t, ht, (hhonest.1 edgePlanner _).2 _ t ht, hnever, haccounted.mpr ?_⟩
  decide +kernel

/-- An error and a warning, each with its directive: the run ends on the second one. -/
theorem directive_dropped : ∃ t, (machine edgePlanner exactCaps edgeLimits).exec
      (edgeStart [smallEdge 1 .error, smallEdge 2 .warning])
      [leaving 1 [smallEdge 2 .warning], leaving 2 []] = some t ∧
    t.ended = some (.stopped .resolved) ∧
      ¬ t.Accounted edgePlanner [collapseEdge 1, collapseEdge 2] := by
  have hrun : ((machine edgePlanner exactCaps edgeLimits).exec
      (edgeStart [smallEdge 1 .error, smallEdge 2 .warning])
      [leaving 1 [smallEdge 2 .warning], leaving 2 []]).map (fun t =>
        (t.ended, (t.played ++ (t.report edgePlanner).map Prod.fst).length)) =
      some (some (.stopped .resolved), 1) := by decide +kernel
  obtain ⟨t, ht, heq⟩ := Option.map_eq_some_iff.mp hrun
  obtain ⟨hended, hlength⟩ := Prod.mk.inj heq
  refine ⟨t, ht, hended, fun haccounted => ?_⟩
  have hboth := haccounted.length_eq
  rw [hlength] at hboth
  cases hboth

end DrivenRun

end MeshPipeline.CadRepair
