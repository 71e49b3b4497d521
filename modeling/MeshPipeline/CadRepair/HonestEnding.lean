import MeshPipeline.CadRepair.AllOrNothing
import MeshPipeline.CadRepair.Driver

/-!
# The ending of a repair run

Whatever the planner, the answers of the kernel and the clock, a run is short, and what it says of its
ending is so.
-/

namespace MeshPipeline.CadRepair

/-! ## What an attempt does to a session -/

section

variable {Shape K : Type*} [Zero K] [Add K]

/-- What an attempt makes of a session with the list `defects`. -/
inductive Tried (s : RepairSession Shape K) (defects : List Defect) :
    RepairSession Shape K × Except String OpVerdict → Prop
  | raised (t : RepairSession Shape K) (e : String) (hlog : t.log = s.log) :
    Tried s defects (t, .error e)
  | missed (v : OpVerdict) (d : Declaration K) (hv : v.status ≠ .kept) :
    Tried s defects (s.miss v d hv)
  | kept (shape : Shape) (found : List Defect) (complete : Bool) (v : OpVerdict)
      (d : Declaration K) (hv : v.status = .kept) :
    Tried s defects (RepairSession.keep
      { s with shape := shape, defects := some found, completeScan := complete } v d hv)

variable [Neg K] [Sub K] [Div K] [Max K] [LE K] [LT K] [DecidableLE K] [DecidableLT K]

lemma tried_of_judged {policy : CapPolicy K} {s : RepairSession Shape K} {defects : List Defect}
    {calls : Calls Shape K} {op : RepairOp} {targets : List EntityRef} {code : DefectCode}
    {answeredHeld : List String} {before : Measure K} {outcome : OpOutcome Shape K}
    {result : RepairSession Shape K × Except String OpVerdict}
    (h : Judged policy s defects calls op targets code answeredHeld before outcome result) :
    Tried s defects result := by
  cases h with
  | unmeasured e => exact .raised _ e rfl
  | rolledBack _ _ v hv => exact .missed v _ hv
  | unscanned _ e => exact .raised _ e rfl
  | kept _ _ _ v hv => exact .kept _ _ _ v _ hv

lemma tryOp_tried (policy : CapPolicy K) {s : RepairSession Shape K} {defects : List Defect}
    (hs : s.defects = some defects) (calls : Calls Shape K) (op : RepairOp)
    (targets : List EntityRef) (code : DefectCode) (answeredHeld : List String) :
    Tried s defects (s.tryOp policy calls op targets code answeredHeld) := by
  have hscanned : s.scanned calls.firstScan = .ok (s, defects) := by
    unfold RepairSession.scanned
    rw [hs]
  unfold RepairSession.tryOp
  by_cases htargetable : (targets.any fun t => t.fingerprint == "") = true
  · rw [if_pos htargetable]
    exact .missed _ _ (by simp)
  rw [if_neg htargetable, hscanned]
  simp only
  split
  · exact .missed _ _ (by simp)
  · cases calls.measureBefore with
    | error e => exact .raised s e rfl
    | ok before =>
      cases calls.apply with
      | error e => exact .missed _ _ (by simp)
      | ok outcome => exact tried_of_judged (judgeOutcome_judged policy s defects calls op targets
          code answeredHeld before outcome)

end

/-! ## What a run says of its ending -/

/-- The proposals that were tried. -/
def attempts (proposals : List Proposal) : List Proposal :=
  proposals.filter fun p => p.answer.isSome

/-- The attempts since the last kept one that ran and were rolled back: a decline is none. -/
def missesSinceKept (proposals : List Proposal) : Nat :=
  proposals.foldl (fun n p =>
    match p.answer with
    | some (.ok v) => if v.status = .kept then 0 else if v.declined.isSome then n else n + 1
    | _ => n) 0

namespace DrivenRun

variable {Shape K P Q : Type*} [Zero K] [Add K]

/-- The ending of a run is honest. -/
structure HonestEnding (limits : Limits) (r : DrivenRun Shape K P) : Prop where
  bounded : (attempts r.proposals).length ≤ limits.maxOps
  resolved : r.ended = some (.stopped .resolved) → r.session.completeScan = true ∧
    ∀ d ∈ r.session.view.judged, ¬ d.severity.isError ∧
      ∀ v ∈ r.session.view.log, v.status ≠ .kept → v.op ≠ healOp → d.fingerprint ∉ v.targets
  stalled : r.ended = some (.stopped .stalled) →
    0 < missesSinceKept r.proposals ∧ limits.stallLimit ≤ missesSinceKept r.proposals

/-! ## What a turn does -/

section

variable {limits : Limits} {r : DrivenRun Shape K P} {c : Candidate}

/-- What an attempt makes of a run. -/
inductive Attempted (limits : Limits) (r : DrivenRun Shape K P) (c : Candidate) :
    DrivenRun Shape K P → Prop
  | raised (t : RepairSession Shape K) (e : String) (hlog : t.log = r.session.log) :
    Attempted limits r c { r with
      session := t
      proposals := r.proposals ++ [⟨c, some (.error e)⟩]
      ended := some (.raised e) }
  | declined (v : OpVerdict) (d : Declaration K) (hv : v.status ≠ .kept)
      (hdeclined : v.declined.isSome) :
    Attempted limits r c { r with
      session := (r.session.miss v d hv).1
      proposals := r.proposals ++ [⟨c, some (.ok v)⟩]
      history := r.history.markDeclined c.op.name c.targets }
  | missed (v : OpVerdict) (d : Declaration K) (hv : v.status ≠ .kept)
      (hdeclined : ¬ v.declined.isSome) :
    Attempted limits r c { r with
      session := (r.session.miss v d hv).1
      proposals := r.proposals ++ [⟨c, some (.ok v)⟩]
      history := r.history.markIneffective c.defectFingerprint c.op.name
      consecutiveMisses := r.consecutiveMisses + 1
      ended := if limits.stallLimit ≤ r.consecutiveMisses + 1 then
          some (.stopped ((r.session.miss v d hv).1.view.terminal .stalled))
        else none }
  | kept (shape : Shape) (found : List Defect) (complete : Bool) (v : OpVerdict)
      (d : Declaration K) (hv : v.status = .kept) :
    Attempted limits r c { r with
      session := (RepairSession.keep { r.session with
        shape := shape, defects := some found, completeScan := complete } v d hv).1
      proposals := r.proposals ++ [⟨c, some (.ok v)⟩]
      consecutiveMisses := 0
      ended := if complete then none else some (.stopped .scanIncomplete) }

variable [Neg K] [Sub K] [Div K] [Max K] [LE K] [LT K] [DecidableLE K] [DecidableLT K]
  {policy : CapPolicy K} {planner : Planner Shape P Q}

lemma attempt_attempted (policy : CapPolicy K) {defects : List Defect}
    (hs : r.session.defects = some defects) (calls : Calls Shape K) :
    Attempted limits r c (r.attempt policy limits calls c) := by
  have htried := tryOp_tried policy hs calls c.op c.targets c.defectCode (RepairRun.answeredHeld c)
  unfold attempt
  generalize r.session.tryOp policy calls c.op c.targets c.defectCode (RepairRun.answeredHeld c) =
    result at htried
  cases htried with
  | raised t e hlog => exact .raised t e hlog
  | missed v d hv =>
    have hmiss : r.session.miss v d hv = ((r.session.miss v d hv).1, .ok v) := rfl
    rw [hmiss]
    simp only [if_neg hv]
    split
    · rename_i hdeclined
      exact .declined v d hv hdeclined
    · rename_i hdeclined
      exact .missed v d hv hdeclined
  | kept shape found complete v d hv =>
    have hkeep : RepairSession.keep { r.session with
          shape := shape, defects := some found, completeScan := complete } v d hv =
        ((RepairSession.keep { r.session with
          shape := shape, defects := some found, completeScan := complete } v d hv).1, .ok v) := rfl
    rw [hkeep]
    simp only [if_pos hv]
    exact .kept shape found complete v d hv

/-- What a turn makes of a run. -/
inductive Turned (planner : Planner Shape P Q) (limits : Limits) (r : DrivenRun Shape K P)
    (turn : Turn Shape K Q) : DrivenRun Shape K P → Prop
  | spent (because : StopReason) (h : because = .opBudget ∨ because = .timeBudget)
      (hspent : limits.maxOps ≤ r.session.log.length ∨ turn.timeSpent = true) :
    Turned planner limits r turn (r.stop (r.session.view.terminal because))
  | dry (history : RunHistory) (p : P) (hpropose : planner.propose turn.query
      r.session.view.defects r.history r.session.shape r.planner = (none, history, p)) :
    Turned planner limits r turn
      ({ r with history := history, planner := p }.stop (r.session.view.terminal .noCandidate))
  | settled (c : Candidate) (history : RunHistory) (p : P) (hpropose : planner.propose turn.query
      r.session.view.defects r.history r.session.shape r.planner = (some c, history, p))
      (hroom : r.session.log.length < limits.maxOps) (htime : turn.timeSpent = false)
      (hsettled : r.settled limits c = true) :
    Turned planner limits r turn { r.stop .resolved with
      history := history, planner := p, proposals := r.proposals ++ [⟨c, none⟩] }
  | tried (c : Candidate) (history : RunHistory) (p : P) (t : DrivenRun Shape K P)
      (hroom : r.session.log.length < limits.maxOps) (hpropose : planner.propose turn.query
        r.session.view.defects r.history r.session.shape r.planner = (some c, history, p))
      (hgoes : r.settled limits c = false)
      (ht : Attempted limits { r with history := history, planner := p } c t) :
    Turned planner limits r turn t

lemma step_turned {turn : Turn Shape K Q} {t : DrivenRun Shape K P} {defects : List Defect}
    (hs : r.session.defects = some defects)
    (h : step planner policy limits r turn = some t) :
    r.ended = none ∧ Turned planner limits r turn t := by
  unfold step at h
  split at h
  · cases h
  rename_i hrunning
  refine ⟨by simpa using hrunning, ?_⟩
  split at h
  · rename_i hspent
    cases h
    exact .spent _ (.inl rfl) (.inl hspent)
  rename_i hroom
  split at h
  · rename_i htime
    cases h
    exact .spent _ (.inr rfl) (.inr htime)
  · rename_i htime
    generalize hpropose : planner.propose turn.query r.session.view.defects r.history
      r.session.shape r.planner = proposal at h
    obtain ⟨_ | c, history, p⟩ := proposal
    · cases h
      exact .dry history p hpropose
    · dsimp only at h
      split at h
      · rename_i hsettled
        cases h
        exact .settled c history p hpropose (by omega) (by simpa using htime) hsettled
      · rename_i hgoes
        cases h
        have ht : Attempted limits { r with history := history, planner := p } c
            (attempt policy limits turn.calls { r with history := history, planner := p } c) :=
          attempt_attempted policy (by exact hs) turn.calls
        exact .tried c history p _ (by omega) hpropose (Bool.eq_false_of_not_eq_true hgoes) ht

end

/-! ## Any planner -/

/-- What every run keeps: while it goes on, its scan is complete and it has attempts left. -/
structure Inv (limits : Limits) (r : DrivenRun Shape K P) : Prop where
  scanned : r.ended = none → r.session.defects.isSome
  complete : r.ended = none → r.session.completeScan = true
  logged : r.ended = none →
    (attempts r.proposals).length ≤ r.session.log.length
  misses : r.consecutiveMisses = missesSinceKept r.proposals
  honest : r.HonestEnding limits

variable {limits : Limits} {r t : DrivenRun Shape K P} {c : Candidate}

lemma missesSinceKept_append (proposals : List Proposal) (p : Proposal) :
    missesSinceKept (proposals ++ [p]) =
      match p.answer with
      | some (.ok v) =>
        if v.status = .kept then 0
        else if v.declined.isSome then missesSinceKept proposals
        else missesSinceKept proposals + 1
      | _ => missesSinceKept proposals := by
  unfold missesSinceKept
  rw [List.foldl_append]
  rfl

lemma terminal_eq {Shape : Type*} {s : Session Shape} {fallback because : StopReason}
    (h : s.terminal fallback = because) : because = fallback ∨ because = .scanIncomplete ∨
      because = .resolved ∧ s.completeScan ∧ s.errorsRemain = false ∧ s.abandoned = false := by
  unfold Session.terminal at h
  split_ifs at h with hscan hclean
  · exact .inr (.inl h.symm)
  · refine .inr (.inr ⟨h.symm, by simpa using hscan, ?_⟩)
    simpa using hclean
  · exact .inl h.symm

/-- What `resolved` claims, from the two tests of the loop. -/
lemma clean_of_tests {Shape : Type*} {s : Session Shape} (herrors : s.errorsRemain = false)
    (habandoned : s.abandoned = false) : ∀ d ∈ s.judged, ¬ d.severity.isError ∧
      ∀ v ∈ s.log, v.status ≠ .kept → v.op ≠ healOp → d.fingerprint ∉ v.targets := by
  intro d hd
  refine ⟨List.any_eq_false.mp herrors d hd, fun v hv hstatus hop htarget => ?_⟩
  have hnone := List.any_eq_false.mp habandoned d hd
  refine hnone (List.any_eq_true.mpr ⟨v, hv, ?_⟩)
  simp [hstatus, hop, htarget]

/-- A run that the common rule ends, with a reason that is not `resolved`. -/
lemma honest_of_terminal {because : StopReason} (hbecause : because ≠ .resolved)
    (hended : r.ended = some (.stopped (r.session.view.terminal because)))
    (hbounded : (attempts r.proposals).length ≤ limits.maxOps)
    (hstalled : because = .stalled →
      0 < missesSinceKept r.proposals ∧ limits.stallLimit ≤ missesSinceKept r.proposals) :
    r.HonestEnding limits := by
  refine ⟨hbounded, fun hresolved => ?_, fun h => hstalled ?_⟩
  · have hterminal := Ending.stopped.inj (Option.some.inj (hended.symm.trans hresolved))
    obtain h | h | ⟨-, hcomplete, herrors, habandoned⟩ := terminal_eq hterminal
    · exact absurd h.symm hbecause
    · cases h
    · exact ⟨hcomplete, clean_of_tests herrors habandoned⟩
  · have hterminal := Ending.stopped.inj (Option.some.inj (hended.symm.trans h))
    obtain h | h | ⟨h, -⟩ := terminal_eq hterminal
    · exact h.symm
    · cases h
    · cases h

/-- A run that goes on, or that ends on an exception or a cut scan. -/
lemma honest_of_other (hended : ∀ because, r.ended = some (.stopped because) →
      because = .scanIncomplete)
    (hbounded : (attempts r.proposals).length ≤ limits.maxOps) :
    r.HonestEnding limits := by
  refine ⟨hbounded, fun h => ?_, fun h => ?_⟩
  · cases hended _ h
  · cases hended _ h

lemma attempts_tried (proposals : List Proposal) (answer : Except String OpVerdict) :
    attempts (proposals ++ [⟨c, some answer⟩]) = attempts proposals ++ [⟨c, some answer⟩] := by
  simp [attempts]

lemma attempts_untried (proposals : List Proposal) :
    attempts (proposals ++ [⟨c, none⟩]) = attempts proposals := by
  simp [attempts]

lemma length_attempts_tried (proposals : List Proposal) (answer : Except String OpVerdict) :
    (attempts (proposals ++ [⟨c, some answer⟩])).length = (attempts proposals).length + 1 := by
  rw [attempts_tried, List.length_append, List.length_singleton]

lemma Inv.after_attempt (h : r.Inv limits) (hrunning : r.ended = none)
    (hroom : r.session.log.length < limits.maxOps) (ht : Attempted limits r c t) :
    t.Inv limits := by
  have hlogged := h.logged hrunning
  have hbound : (attempts r.proposals).length + 1 ≤ limits.maxOps := by omega
  cases ht with
  | raised s e hlog =>
    refine ⟨by simp, by simp, by simp, ?_, honest_of_other (by simp) ?_⟩
    · rw [missesSinceKept_append]
      exact h.misses
    · rwa [length_attempts_tried]
  | declined v d hv hdeclined =>
    refine ⟨h.scanned, h.complete, fun _ => ?_, ?_, honest_of_other (by simp [hrunning]) ?_⟩
    · rw [length_attempts_tried]
      simp [RepairSession.miss, hlogged]
    · rw [missesSinceKept_append]
      simp [hv, hdeclined, h.misses]
    · rwa [length_attempts_tried]
  | missed v d hv hdeclined =>
    have hmisses : missesSinceKept (r.proposals ++ [⟨c, some (.ok v)⟩]) = r.consecutiveMisses + 1 := by
      rw [missesSinceKept_append]
      simp [hv, hdeclined, h.misses]
    refine ⟨fun _ => h.scanned hrunning, fun _ => h.complete hrunning, fun _ => ?_, hmisses.symm, ?_⟩
    · rw [length_attempts_tried]
      simp [RepairSession.miss, hlogged]
    · by_cases hstall : limits.stallLimit ≤ r.consecutiveMisses + 1
      · refine honest_of_terminal (by simp) (if_pos hstall) ?_ fun _ => ?_
        · rwa [length_attempts_tried]
        · rw [hmisses]
          exact ⟨Nat.succ_pos _, hstall⟩
      · refine honest_of_other ?_ ?_
        · simp [hstall]
        · rwa [length_attempts_tried]
  | kept shape found complete v d hv =>
    refine ⟨fun _ => rfl, ?_, fun _ => ?_, ?_, honest_of_other ?_ ?_⟩
    · cases complete
      · simp
      · exact fun _ => rfl
    · rw [length_attempts_tried]
      simp [RepairSession.keep, hlogged]
    · rw [missesSinceKept_append]
      simp [hv]
    · cases complete <;> simp
    · rwa [length_attempts_tried]

variable {planner : Planner Shape P Q} {turn : Turn Shape K Q}

lemma Inv.after_turn (h : r.Inv limits) (hrunning : r.ended = none)
    (ht : Turned planner limits r turn t) : t.Inv limits := by
  have hbounded := h.honest.bounded
  cases ht with
  | spent because hbecause hspent =>
    have hother : because ≠ .resolved ∧ because ≠ .stalled := by
      obtain rfl | rfl := hbecause <;> simp
    refine ⟨by simp [stop], by simp [stop], by simp [stop], h.misses, ?_⟩
    exact honest_of_terminal hother.1 rfl hbounded fun heq => absurd heq hother.2
  | dry history p hpropose =>
    refine ⟨by simp [stop], by simp [stop], by simp [stop], h.misses, ?_⟩
    exact honest_of_terminal (by simp) rfl hbounded (by simp)
  | settled c history p hpropose hroom htime hsettled =>
    simp only [settled, Bool.and_eq_true, Bool.not_eq_true'] at hsettled
    refine ⟨by simp [stop], by simp [stop], by simp [stop], ?_, ?_, fun _ => ?_, by simp [stop]⟩
    · rw [missesSinceKept_append]
      exact h.misses
    · rwa [attempts_untried]
    · exact ⟨h.complete hrunning, clean_of_tests hsettled.1.1.1.2 hsettled.1.1.2⟩
  | tried c history p t hroom hpropose hgoes ht =>
    have hsame : Inv limits { r with history := history, planner := p } :=
      ⟨h.scanned, h.complete, h.logged, h.misses, h.honest.bounded, h.honest.resolved,
        h.honest.stalled⟩
    exact hsame.after_attempt hrunning hroom ht

lemma inv_start (session : RepairSession Shape K) (p : P)
    (firstScan : Except String (List Defect × Bool)) : (start session p firstScan).Inv limits := by
  unfold start RepairSession.scanned
  have hnil : (attempts []).length ≤ limits.maxOps := Nat.zero_le _
  split
  · rename_i heq
    exact ⟨by simp, by simp, by simp, rfl, honest_of_other (by simp) hnil⟩
  · rename_i s defects heq
    have hscanned : s.defects.isSome := by
      split at heq
      · rename_i hdefects
        cases heq
        simp [hdefects]
      · split at heq
        · cases heq
        · cases heq
          rfl
    refine ⟨fun _ => hscanned, ?_, fun _ => Nat.zero_le _, rfl, honest_of_other ?_ hnil⟩
    · cases s.completeScan <;> simp
    · cases s.completeScan <;> simp

section

variable [Neg K] [Sub K] [Div K] [Max K] [LE K] [LT K] [DecidableLE K] [DecidableLT K]
  {policy : CapPolicy K}

lemma Inv.turned (h : r.Inv limits) (hstep : (machine planner policy limits).step r turn = some t) :
    r.ended = none ∧ Turned planner limits r turn t := by
  have hrunning : r.ended = none := by
    by_contra hended
    have hsome : r.ended.isSome := Option.isSome_iff_ne_none.mpr hended
    have hnone : step planner policy limits r turn = none := if_pos hsome
    rw [show (machine planner policy limits).step r turn = none from hnone] at hstep
    cases hstep
  obtain ⟨defects, hdefects⟩ := Option.isSome_iff_exists.mp (h.scanned hrunning)
  exact step_turned hdefects hstep

lemma Inv.step (h : r.Inv limits) (hstep : (machine planner policy limits).step r turn = some t) :
    t.Inv limits := by
  obtain ⟨hrunning, hturned⟩ := h.turned hstep
  exact h.after_turn hrunning hturned

/-- The attempts that a run still has. -/
def remaining (limits : Limits) (r : DrivenRun Shape K P) : Nat :=
  if r.ended.isSome then 0 else limits.maxOps - r.session.log.length + 1

omit [Neg K] [Sub K] [Div K] [Max K] [LE K] [LT K] [DecidableLE K] [DecidableLT K] in
lemma remaining_lt (hrunning : r.ended = none) (ht : Turned planner limits r turn t) :
    t.remaining limits < r.remaining limits := by
  have hpos : 0 < r.remaining limits := by simp [remaining, hrunning]
  by_cases hended : t.ended.isSome
  · simpa [remaining, hended] using hpos
  -- the run goes on only after an attempt, which is in the log
  have hlog : t.session.log.length = r.session.log.length + 1 ∧
      r.session.log.length < limits.maxOps := by
    cases ht with
    | spent => simp [stop] at hended
    | dry => simp [stop] at hended
    | settled => simp [stop] at hended
    | tried c history p t hroom hpropose hgoes ht =>
      refine ⟨?_, hroom⟩
      cases ht with
      | raised => simp at hended
      | declined => simp [RepairSession.miss]
      | missed => simp [RepairSession.miss]
      | kept => simp [RepairSession.keep]
  simp only [remaining, hrunning, hended]
  simp
  omega

/-- Whatever happens, a run ends. -/
lemma run_ends (planner : Planner Shape P Q) (policy : CapPolicy K) (limits : Limits)
    (session : RepairSession Shape K) (p : P) (firstScan : Except String (List Defect × Bool))
    (turns : Nat → Turn Shape K Q) : ∃ n t, (machine planner policy limits).exec
      (start session p firstScan) ((List.range n).map turns) = some t ∧ t.ended.isSome := by
  have hprogress : ∀ (r : DrivenRun Shape K P) turn, ¬ (r.ended.isSome = true) →
      ((machine planner policy limits).step r turn).isSome := by
    intro r turn hrunning
    change (step planner policy limits r turn).isSome
    unfold step
    rw [if_neg hrunning]
    split_ifs
    · rfl
    · rfl
    · dsimp only
      split
      · rfl
      · split_ifs <;> rfl
  obtain ⟨n, t, hexec, -, hended⟩ := Transition.Machine.exec_reaches (P := fun _ _ => True)
    (F := fun r : DrivenRun Shape K P => r.ended.isSome) (remaining limits)
    (fun r turn t h _ hstep => Inv.step h hstep)
    (fun r turn t h _ hstep => remaining_lt (Inv.turned h hstep).1 (Inv.turned h hstep).2)
    hprogress turns (inv_start session p firstScan)
    (fun n => Transition.Machine.meets_of_forall fun _ _ => trivial)
  exact ⟨n, t, hexec, hended⟩

lemma run_honest {run : List (Turn Shape K Q)} {session : RepairSession Shape K} {p : P}
    {firstScan : Except String (List Defect × Bool)}
    (h : (machine planner policy limits).exec (start session p firstScan) run = some r) :
    r.HonestEnding limits := by
  have hinv : r.Inv limits := Transition.Machine.exec_invariant_of_step
    (fun _ _ _ h hstep => Inv.step h hstep) (inv_start session p firstScan) h
  exact hinv.honest

end

end DrivenRun

end MeshPipeline.CadRepair
