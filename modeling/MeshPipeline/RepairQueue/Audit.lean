import MeshPipeline.RepairQueue.Desk

/-!
# What is on record is what happened

The calls of operators, whatever their statements interleave with, change the rows of a job as they
would one after the other, in the order of their commits.
-/

namespace MeshPipeline.RepairQueue

open Transition RepairJobStatus

variable {d d' : Desk} {w w' : World} {s : CallId} {a : Ask} {b : AssignIn} {c : Call}
  {acts : List Action} {target was : RepairJobStatus} {p : Passed}

/-! ## What the rows keep -/

/-- The evidence of the one is still there in the other. -/
structure Desk.Grows (d d' : Desk) : Prop where
  run : d.job.simulationJobId.isSome → d'.job.simulationJobId.isSome
  attempts : d.attempts ⊆ d'.attempts

lemma Passed.simulationJobId_set (job : CadRepairJob) (h : job.simulationJobId.isSome) :
    (p.set job target).simulationJobId.isSome := by
  cases hp : p.simulationJobId <;> simp [Passed.set, hp, h]

lemma mem_sourcesFrom {seen : Option RepairJobStatus} :
    was ∈ sourcesFrom target seen ↔ was ∈ legalSources target ∧ ∀ t ∈ seen, was = t := by
  cases seen <;> simp [sourcesFrom]

lemma transition_applied {job : CadRepairJob} {seen : Option RepairJobStatus}
    (h : job.status ∈ sourcesFrom target seen) :
    transition job target p seen = (.applied, p.set job target) := by
  simp [transition, h]

lemma transition_eq_applied {job moved : CadRepairJob} {seen : Option RepairJobStatus}
    (h : transition job target p seen = (.applied, moved)) :
    job.status ∈ sourcesFrom target seen ∧ moved = p.set job target := by
  unfold transition at h
  split at h
  · next hmem => exact ⟨hmem, (Prod.mk.inj h).2.symm⟩
  · split at h <;> simp at h

lemma Desk.move_eq_some {seen : Option RepairJobStatus} (h : d.move target p seen = some d') :
    d.job.status ∈ sourcesFrom target seen ∧ d' = { d with job := p.set d.job target } := by
  obtain ⟨happlied, h⟩ := Option.ite_none_right_eq_some.mp h
  have hpair : transition d.job target p seen =
      (.applied, (transition d.job target p seen).2) := Prod.ext happlied rfl
  obtain ⟨hmem, hmoved⟩ := transition_eq_applied hpair
  rw [hmoved] at h
  exact ⟨hmem, (Option.some.inj h).symm⟩

lemma Desk.attempt_eq_some {mode input output : String}
    (h : d.attempt mode input output = some d') :
    ∃ t, recordAttempt d.attempts mode input output = .ok t ∧
      d' = { d with attempts := d.attempts ++ [t] } := by
  unfold Desk.attempt at h
  split at h
  · next t ht => exact ⟨t, ht, (Option.some.inj h).symm⟩
  · cases h

lemma Desk.decide_eq_some (h : d.decide a = some d') :
    d.job.status ∈ legalSources a.target ∧ a.HasOutput d.job.simulationJobId d.attempts ∧
      ∃ row, recordDecision a.name a.actor d.job.status.value a.reason a.notes = .ok row ∧
        d' = ⟨a.passed.set d.job a.target, d.attempts, d.decisions ++ [row]⟩ := by
  obtain ⟨⟨hlegal, houtput⟩, h⟩ := Option.ite_none_right_eq_some.mp h
  split at h
  · next row hrow => exact ⟨hlegal, houtput, row, hrow, (Option.some.inj h).symm⟩
  · cases h

lemma AssignIn.onRow_eq_some {job left : CadRepairJob} (h : b.onRow job = some left) :
    (∃ who, left = { job with assignedOperator := who }) ∧
      (b.claim = true → b.operator ≠ "" → job.assignedOperator = none) ∧
      (b.operator = "" → Text.strip b.holder ≠ "" →
        job.assignedOperator = some (Text.upto 256 (Text.strip b.holder))) := by
  obtain ⟨⟨hclaim, hheld⟩, h⟩ := Option.ite_none_right_eq_some.mp h
  refine ⟨⟨_, (Option.some.inj h).symm⟩, ?_, ?_⟩
  · intro hasked hoperator
    exact hclaim (by simp [hasked, hoperator])
  · intro hoperator hholder
    simpa [hoperator] using hheld (by simpa [hoperator] using hholder)

lemma Desk.assign_eq_some (h : d.assign b = some d') :
    ∃ left who, b.onRow d.job = some left ∧ left = { d.job with assignedOperator := who } ∧
      d' = { d with job := left } := by
  obtain ⟨left, hleft, rfl⟩ := Option.map_eq_some_iff.mp h
  obtain ⟨⟨who, hwho⟩, -⟩ := AssignIn.onRow_eq_some hleft
  exact ⟨left, who, hleft, hwho, rfl⟩

/-- What can happen to the rows. -/
lemma Desk.step_cases {act : Action} (h : d.step act = some d') :
    (∃ s a row, act = .called s (.decide a) ∧ d.job.status ∈ legalSources a.target ∧
        a.HasOutput d.job.simulationJobId d.attempts ∧
        recordDecision a.name a.actor d.job.status.value a.reason a.notes = .ok row ∧
        d' = ⟨a.passed.set d.job a.target, d.attempts, d.decisions ++ [row]⟩) ∨
      (∃ s b left who, act = .called s (.assign b) ∧ b.onRow d.job = some left ∧
        left = { d.job with assignedOperator := who } ∧ d' = { d with job := left }) ∨
      (∃ target p seen, act = .moved target p seen ∧ d.job.status ∈ legalSources target ∧
        d' = { d with job := p.set d.job target }) ∨
      ∃ mode input output t, act = .attempted mode input output ∧
        d' = { d with attempts := d.attempts ++ [t] } := by
  cases act with
  | called s r =>
    cases r with
    | decide a =>
      obtain ⟨hlegal, houtput, row, hrow, hd⟩ := Desk.decide_eq_some h
      exact .inl ⟨s, a, row, rfl, hlegal, houtput, hrow, hd⟩
    | assign b =>
      obtain ⟨left, who, hleft, hwho, hd⟩ := Desk.assign_eq_some h
      exact .inr (.inl ⟨s, b, left, who, rfl, hleft, hwho, hd⟩)
  | moved target p seen =>
    obtain ⟨hmem, hd⟩ := Desk.move_eq_some h
    exact .inr (.inr (.inl ⟨target, p, seen, rfl, (mem_sourcesFrom.mp hmem).1, hd⟩))
  | attempted mode input output =>
    obtain ⟨t, -, hd⟩ := Desk.attempt_eq_some h
    exact .inr (.inr (.inr ⟨mode, input, output, t, rfl, hd⟩))

lemma Desk.grows_step {act : Action} (h : d.step act = some d') : d.Grows d' := by
  obtain ⟨s, a, row, rfl, -, -, -, rfl⟩ | ⟨s, b, left, who, rfl, -, rfl, rfl⟩ |
    ⟨target, p, seen, rfl, -, rfl⟩ | ⟨mode, input, output, t, rfl, rfl⟩ := Desk.step_cases h
  · exact ⟨Passed.simulationJobId_set _, List.Subset.refl _⟩
  · exact ⟨id, List.Subset.refl _⟩
  · exact ⟨Passed.simulationJobId_set _, List.Subset.refl _⟩
  · exact ⟨id, List.subset_append_left _ _⟩

lemma Ask.HasOutput.mono (h : a.HasOutput d.job.simulationJobId d.attempts) (hg : d.Grows d') :
    a.HasOutput d'.job.simulationJobId d'.attempts := by
  refine ⟨fun hname => hg.run (h.1 hname), fun hname => ?_⟩
  obtain ⟨t, ht, hsha⟩ := h.2 hname
  exact ⟨t, hg.attempts ht, hsha⟩

lemma Desk.Grows.refl (d : Desk) : d.Grows d := ⟨id, List.Subset.refl _⟩

/-! ## What a call knows -/

/-- What a call has read and written is true of the rows. -/
def Call.Fits (d : Desk) : Call → Prop
  | .decide a (.weigh was) => was ∈ legalSources a.target ∧ a.name ≠ "deliver"
  | .decide a (.move was) =>
    was ∈ legalSources a.target ∧ a.HasOutput d.job.simulationJobId d.attempts
  | .decide a (.record was moved) =>
    d.job.status = was ∧ was ∈ legalSources a.target ∧
      a.HasOutput d.job.simulationJobId d.attempts ∧ moved = a.passed.set d.job a.target
  | .assign b (.commit left) => b.onRow d.job = some left
  | _ => True

lemma Call.Fits.mono (h : c.Fits d) (hg : d.Grows d') (hjob : c.holds = true → d'.job = d.job) :
    c.Fits d' := by
  cases c with
  | decide a turn =>
    cases turn with
    | read => trivial
    | weigh was => exact h
    | move was => exact ⟨h.1, h.2.mono hg⟩
    | record was moved =>
      have hsame : d'.job = d.job := hjob rfl
      obtain ⟨hstatus, hlegal, houtput, hmoved⟩ := h
      exact ⟨by rw [hsame, hstatus], hlegal, houtput.mono hg, by rw [hsame, hmoved]⟩
  | assign b turn =>
    cases turn with
    | read => trivial
    | write => trivial
    | commit left =>
      have hsame : d'.job = d.job := hjob rfl
      simpa [Call.Fits, hsame] using h
  | answered r => trivial

lemma DecideTurn.fits_looked : (DecideTurn.looked a d.job).Fits d := by
  unfold DecideTurn.looked
  split_ifs with hlegal hrun hname
  · trivial
  · refine ⟨hlegal, ?_⟩
    rw [hname]
    decide
  · refine ⟨hlegal, ?_, fun h => absurd h hname⟩
    intro hdeliver
    exact Option.isSome_iff_ne_none.mpr fun h => hrun ⟨hdeliver, h⟩
  · trivial

lemma DecideTurn.fits_weighed (h : (Call.decide a (.weigh was)).Fits d) :
    (DecideTurn.weighed a was d.attempts).Fits d := by
  unfold DecideTurn.weighed
  split_ifs with houtput
  · exact ⟨h.1, fun hname => absurd hname h.2, fun _ => houtput⟩
  · trivial

lemma DecideTurn.holds_looked : (DecideTurn.looked a d.job).holds = false := by
  unfold DecideTurn.looked
  split_ifs <;> rfl

lemma DecideTurn.holds_weighed : (DecideTurn.weighed a was d.attempts).holds = false := by
  unfold DecideTurn.weighed
  split_ifs <;> rfl

lemma DecideTurn.looked_ne_done {r : Request} :
    DecideTurn.looked a d.job ≠ .answered (.done r) := by
  unfold DecideTurn.looked
  split_ifs <;> simp

lemma DecideTurn.weighed_ne_done {r : Request} :
    DecideTurn.weighed a was d.attempts ≠ .answered (.done r) := by
  unfold DecideTurn.weighed
  split_ifs <;> simp

/-! ## Runs -/

/-- The rows are what the actions on record make of the first ones, every call is on record once if
it was told so, and no more than once. -/
structure World.Sound (d₀ : Desk) (w : World) (acts : List Action) : Prop where
  run : Desk.machine.exec d₀ acts = some w.desk
  lock : ∀ s, w.lock = some s ↔ ∃ c, w.calls s = some c ∧ c.holds = true
  fits : ∀ s c, w.calls s = some c → c.Fits w.desk
  done : ∀ s r, w.calls s = some (.answered (.done r)) → Action.called s r ∈ acts
  ended : ∀ s r, Action.called s r ∈ acts →
    w.calls s = some (.answered (.done r)) ∨ w.calls s = some (.answered .failed)
  once : (acts.filterMap Action.caller).Nodup

namespace World.Sound

variable {d₀ : Desk} {k : List Action} {lock' : Option CallId}

/-- One call goes on, and what it put on record, if anything, is on record. -/
lemma update (h : w.Sound d₀ acts) (hopen : ∀ r, w.calls s ≠ some (.answered r))
    (hrun : Desk.machine.exec d₀ (acts ++ k) = some d')
    (hlock : ∀ t, t ≠ s → (lock' = some t ↔ w.lock = some t))
    (hself : lock' = some s ↔ c.holds = true) (hgrow : w.desk.Grows d')
    (hjob : ∀ t, t ≠ s → w.lock = some t → d'.job = w.desk.job) (hfits : c.Fits d')
    (hnew : (k = [] ∧ ∀ r, c ≠ .answered (.done r)) ∨
      ∃ r, k = [.called s r] ∧ (c = .answered (.done r) ∨ c = .answered .failed)) :
    Sound d₀ ⟨d', lock', Function.update w.calls s (some c)⟩ (acts ++ k) := by
  have hnever : ∀ r, Action.called s r ∉ acts := by
    intro r hmem
    obtain hdone | hfailed := h.ended s r hmem
    · exact hopen _ hdone
    · exact hopen _ hfailed
  refine ⟨hrun, ?lock, ?fits, ?done, ?ended, ?once⟩
  case lock =>
    intro t
    by_cases ht : t = s
    · subst ht
      simp [hself]
    · simp [hlock t ht, h.lock t, ht]
  case fits =>
    intro t e he
    by_cases ht : t = s
    · subst ht
      obtain rfl : c = e := by simpa using he
      exact hfits
    · have he' : w.calls t = some e := by simpa [ht] using he
      exact (h.fits t e he').mono hgrow fun hholds =>
        hjob t ht ((h.lock t).mpr ⟨e, he', hholds⟩)
  case done =>
    intro t r hr
    by_cases ht : t = s
    · subst ht
      have hc : c = .answered (.done r) := by simpa using hr
      obtain ⟨-, hno⟩ | ⟨r', rfl, hdone | hfailed⟩ := hnew
      · exact absurd hc (hno r)
      · obtain rfl : r' = r := by simpa [hdone] using hc
        simp
      · simp [hfailed] at hc
    · exact List.mem_append_left _ (h.done t r (by simpa [ht] using hr))
  case ended =>
    intro t r hr
    obtain hr | hr := List.mem_append.mp hr
    · have ht : t ≠ s := by
        rintro rfl
        exact hnever r hr
      simpa [ht] using h.ended t r hr
    · obtain ⟨rfl, -⟩ | ⟨r', rfl, hc⟩ := hnew
      · simp at hr
      · obtain ⟨rfl, rfl⟩ : t = s ∧ r = r' := by simpa using hr
        simpa using hc
  case once =>
    rw [List.filterMap_append]
    obtain ⟨rfl, -⟩ | ⟨r', rfl, -⟩ := hnew
    · simpa using h.once
    · refine List.nodup_append.mpr ⟨h.once, by simp [Action.caller], ?_⟩
      intro t ht u hu
      obtain rfl : u = s := by simpa [Action.caller] using hu
      rintro rfl
      obtain ⟨act, hact, hcaller⟩ := List.mem_filterMap.mp ht
      cases act with
      | called v r =>
        obtain rfl : v = t := by simpa [Action.caller] using hcaller
        exact hnever r hact
      | moved => simp [Action.caller] at hcaller
      | attempted => simp [Action.caller] at hcaller

/-- The call goes on to something that holds nothing and is not done. -/
lemma setCall (h : w.Sound d₀ acts) (hopen : ∀ r, w.calls s ≠ some (.answered r))
    (hlock : w.lock ≠ some s) (hholds : c.holds = false) (hfits : c.Fits w.desk)
    (hno : ∀ r, c ≠ .answered (.done r)) : (w.setCall s c).Sound d₀ acts := by
  have hrun : Desk.machine.exec d₀ (acts ++ []) = some w.desk := by simpa using h.run
  have hup := h.update hopen hrun (fun t _ => Iff.rfl) (by simp [hlock, hholds])
    (Desk.Grows.refl _) (fun _ _ _ => rfl) hfits (.inl ⟨rfl, hno⟩)
  rwa [List.append_nil] at hup

lemma acquire (h : w.Sound d₀ acts) (hopen : ∀ r, w.calls s ≠ some (.answered r))
    (hlock : w.lock = none) (hholds : c.holds = true) (hfits : c.Fits w.desk)
    (hno : ∀ r, c ≠ .answered (.done r)) : (w.acquire s c).Sound d₀ acts := by
  have hrun : Desk.machine.exec d₀ (acts ++ []) = some w.desk := by simpa using h.run
  have hother : ∀ t, t ≠ s → (some s = some t ↔ w.lock = some t) := by
    intro t ht
    simp [hlock, Ne.symm ht]
  have hup := h.update hopen hrun hother (by simp [hholds]) (Desk.Grows.refl _)
    (fun _ _ _ => rfl) hfits (.inl ⟨rfl, hno⟩)
  rwa [List.append_nil] at hup

lemma lock_release (hlock : w.lock = some s) (t : CallId) (ht : t ≠ s) :
    none = some t ↔ w.lock = some t := by
  simp [hlock, Ne.symm ht]

lemma release {r : Reply} (h : w.Sound d₀ acts) (hopen : ∀ r, w.calls s ≠ some (.answered r))
    (hlock : w.lock = some s) (hno : ∀ q, r ≠ .done q) : (w.release s r).Sound d₀ acts := by
  have hrun : Desk.machine.exec d₀ (acts ++ []) = some w.desk := by simpa using h.run
  have hup := h.update (c := .answered r) hopen hrun (lock_release hlock) (by simp [Call.holds])
    (Desk.Grows.refl _) (fun _ _ _ => rfl) trivial (.inl ⟨rfl, by simpa using hno⟩)
  rwa [List.append_nil] at hup

lemma exec_snoc {act : Action} (h : w.Sound d₀ acts) (hstep : w.desk.step act = some d') :
    Desk.machine.exec d₀ (acts ++ [act]) = some d' := by
  rw [Machine.exec_append, h.run, Option.bind_some, Machine.exec_cons_eq_some]
  exact ⟨d', hstep, rfl⟩

lemma commit {r : Request} {answer : Answer} (h : w.Sound d₀ acts)
    (hopen : ∀ r, w.calls s ≠ some (.answered r)) (hlock : w.lock = some s)
    (hstep : w.desk.step (.called s r) = some d') :
    (w.commit s r d' answer).Sound d₀
      (acts ++ if answer.lands then [.called s r] else []) := by
  cases answer with
  | failed => simpa [World.commit, Answer.lands] using h.release hopen hlock (by simp)
  | done =>
    exact h.update (c := .answered (.done r)) hopen (h.exec_snoc hstep) (lock_release hlock)
      (by simp [Call.holds, World.release]) (Desk.grows_step hstep)
      (fun t ht hother => absurd (Option.some.inj (hother.symm.trans hlock)) ht) trivial
      (.inr ⟨r, rfl, .inl rfl⟩)
  | lost =>
    exact h.update (c := .answered .failed) hopen (h.exec_snoc hstep) (lock_release hlock)
      (by simp [Call.holds, World.release]) (Desk.grows_step hstep)
      (fun t ht hother => absurd (Option.some.inj (hother.symm.trans hlock)) ht) trivial
      (.inr ⟨r, rfl, .inr rfl⟩)

/-- Something that no call did is put on record. -/
lemma alone {act : Action} (h : w.Sound d₀ acts) (hstep : w.desk.step act = some d')
    (hcaller : act.caller = none) (hjob : w.lock ≠ none → d'.job = w.desk.job) :
    Sound d₀ { w with desk := d' } (acts ++ [act]) := by
  refine ⟨h.exec_snoc hstep, h.lock, ?_, ?_, ?_, ?_⟩
  · intro t c hc
    refine (h.fits t c hc).mono (Desk.grows_step hstep) fun hholds => hjob ?_
    rw [(h.lock t).mpr ⟨c, hc, hholds⟩]
    simp
  · intro t r hr
    exact List.mem_append_left _ (h.done t r hr)
  · intro t r hr
    obtain hr | hr := List.mem_append.mp hr
    · exact h.ended t r hr
    · obtain rfl := List.mem_singleton.mp hr
      simp [Action.caller] at hcaller
  · simpa [List.filterMap_append, hcaller] using h.once

/-- What a decision does next. -/
lemma decide_go {turn : DecideTurn} {answer : Answer} (h : w.Sound d₀ acts)
    (hcall : w.calls s = some (.decide a turn)) (hgo : turn.go w s a answer = some w') :
    w'.Sound d₀ (acts ++ (w.commits (.go s answer)).toList) := by
  have hopen : ∀ r, w.calls s ≠ some (.answered r) := by simp [hcall]
  have hfits := h.fits s _ hcall
  have hlock : w.lock = some s ↔ (Call.decide a turn).holds = true := by
    rw [h.lock s, hcall]
    simp
  have hfail : ∀ (hfree : w.lock ≠ some s), (w.setCall s (.answered .failed)).Sound d₀ acts :=
    fun hfree => h.setCall hopen hfree rfl trivial (by simp)
  cases turn with
  | read =>
    have hfree : w.lock ≠ some s := by simp [hlock, Call.holds]
    have hcommits : w.commits (.go s answer) = none := by simp [commits, hcall]
    obtain rfl := Option.some.inj hgo
    rw [hcommits, Option.toList_none, List.append_nil]
    split_ifs with hanswer
    · exact h.setCall hopen hfree DecideTurn.holds_looked DecideTurn.fits_looked
        fun r => DecideTurn.looked_ne_done
    · exact hfail hfree
  | weigh was =>
    have hfree : w.lock ≠ some s := by simp [hlock, Call.holds]
    have hcommits : w.commits (.go s answer) = none := by simp [commits, hcall]
    obtain rfl := Option.some.inj hgo
    rw [hcommits, Option.toList_none, List.append_nil]
    split_ifs with hanswer
    · exact h.setCall hopen hfree DecideTurn.holds_weighed (DecideTurn.fits_weighed hfits)
        fun r => DecideTurn.weighed_ne_done
    · exact hfail hfree
  | move was =>
    have hfree : w.lock ≠ some s := by simp [hlock, Call.holds]
    have hcommits : w.commits (.go s answer) = none := by simp [commits, hcall]
    rw [hcommits, Option.toList_none, List.append_nil]
    dsimp only [DecideTurn.go] at hgo
    split_ifs at hgo with hanswer
    · unfold DecideTurn.update at hgo
      split_ifs at hgo with htaken
      have hnone : w.lock = none := by simpa using htaken
      split at hgo
      · next moved hmoved =>
        obtain rfl := Option.some.inj hgo
        obtain ⟨hmem, rfl⟩ := transition_eq_applied hmoved
        obtain ⟨hlegal, hseen⟩ := mem_sourcesFrom.mp hmem
        have hwas : w.desk.job.status = was := hseen was rfl
        exact h.acquire hopen hnone rfl ⟨hwas, hfits.1, hfits.2, rfl⟩ (by simp)
      · obtain rfl := Option.some.inj hgo
        exact h.setCall hopen hfree rfl trivial (by simp)
    · obtain rfl := Option.some.inj hgo
      exact hfail hfree
  | record was moved =>
    have hheld : w.lock = some s := hlock.mpr rfl
    obtain ⟨hwas, hlegal, houtput, rfl⟩ := hfits
    obtain rfl := Option.some.inj hgo
    unfold DecideTurn.write
    split
    · next e he =>
      have hcommits : w.commits (.go s answer) = none := by simp [commits, hcall, he]
      rw [hcommits, Option.toList_none, List.append_nil]
      exact h.release hopen hheld (by simp)
    · next row hrow =>
      have hcommits : (w.commits (.go s answer)).toList =
          if answer.lands then [.called s (.decide a)] else [] := by
        cases answer <;> simp [commits, hcall, hrow, Answer.lands]
      rw [hcommits]
      refine h.commit hopen hheld ?_
      simp [Desk.step, Desk.decide, hwas, hlegal, houtput, hrow]

/-- What an assignment does next. -/
lemma assign_go {turn : AssignTurn} {answer : Answer} (h : w.Sound d₀ acts)
    (hcall : w.calls s = some (.assign b turn)) (hgo : turn.go w s b answer = some w') :
    w'.Sound d₀ (acts ++ (w.commits (.go s answer)).toList) := by
  have hopen : ∀ r, w.calls s ≠ some (.answered r) := by simp [hcall]
  have hfits := h.fits s _ hcall
  have hlock : w.lock = some s ↔ (Call.assign b turn).holds = true := by
    rw [h.lock s, hcall]
    simp
  cases turn with
  | read =>
    have hfree : w.lock ≠ some s := by simp [hlock, Call.holds]
    have hcommits : w.commits (.go s answer) = none := by simp [commits, hcall]
    obtain rfl := Option.some.inj hgo
    rw [hcommits, Option.toList_none, List.append_nil]
    split_ifs
    · exact h.setCall hopen hfree rfl trivial (by simp)
    · exact h.setCall hopen hfree rfl trivial (by simp)
  | write =>
    have hfree : w.lock ≠ some s := by simp [hlock, Call.holds]
    have hcommits : w.commits (.go s answer) = none := by simp [commits, hcall]
    rw [hcommits, Option.toList_none, List.append_nil]
    dsimp only [AssignTurn.go] at hgo
    split_ifs at hgo with hanswer
    · unfold AssignTurn.update at hgo
      split_ifs at hgo with htaken
      have hnone : w.lock = none := by simpa using htaken
      split at hgo
      · next left hleft =>
        obtain rfl := Option.some.inj hgo
        exact h.acquire hopen hnone rfl hleft (by simp)
      · obtain rfl := Option.some.inj hgo
        exact h.setCall hopen hfree rfl trivial (by simp)
    · obtain rfl := Option.some.inj hgo
      exact h.setCall hopen hfree rfl trivial (by simp)
  | commit left =>
    have hheld : w.lock = some s := hlock.mpr rfl
    obtain rfl := Option.some.inj hgo
    have hcommits : (w.commits (.go s answer)).toList =
        if answer.lands then [.called s (.assign b)] else [] := by
      cases answer <;> simp [commits, hcall, Answer.lands]
    rw [hcommits]
    refine h.commit hopen hheld ?_
    have hleft : b.onRow w.desk.job = some left := hfits
    simp [Desk.step, Desk.assign, hleft]

/-- Every step keeps it. -/
lemma step {op : Op} (h : w.Sound d₀ acts) (hstep : w.step op = some w') :
    w'.Sound d₀ (acts ++ (w.commits op).toList) := by
  have hnew : ∀ s, w.calls s = none → w.lock ≠ some s := by
    intro s hs hheld
    obtain ⟨c, hc, -⟩ := (h.lock s).mp hheld
    rw [hs] at hc
    cases hc
  cases op with
  | decide s body =>
    dsimp only [World.step] at hstep
    split_ifs at hstep with hbad
    have hnone : w.calls s = none := by
      simpa using not_or.mp hbad |>.1
    obtain rfl := Option.some.inj hstep
    have hsame := List.append_nil acts
    simp only [commits, Option.toList_none, hsame]
    split
    · exact h.setCall (by simp [hnone]) (hnew s hnone) rfl trivial (by simp)
    · exact h.setCall (by simp [hnone]) (hnew s hnone) rfl trivial (by simp)
  | assign s body =>
    dsimp only [World.step] at hstep
    split_ifs at hstep with hbad
    have hnone : w.calls s = none := by
      simpa using not_or.mp hbad |>.1
    obtain rfl := Option.some.inj hstep
    simp only [commits, Option.toList_none, List.append_nil]
    exact h.setCall (by simp [hnone]) (hnew s hnone) rfl trivial (by simp)
  | go s answer =>
    dsimp only [World.step] at hstep
    split at hstep
    · next a turn hcall => exact h.decide_go hcall hstep
    · next b turn hcall => exact h.assign_go hcall hstep
    · cases hstep
  | worker target p seen =>
    dsimp only [World.step] at hstep
    split_ifs at hstep with htaken
    obtain rfl := Option.some.inj hstep
    cases hmove : w.desk.move target p seen with
    | none => simpa [commits, hmove] using h
    | some d' =>
      simp only [commits, hmove, Option.isSome_some, if_true, Option.toList_some, Option.getD_some]
      exact h.alone hmove rfl fun hheld => absurd (by simpa using htaken) hheld
  | attempt mode input output =>
    obtain rfl := Option.some.inj hstep
    cases hattempt : w.desk.attempt mode input output with
    | none => simpa [commits, hattempt] using h
    | some d' =>
      simp only [commits, hattempt, Option.isSome_some, if_true, Option.toList_some,
        Option.getD_some]
      refine h.alone hattempt rfl fun _ => ?_
      obtain ⟨t, -, rfl⟩ := Desk.attempt_eq_some hattempt
      rfl

end World.Sound

/-! ## One after the other -/

variable {id now : ℕ} {servicePriority : ℤ} {ops ops' : List Op}

namespace World

lemma sound_start : (start id servicePriority now).Sound (start id servicePriority now).desk [] :=
  ⟨rfl, fun s => by simp [start], fun s c hc => by simp [start] at hc,
    fun s r hr => by simp [start] at hr, fun s r hr => by simp at hr, List.nodup_nil⟩

/-- What a run from a new job puts on record. -/
def record (id : ℕ) (servicePriority : ℤ) (now : ℕ) (ops : List Op) : List Action :=
  machine.trace commits (start id servicePriority now) ops

lemma sound_of_exec (h : machine.exec (start id servicePriority now) ops = some w) :
    w.Sound (start id servicePriority now).desk (record id servicePriority now ops) := by
  exact Machine.exec_history (P := fun _ _ => True)
    (I := fun w acts => w.Sound (start id servicePriority now).desk acts)
    (fun s l t ks hs _ ht => hs.step ht) sound_start (Machine.meets_of_forall fun _ _ => trivial) h

/-- Where a run from a new job leads. -/
def reached (ops : List Op) : World := (machine.exec (start 1 100 0) ops).getD (start 1 100 0)

end World

/-- Two operators read the same new job, and the first of them decides. -/
def raced : List Op :=
  [.decide 0 ⟨"inspect", "ada", "", "", ""⟩,
    .decide 1 ⟨"ask_customer", "bob", "which unit is it in?", "", ""⟩,
    .go 0 .done, .go 1 .done, .go 0 .done, .go 0 .done, .go 1 .done]

lemma exec_raced : World.machine.exec (World.start 1 100 0) raced = some (World.reached raced) :=
  rfl

/-- Whatever the statements of the calls interleave with, the rows are what the actions on record
make of the new job, one after the other. A call that was told its request was done is on record,
no call is twice, and one that was refused or overtaken is not at all. -/
theorem calls_one_by_one
    (h : World.machine.exec (World.start id servicePriority now) ops = some w) :
    let acts := World.record id servicePriority now ops
    Desk.machine.exec (World.start id servicePriority now).desk acts = some w.desk ∧
      (∀ s r, w.calls s = some (.answered (.done r)) → Action.called s r ∈ acts) ∧
      (∀ s r, Action.called s r ∈ acts →
        w.calls s = some (.answered (.done r)) ∨ w.calls s = some (.answered .failed)) ∧
      (acts.filterMap Action.caller).Nodup :=
  have hsound := World.sound_of_exec h
  ⟨hsound.run, hsound.done, hsound.ended, hsound.once⟩

theorem calls_one_by_one_raced :
    (Desk.machine.exec (World.start 1 100 0).desk (World.record 1 100 0 raced)).map
        (·.job.status) = some inspecting ∧
      (World.reached raced).calls 1 = some (.answered .overtaken) := by
  obtain ⟨hrows, -⟩ := calls_one_by_one exec_raced
  refine ⟨?_, rfl⟩
  rw [hrows]
  rfl

/-! ## The decisions on record -/

/-- One movement of the job, with the decision it was recorded as; the pipeline records none. -/
structure Movement where
  source : RepairJobStatus
  target : RepairJobStatus
  row : Option CadRepairDecision

/-- The movements lead from one status to the other, each by the table. -/
def Path : RepairJobStatus → List Movement → RepairJobStatus → Prop
  | s, [], t => s = t
  | s, m :: ms, t => m.source = s ∧ s ∈ legalSources m.target ∧ Path m.target ms t

lemma Path.append {s t u : RepairJobStatus} {ms ns : List Movement} (h : Path s ms t)
    (h' : Path t ns u) : Path s (ms ++ ns) u := by
  induction ms generalizing s with
  | nil =>
    obtain rfl : s = t := h
    exact h'
  | cons m ms ih => exact ⟨h.1, h.2.1, ih h.2.2⟩

/-- The decision says where the movement came from, names where it went, and is somebody's; one that
stops the job says why. -/
structure CadRepairDecision.Records (row : CadRepairDecision) (m : Movement) : Prop where
  source : row.fromStatus = m.source.value
  target : decisions.lookup row.decision = some m.target
  actor : row.actor ≠ ""
  reason : row.decision ∈ needsReason → ∃ why ∈ row.reason, why ≠ ""

lemma upto_value (s : RepairJobStatus) : Text.upto 32 s.value = s.value := by
  cases s <;> decide

lemma upto_name {name : String} (h : decisions.lookup name = some target) :
    Text.upto 32 name = name := by
  have hall : ∀ e ∈ decisions, Text.upto 32 e.1 = e.1 := by decide
  have hmem : (name, target) ∈ decisions := by
    obtain ⟨before, after, hsplit, -⟩ := List.lookup_eq_some_iff.mp h
    rw [hsplit]
    simp
  exact hall (name, target) hmem

lemma recordDecision_spec {row : CadRepairDecision}
    (h : recordDecision a.name a.actor was.value a.reason a.notes = .ok row) :
    row.decision = a.name ∧ row.Records ⟨was, a.target, some row⟩ := by
  unfold recordDecision at h
  split_ifs at h with hactor hname
  obtain rfl := Except.ok.inj h
  have hsame := upto_name a.named
  refine ⟨hsame, upto_value was, by rw [hsame]; exact a.named, ?_, ?_⟩
  · exact fun hempty => hactor ((Text.upto_eq_empty_iff (by decide)).mp hempty)
  · intro hneeds
    have hreason := a.reasoned (hsame ▸ hneeds)
    exact ⟨a.reason, by simp [orNone, hreason], hreason⟩

/-- A stretch of what happened to the rows, as the movements it made and the decisions it left. -/
structure Stretch (d d' : Desk) (acts : List Action) (ms : List Movement) : Prop where
  path : Path d.job.status ms d'.job.status
  rows : d'.decisions = d.decisions ++ ms.filterMap (·.row)
  records : ∀ m ∈ ms, ∀ row ∈ m.row, row.Records m
  pipeline : ∀ m ∈ ms, m.row = none → ∃ p seen, Action.moved m.target p seen ∈ acts

lemma Stretch.of_step {act : Action} (h : d.step act = some d') : ∃ ms, Stretch d d' [act] ms := by
  obtain ⟨s, a, row, rfl, hlegal, -, hrow, rfl⟩ | ⟨s, b, left, who, rfl, -, rfl, rfl⟩ |
    ⟨target, p, seen, rfl, hlegal, rfl⟩ | ⟨mode, input, output, t, rfl, rfl⟩ :=
    Desk.step_cases h
  · refine ⟨[⟨d.job.status, a.target, some row⟩], ⟨rfl, hlegal, rfl⟩, by simp, ?_, by simp⟩
    simpa using (recordDecision_spec hrow).2
  · exact ⟨[], rfl, by simp, by simp, by simp⟩
  · exact ⟨[⟨d.job.status, target, none⟩], ⟨rfl, hlegal, rfl⟩, by simp, by simp, by simp⟩
  · exact ⟨[], rfl, by simp, by simp, by simp⟩

lemma Stretch.of_exec (h : Desk.machine.exec d acts = some d') : ∃ ms, Stretch d d' acts ms := by
  induction acts generalizing d with
  | nil =>
    obtain rfl : d = d' := by simpa using h
    exact ⟨[], rfl, by simp, by simp, by simp⟩
  | cons act acts ih =>
    obtain ⟨e, hstep, hrest⟩ := Machine.exec_cons_eq_some.mp h
    obtain ⟨ms, hms⟩ := Stretch.of_step hstep
    obtain ⟨ns, hns⟩ := ih hrest
    refine ⟨ms ++ ns, hms.path.append hns.path, ?_, ?_, ?_⟩
    · rw [hns.rows, hms.rows, List.filterMap_append, List.append_assoc]
    · intro m hm
      exact (List.mem_append.mp hm).elim (hms.records m) (hns.records m)
    · intro m hm hrow
      obtain hm | hm := List.mem_append.mp hm
      · obtain ⟨p, seen, hmem⟩ := hms.pipeline m hm hrow
        exact ⟨p, seen, List.mem_cons.mpr (.inl (List.mem_singleton.mp hmem))⟩
      · obtain ⟨p, seen, hmem⟩ := hns.pipeline m hm hrow
        exact ⟨p, seen, List.mem_cons_of_mem _ hmem⟩

/-- What the pipeline moved, it was asked to. -/
lemma World.worker_of_mem_trace {seen : Option RepairJobStatus}
    (h : Action.moved target p seen ∈ machine.trace commits w ops) :
    Op.worker target p seen ∈ ops := by
  obtain ⟨u, op, hop, hcommit⟩ := Machine.mem_trace h
  cases op with
  | worker =>
    dsimp only [commits] at hcommit
    split_ifs at hcommit
    obtain ⟨rfl, rfl, rfl⟩ : _ = target ∧ _ = p ∧ _ = seen := by simpa using hcommit
    exact hop
  | decide => cases hcommit
  | assign => cases hcommit
  | attempt =>
    dsimp only [commits] at hcommit
    split_ifs at hcommit
    simp at hcommit
  | go s answer =>
    dsimp only [commits] at hcommit
    repeat' split at hcommit
    all_goals simp at hcommit

/-- The decisions of a job are, in their order, movements of a legal path from `received` to where
the job is, and the rest of the path is the pipeline's. Where only operators move the job, the
decisions are the path. -/
theorem decisions_replay
    (h : World.machine.exec (World.start id servicePriority now) ops = some w) :
    ∃ ms, Path received ms w.desk.job.status ∧ w.desk.decisions = ms.filterMap (·.row) ∧
      (∀ m ∈ ms, ∀ row ∈ m.row, row.Records m) ∧
      ∀ m ∈ ms, m.row = none → ∃ p seen, Op.worker m.target p seen ∈ ops := by
  obtain ⟨ms, hms⟩ := Stretch.of_exec (World.sound_of_exec h).run
  refine ⟨ms, hms.path, by simpa [World.start] using hms.rows, hms.records, ?_⟩
  intro m hm hrow
  obtain ⟨p, seen, hmem⟩ := hms.pipeline m hm hrow
  exact ⟨p, seen, World.worker_of_mem_trace hmem⟩

theorem decisions_replay_raced :
    ∃ ms, Path received ms inspecting ∧
      ms.filterMap (·.row) = [⟨"inspect", "received", "ada", none, none⟩] := by
  obtain ⟨ms, hpath, hrows, -⟩ := decisions_replay exec_raced
  exact ⟨ms, hpath, hrows.symm⟩

/-! ## What was delivered -/

/-- What the decisions on record say was handed over is there. -/
def Desk.Backed (d : Desk) : Prop :=
  ∀ row ∈ d.decisions,
    (row.decision = "deliver" → d.job.simulationJobId.isSome) ∧
      (row.decision = "deliver_repair" → ∃ t ∈ d.attempts, ∃ sha ∈ t.outputSha256, sha ≠ "")

lemma Desk.Backed.step {act : Action} (hd : d.Backed) (h : d.step act = some d') : d'.Backed := by
  have hgrow := Desk.grows_step h
  have hold : ∀ row ∈ d.decisions,
      (row.decision = "deliver" → d'.job.simulationJobId.isSome) ∧
        (row.decision = "deliver_repair" →
          ∃ t ∈ d'.attempts, ∃ sha ∈ t.outputSha256, sha ≠ "") := by
    intro row hrow
    refine ⟨fun hname => hgrow.run ((hd row hrow).1 hname), fun hname => ?_⟩
    obtain ⟨t, ht, hsha⟩ := (hd row hrow).2 hname
    exact ⟨t, hgrow.attempts ht, hsha⟩
  obtain ⟨s, a, row, rfl, -, houtput, hrow, rfl⟩ | ⟨s, b, left, who, rfl, -, rfl, rfl⟩ |
    ⟨target, p, seen, rfl, -, rfl⟩ | ⟨mode, input, output, t, rfl, rfl⟩ := Desk.step_cases h
  · intro row' hrow'
    obtain hrow' | hrow' := List.mem_append.mp hrow'
    · exact hold row' hrow'
    · obtain rfl := List.mem_singleton.mp hrow'
      have hname := (recordDecision_spec hrow).1
      have hthere := houtput.mono hgrow
      exact ⟨fun hdeliver => hthere.1 (hname ▸ hdeliver),
        fun hdeliver => hthere.2 (hname ▸ hdeliver)⟩
  · exact hold
  · exact hold
  · exact hold

/-- A mesh that is on record as delivered has a run on the row, and repaired geometry that is has an
attempt that produced it, although both were read before the row was held. -/
theorem delivery_on_record_has_output
    (h : World.machine.exec (World.start id servicePriority now) ops = some w) :
    ∀ row ∈ w.desk.decisions,
      (row.decision = "deliver" → w.desk.job.simulationJobId.isSome) ∧
        (row.decision = "deliver_repair" →
          ∃ t ∈ w.desk.attempts, ∃ sha ∈ t.outputSha256, sha ≠ "") := by
  have hstart : (World.start id servicePriority now).desk.Backed := fun row hrow => by
    simp [World.start] at hrow
  exact Machine.exec_invariant_of_step (I := Desk.Backed) (fun d act d' hd hstep => hd.step hstep)
    hstart (World.sound_of_exec h).run

/-- The pipeline meshes the customer's own geometry, and an operator hands it over. -/
def meshDelivered : List Op :=
  [.worker inspecting {} none, .worker awaitingStrategy {} none,
    .worker meshing { simulationJobId := some 7 } none, .worker meshReview {} none,
    .decide 0 ⟨"deliver", "ada", "", "", ""⟩, .go 0 .done, .go 0 .done, .go 0 .done]

lemma exec_meshDelivered : World.machine.exec (World.start 1 100 0) meshDelivered =
    some (World.reached meshDelivered) := rfl

theorem delivery_on_record_has_output_mesh :
    ∃ row ∈ (World.reached meshDelivered).desk.decisions, row.decision = "deliver" ∧
      (World.reached meshDelivered).desk.job.simulationJobId.isSome := by
  have hrow : ⟨"deliver", "mesh_review", "ada", none, none⟩ ∈
      (World.reached meshDelivered).desk.decisions := List.mem_singleton.mpr rfl
  exact ⟨_, hrow, rfl, (delivery_on_record_has_output exec_meshDelivered _ hrow).1 rfl⟩

/-! ## Runs that go on -/

/-- What a run does to the rows from where another one left them. -/
lemma World.exec_desk (h : machine.exec (start id servicePriority now) ops = some w)
    (h' : machine.exec w ops' = some w') :
    Desk.machine.exec w.desk (machine.trace commits w ops') = some w'.desk := by
  have hsound := sound_of_exec h
  have hboth : Desk.machine.exec (start id servicePriority now).desk
      (record id servicePriority now ops ++ machine.trace commits w ops') = some w'.desk :=
    (Machine.exec_history (P := fun _ _ => True)
      (I := fun (w : World) acts => w.Sound (start id servicePriority now).desk acts)
      (fun s l t ks hs _ ht => hs.step ht) hsound (Machine.meets_of_forall fun _ _ => trivial)
      h').run
  rwa [Machine.exec_append, hsound.run, Option.bind_some] at hboth

/-- No decision opens a dispute. -/
lemma Ask.target_ne_disputed (a : Ask) : a.target ≠ deliveryDisputed := by
  have hall : ∀ e ∈ decisions, e.2 ≠ deliveryDisputed := by decide
  obtain ⟨before, after, hsplit, -⟩ := List.lookup_eq_some_iff.mp a.named
  exact hall (a.name, a.target) (by rw [hsplit]; simp)

/-- The row and its decisions are the same, but for whose it is. -/
structure Desk.Rests (d d' : Desk) : Prop where
  job : d'.job = { d.job with assignedOperator := d'.job.assignedOperator }
  rows : d'.decisions = d.decisions

lemma Desk.Rests.trans {d'' : Desk} (h : d.Rests d') (h' : d'.Rests d'') : d.Rests d'' := by
  refine ⟨?_, h'.rows.trans h.rows⟩
  rw [h'.job, h.job]

lemma Desk.rests_of_settled {act : Action} (hsettled : d.job.status ∈ terminalStates)
    (h : d.step act = some d') (hact : ∀ p seen, act ≠ .moved deliveryDisputed p seen) :
    d.Rests d' := by
  obtain ⟨s, a, row, rfl, hlegal, -⟩ | ⟨s, b, left, who, rfl, -, rfl, rfl⟩ |
    ⟨target, p, seen, rfl, hlegal, -⟩ | ⟨mode, input, output, t, rfl, rfl⟩ := Desk.step_cases h
  · exact absurd (eq_disputed_of_terminal hlegal hsettled) a.target_ne_disputed
  · exact ⟨rfl, rfl⟩
  · exact absurd (by rw [eq_disputed_of_terminal hlegal hsettled]) (hact p seen)
  · exact ⟨rfl, rfl⟩

lemma Desk.rests_of_exec (hsettled : d.job.status ∈ terminalStates)
    (h : Desk.machine.exec d acts = some d')
    (hacts : ∀ p seen, Action.moved deliveryDisputed p seen ∉ acts) : d.Rests d' := by
  induction acts generalizing d with
  | nil =>
    obtain rfl : d = d' := by simpa using h
    exact ⟨rfl, rfl⟩
  | cons act acts ih =>
    obtain ⟨e, hstep, hrest⟩ := Machine.exec_cons_eq_some.mp h
    have hfirst : d.Rests e := Desk.rests_of_settled hsettled hstep fun p seen hact =>
      hacts p seen (by simp [hact])
    have hstatus : e.job.status = d.job.status := by rw [hfirst.job]
    exact hfirst.trans (ih (hstatus ▸ hsettled) hrest fun p seen hmem =>
      hacts p seen (List.mem_cons_of_mem _ hmem))

/-- From where a job is settled, nothing but a dispute that the pipeline opens moves it: no operator
and no call that was still under way changes its row or adds a decision, except for whose it is. -/
theorem settled_rests
    (h : World.machine.exec (World.start id servicePriority now) ops = some w)
    (hsettled : w.desk.job.status ∈ terminalStates) (h' : World.machine.exec w ops' = some w')
    (hops : ∀ p seen, Op.worker deliveryDisputed p seen ∉ ops') :
    w'.desk.job = { w.desk.job with assignedOperator := w'.desk.job.assignedOperator } ∧
      w'.desk.decisions = w.desk.decisions :=
  have hrests := Desk.rests_of_exec hsettled (World.exec_desk h h') fun p seen hmem =>
    hops p seen (World.worker_of_mem_trace hmem)
  ⟨hrests.job, hrests.rows⟩

/-- A decision that comes too late for a job that has been delivered. -/
def tooLate : List Op :=
  [.decide 1 ⟨"block", "bob", "the part is not watertight", "", ""⟩, .go 1 .done]

theorem settled_rests_delivered :
    ∃ w', World.machine.exec (World.reached meshDelivered) tooLate = some w' ∧
      w'.desk.decisions = (World.reached meshDelivered).desk.decisions := by
  have hnever : ∀ p seen, Op.worker deliveryDisputed p seen ∉ tooLate := by simp [tooLate]
  exact ⟨_, rfl, (settled_rests exec_meshDelivered (by decide) rfl hnever).2⟩

/-! ## Whose it is -/

/-- The assignment may take the job from somebody: it is no claim, and a release that names a holder
names them. -/
structure AssignIn.Takes (b : AssignIn) (who : String) : Prop where
  unclaimed : b.claim = true → b.operator = ""
  named : b.operator = "" → Text.strip b.holder ≠ "" → Text.upto 256 (Text.strip b.holder) = who

lemma Desk.holder_of_exec {who : String} (hheld : d.job.assignedOperator = some who)
    (h : Desk.machine.exec d acts = some d') :
    d'.job.assignedOperator = some who ∨
      ∃ t b, Action.called t (.assign b) ∈ acts ∧ b.Takes who := by
  induction acts generalizing d with
  | nil =>
    obtain rfl : d = d' := by simpa using h
    exact .inl hheld
  | cons act acts ih =>
    obtain ⟨e, hstep, hrest⟩ := Machine.exec_cons_eq_some.mp h
    have hon : e.job.assignedOperator = some who →
        d'.job.assignedOperator = some who ∨
          ∃ t b, Action.called t (.assign b) ∈ act :: acts ∧ b.Takes who := by
      intro he
      obtain hend | ⟨t, b, hmem, htakes⟩ := ih he hrest
      · exact .inl hend
      · exact .inr ⟨t, b, List.mem_cons_of_mem _ hmem, htakes⟩
    obtain ⟨s, a, row, rfl, -, -, -, rfl⟩ | ⟨s, b, left, who', rfl, hleft, -⟩ |
      ⟨target, p, seen, rfl, -, rfl⟩ | ⟨mode, input, output, t, rfl, rfl⟩ :=
      Desk.step_cases hstep
    · exact hon hheld
    · obtain ⟨-, hclaim, hnamed⟩ := AssignIn.onRow_eq_some hleft
      refine .inr ⟨s, b, List.mem_cons_self, ?_, ?_⟩
      · intro hasked
        by_contra hoperator
        rw [hclaim hasked hoperator] at hheld
        cases hheld
      · intro hempty hholder
        rw [hnamed hempty hholder] at hheld
        exact Option.some.inj hheld
    · exact hon hheld
    · exact hon hheld

/-- Whoever holds a job holds it until a lead moves it or a release that may clear it is made: a
claim never takes it, nor a release that names somebody else, however old the page it comes from. -/
theorem operator_holds {who : String}
    (h : World.machine.exec (World.start id servicePriority now) ops = some w)
    (hheld : w.desk.job.assignedOperator = some who) (h' : World.machine.exec w ops' = some w') :
    w'.desk.job.assignedOperator = some who ∨
      ∃ t b, Action.called t (.assign b) ∈ World.machine.trace World.commits w ops' ∧
        (b.claim = true → b.operator = "") ∧
        (b.operator = "" → Text.strip b.holder ≠ "" →
          Text.upto 256 (Text.strip b.holder) = who) := by
  obtain hend | ⟨t, b, hmem, htakes⟩ := Desk.holder_of_exec hheld (World.exec_desk h h')
  · exact .inl hend
  · exact .inr ⟨t, b, hmem, htakes.unclaimed, htakes.named⟩

/-- An operator takes the job. -/
def claimed : List Op := [.assign 0 ⟨"ada", true, ""⟩, .go 0 .done, .go 0 .done, .go 0 .done]

lemma exec_claimed : World.machine.exec (World.start 1 100 0) claimed =
    some (World.reached claimed) := rfl

/-- Another one claims it from an old page, and clears it in the name of a third. -/
def claimedAgain : List Op :=
  [.assign 1 ⟨"bob", true, ""⟩, .assign 2 ⟨"", true, "eve"⟩, .go 1 .done, .go 2 .done, .go 1 .done,
    .go 2 .done]

theorem operator_holds_claimedAgain :
    ∃ w', World.machine.exec (World.reached claimed) claimedAgain = some w' ∧
      w'.desk.job.assignedOperator = some "ada" := by
  refine ⟨_, rfl, ?_⟩
  obtain hend | ⟨t, b, hmem, -⟩ := operator_holds exec_claimed rfl
    (show World.machine.exec (World.reached claimed) claimedAgain = some _ from rfl)
  · exact hend
  · have hnothing : World.machine.trace World.commits (World.reached claimed) claimedAgain = [] :=
      rfl
    rw [hnothing] at hmem
    cases hmem

end MeshPipeline.RepairQueue
