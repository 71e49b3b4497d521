import MeshPipeline.Application.DeliveredWhole
import MeshPipeline.WhyRecord.Build

/-!
# The why record replays

Which entries of a finished run are decided again to the same value by the same rule: all but the
delivery of a sound mesh that the run went back to, when its account was left as it is.
-/

namespace MeshPipeline.WhyRecord

open Application.ReviewDelivery Pipeline Ranking

/-! ## Entries that agree -/

lemma replay_eq_nil_iff (es : List Entry) : replay es = [] ↔ ∀ e ∈ es, e.agrees = true := by
  rw [replay, List.filter_eq_nil_iff]
  constructor
  · intro h e he
    obtain ⟨i, hi⟩ := List.mem_iff_getElem?.mp he
    simpa using h (e, i) (List.mk_mem_zipIdx_iff_getElem?.mpr hi)
  · rintro h ⟨e, i⟩ hrow
    simpa using h e (List.mem_of_getElem? (List.mk_mem_zipIdx_iff_getElem?.mp hrow))

variable {reads : OwnFormat} {run : FinishedRun} {s : FinalState} {w : DeliveryWorld}

lemma enginePickEntry_agrees : ∀ e ∈ enginePickEntry reads run s, e.agrees = true := by
  intro e he
  unfold enginePickEntry at he
  dsimp only at he
  split at he
  · cases he
  · obtain rfl := Option.some.inj he
    simp [Entry.agrees, Inputs.decideAgain]

lemma switchEntries_agree : ∀ e ∈ switchEntries run s, e.agrees = true := by
  intro e he
  obtain ⟨row, -, rfl⟩ := List.mem_map.mp he
  simp [Entry.agrees, Inputs.decideAgain]

/-- A guard is decided again from the planned work that was put down. -/
lemma workLimit_eq (work : PlannedWork) : workLimit work = (work.guardSeconds, "TIME-2") := by
  have hone : ∀ x : ℚ, max 1 (orOne x) = max 1 x := fun x => by
    unfold orOne
    split
    · next hx => simp [hx]
    · rfl
  have hceiling : ∀ a x : ℚ, 1 ≤ a → max a (orOne x) = max a x := fun a x ha => by
    unfold orOne
    split
    · next hx => rw [hx, max_eq_left ha, max_eq_left (zero_le_one.trans ha)]
    · rfl
  unfold workLimit PlannedWork.guardSeconds PlannedWork.plannedSeconds
  simp only [hone, hceiling _ _ (le_max_left 1 work.floorS)]

lemma guardSeconds_guardWork (engine : String) (cap : ℕ+) (planned : Option PlannedWork) :
    (guardWork engine cap planned).guardSeconds = ((cap : ℕ) : ℤ) := by
  unfold guardWork
  cases hplanned : planned.filter (·.guardSeconds = ((cap : ℕ) : ℤ)) with
  | some work => simpa using (Option.filter_eq_some_iff.mp hplanned).2
  | none =>
    have hcap : (1 : ℚ) ≤ (cap : ℕ) := by exact_mod_cast cap.one_le
    simp [PlannedWork.guardSeconds, PlannedWork.plannedSeconds, max_eq_right hcap]

lemma cited_agrees (c : Cited) : c.entry.agrees = true := by
  cases c with
  | verdict inputs decides => simp [Cited.entry, Entry.agrees, Inputs.decideAgain]
  | passGuard work => simp [Cited.entry, Entry.agrees, Inputs.decideAgain, workLimit_eq]
  | runGuard engine cap planned =>
    simp [Cited.entry, Entry.agrees, Inputs.decideAgain, workLimit_eq, guardSeconds_guardWork]
  | afterTrip replays => simp [Cited.entry, Entry.agrees, Inputs.decideAgain]
  | other stage value rule => rfl

/-! ## The account of the best attempt -/

variable {best runner : Candidate} {pool : List Candidate}

/-- A candidate as its account keeps it. -/
def recorded (c : Candidate) : RankedAttempt := (c.attempt, c.engine, rankKey c)

lemma ranked_recorded (pool : List Candidate) :
    ranked (pool.map recorded) =
      (pool.insertionSort fun c d => rankKey c ≤ rankKey d).map recorded :=
  (List.map_insertionSort _ _ recorded pool fun _ _ _ _ => Iff.rfl).symm

/-- The rule of the record is the one that the delivery named. -/
lemma deliveryRule_rankKey (best runner : Candidate) :
    deliveryRule (rankKey best) (rankKey runner) = ruleChosen best runner ∧
      ruleChosen best runner ≠ "" := by
  have hnamed : ∀ i, i < deliveryRules.length →
      ∃ rule, deliveryRules[i]? = some rule ∧ rule ≠ "" := fun i hi =>
    ⟨deliveryRules[i], List.getElem?_eq_getElem hi,
      (by decide : ∀ rule ∈ deliveryRules, rule ≠ "") _ (List.getElem_mem hi)⟩
  unfold deliveryRule ruleChosen decidingPosition
  cases hi : deciding (rankKey best) (rankKey runner) with
  | none => decide
  | some i =>
    have hlt : i < ((rankKey best).zip (rankKey runner)).length :=
      (List.findIdx?_eq_some_iff_getElem.mp hi).1
    obtain ⟨rule, hrule, hne⟩ := hnamed i (by simpa [length_rankKey, deliveryRules] using hlt)
    simp [hrule, hne]

/-- The account that the delivery writes is decided again from its candidates. -/
lemma accountEntry_account_agrees (hbest : firstBest rankKey pool = some best) :
    (accountEntry (account s best pool)).agrees = true := by
  have hsorted := ranked_recorded pool
  rw [insertionSort_eq_cons hbest] at hsorted
  have hcandidates : (account s best pool).candidates = pool.map recorded := rfl
  have hattempt : (account s best pool).attempt = best.attempt := rfl
  cases hrunner : firstBest rankKey (pool.erase best) with
  | none =>
    have hrule : (account s best pool).rule = deliveryOnlyOne := by simp [account, hrunner]
    rw [firstBest_eq_none.mp hrunner] at hsorted
    have hdelivered : delivered (pool.map recorded) = (some best.attempt, deliveryOnlyOne) := by
      simp [delivered, hsorted, recorded]
    simp [accountEntry, Entry.agrees, Inputs.decideAgain, hcandidates, hdelivered, hrule, hattempt,
      deliveryOnlyOne]
  | some runner =>
    obtain ⟨hsame, hne⟩ := deliveryRule_rankKey best runner
    have hrule : (account s best pool).rule = ruleChosen best runner := by simp [account, hrunner]
    rw [insertionSort_eq_cons hrunner] at hsorted
    have hdelivered : delivered (pool.map recorded) =
        (some best.attempt, ruleChosen best runner) := by
      simp [delivered, hsorted, recorded, ← hsame]
    simp [accountEntry, Entry.agrees, Inputs.decideAgain, hcandidates, hdelivered, hrule, hattempt,
      hne]

/-- The account of a sound mesh keeps no candidates to decide from. -/
lemma accountEntry_soundAccount (lastSound : Bool) (last attempt : Nat) (engine : String)
    (shortOf : List Shortfall) :
    (accountEntry (soundAccount lastSound last attempt engine shortOf)).agrees = false := by
  simp [accountEntry, soundAccount, Entry.agrees, Inputs.decideAgain, delivered, ranked,
    ladDeliverSound]

/-! ## The run -/

/-- The delivery writes an account of its own: nobody disputed the run, and it has several valid
meshes, or one of an earlier attempt. -/
def AccountsAnew (w : DeliveryWorld) (s : FinalState) : Prop :=
  s.ladder.pipeline.userDispute = none ∧
    (1 < (candidates w s).length ∨ ∃ c ∈ candidates w s, c.current = false)

lemma deliveredFrom_select_of_anew (h : AccountsAnew w s) :
    ∃ best, firstBest rankKey (candidates w s) = some best ∧
      (select w s).deliveredFrom = some (account s best (candidates w s)) := by
  obtain ⟨hopen, hanew⟩ := h
  obtain ⟨c, hc⟩ : ∃ c, c ∈ candidates w s := by
    obtain hmany | ⟨c, hc, -⟩ := hanew
    · exact List.exists_mem_of_length_pos (Nat.zero_lt_of_lt hmany)
    · exact ⟨c, hc⟩
  obtain ⟨best, hbest⟩ := exists_firstBest rankKey hc
  refine ⟨best, hbest, ?_⟩
  obtain hlast | ⟨h, -, hreview⟩ := cases_of_mem_candidates (mem_of_firstBest hbest)
  · have hmany : 1 < (candidates w s).length := by
      refine hanew.elim id fun ⟨d, hd, hearlier⟩ => ?_
      by_contra hone
      have hmem := mem_of_firstBest hbest
      obtain ⟨x, hx⟩ := List.length_eq_one_iff.mp
        (le_antisymm (not_lt.mp hone) (List.length_pos_of_mem hmem))
      rw [hx, List.mem_singleton] at hd hmem
      rw [hd, ← hmem, hlast.current] at hearlier
      cases hearlier
    simp [select, hopen, hbest, hlast.current, hmany]
  · rw [select_review hopen hbest hreview]
    rfl

lemma deliveredFrom_select_of_not_anew (h : ¬ AccountsAnew w s) :
    (select w s).deliveredFrom = s.deliveredFrom := by
  by_cases hopen : s.ladder.pipeline.userDispute = none
  · obtain ⟨hone, hlast⟩ := not_or.mp fun hanew => h ⟨hopen, hanew⟩
    unfold select
    rw [if_neg (by simp [hopen])]
    dsimp only
    cases hbest : firstBest rankKey (candidates w s) with
    | none => rfl
    | some best =>
      have hcurrent : best.current = true := by
        by_contra hearlier
        exact hlast ⟨best, mem_of_firstBest hbest, by simpa using hearlier⟩
      simp [hcurrent, hone]
  · rw [select, if_pos (by simpa [Option.isSome_iff_ne_none] using hopen)]

/-- All but the delivery is decided again. -/
lemma replay_build_eq_nil_iff : replay (build reads run w) = [] ↔
    ∀ e ∈ deliveredEntry (select w run.state), e.agrees = true := by
  rw [replay_eq_nil_iff]
  constructor
  · intro h e he
    exact h e (by simp [build, entries, Option.mem_def.mp he])
  · intro h e he
    simp only [build, entries, List.mem_append, Option.mem_toList] at he
    obtain ((((he | he) | he) | he) | he) | he := he
    · obtain ⟨row, -, rfl⟩ := List.mem_map.mp he
      rfl
    · exact enginePickEntry_agrees e he
    · exact switchEntries_agree e he
    · exact h e he
    · unfold userNotesEntry at he
      split at he
      · cases he
      · obtain rfl := Option.some.inj he
        rfl
    · obtain ⟨c, -, rfl⟩ := List.mem_map.mp he
      exact cited_agrees c

/-- An account of a sound mesh that is left as it is does not replay. -/
lemma replay_build_ne_nil (hanew : ¬ AccountsAnew w run.state) {a : Account}
    (hfrom : run.state.deliveredFrom = some a) : replay (build reads run w) ≠ [] := by
  rw [ne_eq, replay_build_eq_nil_iff, deliveredEntry, deliveredFrom_select_of_not_anew hanew, hfrom]
  intro h
  obtain ⟨lastSound, last, attempt, engine, shortOf, rfl⟩ := run.accounted a hfrom
  have hagrees := h _ rfl
  rw [accountEntry_soundAccount] at hagrees
  cases hagrees

/-- The record of a run replays exactly where the run did not go back to a sound mesh, or the
delivery writes an account of its own. -/
theorem replay_build_iff (reads : OwnFormat) (run : FinishedRun) (w : DeliveryWorld) :
    replay (build reads run w) = [] ↔
      run.state.deliveredFrom = none ∨ AccountsAnew w run.state := by
  by_cases hanew : AccountsAnew w run.state
  · obtain ⟨best, hbest, hfrom⟩ := deliveredFrom_select_of_anew hanew
    rw [replay_build_eq_nil_iff]
    refine iff_of_true (fun e he => ?_) (.inr hanew)
    rw [deliveredEntry, hfrom] at he
    obtain rfl := Option.some.inj he
    exact accountEntry_account_agrees hbest
  · rw [or_iff_left hanew]
    cases hfrom : run.state.deliveredFrom with
    | none =>
      rw [replay_build_eq_nil_iff, deliveredEntry, deliveredFrom_select_of_not_anew hanew, hfrom]
      refine iff_of_true (fun e he => ?_) rfl
      dsimp only at he
      split at he
      · obtain rfl := Option.some.inj he
        simp [Entry.agrees, Inputs.decideAgain, delivered, ranked]
      · cases he
    | some a => exact iff_of_false (replay_build_ne_nil hanew hfrom) nofun

/-! ## A run that went back -/

/-- The second attempt failed its checks, and the run went back to the sound mesh of the first. -/
def wentBack : FinishedRun where
  state := {
    ladder := {
      pipeline := { PipelineState.initial none with
        retryCount := 2
        executorSuccess := true
        reviewerVerdict := some .PASS }
      engine := "snappy"
      engineParams := []
      approval := ⟨.system, "external_cfd", none, none, [], none, false, false, false, false⟩
      report := ⟨[], [], false, none, false⟩
      record := ⟨some "snappy", some .system, [], [], [], none⟩ }
    apiFailure := ""
    workspace := "attempt_1"
    manifest := none
    findings := []
    feedback := ""
    history := [⟨2, "attempt_1", some .PASS, [], "", [], "snappy", some [], by decide⟩]
    deliveredFrom := some (soundAccount false 2 1 "snappy" [])
    routed := rfl }
  notes := ⟨"snappy", "", true, fun _ => "", fun _ => ""⟩
  sourceFormat := ""
  fluidRegion := []
  userNotes := 0
  cited := []
  accounted a ha := ⟨false, 2, 1, "snappy", [], (Option.some.inj ha).symm⟩

/-- The delivery of the sound mesh is not decided again. -/
theorem wentBack_does_not_replay : replay (build (fun _ _ => false) wentBack twoMeshes) ≠ [] := by
  refine replay_build_ne_nil ?_ rfl
  rintro ⟨-, hmany | ⟨c, hc, hearlier⟩⟩
  · exact absurd hmany (by decide)
  · exact absurd hearlier ((by decide : ∀ c ∈ candidates twoMeshes wentBack.state,
      ¬ c.current = false) c hc)

end MeshPipeline.WhyRecord
