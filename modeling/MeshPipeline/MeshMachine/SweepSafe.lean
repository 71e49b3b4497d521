import MeshPipeline.MeshMachine.VmSweep
import Mathlib.Tactic.Linarith

/-!
# What a sweep may delete

A machine of another deployment is never deleted, and a question about the result or the owner that
fails keeps the machine. A beacon that cannot be read does not: it is taken as silent, and so is one
that falls silent between the start of the sweep and the machine's turn.
-/

namespace MeshPipeline.VmSweep

variable {now : ℚ} {project bucket : String} {t : Turn} {turns : List Turn}

namespace Turn

/-- The machine is one of this deployment. -/
def Ours (bucket : String) (t : Turn) : Prop := t.vm.exchangeOf.1 ≠ "" ∧ t.vm.exchangeOf.1 = bucket

def HasStopped (t : Turn) : Prop := t.vm.status.getD "" ∈ stopped

/-- The machine was started for a run with an output. -/
def HasKey (t : Turn) : Prop := t.vm.exchangeOf.2 ≠ ""

instance : Decidable t.HasKey := inferInstanceAs (Decidable (_ ≠ _))

/-- The beacon was written within `WORKING_S` of the start of the sweep, or after it. -/
def Working (now : ℚ) (t : Turn) : Prop :=
  t.HasKey ∧ ∃ updated ∈ t.world.updated t.vm.exchangeOf.1 (progressKeyBeside t.vm.exchangeOf.2),
    now - updated ≤ workingS

/-- The beacon is heard within `WORKING_S` when it is asked for. -/
def Heard (t : Turn) : Prop :=
  t.HasKey ∧ ∃ age ∈ t.world.beaconAge t.vm.exchangeOf.1 (progressKeyBeside t.vm.exchangeOf.2),
    age ≤ workingS

/-- The beacon is asked for and cannot be read. -/
def Unread (t : Turn) : Prop := t.HasKey ∧ ¬ t.world.beaconRead.isOk

/-- What the question about the result answers, `false` for a machine with no output. -/
def resultAnswer (t : Turn) : Except String Bool :=
  if t.HasKey then t.world.resultExists t.vm.exchangeOf.1 (resultKeyBeside t.vm.exchangeOf.2)
  else .ok false

/-- The owner is asked for: there is no result, and the machine is old enough. -/
def AsksOwner (now : ℚ) (t : Turn) : Prop :=
  t.resultAnswer = .ok false ∧ ownerGraceS ≤ t.vm.ageS now

def ownerAnswer (project : String) (t : Turn) : Except String (Option Bool) :=
  t.world.ownerLive (t.vm.referenceOf project)

/-- What the questions about the result and the owner say of a machine that is not heard: its run is
over, or its job has ended or is unknown. -/
def Over (now : ℚ) (project : String) (t : Turn) : Prop :=
  t.resultAnswer = .ok true ∨
    t.AsksOwner now ∧ (t.ownerAnswer project = .ok (some false) ∨ t.ownerAnswer project = .ok none)

/-- A question that the decision needed could not be answered. -/
def Unanswered (now : ℚ) (project bucket : String) (t : Turn) : Prop :=
  t.Ours bucket ∧ ¬ t.HasStopped ∧ (t.Unread ∨
    ¬ t.Heard ∧ (¬ t.resultAnswer.isOk ∨ t.AsksOwner now ∧ ¬ (t.ownerAnswer project).isOk))

end Turn

/-- `decide` has a reason to delete a machine. -/
def Turn.Judged (now : ℚ) (project bucket : String) (t : Turn) : Prop :=
  ∃ why, t.why now project bucket = .ok why ∧ why ≠ ""

/-- What is decided of a machine of this deployment that has not stopped and is not heard. -/
def Turn.silentWhy (now : ℚ) (project : String) (t : Turn) : Except String String := do
  let written ← t.resultAnswer
  if written then return "its result is written in the exchange"
  if ownerGraceS ≤ t.vm.ageS now then
    match ← t.ownerAnswer project with
    | some false => return "the job that started it has ended"
    | none => return "no job's claim names it"
    | some true => return ""
  return ""

lemma why_of_not_ours (h : ¬ t.Ours bucket) : t.why now project bucket = .ok "" := by
  have hother : t.vm.exchangeOf.1 = "" ∨ t.vm.exchangeOf.1 ≠ bucket := by
    unfold Turn.Ours at h
    tauto
  unfold Turn.why Vm.decide
  dsimp only
  rw [if_pos hother]
  rfl

lemma place_of_ours (h : t.Ours bucket) :
    ¬ (t.vm.exchangeOf.1 = "" ∨ t.vm.exchangeOf.1 ≠ bucket) := by
  unfold Turn.Ours at h
  tauto

lemma why_of_stopped (h : t.Ours bucket) (hstopped : t.HasStopped) :
    ∃ why, t.why now project bucket = .ok why ∧ why ≠ "" := by
  unfold Turn.HasStopped at hstopped
  unfold Turn.why Vm.decide
  dsimp only
  rw [if_neg (place_of_ours h)]
  generalize t.vm.status.getD "" = status at hstopped ⊢
  rw [if_pos hstopped]
  refine ⟨s!"it has stopped ({status}): its container is done", rfl, fun hempty => ?_⟩
  have hparts : (toString "it has stopped (" = "" ∧ toString status = "") ∧
      toString "): its container is done" = "" := by
    simpa [String.append_eq_empty_iff] using hempty
  exact absurd hparts.2 (by decide)

lemma why_of_heard (h : t.Ours bucket) (hstopped : ¬ t.HasStopped) (hheard : t.Heard) :
    t.why now project bucket = .ok "" := by
  obtain ⟨hkey, hfresh⟩ := hheard
  unfold Turn.why Vm.decide
  dsimp only
  rw [if_neg (place_of_ours h)]
  unfold Turn.HasStopped at hstopped
  unfold Turn.HasKey at hkey
  rw [if_neg hstopped, if_neg hkey]
  dsimp only [bind, Except.bind]
  rw [if_pos hfresh]
  rfl

lemma why_of_silent (h : t.Ours bucket) (hstopped : ¬ t.HasStopped) (hsilent : ¬ t.Heard) :
    t.why now project bucket = t.silentWhy now project := by
  unfold Turn.why Vm.decide Turn.silentWhy Turn.resultAnswer Turn.ownerAnswer
  dsimp only
  rw [if_neg (place_of_ours h)]
  unfold Turn.HasStopped at hstopped
  rw [if_neg hstopped]
  by_cases hkey : t.HasKey
  · have hfresh : ¬ ∃ age ∈ t.world.beaconAge t.vm.exchangeOf.1
        (progressKeyBeside t.vm.exchangeOf.2), age ≤ workingS := fun hfresh => hsilent ⟨hkey, hfresh⟩
    rw [if_pos hkey]
    unfold Turn.HasKey at hkey
    rw [if_neg hkey, if_neg hkey]
    dsimp only [bind, Except.bind]
    exact if_neg hfresh
  · rw [if_neg hkey]
    unfold Turn.HasKey at hkey
    have hnone : ¬ ∃ age ∈ (none : Option ℚ), age ≤ workingS := by simp
    rw [if_pos (not_not.mp hkey), if_pos (not_not.mp hkey)]
    dsimp only [bind, Except.bind, pure, Except.pure]
    exact if_neg hnone

/-- The machines that are deleted are those of this deployment that have stopped, or that are not heard
and are over by what the other questions say. -/
lemma judged_iff : t.Judged now project bucket ↔
    t.Ours bucket ∧ (t.HasStopped ∨ ¬ t.Heard ∧ t.Over now project) := by
  by_cases hours : t.Ours bucket
  swap
  · simp [Turn.Judged, why_of_not_ours hours, hours]
  by_cases hstopped : t.HasStopped
  · simp [Turn.Judged, why_of_stopped hours hstopped, hours, hstopped]
  by_cases hheard : t.Heard
  · simp [Turn.Judged, why_of_heard hours hstopped hheard, hours, hstopped, hheard]
  · unfold Turn.Judged
    rw [why_of_silent hours hstopped hheard]
    simp only [hours, hstopped, hheard, not_false_eq_true, true_and, false_or]
    unfold Turn.silentWhy Turn.Over Turn.AsksOwner
    cases hresult : t.resultAnswer with
    | error e => simp [bind, Except.bind]
    | ok written =>
      cases written with
      | true => simp [bind, Except.bind, pure, Except.pure]
      | false =>
        by_cases hold : ownerGraceS ≤ t.vm.ageS now
        · cases howner : t.ownerAnswer project with
          | error e => simp [hold, howner, bind, Except.bind]
          | ok live =>
            rcases live with _ | _ | _ <;>
              simp [hold, howner, bind, Except.bind, pure, Except.pure]
        · simp [hold, bind, Except.bind, pure, Except.pure]

/-! ## The calls of a sweep -/

lemma mem_calls_step {out : Swept} {t' : Turn} :
    t ∈ (step now project bucket out t').calls ↔
      t ∈ out.calls ∨ t = t' ∧ t.Judged now project bucket := by
  have hjudged : t'.Judged now project bucket ↔ t'.reason now project bucket ≠ "" := by
    unfold Turn.Judged Turn.reason
    cases t'.why now project bucket <;> simp
  unfold step
  dsimp only
  split
  · next hkeep =>
    have hnot : ¬ t'.Judged now project bucket := fun h => hjudged.mp h hkeep
    have hother : ¬ (t = t' ∧ t.Judged now project bucket) := by
      rintro ⟨rfl, h⟩
      exact hnot h
    simp [hother]
  · next hdelete =>
    have hjudge := hjudged.mpr hdelete
    simp only [List.mem_append, List.mem_singleton]
    constructor
    · rintro (h | rfl)
      · exact .inl h
      · exact .inr ⟨rfl, hjudge⟩
    · rintro (h | ⟨rfl, -⟩)
      · exact .inl h
      · exact .inr rfl

lemma mem_calls_foldl {out : Swept} :
    t ∈ (turns.foldl (step now project bucket) out).calls ↔
      t ∈ out.calls ∨ t ∈ turns ∧ t.Judged now project bucket := by
  induction turns generalizing out with
  | nil => simp
  | cons t' turns ih =>
    rw [List.foldl_cons, ih, mem_calls_step, List.mem_cons]
    tauto

/-- A sweep deletes the machines that are judged. -/
lemma mem_calls_sweep : t ∈ (sweep now project bucket (.ok turns)).calls ↔
    t ∈ turns ∧ t.Judged now project bucket := by
  unfold sweep
  rw [mem_calls_foldl]
  simp

/-! ## What a sweep keeps -/

/-- What a sweep owes to the machines it looks at. -/
structure Safe (now : ℚ) (project bucket : String) (turns : List Turn) : Prop where
  working : ∀ t ∈ turns, t.Ours bucket → ¬ t.HasStopped → t.Working now →
    t ∉ (sweep now project bucket (.ok turns)).calls
  unanswered : ∀ t ∈ turns, t.Unanswered now project bucket →
    t ∉ (sweep now project bucket (.ok turns)).calls
  others : ∀ t ∈ turns, ¬ t.Ours bucket → t ∉ (sweep now project bucket (.ok turns)).calls

/-- The beacon is lost to the decision: it cannot be read, or it was written in time for the start of the
sweep and is too old when the machine's turn comes. -/
def Turn.Lost (now : ℚ) (t : Turn) : Prop := t.Unread ∨ t.Working now ∧ ¬ t.Heard

lemma not_heard_of_unread (h : t.Unread) : ¬ t.Heard := by
  rintro ⟨-, age, hage, -⟩
  have hread := h.2
  unfold World.beaconAge at hage
  cases hbeacon : t.world.beaconRead with
  | error e => simp [hbeacon] at hage
  | ok u => exact hread (by rw [hbeacon]; rfl)

/-- A failed question about the result or the owner keeps the machine. -/
lemma not_over_of_failed (h : ¬ t.resultAnswer.isOk ∨
    t.AsksOwner now ∧ ¬ (t.ownerAnswer project).isOk) : ¬ t.Over now project := by
  rintro (hover | ⟨⟨hanswer, -⟩, howner⟩)
  · obtain hfail | ⟨⟨hanswer, -⟩, -⟩ := h
    · exact hfail (by rw [hover]; rfl)
    · rw [hover] at hanswer
      cases hanswer
  · obtain hfail | ⟨-, hfail⟩ := h
    · exact hfail (by rw [hanswer]; rfl)
    · obtain howner | howner := howner <;> exact hfail (by rw [howner]; rfl)

/-- A sweep is safe exactly when no machine of this deployment whose beacon is lost to its decision is
over by what the other questions say. -/
theorem sweep_safe_iff : Safe now project bucket turns ↔
    ∀ t ∈ turns, t.Ours bucket → ¬ t.HasStopped → t.Lost now → ¬ t.Over now project := by
  constructor
  · intro hsafe t ht hours hstopped hlost hover
    have hsilent : ¬ t.Heard := hlost.elim not_heard_of_unread And.right
    have hcall : t ∈ (sweep now project bucket (.ok turns)).calls :=
      mem_calls_sweep.mpr ⟨ht, judged_iff.mpr ⟨hours, .inr ⟨hsilent, hover⟩⟩⟩
    obtain hunread | ⟨hworking, -⟩ := hlost
    · exact hsafe.unanswered t ht ⟨hours, hstopped, .inl hunread⟩ hcall
    · exact hsafe.working t ht hours hstopped hworking hcall
  · intro h
    refine ⟨?_, ?_, ?_⟩
    · intro t ht hours hstopped hworking hcall
      obtain ⟨-, hjudged⟩ := mem_calls_sweep.mp hcall
      obtain ⟨-, hstop | ⟨hsilent, hover⟩⟩ := judged_iff.mp hjudged
      · exact hstopped hstop
      · exact h t ht hours hstopped (.inr ⟨hworking, hsilent⟩) hover
    · rintro t ht ⟨hours, hstopped, hfail⟩ hcall
      obtain ⟨-, hjudged⟩ := mem_calls_sweep.mp hcall
      obtain ⟨-, hstop | ⟨-, hover⟩⟩ := judged_iff.mp hjudged
      · exact hstopped hstop
      · obtain hunread | ⟨-, hfailed⟩ := hfail
        · exact h t ht hours hstopped (.inl hunread) hover
        · exact not_over_of_failed hfailed hover
    · intro t _ hother hcall
      obtain ⟨-, hjudged⟩ := mem_calls_sweep.mp hcall
      exact hother (judged_iff.mp hjudged).1

/-- A machine an hour into its run, whose beacon was written a minute ago and cannot be read. -/
def meshing : Turn where
  vm := ⟨"mesh-big-a", "zone-a", some "RUNNING", some 0, [(some "output-uri", some "gs://b/jobs/a/out")]⟩
  world :=
    { clock := 3600
      updated := fun _ _ => some 3540
      beaconRead := .error "storage unreachable"
      resultExists := fun _ _ => .ok false
      ownerRow := fun _ => .ok none
      deletes := true }

/-- A sweep is not always safe: it deletes a machine whose beacon it could not read, since no claim names
a machine before its run is over. -/
theorem sweep_unsafe : ¬ ∀ now project bucket turns, Safe now project bucket turns := by
  intro h
  have hexchange : meshing.vm.exchangeOf = ("b", "jobs/a/out") := by decide +kernel
  have hours : meshing.Ours "b" := by
    rw [Turn.Ours, hexchange]
    decide
  have hkey : meshing.HasKey := by
    rw [Turn.HasKey, hexchange]
    decide
  have hunread : meshing.Unread := ⟨hkey, by simp [meshing, Except.isOk, Except.toBool]⟩
  have hresult : meshing.resultAnswer = .ok false := by
    rw [Turn.resultAnswer, if_pos hkey]
    rfl
  have hover : meshing.Over 3600 "p" := by
    refine .inr ⟨⟨hresult, ?_⟩, .inr rfl⟩
    simp [meshing, Vm.ageS, ownerGraceS]
    norm_num
  have hstopped : ¬ meshing.HasStopped := by
    unfold Turn.HasStopped
    decide
  have hcall : meshing ∈ (sweep 3600 "p" "b" (.ok [meshing])).calls :=
    mem_calls_sweep.mpr ⟨List.mem_cons_self,
      judged_iff.mpr ⟨hours, .inr ⟨not_heard_of_unread hunread, hover⟩⟩⟩
  exact (h 3600 "p" "b" [meshing]).unanswered meshing List.mem_cons_self
    ⟨hours, hstopped, .inl hunread⟩ hcall

end MeshPipeline.VmSweep
