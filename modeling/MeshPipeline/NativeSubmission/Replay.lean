import MeshPipeline.NativeSubmission.AtMostOnce

/-!
# What a replay collects

A replay collects under the key of its own row. That is the key the accepted run was launched with
unless the row was accepted by adopting the run of an earlier generation.
-/

namespace MeshPipeline.NativeSubmission

open NativeSubmissionRepository

/-- An acceptance records the row's own run, or one of an earlier generation. -/
def Acceptance.Traces (a : Acceptance) : Prop :=
  if a.byAdoption then a.run.generation < a.operationKey.generation else a.run = a.operationKey

namespace NativeWorld

/-- What a call relies on at a phase: the runs it may adopt are earlier ones that were launched,
and the row it replays was accepted. -/
def TracedPhase (w : NativeWorld) (operationKey : OperationKey) : Phase → Prop
  | .probing keys => ∀ key ∈ keys, key.generation < operationKey.generation
  | .adopting key | .adopted key _ =>
    key.generation < operationKey.generation ∧ key ∈ w.launchedKeys
  | .launched | .answered _ => operationKey ∈ w.launchedKeys
  | .replaying key => key = operationKey ∧ ∃ a ∈ w.acceptances, a.operationKey = operationKey
  | .entered | .refused | .current | .acquired | .returned => True

/-- Accepted rows go back to one acceptance each, and acceptances to runs that were launched. -/
structure Traced (w : NativeWorld) : Prop where
  phases : ∀ call ∈ w.calls, w.TracedPhase call.operationKey call.phase
  unresolved : ∀ row ∈ w.claims, row.disposition = .indeterminate →
    row.operationKey ∈ w.launchedKeys
  accepted : ∀ row ∈ w.claims,
    row.disposition = .accepted ↔ ∃ a ∈ w.acceptances, a.operationKey = row.operationKey
  acceptances : ∀ a ∈ w.acceptances,
    a.Traces ∧ a.run ∈ w.launchedKeys ∧ a.operationKey ∈ w.keys
  unique : (w.acceptances.map (·.operationKey)).Nodup

variable {cfg : Config} {w w' : NativeWorld} {op : NativeOp} {s : Submission} {call : Call}
  {i : Nat}

theorem tracedPhase_mono (hlaunched : ∀ key ∈ w.launchedKeys, key ∈ w'.launchedKeys)
    (haccepted : ∀ a ∈ w.acceptances, a ∈ w'.acceptances) {key : OperationKey} {phase : Phase}
    (h : w.TracedPhase key phase) : w'.TracedPhase key phase := by
  cases phase with
  | adopting | adopted => exact ⟨h.1, hlaunched _ h.2⟩
  | launched | answered => exact hlaunched _ h
  | replaying replayed =>
    obtain ⟨rfl, a, ha, hkey⟩ := h
    exact ⟨rfl, a, haccepted a ha, hkey⟩
  | _ => exact h

theorem Traced.moved (ht : w.Traced) {call' : Call} {phase : Phase}
    (hphase : w.TracedPhase call'.operationKey phase) : (w.moved i call' phase).Traced := by
  refine ⟨?_, ht.unresolved, ht.accepted, ht.acceptances, ht.unique⟩
  intro c hc
  rcases List.mem_or_eq_of_mem_set hc with hold | rfl
  · exact ht.phases c hold
  · exact hphase

theorem traced_job (ht : w.Traced) (job : JobWorld) : Traced { w with job := job } :=
  ⟨ht.phases, ht.unresolved, ht.accepted, ht.acceptances, ht.unique⟩

theorem traced_enter (ht : w.Traced) (s : Submission) :
    Traced { w with calls := w.calls ++ [⟨s, .entered, false⟩] } := by
  refine ⟨?_, ht.unresolved, ht.accepted, ht.acceptances, ht.unique⟩
  intro c hc
  rcases List.mem_append.mp hc with hold | hnew
  · exact ht.phases c hold
  · rw [List.mem_singleton.mp hnew]
    trivial

theorem traced_insert (ht : w.Traced) {row : NativeSubmissionClaim}
    (hfree : row.operationKey ∉ w.keys) (hclaimed : row.disposition = .claimed) :
    Traced { w with claims := w.claims ++ [row] } := by
  refine ⟨ht.phases, ?_, ?_, ?_, ht.unique⟩
  · intro r hr hind
    rcases List.mem_append.mp hr with hold | hnew
    · exact ht.unresolved r hold hind
    · rw [List.mem_singleton.mp hnew, hclaimed] at hind
      cases hind
  · intro r hr
    rcases List.mem_append.mp hr with hold | hnew
    · exact ht.accepted r hold
    · obtain rfl := List.mem_singleton.mp hnew
      refine ⟨fun h => ?_, ?_⟩
      · rw [hclaimed] at h
        cases h
      · rintro ⟨a, ha, hkey⟩
        exact absurd (hkey ▸ (ht.acceptances a ha).2.2) hfree
  · intro a ha
    obtain ⟨htraces, hrun, hkey⟩ := ht.acceptances a ha
    refine ⟨htraces, hrun, ?_⟩
    rw [keys, List.map_append]
    exact List.mem_append_left _ hkey

theorem traced_launch (ht : w.Traced) : (w.launch call).Traced := by
  have hgrow : ∀ key ∈ w.launchedKeys, key ∈ (w.launch call).launchedKeys := by
    intro key hkey
    rw [launchedKeys, launch, List.map_append]
    exact List.mem_append_left _ hkey
  refine ⟨?_, ?_, ht.accepted, ?_, ht.unique⟩
  · intro c hc
    exact tracedPhase_mono hgrow (fun _ => id) (ht.phases c hc)
  · intro row hrow hind
    exact hgrow _ (ht.unresolved row hrow hind)
  · intro a ha
    obtain ⟨htraces, hrun, hkey⟩ := ht.acceptances a ha
    exact ⟨htraces, hgrow _ hrun, hkey⟩

/-- A row keeps its key, so the keys tell the rows apart. -/
theorem row_unique (hr : w.Rights) {a b : NativeSubmissionClaim} (ha : a ∈ w.claims)
    (hb : b ∈ w.claims) (h : a.operationKey = b.operationKey) : a = b :=
  List.inj_on_of_nodup_map hr.keys ha hb h

theorem traced_accepted (ht : w.Traced) (hr : w.Rights) {source : Disposition}
    (hsource : source ≠ .accepted) {reference : Option String} {a : Acceptance}
    (hkey : a.operationKey = s.operationKey) (htraces : a.Traces)
    (hrun : ∀ row ∈ w.claims, row.operationKey = s.operationKey → row.disposition = source →
      a.run ∈ w.launchedKeys) :
    (w.accepted (.ok (transition w.job.row w.claims s .accepted [source] reference none))
      a).Traced := by
  by_cases hsame : transition w.job.row w.claims s .accepted [source] reference none = w.claims
  · simpa only [accepted, hsame, if_true] using ht
  obtain ⟨hcurrent, row, hrow, hrowkey, hrowsource⟩ := exists_of_transition_ne hsame
  replace hrowsource := List.mem_singleton.mp hrowsource
  -- the row that moves is the only one of its key, and was not accepted before
  have hfresh : ∀ b ∈ w.acceptances, b.operationKey ≠ s.operationKey := by
    intro b hb hbkey
    have hacc := (ht.accepted row hrow).mpr ⟨b, hb, hbkey.trans hrowkey.symm⟩
    exact hsource (hrowsource.symm.trans hacc)
  rw [accepted, if_neg hsame]
  refine ⟨?_, ?_, ?_, ?_, ?_⟩
  · intro c hc
    refine tracedPhase_mono ?_ ?_ (ht.phases c hc)
    · exact fun _ => id
    · exact fun b hb => List.mem_append_left _ hb
  · intro r hr' hind
    rcases mem_transition hr' with hold | ⟨-, old, -, -, -, rfl⟩
    · exact ht.unresolved r hold hind
    · cases hind
  · intro r hr'
    obtain ⟨old, hold, rfl⟩ := List.mem_map.mp hr'
    split
    · rename_i hc
      exact ⟨fun _ => ⟨a, List.mem_append_right _ List.mem_cons_self, hkey.trans hc.1.symm⟩,
        fun _ => rfl⟩
    · rename_i hc
      have hother : old.operationKey ≠ s.operationKey := by
        intro heq
        obtain rfl := row_unique hr hold hrow (heq.trans hrowkey.symm)
        exact hc ⟨heq, hcurrent, List.mem_singleton.mpr hrowsource⟩
      rw [ht.accepted old hold]
      refine ⟨fun ⟨b, hb, hbkey⟩ => ⟨b, List.mem_append_left _ hb, hbkey⟩, ?_⟩
      rintro ⟨b, hb, hbkey⟩
      rcases List.mem_append.mp hb with hb | hb
      · exact ⟨b, hb, hbkey⟩
      · rw [List.mem_singleton.mp hb, hkey] at hbkey
        exact absurd hbkey.symm hother
  · intro b hb
    rw [keys, operationKey_transition]
    rcases List.mem_append.mp hb with hb | hb
    · exact ht.acceptances b hb
    · obtain rfl := List.mem_singleton.mp hb
      refine ⟨htraces, hrun row hrow hrowkey hrowsource, ?_⟩
      rw [hkey, ← hrowkey]
      exact List.mem_map_of_mem hrow
  · rw [List.map_append]
    refine List.nodup_append.mpr ⟨ht.unique, List.nodup_singleton _, ?_⟩
    rintro key hold _ hnew rfl
    obtain ⟨b, hb, rfl⟩ := List.mem_map.mp hold
    exact hfresh b hb ((List.mem_singleton.mp hnew).trans hkey)

/-- What is not an acceptance leaves the accepted rows as they are. -/
theorem traced_unresolved (ht : w.Traced) {target : Disposition}
    (htarget : target = .indeterminate ∨ target = .failed) {failureClass : Option String}
    (hlaunched : s.operationKey ∈ w.launchedKeys) :
    Traced { w with
      claims := transition w.job.row w.claims s target [.claimed] none failureClass } := by
  refine ⟨ht.phases, ?_, ?_, ?_, ht.unique⟩
  · intro r hr hind
    rcases mem_transition hr with hold | ⟨-, old, -, hkey, -, rfl⟩
    · exact ht.unresolved r hold hind
    · exact hkey ▸ hlaunched
  · intro r hr
    rcases mem_transition hr with hold | ⟨-, old, hold, -, hclaimed, rfl⟩
    · exact ht.accepted r hold
    · have hnot : ¬ ∃ a ∈ w.acceptances, a.operationKey = old.operationKey := by
        rw [← ht.accepted old hold, List.mem_singleton.mp hclaimed]
        exact nofun
      refine ⟨fun h => ?_, fun h => absurd h hnot⟩
      have htaken : target = .accepted := h
      grind
  · intro a ha
    rw [keys, operationKey_transition]
    exact ht.acceptances a ha

theorem traced_marks (ht : w.Traced) (hr : w.Rights) {run : OperationKey} {byAdoption : Bool}
    (h : Marks w s run byAdoption w') (hrun : run ∈ w.launchedKeys)
    (htraces : Acceptance.Traces ⟨s.operationKey, run, byAdoption⟩) : w'.Traced := by
  cases h with
  | accepted source sources reference named =>
    refine traced_accepted ht hr ?_ rfl htraces fun _ _ _ _ => hrun
    rintro rfl
    simp at sources
  | unresolved own target targets failureClass =>
    obtain rfl : run = s.operationKey := by simpa [Acceptance.Traces, own] using htraces
    exact traced_unresolved ht targets hrun
  | raised => exact ht

theorem traced_step (ht : w.Traced) (hr : w.Rights) (h : Change w w') : w'.Traced := by
  cases h with
  | job job => exact traced_job ht job
  | enter s => exact traced_enter ht s
  | refused i call at' held => exact ht.moved trivial
  | acquired i call at' entered current free row key claimed =>
    exact (traced_insert ht (key ▸ free) claimed).moved trivial
  | advanced i call at' phase advances =>
    have hphase := ht.phases call (List.mem_of_getElem? at')
    refine ht.moved ?_
    cases advances with
    | current | returned => trivial
    | replaying found =>
      obtain ⟨row, hrow, haccepted⟩ := accepted_of_existing found
      obtain ⟨hmem, hkey⟩ := mem_of_lookup hrow
      exact ⟨rfl, hkey ▸ (ht.accepted row hmem).mp haccepted⟩
    | probing keys may earlier =>
      intro key hkey
      rcases earlier key hkey with hearlier | ⟨known, hknown, hmem⟩
      · exact mem_earlierRuns hearlier
      · rw [hknown] at hphase
        exact hphase key hmem
    | adopting key keys probed launched =>
      rw [probed] at hphase
      exact ⟨hphase key List.mem_cons_self, launched⟩
    | adopted key reference adopting =>
      rw [adopting] at hphase
      exact hphase
    | answered answer launched =>
      rw [launched] at hphase
      exact hphase
  | launched i call at' probed =>
    refine (traced_launch ht).moved ?_
    rw [TracedPhase, launchedKeys, launch, List.map_append]
    exact List.mem_append_right _ List.mem_cons_self
  | recorded i call at' answer answered v marks =>
    have hphase := ht.phases call (List.mem_of_getElem? at')
    rw [answered] at hphase
    exact (traced_marks ht hr marks hphase rfl).moved trivial
  | adopted i call at' key reference adopted v marks =>
    have hphase := ht.phases call (List.mem_of_getElem? at')
    rw [adopted] at hphase
    exact (traced_marks ht hr marks hphase.2 hphase.1).moved trivial
  | reconciled s reference named =>
    refine traced_accepted (a := ⟨s.operationKey, s.operationKey, false⟩) ht hr ?_ rfl rfl
      fun row hrow hkey hind => ?_
    · rintro h
      cases h
    · exact hkey ▸ ht.unresolved row hrow hind

theorem traced_created (id : JobId) (ownerId : String) (organizationId : Option Nat) (now : Int) :
    (created id ownerId organizationId now).Traced := by
  refine ⟨?_, ?_, ?_, ?_, List.nodup_nil⟩ <;> exact fun _ h => nomatch h

/-- The row was accepted by adopting the run of an earlier generation. -/
def Adopted (w : NativeWorld) (key : OperationKey) : Prop :=
  ∃ a ∈ w.acceptances, a.operationKey = key ∧ a.byAdoption

/-- A replay of the operation that collects under a key collects the accepted run. -/
def CollectsAccepted (w : NativeWorld) (operationKey collected : OperationKey) : Prop :=
  ∃ a ∈ w.acceptances, a.operationKey = operationKey ∧ a.run ∈ w.launchedKeys ∧ collected = a.run

instance (w : NativeWorld) (operationKey collected : OperationKey) :
    Decidable (w.CollectsAccepted operationKey collected) :=
  inferInstanceAs (Decidable (∃ _ ∈ _, _))

theorem collectsAccepted_iff (ht : w.Traced) (hcall : call ∈ w.calls) {key : OperationKey}
    (hreplaying : call.phase = .replaying key) :
    w.CollectsAccepted call.operationKey key ↔ ¬ w.Adopted call.operationKey := by
  have hphase := ht.phases call hcall
  rw [hreplaying] at hphase
  obtain ⟨rfl, a, ha, hkey⟩ := hphase
  have hunique : ∀ b ∈ w.acceptances, b.operationKey = call.operationKey → b = a :=
    fun b hb hbkey => List.inj_on_of_nodup_map ht.unique hb ha (hbkey.trans hkey.symm)
  obtain ⟨htraces, hrun, -⟩ := ht.acceptances a ha
  constructor
  · rintro ⟨b, hb, hbkey, -, hcollected⟩ ⟨c, hc, hckey, hadopted⟩
    obtain rfl := hunique b hb hbkey
    obtain rfl := hunique c hc hckey
    rw [Acceptance.Traces, if_pos hadopted, ← hcollected, hkey] at htraces
    exact absurd htraces (lt_irrefl _)
  · intro hown
    have hfalse : a.byAdoption = false := by
      by_contra hadopted
      exact hown ⟨a, ha, hkey, by simpa using hadopted⟩
    refine ⟨a, ha, hkey, hrun, ?_⟩
    rw [Acceptance.Traces, hfalse] at htraces
    exact hkey.symm.trans htraces.symm

/-- In every run, a replay collects the run that was accepted exactly when that run was not an
earlier generation's, adopted. -/
theorem replay_collects_accepted_run (cfg : Config) (id : JobId) (ownerId : String)
    (organizationId : Option Nat) (now : Int) (ops : List NativeOp)
    (h : (machine cfg).exec (created id ownerId organizationId now) ops = some w)
    (hcall : call ∈ w.calls) {key : OperationKey} (hreplaying : call.phase = .replaying key) :
    w.CollectsAccepted call.operationKey key ↔ ¬ w.Adopted call.operationKey := by
  have hinv : w.Rights ∧ w.Traced := by
    refine Transition.Machine.exec_invariant_of_step (I := fun w => w.Rights ∧ w.Traced) ?_
      ⟨rights_created id ownerId organizationId now,
        traced_created id ownerId organizationId now⟩ h
    rintro v op v' ⟨hr, ht⟩ hstep
    obtain hc | rfl := change_step hstep
    · exact ⟨rights_step hr hc, traced_step ht hr hc⟩
    · exact ⟨hr, ht⟩
  exact collectsAccepted_iff hinv.2 hcall hreplaying

/-- The run of the first generation, taken over after its launch. -/
def takenOver : List NativeOp :=
  let first : Submission := ⟨⟨1, 1, "celery", some 21600000000, 1, 900⟩, "mesh", "snappy", "d"⟩
  let second : Submission := ⟨⟨2, 2, "celery", some 21600000000, 2, 900⟩, "mesh", "snappy", "d"⟩
  [.job (.claimExecution 1 "celery" (some "vm-1") true), .enter first, .claim 0,
    .lookEarlier 0 true, .launch 0, .job (.tick 900000000),
    .job (.claimExecution 2 "celery" (some "vm-2") true), .enter second, .claim 1,
    .lookEarlier 1 true]

/-- The node is run again from its checkpoint. -/
def replayed : List NativeOp :=
  let second : Submission := ⟨⟨2, 2, "celery", some 21600000000, 2, 900⟩, "mesh", "snappy", "d"⟩
  [.enter second, .claim 2, .checkCurrent 2, .lookup 2 true]

def resubmitted : List NativeOp :=
  takenOver ++ [.probe 1 (some .absent), .launch 1, .answer 1 (.result "run/2"), .record 1] ++
    replayed

def adoptedRun : List NativeOp :=
  takenOver ++ [.probe 1 (some .running), .collectEarlier 1 (some "run/1"), .recordAdopted 1] ++
    replayed

theorem replay_collects_accepted_run_resubmitted :
    ∃ w call key, (machine .default).exec (created 7 "ada" none 0) resubmitted = some w ∧
      w.calls[2]? = some call ∧ call.phase = .replaying key ∧
      (w.CollectsAccepted call.operationKey key ↔ ¬ w.Adopted call.operationKey) :=
  ⟨_, _, _, rfl, rfl, rfl, replay_collects_accepted_run .default 7 "ada" none 0 resubmitted rfl
    (List.mem_of_getElem? (i := 2) rfl) rfl⟩

/-- After an adoption the replay looks under the new generation's key, where nothing ever ran. -/
theorem replay_of_adopted_run_misses :
    ¬ ∀ ops w, (machine .default).exec (created 7 "ada" none 0) ops = some w →
      ∀ call ∈ w.calls, ∀ key, call.phase = .replaying key →
        w.CollectsAccepted call.operationKey key := by
  intro hall
  have hmissed := hall adoptedRun _ rfl _ (List.mem_of_getElem? (i := 2) rfl) _ rfl
  exact absurd hmissed (by decide)

end NativeWorld

end MeshPipeline.NativeSubmission
