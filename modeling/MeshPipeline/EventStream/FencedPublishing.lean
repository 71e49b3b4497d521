import MeshPipeline.EventStream.FencingWorld

/-!
# Publishing behind the fence

A publication is authorized by the row and written behind the mirror, and a claim may commit in
between. The write is refused unless the mirror still holds the fingerprint it was authorized
under, so the mirror must have let go of it when the next claim commits.
-/

namespace MeshPipeline.FencingWorld

open LeaseRepository

variable {cfg : Settings} {w w' : FencingWorld} {op : FenceOp}

/-! ## Who holds the row -/

/-- What an open transaction may leave: a fresh claim's row, or a row with no new holder. -/
def TxSound (w : FencingWorld) (tx : RowTx) : Prop :=
  match tx.granted with
  | some own => tx.row.activeWorkerToken = some own.workerToken ∧ w.freshToken own.workerToken
  | none => ∀ own, names tx.row own → names w.row own

/-- Claims have tokens of their own, and the row names the newest of them, if any. -/
structure Sound (w : FencingWorld) : Prop where
  distinct : ∀ a ∈ w.granted, ∀ b ∈ w.granted, a.workerToken = b.workerToken → a = b
  holder : ∀ own ∈ w.granted, names w.row own → w.granted.head? = some own
  running : ∀ own ∈ w.running, own ∈ w.granted
  inFlight : ∀ p ∈ w.inFlight, p.own ∈ w.running
  tx : ∀ tx ∈ w.tx, TxSound w tx

theorem sound_created (id : JobId) (ownerId : String) (organizationId : Option Nat) (now : Int) :
    (created id ownerId organizationId now).Sound :=
  ⟨by simp [created], by simp [created], by simp [created], by simp [created],
    by simp [created]⟩

theorem ne_of_freshToken {token : Token} (h : w.freshToken token) {own : ExecutionOwnership}
    (hmem : own ∈ w.granted) : own.workerToken ≠ token := by
  have := List.all_eq_true.mp h own hmem
  simpa using this

/-- Taking the lock changes no committed fact. -/
theorem sound_lock {row : SimulationJob} {granted : Option ExecutionOwnership} {key : FenceKey}
    (hs : w.Sound) (htx : TxSound w ⟨row, granted⟩) : (w.lock row granted key).Sound := by
  refine ⟨hs.distinct, hs.holder, hs.running, hs.inFlight, ?_⟩
  rintro tx ⟨⟩
  exact htx

theorem claimLock_cases (cfg : Settings) (w : FencingWorld) (token : Token) (backend : String)
    (execution : Option String) (now : Int) : w.claimLock cfg token backend execution now = w ∨
      ∃ result own row outgoing,
        claimExecution (some w.row) token backend execution true now cfg.lease
          cfg.pipelineTotal = .ok ⟨result, some own, some row, outgoing⟩ ∧
        w.claimLock cfg token backend execution now =
          w.lock row (some own) (w.revoked outgoing) := by
  unfold claimLock
  split
  · rename_i result own row outgoing h
    exact .inr ⟨result, own, row, outgoing, h, rfl⟩
  · exact .inl rfl

theorem sound_commit {tx : RowTx} (hs : w.Sound) (htx : tx ∈ w.tx) :
    Sound { w with row := tx.row, tx := none, granted := tx.granted.toList ++ w.granted } := by
  have hsound := hs.tx tx htx
  unfold TxSound at hsound
  cases hg : tx.granted with
  | none =>
    rw [hg] at hsound
    refine ⟨hs.distinct, ?_, hs.running, hs.inFlight, by simp⟩
    intro own hmem hnames
    exact hs.holder own hmem (hsound own hnames)
  | some new =>
    rw [hg] at hsound
    obtain ⟨htoken, hfresh⟩ := hsound
    refine ⟨?_, ?_, fun own hmem => List.mem_cons_of_mem new (hs.running own hmem),
      hs.inFlight, by simp⟩
    · intro a ha b hb htokens
      rcases List.mem_cons.mp ha with rfl | ha'
      · rcases List.mem_cons.mp hb with rfl | hb'
        · rfl
        · exact absurd htokens.symm (ne_of_freshToken hfresh hb')
      · rcases List.mem_cons.mp hb with rfl | hb'
        · exact absurd htokens (ne_of_freshToken hfresh ha')
        · exact hs.distinct a ha' b hb' htokens
    · intro own hmem hnames
      rcases List.mem_cons.mp hmem with rfl | hmem'
      · rfl
      · have hsame := Option.some.inj (htoken.symm.trans (token_of_names hnames))
        exact absurd hsame.symm (ne_of_freshToken hfresh hmem')

theorem sound_step (hs : w.Sound) (h : step cfg w op = some w') : w'.Sound := by
  cases op with
  | tick | lapse | handBackRevoke => cases h; exact ⟨hs.1, hs.2, hs.3, hs.4, hs.5⟩
  | claimLock token backend execution now =>
    simp only [step] at h
    split at h
    · rename_i hc
      cases h
      obtain hsame | ⟨_, own, row, _, hclaim, hlock⟩ :=
        claimLock_cases cfg w token backend execution now
      · rw [hsame]
        exact hs
      · rw [hlock]
        obtain ⟨-, -, -, rfl, -, rfl, -⟩ := granted_of_claimExecution hclaim
        exact sound_lock hs ⟨rfl, hc.2⟩
    · cases h
  | heartbeatLock own target now =>
    simp only [step] at h
    split at h <;> cases h
    exact sound_lock hs fun _ => names_of_heartbeat
  | evictLock now =>
    simp only [step] at h
    split at h <;> cases h
    exact sound_lock hs fun _ => names_of_evictOwner
  | releaseLock own now =>
    simp only [step] at h
    split at h <;> cases h
    exact sound_lock hs fun _ => names_of_release
  | handBackLock own now =>
    simp only [step] at h
    split at h <;> cases h
    exact sound_lock hs fun _ => names_of_handBack
  | commit =>
    obtain ⟨tx, htx, rfl⟩ := Option.map_eq_some_iff.mp h
    exact sound_commit hs htx
  | rollback =>
    obtain ⟨tx, -, rfl⟩ := Option.map_eq_some_iff.mp h
    exact ⟨hs.distinct, hs.holder, hs.running, hs.inFlight, by simp⟩
  | install own =>
    simp only [step] at h
    split at h
    · rename_i hi
      cases h
      refine ⟨hs.distinct, hs.holder, ?_, fun p hp => List.mem_cons_of_mem own (hs.inFlight p hp),
        hs.tx⟩
      intro other hmem
      rcases List.mem_cons.mp hmem with rfl | hmem
      · exact hi.1
      · exact hs.running other hmem
    · cases h
  | authorize own event opKey =>
    simp only [step] at h
    split at h
    · rename_i hrunning
      cases h
      unfold authorize
      split
      · refine ⟨hs.distinct, hs.holder, hs.running, ?_, hs.tx⟩
        intro p hp
        rcases List.mem_append.mp hp with hp | hp
        · exact hs.inFlight p hp
        · rw [List.mem_singleton.mp hp]
          exact hrunning
      · exact hs
    · cases h
  | emit i =>
    obtain ⟨p, -, rfl⟩ := Option.map_eq_some_iff.mp h
    exact ⟨hs.distinct, hs.holder, hs.running,
      fun q hq => hs.inFlight q (List.mem_of_mem_eraseIdx hq), hs.tx⟩

/-! ## What the mirror lets through -/

/-- Every publication in flight is the newest claim's, or the mirror will refuse it. -/
def Guarded (w : FencingWorld) : Prop :=
  ∀ p ∈ w.inFlight, w.granted.head? = some p.own ∨ w.mirrored ≠ some p.own.fingerprint

/-- The condition: a claim commits only once the mirror has let go of every fingerprint that a
publication in flight was authorized under. -/
def LetsGo (w : FencingWorld) : FenceOp → Prop
  | .commit => ∀ tx ∈ w.tx, tx.granted.isSome →
      ∀ p ∈ w.inFlight, w.mirrored ≠ some p.own.fingerprint
  | _ => True

/-- The property: what is appended was authorized under the newest claim that has committed. -/
def AppendsNewest (w : FencingWorld) : FenceOp → Prop
  | .emit i => ∀ p ∈ w.inFlight[i]?, (w.publish p).2.log ≠ w.stream.log →
      w.granted.head? = some p.own
  | _ => True

instance (w : FencingWorld) : (op : FenceOp) → Decidable (w.LetsGo op)
  | .commit => inferInstanceAs <| Decidable <| ∀ tx ∈ w.tx, tx.granted.isSome →
      ∀ p ∈ w.inFlight, w.mirrored ≠ some p.own.fingerprint
  | .tick _ | .lapse | .claimLock .. | .heartbeatLock .. | .evictLock _ | .releaseLock ..
  | .handBackRevoke _ | .handBackLock .. | .rollback | .install _ | .authorize .. | .emit _ =>
    isTrue trivial

instance (w : FencingWorld) : (op : FenceOp) → Decidable (w.AppendsNewest op)
  | .emit i => inferInstanceAs <| Decidable <| ∀ p ∈ w.inFlight[i]?,
      (w.publish p).2.log ≠ w.stream.log → w.granted.head? = some p.own
  | .tick _ | .lapse | .claimLock .. | .heartbeatLock .. | .evictLock _ | .releaseLock ..
  | .handBackRevoke _ | .handBackLock .. | .rollback | .install _ | .authorize .. | .commit =>
    isTrue trivial

theorem fingerprint_eq_iff {a b : ExecutionOwnership} :
    a.fingerprint = b.fingerprint ↔
      a.executionGeneration = b.executionGeneration ∧ a.workerToken = b.workerToken := by
  simp [ExecutionOwnership.fingerprint]

theorem names_congr {row : SimulationJob} {a b : ExecutionOwnership}
    (h : a.fingerprint = b.fingerprint) : names row a = names row b := by
  obtain ⟨hgen, htoken⟩ := fingerprint_eq_iff.mp h
  simp [names, hgen, htoken]

/-- A step that shows the mirror no fingerprint it did not show keeps publications guarded. -/
theorem Guarded.of_mirrored (hw : w.Guarded) (hin : w'.inFlight = w.inFlight)
    (hgranted : w'.granted = w.granted)
    (hmirror : ∀ fp, w'.mirrored = some fp → w.mirrored = some fp) : w'.Guarded := by
  intro p hp
  rw [hin] at hp
  rw [hgranted]
  rcases hw p hp with hnewest | hrefused
  · exact .inl hnewest
  · exact .inr fun h => hrefused (hmirror _ h)

theorem mirrored_of_revoked {value : Option Fingerprint} {fp : Fingerprint}
    (h : Fence.current (w.revoked value) w.clock = some fp) : w.mirrored = some fp := by
  cases value with
  | none => exact h
  | some value => exact Fence.current_of_revoke h

theorem guarded_heartbeat (hs : w.Sound) (hw : w.Guarded) (own : ExecutionOwnership)
    (target : Option Int) (now : Int) : (w.heartbeatLock cfg own target now).Guarded := by
  cases hbeat : (heartbeat (some w.row) own target now cfg.lease).1 with
  | false =>
    refine hw.of_mirrored rfl rfl ?_
    intro fp h
    rw [heartbeatLock, mirrored_lock, if_neg (by simp [hbeat])] at h
    exact h
  | true =>
    intro p hp
    rcases hw p hp with hnewest | hrefused
    · exact .inl hnewest
    · by_cases hfp : own.fingerprint = p.own.fingerprint
      · -- the beat is the publication's own claim, which the row still names
        have hnames : names w.row p.own := names_congr hfp ▸ names_of_heartbeat_true hbeat
        exact .inl (hs.holder p.own (hs.running _ (hs.inFlight p hp)) hnames)
      · right
        intro h
        have hmirror : (if w.mirrored = none then some own.fingerprint else w.mirrored) =
            some p.own.fingerprint := by
          rw [← h, heartbeatLock, mirrored_lock, if_pos hbeat, Fence.current_refreshOrHeal]
          rfl
        split at hmirror
        · exact hfp (Option.some.inj hmirror)
        · exact hrefused hmirror

theorem guarded_step (hs : w.Sound) (hw : w.Guarded) (hop : w.LetsGo op)
    (h : step cfg w op = some w') : w'.Guarded := by
  cases op with
  | tick d =>
    cases h
    refine hw.of_mirrored rfl rfl ?_
    intro fp h
    exact Fence.current_mono (Int.le_add_of_nonneg_right (Int.natCast_nonneg d)) h
  | lapse => cases h; exact hw.of_mirrored rfl rfl nofun
  | claimLock token backend execution now =>
    simp only [step] at h
    split at h
    · cases h
      obtain hsame | ⟨_, own, row, outgoing, -, hlock⟩ :=
        claimLock_cases cfg w token backend execution now
      · rw [hsame]
        exact hw
      · rw [hlock]
        exact hw.of_mirrored rfl rfl fun _ => mirrored_of_revoked
    · cases h
  | heartbeatLock own target now =>
    simp only [step] at h
    split at h <;> cases h
    exact guarded_heartbeat hs hw own target now
  | evictLock now | releaseLock own now =>
    simp only [step] at h
    split at h <;> cases h
    exact hw.of_mirrored rfl rfl fun _ => mirrored_of_revoked
  | handBackRevoke own =>
    cases h
    refine hw.of_mirrored rfl rfl ?_
    intro fp h
    rw [mirrored_setFence] at h
    exact mirrored_of_revoked h
  | handBackLock own now =>
    simp only [step] at h
    split at h <;> cases h
    exact hw.of_mirrored rfl rfl fun _ => id
  | commit =>
    obtain ⟨tx, htx, rfl⟩ := Option.map_eq_some_iff.mp h
    cases hg : tx.granted with
    | none => exact hw
    | some own =>
      intro p hp
      exact .inr (hop tx htx (by simp [hg]) p hp)
  | rollback =>
    obtain ⟨tx, -, rfl⟩ := Option.map_eq_some_iff.mp h
    exact hw
  | install own =>
    simp only [step] at h
    split at h
    · rename_i hi
      cases h
      intro p hp
      right
      have hmirror : (w.install own).mirrored = some own.fingerprint := Fence.current_entry
      intro hsame
      -- a publication in flight belongs to a delivery that had started before
      have hrunning : p.own ∈ w.running := hs.inFlight p hp
      have hfp := fingerprint_eq_iff.mp (Option.some.inj (hmirror.symm.trans hsame))
      have heq : own = p.own := hs.distinct own hi.1 p.own (hs.running _ hrunning) hfp.2
      exact hi.2 (heq ▸ hrunning)
    · cases h
  | authorize own event opKey =>
    simp only [step] at h
    split at h
    · rename_i hrunning
      cases h
      unfold authorize
      split
      · rename_i howner
        intro p hp
        rcases List.mem_append.mp hp with hp | hp
        · exact hw p hp
        · rw [List.mem_singleton.mp hp]
          have hnames : names w.row own := (Bool.and_eq_true_iff.mp howner).2
          exact .inl (hs.holder own (hs.running own hrunning) hnames)
      · exact hw
    · cases h
  | emit i =>
    obtain ⟨p, -, rfl⟩ := Option.map_eq_some_iff.mp h
    intro q hq
    have hmirror : Fence.current (w.publish p).2.fence w.clock = w.mirrored :=
      congrArg (Fence.current · w.clock) (JobStream.emit_fence _)
    rcases hw q (List.mem_of_mem_eraseIdx hq) with hnewest | hrefused
    · exact .inl hnewest
    · exact .inr fun h => hrefused (hmirror.symm.trans h)

theorem appendsNewest (hw : w.Guarded) : AppendsNewest w op := by
  cases op with
  | emit i =>
    intro p hp happended
    rcases hw p (List.mem_of_getElem? hp) with hnewest | hrefused
    · exact hnewest
    · have hsame : (w.publish p).2 = w.stream := congrArg (·.2) (JobStream.emit_of_stale hrefused)
      exact absurd (congrArg (·.log) hsame) happended
  | _ => trivial

/-- In a run whose claims all commit after the mirror let go of what is in flight, no event is
appended under a claim that another has superseded. -/
theorem fenced_publishing (cfg : Settings) (id : JobId) (ownerId : String)
    (organizationId : Option Nat) (now : Int) (ops : List FenceOp)
    (h : (machine cfg).Meets LetsGo (created id ownerId organizationId now) ops) :
    (machine cfg).Meets AppendsNewest (created id ownerId organizationId now) ops := by
  refine Transition.Machine.meets_of_invariant (I := fun w => w.Sound ∧ w.Guarded) ?_ ?_
    ⟨sound_created id ownerId organizationId now, fun p hp => absurd hp List.not_mem_nil⟩ h
  · rintro w op w' ⟨hs, hw⟩ hop hstep
    exact ⟨sound_step hs hstep, guarded_step hs hw hop hstep⟩
  · rintro w op ⟨-, hw⟩ -
    exact appendsNewest hw

/-- A worker installs its fence a second after its claim, passes its ownership check, and loses the
job when its lease runs out: to another execution, or to a restart of its own. -/
def overtaken (backendExecutionId : String) : List FenceOp :=
  let own : ExecutionOwnership := ⟨1, 1, "celery", some 21600000000, 1, 900⟩
  [.claimLock 1 "celery" (some "vm-1") 0, .commit, .tick 1000000, .install own,
    .authorize own "meshed" "", .tick 899000000,
    .claimLock 2 "celery" (some backendExecutionId) 900000000, .commit, .emit 0]

theorem fenced_publishing_takeover :
    (machine .default).Meets AppendsNewest (created 7 "ada" none 0) (overtaken "vm-2") :=
  fenced_publishing .default 7 "ada" none 0 (overtaken "vm-2") (by decide +kernel)

/-- A resumed claim rotates the token and revokes nothing: the mirror, which was installed later
than the lease began, still lets the outgoing worker append. -/
theorem fenced_publishing_fails_on_resume :
    ¬ ∀ ops, (machine .default).Meets AppendsNewest (created 7 "ada" none 0) ops := by
  intro hall
  exact absurd (hall (overtaken "vm-1")) (by decide +kernel)

end MeshPipeline.FencingWorld
