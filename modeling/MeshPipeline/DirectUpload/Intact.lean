import MeshPipeline.DirectUpload.AdoptedOnce

/-!
# An upload is kept whole, or taken away

A finish checks bytes without a lock and adopts them under it. What it checked is what is stored when
no send lands on top of it and no delete is lost; and whatever is stored is either a session's or
under an intent that a sweep still takes up.
-/

namespace MeshPipeline.DirectUpload

variable {C : Checks} {w w' : World} {s : CallId} {reply : Reply} {f : Finish} {c : Checked}

/-- The call took the object away, or found it gone, and has not committed that. -/
def Call.emptied : Call → Bool
  | .finish ⟨_, _, _, .discarded _⟩ => true
  | .sweep (.settled row) => row.state = .resolvedDeleted
  | _ => false

/-- What a finish is about to adopt. -/
def Stage.found : Stage → Option Checked
  | .checked c | .adopting c => some c
  | _ => none

namespace World

/-- No send lands on what has been checked, and what a transaction deleted it commits. -/
def Undisturbed (w : World) : Op → Prop
  | .land data => data = none ∨ w.source = none ∧
      ∀ s f, w.calls s = some (.finish f) → f.stage.found = none
  | .go s reply => reply.delete ≠ .lost ∧
      (reply.commit.lands ∨ ∀ d ∈ w.calls s, d.emptied = false)
  | .cut s => ∀ d ∈ w.calls s, d.emptied = false
  | _ => True

structure Intact (C : Checks) (w : World) : Prop where
  source : ∀ r ∈ w.source, ∃ data ∈ w.object, ∃ c, Checked.Of C c data ∧
    r = ⟨r.scope, r.originalFilename, c.suffix, c.digest, c.counted⟩
  found : ∀ s f c, w.calls s = some (.finish f) → f.stage.found = some c → w.Pending →
    (∃ t d, w.calls t = some d ∧ d.emptied) ∨ ∃ data ∈ w.object, c.Of C data

lemma holds_of_emptied {d : Call} (h : d.emptied = true) : d.holds = true := by
  unfold Call.emptied at h
  split at h
  · rfl
  · rfl
  · cases h

/-- One call moves on, and nothing else. -/
lemma Intact.move (h : w.Intact C) {d : Option Call} {l : Option CallId}
    (hbefore : ∀ e ∈ w.calls s, e.emptied = false)
    (hafter : ∀ f c, d = some (.finish f) → f.stage.found = some c → w.Pending →
      (∃ t e, t ≠ s ∧ w.calls t = some e ∧ e.emptied) ∨ ∃ data ∈ w.object, c.Of C data) :
    Intact C { w.setCall s d with lock := l } where
  source := h.source
  found t f c hf hfound hp := by
    have hkeep : (∃ u e, u ≠ s ∧ w.calls u = some e ∧ e.emptied) →
        ∃ u e, (w.setCall s d).calls u = some e ∧ e.emptied := by
      rintro ⟨u, e, hu, he, hemptied⟩
      exact ⟨u, e, by simpa [setCall, hu] using he, hemptied⟩
    by_cases ht : t = s
    · subst ht
      exact (hafter f c (by simpa [setCall] using hf) hfound hp).imp_left hkeep
    · obtain ⟨u, e, he, hemptied⟩ | hdata :=
        h.found t f c (by simpa [setCall, ht] using hf) hfound hp
      · refine .inl (hkeep ⟨u, e, ?_, he, hemptied⟩)
        rintro rfl
        rw [hbefore e he] at hemptied
        cases hemptied
      · exact .inr hdata

/-- Nobody but the holder of the lock has emptied the store. -/
lemma Sound.emptied_false (h : w.Sound C) {d e : Call} {t : CallId} (hd : w.calls s = some d)
    (hold : d.holds = true) (hd' : d.emptied = false) (he : w.calls t = some e) :
    e.emptied = false := by
  by_contra hemptied
  have hlock := (h.holder he (holds_of_emptied (by simpa using hemptied))).1
  obtain rfl : s = t := Option.some.inj ((h.holder hd hold).1.symm.trans hlock)
  obtain rfl : d = e := Option.some.inj (hd.symm.trans he)
  exact hemptied hd'

lemma Sound.emptied_of_unlocked (h : w.Sound C) (hlock : w.lock = none) {e : Call} {t : CallId}
    (he : w.calls t = some e) : e.emptied = false := by
  by_contra hemptied
  have hl := (h.holder he (holds_of_emptied (by simpa using hemptied))).1
  rw [hlock] at hl
  cases hl

/-- While the holder has not emptied the store, what was found is in it. -/
lemma Intact.stored (h : w.Intact C) (hs : w.Sound C) {d : Call} (hd : w.calls s = some d)
    (hold : d.holds = true) (hd' : d.emptied = false) {t : CallId}
    (hf : w.calls t = some (.finish f)) (hc : f.stage.found = some c) :
    ∃ data ∈ w.object, c.Of C data := by
  refine (h.found t f c hf hc (hs.holder hd hold).2).resolve_left ?_
  rintro ⟨u, e, he, hemptied⟩
  rw [hs.emptied_false hd hold hd' he] at hemptied
  cases hemptied

/-- A pending upload has no source row that has to be kept. -/
lemma Intact.vacant (hs : w.Sound C) (hp : w.Pending) (object : Option Bytes) : ∀ r ∈ w.source,
    ∃ data ∈ object, ∃ c, Checked.Of C c data ∧
      r = ⟨r.scope, r.originalFilename, c.suffix, c.digest, c.counted⟩ := by
  rw [hs.source_none hp]
  simp

/-- The holder empties the store and is still to commit it. -/
lemma Intact.empty (hs : w.Sound C) {d : Call} (hd : w.calls s = some d) (hold : d.holds = true)
    {e : Call} (he : e.emptied = true) :
    Intact C { w.setCall s (some e) with object := none } where
  source := Intact.vacant hs (hs.holder hd hold).2 none
  found _ _ _ _ _ _ := .inl ⟨s, e, by simp [World.setCall], he⟩

/-- The intent is not pending any more. -/
lemma Intact.closed (h : w.Intact C) {d : Option Call} {row : SourceObjectCleanup}
    (hrow : row.state ≠ .pending) :
    Intact C { w.release s d with intent := some row } where
  source := h.source
  found _ _ _ _ _ hp := by
    obtain ⟨i, hi, hpending⟩ := hp
    obtain rfl : row = i := Option.some.inj hi
    exact absurd hpending hrow

/-- What a finish does before it has the lock. -/
lemma Intact.setStage (h : w.Intact C) (hc : w.calls s = some (.finish f))
    (hfree : (Call.finish f).emptied = false) {stage : Stage} {l : Option CallId}
    (hafter : ∀ c, stage.found = some c → w.Pending →
      (∃ t e, t ≠ s ∧ w.calls t = some e ∧ e.emptied) ∨ ∃ data ∈ w.object, c.Of C data) :
    Intact C { w.setCall s (some (f.at_ stage)) with lock := l } := by
  refine h.move (fun e he => ?_) fun g c hg hfound hp => ?_
  · obtain rfl : Call.finish f = e := Option.some.inj (hc.symm.trans he)
    exact hfree
  · obtain rfl : _ = g := Call.finish.inj (Option.some.inj hg)
    exact hafter c hfound hp

lemma found_look : (f.look w reply).found = none := by
  unfold Finish.look
  split_ifs <;> rfl

lemma found_stat : (Finish.stat C w reply).found = none := by
  unfold Finish.stat
  split
  · split
    · rfl
    · split_ifs <;> rfl
  · rfl

/-- What a finish found is stored. -/
lemma found_check {size : ℕ} (hsize : 0 < size ∧ size ≤ C.maxFileBytes)
    (hc : (f.check C w size reply).found = some c) : ∃ data ∈ w.object, c.Of C data := by
  unfold Finish.check at hc
  split at hc
  · split at hc
    · cases hc
    · next data hdata =>
      split at hc
      · cases hc
      · next suffix hsuffix =>
        split at hc
        · next hcounted =>
          cases hc
          exact ⟨data, hdata, ⟨_, hsuffix⟩, rfl, rfl, hcounted ▸ hsize.1, hcounted ▸ hsize.2⟩
        · cases hc
  · cases hc

lemma Intact.finish_go (h : w.Intact C) (hs : w.Sound C) (hc : w.calls s = some (.finish f))
    (hquiet : w.Undisturbed (.go s reply)) (hgo : f.go C w s reply = some w') : w'.Intact C := by
  obtain ⟨hdelete, hlands⟩ := hquiet
  obtain ⟨scope, filename, suffix, stage⟩ := f
  have hanswered : ∀ {why : Answer} {l : Option CallId}, Call.emptied (.finish
      ⟨scope, filename, suffix, stage⟩) = false → Intact C { w.setCall s (some (Finish.at_
        ⟨scope, filename, suffix, stage⟩ (.answered why))) with lock := l } :=
    fun hfree => h.setStage hc hfree fun c hfound => by cases hfound
  cases stage with
  | begun =>
    cases hgo
    exact h.setStage hc rfl fun c hfound => by rw [found_look] at hfound; cases hfound
  | opened =>
    cases hgo
    exact h.setStage hc rfl fun c hfound => by rw [found_stat] at hfound; cases hfound
  | sized size =>
    cases hgo
    have hsize := (hs.of_call hc (by simp)).1
    exact h.setStage hc rfl fun c hfound _ => .inr (found_check hsize hfound)
  | checked c =>
    have hfound : w.Pending → (∃ t e, t ≠ s ∧ w.calls t = some e ∧ e.emptied) ∨
        ∃ data ∈ w.object, c.Of C data := by
      intro hp
      refine (h.found s _ c hc rfl hp).imp_left ?_
      rintro ⟨t, e, he, hemptied⟩
      refine ⟨t, e, ?_, he, hemptied⟩
      rintro rfl
      obtain rfl := Option.some.inj (hc.symm.trans he)
      cases hemptied
    unfold Finish.go Finish.lockToAdopt at hgo
    dsimp only at hgo
    split_ifs at hgo <;> cases hgo
    · exact h.setStage hc rfl fun c' hc' hp => by
        obtain rfl := Option.some.inj hc'
        exact hfound hp
    · exact hanswered rfl
    · exact hanswered rfl
  | adopting c =>
    cases hgo
    unfold Finish.adopt
    dsimp only
    split
    · split
      · split
        · obtain ⟨data, hdata, hof⟩ := h.stored hs hc rfl rfl hc rfl
          refine ⟨fun r hr => ?_, fun _ _ _ _ _ hp => ?_⟩
          · obtain rfl := Option.some.inj hr
            exact ⟨data, hdata, c, hof, rfl⟩
          · obtain ⟨i, hi, hpending⟩ := hp
            obtain ⟨row, -, rfl⟩ := Option.map_eq_some_iff.mp hi
            cases hpending
        · exact hanswered rfl
      · exact hanswered rfl
    · exact hanswered rfl
  | refusing why =>
    unfold Finish.go Finish.lockToDiscard at hgo
    dsimp only at hgo
    split_ifs at hgo <;> cases hgo
    · exact h.setStage hc rfl fun c' hc' => by cases hc'
    · exact hanswered rfl
    · exact hanswered rfl
  | discarding why =>
    cases hgo
    unfold Finish.discard
    split
    · exact Intact.empty hs hc rfl rfl
    · exact hanswered rfl
    · next hlost => exact absurd hlost hdelete
  | discarded why =>
    cases hgo
    have hlands' : reply.commit.lands = true := hlands.resolve_right fun hfree => by
      cases hfree _ hc
    obtain ⟨row, hrow, -⟩ := (hs.holder hc rfl).2
    unfold Finish.close
    dsimp only
    rw [if_pos hlands', Option.mem_def.mp hrow, Option.map_some]
    exact h.closed (by simp [SourceObjectCleanup.resolve])
  | answered answer => cases hgo

lemma emptied_recordFailure {row : SourceObjectCleanup} (h : row.state = .pending) :
    (Call.sweep (.settled row.recordFailure)).emptied = false := by
  unfold Call.emptied SourceObjectCleanup.recordFailure
  simp only [decide_eq_false_iff_not]
  split
  · decide
  · rw [h]
    decide

lemma Intact.sweep_go (h : w.Intact C) (hs : w.Sound C) {turn : Sweep}
    (hc : w.calls s = some (.sweep turn)) {row : SourceObjectCleanup}
    (hquiet : w.Undisturbed (.go s reply)) : (turn.go w s row reply).Intact C := by
  obtain ⟨hdelete, hlands⟩ := hquiet
  have hp := (hs.holder hc rfl).2
  have hmove : ∀ {d : Option Call} {l : Option CallId}, (Call.sweep turn).emptied = false →
      (∀ f, d ≠ some (.finish f)) → Intact C { w.setCall s d with lock := l } := by
    intro d l hfree hd
    refine h.move (fun e he => ?_) fun f c hf => absurd hf (hd f)
    obtain rfl := Option.some.inj (hc.symm.trans he)
    exact hfree
  cases turn with
  | claimed => exact hmove rfl (by simp)
  | unowned => exact hmove rfl (by simp)
  | present =>
    unfold Sweep.go Sweep.reclaim
    dsimp only
    obtain hdone | hfailed : reply.delete = .done ∨ reply.delete = .failed := by
      cases hd : reply.delete
      · exact .inl rfl
      · exact .inr rfl
      · exact absurd hd hdelete
    · rw [if_pos (by rw [hdone]; rfl), if_pos hdone]
      exact Intact.empty hs hc rfl (by simp [Call.emptied, SourceObjectCleanup.resolve])
    · rw [if_neg (by rw [hfailed]; decide)]
      exact hmove rfl (by simp)
  | settled left =>
    unfold Sweep.go
    dsimp only
    by_cases hstate : left.state = .resolvedDeleted
    · have hlands' : reply.commit.lands = true := hlands.resolve_right fun hfree => by
        have hf := hfree _ hc
        simp [Call.emptied, hstate] at hf
      rw [if_pos hlands']
      exact h.closed (by simp [hstate])
    · have hfree : (Call.sweep (.settled left)).emptied = false := by simp [Call.emptied, hstate]
      split
      · refine ⟨h.source, fun t f c hf hfound _ => .inr ?_⟩
        have hts : t ≠ s := by
          rintro rfl
          simp [release, World.setCall] at hf
        exact h.stored hs hc rfl hfree (by simpa [release, World.setCall, hts] using hf) hfound
      · exact hmove hfree (by simp)

lemma intact_start : start.Intact C := by
  constructor <;> simp [start]

lemma intact_step (h : w.Intact C) (hs : w.Sound C) (op : Op) (hquiet : w.Undisturbed op)
    (hstep : w.step C op = some w') : w'.Intact C := by
  cases op with
  | tick seconds =>
    cases hstep
    exact { h with }
  | begin scope =>
    dsimp only [step] at hstep
    split at hstep
    · cases hstep
    · next hnone =>
      cases hstep
      refine ⟨h.source, fun t f c hf hfound _ => ?_⟩
      -- what a finish found was stored under a link, and a link has its intent
      have hsound := hs.of_call hf (by rintro heq; rw [heq] at hfound; cases hfound)
      have hsaw : f.stage.sawBytes := by
        cases hstage : f.stage <;> rw [hstage] at hfound <;> first | rfl | cases hfound
      exact absurd (hs.linked (.inl (hsound.2.1 hsaw))) hnone
  | sign signed reply =>
    dsimp only [step, World.sign] at hstep
    split_ifs at hstep <;> cases hstep
    · exact { h with }
    · refine ⟨h.source, fun t f c hf hfound hp => ?_⟩
      obtain ⟨i, hi, hpending⟩ := hp
      obtain ⟨row, -, rfl⟩ := Option.map_eq_some_iff.mp hi
      cases hpending
    · exact { h with }
  | send =>
    dsimp only [step] at hstep
    split at hstep <;> cases hstep
    exact { h with }
  | land data =>
    dsimp only [step] at hstep
    split at hstep <;> cases hstep
    obtain rfl | ⟨hsource, hnone⟩ := hquiet
    · exact { h with }
    · refine ⟨by simp [hsource], fun t f c hf hfound => ?_⟩
      rw [hnone t f hf] at hfound
      cases hfound
  | finish s scope filename =>
    dsimp only [step] at hstep
    split at hstep
    · cases hstep
    · next hnone =>
      cases hstep
      refine h.move (fun e he => absurd (Option.isSome_of_mem he) hnone) fun f c hf hfound => ?_
      obtain rfl := Call.finish.inj (Option.some.inj hf)
      split at hfound <;> cases hfound
  | claim s =>
    dsimp only [step] at hstep
    split at hstep
    · next hdue =>
      cases hstep
      refine h.move (fun e he => ?_) fun f c hf => by cases hf
      rw [Option.isNone_iff_eq_none.mp hdue.1] at he
      cases he
    · cases hstep
  | go s reply =>
    dsimp only [step] at hstep
    split at hstep
    · next f hc => exact h.finish_go hs hc hquiet hstep
    · next turn hc =>
      obtain ⟨row, -, rfl⟩ := Option.map_eq_some_iff.mp hstep
      exact h.sweep_go hs hc hquiet
    · cases hstep
  | cut s =>
    dsimp only [step] at hstep
    split at hstep
    · cases hstep
      split <;> exact h.move hquiet fun f c hf => by cases hf
    · cases hstep

/-- Bytes land while the intent is open and nobody is about to say that there are none. -/
def Timely (w : World) : Op → Prop
  | .land data => data = none ∨ w.Pending ∧ ∀ s d, w.calls s = some d → d.emptied = false
  | _ => True

end World

/-- A row the sweep has not given up on has attempts left, and is held for its time. -/
structure SourceObjectCleanup.Kept (row : SourceObjectCleanup) : Prop where
  retries : row.retryCount ≤ maxCleanupRetries
  pending : row.state = .pending →
    row.retryCount < maxCleanupRetries ∧ row.nextAttemptAt = some (row.createdAt + uploadHold)
  used : row.state ≠ .blockedConflict

namespace World

structure Covered (w : World) : Prop where
  deleted : (∃ row ∈ w.intent, row.state = .resolvedDeleted) → w.object = none
  emptied : ∀ s d, w.calls s = some d → d.emptied → w.object = none
  kept : ∀ row ∈ w.intent, row.Kept
  settled : ∀ s row, w.calls s = some (.sweep (.settled row)) →
    row.Kept ∧ ∃ i ∈ w.intent, row.createdAt = i.createdAt
  held : ∀ s turn, w.calls s = some (.sweep turn) →
    ∃ row ∈ w.intent, row.createdAt + uploadHold ≤ w.now

lemma covered_start : start.Covered := by
  constructor <;> simp [start]

/-- What a call that goes on is to know. -/
def Names (w : World) (object : Option Bytes) : Call → Prop
  | .sweep turn => ((Call.sweep turn).emptied → object = none) ∧
      (∀ row, turn = .settled row → row.Kept ∧ ∃ i ∈ w.intent, row.createdAt = i.createdAt) ∧
      ∃ row ∈ w.intent, row.createdAt + uploadHold ≤ w.now
  | d => d.emptied → object = none

lemma Covered.move (h : w.Covered) {d : Option Call} {l : Option CallId} {object : Option Bytes}
    (hobject : object = w.object ∨ object = none) (hd : ∀ e, d = some e → w.Names object e) :
    Covered { w.setCall s d with lock := l, object := object } := by
  have hnone : w.object = none → object = none := fun hn => hobject.elim (·.trans hn) id
  refine ⟨fun hdel => hnone (h.deleted hdel), fun t e he hemptied => ?emptied, h.kept,
    fun t row hrow => ?settled, fun t turn hturn => ?held⟩
  case emptied =>
    by_cases ht : t = s
    · subst ht
      have hn := hd e (by simpa [World.setCall] using he)
      cases e with
      | finish f => exact hn hemptied
      | sweep turn => exact hn.1 hemptied
    · exact hnone (h.emptied t e (by simpa [World.setCall, ht] using he) hemptied)
  case settled =>
    by_cases ht : t = s
    · subst ht
      exact (hd (.sweep (.settled row)) (by simpa [World.setCall] using hrow)).2.1 row rfl
    · exact h.settled t row (by simpa [World.setCall, ht] using hrow)
  case held =>
    by_cases ht : t = s
    · subst ht
      exact (hd (.sweep turn) (by simpa [World.setCall] using hturn)).2.2
    · exact h.held t turn (by simpa [World.setCall, ht] using hturn)

lemma Covered.settle (h : w.Covered) {row row' : SourceObjectCleanup} (hrow : w.intent = some row)
    (hkept : row'.Kept) (hcreated : row'.createdAt = row.createdAt)
    (hdeleted : row'.state = .resolvedDeleted → w.object = none) :
    Covered { w with intent := some row' } where
  deleted := by simpa using hdeleted
  emptied := h.emptied
  kept := by simpa using hkept
  settled t left hleft := by
    obtain ⟨hk, i, hi, heq⟩ := h.settled t left hleft
    obtain rfl := Option.some.inj (hrow.symm.trans hi)
    exact ⟨hk, row', rfl, heq.trans hcreated.symm⟩
  held t turn hturn := by
    obtain ⟨i, hi, hle⟩ := h.held t turn hturn
    obtain rfl := Option.some.inj (hrow.symm.trans hi)
    exact ⟨row', rfl, hcreated ▸ hle⟩

lemma kept_resolve {row : SourceObjectCleanup} (h : row.Kept) {state : ReconciliationState}
    (hpending : state ≠ .pending) (hused : state ≠ .blockedConflict) : (row.resolve state).Kept :=
  ⟨h.retries, fun heq => absurd heq hpending, hused⟩

lemma kept_recordFailure {row : SourceObjectCleanup} (h : row.Kept) (hp : row.state = .pending) :
    row.recordFailure.Kept := by
  obtain ⟨hlt, hnext⟩ := h.pending hp
  refine ⟨hlt, fun hstate => ?_, ?_⟩
  · unfold SourceObjectCleanup.recordFailure at hstate
    dsimp only at hstate
    split at hstate
    · cases hstate
    · next hmore => exact ⟨Nat.lt_of_not_le hmore, hnext⟩
  · unfold SourceObjectCleanup.recordFailure
    dsimp only
    split
    · decide
    · exact h.used

/-- A finish goes on, and names what it leaves. -/
lemma Covered.setStage (h : w.Covered) {stage : Stage} {l : Option CallId} {object : Option Bytes}
    (hobject : object = w.object ∨ object = none)
    (hstage : (f.at_ stage).emptied → object = none) :
    Covered { w.setCall s (some (f.at_ stage)) with lock := l, object := object } := by
  refine h.move hobject fun e he => ?_
  obtain rfl := Option.some.inj he
  exact hstage

lemma Covered.finish_go (h : w.Covered) (hc : w.calls s = some (.finish f))
    (hgo : f.go C w s reply = some w') : w'.Covered := by
  obtain ⟨scope, filename, suffix, stage⟩ := f
  have hstep : ∀ {stage' : Stage} {l : Option CallId}, (Finish.at_ ⟨scope, filename, suffix, stage⟩
      stage').emptied = false → Covered { w.setCall s (some (Finish.at_
        ⟨scope, filename, suffix, stage⟩ stage')) with lock := l } :=
    fun hfree => h.setStage (.inl rfl) fun he => by rw [hfree] at he; cases he
  have hmapped : ∀ {v : World} {state : ReconciliationState}, v.Covered → v.intent = w.intent →
      v.object = w.object → state ≠ .pending → state ≠ .blockedConflict →
      (state = .resolvedDeleted → w.object = none) →
      Covered { v with intent := w.intent.map (·.resolve state) } := by
    intro v state hv hvi hvo hpending hused hdeleted
    cases hrow : w.intent with
    | none =>
      rw [hrow] at hvi
      rw [Option.map_none, ← hvi]
      exact hv
    | some row =>
      rw [hrow] at hvi
      exact hv.settle hvi (kept_resolve (h.kept row hrow) hpending hused) rfl
        fun heq => hvo.trans (hdeleted heq)
  cases stage with
  | begun =>
    cases hgo
    refine hstep ?_
    unfold Finish.look
    split_ifs <;> rfl
  | opened =>
    cases hgo
    refine hstep ?_
    unfold Finish.stat
    split
    · split
      · rfl
      · split_ifs <;> rfl
    · rfl
  | sized size =>
    cases hgo
    refine hstep ?_
    unfold Finish.check
    split
    · split
      · rfl
      · split
        · rfl
        · split_ifs <;> rfl
    · rfl
  | checked c =>
    unfold Finish.go Finish.lockToAdopt at hgo
    dsimp only at hgo
    split_ifs at hgo <;> cases hgo <;> exact hstep rfl
  | adopting c =>
    cases hgo
    unfold Finish.adopt
    dsimp only
    split
    · split
      · split
        · have hreleased : Covered (w.release s (some (Finish.at_
              ⟨scope, filename, suffix, .adopting c⟩ (.answered
                (if reply.commit = .done then Answer.finished else .notRecorded))))) := hstep rfl
          have hadopted : ReconciliationState.resolvedAdopted ≠ .pending := by decide
          exact { hmapped hreleased rfl rfl hadopted (by decide) (by simp) with }
        · exact hstep rfl
      · exact hstep rfl
    · exact hstep rfl
  | refusing why =>
    unfold Finish.go Finish.lockToDiscard at hgo
    dsimp only at hgo
    split_ifs at hgo <;> cases hgo <;> exact hstep rfl
  | discarding why =>
    cases hgo
    unfold Finish.discard
    split
    · exact h.setStage (.inr rfl) fun _ => rfl
    · exact hstep rfl
    · exact h.setStage (.inr rfl) fun _ => rfl
  | discarded why =>
    cases hgo
    unfold Finish.close
    dsimp only
    split
    · exact hmapped (hstep rfl) rfl rfl (by decide) (by decide) fun _ => h.emptied s _ hc rfl
    · exact hstep rfl
  | answered answer => cases hgo

lemma Covered.sweep_go (h : w.Covered) (hs : w.Sound C) {turn : Sweep}
    (hc : w.calls s = some (.sweep turn)) {row : SourceObjectCleanup} (hrow : w.intent = some row) :
    (turn.go w s row reply).Covered := by
  have hpending := (hs.holder hc rfl).2
  have hstate : row.state = .pending := by
    obtain ⟨i, hi, hstate⟩ := hpending
    obtain rfl := Option.some.inj (hrow.symm.trans hi)
    exact hstate
  have hheld := h.held s turn hc
  have hfailed : ∀ object, w.Names object (.sweep (.settled row.recordFailure)) := by
    intro object
    refine ⟨fun he => ?_, fun left hleft => ?_, hheld⟩
    · rw [emptied_recordFailure hstate] at he
      cases he
    · obtain rfl := Sweep.settled.inj hleft
      exact ⟨kept_recordFailure (h.kept row hrow) hstate, row, hrow, rfl⟩
  have hgone : w.Names none (.sweep (.settled (row.resolve .resolvedDeleted))) := by
    refine ⟨fun _ => rfl, fun left hleft => ?_, hheld⟩
    obtain rfl := Sweep.settled.inj hleft
    exact ⟨kept_resolve (h.kept row hrow) (by decide) (by decide), row, hrow, rfl⟩
  have hturn : ∀ {turn' : Sweep} {object : Option Bytes}, (object = w.object ∨ object = none) →
      w.Names object (.sweep turn') →
      Covered { w.setCall s (some (.sweep turn')) with object := object } := by
    intro turn' object hobject hnames
    refine h.move hobject fun e he => ?_
    obtain rfl := Option.some.inj he
    exact hnames
  cases turn with
  | claimed =>
    dsimp only [Sweep.go]
    rw [hs.source_none hpending]
    exact hturn (.inl rfl) ⟨by simp [Call.emptied], by simp, hheld⟩
  | unowned =>
    dsimp only [Sweep.go]
    split
    · split
      · exact hturn (.inl rfl) ⟨by simp [Call.emptied], by simp, hheld⟩
      · next hnone =>
        have hempty : w.object = none := by simpa using hnone
        exact hturn (.inl rfl) (hempty ▸ hgone)
    · exact hturn (.inl rfl) (hfailed _)
  | present =>
    unfold Sweep.go Sweep.reclaim
    dsimp only
    cases reply.delete
    · exact hturn (.inr rfl) hgone
    · exact hturn (.inl rfl) (hfailed _)
    · exact hturn (.inr rfl) (hfailed _)
  | settled left =>
    obtain ⟨hkept, i, hi, hcreated⟩ := h.settled s left hc
    have hreleased : (w.release s none).Covered := h.move (.inl rfl) (by simp)
    unfold Sweep.go
    dsimp only
    split
    · refine hreleased.settle hi hkept hcreated fun hdeleted => h.emptied s _ hc ?_
      simp [Call.emptied, hdeleted]
    · exact hreleased

lemma covered_step (h : w.Covered) (hs : w.Sound C) (op : Op) (htimely : w.Timely op)
    (hstep : w.step C op = some w') : w'.Covered := by
  cases op with
  | tick seconds =>
    cases hstep
    refine { h with held := fun s turn hturn => ?_ }
    obtain ⟨row, hrow, hle⟩ := h.held s turn hturn
    exact ⟨row, hrow, Nat.le_add_right_of_le hle⟩
  | begin scope =>
    dsimp only [step] at hstep
    split at hstep
    · cases hstep
    · next hnone =>
      cases hstep
      have hfree : ∀ s d, w.calls s = some d → d.holds = false := by
        intro s d hd
        by_contra hold
        obtain ⟨row, hrow, -⟩ := (hs.holder hd (by simpa using hold)).2
        exact hnone (Option.isSome_of_mem hrow)
      refine ⟨?_, h.emptied, ?_, fun s row hrow => ?_, fun s turn hturn => ?_⟩
      · simp [SourceObjectCleanup.recordIntent]
      · rintro row hrow
        obtain rfl := Option.some.inj hrow
        exact ⟨Nat.zero_le _, fun _ => ⟨Nat.zero_lt_succ 4, rfl⟩,
          by simp [SourceObjectCleanup.recordIntent]⟩
      · cases hfree s _ hrow
      · cases hfree s _ hturn
  | sign signed reply =>
    dsimp only [step, World.sign] at hstep
    split_ifs at hstep with hsigning hsigned hlands hlock <;> cases hstep
    · exact { h with }
    · obtain ⟨row, hrow⟩ := Option.isSome_iff_exists.mp (hs.linked (.inr hsigning))
      rw [hrow, Option.map_some]
      have hempty : w.object = none := by
        rw [← Option.not_isSome_iff_eq_none]
        intro hsome
        have hl := hs.stored (.inl hsome)
        rw [hs.signing hsigning] at hl
        cases hl
      have hv : Covered { w with signing := false } := { h with }
      exact hv.settle hrow (kept_resolve (h.kept row hrow) (by decide) (by decide)) rfl
        fun _ => hempty
    · exact { h with }
  | send =>
    dsimp only [step] at hstep
    split at hstep <;> cases hstep
    exact { h with }
  | land data =>
    dsimp only [step] at hstep
    split at hstep <;> cases hstep
    obtain rfl | ⟨⟨row, hrow, hpending⟩, hfree⟩ := htimely
    · exact { h with }
    · refine { h with deleted := ?_, emptied := fun s d hd he => ?_ }
      · rintro ⟨i, hi, hdeleted⟩
        obtain rfl := Option.some.inj (hrow.symm.trans hi)
        rw [hpending] at hdeleted
        cases hdeleted
      · rw [hfree s d hd] at he
        cases he
  | finish s scope filename =>
    dsimp only [step] at hstep
    split at hstep
    · cases hstep
    · cases hstep
      refine h.move (.inl rfl) fun e he => ?_
      obtain rfl := Option.some.inj he
      intro hemptied
      split at hemptied <;> cases hemptied
  | claim s =>
    dsimp only [step] at hstep
    split at hstep
    · next hdue =>
      cases hstep
      obtain ⟨-, -, row, hrow, hpending, hnow⟩ := hdue
      refine h.move (.inl rfl) fun e he => ?_
      obtain rfl := Option.some.inj he
      exact ⟨by simp [Call.emptied], by simp, row, hrow,
        hnow _ ((h.kept row hrow).pending hpending).2⟩
    · cases hstep
  | go s reply =>
    dsimp only [step] at hstep
    split at hstep
    · next f hc => exact h.finish_go hc hstep
    · next turn hc =>
      obtain ⟨row, hrow, rfl⟩ := Option.map_eq_some_iff.mp hstep
      exact h.sweep_go hs hc hrow
    · cases hstep
  | cut s =>
    dsimp only [step] at hstep
    split at hstep
    · cases hstep
      split <;> exact h.move (.inl rfl) (by simp)
    · cases hstep

/-- The sweep is at this turn of an upload that nobody adopted. -/
structure SweptAt (w : World) (s : CallId) (row : SourceObjectCleanup) (object : Option Bytes)
    (turn : Sweep) : Prop where
  intent : w.intent = some row
  source : w.source = none
  object : w.object = object
  call : w.calls s = some (.sweep turn)

lemma SweptAt.step {row : SourceObjectCleanup} {object : Option Bytes} {turn : Sweep}
    (h : w.SweptAt s row object turn) :
    w.step C (.go s .allDone) = some (turn.go w s row .allDone) := by
  simp only [World.step, h.call, h.intent, Option.map_some]

lemma SweptAt.next {row : SourceObjectCleanup} {object : Option Bytes} {turn : Sweep}
    (h : w.SweptAt s row object turn) (turn' : Sweep) :
    (w.setCall s (some (.sweep turn'))).SweptAt s row object turn' :=
  ⟨h.intent, h.source, h.object, Function.update_self ..⟩

lemma SweptAt.unowned {row : SourceObjectCleanup} {object : Option Bytes}
    (h : w.SweptAt s row object .claimed) :
    (Sweep.claimed.go w s row .allDone).SweptAt s row object .unowned := by
  simp only [Sweep.go, h.source, Option.isSome_none, Bool.false_eq_true, if_false]
  exact h.next .unowned

lemma SweptAt.gone {row : SourceObjectCleanup} (h : w.SweptAt s row none .unowned) :
    (Sweep.unowned.go w s row .allDone).SweptAt s row none
      (.settled (row.resolve .resolvedDeleted)) := by
  simp only [Sweep.go, Reply.allDone, h.object, Option.isSome_none, Bool.false_eq_true, if_false,
    if_true]
  exact h.next _

lemma SweptAt.present {row : SourceObjectCleanup} {data : Bytes}
    (h : w.SweptAt s row (some data) .unowned) :
    (Sweep.unowned.go w s row .allDone).SweptAt s row (some data) .present := by
  simp only [Sweep.go, Reply.allDone, h.object, Option.isSome_some, if_true]
  exact h.next _

lemma SweptAt.deleted {row : SourceObjectCleanup} {object : Option Bytes}
    (h : w.SweptAt s row object .present) : (Sweep.present.go w s row .allDone).SweptAt s row none
      (.settled (row.resolve .resolvedDeleted)) :=
  ⟨h.intent, h.source, rfl, Function.update_self ..⟩

/-- A sweep that nothing fails takes away what is due. -/
lemma reclaimed (hs : w.Sound C) {row : SourceObjectCleanup} (hrow : w.intent = some row)
    (hdue : row.Due w.now) (hlock : w.lock = none) (hfree : w.calls s = none) :
    ∃ n w', (machine C).exec w (.claim s :: List.replicate n (.go s .allDone)) = some w' ∧
      w'.object = none ∧ w'.source = none ∧ w'.intent = some (row.resolve .resolvedDeleted) := by
  have hclaim : (machine C).step w (.claim s) = some (w.acquire s (.sweep .claimed)) := by
    change w.step C (.claim s) = _
    dsimp only [step]
    rw [if_pos ⟨by rw [hfree]; rfl, by rw [hlock]; rfl, row, hrow, hdue⟩]
  have hclaimed : (w.acquire s (.sweep .claimed)).SweptAt s row w.object .claimed :=
    ⟨hrow, hs.source_none ⟨row, hrow, hdue.1⟩, rfl, Function.update_self ..⟩
  have hmore : ∀ {v w' : World} {object : Option Bytes} {turn : Sweep} {n : ℕ},
      v.SweptAt s row object turn →
      (machine C).exec (turn.go v s row .allDone) (List.replicate n (.go s .allDone)) = some w' →
      (machine C).exec v (List.replicate (n + 1) (.go s .allDone)) = some w' :=
    fun hv hrest => Transition.Machine.exec_cons_eq_some.mpr ⟨_, hv.step, hrest⟩
  have hends : ∀ {v : World}, v.SweptAt s row none (.settled (row.resolve .resolvedDeleted)) →
      ∃ w', (machine C).exec v (List.replicate 1 (.go s .allDone)) = some w' ∧ w'.object = none ∧
        w'.source = none ∧ w'.intent = some (row.resolve .resolvedDeleted) :=
    fun hv => ⟨_, hmore hv rfl, hv.object, hv.source, rfl⟩
  suffices h : ∃ n w', (machine C).exec (w.acquire s (.sweep .claimed))
      (List.replicate n (.go s .allDone)) = some w' ∧ w'.object = none ∧ w'.source = none ∧
        w'.intent = some (row.resolve .resolvedDeleted) by
    obtain ⟨n, w', hrun, hrest⟩ := h
    exact ⟨n, w', Transition.Machine.exec_cons_eq_some.mpr ⟨_, hclaim, hrun⟩, hrest⟩
  cases hobject : w.object with
  | none =>
    rw [hobject] at hclaimed
    obtain ⟨w', hrun, hrest⟩ := hends hclaimed.unowned.gone
    exact ⟨3, w', hmore hclaimed (hmore hclaimed.unowned hrun), hrest⟩
  | some data =>
    rw [hobject] at hclaimed
    obtain ⟨w', hrun, hrest⟩ := hends hclaimed.unowned.present.deleted
    exact ⟨4, w', hmore hclaimed (hmore hclaimed.unowned (hmore hclaimed.unowned.present hrun)),
      hrest⟩

theorem nothing_stranded {ops : List Op} (h : (machine C).exec start ops = some w)
    (htimely : (machine C).Meets Timely start ops) :
    (w.object.isSome → ∃ row ∈ w.intent,
      row.state = .pending ∨ row.state = .resolvedAdopted ∨ row.state = .abandoned) ∧
    (∀ row ∈ w.intent, row.retryCount ≤ maxCleanupRetries) ∧
    (∀ s turn, w.calls s = some (.sweep turn) →
      ∃ row ∈ w.intent, row.createdAt + uploadHold ≤ w.now) ∧
    ∀ row ∈ w.intent, row.state = .pending → row.createdAt + uploadHold ≤ w.now →
      w.lock = none → ∀ s, w.calls s = none →
        ∃ n w', (machine C).exec w (.claim s :: List.replicate n (.go s .allDone)) = some w' ∧
          w'.object = none ∧ w'.source = none ∧
          w'.intent = some (row.resolve .resolvedDeleted) := by
  have hstep : ∀ w op w', w.Sound C ∧ w.Covered → w.Timely op →
      (machine C).step w op = some w' → w'.Sound C ∧ w'.Covered :=
    fun _ op _ hI hP hop => ⟨sound_step hI.1 op hop, covered_step hI.2 hI.1 op hP hop⟩
  obtain ⟨hs, hcovered⟩ :=
    Transition.Machine.exec_invariant hstep ⟨sound_start, covered_start⟩ htimely h
  refine ⟨fun hsome => ?_, fun row hrow => (hcovered.kept row hrow).retries, hcovered.held, ?_⟩
  · obtain ⟨row, hrow⟩ := Option.isSome_iff_exists.mp (hs.linked (.inl (hs.stored (.inl hsome))))
    refine ⟨row, hrow, ?_⟩
    cases hstate : row.state with
    | pending => exact .inl rfl
    | resolvedAdopted => exact .inr (.inl rfl)
    | abandoned => exact .inr (.inr rfl)
    | resolvedDeleted =>
      rw [hcovered.deleted ⟨row, hrow, hstate⟩] at hsome
      cases hsome
    | blockedConflict => exact absurd hstate (hcovered.kept row hrow).used
  · intro row hrow hpending hheld hlock s hfree
    refine reclaimed hs hrow ⟨hpending, fun t ht => ?_⟩ hlock hfree
    rw [((hcovered.kept row hrow).pending hpending).2] at ht
    exact Option.some.inj ht ▸ hheld

theorem nothing_stranded_sent :
    (reached (sentRun ++ [.tick uploadHold])).object.isSome ∧
      ∃ n w', (machine stepChecks).exec (reached (sentRun ++ [.tick uploadHold]))
        (.claim 7 :: List.replicate n (.go 7 .allDone)) = some w' ∧ w'.object = none := by
  have hrun : (machine stepChecks).exec start (sentRun ++ [.tick uploadHold]) =
      some (reached (sentRun ++ [.tick uploadHold])) := rfl
  have htimely : (machine stepChecks).Meets Timely start (sentRun ++ [.tick uploadHold]) := by
    have hbegun : (machine stepChecks).exec start begunRun = some (reached begunRun) := rfl
    rw [sentRun, List.append_assoc, Transition.Machine.meets_append hbegun]
    have hland : (reached begunRun).Timely
        (.land (some [73, 83, 79, 45, 49, 48, 51, 48, 51, 45, 50, 49, 59])) :=
      .inr ⟨⟨_, rfl, rfl⟩, fun _ _ h => by cases h⟩
    exact ⟨⟨trivial, fun _ _ => ⟨trivial, fun _ _ => ⟨trivial, fun _ _ => trivial⟩⟩⟩,
      hland, fun _ _ => ⟨trivial, fun _ _ => trivial⟩⟩
  have hintent : (reached (sentRun ++ [.tick uploadHold])).intent =
      some (.recordIntent ⟨"ada", none⟩ uploadHold 0) := rfl
  refine ⟨rfl, ?_⟩
  obtain ⟨n, w', hreclaimed, hobject, -⟩ :=
    (nothing_stranded hrun htimely).2.2.2 _ hintent rfl (by decide) rfl 7 rfl
  exact ⟨n, w', hreclaimed, hobject⟩

end World

end MeshPipeline.DirectUpload
