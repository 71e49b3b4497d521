import MeshPipeline.DirectUpload.World

/-!
# An upload is adopted once

The lock on the intent is with the one call that is in its transaction, and while it is, the intent
is pending; so one finish adopts, and what comes after it leaves the source and its object alone.
-/

namespace MeshPipeline.DirectUpload

variable {C : Checks} {w w' : World} {s : CallId} {reply : Reply} {f : Finish} {c : Checked}
  {why : Answer}

/-- What was learned is what the checks say of these bytes. -/
structure Checked.Of (C : Checks) (c : Checked) (data : Bytes) : Prop where
  accepted : ∃ named, C.checkedUpload data named = some c.suffix
  digest : c.digest = C.sha256Of data
  counted : c.counted = data.length
  nonempty : 0 < data.length
  bounded : data.length ≤ C.maxFileBytes

/-- What the stage of a finish says of the bytes that were read. -/
def Stage.Learned (C : Checks) : Stage → Prop
  | .sized size => 0 < size ∧ size ≤ C.maxFileBytes
  | .checked c | .adopting c => ∃ data, c.Of C data
  | _ => True

/-- Bytes were there when the finish looked. -/
def Stage.sawBytes : Stage → Bool
  | .sized _ | .checked _ | .adopting _ => true
  | _ => false

/-- What a finish answers, once that is known. -/
def Stage.outcome : Stage → Option Answer
  | .refusing why | .discarding why | .discarded why | .answered why => some why
  | _ => none

/-- What a call knows, and what it is not going to say. -/
def Call.Sound (C : Checks) (w : World) : Call → Prop
  | .finish f => f.stage.Learned C ∧ (f.stage.sawBytes → w.linkUntil.isSome) ∧
      (∀ c, f.stage = .adopting c → ∃ row ∈ w.intent, row.VisibleTo f.scope) ∧
      f.stage.outcome ≠ some .finished
  | .sweep (.settled row) => row.state ≠ .resolvedAdopted ∧ ∃ i ∈ w.intent, row.scope = i.scope
  | .sweep _ => True

/-- What a call knows it knows on, under the scope of the same upload. -/
lemma Call.Sound.mono {d : Call} (h : d.Sound C w)
    (hlink : w.linkUntil.isSome → w'.linkUntil.isSome)
    (hscope : ∀ row ∈ w.intent, ∃ row' ∈ w'.intent, row'.scope = row.scope) : d.Sound C w' := by
  match d, h with
  | .finish f, ⟨hlearned, hsaw, hvisible, hnot⟩ =>
    refine ⟨hlearned, fun hs => hlink (hsaw hs), fun c heq => ?_, hnot⟩
    obtain ⟨row, hrow, hvis⟩ := hvisible c heq
    obtain ⟨row', hrow', heq'⟩ := hscope row hrow
    exact ⟨row', hrow', by unfold SourceObjectCleanup.VisibleTo; rwa [heq']⟩
  | .sweep (.settled left), ⟨hleft, row, hrow, heq⟩ =>
    obtain ⟨row', hrow', heq'⟩ := hscope row hrow
    exact ⟨hleft, row', hrow', heq.trans heq'.symm⟩
  | .sweep .claimed, _ | .sweep .unowned, _ | .sweep .present, _ => trivial

/-- A source row is of bytes that passed the checks, under the scope of the upload. -/
def World.Records (C : Checks) (w : World) (r : GeometrySource) : Prop :=
  (∃ data c, Checked.Of C c data ∧
    r = ⟨r.scope, r.originalFilename, c.suffix, c.digest, c.counted⟩) ∧
  ∃ row ∈ w.intent, row.VisibleTo r.scope

namespace World

/-- The call answered that the upload is finished. -/
def Finished (w : World) (s : CallId) : Prop :=
  ∃ f, w.calls s = some (.finish f) ∧ f.stage = .answered .finished

def Pending (w : World) : Prop := ∃ row ∈ w.intent, row.state = .pending

structure Sound (C : Checks) (w : World) : Prop where
  stored : w.object.isSome ∨ w.sends ≠ 0 ∨ w.source.isSome → w.linkUntil.isSome
  linked : w.linkUntil.isSome ∨ w.signing → w.intent.isSome
  signing : w.signing → w.linkUntil = none
  adopted : w.source.isSome ↔ ∃ row ∈ w.intent, row.state = .resolvedAdopted
  locked : ∀ s, w.lock = some s ↔ ∃ c ∈ w.calls s, c.holds
  pending : w.lock.isSome → w.Pending
  calls : ∀ s, ∀ c ∈ w.calls s, w.Finished s ∨ c.Sound C w
  recorded : ∀ r ∈ w.source, w.Records C r
  finished : ∀ s, ∀ f, w.calls s = some (.finish f) → f.stage = .answered .finished →
    ∃ c, w.source = some (f.source c)
  once : ∀ s t, w.Finished s → w.Finished t → s = t

lemma sound_start : start.Sound C := by
  constructor <;> simp [start, Finished]

/-- A pending upload has no source. -/
lemma Sound.source_none (h : w.Sound C) (hp : w.Pending) : w.source = none := by
  rw [← Option.not_isSome_iff_eq_none, h.adopted]
  obtain ⟨row, hrow, hstate⟩ := hp
  rintro ⟨row', hrow', hstate'⟩
  cases Option.mem_unique hrow hrow'
  rw [hstate] at hstate'
  cases hstate'

lemma Sound.holder (h : w.Sound C) {c : Call} (hc : w.calls s = some c) (hold : c.holds = true) :
    w.lock = some s ∧ w.Pending := by
  have hl : w.lock = some s := (h.locked s).mpr ⟨c, hc, hold⟩
  exact ⟨hl, h.pending (by rw [hl]; rfl)⟩

/-- One call moves on, with the lock or without it. -/
lemma Sound.move (h : w.Sound C) {c : Option Call} {l : Option CallId}
    (hself : l = some s ↔ ∃ c' ∈ c, c'.holds) (hother : ∀ t, t ≠ s → (l = some t ↔ w.lock = some t))
    (hpending : l.isSome → w.Pending) (hc : ∀ c' ∈ c, c'.Sound C w) :
    Sound C { w.setCall s c with lock := l } := by
  have hfinished : ∀ t f, (w.setCall s c).calls t = some (.finish f) →
      f.stage = .answered .finished → w.calls t = some (.finish f) := by
    intro t f hf hstage
    by_cases ht : t = s
    · subst ht
      have hf' : c = some (.finish f) := by simpa [setCall] using hf
      exact absurd (congrArg Stage.outcome hstage) (hc _ hf').2.2.2
    · simpa [setCall, ht] using hf
  refine ⟨h.stored, h.linked, h.signing, h.adopted, ?locked, hpending, ?calls, h.recorded,
    ?finished, ?once⟩
  case locked =>
    intro t
    by_cases ht : t = s
    · subst ht
      simpa [setCall] using hself
    · simpa [setCall, ht, hother t ht] using h.locked t
  case calls =>
    intro t c' hc'
    by_cases ht : t = s
    · subst ht
      exact .inr (hc c' (by simpa [setCall] using hc'))
    · obtain ⟨f, hf, hstage⟩ | hsound := h.calls t c' (by simpa [setCall, ht] using hc')
      · exact .inl ⟨f, by simpa [setCall, ht] using hf, hstage⟩
      · exact .inr hsound
  case finished => exact fun t f hf hstage => h.finished t f (hfinished t f hf hstage) hstage
  case once =>
    rintro t u ⟨f, hf, hstage⟩ ⟨g, hg, hstage'⟩
    exact h.once t u ⟨f, hfinished t f hf hstage, hstage⟩ ⟨g, hfinished u g hg hstage', hstage'⟩

/-- A call that has no lock moves on without it. -/
lemma Sound.setCall (h : w.Sound C) {c : Option Call} (hbefore : ∀ c' ∈ w.calls s, c'.holds = false)
    (hafter : ∀ c' ∈ c, c'.holds = false ∧ c'.Sound C w) : (w.setCall s c).Sound C := by
  refine h.move ?_ (fun _ _ => Iff.rfl) h.pending fun c' hc' => (hafter c' hc').2
  rw [h.locked s]
  constructor
  · rintro ⟨c', hc', hold⟩
    rw [hbefore c' hc'] at hold
    cases hold
  · rintro ⟨c', hc', hold⟩
    rw [(hafter c' hc').1] at hold
    cases hold

lemma Sound.acquire (h : w.Sound C) {c : Call} (hlock : w.lock = none) (hp : w.Pending)
    (hold : c.holds = true) (hc : c.Sound C w) : (w.acquire s c).Sound C := by
  refine h.move ?_ (fun t ht => ?_) (fun _ => hp) fun c' hc' => ?_
  · simpa using hold
  · simp [hlock, ht.symm]
  · obtain rfl := Option.some.inj hc'
    exact hc

/-- The holder goes on in its transaction. -/
lemma Sound.hold (h : w.Sound C) {c c' : Call} (hc : w.calls s = some c) (hold : c.holds = true)
    (hold' : c'.holds = true) (hsound : c'.Sound C w) : (w.setCall s (some c')).Sound C := by
  obtain ⟨hl, hp⟩ := h.holder hc hold
  refine h.move ?_ (fun _ _ => Iff.rfl) (fun _ => hp) fun d hd => ?_
  · simpa [hl] using hold'
  · obtain rfl := Option.some.inj hd
    exact hsound

/-- The holder ends its transaction. -/
lemma Sound.release (h : w.Sound C) {c : Call} (hc : w.calls s = some c) (hold : c.holds = true)
    {c' : Option Call} (hafter : ∀ d ∈ c', d.holds = false ∧ d.Sound C w) :
    (w.release s c').Sound C := by
  obtain ⟨hl, -⟩ := h.holder hc hold
  refine h.move ?_ (fun t ht => ?_) (fun hsome => by cases hsome) fun d hd => (hafter d hd).2
  · simp only [reduceCtorEq, false_iff]
    rintro ⟨d, hd, hholds⟩
    rw [(hafter d hd).1] at hholds
    cases hholds
  · simp [hl, ht.symm]

lemma Sound.delete (h : w.Sound C) : Sound C { w with object := none } :=
  { h with stored := fun hs => h.stored (hs.imp_left (by simp)) }

/-- The intent of an upload that no transaction is at is settled, but not as adopted. -/
lemma Sound.settle (h : w.Sound C) {row row' : SourceObjectCleanup} (hlock : w.lock = none)
    (hsource : w.source = none) (hrow : w.intent = some row) (hscope : row'.scope = row.scope)
    (hstate : row'.state ≠ .resolvedAdopted) : Sound C { w with intent := some row' } where
  stored := h.stored
  linked _ := rfl
  signing := h.signing
  adopted := by simp [hsource, hstate]
  locked := h.locked
  pending := by simp [hlock]
  calls t c' hc' := (h.calls t c' hc').imp id fun hsound => hsound.mono id fun i hi => by
    obtain rfl : row = i := Option.some.inj (hrow.symm.trans hi)
    exact ⟨row', rfl, hscope⟩
  recorded := by simp [hsource]
  finished := h.finished
  once := h.once

/-! ## A finish -/

lemma holds_at (f : Finish) (stage : Stage) : (f.at_ stage).holds =
    match stage with
    | .adopting _ | .discarding _ | .discarded _ => true
    | _ => false := by
  cases stage <;> rfl

lemma sound_answered (f : Finish) {answer : Answer} (h : answer ≠ .finished) :
    (f.at_ (.answered answer)).holds = false ∧ (f.at_ (.answered answer)).Sound C w :=
  ⟨rfl, trivial, by simp [Stage.sawBytes], by simp,
    by simpa [Stage.outcome]⟩

lemma settledAnswer_ne (state : Option ReconciliationState) : settledAnswer state ≠ .finished := by
  unfold settledAnswer
  split <;> decide

lemma sound_look : (f.at_ (f.look w reply)).holds = false ∧
    (f.at_ (f.look w reply)).Sound C w := by
  unfold Finish.look
  split
  · split
    · exact ⟨rfl, trivial, by simp [Stage.sawBytes], by simp,
        by simp [Stage.outcome]⟩
    · exact sound_answered f (settledAnswer_ne _)
  · exact sound_answered f (by decide)

lemma sound_refusing (f : Finish) {why : Answer} (h : why ≠ .finished) :
    (f.at_ (.refusing why)).holds = false ∧ (f.at_ (.refusing why)).Sound C w :=
  ⟨rfl, trivial, by simp [Stage.sawBytes], by simp,
    by simpa [Stage.outcome]⟩

lemma sound_stat (h : w.Sound C) (f : Finish) : (f.at_ (Finish.stat C w reply)).holds = false ∧
    (f.at_ (Finish.stat C w reply)).Sound C w := by
  unfold Finish.stat
  split
  · split
    · exact sound_answered f (by decide)
    · next data hdata =>
      split
      · exact sound_refusing f (by decide)
      · split
        · exact sound_refusing f (by decide)
        · have hlink : w.linkUntil.isSome := h.stored (.inl (by rw [hdata]; rfl))
          refine ⟨rfl, ?_, fun _ => hlink, by simp, by simp [Stage.outcome]⟩
          exact ⟨by omega, by omega⟩
  · exact sound_answered f (by decide)

lemma sound_check {size : ℕ} (hsize : 0 < size ∧ size ≤ C.maxFileBytes)
    (hlink : w.linkUntil.isSome) : (f.at_ (f.check C w size reply)).holds = false ∧
    (f.at_ (f.check C w size reply)).Sound C w := by
  unfold Finish.check
  split
  · split
    · exact sound_answered f (by decide)
    · next data hdata =>
      split
      · exact sound_refusing f (by decide)
      · next suffix hsuffix =>
        split
        · next hcounted =>
          refine ⟨rfl, ⟨data, ⟨f.suffix, hsuffix⟩, rfl, rfl, ?_, ?_⟩, fun _ => hlink,
            by simp, by simp [Stage.outcome]⟩
          · exact hcounted ▸ hsize.1
          · exact hcounted ▸ hsize.2
        · exact sound_refusing f (by decide)
  · exact sound_answered f (by decide)

/-- The intent is this caller's, and pending. -/
lemma visible_of_intentState {scope : Scope} (h : w.intentState scope = some .pending) :
    ∃ row ∈ w.intent, row.state = .pending ∧ row.VisibleTo scope := by
  obtain ⟨row, hrow, hstate⟩ := Option.map_eq_some_iff.mp h
  obtain ⟨hrow, hvis⟩ := Option.filter_eq_some_iff.mp hrow
  exact ⟨row, hrow, hstate, by simpa using hvis⟩

lemma Sound.of_call (h : w.Sound C) (hc : w.calls s = some (.finish f))
    (hopen : f.stage ≠ .answered .finished) : Call.Sound C w (.finish f) := by
  refine (h.calls s _ hc).resolve_left ?_
  rintro ⟨g, hg, hanswered⟩
  obtain rfl : f = g := by simpa [hc] using hg
  exact hopen hanswered

/-- A finish that has no lock moves on without it. -/
lemma Sound.setStage (h : w.Sound C) (hc : w.calls s = some (.finish f))
    (hfree : (Call.finish f).holds = false) {stage : Stage}
    (hafter : (f.at_ stage).holds = false ∧ (f.at_ stage).Sound C w) :
    (w.setCall s (some (f.at_ stage))).Sound C := by
  refine h.setCall (fun d hd => ?_) fun d hd => ?_
  · obtain rfl : Call.finish f = d := Option.some.inj (hc.symm.trans hd)
    exact hfree
  · obtain rfl := Option.some.inj hd
    exact hafter

lemma Sound.answer (h : w.Sound C) {c : Call} (hc : w.calls s = some c) (hold : c.holds = true)
    (f : Finish) {answer : Answer} (hanswer : answer ≠ .finished) :
    (w.release s (f.at_ (.answered answer))).Sound C := by
  refine h.release hc hold fun d hd => ?_
  obtain rfl := Option.some.inj hd
  exact sound_answered f hanswer

lemma Sound.lockToAdopt (h : w.Sound C) (hc : w.calls s = some (.finish f))
    (hstage : f.stage = .checked c) (hgo : f.lockToAdopt w s c reply = some w') : w'.Sound C := by
  obtain ⟨scope, filename, suffix, stage⟩ := f
  obtain rfl : stage = .checked c := hstage
  obtain ⟨hlearned, hsaw, -, -⟩ := h.of_call hc (by simp)
  unfold Finish.lockToAdopt at hgo
  split at hgo
  · split at hgo
    · cases hgo
    · next hlock =>
      split at hgo
      · next hpending =>
        obtain ⟨row, hrow, hstate, hvisible⟩ := visible_of_intentState hpending
        cases hgo
        refine h.acquire (by simpa using hlock) ⟨row, hrow, hstate⟩ rfl ?_
        exact ⟨hlearned, fun _ => hsaw rfl, fun _ _ => ⟨row, hrow, hvisible⟩,
          by simp [Stage.outcome]⟩
      · cases hgo
        exact h.setStage hc rfl (sound_answered _ (settledAnswer_ne _))
  · cases hgo
    exact h.setStage hc rfl (sound_answered _ (by decide))

lemma Sound.lockToDiscard (h : w.Sound C) (hc : w.calls s = some (.finish f))
    (hstage : f.stage = .refusing why) (hgo : f.lockToDiscard w s why reply = some w') :
    w'.Sound C := by
  obtain ⟨scope, filename, suffix, stage⟩ := f
  obtain rfl : stage = .refusing why := hstage
  have hwhy : why ≠ .finished := fun heq =>
    (h.of_call hc (by simp)).2.2.2 (congrArg some heq)
  unfold Finish.lockToDiscard at hgo
  split at hgo
  · split at hgo
    · cases hgo
    · next hlock =>
      split at hgo
      · next hpending =>
        obtain ⟨row, hrow, hstate, -⟩ := visible_of_intentState hpending
        cases hgo
        refine h.acquire (by simpa using hlock) ⟨row, hrow, hstate⟩ rfl ?_
        exact ⟨trivial, by simp [Stage.sawBytes], by simp, by simpa [Stage.outcome]⟩
      · cases hgo
        exact h.setStage hc rfl (sound_answered _ hwhy)
  · cases hgo
    exact h.setStage hc rfl (sound_answered _ hwhy)

lemma Sound.discard (h : w.Sound C) (hc : w.calls s = some (.finish f))
    (hstage : f.stage = .discarding why) : (f.discard w s why reply).Sound C := by
  obtain ⟨scope, filename, suffix, stage⟩ := f
  obtain rfl : stage = .discarding why := hstage
  have hwhy : why ≠ .finished := fun heq =>
    (h.of_call hc (by simp)).2.2.2 (congrArg some heq)
  unfold Finish.discard
  split
  · refine (h.hold hc rfl rfl ?_).delete
    exact ⟨trivial, by simp [Stage.sawBytes], by simp, by simpa [Stage.outcome]⟩
  · exact h.answer hc rfl _ hwhy
  · exact (h.answer hc rfl _ hwhy).delete

/-- The intent settled by the call that held it. -/
lemma Sound.settle_held (h : w.Sound C) {c : Call} (hc : w.calls s = some c)
    (hold : c.holds = true) {c' : Option Call} (hafter : ∀ d ∈ c', d.holds = false ∧ d.Sound C w)
    {row row' : SourceObjectCleanup} (hrow : w.intent = some row) (hscope : row'.scope = row.scope)
    (hstate : row'.state ≠ .resolvedAdopted) :
    Sound C { w.release s c' with intent := some row' } :=
  (h.release hc hold hafter).settle rfl (h.source_none (h.holder hc hold).2) hrow hscope hstate

lemma Sound.close (h : w.Sound C) (hc : w.calls s = some (.finish f))
    (hstage : f.stage = .discarded why) : (f.close w s why reply).Sound C := by
  obtain ⟨scope, filename, suffix, stage⟩ := f
  obtain rfl : stage = .discarded why := hstage
  have hwhy : why ≠ .finished := fun heq =>
    (h.of_call hc (by simp)).2.2.2 (congrArg some heq)
  obtain ⟨row, hrow, -⟩ := (h.holder hc rfl).2
  unfold Finish.close
  dsimp only
  split
  · rw [Option.mem_def.mp hrow, Option.map_some]
    refine h.settle_held hc rfl (fun d hd => ?_) hrow rfl (by simp [SourceObjectCleanup.resolve])
    obtain rfl := Option.some.inj hd
    exact sound_answered _ hwhy
  · exact h.answer hc rfl _ hwhy

/-- The source row and the close of its intent are one commit. -/
lemma Sound.record (h : w.Sound C) (hc : w.calls s = some (.finish f))
    (hstage : f.stage = .adopting c) (answer : Answer) :
    Sound C { w.release s (f.at_ (.answered answer)) with
      source := some (f.source c), intent := w.intent.map (·.resolve .resolvedAdopted) } := by
  obtain ⟨scope, filename, suffix, stage⟩ := f
  obtain rfl : stage = .adopting c := hstage
  obtain ⟨hlock, hpending⟩ := h.holder hc rfl
  have hnone := h.source_none hpending
  obtain ⟨hlearned, hsaw, hvisible, -⟩ := h.of_call hc (by simp)
  obtain ⟨data, hdata⟩ := hlearned
  obtain ⟨row, hrow, hvis⟩ := hvisible c rfl
  rw [Option.mem_def] at hrow
  have hfree : ∀ t, t ≠ s → ∀ d ∈ w.calls t, d.holds = false := by
    intro t ht d hd
    by_contra hold
    have hl := (h.locked t).mpr ⟨d, hd, by simpa using hold⟩
    rw [hlock, Option.some.injEq] at hl
    exact ht hl.symm
  have hunfinished : ∀ t, ¬ w.Finished t := by
    rintro t ⟨g, hg, hanswered⟩
    obtain ⟨c', hsome⟩ := h.finished t g hg hanswered
    rw [hnone] at hsome
    cases hsome
  refine ⟨fun _ => hsaw rfl, fun _ => by simp [hrow], h.signing, ?adopted, ?locked,
    by simp [World.release],
    ?calls, ?recorded, ?finished, ?once⟩
  case adopted => simp [hrow, SourceObjectCleanup.resolve]
  case locked =>
    intro t
    simp only [World.release, World.setCall, reduceCtorEq, false_iff]
    rintro ⟨d, hd, hold⟩
    by_cases ht : t = s
    · subst ht
      rw [Function.update_self] at hd
      obtain rfl := Option.some.inj hd
      cases hold
    · rw [Function.update_of_ne ht] at hd
      rw [hfree t ht d hd] at hold
      cases hold
  case calls =>
    intro t d hd
    by_cases ht : t = s
    · subst ht
      obtain rfl : Finish.at_ _ _ = d := by simpa [World.release, World.setCall] using hd
      by_cases hanswer : answer = .finished
      · subst hanswer
        exact .inl ⟨_, by simp only [World.release, World.setCall, Function.update_self]; rfl, rfl⟩
      · exact .inr (sound_answered _ hanswer).2
    · have hd' : d ∈ w.calls t := by simpa [World.release, World.setCall, ht] using hd
      refine .inr (((h.calls t d hd').resolve_left (hunfinished t)).mono id fun i hi => ?_)
      obtain rfl : row = i := Option.some.inj (hrow.symm.trans hi)
      exact ⟨row.resolve .resolvedAdopted, by simp [hrow], rfl⟩
  case recorded =>
    intro r hr
    obtain rfl := Option.some.inj hr
    exact ⟨⟨data, c, hdata, rfl⟩, row.resolve .resolvedAdopted, by simp [hrow], hvis⟩
  case finished =>
    intro t g hg hanswered
    by_cases ht : t = s
    · subst ht
      obtain rfl : _ = g := by simpa [World.release, World.setCall, Finish.at_] using hg
      exact ⟨c, rfl⟩
    · have hg' : w.calls t = some (.finish g) := by
        simpa [World.release, World.setCall, ht] using hg
      exact absurd ⟨g, hg', hanswered⟩ (hunfinished t)
  case once =>
    have hself : ∀ {t d}, Finished (w.release s d) t → t = s := by
      rintro t d ⟨g, hg, hstage⟩
      by_contra ht
      exact hunfinished t ⟨g, by simpa [World.release, World.setCall, ht] using hg, hstage⟩
    exact fun t u ht hu => (hself ht).trans (hself hu).symm

lemma Sound.finish_go (h : w.Sound C) (hc : w.calls s = some (.finish f))
    (hgo : f.go C w s reply = some w') : w'.Sound C := by
  obtain ⟨scope, filename, suffix, stage⟩ := f
  cases stage with
  | begun =>
    cases hgo
    exact h.setStage hc rfl sound_look
  | opened =>
    cases hgo
    exact h.setStage hc rfl (sound_stat h _)
  | sized size =>
    cases hgo
    obtain ⟨hsize, hsaw, -⟩ := h.of_call hc (by simp)
    exact h.setStage hc rfl (sound_check hsize (hsaw rfl))
  | checked c => exact h.lockToAdopt hc rfl hgo
  | adopting c =>
    cases hgo
    unfold Finish.adopt
    dsimp only
    split
    · split
      · split
        · exact h.record hc rfl _
        · next hfailed =>
          refine h.answer hc rfl _ ?_
          split
          · next hdone =>
            rw [hdone] at hfailed
            cases hfailed rfl
          · decide
      · exact h.answer hc rfl _ (by decide)
    · exact h.answer hc rfl _ (by decide)
  | refusing why => exact h.lockToDiscard hc rfl hgo
  | discarding why =>
    cases hgo
    exact h.discard hc rfl
  | discarded why =>
    cases hgo
    exact h.close hc rfl
  | answered answer => cases hgo

/-! ## A sweep -/

lemma recordFailure_state {row : SourceObjectCleanup} (h : row.state = .pending) :
    row.recordFailure.state ≠ .resolvedAdopted := by
  unfold SourceObjectCleanup.recordFailure
  dsimp only
  split
  · decide
  · rw [h]
    decide

lemma Sound.sweep_go (h : w.Sound C) {turn : Sweep} (hc : w.calls s = some (.sweep turn))
    {row : SourceObjectCleanup} (hrow : w.intent = some row) : (turn.go w s row reply).Sound C := by
  obtain ⟨-, hpending⟩ := h.holder hc rfl
  have hstate : row.state = .pending := by
    obtain ⟨i, hi, hstate⟩ := hpending
    obtain rfl : row = i := Option.some.inj (hrow.symm.trans hi)
    exact hstate
  have hfailed : (Call.sweep (.settled row.recordFailure)).Sound C w :=
    ⟨recordFailure_state hstate, row, hrow, rfl⟩
  have hgone : (Call.sweep (.settled (row.resolve .resolvedDeleted))).Sound C w :=
    ⟨by simp [SourceObjectCleanup.resolve], row, hrow, rfl⟩
  cases turn with
  | claimed =>
    refine h.hold hc rfl rfl ?_
    rw [h.source_none hpending]
    trivial
  | unowned =>
    refine h.hold hc rfl rfl ?_
    split
    · split
      · trivial
      · exact hgone
    · exact hfailed
  | present =>
    have hleft : (Call.sweep (.settled (if reply.delete = .done then row.resolve .resolvedDeleted
        else row.recordFailure))).Sound C w := by
      split
      · exact hgone
      · exact hfailed
    unfold Sweep.go Sweep.reclaim
    dsimp only
    split
    · exact (h.hold hc rfl rfl hleft).delete
    · exact h.hold hc rfl rfl hleft
  | settled left =>
    obtain ⟨hleft, i, hi, hscope⟩ := (h.calls s _ hc).resolve_left fun ⟨f, hf, _⟩ => by
      rw [hc] at hf
      cases hf
    unfold Sweep.go
    dsimp only
    split
    · exact h.settle_held hc rfl (by simp) hi hscope hleft
    · exact h.release hc rfl (by simp)

/-! ## Every step -/

lemma Sound.sign (h : w.Sound C) {signed : Bool} (hgo : w.sign signed reply = some w') :
    w'.Sound C := by
  unfold World.sign at hgo
  split at hgo
  case isFalse => cases hgo
  next hsigning =>
  have hlink := h.signing hsigning
  have hunsigned : Sound C { w with signing := false } :=
    { h with
      signing := fun hs => absurd hs (by simp)
      linked := fun hl => h.linked (hl.imp_right (by simp)) }
  split at hgo
  · cases hgo
    refine { hunsigned with
      stored := fun _ => rfl
      linked := fun _ => h.linked (.inr hsigning)
      signing := fun hs => by cases hs
      calls := fun t d hd => (h.calls t d hd).imp id fun hsound => hsound.mono (fun _ => rfl)
        fun row hrow => ⟨row, hrow, rfl⟩ }
  · split at hgo
    · split at hgo
      · cases hgo
      · next hlock =>
        cases hgo
        have hsource : w.source = none := by
          rw [← Option.not_isSome_iff_eq_none]
          intro hsome
          have hl := h.stored (.inr (.inr hsome))
          rw [hlink] at hl
          cases hl
        obtain ⟨row, hrow⟩ := Option.isSome_iff_exists.mp (h.linked (.inr hsigning))
        rw [hrow, Option.map_some]
        exact hunsigned.settle (by simpa using hlock) hsource hrow rfl
          (by simp [SourceObjectCleanup.resolve])
    · cases hgo
      exact hunsigned

/-- A call is done with before its lock is given up. -/
lemma Sound.cut (h : w.Sound C) {d : Call} (hd : w.calls s = some d) :
    (if d.holds then w.release s none else w.setCall s none).Sound C := by
  split
  · next hold => exact h.release hd hold (by simp)
  · next hfree =>
    refine h.setCall (fun c' hc' => ?_) (by simp)
    obtain rfl : d = c' := Option.some.inj (hd.symm.trans hc')
    simpa using hfree

lemma sound_step (h : w.Sound C) (op : Op) (hstep : w.step C op = some w') : w'.Sound C := by
  cases op with
  | tick seconds =>
    cases hstep
    exact { h with }
  | begin scope =>
    dsimp only [step] at hstep
    split at hstep
    · cases hstep
    · next hnone =>
      cases hstep
      have hlink : ¬ w.linkUntil.isSome := fun hl => hnone (h.linked (.inl hl))
      have hsource : ¬ w.source.isSome := fun hs => hlink (h.stored (.inr (.inr hs)))
      have hlock : ¬ w.lock.isSome := fun hl => by
        obtain ⟨row, hrow, -⟩ := h.pending hl
        exact hnone (Option.isSome_of_mem hrow)
      refine { h with
        linked := fun _ => rfl
        signing := fun _ => by simpa using hlink
        adopted := ?_
        pending := fun hl => absurd hl hlock
        calls := fun t d hd => (h.calls t d hd).imp id fun hsound => hsound.mono id fun row hrow =>
          absurd (Option.isSome_of_mem hrow) hnone
        recorded := fun r hr => absurd (Option.isSome_of_mem hr) hsource }
      simp [SourceObjectCleanup.recordIntent, hsource]
  | sign signed reply => exact h.sign hstep
  | send =>
    dsimp only [step] at hstep
    split at hstep
    · next hopen =>
      cases hstep
      obtain ⟨t, ht, -⟩ := hopen
      exact { h with stored := fun _ => Option.isSome_of_mem ht }
    · cases hstep
  | land data =>
    dsimp only [step] at hstep
    split at hstep
    · cases hstep
    · next hsends =>
      cases hstep
      exact { h with stored := fun _ => h.stored (.inr (.inl hsends)) }
  | finish s scope filename =>
    dsimp only [step] at hstep
    split at hstep
    · cases hstep
    · next hnone =>
      cases hstep
      refine h.setCall (fun d hd => absurd (Option.isSome_of_mem hd) hnone) fun d hd => ?_
      obtain rfl := Option.some.inj hd
      split
      · exact sound_answered ⟨scope, filename, "", .begun⟩ (by decide)
      · exact ⟨rfl, trivial, by simp [Stage.sawBytes], by simp, by simp [Stage.outcome]⟩
  | claim s =>
    dsimp only [step] at hstep
    split at hstep
    · next hdue =>
      cases hstep
      obtain ⟨-, hlock, row, hrow, hpending, -⟩ := hdue
      exact h.acquire (by simpa using hlock) ⟨row, hrow, hpending⟩ rfl trivial
    · cases hstep
  | go s reply =>
    dsimp only [step] at hstep
    split at hstep
    · next f hc => exact h.finish_go hc hstep
    · next turn hc =>
      obtain ⟨row, hrow, rfl⟩ := Option.map_eq_some_iff.mp hstep
      exact h.sweep_go hc hrow
    · cases hstep
  | cut s =>
    dsimp only [step] at hstep
    split at hstep
    · next d hd =>
      cases hstep
      exact h.cut hd
    · cases hstep

lemma sound_of_run {ops : List Op} (h : (machine C).exec start ops = some w) : w.Sound C :=
  Transition.Machine.exec_invariant_of_step (fun _ op _ hs => sound_step hs op) sound_start h

/-- A finish writes nothing before it has the lock. -/
lemma go_free (hfree : (Call.finish f).holds = false) (hgo : f.go C w s reply = some w') :
    w'.source = w.source ∧ w'.intent = w.intent ∧ w'.object = w.object := by
  obtain ⟨scope, filename, suffix, stage⟩ := f
  cases stage with
  | begun | opened | sized =>
    cases hgo
    exact ⟨rfl, rfl, rfl⟩
  | checked c =>
    unfold Finish.go Finish.lockToAdopt at hgo
    dsimp only at hgo
    split_ifs at hgo <;> cases hgo <;> exact ⟨rfl, rfl, rfl⟩
  | refusing why =>
    unfold Finish.go Finish.lockToDiscard at hgo
    dsimp only at hgo
    split_ifs at hgo <;> cases hgo <;> exact ⟨rfl, rfl, rfl⟩
  | adopting | discarding | discarded => cases hfree
  | answered => cases hgo

/-- What follows an adoption leaves the source, the intent and the object there. -/
lemma Sound.kept (h : w.Sound C) {r : GeometrySource} (hr : w.source = some r) {op : Op}
    (hstep : w.step C op = some w') :
    w'.source = some r ∧ w'.intent = w.intent ∧ (w.object.isSome → w'.object.isSome) := by
  have hunlocked : w.lock = none := by
    rw [← Option.not_isSome_iff_eq_none]
    intro hl
    rw [h.source_none (h.pending hl)] at hr
    cases hr
  have hfree : ∀ s, ∀ d, w.calls s = some d → d.holds = false := by
    intro s d hd
    by_contra hold
    have hl := (h.holder hd (by simpa using hold)).1
    rw [hunlocked] at hl
    cases hl
  have hlink : w.linkUntil.isSome := h.stored (.inr (.inr (by rw [hr]; rfl)))
  cases op with
  | tick seconds =>
    cases hstep
    exact ⟨hr, rfl, id⟩
  | begin scope =>
    dsimp only [step] at hstep
    rw [if_pos (h.linked (.inl hlink))] at hstep
    cases hstep
  | sign signed reply =>
    have hsigned : w.signing = false := by
      by_contra hs
      rw [h.signing (by simpa using hs)] at hlink
      cases hlink
    dsimp only [step, World.sign] at hstep
    rw [hsigned] at hstep
    cases hstep
  | send =>
    dsimp only [step] at hstep
    split at hstep <;> cases hstep
    exact ⟨hr, rfl, id⟩
  | land data =>
    dsimp only [step] at hstep
    split at hstep <;> cases hstep
    refine ⟨hr, rfl, fun hsome => ?_⟩
    simp [hsome]
  | finish s scope filename | claim s =>
    dsimp only [step] at hstep
    split at hstep <;> cases hstep
    exact ⟨hr, rfl, id⟩
  | go s reply =>
    dsimp only [step] at hstep
    split at hstep
    · next f hc =>
      obtain ⟨hsource, hintent, hobject⟩ := go_free (hfree s _ hc) hstep
      exact ⟨hsource.trans hr, hintent, by rw [hobject]; exact id⟩
    · next turn hc => cases hfree s _ hc
    · cases hstep
  | cut s =>
    dsimp only [step] at hstep
    split at hstep
    · cases hstep
      split <;> exact ⟨hr, rfl, id⟩
    · cases hstep

theorem adopted_once {ops : List Op} (h : (machine C).exec start ops = some w) :
    (w.source.isSome ↔ ∃ row ∈ w.intent, row.state = .resolvedAdopted) ∧
      (∀ r ∈ w.source, w.Records C r) ∧
      (∀ s, ∀ f, w.calls s = some (.finish f) → f.stage = .answered .finished →
        ∃ c, w.source = some (f.source c)) ∧
      (∀ s t, w.Finished s → w.Finished t → s = t) ∧
      ∀ later w', (machine C).exec w later = some w' → w.source.isSome →
        w'.source = w.source ∧ w'.intent = w.intent ∧ (w.object.isSome → w'.object.isSome) := by
  have hsound := sound_of_run h
  refine ⟨hsound.adopted, hsound.recorded, hsound.finished, hsound.once, ?_⟩
  intro later w' hlater hsome
  obtain ⟨r, hr⟩ := Option.isSome_iff_exists.mp hsome
  let Kept (w₁ : World) : Prop := w₁.Sound C ∧ w₁.source = some r ∧ w₁.intent = w.intent ∧
    (w.object.isSome → w₁.object.isSome)
  have hstep : ∀ w₁ op w₂, Kept w₁ → (machine C).step w₁ op = some w₂ → Kept w₂ := by
    rintro w₁ op w₂ ⟨hs, hsource, hintent, hobject⟩ hop
    obtain ⟨hsource', hintent', hobject'⟩ := hs.kept hsource hop
    exact ⟨sound_step hs op hop, hsource', hintent'.trans hintent, hobject' ∘ hobject⟩
  obtain ⟨-, hsource, hintent, hobject⟩ :=
    Transition.Machine.exec_invariant_of_step hstep ⟨hsound, hr, rfl, id⟩ hlater
  exact ⟨hsource.trans hr.symm, hintent, hobject⟩

/-- A file that begins as STEP does is STEP. -/
def stepChecks : Checks where
  checkedName name := if name = "part.step" then some ("part.step", ".step") else none
  checkedUpload data named :=
    if [73, 83, 79, 45, 49, 48, 51, 48, 51, 45, 50, 49, 59].isPrefixOf data then some named else none
  sha256Of _ := "f173fe44447b57a79ca85a732c31c5fb5fca41fcef440054a099df01e02a037b"
  maxFileBytes := 500 * 1024 * 1024

/-- An upload is begun, and its bytes are on their way. -/
def begunRun : List Op := [.begin ⟨"ada", none⟩, .sign true .allDone, .send]

/-- They arrive. -/
def sentRun : List Op :=
  begunRun ++ [.land (some [73, 83, 79, 45, 49, 48, 51, 48, 51, 45, 50, 49, 59])]

/-- It is finished. -/
def finishRun : List Op :=
  .finish 0 ⟨"ada", none⟩ "part.step" :: List.replicate 5 (.go 0 .allDone)

/-- A second finish was at its checks by then. -/
def twoFinishes : List Op :=
  sentRun ++ .finish 1 ⟨"ada", none⟩ "part.step" :: List.replicate 3 (.go 1 .allDone) ++ finishRun ++
    [.go 1 .allDone]

/-- Where a run leads. -/
def reached (ops : List Op) : World := ((machine stepChecks).exec start ops).getD start

theorem adopted_once_of_two :
    (reached twoFinishes).Finished 0 ∧ ∀ s, (reached twoFinishes).Finished s → s = 0 := by
  have hrun : (machine stepChecks).exec start twoFinishes = some (reached twoFinishes) := rfl
  have hcall : (reached twoFinishes).calls 0 =
      some (.finish ⟨⟨"ada", none⟩, "part.step", ".step", .answered .finished⟩) := rfl
  have hfinished : (reached twoFinishes).Finished 0 := ⟨_, hcall, rfl⟩
  exact ⟨hfinished, fun s hs => (adopted_once hrun).2.2.2.1 s 0 hs hfinished⟩

end World

end MeshPipeline.DirectUpload
