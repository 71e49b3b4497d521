import MeshPipeline.Library.Machine
import MeshPipeline.RepairReview.Decide
import MeshPipeline.RepairReview.Dispatched
import MeshPipeline.RepairReview.Repository

/-!
# One park and the requests on it

An answer reads the items in one step and is written in a later one, under the park's row lock; the
commit of a run, its dispatch, the compensation of a failed dispatch and a cancel are steps of their
own.
-/

namespace MeshPipeline.RepairReview

open RepairReviewRepository

/-- What `run_review` commits, of the park that it read. -/
structure Sent where
  before : ReviewPark
  directives : List Directive
  leaves : List ItemId
  unanswered : List ItemId
  deriving DecidableEq, Repr

/-- The answers of a park, as they are sent. -/
def sentOf (park : ReviewPark) : Sent where
  before := park
  directives := directivesOf park
  leaves := (park.items.filter fun i => i.state == .left).map ReviewItem.id
  unanswered := (park.items.filter fun i => i.state == .opened).map ReviewItem.id

structure World where
  job : JobStatus
  park : ReviewPark
  /-- What each request on the park has read. -/
  readings : List (List ReviewItem)
  /-- The answers that the engineer was told of. -/
  answers : Ledger ItemId Wish
  sent : Option Sent
  /-- The dispatch of what was sent is under way. -/
  launching : Bool

inductive Label
  | read
  | answer (request : Nat) (body : DecisionIn) (reply : Option ModelReply) (now : Nat)
  | run (now : Nat)
  | launched
  | compensate
  | cancel
  | worker (target : JobStatus)
  deriving DecidableEq, Repr

namespace World

variable (sampleSize : Nat)

/-- `run_review`, up to its commit. -/
def run (w : World) (now : Nat) : World :=
  let sent := sentOf w.park
  match recordEach .unreviewed now (sent.unanswered.map fun i => (i, .unreviewed)) w.park with
  | .error _ => w
  | .ok park =>
    { w with job := .pending, park := closePark park .run, sent := some sent, launching := true }

/-- `_compensate`. -/
def compensate (w : World) : World :=
  match w.sent with
  | none => { w with launching := false }
  | some sent =>
    if w.job = .pending then
      { w with
        job := .pendingReview
        park := restoreOpen (reopenPark w.park) sent.unanswered
        sent := none
        launching := false }
    else { w with launching := false }

/-- A cancel of the job, which closes the park that it waits on. -/
def cancel (w : World) : World :=
  { w with
    job := .cancelled
    park := if w.job = .pendingReview then closePark w.park .cancel else w.park }

def step (w : World) : Label → Option World
  | .read =>
    if w.job = .pendingReview ∧ w.park.closedBy = none then
      some { w with readings := w.readings ++ [w.park.items] }
    else none
  | .answer request body reply now =>
    w.readings[request]?.map fun reading =>
      match decide sampleSize reading body reply now w.park with
      | .error _ => w
      | .ok (told, park) => { w with park, answers := told.enter w.answers }
  | .run now =>
    if w.job = .pendingReview ∧ w.park.closedBy = none then some (w.run now) else none
  | .launched => if w.launching then some { w with launching := false } else none
  | .compensate => if w.launching then some w.compensate else none
  | .cancel => if w.job ∈ legalSources .cancelled then some w.cancel else none
  -- the worker of a job that was sent; a park of its own is another park
  | .worker target =>
    if w.job ∈ activeStates ∧ w.job ∈ legalSources target ∧ target ≠ .pendingReview then
      some { w with job := target }
    else none

/-- A job that has just parked. -/
def parked (park : ReviewPark) : World := ⟨.pendingReview, park, [], .empty, none, false⟩

def machine : Transition.Machine World Label := ⟨step sampleSize⟩

end World

end MeshPipeline.RepairReview

/-!
## No answer is lost

Answers that find what they read still so lose none of the others, whatever runs, dispatch failures
and cancels come between.
-/

namespace MeshPipeline.RepairReview

open RepairReviewRepository

namespace World

variable {sampleSize : Nat} {w w' : World} {l : Label}

/-- A row that the commit of a run closed. -/
def ClosedRow (now : Nat) (m m' : ReviewItem) : Prop :=
  (m.state = .opened ∧ m' = m.decided .unreviewed .unreviewed now) ∨ m.state ≠ .opened ∧ m' = m

/-- The park is the one that was sent, closed. -/
structure ClosedFrom (answers : Ledger ItemId Wish) (park : ReviewPark) (sent : Sent) : Prop where
  eq : sent = sentOf sent.before
  opened : sent.before.closedBy = none
  sound : Sound answers sent.before.items
  rows : ∃ now, List.Forall₂ (ClosedRow now) sent.before.items park.items
  closedBy : park.closedBy = some .run
  keptOperations : park.keptOperations = sent.before.keptOperations

structure Inv (w : World) : Prop where
  asked : Asked w.park.items
  sound : Sound w.answers w.park.items
  readings : ∀ r ∈ w.readings,
    r.map ReviewItem.reopened = w.park.items.map ReviewItem.reopened
  sent : ∀ s, w.sent = some s → ClosedFrom w.answers w.park s

/-- An answer finds the rows that it covers or releases as it read them. -/
def StillSo (sampleSize : Nat) (w : World) : Label → Prop
  | .answer request body reply _ => ∀ reading ∈ w.readings[request]?,
      ∀ p ∈ (plan sampleSize reading body reply).toOption, p.StillSo w.park.items
  | _ => True

instance (w : World) : (l : Label) → Decidable (w.StillSo sampleSize l)
  | .answer request body reply _ => inferInstanceAs (Decidable (∀ reading ∈ w.readings[request]?,
      ∀ p ∈ (plan sampleSize reading body reply).toOption, p.StillSo w.park.items))
  | .read | .run _ | .launched | .compensate | .cancel | .worker _ => isTrue trivial

/-- No answer is lost. -/
structure Kept (sampleSize : Nat) (w : World) : Prop where
  /-- Each row holds the last answer that was given on it, or that covers it. -/
  answers : ∀ i ∈ w.park.items, i.entry = w.answers i.id
  /-- What was sent has every answer. -/
  sent : ∀ s ∈ w.sent, ∀ i ∈ w.park.items,
    (w.answers.resolve i.id = some .leave → i.id ∈ s.leaves) ∧
    ∀ op, w.answers.resolve i.id = some (.fix op) → i.fingerprint ≠ "" →
      ∃ e ∈ s.directives, e.source = .engineer ∧ e.op = op ∧ i.fingerprint ∈ e.targets
  /-- No answer lands on a closed park. -/
  closed : w.park.closedBy ≠ none → ∀ request body reply now w',
    w.step sampleSize (.answer request body reply now) = some w' →
    w'.park = w.park ∧ w'.answers = w.answers
  /-- A compensated park is the one that was sent. -/
  compensated : ∀ s ∈ w.sent, w.job = .pending → ∀ w', w.step sampleSize .compensate = some w' →
    w'.job = .pendingReview ∧ w'.park = s.before ∧ w'.park.closedBy = none

lemma inv_parked {park : ReviewPark} (h : Minted park) : (parked park).Inv where
  asked := h.asked
  sound := .of_minted h
  readings := by simp [parked]
  sent := by simp [parked]

/-! ## What closes a park, and what opens it again -/

section Closing

variable {answers : Ledger ItemId Wish} {park : ReviewPark} {s : Sent} {now : Nat}
  {items items' : List ReviewItem}

lemma ClosedRow.reopened_eq {m m' : ReviewItem} (h : ClosedRow now m m') :
    m'.reopened = m.reopened := by
  rcases h with ⟨-, rfl⟩ | ⟨-, rfl⟩ <;> rfl

lemma entry_of_closed (h : Sound answers items) {m m' : ReviewItem} (hm : m ∈ items)
    (hrow : ClosedRow now m m') : m'.entry = m.entry := by
  rcases hrow with ⟨hopen, rfl⟩ | ⟨-, rfl⟩
  · rw [ReviewItem.entry, ReviewItem.entry, h.entry_of_opened hm hopen]
    rfl
  · rfl

/-- The commit of a run leaves no answer behind and gives none. -/
lemma sound_of_closed (h : Sound answers items)
    (hrows : List.Forall₂ (ClosedRow now) items items') : Sound answers items' := by
  have hids : items'.map ReviewItem.id = items.map ReviewItem.id :=
    rows_map_eq hrows ReviewItem.id fun hrow => (ReviewItem.reopened_eq_iff.mp hrow.reopened_eq).1
  refine ⟨hids ▸ h.ids, fun m' hm' => ?_, fun m' hm' => ?_, fun m' hm' d hd => ?_, fun m' hm' => ?_⟩
  · obtain ⟨m, hm, ⟨-, rfl⟩ | ⟨-, rfl⟩⟩ := row_of_mem hrows hm'
    · rfl
    · exact h.states m' hm
  · obtain ⟨m, hm, ⟨-, rfl⟩ | ⟨-, rfl⟩⟩ := row_of_mem hrows hm'
    · simp [ReviewItem.decided]
    · exact h.times m' hm
  · obtain ⟨m, hm, ⟨-, rfl⟩ | ⟨-, rfl⟩⟩ := row_of_mem hrows hm'
    · cases hd
      trivial
    have hwritten := h.written m' hm d hd
    cases d with
    | allAccept q =>
      obtain ⟨g, hg, hgroup, hproposal⟩ := hwritten
      obtain ⟨g', hg', hrow⟩ := row_mem hrows hg
      obtain ⟨-, hgroup', -, -, -, hproposal'⟩ := ReviewItem.reopened_eq_iff.mp hrow.reopened_eq
      exact ⟨g', hg', hgroup'.trans hgroup, hproposal'.trans hproposal⟩
    | covered j text playback =>
      obtain ⟨hfp, hpaired, i, hi, hid, hgroup, text', d', playback', hdecision, htarget⟩ :=
        hwritten
      obtain ⟨i', hi', ⟨hopen, -⟩ | ⟨-, rfl⟩⟩ := row_mem hrows hi
      · rw [h.entry_of_opened hi hopen] at hdecision
        cases hdecision
      · exact ⟨hfp, hpaired, i', hi', hid, hgroup, text', d', playback', hdecision, htarget⟩
    | _ => exact hwritten
  · obtain ⟨m, hm, hrow⟩ := row_of_mem hrows hm'
    rw [entry_of_closed h hm hrow, (ReviewItem.reopened_eq_iff.mp hrow.reopened_eq).1]
    exact h.agrees m hm

lemma mem_unanswered (hids : (park.items.map ReviewItem.id).Nodup) {m : ReviewItem}
    (hm : m ∈ park.items) : m.id ∈ (sentOf park).unanswered ↔ m.state = .opened := by
  simp only [sentOf, List.mem_map, List.mem_filter, beq_iff_eq]
  constructor
  · rintro ⟨m₀, ⟨hm₀, hopen⟩, hid⟩
    exact same_of_id hids hm₀ hm hid ▸ hopen
  · exact fun hopen => ⟨m, ⟨hm, hopen⟩, rfl⟩

/-- A run answers its open rows, and no others, as unreviewed. -/
lemma closedRows_of_run {park' : ReviewPark} (hids : (park.items.map ReviewItem.id).Nodup)
    (h : recordEach .unreviewed now ((sentOf park).unanswered.map fun i => (i, .unreviewed)) park =
      .ok park') : List.Forall₂ (ClosedRow now) park.items park'.items := by
  have hrows := (List.forall₂_and_left (p := (· ∈ park.items)) _ _).mpr
    ⟨fun m hm => hm, (recordEach_rows h).items⟩
  refine hrows.imp ?_
  rintro m m' ⟨hm, ⟨hnot, rfl⟩ | ⟨d, hd, rfl⟩⟩
  · refine .inr ⟨fun hopen => hnot ?_, rfl⟩
    simpa [Function.comp_def] using (mem_unanswered hids hm).mpr hopen
  · obtain ⟨id, hid, heq⟩ := List.mem_map.mp hd
    cases heq
    exact .inl ⟨(mem_unanswered hids hm).mp hid, rfl⟩

lemma reopened_of_opened (h : Sound answers items) {m : ReviewItem} (hm : m ∈ items)
    (hopen : m.state = .opened) : m.reopened = m := by
  have hdecision := h.entry_of_opened hm hopen
  have htime := h.times m hm hdecision
  obtain ⟨id, groupKey, defectCode, fingerprint, pairingKey, proposal, state, decision, decidedAt⟩ :=
    m
  simp only at hopen hdecision htime
  subst hopen hdecision htime
  rfl

/-- The compensation puts back what the run closed. -/
lemma restore_eq (h : ClosedFrom answers park s) :
    restoreOpen (reopenPark park) s.unanswered = s.before := by
  obtain ⟨now, hrows⟩ := h.rows
  have hrows' := (List.forall₂_and_left (p := (· ∈ s.before.items)) _ _).mpr ⟨fun m hm => hm, hrows⟩
  have hitems : (restoreOpen (reopenPark park) s.unanswered).items = s.before.items := by
    refine (List.forall₂_eq_eq_eq ▸ List.forall₂_map_right_iff.mpr (hrows'.imp ?_) :
      s.before.items = _).symm
    rintro m m' ⟨hm, ⟨hopen, rfl⟩ | ⟨hdecided, rfl⟩⟩
    · have hmem : m.id ∈ s.unanswered := by
        rw [h.eq]
        exact (mem_unanswered h.sound.ids hm).mpr hopen
      simp only [ReviewItem.decided, List.contains_iff_mem.mpr hmem, reopenPark]
      exact (reopened_of_opened h.sound hm hopen).symm
    · have hmem : m'.id ∉ s.unanswered := by
        rw [h.eq]
        exact fun hmem => hdecided ((mem_unanswered h.sound.ids hm).mp hmem)
      simp [hmem]
  have hpark : restoreOpen (reopenPark park) s.unanswered =
      ⟨none, park.keptOperations, (restoreOpen (reopenPark park) s.unanswered).items⟩ := rfl
  rw [hpark, hitems, h.keptOperations, ← h.opened]

end Closing

/-! ## The steps -/

lemma Inv.after_read (h : w.Inv) : Inv { w with readings := w.readings ++ [w.park.items] } :=
  { h with
    readings := by
      intro r hr
      rcases List.mem_append.mp hr with hr | hr
      · exact h.readings r hr
      · rw [List.mem_singleton.mp hr] }

lemma Inv.after_answer (h : w.Inv) {request now : Nat} {body : DecisionIn}
    {reply : Option ModelReply} (hstill : w.StillSo sampleSize (.answer request body reply now))
    {reading : List ReviewItem} (hreading : w.readings[request]? = some reading) {told : Told}
    {park : ReviewPark} (hdecide : decide sampleSize reading body reply now w.park =
      .ok (told, park)) : Inv { w with park, answers := told.enter w.answers } := by
  rcases decide_ok hdecide with ⟨reason, rfl, rfl⟩ | ⟨p, hplan, hp, hopen, hwrite⟩
  · exact h
  have hread := h.readings reading (List.mem_of_getElem? hreading)
  have hrows := (write_rows hp hopen hwrite).1
  have hasked : park.items.map ReviewItem.reopened = w.park.items.map ReviewItem.reopened :=
    rows_map_eq hrows.items _ Rewritten.reopened_eq
  refine ⟨h.asked.congr hasked, h.sound.after_write hp hopen hread
    (hstill reading hreading p (by simp [hplan, Except.toOption])) hwrite, fun r hr => (h.readings r hr).trans hasked.symm, ?_⟩
  intro s hs
  have hclosed := (h.sent s hs).closedBy
  rw [hopen] at hclosed
  cases hclosed

lemma Inv.after_run (h : w.Inv) (hopen : w.park.closedBy = none) (now : Nat) : (w.run now).Inv := by
  unfold run
  dsimp only
  split
  · exact h
  rename_i park hrecord
  have hrows := closedRows_of_run h.sound.ids hrecord
  have hrecorded := recordEach_rows hrecord
  have hpark : closePark park .run = { park with closedBy := some .run } :=
    if_pos (hrecorded.closedBy.trans hopen)
  have hasked : park.items.map ReviewItem.reopened = w.park.items.map ReviewItem.reopened :=
    rows_map_eq hrows _ ClosedRow.reopened_eq
  rw [hpark]
  refine ⟨h.asked.congr hasked, sound_of_closed h.sound hrows,
    fun r hr => (h.readings r hr).trans hasked.symm, ?_⟩
  rintro s ⟨⟩
  exact ⟨rfl, hopen, h.sound, ⟨now, hrows⟩, rfl, hrecorded.keptOperations⟩

lemma Inv.after_compensate (h : w.Inv) : w.compensate.Inv := by
  unfold compensate
  split
  · exact { h with }
  rename_i s hs
  split
  · have hclosed := h.sent s hs
    obtain ⟨now, hrows⟩ := hclosed.rows
    have hasked : w.park.items.map ReviewItem.reopened = s.before.items.map ReviewItem.reopened :=
      rows_map_eq hrows _ ClosedRow.reopened_eq
    rw [restore_eq hclosed]
    exact ⟨h.asked.congr hasked.symm, hclosed.sound, fun r hr => (h.readings r hr).trans hasked,
      by simp⟩
  · exact { h with }

lemma Inv.after_cancel (h : w.Inv) : w.cancel.Inv := by
  unfold cancel closePark
  split
  · split
    · rename_i hopen
      refine ⟨h.asked, h.sound, h.readings, fun s hs => ?_⟩
      have hclosed := (h.sent s hs).closedBy
      rw [hopen] at hclosed
      cases hclosed
    · exact { h with }
  · exact { h with }

/-- Every step keeps the rows of the park, as long as what an answer read is still so. -/
theorem Inv.after_step (h : w.Inv) (hstill : w.StillSo sampleSize l)
    (hstep : w.step sampleSize l = some w') : w'.Inv := by
  cases l with
  | read =>
    simp only [step] at hstep
    split at hstep <;> cases hstep
    exact h.after_read
  | answer request body reply now =>
    simp only [step, Option.map_eq_some_iff] at hstep
    obtain ⟨reading, hreading, rfl⟩ := hstep
    split
    · exact h
    · exact h.after_answer hstill hreading ‹_›
  | run now =>
    simp only [step] at hstep
    split at hstep <;> cases hstep
    rename_i hopen
    exact h.after_run hopen.2 now
  | launched =>
    simp only [step] at hstep
    split at hstep <;> cases hstep
    exact { h with }
  | compensate =>
    simp only [step] at hstep
    split at hstep <;> cases hstep
    exact h.after_compensate
  | cancel =>
    simp only [step] at hstep
    split at hstep <;> cases hstep
    exact h.after_cancel
  | worker target =>
    simp only [step] at hstep
    split at hstep <;> cases hstep
    exact { h with }

/-! ## No answer is lost -/

lemma leave_of_resolve {answers : Ledger ItemId Wish} {items : List ReviewItem}
    (h : Sound answers items) {i : ReviewItem} (hi : i ∈ items)
    (hanswer : answers.resolve i.id = some .leave) : i.state = .left := by
  rw [Ledger.resolve, ← h.agrees i hi] at hanswer
  rw [h.states i hi]
  have hwritten := h.written i hi
  unfold ReviewItem.entry at hanswer
  cases hdecision : i.decision with
  | none => simp [hdecision] at hanswer
  | some x =>
    specialize hwritten x hdecision
    rw [hdecision] at hanswer
    cases x with
    | leave => rfl
    | allLeave => rfl
    | covered j =>
      -- what covers another row is a redirect, never a leave
      obtain ⟨-, -, k, hk, rfl, -, text, d, playback, hk', -⟩ := hwritten
      simp [Decision.entry, ← h.agrees k hk, ReviewItem.entry, hk'] at hanswer
    | _ => simp [Decision.entry] at hanswer

lemma Inv.sent_kept (h : w.Inv) {s : Sent} (hs : w.sent = some s) {i : ReviewItem}
    (hi : i ∈ w.park.items) :
    (w.answers.resolve i.id = some .leave → i.id ∈ s.leaves) ∧
    ∀ op, w.answers.resolve i.id = some (.fix op) → i.fingerprint ≠ "" →
      ∃ e ∈ s.directives, e.source = .engineer ∧ e.op = op ∧ i.fingerprint ∈ e.targets := by
  have hclosed := h.sent s hs
  obtain ⟨now, hrows⟩ := hclosed.rows
  obtain ⟨i₀, hi₀, hrow⟩ := row_of_mem hrows hi
  obtain ⟨hid, -, -, hfp, -⟩ := ReviewItem.reopened_eq_iff.mp hrow.reopened_eq
  have hasked : Asked s.before.items :=
    h.asked.congr (rows_map_eq hrows _ ClosedRow.reopened_eq).symm
  rw [hid, hfp, hclosed.eq]
  refine ⟨fun hleave => ?_, fun op hop hne => ?_⟩
  · have hstate := leave_of_resolve hclosed.sound hi₀ hleave
    exact List.mem_map.mpr ⟨i₀, List.mem_filter.mpr ⟨hi₀, by simp [hstate]⟩, rfl⟩
  · obtain ⟨j, hj, e, he, hsource, hop, htarget⟩ := hclosed.sound.sent hasked hi₀ hne hop
    exact ⟨e, List.mem_append_right _ (List.mem_flatMap.mpr ⟨j, hj, he⟩), hsource, hop, htarget⟩

lemma closed_kept (hclosed : w.park.closedBy ≠ none) {request now : Nat} {body : DecisionIn}
    {reply : Option ModelReply}
    (hstep : w.step sampleSize (.answer request body reply now) = some w') :
    w'.park = w.park ∧ w'.answers = w.answers := by
  simp only [step, Option.map_eq_some_iff] at hstep
  obtain ⟨reading, -, rfl⟩ := hstep
  split
  · exact ⟨rfl, rfl⟩
  · rename_i hdecide
    rcases decide_ok hdecide with ⟨reason, rfl, rfl⟩ | ⟨-, -, -, hopen, -⟩
    · exact ⟨rfl, rfl⟩
    · exact absurd hopen hclosed

lemma Inv.kept (h : w.Inv) : w.Kept sampleSize where
  answers := h.sound.agrees
  sent _ hs _ hi := h.sent_kept hs hi
  closed hclosed _ _ _ _ _ hstep := closed_kept hclosed hstep
  compensated s hs hjob w' hstep := by
    have hclosed := h.sent s hs
    simp only [step] at hstep
    split at hstep <;> cases hstep
    simp only [compensate, Option.mem_def.mp hs, hjob, if_true]
    exact ⟨trivial, restore_eq hclosed, by rw [restore_eq hclosed, hclosed.opened]⟩

/-- In a run whose answers find what they read still so, no answer is lost. -/
theorem answers_kept {park : ReviewPark} (hpark : Minted park) {run : List Label}
    (hrun : (machine sampleSize).Meets (StillSo sampleSize) (parked park) run)
    (h : (machine sampleSize).exec (parked park) run = some w) : w.Kept sampleSize :=
  ((machine sampleSize).exec_invariant (fun _ _ _ hI hP => hI.after_step hP) (inv_parked hpark)
    hrun h).kept

/-! ## Two edges of one group -/

/-- The other edge is left as it is while the note is being read. -/
def leftMeanwhile : List Label :=
  [.read, .read, .answer 1 ⟨some 2, none, .leave, none⟩ none 1, .answer 0 allOfThem sewAll 2]

theorem leave_overwritten : ∃ w, (machine 3).exec (parked twoEdges) leftMeanwhile = some w ∧
    ¬ w.Kept 3 :=
  ⟨_, rfl, fun h => absurd (h.answers _ (List.mem_cons_of_mem _ (List.mem_singleton.mpr rfl)))
    (by decide)⟩

/-- One edge is left, the note is read and covers what is open, and the re-run is not dispatched. -/
def leftBefore : List Label :=
  [.read, .answer 0 ⟨some 2, none, .leave, none⟩ none 1, .read, .answer 1 allOfThem sewAll 2,
    .run 3, .compensate, .run 4, .launched]

theorem answers_kept_leftBefore : ∃ w,
    (machine 3).exec (parked twoEdges) leftBefore = some w ∧ w.Kept 3 :=
  ⟨_, rfl, answers_kept twoEdges_minted
    (by decide : (machine 3).Meets (StillSo 3) (parked twoEdges) leftBefore) rfl⟩

end World

end MeshPipeline.RepairReview
