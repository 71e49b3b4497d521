import MeshPipeline.RepairReview.Answering
import Mathlib.Data.List.Nodup

/-!
# What the rows of a park hold

Every stored decision is one that an answer wrote on its row, and the rows agree with the ledger of
what the engineer was told, as long as what an answer read is still so when it writes.
-/

namespace MeshPipeline.RepairReview

namespace Decision

/-- The state that a decision is stored with. -/
def state : Decision → ItemState
  | accept _ | allAccept _ => .accepted
  | leave | allLeave _ => .left
  | redirect _ _ _ _ | covered _ _ _ | allRedirect _ _ => .redirected
  | unreviewed => .unreviewed

/-- What a stored decision says of its item. -/
def entry : Decision → Option (Entry ItemId Wish)
  | accept q | allAccept q => some (.own (.fix q.op))
  | leave | allLeave _ => some (.own .leave)
  | redirect _ d _ _ | allRedirect _ d => some (.own (.fix d.op))
  | covered by' _ _ => some (.covered by')
  | unreviewed => none

end Decision

/-- The answer that a row holds. -/
def ReviewItem.entry (m : ReviewItem) : Option (Entry ItemId Wish) := m.decision.bind Decision.entry

/-- A directive of one item alone. -/
structure OwnDirective (m : ReviewItem) (d : Directive) : Prop where
  source : d.source = .engineer
  itemId : d.itemId = some m.id
  defectCode : d.defectCode = m.defectCode
  group : d.group = false
  target : m.fingerprint ≠ "" → m.fingerprint ∈ d.targets

/-- A decision that an answer wrote on the row of `m`, among the rows `items`. -/
def Written (items : List ReviewItem) (m : ReviewItem) : Decision → Prop
  | .accept q => m.proposal = some q
  | .allAccept q => ∃ g ∈ items, g.groupKey = m.groupKey ∧ g.proposal = some q
  | .redirect _ d _ scope => OwnDirective m d ∧ (scope = .item → d.targets = [m.fingerprint]) ∧
      (scope = .group → m.pairingKey = "")
  | .allRedirect _ d => OwnDirective m d ∧ d.targets = [m.fingerprint]
  | .covered by' _ _ => m.fingerprint ≠ "" ∧ m.pairingKey = "" ∧
      ∃ i ∈ items, i.id = by' ∧ i.groupKey = m.groupKey ∧
        ∃ text d playback, i.decision = some (.redirect text d playback .group) ∧
          m.fingerprint ∈ d.targets
  | _ => True

/-- The rows hold what the answers wrote, and the ledger says the same. -/
structure Sound (answers : Ledger ItemId Wish) (items : List ReviewItem) : Prop where
  ids : (items.map ReviewItem.id).Nodup
  states : ∀ m ∈ items, m.state = (m.decision.map Decision.state).getD .opened
  times : ∀ m ∈ items, m.decision = none → m.decidedAt = none
  written : ∀ m ∈ items, ∀ d ∈ m.decision, Written items m d
  agrees : ∀ m ∈ items, m.entry = answers m.id

/-- Nothing is answered of a park as it is minted. -/
lemma Sound.of_minted {park : ReviewPark} (h : Minted park) : Sound .empty park.items where
  ids := h.asked.ids
  states m hm := by rw [← h.unanswered m hm]; rfl
  times m hm _ := by rw [← h.unanswered m hm]; rfl
  written m hm d hd := by rw [← h.unanswered m hm] at hd; cases hd
  agrees m hm := by rw [← h.unanswered m hm]; rfl

/-- The rows that an answer covers or releases still are what it read: they have no other answer. -/
def Plan.StillSo (items : List ReviewItem) : Plan → Prop
  | .answer item _ _ _ covered _ _ orphaned => ∀ m ∈ items, m.id ≠ item →
      (m.id ∈ covered → m.state = .opened ∨ m.coveredBy = some item) ∧
      (m.id ∉ covered → m.coveredBy = some item → m.id ∈ orphaned) ∧
      (m.id ∉ covered → m.id ∈ orphaned → m.coveredBy = none ∨ m.coveredBy = some item)
  | .allRedirect _ (some _) rest =>
      ∀ m ∈ items, m.id ∈ rest.map ReviewItem.id → m.state = .opened
  | _ => True

instance (items : List ReviewItem) : (p : Plan) → Decidable (p.StillSo items)
  | .answer _ _ _ _ _ _ _ _ => inferInstanceAs (Decidable (∀ m ∈ items, _))
  | .allRedirect _ (some _) _ => inferInstanceAs (Decidable (∀ m ∈ items, _))
  | .allRedirect _ none _ | .allLeave _ _ | .allAccept _ _ | .refusal _ => isTrue trivial

variable {now sampleSize : Nat} {answers : Ledger ItemId Wish} {reading : List ReviewItem}
  {park park' : ReviewPark} {p : Plan} {told : Told} {m m' r : ReviewItem}

lemma same_of_id {items : List ReviewItem} (hids : (items.map ReviewItem.id).Nodup)
    (hm : m ∈ items) (hm' : m' ∈ items) (hid : m.id = m'.id) : m = m' :=
  List.inj_on_of_nodup_map hids hm hm' hid

/-- A row that was read is the row of the park with its id, but for its answer. -/
lemma same_question (hids : (park.items.map ReviewItem.id).Nodup)
    (hread : reading.map ReviewItem.reopened = park.items.map ReviewItem.reopened)
    (hr : r ∈ reading) (hm : m ∈ park.items) (hid : r.id = m.id) : r.reopened = m.reopened := by
  have hmem : r.reopened ∈ park.items.map ReviewItem.reopened :=
    hread ▸ List.mem_map_of_mem hr
  obtain ⟨m₀, hm₀, heq⟩ := List.mem_map.mp hmem
  have hid₀ : m₀.id = m.id := (congrArg ReviewItem.id heq).trans hid
  rw [← heq, same_of_id hids hm₀ hm hid₀]

lemma read_row (hread : reading.map ReviewItem.reopened = park.items.map ReviewItem.reopened)
    (hr : r ∈ reading) : ∃ m ∈ park.items, m.reopened = r.reopened :=
  List.mem_map.mp (hread ▸ List.mem_map_of_mem hr)

lemma Sound.entry_of_opened {items : List ReviewItem} (h : Sound answers items) (hm : m ∈ items)
    (hopen : m.state = .opened) : m.decision = none := by
  have hstate := h.states m hm
  rw [hopen] at hstate
  cases hdecision : m.decision with
  | none => rfl
  | some d => cases d <;> simp [hdecision, Decision.state] at hstate

namespace Sound

variable (h : Sound answers park.items)

include h

lemma answers_of_opened (hm : m ∈ park.items) (hopen : m.state = .opened) :
    answers m.id = none := by
  rw [← h.agrees m hm, ReviewItem.entry, h.entry_of_opened hm hopen]
  rfl

lemma answers_of_covered {j : ItemId} (hm : m ∈ park.items) :
    m.coveredBy = some j ↔ answers m.id = some (.covered j) := by
  rw [← h.agrees m hm, ReviewItem.entry, ReviewItem.coveredBy]
  cases hdecision : m.decision with
  | none => simp
  | some d => cases d <;> simp [Decision.coveredBy, Decision.entry]

lemma state_of_covered {j : ItemId} (hm : m ∈ park.items) (hheld : m.coveredBy = some j) :
    m.state = .redirected := by
  rw [h.states m hm]
  unfold ReviewItem.coveredBy at hheld
  cases hdecision : m.decision with
  | none => simp [hdecision] at hheld
  | some d => cases d <;> simp_all [Decision.coveredBy, Decision.state]

/-- The rows that a group answer decides, by what the ledger holds for them. -/
lemma mem_changed {groupKey : String} (hopen : park.closedBy = none) (hm : m ∈ park.items) :
    m.id ∈ (park.items.filter (RepairReviewRepository.openOf park groupKey)).map ReviewItem.id ↔
      m.groupKey = groupKey ∧ m.pairingKey = "" ∧ m.state = .opened := by
  simp only [List.mem_map, List.mem_filter, RepairReviewRepository.openOf, Bool.and_eq_true,
    beq_iff_eq]
  constructor
  · rintro ⟨m₀, ⟨hm₀, h₁, -⟩, hid⟩
    obtain rfl := same_of_id h.ids hm₀ hm hid
    exact ⟨h₁.1.1, h₁.1.2, h₁.2⟩
  · rintro ⟨hgroup, hpaired, hstate⟩
    exact ⟨m, ⟨hm, ⟨⟨hgroup, hpaired⟩, hstate⟩, hopen⟩, rfl⟩

/-- The ledger follows a row that an answer on one item leaves alone. -/
lemma agrees_of_spared {item : ItemId} {wish : Wish} {covered orphaned : List ItemId}
    {state : ItemState} {decision : Decision} {text playback : String}
    (hstill : (Plan.answer item state decision wish covered text playback orphaned).StillSo
      park.items) (hm : m ∈ park.items)
    (hspared : (Plan.answer item state decision wish covered text playback orphaned).Spares m) :
    m.entry = answers.answer item wish covered m.id := by
  obtain ⟨hid, hcovered, hkept⟩ := hspared
  rw [h.agrees m hm]
  cases hcoverable : answers.coverable item m.id with
  | false => rw [Ledger.answer_of_not_coverable hid hcoverable]
  | true =>
    rw [Ledger.answer_of_coverable hid hcoverable, if_neg hcovered]
    refine (Ledger.coverable_iff.mp hcoverable).resolve_right fun hheld => ?_
    have hcoveredBy : m.coveredBy = some item := (h.answers_of_covered hm).mpr hheld
    exact hkept ⟨(hstill m hm hid).2.1 hcovered hcoveredBy, h.state_of_covered hm hcoveredBy, by simp [hcoveredBy]⟩

/-- The ledger follows each row that a plan rewrites. -/
lemma agrees_after (hp : Planned reading p) (hopen : park.closedBy = none)
    (hstill : p.StillSo park.items) (hm : m ∈ park.items) (hrow : Rewritten now p m m') :
    m'.entry = (p.told park).enter answers m.id := by
  cases hrow with
  | spared hspared =>
    cases p with
    | refusal reason => exact h.agrees m hm
    | allLeave groupKey on =>
      rw [h.agrees m hm]
      exact (Ledger.answerEach_of_notMem ((h.mem_changed hopen hm).not.mpr hspared)).symm
    | allAccept groupKey q =>
      rw [h.agrees m hm]
      exact (Ledger.answerEach_of_notMem ((h.mem_changed hopen hm).not.mpr hspared)).symm
    | allRedirect on shape rest =>
      rw [h.agrees m hm]
      exact (Ledger.answerEach_of_notMem hspared).symm
    | answer => exact h.agrees_of_spared hstill hm hspared
  | left hgroup hpaired hstate =>
    have hchanged := (h.mem_changed hopen hm).mpr ⟨hgroup, hpaired, hstate⟩
    simp [Plan.told, Told.enter, Ledger.answerEach_of_none (h.answers_of_opened hm hstate),
      hchanged, ReviewItem.entry, ReviewItem.decided, Decision.entry]
  | accepted hgroup hpaired hstate =>
    have hchanged := (h.mem_changed hopen hm).mpr ⟨hgroup, hpaired, hstate⟩
    simp [Plan.told, Told.enter, Ledger.answerEach_of_none (h.answers_of_opened hm hstate),
      hchanged, ReviewItem.entry, ReviewItem.decided, Decision.entry]
  | repeated hr hid =>
    have hmem := hid ▸ List.mem_map_of_mem (f := ReviewItem.id) hr
    have hstate := hstill m hm hmem
    simp only [Plan.told, Told.enter, Ledger.answerEach_of_none (h.answers_of_opened hm hstate),
      if_pos hmem]
    rfl
  | answered hid =>
    rw [hid]
    simp only [Plan.told, Told.enter, Ledger.answer_self]
    cases hp <;> rfl
  | covered hid hcovered =>
    have hcoverable : answers.coverable _ m.id = true := Ledger.coverable_iff.mpr <|
      ((hstill m hm hid).1 hcovered).imp (h.answers_of_opened hm) (h.answers_of_covered hm).mp
    simp only [Plan.told, Told.enter, Ledger.answer_of_coverable hid hcoverable, if_pos hcovered]
    rfl
  | released hid hcovered horphaned hheld =>
    have hcoveredBy := ((hstill m hm hid).2.2 hcovered horphaned).resolve_left
      (Option.isSome_iff_ne_none.mp hheld)
    have hcoverable : answers.coverable _ m.id = true :=
      Ledger.coverable_iff.mpr (.inr ((h.answers_of_covered hm).mp hcoveredBy))
    simp only [Plan.told, Told.enter, Ledger.answer_of_coverable hid hcoverable, if_neg hcovered]
    rfl

/-- A group redirect keeps its row as long as it covers a row that a plan leaves alone. -/
lemma holder_kept {i i' : ReviewItem} {text playback : String} {d : Directive}
    (hstill : p.StillSo park.items) (hi : i ∈ park.items)
    (hdecision : i.decision = some (.redirect text d playback .group)) (hm : m ∈ park.items)
    (hheld : m.coveredBy = some i.id) (hspared : p.Spares m) (hrow : Rewritten now p i i') :
    i' = i := by
  have hstate : i.state = .redirected := by
    rw [h.states i hi, hdecision]
    rfl
  have hnone : i.coveredBy = none := by
    rw [ReviewItem.coveredBy, hdecision]
    rfl
  cases hrow with
  | spared => rfl
  | left _ _ hopen => rw [hstate] at hopen; cases hopen
  | accepted _ _ hopen => rw [hstate] at hopen; cases hopen
  | repeated hr hid =>
    have hopen := hstill i hi (hid ▸ List.mem_map_of_mem (f := ReviewItem.id) hr)
    rw [hstate] at hopen
    cases hopen
  | answered hid =>
    obtain ⟨hne, hcovered, hkept⟩ := hspared
    exact absurd ⟨(hstill m hm hne).2.1 hcovered (hid ▸ hheld), h.state_of_covered hm hheld,
      by simp [hheld]⟩ hkept
  | covered hid hcovered =>
    rcases (hstill i hi hid).1 hcovered with hopen | hheld'
    · rw [hstate] at hopen
      cases hopen
    · rw [hnone] at hheld'
      cases hheld'
  | released _ _ _ hheld' => simp [hnone] at hheld'

omit h in
/-- The directive that an answer made of a row that it read. -/
lemma ownDirective_of_read {i : ReviewItem} {d : Directive} (hread : i.reopened = m.reopened)
    (h : OwnDirective i d) : OwnDirective m d := by
  obtain ⟨hid, -, hcode, htarget, -⟩ := ReviewItem.reopened_eq_iff.mp hread
  exact ⟨h.source, hid ▸ h.itemId, hcode ▸ h.defectCode, h.group, htarget ▸ h.target⟩

/-- What a plan writes on a row that it answers is a decision of the row. -/
lemma written_of_answered {item : ItemId} {state : ItemState} {decision : Decision} {wish : Wish}
    {covered orphaned : List ItemId} {text playback : String} {items : List ReviewItem}
    (hp : Planned reading (.answer item state decision wish covered text playback orphaned))
    (hread : reading.map ReviewItem.reopened = park.items.map ReviewItem.reopened)
    (hm : m ∈ park.items) (hid : m.id = item) (hm' : m'.reopened = m.reopened) :
    Written items m' decision := by
  cases hp with
  | accept hi hproposal =>
    have hsame := (same_question h.ids hread hi hm hid.symm).trans hm'.symm
    exact (ReviewItem.reopened_eq_iff.mp hsame).2.2.2.2.2.symm.trans hproposal
  | leave hi => trivial
  | redirect text op playback hi htarget =>
    have hsame := (same_question h.ids hread hi hm hid.symm).trans hm'.symm
    obtain ⟨-, -, -, hfp, -⟩ := ReviewItem.reopened_eq_iff.mp hsame
    refine ⟨ownDirective_of_read hsame ⟨rfl, rfl, rfl, rfl, by simp⟩, fun _ => by simp [hfp], ?_⟩
    simp
  | redirectGroup text op playback hi hpaired =>
    have hsame := (same_question h.ids hread hi hm hid.symm).trans hm'.symm
    obtain ⟨-, -, -, -, hkey, -⟩ := ReviewItem.reopened_eq_iff.mp hsame
    refine ⟨ownDirective_of_read hsame ⟨rfl, rfl, rfl, rfl, fun hfp => by simp [hfp]⟩, ?_, ?_⟩
    · simp
    · exact fun _ => hkey ▸ hpaired

/-- Every decision that a plan leaves or writes on a row is one of its row. -/
lemma written_after (hp : Planned reading p)
    (hread : reading.map ReviewItem.reopened = park.items.map ReviewItem.reopened)
    (hstill : p.StillSo park.items) (hrows : RowsOf (Rewritten now p) park park')
    (hm : m ∈ park.items) (hrow : Rewritten now p m m') :
    ∀ d ∈ m'.decision, Written park'.items m' d := by
  intro d hd
  cases hrow with
  | spared hspared =>
    have hwritten := h.written m hm d hd
    cases d with
    | allAccept q =>
      obtain ⟨g, hg, hgroup, hproposal⟩ := hwritten
      obtain ⟨g', hg', hrow'⟩ := row_mem hrows.items hg
      obtain ⟨-, hgroup', -, -, -, hproposal'⟩ := ReviewItem.reopened_eq_iff.mp hrow'.reopened_eq
      exact ⟨g', hg', hgroup'.trans hgroup, hproposal'.trans hproposal⟩
    | covered j text playback =>
      obtain ⟨hfp, hpaired, i, hi, rfl, hgroup, text', d', playback', hdecision, htarget⟩ := hwritten
      obtain ⟨i', hi', hrow'⟩ := row_mem hrows.items hi
      have hheld : m.coveredBy = some i.id := by
        rw [ReviewItem.coveredBy, Option.mem_def.mp hd]
        rfl
      obtain rfl := h.holder_kept hstill hi hdecision hm hheld hspared hrow'
      exact ⟨hfp, hpaired, i', hi', rfl, hgroup, text', d', playback', hdecision, htarget⟩
    | _ => exact hwritten
  | left =>
    cases hd
    trivial
  | accepted hgroup =>
    cases hd
    cases hp with
    | allAccept hg hgroup' hproposal =>
      obtain ⟨g, hg, hsame⟩ := read_row hread hg
      obtain ⟨g', hg', hrow'⟩ := row_mem hrows.items hg
      obtain ⟨-, hkey, -, -, -, hq⟩ :=
        ReviewItem.reopened_eq_iff.mp (hrow'.reopened_eq.trans hsame)
      exact ⟨g', hg', hkey.trans (hgroup'.trans hgroup.symm), hq.trans hproposal⟩
  | repeated hr hid =>
    cases hd
    cases hp with
    | allRedirect on shape hpaired =>
      have hr' := (List.mem_filter.mp (List.mem_filter.mp hr).1).1
      have hsame := same_question h.ids hread hr' hm hid
      obtain ⟨-, -, -, hfp, -⟩ := ReviewItem.reopened_eq_iff.mp hsame
      exact ⟨ownDirective_of_read hsame ⟨rfl, rfl, rfl, rfl, by simp⟩, by simp [hfp, ReviewItem.decided]⟩
  | answered hid =>
    cases hd
    exact h.written_of_answered hp hread hm hid rfl
  | covered hid hcovered =>
    cases hd
    cases hp with
    | redirectGroup text op playback hi hpaired =>
      obtain ⟨r, hr', hrid⟩ := List.mem_map.mp hcovered
      obtain ⟨hr, hgroup, -, hfp, hkey, -⟩ := coverable_spec.mp hr'
      obtain ⟨-, hgroup', -, hfp', hkey', -⟩ :=
        ReviewItem.reopened_eq_iff.mp (same_question h.ids hread hr hm hrid)
      obtain ⟨i, hi', hsame⟩ := read_row hread hi
      obtain ⟨i', hi'', hrow'⟩ := row_mem hrows.items hi'
      obtain ⟨hitem, hgroup'', -⟩ := ReviewItem.reopened_eq_iff.mp hsame
      cases hrow' with
      | answered =>
        refine ⟨hfp' ▸ hfp, hkey' ▸ hkey, _, hi'', hitem,
          hgroup''.trans (hgroup.symm.trans hgroup'), _, _, _, rfl, ?_⟩
        have hmem : r.fingerprint ∈ (coverable _ reading).map ReviewItem.fingerprint :=
          List.mem_map_of_mem hr'
        simp only [List.mem_filter, List.mem_cons]
        exact ⟨.inr (hfp' ▸ hmem), by simpa [ReviewItem.decided, ← hfp'] using hfp⟩
      | spared hspared => exact absurd hitem hspared.1
      | covered hne => exact absurd hitem hne
      | released hne => exact absurd hitem hne
    | _ => simp at hcovered
  | released => cases hd

/-- The states of the rows go with their decisions. -/
lemma states_after (hp : Planned reading p) (hm : m ∈ park.items) (hrow : Rewritten now p m m') :
    m'.state = (m'.decision.map Decision.state).getD .opened := by
  cases hrow with
  | spared => exact h.states m hm
  | answered => cases hp <;> rfl
  | _ => rfl

/-- What an answer writes keeps the rows sound, as long as what it read is still so. -/
theorem after_write (hp : Planned reading p) (hopen : park.closedBy = none)
    (hread : reading.map ReviewItem.reopened = park.items.map ReviewItem.reopened)
    (hstill : p.StillSo park.items) (hwrite : write p now park = .ok (told, park')) :
    Sound (told.enter answers) park'.items := by
  obtain ⟨hrows, rfl⟩ := write_rows hp hopen hwrite
  refine ⟨?_, fun m' hm' => ?_, fun m' hm' => ?_, fun m' hm' => ?_, fun m' hm' => ?_⟩
  · rw [rows_map_eq hrows.items ReviewItem.id fun hrow => (ReviewItem.reopened_eq_iff.mp hrow.reopened_eq).1]
    exact h.ids
  · obtain ⟨m, hm, hrow⟩ := row_of_mem hrows.items hm'
    exact h.states_after hp hm hrow
  · obtain ⟨m, hm, hrow⟩ := row_of_mem hrows.items hm'
    cases hrow with
    | spared => exact h.times _ hm
    | released => exact fun _ => rfl
    | _ => simp [ReviewItem.decided]
  · obtain ⟨m, hm, hrow⟩ := row_of_mem hrows.items hm'
    exact h.written_after hp hread hstill hrows hm hrow
  · obtain ⟨m, hm, hrow⟩ := row_of_mem hrows.items hm'
    rw [(ReviewItem.reopened_eq_iff.mp hrow.reopened_eq).1]
    exact h.agrees_after hp hopen hstill hm hrow

/-- An answer that writes at once what it read finds it still so. -/
theorem stillSo_of_read (hp : Planned park.items p) : p.StillSo park.items := by
  have hanswer : ∀ (i : ReviewItem) (covered : List ItemId),
      (∀ m ∈ park.items, m.id ∈ covered → m.state = .opened ∨ m.coveredBy = some i.id) →
      ∀ m ∈ park.items, m.id ≠ i.id →
        (m.id ∈ covered → m.state = .opened ∨ m.coveredBy = some i.id) ∧
        (m.id ∉ covered → m.coveredBy = some i.id → m.id ∈ orphanedBy i park.items covered) ∧
        (m.id ∉ covered → m.id ∈ orphanedBy i park.items covered →
          m.coveredBy = none ∨ m.coveredBy = some i.id) := by
    intro i covered hcovered m hm _
    refine ⟨hcovered m hm, fun hnot hheld => orphanedBy_spec.mpr ⟨m, hm, rfl, hnot, hheld⟩, ?_⟩
    intro _ horphaned
    obtain ⟨m₀, hm₀, hid, -, hheld⟩ := orphanedBy_spec.mp horphaned
    obtain rfl := same_of_id h.ids hm₀ hm hid
    exact .inr hheld
  cases hp with
  | allRedirect on shape hpaired =>
    intro m hm hmem
    obtain ⟨r, hr, hid⟩ := List.mem_map.mp hmem
    obtain ⟨hr, hopen⟩ := List.mem_filter.mp hr
    obtain rfl := same_of_id h.ids (List.mem_filter.mp hr).1 hm hid
    simp only [Bool.and_eq_true, beq_iff_eq] at hopen
    exact hopen.1
  | accept hi hproposal => exact hanswer _ [] (by simp)
  | leave hi => exact hanswer _ [] (by simp)
  | redirect text op playback hi htarget => exact hanswer _ [] (by simp)
  | redirectGroup text op playback hi hpaired =>
    refine hanswer _ _ fun m hm hmem => ?_
    obtain ⟨r, hr, hid⟩ := List.mem_map.mp hmem
    obtain ⟨hr, -, -, -, -, hopen⟩ := coverable_spec.mp hr
    exact same_of_id h.ids hr hm hid ▸ hopen
  | _ => trivial

end Sound

/-- An answer that is not refused writes its plan on the open park. -/
theorem decide_ok {body : DecisionIn} {reply : Option ModelReply}
    (h : decide sampleSize reading body reply now park = .ok (told, park')) :
    (∃ reason, told = .refusal reason ∧ park' = park) ∨
      ∃ p, plan sampleSize reading body reply = .ok p ∧ Planned reading p ∧
        park.closedBy = none ∧ write p now park = .ok (told, park') := by
  unfold decide at h
  split at h
  · cases h
  · cases h
    exact .inl ⟨_, rfl, rfl⟩
  · rename_i p _ hp
    split at h
    · exact .inr ⟨p, hp, plan_planned hp, ‹_›, h⟩
    · cases h

end MeshPipeline.RepairReview
