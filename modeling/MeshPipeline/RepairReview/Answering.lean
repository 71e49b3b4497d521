import MeshPipeline.RepairReview.Decide
import Mathlib.Data.List.Forall2

/-!
# What an answer writes

Every plan is one of a few kinds, and each row of the park is rewritten by a plan in one of a few
ways. Both are said once here.
-/

namespace MeshPipeline.RepairReview

open RepairReviewRepository

/-! ## The plans -/

/-- The plans that an answer can come to, of the items it read. -/
inductive Planned (items : List ReviewItem) : Plan → Prop
  | refusal (reason : String) : Planned items (.refusal reason)
  | allLeave (groupKey : String) (settledOn : ItemId) : Planned items (.allLeave groupKey settledOn)
  | allAccept {groupKey : String} {q : Proposal} {m : ReviewItem} (hm : m ∈ items)
      (hgroup : m.groupKey = groupKey) (hproposal : m.proposal = some q) :
      Planned items (.allAccept groupKey (some q))
  | unproposed (groupKey : String) : Planned items (.allAccept groupKey none)
  | unshaped (settledOn : ItemId) (rest : List ReviewItem) :
      Planned items (.allRedirect settledOn none rest)
  | allRedirect {groupKey : String} (settledOn : ItemId) (shape : Directive)
      (hpaired : ∀ m ∈ items, m.groupKey = groupKey → m.pairingKey = "") :
      Planned items (.allRedirect settledOn (some shape) ((items.filter fun m =>
        m.groupKey == groupKey).filter fun m => m.state == .opened && m.fingerprint != ""))
  | accept {i : ReviewItem} {q : Proposal} (hi : i ∈ items) (hproposal : i.proposal = some q) :
      Planned items
        (.answer i.id .accepted (.accept q) (.fix q.op) [] "" "" (orphanedBy i items []))
  | leave {i : ReviewItem} (hi : i ∈ items) :
      Planned items (.answer i.id .left .leave .leave [] "" "" (orphanedBy i items []))
  | redirect {i : ReviewItem} (text op playback : String) (hi : i ∈ items)
      (htarget : i.fingerprint ≠ "") :
      Planned items (.answer i.id .redirected (.redirect text
        ⟨op, [i.fingerprint], i.defectCode, i.fingerprint, .engineer, some i.id, false⟩ playback
        .item) (.fix op) [] text playback (orphanedBy i items []))
  | redirectGroup {i : ReviewItem} (text op playback : String) (hi : i ∈ items)
      (hpaired : i.pairingKey = "") :
      Planned items (.answer i.id .redirected (.redirect text
        ⟨op, (i.fingerprint :: (coverable i items).map ReviewItem.fingerprint).filter (· ≠ ""),
          i.defectCode, i.fingerprint, .engineer, some i.id, false⟩ playback .group) (.fix op)
        ((coverable i items).map ReviewItem.id) text playback
        (orphanedBy i items ((coverable i items).map ReviewItem.id)))

variable {sampleSize now : Nat} {items : List ReviewItem} {body : DecisionIn}
  {reply : Option ModelReply} {p : Plan}

lemma planAll_planned {groupKey : String} (h : planAll sampleSize items groupKey = .ok p) :
    Planned items p := by
  unfold planAll at h
  dsimp only at h
  split at h
  · cases h
  · split at h
    · cases h
    · rename_i hpaired
      split at h
      · cases h
      · cases h
        exact .allLeave groupKey _
      · rename_i settledOn _
        cases h
        cases hshape : settledOn.decision.bind Decision.directive with
        | none => exact .unshaped _ _
        | some shape =>
          refine .allRedirect _ shape fun m hm hgroup => ?_
          by_contra hkey
          exact hpaired (List.any_eq_true.mpr ⟨m, by simp [hm, hgroup], by simpa using hkey⟩)
      · cases h
        cases hproposal : (items.filter fun m => m.groupKey == groupKey).findSome?
            ReviewItem.proposal with
        | none => exact .unproposed groupKey
        | some q =>
          obtain ⟨m, hm, hq⟩ := List.exists_of_findSome?_eq_some hproposal
          obtain ⟨hm, hgroup⟩ := List.mem_filter.mp hm
          exact .allAccept hm (by simpa using hgroup) hq

/-- What a note is read as aims at its item, or at the whole group. -/
lemma interpret_ok {item : ReviewItem} {group : List ReviewItem} {i : Interpretation}
    (h : interpret reply item group = .ok i) :
    ∃ op, i.directive = ⟨op,
      ((if i.scope = .group then group else [item]).map ReviewItem.fingerprint).filter (· ≠ ""),
      item.defectCode, item.fingerprint, .engineer, some item.id, false⟩ ∧
      i.directive.targets ≠ [] := by
  unfold interpret at h
  split at h
  · cases h
  · cases h
  · rename_i op scope playback
    dsimp only at h
    by_cases hop : op ∉ catalogue
    · rw [if_pos hop] at h
      cases h
    rw [if_neg hop] at h
    by_cases htargets : ((if scope = .group then group else [item]).map
        ReviewItem.fingerprint).filter (· ≠ "") = []
    · rw [if_pos htargets] at h
      cases h
    · rw [if_neg htargets] at h
      cases h
      exact ⟨op, rfl, htargets⟩

lemma planRedirect_planned {item : ReviewItem} {text : String} (hitem : item ∈ items)
    (h : planRedirect items item text reply = .ok p) : Planned items p := by
  unfold planRedirect at h
  split at h
  · cases h
  · split at h
    · cases h
      exact .refusal _
    · rename_i interp hinterp
      obtain ⟨op, hdirective, htargets⟩ := interpret_ok hinterp
      cases hscope : interp.scope with
      | item =>
        simp only [hscope, reduceCtorEq, if_false] at h hdirective
        cases h
        have htarget : item.fingerprint ≠ "" := by
          intro hnone
          simp [hdirective, hnone] at htargets
        rw [hdirective]
        simpa [htarget] using Planned.redirect text op interp.playback hitem htarget
      | group =>
        simp only [hscope] at h
        unfold groupScope at h
        split at h
        · cases h
          exact .refusal _
        · rename_i covered playback hcovered
          split at hcovered
          · cases hcovered
          · rename_i hpaired
            cases hcovered
            cases h
            rw [hdirective]
            exact .redirectGroup text op _ hitem (not_not.mp hpaired)

lemma planOne_planned (h : planOne items body reply = .ok p) : Planned items p := by
  unfold planOne at h
  split at h
  · cases h
  · rename_i item hfind
    have hitem : item ∈ items := List.mem_of_find?_eq_some hfind
    split at h
    · exact planRedirect_planned hitem h
    · split at h
      · cases h
      · rename_i q hproposal
        cases h
        exact .accept hitem (Option.filter_eq_some_iff.mp hproposal).1
    · cases h
      exact .leave hitem

theorem plan_planned (h : plan sampleSize items body reply = .ok p) : Planned items p := by
  unfold plan at h
  split at h
  · exact planAll_planned h
  · exact planOne_planned h

/-! ## The rows -/

/-- A row that a plan leaves alone. -/
def Plan.Spares (m : ReviewItem) : Plan → Prop
  | .refusal _ => True
  | .allLeave groupKey _ => ¬ (m.groupKey = groupKey ∧ m.pairingKey = "" ∧ m.state = .opened)
  | .allAccept groupKey _ => ¬ (m.groupKey = groupKey ∧ m.pairingKey = "" ∧ m.state = .opened)
  | .allRedirect _ _ rest => m.id ∉ rest.map ReviewItem.id
  | .answer item _ _ _ covered _ _ orphaned => m.id ≠ item ∧ m.id ∉ covered ∧
      ¬ (m.id ∈ orphaned ∧ m.state = .redirected ∧ m.coveredBy.isSome)

/-- What a plan makes of a row. -/
inductive Rewritten (now : Nat) : Plan → ReviewItem → ReviewItem → Prop
  | spared {p : Plan} {m : ReviewItem} (h : p.Spares m) : Rewritten now p m m
  | left {groupKey : String} {on : ItemId} {m : ReviewItem} (hgroup : m.groupKey = groupKey)
      (hpaired : m.pairingKey = "") (hopen : m.state = .opened) :
      Rewritten now (.allLeave groupKey on) m (m.decided .left (.allLeave on) now)
  | accepted {groupKey : String} {q : Proposal} {m : ReviewItem} (hgroup : m.groupKey = groupKey)
      (hpaired : m.pairingKey = "") (hopen : m.state = .opened) :
      Rewritten now (.allAccept groupKey (some q)) m (m.decided .accepted (.allAccept q) now)
  | repeated {on : ItemId} {shape : Directive} {rest : List ReviewItem} {r m : ReviewItem}
      (hr : r ∈ rest) (hid : r.id = m.id) :
      Rewritten now (.allRedirect on (some shape) rest) m (m.decided .redirected (.allRedirect on
        ⟨shape.op, [r.fingerprint], r.defectCode, r.fingerprint, .engineer, some r.id, false⟩) now)
  | answered {item : ItemId} {state : ItemState} {decision : Decision} {wish : Wish}
      {covered orphaned : List ItemId} {text playback : String} {m : ReviewItem}
      (hid : m.id = item) :
      Rewritten now (.answer item state decision wish covered text playback orphaned) m
        (m.decided state decision now)
  | covered {item : ItemId} {state : ItemState} {decision : Decision} {wish : Wish}
      {covered orphaned : List ItemId} {text playback : String} {m : ReviewItem}
      (hid : m.id ≠ item) (hcovered : m.id ∈ covered) :
      Rewritten now (.answer item state decision wish covered text playback orphaned) m
        (m.decided .redirected (.covered item text playback) now)
  | released {item : ItemId} {state : ItemState} {decision : Decision} {wish : Wish}
      {covered orphaned : List ItemId} {text playback : String} {m : ReviewItem}
      (hid : m.id ≠ item) (hcovered : m.id ∉ covered) (horphaned : m.id ∈ orphaned)
      (hheld : m.coveredBy.isSome) :
      Rewritten now (.answer item state decision wish covered text playback orphaned) m m.reopened

/-- What is asked about a row stays what it was minted with. -/
lemma Rewritten.reopened_eq {now : Nat} {p : Plan} {m m' : ReviewItem} (h : Rewritten now p m m') :
    m'.reopened = m.reopened := by
  cases h <;> rfl

/-- What the engineer is told of a plan that was written on a park. -/
def Plan.told (park : ReviewPark) : Plan → Told
  | .refusal reason => .refusal reason
  | .allLeave groupKey _ =>
    .applied ((park.items.filter (openOf park groupKey)).map ReviewItem.id) .leave
  | .allAccept groupKey q => .applied ((park.items.filter (openOf park groupKey)).map ReviewItem.id)
      ((q.map fun q => Wish.fix q.op).getD .leave)
  | .allRedirect _ shape rest =>
    .applied (rest.map ReviewItem.id) ((shape.map fun d => Wish.fix d.op).getD .leave)
  | .answer item _ _ wish covered _ _ _ => .answered item wish covered

/-- The rows of a park after its rows were rewritten one by one. -/
structure RowsOf (R : ReviewItem → ReviewItem → Prop) (park park' : ReviewPark) : Prop where
  items : List.Forall₂ R park.items park'.items
  closedBy : park'.closedBy = park.closedBy
  keptOperations : park'.keptOperations = park.keptOperations

variable {park park' : ReviewPark} {told : Told} {reading : List ReviewItem}

lemma rowsOf_update {R : ReviewItem → ReviewItem → Prop} {where' : ReviewItem → Bool}
    {set : ReviewItem → ReviewItem} (hset : ∀ m, where' m = true → R m (set m))
    (hkeep : ∀ m, where' m = false → R m m) : RowsOf R park (park.update where' set) := by
  refine ⟨?_, rfl, rfl⟩
  simp only [ReviewPark.update, List.forall₂_map_right_iff]
  refine List.forall₂_same.mpr fun m _ => ?_
  split
  · exact hset m ‹_›
  · exact hkeep m (by simpa using ‹¬ where' m = true›)

section Rows

variable {R : ReviewItem → ReviewItem → Prop} {items items' : List ReviewItem} {m m' : ReviewItem}

lemma row_of_mem (h : List.Forall₂ R items items') (hm : m' ∈ items') : ∃ m ∈ items, R m m' := by
  obtain ⟨hlen, hzip⟩ := List.forall₂_iff_get.mp h
  obtain ⟨k, hk, rfl⟩ := List.getElem_of_mem hm
  exact ⟨items[k], List.getElem_mem _, hzip k (by omega) hk⟩

lemma row_mem (h : List.Forall₂ R items items') (hm : m ∈ items) : ∃ m' ∈ items', R m m' := by
  obtain ⟨hlen, hzip⟩ := List.forall₂_iff_get.mp h
  obtain ⟨k, hk, rfl⟩ := List.getElem_of_mem hm
  exact ⟨items'[k], List.getElem_mem _, hzip k hk (by omega)⟩

lemma rows_map_eq {β : Type*} (h : List.Forall₂ R items items') (f : ReviewItem → β)
    (hf : ∀ {m m'}, R m m' → f m' = f m) : items'.map f = items.map f := by
  have hmap := List.forall₂_map_left_iff.mpr (List.forall₂_map_right_iff.mpr
    (h.imp fun _ _ hR => (hf hR).symm) : List.Forall₂ (fun a b => f a = b) _ _)
  exact (List.forall₂_eq_eq_eq ▸ hmap : items.map f = items'.map f).symm

end Rows

lemma RowsOf.trans {R S T : ReviewItem → ReviewItem → Prop} {middle : ReviewPark}
    (h : RowsOf R park middle) (h' : RowsOf S middle park')
    (hRS : ∀ {a b c}, R a b → S b c → T a c) : RowsOf T park park' where
  items := by
    have compose : ∀ {as bs cs : List ReviewItem}, List.Forall₂ R as bs → List.Forall₂ S bs cs →
        List.Forall₂ T as cs := by
      intro as bs cs hab hbc
      induction hab generalizing cs with
      | nil =>
        cases hbc
        exact .nil
      | cons hR _ ih =>
        cases hbc with
        | cons hS hrest => exact .cons (hRS hR hS) (ih hrest)
    exact compose h.items h'.items
  closedBy := h'.closedBy.trans h.closedBy
  keptOperations := h'.keptOperations.trans h.keptOperations

/-- A row after the rows of a list were decided one after the other. -/
def Recorded (state : ItemState) (now : Nat) (rows : List (ItemId × Decision))
    (m m' : ReviewItem) : Prop :=
  (m.id ∉ rows.map Prod.fst ∧ m' = m) ∨ ∃ d, (m.id, d) ∈ rows ∧ m' = m.decided state d now

lemma recordEach_rows {state : ItemState} {rows : List (ItemId × Decision)}
    (h : recordEach state now rows park = .ok park') :
    RowsOf (Recorded state now rows) park park' := by
  induction rows generalizing park with
  | nil =>
    cases h
    exact ⟨List.forall₂_same.mpr fun m _ => .inl ⟨by simp, rfl⟩, rfl, rfl⟩
  | cons row rows ih =>
    obtain ⟨item, d⟩ := row
    simp only [recordEach] at h
    split at h
    · cases h
    · rename_i middle hmiddle
      unfold recordDecision at hmiddle
      split at hmiddle
      · cases hmiddle
      split at hmiddle
      · cases hmiddle
      split at hmiddle
      · cases hmiddle
      cases hmiddle
      refine RowsOf.trans (R := fun m m' => (m.id ≠ item ∧ m' = m) ∨
        m.id = item ∧ m' = m.decided state d now) (rowsOf_update ?_ ?_) (ih h) ?_
      · intro m hm
        exact .inr ⟨by simpa using hm, rfl⟩
      · intro m hm
        exact .inl ⟨by simpa using hm, rfl⟩
      · rintro a b c (⟨hid, rfl⟩ | ⟨rfl, rfl⟩) hbc
        · rcases hbc with ⟨hrest, rfl⟩ | ⟨d', hd', rfl⟩
          · exact .inl ⟨by simpa [hid] using hrest, rfl⟩
          · exact .inr ⟨d', List.mem_cons_of_mem _ hd', rfl⟩
        · rcases hbc with ⟨-, rfl⟩ | ⟨d', hd', rfl⟩
          · exact .inr ⟨d, by simp, rfl⟩
          · exact .inr ⟨d', List.mem_cons_of_mem _ hd', rfl⟩

lemma reopenCovered_rows (orphaned : List ItemId) :
    RowsOf (fun m m' => (m.id ∈ orphaned ∧ m.state = .redirected ∧ m.coveredBy.isSome ∧
        m' = m.reopened) ∨
      ¬ (m.id ∈ orphaned ∧ m.state = .redirected ∧ m.coveredBy.isSome ∧ park.closedBy = none) ∧
        m' = m) park (reopenCovered park orphaned) := by
  refine rowsOf_update ?_ ?_
  · intro m hm
    simp only [Bool.and_eq_true, List.contains_iff_mem, beq_iff_eq] at hm
    exact .inl ⟨hm.1.1.1, hm.1.1.2, hm.1.2, rfl⟩
  · intro m hm
    refine .inr ⟨?_, rfl⟩
    rintro ⟨horphaned, hstate, hcovered, hopen⟩
    simp [horphaned, hstate, hcovered, hopen] at hm

lemma write_answer_rows {item : ItemId} {state : ItemState} {decision : Decision} {wish : Wish}
    {covered orphaned : List ItemId} {text playback : String} (hopen : park.closedBy = none)
    (hcovered : item ∉ covered) (hdecision : decision.coveredBy = none)
    (horphaned : ∀ m ∈ covered, m ∉ orphaned)
    (h : write (.answer item state decision wish covered text playback orphaned) now park =
      .ok (told, park')) :
    RowsOf (Rewritten now (.answer item state decision wish covered text playback orphaned))
      park park' ∧ told = .answered item wish covered := by
  simp only [write] at h
  split at h
  · cases h
  rename_i first hfirst
  split at h
  · cases h
  rename_i second hsecond
  cases h
  refine ⟨?_, rfl⟩
  have hrows := RowsOf.trans (T := fun m m' => (m.id = item ∧ m' = m.decided state decision now) ∨
      (m.id ≠ item ∧ m.id ∈ covered ∧
        m' = m.decided .redirected (.covered item text playback) now) ∨
      m.id ≠ item ∧ m.id ∉ covered ∧ m' = m)
    (recordEach_rows hfirst) (recordEach_rows hsecond) ?_
  · have hclosed : second.closedBy = none := hrows.closedBy.trans hopen
    refine hrows.trans (reopenCovered_rows orphaned) ?_
    rintro a b c hab hbc
    rcases hab with ⟨rfl, rfl⟩ | ⟨hid, hmem, rfl⟩ | ⟨hid, hmem, rfl⟩
    · have hnone : (a.decided state decision now).coveredBy = none := hdecision
      rcases hbc with ⟨-, -, hsome, -⟩ | ⟨-, rfl⟩
      · simp [hnone] at hsome
      · exact .answered rfl
    · rcases hbc with ⟨hmem', -, -, -⟩ | ⟨-, rfl⟩
      · exact absurd hmem' (horphaned _ hmem)
      · exact .covered hid hmem
    · rcases hbc with ⟨hmem', -, hheld, rfl⟩ | ⟨hnot, rfl⟩
      · exact .released hid hmem hmem' hheld
      · exact .spared ⟨hid, hmem, fun ⟨h₁, h₂, h₃⟩ => hnot ⟨h₁, h₂, h₃, hclosed⟩⟩
  · rintro a b c hab hbc
    have hfst : (covered.map fun m => (m, Decision.covered item text playback)).map Prod.fst =
        covered := by simp [Function.comp_def]
    rcases hab with ⟨hid, rfl⟩ | ⟨d, hd, rfl⟩
    · have hne : b.id ≠ item := by simpa using hid
      rcases hbc with ⟨hmem, rfl⟩ | ⟨d, hd, rfl⟩
      · exact .inr (.inr ⟨hne, by rwa [hfst] at hmem, rfl⟩)
      · obtain ⟨m, hm, heq⟩ := List.mem_map.mp hd
        cases heq
        exact .inr (.inl ⟨hne, hm, rfl⟩)
    · obtain ⟨rfl, rfl⟩ : a.id = item ∧ d = decision := by simpa using hd
      rcases hbc with ⟨-, rfl⟩ | ⟨d', hd', rfl⟩
      · exact .inl ⟨rfl, rfl⟩
      · obtain ⟨m, hm, heq⟩ := List.mem_map.mp hd'
        cases heq
        exact absurd hm hcovered

lemma recordGroupDecision_rows {R : ReviewItem → ReviewItem → Prop} {groupKey : String}
    {state : ItemState} {decision : Decision} (hopen : park.closedBy = none)
    (hset : ∀ m, m.groupKey = groupKey → m.pairingKey = "" → m.state = .opened →
      R m (m.decided state decision now))
    (hkeep : ∀ m, ¬ (m.groupKey = groupKey ∧ m.pairingKey = "" ∧ m.state = .opened) → R m m) :
    RowsOf R park (recordGroupDecision park groupKey state decision now).2 := by
  refine rowsOf_update ?_ ?_
  · intro m hm
    simp only [openOf, Bool.and_eq_true, beq_iff_eq] at hm
    exact hset m hm.1.1.1 hm.1.1.2 hm.1.2
  · intro m hm
    refine hkeep m ?_
    rintro ⟨hgroup, hpaired, hstate⟩
    simp [openOf, hgroup, hpaired, hstate, hopen] at hm

lemma coverable_spec {item m : ReviewItem} :
    m ∈ coverable item items ↔ m ∈ items ∧ m.groupKey = item.groupKey ∧ m.id ≠ item.id ∧
      m.fingerprint ≠ "" ∧ m.pairingKey = "" ∧
        (m.state = .opened ∨ m.coveredBy = some item.id) := by
  simp [coverable, and_assoc]

lemma orphanedBy_spec {item : ReviewItem} {covered : List ItemId} {id : ItemId} :
    id ∈ orphanedBy item items covered ↔
      ∃ m ∈ items, m.id = id ∧ id ∉ covered ∧ m.coveredBy = some item.id := by
  simp only [orphanedBy, List.mem_map, List.mem_filter]
  grind

/-- What is written is what was planned, and the engineer is told so. -/
theorem write_rows (hp : Planned reading p) (hopen : park.closedBy = none)
    (h : write p now park = .ok (told, park')) :
    RowsOf (Rewritten now p) park park' ∧ told = p.told park := by
  cases hp with
  | refusal reason =>
    cases h
    exact ⟨⟨List.forall₂_same.mpr fun m _ => .spared trivial, rfl, rfl⟩, rfl⟩
  | allLeave groupKey on =>
    simp only [write] at h
    split at h
    · cases h
    · cases h
      exact ⟨recordGroupDecision_rows hopen (fun m => .left) fun m h => .spared h, rfl⟩
  | allAccept hm hgroup hproposal =>
    simp only [write] at h
    split at h
    · cases h
    · cases h
      exact ⟨recordGroupDecision_rows hopen (fun m => .accepted) fun m h => .spared h, rfl⟩
  | unproposed groupKey => cases h
  | unshaped on rest => cases h
  | allRedirect on shape hpaired =>
    simp only [write] at h
    split at h
    · cases h
    rename_i written hwritten
    split at h
    · cases h
    · cases h
      have hrows := recordEach_rows hwritten
      refine ⟨⟨hrows.items.imp ?_, hrows.closedBy, hrows.keptOperations⟩, rfl⟩
      rintro a b (⟨hnot, rfl⟩ | ⟨d, hd, rfl⟩)
      · exact .spared (by simpa [Plan.Spares] using hnot)
      · obtain ⟨r, hr, heq⟩ := List.mem_map.mp hd
        obtain ⟨hid, rfl⟩ := Prod.mk.inj heq
        exact .repeated hr hid
  | accept hi hproposal =>
    exact write_answer_rows hopen (by simp) rfl (by simp) h
  | leave hi => exact write_answer_rows hopen (by simp) rfl (by simp) h
  | redirect text op playback hi htarget =>
    exact write_answer_rows hopen (by simp) rfl (by simp) h
  | redirectGroup text op playback hi hpaired =>
    refine write_answer_rows hopen ?_ rfl ?_ h
    · intro hmem
      obtain ⟨m, hm, hid⟩ := List.mem_map.mp hmem
      exact (coverable_spec.mp hm).2.2.1 hid
    · intro id hid hmem
      obtain ⟨-, -, -, hnot, -⟩ := orphanedBy_spec.mp hmem
      exact hnot hid

end MeshPipeline.RepairReview
