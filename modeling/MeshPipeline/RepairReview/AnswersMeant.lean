import MeshPipeline.RepairReview.Dispatched
import MeshPipeline.Library.Machine

/-!
# An answer means what it says

Requests that come one after the other, each on the items as the last one left them. As long as no
item that another's answer covers is answered on its own, each answer is sent to the re-run once,
for the items that it is about and no others.
-/

namespace MeshPipeline.RepairReview

/-- The directive is for the defect of the item. -/
def Directive.AimsAt (d : Directive) (m : ReviewItem) : Prop :=
  m.fingerprint ≠ "" ∧ m.fingerprint ∈ d.targets ∧ d.defectCode = m.defectCode

instance (d : Directive) (m : ReviewItem) : Decidable (d.AimsAt m) :=
  inferInstanceAs (Decidable (_ ∧ _ ∧ _))

/-- A park and the answers that the engineer was told of. -/
structure Session where
  park : ReviewPark
  answers : Ledger ItemId Wish

structure Request where
  body : DecisionIn
  reply : Option ModelReply
  now : Nat
  deriving DecidableEq, Repr

namespace Session

/-- A request that is refused leaves everything as it is. -/
def step (sampleSize : Nat) (s : Session) (r : Request) : Option Session :=
  match decide sampleSize s.park.items r.body r.reply r.now s.park with
  | .error _ => some s
  | .ok (told, park) => some ⟨park, told.enter s.answers⟩

def machine (sampleSize : Nat) : Transition.Machine Session Request := ⟨step sampleSize⟩

/-- A park that nobody has answered. -/
def start (park : ReviewPark) : Session := ⟨park, .empty⟩

/-- The item that a request answers is not covered by the answer on another. -/
def Alone (sampleSize : Nat) (s : Session) (r : Request) : Prop :=
  ∀ p ∈ (plan sampleSize s.park.items r.body r.reply).toOption, ∀ m ∈ s.park.items,
    p.answers = some m.id → m.coveredBy = none

instance {sampleSize : Nat} (s : Session) (r : Request) : Decidable (s.Alone sampleSize r) :=
  inferInstanceAs (Decidable (∀ p ∈ (plan sampleSize s.park.items r.body r.reply).toOption,
    ∀ m ∈ s.park.items, p.answers = some m.id → m.coveredBy = none))

/-- What the re-run is sent means what the answers say. -/
structure Meant (s : Session) : Prop where
  untouched : ∀ m ∈ s.park.items,
    s.answers.resolve m.id = none ∨ s.answers.resolve m.id = some .leave →
    ∀ d ∈ directivesOf s.park, d.source = .engineer → ¬ d.AimsAt m
  once : ∀ m ∈ s.park.items, m.fingerprint ≠ "" → ∀ op,
    s.answers.resolve m.id = some (.fix op) →
    ∃ d, (directivesOf s.park).filter (fun d => d.source = .engineer ∧ d.AimsAt m) = [d] ∧
      d.op = op
  paired : ∀ m ∈ s.park.items, m.pairingKey ≠ "" →
    ∀ d ∈ directivesOf s.park, d.source = .engineer → d.AimsAt m →
      d.itemId = some m.id ∧ s.answers m.id = some (.own (.fix d.op))

end Session

/-! ## The targets of a group redirect -/

/-- The entities that an answer on `j` is about. -/
def reach (items : List ReviewItem) (j : ReviewItem) : List String :=
  (j.fingerprint :: (items.filter fun m => m.coveredBy == some j.id).map
    ReviewItem.fingerprint).filter (· ≠ "")

/-- Each group redirect aims at its own item and at the ones that it still covers. -/
def Exact (items : List ReviewItem) : Prop :=
  ∀ j ∈ items, ∀ text d playback, j.decision = some (.redirect text d playback .group) →
    d.targets = reach items j

variable {now sampleSize : Nat} {answers : Ledger ItemId Wish} {park park' : ReviewPark}
  {p : Plan} {told : Told} {items : List ReviewItem} {i i' j m m' : ReviewItem} {d e : Directive}

lemma filter_rows {R : ReviewItem → ReviewItem → Prop} {items' : List ReviewItem}
    {f g : ReviewItem → Bool} (hrows : List.Forall₂ R items items')
    (hR : ∀ m ∈ items, ∀ m', R m m' → f m = g m' ∧ m.fingerprint = m'.fingerprint) :
    (items.filter f).map ReviewItem.fingerprint = (items'.filter g).map ReviewItem.fingerprint := by
  induction hrows with
  | nil => rfl
  | @cons a b as bs hab hrest ih =>
    obtain ⟨hfg, hfp⟩ := hR a (by simp) b hab
    have ih := ih fun m hm => hR m (List.mem_cons_of_mem a hm)
    cases hg : g b <;> simp [hfg, hg, hfp, ih]

namespace Sound

variable (h : Sound answers park.items)

include h

lemma coveredBy_of_opened (hm : m ∈ park.items) (hopen : m.state = .opened) :
    m.coveredBy = none := by
  rw [ReviewItem.coveredBy, h.entry_of_opened hm hopen]
  rfl

/-- A plan keeps what another's answer covers. -/
lemma covered_kept (hp : Planned park.items p) (halone : ∀ m ∈ park.items,
      p.answers = some m.id → m.coveredBy = none)
    (hspared : p.Spares j) (hm : m ∈ park.items) (hrow : Rewritten now p m m') :
    m.coveredBy = some j.id ↔ m'.coveredBy = some j.id := by
  have hstill := h.stillSo_of_read hp
  cases hrow with
  | spared => exact Iff.rfl
  | left _ _ hopen => simp [h.coveredBy_of_opened hm hopen, Decision.coveredBy]
  | accepted _ _ hopen => simp [h.coveredBy_of_opened hm hopen, Decision.coveredBy]
  | repeated hr hid =>
    have hopen := hstill m hm (hid ▸ List.mem_map_of_mem (f := ReviewItem.id) hr)
    simp [h.coveredBy_of_opened hm hopen, Decision.coveredBy]
  | answered hid =>
    rw [halone m hm (by rw [hid]; rfl)]
    cases hp <;> simp [Decision.coveredBy]
  | covered hid hcovered =>
    have hne := Ne.symm hspared.1
    rcases (hstill m hm hid).1 hcovered with hopen | hheld
    · simp [h.coveredBy_of_opened hm hopen, Decision.coveredBy, hne]
    · simp [hheld, Decision.coveredBy, hne]
  | released hid hcovered horphaned hheld =>
    have hne := Ne.symm hspared.1
    have hitem := ((hstill m hm hid).2.2 hcovered horphaned).resolve_left
      (Option.isSome_iff_ne_none.mp hheld)
    simp [hitem, hne]

/-- A group redirect covers, once it is written, what it could cover. -/
lemma covered_of_coverable {text op playback : String} (hm : m ∈ park.items)
    (hrow : Rewritten now (.answer i.id .redirected (.redirect text d playback .group) (.fix op)
      ((coverable i park.items).map ReviewItem.id) text playback
      (orphanedBy i park.items ((coverable i park.items).map ReviewItem.id))) m m') :
    m ∈ coverable i park.items ↔ m'.coveredBy = some i.id := by
  have hmem : m ∈ coverable i park.items → m.id ∈ (coverable i park.items).map ReviewItem.id :=
    List.mem_map_of_mem
  cases hrow with
  | spared hspared =>
    obtain ⟨-, hcovered, hkept⟩ := hspared
    refine iff_of_false (fun hcoverable => hcovered (hmem hcoverable)) fun hheld => hkept ?_
    exact ⟨orphanedBy_spec.mpr ⟨m, hm, rfl, hcovered, hheld⟩, h.state_of_covered hm hheld,
      by simp [hheld]⟩
  | answered hid =>
    refine iff_of_false (fun hcoverable => (coverable_spec.mp hcoverable).2.2.1 hid) ?_
    simp [Decision.coveredBy]
  | covered hid hcovered =>
    obtain ⟨r, hr, hrid⟩ := List.mem_map.mp hcovered
    obtain rfl := same_of_id h.ids (coverable_spec.mp hr).1 hm hrid
    exact iff_of_true hr rfl
  | released hid hcovered horphaned hheld =>
    refine iff_of_false (fun hcoverable => hcovered (hmem hcoverable)) ?_
    simp

/-- A group redirect aims at what it covers, from when it is written. -/
lemma exact_after (hexact : Exact park.items) (hp : Planned park.items p)
    (halone : ∀ m ∈ park.items, p.answers = some m.id → m.coveredBy = none)
    (hrows : RowsOf (Rewritten now p) park park') : Exact park'.items := by
  intro j' hj' text d playback hdecision
  obtain ⟨j, hj, hrow⟩ := row_of_mem hrows.items hj'
  obtain ⟨hid, -, -, hfp, -⟩ := ReviewItem.reopened_eq_iff.mp hrow.reopened_eq
  have hsame : ∀ {m m' : ReviewItem}, Rewritten now p m m' → m.fingerprint = m'.fingerprint :=
    fun hrow => (ReviewItem.reopened_eq_iff.mp hrow.reopened_eq).2.2.2.1.symm
  cases hrow with
  | spared hspared =>
    rw [hexact j' hj text d playback hdecision, reach, reach, filter_rows hrows.items]
    intro m hm m' hrow
    refine ⟨?_, hsame hrow⟩
    rw [Bool.eq_iff_iff, beq_iff_eq, beq_iff_eq]
    exact h.covered_kept hp halone hspared hm hrow
  | answered hitem =>
    cases hp with
    | redirectGroup text op playback hi hpaired =>
      obtain rfl := same_of_id h.ids hj hi hitem
      cases hdecision
      simp only [reach, ReviewItem.decided]
      congr 2
      refine filter_rows hrows.items fun m hm m' hrow => ⟨?_, hsame hrow⟩
      rw [Bool.eq_iff_iff, beq_iff_eq, ← h.covered_of_coverable hm hrow, coverable,
        List.mem_filter, and_iff_right hm]
    | _ => cases hdecision
  | _ => cases hdecision

end Sound

/-! ## What the directives of a row aim at -/

lemma filter_map_eq_singleton {α β : Type*} {l : List α} {f : α → β} {q : β → Bool} {a : α}
    (hl : l.Nodup) (ha : a ∈ l) (hq : ∀ b ∈ l, q (f b) = true ↔ b = a) :
    (l.map f).filter q = [f a] := by
  have hone : (l.filter (q ∘ f)).Perm [a] := by
    rw [List.perm_ext_iff_of_nodup (hl.filter _) (List.nodup_singleton a)]
    intro b
    rw [List.mem_filter, List.mem_singleton, Function.comp]
    exact ⟨fun hb => (hq b hb.1).mp hb.2, fun hb => hb ▸ ⟨ha, (hq a ha).mpr rfl⟩⟩
  rw [List.filter_map, List.perm_singleton.mp hone]
  rfl

lemma mem_reach {fingerprint : String} :
    fingerprint ∈ reach items j ↔ fingerprint ≠ "" ∧ (fingerprint = j.fingerprint ∨
      ∃ x ∈ items, x.coveredBy = some j.id ∧ x.fingerprint = fingerprint) := by
  simp only [reach, List.mem_filter, List.mem_cons, List.mem_map, beq_iff_eq, decide_eq_true_eq]
  grind

namespace Sound

variable (h : Sound answers items) (hasked : Asked items) (hexact : Exact items)

include h

/-- What covers a row is a group redirect of its group. -/
lemma covered_spec (hm : m ∈ items) (hj : j ∈ items) (hheld : m.coveredBy = some j.id) :
    m.fingerprint ≠ "" ∧ m.pairingKey = "" ∧ m.groupKey = j.groupKey ∧
      ∃ text d playback, j.decision = some (.redirect text d playback .group) := by
  unfold ReviewItem.coveredBy at hheld
  cases hdecision : m.decision with
  | none => simp [hdecision] at hheld
  | some x =>
    cases x with
    | covered by' text playback =>
      obtain rfl : by' = j.id := by simpa [hdecision, Decision.coveredBy] using hheld
      obtain ⟨hfp, hpaired, k, hk, hid, hgroup, text', d, playback', hk', -⟩ :=
        h.written m hm _ hdecision
      obtain rfl := same_of_id h.ids hk hj hid
      exact ⟨hfp, hpaired, hgroup.symm, text', d, playback', hk'⟩
    | _ => simp [hdecision, Decision.coveredBy] at hheld

include hasked

/-- The rows that an answer on `j` is about are the ones of its code that it reaches. -/
lemma reaches_iff (hm : m ∈ items) (hj : j ∈ items) (hfp : m.fingerprint ≠ "") :
    m.fingerprint ∈ reach items j ∧ j.defectCode = m.defectCode ↔
      m = j ∨ m.coveredBy = some j.id := by
  constructor
  · rintro ⟨hreach, hcode⟩
    rcases (mem_reach.mp hreach).2 with hsame | ⟨x, hx, hheld, hsame⟩
    · exact .inl (same_of_id h.ids hm hj (hasked.defects m hm j hj hfp hsame hcode.symm))
    · have hgroup := (h.covered_spec hx hj hheld).2.2.1
      have hcode' := (hasked.groups x hx j hj hgroup).1
      obtain rfl := same_of_id h.ids hm hx
        (hasked.defects m hm x hx hfp hsame.symm (hcode.symm.trans hcode'.symm))
      exact .inr hheld
  · rintro (rfl | hheld)
    · exact ⟨mem_reach.mpr ⟨hfp, .inl rfl⟩, rfl⟩
    · exact ⟨mem_reach.mpr ⟨hfp, .inr ⟨m, hm, hheld, rfl⟩⟩,
        ((hasked.groups m hm j hj (h.covered_spec hm hj hheld).2.2.1).1).symm⟩

lemma reach_nodup (hj : j ∈ items) : (reach items j).Nodup := by
  refine List.Nodup.filter _ (List.nodup_cons.mpr ⟨?_, List.Nodup.map_on ?_ (h.ids.of_map.filter _)⟩)
  · intro hmem
    obtain ⟨x, hx, hsame⟩ := List.mem_map.mp hmem
    obtain ⟨hx, hheld⟩ := List.mem_filter.mp hx
    obtain ⟨hfp, -, hgroup, text, d, playback, hdecision⟩ :=
      h.covered_spec hx hj (beq_iff_eq.mp hheld)
    obtain rfl := same_of_id h.ids hx hj
      (hasked.defects x hx j hj hfp hsame (hasked.groups x hx j hj hgroup).1)
    simp [ReviewItem.coveredBy, hdecision, Decision.coveredBy] at hheld
  · intro x hx y hy hsame
    obtain ⟨hx, hheld⟩ := List.mem_filter.mp hx
    obtain ⟨hy, hheld'⟩ := List.mem_filter.mp hy
    obtain ⟨hfp, -, hgroup, -⟩ := h.covered_spec hx hj (beq_iff_eq.mp hheld)
    obtain ⟨-, -, hgroup', -⟩ := h.covered_spec hy hj (beq_iff_eq.mp hheld')
    exact same_of_id h.ids hx hy (hasked.defects x hx y hy hfp hsame
      (hasked.groups x hx y hy (hgroup.trans hgroup'.symm)).1)

include hexact

/-- The directive of a row aims at what its answer is about. -/
lemma targets_eq_reach (hj : j ∈ items) (hd : engineerDirective j = some d) :
    d.targets.filter (· ≠ "") = reach items j ∧ OwnDirective j d ∧
      j.entry = some (.own (.fix d.op)) := by
  obtain ⟨op, hentry⟩ := h.entry_of_engineerDirective hj hd
  obtain ⟨d', hd', rfl, hown, htargets⟩ := h.engineerDirective_of_entry hasked hj hentry
  obtain rfl : d = d' := Option.some.inj (hd.symm.trans hd')
  refine ⟨?_, hown, hentry⟩
  by_cases hgroup : ∃ text playback, j.decision = some (.redirect text d playback .group)
  · obtain ⟨text, playback, hdecision⟩ := hgroup
    rw [hexact j hj text d playback hdecision, reach, List.filter_filter]
    simp
  · rw [htargets.resolve_right hgroup, reach]
    have hnone : items.filter (fun m => m.coveredBy == some j.id) = [] := by
      rw [List.filter_eq_nil_iff]
      intro m hm hheld
      obtain ⟨-, -, -, text, d', playback, hdecision⟩ :=
        h.covered_spec hm hj (beq_iff_eq.mp hheld)
      have hstate : j.state = .redirected := by
        rw [h.states j hj, hdecision]
        rfl
      have hd'' := engineerDirective_of_redirected hstate (by simp [hdecision, Decision.directive])
        (h.written j hj _ hdecision).1.source
      obtain rfl : d = d' := Option.some.inj (hd.symm.trans hd'')
      exact hgroup ⟨text, playback, hdecision⟩
    rw [hnone]
    rfl

omit hexact in
/-- The owner of a hole is the row of its fill, or one that the fill covers. -/
lemma ownerOf_code (hj : j ∈ items) (fingerprint : String) :
    (ownerOf j items fingerprint).defectCode = j.defectCode := by
  unfold ownerOf
  split
  · rfl
  · cases hlast : (items.filter fun m =>
        m.fingerprint == fingerprint && m.coveredBy == some j.id).getLast? with
    | none => rfl
    | some x =>
      obtain ⟨hx, hheld⟩ := List.mem_filter.mp (List.mem_of_getLast? hlast)
      simp only [Bool.and_eq_true, beq_iff_eq] at hheld
      exact (hasked.groups x hx j hj (h.covered_spec hx hj hheld.2).2.2.1).1

/-- What a row sends is for the rows that its answer is about. -/
lemma sent_of_mem (hj : j ∈ items) (hd : engineerDirective j = some d)
    (he : e ∈ engineerDirectives j items) :
    e.source = .engineer ∧ e.op = d.op ∧ e.defectCode = j.defectCode := by
  obtain ⟨-, hown, -⟩ := h.targets_eq_reach hasked hexact hj hd
  rcases engineerDirectives_cases items hd with hsent | hsent | ⟨-, hsent⟩ <;> rw [hsent] at he
  · obtain rfl := List.mem_singleton.mp he
    exact ⟨hown.source, rfl, hown.defectCode⟩
  · obtain rfl := List.mem_singleton.mp he
    exact ⟨hown.source, rfl, hown.defectCode⟩
  · obtain ⟨fingerprint, -, rfl⟩ := List.mem_map.mp he
    exact ⟨hown.source, rfl, by simp [forHole, h.ownerOf_code hasked hj, hown.defectCode]⟩

/-- A row is aimed at by the directives of another only where the answer on it is about the row, and
then by one. -/
lemma aimed_once (hm : m ∈ items) (hfp : m.fingerprint ≠ "") (hj : j ∈ items)
    (hd : engineerDirective j = some d) :
    ((m = j ∨ m.coveredBy = some j.id) → ∃ e, (engineerDirectives j items).filter
      (fun e => e.source = .engineer ∧ e.AimsAt m) = [e] ∧ e.op = d.op) ∧
    (¬ (m = j ∨ m.coveredBy = some j.id) → (engineerDirectives j items).filter
      (fun e => e.source = .engineer ∧ e.AimsAt m) = []) := by
  obtain ⟨htargets, hown, -⟩ := h.targets_eq_reach hasked hexact hj hd
  have hreaches := h.reaches_iff hasked hm hj hfp
  have hmem : m.fingerprint ∈ d.targets ↔ m.fingerprint ∈ reach items j := by
    rw [← htargets, List.mem_filter]
    simp [hfp]
  have hwhole : ∀ e : Directive, e.targets = d.targets → e.defectCode = d.defectCode →
      e.source = d.source → ((e.source = .engineer ∧ e.AimsAt m) ↔
        m = j ∨ m.coveredBy = some j.id) := by
    intro e htarget hcode hsource
    rw [← hreaches, ← hmem, Directive.AimsAt, htarget, hcode, hown.defectCode, hsource,
      hown.source, and_iff_right rfl, and_iff_right hfp]
  rcases engineerDirectives_cases items hd with hsent | hsent | ⟨-, hsent⟩ <;> rw [hsent]
  · have hd' := hwhole d rfl rfl rfl
    exact ⟨fun hm => ⟨d, List.filter_eq_self.mpr (by simpa using hd'.mpr hm), rfl⟩,
      fun hm => List.filter_eq_nil_iff.mpr (by simpa using hd'.not.mpr hm)⟩
  · have hd' := hwhole { d with group := true } rfl rfl rfl
    exact ⟨fun hm => ⟨{ d with group := true }, List.filter_eq_self.mpr (by simpa using hd'.mpr hm),
      rfl⟩, fun hm => List.filter_eq_nil_iff.mpr (by simpa using hd'.not.mpr hm)⟩
  -- one fill for each hole, and one of them for the row
  rw [htargets]
  have hhole : ∀ fingerprint ∈ reach items j,
      ((forHole d (ownerOf j items fingerprint) fingerprint).source = .engineer ∧
        (forHole d (ownerOf j items fingerprint) fingerprint).AimsAt m) ↔
      fingerprint = m.fingerprint ∧ j.defectCode = m.defectCode := by
    intro fingerprint _
    have hcode : (forHole d (ownerOf j items fingerprint) fingerprint).defectCode =
        j.defectCode := by
      simp [forHole, h.ownerOf_code hasked hj, hown.defectCode]
    have hsource : (forHole d (ownerOf j items fingerprint) fingerprint).source = .engineer :=
      hown.source
    rw [Directive.AimsAt, hcode, and_iff_right hsource, and_iff_right hfp, forHole,
      List.mem_singleton]
    exact and_congr_left fun _ => eq_comm
  constructor
  · intro habout
    obtain ⟨hreach, hcode⟩ := hreaches.mpr habout
    refine ⟨_, filter_map_eq_singleton (h.reach_nodup hasked hj) hreach fun fingerprint hmem => ?_,
      rfl⟩
    rw [decide_eq_true_eq, hhole fingerprint hmem, and_iff_left hcode]
  · intro habout
    rw [List.filter_eq_nil_iff]
    intro e he
    obtain ⟨fingerprint, hmem', rfl⟩ := List.mem_map.mp he
    rw [decide_eq_true_eq, hhole fingerprint hmem']
    rintro ⟨rfl, hcode⟩
    exact habout (hreaches.mp ⟨hmem', hcode⟩)

end Sound

/-! ## The whole payload -/

lemma flatMap_eq_of_unique {α β : Type*} {l : List α} {f : α → List β} {a : α} (hl : l.Nodup)
    (ha : a ∈ l) (hnone : ∀ b ∈ l, b ≠ a → f b = []) : l.flatMap f = f a := by
  induction l with
  | nil => cases ha
  | cons b l ih =>
    obtain ⟨hb, hl⟩ := List.nodup_cons.mp hl
    rw [List.flatMap_cons]
    rcases List.mem_cons.mp ha with rfl | ha
    · have hrest : l.flatMap f = [] := List.flatMap_eq_nil_iff.mpr fun x hx =>
        hnone x (List.mem_cons_of_mem _ hx) fun h => hb (h ▸ hx)
      rw [hrest, List.append_nil]
    · rw [hnone b (by simp) fun h => hb (h ▸ ha), List.nil_append,
        ih hl ha fun x hx => hnone x (List.mem_cons_of_mem _ hx)]

/-- No operation that an engineer approved before aims at what is asked now. -/
def KeptAside (park : ReviewPark) : Prop :=
  ∀ d ∈ replayDirectives park.keptOperations, d.source = .engineer → ∀ m ∈ park.items,
    ¬ d.AimsAt m

namespace Session

/-- What holds of a session whose requests answer uncovered items alone. -/
structure Inv (s : Session) : Prop where
  opened : s.park.closedBy = none
  asked : Asked s.park.items
  sound : Sound s.answers s.park.items
  exact : Exact s.park.items
  keptAside : KeptAside s.park

variable {s s' : Session} {r : Request}

lemma Inv.aimed (h : s.Inv) (hm : m ∈ s.park.items) :
    (directivesOf s.park).filter (fun d => d.source = .engineer ∧ d.AimsAt m) =
      (decidedOf s.park.items).flatMap fun j => (engineerDirectives j s.park.items).filter
        fun d => d.source = .engineer ∧ d.AimsAt m := by
  have hreplay : (replayDirectives s.park.keptOperations).filter
      (fun d => d.source = .engineer ∧ d.AimsAt m) = [] := by
    rw [List.filter_eq_nil_iff]
    intro d hd haims
    rw [decide_eq_true_eq] at haims
    exact h.keptAside d hd haims.1 m hm haims.2
  rw [directivesOf, List.filter_append, hreplay, List.nil_append, List.filter_flatMap]

/-- What a row sends is what the answers of the rows that it is about ask for. -/
lemma Inv.resolve (h : s.Inv) (hm : m ∈ s.park.items) (hj : j ∈ s.park.items)
    (hd : engineerDirective j = some d) (habout : m = j ∨ m.coveredBy = some j.id) :
    s.answers.resolve m.id = some (.fix d.op) := by
  obtain ⟨-, -, hentry⟩ := h.sound.targets_eq_reach h.asked h.exact hj hd
  rw [h.sound.agrees j hj] at hentry
  rcases habout with rfl | hheld
  · simp [Ledger.resolve, hentry]
  · simp [Ledger.resolve, (h.sound.answers_of_covered hm).mp hheld, hentry]

/-- Each row sends directives for the rows that its answer is about, and no others. -/
lemma Inv.about (h : s.Inv) (hm : m ∈ s.park.items) (hd : d ∈ directivesOf s.park)
    (hsource : d.source = .engineer) (haims : d.AimsAt m) :
    ∃ j ∈ s.park.items, ∃ d', engineerDirective j = some d' ∧
      d ∈ engineerDirectives j s.park.items ∧ d.op = d'.op ∧
      (m = j ∨ m.coveredBy = some j.id) := by
  have hmem : d ∈ (directivesOf s.park).filter (fun d => d.source = .engineer ∧ d.AimsAt m) :=
    List.mem_filter.mpr ⟨hd, decide_eq_true ⟨hsource, haims⟩⟩
  rw [h.aimed hm] at hmem
  obtain ⟨j, hj, hd⟩ := List.mem_flatMap.mp hmem
  have hj := (mem_decidedOf.mp hj).1
  cases hd' : engineerDirective j with
  | none => simp [engineerDirectives_none hd'] at hd
  | some d' =>
    have hsent := (List.mem_filter.mp hd).1
    refine ⟨j, hj, d', hd', hsent, (h.sound.sent_of_mem h.asked h.exact hj hd' hsent).2.1, ?_⟩
    by_contra habout
    rw [(h.sound.aimed_once h.asked h.exact hm haims.1 hj hd').2 habout] at hd
    cases hd

lemma Inv.meant (h : s.Inv) : s.Meant where
  untouched m hm hanswer d hd hsource haims := by
    obtain ⟨j, hj, d', hd', -, -, habout⟩ := h.about hm hd hsource haims
    have hfix := h.resolve hm hj hd' habout
    rcases hanswer with hnone | hleave
    · rw [hnone] at hfix
      cases hfix
    · rw [hleave] at hfix
      cases hfix
  once m hm hfp op hanswer := by
    obtain ⟨j, hj, d, hd, rfl, -, habout, -⟩ := h.sound.answerer h.asked hm hanswer
    obtain ⟨e, he, hop⟩ := (h.sound.aimed_once h.asked h.exact hm hfp hj hd).1 habout
    refine ⟨e, ?_, hop⟩
    have hnodup : (decidedOf s.park.items).Nodup :=
      (List.mergeSort_perm _ _).nodup_iff.mpr (h.sound.ids.of_map.filter _)
    rw [h.aimed hm, flatMap_eq_of_unique hnodup (mem_decidedOf_of_directive hj hd), he]
    intro b hb hne
    have hb := (mem_decidedOf.mp hb).1
    cases hb' : engineerDirective b with
    | none => simp [engineerDirectives_none hb']
    | some d' =>
      refine (h.sound.aimed_once h.asked h.exact hm hfp hb hb').2 fun habout' => hne ?_
      have hjnone := h.sound.coveredBy_of_directive hj hd
      have hbnone := h.sound.coveredBy_of_directive hb hb'
      rcases habout with rfl | hheld <;> rcases habout' with rfl | hheld'
      · rfl
      · rw [hjnone] at hheld'
        cases hheld'
      · rw [hbnone] at hheld
        cases hheld
      · exact same_of_id h.sound.ids hb hj (Option.some.inj (hheld'.symm.trans hheld))
  paired m hm hpaired d hd hsource haims := by
    obtain ⟨j, hj, d', hd', hsent, hop, rfl | hheld⟩ := h.about hm hd hsource haims
    · obtain ⟨-, hown, hentry⟩ := h.sound.targets_eq_reach h.asked h.exact hj hd'
      refine ⟨?_, by rw [← h.sound.agrees m hm, hentry, hop]⟩
      rcases engineerDirectives_cases s.park.items hd' with heq | heq | ⟨-, heq⟩ <;>
        rw [heq] at hsent
      · obtain rfl := List.mem_singleton.mp hsent
        exact hown.itemId
      · obtain rfl := List.mem_singleton.mp hsent
        exact hown.itemId
      · obtain ⟨fingerprint, -, rfl⟩ := List.mem_map.mp hsent
        obtain rfl : m.fingerprint = fingerprint := List.mem_singleton.mp haims.2.1
        simp [forHole, ownerOf]
    · exact absurd (h.sound.covered_spec hm hj hheld).2.1 hpaired

lemma Inv.after_step (h : s.Inv) (halone : s.Alone sampleSize r)
    (hstep : s.step sampleSize r = some s') : s'.Inv := by
  unfold step at hstep
  split at hstep <;> cases hstep
  · exact h
  rename_i told park hdecide
  rcases decide_ok hdecide with ⟨reason, rfl, rfl⟩ | ⟨p, hplan, hp, hopen, hwrite⟩
  · exact h
  have hrows := (write_rows hp hopen hwrite).1
  have hasked : park.items.map ReviewItem.reopened = s.park.items.map ReviewItem.reopened :=
    rows_map_eq hrows.items _ Rewritten.reopened_eq
  have halone' := halone p (by simp [hplan, Except.toOption])
  refine ⟨hrows.closedBy.trans h.opened, h.asked.congr hasked,
    h.sound.after_write hp hopen rfl (h.sound.stillSo_of_read hp) hwrite,
    h.sound.exact_after h.exact hp halone' hrows, ?_⟩
  intro d hd hsource m' hm'
  obtain ⟨m, hm, hrow⟩ := row_of_mem hrows.items hm'
  obtain ⟨-, -, hcode, hfp, -⟩ := ReviewItem.reopened_eq_iff.mp hrow.reopened_eq
  rw [hrows.keptOperations] at hd
  rw [Directive.AimsAt, hfp, hcode]
  exact h.keptAside d hd hsource m hm

lemma inv_start {park : ReviewPark} (h : Minted park) (hkept : KeptAside park) :
    (start park).Inv where
  opened := h.closedBy
  asked := h.asked
  sound := Sound.of_minted h
  exact := by
    intro j hj text d playback hdecision
    have hnone : j.reopened.decision = j.decision := congrArg ReviewItem.decision (h.unanswered j hj)
    rw [hdecision] at hnone
    cases hnone
  keptAside := hkept

/-- In a run whose requests answer no item that another's answer covers, the answers are sent as they
were meant. -/
theorem answers_meant {park : ReviewPark} (hpark : Minted park) (hkept : KeptAside park)
    {run : List Request} (hrun : (machine sampleSize).Meets (Alone sampleSize) (start park) run)
    (h : (machine sampleSize).exec (start park) run = some s) : s.Meant :=
  ((machine sampleSize).exec_invariant (fun _ _ _ hI hP => hI.after_step hP)
    (inv_start hpark hkept) hrun h).meant

/-- One edge is left, the group is redirected on the other, and that one is redirected again. -/
def answeredAlone : List Request :=
  [⟨⟨some 2, none, .leave, none⟩, none, 1⟩, ⟨allOfThem, sewAll, 2⟩,
    ⟨⟨some 1, none, .redirect, some "merge it"⟩,
      some (.directive "fix_small_edges" .item "i will merge it"), 3⟩]

theorem answers_meant_answeredAlone : ∃ s,
    (machine 3).exec (start twoEdges) answeredAlone = some s ∧ s.Meant :=
  ⟨_, rfl, answers_meant twoEdges_minted (by simp [KeptAside, twoEdges, replayDirectives])
    (by decide : (machine 3).Meets (Alone 3) (start twoEdges) answeredAlone) rfl⟩

/-- The group is redirected on one edge, and the other is then left as it is. -/
def leftAfterwards : List Request :=
  [⟨allOfThem, sewAll, 1⟩, ⟨⟨some 2, none, .leave, none⟩, none, 2⟩]

/-- The row of the edge that the group was redirected on. -/
def redirected : ReviewItem :=
  (edge 1 "a").decided .redirected (.redirect "all of them"
    ⟨"sew_faces", ["a", "b"], "small_edge", "a", .engineer, some 1, false⟩ "i will sew them" .group) 1

theorem left_still_aimed : ∃ s,
    (machine 3).exec (start twoEdges) leftAfterwards = some s ∧ ¬ s.Meant := by
  refine ⟨⟨⟨none, [], [redirected, (edge 2 "b").decided .left .leave 2]⟩, _⟩, rfl, fun h => ?_⟩
  refine h.untouched _ (List.mem_cons_of_mem _ (List.mem_singleton.mpr rfl)) (by decide)
    ⟨"sew_faces", ["a", "b"], "small_edge", "a", .engineer, some 1, true⟩ ?_ rfl (by decide)
  refine List.mem_append_right _ (List.mem_flatMap.mpr ⟨redirected, ?_, by decide⟩)
  exact mem_decidedOf.mpr ⟨List.mem_cons_self, .inr rfl⟩

end Session

end MeshPipeline.RepairReview
