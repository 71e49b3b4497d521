import MeshPipeline.RepairReview.Answers
import MeshPipeline.RepairReview.Repository

/-!
# The directives of an answer

An answer that asks for a repair has one directive, which aims at its own defect; a fill over a
group has one for each of its holes.
-/

namespace MeshPipeline.RepairReview

variable {answers : Ledger ItemId Wish} {items items' : List ReviewItem} {i m : ReviewItem}
  {op : String} {d e : Directive}

/-- What is asked does not depend on the answers. -/
lemma Asked.congr (h : Asked items)
    (hsame : items'.map ReviewItem.reopened = items.map ReviewItem.reopened) : Asked items' := by
  have hback : ∀ {i}, i ∈ items' → ∃ j ∈ items, j.reopened = i.reopened := fun hi =>
    List.mem_map.mp (hsame ▸ List.mem_map_of_mem hi)
  have hids : items'.map ReviewItem.id = items.map ReviewItem.id := by
    have := congrArg (List.map ReviewItem.id) hsame
    simpa [List.map_map, Function.comp_def, ReviewItem.reopened] using this
  refine ⟨hids ▸ h.ids, ?_, ?_, ?_⟩
  · intro i hi j hj
    obtain ⟨i₀, hi₀, hi'⟩ := hback hi
    obtain ⟨j₀, hj₀, hj'⟩ := hback hj
    have := h.defects i₀ hi₀ j₀ hj₀
    grind [ReviewItem.reopened_eq_iff]
  · intro i hi j hj
    obtain ⟨i₀, hi₀, hi'⟩ := hback hi
    obtain ⟨j₀, hj₀, hj'⟩ := hback hj
    have := h.groups i₀ hi₀ j₀ hj₀
    grind [ReviewItem.reopened_eq_iff]
  · intro i hi
    obtain ⟨i₀, hi₀, hi'⟩ := hback hi
    have := h.proposals i₀ hi₀
    grind [ReviewItem.reopened_eq_iff]

lemma engineerDirective_of_redirected (hstate : i.state = .redirected)
    (hdirective : i.decision.bind Decision.directive = some d) (hsource : d.source = .engineer) :
    engineerDirective i = some d := by
  rw [engineerDirective, if_pos hstate, hdirective, Option.map_some, ← hsource]

lemma state_of_engineerDirective (hd : engineerDirective i = some d) :
    (i.state = .redirected ∧ (i.decision.bind Decision.directive).isSome) ∨ i.state = .accepted := by
  unfold engineerDirective at hd
  split at hd
  · rename_i hstate
    rw [Option.map_eq_some_iff] at hd
    obtain ⟨d', hd', -⟩ := hd
    exact .inl ⟨hstate, by simp [hd']⟩
  · dsimp only at hd
    split at hd
    · cases hd
    · split at hd
      · cases hd
      · exact .inr (by simp_all)

/-- The directive of an accepted row has the operation of its own proposal, or else of the one that
was accepted for its group. -/
lemma engineerDirective_of_accepted (hasked : Asked items) (hi : i ∈ items)
    (hstate : i.state = .accepted) {q : Proposal} (hop : q.op ≠ "")
    (hproposal : i.proposal = none → i.decision.bind Decision.proposal = some q)
    (hown : ∀ q' ∈ i.proposal, q'.op = q.op) :
    engineerDirective i = some ⟨q.op, if i.fingerprint = "" then [] else [i.fingerprint],
      i.defectCode, i.fingerprint, .engineer, some i.id, false⟩ := by
  rw [engineerDirective, if_neg (by simp [hstate])]
  cases hq : i.proposal with
  | none => simp [hproposal hq, hstate, hop]
  | some q' =>
    obtain ⟨-, htargets⟩ := hasked.proposals i hi q' hq
    have hsame : q'.op = q.op := hown q' hq
    by_cases hfp : i.fingerprint = "" <;>
      simp [hstate, Option.filter, hsame, hop, htargets, hfp]

variable (items) in
/-- What becomes of the one directive of a row: it is sent as it is, or over many defects, or one
for each hole of a fill. -/
lemma engineerDirectives_cases (hd : engineerDirective i = some d) :
    engineerDirectives i items = [d] ∨ engineerDirectives i items = [{ d with group := true }] ∨
      i.state = .redirected ∧ engineerDirectives i items =
        (d.targets.filter (· ≠ "")).map fun fingerprint =>
          forHole d (ownerOf i items fingerprint) fingerprint := by
  simp only [engineerDirectives, hd]
  split
  · split
    · exact .inr (.inl rfl)
    · exact .inl rfl
  · rename_i hfill
    exact .inr (.inr ⟨not_not.mp fun hne => hfill (.inl hne), rfl⟩)

lemma engineerDirectives_none (hd : engineerDirective i = none) :
    engineerDirectives i items = [] := by
  simp [engineerDirectives, hd]

variable (items) in
/-- Each target of the directive of a row is sent with its operation. -/
lemma sent_target (hd : engineerDirective i = some d) {fingerprint : String}
    (hfp : fingerprint ≠ "") (htarget : fingerprint ∈ d.targets) :
    ∃ e ∈ engineerDirectives i items, e.source = d.source ∧ e.op = d.op ∧
      fingerprint ∈ e.targets := by
  rcases engineerDirectives_cases items hd with hsent | hsent | ⟨-, hsent⟩
  · exact ⟨d, by simp [hsent], rfl, rfl, htarget⟩
  · exact ⟨{ d with group := true }, by simp [hsent], rfl, rfl, htarget⟩
  · have hmem : fingerprint ∈ d.targets.filter (· ≠ "") :=
      List.mem_filter.mpr ⟨htarget, by simpa using hfp⟩
    rw [hsent]
    exact ⟨_, List.mem_map.mpr ⟨fingerprint, hmem, rfl⟩, rfl, rfl, List.mem_singleton.mpr rfl⟩

lemma mem_decidedOf : i ∈ decidedOf items ↔
    i ∈ items ∧ (i.state = .accepted ∨ i.state = .redirected) := by
  simp [decidedOf, List.mem_mergeSort]

lemma mem_decidedOf_of_directive (hi : i ∈ items) (hd : engineerDirective i = some d) :
    i ∈ decidedOf items :=
  mem_decidedOf.mpr ⟨hi, (state_of_engineerDirective hd).symm.imp_right And.left⟩

namespace Sound

variable (h : Sound answers items) (hasked : Asked items)

include h hasked

/-- The directive of a row that asks for a repair of its own: unless it is a group redirect, it aims
at its own row. -/
lemma engineerDirective_of_entry (hi : i ∈ items) (hentry : i.entry = some (.own (.fix op))) :
    ∃ d, engineerDirective i = some d ∧ d.op = op ∧ OwnDirective i d ∧
      (d.targets.filter (· ≠ "") = [i.fingerprint].filter (· ≠ "") ∨
        ∃ text playback, i.decision = some (.redirect text d playback .group)) := by
  have hsingle : (if i.fingerprint = "" then [] else [i.fingerprint]).filter (· ≠ "") =
      [i.fingerprint].filter (· ≠ "") := by
    split <;> simp [*]
  have hstate := h.states i hi
  have hwritten := h.written i hi
  cases hdecision : i.decision with
  | none => simp [ReviewItem.entry, hdecision] at hentry
  | some x =>
    specialize hwritten x hdecision
    rw [ReviewItem.entry, hdecision] at hentry
    rw [hdecision] at hstate
    cases x with
    | accept q =>
      cases hentry
      have hproposal : i.proposal = some q := hwritten
      refine ⟨_, engineerDirective_of_accepted hasked hi hstate
        (hasked.proposals i hi q hproposal).1 ?_ ?_, rfl, ⟨rfl, rfl, rfl, rfl, ?_⟩,
          .inl hsingle⟩
      · simp [hproposal]
      · simp [hproposal]
      · simp +contextual
    | allAccept q =>
      cases hentry
      obtain ⟨g, hg, hgroup, hproposal⟩ := hwritten
      refine ⟨_, engineerDirective_of_accepted hasked hi hstate
        (hasked.proposals g hg q hproposal).1 ?_ ?_, rfl, ⟨rfl, rfl, rfl, rfl, ?_⟩,
          .inl hsingle⟩
      · simp [hdecision, Decision.proposal]
      · exact fun q' hq' => (hasked.groups i hi g hg hgroup.symm).2 q' hq' q hproposal
      · simp +contextual
    | redirect text d playback scope =>
      cases hentry
      refine ⟨d, engineerDirective_of_redirected hstate (by simp [hdecision, Decision.directive])
        hwritten.1.source, rfl, hwritten.1, ?_⟩
      cases scope with
      | item => exact .inl (by rw [hwritten.2.1 rfl])
      | group => exact .inr ⟨text, playback, rfl⟩
    | allRedirect on d =>
      cases hentry
      exact ⟨d, engineerDirective_of_redirected hstate (by simp [hdecision, Decision.directive])
        hwritten.1.source, rfl, hwritten.1, .inl (by rw [hwritten.2])⟩
    | _ => simp [Decision.entry] at hentry

omit hasked in
/-- Only a row that asks for a repair of its own has a directive. -/
lemma entry_of_engineerDirective (hi : i ∈ items) (hd : engineerDirective i = some d) :
    ∃ op, i.entry = some (.own (.fix op)) := by
  have hstate := h.states i hi
  have hasks := state_of_engineerDirective hd
  cases hdecision : i.decision with
  | none => simp [hdecision, hstate] at hasks
  | some x =>
    rw [hdecision] at hstate
    cases x <;>
      simp_all [ReviewItem.entry, Decision.entry, Decision.state, Decision.directive]

omit hasked in
/-- A row with a directive of its own is covered by no other. -/
lemma coveredBy_of_directive (hi : i ∈ items) (hd : engineerDirective i = some d) :
    i.coveredBy = none := by
  obtain ⟨op, hentry⟩ := h.entry_of_engineerDirective hi hd
  unfold ReviewItem.entry at hentry
  unfold ReviewItem.coveredBy
  cases hdecision : i.decision with
  | none => rfl
  | some x => cases x <;> simp_all [Decision.entry, Decision.coveredBy]

/-- The row whose directive an answer is: its own, or the one that covers it. -/
theorem answerer (hi : i ∈ items) (hanswer : answers.resolve i.id = some (.fix op)) :
    ∃ j ∈ items, ∃ d, engineerDirective j = some d ∧ d.op = op ∧ d.source = .engineer ∧
      (i = j ∨ i.coveredBy = some j.id) ∧ (i.fingerprint ≠ "" → i.fingerprint ∈ d.targets) := by
  cases hentry : i.entry with
  | none => simp [Ledger.resolve, ← h.agrees i hi, hentry] at hanswer
  | some x =>
    cases x with
    | own wish =>
      obtain rfl : wish = .fix op := by simpa [Ledger.resolve, ← h.agrees i hi, hentry] using hanswer
      obtain ⟨d, hd, hop, hown, -⟩ := h.engineerDirective_of_entry hasked hi hentry
      exact ⟨i, hi, d, hd, hop, hown.source, .inl rfl, hown.target⟩
    | covered j =>
      have hheld : ∃ text playback, i.decision = some (.covered j text playback) := by
        unfold ReviewItem.entry at hentry
        cases hdecision : i.decision with
        | none => simp [hdecision] at hentry
        | some x => cases x <;> simp_all [Decision.entry]
      obtain ⟨text, playback, hdecision⟩ := hheld
      obtain ⟨-, -, k, hk, rfl, -, text', d, playback', hk', htarget⟩ := h.written i hi _ hdecision
      have hkentry : k.entry = some (.own (.fix d.op)) := by
        simp [ReviewItem.entry, hk', Decision.entry]
      have hkstate : k.state = .redirected := by
        rw [h.states k hk, hk']
        rfl
      have hsource := (h.written k hk _ hk').1.source
      refine ⟨k, hk, d, engineerDirective_of_redirected hkstate (by simp [hk', Decision.directive])
        hsource, ?_, hsource, .inr (by simp [ReviewItem.coveredBy, hdecision, Decision.coveredBy]),
        fun _ => htarget⟩
      simpa [Ledger.resolve, ← h.agrees i hi, hentry, ← h.agrees k hk, hkentry] using hanswer

/-- Every answer that asks for a repair is sent. -/
theorem sent (hi : i ∈ items) (hfp : i.fingerprint ≠ "")
    (hanswer : answers.resolve i.id = some (.fix op)) :
    ∃ j ∈ decidedOf items, ∃ e ∈ engineerDirectives j items,
      e.source = .engineer ∧ e.op = op ∧ i.fingerprint ∈ e.targets := by
  obtain ⟨j, hj, d, hd, rfl, hsource, -, htarget⟩ := h.answerer hasked hi hanswer
  obtain ⟨e, he, hsource', hop, htarget⟩ := sent_target items hd hfp (htarget hfp)
  exact ⟨j, mem_decidedOf_of_directive hj hd, e, he, hsource'.trans hsource, hop, htarget⟩

end Sound

/-! ## Two edges of one group -/

/-- A small edge, with the merge that is proposed for it. -/
def edge (id : ItemId) (fingerprint : String) : ReviewItem :=
  ⟨id, "small_edge:fix_small_edges", "small_edge", fingerprint, "",
    some ⟨"fix_small_edges", [fingerprint]⟩, .opened, none, none⟩

def twoEdges : ReviewPark := ⟨none, [], [edge 1 "a", edge 2 "b"]⟩

lemma twoEdges_minted : Minted twoEdges where
  closedBy := rfl
  asked := ⟨by decide, by decide, by decide, by decide⟩
  unanswered := by decide

/-- "All of them", said on one edge. -/
def allOfThem : DecisionIn := ⟨some 1, none, .redirect, some "all of them"⟩

def sewAll : Option ModelReply := some (.directive "sew_faces" .group "i will sew them")

end MeshPipeline.RepairReview
