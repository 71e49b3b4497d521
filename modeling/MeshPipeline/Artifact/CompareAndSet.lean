import MeshPipeline.Artifact.RowWorld

/-!
# The compare-and-set of an artifact row

The committed row is what a versioned register holds after the deliveries made so far, whatever
their order and however the sessions interleave. A delivery that wrote nothing is classified
rightly even when others land before it reads the incumbent: a row that refused it never gives way
to one that would not. A delivery that wrote over a row is always reported as the first.
-/

namespace MeshPipeline

open ArtifactRepository Versioned

namespace ArtifactRow

variable {w v : ArtifactRow} {s s' : Session} {mine row : Artifact} {op : RowOp}

theorem writeOf_eq_some {tx : RowWrite} :
    w.writeOf s = some tx ↔ w.tx = some tx ∧ tx.session = s := by
  simp [writeOf, Option.filter_eq_some_iff]

theorem writeOf_of_free (hfree : w.free s = true) (hne : s' ≠ s) : w.writeOf s' = none := by
  cases htx : w.tx with
  | none => simp [writeOf, htx]
  | some tx =>
    have hs : tx.session = s := by simpa [free, htx] using hfree
    have hno : tx.session ≠ s' := fun h => hne (h.symm.trans hs)
    simp [writeOf, htx, hno]

theorem visible_of_tx {tx : RowWrite} (htx : w.tx = some tx) :
    w.visible s = if tx.session = s then some tx.row else w.committed := by
  by_cases hs : tx.session = s
  · have hw : w.writeOf s = some tx := writeOf_eq_some.mpr ⟨htx, hs⟩
    rw [visible, hw, if_pos hs]
  · have hw : w.writeOf s = none := by simp [writeOf, htx, Option.filter, hs]
    rw [visible, hw, if_neg hs]

/-- The deliveries whose effect `s` sees. -/
def deliveredTo (w : ArtifactRow) (s : Session) : List Artifact :=
  w.delivered ++ (w.writeOf s).elim [] (·.delivered)

/-- The register that the deliveries made in turn leave. -/
def registered (deliveries : List Artifact) : Option (Stamp (ℕ ×ₗ ℕ) (Option String)) :=
  (deliveries.map Artifact.stamp).foldl write none

theorem registered_append (ds : List Artifact) (mine : Artifact) :
    registered (ds ++ [mine]) = write (registered ds) mine.stamp := by
  simp [registered]

theorem grows_registered (ds es : List Artifact) :
    Grows (registered ds) (registered (ds ++ es)) := by
  rw [registered, registered, List.map_append, List.foldl_append]
  exact grows_foldl _ _

theorem version_registered (ds : List Artifact) :
    version (registered ds) = (ds.map Artifact.currency).maximum := by
  rw [registered, version_foldl, List.map_map]
  rfl

/-- The row is the register of its deliveries, committed or in the open transaction, and a delivery
that wrote nothing sees a row that refuses it. -/
structure Faithful (w : ArtifactRow) : Prop where
  committed : w.committed.map Artifact.stamp = registered w.delivered
  tx : ∀ tx, w.tx = some tx → some tx.row.stamp = registered (w.delivered ++ tx.delivered)
  blocked : ∀ s mine, (s, mine) ∈ w.blocked →
    ∃ row, w.visible s = some row ∧ ¬ Advances row.stamp mine.stamp

theorem faithful_empty : Faithful empty :=
  ⟨rfl, by simp [empty], by simp [empty]⟩

theorem Faithful.visible (h : Faithful w) (s : Session) :
    (w.visible s).map Artifact.stamp = registered (w.deliveredTo s) := by
  unfold ArtifactRow.visible deliveredTo
  cases hw : w.writeOf s with
  | none => simpa using h.committed
  | some tx => exact h.tx tx (writeOf_eq_some.mp hw).1

theorem ne_of_not_isBlocked (h : ¬ w.isBlocked s = true) (hmem : (s', mine) ∈ w.blocked) :
    s' ≠ s := by
  rintro rfl
  exact h (List.any_eq_true.mpr ⟨_, hmem, by simp⟩)

theorem faithful_written (h : Faithful w) (hfree : w.free s = true) (hb : ¬ w.isBlocked s = true)
    (hrow : upsert (w.visible s) mine = some row) : Faithful (w.written s row mine) where
  committed := h.committed
  tx := by
    rintro _ ⟨⟩
    have hstamp := stamp_upsert (w.visible s) mine
    rw [hrow, h.visible] at hstamp
    have hassoc : w.delivered ++ ((w.writeOf s).elim [] (·.delivered) ++ [mine]) =
        w.deliveredTo s ++ [mine] := by
      rw [deliveredTo, List.append_assoc]
    rw [show (w.written s row mine).delivered = w.delivered from rfl, hassoc, registered_append]
    exact hstamp
  blocked := by
    intro s' mine' hmem
    have hne : s' ≠ s := ne_of_not_isBlocked hb hmem
    obtain ⟨row', hvis, hno⟩ := h.blocked s' mine' hmem
    refine ⟨row', ?_, hno⟩
    have hbefore := writeOf_of_free hfree hne
    have hafter : (w.written s row mine).writeOf s' = none := by
      simp [writeOf, written, Ne.symm hne]
    rw [ArtifactRow.visible, hbefore] at hvis
    rw [ArtifactRow.visible, hafter]
    exact hvis

theorem visible_refused (w : ArtifactRow) (s s' : Session) (mine : Artifact) :
    (w.refused s mine).visible s' = w.visible s' := by
  unfold refused
  cases hw : w.writeOf s with
  | none => rfl
  | some tx =>
    obtain ⟨htx, rfl⟩ := writeOf_eq_some.mp hw
    rw [visible_of_tx htx, visible_of_tx rfl]

theorem blocked_refused (w : ArtifactRow) (s : Session) (mine : Artifact) :
    (w.refused s mine).blocked = w.blocked ++ [(s, mine)] := by
  unfold refused
  cases w.writeOf s <;> rfl

theorem faithful_refused (h : Faithful w) (hfree : w.free s = true)
    (hrow : upsert (w.visible s) mine = none) : Faithful (w.refused s mine) := by
  have hstamp := stamp_upsert (w.visible s) mine
  rw [hrow, Option.none_or, h.visible, ← registered_append] at hstamp
  have hblocked : ∀ s' mine', (s', mine') ∈ (w.refused s mine).blocked →
      ∃ row, (w.refused s mine).visible s' = some row ∧ ¬ Advances row.stamp mine'.stamp := by
    intro s' mine' hmem
    rw [blocked_refused, List.mem_append, List.mem_singleton] at hmem
    rw [visible_refused]
    obtain hmem | heq := hmem
    · exact h.blocked s' mine' hmem
    · cases heq
      exact upsert_eq_none hrow
  cases hw : w.writeOf s with
  | none =>
    have htx : w.tx = none := by
      cases htx : w.tx with
      | none => rfl
      | some tx =>
        have hs : tx.session = s := by simpa [free, htx] using hfree
        exact absurd (writeOf_eq_some.mpr ⟨htx, hs⟩) (by simp [hw])
    refine ⟨?_, ?_, hblocked⟩
    · simpa [refused, hw, deliveredTo] using
        h.committed.trans (by simpa [deliveredTo, hw] using hstamp)
    · simp [refused, hw, htx]
  | some tx =>
    obtain ⟨htx, rfl⟩ := writeOf_eq_some.mp hw
    refine ⟨?_, ?_, hblocked⟩
    · simpa [refused, hw] using h.committed
    · intro tx' htx'
      obtain rfl : { tx with delivered := tx.delivered ++ [mine] } = tx' := by
        simpa [refused, hw] using htx'
      have := (h.tx tx htx).trans (by simpa [deliveredTo, hw] using hstamp)
      simpa [refused, hw] using this

/-- What the open transaction wrote moves the committed row on. -/
theorem Faithful.grows (h : Faithful w) {tx : RowWrite} (htx : w.tx = some tx) :
    Grows (w.committed.map Artifact.stamp) (some tx.row.stamp) := by
  rw [h.committed, h.tx tx htx]
  exact grows_registered _ _

theorem faithful_commit (h : Faithful w) (hb : ¬ w.isBlocked s = true) :
    Faithful (w.commit s) := by
  unfold commit
  cases hw : w.writeOf s with
  | none => exact h
  | some tx =>
    obtain ⟨htx, rfl⟩ := writeOf_eq_some.mp hw
    refine ⟨h.tx tx htx, by simp, ?_⟩
    intro s' mine' hmem
    have hne : s' ≠ tx.session := ne_of_not_isBlocked hb hmem
    obtain ⟨row', hvis, hno⟩ := h.blocked s' mine' hmem
    rw [visible_of_tx htx, if_neg hne.symm] at hvis
    obtain ⟨b, hb', hadv⟩ := h.grows htx row'.stamp (by simp [hvis])
    obtain rfl : tx.row.stamp = b := by simpa using hb'
    exact ⟨tx.row, rfl, hadv.refuses hno⟩

theorem faithful_rollback (h : Faithful w) (hb : ¬ w.isBlocked s = true) :
    Faithful (w.rollback s) := by
  unfold rollback
  cases hw : w.writeOf s with
  | none => simpa using h
  | some tx =>
    obtain ⟨htx, rfl⟩ := writeOf_eq_some.mp hw
    refine ⟨h.committed, by simp, ?_⟩
    intro s' mine' hmem
    have hne : s' ≠ tx.session := ne_of_not_isBlocked hb hmem
    obtain ⟨row', hvis, hno⟩ := h.blocked s' mine' hmem
    rw [visible_of_tx htx, if_neg hne.symm] at hvis
    exact ⟨row', hvis, hno⟩

/-- Everything a step can do, with what its guard lets through. -/
theorem step_cases (h : w.step op = some v) :
    (∃ s mine row, op = .upsert s mine ∧ w.free s ∧ ¬ w.isBlocked s ∧
      upsert (w.visible s) mine = some row ∧ v = w.written s row mine) ∨
    (∃ s mine, op = .upsert s mine ∧ w.free s ∧ ¬ w.isBlocked s ∧
      upsert (w.visible s) mine = none ∧ v = w.refused s mine) ∨
    (∃ s, op = .classify s ∧ v = { w with blocked := w.blocked.filter (·.1 != s) }) ∨
    (∃ s, op = .commit s ∧ ¬ w.isBlocked s ∧ v = w.commit s) ∨
    (∃ s, op = .rollback s ∧ ¬ w.isBlocked s ∧ v = w.rollback s) := by
  cases op with
  | upsert s mine =>
    simp only [step] at h
    split at h
    · next hguard =>
      cases hrow : upsert (w.visible s) mine with
      | some row =>
        refine .inl ⟨s, mine, row, rfl, hguard.1, hguard.2, hrow, ?_⟩
        simpa [hrow] using h.symm
      | none =>
        refine .inr (.inl ⟨s, mine, rfl, hguard.1, hguard.2, hrow, ?_⟩)
        simpa [hrow] using h.symm
    · cases h
  | classify s =>
    simp only [step, Option.ite_none_right_eq_some, Option.some.injEq] at h
    exact .inr (.inr (.inl ⟨s, rfl, h.2.symm⟩))
  | commit s =>
    simp only [step, Option.ite_none_left_eq_some, Option.some.injEq] at h
    exact .inr (.inr (.inr (.inl ⟨s, rfl, h.1, h.2.symm⟩)))
  | rollback s =>
    simp only [step, Option.ite_none_left_eq_some, Option.some.injEq] at h
    exact .inr (.inr (.inr (.inr ⟨s, rfl, h.1, h.2.symm⟩)))

theorem faithful_step (h : Faithful w) (hstep : machine.step w op = some v) : Faithful v := by
  obtain ⟨s, mine, row, -, hfree, hb, hrow, rfl⟩ | ⟨s, mine, -, hfree, -, hrow, rfl⟩ |
    ⟨s, -, rfl⟩ | ⟨s, -, hb, rfl⟩ | ⟨s, -, hb, rfl⟩ := step_cases hstep
  · exact faithful_written h hfree hb hrow
  · exact faithful_refused h hfree hrow
  · exact ⟨h.committed, h.tx, fun s' mine' hmem =>
      h.blocked s' mine' (List.mem_of_mem_filter hmem)⟩
  · exact faithful_commit h hb
  · exact faithful_rollback h hb

/-! ## What is committed moves on -/

theorem grows_step (h : Faithful w) (hstep : machine.step w op = some v) :
    Grows (w.committed.map Artifact.stamp) (v.committed.map Artifact.stamp) := by
  obtain ⟨s, mine, row, -, -, -, -, rfl⟩ | ⟨s, mine, -, -, -, -, rfl⟩ | ⟨s, -, rfl⟩ |
    ⟨s, -, -, rfl⟩ | ⟨s, -, -, rfl⟩ := step_cases hstep
  · exact .refl _
  · rw [show (w.refused s mine).committed = w.committed by
      unfold refused
      cases w.writeOf s <;> rfl]
    exact .refl _
  · exact .refl _
  · unfold commit
    cases hw : w.writeOf s with
    | none => exact .refl _
    | some tx => exact h.grows (writeOf_eq_some.mp hw).1
  · rw [show (w.rollback s).committed = w.committed by
      unfold rollback
      split <;> rfl]
    exact .refl _

/-! ## What is answered -/

theorem dictated_of_refused (h : ¬ Advances row.stamp mine.stamp) :
    ArtifactRepository.classify (some row) mine = dictated (some row) mine := by
  have hlt : ¬ row.currency < mine.currency := fun hlt => h (.inl hlt)
  have hdiff : row.currency = mine.currency → row.checksum ≠ mine.checksum :=
    fun hcur hsum => h (.inr (Artifact.stamp_eq_iff.mpr ⟨hcur, hsum⟩))
  by_cases hgt : mine.currency < row.currency
  · simp [ArtifactRepository.classify, dictated, hgt, hlt]
  · have hcur : row.currency = mine.currency := le_antisymm (not_lt.mp hgt) (not_lt.mp hlt)
    simp [ArtifactRepository.classify, dictated, hcur, hdiff hcur]

theorem dictated_of_advances (h : Advances row.stamp mine.stamp) :
    dictated (some row) mine ≠ .created := by
  obtain hlt | heq := h
  · have hlt' : row.currency < mine.currency := hlt
    simp [dictated, hlt']
  · obtain ⟨hcur, hsum⟩ := Artifact.stamp_eq_iff.mp heq
    simp [dictated, hcur, hsum]

theorem mem_blocked_of_waiting (h : w.waiting s = some mine) : (s, mine) ∈ w.blocked := by
  obtain ⟨⟨s', mine'⟩, hfind, rfl⟩ := Option.map_eq_some_iff.mp h
  obtain rfl : s' = s := by simpa using List.find?_some hfind
  exact List.mem_of_find?_eq_some hfind

theorem rightlyReported_upsert :
    RightlyReported w (.upsert s mine) ↔ FindsNoOlder w (.upsert s mine) := by
  constructor
  · rintro h _ _ row ⟨⟩ hvis hgives
    have hup : upsert (w.visible s) mine = some mine := by rw [hvis, upsert_some, if_pos hgives]
    have hsaid := h (w.visible s) mine (returned mine mine) (by simp [answer, hup])
    rw [returned_of_written hup, hvis] at hsaid
    exact dictated_of_advances (givesWay_iff.mp hgives) hsaid.symm
  · rintro h row? mine' outcome hanswer
    obtain ⟨row, hup, heq⟩ := Option.map_eq_some_iff.mp hanswer
    obtain ⟨rfl, rfl, rfl⟩ : w.visible s = row? ∧ mine = mine' ∧ returned row mine = outcome := by
      simpa using heq
    rw [returned_of_written hup]
    cases hvis : w.visible s with
    | none => rfl
    | some current =>
      rw [hvis, upsert_some, if_neg (h s mine current rfl hvis)] at hup
      cases hup

theorem rightlyReported_classify (h : Faithful w) : RightlyReported w (.classify s) := by
  intro row? mine outcome hanswer
  obtain ⟨mine', hwait, heq⟩ := Option.map_eq_some_iff.mp hanswer
  obtain ⟨rfl, rfl, rfl⟩ : w.visible s = row? ∧ mine' = mine ∧
      ArtifactRepository.classify (w.visible s) mine' = outcome := by simpa using heq
  obtain ⟨row, hvis, hno⟩ := h.blocked s mine' (mem_blocked_of_waiting hwait)
  rw [hvis]
  exact dictated_of_refused hno

theorem rightlyReported_iff (h : Faithful w) : RightlyReported w op ↔ FindsNoOlder w op := by
  cases op with
  | upsert s mine => exact rightlyReported_upsert
  | classify s => exact iff_of_true (rightlyReported_classify h) (by rintro _ _ _ ⟨⟩)
  | commit s => exact iff_of_true (by rintro _ _ _ ⟨⟩) (by rintro _ _ _ ⟨⟩)
  | rollback s => exact iff_of_true (by rintro _ _ _ ⟨⟩) (by rintro _ _ _ ⟨⟩)

/-! ## Every run -/

/-- The row of `w` is still there in `v`, or one of a later currency; under one currency the
checksum never changes. -/
def MovesOn (w v : ArtifactRow) : Prop :=
  ∀ row, w.committed = some row → ∃ row', v.committed = some row' ∧
    row.currency ≤ row'.currency ∧ (row.currency = row'.currency → row.checksum = row'.checksum)

theorem movesOn_of_grows
    (h : Grows (w.committed.map Artifact.stamp) (v.committed.map Artifact.stamp)) :
    MovesOn w v := by
  intro row hrow
  obtain ⟨b, hb, hadv⟩ := h row.stamp (by simp [hrow])
  obtain ⟨row', hrow', rfl⟩ := Option.map_eq_some_iff.mp hb
  exact ⟨row', hrow', hadv.version_le, hadv.digest_eq⟩

/-- In every run the committed row has the greatest currency delivered so far and only moves on,
and the answers are the ones called for exactly while no delivery writes over a row. -/
theorem artifact_compare_and_set {ops : List RowOp} (h : machine.exec empty ops = some w) :
    (w.committed.map Artifact.currency : WithBot (ℕ ×ₗ ℕ)) =
        (w.delivered.map Artifact.currency).maximum ∧
      (∀ more v, machine.exec w more = some v → MovesOn w v) ∧
      (machine.Meets RightlyReported empty ops ↔ machine.Meets FindsNoOlder empty ops) := by
  have hfaith : Faithful w :=
    Transition.Machine.exec_invariant_of_step (fun _ _ _ => faithful_step) faithful_empty h
  refine ⟨?_, ?_, ?_, ?_⟩
  · rw [← version_registered, ← hfaith.committed, version, Option.map_map]
    rfl
  · intro more v hmore
    apply movesOn_of_grows
    exact Transition.Machine.exec_relates (I := Faithful) (P := fun _ _ => True)
      (R := fun w v => Grows (w.committed.map Artifact.stamp) (v.committed.map Artifact.stamp))
      (fun _ => .refl _) (fun hab hbc => hab.trans hbc) (fun _ _ _ h _ => faithful_step h)
      (fun _ _ _ h _ => grows_step h) hfaith (Transition.Machine.meets_of_forall fun _ _ => trivial)
      hmore
  · exact Transition.Machine.meets_of_invariant (fun _ _ _ h _ => faithful_step h)
      (fun _ _ h => (rightlyReported_iff h).mp) faithful_empty
  · exact Transition.Machine.meets_of_invariant (fun _ _ _ h _ => faithful_step h)
      (fun _ _ h => (rightlyReported_iff h).mpr) faithful_empty

/-- A mesh bundle as one attempt of the first generation delivers it. -/
def bundle (attempt : Nat) (checksum : String) : Artifact :=
  ⟨.meshBundle, "jobs/7/bundle.tar.gz", 512, some checksum, attempt, 0⟩

/-- The row of one attempt, contested by the same attempt and by an earlier one. -/
def contested : List RowOp :=
  [.upsert 0 (bundle 1 "a"), .commit 0, .upsert 1 (bundle 1 "b"), .classify 1,
    .upsert 2 (bundle 0 "a"), .classify 2]

theorem artifact_compare_and_set_contested :
    ∃ w, machine.exec empty contested = some w ∧
      (w.committed.map Artifact.currency : WithBot (ℕ ×ₗ ℕ)) =
        (w.delivered.map Artifact.currency).maximum ∧
      (∀ more v, machine.exec w more = some v → MovesOn w v) ∧
      (machine.Meets RightlyReported empty contested ↔
        machine.Meets FindsNoOlder empty contested) :=
  ⟨_, rfl, artifact_compare_and_set rfl⟩

/-- A later attempt replaces the row of an earlier one, and is told that it created it. -/
theorem artifact_update_reported_created :
    ¬ machine.Meets RightlyReported empty
      [.upsert 0 (bundle 0 "a"), .commit 0, .upsert 1 (bundle 1 "b")] := by
  intro h
  have hsaid := ((h.2 _ rfl).2 _ rfl).1 _ _ _ rfl
  exact absurd hsaid (by decide)

end ArtifactRow

end MeshPipeline
