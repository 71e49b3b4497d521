import MeshPipeline.Fea.AliasNames

/-!
# When the naming ends

The loop that adds underscores ends at once or never, so the names are sound exactly when each that
is tried is free.
-/

namespace MeshPipeline.Fea

variable {d : DeckInput} {s t : Names} {w : Wanted} {ws : List Wanted} {fuel : Nat}
  {reserved : List Str} {raw suffix name : Str}

/-! ## One claim -/

lemma isLabel_tries (d : DeckInput) (reserved : List Str) (raw suffix : Str) :
    IsLabel (d.tries reserved raw suffix) := by
  unfold DeckInput.tries
  dsimp only
  split <;> exact isLabel_deckLabel _

lemma tries_cases (d : DeckInput) (reserved : List Str) (raw suffix : Str) :
    d.tries reserved raw suffix = deckLabel raw ∨
      d.tries reserved raw suffix = deckLabel (deckLabel raw ++ '_' :: suffix) := by
  unfold DeckInput.tries
  grind

theorem claim_of_free (h : lower (d.tries reserved raw suffix) ∉ reserved) :
    d.claim (fuel + 1) reserved raw suffix = some (d.tries reserved raw suffix) :=
  While.run_of_exit (by simpa using h)

/-- A claim that ends has the name it tried first, and that was not taken. -/
theorem eq_of_claim (h : d.claim fuel reserved raw suffix = some name) :
    d.tries reserved raw suffix = name ∧ lower name ∉ reserved := by
  obtain ⟨heq, hexit⟩ :=
    While.eq_of_run (deckLabel_underscore (isLabel_tries d reserved raw suffix)) h
  rw [heq] at hexit
  exact ⟨heq, by simpa using hexit⟩

/-! ## One step -/

/-- What a step does: it gives nothing, or the name that was tried. -/
theorem step_cases (h : d.step fuel s w = some t) :
    w.settled d s = true ∧ t.out = s.out ∧ t.reserved = s.reserved ∨
      w.settled d s = false ∧ lower (d.tries s.reserved w.raw w.suffix) ∉ s.reserved ∧
        t.out = Assoc.set s.out (d.tries s.reserved w.raw w.suffix) (w.faces d) ∧
        t.reserved = lower (d.tries s.reserved w.raw w.suffix) :: s.reserved := by
  cases w with
  | group raw tags =>
    simp only [DeckInput.step] at h
    split at h
    · next hnone =>
      obtain rfl := Option.some.inj h
      exact .inl ⟨by simpa [Wanted.settled] using hnone, rfl, rfl⟩
    · next hsome =>
      obtain ⟨name, hclaim, rfl⟩ := Option.map_eq_some_iff.mp h
      obtain ⟨rfl, hfree⟩ := eq_of_claim hclaim
      exact .inr ⟨by simpa [Wanted.settled] using hsome, hfree, rfl, rfl⟩
  | cad raw members =>
    simp only [DeckInput.step] at h
    split at h
    · next hrepeats =>
      obtain ⟨e, -, rfl⟩ := Option.map_eq_some_iff.mp h
      exact .inl ⟨hrepeats, rfl, rfl⟩
    · next hrepeats =>
      obtain ⟨name, hclaim, rfl⟩ := Option.map_eq_some_iff.mp h
      obtain ⟨rfl, hfree⟩ := eq_of_claim hclaim
      exact .inr ⟨by simpa [Wanted.settled] using hrepeats, hfree, rfl, rfl⟩

/-- One turn of the loop is as good as any number of them. -/
theorem step_one (h : d.step fuel s w = some t) : d.step 1 s w = some t := by
  have hone {raw suffix name : Str} (hclaim : d.claim fuel s.reserved raw suffix = some name) :
      d.claim 1 s.reserved raw suffix = some name := by
    obtain ⟨rfl, hfree⟩ := eq_of_claim hclaim
    exact claim_of_free hfree
  cases w with
  | group raw tags =>
    simp only [DeckInput.step] at h ⊢
    split at h
    · next hnone => rw [if_pos hnone, h]
    · next hsome =>
      obtain ⟨name, hclaim, rfl⟩ := Option.map_eq_some_iff.mp h
      rw [if_neg hsome, hone hclaim]
      rfl
  | cad raw members =>
    simp only [DeckInput.step] at h ⊢
    split at h
    · next hrepeats => rw [if_pos hrepeats, h]
    · next hrepeats =>
      obtain ⟨name, hclaim, rfl⟩ := Option.map_eq_some_iff.mp h
      rw [if_neg hrepeats, hone hclaim]
      rfl

theorem isSome_step_of_room (h : w.HasRoom d s) : (d.step 1 s w).isSome := by
  cases w with
  | group raw tags =>
    simp only [DeckInput.step]
    split
    · rfl
    · next hsome =>
      have hfree := (h (by simpa [Wanted.settled] using hsome)).1
      rw [show d.claim 1 s.reserved raw "group".toList = some _ from claim_of_free hfree]
      rfl
  | cad raw members =>
    simp only [DeckInput.step]
    split
    · next hrepeats =>
      obtain ⟨e, he, hsame⟩ := List.any_eq_true.mp hrepeats
      simp only [Bool.and_eq_true] at hsame
      rw [Option.isSome_map, List.find?_isSome]
      exact ⟨e, he, hsame.1⟩
    · next hrepeats =>
      have hfree := (h (by simpa [Wanted.settled] using hrepeats)).1
      rw [show d.claim 1 s.reserved raw "cad".toList = some _ from claim_of_free hfree]
      rfl

/-! ## The names given so far -/

/-- What the names given so far have kept. -/
structure Kept (d : DeckInput) (s : Names) : Prop where
  deck : ∀ n ∈ d.deckNames, n ∈ s.reserved
  out : ∀ e ∈ s.out, lower e.1 ∈ s.reserved
  distinct : (s.out.map fun e => lower e.1).Nodup
  label : ∀ e ∈ s.out, IsLabel e.1
  apart : ∀ e ∈ s.out, lower e.1 ∉ d.deckNames

lemma kept_start (d : DeckInput) : Kept d (Names.start d) :=
  ⟨fun _ hn => hn, by simp [Names.start], by simp [Names.start], by simp [Names.start],
    by simp [Names.start]⟩

/-- A step adds nothing, or the name that was tried with the faces it is wanted for. -/
theorem out_step (h : Kept d s) (hstep : d.step fuel s w = some t) :
    w.settled d s = true ∧ t.out = s.out ∨ w.settled d s = false ∧
      t.out = s.out ++ [(d.tries s.reserved w.raw w.suffix, w.faces d)] := by
  obtain ⟨hsettled, hout, -⟩ | ⟨hwanted, hfree, hout, -⟩ := step_cases hstep
  · exact .inl ⟨hsettled, hout⟩
  · refine .inr ⟨hwanted, ?_⟩
    rw [hout, Assoc.set_of_fresh]
    intro e he heq
    exact hfree (heq ▸ h.out e he)

theorem kept_step (h : Kept d s) (hstep : d.step fuel s w = some t) : Kept d t := by
  obtain ⟨-, hout, hreserved⟩ | ⟨hwanted, hfree, -, hreserved⟩ := step_cases hstep
  · constructor
    · simpa [hreserved] using h.deck
    · simpa [hreserved, hout] using h.out
    · simpa [hout] using h.distinct
    · simpa [hout] using h.label
    · simpa [hout] using h.apart
  · have hout := ((out_step h hstep).resolve_left (by simp [hwanted])).2
    have hlabel := isLabel_tries d s.reserved w.raw w.suffix
    have hmem : ∀ e ∈ t.out, e ∈ s.out ∨ e = (d.tries s.reserved w.raw w.suffix, w.faces d) := by
      simp [hout]
    constructor
    · intro n hn
      rw [hreserved]
      exact List.mem_cons_of_mem _ (h.deck n hn)
    · intro e he
      rw [hreserved]
      obtain he | rfl := hmem e he
      · exact List.mem_cons_of_mem _ (h.out e he)
      · exact List.mem_cons_self
    · rw [hout, List.map_append]
      refine List.nodup_append'.mpr ⟨h.distinct, List.nodup_singleton _, ?_⟩
      simp only [List.map_cons, List.map_nil, List.disjoint_singleton, List.mem_map, not_exists,
        not_and]
      exact fun e he heq => hfree (heq ▸ h.out e he)
    · intro e he
      obtain he | rfl := hmem e he
      · exact h.label e he
      · exact hlabel
    · intro e he
      obtain he | rfl := hmem e he
      · exact h.apart e he
      · exact fun hdeck => hfree (h.deck _ hdeck)

/-- What a step is asked for is there after it. -/
theorem appears_step (h : Kept d s) (hstep : d.step fuel s w = some t) (hfaces : w.faces d ≠ []) :
    w.Appears d t.out := by
  obtain ⟨hsettled, hout⟩ | ⟨-, hout⟩ := out_step h hstep
  · cases w with
    | group raw tags =>
      have hnone : d.members tags = [] := by simpa [Wanted.settled] using hsettled
      exact absurd hnone hfaces
    | cad raw members =>
      obtain ⟨e, he, hsame⟩ := List.any_eq_true.mp hsettled
      simp only [Bool.and_eq_true, beq_iff_eq, List.isPerm_iff] at hsame
      exact ⟨e, hout ▸ he, .inl hsame.1, hsame.2⟩
  · refine ⟨(d.tries s.reserved w.raw w.suffix, w.faces d), by simp [hout], ?_, .refl _⟩
    obtain heq | heq := tries_cases d s.reserved w.raw w.suffix
    · exact .inl (by rw [heq])
    · exact .inr heq

/-! ## The run -/

lemma exec_cons (h : (d.machine fuel).exec s (w :: ws) = some t) :
    ∃ u, d.step fuel s w = some u ∧ (d.machine fuel).exec u ws = some t :=
  Transition.Machine.exec_cons_eq_some.mp h

theorem exec_one (h : (d.machine fuel).exec s ws = some t) : (d.machine 1).exec s ws = some t := by
  induction ws generalizing s with
  | nil => exact h
  | cons w ws ih =>
    obtain ⟨u, hu, hws⟩ := exec_cons h
    exact Transition.Machine.exec_cons_eq_some.mpr ⟨u, step_one hu, ih hws⟩

theorem kept_exec (h : Kept d s) (hexec : (d.machine fuel).exec s ws = some t) : Kept d t :=
  Transition.Machine.exec_invariant_of_step (I := Kept d) (fun _ _ _ => kept_step) h hexec

/-- No name that was given is taken back. -/
theorem out_exec (h : Kept d s) (hexec : (d.machine fuel).exec s ws = some t) : s.out ⊆ t.out := by
  induction ws generalizing s with
  | nil =>
    obtain rfl : s = t := by simpa using hexec
    exact fun _ he => he
  | cons w ws ih =>
    obtain ⟨u, hu, hws⟩ := exec_cons hexec
    refine List.Subset.trans ?_ (ih (kept_step h hu) hws)
    obtain ⟨-, hout⟩ | ⟨-, hout⟩ := out_step h hu <;> simp [hout]

theorem appears_exec (h : Kept d s) (hexec : (d.machine fuel).exec s ws = some t) :
    ∀ w ∈ ws, w.faces d ≠ [] → w.Appears d t.out := by
  induction ws generalizing s with
  | nil => simp
  | cons w ws ih =>
    obtain ⟨u, hu, hws⟩ := exec_cons hexec
    intro v hv hfaces
    obtain rfl | hv := List.mem_cons.mp hv
    · obtain ⟨e, he, hnamed⟩ := appears_step h hu hfaces
      exact ⟨e, out_exec (kept_step h hu) hws he, hnamed⟩
    · exact ih (kept_step h hu) hws v hv hfaces

/-- Names that are all free are found, and none of them is an element set's. -/
theorem exec_of_room (h : Kept d s) (hsets : ∀ e ∈ s.out, lower e.1 ∉ d.elementSets)
    (hroom : (d.machine 1).Meets (Wanted.HasRoom d · ·) s ws) :
    ∃ t, (d.machine 1).exec s ws = some t ∧ ∀ e ∈ t.out, lower e.1 ∉ d.elementSets := by
  induction ws generalizing s with
  | nil => exact ⟨s, rfl, hsets⟩
  | cons w ws ih =>
    obtain ⟨hfirst, hrest⟩ := hroom
    obtain ⟨u, hu⟩ := Option.isSome_iff_exists.mp (isSome_step_of_room hfirst)
    have husets : ∀ e ∈ u.out, lower e.1 ∉ d.elementSets := by
      obtain ⟨-, hout⟩ | ⟨hwanted, hout⟩ := out_step h hu
      · exact hout ▸ hsets
      · simp only [hout, List.mem_append, List.mem_singleton]
        rintro e (he | rfl)
        · exact hsets e he
        · exact (hfirst hwanted).2
    obtain ⟨t, ht, htsets⟩ := ih (kept_step h hu) husets (hrest u hu)
    exact ⟨t, Transition.Machine.exec_cons_eq_some.mpr ⟨u, hu, ht⟩, htsets⟩

/-- A run that ends found every name free that it tried. -/
theorem room_of_exec (h : Kept d s) (hexec : (d.machine fuel).exec s ws = some t)
    (hsets : ∀ e ∈ t.out, lower e.1 ∉ d.elementSets) :
    (d.machine 1).Meets (Wanted.HasRoom d · ·) s ws := by
  induction ws generalizing s with
  | nil => trivial
  | cons w ws ih =>
    obtain ⟨u, hu, hws⟩ := exec_cons hexec
    refine (Transition.Machine.meets_cons (step_one hu)).mpr ⟨?_, ih (kept_step h hu) hws⟩
    intro hwanted
    obtain ⟨hsettled, -⟩ | ⟨-, hfree, -⟩ := step_cases hu
    · simp [hwanted] at hsettled
    obtain ⟨hsettled, -⟩ | ⟨-, hout⟩ := out_step h hu
    · simp [hwanted] at hsettled
    refine ⟨hfree, hsets (d.tries s.reserved w.raw w.suffix, w.faces d) ?_⟩
    exact out_exec (kept_step h hu) hws (by simp [hout])

/-! ## The names -/

lemma namesSound_of_exec (hexec : (d.machine fuel).exec (Names.start d) d.wanted = some t)
    (hsets : ∀ e ∈ t.out, lower e.1 ∉ d.elementSets) : NamesSound d t.out := by
  have hkept := kept_exec (kept_start d) hexec
  have happears := appears_exec (kept_start d) hexec
  refine ⟨hkept.distinct, hkept.label, fun e he => ⟨hkept.apart e he, hsets e he⟩, ?_, ?_⟩
  · intro g hg hfaces
    exact happears _ (List.mem_append_left _ (List.mem_map_of_mem hg)) hfaces
  · intro raw hfaces
    have hmem : (raw, d.facesNamed raw) ∈ d.byName := Assoc.mem_group hfaces rfl
    exact happears _ (List.mem_append_right _ (List.mem_map_of_mem hmem)) hfaces

/-- The naming ends with sound names exactly when every name that is tried on the way is free. -/
theorem aliasNames_sound_iff (d : DeckInput) :
    (∃ fuel out cadNames, d.aliasNames fuel = some (out, cadNames) ∧ NamesSound d out) ↔
      (d.machine 1).Meets (Wanted.HasRoom d · ·) (Names.start d) d.wanted := by
  constructor
  · rintro ⟨fuel, out, cadNames, hnames, hsound⟩
    obtain ⟨t, hexec, heq⟩ := Option.map_eq_some_iff.mp hnames
    obtain ⟨rfl, -⟩ := Prod.ext_iff.mp heq
    exact room_of_exec (kept_start d) hexec fun e he => (hsound.apart e he).2
  · intro hroom
    obtain ⟨t, hexec, hsets⟩ := exec_of_room (kept_start d) (by simp [Names.start]) hroom
    refine ⟨1, t.out, t.cadNames, ?_, namesSound_of_exec hexec hsets⟩
    rw [DeckInput.aliasNames, hexec]
    rfl

/-- Three groups whose names differ in a last character that no solver accepts. -/
def threeInlets : DeckInput where
  fsets := [⟨1, 1⟩, ⟨2, 2⟩, ⟨3, 3⟩]
  solids := 1
  aliases := [("inlet".toList, [1]), ("inlet ".toList, [2]), ("inlet_".toList, [3])]
  readable := []

/-- The third inlet is named for ever. -/
theorem threeInlets_never_end :
    (∀ fuel, threeInlets.aliasNames fuel = none) ∧
      ¬ ∀ d : DeckInput, ∃ fuel out cadNames,
        d.aliasNames fuel = some (out, cadNames) ∧ NamesSound d out := by
  have hnever : ∀ fuel, threeInlets.aliasNames fuel = none := by
    intro fuel
    rw [DeckInput.aliasNames, Option.map_eq_none_iff, Option.eq_none_iff_forall_ne_some]
    intro t hexec
    have hstuck : (threeInlets.machine 1).exec (Names.start threeInlets) threeInlets.wanted =
        none := by decide +kernel
    rw [exec_one hexec] at hstuck
    cases hstuck
  refine ⟨hnever, fun hall => ?_⟩
  obtain ⟨fuel, out, cadNames, hnames, -⟩ := hall threeInlets
  rw [hnever fuel] at hnames
  cases hnames

end MeshPipeline.Fea
