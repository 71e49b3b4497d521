import MeshPipeline.Boundary.SettledNames

/-!
# Settled names, settled again

Names that are mesh-safe, free and apart are all kept by a second naming, unless it finds a ground
that the first one did not: a wall that is called the ground only once its name is cleaned.
-/

namespace MeshPipeline.Boundary

variable {labels labels' : List (Option Label)} {ground : Option GroundRule} {i j : Nat}
  {l m : Label}

/-! ## Ground words -/

theorem isGroundWord_congr {s t : Str} (h : Text.casefold s = Text.casefold t) :
    isGroundWord s = isGroundWord t := by
  unfold isGroundWord word
  rw [h]

theorem keptAsTyped_meshSafe (hk : keptAsTyped labels ground i l = true) :
    meshSafe l.typed = l.typed :=
  meshSafe_of_isMeshSafe (keptAsTyped_iff.mp hk).2.1

/-- A ground word that comes from a `case_name` is the cleaned spelling itself. -/
theorem eq_meshSafe_of_ground {base name : Str} (hname : name = caseName base)
    (hground : isGroundWord name = true) : name = meshSafe base := by
  unfold caseName unreserved at hname
  split at hname
  · rw [hname, isGroundWord_patch] at hground
    cases hground
  · exact hname

theorem caseName_of_ground {base : Str} (hground : isGroundWord (meshSafe base) = true) :
    caseName base = meshSafe base := by
  have hfree := isReserved_of_isGroundWord (isMeshSafe_iff.mp (isMeshSafe_meshSafe base)).1 hground
  simp [caseName, unreserved, hfree]

variable (labels ground) in
/-- The naming finds a ground and gives it its one name. -/
def FindsGround : Prop :=
  groundTyped labels ground = false ∧
    ∃ i l, labelAt labels i = some l ∧ isRepeat labels i l = false ∧ l.isGround = true

/-- Where no ground is found, a patch keeps its name exactly when it is typed correctly. -/
theorem keptAsTyped_of_not_finds (h : ¬ FindsGround labels ground)
    (hl : labelAt labels i = some l) (hfirst : isRepeat labels i l = false) :
    keptAsTyped labels ground i l = true ↔
      isMeshSafe l.typed = true ∧ isReserved l.typed = false := by
  rw [keptAsTyped_iff]
  constructor
  · exact fun hk => ⟨hk.2.1, hk.2.2.1⟩
  · rintro ⟨hsafe, hfree⟩
    exact ⟨hfirst, hsafe, hfree, fun hground => h ⟨hground.2.1, i, l, hl, hfirst, hground.2.2⟩⟩

/-- The naming without a ground: a name that is no kept one comes from its `case_name`. -/
theorem origin_of_not_finds (hshort : labels.length < 2 ^ 63) (h : ¬ FindsGround labels ground)
    (hl : labelAt labels i = some l) (hfirst : isRepeat labels i l = false)
    (hk : keptAsTyped labels ground i l = false) {name : Str}
    (hname : (cleanedNames labels ground).final i = some name) :
    ComesFrom labels ground (cleanedNames labels ground) i (caseName l.typed) name := by
  obtain ⟨g, -, hfree, hground, -⟩ | hfrom := (cleaned_all hshort).origin i l name hl hk hname
  · exact absurd ⟨hfree, i, l, hl, hfirst, hground⟩ h
  · exact hfrom

/-- Of the patches with a name of their own, one with a ground word has it from its cleaned
spelling. -/
theorem eq_meshSafe_of_own (hshort : labels.length < 2 ^ 63) (h : ¬ FindsGround labels ground)
    (hl : labelAt labels i = some l) (hfirst : isRepeat labels i l = false) {name : Str}
    (hname : (cleanedNames labels ground).final i = some name)
    (hground : isGroundWord name = true) : name = meshSafe l.typed := by
  by_cases hk : keptAsTyped labels ground i l = true
  · rw [keptAsTyped_meshSafe hk]
    exact Option.some.inj (hname.symm.trans ((cleaned_all hshort).kept i l hl hk))
  · obtain heq | ⟨⟨k, rfl⟩, -⟩ :=
      origin_of_not_finds hshort h hl hfirst (by simpa using hk) hname
    · exact eq_meshSafe_of_ground heq hground
    · rw [isGroundWord_suffixed] at hground
      cases hground

/-! ## What a second naming reads -/

variable (labels ground labels') in
/-- The labels of the patches once they have their names. -/
structure Renamed : Prop where
  length : labels'.length = labels.length
  unnamed : ∀ i, labelAt labels i = none → labelAt labels' i = none
  named : ∀ i l, labelAt labels i = some l → ∃ l', labelAt labels' i = some l' ∧
    (settleNames labels ground).final i = some l'.typed ∧
      l'.isGround = (l.wall && isGroundWord l'.typed)

theorem Renamed.label (h : Renamed labels labels' ground) {l' : Label}
    (hl' : labelAt labels' i = some l') : ∃ l, labelAt labels i = some l ∧
      (settleNames labels ground).final i = some l'.typed ∧
        l'.isGround = (l.wall && isGroundWord l'.typed) := by
  cases hl : labelAt labels i with
  | none => simp [h.unnamed i hl] at hl'
  | some l =>
    obtain ⟨m, hm, hrest⟩ := h.named i l hl
    obtain rfl : l' = m := Option.some.inj (hl'.symm.trans hm)
    exact ⟨l, rfl, hrest⟩

/-- Spellings are repeated after the naming where they were before. -/
theorem Renamed.isRepeat_eq (h : Renamed labels labels' ground) (hshort : labels.length < 2 ^ 63)
    {l' : Label} (hl : labelAt labels i = some l) (hl' : labelAt labels' i = some l') :
    firstOf labels' l'.key = firstOf labels l.key := by
  have hname : (settleNames labels ground).final i = some l'.typed := by
    obtain ⟨m, hm, hfinal, -⟩ := h.label hl'
    exact hfinal
  have hsame {k : Nat} {x x' : Label} (hx : labelAt labels k = some x)
      (hx' : labelAt labels' k = some x') : x'.key = l'.key ↔ x.key = l.key := by
    obtain ⟨m, hm, hfinal, -⟩ := h.label hx'
    exact casefold_final_iff hshort hx hl hfinal hname
  obtain ⟨-, x, hx, hxkey⟩ := labelAt_firstOf hl
  obtain ⟨-, y', hy', hykey⟩ := labelAt_firstOf hl'
  obtain ⟨x', hx', -⟩ := h.named _ x hx
  obtain ⟨y, hy, -⟩ := h.label hy'
  have hx'key := (hsame hx hx').mpr hxkey
  have hykey' := (hsame hy hy').mp hykey
  have hle : firstOf labels' l'.key ≤ firstOf labels l.key := by
    rw [← hx'key]
    exact (labelAt_firstOf hx').1
  have hge : firstOf labels l.key ≤ firstOf labels' l'.key := by
    rw [← hykey']
    exact (labelAt_firstOf hy).1
  exact Nat.le_antisymm hle hge

theorem Renamed.first_iff (h : Renamed labels labels' ground) (hshort : labels.length < 2 ^ 63)
    {l' : Label} (hl : labelAt labels i = some l) (hl' : labelAt labels' i = some l') :
    isRepeat labels' i l' = isRepeat labels i l := by
  unfold isRepeat
  rw [h.isRepeat_eq hshort hl hl']

/-- Labels whose names need nothing. -/
def Correct (labels : List (Option Label)) : Prop :=
  ∀ i l, labelAt labels i = some l → isMeshSafe l.typed = true ∧ isReserved l.typed = false

theorem Renamed.correct (h : Renamed labels labels' ground) (hshort : labels.length < 2 ^ 63) :
    Correct labels' := by
  intro i l' hl'
  obtain ⟨l, hl, hfinal, -⟩ := h.label hl'
  obtain ⟨name, hname, hsafe, hfree, -⟩ := final_spec hshort hl
  obtain rfl : l'.typed = name := Option.some.inj (hfinal.symm.trans hname)
  exact ⟨hsafe, hfree⟩

/-- Correct names are all kept where no ground is found. -/
theorem final_of_correct (hshort : labels.length < 2 ^ 63) (hcorrect : Correct labels)
    (hno : ground.isSome = true → ¬ FindsGround labels ground) (hl : labelAt labels i = some l) :
    (settleNames labels ground).final i = some l.typed := by
  have hkept {k : Nat} {x : Label} (hx : labelAt labels k = some x)
      (hfirst : isRepeat labels k x = false) : keptAsTyped labels ground k x = true := by
    obtain ⟨hsafe, hfree⟩ := hcorrect k x hx
    refine keptAsTyped_iff.mpr ⟨hfirst, hsafe, hfree, fun hground => ?_⟩
    exact hno hground.1 ⟨hground.2.1, k, x, hx, hfirst, hground.2.2⟩
  by_cases hrepeat : isRepeat labels i l = true
  · obtain ⟨-, x, hx, hkey⟩ := labelAt_firstOf hl
    have hfirst := final_kept hshort hx (hkept hx (not_repeat_firstOf hkey))
    have hname : firstName labels ground l = x.typed := by
      have hgiven := @final_first labels ground _ _ hshort hx (not_repeat_firstOf hkey)
      have hsame : firstName labels ground x = firstName labels ground l := by
        rw [firstName, firstName, hkey]
      rw [← hsame]
      exact Option.some.inj (hgiven.symm.trans hfirst)
    obtain ⟨hsafe, hfree⟩ := hcorrect i l hl
    have hcase : caseName l.typed = l.typed := by
      simp [caseName, unreserved, meshSafe_of_isMeshSafe hsafe, hfree]
    rw [(repeated_all hshort).repeated i l (lt_length_of_labelAt hl) hl hrepeat, repeatName, hx,
      hname, hcase]
    by_cases htyped : x.typed = l.typed
    · simp [htyped]
    · have hfold : Text.casefold l.typed = Text.casefold x.typed := hkey.symm
      simp [htyped, hfold]
  · exact final_kept hshort hl (hkept hl (by simpa using hrepeat))

/-- A ground that is found takes the ground's name, in some capitals, or another patch has it. -/
theorem named_of_finds (hshort : labels.length < 2 ^ 63) {g : GroundRule}
    (h : FindsGround labels (some g)) :
    ∃ i l name, labelAt labels i = some l ∧ isRepeat labels i l = false ∧
      (cleanedNames labels (some g)).final i = some name ∧
        Text.casefold name = Text.casefold g.name := by
  obtain ⟨hfree, i, l, hl, hfirst, hground⟩ := h
  have hcleaned := @cleaned_all labels (some g) hshort
  have htaken := hcleaned.floor.mpr
    (.inr ⟨rfl, i, l, lt_length_of_labelAt hl, hl, hfirst, hground⟩)
  obtain ⟨j, name, hname, hkey⟩ := (hcleaned.taken _).mp (hcleaned.named g rfl hfree htaken)
  obtain ⟨m, hm, hfirst', -⟩ := (hcleaned.some_iff j).mp (by rw [hname]; rfl)
  exact ⟨j, m, name, hm, hfirst', hname, hkey⟩

/-- A second naming keeps every name exactly when it finds no ground. -/
theorem kept_iff_not_finds (hshort : labels.length < 2 ^ 63) (hcorrect : Correct labels) :
    (∀ i l, labelAt labels i = some l →
        (settleNames labels ground).final i = some l.typed) ↔
      ∀ g ∈ ground, ¬ FindsGround labels (some g) := by
  constructor
  · rintro hall g rfl hfinds
    obtain ⟨i, l, name, hl, hfirst, hname, hkey⟩ := named_of_finds hshort hfinds
    have hfinal := (@repeated_all labels (some g) hshort).own i l hl hfirst
    rw [hname, hall i l hl] at hfinal
    obtain rfl : l.typed = name := Option.some.inj hfinal
    -- the patch that has the ground's name now was typed with it, so no ground was missing
    have htyped : groundTyped labels (some g) = true := by
      simp only [groundTyped, Option.any_some, List.any_eq_true]
      exact ⟨some l, List.mem_of_getElem? (getElem?_of_labelAt hl), by simp [Label.key, hkey]⟩
    exact absurd (hfinds.1.symm.trans htyped) (by decide)
  · intro hno i l hl
    refine final_of_correct hshort hcorrect (fun hsome => ?_) hl
    obtain ⟨g, rfl⟩ := Option.isSome_iff_exists.mp hsome
    exact hno g rfl

/-! ## Where a second naming finds a ground -/

/-- The cleaned spelling, in any capitals. -/
def Label.cleaned (l : Label) : Str := Text.casefold (meshSafe l.typed)

/-- The name is typed correctly. -/
def Label.correct (l : Label) : Prop := isMeshSafe l.typed = true ∧ isReserved l.typed = false

variable (labels) in
/-- The patch is the first of its spelling. -/
def First (i : Nat) (l : Label) : Prop := labelAt labels i = some l ∧ isRepeat labels i l = false

variable (labels) in
/-- Another patch has the cleaned spelling of this one: it is typed correctly or comes before, and
this one is not typed correctly. -/
def YieldsTo (i : Nat) (l : Label) : Prop :=
  ¬ l.correct ∧ ∃ j m, j ≠ i ∧ First labels j m ∧ m.cleaned = l.cleaned ∧ (m.correct ∨ j < i)

variable (labels) in
/-- The ground, if there is one, is found at once: a ground is typed, or a patch cleans to the
ground's own name, or no wall gets a ground word for its name. -/
def FloorSettled (g : GroundRule) : Prop :=
  FindsGround labels (some g) ∨ (∃ i l, First labels i l ∧ l.cleaned = Text.casefold g.name) ∨
    ∀ i l, First labels i l → l.wall = true → isGroundWord (meshSafe l.typed) = true →
      YieldsTo labels i l

section

variable {g : GroundRule} {name : Str}

theorem Renamed.groundTyped_iff (h : Renamed labels labels' (some g)) :
    groundTyped labels' (some g) = true ↔
      ∃ i l name, labelAt labels i = some l ∧ (settleNames labels (some g)).final i = some name ∧
        Text.casefold name = Text.casefold g.name := by
  simp only [groundTyped, Option.any_some, List.any_eq_true]
  constructor
  · rintro ⟨entry, hentry, hkey⟩
    obtain ⟨i, hi, hget⟩ := List.getElem_of_mem hentry
    obtain ⟨l', hl', hkey'⟩ : ∃ l', entry = some l' ∧ (l'.key == Text.casefold g.name) = true := by
      simpa only [Option.any_eq_true] using hkey
    have hat : labelAt labels' i = some l' := by
      rw [labelAt, List.getElem?_eq_getElem hi, hget, hl']
      rfl
    obtain ⟨l, hl, hfinal, -⟩ := h.label hat
    exact ⟨i, l, l'.typed, hl, hfinal, by simpa [Label.key] using hkey'⟩
  · rintro ⟨i, l, name, hl, hfinal, hkey⟩
    obtain ⟨l', hl', hfinal', -⟩ := h.named i l hl
    obtain rfl : name = l'.typed := Option.some.inj (hfinal.symm.trans hfinal')
    refine ⟨some l', List.mem_of_getElem? (getElem?_of_labelAt hl'), ?_⟩
    simp [Label.key, hkey]

/-- The first patches have the names that the second pass gave them. -/
theorem First.final (hshort : labels.length < 2 ^ 63) (h : First labels i l) :
    ∃ name, (cleanedNames labels ground).final i = some name ∧
      (settleNames labels ground).final i = some name := by
  have hsome := ((@cleaned_all labels ground hshort).some_iff i).mpr
    ⟨l, h.1, h.2, .inr (lt_length_of_labelAt h.1)⟩
  obtain ⟨name, hname⟩ := Option.isSome_iff_exists.mp hsome
  exact ⟨name, hname, ((repeated_all hshort).own i l h.1 h.2).trans hname⟩

/-- Some patch is called as the ground is exactly when some patch cleans to it, where no ground is
found. -/
theorem called_ground_iff (hshort : labels.length < 2 ^ 63)
    (hno : ¬ FindsGround labels (some g)) :
    (∃ i l name, labelAt labels i = some l ∧ (settleNames labels (some g)).final i = some name ∧
        Text.casefold name = Text.casefold g.name) ↔
      ∃ i l, First labels i l ∧ l.cleaned = Text.casefold g.name := by
  constructor
  · rintro ⟨i, l, name, hl, hname, hkey⟩
    obtain ⟨-, m, hm, hmkey⟩ := labelAt_firstOf hl
    have hfirst : First labels (firstOf labels l.key) m := ⟨hm, not_repeat_firstOf hmkey⟩
    obtain ⟨name', hcleaned, hfinal⟩ := @First.final labels (some g) _ _ hshort hfirst
    have hsame : Text.casefold name' = Text.casefold g.name :=
      ((casefold_final_iff hshort hm hl hfinal hname).mpr hmkey).trans hkey
    have hground : isGroundWord name' = true := (isGroundWord_congr hsame).trans g.ground
    refine ⟨_, m, hfirst, ?_⟩
    rw [Label.cleaned, ← eq_meshSafe_of_own hshort hno hm hfirst.2 hcleaned hground]
    exact hsame
  · rintro ⟨i, l, hfirst, hkey⟩
    obtain ⟨name, hcleaned, hfinal⟩ := @First.final labels (some g) _ _ hshort hfirst
    have hground : isGroundWord (meshSafe l.typed) = true := (isGroundWord_congr hkey).trans g.ground
    by_cases hk : keptAsTyped labels (some g) i l = true
    · have htyped := Option.some.inj
        (hcleaned.symm.trans ((cleaned_all hshort).kept i l hfirst.1 hk))
      refine ⟨i, l, name, hfirst.1, hfinal, ?_⟩
      rw [htyped, ← keptAsTyped_meshSafe hk]
      exact hkey
    · have hcase := caseName_of_ground hground
      obtain heq | ⟨-, j, other, -, hj, hother, hown⟩ :=
        origin_of_not_finds hshort hno hfirst.1 hfirst.2 (by simpa using hk) hcleaned
      · exact ⟨i, l, name, hfirst.1, hfinal, by rw [heq, hcase]; exact hkey⟩
      · obtain ⟨m, hm, hfirst', -⟩ := hown
        refine ⟨j, m, other, hm, ?_, by rw [hother, hcase]; exact hkey⟩
        exact ((repeated_all hshort).own j m hm hfirst').trans hj

/-- A wall is called a ground word exactly when it cleans to one and does not yield it, where no
ground is found. -/
theorem called_ground_word_iff (hshort : labels.length < 2 ^ 63)
    (hno : ¬ FindsGround labels (some g)) (hfirst : First labels i l)
    (hname : (cleanedNames labels (some g)).final i = some name) :
    isGroundWord name = true ↔
      isGroundWord (meshSafe l.typed) = true ∧ ¬ YieldsTo labels i l := by
  have hkeptIff {j : Nat} {m : Label} (hm : First labels j m) :
      keptAsTyped labels (some g) j m = true ↔ m.correct :=
    keptAsTyped_of_not_finds hno hm.1 hm.2
  constructor
  · intro hground
    have hspelled := eq_meshSafe_of_own hshort hno hfirst.1 hfirst.2 hname hground
    refine ⟨hspelled ▸ hground, ?_⟩
    rintro ⟨hwrong, j, m, hne, hm, hkey, hbefore⟩
    obtain ⟨other, hother, -⟩ := @First.final labels (some g) _ _ hshort hm
    have hmground : isGroundWord (meshSafe m.typed) = true :=
      (isGroundWord_congr hkey).trans (hspelled ▸ hground)
    have happart (hsame : Text.casefold other = Text.casefold (meshSafe m.typed)) : False := by
      refine hne ((cleaned_all hshort).apart j i other name hother hname ?_)
      rw [hsame, hspelled]
      exact hkey
    by_cases hk : keptAsTyped labels (some g) j m = true
    · refine happart ?_
      rw [Option.some.inj (hother.symm.trans ((cleaned_all hshort).kept j m hm.1 hk)),
        keptAsTyped_meshSafe hk]
    · obtain heq | ⟨-, k, holder, -, hk', hholder, hown⟩ :=
        origin_of_not_finds hshort hno hm.1 hm.2 (by simpa using hk) hother
      · exact happart (by rw [heq, caseName_of_ground hmground])
      · -- who keeps `j` from the spelling is the patch itself, and it does not come before `j`
        have hki : k = i := by
          refine (cleaned_all hshort).apart k i holder name hk' hname ?_
          rw [hholder, caseName_of_ground hmground, hspelled]
          exact hkey
        subst hki
        obtain ⟨x, hx, hxfirst, hxkept | hlt⟩ := hown
        · obtain rfl : l = x := Option.some.inj (hfirst.1.symm.trans hx)
          exact hwrong ((hkeptIff hfirst).mp hxkept)
        · obtain hcorrect | hlt' := hbefore
          · exact hk ((hkeptIff hm).mpr hcorrect)
          · omega
  · rintro ⟨hground, hholds⟩
    by_cases hk : keptAsTyped labels (some g) i l = true
    · have htyped := Option.some.inj
        (hname.symm.trans ((cleaned_all hshort).kept i l hfirst.1 hk))
      rw [htyped, ← keptAsTyped_meshSafe hk]
      exact hground
    · have hcase := caseName_of_ground hground
      obtain heq | ⟨-, j, holder, hne, hj, hholder, m, hm, hmfirst, hbefore⟩ :=
        origin_of_not_finds hshort hno hfirst.1 hfirst.2 (by simpa using hk) hname
      · rw [heq, hcase]
        exact hground
      · exfalso
        rw [hcase] at hholder
        have hword : isGroundWord holder = true := (isGroundWord_congr hholder).trans hground
        have hspelled := eq_meshSafe_of_own hshort hno hm hmfirst hj hword
        refine hholds ⟨fun hcorrect => hk ((hkeptIff hfirst).mpr hcorrect), j, m, hne,
          ⟨hm, hmfirst⟩, ?_, ?_⟩
        · rw [Label.cleaned, ← hspelled]
          exact hholder
        · exact hbefore.imp_left (hkeptIff ⟨hm, hmfirst⟩).mp

theorem not_finds_again_iff (hshort : labels.length < 2 ^ 63)
    (h : Renamed labels labels' (some g)) :
    ¬ FindsGround labels' (some g) ↔ FloorSettled labels g := by
  by_cases hfinds : FindsGround labels (some g)
  · refine iff_of_true (fun hagain => ?_) (.inl hfinds)
    obtain ⟨i, l, name, hl, hfirst, hname, hkey⟩ := named_of_finds hshort hfinds
    have hfinal := ((repeated_all hshort).own i l hl hfirst).trans hname
    have htyped := h.groundTyped_iff.mpr ⟨i, l, name, hl, hfinal, hkey⟩
    exact absurd (hagain.1.symm.trans htyped) (by decide)
  · have hwalls : (∃ i l', labelAt labels' i = some l' ∧ isRepeat labels' i l' = false ∧
        l'.isGround = true) ↔ ¬ ∀ i l, First labels i l → l.wall = true →
          isGroundWord (meshSafe l.typed) = true → YieldsTo labels i l := by
      constructor
      · rintro ⟨i, l', hl', hfirst', hground⟩ hall
        obtain ⟨l, hl, hfinal, hisGround⟩ := h.label hl'
        have hfirst : First labels i l := ⟨hl, (h.first_iff hshort hl hl').symm.trans hfirst'⟩
        rw [hground, eq_comm, Bool.and_eq_true] at hisGround
        have hname := ((repeated_all hshort).own i l hl hfirst.2).symm.trans hfinal
        obtain ⟨hword, hholds⟩ :=
          (called_ground_word_iff hshort hfinds hfirst hname).mp hisGround.2
        exact hholds (hall i l hfirst hisGround.1 hword)
      · intro hsome
        push Not at hsome
        obtain ⟨i, l, hfirst, hwall, hword, hholds⟩ := hsome
        obtain ⟨name, hname, hfinal⟩ := @First.final labels (some g) _ _ hshort hfirst
        obtain ⟨l', hl', hfinal', hisGround⟩ := h.named i l hfirst.1
        obtain rfl : name = l'.typed := Option.some.inj (hfinal.symm.trans hfinal')
        refine ⟨i, l', hl', (h.first_iff hshort hfirst.1 hl').trans hfirst.2, ?_⟩
        rw [hisGround, hwall, Bool.true_and]
        exact (called_ground_word_iff hshort hfinds hfirst hname).mpr ⟨hword, hholds⟩
    have htyped := h.groundTyped_iff.trans (called_ground_iff hshort hfinds)
    unfold FindsGround FloorSettled
    rw [not_and_or, hwalls, not_not, Bool.not_eq_false, htyped]
    constructor
    · exact fun hcase => .inr hcase
    · exact fun hcase => hcase.resolve_left hfinds

end

end MeshPipeline.Boundary
