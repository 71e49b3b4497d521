import MeshPipeline.Boundary.SettledRoles

/-!
# What a normalised declaration promises

Every name can be written by a mesher, two patches share one exactly when they were typed so, and the
references follow the names. A second pass changes nothing unless the first one made a role repeat
its type, or a wall's name a ground word.
-/

namespace MeshPipeline.Boundary

/-! ## The renames -/

section

variable {labels : List (Option Label)} {ground : Option GroundRule} {i j : Nat} {l m : Label}

/-- The renames of the first so many positions. -/
structure RenamesUpTo (labels : List (Option Label)) (s : Naming) (n : Nat)
    (renames : List Rename) : Prop where
  source : ∀ x ∈ renames, ∃ i l, labelAt labels i = some l ∧ s.final i = some x.name ∧
    x.typed = l.typed ∧ x.name ≠ l.typed
  all : ∀ i l name, i < n → labelAt labels i = some l → s.final i = some name →
    name ≠ l.typed → ∃ x ∈ renames, x.typed = l.typed

theorem renamesUpTo_step {s : Naming} {n : Nat} {renames : List Rename}
    (h : RenamesUpTo labels s n renames) :
    RenamesUpTo labels s (n + 1) (addRename labels s renames n) := by
  have hskip (hsame : addRename labels s renames n = renames)
      (hno : ∀ l name, labelAt labels n = some l → s.final n = some name → name ≠ l.typed →
        ∃ x ∈ renames, x.typed = l.typed) :
      RenamesUpTo labels s (n + 1) (addRename labels s renames n) := by
    rw [hsame]
    refine ⟨h.source, fun i l name hi hl hname hne => ?_⟩
    obtain hi | rfl := Nat.lt_succ_iff_lt_or_eq.mp hi
    · exact h.all i l name hi hl hname hne
    · exact hno l name hl hname hne
  cases hl : labelAt labels n with
  | none => exact hskip (by simp [addRename, hl]) (by simp [hl])
  | some l =>
    cases hname : s.final n with
    | none => exact hskip (by simp [addRename, hl, hname]) (by simp [hname])
    | some name =>
      by_cases hnew : name ≠ l.typed ∧ l.typed ∉ renames.map (·.typed)
      · have hadd : addRename labels s renames n =
            renames ++ [⟨l.typed, name, (s.reasons n).getD .spelling⟩] := by
          simp only [addRename, hl, hname, if_pos hnew]
        rw [hadd]
        refine ⟨fun x hx => ?_, fun i m other hi hm hother hne => ?_⟩
        · obtain hx | hx := List.mem_append.mp hx
          · exact h.source x hx
          · obtain rfl := List.mem_singleton.mp hx
            exact ⟨n, l, hl, hname, rfl, hnew.1⟩
        · obtain hi | rfl := Nat.lt_succ_iff_lt_or_eq.mp hi
          · obtain ⟨x, hx, htyped⟩ := h.all i m other hi hm hother hne
            exact ⟨x, List.mem_append_left _ hx, htyped⟩
          · obtain rfl : l = m := Option.some.inj (hl.symm.trans hm)
            exact ⟨_, List.mem_append_right _ (List.mem_singleton_self _), rfl⟩
      · refine hskip (by simp only [addRename, hl, hname, if_neg hnew]) ?_
        intro m other hm hother hne
        obtain rfl : l = m := Option.some.inj (hl.symm.trans hm)
        obtain rfl : name = other := Option.some.inj (hname.symm.trans hother)
        have hold : l.typed ∈ renames.map (·.typed) := by
          by_contra hfresh
          exact hnew ⟨hne, hfresh⟩
        exact List.mem_map.mp hold

/-- A rename is that of a patch, and every patch that is called otherwise has one. -/
theorem renamesOf_spec (labels : List (Option Label)) (s : Naming) :
    RenamesUpTo labels s labels.length (renamesOf labels s) :=
  Numbering.foldl_range _ ⟨by simp, fun i _ _ hi => absurd hi (Nat.not_lt_zero i)⟩
    fun _ _ _ h => renamesUpTo_step h

/-- Two patches that were typed alike are called alike. -/
theorem final_congr (hshort : labels.length < 2 ^ 63) (hl : labelAt labels i = some l)
    (hm : labelAt labels j = some m) (htyped : l.typed = m.typed) :
    (settleNames labels ground).final i = (settleNames labels ground).final j := by
  have hkey : l.key = m.key := congrArg Text.casefold htyped
  have hname : firstName labels ground l = firstName labels ground m := by
    rw [firstName, firstName, hkey]
  -- a first patch and a repeat of it that is typed alike
  have hshared {a b : Nat} {x y : Label} (hx : labelAt labels a = some x)
      (hy : labelAt labels b = some y) (hxy : x.typed = y.typed)
      (hfirst : isRepeat labels a x = false) (hrepeat : isRepeat labels b y = true) :
      (settleNames labels ground).final a = (settleNames labels ground).final b := by
    have hsame : x.key = y.key := congrArg Text.casefold hxy
    have hplace : firstOf labels y.key = a := by
      rw [← hsame]
      simpa [isRepeat] using hfirst
    rw [final_first hshort hx hfirst,
      (repeated_all hshort).repeated b y (lt_length_of_labelAt hy) hy hrepeat, repeatName, hplace,
      hx, firstName, firstName, hsame]
    simp [hxy]
  by_cases hli : isRepeat labels i l = true <;> by_cases hmj : isRepeat labels j m = true
  · rw [(repeated_all hshort).repeated i l (lt_length_of_labelAt hl) hl hli,
      (repeated_all hshort).repeated j m (lt_length_of_labelAt hm) hm hmj, repeatName, repeatName,
      hname, hkey, htyped]
  · exact (hshared hm hl htyped.symm (by simpa using hmj) hli).symm
  · exact hshared hl hm htyped (by simpa using hli) hmj
  · rw [final_first hshort hl (by simpa using hli), final_first hshort hm (by simpa using hmj),
      hname]

variable (labels ground) in
/-- Every name is kept as it was typed. -/
def Unrenamed : Prop := Correct labels ∧ ∀ g ∈ ground, ¬ FindsGround labels (some g)

theorem renamesOf_eq_nil_iff (hshort : labels.length < 2 ^ 63) :
    renamesOf labels (settleNames labels ground) = [] ↔ Unrenamed labels ground := by
  have hspec := renamesOf_spec labels (settleNames labels ground)
  constructor
  · intro hnil
    have hall (i : Nat) (l : Label) (hl : labelAt labels i = some l) :
        (settleNames labels ground).final i = some l.typed := by
      obtain ⟨name, hname, -⟩ := @final_spec labels ground _ _ hshort hl
      by_cases hsame : name = l.typed
      · rw [hname, hsame]
      · obtain ⟨x, hx, -⟩ := hspec.all i l name (lt_length_of_labelAt hl) hl hname hsame
        simp [hnil] at hx
    have hcorrect : Correct labels := by
      intro i l hl
      obtain ⟨name, hname, hsafe, hfree, -⟩ := @final_spec labels ground _ _ hshort hl
      obtain rfl : name = l.typed := Option.some.inj (hname.symm.trans (hall i l hl))
      exact ⟨hsafe, hfree⟩
    exact ⟨hcorrect, (kept_iff_not_finds hshort hcorrect).mp hall⟩
  · rintro ⟨hcorrect, hno⟩
    by_contra hsome
    obtain ⟨x, hx⟩ := List.exists_mem_of_ne_nil _ hsome
    obtain ⟨i, l, hl, hname, -, hne⟩ := hspec.source x hx
    have hkept := (kept_iff_not_finds hshort hcorrect).mpr hno i l hl
    exact hne (Option.some.inj (hname.symm.trans hkept))

end

/-! ## The patches of the output -/

section

variable {patches : List Item} {allowed : Option (List Str)} {ground : Option GroundRule}
  {i j : Nat} {l m : Label} {p : Patch}

/-- The output's patch at a position, from the input's. -/
def outPatch (allowed : Option (List Str)) (renames : List Rename) (final : Option Str)
    (p : Patch) : Patch :=
  let q := (settleRole allowed p).rename final
  if renames = [] then q else q.follow renames

theorem mergeRole_with (p : Patch) (name : Value) (entries : Interchangeable) :
    mergeRole { p with name := name, interchangeableWith := entries } =
      { mergeRole p with name := name, interchangeableWith := entries } := by
  unfold mergeRole
  dsimp only
  split
  · split
    · rfl
    · split <;> rfl
  · split <;> rfl
  · rfl

theorem settleRole_with (p : Patch) (name : Value) (entries : Interchangeable) :
    settleRole allowed { p with name := name, interchangeableWith := entries } =
      { settleRole allowed p with name := name, interchangeableWith := entries } := by
  rw [settleRole, mergeRole_with, settleType_eq, settleRole, settleType_eq]
  dsimp only
  split <;> rfl

theorem settleRole_keeps (p : Patch) : (settleRole allowed p).name = p.name ∧
    (settleRole allowed p).interchangeableWith = p.interchangeableWith := by
  have hsame := @settleRole_with allowed p p.name p.interchangeableWith
  have hname := congrArg Patch.name hsame
  have hentries := congrArg Patch.interchangeableWith hsame
  exact ⟨hname, hentries⟩

variable (patches allowed ground) in
def namesOf : Naming := settleNames (labelsOf allowed patches) ground

variable (patches allowed ground) in
def allRenames : List Rename := renamesOf (labelsOf allowed patches) (namesOf patches allowed ground)

theorem getElem?_normalized :
    (normalizeDeclaration patches allowed ground).patches[i]? =
      patches[i]?.map (Item.map
        (outPatch allowed (allRenames patches allowed ground)
          ((namesOf patches allowed ground).final i))) := by
  have hpatches : (normalizeDeclaration patches allowed ground).patches =
      if allRenames patches allowed ground = [] then
        (patches.map (Item.map (settleRole allowed))).mapIdx fun i q =>
          q.map (·.rename ((namesOf patches allowed ground).final i))
      else ((patches.map (Item.map (settleRole allowed))).mapIdx fun i q =>
        q.map (·.rename ((namesOf patches allowed ground).final i))).map
          (Item.map (·.follow (allRenames patches allowed ground))) := rfl
  rw [hpatches]
  split
  · next hnil =>
    rw [List.getElem?_mapIdx, List.getElem?_map, Option.map_map]
    congr 1
    funext q
    cases q <;> simp [Item.map, outPatch, hnil]
  · next hsome =>
    rw [List.getElem?_map, List.getElem?_mapIdx, List.getElem?_map, Option.map_map, Option.map_map]
    congr 1
    funext q
    cases q <;> simp [Item.map, outPatch, hsome]

/-- The output keeps the roles as they were settled. -/
theorem outPatch_role (renames : List Rename) (final : Option Str) (p : Patch) :
    (outPatch allowed renames final p).type = (settleRole allowed p).type ∧
      (outPatch allowed renames final p).role = (settleRole allowed p).role := by
  have hrename : ((settleRole allowed p).rename final).type = (settleRole allowed p).type ∧
      ((settleRole allowed p).rename final).role = (settleRole allowed p).role := by
    cases final <;> exact ⟨rfl, rfl⟩
  have hfollow (q : Patch) : (q.follow renames).type = q.type ∧ (q.follow renames).role = q.role := by
    unfold Patch.follow
    split <;> exact ⟨rfl, rfl⟩
  unfold outPatch
  dsimp only
  split
  · exact hrename
  · exact ⟨(hfollow _).1.trans hrename.1, (hfollow _).2.trans hrename.2⟩

theorem outPatch_name (renames : List Rename) (final : Option Str) (p : Patch) :
    (outPatch allowed renames final p).name =
      match final with
      | some name => .str name
      | none => p.name := by
  have hrename : ((settleRole allowed p).rename final).name =
      match final with
      | some name => .str name
      | none => p.name := by
    cases final with
    | some name => rfl
    | none => exact (settleRole_keeps p).1
  have hfollow (q : Patch) : (q.follow renames).name = q.name := by
    unfold Patch.follow
    split <;> rfl
  unfold outPatch
  dsimp only
  split
  · exact hrename
  · exact (hfollow _).trans hrename

theorem outPatch_entries (renames : List Rename) (final : Option Str) {entries : List Value}
    (h : p.interchangeableWith = .list entries) :
    (outPatch allowed renames final p).interchangeableWith =
      .list (if renames = [] then entries else entries.map (followRename renames)) := by
  have hrename : ((settleRole allowed p).rename final).interchangeableWith = .list entries := by
    rw [← h, ← (@settleRole_keeps allowed p).2]
    cases final <;> rfl
  unfold outPatch
  dsimp only
  split
  · exact hrename
  · rw [Patch.follow, hrename]

theorem labelAt_labelsOf :
    labelAt (labelsOf allowed patches) i =
      (patches[i]?).bind fun q => labelOf (typedType q) (q.map (settleRole allowed)) := by
  unfold labelAt labelsOf
  rw [List.getElem?_map]
  cases patches[i]? <;> rfl

theorem length_labelsOf : (labelsOf allowed patches).length = patches.length := by
  simp [labelsOf]

/-- A label is that of a named patch. -/
theorem patch_of_label (h : labelAt (labelsOf allowed patches) i = some l) :
    ∃ p, patches[i]? = some (.patch p) ∧ p.name.said = some l.typed ∧
      l.wall = (((settleRole allowed p).type.or (.str [])).printed == "wall".toList) := by
  rw [labelAt_labelsOf] at h
  obtain ⟨q, hq, hlabel⟩ := Option.bind_eq_some_iff.mp h
  cases q with
  | other => simp [Item.map, labelOf] at hlabel
  | patch p =>
    simp only [Item.map, labelOf, (@settleRole_keeps allowed p).1] at hlabel
    obtain ⟨typed, htyped, rfl⟩ := Option.map_eq_some_iff.mp hlabel
    exact ⟨p, hq, htyped, rfl⟩

/-- A named patch carries the name it was given. -/
theorem name_normalized (h : labelAt (labelsOf allowed patches) i = some l) {name : Str}
    (hname : (namesOf patches allowed ground).final i = some name) :
    ∃ p, (normalizeDeclaration patches allowed ground).patches[i]? = some (.patch p) ∧
      p.name = .str name := by
  obtain ⟨p, hp, -⟩ := patch_of_label h
  rw [getElem?_normalized, hp]
  exact ⟨_, rfl, by rw [outPatch_name, hname]⟩

/-! ## What a second pass reads -/

theorem outPatch_eq (renames : List Rename) (final : Option Str) (p : Patch) :
    outPatch allowed renames final p =
      { settleRole allowed p with
        name := (outPatch allowed renames final p).name
        interchangeableWith := (outPatch allowed renames final p).interchangeableWith } := by
  obtain ⟨htype, hrole⟩ := @outPatch_role allowed renames final p
  dsimp only
  rw [← htype, ← hrole]

theorem settleRole_outPatch (renames : List Rename) (final : Option Str) (p : Patch) :
    settleRole allowed (outPatch allowed renames final p) =
      { settleRole allowed (settleRole allowed p) with
        name := (outPatch allowed renames final p).name
        interchangeableWith := (outPatch allowed renames final p).interchangeableWith } := by
  rw [outPatch_eq, settleRole_with]

/-- The roles of the output are settled exactly where no role repeats. -/
theorem settleRole_outPatch_iff (renames : List Rename) (final : Option Str) (p : Patch) :
    settleRole allowed (outPatch allowed renames final p) = outPatch allowed renames final p ↔
      ¬ RoleRepeats allowed p := by
  rw [← settleRole_settleRole_iff, settleRole_outPatch]
  constructor
  · intro hsame
    obtain ⟨htype, hrole⟩ := @outPatch_role allowed renames final p
    have htype' := (congrArg Patch.type hsame).trans htype
    have hrole' := (congrArg Patch.role hsame).trans hrole
    obtain ⟨hname, hentries⟩ := @settleRole_keeps allowed (settleRole allowed p)
    cases hq : settleRole allowed (settleRole allowed p)
    cases hp : settleRole allowed p
    simp_all
  · intro hsame
    rw [hsame]
    exact (outPatch_eq renames final p).symm

theorem said_of_isMeshSafe {name : Str} (h : isMeshSafe name = true) :
    (Value.str name).said = some name := by
  refine said_str ?_ (stripList_of_word (isMeshSafe_iff.mp h).1)
  rintro rfl
  cases h

/-- A settled wall is typed as one, which is no ground word. -/
theorem isGroundWord_typedType {q : Patch}
    (h : ((q.type.or (.str [])).printed == "wall".toList) = true) :
    isGroundWord (typedType (.patch q)) = false := by
  have htrue : q.type.truthy = true := by
    by_contra hfalse
    simp [Value.or, hfalse, Value.printed] at h
  have hwall : typedType (.patch q) = "wall".toList := by
    have hprinted : (q.type.or (.str [])).printed = "wall".toList := by simpa using h
    rw [Value.or, if_pos htrue] at hprinted
    simp [typedType, Value.or, htrue, hprinted]
  rw [hwall]
  decide +kernel

theorem length_normalized :
    (normalizeDeclaration patches allowed ground).patches.length = patches.length := by
  unfold normalizeDeclaration
  dsimp only
  split <;> simp

theorem renamed_labels (hshort : patches.length < 2 ^ 63) :
    Renamed (labelsOf allowed patches)
      (labelsOf allowed (normalizeDeclaration patches allowed ground).patches) ground := by
  have hshort' : (labelsOf allowed patches).length < 2 ^ 63 := by rwa [length_labelsOf]
  refine ⟨?_, fun i hnone => ?_, fun i l hl => ?_⟩
  · rw [length_labelsOf, length_labelsOf, length_normalized]
  · rw [labelAt_labelsOf, getElem?_normalized]
    rw [labelAt_labelsOf] at hnone
    cases hq : patches[i]? with
    | none => rfl
    | some q =>
      cases q with
      | other => rfl
      | patch p =>
        have hfinal : (namesOf patches allowed ground).final i = none := by
          refine (repeated_all hshort').unnamed i ?_
          rw [labelAt_labelsOf, hq]
          simpa [hq] using hnone
        have hsaid : p.name.said = none := by
          simpa [hq, Item.map, labelOf, (@settleRole_keeps allowed p).1] using hnone
        have hname : (settleRole allowed
            (outPatch allowed (allRenames patches allowed ground) none p)).name = p.name := by
          rw [(settleRole_keeps _).1, outPatch_name]
        simp [Item.map, labelOf, hfinal, hname, hsaid]
  · obtain ⟨p, hp, hsaid, hwall⟩ := patch_of_label hl
    obtain ⟨name, hname, hsafe, -⟩ := @final_spec _ ground _ _ hshort' hl
    have hnamed : (namesOf patches allowed ground).final i = some name := hname
    generalize hout : outPatch allowed (allRenames patches allowed ground) (some name) p = q
    have hq : (normalizeDeclaration patches allowed ground).patches[i]? = some (.patch q) := by
      rw [getElem?_normalized, hp, hnamed, ← hout]
      rfl
    have hqname : q.name = .str name := by rw [← hout, outPatch_name]
    have hqtype : (settleRole allowed q).type = (settleRole allowed p).type := by
      rw [← hout, settleRole_outPatch]
      exact type_settleRole_settleRole p
    have htype : q.type = (settleRole allowed p).type := by
      rw [← hout]
      exact (outPatch_role _ _ _).1
    have hlabel : labelAt (labelsOf allowed (normalizeDeclaration patches allowed ground).patches) i =
        some ⟨name, l.wall, isGroundWord (typedType (.patch q))⟩ := by
      rw [labelAt_labelsOf, hq]
      simp only [Option.bind_some, Item.map, labelOf, (@settleRole_keeps allowed q).1, hqname, hqtype,
        hwall, said_of_isMeshSafe hsafe, Option.map_some]
    refine ⟨_, hlabel, hname, ?_⟩
    unfold Label.isGround
    cases hw : l.wall with
    | false => rfl
    | true =>
      rw [hwall, ← htype] at hw
      rw [isGroundWord_typedType hw, Bool.or_false]

/-! ## The claim -/

/-- An entry names a patch by its typed name, blanks aside. -/
def Value.names (entry : Value) (typed : Str) : Prop :=
  entry ≠ .null ∧ Text.stripList entry.printed = typed

variable (patches allowed ground) in
/-- What the output promises, patch by patch as the naming reads them. -/
structure SettledSoundly : Prop where
  /-- Every named patch has a mesh-safe name that no mesher keeps. -/
  named : ∀ i l, labelAt (labelsOf allowed patches) i = some l →
    ∃ p name, (normalizeDeclaration patches allowed ground).patches[i]? = some (.patch p) ∧
      p.name = .str name ∧ isMeshSafe name = true ∧ isReserved name = false
  /-- Two patches share a name, in any capitals, exactly when they were typed so. -/
  apart : ∀ i j l m p q name other,
    labelAt (labelsOf allowed patches) i = some l → labelAt (labelsOf allowed patches) j = some m →
    (normalizeDeclaration patches allowed ground).patches[i]? = some (.patch p) →
    (normalizeDeclaration patches allowed ground).patches[j]? = some (.patch q) →
    p.name = .str name → q.name = .str other →
      (Text.casefold name = Text.casefold other ↔ l.key = m.key)
  /-- A correct name that is the first of its spelling is kept, unless it is a ground. -/
  kept : ∀ i l, labelAt (labelsOf allowed patches) i = some l → l.correct →
    isRepeat (labelsOf allowed patches) i l = false →
    ¬ (ground.isSome = true ∧ l.isGround = true) →
      ∃ p, (normalizeDeclaration patches allowed ground).patches[i]? = some (.patch p) ∧
        p.name = .str l.typed
  /-- An entry that named a patch has its name. -/
  references : ∀ (i : Nat) (p : Patch) (entries : List Value) (k : Nat) (entry : Value) (j : Nat)
      (m : Label) (q : Patch) (name : Str),
    patches[i]? = some (.patch p) → p.interchangeableWith = .list entries →
    entries[k]? = some entry → labelAt (labelsOf allowed patches) j = some m →
    entry.names m.typed →
    (normalizeDeclaration patches allowed ground).patches[j]? = some (.patch q) →
    q.name = .str name →
      ∃ (p' : Patch) (entries' : List Value), (normalizeDeclaration patches allowed ground).patches[i]? = some (.patch p') ∧
        p'.interchangeableWith = .list entries' ∧ entries'[k]? = some (.str name)
  /-- A second pass changes nothing. -/
  fixed : normalizeDeclaration (normalizeDeclaration patches allowed ground).patches allowed ground =
    ⟨(normalizeDeclaration patches allowed ground).patches, [], []⟩

variable (patches allowed ground) in
/-- Where every name is kept as typed, an entry that names a patch is the name itself. -/
def EntriesPlain : Prop :=
  Unrenamed (labelsOf allowed patches) ground →
    ∀ (i : Nat) (p : Patch) (entries : List Value) (k : Nat) (entry : Value) (j : Nat) (m : Label),
      patches[i]? = some (.patch p) → p.interchangeableWith = .list entries →
      entries[k]? = some entry → labelAt (labelsOf allowed patches) j = some m →
        entry.names m.typed → entry = .str m.typed

variable (patches allowed) in
def RolesPlain : Prop := ∀ (i : Nat) (p : Patch), patches[i]? = some (.patch p) → ¬ RoleRepeats allowed p

variable (patches allowed ground) in
def FloorsPlain : Prop := ∀ g ∈ ground, FloorSettled (labelsOf allowed patches) g

/-- The name that a label's patch carries. -/
theorem final_of_normalized (hshort : patches.length < 2 ^ 63)
    (hl : labelAt (labelsOf allowed patches) i = some l) {q : Patch} {name : Str}
    (hq : (normalizeDeclaration patches allowed ground).patches[i]? = some (.patch q))
    (hname : q.name = .str name) : (namesOf patches allowed ground).final i = some name := by
  have hshort' : (labelsOf allowed patches).length < 2 ^ 63 := by rwa [length_labelsOf]
  obtain ⟨given, hgiven, -⟩ := @final_spec _ ground _ _ hshort' hl
  obtain ⟨p, hp, hpname⟩ := name_normalized hl hgiven
  obtain rfl : p = q := Item.patch.inj (Option.some.inj (hp.symm.trans hq))
  rw [Value.str.inj (hname.symm.trans hpname)]
  exact hgiven

/-- The second pass changes nothing exactly where no role repeats its type and no ground is found
only then. -/
theorem fixed_iff (hshort : patches.length < 2 ^ 63) :
    normalizeDeclaration (normalizeDeclaration patches allowed ground).patches allowed ground =
        ⟨(normalizeDeclaration patches allowed ground).patches, [], []⟩ ↔
      RolesPlain patches allowed ∧ FloorsPlain patches allowed ground := by
  have hshort' : (labelsOf allowed patches).length < 2 ^ 63 := by rwa [length_labelsOf]
  have hrenamed := @renamed_labels patches allowed ground hshort
  have hagain : (normalizeDeclaration patches allowed ground).patches.length < 2 ^ 63 := by
    rwa [length_normalized]
  have hcorrect := hrenamed.correct hshort'
  have hlength := hrenamed.length
  have hfloors : FloorsPlain patches allowed ground ↔
      ∀ i l', labelAt (labelsOf allowed
          (normalizeDeclaration patches allowed ground).patches) i = some l' →
        (namesOf (normalizeDeclaration patches allowed ground).patches allowed ground).final i =
          some l'.typed := by
    unfold namesOf
    rw [kept_iff_not_finds (by rwa [hlength]) hcorrect]
    refine forall_congr' fun g => forall_congr' fun hg => ?_
    obtain rfl := Option.mem_def.mp hg
    exact (not_finds_again_iff hshort' hrenamed).symm
  rw [hfloors]
  generalize hout : (normalizeDeclaration patches allowed ground).patches = out
    at hagain hcorrect hlength hrenamed
  have hoshort : (labelsOf allowed out).length < 2 ^ 63 := by rwa [length_labelsOf]
  constructor
  · intro hfixed
    have hsame (i : Nat) : (out[i]?).map (Item.map (outPatch allowed (allRenames out allowed ground)
        ((namesOf out allowed ground).final i))) = out[i]? := by
      rw [← getElem?_normalized, hfixed]
    refine ⟨fun i p hp => ?_, fun i l' hl' => ?_⟩
    · obtain ⟨q, hq, houtp⟩ : ∃ q, out[i]? = some (.patch q) ∧
          outPatch allowed (allRenames patches allowed ground)
            ((namesOf patches allowed ground).final i) p = q := by
        refine ⟨_, ?_, rfl⟩
        rw [← hout, getElem?_normalized, hp]
        rfl
      have hqsame := hsame i
      rw [hq] at hqsame
      have hpatch := Item.patch.inj (Option.some.inj hqsame)
      refine (settleRole_outPatch_iff (allRenames patches allowed ground)
        ((namesOf patches allowed ground).final i) p).mp ?_
      rw [houtp]
      obtain ⟨htype, hrole⟩ := @outPatch_role allowed (allRenames out allowed ground)
        ((namesOf out allowed ground).final i) q
      obtain ⟨hname, hentries⟩ := @settleRole_keeps allowed q
      have htype' := htype.symm.trans (congrArg Patch.type hpatch)
      have hrole' := hrole.symm.trans (congrArg Patch.role hpatch)
      cases hsettled : settleRole allowed q
      cases q
      simp_all
    · obtain ⟨q, hq, hsaid, -⟩ := patch_of_label hl'
      obtain ⟨name, hname, hsafe, -⟩ := @final_spec _ ground _ _ hoshort hl'
      have hnamed : (namesOf out allowed ground).final i = some name := hname
      have hqsame := hsame i
      rw [hq] at hqsame
      have hpatch := Item.patch.inj (Option.some.inj hqsame)
      have hqname := congrArg Patch.name hpatch
      rw [outPatch_name, hnamed] at hqname
      rw [← hqname, said_of_isMeshSafe hsafe] at hsaid
      rw [hnamed, hsaid]
  · rintro ⟨hroles, hkept⟩
    have hrenames : allRenames out allowed ground = [] := by
      by_contra hsome
      obtain ⟨x, hx⟩ := List.exists_mem_of_ne_nil _ hsome
      obtain ⟨i, l, hl, hname, -, hne⟩ := (renamesOf_spec _ _).source x hx
      exact hne (Option.some.inj (hname.symm.trans (hkept i l hl)))
    have hsettled {i : Nat} {q : Patch} (hq : out[i]? = some (.patch q)) :
        settleRole allowed q = q := by
      have hfrom := @getElem?_normalized patches allowed ground i
      rw [hout, hq] at hfrom
      obtain ⟨item, hitem, hmap⟩ := Option.map_eq_some_iff.mp hfrom.symm
      cases item with
      | other => cases hmap
      | patch p =>
        obtain rfl := Item.patch.inj hmap
        exact (settleRole_outPatch_iff _ _ p).mpr (hroles i p hitem)
    have hpatches : (normalizeDeclaration out allowed ground).patches = out := by
      refine List.ext_getElem? fun i => ?_
      rw [getElem?_normalized]
      cases hq : out[i]? with
      | none => rfl
      | some item =>
        cases item with
        | other => rfl
        | patch q =>
          refine congrArg (fun p => some (Item.patch p)) ?_
          have hname : q.name = match (namesOf out allowed ground).final i with
              | some name => .str name
              | none => q.name := by
            cases hlabel : labelAt (labelsOf allowed out) i with
            | none =>
              have hnone : (namesOf out allowed ground).final i = none :=
                (repeated_all hoshort).unnamed i hlabel
              rw [hnone]
            | some l' =>
              rw [hkept i l' hlabel]
              obtain ⟨l, hl, hfinal, -⟩ := hrenamed.label hlabel
              obtain ⟨p', hp', hp'name⟩ := name_normalized hl hfinal
              rw [hout, hq] at hp'
              obtain rfl := Item.patch.inj (Option.some.inj hp')
              exact hp'name
          have hsame := hsettled hq
          unfold outPatch
          dsimp only
          rw [if_pos hrenames, hsame]
          unfold Patch.rename
          cases hfinal : (namesOf out allowed ground).final i with
          | none => rfl
          | some name =>
            rw [hfinal] at hname
            have hqname : q.name = .str name := hname
            exact congrArg (fun v => { q with name := v }) hqname.symm
    have hretypes : out.filterMap (fun q => q.patch?.bind (retypeOf allowed)) = [] := by
      refine List.filterMap_eq_nil_iff.mpr fun item hitem => ?_
      cases item with
      | other => rfl
      | patch q =>
        obtain ⟨i, hi⟩ := List.getElem?_of_mem hitem
        have hnone := @retypeOf_settleRole allowed q
        rw [hsettled hi] at hnone
        exact hnone
    have hparts : normalizeDeclaration out allowed ground =
        ⟨(normalizeDeclaration out allowed ground).patches, allRenames out allowed ground,
          (out.filterMap fun q => q.patch?.bind (retypeOf allowed)).map fun r =>
            { r with name := (((allRenames out allowed ground).find? fun n =>
              n.typed == r.name).map (·.name)).getD r.name }⟩ := rfl
    rw [hparts, hpatches, hrenames, hretypes]
    rfl

/-- The references follow the names exactly where no padded entry is left as it is. -/
theorem references_iff (hshort : patches.length < 2 ^ 63) :
    (∀ (i : Nat) (p : Patch) (entries : List Value) (k : Nat) (entry : Value) (j : Nat)
        (m : Label) (q : Patch) (name : Str),
      patches[i]? = some (.patch p) → p.interchangeableWith = .list entries →
      entries[k]? = some entry → labelAt (labelsOf allowed patches) j = some m →
      entry.names m.typed →
      (normalizeDeclaration patches allowed ground).patches[j]? = some (.patch q) →
      q.name = .str name →
        ∃ (p' : Patch) (entries' : List Value),
          (normalizeDeclaration patches allowed ground).patches[i]? = some (.patch p') ∧
            p'.interchangeableWith = .list entries' ∧ entries'[k]? = some (.str name)) ↔
      EntriesPlain patches allowed ground := by
  have hshort' : (labelsOf allowed patches).length < 2 ^ 63 := by rwa [length_labelsOf]
  have hnil := @renamesOf_eq_nil_iff (labelsOf allowed patches) ground hshort'
  have hspec := renamesOf_spec (labelsOf allowed patches) (namesOf patches allowed ground)
  have hentries {i : Nat} {p : Patch} {entries : List Value} (hp : patches[i]? = some (.patch p))
      (hlist : p.interchangeableWith = .list entries) :
      ∃ p', (normalizeDeclaration patches allowed ground).patches[i]? = some (.patch p') ∧
        p'.interchangeableWith = .list (if allRenames patches allowed ground = [] then entries
          else entries.map (followRename (allRenames patches allowed ground))) := by
    rw [getElem?_normalized, hp]
    exact ⟨_, rfl, outPatch_entries _ _ hlist⟩
  constructor
  · intro hall hkept i p entries k entry j m hp hlist hk hm hnames
    obtain ⟨name, hname, -⟩ := @final_spec _ ground _ _ hshort' hm
    obtain ⟨q, hq, hqname⟩ := name_normalized hm hname
    obtain ⟨p', entries', hp', hlist', hk'⟩ := hall i p entries k entry j m q name hp hlist hk hm
      hnames hq hqname
    obtain ⟨p'', hp'', hlist''⟩ := hentries hp hlist
    obtain rfl := Item.patch.inj (Option.some.inj (hp'.symm.trans hp''))
    have hempty : allRenames patches allowed ground = [] := hnil.mpr hkept
    rw [if_pos hempty] at hlist''
    obtain rfl := Interchangeable.list.inj (hlist'.symm.trans hlist'')
    obtain rfl := Option.some.inj (hk.symm.trans hk')
    have htyped := (kept_iff_not_finds hshort' hkept.1).mpr hkept.2 j m hm
    rw [Option.some.inj (hname.symm.trans htyped)]
  · intro hplain i p entries k entry j m q name hp hlist hk hm hnames hq hqname
    have hfinal := final_of_normalized hshort hm hq hqname
    obtain ⟨p', hp', hlist'⟩ := hentries hp hlist
    refine ⟨p', _, hp', hlist', ?_⟩
    by_cases hkept : Unrenamed (labelsOf allowed patches) ground
    · have htyped := (kept_iff_not_finds hshort' hkept.1).mpr hkept.2 j m hm
      obtain rfl : name = m.typed := Option.some.inj (hfinal.symm.trans htyped)
      have hempty : allRenames patches allowed ground = [] := hnil.mpr hkept
      rw [if_pos hempty, hk, hplain hkept i p entries k entry j m hp hlist hk hm hnames]
    · have hsome : allRenames patches allowed ground ≠ [] := fun h => hkept (hnil.mp h)
      rw [if_neg hsome, List.getElem?_map, hk, Option.map_some, followRename]
      obtain ⟨hnull, hprinted⟩ := hnames
      cases hfind : (allRenames patches allowed ground).find? fun r =>
          r.typed == Text.stripList entry.printed with
      | some r =>
        have hr := List.mem_of_find?_eq_some hfind
        have htyped : r.typed = m.typed := by
          have hmatch := List.find?_some hfind
          rw [← hprinted]
          simpa using hmatch
        obtain ⟨i', l, hl, hrname, hltyped, -⟩ := hspec.source r hr
        have hsame := @final_congr _ ground _ _ _ _ hshort' hl hm (hltyped.symm.trans htyped)
        have hrname' : (settleNames (labelsOf allowed patches) ground).final i' = some r.name := hrname
        have hfinal' : (settleNames (labelsOf allowed patches) ground).final j = some name := hfinal
        rw [hrname', hfinal'] at hsame
        exact congrArg (fun given => some (Value.str given)) (Option.some.inj hsame)
      | none =>
        have hsame : name = m.typed := by
          by_contra hne
          obtain ⟨r, hr, htyped⟩ := hspec.all j m name (lt_length_of_labelAt hm) hm hfinal hne
          have hmiss := List.find?_eq_none.mp hfind r hr
          exact hmiss (by simp [htyped, hprinted])
        obtain ⟨given, hgiven, hsafe, -⟩ := @final_spec _ ground _ _ hshort' hm
        obtain rfl : name = given := Option.some.inj (hfinal.symm.trans hgiven)
        have htext : entry.text = entry.printed := by
          cases entry with
          | null => exact absurd rfl hnull
          | str s => rfl
          | other s t => rfl
        have hstrip : Text.stripList entry.text = name := by rw [htext, hprinted, hsame]
        have hclean : meshSafe entry.text = name := by
          unfold meshSafe
          dsimp only
          rw [hstrip, if_pos hsafe]
        rw [hclean]

/-- A declaration is settled soundly exactly where its plain entries are typed as the names they
mean, no role repeats what its type is read as, and every ground is found at once. -/
theorem settled_soundly_iff (patches : List Item) (allowed : Option (List Str))
    (ground : Option GroundRule) (hshort : patches.length < 2 ^ 63) :
    SettledSoundly patches allowed ground ↔
      EntriesPlain patches allowed ground ∧ RolesPlain patches allowed ∧
        FloorsPlain patches allowed ground := by
  have hshort' : (labelsOf allowed patches).length < 2 ^ 63 := by rwa [length_labelsOf]
  constructor
  · intro h
    exact ⟨(references_iff hshort).mp h.references, (fixed_iff hshort).mp h.fixed⟩
  · rintro ⟨hentries, hagain⟩
    refine ⟨fun i l hl => ?_, fun i j l m p q name other hl hm hp hq hname hother => ?_,
      fun i l hl hcorrect hfirst hno => ?_, (references_iff hshort).mpr hentries,
      (fixed_iff hshort).mpr hagain⟩
    · obtain ⟨name, hname, hsafe, hfree, -⟩ := @final_spec _ ground _ _ hshort' hl
      obtain ⟨p, hp, hpname⟩ := name_normalized hl hname
      exact ⟨p, name, hp, hpname, hsafe, hfree⟩
    · exact casefold_final_iff hshort' hl hm (final_of_normalized hshort hl hp hname)
        (final_of_normalized hshort hm hq hother)
    · have hk : keptAsTyped (labelsOf allowed patches) ground i l = true :=
        keptAsTyped_iff.mpr ⟨hfirst, hcorrect.1, hcorrect.2, fun h => hno ⟨h.1, h.2.2⟩⟩
      exact name_normalized hl (final_kept hshort' hl hk)

end

/-! ## Declared outlets -/

/-- A patch of one type, with the patches it may be swapped with. -/
def declared (name type : String) (others : List String) : Item :=
  .patch ⟨.str name.toList, .str type.toList, .null,
    .list (others.map fun other => .str other.toList)⟩

/-- An outlet that names its twin. -/
def twinOutlets : List Item :=
  [declared "out_a" "outlet" ["out_b"], declared "out_b" "outlet" []]

theorem twin_outlets_settled_soundly : SettledSoundly twinOutlets none none := by
  refine (settled_soundly_iff twinOutlets none none (by decide)).mpr ⟨?_, ?_, ?_⟩
  · rintro - i p entries k entry j m hp hlist hk - ⟨-, hnames⟩
    match i with
    | 0 =>
      obtain rfl := Item.patch.inj (Option.some.inj hp)
      obtain rfl := Interchangeable.list.inj hlist
      match k with
      | 0 =>
        obtain rfl := Option.some.inj hk
        rw [← hnames]
        decide
      | k + 1 => cases hk
    | 1 =>
      obtain rfl := Item.patch.inj (Option.some.inj hp)
      obtain rfl := Interchangeable.list.inj hlist
      cases hk
    | i + 2 => cases hp
  · rintro i p hp ⟨word, r, -, hrole, -⟩
    match i with
    | 0 =>
      obtain rfl := Item.patch.inj (Option.some.inj hp)
      cases hrole
    | 1 =>
      obtain rfl := Item.patch.inj (Option.some.inj hp)
      cases hrole
    | i + 2 => cases hp
  · intro g hg
    cases hg

/-- The same outlets, the entry typed with a blank after it. -/
def paddedOutlets : List Item :=
  [declared "out_a" "outlet" ["out_b "], declared "out_b" "outlet" []]

/-- No name is changed, so no entry is followed: it stays as it was typed. -/
theorem padded_entry_names_no_patch : ¬ SettledSoundly paddedOutlets none none := by
  intro h
  have hout : (normalizeDeclaration paddedOutlets none none).patches = paddedOutlets := by
    decide +kernel
  obtain ⟨p', entries', hp', hlist', hk'⟩ := h.references 0
    ⟨.str "out_a".toList, .str "outlet".toList, .null, .list [.str "out_b ".toList]⟩
    [.str "out_b ".toList] 0 (.str "out_b ".toList) 1 ⟨"out_b".toList, false, false⟩
    ⟨.str "out_b".toList, .str "outlet".toList, .null, .list []⟩ "out_b".toList
    rfl rfl rfl (by decide +kernel) ⟨by decide, by decide⟩ (by rw [hout]; rfl) rfl
  rw [hout] at hp'
  obtain rfl := Item.patch.inj (Option.some.inj hp')
  obtain rfl := Interchangeable.list.inj hlist'
  exact absurd (Value.str.inj (Option.some.inj hk')) (by decide)

end MeshPipeline.Boundary
