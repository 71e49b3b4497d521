import MeshPipeline.Boundary.NamedAgain

/-!
# Roles, settled again

A settled type is its own reading. A role beside it is dropped by a second pass only where it says
what the first pass made of the type.
-/

namespace MeshPipeline.Boundary

theorem said_eq_some {v : Value} {s : Str} (h : v.said = some s) :
    s ≠ [] ∧ Text.stripList s = s := by
  unfold Value.said at h
  split at h
  · next t =>
    split at h
    · cases h
    · next hne =>
      obtain rfl := Option.some.inj h
      exact ⟨hne, Text.stripList_stripList t⟩
  · cases h

theorem said_str {s : Str} (hne : s ≠ []) (hstrip : Text.stripList s = s) :
    (Value.str s).said = some s := by
  simp [Value.said, hstrip, hne]

/-- The roles of the table are words without blanks around them. -/
theorem stripList_candidate {text role : Str} (h : role ∈ roleCandidates text) :
    role ≠ [] ∧ Text.stripList role = role := by
  have hall : ∀ r ∈ allRoles, r ≠ [] ∧ Text.stripList r = r := by decide +kernel
  exact hall role (roleCandidates_known text role h)

theorem canonicalRole_mem {text role : Str} {allowed : Option (List Str)}
    (h : canonicalRole text allowed = some role) : role ∈ roleCandidates text := by
  unfold canonicalRole at h
  dsimp only at h
  split at h
  · next found hone =>
    obtain rfl : found = role := Option.some.inj h
    cases allowed with
    | none =>
      have hlist : roleCandidates text = [found] := hone
      rw [hlist]
      exact List.mem_singleton_self found
    | some roles =>
      have hlist : (roleCandidates text).filter (roles.contains ·) = [found] := hone
      exact List.mem_of_mem_filter (hlist ▸ List.mem_singleton_self found)
  · cases h

section

variable {allowed : Option (List Str)} {p : Patch}

/-- What a type that says something is read as. -/
def readType (allowed : Option (List Str)) (word : Str) : Str :=
  ((if word ∈ allowed.getD allRoles then none else canonicalRole word allowed).getD word)

theorem readType_stripped {word : Str} (hne : word ≠ []) (hstrip : Text.stripList word = word) :
    readType allowed word ≠ [] ∧ Text.stripList (readType allowed word) = readType allowed word := by
  unfold readType
  split
  · exact ⟨hne, hstrip⟩
  · cases hrole : canonicalRole word allowed with
    | none => exact ⟨hne, hstrip⟩
    | some role => exact stripList_candidate (canonicalRole_mem hrole)

/-- A reading is its own reading. -/
theorem readType_readType (word : Str) :
    readType allowed (readType allowed word) = readType allowed word := by
  by_cases hknown : word ∈ allowed.getD allRoles
  · simp [readType, hknown]
  · cases hrole : canonicalRole word allowed with
    | none => simp [readType, hknown, hrole]
    | some role =>
      have hread : readType allowed word = role := by simp [readType, hknown, hrole]
      rw [hread, readType, if_pos (canonicalRole_known hrole)]
      rfl

theorem settleType_eq (p : Patch) : settleType allowed p =
    match p.type.said with
    | none => p
    | some word => { p with type := .str (readType allowed word) } := rfl

/-- What is left of the role once it is merged into the type. -/
theorem mergeRole_cases (p : Patch) :
    (mergeRole p).type.said = none ∧ mergeRole (mergeRole p) = mergeRole p ∨
      ∃ word, (mergeRole p).type.said = some word ∧
        ((mergeRole p).role = .null ∨ (∀ r, (mergeRole p).role ≠ .str r) ∨
          p.type.said = some word ∧ ∃ r, (mergeRole p).role = .str r ∧ p.role = .str r ∧
            Text.stripList r ≠ word) := by
  unfold mergeRole
  cases hsaid : p.type.said with
  | none =>
    cases hrole : p.role with
    | null => exact .inl (by simp [hsaid, hrole])
    | other s t => exact .inl (by simp [hsaid, hrole])
    | str r =>
      by_cases hr : Text.stripList r = []
      · left
        cases htype : p.type <;> simp_all [Value.said]
      · right
        have hmoved : (Value.str r).said = some (Text.stripList r) := by simp [Value.said, hr]
        exact ⟨Text.stripList r, by simp [hr, hmoved], .inl (by simp [hr])⟩
  | some word =>
    cases hrole : p.role with
    | null => exact .inr ⟨word, by simp [hsaid], .inl hrole⟩
    | other s t => exact .inr ⟨word, by simp [hsaid], .inr (.inl fun r => by simp [hrole])⟩
    | str r =>
      by_cases hr : Text.stripList r = word
      · exact .inr ⟨word, by simp [hr, hsaid], .inl (by simp [hr])⟩
      · exact .inr ⟨word, by simp [hr, hsaid], .inr (.inr ⟨rfl, r, by simp [hr, hrole], rfl, hr⟩)⟩

/-- The role says what the type is read as, in another word than the type. -/
def RoleRepeats (allowed : Option (List Str)) (p : Patch) : Prop :=
  ∃ word r, p.type.said = some word ∧ p.role = .str r ∧ Text.stripList r ≠ word ∧
    word ∉ allowed.getD allRoles ∧ canonicalRole word allowed = some (Text.stripList r)

theorem mergeRole_of_repeats (h : RoleRepeats allowed p) : mergeRole p = p := by
  obtain ⟨word, r, hsaid, hrole, hne, -⟩ := h
  simp [mergeRole, hsaid, hrole, hne]

/-- A patch that says its type, once its role is settled. -/
theorem settleRole_said {word : Str} (h : (mergeRole p).type.said = some word) :
    settleRole allowed p = { mergeRole p with type := .str (readType allowed word) } ∧
      (settleRole allowed p).type.said = some (readType allowed word) := by
  obtain ⟨hne, hstrip⟩ := said_eq_some h
  have hread := @readType_stripped allowed word hne hstrip
  have hsettled : settleRole allowed p =
      { mergeRole p with type := .str (readType allowed word) } := by
    rw [settleRole, settleType_eq, h]
  refine ⟨hsettled, ?_⟩
  rw [hsettled]
  exact said_str hread.1 hread.2

theorem mergeRole_of_role (h : ∀ r, p.role ≠ .str r) : mergeRole p = p := by
  cases hrole : p.role with
  | str r => exact absurd hrole (h r)
  | null | other s t => cases hsaid : p.type.said <;> simp [mergeRole, hrole, hsaid]

/-- A type that says something is left alone by the merge. -/
theorem type_mergeRole {word : Str} (h : p.type.said = some word) :
    (mergeRole p).type = p.type := by
  cases hrole : p.role with
  | null | other s t => simp [mergeRole, h, hrole]
  | str r =>
    simp only [mergeRole, h, hrole]
    split <;> rfl

/-- A second pass over the roles can only drop one. -/
theorem settleRole_settleRole (p : Patch) :
    settleRole allowed (settleRole allowed p) = mergeRole (settleRole allowed p) := by
  obtain ⟨hnone, hsame⟩ | ⟨word, hsaid, -⟩ := mergeRole_cases p
  · have hsettled : settleRole allowed p = mergeRole p := by rw [settleRole, settleType_eq, hnone]
    rw [hsettled, settleRole, hsame, settleType_eq, hnone]
  · obtain ⟨hsettled, hread⟩ := @settleRole_said allowed p word hsaid
    have hmerge := type_mergeRole hread
    rw [settleRole, settleType_eq, hmerge, hread]
    dsimp only
    rw [readType_readType]
    have htype : (settleRole allowed p).type = .str (readType allowed word) := by rw [hsettled]
    rw [← htype, ← hmerge]

theorem type_settleRole_settleRole (p : Patch) :
    (settleRole allowed (settleRole allowed p)).type = (settleRole allowed p).type := by
  rw [settleRole_settleRole]
  obtain ⟨hnone, hsame⟩ | ⟨word, hsaid, -⟩ := mergeRole_cases p
  · have hsettled : settleRole allowed p = mergeRole p := by rw [settleRole, settleType_eq, hnone]
    rw [hsettled, hsame]
  · obtain ⟨-, hread⟩ := @settleRole_said allowed p word hsaid
    exact type_mergeRole hread

/-- The role is dropped by a second pass exactly where it repeats what the first made of the type. -/
theorem settleRole_settleRole_iff (p : Patch) :
    settleRole allowed (settleRole allowed p) = settleRole allowed p ↔ ¬ RoleRepeats allowed p := by
  rw [settleRole_settleRole]
  obtain ⟨hnone, hsame⟩ | ⟨word, hsaid, hrole⟩ := mergeRole_cases p
  · have hsettled : settleRole allowed p = mergeRole p := by rw [settleRole, settleType_eq, hnone]
    rw [hsettled]
    refine iff_of_true hsame fun hrepeats => ?_
    rw [mergeRole_of_repeats hrepeats] at hnone
    obtain ⟨word, -, hword, -⟩ := hrepeats
    simp [hword] at hnone
  · obtain ⟨hsettled, hread⟩ := @settleRole_said allowed p word hsaid
    have hkeeps : (settleRole allowed p).role = (mergeRole p).role := by rw [hsettled]
    have hnever (hother : ∀ r, (mergeRole p).role ≠ .str r) :
        mergeRole (settleRole allowed p) = settleRole allowed p ↔ ¬ RoleRepeats allowed p := by
      refine iff_of_true (mergeRole_of_role (hkeeps ▸ hother)) fun hrepeats => ?_
      rw [mergeRole_of_repeats hrepeats] at hother
      obtain ⟨-, r, -, hr, -⟩ := hrepeats
      exact hother r hr
    obtain hnull | hother | ⟨hp, r, hmerged, hr, hne⟩ := hrole
    · exact hnever fun r => by simp [hnull]
    · exact hnever hother
    · have hdrop : mergeRole (settleRole allowed p) =
          if Text.stripList r = readType allowed word then { settleRole allowed p with role := .null }
          else settleRole allowed p := by
        have hrole : (settleRole allowed p).role = .str r := hkeeps.trans hmerged
        rw [mergeRole, hread, hrole]
      rw [hdrop]
      constructor
      · rintro hsame ⟨word', r', hp', hr', -, hknown, hcanonical⟩
        obtain rfl : word = word' := Option.some.inj (hp.symm.trans hp')
        obtain rfl : r = r' := Value.str.inj (hr.symm.trans hr')
        have hreads : Text.stripList r = readType allowed word := by
          simp [readType, hknown, hcanonical]
        rw [if_pos hreads] at hsame
        have hnull := congrArg Patch.role hsame
        rw [hkeeps, hmerged] at hnull
        cases hnull
      · intro hno
        rw [if_neg]
        intro hreads
        refine hno ⟨word, r, hp, hr, hne, ?_⟩
        unfold readType at hreads
        split at hreads
        · exact absurd hreads hne
        · next hknown =>
          refine ⟨hknown, ?_⟩
          cases hcanonical : canonicalRole word allowed with
          | none =>
            rw [hcanonical] at hreads
            exact absurd hreads hne
          | some role =>
            rw [hcanonical] at hreads
            exact congrArg some hreads.symm

/-- The settled types are worth no sentence a second time. -/
theorem retypeOf_settleRole (p : Patch) : retypeOf allowed (settleRole allowed p) = none := by
  obtain ⟨hnone, hsame⟩ | ⟨word, hsaid, -⟩ := mergeRole_cases p
  · have hsettled : settleRole allowed p = mergeRole p := by rw [settleRole, settleType_eq, hnone]
    rw [hsettled, retypeOf, hsame, hnone]
    rfl
  · obtain ⟨-, hread⟩ := @settleRole_said allowed p word hsaid
    have hmerge := type_mergeRole hread
    rw [retypeOf, hmerge, hread]
    by_cases hknown : readType allowed word ∈ allowed.getD allRoles
    · simp [hknown]
    · have hagain := @readType_readType allowed word
      rw [readType, if_neg hknown] at hagain
      cases hcanonical : canonicalRole (readType allowed word) allowed with
      | none => simp [hknown, hcanonical]
      | some role =>
        rw [hcanonical] at hagain
        have hrole : role = readType allowed word := hagain
        exact absurd (hrole ▸ canonicalRole_known hcanonical) hknown

end

end MeshPipeline.Boundary
