import MeshPipeline.Boundary.Declaration

/-!
# What the naming does to the names

The first patch of each spelling gets a name of its own, in any capitals; its repeats share it. The
passes are followed by what each of them has settled so far.
-/

namespace MeshPipeline.Boundary

/-! ## Spellings -/

section

variable {labels : List (Option Label)} {ground : Option GroundRule} {i j : Nat} {l m : Label}

theorem lt_length_of_labelAt (h : labelAt labels i = some l) : i < labels.length := by
  unfold labelAt at h
  by_contra hge
  rw [List.getElem?_eq_none (Nat.le_of_not_lt hge)] at h
  cases h

theorem getElem?_of_labelAt (h : labelAt labels i = some l) : labels[i]? = some (some l) := by
  unfold labelAt at h
  cases hget : labels[i]? with
  | none => simp [hget] at h
  | some entry =>
    rw [hget] at h
    exact congrArg some h

/-- The first patch of a spelling is one, and no patch before it is. -/
theorem labelAt_firstOf (h : labelAt labels i = some l) :
    firstOf labels l.key ≤ i ∧
      ∃ m, labelAt labels (firstOf labels l.key) = some m ∧ m.key = l.key := by
  have hget := getElem?_of_labelAt h
  obtain ⟨hi, hentry⟩ := List.getElem?_eq_some_iff.mp hget
  have hhas : (labels[i]).any (·.key == l.key) = true := by
    rw [hentry]
    simp
  have hlt : firstOf labels l.key < labels.length :=
    List.findIdx_lt_length_of_exists ⟨labels[i], List.getElem_mem hi, hhas⟩
  have hfound : (labels[firstOf labels l.key]).any (·.key == l.key) = true :=
    List.findIdx_getElem (w := hlt)
  obtain ⟨m, hm, hkey⟩ : ∃ m, labels[firstOf labels l.key] = some m ∧ (m.key == l.key) = true := by
    simpa only [Option.any_eq_true] using hfound
  refine ⟨?_, m, ?_, by simpa using hkey⟩
  · by_contra hafter
    have hnot := List.not_of_lt_findIdx (Nat.lt_of_not_le hafter)
    exact absurd (hhas.symm.trans hnot) (by decide)
  · rw [labelAt, List.getElem?_eq_getElem hlt, hm]
    rfl

/-- Two first patches of one spelling are one. -/
theorem first_unique (hl : isRepeat labels i l = false) (hm : isRepeat labels j m = false)
    (hkey : l.key = m.key) : i = j := by
  simp only [isRepeat, bne_eq_false_iff_eq] at hl hm
  rw [← hl, ← hm, hkey]

theorem not_repeat_firstOf (hkey : m.key = l.key) : isRepeat labels (firstOf labels l.key) m = false := by
  simp [isRepeat, hkey]

/-! ## The names that are claimed as typed -/

variable (labels ground) in
/-- The patch keeps its name: the first of its spelling, typed correctly, and no ground that takes
the ground's name. -/
def keptAsTyped (i : Nat) (l : Label) : Bool :=
  !isRepeat labels i l && isMeshSafe l.typed && !isReserved l.typed &&
    !(ground.isSome && !groundTyped labels ground && l.isGround)

theorem keptAsTyped_iff :
    keptAsTyped labels ground i l = true ↔
      isRepeat labels i l = false ∧ isMeshSafe l.typed = true ∧ isReserved l.typed = false ∧
        ¬ (ground.isSome = true ∧ groundTyped labels ground = false ∧ l.isGround = true) := by
  simp only [keptAsTyped, Bool.and_eq_true, Bool.not_eq_true', Bool.and_eq_false_iff,
    Bool.not_eq_false']
  grind

variable (labels ground) in
/-- After so many positions of the first pass. -/
structure Claimed (n : Nat) (s : Naming) : Prop where
  final : ∀ i, s.final i =
    (labelAt labels i).bind fun l =>
      if i < n ∧ keptAsTyped labels ground i l then some l.typed else none
  taken : ∀ key, key ∈ s.taken ↔
    ∃ i l, i < n ∧ labelAt labels i = some l ∧ keptAsTyped labels ground i l ∧ l.key = key
  length : s.taken.length ≤ n
  ground : s.groundTaken = groundTyped labels ground

/-- No earlier name takes a name that is typed correctly. -/
theorem Claimed.claimTyped_eq {n : Nat} {s : Naming} (h : Claimed labels ground n s)
    (hl : labelAt labels n = some l) :
    claimTyped labels ground s n =
      if keptAsTyped labels ground n l then
        { s with final := Function.update s.final n (some l.typed), taken := s.taken ++ [l.key] }
      else s := by
  have hfree (hfirst : isRepeat labels n l = false) : l.key ∉ s.taken := by
    intro htaken
    obtain ⟨i, m, hi, -, hkept, hkey⟩ := (h.taken l.key).mp htaken
    have hsame := first_unique (keptAsTyped_iff.mp hkept).1 hfirst hkey
    omega
  simp only [claimTyped, hl, h.ground]
  by_cases hrepeat : isRepeat labels n l = true
  · simp [hrepeat, keptAsTyped]
  · have hfirst : isRepeat labels n l = false := by simpa using hrepeat
    rw [if_neg hrepeat]
    refine if_congr ?_ rfl rfl
    rw [keptAsTyped_iff]
    exact ⟨fun hc => ⟨hfirst, hc.1, hc.2.1, hc.2.2.2⟩,
      fun hc => ⟨hc.2.1, hc.2.2.1, hfree hfirst, hc.2.2.2⟩⟩

theorem claimed_step {n : Nat} {s : Naming} (h : Claimed labels ground n s) :
    Claimed labels ground (n + 1) (claimTyped labels ground s n) := by
  cases hl : labelAt labels n with
  | none =>
    have hsame : claimTyped labels ground s n = s := by simp [claimTyped, hl]
    rw [hsame]
    refine ⟨fun i => ?_, fun key => ?_, Nat.le_succ_of_le h.length, h.ground⟩
    · rw [h.final i]
      grind
    · rw [h.taken key]
      grind
  | some l =>
    rw [h.claimTyped_eq hl]
    split
    · next hkept =>
      refine ⟨fun i => ?_, fun key => ?_, ?_, h.ground⟩
      · by_cases hi : i = n
        · subst hi
          simp [hl, hkept]
        · refine (Function.update_of_ne hi _ _).trans ((h.final i).trans ?_)
          grind
      · rw [List.mem_append, h.taken key, List.mem_singleton]
        grind
      · have hlength := h.length
        simp only [List.length_append, List.length_singleton]
        omega
    · next hkept =>
      refine ⟨fun i => ?_, fun key => ?_, Nat.le_succ_of_le h.length, h.ground⟩
      · rw [h.final i]
        grind
      · rw [h.taken key]
        grind

theorem claimed_all :
    Claimed labels ground labels.length
      ((List.range labels.length).foldl (claimTyped labels ground) (Naming.start labels ground)) := by
  refine Numbering.foldl_range _ ⟨fun i => ?_, fun key => ?_, Nat.le_refl _, rfl⟩
    fun i s _ h => claimed_step h
  · cases labelAt labels i <;> simp [Naming.start]
  · simp [Naming.start]

/-! ## The names that are cleaned -/

variable (ground) in
/-- The ground takes its one name now. -/
def becomesGround (groundTaken : Bool) (l : Label) (g : GroundRule) : Prop :=
  ground = some g ∧ groundTaken = false ∧ l.isGround = true

/-- A cleaned name is mesh-safe and free of the meshers' own, and it is the ground's or the patch's
`case_name`. -/
theorem spell_spec (groundTaken : Bool) (l : Label) :
    isMeshSafe (spell ground groundTaken l).1 = true ∧
      isReserved (spell ground groundTaken l).1 = false ∧
      ((spell ground groundTaken l).1 = caseName l.typed ∧
          (spell ground groundTaken l).2.2 = groundTaken ∧
          ¬ (ground.isSome = true ∧ groundTaken = false ∧ l.isGround = true) ∨
        ∃ g, becomesGround ground groundTaken l g ∧ (spell ground groundTaken l).1 = g.name ∧
          (spell ground groundTaken l).2.2 = true) := by
  have hsafe := isMeshSafe_meshSafe l.typed
  have hcase : isMeshSafe (caseName l.typed) = true ∧ isReserved (caseName l.typed) = false :=
    ⟨isMeshSafe_unreserved hsafe, isReserved_unreserved hsafe⟩
  have hplain (hno : ¬ (ground.isSome = true ∧ groundTaken = false ∧ l.isGround = true)) :
      (spell ground groundTaken l).1 = caseName l.typed ∧
        (spell ground groundTaken l).2.2 = groundTaken := by
    unfold spell caseName unreserved
    cases ground with
    | none =>
      dsimp only
      split <;> exact ⟨rfl, rfl⟩
    | some g =>
      have hskip : ¬ (groundTaken = false ∧ l.isGround = true) := fun h => hno ⟨rfl, h⟩
      simp only [if_neg hskip]
      split <;> exact ⟨rfl, rfl⟩
  by_cases hground : ground.isSome = true ∧ groundTaken = false ∧ l.isGround = true
  · obtain ⟨hsome, htaken, hl⟩ := hground
    obtain ⟨g, rfl⟩ := Option.isSome_iff_exists.mp hsome
    have hfree := isReserved_of_isGroundWord (isMeshSafe_iff.mp g.safe).1 g.ground
    have hspell : spell (some g) groundTaken l = (g.name, some .ground, true) := by
      simp [spell, htaken, hl, hfree]
    rw [hspell]
    exact ⟨g.safe, hfree, .inr ⟨g, ⟨rfl, htaken, hl⟩, rfl, rfl⟩⟩
  · obtain ⟨hname, htaken⟩ := hplain hground
    rw [hname]
    exact ⟨hcase.1, hcase.2, .inl ⟨rfl, htaken, hground⟩⟩

variable (labels ground) in
/-- The patch has a name of its own after so many positions of the second pass. -/
def Own (n i : Nat) : Prop :=
  ∃ l, labelAt labels i = some l ∧ isRepeat labels i l = false ∧
    (keptAsTyped labels ground i l = true ∨ i < n)

variable (labels ground) in
/-- The name is the base, or the base with a number where another patch has the base. -/
def ComesFrom (s : Naming) (i : Nat) (base name : Str) : Prop :=
  name = base ∨ (∃ k, name = suffixed base k) ∧
    ∃ j other, j ≠ i ∧ s.final j = some other ∧ Text.casefold other = Text.casefold base ∧
      Own labels ground i j

variable (labels ground) in
/-- After so many positions of the second pass. -/
structure Cleaned (n : Nat) (s : Naming) : Prop where
  some_iff : ∀ i, (s.final i).isSome = true ↔ Own labels ground n i
  kept : ∀ i l, labelAt labels i = some l → keptAsTyped labels ground i l = true →
    s.final i = some l.typed
  taken : ∀ key, key ∈ s.taken ↔ ∃ i name, s.final i = some name ∧ Text.casefold name = key
  apart : ∀ i j name other, s.final i = some name → s.final j = some other →
    Text.casefold name = Text.casefold other → i = j
  safe : ∀ i name, s.final i = some name → isMeshSafe name = true ∧ isReserved name = false
  length : s.taken.length ≤ labels.length + n
  /-- The ground has its name as soon as the first ground was met. -/
  floor : s.groundTaken = true ↔ groundTyped labels ground = true ∨
    ground.isSome = true ∧ ∃ i l, i < n ∧ labelAt labels i = some l ∧
      isRepeat labels i l = false ∧ l.isGround = true
  named : ∀ g ∈ ground, groundTyped labels ground = false → s.groundTaken = true →
    Text.casefold g.name ∈ s.taken
  origin : ∀ i l name, labelAt labels i = some l → keptAsTyped labels ground i l = false →
    s.final i = some name →
      (∃ g ∈ ground, groundTyped labels ground = false ∧ l.isGround = true ∧
        ComesFrom labels ground s i g.name name) ∨
      ComesFrom labels ground s i (caseName l.typed) name

theorem cleaned_start {s : Naming} (h : Claimed labels ground labels.length s) :
    Cleaned labels ground 0 s := by
  have hfinal {i : Nat} {name : Str} (hi : s.final i = some name) :
      ∃ l, labelAt labels i = some l ∧ keptAsTyped labels ground i l = true ∧ name = l.typed := by
    rw [h.final i] at hi
    obtain ⟨l, hl, hkept⟩ := Option.bind_eq_some_iff.mp hi
    split at hkept
    · next hif => exact ⟨l, hl, hif.2, (Option.some.inj hkept).symm⟩
    · cases hkept
  have hkept {i : Nat} {l : Label} (hl : labelAt labels i = some l)
      (hk : keptAsTyped labels ground i l = true) : s.final i = some l.typed := by
    rw [h.final i, hl]
    exact if_pos ⟨lt_length_of_labelAt hl, hk⟩
  constructor
  · intro i
    constructor
    · intro hsome
      obtain ⟨name, hname⟩ := Option.isSome_iff_exists.mp hsome
      obtain ⟨l, hl, hk, -⟩ := hfinal hname
      exact ⟨l, hl, (keptAsTyped_iff.mp hk).1, .inl hk⟩
    · rintro ⟨l, hl, -, hk | hlt⟩
      · rw [hkept hl hk]
        rfl
      · exact absurd hlt (Nat.not_lt_zero i)
  · exact fun i l hl hk => hkept hl hk
  · intro key
    rw [h.taken key]
    constructor
    · rintro ⟨i, l, -, hl, hk, rfl⟩
      exact ⟨i, l.typed, hkept hl hk, rfl⟩
    · rintro ⟨i, name, hname, rfl⟩
      obtain ⟨l, hl, hk, rfl⟩ := hfinal hname
      exact ⟨i, l, lt_length_of_labelAt hl, hl, hk, rfl⟩
  · intro i j name other hi hj hkey
    obtain ⟨l, -, hk, rfl⟩ := hfinal hi
    obtain ⟨m, -, hk', rfl⟩ := hfinal hj
    exact first_unique (keptAsTyped_iff.mp hk).1 (keptAsTyped_iff.mp hk').1 hkey
  · intro i name hi
    obtain ⟨l, -, hk, rfl⟩ := hfinal hi
    exact ⟨(keptAsTyped_iff.mp hk).2.1, (keptAsTyped_iff.mp hk).2.2.1⟩
  · exact h.length
  · rw [h.ground]
    simp
  · intro g _ hfree htaken
    rw [h.ground, hfree] at htaken
    cases htaken
  · intro i l name hl hno hi
    obtain ⟨m, hm, hk, -⟩ := hfinal hi
    obtain rfl : l = m := Option.some.inj (hl.symm.trans hm)
    exact absurd hk (by simp [hno])

/-- What a name that is told apart is: free, and the base or the base with a small number. -/
theorem tellApart_spec {taken : List Str} {base : Str} (hbase : isMeshSafe base = true)
    (hfree : isReserved base = false) (hlen : taken.length + 4 < maxNumber) :
    Text.casefold (tellApart taken base) ∉ taken ∧ isMeshSafe (tellApart taken base) = true ∧
      isReserved (tellApart taken base) = false ∧
      (tellApart taken base = base ∨
        Text.casefold base ∈ taken ∧ ∃ k, tellApart taken base = suffixed base k) := by
  refine ⟨Numbering.firstFree_free fun i j => suffixed_inj, ?_⟩
  unfold tellApart
  obtain heq | ⟨htaken, k, -, hk, heq⟩ := @Numbering.firstFree_cases Str Str _ taken
    Text.casefold (suffixed base) (taken.length + 2) 2 base
  · rw [heq]
    exact ⟨hbase, hfree, .inl rfl⟩
  · have hnumber : k < maxNumber := by omega
    rw [heq]
    exact ⟨isMeshSafe_suffixed hbase hnumber, isReserved_suffixed hbase hnumber,
      .inr ⟨htaken, k, rfl⟩⟩

theorem Own.mono {n k i : Nat} (h : Own labels ground n i) (hle : n ≤ k) :
    Own labels ground k i := by
  obtain ⟨l, hl, hfirst, hk | hlt⟩ := h
  · exact ⟨l, hl, hfirst, .inl hk⟩
  · exact ⟨l, hl, hfirst, .inr (Nat.lt_of_lt_of_le hlt hle)⟩

theorem own_succ_of_ne {n i : Nat} (hne : i ≠ n) :
    Own labels ground (n + 1) i ↔ Own labels ground n i := by
  constructor
  · rintro ⟨l, hl, hfirst, hk | hlt⟩
    · exact ⟨l, hl, hfirst, .inl hk⟩
    · exact ⟨l, hl, hfirst, .inr (by omega)⟩
  · exact fun h => h.mono (Nat.le_succ n)

/-- A position that gets no name in the second pass. -/
theorem Cleaned.skip {n : Nat} {s : Naming} (h : Cleaned labels ground n s)
    (hskip : ∀ l, labelAt labels n = some l → isRepeat labels n l = false →
      keptAsTyped labels ground n l = true) : Cleaned labels ground (n + 1) s := by
  have hown (i : Nat) : Own labels ground (n + 1) i ↔ Own labels ground n i := by
    by_cases hi : i = n
    · subst hi
      refine ⟨?_, fun h => h.mono (Nat.le_succ i)⟩
      rintro ⟨l, hl, hfirst, -⟩
      exact ⟨l, hl, hfirst, .inl (hskip l hl hfirst)⟩
    · exact own_succ_of_ne hi
  refine ⟨fun i => (h.some_iff i).trans (hown i).symm, h.kept, h.taken, h.apart, h.safe,
    Nat.le_succ_of_le h.length, ?_, h.named, h.origin⟩
  rw [h.floor]
  constructor
  · rintro (htyped | ⟨hsome, i, l, hi, hrest⟩)
    · exact .inl htyped
    · exact .inr ⟨hsome, i, l, Nat.lt_succ_of_lt hi, hrest⟩
  · rintro (htyped | ⟨hsome, i, l, hi, hl, hfirst, hground⟩)
    · exact .inl htyped
    · obtain hi | rfl := Nat.lt_succ_iff_lt_or_eq.mp hi
      · exact .inr ⟨hsome, i, l, hi, hl, hfirst, hground⟩
      · -- a ground that keeps its name was not allowed to take the ground's
        left
        by_contra hfree
        exact (keptAsTyped_iff.mp (hskip l hl hfirst)).2.2.2
          ⟨hsome, by simpa using hfree, hground⟩

/-- What the second pass does at a position. -/
theorem claimCleaned_cases {n : Nat} {s : Naming} (h : Cleaned labels ground n s) :
    claimCleaned labels ground s n = s ∧
        (∀ l, labelAt labels n = some l → isRepeat labels n l = false →
          keptAsTyped labels ground n l = true) ∨
      ∃ l, labelAt labels n = some l ∧ isRepeat labels n l = false ∧
        keptAsTyped labels ground n l = false ∧ s.final n = none ∧
        (claimCleaned labels ground s n).taken =
          s.taken ++ [Text.casefold (tellApart s.taken (spell ground s.groundTaken l).1)] ∧
        (claimCleaned labels ground s n).final =
          Function.update s.final n (some (tellApart s.taken (spell ground s.groundTaken l).1)) ∧
        (claimCleaned labels ground s n).groundTaken = (spell ground s.groundTaken l).2.2 := by
  cases hl : labelAt labels n with
  | none => exact .inl ⟨by simp [claimCleaned, hl], by simp⟩
  | some l =>
    by_cases hskip : (s.final n).isSome = true ∨ isRepeat labels n l = true
    · left
      refine ⟨by simp only [claimCleaned, hl, if_pos hskip], ?_⟩
      rintro m hm hfirst
      obtain rfl : l = m := Option.some.inj hm
      obtain hsome | hrepeat := hskip
      · obtain ⟨m, hm, -, hk | hlt⟩ := (h.some_iff n).mp hsome
        · obtain rfl : l = m := Option.some.inj (hl.symm.trans hm)
          exact hk
        · exact absurd hlt (Nat.lt_irrefl n)
      · exact absurd (hfirst.symm.trans hrepeat) (by decide)
    · right
      obtain ⟨hnone, hfirst⟩ := not_or.mp hskip
      refine ⟨l, rfl, by simpa using hfirst, ?_, by simpa using hnone, ?_⟩
      · by_contra hk
        have hkept := h.kept n l hl (by simpa using hk)
        simp [hkept] at hnone
      · simp only [claimCleaned, hl, if_neg hskip, and_self]

theorem cleaned_step {n : Nat} {s : Naming} (h : Cleaned labels ground n s)
    (hn : n < labels.length) (hshort : labels.length < 2 ^ 63) :
    Cleaned labels ground (n + 1) (claimCleaned labels ground s n) := by
  obtain ⟨hsame, hskip⟩ | ⟨l, hl, hfirst, hnokept, hnone, htaken', hfinal', hfloor'⟩ :=
    claimCleaned_cases h
  · rw [hsame]
    exact h.skip hskip
  obtain ⟨hbase, hfree, hspelled⟩ := @spell_spec ground s.groundTaken l
  have hlength := h.length
  obtain ⟨hnew, hsafe, hunreserved, hname⟩ :=
    @tellApart_spec s.taken _ hbase hfree (by unfold maxNumber; omega)
  generalize hv : claimCleaned labels ground s n = v at htaken' hfinal' hfloor' ⊢
  generalize (spell ground s.groundTaken l).1 = base
    at hspelled hnew hname htaken' hfinal' hsafe hunreserved
  generalize tellApart s.taken base = name at hnew hname htaken' hfinal' hsafe hunreserved
  have hat : v.final n = some name := by rw [hfinal', Function.update_self]
  have hother {i : Nat} (hi : i ≠ n) : v.final i = s.final i := by
    rw [hfinal', Function.update_of_ne hi]
  have hold {i : Nat} {other : Str} (hi : s.final i = some other) : i ≠ n := by
    rintro rfl
    exact absurd (hi.symm.trans hnone) (by simp)
  have hnewKey {i : Nat} {other : Str} (hi : s.final i = some other) :
      Text.casefold other ≠ Text.casefold name := fun heq =>
    hnew ((h.taken _).mpr ⟨i, other, hi, heq⟩)
  constructor
  · intro i
    by_cases hi : i = n
    · subst hi
      rw [hat]
      exact iff_of_true rfl ⟨l, hl, hfirst, .inr (Nat.lt_succ_self i)⟩
    · rw [hother hi, h.some_iff i, own_succ_of_ne hi]
  · intro i m hm hk
    have hi : i ≠ n := by
      rintro rfl
      obtain rfl : l = m := Option.some.inj (hl.symm.trans hm)
      exact absurd (hnokept.symm.trans hk) (by decide)
    rw [hother hi]
    exact h.kept i m hm hk
  · intro key
    rw [htaken', List.mem_append, h.taken key, List.mem_singleton]
    constructor
    · rintro (⟨i, other, hi, rfl⟩ | rfl)
      · exact ⟨i, other, (hother (hold hi)).trans hi, rfl⟩
      · exact ⟨n, name, hat, rfl⟩
    · rintro ⟨i, other, hi, rfl⟩
      by_cases hin : i = n
      · subst hin
        obtain rfl : name = other := Option.some.inj (hat.symm.trans hi)
        exact .inr rfl
      · exact .inl ⟨i, other, (hother hin).symm.trans hi, rfl⟩
  · intro i j name₁ name₂ hi hj hkey
    by_cases hin : i = n <;> by_cases hjn : j = n
    · rw [hin, hjn]
    · subst hin
      obtain rfl : name = name₁ := Option.some.inj (hat.symm.trans hi)
      exact absurd hkey.symm (hnewKey ((hother hjn).symm.trans hj))
    · subst hjn
      obtain rfl : name = name₂ := Option.some.inj (hat.symm.trans hj)
      exact absurd hkey (hnewKey ((hother hin).symm.trans hi))
    · exact h.apart i j name₁ name₂ ((hother hin).symm.trans hi) ((hother hjn).symm.trans hj) hkey
  · intro i other hi
    by_cases hin : i = n
    · subst hin
      obtain rfl : name = other := Option.some.inj (hat.symm.trans hi)
      exact ⟨hsafe, hunreserved⟩
    · exact h.safe i other ((hother hin).symm.trans hi)
  · rw [htaken', List.length_append, List.length_singleton]
    omega
  · obtain ⟨-, hsame, hno⟩ | ⟨g, ⟨hg, htaken, hground⟩, -, hnow⟩ := hspelled
    · rw [hfloor', hsame, h.floor]
      constructor
      · rintro (htyped | ⟨hsome, i, m, hi, hrest⟩)
        · exact .inl htyped
        · exact .inr ⟨hsome, i, m, Nat.lt_succ_of_lt hi, hrest⟩
      · rintro (htyped | ⟨hsome, i, m, hi, hm, hfirst', hground⟩)
        · exact .inl htyped
        · obtain hi | rfl := Nat.lt_succ_iff_lt_or_eq.mp hi
          · exact .inr ⟨hsome, i, m, hi, hm, hfirst', hground⟩
          · obtain rfl : l = m := Option.some.inj (hl.symm.trans hm)
            have htaken : s.groundTaken = true := by
              by_contra hfree'
              exact hno ⟨hsome, by simpa using hfree', hground⟩
            exact h.floor.mp htaken
    · rw [hfloor', hnow]
      refine iff_of_true rfl (.inr ⟨by simp [hg], n, l, Nat.lt_succ_self n, hl, hfirst, hground⟩)
  · intro g hg hfree' hnow
    rw [htaken', List.mem_append, List.mem_singleton]
    obtain ⟨-, hsame, -⟩ | ⟨g', ⟨hg', htaken, hground⟩, hbase', -⟩ := hspelled
    · exact .inl (h.named g hg hfree' (by rw [← hsame, ← hfloor']; exact hnow))
    · obtain rfl : g' = g := Option.some.inj (hg'.symm.trans hg)
      obtain heq | ⟨hmem, -⟩ := hname
      · exact .inr (by rw [heq, hbase'])
      · exact .inl (hbase' ▸ hmem)
  · intro i m other hm hk hi
    have hcarry {base' : Str} (hfrom : ComesFrom labels ground s i base' other) :
        ComesFrom labels ground v i base' other := by
      obtain heq | ⟨hnumber, j, holder, hne, hj, hkey, hown⟩ := hfrom
      · exact .inl heq
      · exact .inr ⟨hnumber, j, holder, hne, (hother (hold hj)).trans hj, hkey, hown⟩
    by_cases hin : i = n
    · subst hin
      obtain rfl : l = m := Option.some.inj (hl.symm.trans hm)
      obtain rfl : name = other := Option.some.inj (hat.symm.trans hi)
      have hfrom : ComesFrom labels ground v i base name := by
        obtain heq | ⟨hmem, hnumber⟩ := hname
        · exact .inl heq
        · obtain ⟨j, holder, hj, hkey⟩ := (h.taken _).mp hmem
          refine .inr ⟨hnumber, j, holder, hold hj, (hother (hold hj)).trans hj, hkey, ?_⟩
          exact (h.some_iff j).mp (by rw [hj]; rfl)
      obtain ⟨hcase, -, -⟩ | ⟨g, ⟨hg, htaken, hground⟩, hbase', -⟩ := hspelled
      · exact .inr (hcase ▸ hfrom)
      · refine .inl ⟨g, hg, ?_, hground, hbase' ▸ hfrom⟩
        by_contra htyped
        have hnow := h.floor.mpr (.inl (by simpa using htyped))
        exact absurd (htaken.symm.trans hnow) (by decide)
    · obtain ⟨g, hg, hfree', hground, hfrom⟩ | hfrom :=
        h.origin i m other hm hk ((hother hin).symm.trans hi)
      · exact .inl ⟨g, hg, hfree', hground, hcarry hfrom⟩
      · exact .inr (hcarry hfrom)

variable (labels ground) in
/-- The naming after its second pass. -/
def cleanedNames : Naming :=
  let positions := List.range labels.length
  positions.foldl (claimCleaned labels ground)
    (positions.foldl (claimTyped labels ground) (Naming.start labels ground))

theorem cleaned_all (hshort : labels.length < 2 ^ 63) :
    Cleaned labels ground labels.length (cleanedNames labels ground) :=
  Numbering.foldl_range _ (cleaned_start claimed_all) fun _ _ hi h => cleaned_step h hi hshort

/-! ## The repeats -/

variable (labels ground) in
/-- The name of the first patch of a spelling. -/
def firstName (l : Label) : Str :=
  ((cleanedNames labels ground).final (firstOf labels l.key)).getD []

variable (labels ground) in
/-- What a repeat is called: as its first when it is typed like it, else in its own capitals unless
cleaning would take the two apart. -/
def repeatName (l : Label) : Str :=
  let name := firstName labels ground l
  if (labelAt labels (firstOf labels l.key)).any (·.typed == l.typed) then name
  else if Text.casefold (caseName l.typed) ≠ Text.casefold name then name
  else caseName l.typed

variable (labels ground) in
/-- After so many positions of the third pass. -/
structure Repeated (n : Nat) (s : Naming) : Prop where
  unnamed : ∀ i, labelAt labels i = none → s.final i = none
  own : ∀ i l, labelAt labels i = some l → isRepeat labels i l = false →
    s.final i = (cleanedNames labels ground).final i
  repeated : ∀ i l, i < n → labelAt labels i = some l → isRepeat labels i l = true →
    s.final i = some (repeatName labels ground l)

theorem claimRepeat_final {n : Nat} {s : Naming} (h : Repeated labels ground n s)
    (hl : labelAt labels n = some l) (hrepeat : isRepeat labels n l = true) :
    (claimRepeat labels s n).final = Function.update s.final n (some (repeatName labels ground l)) := by
  obtain ⟨-, m, hm, hkey⟩ := labelAt_firstOf hl
  have hname : (s.final (firstOf labels l.key)).getD [] = firstName labels ground l := by
    rw [h.own _ m hm (not_repeat_firstOf hkey)]
    rfl
  have hcase : caseName l.typed =
      if isReserved (meshSafe l.typed) then unreserved (meshSafe l.typed) else meshSafe l.typed := by
    unfold caseName unreserved
    split <;> rfl
  simp only [claimRepeat, hl, if_pos hrepeat, hname, repeatName]
  by_cases hsame : (labelAt labels (firstOf labels l.key)).any (·.typed == l.typed) = true
  · simp only [if_pos hsame]
  · simp only [if_neg hsame, hcase]
    by_cases hreserved : isReserved (meshSafe l.typed) = true
    · simp only [if_pos hreserved]
      split <;> rfl
    · simp only [if_neg hreserved]
      split <;> rfl

theorem repeated_step {n : Nat} {s : Naming} (h : Repeated labels ground n s) :
    Repeated labels ground (n + 1) (claimRepeat labels s n) := by
  have hskip (hsame : claimRepeat labels s n = s)
      (hno : ∀ l, labelAt labels n = some l → isRepeat labels n l = false) :
      Repeated labels ground (n + 1) (claimRepeat labels s n) := by
    rw [hsame]
    refine ⟨h.unnamed, h.own, fun i l hi hl hrepeat => ?_⟩
    obtain hi | rfl := Nat.lt_succ_iff_lt_or_eq.mp hi
    · exact h.repeated i l hi hl hrepeat
    · exact absurd ((hno l hl).symm.trans hrepeat) (by decide)
  cases hl : labelAt labels n with
  | none => exact hskip (by simp [claimRepeat, hl]) (by simp [hl])
  | some l =>
    by_cases hrepeat : isRepeat labels n l = true
    · have hfinal := claimRepeat_final h hl hrepeat
      have hother {i : Nat} (hi : i ≠ n) : (claimRepeat labels s n).final i = s.final i := by
        rw [hfinal, Function.update_of_ne hi]
      refine ⟨fun i hi => ?_, fun i m hm hfirst => ?_, fun i m hi hm hrepeat' => ?_⟩
      · rw [hother (by rintro rfl; simp [hl] at hi)]
        exact h.unnamed i hi
      · have hi : i ≠ n := by
          rintro rfl
          obtain rfl : l = m := Option.some.inj (hl.symm.trans hm)
          exact absurd (hfirst.symm.trans hrepeat) (by decide)
        rw [hother hi]
        exact h.own i m hm hfirst
      · by_cases hin : i = n
        · subst hin
          obtain rfl : l = m := Option.some.inj (hl.symm.trans hm)
          rw [hfinal, Function.update_self]
        · rw [hother hin]
          exact h.repeated i m (by omega) hm hrepeat'
    · refine hskip (by simp only [claimRepeat, hl, if_neg hrepeat]) fun m hm => ?_
      obtain rfl : l = m := Option.some.inj (hl.symm.trans hm)
      simpa using hrepeat

theorem repeated_all (hshort : labels.length < 2 ^ 63) :
    Repeated labels ground labels.length (settleNames labels ground) := by
  refine Numbering.foldl_range _ ⟨fun i hi => ?_, fun i l hl hfirst => rfl, ?_⟩
    fun _ _ _ h => repeated_step h
  · have hnone : ¬ ((cleanedNames labels ground).final i).isSome = true := by
      intro hsome
      obtain ⟨l, hl, -⟩ := ((cleaned_all hshort).some_iff i).mp hsome
      simp [hi] at hl
    simpa [cleanedNames] using hnone
  · exact fun i l hi => absurd hi (Nat.not_lt_zero i)

/-! ## Every name -/

/-- The first patch of a spelling has the name it was given. -/
theorem final_first (hshort : labels.length < 2 ^ 63) (hl : labelAt labels i = some l)
    (hfirst : isRepeat labels i l = false) :
    (settleNames labels ground).final i = some (firstName labels ground l) := by
  rw [(repeated_all hshort).own i l hl hfirst]
  have hi : firstOf labels l.key = i := by simpa [isRepeat] using hfirst
  have hsome := ((@cleaned_all labels ground hshort).some_iff i).mpr
    ⟨l, hl, hfirst, .inr (lt_length_of_labelAt hl)⟩
  obtain ⟨name, hname⟩ := Option.isSome_iff_exists.mp hsome
  rw [firstName, hi, hname]
  rfl

/-- Every named patch has a mesh-safe name that no mesher keeps, and it is that of its spelling, in
any capitals. -/
theorem final_spec (hshort : labels.length < 2 ^ 63) (hl : labelAt labels i = some l) :
    ∃ name, (settleNames labels ground).final i = some name ∧ isMeshSafe name = true ∧
      isReserved name = false ∧
        Text.casefold name = Text.casefold (firstName labels ground l) := by
  obtain ⟨-, m, hm, hkey⟩ := labelAt_firstOf hl
  have hfirst := @final_first labels ground _ _ hshort hm (not_repeat_firstOf hkey)
  have hname : firstName labels ground m = firstName labels ground l := by
    rw [firstName, firstName, hkey]
  have hsafe : isMeshSafe (firstName labels ground l) = true ∧
      isReserved (firstName labels ground l) = false := by
    rw [(repeated_all hshort).own _ m hm (not_repeat_firstOf hkey), hname] at hfirst
    exact (cleaned_all hshort).safe _ _ hfirst
  by_cases hrepeat : isRepeat labels i l = true
  · refine ⟨_, (repeated_all hshort).repeated i l (lt_length_of_labelAt hl) hl hrepeat, ?_⟩
    unfold repeatName
    dsimp only
    split
    · exact ⟨hsafe.1, hsafe.2, rfl⟩
    · split
      · exact ⟨hsafe.1, hsafe.2, rfl⟩
      · next hcase =>
        have hcleaned := isMeshSafe_meshSafe l.typed
        exact ⟨isMeshSafe_unreserved hcleaned, isReserved_unreserved hcleaned, by simpa using hcase⟩
  · exact ⟨_, final_first hshort hl (by simpa using hrepeat), hsafe.1, hsafe.2, rfl⟩

/-- Two patches share a name in any capitals exactly when they were typed so. -/
theorem casefold_final_iff (hshort : labels.length < 2 ^ 63) {name other : Str}
    (hl : labelAt labels i = some l) (hm : labelAt labels j = some m)
    (hi : (settleNames labels ground).final i = some name)
    (hj : (settleNames labels ground).final j = some other) :
    Text.casefold name = Text.casefold other ↔ l.key = m.key := by
  obtain ⟨name', hname', -, -, hkeyName⟩ := @final_spec labels ground _ _ hshort hl
  obtain ⟨other', hother', -, -, hkeyOther⟩ := @final_spec labels ground _ _ hshort hm
  obtain rfl : name = name' := Option.some.inj (hi.symm.trans hname')
  obtain rfl : other = other' := Option.some.inj (hj.symm.trans hother')
  rw [hkeyName, hkeyOther]
  constructor
  · intro hsame
    obtain ⟨-, l', hl', hkey⟩ := labelAt_firstOf hl
    obtain ⟨-, m', hm', hkey'⟩ := labelAt_firstOf hm
    have hfirst {x x' : Label} (hx : labelAt labels (firstOf labels x.key) = some x')
        (hk : x'.key = x.key) : (cleanedNames labels ground).final (firstOf labels x.key) =
          some (firstName labels ground x) := by
      have hfinal := @final_first labels ground _ _ hshort hx (not_repeat_firstOf hk)
      rw [(repeated_all hshort).own _ x' hx (not_repeat_firstOf hk)] at hfinal
      rw [hfinal, firstName, firstName, hk]
    have hplace := (cleaned_all hshort).apart _ _ _ _ (hfirst hl' hkey) (hfirst hm' hkey') hsame
    rw [hplace] at hl'
    rw [← hkey, ← hkey', Option.some.inj (hl'.symm.trans hm')]
  · intro hkey
    rw [firstName, firstName, hkey]

/-- A name that was typed correctly is kept. -/
theorem final_kept (hshort : labels.length < 2 ^ 63) (hl : labelAt labels i = some l)
    (hk : keptAsTyped labels ground i l = true) :
    (settleNames labels ground).final i = some l.typed := by
  rw [(repeated_all hshort).own i l hl (keptAsTyped_iff.mp hk).1]
  exact (cleaned_all hshort).kept i l hl hk

end

end MeshPipeline.Boundary
