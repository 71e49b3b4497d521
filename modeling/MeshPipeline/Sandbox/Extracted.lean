import Mathlib.Algebra.GroupWithZero.Nat
import MeshPipeline.Sandbox.SafeExtract

/-!
# What an extraction leaves behind

An archive that is extracted lies inside the destination and within the limits. Its files are there under
their own paths, and the others are as they were.
-/

namespace MeshPipeline.Sandbox

open FileTree

variable {dest : List String} {limits : ExtractionLimits} {members : List Member} {m : Member}

/-! ## Paths -/

/-- The path of a member in the destination, for a member whose name is safe. -/
def Member.path (m : Member) : List String := parts m.name

lemma foldl_resolve {ps : List String} (h : ".." ∉ ps) (out : List String) :
    ps.foldl (fun out p => if p = ".." then out.dropLast else out ++ [p]) out = out ++ ps := by
  induction ps generalizing out with
  | nil => simp
  | cons p ps ih => grind

lemma resolve_append {ps : List String} (h : ".." ∉ ps) :
    resolve (dest ++ ps) = resolve dest ++ ps := by
  unfold resolve
  rw [List.foldl_append, foldl_resolve h]

lemma target_of_safe {name : String} {target : List String}
    (h : safeMemberPath dest name limits = .ok target) :
    target = resolve dest ++ parts name ∧ ".." ∉ parts name := by
  unfold safeMemberPath at h
  split_ifs at h with h1 h2 h3 h4 h5
  dsimp only at h
  split_ifs at h
  cases h
  exact ⟨resolve_append h4, h4⟩

/-! ## Validation -/

/-- The bytes of the regular members. -/
def totalSize (members : List Member) : Nat :=
  ((members.filter fun m => m.type = .regular).map Member.size).sum

lemma validateMember_ok {state state' : List String × Nat}
    (h : validateMember dest limits state m = .ok state') :
    (∃ target, safeMemberPath dest m.name limits = .ok target) ∧ spelling m.name ∉ state.1 ∧
      state' = (spelling m.name :: state.1, if m.type = .regular then state.2 + m.size else state.2) := by
  unfold validateMember at h
  cases hsafe : safeMemberPath dest m.name limits with
  | error e => simp [hsafe, bind, Except.bind] at h
  | ok target =>
    refine ⟨⟨target, rfl⟩, ?_⟩
    simp only [hsafe, bind, Except.bind, pure, Except.pure, throw, throwThe,
      MonadExceptOf.throw] at h
    split_ifs at h <;> simp_all

lemma validate_fold {state state' : List String × Nat}
    (h : members.foldlM (validateMember dest limits) state = .ok state') :
    (∀ m ∈ members, (∃ target, safeMemberPath dest m.name limits = .ok target) ∧
      spelling m.name ∉ state.1) ∧
    members.Pairwise (fun m m' => spelling m.name ≠ spelling m'.name) ∧
      state'.2 = state.2 + totalSize members := by
  induction members generalizing state with
  | nil =>
    cases h
    simp [totalSize]
  | cons m members ih =>
    rw [List.foldlM_cons] at h
    cases hm : validateMember dest limits state m with
    | error e => simp [hm, bind, Except.bind] at h
    | ok next =>
      simp only [hm, bind, Except.bind] at h
      obtain ⟨hsafe, hnew, hnext⟩ := validateMember_ok hm
      obtain ⟨hall, hpairwise, htotal⟩ := ih h
      refine ⟨?_, ?_, ?_⟩
      · intro m' hm'
        obtain rfl | hm' := List.mem_cons.mp hm'
        · exact ⟨hsafe, hnew⟩
        · have := hall m' hm'
          grind
      · refine List.pairwise_cons.mpr ⟨fun m' hm' => ?_, hpairwise⟩
        have := (hall m' hm').2
        grind
      · rw [htotal, hnext]
        by_cases hregular : m.type = .regular
        · simp [totalSize, hregular]
          omega
        · simp [totalSize, hregular]

lemma validated {archiveBytes : Nat}
    (h : validateMembers members dest limits archiveBytes = .ok ()) :
    (∀ m ∈ members, ∃ target, safeMemberPath dest m.name limits = .ok target) ∧
    members.Pairwise (fun m m' => spelling m.name ≠ spelling m'.name) ∧
      (members.length : Int) ≤ limits.maxEntries ∧
        (totalSize members : Int) ≤ limits.maxTotalUncompressedBytes := by
  unfold validateMembers at h
  cases hfold : members.foldlM (validateMember dest limits) ([], 0) with
  | error e =>
    simp only [hfold, bind, Except.bind, throw, throwThe, MonadExceptOf.throw] at h
    split_ifs at h
  | ok state =>
    obtain ⟨hall, hpairwise, htotal⟩ := validate_fold hfold
    simp only [hfold, bind, Except.bind, pure, Except.pure, throw, throwThe,
      MonadExceptOf.throw] at h
    split_ifs at h with h1 h2 h3
    refine ⟨fun m hm => (hall m hm).1, hpairwise, by omega, ?_⟩
    rw [Nat.zero_add] at htotal
    rw [← htotal]
    omega

/-! ## The members -/

lemma extractMember_ok {fault : Bool} {state state' : Tree × Nat}
    (h : extractMember dest limits fault m state = .ok state') :
    match m.type with
    | .directory => state.1.makeDirs m.path = some state'.1
    | .regular => state.1.write (.file (m.data.take m.size)) m.path = some state'.1 ∧
        (m.data.take m.size).length = m.size
    | _ => state' = state := by
  unfold extractMember at h
  cases hsafe : safeMemberPath dest m.name limits with
  | error e => simp [hsafe, bind, Except.bind] at h
  | ok target =>
    obtain ⟨rfl, -⟩ := target_of_safe hsafe
    have hpath : m.path = parts m.name := rfl
    rw [hpath]
    simp only [hsafe, bind, Except.bind, pure, Except.pure, throw, throwThe, MonadExceptOf.throw,
      List.drop_left] at h
    cases htype : m.type with
    | directory =>
      simp only [htype] at h
      cases hmake : state.1.makeDirs (parts m.name) with
      | none => grind
      | some tree => grind
    | regular =>
      simp only [htype] at h
      cases hwrite : state.1.write (.file (m.data.take m.size)) (parts m.name) with
      | none => grind
      | some tree => grind
    | _ =>
      simp only [htype] at h
      grind

/-- What a member does to the leaves: a file is written at its path, and no other changes. -/
lemma leaves_extractMember {fault : Bool} {state state' : Tree × Nat}
    (h : extractMember dest limits fault m state = .ok state') :
    (state.1.WF → state'.1.WF) ∧
    (m.type = .regular → state'.1.lookup m.path = some (.leaf (.file (m.data.take m.size))) ∧
      (m.data.take m.size).length = m.size) ∧
    ∀ q y, (m.type = .regular → m.path ≠ q) →
      (state'.1.lookup q = some (.leaf y) ↔ state.1.lookup q = some (.leaf y)) := by
  have hok := extractMember_ok h
  cases htype : m.type with
  | directory =>
    simp only [htype] at hok
    exact ⟨fun ht => wf_makeDirs ht hok, by simp, fun q y _ => lookup_makeDirs hok⟩
  | regular =>
    simp only [htype] at hok
    exact ⟨fun ht => wf_write ht hok.1, fun _ => ⟨lookup_write_self hok.1, hok.2⟩,
      fun q y hq => lookup_write_ne hok.1 (hq rfl)⟩
  | _ =>
    simp only [htype] at hok
    subst hok
    exact ⟨id, by simp, fun q y _ => Iff.rfl⟩

/-- What the loop does to the leaves. -/
lemma leaves_extractMembers {fault : Nat → Bool} {i : Nat} {state state' : Tree × Nat}
    (h : extractMembers dest limits fault i members state = .ok state') :
    (state.1.WF → state'.1.WF) ∧
    (∀ q y, (∀ m ∈ members, m.type = .regular → m.path ≠ q) →
      (state'.1.lookup q = some (.leaf y) ↔ state.1.lookup q = some (.leaf y))) ∧
    ((members.filter fun m => m.type = .regular).Pairwise (fun m m' => m.path ≠ m'.path) →
      ∀ m ∈ members, m.type = .regular →
        state'.1.lookup m.path = some (.leaf (.file (m.data.take m.size))) ∧
          (m.data.take m.size).length = m.size) := by
  induction members generalizing i state with
  | nil =>
    cases h
    simp
  | cons m members ih =>
    unfold extractMembers at h
    cases hm : extractMember dest limits (fault i) m state with
    | error e => simp [hm, bind, Except.bind] at h
    | ok next =>
      simp only [hm, bind, Except.bind] at h
      obtain ⟨hwf, hwritten, hothers⟩ := leaves_extractMember hm
      obtain ⟨hwf', hothers', hwritten'⟩ := ih h
      refine ⟨fun ht => hwf' (hwf ht), fun q y hq => ?_, fun hdistinct m' hm' hregular => ?_⟩
      · rw [hothers' q y fun m' hm' => hq m' (List.mem_cons_of_mem m hm')]
        exact hothers q y (hq m List.mem_cons_self)
      · obtain rfl | hm' := List.mem_cons.mp hm'
        · have hdistinct : ∀ m'' ∈ members, m''.type = .regular → m''.path ≠ m'.path := by
            intro m'' hm'' hregular''
            simp only [hregular, List.filter_cons, decide_true, if_true] at hdistinct
            have := (List.pairwise_cons.mp hdistinct).1 m''
              (List.mem_filter.mpr ⟨hm'', by simpa using hregular''⟩)
            exact this.symm
          refine ⟨(hothers' _ _ hdistinct).mpr (hwritten hregular).1, (hwritten hregular).2⟩
        · refine hwritten' ?_ m' hm' hregular
          rw [List.filter_cons] at hdistinct
          split_ifs at hdistinct
          · exact (List.pairwise_cons.mp hdistinct).2
          · exact hdistinct

/-! ## The merge -/

lemma checkMerge_put {staged dest : Tree} {n : String} (hn : n ∉ staged.names)
    (i : Item String Leaf) : checkMerge staged (dest.put n i) = checkMerge staged dest := by
  induction staged with
  | nil => rfl
  | leaf m x rest ih => grind [checkMerge]
  | dir m inside rest _ ih => grind [checkMerge]

lemma get_moveOver (fault : Nat → Bool) {staged : Tree} (dest : Tree) {n : String}
    (hn : n ∉ staged.names) (i : Nat) : (moveOver fault staged dest i).1.get n = dest.get n := by
  induction staged generalizing dest i with
  | nil => rfl
  | leaf m x rest ih => grind [moveOver]
  | dir m inside rest _ ih => grind [moveOver]

/-- Where nothing conflicts and every move succeeds, the staged leaves are in place and the others are
as they were. -/
lemma lookup_moveOver {fault : Nat → Bool} {staged dest dest' : Tree} {i j : Nat}
    (hwf : staged.WF) (hcheck : checkMerge staged dest = none)
    (h : moveOver fault staged dest i = (dest', some j)) (q : List String) (y : Leaf) :
    (staged.lookup q = some (.leaf y) → dest'.lookup q = some (.leaf y)) ∧
      ((∀ x, staged.lookup q ≠ some (.leaf x)) → dest.lookup q = some (.leaf y) →
        dest'.lookup q = some (.leaf y)) := by
  induction staged generalizing dest dest' i j q with
  | nil =>
    cases h
    have := lookup_nil q y
    grind
  | leaf n x rest ih =>
    cases q with
    | nil => grind
    | cons m q =>
      have hmoved := get_moveOver fault (dest.put n (.leaf x)) hwf.1 (i + 1)
      have hrest := @ih (dest.put n (.leaf x)) dest' (i + 1) j
      grind [checkMerge, moveOver, checkMerge_put]
  | dir n inside rest ihinside ihrest =>
    cases hget : dest.get n with
    | none =>
      cases q with
      | nil => grind
      | cons m q =>
        have hmoved := get_moveOver fault (dest.put n (.dir inside)) hwf.1 (i + 1)
        have hrest := @ihrest (dest.put n (.dir inside)) dest' (i + 1) j
        grind [checkMerge, moveOver, checkMerge_put]
    | some item =>
      cases item with
      | leaf x => cases x <;> grind [checkMerge]
      | dir there =>
        obtain ⟨hinside, hrest⟩ := Option.or_eq_none_iff.mp
          (show (checkMerge inside there).or (checkMerge rest dest) = none by grind [checkMerge])
        cases hmove : moveOver fault inside there i with
        | mk there' k =>
          cases k with
          | none => grind [moveOver]
          | some k =>
            cases q with
            | nil => grind
            | cons m q =>
              have hmoved := get_moveOver fault (dest.put n (.dir there')) hwf.1 k
              have hin := ihinside hwf.2.1 hinside hmove q
              have hout := @ihrest (dest.put n (.dir there')) dest' k j
              grind [moveOver, checkMerge_put]

/-! ## Moves that fail -/

/-- The moves that a merge takes. -/
def moveCount : Tree → Tree → Nat
  | .nil, _ => 0
  | .leaf _ _ rest, dest => 1 + moveCount rest dest
  | .dir n inside rest, dest =>
    match dest.get n with
    | some (.dir there) => moveCount inside there + moveCount rest dest
    | _ => 1 + moveCount rest dest

/-- Each move before the one that fails puts a file where the same file is. -/
def Idle (fault : Nat → Bool) : Tree → Tree → Nat → Prop
  | .nil, _, _ => True
  | .leaf n x rest, dest, i =>
    fault i = true ∨ dest.get n = some (.leaf x) ∧ Idle fault rest dest (i + 1)
  | .dir n inside rest, dest, i =>
    match dest.get n with
    | some (.dir there) => Idle fault inside there i ∧
        ((∀ k, i ≤ k → k < i + moveCount inside there → fault k = false) →
          Idle fault rest dest (i + moveCount inside there))
    | _ => fault i = true

lemma moveCount_put {staged dest : Tree} {n : String} (hn : n ∉ staged.names)
    (i : Item String Leaf) : moveCount staged (dest.put n i) = moveCount staged dest := by
  induction staged with
  | nil => rfl
  | leaf m x rest ih => grind [moveCount]
  | dir m inside rest _ ih => grind [moveCount]

/-- One move, and then those after it. -/
lemma moves_cons {fault : Nat → Bool} {i n j : Nat} (hi : fault i = false) :
    (j = i + 1 + n ∧ ∀ k, i + 1 ≤ k → k < i + 1 + n → fault k = false) ↔
      j = i + (1 + n) ∧ ∀ k, i ≤ k → k < i + (1 + n) → fault k = false := by
  rw [Nat.add_assoc]
  refine and_congr_right fun _ => ⟨fun h k hk hlt => ?_, fun h k hk hlt => h k (by omega) hlt⟩
  obtain rfl | hk := Nat.eq_or_lt_of_le hk
  · exact hi
  · exact h k hk hlt

/-- The number of the next move, when none of the merge's moves fails. -/
lemma number_moveOver {fault : Nat → Bool} {staged dest : Tree} (hwf : staged.WF) {i j : Nat} :
    (moveOver fault staged dest i).2 = some j ↔ j = i + moveCount staged dest ∧
      ∀ k, i ≤ k → k < i + moveCount staged dest → fault k = false := by
  have hfault : ∀ {i n}, fault i = true → ¬ ∀ k, i ≤ k → k < i + (1 + n) → fault k = false := by
    intro i n hi h
    have := h i (Nat.le_refl i) (by omega)
    simp [hi] at this
  induction staged generalizing dest i j with
  | nil => grind [moveOver, moveCount]
  | leaf n x rest ih =>
    have hrest := @ih (dest.put n (.leaf x)) hwf.2 (i + 1) j
    rw [moveCount_put hwf.1] at hrest
    cases hi : fault i with
    | true =>
      have := @hfault i (moveCount rest dest) hi
      grind [moveOver, moveCount]
    | false =>
      simp only [moveOver, moveCount, hi]
      exact hrest.trans (moves_cons hi)
  | dir n inside rest ihinside ihrest =>
    have hwhole : moveCount (.dir n inside rest) dest = 1 + moveCount rest dest →
        (moveOver fault (.dir n inside rest) dest i =
          if fault i then (dest, none) else moveOver fault rest (dest.put n (.dir inside)) (i + 1)) →
        ((moveOver fault (.dir n inside rest) dest i).2 = some j ↔
          j = i + moveCount (.dir n inside rest) dest ∧
          ∀ k, i ≤ k → k < i + moveCount (.dir n inside rest) dest → fault k = false) := by
      intro hcount hmove
      have hrest := @ihrest (dest.put n (.dir inside)) hwf.2.2 (i + 1) j
      rw [moveCount_put hwf.1] at hrest
      rw [hcount, hmove]
      cases hi : fault i with
      | true =>
        have := @hfault i (moveCount rest dest) hi
        grind
      | false => simpa using hrest.trans (moves_cons hi)
    cases hget : dest.get n with
    | none => exact hwhole (by simp [moveCount, hget]) (by simp [moveOver, hget])
    | some item =>
      cases item with
      | leaf x => exact hwhole (by simp [moveCount, hget]) (by simp [moveOver, hget])
      | dir there =>
        have hin := fun k => @ihinside there hwf.2.1 i k
        have hout := fun k => @ihrest (dest.put n (.dir (moveOver fault inside there i).1)) hwf.2.2 k j
        simp only [moveCount_put hwf.1] at hout
        simp only [moveOver, moveCount, hget]
        cases hmove : moveOver fault inside there i with
        | mk there' k =>
          rw [hmove] at hin hout
          cases k with
          | none =>
            simp only [reduceCtorEq, false_iff, not_and] at hin ⊢
            intro hj h
            exact hin _ rfl (fun k hk hlt => h k hk (by omega))
          | some k =>
            obtain ⟨rfl, hnone⟩ := (hin k).mp rfl
            refine (hout _).trans (and_congr (by omega) ⟨fun h k hk hlt => ?_, fun h k hk hlt => ?_⟩)
            · by_cases hlt' : k < i + moveCount inside there
              · exact hnone k hk hlt'
              · exact h k (by omega) (by omega)
            · exact h k (by omega) (by omega)

/-- A merge leaves the destination as it was exactly when the moves that it made put nothing new. -/
lemma moveOver_eq_iff {fault : Nat → Bool} {staged dest : Tree} (hwf : staged.WF) (i : Nat) :
    (moveOver fault staged dest i).1 = dest ↔ Idle fault staged dest i := by
  induction staged generalizing dest i with
  | nil => simp [moveOver, Idle]
  | leaf n x rest ih =>
    have hmoved := get_moveOver fault (dest.put n (.leaf x)) hwf.1 (i + 1)
    have hsame : dest.get n = some (.leaf x) → dest.put n (.leaf x) = dest := put_get_self
    have hrest := @ih (dest.put n (.leaf x)) hwf.2 (i + 1)
    cases hi : fault i with
    | true => simp [moveOver, Idle, hi]
    | false => grind [moveOver, Idle]
  | dir n inside rest ihinside ihrest =>
    have hwhole : (∀ there, dest.get n ≠ some (.dir there)) →
        (moveOver fault (.dir n inside rest) dest i =
          if fault i then (dest, none) else moveOver fault rest (dest.put n (.dir inside)) (i + 1)) →
        ((moveOver fault (.dir n inside rest) dest i).1 = dest ↔ fault i = true) := by
      intro hnot hmove
      have hmoved := get_moveOver fault (dest.put n (.dir inside)) hwf.1 (i + 1)
      rw [hmove]
      cases hi : fault i with
      | true => simp
      | false => grind
    cases hget : dest.get n with
    | none =>
      simp only [Idle, hget]
      exact hwhole (by simp [hget]) (by simp [moveOver, hget])
    | some item =>
      cases item with
      | leaf x =>
        simp only [Idle, hget]
        exact hwhole (by simp [hget]) (by simp [moveOver, hget])
      | dir there =>
        have hin := @ihinside there hwf.2.1 i
        have hnumber := fun k => @number_moveOver fault inside there hwf.2.1 i k
        simp only [Idle, moveOver, hget]
        cases hmove : moveOver fault inside there i with
        | mk there' k =>
          rw [hmove] at hin hnumber
          have hsame : there' = there → dest.put n (.dir there') = dest := by
            rintro rfl
            exact put_get_self hget
          cases k with
          | none =>
            have hfails : ¬ ∀ k, i ≤ k → k < i + moveCount inside there → fault k = false := by
              intro h
              cases (hnumber _).mpr ⟨rfl, h⟩
            simp only [hfails, false_implies, and_true, ← hin]
            grind
          | some k =>
            obtain ⟨rfl, hnone⟩ := (hnumber k).mp rfl
            have hmoved := get_moveOver fault (dest.put n (.dir there')) hwf.1
              (i + moveCount inside there)
            have hout := @ihrest dest hwf.2.2 (i + moveCount inside there)
            simp only [← hin, ← hout]
            grind

/-! ## The whole extraction -/

/-- What a finished extraction is to have done. -/
structure Sound (limits : ExtractionLimits) (dest : List String) (members : List Member)
    (before after : Tree) : Prop where
  inside : ∀ m ∈ members, m.type = .regular → resolve dest <+: resolve (dest ++ m.path)
  distinct : (members.filter fun m => m.type = .regular).Pairwise fun m m' => m.path ≠ m'.path
  holds : ∀ m ∈ members, m.type = .regular →
    after.lookup m.path = some (.leaf (.file (m.data.take m.size))) ∧
      (m.data.take m.size).length = m.size
  entries : (members.length : Int) ≤ limits.maxEntries
  total : (totalSize members : Int) ≤ limits.maxTotalUncompressedBytes
  unchanged : ∀ q y, before.lookup q = some (.leaf y) →
    (∀ m ∈ members, m.type = .regular → m.path ≠ q) → after.lookup q = some (.leaf y)

/-- Two files whose names have the same components are spelled the same, up to slashes at the end. -/
def SpelledAlike (members : List Member) : Prop :=
  (members.filter fun m => m.type = .regular).Pairwise fun m m' =>
    m.path = m'.path → spelling m.name = spelling m'.name

/-- The moves into a destination that come before one that fails put nothing new there. -/
def MovesIdle (archive : Archive) (staging : List String) (limits : ExtractionLimits)
    (faults : Faults) (before : Tree) : Prop :=
  ∀ staged written, faults.staging = false →
    extractFresh archive staging limits faults (some .nil) = (some staged, .ok written) →
      faults.check = false → checkMerge staged before = none → Idle faults.move staged before 0

lemma extractFresh_ok {archive : Archive} {faults : Faults} {before after : Option Tree}
    {written : Nat}
    (h : extractFresh archive dest limits faults before = (after, .ok written)) :
    ∃ members tree, archive.members = .ok members ∧ after = some tree ∧
      validateMembers members dest limits archive.bytes = .ok () ∧
      extractMembers dest limits faults.member 0 members (.nil, 0) = .ok (tree, written) := by
  unfold extractFresh at h
  split at h
  · cases h
  split at h
  · cases h
  split at h
  · cases h
  split at h
  · cases h
  split at h
  · cases h
  · rename_i members hmembers _ hvalid _ tree written' hextract
    cases h
    exact ⟨members, tree, hmembers, rfl, hvalid, hextract⟩

/-- What the tree of an accepted archive is: within the limits, with the files of the archive and no
others. -/
lemma extracted {tree : Tree} {written archiveBytes : Nat} {fault : Nat → Bool}
    (hvalid : validateMembers members dest limits archiveBytes = .ok ())
    (h : extractMembers dest limits fault 0 members (.nil, 0) = .ok (tree, written)) :
    tree.WF ∧ (∀ q y, tree.lookup q = some (.leaf y) →
      ∃ m ∈ members, m.type = .regular ∧ m.path = q) ∧
    (SpelledAlike members → (members.filter fun m => m.type = .regular).Pairwise
      fun m m' => m.path ≠ m'.path) := by
  obtain ⟨hsafe, hpairwise, -, -⟩ := validated hvalid
  obtain ⟨hwf, hothers, -⟩ := leaves_extractMembers h
  refine ⟨hwf trivial, fun q y hq => ?_, fun halike => ?_⟩
  · by_contra hnone
    have hsame := hothers q y fun m hm hregular hpath => hnone ⟨m, hm, hregular, hpath⟩
    exact lookup_nil q y (hsame.mp hq)
  · refine (halike.and (hpairwise.filter _)).imp fun hboth hpath => ?_
    exact hboth.2 (hboth.1 hpath)

lemma sound_iff {before after : Tree} {tree : Tree} {written archiveBytes : Nat}
    {fault : Nat → Bool} {staging : List String}
    (hvalid : validateMembers members staging limits archiveBytes = .ok ())
    (h : extractMembers staging limits fault 0 members (.nil, 0) = .ok (tree, written))
    (hstaged : ∀ q y, tree.lookup q = some (.leaf y) → after.lookup q = some (.leaf y))
    (hkept : ∀ q y, (∀ x, tree.lookup q ≠ some (.leaf x)) → before.lookup q = some (.leaf y) →
      after.lookup q = some (.leaf y)) :
    Sound limits dest members before after ↔ SpelledAlike members := by
  obtain ⟨hsafe, hpairwise, hentries, htotal⟩ := validated hvalid
  obtain ⟨-, hfiles, hdistinct⟩ := extracted hvalid h
  obtain ⟨-, -, hwritten⟩ := leaves_extractMembers h
  constructor
  · intro hsound
    exact hsound.distinct.imp fun hne hpath => absurd hpath hne
  · intro halike
    refine ⟨fun m hm _ => ?_, hdistinct halike, fun m hm hregular => ?_, hentries, htotal, ?_⟩
    · obtain ⟨target, htarget⟩ := hsafe m hm
      have hpath : ".." ∉ m.path := (target_of_safe htarget).2
      rw [resolve_append hpath]
      exact List.prefix_append _ _
    · obtain ⟨hlookup, hlength⟩ := hwritten (hdistinct halike) m hm hregular
      exact ⟨hstaged _ _ hlookup, hlength⟩
    · intro q y hbefore hnone
      refine hkept q y (fun x hx => ?_) hbefore
      obtain ⟨m, hm, hregular, hpath⟩ := hfiles q x hx
      exact hnone m hm hregular hpath

/-- How an extraction over files ends. -/
lemma extractOver_cases {archive : Archive} {staging : List String} {faults : Faults}
    {before after : Tree} {answer : Except String Nat}
    (h : extractOver archive staging limits faults before = (after, answer)) :
    (after = before ∧ (∃ e, answer = .error e) ∧ MovesIdle archive staging limits faults before) ∨
    ∃ staged written number, faults.staging = false ∧
      extractFresh archive staging limits faults (some .nil) = (some staged, .ok written) ∧
      faults.check = false ∧ checkMerge staged before = none ∧
      moveOver faults.move staged before 0 = (after, number) ∧
      (∀ j, number = some j → answer = .ok written) ∧ (number = none → ∃ e, answer = .error e) := by
  unfold extractOver at h
  split at h
  · rename_i hstaging
    cases h
    exact .inl ⟨rfl, ⟨_, rfl⟩, fun _ _ h => absurd h (by simp [hstaging])⟩
  rename_i hstaging
  split at h
  · rename_i e hfresh
    cases h
    exact .inl ⟨rfl, ⟨_, rfl⟩, fun _ _ _ h => by simp [hfresh] at h⟩
  rename_i written hfresh
  obtain ⟨members, staged, hmembers, rfl, -⟩ := extractFresh_ok hfresh
  dsimp only [Option.getD_some] at h
  split at h
  · rename_i hcheck
    cases h
    exact .inl ⟨rfl, ⟨_, rfl⟩, fun _ _ _ _ h => absurd h (by simp [hcheck])⟩
  rename_i hcheck
  split at h
  · rename_i conflict hconflict
    cases h
    refine .inl ⟨rfl, ⟨_, rfl⟩, fun staged' written' _ h _ hnone => ?_⟩
    rw [hfresh] at h
    cases h
    rw [hconflict] at hnone
    cases hnone
  rename_i hnone
  split at h
  · rename_i hmove
    cases h
    exact .inr ⟨staged, written, none, by simpa using hstaging, hfresh, by simpa using hcheck, hnone,
      hmove, (fun _ h => by cases h), fun _ => ⟨_, rfl⟩⟩
  · rename_i j hmove
    cases h
    exact .inr ⟨staged, written, some j, by simpa using hstaging, hfresh, by simpa using hcheck,
      hnone, hmove, fun _ _ => rfl, (fun h => by cases h)⟩

/-- A finished extraction is sound exactly when no two of its files are spelled apart for one path, and a
failed one leaves a destination with files as it was exactly when it moved nothing new there. -/
theorem safe_extract_iff (archive : Archive) (dest staging : List String)
    (limits : ExtractionLimits) (faults : Faults) (before : Option Tree) :
    (∀ after written,
      safeExtractTar archive dest staging limits faults before = (after, .ok written) →
      ∃ members tree, archive.members = .ok members ∧ after = some tree ∧
        (Sound limits dest members (before.getD .nil) tree ↔ SpelledAlike members)) ∧
    ∀ tree after e, before = some tree → tree ≠ .nil →
      safeExtractTar archive dest staging limits faults before = (after, .error e) →
        (after = some tree ↔ MovesIdle archive staging limits faults tree) := by
  have hfresh : ∀ {start after written},
      extractFresh archive dest limits faults start = (after, .ok written) →
      ∃ members tree, archive.members = .ok members ∧ after = some tree ∧
        (Sound limits dest members .nil tree ↔ SpelledAlike members) := by
    intro start after written h
    obtain ⟨members, tree, hmembers, rfl, hvalid, hextract⟩ := extractFresh_ok h
    refine ⟨members, tree, hmembers, rfl, sound_iff hvalid hextract (fun _ _ => id) ?_⟩
    exact fun q y _ hq => absurd hq (lookup_nil q y)
  have hover : ∀ {tree after answer}, tree ≠ .nil →
      safeExtractTar archive dest staging limits faults (some tree) = (after, answer) →
      ∃ tree', after = some tree' ∧
        extractOver archive staging limits faults tree = (tree', answer) := by
    intro tree after answer hne h
    cases tree with
    | nil => exact absurd rfl hne
    | _ =>
      cases h
      exact ⟨_, rfl, rfl⟩
  constructor
  · intro after written h
    by_cases hempty : before = none ∨ before = some .nil
    · obtain rfl | rfl := hempty
      · exact hfresh h
      · exact hfresh h
    · obtain ⟨tree, rfl⟩ := Option.ne_none_iff_exists'.mp fun hnone => hempty (.inl hnone)
      obtain ⟨after, rfl, hmerge⟩ := hover (fun hnil => hempty (.inr (by rw [hnil]))) h
      obtain ⟨-, ⟨e, he⟩, -⟩ | ⟨staged, written', number, -, hstaged, -, hcheck, hmove, -, hfailed⟩ :=
        extractOver_cases hmerge
      · cases he
      obtain ⟨members, _, hmembers, hsome, hvalid, hextract⟩ := extractFresh_ok hstaged
      cases hsome
      have hwf := (extracted hvalid hextract).1
      cases number with
      | none =>
        obtain ⟨e, he⟩ := hfailed rfl
        cases he
      | some j =>
        refine ⟨members, after, hmembers, rfl, sound_iff hvalid hextract ?_ ?_⟩
        · exact fun q y => (lookup_moveOver hwf hcheck hmove q y).1
        · exact fun q y => (lookup_moveOver hwf hcheck hmove q y).2
  · rintro tree after e rfl hne h
    obtain ⟨after, rfl, hmerge⟩ := hover hne h
    obtain ⟨rfl, -, hidle⟩ | ⟨staged, written, number, hstaging, hstaged, hcheck, hnone, hmove, -⟩ :=
      extractOver_cases hmerge
    · exact ⟨fun _ => hidle, fun _ => rfl⟩
    obtain ⟨members, _, hmembers, hsome, hvalid, hextract⟩ := extractFresh_ok hstaged
    cases hsome
    have hwf := (extracted hvalid hextract).1
    have hiff := @moveOver_eq_iff faults.move staged tree hwf 0
    rw [hmove] at hiff
    rw [Option.some_inj, hiff]
    refine ⟨fun hidle staged' written' _ hstaged' _ _ => ?_, fun h => ?_⟩
    · rw [hstaged] at hstaged'
      cases hstaged'
      exact hidle
    · exact h staged written hstaging hstaged hcheck hnone

instance (members : List Member) : Decidable (SpelledAlike members) :=
  inferInstanceAs (Decidable (List.Pairwise _ _))

def roomy : ExtractionLimits := ⟨1000, 10, 1000, 1000, 10, 100, 100, false, false⟩

def quiet : Faults := ⟨false, fun _ => false, false, fun _ => false⟩

def regularFile (name : String) (data : List UInt8) : Member :=
  ⟨name, .regular, 420, data.length, data⟩

/-- A mesh and its log, over a workspace that has an older mesh and a plan. -/
def meshArchive : Archive := ⟨3, .ok [regularFile "mesh" [1, 2], regularFile "log/build" [3]]⟩

def workspace : Tree := .leaf "mesh" (.file [0]) (.leaf "plan" (.file [9]) .nil)

/-- The archive is extracted over the workspace; and when the first move fails, it is not. -/
theorem safe_extract_iff_workspace :
    (∃ tree, safeExtractTar meshArchive ["ws"] ["tmp"] roomy quiet (some workspace) =
        (some tree, .ok 3) ∧
      Sound roomy ["ws"] [regularFile "mesh" [1, 2], regularFile "log/build" [3]] workspace tree) ∧
    MovesIdle meshArchive ["tmp"] roomy { quiet with move := fun i => i = 0 } workspace := by
  constructor
  · have hrun : safeExtractTar meshArchive ["ws"] ["tmp"] roomy quiet (some workspace) =
        (some (.dir "log" (.leaf "build" (.file [3]) .nil)
          (.leaf "mesh" (.file [1, 2]) (.leaf "plan" (.file [9]) .nil))), .ok 3) := by
      decide +kernel
    obtain ⟨members, tree, hmembers, hsome, hiff⟩ :=
      (safe_extract_iff meshArchive ["ws"] ["tmp"] roomy quiet (some workspace)).1 _ _ hrun
    cases hmembers
    cases hsome
    exact ⟨_, hrun, hiff.mpr (by decide +kernel)⟩
  · have hrun : safeExtractTar meshArchive ["ws"] ["tmp"] roomy
        { quiet with move := fun i => i = 0 } (some workspace) = (some workspace,
          .error "archive extraction failed moving members into place: OSError") := by
      decide +kernel
    exact ((safe_extract_iff meshArchive ["ws"] ["tmp"] roomy _ (some workspace)).2 workspace _ _ rfl
      (by decide) hrun).mp rfl

/-- Two spellings of one path: the second file is written over the first. -/
def doubleArchive : Archive := ⟨2, .ok [regularFile "a" [1], regularFile "./a" [2]]⟩

theorem double_spelling_extracted : ∃ tree,
    safeExtractTar doubleArchive ["ws"] ["tmp"] roomy quiet none = (some tree, .ok 2) ∧
      ¬ Sound roomy ["ws"] [regularFile "a" [1], regularFile "./a" [2]] .nil tree := by
  refine ⟨.leaf "a" (.file [2]) .nil, ?_, fun h => ?_⟩
  · decide +kernel
  · have hdistinct := h.distinct
    revert hdistinct
    decide +kernel

end MeshPipeline.Sandbox
