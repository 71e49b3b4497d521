import MeshPipeline.Ports.BoundSoundly

/-!
# Declared in another order, under other names

The order of the declaration does not matter. Neither do the names, as long as the located ports
keep theirs in order, no port takes or leaves a name under which the staging matched an opening, and
no ports may be swapped.
-/

namespace MeshPipeline.Ports

open Buckets

variable {σ : Type}

/-- A port under its new name; the ports that it names follow. -/
def DeclaredPatch.rename (f : String → String) (p : DeclaredPatch) : DeclaredPatch :=
  if p.isPort then
    { p with name := f p.name, interchangeableWith := p.interchangeableWith.map f }
  else p

def Evidence.rename (f : String → String) (r : Evidence) : Evidence := { r with name := f r.name }

def renameBound (f : String → String) (bound : List (String × String)) : List (String × String) :=
  bound.map fun e => (f e.1, e.2)

/-- The binding under the new names. -/
def Binding.rename (f : String → String) (b : Binding) : Binding :=
  { b with
    portMap := sortBy Prod.fst (renameBound f b.portMap)
    evidence := sortBy (·.name) (b.evidence.map (Evidence.rename f)) }

/-- New names for the ports, for which the binder has no other reason to act. -/
structure Renaming (declared : List DeclaredPatch) (t : Tessellation σ) (f : String → String) :
    Prop where
  distinct : ((declared.map (DeclaredPatch.rename f)).map (·.name)).Nodup
  ordered : ∀ p ∈ declared, ∀ q ∈ declared, p.isPort → q.isPort → p.isLocated → q.isLocated →
    p.name < q.name → f p.name < f q.name
  /-- A name under which the staging matched an opening stays with its port. -/
  staged : ∀ p ∈ declared, p.isPort → p.isLocated → ∀ e ∈ t.openings, e.2.declared = true →
    e.1 = p.name ∨ e.1 = f p.name → f p.name = p.name
  alone : f = id ∨ ∀ p ∈ declared, p.isPort → p.interchangeableWith = []

section

variable {f : String → String} {p : DeclaredPatch}

@[simp] lemma role_rename : (p.rename f).role = p.role := by
  unfold DeclaredPatch.rename
  split <;> rfl

@[simp] lemma isPort_rename : (p.rename f).isPort = p.isPort := by
  simp [DeclaredPatch.isPort]

@[simp] lemma nearMm_rename : (p.rename f).nearMm = p.nearMm := by
  unfold DeclaredPatch.rename
  split <;> rfl

@[simp] lemma isLocated_rename : (p.rename f).isLocated = p.isLocated := by
  simp [DeclaredPatch.isLocated]

@[simp] lemma declaredAreaM2_rename : (p.rename f).declaredAreaM2 = p.declaredAreaM2 := by
  unfold DeclaredPatch.rename
  split <;> rfl

@[simp] lemma sizingForms_rename : (p.rename f).sizingForms = p.sizingForms := by
  unfold DeclaredPatch.rename
  split <;> rfl

@[simp] lemma agrees_rename {o : Opening} : agrees (p.rename f) o = agrees p o := by
  simp [agrees]

lemma rename_of_isPort (h : p.isPort = true) : p.rename f =
    { p with name := f p.name, interchangeableWith := p.interchangeableWith.map f } :=
  if_pos h

lemma name_rename (h : p.isPort = true) : (p.rename f).name = f p.name := by
  rw [rename_of_isPort h]

lemma rename_of_wall (h : p.role = "wall") : p.rename f = p := by
  refine if_neg ?_
  simp [DeclaredPatch.isPort, h]

lemma rename_id : p.rename id = p := by
  unfold DeclaredPatch.rename
  split
  · cases p
    simp
  · rfl

end

/-! ## Before anything is bound -/

section

variable {f : String → String} {declared declared' ports ports' : List DeclaredPatch} {n : Nat}

/-- A filter that the new names do not touch. -/
theorem perm_filter {c : DeclaredPatch → Bool} (h : declared'.Perm (declared.map (·.rename f)))
    (hc : ∀ p, c (p.rename f) = c p) :
    (declared'.filter c).Perm ((declared.filter c).map (·.rename f)) := by
  refine (h.filter c).trans (List.Perm.of_eq ?_)
  rw [List.filter_map]
  congr 1
  exact List.filter_congr fun p _ => hc p

theorem forM_eq_ok_iff : ports.forM checkPort = .ok () ↔ ∀ p ∈ ports, checkPort p = .ok () := by
  induction ports with
  | nil => exact ⟨fun _ p hp => absurd hp List.not_mem_nil, fun _ => rfl⟩
  | cons p ports ih =>
    rw [List.forall_mem_cons, ← ih]
    show checkPort p >>= (fun _ => ports.forM checkPort) = .ok () ↔ _
    cases hp : checkPort p with
    | error e => exact ⟨fun h => absurd h (by rintro ⟨⟩), fun h => absurd h.1 (by rintro ⟨⟩)⟩
    | ok u => exact ⟨fun h => ⟨rfl, h⟩, fun h => h.2⟩

theorem checkPort_rename {p : DeclaredPatch} :
    checkPort (p.rename f) = .ok () ↔ checkPort p = .ok () := by
  unfold checkPort
  simp only [sizingForms_rename, declaredAreaM2_rename, nearMm_rename]
  split
  · exact ⟨fun h => absurd h (by rintro ⟨⟩), fun h => absurd h (by rintro ⟨⟩)⟩
  · split
    · exact ⟨fun h => absurd h (by rintro ⟨⟩), fun h => absurd h (by rintro ⟨⟩)⟩
    · exact Iff.rfl

theorem forM_alike (h : ports'.Perm (ports.map (·.rename f))) :
    Outcome.Alike (fun _ _ => True) (ports.forM checkPort) (ports'.forM checkPort) := by
  have hiff : ports.forM checkPort = .ok () ↔ ports'.forM checkPort = .ok () := by
    rw [forM_eq_ok_iff, forM_eq_ok_iff]
    constructor
    · intro hall p' hp'
      obtain ⟨p, hp, rfl⟩ := List.mem_map.mp (h.mem_iff.mp hp')
      exact checkPort_rename.mpr (hall p hp)
    · intro hall p hp
      exact checkPort_rename.mp (hall _ (h.mem_iff.mpr (List.mem_map_of_mem hp)))
  cases hx : ports.forM checkPort <;> cases hy : ports'.forM checkPort <;> simp_all [Outcome.Alike]

theorem checkDeclared_alike (h : declared'.Perm (declared.map (·.rename f))) :
    Outcome.Alike (fun wall wall' => wall' = wall) (checkDeclared declared n)
      (checkDeclared declared' n) := by
  have hwalls : (declared'.filter (·.role == "wall")).Perm (declared.filter (·.role == "wall")) := by
    refine (perm_filter h fun p => by rw [role_rename]).trans (List.Perm.of_eq ?_)
    refine (List.map_congr_left fun p hp => ?_).trans (List.map_id _)
    exact rename_of_wall (by simpa using (List.mem_filter.mp hp).2)
  have hunknown := perm_filter (c := fun d => !(d.role == "wall" || d.isPort)) h fun p => by simp
  have hports := perm_filter h fun p => isPort_rename (p := p)
  have hlength := hports.length_eq
  rw [List.length_map] at hlength
  unfold checkDeclared
  split
  · next w hw =>
    rw [hw] at hwalls
    rw [List.perm_singleton.mp hwalls]
    refine Outcome.Alike.ite ?_ (fun _ => trivial) fun _ => ?_
    · rw [← List.length_pos_iff, ← List.length_pos_iff, hunknown.length_eq, List.length_map]
    · refine Outcome.Alike.bind (forM_alike hports) fun _ _ _ _ _ => ?_
      refine Outcome.Alike.ite (by rw [hlength]) (fun _ => trivial) fun _ => ?_
      exact Outcome.Alike.ok rfl
  · next hnot =>
    split
    · next w hw =>
      rw [hw] at hwalls
      exact absurd (List.singleton_perm.mp hwalls).symm (hnot w)
    · trivial

end

/-! ## By location -/

section

variable {f : String → String} {ports ports' : List DeclaredPatch} {diagSq : ℚ}
  {openings : List (String × Opening)} {s s' : Progress} {p : DeclaredPatch}

/-- The same openings are taken, under the new names. -/
structure SameTaken (f : String → String) (openings : List (String × Opening)) (s s' : Progress) :
    Prop where
  pool : s'.pool = s.pool
  bound : s'.bound = renameBound f s.bound
  subset : s.pool ⊆ openings

theorem SameTaken.take (h : SameTaken f openings s s') (name key : String) :
    SameTaken f openings (s.take name key) (s'.take (f name) key) := by
  refine ⟨?_, ?_, fun e he => h.subset (List.mem_of_mem_filter he)⟩
  · simp [Progress.take, h.pool]
  · simp [Progress.take, h.bound, renameBound]

theorem bindNearest_alike {hint : Point} (h : SameTaken f openings s s') (hport : p.isPort = true) :
    Outcome.Alike (SameTaken f openings) (bindNearest diagSq s p hint)
      (bindNearest diagSq s' (p.rename f) hint) := by
  unfold bindNearest
  rw [h.pool, name_rename hport]
  split
  · trivial
  · dsimp only
    refine Outcome.Alike.ite Iff.rfl (fun _ => trivial) fun _ => ?_
    split
    · trivial
    · refine Outcome.Alike.ite (by rw [agrees_rename]) (fun _ => ?_) fun _ => trivial
      exact Outcome.Alike.ok (h.take _ _)

theorem bindLocated_alike (h : SameTaken f openings s s') (hport : p.isPort = true)
    (hstaged : ∀ e ∈ openings, e.2.declared = true → e.1 = p.name ∨ e.1 = f p.name →
      f p.name = p.name) :
    Outcome.Alike (SameTaken f openings) (bindLocated diagSq s p)
      (bindLocated diagSq s' (p.rename f)) := by
  have hlookup : (s'.pool.lookup (p.rename f).name).filter (·.declared) =
      (s.pool.lookup p.name).filter (·.declared) := by
    rw [h.pool, name_rename hport]
    by_cases hsame : f p.name = p.name
    · rw [hsame]
    · have hnone {name : String} (hname : name = p.name ∨ name = f p.name) :
          (s.pool.lookup name).filter (·.declared) = none := by
        refine Option.eq_none_iff_forall_ne_some.mpr fun o ho => hsame ?_
        obtain ⟨ho, hdeclared⟩ := Option.filter_eq_some_iff.mp ho
        exact hstaged _ (h.subset (JsonTree.mem_of_lookup ho)) hdeclared hname
      rw [hnone (.inl rfl), hnone (.inr rfl)]
  unfold bindLocated
  rw [nearMm_rename]
  cases p.nearMm with
  | none => trivial
  | some hint =>
    dsimp only
    rw [hlookup]
    cases hstage : (s.pool.lookup p.name).filter (·.declared) with
    | none => exact bindNearest_alike h hport
    | some o =>
      dsimp only
      refine Outcome.Alike.ite (by rw [agrees_rename]) (fun _ => ?_) fun _ => trivial
      obtain ⟨ho, hdeclared⟩ := Option.filter_eq_some_iff.mp hstage
      have hsame := hstaged _ (h.subset (JsonTree.mem_of_lookup ho)) hdeclared (.inl rfl)
      have htake := h.take p.name p.name
      rw [name_rename hport]
      rw [hsame] at htake ⊢
      exact Outcome.Alike.ok htake

/-- The located ports have their turns in the same order. -/
theorem locatedPorts_rename (hperm : ports'.Perm (ports.map (·.rename f)))
    (hport : ∀ p ∈ ports, p.isPort = true) (hnames : (ports'.map (·.name)).Nodup)
    (hordered : ∀ p ∈ ports, ∀ q ∈ ports, p.isLocated → q.isLocated →
      p.name < q.name → f p.name < f q.name) :
    locatedPorts ports' = (locatedPorts ports).map (·.rename f) := by
  unfold locatedPorts
  have hfilter := perm_filter hperm fun p => isLocated_rename (p := p)
  have hmap : sortBy (·.name) ((ports.filter (·.isLocated)).map (·.rename f)) =
      (sortBy (·.name) (ports.filter (·.isLocated))).map (·.rename f) := by
    refine sortBy_map fun p hp q hq => ?_
    obtain ⟨hp, hpl⟩ := List.mem_filter.mp hp
    obtain ⟨hq, hql⟩ := List.mem_filter.mp hq
    rw [name_rename (hport p hp), name_rename (hport q hq)]
    constructor
    · intro hle
      obtain hlt | heq := lt_or_eq_of_le hle
      · exact (hordered p hp q hq hpl hql hlt).le
      · rw [heq]
    · intro hle
      by_contra hlt
      exact absurd (hordered q hq p hp hql hpl (not_le.mp hlt)) (not_lt.mpr hle)
  rw [← hmap]
  refine sortBy_eq_of_perm (hfilter.trans (perm_sortBy _ _).symm) ?_ (pairwise_sortBy _ _)
  exact hnames.sublist (List.filter_sublist.map _)

theorem bindByLocation_alike (hperm : ports'.Perm (ports.map (·.rename f)))
    (hport : ∀ p ∈ ports, p.isPort = true) (hnames : (ports'.map (·.name)).Nodup)
    (hordered : ∀ p ∈ ports, ∀ q ∈ ports, p.isLocated → q.isLocated →
      p.name < q.name → f p.name < f q.name)
    (hstaged : ∀ p ∈ ports, p.isLocated → ∀ e ∈ openings, e.2.declared = true →
      e.1 = p.name ∨ e.1 = f p.name → f p.name = p.name) :
    Outcome.Alike (SameTaken f openings) (bindByLocation diagSq openings ports)
      (bindByLocation diagSq openings ports') := by
  show Outcome.Alike _ ((locatedPorts ports).foldlM (bindLocated diagSq) ⟨openings, []⟩)
    ((locatedPorts ports').foldlM (bindLocated diagSq) ⟨openings, []⟩)
  rw [locatedPorts_rename hperm hport hnames hordered]
  refine Outcome.Alike.foldlM (T := fun p p' => p' = p.rename f ∧ p ∈ locatedPorts ports) ?_ ?_ ?_
  · rw [List.forall₂_map_right_iff]
    exact List.forall₂_same.mpr fun p hp => ⟨rfl, hp⟩
  · rintro s s' p _ hs ⟨rfl, hp⟩
    obtain ⟨hp, hpl⟩ := mem_locatedPorts.mp hp
    exact bindLocated_alike hs (hport p hp) (hstaged p hp hpl)
  · exact ⟨rfl, rfl, fun _ h => h⟩

end

/-! ## By size -/

section

variable {f : String → String} {remaining remaining' : List DeclaredPatch} {areas : List Size}
  {openings : List (String × Opening)} {s s' : Progress} {a : Size}

theorem classAreas_rename (hperm : remaining'.Perm (remaining.map (·.rename f))) :
    classAreas remaining' = classAreas remaining := by
  refine unique_congr fun a => ?_
  rw [List.mem_filterMap, List.mem_filterMap]
  constructor
  · rintro ⟨p', hp', ha⟩
    obtain ⟨p, hp, rfl⟩ := List.mem_map.mp (hperm.mem_iff.mp hp')
    exact ⟨p, hp, by rwa [declaredAreaM2_rename] at ha⟩
  · rintro ⟨p, hp, ha⟩
    exact ⟨p.rename f, hperm.mem_iff.mpr (List.mem_map_of_mem hp), by rwa [declaredAreaM2_rename]⟩

theorem classPorts_rename (hperm : remaining'.Perm (remaining.map (·.rename f))) :
    (classPorts remaining' a).Perm ((classPorts remaining a).map (·.rename f)) :=
  perm_filter hperm fun p => by rw [declaredAreaM2_rename]

theorem mayBeSwapped_perm {ports ports' : List DeclaredPatch} (hperm : ports'.Perm ports) :
    mayBeSwapped ports' = mayBeSwapped ports := by
  rw [Bool.eq_iff_iff]
  simp only [mayBeSwapped, List.all_eq_true, hperm.mem_iff]

/-- Two ports that name no others may not be swapped. -/
theorem not_mayBeSwapped (hnames : (remaining.map (·.name)).Nodup)
    (halone : ∀ p ∈ remaining, p.interchangeableWith = [])
    (hlength : 1 < (classPorts remaining a).length) :
    mayBeSwapped (classPorts remaining a) = false := by
  have hnames : ((classPorts remaining a).map (·.name)).Nodup :=
    hnames.sublist (List.filter_sublist.map _)
  have halone : ∀ p ∈ classPorts remaining a, p.interchangeableWith = [] :=
    fun p hp => halone p (List.mem_of_mem_filter hp)
  generalize classPorts remaining a = ports at hnames halone hlength ⊢
  match ports with
  | [] => simp at hlength
  | [_] => simp at hlength
  | p :: q :: ports =>
    have hne : p.name ≠ q.name := fun h => by simp [h] at hnames
    refine Bool.eq_false_iff.mpr fun hswap => ?_
    have hpq := List.all_eq_true.mp (List.all_eq_true.mp hswap p List.mem_cons_self) q
      (List.mem_cons_of_mem p List.mem_cons_self)
    simp [hne, halone p List.mem_cons_self] at hpq

/-- The ports of a class have their turns in the same order. -/
theorem portNames_rename {ports ports' : List DeclaredPatch}
    (hperm : ports'.Perm (ports.map (·.rename f))) (hport : ∀ p ∈ ports, p.isPort = true)
    (hnames : (ports'.map (·.name)).Nodup) (hone : f = id ∨ ports.length ≤ 1) :
    portNames ports' = (portNames ports).map f := by
  have hmap : (ports.map (·.rename f)).map (·.name) = (ports.map (·.name)).map f := by
    rw [List.map_map, List.map_map]
    exact List.map_congr_left fun p hp => name_rename (hport p hp)
  refine sortBy_eq_of_perm ?_ (by rwa [List.map_id]) ?_
  · refine (hperm.map _).trans ?_
    rw [hmap]
    exact ((perm_portNames ports).map f).symm
  · obtain rfl | hone := hone
    · rw [List.map_id]
      exact pairwise_sortBy _ _
    · have hlength : ((portNames ports).map f).length ≤ 1 := by
        rwa [List.length_map, length_portNames]
      match (portNames ports).map f, hlength with
      | [], _ => exact List.Pairwise.nil
      | [_], _ => exact List.pairwise_singleton _ _

theorem bindClass_alike (hperm : remaining'.Perm (remaining.map (·.rename f)))
    (hport : ∀ p ∈ remaining, p.isPort = true) (hnames : (remaining.map (·.name)).Nodup)
    (hnames' : (remaining'.map (·.name)).Nodup)
    (halone : f = id ∨ ∀ p ∈ remaining, p.interchangeableWith = [])
    (h : SameTaken f openings s s') {pool : List (String × Opening)} :
    Outcome.Alike (SameTaken f openings) (bindClass areas remaining pool s a)
      (bindClass areas remaining' pool s' a) := by
  have hclass := classPorts_rename (a := a) hperm
  have hlength := hclass.length_eq
  rw [List.length_map] at hlength
  have hswap : 1 < (classPorts remaining a).length →
      mayBeSwapped (classPorts remaining' a) = mayBeSwapped (classPorts remaining a) := by
    intro hlt
    obtain rfl | halone := halone
    · rw [mayBeSwapped_perm hclass]
      congr 1
      exact (List.map_congr_left fun p _ => rename_id).trans (List.map_id _)
    · rw [not_mayBeSwapped hnames halone hlt,
        not_mayBeSwapped hnames' (fun p' hp' => ?_) (by rwa [hlength])]
      obtain ⟨p, hp, rfl⟩ := List.mem_map.mp (hperm.mem_iff.mp hp')
      rw [rename_of_isPort (hport p hp), halone p hp]
      rfl
  unfold bindClass
  dsimp only
  rw [hlength]
  refine Outcome.Alike.ite Iff.rfl (fun _ => trivial) fun _ => Outcome.Alike.ite Iff.rfl
    (fun _ => trivial) fun _ => Outcome.Alike.ite ?_ (fun _ => trivial) fun hfits => ?_
  · exact and_congr_right fun hlt => by rw [hswap hlt]
  · have hone : f = id ∨ (classPorts remaining a).length ≤ 1 := by
      refine halone.imp_right fun halone => ?_
      by_contra hlt
      exact hfits ⟨not_le.mp hlt, not_mayBeSwapped hnames halone (not_le.mp hlt)⟩
    have hordered := portNames_rename hclass (fun p hp => hport p (List.mem_of_mem_filter hp))
      (hnames'.sublist (List.filter_sublist.map _)) hone
    refine Outcome.Alike.ok ⟨?_, ?_, fun e he => h.subset (List.mem_of_mem_filter he)⟩
    · rw [h.pool]
    · rw [h.bound, hordered, renameBound, renameBound, List.map_append, List.zip_map_left]
      rfl

theorem bindBySize_alike (hperm : remaining'.Perm (remaining.map (·.rename f)))
    (hport : ∀ p ∈ remaining, p.isPort = true) (hnames : (remaining.map (·.name)).Nodup)
    (hnames' : (remaining'.map (·.name)).Nodup)
    (halone : f = id ∨ ∀ p ∈ remaining, p.interchangeableWith = [])
    (h : SameTaken f openings s s') :
    Outcome.Alike (SameTaken f openings) (bindBySize remaining s) (bindBySize remaining' s') := by
  unfold bindBySize
  rw [classAreas_rename hperm, h.pool]
  refine Outcome.Alike.ite ?_ (fun _ => trivial) fun _ => ?_
  · rw [hperm.any_eq, List.any_map]
    simp [Function.comp_def]
  split
  · trivial
  split
  · trivial
  · refine Outcome.Alike.foldlM (T := Eq) (List.forall₂_eq_eq_eq ▸ rfl) ?_ h
    rintro s s' a _ hs rfl
    exact bindClass_alike hperm hport hnames hnames' halone hs

end

/-! ## The binding -/

section

variable {f : String → String} {ports ports' : List DeclaredPatch}
  {openings : List (String × Opening)} {s s' : Progress} {wall : String}

theorem find?_name {p : DeclaredPatch} (hnames : (ports.map (·.name)).Nodup) (hp : p ∈ ports) :
    ports.find? (·.name == p.name) = some p := by
  cases hfind : ports.find? (·.name == p.name) with
  | none => simpa using List.find?_eq_none.mp hfind p hp
  | some q =>
    have hname : q.name = p.name := by simpa using List.find?_some hfind
    rw [eq_of_name hnames (List.mem_of_find?_eq_some hfind) hp hname]

/-- The row of a renamed port. -/
theorem evidenceOf_rename (hperm : ports'.Perm (ports.map (·.rename f)))
    (hport : ∀ p ∈ ports, p.isPort = true) (hnames : (ports.map (·.name)).Nodup)
    (hnames' : (ports'.map (·.name)).Nodup) {e : String × String}
    (he : e.1 ∈ ports.map (·.name)) :
    evidenceOf ports' openings (f e.1, e.2) =
      (evidenceOf ports openings e).map (Evidence.rename f) := by
  obtain ⟨p, hp, hname⟩ := List.mem_map.mp he
  have hfind' := find?_name hnames' (hperm.mem_iff.mpr (List.mem_map_of_mem hp))
  rw [name_rename (hport p hp), hname] at hfind'
  have hfind := find?_name hnames hp
  rw [hname] at hfind
  unfold evidenceOf
  rw [hfind, hfind']
  cases openings.lookup e.2 with
  | none => rfl
  | some o =>
    show some _ = some _
    simp [Evidence.rename]

theorem name_of_evidence {e : String × String} {r : Evidence}
    (h : evidenceOf ports openings e = some r) : r.name = e.1 := by
  unfold evidenceOf at h
  obtain ⟨p, -, h⟩ := Option.bind_eq_some_iff.mp h
  obtain ⟨o, -, h⟩ := Option.bind_eq_some_iff.mp h
  cases h
  rfl

theorem bindingOf_rename (hperm : ports'.Perm (ports.map (·.rename f)))
    (hport : ∀ p ∈ ports, p.isPort = true) (hnames : (ports.map (·.name)).Nodup)
    (hnames' : (ports'.map (·.name)).Nodup) (h : SameTaken f openings s s')
    (hbound : ∀ e ∈ s.bound, e.1 ∈ ports.map (·.name))
    (hdistinct : (s'.bound.map Prod.fst).Nodup) :
    bindingOf wall ports' openings s' = (bindingOf wall ports openings s).rename f := by
  have hsorted : (sortBy Prod.fst s'.bound).Pairwise fun a b => a.1 < b.1 := by
    have hne : (sortBy Prod.fst s'.bound).Pairwise fun a b => a.1 ≠ b.1 :=
      List.pairwise_map.mp (((perm_sortBy Prod.fst s'.bound).map Prod.fst).nodup_iff.mpr hdistinct)
    exact ((pairwise_sortBy Prod.fst s'.bound).and hne).imp fun hab => lt_of_le_of_ne hab.1 hab.2
  have hmap : (sortBy Prod.fst s'.bound).Perm (renameBound f (sortBy Prod.fst s.bound)) := by
    rw [h.bound]
    exact (perm_sortBy _ _).trans ((perm_sortBy Prod.fst s.bound).map _).symm
  have hportMap : sortBy Prod.fst s'.bound =
      sortBy Prod.fst (renameBound f (sortBy Prod.fst s.bound)) := by
    refine (sortBy_eq_of_perm hmap.symm ?_ (hsorted.imp le_of_lt)).symm
    refine (hmap.map Prod.fst).nodup_iff.mp ?_
    exact ((perm_sortBy _ _).map Prod.fst).nodup_iff.mpr hdistinct
  have hrows : ((sortBy Prod.fst s'.bound).filterMap (evidenceOf ports' openings)).Pairwise
      fun q r => q.name < r.name := by
    refine List.pairwise_filterMap.mpr (hsorted.imp fun hab q hq r hr => ?_)
    rw [name_of_evidence hq, name_of_evidence hr]
    exact hab
  have hevidence : ((sortBy Prod.fst s.bound).filterMap (evidenceOf ports openings)).map
      (Evidence.rename f) =
      (renameBound f (sortBy Prod.fst s.bound)).filterMap (evidenceOf ports' openings) := by
    rw [List.map_filterMap, renameBound, List.filterMap_map]
    refine List.filterMap_congr fun e he => ?_
    exact (evidenceOf_rename hperm hport hnames hnames' (hbound e (mem_sortBy.mp he))).symm
  have hsame : sortBy (·.name) (((sortBy Prod.fst s.bound).filterMap
      (evidenceOf ports openings)).map (Evidence.rename f)) =
      (sortBy Prod.fst s'.bound).filterMap (evidenceOf ports' openings) := by
    rw [hevidence]
    refine sortBy_eq_of_perm (hmap.symm.filterMap _) ?_ (hrows.imp le_of_lt)
    refine ((hmap.filterMap (evidenceOf ports' openings)).map (·.name)).nodup_iff.mp ?_
    exact List.pairwise_map.mpr (hrows.imp fun hlt => hlt.ne)
  unfold bindingOf Binding.rename
  dsimp only
  rw [hportMap, h.pool, hsame, ← hportMap]

end

/-- Another order and other names give the same binding, under the other names. -/
theorem bindPorts_alike {declared declared' : List DeclaredPatch} {t : Tessellation σ}
    {f : String → String} (hnames : (declared.map (·.name)).Nodup)
    (hperm : declared'.Perm (declared.map (·.rename f))) (h : Renaming declared t f) :
    Outcome.Alike (fun b b' => b' = b.rename f) (bindPorts declared t) (bindPorts declared' t) := by
  have hopenings : (sortBy Prod.fst t.openings).Perm t.openings := perm_sortBy _ _
  have hkeys : ((sortBy Prod.fst t.openings).map Prod.fst).Nodup :=
    (hopenings.map _).nodup_iff.mpr t.openings_nodup
  have hports := perm_filter hperm fun p => isPort_rename (p := p)
  have hport : ∀ p ∈ declared.filter (·.isPort), p.isPort = true :=
    fun p hp => (List.mem_filter.mp hp).2
  have hmem {p : DeclaredPatch} (hp : p ∈ declared.filter (·.isPort)) : p ∈ declared :=
    List.mem_of_mem_filter hp
  have hnodup : ((declared.filter (·.isPort)).map (·.name)).Nodup :=
    hnames.sublist (List.filter_sublist.map _)
  have hnodup' : ((declared'.filter (·.isPort)).map (·.name)).Nodup :=
    ((hperm.map _).nodup_iff.mpr h.distinct).sublist (List.filter_sublist.map _)
  unfold bindPorts
  refine Outcome.Alike.bind (checkDeclared_alike hperm) fun wall _ hwall hwall' heq => ?_
  subst heq
  have hdeclared := Outcome.of_ok (checkDeclared_spec declared _) hwall
  have hdeclared' := Outcome.of_ok (checkDeclared_spec declared' _) hwall'
  refine Outcome.Alike.bind (bindByLocation_alike hports hport hnodup'
    (fun p hp q hq => h.ordered p (hmem hp) q (hmem hq) (hport p hp) (hport q hq))
    fun p hp hlocated e he =>
      h.staged p (hmem hp) (hport p hp) hlocated e (hopenings.mem_iff.mp he))
    fun s₀ s₀' hs₀ hs₀' hsame₀ => ?_
  have hlocated := Outcome.of_ok (bindByLocation_spec hnodup hkeys hdeclared.enough) hs₀
  have hlocated' := Outcome.of_ok (bindByLocation_spec hnodup' hkeys hdeclared'.enough) hs₀'
  have hrest := hlocated.unbound_eq hnodup
  have hrest' := hlocated'.unbound_eq hnodup'
  have hremaining : ((declared'.filter (·.isPort)).filter fun p =>
      !(s₀'.bound.map Prod.fst).contains p.name).Perm
      (((declared.filter (·.isPort)).filter fun p =>
        !(s₀.bound.map Prod.fst).contains p.name).map (·.rename f)) := by
    rw [hrest, hrest']
    exact perm_filter hports fun p => by rw [isLocated_rename]
  have hsizes : Outcome.Alike (SameTaken f (sortBy Prod.fst t.openings))
      (bindBySize ((declared.filter (·.isPort)).filter fun p =>
        !(s₀.bound.map Prod.fst).contains p.name) s₀)
      (bindBySize ((declared'.filter (·.isPort)).filter fun p =>
        !(s₀'.bound.map Prod.fst).contains p.name) s₀') :=
    bindBySize_alike hremaining (fun p hp => hport p (List.mem_of_mem_filter hp))
      (hnodup.sublist (List.filter_sublist.map _)) (hnodup'.sublist (List.filter_sublist.map _))
      (h.alone.imp_right fun halone p hp =>
        halone p (hmem (List.mem_of_mem_filter hp)) (hport p (List.mem_of_mem_filter hp))) hsame₀
  refine Outcome.Alike.bind hsizes fun s s' hs hs' hsame => ?_
  have hsettled := Outcome.of_ok (settled_spec hnodup hdeclared.bindable hlocated) hs
  have hsettled' := Outcome.of_ok (settled_spec hnodup' hdeclared'.bindable hlocated') hs'
  have hbound := hsettled.names hnodup hdeclared.bindable
  have hbound' := hsettled'.names hnodup' hdeclared'.bindable
  refine Outcome.Alike.ok (bindingOf_rename hports hport hnodup hnodup' hsame (fun e he => ?_) ?_)
  · exact hbound.mem_iff.mp (List.mem_map_of_mem he)
  · exact hbound'.nodup_iff.mpr hnodup'

end MeshPipeline.Ports
