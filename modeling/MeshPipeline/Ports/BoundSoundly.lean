import MeshPipeline.Library.JsonText
import MeshPipeline.Ports.BindPorts

/-!
# What a binding promises

A port with a location has an opening that stands out near it, every other port one that its size
class alone matches, and what is folded into the wall has no size that was declared.
-/

namespace MeshPipeline.Ports

open Buckets

variable {σ : Type}

/-- The caller is told what to change. -/
def IsRefusal : Failure → Prop
  | .bindError _ => True
  | _ => False

/-- A port that states a size or a location. -/
def Bindable (p : DeclaredPatch) : Prop := p.declaredAreaM2.isSome ∨ p.isLocated

/-- The one patch of the wall, ports that can be bound, and an opening for each. -/
structure Declarable (declared : List DeclaredPatch) (openings : Nat) (wall : String) : Prop where
  wall : ∃ w, declared.filter (·.role == "wall") = [w] ∧ w.name = wall
  bindable : ∀ p ∈ declared.filter (·.isPort), Bindable p
  enough : (declared.filter (·.isPort)).length ≤ openings

theorem forM_checkPort (ports : List DeclaredPatch) :
    Outcome (fun _ => ∀ p ∈ ports, Bindable p) IsRefusal (ports.forM checkPort) := by
  induction ports with
  | nil => exact fun p hp => absurd hp List.not_mem_nil
  | cons p ports ih =>
    have hp : Outcome (fun _ => Bindable p) IsRefusal (checkPort p) := by
      unfold checkPort
      refine Outcome.ite (fun _ => trivial) fun _ => Outcome.ite (fun _ => trivial) fun hsaid => ?_
      show Bindable p
      rw [Bindable, DeclaredPatch.isLocated]
      grind [Option.isNone_iff_eq_none, Option.isSome_iff_ne_none]
    refine Outcome.bind hp fun _ hp => Outcome.weaken ih (fun _ hall q hq => ?_) fun _ h => h
    obtain rfl | hq := List.mem_cons.mp hq
    · exact hp
    · exact hall q hq

theorem checkDeclared_spec (declared : List DeclaredPatch) (openings : Nat) :
    Outcome (Declarable declared openings) IsRefusal (checkDeclared declared openings) := by
  unfold checkDeclared
  split
  · next w hw =>
    refine Outcome.ite (fun _ => trivial) fun _ => ?_
    refine Outcome.bind (forM_checkPort _) fun _ hports => ?_
    refine Outcome.ite (fun _ => trivial) fun henough => ?_
    exact ⟨⟨w, hw, rfl⟩, hports, Nat.le_of_not_lt henough⟩
  · trivial

/-! ## By location -/

/-- What a location says of the opening it is bound to, `free` being what was still to be had. -/
structure PickedByLocation (diagonal : ℝ) (free : List (String × Opening)) (p : DeclaredPatch)
    (hint : Point) (key : String) (o : Opening) : Prop where
  size : ∀ a, p.declaredAreaM2 = some a → o.locatedSizeAgrees a = true
  place : o.declared = true ∧ key = p.name ∨
    hint.metres.dist o.centroid ≤ hintMaxBboxFraction * diagonal ∧
      ∀ e ∈ free, e.1 ≠ key →
        hint.metres.dist o.centroid ≤ hintMargin * hint.metres.dist e.2.centroid

section

variable {bboxMin bboxMax : Point} {s : Progress} {p : DeclaredPatch} {hint : Point}

lemma hintMaxBboxFraction_nonneg : 0 ≤ hintMaxBboxFraction := by norm_num [hintMaxBboxFraction]

lemma hintMargin_nonneg : 0 ≤ hintMargin := by norm_num [hintMargin]

theorem size_of_agrees {o : Opening} (h : agrees p o = true) (a : Size)
    (ha : p.declaredAreaM2 = some a) : o.locatedSizeAgrees a = true := by
  rw [agrees, ha] at h
  exact h

theorem bindNearest_spec (hpool : s.pool ≠ []) :
    Outcome (fun s' => ∃ key o, (key, o) ∈ s.pool ∧ s' = s.take p.name key ∧
        PickedByLocation (bboxMin.dist bboxMax) s.pool p hint key o) IsRefusal
      (bindNearest (bboxMin.distSq bboxMax) s p hint) := by
  have hsorted := pairwise_sortBy (fun e : String × Opening => hint.metres.distSq e.2.centroid) s.pool
  have hperm := perm_sortBy (fun e : String × Opening => hint.metres.distSq e.2.centroid) s.pool
  unfold bindNearest
  generalize sortBy (fun e : String × Opening => hint.metres.distSq e.2.centroid) s.pool = ranked
    at hsorted hperm
  match ranked with
  | [] => exact absurd (List.nil_perm.mp hperm) hpool
  | (key, o) :: others =>
    dsimp only
    refine Outcome.ite (fun _ => trivial) fun hfar => ?_
    split
    · trivial
    · next hdecisive =>
      refine Outcome.ite (fun hsize => ?_) fun _ => trivial
      refine ⟨key, o, hperm.mem_iff.mp List.mem_cons_self, rfl, size_of_agrees hsize, .inr ⟨?_, ?_⟩⟩
      · exact not_lt.mp fun hlt => hfar ((Point.lt_mul_dist_iff hintMaxBboxFraction_nonneg).mp hlt)
      · intro e he hne
        obtain rfl | he := List.mem_cons.mp (hperm.mem_iff.mpr he)
        · exact absurd rfl hne
        refine not_lt.mp fun hlt => ?_
        rw [Point.lt_mul_dist_iff hintMargin_nonneg] at hlt
        -- the first of the others is the nearest of them
        cases others with
        | nil => cases he
        | cons runnerUp rest =>
          have hnear : hint.metres.distSq runnerUp.2.centroid ≤ hint.metres.distSq e.2.centroid := by
            obtain rfl | he := List.mem_cons.mp he
            · exact le_rfl
            · exact (List.pairwise_cons.mp (List.pairwise_cons.mp hsorted).2).1 e he
          rw [List.head?_cons, Option.filter_some, ite_eq_right_iff] at hdecisive
          have hless := lt_of_le_of_lt (mul_le_mul_of_nonneg_left hnear (sq_nonneg hintMargin)) hlt
          cases hdecisive (by simpa using hless)

theorem bindLocated_spec (hnear : p.nearMm = some hint) (hpool : s.pool ≠ []) :
    Outcome (fun s' => ∃ key o, (key, o) ∈ s.pool ∧ s' = s.take p.name key ∧
        PickedByLocation (bboxMin.dist bboxMax) s.pool p hint key o) IsRefusal
      (bindLocated (bboxMin.distSq bboxMax) s p) := by
  unfold bindLocated
  rw [hnear]
  dsimp only
  split
  · next o ho =>
    obtain ⟨hlookup, hstaged⟩ := Option.filter_eq_some_iff.mp ho
    refine Outcome.ite (fun hsize => ?_) fun _ => trivial
    exact ⟨p.name, o, JsonTree.mem_of_lookup hlookup, rfl, size_of_agrees hsize, .inl ⟨hstaged, rfl⟩⟩
  · exact bindNearest_spec hpool

end

section

variable {bboxMin bboxMax : Point} {openings : List (String × Opening)} {s : Progress}
  {done rest : List DeclaredPatch} {p : DeclaredPatch}

/-- The located ports that had their turn have distinct openings, the rest is still free, and what
was not free any more when a port had its turn went to a name before it. -/
structure LocatedUpTo (openings : List (String × Opening)) (diagonal : ℝ)
    (done : List DeclaredPatch) (s : Progress) : Prop where
  pool : s.pool = openings.filter fun e => !(s.bound.map Prod.snd).contains e.1
  names : s.bound.map Prod.fst = done.map (·.name)
  nodup : (s.bound.map Prod.snd).Nodup
  keys : ∀ e ∈ s.bound, e.2 ∈ openings.map Prod.fst
  picked : ∀ p ∈ done, ∀ hint, p.nearMm = some hint →
    ∃ key o, (p.name, key) ∈ s.bound ∧ (key, o) ∈ openings ∧
      ∃ free, PickedByLocation diagonal free p hint key o ∧
        ∀ e ∈ openings, e ∉ free → ∃ name < p.name, (name, e.1) ∈ s.bound

theorem LocatedUpTo.room (h : LocatedUpTo openings (bboxMin.dist bboxMax) done s)
    (hopenings : (openings.map Prod.fst).Nodup) (hroom : done.length < openings.length) :
    s.pool ≠ [] := by
  intro hnil
  have htaken : openings.map Prod.fst ⊆ s.bound.map Prod.snd := by
    intro key hkey
    obtain ⟨e, he, rfl⟩ := List.mem_map.mp hkey
    by_contra hfree
    have hmem : e ∈ s.pool := by
      rw [h.pool, List.mem_filter]
      exact ⟨he, by simpa using hfree⟩
    rw [hnil] at hmem
    cases hmem
  have hle := (List.subperm_of_subset hopenings htaken).length_le
  have hnames := congrArg List.length h.names
  simp only [List.length_map] at hle hnames
  omega

theorem located_step (h : LocatedUpTo openings (bboxMin.dist bboxMax) done s)
    (hopenings : (openings.map Prod.fst).Nodup) (hroom : done.length < openings.length)
    (hnear : p.isLocated = true) (hbefore : ∀ q ∈ done, q.name < p.name) :
    Outcome (LocatedUpTo openings (bboxMin.dist bboxMax) (done ++ [p])) IsRefusal
      (bindLocated (bboxMin.distSq bboxMax) s p) := by
  obtain ⟨hint, hhint⟩ := Option.isSome_iff_exists.mp hnear
  refine Outcome.weaken (bindLocated_spec hhint (h.room hopenings hroom)) ?_ fun _ he => he
  rintro _ ⟨key, o, hmem, rfl, hpicked⟩
  have hpool := hmem
  rw [h.pool, List.mem_filter] at hpool
  obtain ⟨hopening, hfree⟩ := hpool
  refine ⟨?_, ?_, ?_, ?_, ?_⟩
  · show s.pool.filter _ = _
    rw [h.pool, List.filter_filter]
    refine List.filter_congr fun e _ => ?_
    simp only [Progress.take, List.map_append, List.contains_eq_mem]
    grind
  · simp [Progress.take, h.names]
  · simp only [Progress.take, List.map_append, List.map_cons, List.map_nil]
    refine List.nodup_append.mpr ⟨h.nodup, List.nodup_singleton key, ?_⟩
    rintro k hk k' hk' rfl
    obtain rfl := List.mem_singleton.mp hk'
    simp at hfree
    grind
  · intro e he
    obtain he | he := List.mem_append.mp he
    · exact h.keys e he
    · obtain rfl := List.mem_singleton.mp he
      exact List.mem_map_of_mem hopening
  · intro q hq hint' hhint'
    obtain hq | hq := List.mem_append.mp hq
    · obtain ⟨key', o', hbound, ho', free, hpick, htaken⟩ := h.picked q hq hint' hhint'
      refine ⟨key', o', List.mem_append_left _ hbound, ho', free, hpick, fun e he hnot => ?_⟩
      obtain ⟨name, hlt, hname⟩ := htaken e he hnot
      exact ⟨name, hlt, List.mem_append_left _ hname⟩
    · obtain rfl := List.mem_singleton.mp hq
      obtain rfl := Option.some.inj (hhint.symm.trans hhint')
      refine ⟨key, o, List.mem_append_right _ List.mem_cons_self, hopening, s.pool, hpicked, ?_⟩
      intro e he hnot
      have htaken : e.1 ∈ s.bound.map Prod.snd := by
        by_contra hfree'
        refine hnot ?_
        rw [h.pool, List.mem_filter]
        exact ⟨he, by simpa using hfree'⟩
      obtain ⟨⟨name, key'⟩, hbound, rfl⟩ := List.mem_map.mp htaken
      have hname : name ∈ done.map (·.name) := by
        rw [← h.names]
        exact List.mem_map_of_mem hbound
      obtain ⟨r, hr, rfl⟩ := List.mem_map.mp hname
      exact ⟨r.name, hbefore r hr, List.mem_append_left _ hbound⟩

/-- The located ports in the order of their names. -/
def locatedPorts (ports : List DeclaredPatch) : List DeclaredPatch :=
  sortBy (·.name) (ports.filter (·.isLocated))

theorem bindByLocation_spec {ports : List DeclaredPatch} (hnames : (ports.map (·.name)).Nodup)
    (hopenings : (openings.map Prod.fst).Nodup) (henough : ports.length ≤ openings.length) :
    Outcome (LocatedUpTo openings (bboxMin.dist bboxMax) (locatedPorts ports)) IsRefusal
      (bindByLocation (bboxMin.distSq bboxMax) openings ports) := by
  have hperm : (locatedPorts ports).Perm (ports.filter (·.isLocated)) := perm_sortBy _ _
  have hsorted : (locatedPorts ports).Pairwise fun p q => p.name ≤ q.name := pairwise_sortBy _ _
  have hnodup : ((locatedPorts ports).map (·.name)).Nodup :=
    (hperm.map _).nodup_iff.mpr (hnames.sublist (List.filter_sublist.map _))
  have hlength : (locatedPorts ports).length ≤ openings.length :=
    hperm.length_eq.trans_le ((List.length_filter_le _ _).trans henough)
  refine Outcome.foldlM _ ⟨?_, rfl, List.nodup_nil, fun e he => absurd he List.not_mem_nil,
    fun p hp => absurd hp List.not_mem_nil⟩ fun done p rest s hl h => ?_
  · simp
  · have hl' : locatedPorts ports = done ++ p :: rest := hl
    rw [hl', List.length_append, List.length_cons] at hlength
    have hp : p ∈ locatedPorts ports := by
      rw [hl']
      exact List.mem_append_right _ List.mem_cons_self
    refine located_step h hopenings (by omega) (List.mem_filter.mp (hperm.mem_iff.mp hp)).2
      fun q hq => ?_
    rw [hl'] at hsorted hnodup
    rw [List.map_append, List.map_cons] at hnodup
    have hle := (List.pairwise_append.mp hsorted).2.2 q hq p List.mem_cons_self
    refine lt_of_le_of_ne hle fun heq => ?_
    exact (List.nodup_append.mp hnodup).2.2 _ (List.mem_map_of_mem hq) _ List.mem_cons_self heq

end

/-! ## By size -/

section

variable {areas : List Size} {remaining : List DeclaredPatch} {pool : List (String × Opening)}
  {s s₀ : Progress} {a : Size}

/-- The names of a class, each with its opening. -/
def classBinding (areas : List Size) (remaining : List DeclaredPatch)
    (pool : List (String × Opening)) (a : Size) : List (String × String) :=
  (portNames (classPorts remaining a)).zip ((candidatesFor areas pool a).map Prod.fst)

/-- A class is used up exactly, and one of several ports may be swapped. -/
structure ClassFits (areas : List Size) (remaining : List DeclaredPatch)
    (pool : List (String × Opening)) (a : Size) : Prop where
  length : (candidatesFor areas pool a).length = (classPorts remaining a).length
  swap : 1 < (classPorts remaining a).length → mayBeSwapped (classPorts remaining a) = true

lemma length_portNames (ports : List DeclaredPatch) : (portNames ports).length = ports.length := by
  simp [portNames, (perm_sortBy _ _).length_eq]

namespace ClassFits

variable (h : ClassFits areas remaining pool a)

include h

theorem map_fst : (classBinding areas remaining pool a).map Prod.fst =
    portNames (classPorts remaining a) :=
  List.map_fst_zip (by simp [length_portNames, h.length])

theorem map_snd : (classBinding areas remaining pool a).map Prod.snd =
    (candidatesFor areas pool a).map Prod.fst :=
  List.map_snd_zip (by simp [length_portNames, h.length])

end ClassFits

theorem bindClass_spec : Outcome (fun s' => ClassFits areas remaining pool a ∧
      s'.bound = s.bound ++ classBinding areas remaining pool a ∧
      s'.pool = s.pool.filter fun e =>
        !((classBinding areas remaining pool a).map Prod.snd).contains e.1) IsRefusal
    (bindClass areas remaining pool s a) := by
  unfold bindClass
  refine Outcome.ite (fun _ => trivial) fun hfew => Outcome.ite (fun _ => trivial) fun hmany =>
    Outcome.ite (fun _ => trivial) fun hswap => ?_
  have hfits : ClassFits areas remaining pool a :=
    ⟨by omega, fun hlt => by simpa using fun h => hswap ⟨hlt, h⟩⟩
  refine ⟨hfits, rfl, ?_⟩
  rw [hfits.map_snd]

/-- The classes that had their turn fit, and their openings are gone from the pool. -/
structure SizedUpTo (areas : List Size) (remaining : List DeclaredPatch) (s₀ : Progress)
    (done : List Size) (s : Progress) : Prop where
  fits : ∀ a ∈ done, ClassFits areas remaining s₀.pool a
  bound : s.bound = s₀.bound ++ done.flatMap (classBinding areas remaining s₀.pool)
  pool : s.pool = s₀.pool.filter fun e =>
    !((done.flatMap (classBinding areas remaining s₀.pool)).map Prod.snd).contains e.1

theorem bindBySize_spec (hsized : ∀ p ∈ remaining, p.declaredAreaM2.isSome) :
    Outcome (fun s' => SizedUpTo (classAreas remaining) remaining s (classAreas remaining) s' ∧
        ∀ e ∈ s.pool, (matching (classAreas remaining) e.2).length ≤ 1) IsRefusal
      (bindBySize remaining s) := by
  unfold bindBySize
  refine Outcome.ite (fun hnone => ?_) fun _ => ?_
  · obtain ⟨p, hp, hp'⟩ := List.any_eq_true.mp hnone
    have := hsized p hp
    simp_all
  split
  · trivial
  split
  · trivial
  next hone =>
    have hone' : ∀ e ∈ s.pool, (matching (classAreas remaining) e.2).length ≤ 1 := by
      intro e he
      simpa using List.find?_eq_none.mp hone e he
    refine Outcome.weaken (Outcome.foldlM (P := SizedUpTo (classAreas remaining) remaining s)
      (classAreas remaining) ?_ ?_) (fun s' h => ⟨h, hone'⟩) fun _ h => h
    · exact ⟨fun a ha => absurd ha List.not_mem_nil, (List.append_nil _).symm, by simp⟩
    · intro done a rest s' _ h
      refine Outcome.weaken bindClass_spec ?_ fun _ h => h
      rintro s'' ⟨hfits, hbound, hpool⟩
      refine ⟨?_, ?_, ?_⟩
      · intro a' ha'
        obtain ha' | ha' := List.mem_append.mp ha'
        · exact h.fits a' ha'
        · obtain rfl := List.mem_singleton.mp ha'
          exact hfits
      · rw [hbound, h.bound]
        simp
      · rw [hpool, h.pool, List.filter_filter]
        refine List.filter_congr fun e _ => ?_
        simp only [List.flatMap_append, List.flatMap_singleton, List.map_append,
          List.contains_eq_mem]
        grind

end

/-! ## All ports -/

section

variable {areas : List Size} {ports remaining : List DeclaredPatch}
  {pool openings : List (String × Opening)} {s s₀ : Progress} {a : Size} {diagonal : ℝ}

lemma mem_classPorts {p : DeclaredPatch} :
    p ∈ classPorts remaining a ↔ p ∈ remaining ∧ p.declaredAreaM2 = some a := by
  simp [classPorts]

lemma mem_portNames {name : String} : name ∈ portNames ports ↔ ∃ p ∈ ports, p.name = name := by
  simp [portNames]

lemma mem_candidatesFor {e : String × Opening} :
    e ∈ candidatesFor areas pool a ↔ e ∈ pool ∧ matching areas e.2 = [a] := by
  simp [candidatesFor]

lemma mem_classAreas : a ∈ classAreas remaining ↔ ∃ p ∈ remaining, p.declaredAreaM2 = some a := by
  simp [classAreas]

lemma mem_matching {o : Opening} : a ∈ matching areas o ↔ a ∈ areas ∧ o.sizeAgrees a = true := by
  simp [matching]

theorem perm_portNames (ports : List DeclaredPatch) :
    (portNames ports).Perm (ports.map (·.name)) := perm_sortBy _ _

/-- The classes are the ports that are left. -/
theorem flatMap_classPorts (hnodup : remaining.Nodup)
    (hsized : ∀ p ∈ remaining, p.declaredAreaM2.isSome) :
    ((classAreas remaining).flatMap (classPorts remaining)).Perm remaining := by
  refine (List.perm_ext_iff_of_nodup ?_ hnodup).mpr fun p => ?_
  · refine List.nodup_flatMap.mpr ⟨fun a _ => hnodup.filter _, ?_⟩
    refine (nodup_unique _).imp fun {a b} hab => ?_
    intro p ha hb
    exact hab (Option.some.inj ((mem_classPorts.mp ha).2.symm.trans (mem_classPorts.mp hb).2))
  · simp only [List.mem_flatMap, mem_classAreas, mem_classPorts]
    constructor
    · rintro ⟨a, -, hp, -⟩
      exact hp
    · intro hp
      obtain ⟨a, ha⟩ := Option.isSome_iff_exists.mp (hsized p hp)
      exact ⟨a, ⟨p, hp, ha⟩, hp, ha⟩

/-- Every port has its name in the end, and only once. -/
theorem SizedUpTo.names (h : SizedUpTo (classAreas remaining) remaining s₀ (classAreas remaining) s)
    (hnodup : remaining.Nodup) (hsized : ∀ p ∈ remaining, p.declaredAreaM2.isSome) :
    (s.bound.map Prod.fst).Perm (s₀.bound.map Prod.fst ++ remaining.map (·.name)) := by
  rw [h.bound, List.map_append, List.map_flatMap]
  refine List.Perm.append_left _ ?_
  have hnames : ((classAreas remaining).flatMap fun a =>
      (classBinding (classAreas remaining) remaining s₀.pool a).map Prod.fst) =
      (classAreas remaining).flatMap fun a => portNames (classPorts remaining a) :=
    List.flatMap_congr fun a ha => (h.fits a ha).map_fst
  rw [hnames]
  have hperm := List.Perm.flatMap_left (classAreas remaining) fun a _ =>
    perm_portNames (classPorts remaining a)
  rw [← List.map_flatMap] at hperm
  exact hperm.trans ((flatMap_classPorts hnodup hsized).map _)

theorem SizedUpTo.mem_class (h : SizedUpTo areas remaining s₀ areas s) {key : String} :
    key ∈ (areas.flatMap (classBinding areas remaining s₀.pool)).map Prod.snd ↔
      ∃ a ∈ areas, ∃ e ∈ s₀.pool, matching areas e.2 = [a] ∧ e.1 = key := by
  rw [List.map_flatMap, List.mem_flatMap]
  refine exists_congr fun a => and_congr_right fun ha => ?_
  rw [(h.fits a ha).map_snd]
  simp [mem_candidatesFor, and_assoc]

theorem SizedUpTo.nodup_class (h : SizedUpTo areas remaining s₀ areas s) (hareas : areas.Nodup)
    (hpool : (s₀.pool.map Prod.fst).Nodup) :
    ((areas.flatMap (classBinding areas remaining s₀.pool)).map Prod.snd).Nodup := by
  have hkeys : (areas.flatMap fun a => (classBinding areas remaining s₀.pool a).map Prod.snd) =
      areas.flatMap fun a => (candidatesFor areas s₀.pool a).map Prod.fst :=
    List.flatMap_congr fun a ha => (h.fits a ha).map_snd
  rw [List.map_flatMap, hkeys]
  refine List.nodup_flatMap.mpr ⟨fun a _ => ?_, ?_⟩
  · refine ((perm_sortBy _ _).map Prod.fst).nodup_iff.mpr ?_
    exact hpool.sublist (List.filter_sublist.map _)
  · refine hareas.imp fun {a b} hab => ?_
    intro key ha hb
    obtain ⟨e, he, rfl⟩ := List.mem_map.mp ha
    obtain ⟨e', he', hkey⟩ := List.mem_map.mp hb
    obtain ⟨hmem, hmatch⟩ := mem_candidatesFor.mp he
    obtain ⟨hmem', hmatch'⟩ := mem_candidatesFor.mp he'
    obtain rfl := List.inj_on_of_nodup_map hpool hmem' hmem hkey
    exact hab (List.cons.inj (hmatch.symm.trans hmatch')).1

/-- What is taken and what is not are all. -/
theorem perm_taken {taken : List String} (hopenings : (openings.map Prod.fst).Nodup)
    (htaken : taken.Nodup) (hsub : ∀ key ∈ taken, key ∈ openings.map Prod.fst) :
    (taken ++ (openings.filter fun e => !taken.contains e.1).map Prod.fst).Perm
      (openings.map Prod.fst) := by
  refine (List.perm_ext_iff_of_nodup ?_ hopenings).mpr fun key => ?_
  · refine List.nodup_append.mpr ⟨htaken, hopenings.sublist (List.filter_sublist.map _), ?_⟩
    rintro key hkey _ hfree rfl
    obtain ⟨e, he, rfl⟩ := List.mem_map.mp hfree
    simp_all
  · simp only [List.mem_append, List.mem_map, List.mem_filter]
    constructor
    · rintro (hkey | ⟨e, ⟨he, -⟩, rfl⟩)
      · exact List.mem_map.mp (hsub key hkey)
      · exact ⟨e, he, rfl⟩
    · rintro ⟨e, he, rfl⟩
      by_cases h : e.1 ∈ taken
      · exact .inl h
      · exact .inr ⟨e, ⟨he, by simpa using h⟩, rfl⟩

end

/-! ## What a binding promises -/

/-- A declared port that is bound by this size. -/
structure SizedPort (declared : List DeclaredPatch) (p : DeclaredPatch) (a : Size) : Prop where
  mem : p ∈ declared
  port : p.isPort = true
  unplaced : p.isLocated = false
  size : p.declaredAreaM2 = some a

/-- The opening was taken by a located port before this one in name order. -/
def takenBefore (declared : List DeclaredPatch) (b : Binding) (p : DeclaredPatch) (key : String) :
    Bool :=
  declared.any fun q => q.isPort && q.isLocated && decide (q.name < p.name) &&
    b.portMap.contains (q.name, key)

/-- The openings that were free when the port had its turn. -/
def freeFor (declared : List DeclaredPatch) (t : Tessellation σ) (b : Binding) (p : DeclaredPatch) :
    List (String × Opening) :=
  t.openings.filter fun e => !takenBefore declared b p e.1

structure BoundSoundly (declared : List DeclaredPatch) (t : Tessellation σ) (b : Binding) : Prop where
  wall : ∃ w, declared.filter (·.role == "wall") = [w] ∧ w.name = b.wallName
  /-- Every port is bound, once. -/
  ports : (b.portMap.map Prod.fst).Perm ((declared.filter (·.isPort)).map (·.name))
  /-- Every opening is bound once or folded once. -/
  openings : (b.portMap.map Prod.snd ++ b.foldedIntoWall).Perm (t.openings.map Prod.fst)
  located : ∀ p ∈ declared, p.isPort → ∀ hint, p.nearMm = some hint →
    ∃ key o, (p.name, key) ∈ b.portMap ∧ (key, o) ∈ t.openings ∧
      PickedByLocation (t.bboxMin.dist t.bboxMax) (freeFor declared t b p) p hint key o
  sized : ∀ p a, SizedPort declared p a →
    ∃ key o, (p.name, key) ∈ b.portMap ∧ (key, o) ∈ t.openings ∧ o.sizeAgrees a = true ∧
      ∀ q a', SizedPort declared q a' → o.sizeAgrees a' = true → a' = a
  /-- No opening of a class's size is left over. -/
  usedUp : ∀ p a, SizedPort declared p a → ∀ key o, (key, o) ∈ t.openings →
    o.sizeAgrees a = true → ∃ q ∈ declared, q.isPort = true ∧ (q.name, key) ∈ b.portMap ∧
      (q.isLocated = true ∨ q.declaredAreaM2 = some a)
  swapped : ∀ p q a, SizedPort declared p a → SizedPort declared q a → p.name ≠ q.name →
    p.role = q.role ∧ q.name ∈ p.interchangeableWith ∧ p.name ∈ q.interchangeableWith
  folded : ∀ key ∈ b.foldedIntoWall, ∀ o, (key, o) ∈ t.openings →
    ∀ p a, SizedPort declared p a → o.sizeAgrees a = false

section

variable {declared ports remaining : List DeclaredPatch} {openings : List (String × Opening)}
  {s s₀ : Progress} {a : Size} {diagonal : ℝ} {areas : List Size}

lemma mem_locatedPorts {p : DeclaredPatch} :
    p ∈ locatedPorts ports ↔ p ∈ ports ∧ p.isLocated = true := by
  simp [locatedPorts]

theorem eq_of_name {p q : DeclaredPatch} (hnames : (ports.map (·.name)).Nodup) (hp : p ∈ ports)
    (hq : q ∈ ports) (h : p.name = q.name) : p = q :=
  List.inj_on_of_nodup_map hnames hp hq h

/-- The ports that location left are those without one. -/
theorem LocatedUpTo.unbound_eq (h : LocatedUpTo openings diagonal (locatedPorts ports) s)
    (hnames : (ports.map (·.name)).Nodup) :
    (ports.filter fun p => !(s.bound.map Prod.fst).contains p.name) =
      ports.filter fun p => !p.isLocated := by
  refine List.filter_congr fun p hp => ?_
  rw [h.names]
  have hiff : p.name ∈ (locatedPorts ports).map (·.name) ↔ p.isLocated = true := by
    rw [List.mem_map]
    constructor
    · rintro ⟨q, hq, hname⟩
      obtain ⟨hq, hlocated⟩ := mem_locatedPorts.mp hq
      exact eq_of_name hnames hq hp hname ▸ hlocated
    · exact fun hlocated => ⟨p, mem_locatedPorts.mpr ⟨hp, hlocated⟩, rfl⟩
  grind

end

/-- What both stages leave behind. -/
structure Settled (ports : List DeclaredPatch) (openings : List (String × Opening)) (diagonal : ℝ)
    (remaining : List DeclaredPatch) (s₀ s : Progress) : Prop where
  remaining_eq : remaining = ports.filter fun p => !p.isLocated
  located : LocatedUpTo openings diagonal (locatedPorts ports) s₀
  sized : SizedUpTo (classAreas remaining) remaining s₀ (classAreas remaining) s
  one : ∀ e ∈ s₀.pool, (matching (classAreas remaining) e.2).length ≤ 1

namespace Settled

variable {ports remaining : List DeclaredPatch} {openings : List (String × Opening)}
  {s s₀ : Progress} {diagonal : ℝ} {a : Size}

section

variable (h : Settled ports openings diagonal remaining s₀ s)

include h

theorem mem_remaining {p : DeclaredPatch} :
    p ∈ remaining ↔ p ∈ ports ∧ p.isLocated = false := by
  rw [h.remaining_eq]
  simp

theorem bound_subset : s₀.bound ⊆ s.bound := by
  rw [h.sized.bound]
  exact List.subset_append_left _ _

theorem names (hnames : (ports.map (·.name)).Nodup) (hsized : ∀ p ∈ ports, Bindable p) :
    (s.bound.map Prod.fst).Perm (ports.map (·.name)) := by
  have hnodup : remaining.Nodup := by
    rw [h.remaining_eq]
    exact hnames.of_map.filter _
  have hareas : ∀ p ∈ remaining, p.declaredAreaM2.isSome := by
    intro p hp
    obtain ⟨hp, hunplaced⟩ := h.mem_remaining.mp hp
    refine (hsized p hp).resolve_right fun hlocated => ?_
    rw [hunplaced] at hlocated
    cases hlocated
  refine (h.sized.names hnodup hareas).trans ?_
  rw [h.located.names, h.remaining_eq]
  refine List.Perm.trans (((perm_sortBy _ _).map _).append_right _) ?_
  rw [← List.map_append]
  exact (List.filter_append_perm _ ports).map _

theorem pool_nodup (hopenings : (openings.map Prod.fst).Nodup) : (s₀.pool.map Prod.fst).Nodup := by
  rw [h.located.pool]
  exact hopenings.sublist (List.filter_sublist.map _)

theorem mem_pool {e : String × Opening} :
    e ∈ s₀.pool ↔ e ∈ openings ∧ e.1 ∉ s₀.bound.map Prod.snd := by
  rw [h.located.pool]
  simp

theorem keys_nodup (hopenings : (openings.map Prod.fst).Nodup) : (s.bound.map Prod.snd).Nodup := by
  rw [h.sized.bound, List.map_append]
  refine List.nodup_append.mpr ⟨h.located.nodup,
    h.sized.nodup_class (nodup_unique _) (h.pool_nodup hopenings), ?_⟩
  rintro key hkey _ hclass rfl
  obtain ⟨a, -, e, he, -, rfl⟩ := h.sized.mem_class.mp hclass
  exact (h.mem_pool.mp he).2 hkey

theorem keys_mem {e : String × String} (he : e ∈ s.bound) : e.2 ∈ openings.map Prod.fst := by
  rw [h.sized.bound] at he
  obtain he | he := List.mem_append.mp he
  · exact h.located.keys e he
  · obtain ⟨a, -, o, ho, -, hkey⟩ := h.sized.mem_class.mp (List.mem_map_of_mem he)
    rw [← hkey]
    exact List.mem_map_of_mem (h.mem_pool.mp ho).1

/-- What is left in the pool is what nobody took. -/
theorem pool_eq : s.pool = openings.filter fun e => !(s.bound.map Prod.snd).contains e.1 := by
  have hpool := h.sized.pool
  have hbound := congrArg (List.map Prod.snd) h.sized.bound
  rw [List.map_append] at hbound
  generalize ((classAreas remaining).flatMap _).map Prod.snd = taken at hpool hbound
  rw [hpool, h.located.pool, List.filter_filter, hbound]
  refine List.filter_congr fun e _ => ?_
  simp only [List.contains_eq_mem]
  grind

theorem keys (hopenings : (openings.map Prod.fst).Nodup) :
    (s.bound.map Prod.snd ++ s.pool.map Prod.fst).Perm (openings.map Prod.fst) := by
  rw [h.pool_eq]
  refine perm_taken hopenings (h.keys_nodup hopenings) fun key hkey => ?_
  obtain ⟨e, he, rfl⟩ := List.mem_map.mp hkey
  exact h.keys_mem he

/-- An opening that location left matches at most one class, and it is bound to that class. -/
theorem matching_eq {e : String × Opening} (he : e ∈ s₀.pool) (ha : a ∈ classAreas remaining)
    (hsize : e.2.sizeAgrees a = true) : matching (classAreas remaining) e.2 = [a] := by
  have hmem := mem_matching.mpr ⟨ha, hsize⟩
  have hlength := h.one e he
  generalize matching (classAreas remaining) e.2 = areas at hmem hlength
  match areas with
  | [] => cases hmem
  | [a'] => rw [List.mem_singleton.mp hmem]
  | _ :: _ :: _ => simp at hlength

theorem class_of_size {p : DeclaredPatch} (hp : p ∈ ports) (hunplaced : p.isLocated = false)
    (hsize : p.declaredAreaM2 = some a) :
    a ∈ classAreas remaining ∧ p ∈ classPorts remaining a := by
  have hmem := h.mem_remaining.mpr ⟨hp, hunplaced⟩
  exact ⟨mem_classAreas.mpr ⟨p, hmem, hsize⟩, mem_classPorts.mpr ⟨hmem, hsize⟩⟩

/-- An entry that a class binds. -/
theorem mem_class (ha : a ∈ classAreas remaining) {e : String × String}
    (he : e ∈ classBinding (classAreas remaining) remaining s₀.pool a) :
    e ∈ s.bound ∧ e.1 ∈ portNames (classPorts remaining a) ∧
      ∃ o, (e.2, o) ∈ openings ∧ matching (classAreas remaining) o = [a] := by
  refine ⟨?_, ?_, ?_⟩
  · rw [h.sized.bound]
    exact List.mem_append_right _ (List.mem_flatMap.mpr ⟨a, ha, he⟩)
  · rw [← (h.sized.fits a ha).map_fst]
    exact List.mem_map_of_mem he
  · have hkey : e.2 ∈ (candidatesFor (classAreas remaining) s₀.pool a).map Prod.fst := by
      rw [← (h.sized.fits a ha).map_snd]
      exact List.mem_map_of_mem he
    obtain ⟨⟨key, o⟩, ho, hkey⟩ := List.mem_map.mp hkey
    obtain ⟨hmem, hmatch⟩ := mem_candidatesFor.mp ho
    exact ⟨o, hkey ▸ (h.mem_pool.mp hmem).1, hmatch⟩

/-- A port that is bound by size has an opening that its class alone matches. -/
theorem sized_bound {p : DeclaredPatch} (hp : p ∈ ports) (hunplaced : p.isLocated = false)
    (hsize : p.declaredAreaM2 = some a) :
    ∃ key o, (p.name, key) ∈ s.bound ∧ (key, o) ∈ openings ∧
      matching (classAreas remaining) o = [a] := by
  obtain ⟨ha, hclass⟩ := h.class_of_size hp hunplaced hsize
  have hname : p.name ∈ (classBinding (classAreas remaining) remaining s₀.pool a).map Prod.fst := by
    rw [(h.sized.fits a ha).map_fst]
    exact mem_portNames.mpr ⟨p, hclass, rfl⟩
  obtain ⟨e, he, hname⟩ := List.mem_map.mp hname
  obtain ⟨hbound, -, o, ho, hmatch⟩ := h.mem_class ha he
  exact ⟨e.2, o, hname ▸ hbound, ho, hmatch⟩

/-- An opening of a declared size is bound. -/
theorem size_bound {p : DeclaredPatch} (hp : p ∈ ports) (hunplaced : p.isLocated = false)
    (hsize : p.declaredAreaM2 = some a) {e : String × Opening} (he : e ∈ openings)
    (hagrees : e.2.sizeAgrees a = true) :
    ∃ q ∈ ports, (q.name, e.1) ∈ s.bound ∧ (q.isLocated = true ∨ q.declaredAreaM2 = some a) := by
  obtain ⟨ha, -⟩ := h.class_of_size hp hunplaced hsize
  by_cases htaken : e.1 ∈ s₀.bound.map Prod.snd
  · obtain ⟨⟨name, key⟩, hbound, hkey⟩ := List.mem_map.mp htaken
    have hname : name ∈ (locatedPorts ports).map (·.name) := by
      rw [← h.located.names]
      exact List.mem_map_of_mem hbound
    obtain ⟨q, hq, rfl⟩ := List.mem_map.mp hname
    obtain ⟨hq, hlocated⟩ := mem_locatedPorts.mp hq
    exact ⟨q, hq, hkey ▸ h.bound_subset hbound, .inl hlocated⟩
  · have hpool := h.mem_pool.mpr ⟨he, htaken⟩
    have hkey : e.1 ∈ (classBinding (classAreas remaining) remaining s₀.pool a).map Prod.snd := by
      rw [(h.sized.fits a ha).map_snd]
      exact List.mem_map_of_mem (mem_candidatesFor.mpr ⟨hpool, h.matching_eq hpool ha hagrees⟩)
    obtain ⟨e', he', hkey⟩ := List.mem_map.mp hkey
    obtain ⟨hbound, hname, -⟩ := h.mem_class ha he'
    obtain ⟨q, hq, hname⟩ := mem_portNames.mp hname
    obtain ⟨hq, hqsize⟩ := mem_classPorts.mp hq
    refine ⟨q, (h.mem_remaining.mp hq).1, ?_, .inr hqsize⟩
    rw [hname, ← hkey]
    exact hbound

theorem swapped {p q : DeclaredPatch} (hp : p ∈ classPorts remaining a)
    (hq : q ∈ classPorts remaining a) (hne : p.name ≠ q.name) (ha : a ∈ classAreas remaining) :
    p.role = q.role ∧ q.name ∈ p.interchangeableWith ∧ p.name ∈ q.interchangeableWith := by
  have hlt : 1 < (classPorts remaining a).length := by
    have hneq : p ≠ q := fun heq => hne (congrArg _ heq)
    have hpair : [p, q] ⊆ classPorts remaining a := by grind
    have hnodup : [p, q].Nodup := List.nodup_cons.mpr ⟨by simpa using hneq, List.nodup_singleton q⟩
    exact (List.subperm_of_subset hnodup hpair).length_le
  have hswap := (h.sized.fits a ha).swap hlt
  simp only [mayBeSwapped, List.all_eq_true, Bool.and_eq_true, Bool.or_eq_true, beq_iff_eq,
    List.contains_eq_mem, decide_eq_true_eq] at hswap
  obtain ⟨hrole, hsame⟩ := hswap p hp q hq
  exact ⟨hrole, hsame.resolve_left hne⟩

end

end Settled

theorem settled_spec {ports : List DeclaredPatch} {openings : List (String × Opening)}
    {diagonal : ℝ} {s₀ : Progress} (hnames : (ports.map (·.name)).Nodup)
    (hbindable : ∀ p ∈ ports, Bindable p)
    (hlocated : LocatedUpTo openings diagonal (locatedPorts ports) s₀) :
    Outcome (Settled ports openings diagonal
        (ports.filter fun p => !(s₀.bound.map Prod.fst).contains p.name) s₀) IsRefusal
      (bindBySize (ports.filter fun p => !(s₀.bound.map Prod.fst).contains p.name) s₀) := by
  have hrest := hlocated.unbound_eq hnames
  refine Outcome.weaken (bindBySize_spec fun p hp => ?_)
    (fun s h => ⟨hrest, hlocated, h.1, h.2⟩) fun _ h => h
  rw [hrest, List.mem_filter] at hp
  refine (hbindable p hp.1).resolve_right fun h => ?_
  simp [h] at hp

/-- The binder binds soundly or refuses. -/
theorem bindPorts_spec {declared : List DeclaredPatch} {t : Tessellation σ}
    (hnames : (declared.map (·.name)).Nodup) :
    Outcome (BoundSoundly declared t) IsRefusal (bindPorts declared t) := by
  have hports : ((declared.filter (·.isPort)).map (·.name)).Nodup :=
    hnames.sublist (List.filter_sublist.map _)
  have hperm : (sortBy Prod.fst t.openings).Perm t.openings := perm_sortBy _ _
  have hopenings : ((sortBy Prod.fst t.openings).map Prod.fst).Nodup :=
    (hperm.map _).nodup_iff.mpr t.openings_nodup
  unfold bindPorts
  refine Outcome.bind (checkDeclared_spec declared _) fun wall hdeclared => ?_
  refine Outcome.bind (bindByLocation_spec hports hopenings hdeclared.enough) fun s₀ hlocated => ?_
  refine Outcome.bind (settled_spec hports hdeclared.bindable hlocated) fun s h => ?_
  have hbound {e : String × String} :
      e ∈ (bindingOf wall (declared.filter (·.isPort)) (sortBy Prod.fst t.openings) s).portMap ↔
        e ∈ s.bound := mem_sortBy
  have hentry {key : String} {o : Opening} :
      (key, o) ∈ sortBy Prod.fst t.openings ↔ (key, o) ∈ t.openings := hperm.mem_iff
  have hmem {p : DeclaredPatch} : p ∈ declared.filter (·.isPort) ↔ p ∈ declared ∧ p.isPort = true :=
    List.mem_filter
  show BoundSoundly declared t _
  refine ⟨hdeclared.wall, ?_, ?_, ?_, ?_, ?_, ?_, ?_⟩
  · exact ((perm_sortBy _ _).map _).trans (h.names hports hdeclared.bindable)
  · refine (((perm_sortBy _ _).map _).append (perm_sortBy _ _)).trans ?_
    exact (h.keys hopenings).trans (hperm.map _)
  · intro p hp hport hint hhint
    have hlocatedPort : p ∈ locatedPorts (declared.filter (·.isPort)) :=
      mem_locatedPorts.mpr ⟨hmem.mpr ⟨hp, hport⟩, Option.isSome_iff_exists.mpr ⟨hint, hhint⟩⟩
    obtain ⟨key, o, hkey, ho, free, hpicked, hfree⟩ := hlocated.picked p hlocatedPort hint hhint
    refine ⟨key, o, hbound.mpr (h.bound_subset hkey), hentry.mp ho, hpicked.size, ?_⟩
    refine hpicked.place.imp_right fun hplace => ⟨hplace.1, fun e he hne => ?_⟩
    obtain ⟨he, huntaken⟩ := List.mem_filter.mp he
    refine hplace.2 e ?_ hne
    by_contra hnot
    obtain ⟨name, hlt, htaken⟩ := hfree e (hentry.mpr he) hnot
    have hname : name ∈ (locatedPorts (declared.filter (·.isPort))).map (·.name) := by
      rw [← hlocated.names]
      exact List.mem_map_of_mem htaken
    obtain ⟨q, hq, rfl⟩ := List.mem_map.mp hname
    obtain ⟨hq, hqlocated⟩ := mem_locatedPorts.mp hq
    have hbefore : takenBefore declared
        (bindingOf wall (declared.filter (·.isPort)) (sortBy Prod.fst t.openings) s) p e.1 = true := by
      refine List.any_eq_true.mpr ⟨q, (hmem.mp hq).1, ?_⟩
      simp [(hmem.mp hq).2, hqlocated, hlt, hbound.mpr (h.bound_subset htaken)]
    simp [hbefore] at huntaken
  · intro p a hp
    obtain ⟨key, o, hkey, ho, hmatch⟩ := h.sized_bound (hmem.mpr ⟨hp.mem, hp.port⟩) hp.unplaced hp.size
    refine ⟨key, o, hbound.mpr hkey, hentry.mp ho, ?_, fun q a' hq hagrees => ?_⟩
    · exact (mem_matching.mp (hmatch ▸ List.mem_singleton_self a)).2
    · have harea := (h.class_of_size (hmem.mpr ⟨hq.mem, hq.port⟩) hq.unplaced hq.size).1
      have hmatch' := mem_matching.mpr ⟨harea, hagrees⟩
      rw [hmatch] at hmatch'
      exact List.mem_singleton.mp hmatch'
  · intro p a hp key o ho hagrees
    obtain ⟨q, hq, hkey, hwhich⟩ := h.size_bound (hmem.mpr ⟨hp.mem, hp.port⟩) hp.unplaced hp.size
      (hentry.mpr ho) hagrees
    exact ⟨q, (hmem.mp hq).1, (hmem.mp hq).2, hbound.mpr hkey, hwhich⟩
  · intro p q a hp hq hne
    obtain ⟨ha, hpclass⟩ := h.class_of_size (hmem.mpr ⟨hp.mem, hp.port⟩) hp.unplaced hp.size
    obtain ⟨-, hqclass⟩ := h.class_of_size (hmem.mpr ⟨hq.mem, hq.port⟩) hq.unplaced hq.size
    exact h.swapped hpclass hqclass hne ha
  · intro key hkey o ho p a hp
    refine Bool.eq_false_iff.mpr fun hagrees => ?_
    obtain ⟨q, -, hbound', -⟩ := h.size_bound (hmem.mpr ⟨hp.mem, hp.port⟩) hp.unplaced hp.size
      (hentry.mpr ho) hagrees
    have hpool : key ∈ s.pool.map Prod.fst := mem_sortBy.mp hkey
    rw [h.pool_eq] at hpool
    obtain ⟨e, he, rfl⟩ := List.mem_map.mp hpool
    have hfree := (List.mem_filter.mp he).2
    have htaken : e.1 ∈ s.bound.map Prod.snd := List.mem_map_of_mem hbound'
    simp [htaken] at hfree

end MeshPipeline.Ports
