import MeshPipeline.Ports.BoundSoundly
import MeshPipeline.Ports.Reordered

/-!
# Every surface once

Under the user's names, the surface of every opening is a port's or is folded into the wall.
-/

namespace MeshPipeline.Ports

variable {σ : Type}

/-- What is handed on holds every opening's surface once. -/
structure KeepsSurfaces (t : Tessellation σ) (b : Binding) : Prop where
  wall : (applyBinding t b).stls.lookup b.wallName = t.stls.lookup "wall"
  names : ((applyBinding t b).stls.map Prod.fst).Nodup
  ports : ∀ e ∈ b.portMap, ∃ v, t.stls.lookup e.2 = some v ∧ (e.1, v) ∈ (applyBinding t b).stls
  folded : ∀ key ∈ b.foldedIntoWall, ∃ v, t.stls.lookup key = some v ∧
    (key, v) ∈ (applyBinding t b).foldedStls
  once : (((applyBinding t b).stls.filter (·.1 != b.wallName)).map Prod.snd ++
      (applyBinding t b).foldedStls.map Prod.snd).Perm
    (t.openings.filterMap fun e => t.stls.lookup e.1)

/-- The values of some keys of a dictionary, in the order of either. -/
theorem perm_values {d : List (String × σ)} {keys : List String} (hd : (d.map Prod.fst).Nodup)
    (hkeys : keys.Nodup) (hsub : ∀ key ∈ keys, key ∈ d.map Prod.fst) :
    ((d.filter fun e => keys.contains e.1).map Prod.snd).Perm (keys.filterMap fun key => d.lookup key) := by
  have hperm : ((d.filter fun e => keys.contains e.1).map Prod.fst).Perm keys := by
    refine (List.perm_ext_iff_of_nodup (hd.sublist (List.filter_sublist.map _)) hkeys).mpr
      fun key => ?_
    simp only [List.mem_map, List.mem_filter, List.contains_eq_mem, decide_eq_true_eq]
    constructor
    · rintro ⟨e, ⟨-, he⟩, rfl⟩
      exact he
    · intro hkey
      obtain ⟨e, he, rfl⟩ := List.mem_map.mp (hsub key hkey)
      exact ⟨e, ⟨he, hkey⟩, rfl⟩
  have hvalues : (((d.filter fun e => keys.contains e.1).map Prod.fst).filterMap fun key =>
      d.lookup key) =
      (d.filter fun e => keys.contains e.1).map Prod.snd := by
    rw [List.filterMap_map, ← List.filterMap_eq_map]
    refine List.filterMap_congr fun e he => ?_
    exact (JsonTree.lookup_eq_some_iff hd).mpr (List.mem_filter.mp he).1
  rw [← hvalues]
  exact hperm.filterMap _

section

variable {declared : List DeclaredPatch} {t : Tessellation σ} {b : Binding}

namespace BoundSoundly

variable (h : BoundSoundly declared t b)

include h

theorem keys_nodup : (b.portMap.map Prod.snd).Nodup :=
  (List.nodup_append.mp (h.openings.nodup_iff.mpr t.openings_nodup)).1

theorem names_nodup (hnames : (declared.map (·.name)).Nodup) : (b.portMap.map Prod.fst).Nodup :=
  h.ports.nodup_iff.mpr (hnames.sublist (List.filter_sublist.map _))

theorem folded_nodup : b.foldedIntoWall.Nodup :=
  (List.nodup_append.mp (h.openings.nodup_iff.mpr t.openings_nodup)).2.1

theorem key_mem {e : String × String} (he : e ∈ b.portMap) : e.2 ∈ t.openings.map Prod.fst :=
  h.openings.mem_iff.mp (List.mem_append_left _ (List.mem_map_of_mem he))

theorem folded_mem {key : String} (hkey : key ∈ b.foldedIntoWall) :
    key ∈ t.openings.map Prod.fst :=
  h.openings.mem_iff.mp (List.mem_append_right _ hkey)

theorem userOf_iff {name key : String} : b.userOf key = some name ↔ (name, key) ∈ b.portMap := by
  unfold Binding.userOf
  rw [Option.map_eq_some_iff]
  constructor
  · rintro ⟨e, he, rfl⟩
    have hkey : e.2 = key := by simpa using List.find?_some he
    rw [← hkey]
    exact List.mem_of_find?_eq_some he
  · intro hmem
    cases hfind : b.portMap.find? (·.2 == key) with
    | none => simpa using List.find?_eq_none.mp hfind _ hmem
    | some e =>
      have hkey : e.2 = key := by simpa using List.find?_some hfind
      have he := List.inj_on_of_nodup_map h.keys_nodup (List.mem_of_find?_eq_some hfind) hmem hkey
      exact ⟨e, rfl, by rw [he]⟩

/-- The wall is no port. -/
theorem wallName_ne (hnames : (declared.map (·.name)).Nodup) {e : String × String}
    (he : e ∈ b.portMap) : e.1 ≠ b.wallName := by
  intro heq
  obtain ⟨w, hw, hname⟩ := h.wall
  have hport := h.ports.mem_iff.mp (List.mem_map_of_mem he)
  obtain ⟨p, hp, hpname⟩ := List.mem_map.mp hport
  have hwall : w ∈ declared.filter (·.role == "wall") := by
    rw [hw]
    exact List.mem_singleton_self w
  obtain ⟨hp, hpport⟩ := List.mem_filter.mp hp
  obtain ⟨hwmem, hwrole⟩ := List.mem_filter.mp hwall
  obtain rfl := eq_of_name hnames hp hwmem (by rw [hpname, heq, hname])
  rw [DeclaredPatch.isPort, beq_iff_eq.mp hwrole] at hpport
  simp at hpport

end BoundSoundly

theorem keeps_surfaces (h : BoundSoundly declared t b) (hnames : (declared.map (·.name)).Nodup) :
    KeepsSurfaces t b := by
  obtain ⟨wallStl, hwallStl⟩ : ∃ v, t.stls.lookup "wall" = some v := by
    obtain ⟨e, he, hkey⟩ := List.mem_map.mp t.wall_mem
    exact ⟨e.2, (JsonTree.lookup_eq_some_iff t.stls_nodup).mpr (hkey ▸ he)⟩
  have hstl {key : String} (hkey : key ∈ t.openings.map Prod.fst) :
      ∃ v, t.stls.lookup key = some v ∧ (key, v) ∈ t.stls ∧ key ≠ "wall" := by
    obtain ⟨e, he, rfl⟩ := List.mem_map.mp (t.opening_mem key hkey)
    refine ⟨e.2, (JsonTree.lookup_eq_some_iff t.stls_nodup).mpr he, he, fun hwall => ?_⟩
    exact t.opening_ne_wall (hwall ▸ hkey)
  set ports := t.stls.filterMap fun e =>
    if e.1 = "wall" then none else (b.userOf e.1).map (·, e.2) with hports
  have hstls : (applyBinding t b).stls = (b.wallName, wallStl) :: ports := by
    unfold applyBinding
    rw [hwallStl]
    rfl
  have hmem {name : String} {v : σ} : (name, v) ∈ ports ↔
      ∃ key, (name, key) ∈ b.portMap ∧ (key, v) ∈ t.stls := by
    rw [hports, List.mem_filterMap]
    constructor
    · rintro ⟨⟨key, v'⟩, he, hsome⟩
      dsimp only at hsome
      split at hsome
      · cases hsome
      · obtain ⟨name', huser, hpair⟩ := Option.map_eq_some_iff.mp hsome
        cases hpair
        exact ⟨key, h.userOf_iff.mp huser, he⟩
    · rintro ⟨key, hkey, hv⟩
      obtain ⟨_, -, -, hne⟩ := hstl (h.key_mem hkey)
      exact ⟨(key, v), hv, by simp [hne, h.userOf_iff.mpr hkey]⟩
  have hnot : b.wallName ∉ ports.map Prod.fst := by
    intro hin
    obtain ⟨e, he, heq⟩ := List.mem_map.mp hin
    obtain ⟨key, hkey, -⟩ := hmem.mp he
    exact h.wallName_ne hnames hkey heq
  refine ⟨?_, ?_, ?_, ?_, ?_⟩
  · rw [hstls, hwallStl]
    simp
  · rw [hstls]
    refine List.nodup_cons.mpr ⟨hnot, ?_⟩
    have hkeys : ports.map Prod.fst = (t.stls.map Prod.fst).filterMap fun key =>
        if key = "wall" then none else b.userOf key := by
      rw [hports, List.map_filterMap, List.filterMap_map]
      refine List.filterMap_congr fun e _ => ?_
      dsimp only [Function.comp]
      split
      · rfl
      · simp [Function.comp_def]
    rw [hkeys]
    refine t.stls_nodup.filterMap fun key key' name hkey hkey' => ?_
    have huser {k : String} (hk : name ∈ if k = "wall" then none else b.userOf k) :
        (name, k) ∈ b.portMap := by
      split at hk
      · cases hk
      · exact h.userOf_iff.mp hk
    exact congrArg Prod.snd (List.inj_on_of_nodup_map (h.names_nodup hnames) (huser hkey) (huser hkey') rfl)
  · intro e he
    obtain ⟨v, hv, hvmem, -⟩ := hstl (h.key_mem he)
    rw [hstls]
    exact ⟨v, hv, List.mem_cons_of_mem _ (hmem.mpr ⟨e.2, he, hvmem⟩)⟩
  · intro key hkey
    obtain ⟨v, hv, -, -⟩ := hstl (h.folded_mem hkey)
    exact ⟨v, hv, List.mem_filterMap.mpr ⟨key, hkey, by rw [hv]; rfl⟩⟩
  · have hkept : (applyBinding t b).stls.filter (·.1 != b.wallName) = ports := by
      rw [hstls, List.filter_cons_of_neg (by simp), List.filter_eq_self]
      intro e he
      refine bne_iff_ne.mpr fun heq => hnot ?_
      rw [← heq]
      exact List.mem_map_of_mem he
    have hvalues : ports.map Prod.snd =
        (t.stls.filter fun e => (b.portMap.map Prod.snd).contains e.1).map Prod.snd := by
      rw [hports, List.map_filterMap, ← List.filterMap_eq_map, List.filterMap_filter]
      refine List.filterMap_congr fun e he => ?_
      obtain ⟨k, v⟩ := e
      dsimp only
      by_cases hbound : k ∈ b.portMap.map Prod.snd
      · obtain ⟨⟨name, key⟩, hentry, rfl⟩ := List.mem_map.mp hbound
        obtain ⟨_, -, -, hne⟩ := hstl (h.key_mem hentry)
        have huser : b.userOf key = some name := h.userOf_iff.mpr hentry
        rw [if_neg hne, huser, if_pos (List.contains_iff_mem.mpr hbound)]
        rfl
      · have huser : b.userOf k = none := by
          refine Option.eq_none_iff_forall_ne_some.mpr fun name hname => hbound ?_
          exact List.mem_map.mpr ⟨_, h.userOf_iff.mp hname, rfl⟩
        rw [huser, if_neg fun hc => hbound (List.contains_iff_mem.mp hc)]
        simp
    have hfolded : (applyBinding t b).foldedStls.map Prod.snd =
        b.foldedIntoWall.filterMap fun key => t.stls.lookup key := by
      unfold applyBinding
      rw [List.map_filterMap]
      refine List.filterMap_congr fun key _ => ?_
      simp [Function.comp_def]
    rw [hkept, hvalues, hfolded]
    refine ((perm_values t.stls_nodup h.keys_nodup fun key hkey => ?_).append_right _).trans ?_
    · obtain ⟨e, he, rfl⟩ := List.mem_map.mp hkey
      exact t.opening_mem _ (h.key_mem he)
    · rw [← List.filterMap_append]
      refine (h.openings.filterMap _).trans (List.Perm.of_eq ?_)
      rw [List.filterMap_map]
      rfl

end

end MeshPipeline.Ports

/-!
## Ports are bound uniquely or refused

The binder, with what it hands on, for every declaration with distinct names.
-/

namespace MeshPipeline.Ports

variable {σ : Type}

theorem toOption_of_alike {ε α : Type} {R : α → α → Prop} {g : α → α} {x y : Except ε α}
    (hR : ∀ a b, R a b → b = g a) (h : Outcome.Alike R x y) : y.toOption = x.toOption.map g := by
  cases x with
  | ok a =>
    cases y with
    | ok b => exact congrArg some (hR a b h)
    | error e => exact h.elim
  | error e =>
    cases y with
    | ok b => exact h.elim
    | error e' => rfl

theorem renaming_id {declared : List DeclaredPatch} {t : Tessellation σ}
    (hnames : (declared.map (·.name)).Nodup) : Renaming declared t id where
  distinct := by
    rw [List.map_map]
    refine (List.map_congr_left fun p _ => ?_) ▸ hnames
    exact congrArg DeclaredPatch.name rename_id.symm
  ordered _ _ _ _ _ _ _ _ h := h
  staged _ _ _ _ _ _ _ _ := rfl
  alone := .inl rfl

/-- The binder refuses, or binds every port soundly and keeps every surface once. Neither the order
of the declaration nor names that give it no reason change what it does. -/
theorem ports_bound_or_refused (declared : List DeclaredPatch) (t : Tessellation σ)
    (hnames : (declared.map (·.name)).Nodup) :
    ((∃ e, bindPorts declared t = .error (.bindError e)) ∨
      ∃ b, bindPorts declared t = .ok b ∧ BoundSoundly declared t b ∧ KeepsSurfaces t b) ∧
    (∀ declared' : List DeclaredPatch, declared'.Perm declared →
      (bindPorts declared' t).toOption = (bindPorts declared t).toOption) ∧
    ∀ f : String → String, Renaming declared t f →
      (bindPorts (declared.map (·.rename f)) t).toOption =
        (bindPorts declared t).toOption.map (·.rename f) := by
  refine ⟨?_, fun declared' hperm => ?_, fun f hf => ?_⟩
  · have hspec := @bindPorts_spec σ declared t hnames
    cases hbind : bindPorts declared t with
    | ok b =>
      have hsound := Outcome.of_ok hspec hbind
      exact .inr ⟨b, rfl, hsound, keeps_surfaces hsound hnames⟩
    | error e =>
      have hrefusal := Outcome.of_error hspec hbind
      cases e with
      | bindError e => exact .inl ⟨e, rfl⟩
      | indexError => exact hrefusal.elim
      | assertionError => exact hrefusal.elim
  · have hid : declared.map (·.rename id) = declared :=
      (List.map_congr_left fun p _ => rename_id).trans (List.map_id _)
    have hsame {d : List DeclaredPatch} (hd : d.Perm declared) :
        (bindPorts d t).toOption = (bindPorts declared t).toOption.map (·.rename id) :=
      toOption_of_alike (fun _ _ h => h)
        (bindPorts_alike hnames (hid.symm ▸ hd) (renaming_id hnames))
    rw [hsame hperm, ← hsame (List.Perm.refl declared)]
  · exact toOption_of_alike (fun _ _ h => h) (bindPorts_alike hnames (List.Perm.refl _) hf)

/-! ## A wye -/

/-- A declared port of this bore. -/
def bore (name role : String) (d : Size) (others : List String) : DeclaredPatch :=
  ⟨name, role, some d, none, none, none, none, others, none⟩

/-- A declared port at this place. -/
def placed (name role : String) (hint : Point) : DeclaredPatch :=
  ⟨name, role, none, none, none, none, some hint, [], none⟩

def wall (name : String) : DeclaredPatch := ⟨name, "wall", none, none, none, none, none, [], none⟩

/-- A round opening of this bore. -/
def round (d : Size) (centroid : Point) : Opening := ⟨(discArea d).val, centroid, none, false⟩

/-- Two feeds of 40 mm into a collector of 60 mm, the largest opening being called the inlet. -/
def wyePart : Tessellation String where
  openings := [("inlet", round ⟨60, by norm_num⟩ ⟨1 / 4, 0, 0⟩),
    ("outlet_1", round ⟨40, by norm_num⟩ ⟨-173 / 1000, 1 / 10, 0⟩),
    ("outlet_2", round ⟨40, by norm_num⟩ ⟨-173 / 1000, -1 / 10, 0⟩)]
  bboxMin := ⟨-1 / 5, -1 / 5, -1 / 20⟩
  bboxMax := ⟨3 / 10, 1 / 5, 1 / 20⟩
  stls := [("wall", "wall.stl"), ("inlet", "inlet.stl"), ("outlet_1", "outlet_1.stl"),
    ("outlet_2", "outlet_2.stl")]
  openings_nodup := by decide +kernel
  stls_nodup := by decide +kernel
  wall_mem := by decide +kernel
  opening_mem := by decide +kernel
  opening_ne_wall := by decide +kernel

def wyeDeclared : List DeclaredPatch :=
  [wall "pipe_wall", bore "inlet_1" "inlet" ⟨40, by norm_num⟩ ["inlet_2"],
    bore "inlet_2" "inlet" ⟨40, by norm_num⟩ ["inlet_1"], bore "outlet" "outlet" ⟨60, by norm_num⟩ []]

theorem wye_bound : ∃ b, bindPorts wyeDeclared wyePart = .ok b ∧
    b.portMap = [("inlet_1", "outlet_2"), ("inlet_2", "outlet_1"), ("outlet", "inlet")] ∧
    BoundSoundly wyeDeclared wyePart b ∧ KeepsSurfaces wyePart b := by
  have hmap : (bindPorts wyeDeclared wyePart).toOption.map (·.portMap) =
      some [("inlet_1", "outlet_2"), ("inlet_2", "outlet_1"), ("outlet", "inlet")] := by
    decide +kernel
  obtain ⟨e, he⟩ | ⟨b, hb, hsound, hkept⟩ :=
    (ports_bound_or_refused wyeDeclared wyePart (by decide +kernel)).1
  · rw [he] at hmap
    cases hmap
  · rw [hb] at hmap
    exact ⟨b, hb, Option.some.inj hmap, hsound, hkept⟩

/-! ## Two mouths on one axis -/

/-- Every located port has an opening that is nearer to its place than every other opening. -/
def NearestOfAll (declared : List DeclaredPatch) (t : Tessellation σ) (b : Binding) : Prop :=
  ∀ p ∈ declared, p.isPort → ∀ hint, p.nearMm = some hint →
    ∃ key o, (p.name, key) ∈ b.portMap ∧ (key, o) ∈ t.openings ∧
      ∀ e ∈ t.openings, e.1 ≠ key →
        hint.metres.dist o.centroid < hint.metres.dist e.2.centroid

/-- Two mouths 10 mm apart, which the staging matched to ports of their names or did not. -/
def mouthsPart (declared : Bool) : Tessellation String where
  openings := [("feed", ⟨1 / 1000, ⟨0, 0, 0⟩, none, declared⟩),
    ("return", ⟨1 / 1000, ⟨1 / 100, 0, 0⟩, none, declared⟩)]
  bboxMin := ⟨0, 0, 0⟩
  bboxMax := ⟨1, 0, 0⟩
  stls := [("wall", "wall.stl"), ("feed", "feed.stl"), ("return", "return.stl")]
  openings_nodup := by decide +kernel +revert
  stls_nodup := by decide +kernel
  wall_mem := by decide +kernel
  opening_mem := by decide +kernel +revert
  opening_ne_wall := by decide +kernel +revert

/-- Both ports are said to be at the first mouth. -/
def sameHints (inlet outlet : String) : List DeclaredPatch :=
  [wall "shell", placed inlet "inlet" ⟨0, 0, 0⟩, placed outlet "outlet" ⟨0, 0, 0⟩]

theorem not_nearestOfAll {inlet outlet : String} {staged : Bool} {b : Binding}
    (hne : inlet ≠ outlet) (hmap : b.portMap = [(inlet, "feed"), (outlet, "return")]) :
    ¬ NearestOfAll (sameHints inlet outlet) (mouthsPart staged) b := by
  intro h
  obtain ⟨key, o, hkey, ho, hnear⟩ := h (placed outlet "outlet" ⟨0, 0, 0⟩) (by simp [sameHints]) rfl
    ⟨0, 0, 0⟩ rfl
  obtain rfl : key = "return" := by
    rw [hmap] at hkey
    simpa [placed, hne.symm] using hkey
  obtain rfl : o = ⟨1 / 1000, ⟨1 / 100, 0, 0⟩, none, staged⟩ := by
    simpa [mouthsPart] using ho
  have hlt := hnear ("feed", ⟨1 / 1000, ⟨0, 0, 0⟩, none, staged⟩) List.mem_cons_self (by simp)
  have hless : (⟨0, 0, 0⟩ : Point).metres.distSq ⟨0, 0, 0⟩ ≤
      (⟨0, 0, 0⟩ : Point).metres.distSq ⟨1 / 100, 0, 0⟩ := by decide +kernel
  exact absurd hlt (not_lt.mpr (Point.dist_le_iff.mpr hless))

/-- The port whose turn comes later gets what is left, whatever is nearest to its place; another name
gives it the other turn. What the staging matched is bound by its name. -/
theorem later_hint_gets_what_is_left :
    (∃ b, bindPorts (sameHints "a" "b") (mouthsPart false) = .ok b ∧
      ¬ NearestOfAll (sameHints "a" "b") (mouthsPart false) b) ∧
    (bindPorts ((sameHints "a" "b").map (·.rename fun n => if n = "a" then "z" else n))
        (mouthsPart false)).toOption ≠
      (bindPorts (sameHints "a" "b") (mouthsPart false)).toOption.map
        (·.rename fun n => if n = "a" then "z" else n) ∧
    ∃ b, bindPorts (sameHints "feed" "return") (mouthsPart true) = .ok b ∧
      ¬ NearestOfAll (sameHints "feed" "return") (mouthsPart true) b := by
  have hbound {inlet outlet : String} {staged : Bool} (hne : inlet ≠ outlet)
      (h : (bindPorts (sameHints inlet outlet) (mouthsPart staged)).toOption.map (·.portMap) =
        some [(inlet, "feed"), (outlet, "return")]) :
      ∃ b, bindPorts (sameHints inlet outlet) (mouthsPart staged) = .ok b ∧
        ¬ NearestOfAll (sameHints inlet outlet) (mouthsPart staged) b := by
    cases hbind : bindPorts (sameHints inlet outlet) (mouthsPart staged) with
    | error e =>
      rw [hbind] at h
      cases h
    | ok b =>
      rw [hbind] at h
      exact ⟨b, rfl, not_nearestOfAll hne (Option.some.inj h)⟩
  exact ⟨hbound (by decide) (by decide +kernel), by decide +kernel,
    hbound (by decide) (by decide +kernel)⟩

end MeshPipeline.Ports
