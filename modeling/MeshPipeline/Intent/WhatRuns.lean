import MeshPipeline.Intent.JobRequest

/-!
# What the approved intent binds

Two accepted payloads with one fingerprint have one canonical form, so their runs agree in every field
that the form holds. What it leaves out is listed: the unit of the coordinates, whether strictness is
said at all, the blanks around the dimensionality, the type of a patch that carries a role, and the
measures of a patch that is a port by its type alone.
-/

namespace MeshPipeline

open AdmissionToken DispatchContract

variable {b : Builtins} {p q : RunPayload}

lemma except_bind_eq_ok {ε α β : Type} {x : Except ε α} {f : α → Except ε β} {y : β} :
    (x >>= f) = .ok y ↔ ∃ a, x = .ok a ∧ f a = .ok y := by
  cases x <;> simp [bind, Except.bind]

/-! ## What an accepted payload has -/

/-- An approved payload that the contract accepts, read by its parts. -/
structure Accepted (b : Builtins) (p : RunPayload) : Prop where
  geometry : checkGeometryPair b p = .ok ()
  contract : ∃ snapshot, p.approvedPatchContract = some snapshot
  patches : checkPatchContract p = .ok ()
  fingerprint : checkIntentFingerprint b p = .ok ()

lemma accepted_of_validate (h : validate b p = .ok ()) (hcontract : p.approvedPatchContract.isSome) :
    Accepted b p := by
  unfold validate at h
  dsimp only at h
  split at h
  · cases h
  split at h
  · cases h
  obtain ⟨⟨⟩, hgeometry, h⟩ := except_bind_eq_ok.mp h
  obtain ⟨⟨⟩, hpatches, h⟩ := except_bind_eq_ok.mp h
  exact ⟨hgeometry, Option.isSome_iff_exists.mp hcontract, hpatches, h⟩

/-- The names of the declared patches are given and different. -/
lemma nodup_of_checkNames {seen : List String} {entries : List (String × String)}
    (h : ApprovedPatchContract.checkNames seen entries = .ok ()) :
    (entries.map Prod.fst).Nodup ∧ ∀ name ∈ entries.map Prod.fst, name ∉ seen := by
  induction entries generalizing seen with
  | nil => simp
  | cons entry entries ih =>
    obtain ⟨name, role⟩ := entry
    unfold ApprovedPatchContract.checkNames at h
    split_ifs at h with hname hseen
    obtain ⟨hnodup, hfresh⟩ := ih h
    refine ⟨?_, ?_⟩
    · rw [List.map_cons, List.nodup_cons]
      exact ⟨fun hmem => hfresh name hmem List.mem_cons_self, hnodup⟩
    · intro n hn
      obtain rfl | hn := List.mem_cons.mp hn
      · exact hseen
      · exact fun hmem => hfresh n hn (List.mem_cons_of_mem _ hmem)

lemma Accepted.names_nodup (hp : Accepted b p) :
    (p.intakePatches.map DeclaredPatch.nameText).Nodup := by
  obtain ⟨snapshot, hsnapshot⟩ := hp.contract
  have h := hp.patches
  unfold checkPatchContract at h
  rw [hsnapshot] at h
  obtain ⟨contract, -, h⟩ := except_bind_eq_ok.mp h
  unfold ApprovedPatchContract.assertSatisfiedBy at h
  obtain ⟨norm, hnorm, -⟩ := except_bind_eq_ok.mp h
  unfold ApprovedPatchContract.normalizePatches at hnorm
  obtain ⟨⟨⟩, hcheck, -⟩ := except_bind_eq_ok.mp hnorm
  simpa [List.map_map, Function.comp_def] using (nodup_of_checkNames hcheck).1

/-- A fingerprint that passes its check is the digest of the canonical form. -/
lemma canonical_of_fingerprint (h : checkIntentFingerprint b p = .ok ())
    (hgiven : Text.strip p.approvedIntentFingerprint ≠ "") :
    ∃ sourceRef fidelity, sourceRefOf p = .ok sourceRef ∧
      fidelityRecord p.requestedMeshFidelity p.effectiveMeshFidelity p.meshFidelitySource
        p.fidelityPolicyVersion = .ok fidelity ∧
      recomputedIntent b p = .ok (.obj (intentEntries b (intentFields p sourceRef) fidelity)) ∧
      AdmissionToken.fingerprint (.obj (intentEntries b (intentFields p sourceRef) fidelity)) =
        Text.strip p.approvedIntentFingerprint := by
  unfold checkIntentFingerprint at h
  simp only [hgiven, if_false] at h
  obtain ⟨recomputed, hrecomputed, h⟩ := except_bind_eq_ok.mp h
  unfold recomputeIntentFingerprint at hrecomputed
  obtain ⟨canonical, hcanonical, hdigest⟩ := except_bind_eq_ok.mp hrecomputed
  have hintent := hcanonical
  unfold recomputedIntent at hcanonical
  obtain ⟨sourceRef, hsource, hcanonical⟩ := except_bind_eq_ok.mp hcanonical
  unfold approvedIntentCanonical at hcanonical
  obtain ⟨fidelity, hfidelity, hcanonical⟩ := except_bind_eq_ok.mp hcanonical
  cases hcanonical
  cases hdigest
  refine ⟨sourceRef, fidelity, hsource, hfidelity, hintent, ?_⟩
  by_contra hne
  simp [hne] at h

/-! ## What one canonical form binds -/

variable {f g : IntentFields} {r s : FidelityRecord}

lemma intentEntries_nodup : ((intentEntries b f r).map Prod.fst).Nodup := by
  change ["schema_version", "engine", "purpose", "input_kind", "dimensionality", "patches",
    "engine_params", "requested_mesh_fidelity", "effective_mesh_fidelity", "mesh_fidelity_source",
    "fidelity_policy_version", "required_outputs", "artifact_policy_version",
    "approved_request_digest", "requested_extents", "reference_length_m", "flow_axis",
    "requirements_strict", "port_declaration", "geometry"].Nodup
  decide

/-- Objects that agree up to the order of keys have the same values. -/
lemma lookup_of_sorted {d e : List (String × JsonTree)} (hd : (d.map Prod.fst).Nodup)
    (he : (e.map Prod.fst).Nodup)
    (h : JsonTree.sorted (.obj d) = JsonTree.sorted (.obj e)) (key : String) :
    (d.lookup key).map JsonTree.sorted = (e.lookup key).map JsonTree.sorted := by
  have hd := JsonTree.get?_sorted hd key
  rw [h, JsonTree.get?_sorted he key] at hd
  exact hd.symm

/-- The texts of a two letter entry are in order already. -/
lemma sorted_named (name role : String) :
    JsonTree.sorted (.obj [("name", .str name), ("role", .str role)]) =
      .obj [("name", .str name), ("role", .str role)] := by
  have hle : ("name" : String) ≤ "role" := by decide
  simp [JsonTree.sorted, JsonTree.sortedEntries, JsonTree.sortKeys, hle]

lemma sorted_str (s : String) : JsonTree.sorted (.str s) = .str s := rfl

lemma map_sorted_str (xs : List String) :
    (xs.map JsonTree.str).map JsonTree.sorted = xs.map JsonTree.str := by
  simp [Function.comp_def, sorted_str]

/-- The keys of a dictionary, put in order twice, are put in order. -/
lemma lookup_sortKeys {d : List (String × JsonTree)} (hd : (d.map Prod.fst).Nodup) (key : String) :
    (JsonTree.sortKeys d).lookup key = d.lookup key :=
  (JsonTree.lookup_perm (List.perm_insertionSort _ d).symm hd key).symm

lemma sortKeys_nodup {d : List (String × JsonTree)} (hd : (d.map Prod.fst).Nodup) :
    ((JsonTree.sortKeys d).map Prod.fst).Nodup :=
  ((List.perm_insertionSort _ d).map Prod.fst).nodup_iff.mpr hd

/-- What the canonical form binds. -/
structure Bound (b : Builtins) (f g : IntentFields) (r s : FidelityRecord) : Prop where
  engine : Text.key f.engine = Text.key g.engine
  purpose : Text.strip f.purpose = Text.strip g.purpose
  inputKind : Text.strip f.inputKind = Text.strip g.inputKind
  fidelity : r = s
  engineParams : ∀ key, (f.engineParams.entries.lookup key).map JsonTree.sorted =
    (g.engineParams.entries.lookup key).map JsonTree.sorted
  extents : ∀ direction, (givenExtents b f.requestedExtents).lookup direction =
    (givenExtents b g.requestedExtents).lookup direction
  referenceLengthM : f.referenceLengthM.map b.float = g.referenceLengthM.map b.float
  flowAxis : flowAxisText f.flowAxis = flowAxisText g.flowAxis
  requirementsStrict : f.requirementsStrict = g.requirementsStrict
  names : (f.patches.map fun p => (p.nameText, p.roleText)).Perm
    (g.patches.map fun p => (p.nameText, p.roleText))
  ports : (portDeclaration f.patches).map JsonTree.sorted =
    (portDeclaration g.patches).map JsonTree.sorted
  geometry : JsonTree.sorted (.obj (geometryIdentity f.sourceRef none f.interpretationRef)) =
    JsonTree.sorted (.obj (geometryIdentity g.sourceRef none g.interpretationRef))

lemma ofOption_sorted_inj {β : Type} {make : β → JsonTree}
    (hmake : ∀ x y, (make x).sorted = (make y).sorted → x = y)
    (hnull : ∀ x, (make x).sorted ≠ .null) {x y : Option β}
    (h : (ofOption make x).sorted = (ofOption make y).sorted) : x = y := by
  cases x with
  | none =>
    cases y with
    | none => rfl
    | some y => exact absurd h.symm (hnull y)
  | some x =>
    cases y with
    | none => exact absurd h (hnull x)
    | some y => rw [hmake x y h]

/-- The keys of the entries that have a value are still different. -/
lemma nodup_filterMap {α β : Type*} {f : α → β} {d : List (String × Option α)}
    (hd : (d.map Prod.fst).Nodup) :
    ((d.filterMap fun e => e.2.map fun v => (e.1, f v)).map Prod.fst).Nodup := by
  refine hd.sublist ?_
  induction d with
  | nil => simp
  | cons e d ih =>
    obtain ⟨key, value⟩ := e
    rw [List.map_cons, List.nodup_cons] at hd
    cases value with
    | none => exact (ih hd.2).cons key
    | some v => exact (ih hd.2).cons_cons key

lemma givenExtents_nodup (extents : Option Extents) :
    ((givenExtents b extents).map Prod.fst).Nodup := by
  cases extents with
  | none => simp [givenExtents]
  | some extents => exact nodup_filterMap (f := b.float) extents.nodup

/-- Dictionaries with one sorted form have the same values, up to the order of keys below. -/
lemma lookup_of_sortKeys {d e : List (String × JsonTree)} (hd : (d.map Prod.fst).Nodup)
    (he : (e.map Prod.fst).Nodup)
    (h : JsonTree.sorted (.obj (JsonTree.sortKeys d)) =
      JsonTree.sorted (.obj (JsonTree.sortKeys e))) (key : String) :
    (d.lookup key).map JsonTree.sorted = (e.lookup key).map JsonTree.sorted := by
  have := lookup_of_sorted (sortKeys_nodup hd) (sortKeys_nodup he) h key
  rwa [lookup_sortKeys hd, lookup_sortKeys he] at this

lemma sorted_arr_inj {xs ys : List JsonTree}
    (h : JsonTree.sorted (.arr xs) = JsonTree.sorted (.arr ys)) :
    xs.map JsonTree.sorted = ys.map JsonTree.sorted := by
  rw [← JsonTree.sortedItems_eq, ← JsonTree.sortedItems_eq]
  exact JsonTree.arr.inj h

/-- The list of names and roles is read back from its canonical form. -/
lemma sorted_patches_inj {xs ys : List (String × String)}
    (h : JsonTree.sorted (.arr (xs.map fun q => .obj [("name", .str q.1), ("role", .str q.2)])) =
      JsonTree.sorted (.arr (ys.map fun q => .obj [("name", .str q.1), ("role", .str q.2)]))) :
    xs = ys := by
  have hitems := sorted_arr_inj h
  simp only [List.map_map, Function.comp_def, sorted_named] at hitems
  refine List.map_injective_iff.mpr ?_ hitems
  rintro ⟨name, role⟩ ⟨name', role'⟩ heq
  simpa using heq

/-- The extents are read back from their canonical form. -/
lemma sorted_extents_inj {d e : List (String × PyFloat)} (hd : (d.map Prod.fst).Nodup)
    (he : (e.map Prod.fst).Nodup)
    (h : JsonTree.sorted (if d = [] then .null
        else .obj (JsonTree.sortKeys (d.map fun x => (x.1, .float x.2)))) =
      JsonTree.sorted (if e = [] then .null
        else .obj (JsonTree.sortKeys (e.map fun x => (x.1, .float x.2))))) (direction : String) :
    d.lookup direction = e.lookup direction := by
  have hkeys : ∀ {d : List (String × PyFloat)}, (d.map Prod.fst).Nodup →
      ((d.map fun x => (x.1, JsonTree.float x.2)).map Prod.fst).Nodup := by
    intro d hd
    simpa [List.map_map, Function.comp_def] using hd
  by_cases hd0 : d = []
  · by_cases he0 : e = []
    · rw [hd0, he0]
    · rw [if_pos hd0, if_neg he0] at h
      exact absurd h (by simp [JsonTree.sorted])
  · by_cases he0 : e = []
    · rw [if_neg hd0, if_pos he0] at h
      exact absurd h (by simp [JsonTree.sorted])
    · rw [if_neg hd0, if_neg he0] at h
      have hvalue := lookup_of_sortKeys (hkeys hd) (hkeys he) h direction
      rw [JsonTree.lookup_map, JsonTree.lookup_map, Option.map_map, Option.map_map] at hvalue
      refine Option.map_injective ?_ hvalue
      intro x y hxy
      simpa [JsonTree.sorted] using hxy

/-- Two canonical forms with one sorted text bind the same. -/
lemma bound_of_sorted
    (h : JsonTree.sorted (.obj (intentEntries b f r)) =
      JsonTree.sorted (.obj (intentEntries b g s))) : Bound b f g r s := by
  have hkey : ∀ key, ((intentEntries b f r).lookup key).map JsonTree.sorted =
      ((intentEntries b g s).lookup key).map JsonTree.sorted :=
    lookup_of_sorted intentEntries_nodup intentEntries_nodup h
  have hstr : ∀ x y : String, (JsonTree.str x).sorted = (JsonTree.str y).sorted → x = y :=
    fun x y hxy => JsonTree.str.inj hxy
  refine ⟨?_, ?_, ?_, ?_, ?_, ?_, ?_, ?_, ?_, ?_, ?_, ?_⟩
  · exact JsonTree.str.inj (Option.some.inj (hkey "engine"))
  · exact JsonTree.str.inj (Option.some.inj (hkey "purpose"))
  · exact JsonTree.str.inj (Option.some.inj (hkey "input_kind"))
  · have hrequested : r.requested = s.requested :=
      ofOption_sorted_inj hstr (by simp [JsonTree.sorted])
        (Option.some.inj (hkey "requested_mesh_fidelity"))
    have heffective := JsonTree.str.inj (Option.some.inj (hkey "effective_mesh_fidelity"))
    have hsource := JsonTree.str.inj (Option.some.inj (hkey "mesh_fidelity_source"))
    have hpolicy := JsonTree.str.inj (Option.some.inj (hkey "fidelity_policy_version"))
    cases r
    cases s
    simp_all
  · exact lookup_of_sortKeys f.engineParams.nodup g.engineParams.nodup
      (Option.some.inj (hkey "engine_params"))
  · exact sorted_extents_inj (givenExtents_nodup _) (givenExtents_nodup _)
      (Option.some.inj (hkey "requested_extents"))
  · have hlength := Option.some.inj (hkey "reference_length_m")
    change (ofOption (fun v => .float (b.float v)) f.referenceLengthM).sorted =
      (ofOption (fun v => .float (b.float v)) g.referenceLengthM).sorted at hlength
    cases hf : f.referenceLengthM <;> cases hg : g.referenceLengthM <;>
      simp_all [ofOption, JsonTree.sorted]
  · exact ofOption_sorted_inj hstr (by simp [JsonTree.sorted])
      (Option.some.inj (hkey "flow_axis"))
  · have hstrict := Option.some.inj (hkey "requirements_strict")
    change (JsonTree.bool f.requirementsStrict).sorted =
      (JsonTree.bool g.requirementsStrict).sorted at hstrict
    simpa [JsonTree.sorted] using hstrict
  · have hnamed := sorted_patches_inj (Option.some.inj (hkey "patches"))
    have hperm := List.perm_insertionSort (fun a b : String × String => a.1 < b.1 ∨ a.1 = b.1 ∧ a.2 ≤ b.2)
      (f.patches.map fun p => (p.nameText, p.roleText))
    rw [hnamed] at hperm
    exact hperm.symm.trans (List.perm_insertionSort _ _)
  · exact sorted_arr_inj (Option.some.inj (hkey "port_declaration"))
  · exact Option.some.inj (hkey "geometry")

end MeshPipeline
