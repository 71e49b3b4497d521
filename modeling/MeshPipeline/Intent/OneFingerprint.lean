import MeshPipeline.Intent.WhatRuns

/-!
# Runs under one fingerprint

Two accepted payloads with one approved fingerprint give runs that get the same exactly when the
payloads also agree in what the fingerprint does not digest, or digests in another form than a run
reads.
-/

namespace MeshPipeline

open AdmissionToken DispatchContract

variable {b : Builtins} {p q : RunPayload} {f g : IntentFields} {r s : FidelityRecord}

/-! ## The patches -/

/-- Two patches that the patch list and the port declaration both treat alike, and that a mesher could
still read differently: where a role is given the type stands beside it unread, and the measures of a
port are digested only when the word before the type is one. -/
structure DeclaredPatch.AgreeBeyond (a c : DeclaredPatch) : Prop where
  type : orText a.role "" ≠ "" ∨ orText c.role "" ≠ "" → a.typeText = c.typeText
  measures : a.typeText ∈ portWords → a.roleText ∉ portWords → a.measures = c.measures

lemma DeclaredPatch.roleText_of_no_role {a : DeclaredPatch} (h : orText a.role "" = "") :
    a.roleText = a.typeText := by
  unfold orText at h
  unfold DeclaredPatch.roleText DeclaredPatch.typeText
  cases hrole : a.role with
  | none => rfl
  | some role =>
    obtain rfl : role = "" := by simpa [hrole] using h
    rfl

/-- Lists that name the same things, each once, are the same up to their order when what has one name
is the same. -/
lemma map_perm_of_names {α β γ : Type*} {name : α → β} {read : α → γ} {xs ys : List α}
    (hperm : (xs.map name).Perm (ys.map name)) (hxs : (xs.map read).Nodup)
    (h : ∀ x ∈ xs, ∀ y ∈ ys, name x = name y → read x = read y) :
    (xs.map read).Perm (ys.map read) := by
  have hsub : xs.map read ⊆ ys.map read := by
    intro z hz
    obtain ⟨x, hx, rfl⟩ := List.mem_map.mp hz
    obtain ⟨y, hy, hname⟩ := List.mem_map.mp (hperm.subset (List.mem_map_of_mem hx))
    rw [h x hx y hy hname.symm]
    exact List.mem_map_of_mem hy
  refine (List.subperm_of_subset hxs hsub).perm_of_length_le ?_
  have hlength := hperm.length_eq
  simp only [List.length_map] at hlength ⊢
  omega

/-- What is declared under one name has one role. -/
lemma Bound.roleText_eq (hbound : Bound b f g r s)
    (hnames : (g.patches.map DeclaredPatch.nameText).Nodup) {a c : DeclaredPatch}
    (ha : a ∈ f.patches) (hc : c ∈ g.patches) (hname : a.nameText = c.nameText) :
    a.roleText = c.roleText := by
  have hmem := hbound.names.subset (List.mem_map_of_mem ha)
  obtain ⟨d, hd, heq⟩ := List.mem_map.mp hmem
  obtain ⟨hdname, hdrole⟩ := Prod.mk.inj heq
  obtain rfl : d = c := List.inj_on_of_nodup_map hnames hd hc (hdname.trans hname)
  exact hdrole.symm

lemma portEntry_nodup (a : DeclaredPatch) :
    (([("name", .str a.nameText), ("role", .str a.roleText), ("diameter_mm", a.diameterMm),
      ("area_mm2", a.areaMm2), ("inner_diameter_mm", a.innerDiameterMm),
      ("outer_diameter_mm", a.outerDiameterMm), ("width_mm", a.widthMm),
      ("height_mm", a.heightMm), ("near_mm", ofOption .arr a.nearMm),
      ("interchangeable_with", .arr (a.interchangeable.map .str))] :
        List (String × JsonTree)).map Prod.fst).Nodup := by
  change ["name", "role", "diameter_mm", "area_mm2", "inner_diameter_mm", "outer_diameter_mm",
    "width_mm", "height_mm", "near_mm", "interchangeable_with"].Nodup
  decide

lemma ofOption_arr_sorted_inj {x y : Option (List JsonTree)}
    (h : (ofOption JsonTree.arr x).sorted = (ofOption JsonTree.arr y).sorted) :
    (x.map fun items => items.map JsonTree.sorted) = y.map fun items => items.map JsonTree.sorted := by
  cases x with
  | none =>
    cases y with
    | none => rfl
    | some y => exact absurd h (by simp [ofOption, JsonTree.sorted])
  | some x =>
    cases y with
    | none => exact absurd h (by simp [ofOption, JsonTree.sorted])
    | some y => rw [Option.map_some, Option.map_some, sorted_arr_inj h]

/-- An entry of the port declaration binds the name and the measures. -/
lemma portEntry_inj {a c : DeclaredPatch} (h : (portEntry a).sorted = (portEntry c).sorted) :
    a.nameText = c.nameText ∧ a.measures = c.measures := by
  have hkey := lookup_of_sorted (portEntry_nodup a) (portEntry_nodup c) h
  have hdiameter := Option.some.inj (hkey "diameter_mm")
  have harea := Option.some.inj (hkey "area_mm2")
  have hinner := Option.some.inj (hkey "inner_diameter_mm")
  have houter := Option.some.inj (hkey "outer_diameter_mm")
  have hwidth := Option.some.inj (hkey "width_mm")
  have hheight := Option.some.inj (hkey "height_mm")
  have hnear := ofOption_arr_sorted_inj (Option.some.inj (hkey "near_mm"))
  have hother := sorted_arr_inj (Option.some.inj (hkey "interchangeable_with"))
  rw [map_sorted_str, map_sorted_str] at hother
  have hother := List.map_injective_iff.mpr (fun _ _ heq => JsonTree.str.inj heq) hother
  refine ⟨JsonTree.str.inj (Option.some.inj (hkey "name")), ?_⟩
  simp only [DeclaredPatch.measures, List.map_cons, List.map_nil, hnear, hother]
  simp only [hdiameter, harea, hinner, houter, hwidth, hheight]

/-- What is declared under one name as a port, by the word that the fingerprint goes by, has the same
measures. -/
lemma Bound.measures_eq (hbound : Bound b f g r s)
    (hnames : (g.patches.map DeclaredPatch.nameText).Nodup) {a c : DeclaredPatch}
    (ha : a ∈ f.patches) (hc : c ∈ g.patches) (hname : a.nameText = c.nameText)
    (hport : a.roleText ∈ portWords) : a.measures = c.measures := by
  have hmem : ∀ {patches : List DeclaredPatch} {entry : JsonTree}, entry ∈ portDeclaration patches ↔
      ∃ d ∈ patches, d.roleText ∈ portWords ∧ portEntry d = entry := by
    intro patches entry
    simp [portDeclaration, and_assoc]
  have hentry : (portEntry a).sorted ∈ (portDeclaration f.patches).map JsonTree.sorted :=
    List.mem_map_of_mem (hmem.mpr ⟨a, ha, hport, rfl⟩)
  rw [hbound.ports] at hentry
  obtain ⟨entry, hentry, hsorted⟩ := List.mem_map.mp hentry
  obtain ⟨d, hd, -, rfl⟩ := hmem.mp hentry
  obtain ⟨hdname, hmeasures⟩ := portEntry_inj hsorted
  obtain rfl : d = c := List.inj_on_of_nodup_map hnames hd hc (hdname.trans hname)
  exact hmeasures.symm

/-- A mesher reads the same patches exactly when same-named ones agree beyond what is digested. -/
lemma Bound.patches_iff (hbound : Bound b f g r s)
    (hf : (f.patches.map DeclaredPatch.nameText).Nodup)
    (hg : (g.patches.map DeclaredPatch.nameText).Nodup) :
    (f.patches.map DeclaredPatch.read).Perm (g.patches.map DeclaredPatch.read) ↔
      ∀ a ∈ f.patches, ∀ c ∈ g.patches, a.nameText = c.nameText → a.AgreeBeyond c := by
  constructor
  · intro hperm a ha c hc hname
    obtain ⟨d, hd, hread⟩ := List.mem_map.mp (hperm.subset (List.mem_map_of_mem ha))
    obtain rfl : d = c := List.inj_on_of_nodup_map hg hd hc
      ((congrArg MesherPatch.name hread).trans hname)
    have htype : d.typeText = a.typeText := congrArg MesherPatch.type hread
    refine ⟨fun _ => htype.symm, fun hport _ => ?_⟩
    have hmeasures := congrArg MesherPatch.port hread
    simp only [DeclaredPatch.read, htype, if_pos hport] at hmeasures
    exact (Option.some.inj hmeasures).symm
  · intro h
    have hnames : (f.patches.map DeclaredPatch.nameText).Perm
        (g.patches.map DeclaredPatch.nameText) := by
      have := hbound.names.map Prod.fst
      simpa [List.map_map, Function.comp_def] using this
    have hreads : (f.patches.map DeclaredPatch.read).Nodup := by
      refine List.Nodup.of_map MesherPatch.name ?_
      simpa [List.map_map, Function.comp_def, DeclaredPatch.read] using hf
    refine map_perm_of_names hnames hreads ?_
    intro a ha c hc hname
    obtain ⟨htype, hmeasures⟩ := h a ha c hc hname
    have hrole := hbound.roleText_eq hg ha hc hname
    have htype : a.typeText = c.typeText := by
      by_cases hgiven : orText a.role "" ≠ "" ∨ orText c.role "" ≠ ""
      · exact htype hgiven
      · simp only [not_or, not_not] at hgiven
        rw [← DeclaredPatch.roleText_of_no_role hgiven.1, hrole,
          DeclaredPatch.roleText_of_no_role hgiven.2]
    have hport : a.typeText ∈ portWords → a.measures = c.measures := by
      intro hport
      by_cases hword : a.roleText ∈ portWords
      · exact hbound.measures_eq hg ha hc hname hword
      · exact hmeasures hport hword
    by_cases hword : a.typeText ∈ portWords
    · simp [DeclaredPatch.read, hname, ← htype, hword, hport hword]
    · simp [DeclaredPatch.read, hname, ← htype, hword]

/-! ## The geometry -/

lemma sha256_ne_empty (ref : GeometrySourceRef) : ref.sha256 ≠ "" := by
  intro h
  have hhex := ref.hex
  rw [h] at hhex
  revert hhex
  decide

lemma geometryIdentity_eq (ref : Option GeometrySourceRef) : geometryIdentity ref none none =
    [("identity_schema_version", .int 1),
      ("source_id", .str ((ref.map (·.sourceId)).getD "")),
      ("sha256", .str ((ref.map (·.sha256)).getD "")),
      ("size_bytes", .int ((ref.map (·.sizeBytes)).getD 0)),
      ("suffix_hint", .str ((ref.map (·.suffixHint)).getD "")), ("revision_id", .str "")] := by
  cases ref <;> rfl

lemma geometryIdentity_nodup (ref : Option GeometrySourceRef) :
    ((geometryIdentity ref none none).map Prod.fst).Nodup := by
  rw [geometryIdentity_eq]
  change ["identity_schema_version", "source_id", "sha256", "size_bytes", "suffix_hint",
    "revision_id"].Nodup
  decide

/-- The geometry of a canonical form is that of one source, or of none. -/
lemma bytes_eq_of_sorted {x y : Option GeometrySourceRef}
    (h : JsonTree.sorted (.obj (geometryIdentity x none none)) =
      JsonTree.sorted (.obj (geometryIdentity y none none))) :
    (x.map fun ref => (ref.sourceId, ref.sha256, ref.sizeBytes)) =
      y.map fun ref => (ref.sourceId, ref.sha256, ref.sizeBytes) := by
  have hkey := lookup_of_sorted (geometryIdentity_nodup x) (geometryIdentity_nodup y) h
  simp only [geometryIdentity_eq] at hkey
  have hsha : (x.map (·.sha256)).getD "" = (y.map (·.sha256)).getD "" :=
    JsonTree.str.inj (Option.some.inj (hkey "sha256"))
  have hsource : (x.map (·.sourceId)).getD "" = (y.map (·.sourceId)).getD "" :=
    JsonTree.str.inj (Option.some.inj (hkey "source_id"))
  have hsize := Option.some.inj (hkey "size_bytes")
  change (JsonTree.int _).sorted = (JsonTree.int _).sorted at hsize
  cases x with
  | none =>
    cases y with
    | none => rfl
    | some y => exact absurd hsha.symm (sha256_ne_empty y)
  | some x =>
    cases y with
    | none => exact absurd hsha (sha256_ne_empty x)
    | some y => simp_all [JsonTree.sorted]

lemma unit_of_ofValue? {text : String} {unit : LengthUnit}
    (h : LengthUnit.ofValue? text = some unit) : unit.value = text := by
  simpa using List.find?_some h

/-- An interpretation that is read has the unit that its snapshot names, and the scale of that unit. -/
lemma unit_of_fromPayload {d : InterpretationSnapshot} {ref : GeometryInterpretationRef}
    (h : GeometryInterpretationRef.fromPayload b d = .ok ref) : d.unit = some ref.unit.value := by
  unfold GeometryInterpretationRef.fromPayload at h
  split at h
  · rename_i unit scale basis _ _ hunit _ _
    split at h
    · split at h
      · cases h
      · rename_i hvalue
        split_ifs at h
        cases h
        rw [hunit, unit_of_ofValue? hvalue]
    · cases h
  · cases h

lemma LengthUnit.value_inj {u v : LengthUnit} (h : u.value = v.value) : u = v := by
  cases u <;> cases v <;> simp [LengthUnit.value] at h <;> rfl

/-- Two interpretations have one unit and one scale exactly when they name one unit. -/
lemma meaning_iff {x y : GeometryInterpretationRef} :
    (x.unit, x.scaleToMetres) = (y.unit, y.scaleToMetres) ↔ x.unit.value = y.unit.value := by
  rw [x.scale, y.scale]
  constructor
  · intro h
    rw [(Prod.mk.inj h).1]
  · intro h
    rw [LengthUnit.value_inj h]

/-- A payload that passes the geometry check has both its references or neither. -/
lemma references_of_geometry (h : checkGeometryPair b p = .ok ()) :
    (sourceRefOf p = .ok none ∧ JobRequest.interpretationOf b p = .ok none ∧
        p.geometryInterpretation = none) ∨
      ∃ source interpretation, sourceRefOf p = .ok (some source) ∧
        JobRequest.interpretationOf b p = .ok (some interpretation) ∧
        p.geometryInterpretation.map (·.unit) = some (some interpretation.unit.value) := by
  unfold checkGeometryPair at h
  unfold sourceRefOf JobRequest.interpretationOf
  cases hsource : p.geometrySource with
  | none =>
    cases hinterpretation : p.geometryInterpretation with
    | none => exact .inl ⟨rfl, rfl, rfl⟩
    | some interpretation => simp [hsource, hinterpretation] at h
  | some source =>
    cases hinterpretation : p.geometryInterpretation with
    | none => simp [hsource, hinterpretation] at h
    | some interpretation =>
      simp only [hsource, hinterpretation] at h
      obtain ⟨sourceRef, hsourceRef, h⟩ := except_bind_eq_ok.mp h
      obtain ⟨interpretationRef, hinterpretationRef, -⟩ := except_bind_eq_ok.mp h
      refine .inr ⟨sourceRef, interpretationRef, ?_, ?_, ?_⟩
      · simp [hsourceRef, Except.map]
      · simp [hinterpretationRef, Except.map]
      · rw [Option.map_some, unit_of_fromPayload hinterpretationRef]

/-! ## The preference -/

lemma fidelityRecord_ok {requested policy : Option String} {effective source : String}
    (h : fidelityRecord requested (some effective) (some source) policy = .ok r) :
    r.Consistent ∧ r.effective = Text.key effective ∧ r.source = Text.key source := by
  unfold fidelityRecord at h
  obtain ⟨requested, -, h⟩ := except_bind_eq_ok.mp h
  obtain ⟨record, hrecord, h⟩ := except_bind_eq_ok.mp h
  cases hrecord
  dsimp only at h
  split_ifs at h with hconsistent
  cases h
  exact ⟨hconsistent, rfl, rfl⟩

/-- The preference of a run is the one that is digested. -/
lemma fidelity_of_run {requested effective source policy : Option String}
    (h : fidelityRecord requested effective source policy = .ok r) :
    (match JobRequest.given effective, JobRequest.given source with
      | some effective, some source =>
        fidelityRecord requested (some effective) (some source) policy
      | _, _ => fidelityRecord requested none none policy) = .ok r := by
  cases effective with
  | none => exact h
  | some effective =>
    cases source with
    | none =>
      change fidelityRecord requested none none policy = .ok r at h
      by_cases heffective : effective = "" <;> simpa [JobRequest.given, heffective] using h
    | some source =>
      obtain ⟨⟨hsource, heffective, -⟩, hkeyEffective, hkeySource⟩ := fidelityRecord_ok h
      have heffective : effective ≠ "" := by
        rintro rfl
        rw [hkeyEffective] at heffective
        revert heffective
        decide
      have hsource : source ≠ "" := by
        rintro rfl
        have hblank : Text.key "" = "" := by decide
        simp [hkeySource, hblank] at hsource
      simpa [JobRequest.given, heffective, hsource] using h

/-- The interpretation of a request is the one that its payload gives. -/
lemma interpretation_of_request {request : JobRequest}
    (h : JobRequest.ofPayload b p = .ok request) :
    JobRequest.interpretationOf b p = .ok request.geometryInterpretation := by
  unfold JobRequest.ofPayload at h
  obtain ⟨source, -, h⟩ := except_bind_eq_ok.mp h
  obtain ⟨interpretation, hinterpretation, h⟩ := except_bind_eq_ok.mp h
  dsimp only at h
  split at h <;>
  · obtain ⟨fidelity, -, h⟩ := except_bind_eq_ok.mp h
    rw [← Except.ok.inj h]
    exact hinterpretation

/-! ## Two accepted payloads -/

/-- What the fingerprint leaves out of two payloads, or digests in another form than a run reads. -/
structure AgreeBeyond (p q : RunPayload) : Prop where
  dimensionality : p.dimensionality = q.dimensionality
  requirementsStrict : p.requirementsStrict.isSome = q.requirementsStrict.isSome
  unit : p.geometryInterpretation.map (·.unit) = q.geometryInterpretation.map (·.unit)
  patches : ∀ a ∈ p.intakePatches, ∀ c ∈ q.intakePatches, a.nameText = c.nameText →
    a.AgreeBeyond c

/-- The request of an accepted payload, by its parts. -/
lemma Accepted.request (hp : Accepted b p) {sourceRef : Option GeometrySourceRef}
    (hsource : sourceRefOf p = .ok sourceRef)
    (hfidelity : fidelityRecord p.requestedMeshFidelity p.effectiveMeshFidelity p.meshFidelitySource
      p.fidelityPolicyVersion = .ok r) :
    ∃ interpretation request, JobRequest.interpretationOf b p = .ok interpretation ∧
      JobRequest.ofPayload b p = .ok request ∧ request =
        { meshEngine := Text.key p.meshEngine
          purpose := Text.strip p.purpose
          inputKind := Text.strip p.inputKind
          dimensionality := p.dimensionality
          fidelity := r
          requestedExtents := p.requestedExtents
          referenceLengthM := p.referenceLengthM.map b.float
          requirementsStrict := p.requirementsStrict.getD true
          flowAxis := flowAxisText p.flowAxis
          engineParams := p.engineParams
          geometrySource := sourceRef
          geometryInterpretation := interpretation
          intakePatches := p.intakePatches } := by
  have hinterpretation : ∃ interpretation, JobRequest.interpretationOf b p = .ok interpretation := by
    obtain ⟨-, h, -⟩ | ⟨-, interpretation, -, h, -⟩ := references_of_geometry hp.geometry
    · exact ⟨none, h⟩
    · exact ⟨some interpretation, h⟩
  obtain ⟨interpretation, hinterpretation⟩ := hinterpretation
  refine ⟨interpretation, _, hinterpretation, ?_, rfl⟩
  unfold JobRequest.ofPayload
  rw [hsource, hinterpretation]
  have hrun := fidelity_of_run hfidelity
  simp only [bind, Except.bind]
  split <;> simp_all <;> rfl

/-- The unit of a payload's interpretation decides its meaning. -/
lemma Accepted.meaning_iff (hp : Accepted b p) (hq : Accepted b q)
    {x y : Option GeometryInterpretationRef} (hx : JobRequest.interpretationOf b p = .ok x)
    (hy : JobRequest.interpretationOf b q = .ok y) :
    x.map (fun ref => (ref.unit, ref.scaleToMetres)) =
        y.map (fun ref => (ref.unit, ref.scaleToMetres)) ↔
      p.geometryInterpretation.map (·.unit) = q.geometryInterpretation.map (·.unit) := by
  obtain ⟨-, hp, hpnone⟩ | ⟨-, u, -, hp, hpunit⟩ := references_of_geometry hp.geometry <;>
    obtain ⟨-, hq, hqnone⟩ | ⟨-, v, -, hq, hqunit⟩ := references_of_geometry hq.geometry <;>
    rw [hx] at hp <;> rw [hy] at hq <;> cases hp <;> cases hq
  · simp [hpnone, hqnone]
  · rw [hqunit]
    simp [hpnone]
  · rw [hpunit]
    simp [hqnone]
  · rw [hpunit, hqunit]
    simpa using MeshPipeline.meaning_iff (x := u) (y := v)

/-- Strictness that is digested alike is alike in the runs when it is given in both or in neither. -/
lemma strict_iff {x y : Option Bool} (h : x.getD false = y.getD false) :
    x.getD true = y.getD true ↔ x.isSome = y.isSome := by
  cases x <;> cases y <;> simp_all

/-- What runs under one approved fingerprint: two accepted payloads that carry it, whose canonical forms
do not collide, give runs that get the same exactly when the payloads agree in what it does not
digest. -/
theorem approved_intent_binds (hp : validate b p = .ok ()) (hq : validate b q = .ok ())
    (hpcontract : p.approvedPatchContract.isSome) (hqcontract : q.approvedPatchContract.isSome)
    (hgiven : Text.strip p.approvedIntentFingerprint ≠ "")
    (hsame : Text.strip p.approvedIntentFingerprint = Text.strip q.approvedIntentFingerprint)
    (hsha : ∀ c d, recomputedIntent b p = .ok c → recomputedIntent b q = .ok d →
      Sha256.hexdigest c.dumps = Sha256.hexdigest d.dumps → c.dumps = d.dumps) :
    ∃ r s, JobRequest.ofPayload b p = .ok r ∧ JobRequest.ofPayload b q = .ok s ∧
      (JobRequest.Same b r s ↔ AgreeBeyond p q) := by
  have hp := accepted_of_validate hp hpcontract
  have hq := accepted_of_validate hq hqcontract
  obtain ⟨psource, pfidelity, hpsource, hpfidelity, hpintent, hpdigest⟩ := canonical_of_fingerprint hp.fingerprint hgiven
  obtain ⟨qsource, qfidelity, hqsource, hqfidelity, hqintent, hqdigest⟩ :=
    canonical_of_fingerprint hq.fingerprint (hsame ▸ hgiven)
  have htext := hsha _ _ hpintent hqintent (hpdigest.trans (hsame.trans hqdigest.symm))
  have hbound := bound_of_sorted (JsonTree.dumps_inj.mp htext)
  obtain ⟨x, r, hx, hr, hrfields⟩ := hp.request hpsource hpfidelity
  obtain ⟨y, s, hy, hs, hsfields⟩ := hq.request hqsource hqfidelity
  refine ⟨r, s, hr, hs, ?_⟩
  have hpatches := hbound.patches_iff hp.names_nodup hq.names_nodup
  have hmeaning := hp.meaning_iff hq hx hy
  have hstrict := strict_iff hbound.requirementsStrict
  subst hrfields hsfields
  constructor
  · intro h
    exact ⟨h.dimensionality, hstrict.mp h.requirementsStrict, hmeaning.mp h.meaning,
      hpatches.mp h.patches⟩
  · intro h
    exact ⟨hbound.engine, hbound.purpose, hbound.inputKind, h.dimensionality, hbound.fidelity,
      hbound.extents, hbound.referenceLengthM, hstrict.mpr h.requirementsStrict, hbound.flowAxis,
      hbound.engineParams, bytes_eq_of_sorted hbound.geometry, hmeaning.mpr h.unit,
      hpatches.mpr h.patches⟩

/-! ## A payload that carries its own fingerprint -/

lemma hexDigit_not_space {n : Nat} (h : n < 16) : Text.isSpace (Sha256.hexDigit n) = false := by
  have : ∀ n < 16, Text.isSpace (Sha256.hexDigit n) = false := by decide
  exact this n h

/-- A digest has no blanks. -/
lemma hexdigest_no_space (text : String) :
    ∀ c ∈ (Sha256.hexdigest text).toList, Text.isSpace c = false := by
  intro c hc
  simp only [Sha256.hexdigest, String.toList_ofList, List.mem_flatMap, Sha256.bytesOf,
    List.mem_map] at hc
  obtain ⟨byte, ⟨w, -, i, -, rfl⟩, hc⟩ := hc
  generalize hbyte : w / 256 ^ (4 - 1 - i) % 256 = byte at hc
  have hhigh : byte / 16 < 16 := by omega
  have hlow : byte % 16 < 16 := by omega
  simp only [List.mem_cons, List.not_mem_nil, or_false] at hc
  obtain rfl | rfl := hc
  · exact hexDigit_not_space hhigh
  · exact hexDigit_not_space hlow

lemma strip_hexdigest (text : String) : Text.strip (Sha256.hexdigest text) = Sha256.hexdigest text := by
  rw [Text.strip, Text.stripList_of_no_space (hexdigest_no_space text), String.ofList_toList]

lemma hexdigest_ne_empty (text : String) : Sha256.hexdigest text ≠ "" := by
  intro h
  have hlength := congrArg (fun s => s.toList.length) h
  simp [Sha256.hexdigest, Sha256.bytesOf, Function.comp_def] at hlength

/-- The payload with the fingerprint that its own fields give, as a dispatcher makes it. -/
def RunPayload.fingerprinted (b : Builtins) (p : RunPayload) : RunPayload :=
  { p with approvedIntentFingerprint := (recomputeIntentFingerprint b p).toOption.getD "" }

/-- A payload that carries the fingerprint of its own fields is accepted when its parts are. -/
lemma validate_fingerprinted {c : JsonTree} (hversion : p.schemaVersion = some 2)
    (hjob : p.jobId.isSome) (hgeometry : checkGeometryPair b p = .ok ())
    (hpatches : checkPatchContract p = .ok ()) (hintent : recomputedIntent b p = .ok c) :
    validate b (p.fingerprinted b) = .ok () ∧
      (p.fingerprinted b).approvedIntentFingerprint = AdmissionToken.fingerprint c := by
  have hrecompute : recomputeIntentFingerprint b p = .ok (AdmissionToken.fingerprint c) := by
    unfold recomputeIntentFingerprint
    rw [hintent]
    rfl
  have hfingerprint :
      (p.fingerprinted b).approvedIntentFingerprint = AdmissionToken.fingerprint c := by
    change (recomputeIntentFingerprint b p).toOption.getD "" = _
    rw [hrecompute]
    rfl
  refine ⟨?_, hfingerprint⟩
  have hcheck : checkIntentFingerprint b (p.fingerprinted b) = .ok () := by
    have hrecompute : recomputeIntentFingerprint b (p.fingerprinted b) =
      .ok (AdmissionToken.fingerprint c) := hrecompute
    unfold checkIntentFingerprint
    rw [hfingerprint, AdmissionToken.fingerprint, strip_hexdigest, if_neg (hexdigest_ne_empty _),
      hrecompute]
    simp only [bind, Except.bind, AdmissionToken.fingerprint, ne_eq, not_true_eq_false, if_false]
    rfl
  have hgeometry : checkGeometryPair b (p.fingerprinted b) = .ok () := hgeometry
  have hpatches : checkPatchContract (p.fingerprinted b) = .ok () := hpatches
  have hversion : (p.fingerprinted b).schemaVersion = some 2 := hversion
  have hjob : (p.fingerprinted b).jobId ≠ none := Option.isSome_iff_ne_none.mp hjob
  unfold validate
  simp [hversion, hjob, hgeometry, hpatches, hcheck, bind, Except.bind]

/-- The interpretation is no part of what is digested. -/
lemma recomputedIntent_interpretation (p : RunPayload) (x : Option InterpretationSnapshot) :
    recomputedIntent b { p with geometryInterpretation := x } = recomputedIntent b p := rfl

/-- A contract for one patch that carries its own fingerprint is read. -/
lemma fromDict_one (patch : NamedPatch) (hname : (ApprovedPatchContract.entry patch).1 ≠ "") :
    ApprovedPatchContract.fromDict ⟨some 1, true, [patch],
        some (ApprovedPatchContract.computeFingerprint true [ApprovedPatchContract.entry patch])⟩ =
      .ok ⟨true, [ApprovedPatchContract.entry patch],
        ApprovedPatchContract.computeFingerprint true [ApprovedPatchContract.entry patch]⟩ := by
  simp [ApprovedPatchContract.fromDict, ApprovedPatchContract.normalizePatches,
    ApprovedPatchContract.checkNames, hname, bind, Except.bind, pure, Except.pure]

def wallPatch : DeclaredPatch where
  name := some "wall"
  role := some "wall"
  type := some "wall"
  diameterMm := .null
  areaMm2 := .null
  innerDiameterMm := .null
  outerDiameterMm := .null
  widthMm := .null
  heightMm := .null
  nearMm := none
  interchangeableWith := []

/-- One wall in ten bytes, of which one unit is a metre or a millimetre. -/
def wallPayload (unit : LengthUnit) : RunPayload where
  schemaVersion := some 2
  jobId := some "1"
  geometrySource := some ⟨some "s", some "o", some "k", some (String.ofList (List.replicate 64 'a')),
    some 10, "", ""⟩
  geometryInterpretation := some ⟨some "i", some "s", some unit.value,
    some (.float unit.scaleToMetres), some "user_confirmed", ""⟩
  requestTxt := ""
  intakePatches := [wallPatch]
  dimensionality := "3D"
  purpose := "cfd"
  inputKind := "stl"
  requestedMeshFidelity := none
  effectiveMeshFidelity := none
  meshFidelitySource := none
  fidelityPolicyVersion := none
  meshEngine := "snappy"
  engineParams := ⟨[], .nil⟩
  approvedSnapshotId := "a"
  approvedPatchContract := some ⟨some 1, true, [⟨some "wall", some "wall", none⟩],
    some (ApprovedPatchContract.computeFingerprint true [("wall", "wall")])⟩
  approvedIntentFingerprint := ""
  requestedExtents := none
  referenceLengthM := none
  requirementsStrict := some true
  flowAxis := none

/-- Any float for an integer, texts in normal form, and no engine with a deliverable. -/
def plainBuiltins : Builtins where
  floatOfInt _ := LengthUnit.metre.scaleToMetres
  nfc := id
  deliverable _ := false

lemma except_isOk {ε α : Type} {x : Except ε α} (h : x.isOk) : ∃ a, x = .ok a := by
  cases x with
  | error e => cases h
  | ok a => exact ⟨a, rfl⟩

/-- A payload whose source and preference are well formed has a canonical form. -/
lemma recomputedIntent_ok (hsource : (sourceRefOf p).isOk)
    (hfidelity : (fidelityRecord p.requestedMeshFidelity p.effectiveMeshFidelity
      p.meshFidelitySource p.fidelityPolicyVersion).isOk) :
    ∃ c, recomputedIntent b p = .ok c := by
  obtain ⟨sourceRef, hsource⟩ := except_isOk hsource
  obtain ⟨fidelity, hfidelity⟩ := except_isOk hfidelity
  refine ⟨.obj (intentEntries b (intentFields p sourceRef) fidelity), ?_⟩
  have hcanonical : approvedIntentCanonical b (intentFields p sourceRef) =
      .ok (.obj (intentEntries b (intentFields p sourceRef) fidelity)) := by
    have hfields : fidelityRecord (intentFields p sourceRef).requestedMeshFidelity
        (intentFields p sourceRef).effectiveMeshFidelity
        (intentFields p sourceRef).meshFidelitySource
        (intentFields p sourceRef).fidelityPolicyVersion = .ok fidelity := hfidelity
    unfold approvedIntentCanonical
    rw [hfields]
    rfl
  unfold recomputedIntent
  rw [hsource]
  exact hcanonical

/-- The run of the wall, on its fingerprint, is accepted in any unit. -/
lemma validate_wall (unit : LengthUnit) :
    validate plainBuiltins ((wallPayload unit).fingerprinted plainBuiltins) = .ok () := by
  have hgeometry : checkGeometryPair plainBuiltins (wallPayload unit) = .ok () := by
    cases unit <;> decide +kernel
  have hsource : (sourceRefOf (wallPayload unit)).isOk := by
    cases unit <;> decide +kernel
  have hfidelity : (fidelityRecord none none none none).isOk := by decide
  obtain ⟨c, hintent⟩ := recomputedIntent_ok (b := plainBuiltins) hsource hfidelity
  have hcontract := fromDict_one ⟨some "wall", some "wall", none⟩ (by decide)
  have hentry : ApprovedPatchContract.entry ⟨some "wall", some "wall", none⟩ = ("wall", "wall") := by
    decide
  rw [hentry] at hcontract
  have hnorm : ApprovedPatchContract.normalizePatches
      [(wallPatch.nameText, wallPatch.roleText)] = .ok [("wall", "wall")] := by
    decide
  have hpatches : checkPatchContract (wallPayload unit) = .ok () := by
    unfold checkPatchContract
    simp only [wallPayload, hcontract, bind, Except.bind]
    unfold ApprovedPatchContract.assertSatisfiedBy
    simp [hnorm, bind, Except.bind, pure, Except.pure]
  exact (validate_fingerprinted rfl rfl hgeometry hpatches hintent).1

/-- One canonical form for all units. -/
lemma recomputedIntent_wall (unit : LengthUnit) :
    recomputedIntent plainBuiltins ((wallPayload unit).fingerprinted plainBuiltins) =
      recomputedIntent plainBuiltins (wallPayload .metre) := rfl

lemma fingerprint_wall (unit : LengthUnit) :
    ((wallPayload unit).fingerprinted plainBuiltins).approvedIntentFingerprint =
      (recomputeIntentFingerprint plainBuiltins (wallPayload .metre)).toOption.getD "" := rfl

lemma fingerprint_wall_given :
    Text.strip ((wallPayload .metre).fingerprinted plainBuiltins).approvedIntentFingerprint ≠ "" := by
  obtain ⟨c, hc⟩ := recomputedIntent_ok (b := plainBuiltins) (p := wallPayload .metre)
    (by decide +kernel) (by decide)
  have : recomputeIntentFingerprint plainBuiltins (wallPayload .metre) =
      .ok (AdmissionToken.fingerprint c) := by
    unfold recomputeIntentFingerprint
    rw [hc]
    rfl
  rw [fingerprint_wall, this]
  exact (strip_hexdigest _).symm ▸ hexdigest_ne_empty _

/-- One approval, run in metres and in millimetres: the two get the same exactly when the units are one. -/
theorem approved_intent_binds_wall :
    ∃ r s, JobRequest.ofPayload plainBuiltins ((wallPayload .metre).fingerprinted plainBuiltins) = .ok r ∧
      JobRequest.ofPayload plainBuiltins ((wallPayload .millimetre).fingerprinted plainBuiltins) =
        .ok s ∧
      (JobRequest.Same plainBuiltins r s ↔
        AgreeBeyond ((wallPayload .metre).fingerprinted plainBuiltins)
          ((wallPayload .millimetre).fingerprinted plainBuiltins)) := by
  refine approved_intent_binds (validate_wall _) (validate_wall _) rfl rfl fingerprint_wall_given
    (by rw [fingerprint_wall, fingerprint_wall]) ?_
  intro c d hc hd _
  rw [recomputedIntent_wall] at hc hd
  rw [hc] at hd
  cases hd
  rfl

/-- The approved intent does not bind what runs: one wall under one fingerprint is accepted in metres and
in millimetres. -/
theorem approved_intent_unit_unbound :
    ¬ ∀ (b : Builtins) (p q : RunPayload), validate b p = .ok () → validate b q = .ok () →
      p.approvedPatchContract.isSome → q.approvedPatchContract.isSome →
      Text.strip p.approvedIntentFingerprint ≠ "" →
      p.approvedIntentFingerprint = q.approvedIntentFingerprint →
      (∀ c d, recomputedIntent b p = .ok c → recomputedIntent b q = .ok d →
        Sha256.hexdigest c.dumps = Sha256.hexdigest d.dumps → c.dumps = d.dumps) →
      ∃ r s, JobRequest.ofPayload b p = .ok r ∧ JobRequest.ofPayload b q = .ok s ∧
        JobRequest.Same b r s := by
  intro h
  obtain ⟨r, s, hr, hs, hsame⟩ := h plainBuiltins ((wallPayload .metre).fingerprinted plainBuiltins)
    ((wallPayload .millimetre).fingerprinted plainBuiltins) (validate_wall _) (validate_wall _) rfl rfl
    fingerprint_wall_given (by rw [fingerprint_wall, fingerprint_wall]) (by
      intro c d hc hd _
      rw [recomputedIntent_wall] at hc hd
      rw [hc] at hd
      cases hd
      rfl)
  have hmetre := accepted_of_validate (validate_wall .metre) rfl
  have hmillimetre := accepted_of_validate (validate_wall .millimetre) rfl
  have hunit := (hmetre.meaning_iff hmillimetre (interpretation_of_request hr)
    (interpretation_of_request hs)).mp hsame.meaning
  revert hunit
  change some (some "m") ≠ some (some "mm")
  decide

end MeshPipeline
