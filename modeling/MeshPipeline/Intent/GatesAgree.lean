import MeshPipeline.Intent.Admission
import MeshPipeline.Intent.OneFingerprint
import MeshPipeline.Library.Buckets
import Mathlib.Data.String.Basic

/-!
# The two gates on one payload

The contract and the admission digest the same fields in different spellings. A canonical form does not
see most of the difference: it strips and lowers again, and orders what it holds. It sees strictness
that was left out, which one side takes as off and the other as on, and a flow axis of blanks, which one
side keeps and the other drops; and only one side strips the approved fingerprint.
-/

namespace MeshPipeline

open AdmissionToken DispatchContract

variable {b : Builtins} {p q : RunPayload} {f g : IntentFields} {r s : FidelityRecord}

/-! ## Canonical forms that cannot be told apart -/

/-- The keys of an object are put in order once. -/
lemma sorted_sortKeys {d : List (String × JsonTree)} (hd : (d.map Prod.fst).Nodup) :
    JsonTree.sorted (.obj (JsonTree.sortKeys d)) = JsonTree.sorted (.obj d) := by
  have hperm : ((JsonTree.sortKeys d).map fun e => (e.1, e.2.sorted)).Perm
      (d.map fun e => (e.1, e.2.sorted)) := (List.perm_insertionSort _ d).map _
  have hnodup : (((JsonTree.sortKeys d).map fun e => (e.1, e.2.sorted)).map Prod.fst).Nodup := by
    simpa [List.map_map, Function.comp_def] using sortKeys_nodup hd
  simp only [JsonTree.sorted, JsonTree.sortedEntries_eq]
  refine congrArg JsonTree.obj ?_
  exact Buckets.sortBy_eq_of_perm (hperm.trans (Buckets.perm_sortBy Prod.fst _).symm) hnodup
    (Buckets.pairwise_sortBy Prod.fst _)

/-- Lists that read alike under one function read alike under any function of it. -/
lemma map_congr_of_map {α β γ : Type*} [Nonempty γ] {k : α → β} {read : α → γ}
    (hread : ∀ x y, k x = k y → read x = read y) {xs ys : List α} (h : xs.map k = ys.map k) :
    xs.map read = ys.map read := by
  obtain ⟨e, rfl⟩ := (Function.factorsThrough_iff read).mp fun x y => hread x y
  rw [← List.map_map, h, List.map_map]

/-- The entry of a port does not see the order of keys. -/
lemma portEntry_of_ordered {a c : DeclaredPatch} (h : a.ordered = c.ordered) :
    (portEntry a).sorted = (portEntry c).sorted := by
  have hnear : (ofOption JsonTree.arr a.nearMm).sorted = (ofOption JsonTree.arr c.nearMm).sorted := by
    have hmap : (a.nearMm.map fun near => near.map JsonTree.sorted) =
        c.nearMm.map fun near => near.map JsonTree.sorted := congrArg DeclaredPatch.nearMm h
    cases ha : a.nearMm <;> cases hc : c.nearMm <;>
      simp_all [ofOption, JsonTree.sorted, JsonTree.sortedItems_eq]
  cases a
  cases c
  simp only [DeclaredPatch.ordered, DeclaredPatch.mk.injEq] at h
  obtain ⟨hname, hrole, htype, hdiameter, harea, hinner, houter, hwidth, hheight, -, hother⟩ := h
  subst hname hrole htype hother
  simp only [portEntry, DeclaredPatch.nameText, DeclaredPatch.roleText, DeclaredPatch.interchangeable,
    JsonTree.sorted, JsonTree.sortedEntries, hdiameter, harea, hinner, houter, hwidth, hheight, hnear]

/-- The port declaration does not see the order of keys. -/
lemma portDeclaration_of_ordered {xs ys : List DeclaredPatch}
    (h : xs.map DeclaredPatch.ordered = ys.map DeclaredPatch.ordered) :
    (portDeclaration xs).map JsonTree.sorted = (portDeclaration ys).map JsonTree.sorted := by
  have hread (zs : List DeclaredPatch) : (portDeclaration zs).map JsonTree.sorted =
      (Buckets.sortBy Prod.fst ((zs.filter fun p => p.roleText ∈ portWords).map fun p =>
        (p.nameText, (portEntry p).sorted))).map Prod.snd := by
    have hsort := Buckets.sortBy_map (g := Prod.fst) (k := Prod.fst)
      (f := fun e : String × JsonTree => (e.1, e.2.sorted))
      (l := (zs.filter fun p => p.roleText ∈ portWords).map fun p => (p.nameText, portEntry p))
      (fun _ _ _ _ => Iff.rfl)
    rw [List.map_map] at hsort
    simp only [Function.comp_def] at hsort
    rw [hsort, List.map_map]
    exact List.map_map
  have hport (zs : List DeclaredPatch) :
      (zs.filter fun p => p.roleText ∈ portWords).map DeclaredPatch.ordered =
        (zs.map DeclaredPatch.ordered).filter fun p => p.roleText ∈ portWords := by
    rw [List.filter_map]
    rfl
  have hfilter := hport xs
  rw [h, ← hport ys] at hfilter
  have hinhabited : Nonempty (String × JsonTree) := ⟨("", .null)⟩
  rw [hread xs, hread ys, map_congr_of_map (fun a c hac => ?_) hfilter]
  have hname := congrArg DeclaredPatch.nameText hac
  change a.nameText = c.nameText at hname
  rw [portEntry_of_ordered hac, hname]

/-- Fields that a canonical form cannot tell apart. -/
structure Alike (b : Builtins) (f g : IntentFields) : Prop where
  engine : Text.key f.engine = Text.key g.engine
  purpose : Text.strip f.purpose = Text.strip g.purpose
  inputKind : Text.strip f.inputKind = Text.strip g.inputKind
  dimensionality : Text.strip f.dimensionality = Text.strip g.dimensionality
  patches : f.patches.map DeclaredPatch.ordered = g.patches.map DeclaredPatch.ordered
  engineParams : JsonTree.sorted (.obj f.engineParams.entries) =
    JsonTree.sorted (.obj g.engineParams.entries)
  requestTxt : f.requestTxt = g.requestTxt
  extents : (givenExtents b f.requestedExtents).Perm (givenExtents b g.requestedExtents)
  referenceLengthM : f.referenceLengthM.map b.float = g.referenceLengthM.map b.float
  requirementsStrict : f.requirementsStrict = g.requirementsStrict
  flowAxis : flowAxisText f.flowAxis = flowAxisText g.flowAxis
  sourceRef : f.sourceRef = g.sourceRef
  interpretationRef : f.interpretationRef = g.interpretationRef

/-- The extents in order do not see the order they were given in. -/
lemma sortKeys_of_perm {d e : List (String × PyFloat)} (h : d.Perm e) (hd : (d.map Prod.fst).Nodup) :
    JsonTree.sortKeys (d.map fun x => (x.1, .float x.2)) =
      JsonTree.sortKeys (e.map fun x => (x.1, .float x.2)) := by
  have hperm := h.map fun x : String × PyFloat => (x.1, JsonTree.float x.2)
  refine Buckets.sortBy_eq_of_perm (hperm.trans (Buckets.perm_sortBy Prod.fst _).symm) ?_
    (Buckets.pairwise_sortBy Prod.fst _)
  simpa [List.map_map, Function.comp_def] using hd

/-- Fields that are alike have one canonical text. -/
lemma Alike.sorted (h : Alike b f g) : JsonTree.sorted (.obj (intentEntries b f r)) =
    JsonTree.sorted (.obj (intentEntries b g r)) := by
  have hnames : (f.patches.map fun p => (p.nameText, p.roleText)) =
      g.patches.map fun p => (p.nameText, p.roleText) := by
    refine map_congr_of_map (fun a c hac => ?_) h.patches
    have hread := congrArg (fun p : DeclaredPatch => (p.nameText, p.roleText)) hac
    exact hread
  have hparams : JsonTree.sorted (.obj (JsonTree.sortKeys f.engineParams.entries)) =
      JsonTree.sorted (.obj (JsonTree.sortKeys g.engineParams.entries)) := by
    rw [sorted_sortKeys f.engineParams.nodup, sorted_sortKeys g.engineParams.nodup, h.engineParams]
  have hextents := sortKeys_of_perm h.extents (givenExtents_nodup _)
  have hnone : givenExtents b f.requestedExtents = [] ↔ givenExtents b g.requestedExtents = [] := by
    rw [← List.length_eq_zero_iff, h.extents.length_eq, List.length_eq_zero_iff]
  have hlength : ofOption (fun v => JsonTree.float (b.float v)) f.referenceLengthM =
      ofOption (fun v => JsonTree.float (b.float v)) g.referenceLengthM := by
    have := h.referenceLengthM
    cases hf : f.referenceLengthM <;> cases hg : g.referenceLengthM <;> simp_all [ofOption]
  have hports : JsonTree.sorted (.arr (portDeclaration f.patches)) =
      JsonTree.sorted (.arr (portDeclaration g.patches)) := by
    rw [JsonTree.sorted, JsonTree.sorted, JsonTree.sortedItems_eq, JsonTree.sortedItems_eq,
      portDeclaration_of_ordered h.patches]
  have hclasses : requiredOutputClasses b f.engine = requiredOutputClasses b g.engine := by
    simp only [requiredOutputClasses, h.engine]
  rw [JsonTree.sorted, JsonTree.sorted]
  refine congrArg (fun entries => JsonTree.obj (JsonTree.sortKeys entries)) ?_
  simp only [intentEntries, canonicalPayload, List.cons_append, List.nil_append,
    JsonTree.sortedEntries, h.engine, h.purpose, h.inputKind, h.dimensionality, hnames, hparams,
    hclasses, h.requestTxt, hextents, hnone, hlength, h.flowAxis, h.requirementsStrict, hports,
    h.sourceRef, h.interpretationRef]

/-! ## What each gate computes -/

/-- The canonical form of a payload, by its parts. -/
lemma recomputedIntent_eq_ok {c : JsonTree} : recomputedIntent b p = .ok c ↔
    ∃ sourceRef fidelity, sourceRefOf p = .ok sourceRef ∧
      fidelityRecord p.requestedMeshFidelity p.effectiveMeshFidelity p.meshFidelitySource
        p.fidelityPolicyVersion = .ok fidelity ∧
      c = .obj (intentEntries b (intentFields p sourceRef) fidelity) := by
  constructor
  · intro h
    obtain ⟨sourceRef, hsource, h⟩ := except_bind_eq_ok.mp h
    obtain ⟨fidelity, hfidelity, h⟩ := except_bind_eq_ok.mp h
    exact ⟨sourceRef, fidelity, hsource, hfidelity, (Except.ok.inj h).symm⟩
  · rintro ⟨sourceRef, fidelity, hsource, hfidelity, rfl⟩
    refine except_bind_eq_ok.mpr ⟨sourceRef, hsource, ?_⟩
    exact except_bind_eq_ok.mpr ⟨fidelity, hfidelity, rfl⟩

lemma recomputeIntentFingerprint_eq_ok {t : String} : recomputeIntentFingerprint b p = .ok t ↔
    ∃ c, recomputedIntent b p = .ok c ∧ AdmissionToken.fingerprint c = t := by
  unfold recomputeIntentFingerprint
  rw [except_bind_eq_ok]
  simp [pure, Except.pure]

/-- A preference that is resolved is consistent. -/
lemma consistent_of_fidelityRecord {requested effective source policy : Option String}
    (h : fidelityRecord requested effective source policy = .ok r) : r.Consistent := by
  unfold fidelityRecord at h
  dsimp only at h
  split at h <;>
  · obtain ⟨requested, -, h⟩ := except_bind_eq_ok.mp h
    obtain ⟨record, -, h⟩ := except_bind_eq_ok.mp h
    split_ifs at h with hconsistent
    exact Except.ok.inj h ▸ hconsistent

/-- A consistent preference is resolved to itself. -/
lemma fidelityRecord_self (h : r.Consistent) :
    fidelityRecord r.requested (some r.effective) (some r.source) (some r.policyVersion) = .ok r := by
  obtain ⟨requested, effective, source, policy⟩ := r
  obtain ⟨htrio, hknown, hpolicy⟩ := h
  obtain ⟨m, hm⟩ := Option.isSome_iff_exists.mp hknown
  obtain rfl : m.value = effective := by simpa using List.find?_some hm
  dsimp only at htrio hpolicy ⊢
  obtain ⟨rfl, rfl⟩ | ⟨rfl, rfl, hdefault⟩ := htrio
  · rw [hpolicy]
    cases m <;> decide
  · rw [hpolicy, hdefault]
    decide

/-- The preference that a request resolves. -/
def runFidelity (p : RunPayload) : Except String FidelityRecord :=
  match JobRequest.given p.effectiveMeshFidelity, JobRequest.given p.meshFidelitySource with
  | some effective, some source =>
    fidelityRecord p.requestedMeshFidelity (some effective) (some source) p.fidelityPolicyVersion
  | _, _ => fidelityRecord p.requestedMeshFidelity none none p.fidelityPolicyVersion

lemma consistent_of_runFidelity (h : runFidelity p = .ok r) : r.Consistent := by
  unfold runFidelity at h
  split at h <;> exact consistent_of_fidelityRecord h

/-- The request of a payload, by its parts. -/
def ApprovedRequest.of (b : Builtins) (p : RunPayload) (source : Option GeometrySourceRef)
    (interpretation : Option GeometryInterpretationRef) (fidelity : FidelityRecord) :
    ApprovedRequest where
  meshEngine := Text.key p.meshEngine
  purpose := Text.strip p.purpose
  inputKind := Text.strip p.inputKind
  dimensionality := p.dimensionality
  fidelity := fidelity
  requestedExtents := p.requestedExtents
  referenceLengthM := p.referenceLengthM.map b.float
  requirementsStrict := p.requirementsStrict.getD true
  flowAxis := flowAxisText p.flowAxis
  engineParams := p.engineParams
  geometrySource := source
  geometryInterpretation := interpretation
  intakePatches := p.intakePatches
  requestTxt := p.requestTxt
  approvedPatchContract := p.approvedPatchContract
  approvedIntentFingerprint := p.approvedIntentFingerprint

lemma ApprovedRequest.ofPayload_eq_ok {a : ApprovedRequest} : ApprovedRequest.ofPayload b p = .ok a ↔
    ∃ source interpretation fidelity, sourceRefOf p = .ok source ∧
      JobRequest.interpretationOf b p = .ok interpretation ∧ runFidelity p = .ok fidelity ∧
      a = ApprovedRequest.of b p source interpretation fidelity := by
  unfold ApprovedRequest.ofPayload
  rw [except_bind_eq_ok]
  constructor
  · rintro ⟨request, hrequest, h⟩
    unfold JobRequest.ofPayload at hrequest
    obtain ⟨source, hsource, hrequest⟩ := except_bind_eq_ok.mp hrequest
    obtain ⟨interpretation, hinterpretation, hrequest⟩ := except_bind_eq_ok.mp hrequest
    dsimp only at hrequest
    have hrun : runFidelity p >>= (fun fidelity => .ok
        (ApprovedRequest.of b p source interpretation fidelity).toJobRequest) = .ok request := by
      unfold runFidelity
      cases heffective : JobRequest.given p.effectiveMeshFidelity <;>
        cases hby : JobRequest.given p.meshFidelitySource <;>
        simp only [heffective, hby] at hrequest ⊢ <;>
        exact hrequest
    obtain ⟨fidelity, hfidelity, hrun⟩ := except_bind_eq_ok.mp hrun
    obtain rfl := Except.ok.inj hrun
    exact ⟨source, interpretation, fidelity, hsource, hinterpretation, hfidelity,
      (Except.ok.inj h).symm⟩
  · rintro ⟨source, interpretation, fidelity, hsource, hinterpretation, hfidelity, rfl⟩
    refine ⟨(ApprovedRequest.of b p source interpretation fidelity).toJobRequest, ?_, rfl⟩
    unfold JobRequest.ofPayload
    rw [hsource, hinterpretation]
    unfold runFidelity at hfidelity
    simp only [bind, Except.bind]
    split at hfidelity <;> simp_all <;> rfl

/-! ## From one gate to the other -/

lemma givenExtents_perm {x y : Option Extents}
    (h : Option.Rel (fun e f => e.entries.Perm f.entries) x y) :
    (givenExtents b x).Perm (givenExtents b y) := by
  cases h with
  | none => exact .refl _
  | some hperm => exact hperm.filterMap _

/-- What storage does to a payload cannot be told from its canonical form. -/
lemma Stored.alike (h : Stored p q) (sourceRef : Option GeometrySourceRef) :
    Alike b (intentFields p sourceRef) (intentFields q sourceRef) := by
  obtain ⟨hpatches, hparams, hextents, hrest⟩ := h
  generalize q.intakePatches = patches at *
  generalize q.engineParams = params at *
  generalize q.requestedExtents = extents at *
  subst hrest
  exact ⟨rfl, rfl, rfl, rfl, hpatches, hparams, rfl, givenExtents_perm hextents, rfl, rfl, rfl, rfl,
    rfl⟩

lemma flowAxisText_again {x : Option String} : flowAxisText x = flowAxisText (flowAxisText x) ↔
    ∀ axis ∈ x, axis ≠ "" → Text.strip axis ≠ "" := by
  cases x with
  | none => simp [flowAxisText]
  | some axis =>
    by_cases hempty : axis = ""
    · simp [flowAxisText, hempty]
    · by_cases hblank : Text.key axis = ""
      · simp [flowAxisText, hempty, hblank, Text.key_eq_empty_iff.mp hblank]
      · simp [flowAxisText, hempty, hblank, Text.key_key, mt Text.key_eq_empty_iff.mpr hblank]

lemma strict_again {x : Option Bool} : x.getD false = x.getD true ↔ x.isSome := by
  cases x <;> simp

/-- The words of a payload that a request could take in another way: strictness that is not said, and a
flow axis of blanks. -/
structure SameWords (p : RunPayload) : Prop where
  requirementsStrict : p.requirementsStrict.isSome
  flowAxis : ∀ axis ∈ p.flowAxis, axis ≠ "" → Text.strip axis ≠ ""

variable {source : Option GeometrySourceRef} {interpretation : Option GeometryInterpretationRef}

/-- A payload and its request are alike when the request takes its words in the same way. -/
lemma SameWords.alike (h : SameWords p) : Alike b (intentFields p source)
    (intentFields (ApprovedRequest.of b p source interpretation r).payload source) where
  engine := (Text.key_key _).symm
  purpose := (Text.strip_strip _).symm
  inputKind := (Text.strip_strip _).symm
  dimensionality := rfl
  patches := rfl
  engineParams := rfl
  requestTxt := rfl
  extents := .refl _
  referenceLengthM := by
    change p.referenceLengthM.map b.float =
      ((p.referenceLengthM.map b.float).map PyNum.float).map b.float
    cases p.referenceLengthM <;> rfl
  requirementsStrict := strict_again.mpr h.requirementsStrict
  flowAxis := flowAxisText_again.mpr h.flowAxis
  sourceRef := rfl
  interpretationRef := rfl

/-- One canonical text for a payload and its request says that the request took its words in the same
way. -/
lemma sameWords_of_sorted (h : JsonTree.sorted (.obj (intentEntries b (intentFields p source) r)) =
    JsonTree.sorted (.obj (intentEntries b
      (intentFields (ApprovedRequest.of b p source interpretation r).payload source) r))) :
    SameWords p := by
  have hbound := bound_of_sorted h
  exact ⟨strict_again.mp hbound.requirementsStrict, flowAxisText_again.mp hbound.flowAxis⟩

/-- What `check_admission` digests. -/
lemma recomputedIntent_payload (hr : r.Consistent) :
    recomputedIntent b (ApprovedRequest.of b p source interpretation r).payload =
      .ok (.obj (intentEntries b
        (intentFields (ApprovedRequest.of b p source interpretation r).payload source) r)) := by
  refine recomputedIntent_eq_ok.mpr ⟨source, r, ?_, fidelityRecord_self hr, rfl⟩
  cases source with
  | none => rfl
  | some source =>
    change (GeometrySourceRef.fromPayload source.toPayload).map some = .ok (some source)
    rw [GeometrySourceRef.fromPayload_toPayload]
    rfl

/-- The condition under which the two gates agree on a payload: its preference is one that the policy
makes, its fingerprint has no blanks around it, and where it has a fingerprint a request takes its
words in the same way. -/
structure Agrees (p : RunPayload) : Prop where
  fidelity : (runFidelity p).isOk
  fingerprint : Text.strip p.approvedIntentFingerprint = p.approvedIntentFingerprint
  words : p.approvedIntentFingerprint ≠ "" → SameWords p

/-- The parts of a payload that passes `validate`. -/
structure Validated (b : Builtins) (p : RunPayload) : Prop where
  version : p.schemaVersion = some 2
  jobId : p.jobId ≠ none
  geometry : checkGeometryPair b p = .ok ()
  patches : checkPatchContract p = .ok ()
  fingerprint : checkIntentFingerprint b p = .ok ()

lemma validate_eq_ok : validate b p = .ok () ↔ Validated b p := by
  constructor
  · intro h
    unfold validate at h
    dsimp only at h
    split at h
    · cases h
    split at h
    · cases h
    next hversion hjob =>
      obtain ⟨⟨⟩, hgeometry, h⟩ := except_bind_eq_ok.mp h
      obtain ⟨⟨⟩, hpatches, h⟩ := except_bind_eq_ok.mp h
      exact ⟨not_not.mp hversion, hjob, hgeometry, hpatches, h⟩
  · rintro ⟨hversion, hjob, hgeometry, hpatches, hfingerprint⟩
    unfold validate
    simp [hversion, hjob, hgeometry, hpatches, hfingerprint, bind, Except.bind]

/-- The patches that `validate` compares with the contract are compared with it again. -/
lemma Validated.checkPatches (h : Validated b p) :
    (ApprovedRequest.of b p source interpretation r).checkPatches = .ok () := by
  have hpatches := h.patches
  unfold checkPatchContract at hpatches
  unfold ApprovedRequest.checkPatches
  dsimp only [ApprovedRequest.of]
  cases hcontract : p.approvedPatchContract with
  | none => rfl
  | some snapshot =>
    rw [hcontract] at hpatches
    exact hpatches

lemma checkAdmission_eq_ok_none {a : ApprovedRequest} (h : a.checkPatches = .ok ()) :
    checkAdmission b a = .ok none ↔ a.approvedIntentFingerprint = "" ∨
      recomputeIntentFingerprint b a.payload = .ok a.approvedIntentFingerprint := by
  unfold checkAdmission
  rw [h]
  by_cases hgiven : a.approvedIntentFingerprint = ""
  · simp [hgiven]
  · cases hagain : recomputeIntentFingerprint b a.payload with
    | error reason => simp [hgiven, bind, Except.bind]
    | ok t =>
      by_cases hsame : t = a.approvedIntentFingerprint <;>
        simp [hgiven, hsame, bind, Except.bind, pure, Except.pure]

/-- A payload that the contract accepts is admitted exactly when it gives a request whose fingerprint,
if it has one, is the one computed from the request. -/
lemma Validated.admitted_iff (h : Validated b p) : Admitted b p ↔
    ∃ a, ApprovedRequest.ofPayload b p = .ok a ∧ (p.approvedIntentFingerprint = "" ∨
      recomputeIntentFingerprint b a.payload = .ok p.approvedIntentFingerprint) := by
  have hkwargs : toRunKwargs b p = .ok p := by
    unfold toRunKwargs
    rw [validate_eq_ok.mpr h]
    rfl
  have hcheck {a : ApprovedRequest} (ha : ApprovedRequest.ofPayload b p = .ok a) :
      checkAdmission b a = .ok none ↔ p.approvedIntentFingerprint = "" ∨
        recomputeIntentFingerprint b a.payload = .ok p.approvedIntentFingerprint := by
    obtain ⟨source, interpretation, fidelity, -, -, -, rfl⟩ := ApprovedRequest.ofPayload_eq_ok.mp ha
    exact checkAdmission_eq_ok_none h.checkPatches
  constructor
  · rintro ⟨kwargs, a, hk, ha, hadmit⟩
    obtain rfl := Except.ok.inj (hkwargs.symm.trans hk)
    exact ⟨a, ha, (hcheck ha).mp hadmit⟩
  · rintro ⟨a, ha, hfp⟩
    exact ⟨p, a, hkwargs, ha, (hcheck ha).mpr hfp⟩

/-- A payload that the contract accepts gives a request when its preference is one that the policy
makes. -/
lemma Validated.request (h : Validated b p) (hfidelity : runFidelity p = .ok r) :
    ∃ source interpretation, sourceRefOf p = .ok source ∧
      ApprovedRequest.ofPayload b p =
        .ok (ApprovedRequest.of b p source interpretation r) := by
  obtain ⟨hsource, hinterpretation, -⟩ | ⟨source, interpretation, hsource, hinterpretation, -⟩ :=
    references_of_geometry h.geometry
  · exact ⟨none, none, hsource, ApprovedRequest.ofPayload_eq_ok.mpr
      ⟨none, none, r, hsource, hinterpretation, hfidelity, rfl⟩⟩
  · exact ⟨some source, some interpretation, hsource, ApprovedRequest.ofPayload_eq_ok.mpr
      ⟨some source, some interpretation, r, hsource, hinterpretation, hfidelity, rfl⟩⟩

/-- An admitted fingerprint is a digest, so it has no blanks around it. -/
lemma Validated.strip_of_admitted (h : Validated b p) (hadmitted : Admitted b p) :
    Text.strip p.approvedIntentFingerprint = p.approvedIntentFingerprint := by
  obtain ⟨a, -, hfp | hfp⟩ := h.admitted_iff.mp hadmitted
  · rw [hfp]
    decide
  · obtain ⟨c, -, hdigest⟩ := recomputeIntentFingerprint_eq_ok.mp hfp
    rw [← hdigest]
    exact strip_hexdigest _

/-- The preference that a fingerprint digests is the one that a request resolves. -/
lemma runFidelity_of_record (h : fidelityRecord p.requestedMeshFidelity p.effectiveMeshFidelity
    p.meshFidelitySource p.fidelityPolicyVersion = .ok r) : runFidelity p = .ok r :=
  fidelity_of_run h

/-- What is accepted and agrees is admitted. -/
lemma Validated.admitted (h : Validated b p) (hagrees : Agrees p) : Admitted b p := by
  obtain ⟨fidelity, hfidelity⟩ := except_isOk hagrees.fidelity
  obtain ⟨source, interpretation, hsource, hrequest⟩ := h.request hfidelity
  refine h.admitted_iff.mpr ⟨_, hrequest, ?_⟩
  by_cases hfp : p.approvedIntentFingerprint = ""
  · exact .inl hfp
  right
  have hgiven : Text.strip p.approvedIntentFingerprint ≠ "" := hagrees.fingerprint.symm ▸ hfp
  obtain ⟨sourceRef, record, hsourceRef, hrecord, -, hdigest⟩ :=
    canonical_of_fingerprint h.fingerprint hgiven
  obtain rfl := Except.ok.inj (hsource.symm.trans hsourceRef)
  obtain rfl := Except.ok.inj (hfidelity.symm.trans (runFidelity_of_record hrecord))
  refine recomputeIntentFingerprint_eq_ok.mpr
    ⟨_, recomputedIntent_payload (consistent_of_fidelityRecord hrecord), ?_⟩
  rw [← hagrees.fingerprint, ← hdigest, AdmissionToken.fingerprint, AdmissionToken.fingerprint,
    JsonTree.dumps_inj.mpr (hagrees.words hfp).alike.sorted]

/-- What is accepted and admitted agrees, unless two canonical texts collide. -/
lemma Validated.agrees (h : Validated b p) (hadmitted : Admitted b p)
    (hsha : ∀ a c d, ApprovedRequest.ofPayload b p = .ok a → recomputedIntent b p = .ok c →
      recomputedIntent b a.payload = .ok d →
      Sha256.hexdigest c.dumps = Sha256.hexdigest d.dumps → c.dumps = d.dumps) : Agrees p := by
  have hstrip := h.strip_of_admitted hadmitted
  obtain ⟨a, hrequest, hfp⟩ := h.admitted_iff.mp hadmitted
  obtain ⟨source, interpretation, fidelity, hsource, -, hfidelity, rfl⟩ :=
    ApprovedRequest.ofPayload_eq_ok.mp hrequest
  refine ⟨by rw [hfidelity]; rfl, hstrip, fun hgiven => ?_⟩
  have hfp := hfp.resolve_left hgiven
  obtain ⟨sourceRef, record, hsourceRef, hrecord, hcanonical, hdigest⟩ :=
    canonical_of_fingerprint h.fingerprint (hstrip.symm ▸ hgiven)
  obtain rfl := Except.ok.inj (hsource.symm.trans hsourceRef)
  obtain rfl := Except.ok.inj (hfidelity.symm.trans (runFidelity_of_record hrecord))
  obtain ⟨d, hd, hagain⟩ := recomputeIntentFingerprint_eq_ok.mp hfp
  have htext := hsha _ _ _ hrequest hcanonical hd (hdigest.trans (hstrip.trans hagain.symm))
  rw [recomputedIntent_payload (consistent_of_fidelityRecord hrecord)] at hd
  obtain rfl := Except.ok.inj hd
  exact sameWords_of_sorted (JsonTree.dumps_inj.mp htext)

/-! ## A stored payload -/

/-- The canonical text of a payload outlives storage. -/
lemma Stored.recomputed (h : Stored p q) {c : JsonTree} (hc : recomputedIntent b p = .ok c) :
    ∃ d, recomputedIntent b q = .ok d ∧ d.dumps = c.dumps := by
  obtain ⟨sourceRef, fidelity, hsource, hfidelity, rfl⟩ := recomputedIntent_eq_ok.mp hc
  refine ⟨_, recomputedIntent_eq_ok.mpr ⟨sourceRef, fidelity, ?_, ?_, rfl⟩,
    (JsonTree.dumps_inj.mpr (h.alike sourceRef).sorted).symm⟩
  · rw [h.rest]
    exact hsource
  · rw [h.rest]
    exact hfidelity

lemma checkIntentFingerprint_eq_ok : checkIntentFingerprint b p = .ok () ↔
    if Text.strip p.approvedIntentFingerprint = "" then Text.strip p.approvedSnapshotId = ""
    else recomputeIntentFingerprint b p = .ok (Text.strip p.approvedIntentFingerprint) := by
  unfold checkIntentFingerprint
  by_cases hgiven : Text.strip p.approvedIntentFingerprint = ""
  · by_cases hsnapshot : Text.strip p.approvedSnapshotId = "" <;>
      simp [hgiven, hsnapshot, pure, Except.pure]
  · cases hrecompute : recomputeIntentFingerprint b p with
    | error reason => simp [hgiven, bind, Except.bind]
    | ok t =>
      by_cases hsame : t = Text.strip p.approvedIntentFingerprint <;>
        simp [hgiven, hsame, bind, Except.bind, pure, Except.pure]

lemma checkPatchContract_of_names {xs : List DeclaredPatch}
    (h : (p.intakePatches.map fun a => (a.nameText, a.roleText)) =
      xs.map fun a => (a.nameText, a.roleText)) :
    checkPatchContract { p with intakePatches := xs } = checkPatchContract p := by
  simp only [checkPatchContract, ApprovedPatchContract.assertSatisfiedBy, h]

/-- The contract accepts a payload after storage when it accepted it before. -/
lemma Stored.validated (h : Stored p q) (hp : Validated b p) : Validated b q := by
  have hpatches : checkPatchContract q = checkPatchContract p := by
    rw [h.rest]
    refine checkPatchContract_of_names (map_congr_of_map (fun a c hac => ?_) h.patches)
    have hread := congrArg (fun a : DeclaredPatch => (a.nameText, a.roleText)) hac
    exact hread
  have hfingerprint := checkIntentFingerprint_eq_ok.mp hp.fingerprint
  refine ⟨?_, ?_, ?_, hpatches.trans hp.patches, checkIntentFingerprint_eq_ok.mpr ?_⟩
  · rw [h.rest]
    exact hp.version
  · rw [h.rest]
    exact hp.jobId
  · rw [h.rest]
    exact hp.geometry
  · have hstored : q.approvedIntentFingerprint = p.approvedIntentFingerprint := by
      rw [h.rest]
    have hsnapshot : q.approvedSnapshotId = p.approvedSnapshotId := by
      rw [h.rest]
    rw [hstored, hsnapshot]
    split_ifs at hfingerprint ⊢
    · exact hfingerprint
    · obtain ⟨c, hc, hdigest⟩ := recomputeIntentFingerprint_eq_ok.mp hfingerprint
      obtain ⟨d, hd, htext⟩ := h.recomputed hc
      refine recomputeIntentFingerprint_eq_ok.mpr ⟨d, hd, ?_⟩
      rw [← hdigest, AdmissionToken.fingerprint, htext, AdmissionToken.fingerprint]

/-- What decides whether the gates agree outlives storage. -/
lemma Stored.agrees_iff (h : Stored p q) : Agrees q ↔ Agrees p := by
  rw [h.rest]
  constructor <;> rintro ⟨hfidelity, hfingerprint, hwords⟩ <;>
    exact ⟨hfidelity, hfingerprint, fun hgiven => ⟨(hwords hgiven).1, (hwords hgiven).2⟩⟩

/-- The two gates agree on an accepted payload, stored or not, exactly when its preference is one that
the policy makes, its fingerprint has no blanks around it, and, where it has a fingerprint, strictness
is said and the flow axis is no text of blanks; two canonical texts that collide apart. -/
theorem gates_agree_iff (hp : validate b p = .ok ()) (hstored : Stored p q)
    (hsha : ∀ a c d, ApprovedRequest.ofPayload b q = .ok a → recomputedIntent b q = .ok c →
      recomputedIntent b a.payload = .ok d →
      Sha256.hexdigest c.dumps = Sha256.hexdigest d.dumps → c.dumps = d.dumps) :
    Admitted b q ↔ Agrees p := by
  have hq := hstored.validated (validate_eq_ok.mp hp)
  rw [← hstored.agrees_iff]
  exact ⟨fun h => hq.agrees h hsha, hq.admitted⟩

/-! ## One wall at both gates -/

/-- A payload with a line break after its fingerprint, as a file holds one. -/
def RunPayload.withBreak (p : RunPayload) : RunPayload :=
  { p with approvedIntentFingerprint := p.approvedIntentFingerprint.push '\n' }

variable {text : String}

lemma strip_withBreak (h : p.approvedIntentFingerprint = Sha256.hexdigest text) :
    Text.strip p.withBreak.approvedIntentFingerprint = p.approvedIntentFingerprint := by
  rw [RunPayload.withBreak, h]
  exact Text.strip_push (hexdigest_no_space _) (hexdigest_ne_empty _) (by decide)

/-- The contract strips the fingerprint, so it does not see the line break. -/
lemma Validated.withBreak (h : Validated b p)
    (hdigest : p.approvedIntentFingerprint = Sha256.hexdigest text) : Validated b p.withBreak := by
  refine ⟨h.version, h.jobId, h.geometry, h.patches, checkIntentFingerprint_eq_ok.mpr ?_⟩
  have hfingerprint := checkIntentFingerprint_eq_ok.mp h.fingerprint
  rw [hdigest, strip_hexdigest, if_neg (hexdigest_ne_empty _)] at hfingerprint
  rw [strip_withBreak hdigest, hdigest, if_neg (hexdigest_ne_empty _)]
  exact hfingerprint

/-- The admission compares it as it is. -/
lemma Validated.not_admitted_withBreak (h : Validated b p)
    (hdigest : p.approvedIntentFingerprint = Sha256.hexdigest text) : ¬ Admitted b p.withBreak := by
  intro hadmitted
  have hstrip := (h.withBreak hdigest).strip_of_admitted hadmitted
  rw [strip_withBreak hdigest] at hstrip
  have hlength := congrArg (fun s => s.toList.length) hstrip
  simp [RunPayload.withBreak] at hlength

lemma wall_digest : ∃ text,
    ((wallPayload .metre).fingerprinted plainBuiltins).approvedIntentFingerprint =
      Sha256.hexdigest text := by
  obtain ⟨c, hc⟩ := recomputedIntent_ok (b := plainBuiltins) (p := wallPayload .metre)
    (by decide +kernel) (by decide)
  have hdigest : recomputeIntentFingerprint plainBuiltins (wallPayload .metre) =
      .ok (AdmissionToken.fingerprint c) := recomputeIntentFingerprint_eq_ok.mpr ⟨c, hc, rfl⟩
  refine ⟨c.dumps, ?_⟩
  rw [fingerprint_wall, hdigest]
  rfl

/-- The gates do not agree on every accepted payload: only one of them strips the fingerprint. -/
theorem gates_disagree : ¬ ∀ (b : Builtins) (p q : RunPayload), validate b p = .ok () → Stored p q →
    Admitted b q := by
  intro h
  obtain ⟨text, hdigest⟩ := wall_digest
  have hwall := validate_eq_ok.mp (validate_wall .metre)
  refine hwall.not_admitted_withBreak hdigest (h plainBuiltins _ _ ?_ (.refl _))
  exact validate_eq_ok.mpr (hwall.withBreak hdigest)

/-- The wall without the line break is admitted as its condition says. -/
theorem gates_agree_iff_wall :
    Admitted plainBuiltins ((wallPayload .metre).fingerprinted plainBuiltins) ↔
      Agrees ((wallPayload .metre).fingerprinted plainBuiltins) := by
  refine gates_agree_iff (validate_wall .metre) (.refl _) ?_
  intro a c d ha hc hd _
  obtain ⟨source, interpretation, fidelity, hsource, -, hfidelity, rfl⟩ :=
    ApprovedRequest.ofPayload_eq_ok.mp ha
  obtain ⟨sourceRef, record, hsourceRef, hrecord, rfl⟩ := recomputedIntent_eq_ok.mp hc
  obtain rfl := Except.ok.inj (hsource.symm.trans hsourceRef)
  obtain rfl := Except.ok.inj (hfidelity.symm.trans (runFidelity_of_record hrecord))
  rw [recomputedIntent_payload (consistent_of_fidelityRecord hrecord)] at hd
  obtain rfl := Except.ok.inj hd
  have hwords : SameWords ((wallPayload .metre).fingerprinted plainBuiltins) :=
    ⟨rfl, fun axis haxis => absurd haxis (Option.not_mem_none axis)⟩
  exact JsonTree.dumps_inj.mpr hwords.alike.sorted

end MeshPipeline
