import MeshPipeline.Artifact.UploadWorld

/-!
# A row and its object

A row names its object by key and checksum, and so does a delivery from its upload on until its
transaction ends. While no other delivery stores different bytes under a named key, and none deletes
one, every ready row's object is there and is the one recorded.
-/

namespace MeshPipeline

open ArtifactRepository ArtifactUploader

/-! ## Who names an object -/

/-- The object that a call has stored and not given up. -/
def UploadPhase.object : UploadPhase → Option StoredObject
  | .stored object | .refused object => some object
  | .planned | .losing | .raised => none

/-- The row names the object, as it is committed or as its open transaction wrote it. -/
def ArtifactRow.Names (row : ArtifactRow) (key : String) (checksum : Option String) : Prop :=
  ∃ a : Artifact, (row.committed = some a ∨ row.tx.map (·.row) = some a) ∧
    a.storageKey = key ∧ a.checksum = checksum

namespace ArtifactRow

variable {r r' : ArtifactRow} {s : Session} {mine : Artifact} {key : String}
  {checksum : Option String}

theorem names_upsert (h : r.step (.upsert s mine) = some r') (hnames : r'.Names key checksum) :
    r.Names key checksum ∨ mine.storageKey = key ∧ mine.checksum = checksum := by
  obtain ⟨a, ha, hkey, hsum⟩ := hnames
  simp only [step] at h
  split at h
  · cases hrow : upsert (r.visible s) mine with
    | some row =>
      obtain rfl : r.written s row mine = r' := by simpa [hrow] using h
      obtain ha | ha := ha
      · exact .inl ⟨a, .inl ha, hkey, hsum⟩
      · obtain rfl : row = a := by simpa [written] using ha
        exact .inr (written_eq hrow ▸ ⟨hkey, hsum⟩)
    | none =>
      obtain rfl : r.refused s mine = r' := by simpa [hrow] using h
      refine .inl ⟨a, ?_, hkey, hsum⟩
      unfold refused at ha
      split at ha
      · next tx hw =>
        have htx : r.tx = some tx := by
          simp only [writeOf, Option.filter_eq_some_iff] at hw
          exact hw.1
        simpa [htx] using ha
      · exact ha
  · cases h

theorem names_classify (h : r.step (.classify s) = some r') (hnames : r'.Names key checksum) :
    r.Names key checksum := by
  simp only [step] at h
  split at h <;> cases h
  exact hnames

theorem names_commit (hnames : (r.commit s).Names key checksum) : r.Names key checksum := by
  obtain ⟨a, ha, hkey, hsum⟩ := hnames
  refine ⟨a, ?_, hkey, hsum⟩
  unfold commit at ha
  split at ha
  · next tx hw =>
    have htx : r.tx = some tx := by
      simp only [writeOf, Option.filter_eq_some_iff] at hw
      exact hw.1
    right
    simpa [htx] using ha
  · exact ha

theorem names_abandon (hnames : (r.abandon s).Names key checksum) : r.Names key checksum := by
  obtain ⟨a, ha, hkey, hsum⟩ := hnames
  refine ⟨a, ?_, hkey, hsum⟩
  simp only [abandon, rollback] at ha
  split at ha
  · left
    simpa using ha
  · exact ha

end ArtifactRow

namespace UploadWorld

/-- A row or a delivery under way names the object, with the checksum it records. -/
def Names (w : UploadWorld) (key : String) (checksum : Option String) : Prop :=
  (∃ k, (w.rows k).Names key checksum) ∨
    ∃ s c object, w.calls s = some c ∧ c.phase.object = some object ∧
      object.objectKey = key ∧ object.checksum = checksum

/-- What the step writes to the object store; `none` as content is a delete. -/
def writes (w : UploadWorld) : UploadOp → Option (String × Option Content)
  | .upload s result =>
    match w.calls s with
    | some c => match c.phase, c.plan with
      | .planned, p :: _ =>
        if p.source.isNone then none else match result with
          | .failed => none
          | .lost held | .acknowledged held _ => some (p.objectKey, some held)
      | _, _ => none
    | none => none
  | .discard s true =>
    match w.calls s with
    | some c => match c.phase, c.plan with
      | .losing, p :: _ => some (p.objectKey, none)
      | _, _ => none
    | none => none
  | _ => none

/-- The condition: no upload stores other bytes under an object key that is named, and no cleanup
deletes one. -/
def SparesNamed (w : UploadWorld) (op : UploadOp) : Prop :=
  ∀ key content, w.writes op = some (key, content) → (∃ checksum, w.Names key checksum) →
    content.isSome ∧ w.objects key = content

/-- The property: every ready row's object is there and has the checksum the row records. -/
def Agrees (d : Digests) (w : UploadWorld) : Prop :=
  ∀ k row, (w.rows k).committed = some row →
    ∃ content, w.objects row.storageKey = some content ∧ Records d content row.checksum

/-- The property: the step neither alters nor deletes an object that a ready row points to. -/
def SparesReady (d : Digests) (w : UploadWorld) (op : UploadOp) : Prop :=
  ∀ v, step d w op = some v → ∀ k row, (w.rows k).committed = some row →
    v.objects row.storageKey = w.objects row.storageKey

variable {d : Digests} {w v : UploadWorld} {op : UploadOp} {s : Session} {c : UploadCall}
  {p : Planned} {rest : List Planned} {key : String} {checksum : Option String}

/-! ## What a step does to the names and to the store -/

theorem names_setCall {c' : UploadCall} (h : (w.setCall s c').Names key checksum) :
    w.Names key checksum ∨ ∃ object, c'.phase.object = some object ∧ object.objectKey = key ∧
      object.checksum = checksum := by
  obtain hrow | ⟨s', c, object, hc, hobject, hkey, hsum⟩ := h
  · exact .inl (.inl hrow)
  · by_cases hs : s' = s
    · subst hs
      obtain rfl : c' = c := by simpa [setCall] using hc
      exact .inr ⟨object, hobject, hkey, hsum⟩
    · refine .inl (.inr ⟨s', c, object, ?_, hobject, hkey, hsum⟩)
      simpa [setCall, Function.update_of_ne hs] using hc

theorem phase_fail (c : UploadCall) (p : Planned) (rest : List Planned) :
    (c.fail p rest).phase.object = none := by
  unfold UploadCall.fail
  split <;> rfl

theorem names_setCall_fail (h : (w.setCall s (c.fail p rest)).Names key checksum) :
    w.Names key checksum := by
  obtain h | ⟨object, hobject, -⟩ := names_setCall h
  · exact h
  · simp [phase_fail] at hobject

theorem names_setRow {logicalKey : String} {row' : ArtifactRow}
    (h : (w.setRow logicalKey row').Names key checksum) :
    w.Names key checksum ∨ row'.Names key checksum := by
  obtain ⟨k, hk⟩ | hcall := h
  · by_cases hlogical : k = logicalKey
    · subst hlogical
      exact .inr (by simpa [setRow] using hk)
    · refine .inl (.inl ⟨k, ?_⟩)
      simpa [setRow, Function.update_of_ne hlogical] using hk
  · exact .inl (.inr hcall)

theorem names_endCall {ends : ArtifactRow → ArtifactRow}
    (hends : ∀ r, (ends r).Names key checksum → r.Names key checksum)
    (h : (w.endCall s ends).Names key checksum) : w.Names key checksum := by
  obtain ⟨k, hk⟩ | ⟨s', c, object, hc, hobject⟩ := h
  · exact .inl ⟨k, hends _ hk⟩
  · refine .inr ⟨s', c, object, ?_, hobject⟩
    by_cases hs : s' = s
    · simp [endCall, hs] at hc
    · simpa [endCall, Function.update_of_ne hs] using hc


/-- The store after a step's write. -/
def stored (objects : String → Option Content) (write : Option (String × Option Content)) :
    String → Option Content :=
  match write with
  | some (key, content) => Function.update objects key content
  | none => objects

theorem step_upload {result : UploadResult} (h : step d w (.upload s result) = some v) :
    ∃ c p rest, w.calls s = some c ∧ c.phase = .planned ∧ c.plan = p :: rest ∧
      w.upload d s c p rest result = some v := by
  simp only [step] at h
  cases hc : w.calls s with
  | none => simp [hc] at h
  | some c =>
    simp only [hc] at h
    split at h
    · next p rest hphase hplan => exact ⟨c, p, rest, rfl, hphase, hplan, h⟩
    · cases h

theorem step_register {raises : Bool} (h : step d w (.register s raises) = some v) :
    ∃ c p rest object, w.calls s = some c ∧ c.phase = .stored object ∧ c.plan = p :: rest ∧
      w.register s c p rest object raises = some v := by
  simp only [step] at h
  cases hc : w.calls s with
  | none => simp [hc] at h
  | some c =>
    simp only [hc] at h
    split at h
    · next object p rest hphase hplan => exact ⟨c, p, rest, object, rfl, hphase, hplan, h⟩
    · cases h

theorem step_classify (h : step d w (.classify s) = some v) :
    ∃ c p rest object, w.calls s = some c ∧ c.phase = .refused object ∧ c.plan = p :: rest ∧
      w.classify s c p rest object = some v := by
  simp only [step] at h
  cases hc : w.calls s with
  | none => simp [hc] at h
  | some c =>
    simp only [hc] at h
    split at h
    · next object p rest hphase hplan => exact ⟨c, p, rest, object, rfl, hphase, hplan, h⟩
    · cases h

theorem step_discard {deletes : Bool} (h : step d w (.discard s deletes) = some v) :
    ∃ c p rest, w.calls s = some c ∧ c.phase = .losing ∧ c.plan = p :: rest ∧
      w.discard s c p rest deletes = v := by
  simp only [step] at h
  cases hc : w.calls s with
  | none => simp [hc] at h
  | some c =>
    simp only [hc] at h
    split at h
    · next p rest hphase hplan => exact ⟨c, p, rest, rfl, hphase, hplan, Option.some.inj h⟩
    · cases h

theorem step_commit (h : step d w (.commit s) = some v) :
    ∃ c, w.calls s = some c ∧ c.phase = .planned ∧ c.plan = [] ∧
      w.endCall s (fun row => row.commit s) = v := by
  simp only [step] at h
  cases hc : w.calls s with
  | none => simp [hc] at h
  | some c =>
    simp only [hc] at h
    split at h
    · next hphase hplan => exact ⟨c, rfl, hphase, hplan, Option.some.inj h⟩
    · cases h

/-- What an upload leaves in the store, and the object it goes on with when it is intact. -/
theorem upload_cases {result : UploadResult} (hc : w.calls s = some c) (hphase : c.phase = .planned)
    (hplan : c.plan = p :: rest) (h : w.upload d s c p rest result = some v) :
    v.objects = stored w.objects (w.writes (.upload s result)) ∧
      ∀ key checksum, v.Names key checksum → w.Names key checksum ∨
        ∃ content, w.writes (.upload s result) = some (key, some content) ∧
          Records d content checksum := by
  simp only [upload] at h
  cases hsource : p.source with
  | none =>
    simp only [hsource, Option.some.injEq] at h
    subst h
    refine ⟨by simp [writes, stored, setCall, hc, hphase, hplan, hsource], ?_⟩
    exact fun _ _ hnames => .inl (names_setCall_fail hnames)
  | some source =>
    simp only [hsource] at h
    cases result with
    | failed =>
      simp only [Option.some.injEq] at h
      subst h
      refine ⟨by simp [writes, stored, setCall, hc, hphase, hplan, hsource], ?_⟩
      exact fun _ _ hnames => .inl (names_setCall_fail hnames)
    | lost held =>
      simp only [Option.some.injEq] at h
      subst h
      refine ⟨by simp [writes, stored, setCall, setObject, hc, hphase, hplan, hsource], ?_⟩
      exact fun _ _ hnames => .inl (names_setCall_fail hnames)
    | acknowledged held readBack =>
      simp only [Option.ite_none_right_eq_some, Option.some.injEq] at h
      obtain ⟨hack, rfl⟩ := h
      have hwrites : w.writes (.upload s (.acknowledged held readBack)) =
          some (p.objectKey, some held) := by simp [writes, hc, hphase, hplan, hsource]
      refine ⟨by rw [hwrites]; rfl, ?_⟩
      intro key checksum hnames
      obtain hnames | ⟨object, hobject, hkey, hsum⟩ := names_setCall hnames
      · exact .inl hnames
      · -- the only name the step can add is that of the object it stored and checked
        right
        by_cases hintact : intact d p (reported d p source held) source held readBack
        · obtain rfl : reported d p source held = object := by
            simpa [hintact, UploadPhase.object] using hobject
          refine ⟨held, ?_, hsum ▸ records_reported hack hintact⟩
          rw [hwrites, ← hkey, reported_objectKey]
        · simp [hintact, UploadPhase.object] at hobject

theorem names_register {raises : Bool} {object : StoredObject} (hc : w.calls s = some c)
    (hphase : c.phase = .stored object) (h : w.register s c p rest object raises = some v)
    (hnames : v.Names key checksum) : w.Names key checksum := by
  have hown : ∀ {key checksum}, object.objectKey = key → object.checksum = checksum →
      w.Names key checksum := fun hkey hsum =>
    .inr ⟨s, c, object, hc, by rw [hphase]; rfl, hkey, hsum⟩
  simp only [register] at h
  split at h
  · cases h
    obtain hnames | ⟨_, hobject, -⟩ := names_setCall hnames
    · exact hnames
    · cases hobject
  · obtain ⟨row', hrow, rfl⟩ := Option.map_eq_some_iff.mp h
    obtain hnames | ⟨object', hobject, hkey, hsum⟩ := names_setCall hnames
    · obtain hnames | hnames := names_setRow hnames
      · exact hnames
      · obtain hnames | ⟨hkey, hsum⟩ := ArtifactRow.names_upsert hrow hnames
        · exact .inl ⟨p.logicalKey, hnames⟩
        · exact hown hkey hsum
    · split at hobject
      · cases hobject
      · cases hobject
        exact hown hkey hsum

theorem names_classify {object : StoredObject} (h : w.classify s c p rest object = some v)
    (hnames : v.Names key checksum) : w.Names key checksum := by
  obtain ⟨row', hrow, rfl⟩ := Option.map_eq_some_iff.mp h
  obtain hnames | ⟨_, hobject, -⟩ := names_setCall hnames
  · obtain hnames | hnames := names_setRow hnames
    · exact hnames
    · exact .inl ⟨p.logicalKey, ArtifactRow.names_classify hrow hnames⟩
  · split at hobject <;> cases hobject

theorem names_discard {deletes : Bool} (h : (w.discard s c p rest deletes).Names key checksum) :
    w.Names key checksum := by
  unfold discard at h
  split at h
  · exact names_setCall_fail h
  · exact names_setCall_fail h

/-- The store changes by the write of the step, and a step names no object but one it stored. -/
theorem step_spec (h : step d w op = some v) :
    v.objects = stored w.objects (w.writes op) ∧
      ∀ key checksum, v.Names key checksum → w.Names key checksum ∨
        ∃ content, w.writes op = some (key, some content) ∧ Records d content checksum := by
  cases op with
  | begin s attempt generation plan =>
    simp only [step, Option.ite_none_right_eq_some, Option.some.injEq] at h
    obtain ⟨-, rfl⟩ := h
    refine ⟨rfl, fun key checksum hnames => .inl ?_⟩
    obtain hnames | ⟨_, hobject, -⟩ := names_setCall hnames
    · exact hnames
    · unfold UploadCall.start at hobject
      split at hobject <;> cases hobject
  | upload s result =>
    obtain ⟨c, p, rest, hc, hphase, hplan, hupload⟩ := step_upload h
    exact upload_cases hc hphase hplan hupload
  | register s raises =>
    obtain ⟨c, p, rest, object, hc, hphase, -, hregister⟩ := step_register h
    refine ⟨?_, fun _ _ hnames => .inl (names_register hc hphase hregister hnames)⟩
    simp only [register] at hregister
    split at hregister
    · cases hregister
      rfl
    · obtain ⟨_, -, rfl⟩ := Option.map_eq_some_iff.mp hregister
      rfl
  | classify s =>
    obtain ⟨c, p, rest, object, -, -, -, hclassify⟩ := step_classify h
    refine ⟨?_, fun _ _ hnames => .inl (names_classify hclassify hnames)⟩
    obtain ⟨_, -, rfl⟩ := Option.map_eq_some_iff.mp hclassify
    rfl
  | discard s deletes =>
    obtain ⟨c, p, rest, hc, hphase, hplan, rfl⟩ := step_discard h
    refine ⟨?_, fun _ _ hnames => .inl (names_discard hnames)⟩
    cases deletes with
    | false => rfl
    | true => simp [discard, writes, stored, setCall, setObject, hc, hphase, hplan]
  | commit s =>
    obtain ⟨c, -, -, -, rfl⟩ := step_commit h
    exact ⟨rfl, fun _ _ hnames => .inl (names_endCall (fun _ => ArtifactRow.names_commit) hnames)⟩
  | abandon s =>
    simp only [step, Option.ite_none_right_eq_some, Option.some.injEq] at h
    obtain ⟨-, rfl⟩ := h
    exact ⟨rfl, fun _ _ hnames => .inl (names_endCall (fun _ => ArtifactRow.names_abandon) hnames)⟩

/-! ## Every run -/

/-- Every named object is there, with the checksum under which it is named. -/
def Backed (d : Digests) (w : UploadWorld) : Prop :=
  ∀ key checksum, w.Names key checksum →
    ∃ content, w.objects key = some content ∧ Records d content checksum

theorem objects_of_sparesNamed (hspares : w.SparesNamed op) (h : step d w op = some v)
    (hnames : w.Names key checksum) : v.objects key = w.objects key := by
  rw [(step_spec h).1]
  cases hwrites : w.writes op with
  | none => rfl
  | some write =>
    obtain ⟨key', content⟩ := write
    by_cases hkey : key = key'
    · subst hkey
      simpa [stored] using (hspares key content hwrites ⟨checksum, hnames⟩).2.symm
    · simp [stored, Function.update_of_ne hkey]

theorem backed_step (h : Backed d w) (hspares : w.SparesNamed op)
    (hstep : (machine d).step w op = some v) : Backed d v := by
  intro key checksum hnames
  obtain ⟨hobjects, hnew⟩ := step_spec hstep
  obtain hold | ⟨content, hwrites, hrecords⟩ := hnew key checksum hnames
  · rw [objects_of_sparesNamed hspares hstep hold]
    exact h key checksum hold
  · refine ⟨content, ?_, hrecords⟩
    rw [hobjects, hwrites]
    exact Function.update_self key (some content) w.objects

theorem backed_empty : Backed d empty := by
  rintro key checksum (⟨k, a, ha, -⟩ | ⟨s, c, object, hc, -⟩)
  · obtain ha | ha := ha <;> cases ha
  · cases hc

theorem Backed.agrees (h : Backed d w) : Agrees d w :=
  fun k row hrow => h row.storageKey row.checksum (.inl ⟨k, row, .inl hrow, rfl, rfl⟩)

theorem sparesReady_of_sparesNamed (hspares : w.SparesNamed op) : SparesReady d w op :=
  fun _ hstep k row hrow =>
    objects_of_sparesNamed hspares hstep (.inl ⟨k, row, .inl hrow, rfl, rfl⟩)

/-- In every run of deliveries that leaves named objects alone, every ready row agrees with its
object and no step alters or deletes the object of a ready row. -/
theorem row_and_object_agree (d : Digests) {ops : List UploadOp} {w : UploadWorld}
    (hspares : (machine d).Meets SparesNamed empty ops)
    (h : (machine d).exec empty ops = some w) :
    Agrees d w ∧ (machine d).Meets (SparesReady d) empty ops :=
  ⟨(Transition.Machine.exec_invariant (I := Backed d) (fun _ _ _ => backed_step) backed_empty
      hspares h).agrees,
    Transition.Machine.meets_mono (fun _ _ => sparesReady_of_sparesNamed) hspares⟩

/-- The digests of the two bundles below. -/
def sampleDigests : Digests :=
  let md5 (content : Content) : String :=
    if content = "case-1" then "c1659a27528573a105244296a480c759"
    else "5fc5c974a631fd489aae5744156c7cdd"
  ⟨fun content => some (md5 content), md5⟩

/-- The plan of an FEA result whose 3D view could not be built. -/
def samplePlan (bundle : Content) : List Planned :=
  buildPlan "7"
    ⟨none, [], ⟨none, false, none⟩, false, "gmsh_case.tar.gz", ⟨some bundle, false, none⟩⟩

/-- The two steps up to the store's acknowledgement of the bundle. -/
def uploads (s : Session) (generation : Nat) (bundle : Content) : List UploadOp :=
  [.begin s 0 generation (samplePlan bundle), .upload s .failed,
    .upload s (.acknowledged bundle true)]

def delivers (s : Session) (generation : Nat) (bundle : Content) : List UploadOp :=
  uploads s generation bundle ++ [.register s false, .commit s]

theorem not_names_of_idle (hrows : ∀ k, w.rows k = .empty)
    (hcalls : ∀ s c, w.calls s = some c → c.phase.object = none) : ¬ w.Names key checksum := by
  rintro (⟨k, a, ha, -⟩ | ⟨s, c, object, hc, hobject, -⟩)
  · rw [hrows k] at ha
    obtain ha | ha := ha <;> cases ha
  · rw [hcalls s c hc] at hobject
    cases hobject

theorem sparesNamed_of_idle (hrows : ∀ k, w.rows k = .empty)
    (hcalls : ∀ s c, w.calls s = some c → c.phase.object = none) : w.SparesNamed op :=
  fun _ _ _ ⟨_, hnames⟩ => absurd hnames (not_names_of_idle hrows hcalls)

theorem sparesNamed_delivers :
    (machine sampleDigests).Meets SparesNamed empty (delivers 0 2 "case-2") := by
  refine ⟨sparesNamed_of_idle (fun _ => rfl) (by rintro _ _ ⟨⟩), ?_⟩
  rintro _ ⟨⟩
  refine ⟨by rintro _ _ ⟨⟩, ?_⟩
  rintro _ ⟨⟩
  refine ⟨sparesNamed_of_idle (fun _ => rfl) ?_, ?_⟩
  · intro s c hc
    by_cases hs : s = 0
    · subst hs
      cases hc
      rfl
    · simp [empty, setCall, Function.update_of_ne hs] at hc
  · rintro _ ⟨⟩
    refine ⟨by rintro _ _ ⟨⟩, ?_⟩
    rintro _ ⟨⟩
    exact ⟨by rintro _ _ ⟨⟩, fun _ _ => trivial⟩

theorem row_and_object_agree_delivered :
    ∃ w, (machine sampleDigests).exec empty (delivers 0 2 "case-2") = some w ∧
      Agrees sampleDigests w ∧
      (machine sampleDigests).Meets (SparesReady sampleDigests) empty (delivers 0 2 "case-2") := by
  have hruns : ((machine sampleDigests).exec empty (delivers 0 2 "case-2")).isSome := by
    decide +kernel
  obtain ⟨w, hw⟩ := Option.isSome_iff_exists.mp hruns
  exact ⟨w, hw, row_and_object_agree sampleDigests sparesNamed_delivers hw⟩

/-- A worker of a stale generation stores its bundle over the incumbent's, is told superseded, and
leaves a ready row that records other bytes. -/
theorem stale_delivery_overwrites :
    ∃ w, (machine sampleDigests).exec empty
        (delivers 0 2 "case-2" ++ uploads 1 1 "case-1" ++
          [.register 1 false, .classify 1, .commit 1]) = some w ∧ ¬ Agrees sampleDigests w := by
  have hrun : ((machine sampleDigests).exec empty
      (delivers 0 2 "case-2" ++ uploads 1 1 "case-1" ++
        [.register 1 false, .classify 1, .commit 1])).map (fun w =>
          (w.objects "jobs/7/gmsh_case.tar.gz", (w.rows "mesh_bundle").committed)) =
      some (some "case-1", some ⟨.meshBundle, "jobs/7/gmsh_case.tar.gz", 6,
        some "5fc5c974a631fd489aae5744156c7cdd", 0, 2⟩) := by
    decide +kernel
  obtain ⟨w, hw, heq⟩ := Option.map_eq_some_iff.mp hrun
  obtain ⟨hobject, hrow⟩ := Prod.mk.inj heq
  refine ⟨w, hw, fun hagrees => ?_⟩
  obtain ⟨content, hcontent, hrecords⟩ := hagrees "mesh_bundle" _ hrow
  obtain rfl : "case-1" = content := Option.some.inj (hobject.symm.trans hcontent)
  exact absurd hrecords (by decide)

end UploadWorld

end MeshPipeline
