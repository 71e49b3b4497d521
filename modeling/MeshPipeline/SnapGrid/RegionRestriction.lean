import MeshPipeline.SnapGrid.WriteRegions

/-!
# Splitting into regions loses nothing

The slices of the sorted arrays are the faces that a region holds by the whole mesh, in its order,
and the sizes that are counted for the patches are those of the slices.
-/

namespace MeshPipeline.SnapGrid

open Buckets CompactList

/-! ## Gathered loops -/

/-- A value for each row, repeated along it, meets the rows one by one. -/
lemma zipWith_repeatEach_map {ε α β γ : Type*} (f : α → β → γ) (es : List ε) (a : ε → α) (n : ε → ℕ)
    (block : ε → List β) (h : ∀ e ∈ es, (block e).length = n e) :
    List.zipWith f (repeatEach (es.map a) (es.map n)) (es.flatMap block) =
      es.flatMap fun e => (block e).map (f (a e)) := by
  have hsizes : es.map n = (es.map block).map List.length := by
    rw [List.map_map]
    exact List.map_congr_left fun e he => (h e he).symm
  have hlength : (es.map a).length = (es.map block).length := by simp
  have hrows := zipWith_repeatEach f hlength
  rw [hsizes, List.flatMap_def, hrows, List.flatMap_def]
  simp [List.zipWith_map]

/-- The places of a loop that is turned round. -/
lemma map_range_flip (l : List ℕ) :
    (List.range l.length).map (fun k => l.getD ((l.length - k) % l.length) 0) = flipLoop l := by
  cases l with
  | nil => rfl
  | cons p ps =>
    apply List.ext_getElem
    · simp [flipLoop]
    · intro i hi _
      rw [List.getElem_map, List.getElem_range]
      cases i with
      | zero => simp [flipLoop]
      | succ i =>
        simp only [List.length_map, List.length_range, List.length_cons] at hi
        have hmod : (ps.length + 1 - (i + 1)) % (ps.length + 1) = ps.length - 1 - i + 1 := by
          rw [Nat.mod_eq_of_lt (by omega)]
          omega
        simp only [List.length_cons, hmod, List.getD_cons_succ, flipLoop, List.getElem_cons_succ,
          List.getElem_reverse]
        exact List.getD_eq_getElem _ _ (by omega)

lemma map_range_getD (l : List ℕ) : (List.range l.length).map (l.getD · 0) = l := by
  apply List.ext_getElem
  · simp
  · intro i _ hi
    simp [hi]

variable {off flat : List ℕ} {rows : List (List ℕ)} {ε : Type*}

/-- Where the point at a place of a loop is taken from. -/
def turn (b : Bool) (n k : ℕ) : ℕ := if b then (n - k) % n else k

lemma turn_false (n : ℕ) : turn false n = id := rfl

lemma turn_lt {b : Bool} {n k : ℕ} (h : k < n) : turn b n k < n := by
  unfold turn
  split
  · exact Nat.mod_lt _ (by omega)
  · exact h

/-- The gathered arrays, face by face. -/
lemma gatherLoops_eq (off flat : List ℕ) (es : List ε) (face : ε → ℕ) (flip : ε → Bool) :
    gatherLoops off flat (es.map face) (some (es.map flip)) =
      (offsets (es.map fun e => off.getD (face e + 1) 0 - off.getD (face e) 0),
        es.flatMap fun e =>
          (List.range (off.getD (face e + 1) 0 - off.getD (face e) 0)).map fun k =>
            flat.getD (off.getD (face e) 0 +
              turn (flip e) (off.getD (face e + 1) 0 - off.getD (face e) 0) k) 0) := by
  set size : ε → ℕ := fun e => off.getD (face e + 1) 0 - off.getD (face e) 0 with hsize
  have hsizes : (es.map face).map (fun f => off.getD (f + 1) 0 - off.getD f 0) = es.map size := by
    simp [hsize]
  have hpos : List.zipWith (fun k o => k - o) (List.range ((offsets (es.map size)).getLastD 0))
      (repeatEach (offsets (es.map size)).dropLast (es.map size)) =
        es.flatMap fun e => List.range (size e) := by
    rw [offsets, getLastD_offsetsFrom, Nat.zero_add, List.range_eq_range', places_eq,
      List.flatMap_def, List.map_map]
    rfl
  have hturned : (if (es.map flip).any id then
        List.zipWith (fun p pos => if p.1 then (p.2 - pos) % p.2 else pos)
          (repeatEach ((es.map flip).zip (es.map size)) (es.map size))
          (es.flatMap fun e => List.range (size e))
      else es.flatMap fun e => List.range (size e)) =
        es.flatMap fun e => (List.range (size e)).map (turn (flip e) (size e)) := by
    split
    · rw [List.zip_map', zipWith_repeatEach_map _ es _ size _ fun e _ => List.length_range]
      rfl
    · next hnone =>
      refine List.flatMap_congr fun e he => ?_
      have hkept : flip e = false := by
        by_contra hflip
        exact hnone (by simpa using ⟨e, he, by simpa using hflip⟩)
      simp [turn_false, hkept]
  have hidx := zipWith_repeatEach_map (· + ·) es (fun e => off.getD (face e) 0) size
    (fun e => (List.range (size e)).map (turn (flip e) (size e))) fun e _ => by simp
  simp only [gatherLoops, hsizes, hpos, hturned, List.map_map, Function.comp_def, hidx,
    List.map_flatMap]
  simp only [hsize]

/-- The loops of some faces, each turned round where its flag says so. -/
theorem isCompact_gatherLoops (h : IsCompact off flat rows) (es : List ε) (face : ε → ℕ)
    (flip : ε → Bool) (hfaces : ∀ e ∈ es, face e < rows.length) :
    IsCompact (gatherLoops off flat (es.map face) (some (es.map flip))).1
      (gatherLoops off flat (es.map face) (some (es.map flip))).2
      (es.map fun e =>
        if flip e then flipLoop (rows.getD (face e) []) else rows.getD (face e) []) := by
  have hrow : ∀ e ∈ es, (List.range (off.getD (face e + 1) 0 - off.getD (face e) 0)).map
      (fun k => flat.getD (off.getD (face e) 0 +
        turn (flip e) (off.getD (face e + 1) 0 - off.getD (face e) 0) k) 0) =
        if flip e then flipLoop (rows.getD (face e) []) else rows.getD (face e) [] := by
    intro e he
    have hf := hfaces e he
    rw [h.getD_off_succ hf, Nat.add_sub_cancel_left, List.getD_eq_getElem _ _ hf]
    have hread : (List.range rows[face e].length).map (fun k => flat.getD (off.getD (face e) 0 +
        turn (flip e) rows[face e].length k) 0) =
          (List.range rows[face e].length).map fun k =>
            rows[face e].getD (turn (flip e) rows[face e].length k) 0 := by
      refine List.map_congr_left fun k hk => h.getD_flat hf (turn_lt ?_) 0
      exact List.mem_range.mp hk
    rw [hread]
    cases flip e with
    | true => simpa [turn] using map_range_flip rows[face e]
    | false => simpa [turn] using map_range_getD rows[face e]
  rw [gatherLoops_eq]
  constructor
  · simp only [List.map_map]
    congr 1
    refine List.map_congr_left fun e he => ?_
    simpa using congrArg List.length (hrow e he)
  · rw [List.flatMap_def]
    exact congrArg List.flatten (List.map_congr_left hrow)

lemma gatherLoops_none (off flat faces : List ℕ) :
    gatherLoops off flat faces none =
      gatherLoops off flat (faces.map id) (some (faces.map fun _ => false)) := by
  simp [gatherLoops]

lemma isCompact_gatherLoops_none (h : IsCompact off flat rows) (faces : List ℕ)
    (hfaces : ∀ f ∈ faces, f < rows.length) :
    IsCompact (gatherLoops off flat faces none).1 (gatherLoops off flat faces none).2
      (faces.map (rows.getD · [])) := by
  rw [gatherLoops_none]
  simpa using isCompact_gatherLoops h faces id (fun _ => false) hfaces

namespace RegionInput

variable {P : Type} (x : RegionInput P)

/-! ## What a region holds by the whole mesh -/

/-- The cells of a zone. -/
def cellsOf (r : ℕ) : List ℕ := (List.range x.topo.nCells).filter fun c => x.zone c = r

/-- The internal faces both of whose cells lie in the zone. -/
def internalOf (r : ℕ) : List ℕ :=
  (List.range x.topo.nInternal).filter fun f => x.ro f = r ∧ x.rn f = r

/-- The boundary faces of a patch whose owner lies in the zone. -/
def boundaryOf (r pid : ℕ) : List ℕ :=
  (List.range x.topo.bOwner.length).filter fun b => x.br b = r ∧ x.patchOf b = pid

/-- The faces of a tag between two zones. -/
def interfaceOf (r s : ℕ) (t : ℤ) : List ℕ :=
  (List.range x.topo.nInternal).filter fun f =>
    x.ro f ≠ x.rn f ∧ (x.ro f = r ∧ x.rn f = s ∨ x.ro f = s ∧ x.rn f = r) ∧ x.tag f = t

/-- The loop of an internal face, by the ids of its points. -/
def loopOf (f : ℕ) : List ℕ := x.pointIds (row x.topo.faceOff x.topo.facePts f)

def bLoopOf (b : ℕ) : List ℕ := x.pointIds (row x.topo.bOff x.topo.bPts b)

/-- An internal face as a zone of one of its cells has it: the cell there owns it, and the loop
points from the owner to the neighbour of the whole mesh, so it is turned round for the
neighbour's. -/
def outward (r f : ℕ) : ℕ × List ℕ :=
  if x.ro f = r then (x.localCell (x.topo.ownerOf f), x.loopOf f)
  else (x.localCell (x.topo.neighbourOf f), flipLoop (x.loopOf f))

def bOutward (b : ℕ) : ℕ × List ℕ := (x.localCell (x.topo.bOwnerOf b), x.bLoopOf b)

/-- The faces of a region as they are written, each with its owner and its loop in points of the
whole mesh. -/
def written (r : ℕ) : List (ℕ × List ℕ) :=
  let m := x.regionMesh r
  (List.range m.owner.length).map fun i =>
    (m.owner.getD i 0, (row m.off m.faces i).map fun p => (x.used r).getD p 0)

/-! ## The slices are the region's -/

/-- Strictly increasing lists of the same numbers are the same. -/
lemma eq_of_increasing {xs ys : List ℕ} (hx : xs.Pairwise (· < ·)) (hy : ys.Pairwise (· < ·))
    (h : ∀ a, a ∈ xs ↔ a ∈ ys) : xs = ys :=
  List.Pairwise.eq_of_mem_iff hx hy h

lemma increasing_filter (n : ℕ) (p : ℕ → Bool) : ((List.range n).filter p).Pairwise (· < ·) :=
  List.pairwise_lt_range.filter _

theorem fi_eq (r : ℕ) : x.fi r = x.internalOf r := by
  have hsame : x.same.Pairwise fun f g => x.ro f ≤ x.ro g := pairwise_sortBy x.ro _
  unfold fi sstart
  rw [slice_bucket hsame, same, filter_sortBy, List.filter_filter]
  refine List.filter_congr fun f _ => ?_
  grind

/-- The keys of the faces between regions order them by region first. -/
lemma r_le_of_key {a b : CrossFace} (h : a.key ≤ b.key) : a.r ≤ b.r := by
  simp only [CrossFace.key, Prod.Lex.toLex_le_toLex] at h
  omega

lemma pairwise_crossFaces : x.crossFaces.Pairwise fun a b => a.key ≤ b.key :=
  pairwise_sortBy CrossFace.key _

lemma mem_crossFaces {e : CrossFace} :
    e ∈ x.crossFaces ↔ e.f < x.topo.nInternal ∧ x.ro e.f ≠ x.rn e.f ∧ e.t = x.tag e.f ∧
      (e.flip = false ∧ e.r = x.ro e.f ∧ e.s = x.rn e.f ∨
        e.flip = true ∧ e.r = x.rn e.f ∧ e.s = x.ro e.f) := by
  rcases e with ⟨r, s, f, flip, t⟩
  simp only [crossFaces, mem_sortBy, List.mem_append, List.mem_map, cross, List.mem_filter,
    List.mem_range, CrossFace.mk.injEq]
  grind

lemma nodup_crossFaces : x.crossFaces.Nodup := by
  have hcross : x.cross.Nodup := List.nodup_range.filter _
  refine (perm_sortBy CrossFace.key _).nodup_iff.mpr ?_
  refine List.nodup_append.mpr ⟨?_, ?_, ?_⟩
  · exact hcross.map fun a b hab => by grind
  · exact hcross.map fun a b hab => by grind
  · intro a ha b hb
    grind

theorem fx_eq (r : ℕ) : x.fx r = x.crossFaces.filter (·.r = r) := by
  unfold fx estart
  exact slice_bucket (x.pairwise_crossFaces.imp r_le_of_key) r

lemma pairwise_bo : x.bo.Pairwise fun a b =>
    toLex (x.br a, toLex (x.patchOf a, a)) ≤ toLex (x.br b, toLex (x.patchOf b, b)) :=
  pairwise_sortBy _ _

theorem fb_eq (r : ℕ) : x.fb r = x.bo.filter (x.br · = r) := by
  unfold fb bstart
  refine slice_bucket (x.pairwise_bo.imp fun h => ?_) r
  simp only [Prod.Lex.toLex_le_toLex] at h
  omega

lemma mem_fx {r : ℕ} {e : CrossFace} :
    e ∈ x.fx r ↔ e.f < x.topo.nInternal ∧ x.ro e.f ≠ x.rn e.f ∧ e.r = r ∧ e.t = x.tag e.f ∧
      (e.flip = false ∧ r = x.ro e.f ∧ e.s = x.rn e.f ∨
        e.flip = true ∧ r = x.rn e.f ∧ e.s = x.ro e.f) := by
  rw [fx_eq, List.mem_filter, mem_crossFaces]
  grind

lemma mem_fb {r b : ℕ} : b ∈ x.fb r ↔ b < x.topo.bOwner.length ∧ x.br b = r := by
  simp [fb_eq, bo, x.chunkPatches_length]

/-- Within a region, the boundary faces are sorted by patch. -/
lemma pairwise_fb (r : ℕ) : (x.fb r).Pairwise fun a b => x.patchOf a ≤ x.patchOf b := by
  rw [fb_eq]
  refine (x.pairwise_bo.filter _).imp_of_mem fun {a b} ha hb h => ?_
  simp only [List.mem_filter, decide_eq_true_eq] at ha hb
  simp only [Prod.Lex.toLex_le_toLex] at h
  omega

/-- One patch of a region, in the order of the whole mesh. -/
theorem fb_filter (r pid : ℕ) : (x.fb r).filter (x.patchOf · = pid) = x.boundaryOf r pid := by
  refine eq_of_increasing ?_ (increasing_filter _ _) fun b => ?_
  · have hnodup : x.bo.Nodup := (perm_sortBy _ _).nodup_iff.mpr List.nodup_range
    rw [fb_eq, List.filter_filter]
    refine ((x.pairwise_bo.and hnodup).filter _).imp_of_mem fun {a b} ha hb h => ?_
    simp only [List.mem_filter, Bool.and_eq_true, decide_eq_true_eq] at ha hb
    simp only [Prod.Lex.toLex_le_toLex] at h
    omega
  · simp only [List.mem_filter, mem_fb, boundaryOf, List.mem_range, decide_eq_true_eq]
    grind

/-- Within a region, the faces that others share are sorted by the other region and the tag. -/
lemma pairwise_fx (r : ℕ) :
    (x.fx r).Pairwise fun a b => toLex (a.s, a.t) ≤ toLex (b.s, b.t) := by
  rw [fx_eq]
  refine (x.pairwise_crossFaces.filter _).imp_of_mem fun {a b} ha hb h => ?_
  simp only [List.mem_filter, decide_eq_true_eq] at ha hb
  simp only [CrossFace.key, Prod.Lex.toLex_le_toLex] at h ⊢
  omega

/-- One interface of a region, in the order of the whole mesh, which both regions share. -/
theorem fx_filter (r s : ℕ) (t : ℤ) :
    ((x.fx r).filter fun e => toLex (e.s, e.t) = toLex (s, t)).map (·.f) = x.interfaceOf r s t := by
  refine eq_of_increasing ?_ (increasing_filter _ _) fun f => ?_
  · rw [List.pairwise_map, fx_eq, List.filter_filter]
    refine ((x.pairwise_crossFaces.and x.nodup_crossFaces).filter _).imp_of_mem
      fun {a b} ha hb h => ?_
    simp only [List.mem_filter, Bool.and_eq_true, decide_eq_true_eq, mem_crossFaces,
      EmbeddingLike.apply_eq_iff_eq, Prod.mk.injEq] at ha hb
    simp only [CrossFace.key, Prod.Lex.toLex_le_toLex] at h
    have hle : a.f ≤ b.f := by omega
    refine lt_of_le_of_ne hle fun hf => h.2 ?_
    rcases a with ⟨r, s, f, flip, t⟩
    rcases b with ⟨r', s', f', flip', t'⟩
    grind
  · simp only [List.mem_map, List.mem_filter, mem_fx, interfaceOf, List.mem_range,
      decide_eq_true_eq, EmbeddingLike.apply_eq_iff_eq, Prod.mk.injEq]
    constructor
    · rintro ⟨e, ⟨he, hs, ht⟩, rfl⟩
      grind
    · rintro ⟨hf, hne, hsides, htag⟩
      refine ⟨⟨r, s, f, decide (x.ro f ≠ r), t⟩, ?_⟩
      grind

/-- The patches on the domain's sides that a region has. -/
def sides (r : ℕ) : List ℕ := unique ((x.fb r).map x.patchOf)

/-- The other regions and tags that a region has interfaces for. -/
def others (r : ℕ) : List (ℕ ×ₗ ℤ) := unique ((x.fx r).map fun e => toLex (e.s, e.t))

lemma pids_eq (r : ℕ) :
    x.pids r = (x.sides r).map fun p => (p, (x.boundaryOf r p).length) := by
  simp only [pids, uniqueCounts, sides, count_map, fb_filter]

lemma pairs_eq (r : ℕ) :
    x.pairs r =
      (x.others r).map fun k => (k, (x.interfaceOf r (ofLex k).1 (ofLex k).2).length) := by
  simp only [pairs, uniqueCounts, others, count_map]
  refine List.map_congr_left fun k _ => ?_
  rw [← fx_filter, List.length_map]
  rfl

lemma nodup_others (r : ℕ) : (x.others r).Nodup := nodup_unique _

lemma mem_sides {r p : ℕ} : p ∈ x.sides r ↔ x.boundaryOf r p ≠ [] := by
  rw [← fb_filter, sides, mem_unique, ne_eq, List.filter_eq_nil_iff]
  simp

lemma mem_others {r s : ℕ} {t : ℤ} : toLex (s, t) ∈ x.others r ↔ x.interfaceOf r s t ≠ [] := by
  rw [← fx_filter, others, mem_unique, ne_eq, List.map_eq_nil_iff, List.filter_eq_nil_iff]
  simp

/-! ## The faces as they are written -/

lemma isCompact_faces :
    IsCompact x.topo.faceOff (x.pointIds x.topo.facePts)
      ((List.range x.topo.nInternal).map x.loopOf) := by
  obtain ⟨loops, hlength, hloops⟩ := x.wellFormed.faces
  have hids := hloops.map (searchsorted x.keys)
  rw [hloops.rows_eq, hlength, List.map_map] at hids
  exact hids

lemma isCompact_bFaces :
    IsCompact x.topo.bOff (x.pointIds x.topo.bPts)
      ((List.range x.topo.bOwner.length).map x.bLoopOf) := by
  obtain ⟨loops, hlength, hloops⟩ := x.wellFormed.bFaces
  have hids := hloops.map (searchsorted x.keys)
  rw [hloops.rows_eq, hlength, List.map_map] at hids
  exact hids

/-- The faces of a region, slice by slice. -/
def facesOf (r : ℕ) : List (ℕ × List ℕ) :=
  (x.fi r).map (x.outward r) ++ (x.fb r).map x.bOutward ++ (x.fx r).map fun e => x.outward r e.f

lemma mem_fi {r f : ℕ} : f ∈ x.fi r ↔ f < x.topo.nInternal ∧ x.ro f = r ∧ x.rn f = r := by
  simp [fi_eq, internalOf]

lemma isCompact_regionLoops (r : ℕ) :
    IsCompact (x.regionLoops r).1 (x.regionLoops r).2 ((x.facesOf r).map (·.2)) := by
  have hi := isCompact_gatherLoops_none x.isCompact_faces (x.fi r) fun f hf => by
    simpa using (x.mem_fi.mp hf).1
  have hb := isCompact_gatherLoops_none x.isCompact_bFaces (x.fb r) fun b hb => by
    simpa using (x.mem_fb.mp hb).1
  have hx := isCompact_gatherLoops x.isCompact_faces (x.fx r) (·.f) (·.flip)
    fun e he => by simpa using (x.mem_fx.mp he).1
  have hrows : (x.fi r).map (((List.range x.topo.nInternal).map x.loopOf).getD · []) ++
      (x.fb r).map (((List.range x.topo.bOwner.length).map x.bLoopOf).getD · []) ++
      (x.fx r).map (fun e => if e.flip then
          flipLoop (((List.range x.topo.nInternal).map x.loopOf).getD e.f [])
        else ((List.range x.topo.nInternal).map x.loopOf).getD e.f []) =
      (x.facesOf r).map (·.2) := by
    simp only [facesOf, List.map_append, List.map_map]
    refine congrArg₂ (· ++ ·) (congrArg₂ (· ++ ·) ?_ ?_) ?_
    · refine List.map_congr_left fun f hf => ?_
      obtain ⟨hlt, hr, -⟩ := x.mem_fi.mp hf
      simp [outward, hr, hlt]
    · refine List.map_congr_left fun b hb => ?_
      obtain ⟨hlt, -⟩ := x.mem_fb.mp hb
      simp [bOutward, hlt]
    · refine List.map_congr_left fun e he => ?_
      obtain ⟨hlt, hne, -, -, ⟨hflip, hr, -⟩ | ⟨hflip, hr, -⟩⟩ := x.mem_fx.mp he
      · simp [outward, hflip, hr, hlt]
      · simp [outward, hflip, hr, hlt, hne]
  have hall := (hi.append hb).append hx
  rw [hrows] at hall
  have hlast : ((gatherLoops x.topo.faceOff (x.pointIds x.topo.facePts) (x.fi r) none).1 ++
      (gatherLoops x.topo.bOff (x.pointIds x.topo.bPts) (x.fb r) none).1.tail.map
        ((gatherLoops x.topo.faceOff (x.pointIds x.topo.facePts) (x.fi r) none).1.getLastD 0 +
          ·)).getLastD 0 =
      (gatherLoops x.topo.faceOff (x.pointIds x.topo.facePts) (x.fi r) none).1.getLastD 0 +
        (gatherLoops x.topo.bOff (x.pointIds x.topo.bPts) (x.fb r) none).1.getLastD 0 := by
    rw [(hi.append hb).last_off, hi.last_off, hb.last_off, List.length_append]
  rw [hlast] at hall
  exact hall

lemma owner_regionMesh (r : ℕ) : (x.regionMesh r).owner = (x.facesOf r).map (·.1) := by
  simp only [regionMesh, facesOf, List.map_append, List.map_map]
  refine congrArg₂ (· ++ ·) (congrArg₂ (· ++ ·) ?_ ?_) ?_
  · refine List.map_congr_left fun f hf => ?_
    obtain ⟨-, hr, -⟩ := x.mem_fi.mp hf
    simp [outward, hr]
  · exact List.map_congr_left fun b _ => rfl
  · refine List.map_congr_left fun e he => ?_
    obtain ⟨-, hne, -, -, ⟨hflip, hr, -⟩ | ⟨hflip, hr, -⟩⟩ := x.mem_fx.mp he
    · simp [outward, hflip, hr]
    · simp [outward, hflip, hr, hne]

/-- Numbers by the places in a list are read back through the list. -/
lemma map_getD_idxOf {points l : List ℕ} (h : ∀ p ∈ l, p ∈ points) :
    (l.map fun p => points.idxOf p).map (fun i => points.getD i 0) = l := by
  induction l with
  | nil => rfl
  | cons p l ih =>
    have hp : points.idxOf p < points.length :=
      List.idxOf_lt_length_of_mem (h p List.mem_cons_self)
    rw [List.map_cons, List.map_cons, ih fun q hq => h q (List.mem_cons_of_mem p hq),
      List.getD_eq_getElem _ _ hp, List.getElem_idxOf]

/-- A region's own numbers of its points stand for the points of the whole mesh. -/
lemma map_used {r : ℕ} {q : ℕ × List ℕ} (hq : q ∈ x.facesOf r) :
    (q.2.map fun p => (x.used r).idxOf p).map (fun p => (x.used r).getD p 0) = q.2 := by
  refine map_getD_idxOf fun p hp => mem_unique.mpr ?_
  rw [(x.isCompact_regionLoops r).flat_eq]
  exact List.mem_flatten_of_mem (List.mem_map_of_mem hq) hp

/-- The loops in the points of the region. -/
lemma row_regionMesh {r i : ℕ} (hi : i < (x.facesOf r).length) :
    row (x.regionMesh r).off (x.regionMesh r).faces i =
      (x.facesOf r)[i].2.map fun p => (x.used r).idxOf p := by
  have hloops : IsCompact (x.regionMesh r).off (x.regionMesh r).faces
      (((x.facesOf r).map (·.2)).map (List.map fun p => (x.used r).idxOf p)) :=
    (x.isCompact_regionLoops r).map _
  rw [hloops.row_eq (by simpa using hi)]
  simp

theorem written_eq_facesOf (r : ℕ) : x.written r = x.facesOf r := by
  have howner := x.owner_regionMesh r
  apply List.ext_getElem
  · simp [written, howner]
  · intro i hi hlt
    have hloop := x.map_used (List.getElem_mem hlt)
    rw [← x.row_regionMesh hlt] at hloop
    simp only [written, List.getElem_map, List.getElem_range, hloop, howner]
    rw [List.getD_eq_getElem _ _ (by simpa using hlt), List.getElem_map]

/-! ## The cells -/

lemma pairwise_orderC : x.orderC.Pairwise fun c d => x.zone c ≤ x.zone d :=
  pairwise_sortBy x.zone _

lemma orderC_own (r : ℕ) :
    x.orderC.filter (fun c => decide (r ≤ x.zone c ∧ x.zone c < r + 1)) = x.cellsOf r := by
  rw [cellsOf, ← filter_sortBy]
  exact List.filter_congr fun c _ => decide_eq_decide.mpr (by omega)

/-- The cells by zone are those of the zones before, the zone's own and those of the zones after. -/
lemma orderC_split (r : ℕ) :
    x.orderC = x.orderC.filter (x.zone · < r) ++ (x.cellsOf r ++
      x.orderC.filter fun c => !decide (x.zone c < r + 1)) := by
  have hsplit := filter_lt_append x.pairwise_orderC (r + 1)
  rw [filter_lt_split x.pairwise_orderC (Nat.le_add_right r 1), orderC_own, List.append_assoc]
    at hsplit
  exact hsplit.symm

lemma cstart_eq (r : ℕ) : x.cstart r = (x.orderC.filter (x.zone · < r)).length :=
  searchsorted_map x.pairwise_orderC r

lemma nCells_eq (r : ℕ) : (x.regionMesh r).nCells = (x.cellsOf r).length := by
  have hsplit := filter_lt_split x.pairwise_orderC (Nat.le_add_right r 1)
  rw [orderC_own] at hsplit
  simp only [regionMesh, cstart_eq]
  rw [hsplit, List.length_append, Nat.add_sub_cancel_left]

lemma mem_cellsOf {r c : ℕ} : c ∈ x.cellsOf r ↔ c < x.topo.nCells ∧ x.zone c = r := by
  simp [cellsOf]

/-- A cell's own number is its place in its zone. -/
theorem localCell_eq {r c : ℕ} (hc : c ∈ x.cellsOf r) :
    x.localCell c = (x.cellsOf r).idxOf c := by
  obtain ⟨-, hzone⟩ := x.mem_cellsOf.mp hc
  have hbefore : c ∉ x.orderC.filter (x.zone · < r) := by
    simp [hzone]
  have hplace := congrArg (List.idxOf c) (x.orderC_split r)
  rw [List.idxOf_append_of_notMem hbefore, List.idxOf_append_of_mem hc] at hplace
  rw [localCell, hzone, cstart_eq, hplace, Nat.add_sub_cancel_left]

lemma localCell_lt {r c d : ℕ} (hc : c ∈ x.cellsOf r) (hd : d ∈ x.cellsOf r) (h : c < d) :
    x.localCell c < x.localCell d := by
  rw [x.localCell_eq hc, x.localCell_eq hd]
  have hc' := List.idxOf_lt_length_of_mem hc
  have hd' := List.idxOf_lt_length_of_mem hd
  have hincreasing : (x.cellsOf r).Pairwise (· < ·) := increasing_filter _ _
  rcases lt_trichotomy ((x.cellsOf r).idxOf c) ((x.cellsOf r).idxOf d) with hlt | heq | hlt
  · exact hlt
  · have hsame : c = d := (List.idxOf_inj hc).mp heq
    omega
  · have hlater := List.pairwise_iff_getElem.mp hincreasing _ _ hd' hc' hlt
    rw [List.getElem_idxOf, List.getElem_idxOf] at hlater
    omega

/-- The numbers of a zone's cells are those of the region's. -/
theorem bijOn_localCell (r : ℕ) :
    Set.BijOn x.localCell {c | c < x.topo.nCells ∧ x.zone c = r}
      {i | i < (x.regionMesh r).nCells} := by
  rw [x.nCells_eq r]
  refine ⟨fun c hc => ?_, fun c hc d hd h => ?_, fun i hi => ?_⟩
  · rw [Set.mem_ofPred_eq, x.localCell_eq (x.mem_cellsOf.mpr hc)]
    exact List.idxOf_lt_length_of_mem (x.mem_cellsOf.mpr hc)
  · have hc' := x.mem_cellsOf.mpr hc
    have hd' := x.mem_cellsOf.mpr hd
    rcases lt_trichotomy c d with hlt | heq | hlt
    · exact absurd h (x.localCell_lt hc' hd' hlt).ne
    · exact heq
    · exact absurd h (x.localCell_lt hd' hc' hlt).ne'
  · have hmem : (x.cellsOf r)[i] ∈ x.cellsOf r := List.getElem_mem hi
    refine ⟨(x.cellsOf r)[i], x.mem_cellsOf.mp hmem, ?_⟩
    rw [x.localCell_eq hmem]
    have hnodup : (x.cellsOf r).Nodup := List.nodup_range.filter _
    exact hnodup.idxOf_getElem i hi

/-! ## The claim -/

/-- The mesh of a region is the whole mesh restricted to its zone. -/
structure IsRestriction (r : ℕ) : Prop where
  cells : Set.BijOn x.localCell {c | c < x.topo.nCells ∧ x.zone c = r}
    {i | i < (x.regionMesh r).nCells}
  points : (x.regionMesh r).points = (x.used r).map x.points
  pointsNodup : (x.used r).Nodup
  /-- The internal faces, each patch of the domain's sides and each interface, and no other. -/
  faces : x.written r = (x.internalOf r).map (x.outward r) ++
    (x.sides r).flatMap (fun p => (x.boundaryOf r p).map x.bOutward) ++
    (x.others r).flatMap fun k => (x.interfaceOf r (ofLex k).1 (ofLex k).2).map (x.outward r)
  neighbours : (x.regionMesh r).neighbour =
    (x.internalOf r).map fun f => x.localCell (x.topo.neighbourOf f)
  ordered : ∀ p ∈ (x.regionMesh r).owner.zip (x.regionMesh r).neighbour, p.1 < p.2
  sorted : ((x.regionMesh r).owner.zip (x.regionMesh r).neighbour).Pairwise BoxTopology.Before
  sides : (x.sides r).Nodup ∧ ∀ p, p ∈ x.sides r ↔ x.boundaryOf r p ≠ []
  others : (x.others r).Nodup ∧ ∀ s t, toLex (s, t) ∈ x.others r ↔ x.interfaceOf r s t ≠ []
  entries : (x.regionMesh r).entries.length = (x.sides r).length + (x.others r).length
  /-- The faces of a patch lie where its entry says. -/
  boundary : ∀ p ∈ x.sides r, ∃ start,
    x.boundaryEntry p start (x.boundaryOf r p).length ∈ (x.regionMesh r).entries ∧
      slice (x.written r) start (start + (x.boundaryOf r p).length) =
        (x.boundaryOf r p).map x.bOutward
  interface : ∀ s t, toLex (s, t) ∈ x.others r → ∃ start,
    x.interfaceEntry r (toLex (s, t)) start (x.interfaceOf r s t).length ∈
        (x.regionMesh r).entries ∧
      slice (x.written r) start (start + (x.interfaceOf r s t).length) =
        (x.interfaceOf r s t).map (x.outward r)

lemma facesOf_eq (r : ℕ) :
    x.facesOf r = (x.internalOf r).map (x.outward r) ++
      (x.sides r).flatMap (fun p => (x.boundaryOf r p).map x.bOutward) ++
      (x.others r).flatMap fun k =>
        (x.interfaceOf r (ofLex k).1 (ofLex k).2).map (x.outward r) := by
  refine congrArg₂ (· ++ ·) (congrArg₂ (· ++ ·) (by rw [fi_eq]) ?_) ?_
  · conv_lhs => rw [← flatMap_unique (x.pairwise_fb r)]
    rw [List.map_flatMap]
    exact List.flatMap_congr fun p _ => by rw [fb_filter]
  · conv_lhs => rw [← flatMap_unique (x.pairwise_fx r)]
    rw [List.map_flatMap]
    refine List.flatMap_congr fun k _ => ?_
    rw [← fx_filter, List.map_map]
    rfl

lemma mem_cells_of_internal {r f : ℕ} (hf : f ∈ x.internalOf r) :
    x.topo.ownerOf f ∈ x.cellsOf r ∧ x.topo.neighbourOf f ∈ x.cellsOf r := by
  simp only [internalOf, List.mem_filter, List.mem_range, decide_eq_true_eq] at hf
  obtain ⟨hlt, hro, hrn⟩ := hf
  have hcells := x.wellFormed.ordered f hlt
  exact ⟨x.mem_cellsOf.mpr ⟨by omega, hro⟩, x.mem_cellsOf.mpr ⟨hcells.2, hrn⟩⟩

/-- The cells of the internal faces of a region. -/
lemma zip_owner_neighbour (r : ℕ) :
    (x.regionMesh r).owner.zip (x.regionMesh r).neighbour =
      (x.internalOf r).map fun f =>
        (x.localCell (x.topo.ownerOf f), x.localCell (x.topo.neighbourOf f)) := by
  simp only [regionMesh, List.append_assoc, fi_eq]
  rw [← List.append_nil ((x.internalOf r).map fun f => x.localCell (x.topo.neighbourOf f)),
    List.zip_append (by simp), List.zip_nil_right, List.append_nil, List.zip_map']

/-- The sizes that are counted put every patch of the domain's sides where its faces lie. -/
lemma exists_boundaryEntry {r p : ℕ} (hp : p ∈ x.sides r) :
    ∃ start, x.boundaryEntry p start (x.boundaryOf r p).length ∈ (x.regionMesh r).entries ∧
      slice (x.written r) start (start + (x.boundaryOf r p).length) =
        (x.boundaryOf r p).map x.bOutward := by
  obtain ⟨start, hmem, hslice⟩ := exists_mem_layOut (fun p => (x.boundaryOf r p).map x.bOutward) hp
    ((x.internalOf r).map (x.outward r))
    ((x.others r).flatMap fun k =>
      (x.interfaceOf r (ofLex k).1 (ofLex k).2).map (x.outward r))
  simp only [List.length_map] at hmem hslice
  refine ⟨start, ?_, ?_⟩
  · refine List.mem_append_left _
      (List.mem_map.mpr ⟨(p, start, (x.boundaryOf r p).length), ?_, rfl⟩)
    rw [pids_eq, fi_eq]
    exact hmem
  · rw [written_eq_facesOf, facesOf_eq]
    exact hslice

/-- The interfaces begin where the patches of the domain's sides end. -/
lemma exists_interfaceEntry {r s : ℕ} {t : ℤ} (h : toLex (s, t) ∈ x.others r) :
    ∃ start, x.interfaceEntry r (toLex (s, t)) start (x.interfaceOf r s t).length ∈
        (x.regionMesh r).entries ∧
      slice (x.written r) start (start + (x.interfaceOf r s t).length) =
        (x.interfaceOf r s t).map (x.outward r) := by
  obtain ⟨start, hmem, hslice⟩ := exists_mem_layOut
    (fun k : ℕ ×ₗ ℤ => (x.interfaceOf r (ofLex k).1 (ofLex k).2).map (x.outward r)) h
    ((x.internalOf r).map (x.outward r) ++
      (x.sides r).flatMap fun p => (x.boundaryOf r p).map x.bOutward) []
  have hstart : (x.fi r).length + ((x.pids r).map (·.2)).sum =
      ((x.internalOf r).map (x.outward r) ++
        (x.sides r).flatMap fun p => (x.boundaryOf r p).map x.bOutward).length := by
    rw [fi_eq, pids_eq]
    simp [List.length_flatMap, Function.comp_def]
  rw [← hstart] at hmem
  simp only [List.length_map, ofLex_toLex, List.append_nil] at hmem hslice
  refine ⟨start, ?_, ?_⟩
  · refine List.mem_append_right _
      (List.mem_map.mpr ⟨(toLex (s, t), start, (x.interfaceOf r s t).length), ?_, rfl⟩)
    rw [pairs_eq]
    exact hmem
  · rw [written_eq_facesOf, facesOf_eq]
    exact hslice

theorem isRestriction (r : ℕ) : x.IsRestriction r where
  cells := x.bijOn_localCell r
  points := by simp only [regionMesh]
  pointsNodup := nodup_unique (x.regionLoops r).2
  faces := (x.written_eq_facesOf r).trans (x.facesOf_eq r)
  neighbours := by
    simp only [regionMesh, fi_eq]
  ordered p hp := by
    rw [zip_owner_neighbour] at hp
    obtain ⟨f, hf, rfl⟩ := List.mem_map.mp hp
    obtain ⟨howner, hneighbour⟩ := x.mem_cells_of_internal hf
    have hlt : f < x.topo.nInternal := by simpa using (List.mem_filter.mp hf).1
    exact x.localCell_lt howner hneighbour (x.wellFormed.ordered f hlt).1
  sorted := by
    rw [zip_owner_neighbour, List.pairwise_map]
    refine (increasing_filter _ _).imp_of_mem fun {f g} hf hg h => ?_
    obtain ⟨hfo, hfn⟩ := x.mem_cells_of_internal hf
    obtain ⟨hgo, hgn⟩ := x.mem_cells_of_internal hg
    have hlt : g < x.topo.nInternal := by simpa using (List.mem_filter.mp hg).1
    rcases x.wellFormed.sorted f g h hlt with howner | ⟨howner, hneighbour⟩
    · exact .inl (x.localCell_lt hfo hgo howner)
    · exact .inr ⟨congrArg x.localCell howner, x.localCell_lt hfn hgn hneighbour⟩
  sides := ⟨nodup_unique ((x.fb r).map x.patchOf), fun _ => x.mem_sides⟩
  others := ⟨x.nodup_others r, fun _ _ => x.mem_others⟩
  entries := by simp [regionMesh, RegionInput.entries, pids_eq, pairs_eq]
  boundary p hp := x.exists_boundaryEntry hp
  interface s t h := x.exists_interfaceEntry h

lemma count_filter_range (n : ℕ) (p : ℕ → Bool) {f : ℕ} (hf : f < n) :
    ((List.range n).filter p).count f = if p f then 1 else 0 := by
  split
  · next h =>
    exact List.count_eq_one_of_mem (List.nodup_range.filter _)
      (List.mem_filter.mpr ⟨List.mem_range.mpr hf, h⟩)
  · next h => exact List.count_eq_zero_of_not_mem fun hmem => h (List.mem_filter.mp hmem).2

lemma interfaceOf_comm (r s : ℕ) (t : ℤ) : x.interfaceOf r s t = x.interfaceOf s r t := by
  refine List.filter_congr fun f _ => decide_eq_decide.mpr ?_
  grind

lemma flipLoop_flipLoop {α : Type*} (l : List α) : flipLoop (flipLoop l) = l := by
  cases l <;> simp [flipLoop]

/-- The two regions of an interface have each of its loops opposite ways round. -/
lemma outward_flip {r s f : ℕ} {t : ℤ} (hf : f ∈ x.interfaceOf r s t) :
    (x.outward s f).2 = flipLoop (x.outward r f).2 := by
  simp only [interfaceOf, List.mem_filter, decide_eq_true_eq] at hf
  obtain ⟨-, hne, ⟨hro, hrn⟩ | ⟨hro, hrn⟩, -⟩ := hf
  · have hrs : r ≠ s := fun h => hne (by rw [hro, hrn, h])
    simp [outward, hro, hrs]
  · have hrs : s ≠ r := fun h => hne (by rw [hro, hrn, h])
    simp [outward, hro, hrs, flipLoop_flipLoop]

/-- The ids of points stand for their keys. -/
lemma map_pointIds {pts : List ℕ} (h : ∀ p ∈ pts, p ∈ x.keys) :
    (x.pointIds pts).map (x.keys.getD · 0) = pts := by
  rw [pointIds, List.map_map]
  refine (List.map_congr_left fun p hp => ?_).trans (List.map_id pts)
  have hfound := getElem?_searchsorted (pairwise_unique _) (h p hp)
  simp only [Function.comp_apply, List.getD_eq_getElem?_getD]
  exact congrArg (·.getD 0) hfound

lemma mem_keys_of_slice {off pts : List ℕ} (h : ∀ p ∈ pts, p ∈ x.keys) {i p : ℕ}
    (hp : p ∈ row off pts i) : p ∈ x.keys :=
  h p (List.mem_of_mem_take (List.mem_of_mem_drop hp))

lemma map_loopOf (f : ℕ) :
    (x.loopOf f).map (x.keys.getD · 0) = row x.topo.faceOff x.topo.facePts f :=
  x.map_pointIds fun _ => x.mem_keys_of_slice fun _ hp =>
    mem_unique.mpr (List.mem_append_left _ hp)

lemma map_bLoopOf (b : ℕ) :
    (x.bLoopOf b).map (x.keys.getD · 0) = row x.topo.bOff x.topo.bPts b :=
  x.map_pointIds fun _ => x.mem_keys_of_slice fun _ hp =>
    mem_unique.mpr (List.mem_append_right _ hp)

/-- Every region's mesh is the whole mesh restricted to its zone. An internal face within a zone, a
boundary face and a face between two zones is each in the lists of its own regions once, and both
regions of an interface list the same faces in the same order, each the other way round. -/
theorem regions_restrict (x : RegionInput P) :
    (writeRegions x).1 = (List.range x.zoneNames.length).map x.regionMesh ∧
      (∀ r, x.IsRestriction r) ∧
      (∀ f, (x.loopOf f).map (x.keys.getD · 0) = row x.topo.faceOff x.topo.facePts f) ∧
      (∀ b, (x.bLoopOf b).map (x.keys.getD · 0) = row x.topo.bOff x.topo.bPts b) ∧
      (∀ f < x.topo.nInternal, ∀ r,
        (x.internalOf r).count f = if x.ro f = r ∧ x.rn f = r then 1 else 0) ∧
      (∀ b < x.topo.bOwner.length, ∀ r p,
        (x.boundaryOf r p).count b = if x.br b = r ∧ x.patchOf b = p then 1 else 0) ∧
      (∀ f < x.topo.nInternal, ∀ r s t, (x.interfaceOf r s t).count f =
        if x.ro f ≠ x.rn f ∧ (x.ro f = r ∧ x.rn f = s ∨ x.ro f = s ∧ x.rn f = r) ∧ x.tag f = t
        then 1 else 0) ∧
      ∀ r s t, x.interfaceOf r s t = x.interfaceOf s r t ∧
        ∀ f ∈ x.interfaceOf r s t, (x.outward s f).2 = flipLoop (x.outward r f).2 := by
  refine ⟨rfl, x.isRestriction, x.map_loopOf, x.map_bLoopOf, ?_, ?_, ?_, ?_⟩
  · intro f hf r
    rw [internalOf, count_filter_range _ _ hf]
    simp
  · intro b hb r p
    rw [boundaryOf, count_filter_range _ _ hb]
    simp
  · intro f hf r s t
    rw [interfaceOf, count_filter_range _ _ hf]
    simp
  · exact fun r s t => ⟨x.interfaceOf_comm r s t, fun f hf => x.outward_flip hf⟩

end RegionInput

/-- Two cells with a face between them, each a zone of its own with a side of the domain. -/
def twoCells : RegionInput (ℕ × ℕ × ℕ) where
  topo :=
    { dims := (3, 2, 2)
      offsets := [0]
      nCells := 2
      owner := [0]
      neighbour := [1]
      faceOff := [0, 4]
      facePts := [1, 4, 10, 7]
      bOwner := [0, 1]
      bOff := [0, 4, 8]
      bPts := [0, 6, 9, 3, 2, 5, 11, 8]
      chunks := [⟨0, 0, (1, 1), 0⟩, ⟨0, 1, (1, 1), 1⟩]
      hangingFaces := 0
      blockFaces := 0 }
  wellFormed :=
    { neighbour_length := rfl
      ordered := by decide
      sorted := fun f g hfg hg => by
        obtain rfl : g = 0 := Nat.lt_one_iff.mp hg
        exact absurd hfg (Nat.not_lt_zero f)
      faces := ⟨[[1, 4, 10, 7]], rfl, rfl, rfl⟩
      bOwner_lt := by decide
      bFaces := ⟨[[0, 6, 9, 3], [2, 5, 11, 8]], rfl, rfl, rfl⟩ }
  points := fun p => (p % 3, p / 3 % 2, p / 6)
  cellZone := [0, 1]
  zoneNames := ["air", "board"]
  chunkPatches := [[0], [1]]
  patches := [⟨"inlet", "patch"⟩, ⟨"base", "wall"⟩]
  dialect := .esi
  faceTags := some [0]
  tagNames := some ["film"]
  cellZone_length := rfl
  zone_lt := by decide
  chunkPatches_length := rfl
  patch_lt := by decide
  faceTags_length := by decide
  tag_lt := by decide

/-- The face between the two is the only one of an interface of either, and the board has it the
other way round. -/
theorem twoCells_restricted :
    twoCells.IsRestriction 0 ∧
      (twoCells.regionMesh 0).entries.map (·.name) = ["inlet", "air_to_board_via_film"] ∧
      (twoCells.regionMesh 1).entries.map (·.name) = ["base", "board_to_air_via_film"] ∧
      (twoCells.outward 1 0).2 = flipLoop (twoCells.outward 0 0).2 := by
  obtain ⟨-, hrestrict, -, -, -, -, -, hpairs⟩ := RegionInput.regions_restrict twoCells
  refine ⟨hrestrict 0, by decide +kernel, by decide +kernel, ?_⟩
  exact (hpairs 0 1 0).2 0 (by decide +kernel)

end MeshPipeline.SnapGrid
