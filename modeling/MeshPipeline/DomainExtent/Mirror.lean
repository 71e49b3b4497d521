import MeshPipeline.DomainExtent.Margins

/-!
# Mirroring

The body, the box, the flow and the symmetry planes, mirrored along one axis. The open sides are
mirrored with them and every margin stays.
-/

namespace MeshPipeline.DomainExtent

variable {j : Axis} {f : Face} {box body : Box} {r : ℚ} {flow : FlowSides} {grounded : Bool}
  {seats : List (Face × String)} {k : Direction}

def Side.other : Side → Side
  | .min => .max
  | .max => .min

@[simp]
lemma Side.other_other (s : Side) : s.other.other = s := by cases s <;> rfl

/-- The face opposite along an axis. -/
def mirrorFace (j : Axis) (f : Face) : Face := if f.1 = j then (f.1, f.2.other) else f

@[simp]
lemma mirrorFace_fst : (mirrorFace j f).1 = f.1 := by
  unfold mirrorFace
  split <;> rfl

@[simp]
lemma mirrorFace_mirrorFace : mirrorFace j (mirrorFace j f) = f := by
  unfold mirrorFace
  grind [Side.other_other]

lemma mirrorFace_injective : Function.Injective (mirrorFace j) :=
  Function.LeftInverse.injective fun _ => mirrorFace_mirrorFace

/-! ## The inputs -/

def mirrorBox (j : Axis) (b : Box) : Box := fun f =>
  if f.1 = j then (b (mirrorFace j f)).map (- ·) else b f

def FlowSides.mirror (j : Axis) (flow : FlowSides) : FlowSides :=
  if flow.axis = j then ⟨flow.axis, flow.up.other, flow.down.other⟩ else flow

/-- The entries of the seats, each on the opposite face. -/
def mirrorSeats (j : Axis) (seats : List (Face × String)) : List (Face × String) :=
  seats.map (Prod.map (mirrorFace j) id)

def Side.text : Side → String
  | .min => "min"
  | .max => "max"

/-- The row with the other side, when it names a face across the axis. -/
def Row.mirror (j : Axis) (row : Row) : Row :=
  match row.face? with
  | some f => if f.1 = j then { row with side := some f.2.other.text } else row
  | none => row

/-- The spelling of a flow. -/
def FlowSides.text (flow : FlowSides) : String :=
  match flow.axis, flow.up with
  | .x, .min => "+x"
  | .x, .max => "-x"
  | .y, .min => "+y"
  | .y, .max => "-y"
  | .z, .min => "+z"
  | .z, .max => "-z"

/-- The opposite flow, when it goes along the axis. -/
def mirrorFlow (j : Axis) (flowAxis : Option String) : Option String :=
  match flowSides flowAxis with
  | some flow => if flow.axis = j then some (flow.mirror j).text else flowAxis
  | none => flowAxis

def Manifest.mirror (j : Axis) (m : Manifest) : Manifest :=
  { m with
    domainBox := m.domainBox.map (mirrorBox j)
    box := m.box.map (mirrorBox j)
    bodyBbox := m.bodyBbox.map (mirrorBox j)
    bodyBox := m.bodyBox.map (mirrorBox j)
    symmetryFaces := m.symmetryFaces.map (·.map (·.map (Row.mirror j))) }

/-- Everything mirrored along one axis. -/
def Call.mirror (j : Axis) (c : Call) : Call :=
  { c with
    manifest := c.manifest.mirror j
    flowAxis := mirrorFlow j c.flowAxis
    symmetryFaces := c.symmetryFaces.map (·.map (·.map (Row.mirror j))) }

/-! ## What they read as -/

lemma Side.sideOf_text (s : Side) : sideOf (Text.key s.text) = some s := by
  cases s <;> decide +kernel

lemma Row.face?_mirror (row : Row) : (row.mirror j).face? = row.face?.map (mirrorFace j) := by
  unfold mirror
  cases hface : row.face? with
  | none => simp [hface]
  | some f =>
    simp only [Option.map_some]
    split
    · next heq =>
      obtain ⟨i, haxis, s, -, rfl⟩ : ∃ i, row.axis? = some i ∧
          ∃ s, row.side? = some s ∧ (i, s) = f := by
        simpa [face?, Option.bind_eq_some_iff] using hface
      have haxis' : axis? { row with side := some s.other.text } = some i := haxis
      simp only at heq
      simp [face?, side?, haxis', Side.sideOf_text, mirrorFace, heq]
    · next hne => simp [hface, mirrorFace, hne]

lemma Row.seat?_mirror (row : Row) :
    (row.mirror j).seat? = row.seat?.map (Prod.map (mirrorFace j) id) := by
  have hpatch : (row.mirror j).patch = row.patch ∧ (row.mirror j).name = row.name := by
    unfold mirror
    split
    · split <;> exact ⟨rfl, rfl⟩
    · exact ⟨rfl, rfl⟩
  unfold seat?
  rw [face?_mirror, hpatch.1, hpatch.2, Option.map_map, Option.map_map]
  rfl

lemma symmetrySeats_mirror (faces : List (Option Row)) :
    symmetrySeats (faces.map (·.map (Row.mirror j))) = mirrorSeats j (symmetrySeats faces) := by
  unfold symmetrySeats mirrorSeats
  rw [← Assoc.ofPairs_map_key mirrorFace_injective, List.filterMap_map, List.map_filterMap]
  congr 1
  apply List.filterMap_congr
  intro row _
  cases row with
  | none => rfl
  | some row => exact row.seat?_mirror

lemma flowSides_text (h : flow.down = flow.up.other) : flowSides (some flow.text) = some flow := by
  obtain ⟨axis, up, down⟩ := flow
  obtain rfl : down = up.other := h
  cases axis <;> cases up <;> decide +kernel

/-- The flow goes from one side to the other. -/
lemma flowSides_down {flowAxis : Option String} (h : flowSides flowAxis = some flow) :
    flow.down = flow.up.other := by
  unfold flowSides at h
  split at h
  · obtain ⟨_, -, rfl⟩ := Option.map_eq_some_iff.mp h
    rfl
  · obtain ⟨_, -, rfl⟩ := Option.map_eq_some_iff.mp h
    rfl
  · obtain ⟨_, -, rfl⟩ := Option.map_eq_some_iff.mp h
    rfl
  · cases h

lemma flowSides_mirror (flowAxis : Option String) :
    flowSides (mirrorFlow j flowAxis) = (flowSides flowAxis).map (FlowSides.mirror j) := by
  unfold mirrorFlow
  cases hflow : flowSides flowAxis with
  | none => simp [hflow]
  | some flow =>
    have hdown := flowSides_down hflow
    simp only [Option.map_some]
    split
    · next heq =>
      apply flowSides_text
      simp [FlowSides.mirror, heq, hdown]
    · next hne => simp [hflow, FlowSides.mirror, hne]

/-! ## Boxes -/

lemma mirrorBox_mirrorFace : mirrorBox j box (mirrorFace j f) =
    if f.1 = j then (box f).map (- ·) else box f := by
  unfold mirrorBox
  rw [mirrorFace_fst, mirrorFace_mirrorFace]
  split
  · rfl
  · next hne => simp [mirrorFace, hne]

lemma gap_mirror : gap (mirrorBox j box) (mirrorBox j body) (mirrorFace j f) = gap box body f := by
  obtain ⟨i, s⟩ := f
  unfold gap
  simp only [mirrorBox_mirrorFace]
  by_cases hi : i = j
  · subst hi
    cases s <;> simp only [mirrorFace, if_true, Side.other] <;>
      cases box (i, _) <;> cases body (i, _) <;> simp <;> ring
  · simp [mirrorFace, hi]

lemma diagSquare_mirror : diagSquare (mirrorBox j body) = diagSquare body := by
  unfold diagSquare
  congr 1
  apply List.filterMap_congr
  intro i _
  unfold mirrorBox mirrorFace
  by_cases hi : i = j
  · simp only [hi, if_true, Side.other]
    cases body (j, .min) <;> cases body (j, .max) <;> simp
    ring
  · simp [hi]

lemma sitsOn_mirror :
    SitsOn (mirrorBox j box) (mirrorBox j body) (mirrorFace j f) ↔ SitsOn box body f := by
  unfold SitsOn
  rw [gap_mirror, diagSquare_mirror]

/-! ## Open sides -/

@[simp]
lemma FlowSides.mirror_axis : (flow.mirror j).axis = flow.axis := by
  unfold mirror
  split <;> rfl

lemma alongFlow_mirror :
    alongFlow (flow.mirror j) (mirrorSeats j seats) = mirrorSeats j (alongFlow flow seats) := by
  unfold alongFlow mirrorSeats
  rw [List.filter_map]
  congr 1
  apply List.filter_congr
  simp

lemma seated_mirror (hvertical : j = verticalAxis → grounded = false) :
    seated (mirrorBox j box) (mirrorBox j body) (flow.mirror j) grounded (mirrorSeats j seats) =
      (seated box body flow grounded seats).map (mirrorFace j) := by
  unfold seated
  rw [alongFlow_mirror, List.map_append, List.map_map, FlowSides.mirror_axis]
  congr 1
  · unfold mirrorSeats
    rw [List.filter_map, List.map_map]
    congr 1
    apply List.filter_congr
    intro e _
    simp [Function.comp, sitsOn_mirror]
  · split
    · next hfloor =>
      have hne : verticalAxis ≠ j := by
        rintro rfl
        exact absurd (hvertical rfl) (by simp [hfloor.1])
      simp [mirrorFace, hne]
    · rfl

lemma open_mirror (hvertical : j = verticalAxis → grounded = false) :
    Open (mirrorBox j box) (mirrorBox j body) (flow.mirror j) grounded (mirrorSeats j seats)
      (mirrorFace j f) ↔ Open box body flow grounded seats f := by
  unfold Open
  rw [seated_mirror hvertical, List.mem_map_of_injective mirrorFace_injective]

lemma mem_faces_mirror (hdown : flow.down = flow.up.other) :
    mirrorFace j f ∈ (flow.mirror j).faces k ↔ f ∈ flow.faces k := by
  obtain ⟨axis, up, down⟩ := flow
  obtain ⟨i, s⟩ := f
  obtain rfl : down = up.other := hdown
  cases k <;> cases axis <;> cases up <;> cases j <;> cases i <;> cases s <;> decide

lemma exists_mirror {P : Face → Prop} : (∃ f, P f) ↔ ∃ f, P (mirrorFace j f) := by
  constructor
  · rintro ⟨f, hf⟩
    exact ⟨mirrorFace j f, by rwa [mirrorFace_mirrorFace]⟩
  · rintro ⟨f, hf⟩
    exact ⟨mirrorFace j f, hf⟩

lemma openMargins_mirror (hdown : flow.down = flow.up.other)
    (hvertical : j = verticalAxis → grounded = false) :
    openMargins (mirrorBox j box) (mirrorBox j body) r (flow.mirror j) grounded
      (mirrorSeats j seats) k = openMargins box body r flow grounded seats k := by
  ext q
  unfold openMargins
  rw [Set.mem_ofPred_eq, Set.mem_ofPred_eq, exists_mirror (j := j)]
  simp only [mem_faces_mirror hdown, open_mirror hvertical, gap_mirror]

end MeshPipeline.DomainExtent
