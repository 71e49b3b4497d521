import Mathlib.Tactic.GCongr
import MeshPipeline.DomainExtent.Mirror

/-!
# The verdict sees geometry

Mirroring leaves the verdict as it is, a box that grows is never judged worse, and the status is
what the open sides of the requested directions are against their requests.
-/

namespace MeshPipeline.DomainExtent

variable {c : Call} {j : Axis} {f : Face} {box body : Box} {tol r d : ℚ} {flow : FlowSides}
  {grounded : Bool} {seats : List (Face × String)} {k : Direction} {requested : Request}

lemma Direction.mem_faces (hdown : flow.down = flow.up.other) (f : Face) :
    ∃ k, f ∈ flow.faces k := by
  obtain ⟨axis, up, down⟩ := flow
  obtain ⟨i, s⟩ := f
  obtain rfl : down = up.other := hdown
  by_cases hi : i = axis
  · subst hi
    by_cases hs : s = up
    · exact ⟨.upstream, by simp [FlowSides.faces, hs]⟩
    · refine ⟨.downstream, ?_⟩
      cases s <;> cases up <;> simp_all [FlowSides.faces, Side.other]
  · by_cases hrest : i = axis.rest.1
    · exact ⟨.lateral, by cases s <;> simp [FlowSides.faces, hrest]⟩
    · refine ⟨.vertical, ?_⟩
      cases s <;> cases i <;> cases axis <;> simp_all [FlowSides.faces, Axis.rest]

section Read

variable (box body flow grounded seats) in
/-- Every coordinate that is read is recorded. -/
def Recorded : Prop := ∀ f ∈ readFaces box body flow grounded seats, (gap box body f).isSome = true

/-- What is read: the planes along the flow and the open sides. -/
lemma recorded_iff (hdown : flow.down = flow.up.other) :
    Recorded box body flow grounded seats ↔
      (∀ e ∈ alongFlow flow seats, (gap box body e.1).isSome = true) ∧
        ∀ f, Open box body flow grounded seats f → (gap box body f).isSome = true := by
  unfold Recorded readFaces
  simp only [List.mem_append, List.mem_map, List.mem_filter, List.mem_flatMap, decide_eq_true_eq]
  constructor
  · intro h
    refine ⟨fun e he => h e.1 (.inl ⟨e, he, rfl⟩), ?_⟩
    intro f hopen
    obtain ⟨k, hk⟩ := Direction.mem_faces hdown f
    exact h f (.inr ⟨⟨k, k.mem_all, hk⟩, hopen⟩)
  · rintro ⟨halong, hopen⟩ f (⟨e, he, rfl⟩ | ⟨-, hf⟩)
    · exact halong e he
    · exact hopen f hf

end Read

/-! ## Mirroring -/

lemma flatMap_filterMap_congr {α β γ : Type*} {f f' : α → Option β} {g : β → List γ} {xs : List α}
    (h : ∀ a ∈ xs, (f' a).elim [] g = (f a).elim [] g) :
    (xs.filterMap f').flatMap g = (xs.filterMap f).flatMap g := by
  induction xs with
  | nil => rfl
  | cons a xs ih =>
    have ha := h a (by simp)
    have hxs := ih fun b hb => h b (by simp [hb])
    cases hf : f a <;> cases hf' : f' a <;> simp_all

/-- What the user is told of a miss, the names of faces aside. -/
def Miss.measure (miss : Miss) : Direction × Option ℚ := (miss.direction, miss.measured)

lemma concat_misses (fs : List Findings) : (Findings.concat fs).misses = fs.flatMap (·.misses) := by
  induction fs with
  | nil => rfl
  | cons f fs ih =>
    rw [List.flatMap_cons, ← ih]
    rfl

lemma judge_measure {rv : ℚ} {room room' : Room} (h : room'.margin = room.margin) :
    (judge tol r k rv room').misses.map Miss.measure =
      (judge tol r k rv room).misses.map Miss.measure := by
  unfold judge
  simp only [h]
  split
  · rfl
  · split
    · rfl
    · split <;> rfl

section Congr

variable {flow' : FlowSides} {seats' : List (Face × String)}
  {margins margins' : Direction → Option Room}

/-- A verdict depends on which planes are across the flow and on the margins. -/
lemma verdict_congr
    (hplane : ∀ k, acrossPlane flow' seats' k = none ↔ acrossPlane flow seats k = none)
    (hmargin : ∀ k, (margins' k).map Room.margin = (margins k).map Room.margin) :
    (findings requested tol r flow' seats' margins').verdict.status =
        (findings requested tol r flow seats margins).verdict.status ∧
      (findings requested tol r flow' seats' margins').verdict.misses.map Miss.measure =
        (findings requested tol r flow seats margins).verdict.misses.map Miss.measure := by
  have hjudged : ∀ (P : ℚ → ℚ → Prop),
      (∃ k rv room, Judged requested flow' seats' margins' k rv room ∧ P rv room.margin) ↔
        ∃ k rv room, Judged requested flow seats margins k rv room ∧ P rv room.margin := by
    intro P
    have hroom : ∀ k rv, (∃ room, margins' k = some room ∧ P rv room.margin) ↔
        ∃ room, margins k = some room ∧ P rv room.margin := by
      intro k rv
      have := hmargin k
      cases hm : margins k <;> cases hm' : margins' k <;> simp_all
    simp only [Judged, hplane, and_assoc, exists_and_left, hroom]
  have hblocks : (findings requested tol r flow' seats' margins').blocks ≠ [] ↔
      (findings requested tol r flow seats margins).blocks ≠ [] := by
    simp only [findings_blocks, ne_eq, hplane, hjudged (Blocks tol)]
  have hcaveats : (findings requested tol r flow' seats' margins').caveats ≠ [] ↔
      (findings requested tol r flow seats margins).caveats ≠ [] := by
    simp only [findings_caveats, hjudged (Nears tol)]
  have hmisses : (findings requested tol r flow' seats' margins').misses.map Miss.measure =
      (findings requested tol r flow seats margins).misses.map Miss.measure := by
    unfold findings
    simp only [concat_misses, List.flatMap_append, List.map_append, List.map_flatMap]
    congr 1
    · apply flatMap_filterMap_congr
      intro k _
      have := hplane k
      cases hp : acrossPlane flow seats k <;> cases hp' : acrossPlane flow' seats' k <;>
        simp_all [acrossFinding, Miss.measure]
      have hm := hmargin k
      cases hk : margins k <;> cases hk' : margins' k <;> simp_all
    · apply flatMap_filterMap_congr
      intro k _
      have := hplane k
      have hm := hmargin k
      cases hrv : requested.get k <;> cases hk : margins k <;> cases hk' : margins' k <;>
        cases hp : acrossPlane flow seats k <;> cases hp' : acrossPlane flow' seats' k <;>
        simp_all
      exact judge_measure hm
  unfold Findings.verdict
  simp only [hblocks, hcaveats]
  split
  · exact ⟨rfl, hmisses⟩
  · split
    · exact ⟨rfl, hmisses⟩
    · exact ⟨rfl, rfl⟩

end Congr

lemma acrossPlane_mirror : acrossPlane (flow.mirror j) (mirrorSeats j seats) k = none ↔
    acrossPlane flow seats k = none := by
  have hlookup : ∀ f : Face, (mirrorSeats j seats).lookup (mirrorFace j f) = seats.lookup f :=
    fun f => Assoc.lookup_map_key mirrorFace_injective seats f
  have hface : ∀ s : Side, mirrorFace j (flow.axis, s) =
      (flow.axis, if flow.axis = j then s.other else s) := by
    intro s
    unfold mirrorFace
    split <;> rfl
  cases k with
  | upstream =>
    have := hlookup (flow.axis, flow.up)
    rw [hface] at this
    by_cases hj : flow.axis = j <;> simp_all [acrossPlane, FlowSides.mirror]
  | downstream =>
    have := hlookup (flow.axis, flow.down)
    rw [hface] at this
    by_cases hj : flow.axis = j <;> simp_all [acrossPlane, FlowSides.mirror]
  | lateral | vertical => rfl

lemma recorded_mirror (hdown : flow.down = flow.up.other)
    (hvertical : j = verticalAxis → grounded = false) :
    Recorded (mirrorBox j box) (mirrorBox j body) (flow.mirror j) grounded (mirrorSeats j seats) ↔
      Recorded box body flow grounded seats := by
  have hdown' : (flow.mirror j).down = (flow.mirror j).up.other := by
    unfold FlowSides.mirror
    split
    · simp [hdown]
    · exact hdown
  rw [recorded_iff hdown', recorded_iff hdown, alongFlow_mirror]
  have hforall : ∀ P : Face → Prop, (∀ f, P f) ↔ ∀ f, P (mirrorFace j f) := by
    intro P
    constructor
    · intro h f
      exact h _
    · intro h f
      simpa using h (mirrorFace j f)
  rw [hforall fun f => Open _ _ _ _ _ f → _]
  simp only [mirrorSeats, List.forall_mem_map, Prod.map_fst, gap_mirror]
  have hopen : ∀ f, Open (mirrorBox j box) (mirrorBox j body) (flow.mirror j) grounded
      (mirrorSeats j seats) (mirrorFace j f) ↔ Open box body flow grounded seats f :=
    fun f => open_mirror hvertical
  simp only [mirrorSeats] at hopen
  simp only [hopen]

lemma seats_mirror : (c.mirror j).seats = mirrorSeats j c.seats := by
  unfold Call.seats
  rw [← symmetrySeats_mirror]
  congr 1
  cases hfaces : c.symmetryFaces with
  | some faces => simp [Call.mirror, hfaces]
  | none =>
    simp only [Call.mirror, hfaces, Option.map_none, Option.getD_none, Manifest.faces,
      Manifest.mirror]
    split
    · rfl
    · cases c.manifest.symmetryFaces <;> rfl

/-- What is measured, mirrored. -/
def Call.Measure.mirror (j : Axis) (m : Call.Measure) : Call.Measure :=
  { m with flow := m.flow.mirror j, box := mirrorBox j m.box, body := mirrorBox j m.body }

lemma measure?_mirror : (c.mirror j).measure? = c.measure?.map (Call.Measure.mirror j) := by
  have hbox : (c.mirror j).manifest.theBox = c.manifest.theBox.map (mirrorBox j) := by
    simp only [Manifest.theBox, Call.mirror, Manifest.mirror]
    cases c.manifest.domainBox <;> rfl
  have hbody : (c.mirror j).manifest.theBody = c.manifest.theBody.map (mirrorBox j) := by
    simp only [Manifest.theBody, Call.mirror, Manifest.mirror]
    cases c.manifest.bodyBbox <;> rfl
  have hflow : flowSides (c.mirror j).flowAxis =
      (flowSides c.flowAxis).map (FlowSides.mirror j) := by
    simp only [Call.mirror, flowSides_mirror]
  have hrequested : (c.mirror j).requested = c.requested := rfl
  have hr : (c.mirror j).referenceLengthM = c.referenceLengthM := rfl
  simp only [Call.measure?, hbox, hbody, hflow, hrequested, hr, Option.map_bind, Option.bind_map,
    Option.map_map, Function.comp_def, Call.Measure.mirror]

/-- A call whose coordinates are recorded where they are read. -/
def Call.Measured (c : Call) (m : Call.Measure) : Prop :=
  c.measure? = some m ∧ Recorded m.box m.body m.flow c.isGrounded c.seats

/-- The margins of a call. -/
def Call.margins (c : Call) (m : Call.Measure) : Direction → Option Room :=
  room m.box m.body m.r m.flow c.isGrounded c.seats

lemma evaluate_of_measured (hasked : c.Asked) {m : Call.Measure} (hm : c.Measured m) :
    c.evaluate = (findings m.requested c.tol m.r m.flow c.seats (c.margins m)).verdict := by
  obtain ⟨hmeasure, hrecorded⟩ := hm
  have haxis : axisMargins m.box m.body m.r m.flow c.isGrounded c.seats = some (c.margins m) :=
    if_pos hrecorded
  simp [Call.evaluate, hasked, hmeasure, haxis]

lemma evaluate_of_not_measured (hasked : c.Asked) (hm : ∀ m, ¬ c.Measured m) :
    c.evaluate = ⟨.unmeasured, [], [], []⟩ := by
  cases hmeasure : c.measure? with
  | none => simp [Call.evaluate, hasked, hmeasure]
  | some m =>
    have haxis : axisMargins m.box m.body m.r m.flow c.isGrounded c.seats = none :=
      if_neg fun hrecorded => hm m ⟨hmeasure, hrecorded⟩
    simp [Call.evaluate, hasked, hmeasure, haxis]

lemma measure?_down {m : Call.Measure} (h : c.measure? = some m) :
    m.flow.down = m.flow.up.other ∧ 0 < m.r := by
  simp only [Call.measure?, Option.bind_eq_some_iff, Option.map_eq_some_iff,
    Option.filter_eq_some_iff, decide_eq_true_eq] at h
  obtain ⟨_, -, _, -, _, -, r, ⟨-, hr⟩, flow, hflow, rfl⟩ := h
  exact ⟨flowSides_down hflow, hr⟩

lemma measured_mirror (hvertical : j = verticalAxis → c.isGrounded = false) (m' : Call.Measure) :
    (c.mirror j).Measured m' ↔ ∃ m, c.Measured m ∧ m.mirror j = m' := by
  have hgrounded : (c.mirror j).isGrounded = c.isGrounded := rfl
  unfold Call.Measured
  rw [measure?_mirror, seats_mirror, hgrounded]
  constructor
  · rintro ⟨hmeasure, hrecorded⟩
    obtain ⟨m, hm, rfl⟩ := Option.map_eq_some_iff.mp hmeasure
    have hdown := (measure?_down hm).1
    exact ⟨m, ⟨hm, (recorded_mirror hdown hvertical).mp hrecorded⟩, rfl⟩
  · rintro ⟨m, ⟨hm, hrecorded⟩, rfl⟩
    have hdown := (measure?_down hm).1
    exact ⟨by rw [hm]; rfl, (recorded_mirror hdown hvertical).mpr hrecorded⟩

theorem evaluate_mirror (hvertical : j = verticalAxis → c.isGrounded = false) :
    (c.mirror j).evaluate.status = c.evaluate.status ∧
      (c.mirror j).evaluate.misses.map Miss.measure = c.evaluate.misses.map Miss.measure := by
  have hasked : (c.mirror j).Asked ↔ c.Asked := Iff.rfl
  by_cases hc : c.Asked
  · by_cases hm : ∃ m, c.Measured m
    · obtain ⟨m, hm⟩ := hm
      have hdown := (measure?_down hm.1).1
      have hm' := (measured_mirror (j := j) hvertical _).mpr ⟨m, hm, rfl⟩
      rw [evaluate_of_measured hc hm, evaluate_of_measured (hasked.mpr hc) hm', seats_mirror]
      apply verdict_congr
      · exact fun k => acrossPlane_mirror
      · intro k
        unfold Call.margins
        rw [seats_mirror]
        exact margin_congr (openMargins_mirror hdown hvertical)
    · have hm' : ∀ m', ¬ (c.mirror j).Measured m' := by
        intro m' h
        obtain ⟨m, h, -⟩ := (measured_mirror hvertical m').mp h
        exact hm ⟨m, h⟩
      rw [evaluate_of_not_measured hc fun m h => hm ⟨m, h⟩,
        evaluate_of_not_measured (hasked.mpr hc) hm']
      exact ⟨rfl, rfl⟩
  · have hc' : ¬ (c.mirror j).Asked := hc
    simp [Call.evaluate, hc, hc']

/-! ## A face that moves outwards -/

/-- The box with one face moved. -/
def moveOut (f : Face) (d : ℚ) (box : Box) : Box := fun f' =>
  if f' = f then (box f').map fun q => if f.2 = .min then q - d else q + d else box f'

lemma gap_moveOut (f' : Face) : gap (moveOut f d box) body f' =
    if f' = f then (gap box body f').map (· + d) else gap box body f' := by
  obtain ⟨i, s⟩ := f'
  by_cases heq : (i, s) = f
  · subst heq
    cases s <;> simp only [gap, moveOut, if_true] <;>
      cases box (i, _) <;> cases body (i, _) <;> simp <;> ring
  · cases s <;> simp [gap, moveOut, heq]

/-- A face that was seated stays so, when an open one moves. -/
lemma open_of_moveOut (hopen : Open box body flow grounded seats f) {f' : Face}
    (h : Open (moveOut f d box) body flow grounded seats f') :
    Open box body flow grounded seats f' := by
  intro hseated
  have hne : f' ≠ f := by
    rintro rfl
    exact hopen hseated
  apply h
  have hsits : ∀ e : Face × String, e.1 = f' →
      (SitsOn (moveOut f d box) body e.1 ↔ SitsOn box body e.1) := by
    rintro e rfl
    unfold SitsOn
    rw [gap_moveOut, if_neg hne]
  simp only [seated, List.mem_append, List.mem_map, List.mem_filter, decide_eq_true_eq] at hseated ⊢
  obtain ⟨e, ⟨he, hon⟩, heq⟩ | hfloor := hseated
  · exact .inl ⟨e, ⟨he, (hsits e heq).mpr hon⟩, heq⟩
  · exact .inr hfloor

lemma isSome_gap_moveOut (f' : Face) :
    (gap (moveOut f d box) body f').isSome = (gap box body f').isSome := by
  rw [gap_moveOut]
  split <;> simp

lemma openMargins_moveOut (hopen : Open box body flow grounded seats f) (hd : 0 ≤ d) (hr : 0 < r)
    {q' : ℚ} (hq' : q' ∈ openMargins (moveOut f d box) body r flow grounded seats k) :
    ∃ q ∈ openMargins box body r flow grounded seats k, q ≤ q' := by
  obtain ⟨f', hf', hopen', g', hg', rfl⟩ := hq'
  rw [Option.mem_def, gap_moveOut] at hg'
  split at hg'
  · obtain ⟨g, hg, rfl⟩ := Option.map_eq_some_iff.mp hg'
    refine ⟨g / r, ⟨f', hf', open_of_moveOut hopen hopen', g, hg, rfl⟩, ?_⟩
    gcongr
    linarith
  · exact ⟨g' / r, ⟨f', hf', open_of_moveOut hopen hopen', g', hg', rfl⟩, le_rfl⟩

/-- From nothing asked to nothing measured. -/
def Status.rank : Status → ℕ
  | .na => 0
  | .pass => 1
  | .miss => 2
  | .block => 3
  | .unmeasured => 4

def Call.withBox (c : Call) (box : Box) : Call :=
  { c with manifest := { c.manifest with domainBox := some box } }

/-- A verdict is no worse when no margin is smaller. -/
lemma rank_le {margins margins' : Direction → Option Room}
    (h : ∀ k room', margins' k = some room' →
      ∃ room, margins k = some room ∧ room.margin ≤ room'.margin) :
    (findings requested tol r flow seats margins').verdict.status.rank ≤
      (findings requested tol r flow seats margins).verdict.status.rank := by
  have hblock : (findings requested tol r flow seats margins').blocks ≠ [] →
      (findings requested tol r flow seats margins).blocks ≠ [] := by
    rw [findings_blocks, findings_blocks]
    rintro (hacross | ⟨k, rv, room', ⟨hnone, hrv, hroom'⟩, hblocks⟩)
    · exact .inl hacross
    · obtain ⟨room, hroom, hle⟩ := h k room' hroom'
      refine .inr ⟨k, rv, room, ⟨hnone, hrv, hroom⟩, ?_⟩
      unfold Blocks at hblocks ⊢
      grind
  have hmiss : (findings requested tol r flow seats margins').caveats ≠ [] →
      (findings requested tol r flow seats margins).blocks ≠ [] ∨
        (findings requested tol r flow seats margins).caveats ≠ [] := by
    rw [findings_caveats, findings_blocks, findings_caveats]
    rintro ⟨k, rv, room', ⟨hnone, hrv, hroom'⟩, hnears⟩
    obtain ⟨room, hroom, hle⟩ := h k room' hroom'
    by_cases hb : Blocks tol rv room.margin
    · exact .inl (.inr ⟨k, rv, room, ⟨hnone, hrv, hroom⟩, hb⟩)
    · refine .inr ⟨k, rv, room, ⟨hnone, hrv, hroom⟩, ?_⟩
      unfold Blocks at hb
      unfold Nears at hnears ⊢
      grind
  unfold Findings.verdict
  split
  · next hb => simp [hblock hb]
  · split
    · next hc =>
      obtain hb | hc := hmiss hc
      · simp [hb, Status.rank]
      · simp only [hc, ne_eq, not_false_eq_true, if_true]
        split <;> simp [Status.rank]
    · split
      · simp [Status.rank]
      · split <;> simp [Status.rank]

theorem outward_le (hbox : c.manifest.theBox = some box) (hd : 0 ≤ d)
    (hopen : ∀ m, c.measure? = some m → Open m.box m.body m.flow c.isGrounded c.seats f) :
    (c.withBox (moveOut f d box)).evaluate.status.rank ≤ c.evaluate.status.rank := by
  have hasked : (c.withBox (moveOut f d box)).Asked ↔ c.Asked := Iff.rfl
  by_cases hc : c.Asked
  · by_cases hm : ∃ m, c.Measured m
    · obtain ⟨m, hm⟩ := hm
      obtain ⟨hdown, hr⟩ := measure?_down hm.1
      have hopen := hopen m hm.1
      have hbox' : m.box = box := by
        have hmeasure := hm.1
        simp only [Call.measure?, hbox, Option.bind_eq_some_iff, Option.map_eq_some_iff,
          Option.some.injEq] at hmeasure
        obtain ⟨_, -, _, rfl, _, -, _, -, _, -, rfl⟩ := hmeasure
        rfl
      have hmeasured : (c.withBox (moveOut f d box)).Measured
          { m with box := moveOut f d m.box } := by
        constructor
        · have hmeasure := hm.1
          simp only [Call.measure?, hbox, Option.bind_eq_some_iff, Option.map_eq_some_iff,
            Option.some.injEq] at hmeasure ⊢
          obtain ⟨requested, hrequested, _, rfl, body, hbody, r, hpos, flow, hflow, rfl⟩ := hmeasure
          exact ⟨requested, hrequested, _, rfl, body, hbody, r, hpos, flow, hflow, rfl⟩
        · have hrecorded := (recorded_iff hdown).mp hm.2
          refine (recorded_iff hdown).mpr ⟨?_, ?_⟩
          · intro e he
            rw [isSome_gap_moveOut]
            exact hrecorded.1 e he
          · intro f' hf'
            rw [isSome_gap_moveOut]
            exact hrecorded.2 f' (open_of_moveOut hopen hf')
      rw [evaluate_of_measured hc hm, evaluate_of_measured (hasked.mpr hc) hmeasured]
      apply rank_le
      intro k room' hroom'
      obtain ⟨q, hq, hle⟩ := openMargins_moveOut hopen hd hr (isLeast_margin hroom').1
      obtain ⟨room, hroom, hle'⟩ := exists_room hq
      exact ⟨room, hroom, hle'.trans hle⟩
    · rw [evaluate_of_not_measured hc fun m h => hm ⟨m, h⟩]
      change _ ≤ 4
      cases (c.withBox (moveOut f d box)).evaluate.status <;> simp [Status.rank]
  · have hc' : ¬ (c.withBox (moveOut f d box)).Asked := hc
    simp [Call.evaluate, hc, hc']

/-! ## The status -/

namespace Call

/-- A plane lies across the flow. -/
def Across (c : Call) (m : Measure) : Prop := ∃ s, (c.seats.lookup (m.flow.axis, s)).isSome = true

/-- A face is open. -/
def OpenFace (c : Call) (m : Measure) (f : Face) : Prop :=
  Open m.box m.body m.flow c.isGrounded c.seats f

/-- An open side of a requested direction touches or clips the body. -/
def Touches (c : Call) (m : Measure) : Prop :=
  ∃ k rv, m.requested.get k = some rv ∧
    ∃ f ∈ m.flow.faces k, c.OpenFace m f ∧ ∃ g ∈ gap m.box m.body f, g ≤ 0

/-- The margin of a direction with an open side is the least on its open sides. -/
def Margin (c : Call) (m : Measure) (k : Direction) (q : ℚ) : Prop :=
  IsLeast {q | ∃ f ∈ m.flow.faces k, c.OpenFace m f ∧ ∃ g ∈ gap m.box m.body f, g / m.r = q} q

end Call

lemma exists_across (hdown : flow.down = flow.up.other) : (∃ k, acrossPlane flow seats k ≠ none) ↔
    ∃ s, (seats.lookup (flow.axis, s)).isSome = true := by
  constructor
  · rintro ⟨k, hk⟩
    cases k with
    | upstream => exact ⟨flow.up, by simpa [acrossPlane, Option.isSome_iff_ne_none] using hk⟩
    | downstream => exact ⟨flow.down, by simpa [acrossPlane, Option.isSome_iff_ne_none] using hk⟩
    | lateral | vertical => exact absurd rfl hk
  · rintro ⟨s, hs⟩
    rw [Option.isSome_iff_ne_none] at hs
    by_cases hup : s = flow.up
    · exact ⟨.upstream, by simpa [acrossPlane, ← hup] using hs⟩
    · have hdown' : s = flow.down := by
        rw [hdown]
        cases s <;> cases hu : flow.up <;> simp_all [Side.other]
      exact ⟨.downstream, by simpa [acrossPlane, ← hdown'] using hs⟩

lemma margin_iff {m : Call.Measure} {q : ℚ} :
    c.Margin m k q ↔ ∃ room, c.margins m k = some room ∧ room.margin = q := by
  constructor
  · intro hleast
    obtain ⟨room, hroom, -⟩ := exists_room hleast.1
    exact ⟨room, hroom, (isLeast_margin hroom).unique hleast⟩
  · rintro ⟨room, hroom, rfl⟩
    exact isLeast_margin hroom

section Measured

variable {m : Call.Measure}

theorem status_of_across_or_touches (hasked : c.Asked) (hm : c.Measured m)
    (h : c.Across m ∨ c.Touches m) : c.evaluate.status = .block := by
  obtain ⟨hdown, hr⟩ := measure?_down hm.1
  rw [evaluate_of_measured hasked hm, Findings.status_block, findings_blocks]
  obtain hacross | ⟨k, rv, hrv, f, hf, hopen, g, hg, hle⟩ := h
  · exact .inl ((exists_across hdown).mpr hacross)
  · by_cases hplane : acrossPlane m.flow c.seats k = none
    · obtain ⟨room, hroom, hmargin⟩ := exists_room ⟨f, hf, hopen, g, hg, rfl⟩
      have hneg : g / m.r ≤ 0 := div_nonpos_of_nonpos_of_nonneg hle hr.le
      exact .inr ⟨k, rv, room, ⟨hplane, hrv, hroom⟩, .inl (hmargin.trans hneg)⟩
    · exact .inl ⟨k, hplane⟩

/-- With no plane across the flow every requested margin is judged. -/
lemma exists_judged (hacross : ¬ c.Across m) (hdown : m.flow.down = m.flow.up.other)
    (P : ℚ → ℚ → Prop) :
    (∃ k rv room, Judged m.requested m.flow c.seats (c.margins m) k rv room ∧ P rv room.margin) ↔
      ∃ k rv q, m.requested.get k = some rv ∧ c.Margin m k q ∧ P rv q := by
  have hplane : ∀ k, acrossPlane m.flow c.seats k = none := by
    intro k
    by_contra hne
    exact hacross ((exists_across hdown).mp ⟨k, hne⟩)
  simp only [Judged, hplane, true_and, margin_iff]
  constructor
  · rintro ⟨k, rv, room, ⟨hrv, hroom⟩, hP⟩
    exact ⟨k, rv, room.margin, hrv, ⟨room, hroom, rfl⟩, hP⟩
  · rintro ⟨k, rv, q, hrv, ⟨room, hroom, rfl⟩, hP⟩
    exact ⟨k, rv, room, ⟨hrv, hroom⟩, hP⟩

/-- With nothing touching every requested margin is positive. -/
lemma margin_pos (htouches : ¬ c.Touches m) (hr : 0 < m.r) {rv q : ℚ}
    (hrv : m.requested.get k = some rv) (hq : c.Margin m k q) : 0 < q := by
  obtain ⟨f, hf, hopen, g, hg, rfl⟩ := hq.1
  have hg' : 0 < g := by
    by_contra hle
    exact htouches ⟨k, rv, hrv, f, hf, hopen, g, hg, not_lt.mp hle⟩
  positivity

lemma half_le {rv q : ℚ} (htol : tol ≤ 1 / 2) (hpos : 0 < q) (hq : q < rv * floorFraction) :
    q < rv * (1 - tol) := by
  have hrv : 0 < rv := by
    unfold floorFraction at hq
    linarith
  have hle : rv * floorFraction ≤ rv * (1 - tol) := by
    apply mul_le_mul_of_nonneg_left _ hrv.le
    unfold floorFraction
    linarith
  exact hq.trans_le hle

theorem status_otherwise (hasked : c.Asked) (hm : c.Measured m) (htol : c.tol ≤ 1 / 2)
    (hacross : ¬ c.Across m) (htouches : ¬ c.Touches m) :
    (c.evaluate.status = .pass ↔
      ∀ k rv q, m.requested.get k = some rv → c.Margin m k q → rv * (1 - c.tol) ≤ q) ∧
    (c.evaluate.status = .block ↔
      ∃ k rv q, m.requested.get k = some rv ∧ c.Margin m k q ∧ q < rv * floorFraction) ∧
    (c.evaluate.status = .miss ↔
      (∃ k rv q, m.requested.get k = some rv ∧ c.Margin m k q ∧ q < rv * (1 - c.tol)) ∧
        ∀ k rv q, m.requested.get k = some rv → c.Margin m k q → rv * floorFraction ≤ q) := by
  obtain ⟨hdown, hr⟩ := measure?_down hm.1
  have hpos : ∀ k rv q, m.requested.get k = some rv → c.Margin m k q → 0 < q :=
    fun k rv q hrv hq => margin_pos htouches hr hrv hq
  have hnone : ¬ ∃ k, acrossPlane m.flow c.seats k ≠ none :=
    fun h => hacross ((exists_across hdown).mp h)
  have hblock : (findings m.requested c.tol m.r m.flow c.seats (c.margins m)).blocks ≠ [] ↔
      ∃ k rv q, m.requested.get k = some rv ∧ c.Margin m k q ∧ q < rv * floorFraction := by
    rw [findings_blocks, or_iff_right hnone, exists_judged hacross hdown]
    constructor
    · rintro ⟨k, rv, q, hrv, hq, hle | ⟨-, hlt⟩⟩
      · exact absurd hle (not_le.mpr (hpos k rv q hrv hq))
      · exact ⟨k, rv, q, hrv, hq, hlt⟩
    · rintro ⟨k, rv, q, hrv, hq, hlt⟩
      exact ⟨k, rv, q, hrv, hq, .inr ⟨half_le htol (hpos k rv q hrv hq) hlt, hlt⟩⟩
  have hmiss : (findings m.requested c.tol m.r m.flow c.seats (c.margins m)).caveats ≠ [] ↔
      ∃ k rv q, m.requested.get k = some rv ∧ c.Margin m k q ∧ q < rv * (1 - c.tol) ∧
        rv * floorFraction ≤ q := by
    rw [findings_caveats, exists_judged hacross hdown]
    constructor
    · rintro ⟨k, rv, q, hrv, hq, -, hnear⟩
      exact ⟨k, rv, q, hrv, hq, hnear⟩
    · rintro ⟨k, rv, q, hrv, hq, hnear⟩
      exact ⟨k, rv, q, hrv, hq, hpos k rv q hrv hq, hnear⟩
  have hnoblock : (findings m.requested c.tol m.r m.flow c.seats (c.margins m)).blocks = [] ↔
      ∀ k rv q, m.requested.get k = some rv → c.Margin m k q → rv * floorFraction ≤ q := by
    rw [← not_iff_not, ← ne_eq, hblock]
    push Not
    rfl
  rw [evaluate_of_measured hasked hm, Findings.status_pass, Findings.status_block,
    Findings.status_miss, hnoblock, hblock, hmiss]
  refine ⟨⟨?_, ?_⟩, Iff.rfl, ⟨?_, ?_⟩⟩
  · rintro ⟨hfloor, hcaveats⟩ k rv q hrv hq
    by_contra hlt
    rw [← not_not (a := _ = []), ← ne_eq, hmiss] at hcaveats
    exact hcaveats ⟨k, rv, q, hrv, hq, not_le.mp hlt, hfloor k rv q hrv hq⟩
  · intro hwithin
    constructor
    · intro k rv q hrv hq
      by_contra hlt
      have hlt' := half_le htol (hpos k rv q hrv hq) (not_le.mp hlt)
      exact absurd (hwithin k rv q hrv hq) (not_le.mpr hlt')
    · rw [← not_not (a := _ = []), ← ne_eq, hmiss]
      rintro ⟨k, rv, q, hrv, hq, hlt, -⟩
      exact absurd (hwithin k rv q hrv hq) (not_le.mpr hlt)
  · rintro ⟨hfloor, k, rv, q, hrv, hq, hlt, -⟩
    exact ⟨⟨k, rv, q, hrv, hq, hlt⟩, hfloor⟩
  · rintro ⟨⟨k, rv, q, hrv, hq, hlt⟩, hfloor⟩
    exact ⟨hfloor, k, rv, q, hrv, hq, hlt, hfloor k rv q hrv hq⟩

end Measured

/-! ## The gate -/

/-- The verdict of a call sees geometry. -/
structure SeesGeometry (c : Call) : Prop where
  mirror : ∀ j, (j = verticalAxis → c.isGrounded = false) →
    (c.mirror j).evaluate.status = c.evaluate.status ∧
      (c.mirror j).evaluate.misses.map Miss.measure = c.evaluate.misses.map Miss.measure
  outward : ∀ box f d, c.manifest.theBox = some box → 0 ≤ d →
    (∀ m, c.measure? = some m → c.OpenFace m f) →
      (c.withBox (moveOut f d box)).evaluate.status.rank ≤ c.evaluate.status.rank
  na : c.evaluate.status = .na ↔ ¬ c.Asked
  unmeasured : c.evaluate.status = .unmeasured ↔ c.Asked ∧ ∀ m, ¬ c.Measured m
  blocks : ∀ m, c.Asked → c.Measured m → c.Across m ∨ c.Touches m → c.evaluate.status = .block
  otherwise : ∀ m, c.Asked → c.Measured m → c.tol ≤ 1 / 2 → ¬ c.Across m → ¬ c.Touches m →
    (c.evaluate.status = .pass ↔
      ∀ k rv q, m.requested.get k = some rv → c.Margin m k q → rv * (1 - c.tol) ≤ q) ∧
    (c.evaluate.status = .block ↔
      ∃ k rv q, m.requested.get k = some rv ∧ c.Margin m k q ∧ q < rv * floorFraction) ∧
    (c.evaluate.status = .miss ↔
      (∃ k rv q, m.requested.get k = some rv ∧ c.Margin m k q ∧ q < rv * (1 - c.tol)) ∧
        ∀ k rv q, m.requested.get k = some rv → c.Margin m k q → rv * floorFraction ≤ q)

lemma Findings.status_measured (f : Findings) :
    f.verdict.status ≠ .na ∧ f.verdict.status ≠ .unmeasured := by
  unfold verdict
  split
  · simp
  · split <;> simp

lemma status_na : c.evaluate.status = .na ↔ ¬ c.Asked := by
  constructor
  · intro hstatus hc
    by_cases hm : ∃ m, c.Measured m
    · obtain ⟨m, hm⟩ := hm
      rw [evaluate_of_measured hc hm] at hstatus
      exact (Findings.status_measured _).1 hstatus
    · rw [evaluate_of_not_measured hc fun m h => hm ⟨m, h⟩] at hstatus
      cases hstatus
  · intro hc
    simp [Call.evaluate, hc]

lemma status_unmeasured : c.evaluate.status = .unmeasured ↔ c.Asked ∧ ∀ m, ¬ c.Measured m := by
  constructor
  · intro hstatus
    have hc : c.Asked := by
      by_contra hc
      rw [status_na.mpr hc] at hstatus
      cases hstatus
    refine ⟨hc, ?_⟩
    intro m hm
    rw [evaluate_of_measured hc hm] at hstatus
    exact (Findings.status_measured _).2 hstatus
  · rintro ⟨hc, hm⟩
    rw [evaluate_of_not_measured hc hm]

theorem sees_geometry (c : Call) : SeesGeometry c where
  mirror _ hvertical := evaluate_mirror hvertical
  outward _ _ _ hbox hd hopen := outward_le hbox hd hopen
  na := status_na
  unmeasured := status_unmeasured
  blocks _ hasked hm h := status_of_across_or_touches hasked hm h
  otherwise _ hasked hm htol hacross htouches := status_otherwise hasked hm htol hacross htouches

/-- The flow goes along x, and a plane lies on the face that it comes from; nothing is asked. -/
def nothingAsked : Call :=
  ⟨some [], some 1, ⟨none, [], none, none, none, none, none⟩, defaultTol, none, none,
    some [some ⟨.text "x", some "min", some "cut", none⟩]⟩

/-- A plane across the flow blocks a request only. -/
theorem plane_not_blocked : ¬ ∀ (c : Call) flow s, flowSides c.flowAxis = some flow →
    (c.seats.lookup (flow.axis, s)).isSome = true → c.evaluate.status = .block := by
  intro h
  have hblock := h nothingAsked ⟨.x, .min, .max⟩ .min (by decide +kernel) (by decide +kernel)
  have hna : nothingAsked.evaluate.status = .na := by decide +kernel
  rw [hna] at hblock
  cases hblock

end MeshPipeline.DomainExtent
