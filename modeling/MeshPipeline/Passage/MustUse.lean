import MeshPipeline.Passage.FlowEvidence

/-!
# A passage that the flow must use

What the main way is, which passages are flagged as ones that the flow cannot go round, and when the
verdict on the recorded evidence cannot pass.
-/

namespace MeshPipeline.Passage

namespace FluidCopy

variable {copy : FluidCopy} {balls : List Ball} {b : Ball} {k : Finset Voxel}

/-- A passage that alone parts the ports is flagged. -/
theorem flagged_of_parts (hk : copy.passageOf balls b = some k) (hparts : copy.joined 0 k = false) :
    (!copy.joined 0 (copy.shut balls) &&
      (copy.passageOf balls b).any (copy.crossed (ranked (balls.map (copy.passageOf balls))))) =
        true := by
  have hshut : copy.joined 0 (copy.shut balls) = false := by
    by_contra hjoined
    have := joined_of_subset (passageOf_subset hk) (by simpa using hjoined)
    rw [hparts] at this
    cases this
  simp [hshut, hk, crossed, hparts]

/-- Where the passages together part the ports, some passage is flagged just if one of them parts
them alone or is not tested. -/
theorem exists_flagged_iff (h : copy.joined 0 (copy.shut balls) = false) :
    true ∈ copy.mustCross balls ↔ ∃ b ∈ balls, ∃ k, copy.passageOf balls b = some k ∧
      (copy.joined 0 k = false ∨
        maxPassagesTested ≤ (ranked (balls.map (copy.passageOf balls))).idxOf k) := by
  rw [mustCross_eq]
  simp only [List.mem_map, h, Bool.not_false, Bool.true_and, Option.any_eq_true, crossed,
    Bool.or_eq_true, decide_eq_true_eq, Bool.not_eq_eq_eq_not, Bool.not_true]
  grind

end FluidCopy

section Verdict

variable {copyAt : ℚ → Option FluidCopy} {floor p : ℚ} {readings : List Reading} {q : Quality}

/-- The neck is short of the floor: points enough read there, and their recorded figure is low. -/
def NeckShort (copyAt : ℚ → Option FluidCopy) (floor : ℚ) (readings : List Reading) : Prop :=
  let ms := readings.filterMap Reading.measured
  ∀ copy, copyAt (2 * percentile 5 (ms.map (·.radius))) = some copy → ∀ way,
    copy.mainWay = some way →
      neckMinPoints ≤ (neck copy floor way.radius ms).length ∧
        DecimalRound.round 1 (percentile 5 ((neck copy floor way.radius ms).map (·.cells))) < floor

lemma stats_eq_some {xs : List ℚ} (h : xs ≠ []) : ∃ s, stats xs = some s ∧
    s.p05 = DecimalRound.round 1 (percentile 5 xs) ∧ s.points = xs.length := by
  obtain ⟨least, hleast⟩ := Option.isSome_iff_exists.mp (List.isSome_min?_of_ne_nil h)
  exact ⟨_, by rw [stats, hleast]; rfl, rfl, rfl⟩

/-- What is recorded of a short neck is under the floor, whatever is recorded of the main way. -/
lemma neckFigure_lt {e : Evidence} (main : Stats) (hshort : ∃ n, e.neck = some n ∧
    neckMinPoints ≤ n.points ∧ n.p05 < floor) : ((e.neckFigure main.p05).getD main).p05 < floor := by
  obtain ⟨n, hneck, hpoints, hlt⟩ := hshort
  rw [Evidence.neckFigure, hneck]
  by_cases hfigure : n.p05 < main.p05
  · simpa [Option.filter, hpoints, hfigure] using hlt
  · have hle : main.p05 ≤ n.p05 := not_lt.mp hfigure
    simpa [Option.filter, hfigure] using hle.trans_lt hlt

/-- The record of a short neck. -/
lemma neck_of_flowEvidence {e : Evidence} (he : flowEvidence copyAt floor readings = some e)
    (hway : e.mainWay ≠ none) (hshort : NeckShort copyAt floor readings) :
    ∃ n, e.neck = some n ∧ neckMinPoints ≤ n.points ∧ n.p05 < floor := by
  unfold flowEvidence at he
  dsimp only at he
  split at he
  · cases he
  · split at he
    · obtain rfl := Option.some.inj he
      exact absurd rfl hway
    · split at he
      · obtain rfl := Option.some.inj he
        exact absurd rfl hway
      · next copy hcopy =>
        split at he
        · obtain rfl := Option.some.inj he
          exact absurd rfl hway
        · next way hmain =>
          obtain rfl := Option.some.inj he
          obtain ⟨hpoints, hlt⟩ := hshort copy hcopy way hmain
          have hne : (neck copy floor way.radius
              (readings.filterMap Reading.measured)).map (·.cells) ≠ [] := by
            intro hnil
            rw [List.map_eq_nil_iff.mp hnil] at hpoints
            exact absurd hpoints (by decide)
          obtain ⟨n, hn, hp05, hnum⟩ := stats_eq_some hne
          exact ⟨n, hn, by simpa [hnum] using hpoints, hp05 ▸ hlt⟩

/-- A mesh whose figure is under the floor does not pass with a neck that is short. -/
theorem not_ok_of_neckShort (hp : q.p05 = some p) (hlt : p < floor)
    (hflow : q.passageFlow = flowEvidence copyAt floor readings)
    (hshort : NeckShort copyAt floor readings) : (judgeResolution q floor).ok = false := by
  have hp' : ¬ floor ≤ p := not_le.mpr hlt
  unfold judgeResolution
  simp only [hp, hp', if_false, decide_false]
  cases he : flowEvidence copyAt floor readings with
  | none => rw [hflow, he]
  | some e =>
    rw [hflow, he]
    dsimp only
    split
    · next way main hway _ =>
      split
      · rfl
      · have hfigure := neckFigure_lt main
          (neck_of_flowEvidence he (by simp [hway]) hshort)
        simpa using hfigure
    · rfl

end Verdict

/-- The main way is the widest, and what is nearer to the wall can go; a passage that alone parts the
ports is flagged, and of passages that part them together one is where one does so alone or is not
tested; a neck that is flagged and short is not passed over. -/
theorem must_use_flagged (copy : FluidCopy) (copyAt : ℚ → Option FluidCopy) (floor : ℚ)
    (readings : List Reading) :
    ((∀ t, copy.widest = some t → copy.joined t ∅ = true ∧
        (∀ t', copy.joined t' ∅ = true → t' ≤ t) ∧
        ∀ removed : Finset Voxel, (∀ v ∈ removed, copy.dist v < t) →
          copy.joined 0 removed = true) ∧
      (copy.widest = none → ∀ t, copy.joined t ∅ = false) ∧
      ∀ way, copy.mainWay = some way → copy.widest = some way.read) ∧
    (∀ balls, List.Forall₂ (fun b flag => ∀ k, copy.passageOf balls b = some k →
        copy.joined 0 k = false → flag = true) balls (copy.mustCross balls)) ∧
    (∀ balls, copy.joined 0 (copy.shut balls) = false → (true ∈ copy.mustCross balls ↔
      ∃ b ∈ balls, ∃ k, copy.passageOf balls b = some k ∧ (copy.joined 0 k = false ∨
        maxPassagesTested ≤
          (FluidCopy.ranked (balls.map (copy.passageOf balls))).idxOf k))) ∧
    ∀ (q : Quality) (p : ℚ), q.p05 = some p → p < floor →
      q.passageFlow = flowEvidence copyAt floor readings → NeckShort copyAt floor readings →
        (judgeResolution q floor).ok = false := by
  refine ⟨⟨fun t ht => ?_, FluidCopy.widest_spec.2, fun way hway => ?_⟩, fun balls => ?_,
    fun balls => FluidCopy.exists_flagged_iff, fun q p => not_ok_of_neckShort⟩
  · obtain ⟨hjoined, hmax⟩ := FluidCopy.widest_spec.1 t ht
    exact ⟨hjoined, hmax, fun removed => FluidCopy.joined_of_removed hjoined⟩
  · obtain ⟨read, hread, hsome⟩ := Option.bind_eq_some_iff.mp hway
    dsimp only at hsome
    split at hsome
    · cases hsome
    · obtain rfl := Option.some.inj hsome
      exact hread
  · rw [FluidCopy.mustCross_eq, List.forall₂_map_right_iff, List.forall₂_same]
    exact fun b _ k => FluidCopy.flagged_of_parts

/-! ## Two holes in a plate -/

def rowOf (i : ℤ) : Finset Voxel := {⟨i, 0, 0⟩, ⟨i, 1, 0⟩, ⟨i, 2, 0⟩, ⟨i, 3, 0⟩, ⟨i, 4, 0⟩}

/-- A plate across the flow with a hole at each end. -/
def twoHoles : FluidCopy where
  shape := ⟨3, 5, 1⟩
  fluid := rowOf 0 ∪ {⟨1, 0, 0⟩, ⟨1, 4, 0⟩} ∪ rowOf 2
  dist _ := 1
  atPort := [rowOf 0, rowOf 2]
  origin := ⟨0, 0, 0⟩
  h := 1
  dist_nonneg _ := by decide
  two_ports := by decide
  h_pos := by decide

def holes : List Ball := [⟨⟨3 / 2, 1 / 2, 1 / 2⟩, 1 / 2⟩, ⟨⟨3 / 2, 9 / 2, 1 / 2⟩, 1 / 2⟩]

/-- Either hole can be gone round through the other one, so neither is flagged, though there is no
third way. -/
theorem twoHoles_flags_neither :
    twoHoles.joined 0 (twoHoles.shut holes) = false ∧ true ∉ twoHoles.mustCross holes := by
  decide +kernel

end MeshPipeline.Passage
