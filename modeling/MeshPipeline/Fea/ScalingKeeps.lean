import MeshPipeline.Fea.PlanScaling
import Mathlib.Tactic.Positivity

/-!
# What scaling keeps

The size of a zone grows with either factor, stops at the minimum of its kind, and the marks say which
minimum held it or is broken. A zone is marked as breaking a minimum only when it is coarser than it was.
-/

namespace MeshPipeline.Fea.PlanScaling

variable {z w row : Zone} {s s' u u' new : ℚ}

lemma rounded_mono : Monotone rounded := DecimalRound.significant_mono (by norm_num)

@[simp]
lemma rounded_rounded (v : ℚ) : rounded (rounded v) = rounded v :=
  DecimalRound.significant_significant v (by norm_num)

/-! ## Past the minimums -/

/-- A size times the second factor, as far as the validity limit allows. -/
def pastSize (limit : Option ℚ) (new u : ℚ) : ℚ :=
  if 1 < u then
    match limit with
    | none => new * u
    | some limit => max new (min (new * u) limit)
  else new

lemma le_pastSize {limit : Option ℚ} (hnew : 0 ≤ new) (hu : 1 ≤ u) : new ≤ pastSize limit new u := by
  unfold pastSize
  split
  · cases limit with
    | none => exact le_mul_of_one_le_right hnew hu
    | some limit => exact le_max_left _ _
  · exact le_rfl

lemma pastSize_mono {limit : Option ℚ} {new' : ℚ} (hnew : 1 < u → 0 ≤ new) (hnew' : 1 < u' → 0 ≤ new')
    (hle : new ≤ new') (hu : 1 ≤ u) (huu : u ≤ u') :
    pastSize limit new u ≤ pastSize limit new' u' := by
  by_cases hgt' : 1 < u'
  · by_cases hgt : 1 < u
    · have hprod : new * u ≤ new' * u' := mul_le_mul hle huu (by linarith) (hnew' hgt')
      unfold pastSize
      rw [if_pos hgt, if_pos hgt']
      cases limit with
      | none => exact hprod
      | some limit => exact max_le_max hle (min_le_min hprod le_rfl)
    · have hone : pastSize limit new u = new := if_neg hgt
      rw [hone]
      exact hle.trans (le_pastSize (hnew' hgt') hgt'.le)
  · have hone : pastSize limit new u = new := if_neg fun h => hgt' (h.trans_le huu)
    have hone' : pastSize limit new' u' = new' := if_neg hgt'
    rw [hone, hone']
    exact hle

namespace Zone

/-! ## The size -/

/-- The size that a zone gets, before it is rounded. -/
def got (z : Zone) (s u : ℚ) : ℚ := z.beyondSize (z.firstSize s).1 u

/-- The first factor, held at the cap but never finer than the zone was. -/
lemma firstSize_of_gt (hz : 0 < z.sizeM) (hs : 1 < s) : (z.firstSize s).1 =
    match z.scaleCap with
    | some cap => max z.sizeM (min (z.sizeM * s) cap.1)
    | none => z.sizeM * s := by
  have hwant : z.sizeM < z.sizeM * s := lt_mul_of_one_lt_right hz hs
  unfold firstSize
  dsimp only
  rw [if_pos hs]
  cases z.scaleCap with
  | none => rfl
  | some cap =>
    dsimp only
    split
    · next hcap => rw [min_eq_right hcap.le]
    · next hcap => rw [min_eq_left (not_lt.mp hcap), max_eq_right hwant.le]

lemma firstSize_of_le (hs : ¬ 1 < s) : (z.firstSize s).1 =
    if z.kind = .corner ∧ z.capped then z.sizeM else z.sizeM * s := by
  unfold firstSize
  dsimp only
  rw [if_neg hs]
  split <;> rfl

lemma size_le_firstSize (hz : 0 < z.sizeM) (hs : 1 ≤ s) : z.sizeM ≤ (z.firstSize s).1 := by
  have hwant : z.sizeM ≤ z.sizeM * s := le_mul_of_one_le_right hz.le hs
  by_cases hgt : 1 < s
  · rw [firstSize_of_gt hz hgt]
    cases z.scaleCap with
    | none => exact hwant
    | some cap => exact le_max_left _ _
  · rw [firstSize_of_le hgt]
    split
    · exact le_rfl
    · exact hwant

lemma firstSize_le_size (hz : 0 < z.sizeM) (hs : s ≤ 1) : (z.firstSize s).1 ≤ z.sizeM := by
  rw [firstSize_of_le hs.not_gt]
  split
  · exact le_rfl
  · exact mul_le_of_le_one_right hz.le hs

lemma firstSize_mono (hz : 0 < z.sizeM) (hs : s ≤ s') : (z.firstSize s).1 ≤ (z.firstSize s').1 := by
  have hwant : z.sizeM * s ≤ z.sizeM * s' := by gcongr
  by_cases hgt : 1 < s
  · rw [firstSize_of_gt hz hgt, firstSize_of_gt hz (hgt.trans_le hs)]
    cases z.scaleCap with
    | none => exact hwant
    | some cap => exact max_le_max le_rfl (min_le_min hwant le_rfl)
  · by_cases hgt' : 1 < s'
    · exact (firstSize_le_size hz (not_lt.mp hgt)).trans (size_le_firstSize hz hgt'.le)
    · rw [firstSize_of_le hgt, firstSize_of_le hgt']
      split
      · exact le_rfl
      · exact hwant

lemma beyondSize_eq : z.beyondSize new u = pastSize (z.validCap.map Prod.fst) new u := by
  unfold beyondSize pastSize
  cases z.validCap <;> rfl

/-- The size grows with both factors. -/
lemma got_mono (hz : 0 < z.sizeM) (hs : s ≤ s') (hu : 1 ≤ u) (huu : u ≤ u') (hpast : 1 < u → 1 ≤ s)
    (hpast' : 1 < u' → 1 ≤ s') : z.got s u ≤ z.got s' u' := by
  rw [got, got, beyondSize_eq, beyondSize_eq]
  exact pastSize_mono (fun h => hz.le.trans (size_le_firstSize hz (hpast h)))
    (fun h => hz.le.trans (size_le_firstSize hz (hpast' h))) (firstSize_mono hz hs) hu huu

lemma got_one (hz : 0 < z.sizeM) : z.got 1 1 = z.sizeM := by
  have hone : z.got 1 1 = (z.firstSize 1).1 := by simp [got, beyondSize]
  rw [hone]
  exact le_antisymm (firstSize_le_size hz le_rfl) (size_le_firstSize hz le_rfl)

/-- The first factor makes no zone coarser than its cap and what it was. -/
lemma firstSize_le_cap (hz : 0 < z.sizeM) {cap : ℚ × String} (hcap : z.scaleCap = some cap) :
    (z.firstSize s).1 ≤ max z.sizeM cap.1 := by
  by_cases hgt : 1 < s
  · rw [firstSize_of_gt hz hgt, hcap]
    exact max_le_max le_rfl (min_le_right _ _)
  · exact (firstSize_le_size hz (not_lt.mp hgt)).trans (le_max_left _ _)

/-- The second factor makes no zone coarser than its validity limit and what the first gave. -/
lemma beyondSize_le {limit : ℚ × String} (hlimit : z.validCap = some limit) :
    z.beyondSize new u ≤ max new limit.1 := by
  unfold beyondSize
  rw [hlimit]
  split
  · exact max_le_max le_rfl (min_le_right _ _)
  · exact le_max_left _ _

/-- A zone with a validity limit has a cap. -/
lemma scaleCap_of_validCap {limit : ℚ × String} (h : z.validCap = some limit) :
    ∃ cap, z.scaleCap = some cap := by
  have hne : ∀ {xs : List (ℚ × String)}, xs ≠ [] → ∃ cap, xs.argmin Prod.fst = some cap := by
    intro xs hxs
    cases hmin : xs.argmin Prod.fst with
    | none => exact absurd (List.argmin_eq_none.mp hmin) hxs
    | some cap => exact ⟨cap, rfl⟩
  apply hne
  unfold validCap at h
  split at h
  · next r hr =>
    split at hr
    · next hcurve => simp [hcurve, hr]
    · cases hr
  · split at h
    · next hpart => simp [hpart]
    · cases h

/-! ## What breaks a minimum -/

/-- A hot spot with fewer elements per quarter-turn or through its wall than its accuracy asks. -/
def BelowAccuracy (z : Zone) (new : ℚ) : Prop :=
  z.kind.IsSpot ∧
    ((∃ r, positive z.radiusM = some r ∧ quarter * r / new < hotSpotPerQuarter * (1 - slack)) ∨
      ∃ t, positive z.thicknessM = some t ∧ t / new < stressWallElements * (1 - slack))

/-- Fewer elements per quarter-turn than a curve keeps. -/
def BreaksCurve (z : Zone) (new : ℚ) : Prop :=
  z.kind.IsCurve ∧
    ∃ r, positive z.radiusM = some r ∧ quarter * r / new < roundPerQuarter * (1 - slack)

/-- Fewer elements through the wall than a wall keeps. -/
def BreaksWall (z : Zone) (new : ℚ) : Prop :=
  (z.kind.IsSpot ∨ z.kind = .wall ∨ z.kind = .wallSpot) ∧
    ∃ t, positive z.thicknessM = some t ∧ t / new < PlanScaling.wallElements * (1 - slack)

/-- A corner coarser than its wall allows. -/
def BreaksCorner (z : Zone) (new : ℚ) : Prop :=
  z.kind = .corner ∧
    ∃ t, positive z.thicknessM = some t ∧ t / PlanScaling.wallElements * (1 + slack) < new

/-- The minimum that a size breaks: of a hot spot that breaks both, its curve's. -/
def Breaks (z : Zone) (new : ℚ) (rule : String) : Prop :=
  (rule = "PLAN-fea-7" ∧ z.BreaksCurve new) ∨
    (rule = "PLAN-fea-3" ∧ z.BreaksWall new ∧ ¬ z.BreaksCurve new) ∨
    (rule = "PLAN-fea-5" ∧ z.BreaksCorner new)

/-- The minimum that cuts the first factor. -/
def Cut (z : Zone) (s : ℚ) (rule : String) : Prop :=
  (1 < s ∧ ∃ cap, z.scaleCap = some (cap, rule) ∧ cap < z.sizeM * s) ∨
    (s < 1 ∧ z.kind = .corner ∧ z.capped = true ∧ rule = "PLAN-fea-5")

/-- The validity limit that cuts the second one. -/
def CutValid (z : Zone) (s u : ℚ) (why : String) : Prop :=
  1 < u ∧ ∃ limit, z.validCap = some (limit, why) ∧ limit < (z.firstSize s).1 * u

/-- A zone that no scaling has marked yet. -/
structure Unmarked (z : Zone) : Prop where
  held : z.held = none
  validHeld : z.validHeld = none
  belowAccuracy : z.belowAccuracy = false
  crossed : z.crossed = none

lemma accuracy_frame :
    (z.accuracy row new).sizeM = row.sizeM ∧ (z.accuracy row new).held = row.held ∧
      (z.accuracy row new).validHeld = row.validHeld := by
  unfold accuracy
  cases z.kind <;> cases positive z.radiusM <;> cases positive z.thicknessM <;>
    simp [ZoneKind.IsSpot] <;> split_ifs <;> simp

lemma belowAccuracy_accuracy :
    (z.accuracy row new).belowAccuracy = true ↔
      row.belowAccuracy = true ∨ z.sizeM < new ∧ z.BelowAccuracy new := by
  unfold accuracy BelowAccuracy
  by_cases hnew : new ≤ z.sizeM
  · simp [hnew]
  · cases z.kind <;> cases positive z.radiusM <;> cases positive z.thicknessM <;>
      simp [ZoneKind.IsSpot, hnew, not_le.mp hnew] <;> grind

lemma crossed_accuracy (hrow : row.crossed = none) (rule : String) :
    (z.accuracy row new).crossed = some rule ↔ z.sizeM < new ∧ z.Breaks new rule := by
  unfold accuracy Breaks BreaksCurve BreaksWall BreaksCorner
  by_cases hnew : new ≤ z.sizeM
  · simp [hnew, hrow]
  · cases z.kind <;> cases positive z.radiusM <;> cases positive z.thicknessM <;>
      simp [ZoneKind.IsSpot, ZoneKind.IsCurve, hnew, not_le.mp hnew, hrow] <;> grind

/-! ## One zone -/

/-- A zone of a scaled plan: two factors of one leave it as it is. -/
def scaledAt (s u : ℚ) (z : Zone) : Zone := if s = 1 ∧ u = 1 then z else z.scaled s u

/-- What scaling makes of the zone `z`, up to the rounding of sizes. -/
structure Scales (s u : ℚ) (z w : Zone) : Prop where
  user : z.user.getD "" ≠ "" → w = z
  accurate : u = 1 → ∀ cap ∈ z.scaleCap, rounded w.sizeM ≤ rounded (max z.sizeM cap.1)
  valid : ∀ limit ∈ z.validCap, ∃ cap ∈ z.scaleCap,
    rounded w.sizeM ≤ rounded (max (max z.sizeM cap.1) limit.1)
  size : z.user.getD "" = "" → rounded w.sizeM = rounded (z.got s u)
  held : z.user.getD "" = "" → z.Unmarked → ∀ rule,
    w.held = some rule ↔ z.Cut s rule ∧ z.got s u = (z.firstSize s).1
  validHeld : z.user.getD "" = "" → z.Unmarked → ∀ why, w.validHeld = some why ↔ z.CutValid s u why
  belowAccuracy : z.user.getD "" = "" → z.Unmarked →
    (w.belowAccuracy = true ↔ z.sizeM < z.got s u ∧ z.BelowAccuracy (z.got s u))
  crossed : z.user.getD "" = "" → z.Unmarked → ∀ rule,
    w.crossed = some rule ↔ z.sizeM < z.got s u ∧ z.Breaks (z.got s u) rule

lemma got_le_cap (hz : 0 < z.sizeM) {cap : ℚ × String} (hcap : z.scaleCap = some cap) :
    z.got s 1 ≤ max z.sizeM cap.1 := by
  have hone : z.got s 1 = (z.firstSize s).1 := by simp [got, beyondSize]
  rw [hone]
  exact firstSize_le_cap hz hcap

lemma got_le_valid (hz : 0 < z.sizeM) {cap limit : ℚ × String} (hcap : z.scaleCap = some cap)
    (hlimit : z.validCap = some limit) : z.got s u ≤ max (max z.sizeM cap.1) limit.1 :=
  (beyondSize_le hlimit).trans (max_le_max (firstSize_le_cap hz hcap) le_rfl)

lemma firstSize_held (hs : s ≠ 1) (rule : String) :
    (z.firstSize s).2 = some rule ↔ z.Cut s rule := by
  unfold firstSize Cut
  dsimp only
  by_cases hgt : 1 < s
  · have hlt : ¬ s < 1 := hgt.not_gt
    cases hcap : z.scaleCap with
    | none => simp [hgt, hlt]
    | some cap =>
      obtain ⟨cap, name⟩ := cap
      by_cases hcut : cap < z.sizeM * s <;> simp [hgt, hlt, hcut]
  · have hlt : s < 1 := lt_of_le_of_ne (not_lt.mp hgt) hs
    by_cases hcorner : z.kind = .corner ∧ z.capped = true
    · simp [hgt, hlt, hcorner, eq_comm]
    · grind

/-- A corner has no validity limit, so a second factor takes it past its minimum. -/
lemma firstSize_lt_got_of_corner (hz : 0 < z.sizeM) (hkind : z.kind = .corner) (hs : 1 ≤ s) (hu : 1 < u) :
    (z.firstSize s).1 < z.got s u := by
  have hnone : z.validCap = none := by simp [validCap, hkind, ZoneKind.IsCurve]
  have hgot : z.got s u = (z.firstSize s).1 * u := by simp [got, beyondSize, hnone, hu]
  rw [hgot]
  exact lt_mul_of_one_lt_right (hz.trans_le (size_le_firstSize hz hs)) hu

lemma firstSize_le_got (hz : 0 < z.sizeM) (hu : 1 ≤ u) (hpast : 1 < u → 1 ≤ s) :
    (z.firstSize s).1 ≤ z.got s u := by
  by_cases hgt : 1 < u
  · rw [got, beyondSize_eq]
    exact le_pastSize (hz.le.trans (size_le_firstSize hz (hpast hgt))) hu
  · rw [got, beyondSize, if_neg hgt]

/-- What a zone is made into, its minimums still to be looked at. -/
def scaledRow (z : Zone) (s u : ℚ) : Zone :=
  { z with
    unscaledM := some z.sizeM
    validHeld := (z.beyondHeld (z.firstSize s).1 u).orElse fun _ => z.validHeld
    held := if (z.firstSize s).1 < z.got s u then none else (z.firstSize s).2.orElse fun _ => z.held
    sizeM := rounded (z.got s u) }

lemma scaled_of_free (hfree : z.user.getD "" = "") :
    z.scaled s u = z.accuracy (z.scaledRow s u) (z.got s u) := by
  unfold scaled
  rw [if_neg (not_not.mpr hfree)]
  rfl

lemma scaled_size (hfree : z.user.getD "" = "") : (z.scaled s u).sizeM = rounded (z.got s u) := by
  rw [scaled_of_free hfree]
  exact accuracy_frame.1

lemma scaled_held (hz : 0 < z.sizeM) (hu : 1 ≤ u) (hpast : 1 < u → 1 ≤ s) (hone : ¬ (s = 1 ∧ u = 1))
    (hfree : z.user.getD "" = "") (hmarks : z.Unmarked) (rule : String) :
    (z.scaled s u).held = some rule ↔ z.Cut s rule ∧ z.got s u = (z.firstSize s).1 := by
  have hframe : (z.scaled s u).held = (z.scaledRow s u).held := by
    rw [scaled_of_free hfree]
    exact accuracy_frame.2.1
  have hle := firstSize_le_got (s := s) hz hu hpast
  rw [hframe]
  unfold scaledRow
  dsimp only
  rw [hmarks.held]
  split
  · next hlt => simp [hlt.ne']
  · next hlt =>
    have heq : z.got s u = (z.firstSize s).1 := le_antisymm (not_lt.mp hlt) hle
    by_cases hs : s = 1
    · have hgt : 1 < u := lt_of_le_of_ne hu fun h => hone ⟨hs, h.symm⟩
      have hkind : z.kind ≠ .corner := fun h =>
        hlt (firstSize_lt_got_of_corner hz h hs.ge hgt)
      simp [hs, Cut, firstSize, hkind]
    · simp [heq, firstSize_held hs]

lemma scaled_validHeld (hfree : z.user.getD "" = "") (hmarks : z.Unmarked) (why : String) :
    (z.scaled s u).validHeld = some why ↔ z.CutValid s u why := by
  have hframe : (z.scaled s u).validHeld = (z.scaledRow s u).validHeld := by
    rw [scaled_of_free hfree]
    exact accuracy_frame.2.2
  rw [hframe]
  unfold scaledRow beyondHeld CutValid
  dsimp only
  rw [hmarks.validHeld]
  cases z.validCap with
  | none => simp
  | some limit => grind

lemma scales_scaled (hz : 0 < z.sizeM) (hu : 1 ≤ u) (hpast : 1 < u → 1 ≤ s)
    (hone : ¬ (s = 1 ∧ u = 1)) : Scales s u z (z.scaled s u) where
  user huser := by rw [scaled, if_pos huser]
  accurate hu' cap hcap := by
    by_cases hfree : z.user.getD "" = ""
    · rw [scaled_size hfree, rounded_rounded, hu']
      exact rounded_mono (got_le_cap hz hcap)
    · rw [scaled, if_pos hfree]
      exact rounded_mono (le_max_left _ _)
  valid limit hlimit := by
    obtain ⟨cap, hcap⟩ := scaleCap_of_validCap hlimit
    refine ⟨cap, hcap, ?_⟩
    by_cases hfree : z.user.getD "" = ""
    · rw [scaled_size hfree, rounded_rounded]
      exact rounded_mono (got_le_valid hz hcap hlimit)
    · rw [scaled, if_pos hfree]
      exact rounded_mono ((le_max_left _ _).trans (le_max_left _ _))
  size hfree := by rw [scaled_size hfree, rounded_rounded]
  held hfree hmarks rule := scaled_held hz hu hpast hone hfree hmarks rule
  validHeld hfree hmarks why := scaled_validHeld hfree hmarks why
  belowAccuracy hfree hmarks := by
    rw [scaled_of_free hfree, belowAccuracy_accuracy]
    simp [scaledRow, hmarks.belowAccuracy]
  crossed hfree hmarks rule := by
    rw [scaled_of_free hfree]
    have hrow : (z.scaledRow s u).crossed = none := hmarks.crossed
    exact crossed_accuracy hrow rule

/-- Two factors of one cut nothing and break nothing. -/
lemma scales_self (hz : 0 < z.sizeM) : Scales 1 1 z z where
  user _ := rfl
  accurate _ cap _ := rounded_mono (le_max_left _ _)
  valid limit hlimit := by
    obtain ⟨cap, hcap⟩ := scaleCap_of_validCap hlimit
    exact ⟨cap, hcap, rounded_mono ((le_max_left _ _).trans (le_max_left _ _))⟩
  size _ := by rw [got_one hz]
  held _ hmarks rule := by simp [hmarks.held, Cut]
  validHeld _ hmarks why := by simp [hmarks.validHeld, CutValid]
  belowAccuracy _ hmarks := by simp [hmarks.belowAccuracy, got_one hz]
  crossed _ hmarks rule := by simp [hmarks.crossed, got_one hz]

lemma scales_scaledAt (hz : 0 < z.sizeM) (hu : 1 ≤ u) (hpast : 1 < u → 1 ≤ s) :
    Scales s u z (scaledAt s u z) := by
  unfold scaledAt
  split
  · next hone =>
    obtain ⟨rfl, rfl⟩ := hone
    exact scales_self hz
  · next hone => exact scales_scaled hz hu hpast hone

lemma scaledAt_mono (hz : 0 < z.sizeM) (hs : s ≤ s') (hu : 1 ≤ u) (huu : u ≤ u') (hpast : 1 < u → 1 ≤ s)
    (hpast' : 1 < u' → 1 ≤ s') : rounded (scaledAt s u z).sizeM ≤ rounded (scaledAt s' u' z).sizeM := by
  have hw := scales_scaledAt hz hu hpast
  have hw' := scales_scaledAt hz (hu.trans huu) hpast'
  by_cases hfree : z.user.getD "" = ""
  · rw [hw.size hfree, hw'.size hfree]
    exact rounded_mono (got_mono hz hs hu huu hpast hpast')
  · rw [hw.user hfree, hw'.user hfree]

/-! ## The floor -/

/-- A floor makes no zone finer, and none coarser than the size that keeps it valid. -/
def Floors (through : ℚ) (z w : Zone) : Prop :=
  z.sizeM ≤ w.sizeM ∧ ∀ keep ∈ z.keepSize through, w.sizeM ≤ max z.sizeM keep

lemma floors_floored (floorM through : ℚ) (kinds : Option (List ZoneKind)) :
    Floors through z (z.floored floorM through kinds) := by
  have hsame : Floors through z z := ⟨le_rfl, fun keep _ => le_max_left _ _⟩
  unfold floored
  dsimp only
  split
  · cases hkeep : z.keepSize through with
    | none =>
      dsimp only
      split
      · next hlt => exact ⟨hlt.le, by simp [hkeep]⟩
      · exact hsame
    | some keep =>
      dsimp only
      split
      · next hlt =>
        refine ⟨hlt.le, fun keep' hkeep' => ?_⟩
        obtain rfl : keep = keep' := by simpa [hkeep] using hkeep'
        exact max_le_max le_rfl (min_le_right _ _)
      · exact hsame
  · exact hsame

end Zone

/-! ## The plan -/

lemma scaled_eq (zones : List Zone) (s u : ℚ) : scaled zones s u = zones.map (Zone.scaledAt s u) := by
  unfold scaled Zone.scaledAt
  split
  · simp
  · rfl

lemma baseSize_eq {d : ℚ} (hd : 0 ≤ d) :
    baseSize d s u =
      pastSize (some (d / validDivisions)) (min (d / minDivisions * s) (d / targetMinDivisions)) u := by
  unfold baseSize pastSize
  by_cases hone : s = 1 ∧ u = 1
  · obtain ⟨rfl, rfl⟩ := hone
    have hle : d / minDivisions ≤ d / targetMinDivisions := by
      unfold minDivisions targetMinDivisions
      linarith
    simp [hle]
  · rw [if_neg hone]

lemma baseSize_mono {d : ℚ} (hd : 0 ≤ d) (hs : s ≤ s') (hu : 1 ≤ u) (huu : u ≤ u') (hpast : 1 < u → 1 ≤ s)
    (hpast' : 1 < u' → 1 ≤ s') : baseSize d s u ≤ baseSize d s' u' := by
  have hbase : 0 ≤ d / minDivisions := div_nonneg hd (by norm_num [minDivisions])
  have htarget : 0 ≤ d / targetMinDivisions := div_nonneg hd (by norm_num [targetMinDivisions])
  have hpos : ∀ {s}, 1 ≤ s → 0 ≤ min (d / minDivisions * s) (d / targetMinDivisions) := fun hs =>
    le_min (mul_nonneg hbase (by linarith)) htarget
  rw [baseSize_eq hd, baseSize_eq hd]
  exact pastSize_mono (fun h => hpos (hpast h)) (fun h => hpos (hpast' h))
    (min_le_min (by gcongr) le_rfl) hu huu

/-- Scaling and flooring a plan: sizes grow with the factors, stop at the minimums of their zones and, of
zones without marks, those cut by a minimum or made coarser past one are marked with it. -/
theorem scaled_keeps (zones : List Zone) (diagM s s' u u' : ℚ) (hsize : ∀ z ∈ zones, 0 < z.sizeM)
    (hdiag : 0 ≤ diagM) (hs : s ≤ s') (hu : 1 ≤ u) (huu : u ≤ u') (hpast : 1 < u → 1 ≤ s)
    (hpast' : 1 < u' → 1 ≤ s') :
    List.Forall₂ (fun w w' => rounded w.sizeM ≤ rounded w'.sizeM) (scaled zones s u) (scaled zones s' u') ∧
      baseSize diagM s u ≤ baseSize diagM s' u' ∧
      List.Forall₂ (Zone.Scales s u) zones (scaled zones s u) ∧
      ∀ floorM through kinds,
        List.Forall₂ (Zone.Floors through) zones (floored zones floorM through kinds) := by
  refine ⟨?_, baseSize_mono hdiag hs hu huu hpast hpast', ?_, fun floorM through kinds => ?_⟩
  · rw [scaled_eq, scaled_eq, List.forall₂_map_left_iff, List.forall₂_map_right_iff, List.forall₂_same]
    exact fun z hz => Zone.scaledAt_mono (hsize z hz) hs hu huu hpast hpast'
  · rw [scaled_eq, List.forall₂_map_right_iff, List.forall₂_same]
    exact fun z hz => Zone.scales_scaledAt (hsize z hz) hu hpast
  · rw [floored, List.forall₂_map_right_iff, List.forall₂_same]
    exact fun z _ => Zone.floors_floored floorM through kinds

/-- A wall of thickness one whose size is two. -/
def thickWall : Zone where
  kind := .wall
  sizeM := 2
  thicknessM := some 1
  radiusM := none
  diagM := none
  capped := false
  user := none
  perQuarter := none
  wallElements := none
  unscaledM := none
  ruleSizeM := none
  held := none
  validHeld := none
  belowAccuracy := false
  crossed := none
  short := false
  keptValid := false

/-- The wall made finer. -/
lemma thickWall_got : thickWall.got (9 / 10) 1 = 9 / 5 := by
  norm_num [Zone.got, Zone.beyondSize, Zone.firstSize, thickWall]

/-- A zone made finer that still breaks its minimum is not marked, and a mark from before is carried. -/
theorem scaling_marks_inexactly :
    ((scaled [thickWall] (9 / 10) 1).map Zone.crossed = [none] ∧
      thickWall.Breaks (thickWall.got (9 / 10) 1) "PLAN-fea-3") ∧
      (scaled [{ thickWall with held := some "PLAN-fea-3" }] (9 / 10) 1).map Zone.held =
        [some "PLAN-fea-3"] ∧
      ¬ Zone.Cut { thickWall with held := some "PLAN-fea-3" } (9 / 10) "PLAN-fea-3" := by
  refine ⟨⟨?_, ?_⟩, ?_, ?_⟩
  · norm_num [scaled, Zone.scaled, Zone.accuracy, Zone.firstSize, Zone.beyondSize, thickWall]
  · rw [thickWall_got]
    refine .inr (.inl ⟨rfl, ⟨.inr (.inl rfl), 1, ?_, ?_⟩, ?_⟩)
    · norm_num [positive, thickWall]
    · norm_num [PlanScaling.wallElements, slack]
    · simp [Zone.BreaksCurve, thickWall, ZoneKind.IsCurve]
  · norm_num [scaled, Zone.scaled, Zone.accuracy, Zone.firstSize, Zone.beyondSize, thickWall]
  · norm_num [Zone.Cut, thickWall]

/-- The wall at one and at twice its size. -/
theorem scaled_keeps_thickWall :
    List.Forall₂ (fun w w' => rounded w.sizeM ≤ rounded w'.sizeM) (scaled [thickWall] 1 1)
        (scaled [thickWall] 2 2) ∧
      baseSize 10 1 1 ≤ baseSize 10 2 2 ∧
      List.Forall₂ (Zone.Scales 1 1) [thickWall] (scaled [thickWall] 1 1) ∧
      ∀ floorM through kinds,
        List.Forall₂ (Zone.Floors through) [thickWall] (floored [thickWall] floorM through kinds) :=
  scaled_keeps [thickWall] 10 1 2 1 2 (by simp [thickWall]) (by norm_num) (by norm_num) le_rfl
    (by norm_num) (by norm_num) (by norm_num)

end MeshPipeline.Fea.PlanScaling
