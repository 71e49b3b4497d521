import MeshPipeline.Library.DecimalRound
import Mathlib.Data.List.MinMax

/-!
# Scaling a plan to an element count

Every size of a plan times one factor, held at the minimums that keep its accuracy, and then, past those,
times a second one as far as elements stay valid. The floor that coarsens the finest zones is here too.
-/

namespace MeshPipeline.Fea.PlanScaling

/-- The kinds of zones; an area of the user's and any other kind have no rule here. -/
inductive ZoneKind
  | wall | wallSpot | hole | fillet | notch | corner | round | part | other
  deriving DecidableEq, Repr

/-- A hole, a fillet or a notch. -/
def ZoneKind.IsSpot (k : ZoneKind) : Prop := k ∈ [ZoneKind.hole, .fillet, .notch]

/-- A zone that has a radius to keep: a hot spot or a round. -/
def ZoneKind.IsCurve (k : ZoneKind) : Prop := k ∈ [ZoneKind.hole, .fillet, .notch, .round]

instance (k : ZoneKind) : Decidable k.IsSpot := inferInstanceAs (Decidable (k ∈ _))

instance (k : ZoneKind) : Decidable k.IsCurve := inferInstanceAs (Decidable (k ∈ _))

/-- A zone: its size, what it measures, and the marks that scaling and flooring leave on it. -/
structure Zone where
  kind : ZoneKind
  sizeM : ℚ
  thicknessM : Option ℚ
  radiusM : Option ℚ
  diagM : Option ℚ
  capped : Bool
  user : Option String
  perQuarter : Option ℚ
  wallElements : Option ℚ
  unscaledM : Option ℚ
  ruleSizeM : Option ℚ
  held : Option String
  validHeld : Option String
  belowAccuracy : Bool
  crossed : Option String
  short : Bool
  keptValid : Bool
  deriving DecidableEq, Repr

/-! ## The constants of the rules -/

def minDivisions : ℚ := 10
def targetMinDivisions : ℚ := 5
def validDivisions : ℚ := 3
def wallElements : ℚ := 2
def stressWallElements : ℚ := 3
def hotSpotPerQuarter : ℚ := 6
def roundPerQuarter : ℚ := 4
def keepPerQuarter : ℚ := 3
def validPerQuarter : ℚ := keepPerQuarter

/-- `QUARTER`: the float nearest to half of pi. -/
def quarter : ℚ := 884279719003555 / 562949953421312

/-- `1e-6`, the share by which a minimum may be missed. -/
def slack : ℚ := 1 / 1000000

/-- `_f`: a positive number, or nothing. -/
def positive (v : Option ℚ) : Option ℚ := v.filter (0 < ·)

/-- `_r`. -/
def rounded (v : ℚ) : ℚ := DecimalRound.significant 6 v

/-- `value or other`, of numbers. -/
def orElse (v : Option ℚ) (other : ℚ) : ℚ :=
  match v with
  | some x => if x = 0 then other else x
  | none => other

namespace Zone

/-! ## The floor -/

/-- `keep_size`. -/
def keepSize (z : Zone) (through : ℚ) : Option ℚ :=
  let sizes := (z.thicknessM.filter (· ≠ 0)).toList.map (· / through) ++
    if z.kind.IsCurve then
      (z.radiusM.filter (· ≠ 0)).toList.map fun r => quarter * r / keepPerQuarter
    else []
  sizes.min?

/-- One zone of `floored`: a zone finer than the floor is meshed at the floor, or at its validity minimum
where that is finer. -/
def floored (z : Zone) (floorM through : ℚ) (kinds : Option (List ZoneKind)) : Zone :=
  if z.sizeM < floorM ∧ ∀ ks ∈ kinds, z.kind ∈ ks then
    let keep := z.keepSize through
    let new := match keep with
      | none => floorM
      | some keep => max z.sizeM (min floorM keep)
    if z.sizeM < new then
      { z with
        ruleSizeM := some z.sizeM
        sizeM := new
        short := true
        keptValid := if keep.isSome ∧ new < floorM then true else z.keptValid }
    else z
  else z

/-! ## The caps -/

/-- `valid_cap`. -/
def validCap (z : Zone) : Option (ℚ × String) :=
  match if z.kind.IsCurve then positive z.radiusM else none with
  | some r => some (quarter * r / validPerQuarter, "curve")
  | none =>
    if z.kind = .part then (positive z.diagM).map fun d => (d / validDivisions, "part") else none

/-- The kinds whose wall holds a scaled size. -/
def wallKinds : List ZoneKind := [.wall, .wallSpot, .corner, .hole, .fillet, .notch]

/-- `scale_cap`: the least of the caps, of two equal ones the one of the smaller rule. -/
def scaleCap (z : Zone) : Option (ℚ × String) :=
  let wall := if z.kind ∈ wallKinds then
      (positive z.thicknessM).toList.map fun t => (t / PlanScaling.wallElements, "PLAN-fea-3")
    else []
  let curve := if z.kind.IsCurve then
      (positive z.radiusM).toList.map fun r => (quarter * r / roundPerQuarter, "PLAN-fea-7")
    else []
  let part := if z.kind = .part then
      [((positive z.diagM).getD (z.sizeM * minDivisions) / targetMinDivisions, "PLAN-fea-28")]
    else []
  (wall ++ curve ++ part).argmin Prod.fst

/-! ## One zone -/

/-- `_accuracy`: what a zone made coarser gives, and which minimums that breaks. `z` is the zone as it
was, `row` what is made of it. -/
def accuracy (z row : Zone) (new : ℚ) : Zone :=
  if new ≤ z.sizeM then row
  else
    let r := positive z.radiusM
    let t := positive z.thicknessM
    if z.kind.IsSpot then
      let row := match r with
        | none => row
        | some r =>
          let got := quarter * r / new
          { row with
            perQuarter := some (DecimalRound.round 3 (min (orElse z.perQuarter hotSpotPerQuarter) got))
            belowAccuracy := row.belowAccuracy || decide (got < hotSpotPerQuarter * (1 - slack))
            crossed := if got < roundPerQuarter * (1 - slack) then some "PLAN-fea-7" else row.crossed }
      match t with
      | none => row
      | some t =>
        let got := t / new
        { row with
          wallElements := some (DecimalRound.round 3 (min (orElse z.wallElements stressWallElements) got))
          belowAccuracy := row.belowAccuracy || decide (got < stressWallElements * (1 - slack))
          crossed := if got < PlanScaling.wallElements * (1 - slack) then
              some (row.crossed.getD "PLAN-fea-3") else row.crossed }
    else if z.kind = .wall ∨ z.kind = .wallSpot then
      match t with
      | none => row
      | some t =>
        let got := t / new
        let row := if orElse z.wallElements 0 ≠ 0 ∨ got < PlanScaling.wallElements * (1 - slack) then
            { row with
              wallElements := some (DecimalRound.round 3
                (min (orElse z.wallElements PlanScaling.wallElements) got)) }
          else row
        if got < PlanScaling.wallElements * (1 - slack) then { row with crossed := some "PLAN-fea-3" }
        else row
    else if z.kind = .round then
      match r with
      | none => row
      | some r =>
        if quarter * r / new < roundPerQuarter * (1 - slack) then { row with crossed := some "PLAN-fea-7" }
        else row
    else if z.kind = .corner then
      match t with
      | none => row
      | some t =>
        if t / PlanScaling.wallElements * (1 + slack) < new then { row with crossed := some "PLAN-fea-5" }
        else row
    else row

/-- The size that the first factor gives, and the rule that held it. -/
def firstSize (z : Zone) (s : ℚ) : ℚ × Option String :=
  let want := z.sizeM * s
  if 1 < s then
    match z.scaleCap with
    | some (cap, rule) => if cap < want then (max z.sizeM cap, some rule) else (want, none)
    | none => (want, none)
  else if z.kind = .corner ∧ z.capped then (z.sizeM, some "PLAN-fea-5")
  else (want, none)

/-- The size that the second factor takes `new` to. -/
def beyondSize (z : Zone) (new u : ℚ) : ℚ :=
  if 1 < u then
    match z.validCap with
    | none => new * u
    | some (cap, _) => max new (min (new * u) cap)
  else new

/-- What holds the second factor. -/
def beyondHeld (z : Zone) (new u : ℚ) : Option String :=
  if 1 < u then z.validCap.bind fun c => if c.1 < new * u then some c.2 else none else none

/-- One zone of `scaled`. -/
def scaled (z : Zone) (s u : ℚ) : Zone :=
  if z.user.getD "" ≠ "" then z
  else
    let (new, held) := z.firstSize s
    let far := z.beyondSize new u
    let row := { z with
      unscaledM := some z.sizeM
      validHeld := (z.beyondHeld new u).orElse fun _ => z.validHeld
      held := if new < far then none else held.orElse fun _ => z.held
      sizeM := rounded far }
    z.accuracy row far

end Zone

/-! ## The plan -/

/-- `floored`. -/
def floored (zones : List Zone) (floorM through : ℚ) (kinds : Option (List ZoneKind)) : List Zone :=
  zones.map fun z => z.floored floorM through kinds

/-- `scaled`: two factors of one leave the zones as they are. -/
def scaled (zones : List Zone) (s u : ℚ) : List Zone :=
  if s = 1 ∧ u = 1 then zones else zones.map fun z => z.scaled s u

/-- `base_size`. -/
def baseSize (diagM s u : ℚ) : ℚ :=
  let base := diagM / minDivisions
  if s = 1 ∧ u = 1 then base
  else
    let base := min (base * s) (diagM / targetMinDivisions)
    if 1 < u then max base (min (base * u) (diagM / validDivisions)) else base

end MeshPipeline.Fea.PlanScaling
