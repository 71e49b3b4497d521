import MeshPipeline.Library.DecimalRound
import MeshPipeline.Passage.FluidCopy

/-!
# The evidence of the flow, and the verdict on it

The readings of the sampled wall points are split into side passages and the rest by the main way,
and the rest has its neck: its under-resolved readings on passages that must be crossed. The
resolution floor is judged on what is recorded of them.
-/

namespace MeshPipeline.Passage

def sideFraction : ℚ := 9 / 10

def sideShareMax : ℚ := 25 / 100

def neckMinPoints : ℕ := 20

/-- Twice `PASSAGE_CEILING_CELLS`. -/
def reachCells : ℚ := 2 * 40

/-- `np.percentile`: between the two nearest ranks. -/
def percentile (q : ℚ) (xs : List ℚ) : ℚ :=
  let sorted := xs.insertionSort (· ≤ ·)
  let x := ((xs.length : ℚ) - 1) * q / 100
  let n := ⌊x⌋.toNat
  sorted.getD n 0 + (x - n) * (sorted.getD (n + 1) (sorted.getD n 0) - sorted.getD n 0)

structure Stats where
  p05 : ℚ
  median : ℚ
  least : ℚ
  points : ℕ

/-- `_stats`: nothing of no values. -/
def stats (xs : List ℚ) : Option Stats :=
  xs.min?.map fun least =>
    { p05 := DecimalRound.round 1 (percentile 5 xs)
      median := DecimalRound.round 1 (percentile 50 xs)
      least := DecimalRound.round 1 least
      points := xs.length }

/-! ## Readings -/

/-- What a ray from a wall point sees. -/
inductive Chord
  /-- No reading: a grazing hit, or one from behind. -/
  | grazing
  /-- No wall within reach. -/
  | wide
  /-- Half of the way to the wall that faces back. -/
  | half (radius : ℚ)

/-- A sampled wall point. -/
structure Reading where
  chord : Chord
  edge : ℚ
  area : ℚ
  point : Point
  inward : Point

/-- A wall point that reads. -/
structure Measured where
  radius : ℚ
  cells : ℚ
  area : ℚ
  /-- The ball that spans the passage there. -/
  ball : Ball

/-- A point that sees no wall bounds a passage as wide as the reach. -/
def Reading.measured (x : Reading) : Option Measured :=
  let reads (r : ℚ) : Measured :=
    { radius := r
      cells := 2 * r / max x.edge (1 / 10 ^ 300)
      area := x.area
      ball :=
        { centre :=
            { x := x.point.x + x.inward.x * r
              y := x.point.y + x.inward.y * r
              z := x.point.z + x.inward.z * r }
          radius := r } }
  match x.chord with
  | .grazing => none
  | .wide => some (reads (1 / 2 * reachCells * x.edge))
  | .half r => some (reads r)

/-! ## The record -/

structure Side where
  share : ℚ := 0
  underFloorShare : ℚ := 0
  points : ℕ := 0
  underFloorPoints : ℕ := 0
  mainUnderFloorPoints : ℕ := 0
  cellsAcross : Option Stats := none
  width : Option ℚ := none
  narrowestWidth : Option ℚ := none

/-- The record, as far as anything reads it; without a main way there is nothing else in it. -/
structure Evidence where
  /-- The width of the main way, and its voxel. -/
  mainWay : Option (ℚ × ℚ) := none
  main : Option Stats := none
  neckShare : ℚ := 0
  neck : Option Stats := none
  side : Side := {}

section Split

variable (copy : FluidCopy) (floor radius : ℚ) (ms : List Measured)

/-- The readings on side passages: clearly narrower than the main way. -/
def sides : List Measured := ms.filter fun m => m.radius < sideFraction * radius

def mains : List Measured := ms.filter fun m => ¬ m.radius < sideFraction * radius

def under : List Measured := ms.filter fun m => m.cells < floor

/-- The main way's readings under the floor, each with whether its passage must be crossed. -/
def weak : List (Measured × Bool) :=
  let weak := under floor (mains radius ms)
  weak.zip (copy.mustCross (weak.map (·.ball)))

def neck : List Measured := ((weak copy floor radius ms).filter (·.2)).map (·.1)

/-- The share of the area that the readings line. -/
def shareOf (part : List Measured) : ℚ :=
  let total := (ms.map (·.area)).sum
  DecimalRound.round 4 ((part.map (·.area)).sum / if total = 0 then 1 else total)

def sideRecord : Side :=
  let side := sides radius ms
  let low := under floor side
  { share := shareOf ms side
    underFloorShare := shareOf ms low
    points := side.length
    underFloorPoints := low.length
    mainUnderFloorPoints := (under floor (mains radius ms)).length
    cellsAcross := stats (low.map (·.cells))
    width :=
      if low = [] then none
      else some (DecimalRound.round 6 (2 * percentile 50 (low.map (·.radius))))
    narrowestWidth :=
      if low = [] then none
      else some (DecimalRound.round 6 (2 * percentile 5 (low.map (·.radius)))) }

end Split

/-- `flow_evidence`, from the sampled readings on: the copy is made for the narrow passages' width. -/
def flowEvidence (copyAt : ℚ → Option FluidCopy) (floor : ℚ) (readings : List Reading) :
    Option Evidence :=
  let ms := readings.filterMap Reading.measured
  if ms.length < 20 then none
  else if under floor ms = [] then some {}
  else
    match copyAt (2 * percentile 5 (ms.map (·.radius))) with
    | none => some {}
    | some copy =>
      match copy.mainWay with
      | none => some {}
      | some way =>
        let neck := neck copy floor way.radius ms
        some
          { mainWay := some (DecimalRound.round 6 (2 * way.radius), DecimalRound.round 6 way.voxel)
            main := stats ((mains way.radius ms).map (·.cells))
            neckShare := shareOf ms neck
            neck := stats (neck.map (·.cells))
            side := sideRecord floor way.radius ms }

/-! ## The verdict -/

inductive Scope | unmeasured | narrowest | main
  deriving DecidableEq, Repr

structure Verdict where
  ok : Bool
  scope : Scope
  cellsAcross : Option ℚ := none
  median : Option ℚ := none
  side : Side := {}
  mainWayWidth : Option ℚ := none

/-- What the verdict reads of a mesh's quality. -/
structure Quality where
  p05 : Option ℚ
  median : Option ℚ
  passageFlow : Option Evidence

/-- The neck's figure, where enough points read there and it is the lower one. -/
def Evidence.neckFigure (e : Evidence) (figure : ℚ) : Option Stats :=
  e.neck.filter fun n => neckMinPoints ≤ n.points ∧ n.p05 < figure

/-- `judge_resolution`. -/
def judgeResolution (q : Quality) (floor : ℚ) : Verdict :=
  match q.p05 with
  | none => { ok := true, scope := .unmeasured }
  | some p05 =>
    let narrowest : Verdict :=
      { ok := floor ≤ p05, scope := .narrowest, cellsAcross := some p05, median := q.median }
    if floor ≤ p05 then narrowest
    else
      match q.passageFlow with
      | none => narrowest
      | some e =>
        match e.mainWay, e.main with
        | some way, some main =>
          if e.side.underFloorShare ≤ 0 ∨ sideShareMax < e.side.underFloorShare then narrowest
          else
            let figures := (e.neckFigure main.p05).getD main
            { ok := floor ≤ figures.p05
              scope := .main
              cellsAcross := some figures.p05
              median := some figures.median
              side := e.side
              mainWayWidth := some way.1 }
        | _, _ => narrowest

end MeshPipeline.Passage
