import Mathlib.Algebra.Order.Field.Basic
import Mathlib.Data.List.SplitLengths
import Mathlib.Data.PNat.Basic
import Mathlib.Data.Prod.Lex
import Mathlib.Data.String.Basic
import MeshPipeline.Fea.DeckLabel
import MeshPipeline.Library.Assoc
import MeshPipeline.Library.Buckets
import MeshPipeline.Library.PrunedInf

/-!
# The size field

The zones of a plan ask for element sizes on faces, along edges and through parts. They are put in
groups, and the field reads every group at every point, over an exact ordered field.
-/

namespace MeshPipeline.Fea

namespace SizeField

/-- The smallest of numbers of which there is one. -/
def least {K : Type*} [LinearOrder K] [Zero K] (xs : List K) : K := xs.min?.getD 0

/-- The largest of numbers of which there is one. -/
def greatest {K : Type*} [LinearOrder K] [Zero K] (xs : List K) : K := xs.max?.getD 0

/-! ## Zones -/

structure Ball (P K : Type*) where
  centre : P
  radius : K

inductive ZoneKind (P K : Type*)
  /-- A part's base, with the part's name or else the zone's. -/
  | part (label : String)
  | wallSpot (ball : Ball P K)
  | corner
  | other

structure Zone (P K : Type*) where
  kind : ZoneKind P K
  size : K
  reach : K
  faces : List String

/-- What `group_zones` makes of a group. -/
structure ZoneGroup (P K : Type*) where
  size : K
  reach : K
  edge : Bool
  faces : List String
  edges : List (List String) := []
  balls : List (Ball P K) := []
  part : String := ""

/-- The value of a decimal digit. -/
def digitValue (c : Char) : Nat :=
  ((decimalZeros.find? fun z => z ≤ c.toNat && c.toNat < z + 10).map (c.toNat - ·)).getD 0

/-- `_face_key`: a name's part before the last underscore, and its number. -/
def faceKey (name : String) : String × Nat :=
  let cs := name.toList
  let tail := cs.rtakeWhile (· != '_')
  if tail ≠ [] ∧ tail.all isDecimal then
    (String.ofList (cs.rdropWhile (· != '_')).dropLast,
      tail.foldl (fun n c => 10 * n + digitValue c) 0)
  else (name, 0)

/-- The whole numbers of the logarithms of a size, and of a reach in its own size. Only what shares
a number is read of them, so they are any functions here. -/
structure Bands (K : Type*) where
  ofSize : K → ℤ
  ofReach : K → ℤ

section Groups

variable {P K : Type*} [Field K] [LinearOrder K] (bands : Bands K)

/-- The band of the reach. -/
def reachBand (z : Zone P K) : ℤ := if 0 < z.reach then bands.ofReach (z.reach / z.size) else -10 ^ 6

/-- The bucket of a face zone or an edge zone. -/
def bucketOf (z : Zone P K) : Option ((ℤ ×ₗ Bool ×ₗ ℤ) × Zone P K) :=
  match z.kind with
  | .corner => some (toLex (bands.ofSize z.size, toLex (true, reachBand bands z)), z)
  | .other => some (toLex (bands.ofSize z.size, toLex (false, reachBand bands z)), z)
  | _ => none

/-- The thin spots of a face, in their band. -/
def spotOf (z : Zone P K) : Option ((ℤ × String) × Zone P K × Ball P K) :=
  match z.kind with
  | .wallSpot ball => some ((bands.ofSize z.size, z.faces.headD ""), z, ball)
  | _ => none

def sortedFaces (zs : List (Zone P K)) : List String :=
  Buckets.sortBy (fun f => toLex (faceKey f)) (zs.flatMap (·.faces)).dedup

def bucketGroup (b : (ℤ ×ₗ Bool ×ₗ ℤ) × List (Zone P K)) : ZoneGroup P K :=
  let edge := (ofLex (ofLex b.1).2).1
  { size := least (b.2.map (·.size))
    reach := greatest (b.2.map (·.reach))
    edge := edge
    faces := sortedFaces b.2
    edges := if edge then b.2.map (·.faces.take 2) else [] }

def spotGroup (b : (ℤ × String) × List (Zone P K × Ball P K)) : ZoneGroup P K where
  size := least (b.2.map (·.1.size))
  reach := greatest (b.2.map (·.1.reach))
  edge := false
  faces := [b.1.2]
  balls := b.2.map (·.2)

/-- A part has a group of its own. -/
def partGroup (z : Zone P K) : Option (ZoneGroup P K) :=
  match z.kind with
  | .part label =>
    some { size := z.size, reach := z.reach, edge := false, faces := sortedFaces [z], part := label }
  | _ => none

/-- `group_zones`. A zone without a size above zero asks for nothing. -/
def groupZones (zones : List (Zone P K)) : List (ZoneGroup P K) :=
  let sized := zones.filter (0 < ·.size)
  (Buckets.sortBy (·.1) (Assoc.group (bucketOf bands) sized)).map bucketGroup ++
    (Buckets.sortBy (fun b => toLex (b.1.1, toLex (faceKey b.1.2)))
      (Assoc.group (spotOf bands) sized)).map spotGroup ++
    sized.filterMap partGroup

end Groups

/-! ## The part's surface -/

/-- Exact distances to the items of a surface, and to the boxes round them. -/
structure Distances (X P K : Type*) [LE K] where
  dist : X → P → K
  box : List X → P → K
  box_le : ∀ {x xs}, x ∈ xs → ∀ p, box xs p ≤ dist x p

/-- A surface of labelled triangles, with its distances in metres. -/
structure Surface (T E P K : Type*) [LE K] [LT K] [Zero K] where
  /-- The number of a face's name. -/
  index : String → Option ℕ
  tris : List T
  label : T → Option ℕ
  /-- A triangle's edges. -/
  edges : T → List E
  faces : Distances T P K
  shared : Distances E P K
  /-- The signed distance to triangles, negative inside. -/
  signed : List T → P → K
  /-- The norm from the centre of a ball. -/
  toCentre : P → P → K
  box_le_signed : ∀ ts p, 0 < faces.box ts p → faces.box ts p ≤ signed ts p

section Field

variable {T E P K : Type*} [DecidableEq E] [Field K] [LinearOrder K]

/-- `_tris_of`. -/
def Surface.trisOf (S : Surface T E P K) (faces : List String) : List T :=
  S.tris.filter fun t => (faces.filterMap S.index).any fun k => S.label t = some k

def Surface.edgesAt (S : Surface T E P K) (k : ℕ) : List E :=
  (S.tris.filter fun t => S.label t = some k).flatMap S.edges

/-- `_edges_of`: what two faces share. -/
def Surface.edgesOf (S : Surface T E P K) (faces : List String) : List E :=
  match (faces.take 2).filterMap S.index with
  | [j, k] => (S.edgesAt j).filter (· ∈ S.edgesAt k)
  | _ => []

/-- How far past a ball a point is. -/
def Ball.past (S : Surface T E P K) (b : Ball P K) (p : P) : K := max 0 (S.toCentre b.centre p - b.radius)

/-- A group of zones on the part. -/
structure Group (P K : Type*) [LE K] where
  size : K
  reach : K
  /-- The distance to the group's triangles or edges, signed for a part. -/
  dist : P → K
  box : P → K
  /-- How far past the nearest ball, for thin spots. -/
  balls : Option (P → K) := none
  inside : Bool := false
  box_le : inside = false → ∀ p, box p ≤ dist p

/-- The distance to the nearest of the items. -/
def Distances.nearest {X : Type*} (D : Distances X P K) (xs : List X) (p : P) : K :=
  least (xs.map (D.dist · p))

lemma least_mem {xs : List K} (h : xs ≠ []) : least xs ∈ xs := by
  unfold least
  cases hmin : xs.min? with
  | none => exact absurd (List.min?_eq_none_iff.mp hmin) h
  | some m => exact (List.min?_eq_some_iff.mp hmin).1

lemma least_le {xs : List K} {x : K} (h : x ∈ xs) : least xs ≤ x := by
  unfold least
  cases hmin : xs.min? with
  | none => simp [List.min?_eq_none_iff.mp hmin] at h
  | some m => exact (List.min?_eq_some_iff.mp hmin).2 x h

lemma le_greatest {xs : List K} {x : K} (h : x ∈ xs) : x ≤ greatest xs := by
  unfold greatest
  cases hmax : xs.max? with
  | none => simp [List.max?_eq_none_iff.mp hmax] at h
  | some m => exact (List.max?_eq_some_iff.mp hmax).2 x h

section Nearest

variable {X : Type*} {D : Distances X P K} {xs : List X}

/-- The nearest item is one of them. -/
lemma Distances.exists_nearest (h : xs ≠ []) (p : P) : ∃ x ∈ xs, D.nearest xs p = D.dist x p := by
  have hmem : least (xs.map (D.dist · p)) ∈ xs.map (D.dist · p) := least_mem (by simpa using h)
  obtain ⟨x, hx, heq⟩ := List.mem_map.mp hmem
  exact ⟨x, hx, heq.symm⟩

lemma Distances.nearest_le {x : X} (h : x ∈ xs) (p : P) : D.nearest xs p ≤ D.dist x p :=
  least_le (List.mem_map_of_mem h)

/-- The distance to a box is a floor on the distance to what is in it. -/
lemma Distances.box_le_nearest (h : xs ≠ []) (p : P) : D.box xs p ≤ D.nearest xs p := by
  obtain ⟨x, hx, heq⟩ := D.exists_nearest h p
  exact heq ▸ D.box_le hx p

end Nearest

/-- Items with a group round them; none where there are no items. -/
def Distances.around {X : Type*} (D : Distances X P K) (size reach : K) (xs : List X)
    (balls : Option (P → K)) : Option (Group P K) :=
  if h : xs = [] then none
  else some
    { size, reach, balls
      dist := D.nearest xs
      box := D.box xs
      box_le := fun _ => D.box_le_nearest h }

/-- The triangles of a part, which hold a size inside. -/
def Surface.through (S : Surface T E P K) (size reach : K) (ts : List T) : Option (Group P K) :=
  if ts = [] then none
  else some
    { size, reach
      dist := S.signed ts
      box := S.faces.box ts
      inside := true
      box_le := nofun }

/-- How far past the nearest of the balls. -/
def pastBalls (S : Surface T E P K) (balls : List (Ball P K)) (p : P) : K :=
  least (balls.map (·.past S p))

/-- The groups of one group of zones: a face group has one for every part of an assembly. -/
def groupsOf (S : Surface T E P K) (g : ZoneGroup P K) : List (Group P K) :=
  if g.part ≠ "" then (S.through g.size g.reach (S.trisOf g.faces)).toList
  else if g.balls ≠ [] then
    (S.faces.around g.size g.reach (S.trisOf g.faces) (some (pastBalls S g.balls))).toList
  else if g.edge then (S.shared.around g.size g.reach (g.edges.flatMap S.edgesOf) none).toList
  else (Assoc.group (fun f => some ((faceKey f).1, f)) g.faces).filterMap fun part =>
    S.faces.around g.size g.reach (S.trisOf part.2) none

end Field

end SizeField

/-- The groups on the part, the finest first, and how fast sizes grow away from them. -/
structure SizeField (P K : Type*) [Field K] [LinearOrder K] where
  growth : K
  groups : List (SizeField.Group P K)
  growth_ge : 1 ≤ growth

namespace SizeField

variable {T E P K : Type*} [DecidableEq E] [Field K] [LinearOrder K]

/-- The field of a plan's zones. -/
def ofZones (S : Surface T E P K) (bands : Bands K) (growth : {g : K // 1 ≤ g})
    (zones : List (Zone P K)) : SizeField P K where
  growth := growth
  groups := Buckets.sortBy (·.size) ((groupZones bands zones).flatMap (groupsOf S))
  growth_ge := growth.2

/-! ## The sizes at points -/

/-- The zones' size at a point, and the size that a cube round the point must be resolved to. -/
abbrev Sizes (K : Type*) := WithTop K × WithTop K

/-- A size, and what it has grown to so far past the reach. -/
def grown (growth size past : K) : K := size + (growth - 1) * max 0 past

namespace Group

variable (growth r : K) (g : Group P K) (p : P)

/-- The distance that a group's law reads: only in its box is a part's surface measured. -/
def measured : K :=
  if g.inside then if 0 < g.box p then g.box p else g.dist p else g.dist p

/-- How far past the group's reach, or past its balls. -/
def past : K :=
  let past := (if g.inside then max 0 (g.measured p) else g.measured p) - g.reach
  g.balls.elim past fun balls => max past (balls p)

/-- The size that the group asks for. -/
def law : WithTop K := ↑(grown growth g.size (g.past p))

/-- The size that the distance to the group's box leaves possible. -/
def floor : WithTop K := ↑(grown growth g.size (g.box p - g.reach))

/-- Both sizes of a group alone: deep in a part its own size needs no finer look. -/
def reading : Sizes K :=
  (g.law growth p, if g.inside ∧ g.measured p ≤ -r then ⊤ else g.law growth p)

end Group

/-- One group met: a group other than a part is not measured where its box already rules it out,
and passed over where that is everywhere. -/
def measure (growth r : K) (rows : List (P × Sizes K)) (g : Group P K) : List (P × Sizes K) :=
  if g.inside then rows.map fun row => (row.1, row.2 ⊓ g.reading growth r row.1)
  else
    let look := fun row : P × Sizes K => g.floor growth row.1 < row.2.2
    if rows.any look then
      rows.map fun row =>
        let hg := if look row then g.law growth row.1 else ⊤
        (row.1, row.2 ⊓ (hg, hg))
    else rows

/-- `sizes`. -/
def sizes (F : SizeField P K) (ps : List P) (r : K) : List (Sizes K) :=
  (F.groups.foldl (measure F.growth r) (ps.map fun p => (p, ⊤))).map (·.2)

/-- What every group asks for at a point, measured without pruning and in the given order. -/
def inFull (growth r : K) (gs : List (Group P K)) (p : P) : Sizes K :=
  gs.foldl (fun s g => s ⊓ g.reading growth r p) ⊤

/-! ## Slices -/

def parallelMinPoints : ℕ := 20000

/-- `np.array_split`: the first slices have one more. -/
def arraySplit {α : Type*} (n : ℕ) (xs : List α) : List (List α) :=
  (List.replicate (xs.length % n) (xs.length / n + 1) ++
    List.replicate (n - xs.length % n) (xs.length / n)).splitLengths xs

/-- `_on`: in slices on the workers where there are enough points. -/
def on (F : SizeField P K) (pool : Option ℕ+) (ps : List P) (r : K) : List (Sizes K) :=
  match pool with
  | none => F.sizes ps r
  | some n =>
    if ps.length < parallelMinPoints then F.sizes ps r
    else ((arraySplit (4 * n) ps).map (F.sizes · r)).flatten

/-! ## What a zone asks for -/

/-- The size that a zone alone asks for at a point, by the law of its kind. A part's base without a
name is held on the part's faces. -/
def Zone.asks (S : Surface T E P K) (growth : K) (z : Zone P K) (p : P) : WithTop K :=
  let onFaces (law : List T → K) (faces : List String) : WithTop K :=
    if S.trisOf faces = [] then ⊤ else ↑(law (S.trisOf faces))
  match z.kind with
  | .part label =>
    if label = "" then
      onFaces (fun ts => grown growth z.size (S.faces.nearest ts p - z.reach)) z.faces
    else onFaces (fun ts => grown growth z.size (max 0 (S.signed ts p) - z.reach)) z.faces
  | .wallSpot ball =>
    onFaces (fun ts => grown growth z.size (max (S.faces.nearest ts p - z.reach) (ball.past S p)))
      [z.faces.headD ""]
  | .corner =>
    if S.edgesOf z.faces = [] then ⊤
    else ↑(grown growth z.size (S.shared.nearest (S.edgesOf z.faces) p - z.reach))
  | .other => onFaces (fun ts => grown growth z.size (S.faces.nearest ts p - z.reach)) z.faces

end SizeField

end MeshPipeline.Fea
