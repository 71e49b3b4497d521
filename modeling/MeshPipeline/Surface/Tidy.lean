import MeshPipeline.Library.ParityTree
import Mathlib.Algebra.BigOperators.Group.Finset.Basic
import Mathlib.Algebra.Order.Field.Rat
import Mathlib.Data.Finset.Sort
import Mathlib.Data.Prod.Lex
import Mathlib.Data.Sym.Sym2

/-!
# The safe cleanup of a surface

Corners on one spot become one vertex, triangles without area and doubled triangles are left out,
and neighbours are turned to face the same way. Sorted rows are compared as sets and pairs without
order.
-/

namespace MeshPipeline.Surface

/-! ## Triangles -/

/-- A triangle with its group, its corners numbers or points. -/
structure Face (V : Type) where
  a : V
  b : V
  c : V
  group : ℤ
  deriving DecidableEq

namespace Face

variable {V W : Type}

def map (g : V → W) (f : Face V) : Face W := ⟨g f.a, g f.b, g f.c, f.group⟩

def corners (f : Face V) : List V := [f.a, f.b, f.c]

/-- The triangle facing the other way. -/
def turned (f : Face V) : Face V := ⟨f.c, f.b, f.a, f.group⟩

variable [DecidableEq V]

/-- The directed edges along which the triangle is walked. Copies that run the same way round walk
the same, whichever corner they start from. -/
def walk (f : Face V) : Finset (V × V) := {(f.a, f.b), (f.b, f.c), (f.c, f.a)}

def edges (f : Face V) : Finset (Sym2 V) := {s(f.a, f.b), s(f.b, f.c), s(f.c, f.a)}

/-- What copies of a triangle have in common: the corners, in any order, and the group. -/
def key (f : Face V) : Finset V × ℤ := ({f.a, f.b, f.c}, f.group)

end Face

/-! ## Doubled triangles -/

variable {V : Type} [DecidableEq V]

/-- How many triangles use an edge. -/
def uses (t : List (Face V)) (e : Sym2 V) : ℕ := t.countP (e ∈ ·.edges)

def copies (t : List (Face V)) (f : Face V) : ℕ := t.countP (·.key = f.key)

/-- The uses of an edge of a triangle by any other one. -/
def others (t : List (Face V)) (f : Face V) (e : Sym2 V) : ℕ := uses t e - copies t f

def SameWay (t : List (Face V)) (f : Face V) : Prop := ∀ g ∈ t, g.key = f.key → g.walk = f.walk

/-- Two edges that nothing else uses. -/
def Loose (t : List (Face V)) (f : Face V) : Prop := 2 ≤ (f.edges.filter (others t f · = 0)).card

/-- A sliver without thickness that hangs off one edge. -/
def Sliver (t : List (Face V)) (f : Face V) : Prop := 1 < copies t f ∧ SameWay t f ∧ Loose t f

instance (t : List (Face V)) (f : Face V) : Decidable (SameWay t f) :=
  inferInstanceAs (Decidable (∀ g ∈ t, _))

instance (t : List (Face V)) (f : Face V) : Decidable (Loose t f) :=
  inferInstanceAs (Decidable (2 ≤ _))

instance (t : List (Face V)) (f : Face V) : Decidable (Sliver t f) :=
  inferInstanceAs (Decidable (_ ∧ _))

/-- A face that is written more than once. -/
def WrittenTwice (t : List (Face V)) (f : Face V) : Prop :=
  1 < copies t f ∧ ¬ Sliver t f ∧ ∀ e ∈ f.edges, others t f e ≤ 1

instance (t : List (Face V)) (f : Face V) : Decidable (WrittenTwice t f) :=
  inferInstanceAs (Decidable (_ ∧ _))

/-- The triangles that stay, of the rest of the list `t` after those of `before`: every copy of a
sliver goes, and every copy but the first of a face written twice. -/
def keptAfter (t before : List (Face V)) : List (Face V) → List (Face V)
  | [] => []
  | f :: rest =>
    if Sliver t f ∨ WrittenTwice t f ∧ f.key ∈ before.map Face.key then
      keptAfter t (before ++ [f]) rest
    else f :: keptAfter t (before ++ [f]) rest

/-- What `_doubled_to_drop` leaves. -/
def kept (t : List (Face V)) : List (Face V) := keptAfter t [] t

/-! ## Facing -/

/-- The edges that exactly two triangles use, these two. -/
def shared (t : List (Face V)) (x y : ℕ) : Finset (Sym2 V) :=
  match t[x]?, t[y]? with
  | some f, some g => if x = y then ∅ else (f.edges ∩ g.edges).filter (uses t · = 2)
  | _, _ => ∅

/-- Two triangles walk an edge the same way, so that they face different ways. -/
def disagree (t : List (Face V)) (x y : ℕ) (e : Sym2 V) : Bool :=
  match t[x]?, t[y]? with
  | some f, some g => decide (∃ p ∈ f.walk ∩ g.walk, s(p.1, p.2) = e)
  | _, _ => false

/-- An entry of the graph of pairs, two where a pair disagrees and one where it agrees: the entries
of several edges between two triangles add up. -/
def weight (t : List (Face V)) (x y : ℕ) : ℕ :=
  ∑ e ∈ shared t x y, if disagree t x y e then 2 else 1

def adjacent (t : List (Face V)) (x y : ℕ) : Bool := decide (weight t x y ≠ 0)

def AnyDisagree (t : List (Face V)) : Prop :=
  ∃ x < t.length, ∃ y < t.length, ∃ e ∈ shared t x y, disagree t x y e = true

instance (t : List (Face V)) : Decidable (AnyDisagree t) :=
  inferInstanceAs (Decidable (∃ x < t.length, ∃ y < t.length, ∃ e ∈ shared t x y, _))

/-- `breadth_first_order`: for the size and the pattern of a graph and a root, every other node that
is reached, in order, with what it is reached from. -/
abbrev BreadthFirst := ℕ → (ℕ → ℕ → Bool) → ℕ → List (ℕ × ℕ)

/-- The nodes that some neighbour makes a root of. -/
def roots (t : List (Face V)) : List ℕ :=
  (List.range t.length).filter fun x => ∃ y < t.length, adjacent t x y

/-- The triangles of one piece that are turned, the smaller side of the piece. -/
def pieceFlips (bfs : BreadthFirst) (t : List (Face V)) (root : ℕ) : List ℕ :=
  ParityTree.smaller
    (ParityTree.sides (fun x p => decide (weight t x p = 2)) root (bfs t.length (adjacent t) root))

/-- One root: what has been seen, and what is turned. -/
def turnPiece (bfs : BreadthFirst) (t : List (Face V)) (st : List ℕ × List ℕ) (root : ℕ) :
    List ℕ × List ℕ :=
  if root ∈ st.1 then st
  else
    (ParityTree.nodes [root] (bfs t.length (adjacent t) root) ++ st.1,
      pieceFlips bfs t root ++ st.2)

/-- `_consistent_flips`. -/
def flips (bfs : BreadthFirst) (t : List (Face V)) : List ℕ :=
  if AnyDisagree t then ((roots t).foldl (turnPiece bfs t) ([], [])).2 else []

/-- The triangles with these turned. -/
def turn (xs : List ℕ) (t : List (Face V)) : List (Face V) :=
  t.mapIdx fun x f => if x ∈ xs then f.turned else f

/-! ## The cleanup -/

/-- A point, in the order in which the distinct points are sorted. -/
abbrev Point := ℚ ×ₗ ℚ ×ₗ ℚ

namespace Point

def mk (x y z : ℚ) : Point := toLex (x, toLex (y, z))

def x (p : Point) : ℚ := (ofLex p).1
def y (p : Point) : ℚ := (ofLex (ofLex p).2).1
def z (p : Point) : ℚ := (ofLex (ofLex p).2).2

/-- The cross product of two sides of a triangle: twice its area is how long it is. -/
def cross (p q r : Point) : ℚ × ℚ × ℚ :=
  ((q.y - p.y) * (r.z - p.z) - (q.z - p.z) * (r.y - p.y),
    (q.z - p.z) * (r.x - p.x) - (q.x - p.x) * (r.z - p.z),
    (q.x - p.x) * (r.y - p.y) - (q.y - p.y) * (r.x - p.x))

end Point

/-- A triangle of three different corners that encloses something. -/
def HasArea (f : Face Point) : Prop :=
  f.a ≠ f.b ∧ f.b ≠ f.c ∧ f.a ≠ f.c ∧ Point.cross f.a f.b f.c ≠ (0, 0, 0)

instance (f : Face Point) : Decidable (HasArea f) := inferInstanceAs (Decidable (_ ∧ _))

structure SurfaceMesh where
  points : List Point
  triangles : List (Face ℕ)
  names : List String
  notes : List String

/-- The triangles by their points. -/
def SurfaceMesh.faces (m : SurfaceMesh) : List (Face Point) :=
  m.triangles.map (Face.map fun i => m.points.getD i (Point.mk 0 0 0))

structure TidyReport where
  mergedPoints : ℕ
  zeroArea : ℕ
  duplicates : ℕ
  turned : ℕ

namespace TidyReport

def changed (r : TidyReport) : Bool := r.zeroArea ≠ 0 || r.duplicates ≠ 0 || r.turned ≠ 0

def notes (r : TidyReport) : List String :=
  (if r.duplicates ≠ 0 then [toString r.duplicates ++
    " doubled triangle(s) were left out: second copies of " ++
    "a face, or zero-thickness slivers made of two copies"] else []) ++
  (if r.zeroArea ≠ 0 then [toString r.zeroArea ++
    " zero-area triangle(s) were left out"] else []) ++
  if r.turned ≠ 0 then [toString r.turned ++
      " triangle(s) were turned to face the same way as their " ++
    "neighbours"] else []

end TidyReport

/-- The distinct corners, sorted. -/
def vertices (fs : List (Face Point)) : List Point := (fs.flatMap Face.corners).toFinset.sort

/-- The triangles that enclose something. -/
def solid (m : SurfaceMesh) : List (Face Point) := m.faces.filter fun f => HasArea f

/-- `tidy`. The triangles are numbered at the end: before it only the equality of vertices counts,
which is that of the points. -/
def tidy (bfs : BreadthFirst) (m : SurfaceMesh) : Except String (SurfaceMesh × TidyReport) :=
  let t := solid m
  if t = [] then .error "every triangle in the file has zero area"
  else
    let points := vertices m.faces
    let stay := kept t
    let report : TidyReport :=
      { mergedPoints := (m.triangles.flatMap Face.corners).toFinset.card - points.length
        zeroArea := m.faces.length - t.length
        duplicates := t.length - stay.length
        turned := (flips bfs stay).length }
    .ok ({
      points := points
      triangles := (turn (flips bfs stay) stay).map (Face.map (points.idxOf ·))
      names := m.names
      notes := m.notes ++ report.notes.filter (· ∉ m.notes) }, report)

end MeshPipeline.Surface
