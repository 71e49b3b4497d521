import MeshPipeline.Library.Assoc
import MeshPipeline.Library.CaseFold
import MeshPipeline.Library.DecimalRound

/-!
# The domain extent gate

The box around a body is judged by the room it leaves: one margin for each direction of the flow, in
lengths of the ruler, read on the smallest open side. A side is closed by a symmetry plane on which
the body sits and by the floor under it; a plane across the flow is refused. A coordinate that is
not recorded and an axis that does not read leave the request unmeasured.
-/

namespace MeshPipeline.DomainExtent

inductive Axis
  | x | y | z
  deriving DecidableEq

inductive Side
  | min | max
  deriving DecidableEq

/-- A face of a box. -/
abbrev Face := Axis × Side

inductive Direction
  | upstream | downstream | lateral | vertical
  deriving DecidableEq

namespace Direction

def all : List Direction := [upstream, downstream, lateral, vertical]

def name : Direction → String
  | upstream => "upstream"
  | downstream => "downstream"
  | lateral => "lateral"
  | vertical => "vertical"

end Direction

/-- Half a hundredth of the diagonal: a plane no farther from the body is its cut. -/
def seatTolFraction : ℚ := 5 / 1000

/-- How far the body may reach through its plane. -/
def clipTolFraction : ℚ := 1 / 10000

def floorFraction : ℚ := 1 / 2

/-- The tolerance of `evaluate_domain_extents` when its caller gives none. -/
def defaultTol : ℚ := 15 / 100

def verticalAxis : Axis := .z

def axisOfChar : Char → Option Axis
  | 'x' => some .x
  | 'y' => some .y
  | 'z' => some .z
  | _ => none

def sideOf : String → Option Side
  | "min" => some .min
  | "max" => some .max
  | _ => none

/-! ## Symmetry planes -/

/-- The axis that a row names. -/
inductive AxisName
  | text (s : String)
  | index (n : ℤ)
  | other
  deriving DecidableEq

/-- A recorded symmetry face. -/
structure Row where
  axis : AxisName
  side : Option String
  patch : Option String
  name : Option String
  deriving DecidableEq

namespace Row

def axis? (row : Row) : Option Axis :=
  match row.axis with
  | .text s => (Text.key s).toList.getLast?.bind axisOfChar
  | .index 0 => some .x
  | .index 1 => some .y
  | .index 2 => some .z
  | _ => none

def side? (row : Row) : Option Side := row.side.bind fun s => sideOf (Text.key s)

/-- The face that a row names. -/
def face? (row : Row) : Option Face := row.axis?.bind fun j => row.side?.map (j, ·)

/-- A text that is not empty. -/
def given (text : Option String) : Option String := text.filter (· ≠ "")

/-- The row's entry of the seats. -/
def seat? (row : Row) : Option (Face × String) :=
  row.face?.map (·, ((given row.patch).or (given row.name)).getD "symmetry")

end Row

/-- The patch on every recorded symmetry face; a row that is no dictionary is `none`. -/
def symmetrySeats (faces : List (Option Row)) : List (Face × String) :=
  Assoc.ofPairs (faces.filterMap fun row => row.bind Row.seat?)

/-! ## Boxes -/

/-- The coordinates of a box that are recorded. -/
abbrev Box := Face → Option ℚ

/-- The room between the body and a face of the box; zero or less touches or clips. -/
def gap (box body : Box) (f : Face) : Option ℚ :=
  match f.2 with
  | .min => (body f).bind fun b => (box f).map (b - ·)
  | .max => (box f).bind fun b => (body f).map (b - ·)

/-- The square of the diagonal, over the axes that the record carries. -/
def diagSquare (body : Box) : ℚ :=
  ([Axis.x, .y, .z].filterMap fun j =>
    (body (j, .min)).bind fun lo => (body (j, .max)).map fun hi => (hi - lo) ^ 2).sum

/-- A length is at most a fraction of the diagonal, by the squares. -/
def AtMost (fraction square length : ℚ) : Prop := length ≤ 0 ∨ length ^ 2 ≤ fraction ^ 2 * square

instance (fraction square length : ℚ) : Decidable (AtMost fraction square length) :=
  inferInstanceAs (Decidable (_ ∨ _))

/-- The body sits on a face of the box. -/
def SitsOn (box body : Box) (f : Face) : Prop :=
  ∃ g ∈ gap box body f,
    AtMost clipTolFraction (diagSquare body) (-g) ∧ AtMost seatTolFraction (diagSquare body) g

instance (box body : Box) (f : Face) : Decidable (SitsOn box body f) :=
  inferInstanceAs (Decidable (∃ _ ∈ _, _))

/-- The flow's axis, with the side it comes from and the side it goes to. -/
structure FlowSides where
  axis : Axis
  up : Side
  down : Side
  deriving DecidableEq

/-- No declaration is `+x`. -/
def flowSides (flowAxis : Option String) : Option FlowSides :=
  match (Text.key ((Row.given flowAxis).getD "+x")).toList with
  | '+' :: letter :: _ => (axisOfChar letter).map (⟨·, .min, .max⟩)
  | '-' :: letter :: _ => (axisOfChar letter).map (⟨·, .max, .min⟩)
  | letter :: _ => (axisOfChar letter).map (⟨·, .min, .max⟩)
  | [] => none

/-- The two other axes, in order. -/
def Axis.rest : Axis → Axis × Axis
  | .x => (.y, .z)
  | .y => (.x, .z)
  | .z => (.x, .y)

/-- The faces of a direction. -/
def FlowSides.faces (flow : FlowSides) : Direction → List Face
  | .upstream => [(flow.axis, flow.up)]
  | .downstream => [(flow.axis, flow.down)]
  | .lateral => [(flow.axis.rest.1, .min), (flow.axis.rest.1, .max)]
  | .vertical => [(flow.axis.rest.2, .min), (flow.axis.rest.2, .max)]

/-- Why a face that is far field touches the body: the plane that the body crosses there, or a plane
that was put on a face where the body does not sit. -/
structure Misplaced where
  patch : String
  face : Face
  crosses : Bool
  deriving DecidableEq

/-- A direction's margin, in lengths of the ruler, and the face it was read on. -/
structure Room where
  margin : ℚ
  face : Face
  why : Option Misplaced
  deriving DecidableEq

/-- The smallest pair, `max` before `min`. -/
def smallest : List (ℚ × Face) → Option (ℚ × Face)
  | [] => none
  | a :: as => some (as.foldl (fun m b =>
      if b.1 < m.1 ∨ b.1 = m.1 ∧ b.2.2 = .max ∧ m.2.2 = .min then b else m) a)

section Margins

variable (box body : Box) (r : ℚ) (flow : FlowSides) (grounded : Bool)
  (seats : List (Face × String))

/-- The planes that do not lie across the flow. -/
def alongFlow : List (Face × String) := seats.filter fun e => e.1.1 ≠ flow.axis

/-- The faces on which the body sits by design: its planes along the flow, and the floor. -/
def seated : List Face :=
  (((alongFlow flow seats).filter fun e => decide (SitsOn box body e.1)).map (·.1)) ++
    if grounded ∧ flow.axis ≠ verticalAxis then [(verticalAxis, .min)] else []

/-- A side that is not seated. -/
def Open (f : Face) : Prop := f ∉ seated box body flow grounded seats

instance (f : Face) : Decidable (Open box body flow grounded seats f) :=
  inferInstanceAs (Decidable (_ ∉ _))

def why (f : Face) : Option Misplaced :=
  match (alongFlow flow seats).lookup f with
  | some here => some ⟨here, f, true⟩
  | none =>
    ((alongFlow flow seats).find? fun e => decide (Open box body flow grounded seats e.1)).map
      fun e => ⟨e.2, e.1, false⟩

/-- A direction with no open side has no room. -/
def room (k : Direction) : Option Room :=
  let openSides := (flow.faces k).filter fun f => decide (Open box body flow grounded seats f)
  (smallest (openSides.filterMap fun f => (gap box body f).map fun g => (g / r, f))).map fun e =>
    ⟨e.1, e.2, if e.1 ≤ 0 then why box body flow grounded seats e.2 else none⟩

/-- The faces whose room is read: the planes along the flow, and the open sides. -/
def readFaces : List Face :=
  (alongFlow flow seats).map (·.1) ++
    (Direction.all.flatMap flow.faces).filter fun f => decide (Open box body flow grounded seats f)

/-- The margins; none when a coordinate that is read is not recorded. -/
def axisMargins : Option (Direction → Option Room) :=
  if ∀ f ∈ readFaces box body flow grounded seats, (gap box body f).isSome then
    some (room box body r flow grounded seats)
  else none

end Margins

/-! ## The verdict -/

inductive Status
  | na | unmeasured | pass | miss | block
  deriving DecidableEq

/-- A direction short of its request. -/
structure Miss where
  direction : Direction
  requested : Option ℚ
  measured : Option ℚ
  face : Option Face
  symmetry : Option Misplaced
  deriving DecidableEq

/-- What a near miss is delivered with. -/
structure Caveat where
  direction : Direction
  requested : ℚ
  measured : ℚ
  rulerM : ℚ
  deriving DecidableEq

/-- The reasons of a block, with the numbers and names that their texts show. -/
inductive Block
  | across (k : Direction) (f : Face) (patch : String)
  | touches (k : Direction) (f : Face) (why : Option Misplaced)
  | underHalf (k : Direction) (requested measured : ℚ)
  deriving DecidableEq

structure Findings where
  blocks : List Block
  caveats : List Caveat
  misses : List Miss
  deriving DecidableEq

namespace Findings

def empty : Findings := ⟨[], [], []⟩

def append (f g : Findings) : Findings :=
  ⟨f.blocks ++ g.blocks, f.caveats ++ g.caveats, f.misses ++ g.misses⟩

def concat (fs : List Findings) : Findings := fs.foldr append empty

end Findings

structure Verdict where
  status : Status
  caveats : List Caveat
  blocks : List Block
  misses : List Miss
  deriving DecidableEq

def rounded (q : ℚ) : ℚ := DecimalRound.round 4 q

/-- A request: margins by the names of the directions. -/
abbrev Request := List (String × Option ℚ)

def Request.get (requested : Request) (k : Direction) : Option ℚ := (requested.lookup k.name).join

/-- The plane on the face that the flow comes from or goes to, if there is one. -/
def acrossPlane (flow : FlowSides) (seats : List (Face × String)) (k : Direction) :
    Option (Face × String) :=
  match k with
  | .upstream => (seats.lookup (flow.axis, flow.up)).map ((flow.axis, flow.up), ·)
  | .downstream => (seats.lookup (flow.axis, flow.down)).map ((flow.axis, flow.down), ·)
  | _ => none

def acrossFinding (requested : Request) (margins : Direction → Option Room) (k : Direction)
    (plane : Face × String) : Findings :=
  ⟨[.across k plane.1 plane.2], [],
    [⟨k, requested.get k, (margins k).map fun room => rounded room.margin, some plane.1,
      some ⟨plane.2, plane.1, false⟩⟩]⟩

/-- What a requested direction is found to have. -/
def judge (tol r : ℚ) (k : Direction) (rv : ℚ) (room : Room) : Findings :=
  let mv := room.margin
  if mv ≤ 0 then
    ⟨[.touches k room.face room.why], [],
      [⟨k, some rv, some (rounded mv), some room.face, room.why⟩]⟩
  else if rv * (1 - tol) ≤ mv then .empty
  else
    let miss : Miss := ⟨k, some rv, some (rounded mv), none, none⟩
    if mv < rv * floorFraction then ⟨[.underHalf k rv mv], [], [miss]⟩
    else ⟨[], [⟨k, rv, rounded mv, r⟩], [miss]⟩

def findings (requested : Request) (tol r : ℚ) (flow : FlowSides) (seats : List (Face × String))
    (margins : Direction → Option Room) : Findings :=
  let across := Direction.all.filterMap fun k =>
    (acrossPlane flow seats k).map (acrossFinding requested margins k)
  let judged := Direction.all.filterMap fun k =>
    if (acrossPlane flow seats k).isSome then none
    else (requested.get k).bind fun rv => (margins k).map (judge tol r k rv)
  Findings.concat (across ++ judged)

def Findings.verdict (f : Findings) : Verdict :=
  if f.blocks ≠ [] then ⟨.block, [], f.blocks, f.misses⟩
  else if f.caveats ≠ [] then ⟨.miss, f.caveats, [], f.misses⟩
  else ⟨.pass, [], [], []⟩

/-- What the gate reads of a manifest. A box that is missing or empty is `none`. -/
structure Manifest where
  flowTopology : Option String
  patchTypes : List (String × String)
  domainBox : Option Box
  box : Option Box
  bodyBbox : Option Box
  bodyBox : Option Box
  symmetryFaces : Option (List (Option Row))

namespace Manifest

def isGround (patch : String × String) : Bool :=
  Text.casefold (Text.strip patch.1).toList == "ground".toList && Text.key patch.2 == "wall"

def grounded (m : Manifest) : Bool :=
  m.flowTopology ≠ some "internal" && m.patchTypes.any isGround

/-- `manifest_symmetry_faces`. -/
def faces (m : Manifest) : List (Option Row) :=
  if m.flowTopology = some "internal" then [] else m.symmetryFaces.getD []

def farFieldExists (m : Manifest) : Bool := m.flowTopology.map Text.key ≠ some "internal"

def theBox (m : Manifest) : Option Box := m.domainBox.or m.box

def theBody (m : Manifest) : Option Box := m.bodyBbox.or m.bodyBox

end Manifest

/-- The arguments of `evaluate_domain_extents`. -/
structure Call where
  requested : Option Request
  referenceLengthM : Option ℚ
  manifest : Manifest
  tol : ℚ
  flowAxis : Option String
  grounded : Option Bool
  symmetryFaces : Option (List (Option Row))

namespace Call

variable (c : Call)

def isGrounded : Bool := c.grounded.getD c.manifest.grounded

def seats : List (Face × String) := symmetrySeats (c.symmetryFaces.getD c.manifest.faces)

/-- Something is asked of a far field. -/
def Asked : Prop :=
  (∃ requested ∈ c.requested, ∃ e ∈ requested, e.2.isSome = true) ∧
    (∃ r ∈ c.referenceLengthM, r ≠ 0) ∧ c.manifest.farFieldExists = true

instance : Decidable c.Asked := inferInstanceAs (Decidable (_ ∧ _ ∧ _))

/-- What is measured: the request, the ruler, the flow and the margins. -/
structure Measure where
  requested : Request
  r : ℚ
  flow : FlowSides
  box : Box
  body : Box

/-- The boxes, a ruler that is positive and a flow axis that reads. -/
def measure? : Option Measure :=
  c.requested.bind fun requested =>
    c.manifest.theBox.bind fun box =>
      c.manifest.theBody.bind fun body =>
        (c.referenceLengthM.filter (0 < ·)).bind fun r =>
          (flowSides c.flowAxis).map fun flow => ⟨requested, r, flow, box, body⟩

def evaluate : Verdict :=
  if ¬ c.Asked then ⟨.na, [], [], []⟩
  else
    match c.measure? with
    | none => ⟨.unmeasured, [], [], []⟩
    | some m =>
      match axisMargins m.box m.body m.r m.flow c.isGrounded c.seats with
      | none => ⟨.unmeasured, [], [], []⟩
      | some margins => (findings m.requested c.tol m.r m.flow c.seats margins).verdict

end Call

end MeshPipeline.DomainExtent
