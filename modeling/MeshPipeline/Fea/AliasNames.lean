import MeshPipeline.Fea.DeckLabel
import MeshPipeline.Library.Assoc
import MeshPipeline.Library.Buckets
import MeshPipeline.Library.Counted
import MeshPipeline.Library.Machine

/-!
# The names of a deck's groups

The plan's groups and the CAD's readable face names are named in turn. A name takes its label, or
its label with a suffix when that is taken, and the loop that is to tell it apart from the names
before it adds an underscore that cleaning takes off again.
-/

namespace MeshPipeline.Fea

/-- A CAD face as written. -/
structure FaceSet where
  /-- The `k` of `Face_k`. -/
  number : Int
  tag : Int
  deriving DecidableEq, Repr

def FaceSet.name (f : FaceSet) : Str := "Face_".toList ++ (toString f.number).toList

/-- What `_alias_names` is given. -/
structure DeckInput where
  fsets : List FaceSet
  solids : Nat
  /-- The faces of each plan group. -/
  aliases : List (Str × List Int)
  /-- The names that the CAD file gives its faces. -/
  readable : List (Int × Str)

/-- `name.lower()`, of ASCII text. -/
def lower (s : Str) : Str := s.map Char.toLower

namespace DeckInput

variable (d : DeckInput)

/-- `by_tag`: of face sets with one tag, the last. -/
def byTag (tag : Int) : Option FaceSet := d.fsets.reverse.find? (·.tag = tag)

def members (tags : List Int) : List Str := tags.filterMap fun t => (d.byTag t).map (·.name)

/-- `Face_k`, `solid` and the `Volume_k` of several solids, in small letters. -/
def deckNames : List Str :=
  "solid".toList :: d.fsets.map (fun f => lower f.name) ++
    if 1 < d.solids then
      (List.range d.solids).map fun i => "volume_".toList ++ (toString (i + 1)).toList
    else []

/-- `Face_k_S1` to `Face_k_S4`, in small letters. -/
def elementSets : List Str :=
  d.fsets.flatMap fun f => [1, 2, 3, 4].map fun n : Nat =>
    lower f.name ++ "_s".toList ++ (toString n).toList

/-- What a readable name says of the mesh, when its face is on it: the name, and the face. -/
def namedFace (r : Int × Str) : Option (Str × Str) :=
  if readableFaceName r.2 = [] then none
  else (d.byTag r.1).map fun f => (readableFaceName r.2, f.name)

/-- `by_name`: the faces under each readable name, in the order of their tags. -/
def byName : List (Str × List Str) :=
  Assoc.group d.namedFace (Buckets.sortBy (·.1) d.readable)

/-- The name that is tried: the label, or the label with the suffix. -/
def tries (reserved : List Str) (raw suffix : Str) : Str :=
  let name := deckLabel raw
  if lower name ∈ reserved ∨
      d.fsets.any fun f => (lower f.name ++ "_s".toList).isPrefixOf (lower name) then
    deckLabel (name ++ '_' :: suffix)
  else name

/-- `claim`, with fuel for its loop. -/
def claim (fuel : Nat) (reserved : List Str) (raw suffix : Str) : Option Str :=
  While.run (fun name => decide (lower name ∈ reserved)) (fun name => deckLabel (name ++ ['_']))
    fuel (d.tries reserved raw suffix)

end DeckInput

/-- The names given so far. -/
structure Names where
  reserved : List Str
  out : List (Str × List Str)
  cadNames : List (Str × Str)
  deriving DecidableEq, Repr

namespace Names

def give (s : Names) (name : Str) (members : List Str) : Names :=
  { s with reserved := lower name :: s.reserved, out := Assoc.set s.out name members }

def noteCad (s : Names) (name : Str) (members : List Str) : Names :=
  { s with cadNames := members.foldl (fun d m => Assoc.set d m name) s.cadNames }

/-- A name given already says what a CAD name would, over the same faces. -/
def repeats (s : Names) (raw : Str) (members : List Str) : Bool :=
  s.out.any fun e => lower e.1 == lower (deckLabel raw) && e.2.isPerm members

def start (d : DeckInput) : Names := ⟨d.deckNames, [], []⟩

end Names

/-- What is to be named: a plan group with its faces, or a readable name with its. -/
inductive Wanted
  | group (raw : Str) (tags : List Int)
  | cad (raw : Str) (members : List Str)
  deriving DecidableEq, Repr

namespace DeckInput

variable (d : DeckInput)

/-- A turn of the loop over the plan groups, or of the one over the readable names. -/
def step (fuel : Nat) (s : Names) : Wanted → Option Names
  | .group raw tags =>
    if d.members tags = [] then some s
    else (d.claim fuel s.reserved raw "group".toList).map fun name => s.give name (d.members tags)
  | .cad raw members =>
    if s.repeats raw members then
      (s.out.find? fun e => lower e.1 == lower (deckLabel raw)).map fun e => s.noteCad e.1 members
    else
      (d.claim fuel s.reserved raw "cad".toList).map fun name =>
        (s.give name members).noteCad name members

def machine (fuel : Nat) : Transition.Machine Names Wanted := ⟨d.step fuel⟩

def wanted : List Wanted :=
  d.aliases.map (fun g => .group g.1 g.2) ++ d.byName.map fun r => .cad r.1 r.2

/-- `_alias_names`. -/
def aliasNames (fuel : Nat) : Option (List (Str × List Str) × List (Str × Str)) :=
  ((d.machine fuel).exec (Names.start d) d.wanted).map fun s => (s.out, s.cadNames)

/-- The faces on the mesh that have a readable name, in the order of their tags. -/
def facesNamed (name : Str) : List Str :=
  (Buckets.sortBy (·.1) d.readable).filterMap fun r =>
    (d.namedFace r).bind fun e => if e.1 = name then some e.2 else none

end DeckInput

namespace Wanted

def raw : Wanted → Str
  | .group raw _ => raw
  | .cad raw _ => raw

def suffix : Wanted → Str
  | .group _ _ => "group".toList
  | .cad _ _ => "cad".toList

def faces (d : DeckInput) : Wanted → List Str
  | .group _ tags => d.members tags
  | .cad _ members => members

/-- No name is needed: no face is on the mesh, or a name given already says the same. -/
def settled (d : DeckInput) (s : Names) : Wanted → Bool
  | .group _ tags => d.members tags == []
  | .cad raw members => s.repeats raw members

/-- What was wanted is there, under a name made of its own, with its faces and no others. -/
def Appears (d : DeckInput) (w : Wanted) (out : List (Str × List Str)) : Prop :=
  ∃ e ∈ out, (lower e.1 = lower (deckLabel w.raw) ∨
    e.1 = deckLabel (deckLabel w.raw ++ '_' :: w.suffix)) ∧ e.2.Perm (w.faces d)

/-- The name that is tried is one that nothing in the deck has. -/
def HasRoom (d : DeckInput) (s : Names) (w : Wanted) : Prop :=
  w.settled d s = false →
    lower (d.tries s.reserved w.raw w.suffix) ∉ s.reserved ∧
      lower (d.tries s.reserved w.raw w.suffix) ∉ d.elementSets

instance (d : DeckInput) (s : Names) (w : Wanted) : Decidable (w.HasRoom d s) :=
  inferInstanceAs (Decidable (_ → _))

end Wanted

/-- The names tell their groups apart, for every solver, and leave none out. -/
structure NamesSound (d : DeckInput) (out : List (Str × List Str)) : Prop where
  distinct : (out.map fun e => lower e.1).Nodup
  label : ∀ e ∈ out, IsLabel e.1
  apart : ∀ e ∈ out, lower e.1 ∉ d.deckNames ∧ lower e.1 ∉ d.elementSets
  groups : ∀ g ∈ d.aliases, d.members g.2 ≠ [] → (Wanted.group g.1 g.2).Appears d out
  cad : ∀ raw, d.facesNamed raw ≠ [] → (Wanted.cad raw (d.facesNamed raw)).Appears d out

end MeshPipeline.Fea
