import Mathlib.Data.Prod.Lex
import MeshPipeline.Library.CompactList

/-!
# The topology of a mesh of box cells

Faces with their owner and neighbour and the loop of point keys around each, as the builder returns
them and as the writers read them.
-/

namespace MeshPipeline.SnapGrid

open Buckets CompactList

/-- The boundary faces of one block on one domain side. -/
structure Chunk where
  block : ℕ
  side : ℕ
  shape : ℕ × ℕ
  start : ℕ
  deriving DecidableEq, Repr

structure BoxTopology where
  dims : ℕ × ℕ × ℕ
  /-- The first cell of each block. -/
  offsets : List ℕ
  nCells : ℕ
  /-- Of the internal faces, in upper-triangular order. -/
  owner : List ℕ
  neighbour : List ℕ
  faceOff : List ℕ
  facePts : List ℕ
  /-- Of the boundary faces, chunk by chunk. -/
  bOwner : List ℕ
  bOff : List ℕ
  bPts : List ℕ
  chunks : List Chunk
  hangingFaces : ℕ
  blockFaces : ℕ
  deriving DecidableEq, Repr

namespace BoxTopology

def nInternal (t : BoxTopology) : ℕ := t.owner.length

def ownerOf (t : BoxTopology) (f : ℕ) : ℕ := t.owner.getD f 0

def neighbourOf (t : BoxTopology) (f : ℕ) : ℕ := t.neighbour.getD f 0

def bOwnerOf (t : BoxTopology) (b : ℕ) : ℕ := t.bOwner.getD b 0

/-- Upper-triangular order of pairs of cells. -/
def Before (p q : ℕ × ℕ) : Prop := p.1 < q.1 ∨ p.1 = q.1 ∧ p.2 < q.2

/-- What the arrays of a topology promise. -/
structure WellFormed (t : BoxTopology) : Prop where
  neighbour_length : t.neighbour.length = t.nInternal
  ordered : ∀ f < t.nInternal, t.ownerOf f < t.neighbourOf f ∧ t.neighbourOf f < t.nCells
  sorted : ∀ f g, f < g → g < t.nInternal →
    Before (t.ownerOf f, t.neighbourOf f) (t.ownerOf g, t.neighbourOf g)
  faces : ∃ loops, loops.length = t.nInternal ∧ IsCompact t.faceOff t.facePts loops
  bOwner_lt : ∀ b < t.bOwner.length, t.bOwnerOf b < t.nCells
  bFaces : ∃ loops, loops.length = t.bOwner.length ∧ IsCompact t.bOff t.bPts loops

end BoxTopology

end MeshPipeline.SnapGrid

/-!
## The regions' own meshes

Every region's polyMesh is written straight from the topology of the whole mesh. Its cells, its
internal faces, its boundary faces and the faces it shares with other regions are each a slice of an
array that is sorted once for all regions.
-/

namespace MeshPipeline.SnapGrid

open Buckets CompactList

structure Patch where
  name : String
  type : String
  deriving DecidableEq, Repr

/-- The dialects that a `mappedWall` is written for. -/
inductive Dialect
  | esi | foundation
  deriving DecidableEq, Repr

/-- A patch as the boundary file lists it. -/
structure PatchEntry where
  name : String
  type : String
  nFaces : ℕ
  startFace : ℕ
  extra : List (String × String)
  deriving DecidableEq, Repr

/-- What is written of a region; a point is read by its place in `points`. -/
structure RegionMesh (P : Type) where
  name : String
  points : List P
  off : List ℕ
  faces : List ℕ
  owner : List ℕ
  neighbour : List ℕ
  entries : List PatchEntry
  nCells : ℕ

structure RegionSummary where
  cells : ℕ
  faces : ℕ
  internalFaces : ℕ
  points : ℕ
  interfaces : List (String × ℕ)
  patches : List (String × ℕ)
  deriving DecidableEq, Repr

/-- What `write_regions` is given: arrays of the sizes and within the ranges that it indexes by. -/
structure RegionInput (P : Type) where
  topo : BoxTopology
  wellFormed : topo.WellFormed
  /-- By the id of a point. -/
  points : ℕ → P
  cellZone : List ℕ
  zoneNames : List String
  /-- The arrays of the chunks, each in the order of its side. -/
  chunkPatches : List (List ℕ)
  patches : List Patch
  dialect : Dialect
  /-- One for each internal face, `-1` for none. -/
  faceTags : Option (List ℤ)
  tagNames : Option (List String)
  cellZone_length : cellZone.length = topo.nCells
  zone_lt : ∀ z ∈ cellZone, z < zoneNames.length
  chunkPatches_length : chunkPatches.flatten.length = topo.bOwner.length
  patch_lt : ∀ p ∈ chunkPatches.flatten, p < patches.length
  faceTags_length : ∀ tags ∈ faceTags, tags.length = topo.nInternal
  tag_lt : ∀ tags ∈ faceTags, ∀ t ∈ tags, t < (tagNames.getD []).length

/-- The loop of a face that is turned round: the first point is kept. -/
def flipLoop {α : Type*} : List α → List α
  | [] => []
  | p :: ps => p :: ps.reverse

/-- `_loops`: the point loops of some faces, each turned round where `flip` says so. -/
def gatherLoops (off flat faces : List ℕ) (flip : Option (List Bool)) : List ℕ × List ℕ :=
  let sizes := faces.map fun f => off.getD (f + 1) 0 - off.getD f 0
  let newOff := offsets sizes
  let pos := List.zipWith (fun k o => k - o) (List.range (newOff.getLastD 0))
    (repeatEach newOff.dropLast sizes)
  let turned := match flip with
    | none => pos
    | some flip =>
      if flip.any id then
        List.zipWith (fun p pos => if p.1 then (p.2 - pos) % p.2 else pos)
          (repeatEach (flip.zip sizes) sizes) pos
      else pos
  let idx := List.zipWith (· + ·) (repeatEach (faces.map fun f => off.getD f 0) sizes) turned
  (newOff, idx.map fun i => flat.getD i 0)

/-- `mapped_entry`. -/
def mappedEntry (other otherPatch : String) : Dialect → List (String × String)
  | .foundation =>
    [("neighbourRegion", other), ("neighbourPatch", otherPatch), ("transformType", "none")]
  | .esi =>
    [("sampleMode", "nearestPatchFace"), ("sampleRegion", other), ("samplePatch", otherPatch)]

/-- A face between two regions as one of them, `r`, has it; it is turned round for the neighbour. -/
structure CrossFace where
  r : ℕ
  s : ℕ
  f : ℕ
  flip : Bool
  t : ℤ
  deriving DecidableEq, Repr

/-- The keys that the faces between two regions are sorted by, in turn. -/
def CrossFace.key (e : CrossFace) : ℕ ×ₗ ℕ ×ₗ ℤ ×ₗ ℕ :=
  toLex (e.r, toLex (e.s, toLex (e.t, e.f)))

/-- A dictionary that is filled item by item: a repeated key keeps its place. -/
def dictOf (items : List (String × ℕ)) : List (String × ℕ) :=
  items.foldl (fun d item =>
    if item.1 ∈ d.map (·.1) then d.map fun e => if e.1 = item.1 then item else e
    else d ++ [item]) []

namespace RegionInput

variable {P : Type} (x : RegionInput P)

/-! ## The arrays that all regions share -/

/-- The keys of all points that some face uses. -/
def keys : List ℕ := unique (x.topo.facePts ++ x.topo.bPts)

def pointIds (pts : List ℕ) : List ℕ := pts.map (searchsorted x.keys)

def zone (c : ℕ) : ℕ := x.cellZone.getD c 0

def tag (f : ℕ) : ℤ :=
  match x.faceTags with
  | none => -1
  | some tags => tags.getD f 0

/-- `_boundary_patch_ids`. -/
def patchOf (b : ℕ) : ℕ := x.chunkPatches.flatten.getD b 0

/-- The cells by zone. -/
def orderC : List ℕ := sortBy x.zone (List.range x.topo.nCells)

def cstart (r : ℕ) : ℕ := searchsorted (x.orderC.map x.zone) r

/-- The number of a cell in its own region. -/
def localCell (c : ℕ) : ℕ := x.orderC.idxOf c - x.cstart (x.zone c)

def ro (f : ℕ) : ℕ := x.zone (x.topo.ownerOf f)

def rn (f : ℕ) : ℕ := x.zone (x.topo.neighbourOf f)

/-- The faces inside of a zone, by zone. -/
def same : List ℕ :=
  sortBy x.ro ((List.range x.topo.nInternal).filter fun f => x.ro f = x.rn f)

def sstart (r : ℕ) : ℕ := searchsorted (x.same.map x.ro) r

def cross : List ℕ := (List.range x.topo.nInternal).filter fun f => x.ro f ≠ x.rn f

/-- Every face between two zones, once for each, in the order of both patches. -/
def crossFaces : List CrossFace :=
  sortBy CrossFace.key
    (x.cross.map (fun f => ⟨x.ro f, x.rn f, f, false, x.tag f⟩) ++
      x.cross.map fun f => ⟨x.rn f, x.ro f, f, true, x.tag f⟩)

def estart (r : ℕ) : ℕ := searchsorted (x.crossFaces.map (·.r)) r

def br (b : ℕ) : ℕ := x.zone (x.topo.bOwnerOf b)

/-- The boundary faces by the zone of their owner, then by patch. -/
def bo : List ℕ :=
  sortBy (fun b => toLex (x.br b, toLex (x.patchOf b, b)))
    (List.range x.chunkPatches.flatten.length)

def bstart (r : ℕ) : ℕ := searchsorted (x.bo.map x.br) r

/-! ## One region -/

/-- The internal faces of a region. -/
def fi (r : ℕ) : List ℕ := slice x.same (x.sstart r) (x.sstart (r + 1))

/-- The boundary faces of a region. -/
def fb (r : ℕ) : List ℕ := slice x.bo (x.bstart r) (x.bstart (r + 1))

/-- The faces of a region that another region shares. -/
def fx (r : ℕ) : List CrossFace := slice x.crossFaces (x.estart r) (x.estart (r + 1))

/-- The offsets and the point ids of all loops of a region. -/
def regionLoops (r : ℕ) : List ℕ × List ℕ :=
  let i := gatherLoops x.topo.faceOff (x.pointIds x.topo.facePts) (x.fi r) none
  let b := gatherLoops x.topo.bOff (x.pointIds x.topo.bPts) (x.fb r) none
  let e := gatherLoops x.topo.faceOff (x.pointIds x.topo.facePts) ((x.fx r).map (·.f))
    (some ((x.fx r).map (·.flip)))
  (i.1 ++ b.1.tail.map (i.1.getLastD 0 + ·) ++
      e.1.tail.map (i.1.getLastD 0 + b.1.getLastD 0 + ·),
    i.2 ++ b.2 ++ e.2)

/-- The points of a region, by their ids in the whole mesh. -/
def used (r : ℕ) : List ℕ := unique (x.regionLoops r).2

/-- The patches of a region on the domain's sides, with their sizes. -/
def pids (r : ℕ) : List (ℕ × ℕ) := uniqueCounts ((x.fb r).map x.patchOf)

/-- The neighbours of a region, each with a tag, with the sizes of their patches. -/
def pairs (r : ℕ) : List ((ℕ ×ₗ ℤ) × ℕ) := uniqueCounts ((x.fx r).map fun e => toLex (e.s, e.t))

def zoneName (r : ℕ) : String := x.zoneNames.getD r ""

def via (t : ℤ) : String :=
  if 0 ≤ t then "_via_" ++ (x.tagNames.getD []).getD t.toNat "" else ""

def interfaceName (r : ℕ) (pair : ℕ ×ₗ ℤ) : String :=
  x.zoneName r ++ "_to_" ++ x.zoneName (ofLex pair).1 ++ x.via (ofLex pair).2

def boundaryEntry (pid start n : ℕ) : PatchEntry :=
  let patch := x.patches.getD pid ⟨"", ""⟩
  ⟨patch.name, patch.type, n, start, []⟩

def interfaceEntry (r : ℕ) (pair : ℕ ×ₗ ℤ) (start n : ℕ) : PatchEntry :=
  let other := x.zoneName (ofLex pair).1
  let otherPatch := other ++ "_to_" ++ x.zoneName r ++ x.via (ofLex pair).2
  ⟨x.interfaceName r pair, "mappedWall", n, start, mappedEntry other otherPatch x.dialect⟩

def entries (r : ℕ) : List PatchEntry :=
  let start := (x.fi r).length
  (layOut start (x.pids r)).map (fun e => x.boundaryEntry e.1 e.2.1 e.2.2) ++
    (layOut (start + ((x.pids r).map (·.2)).sum) (x.pairs r)).map
      fun e => x.interfaceEntry r e.1 e.2.1 e.2.2

def regionMesh (r : ℕ) : RegionMesh P where
  name := x.zoneName r
  points := (x.used r).map x.points
  off := (x.regionLoops r).1
  faces := (x.regionLoops r).2.map fun p => (x.used r).idxOf p
  owner := (x.fi r).map (fun f => x.localCell (x.topo.ownerOf f)) ++
    (x.fb r).map (fun b => x.localCell (x.topo.bOwnerOf b)) ++
    (x.fx r).map fun e =>
      x.localCell (if e.flip then x.topo.neighbourOf e.f else x.topo.ownerOf e.f)
  neighbour := (x.fi r).map fun f => x.localCell (x.topo.neighbourOf f)
  entries := x.entries r
  nCells := x.cstart (r + 1) - x.cstart r

def regionSummary (r : ℕ) : RegionSummary where
  cells := x.cstart (r + 1) - x.cstart r
  faces := (x.regionLoops r).1.length - 1
  internalFaces := (x.fi r).length
  points := (x.used r).length
  interfaces := dictOf ((x.pairs r).map fun p => (x.interfaceName r p.1, p.2))
  patches := dictOf ((x.pids r).map fun p => ((x.patches.getD p.1 ⟨"", ""⟩).name, p.2))

end RegionInput

/-- `write_regions`: the meshes that are written, and the summary by region. -/
def writeRegions {P : Type} (x : RegionInput P) :
    List (RegionMesh P) × List (String × RegionSummary) :=
  let regions := List.range x.zoneNames.length
  (regions.map x.regionMesh, regions.map fun r => (x.zoneName r, x.regionSummary r))

end MeshPipeline.SnapGrid
