import Mathlib.Data.String.Basic
import MeshPipeline.Library.Buckets
import MeshPipeline.Library.Outcome
import MeshPipeline.Ports.Openings

/-!
# Binding ports to openings

Ports with a location take their openings first, in name order; the others are bound by size. What
cannot be bound without a doubt is refused.
-/

namespace MeshPipeline.Ports

open Buckets

/-- What a refusal is about. -/
inductive BindError
  | walls (names : List String)
  | unknownRoles (names : List String)
  | manySizeForms (port : String)
  | noSizeNoLocation (port : String)
  | fewOpenings (ports openings : Nat)
  | stagedSizeDisagrees (port : String)
  | tooFar (port key : String)
  | notDecisive (port key runnerUp : String)
  | sizeDisagrees (port key : String)
  | sizesTooClose (lo hi : List String)
  | manySizes (key : String)
  | noOpening (ports : List String) (found : Nat)
  | surplusOpenings (ports : List String) (found : Nat)
  | notInterchangeable (ports : List String)
  deriving DecidableEq

inductive Failure
  | bindError (e : BindError)
  | indexError
  | assertionError
  deriving DecidableEq

/-- What the tessellation measured: the surfaces by their keys, one of them the wall's. -/
structure Tessellation (σ : Type) where
  openings : List (String × Opening)
  bboxMin : Point
  bboxMax : Point
  stls : List (String × σ)
  openings_nodup : (openings.map Prod.fst).Nodup
  stls_nodup : (stls.map Prod.fst).Nodup
  wall_mem : "wall" ∈ stls.map Prod.fst
  opening_mem : ∀ k ∈ openings.map Prod.fst, k ∈ stls.map Prod.fst
  opening_ne_wall : "wall" ∉ openings.map Prod.fst

/-- A port, the opening it is bound to, and what was measured there. -/
structure Evidence where
  name : String
  role : String
  engineKey : String
  centroid : Point
  areaM2 : ℚ
  openingAreaM2 : Option ℚ
  deriving DecidableEq

structure Binding where
  wallName : String
  /-- The port names with the keys of their openings. -/
  portMap : List (String × String)
  foldedIntoWall : List String
  evidence : List Evidence
  deriving DecidableEq

/-- The openings that are still free, and who took the others. -/
structure Progress where
  pool : List (String × Opening)
  bound : List (String × String)
  deriving DecidableEq

variable {σ : Type}

/-- `bound[name] = key; del pool[key]`, no name being bound twice. -/
def Progress.take (s : Progress) (name key : String) : Progress :=
  ⟨s.pool.filter (·.1 != key), s.bound ++ [(name, key)]⟩

/-- Rule 0: a port is bindable by something. -/
def checkPort (p : DeclaredPatch) : Except Failure Unit :=
  if 1 < p.sizingForms then .error (.bindError (.manySizeForms p.name))
  else if p.declaredAreaM2.isNone ∧ p.nearMm.isNone then
    .error (.bindError (.noSizeNoLocation p.name))
  else .ok ()

/-- What is checked before anything is bound; gives the wall's name. -/
def checkDeclared (declared : List DeclaredPatch) (openings : Nat) : Except Failure String :=
  match declared.filter (·.role == "wall") with
  | [wall] =>
    let unknown := declared.filter fun d => !(d.role == "wall" || d.isPort)
    let ports := declared.filter (·.isPort)
    if unknown ≠ [] then .error (.bindError (.unknownRoles (unknown.map (·.name))))
    else do
      ports.forM checkPort
      if openings < ports.length then .error (.bindError (.fewOpenings ports.length openings))
      else .ok wall.name
  | walls => .error (.bindError (.walls (walls.map (·.name))))

/-! ## By location -/

/-- The declared size, if there is one, is one of the opening's. -/
def agrees (p : DeclaredPatch) (o : Opening) : Bool := p.declaredAreaM2.all o.locatedSizeAgrees

/-- The opening nearest to the hint, if it stands out. -/
def bindNearest (diagSq : ℚ) (s : Progress) (p : DeclaredPatch) (hint : Point) :
    Except Failure Progress :=
  match sortBy (fun e => hint.metres.distSq e.2.centroid) s.pool with
  | [] => .error .indexError
  | (key, o) :: others =>
    let d1 := hint.metres.distSq o.centroid
    if hintMaxBboxFraction ^ 2 * diagSq < d1 then .error (.bindError (.tooFar p.name key))
    else
      -- with no runner-up, its distance is infinite
      match others.head?.filter fun e =>
          hintMargin ^ 2 * hint.metres.distSq e.2.centroid < d1 with
      | some (runnerUp, _) => .error (.bindError (.notDecisive p.name key runnerUp))
      | none =>
        if agrees p o then .ok (s.take p.name key)
        else .error (.bindError (.sizeDisagrees p.name key))

/-- Rule 2, of one port that states a location. -/
def bindLocated (diagSq : ℚ) (s : Progress) (p : DeclaredPatch) : Except Failure Progress :=
  match p.nearMm with
  | none => .error .assertionError
  | some hint =>
    match (s.pool.lookup p.name).filter (·.declared) with
    | some o =>
      if agrees p o then .ok (s.take p.name p.name)
      else .error (.bindError (.stagedSizeDisagrees p.name))
    | none => bindNearest diagSq s p hint

def bindByLocation (diagSq : ℚ) (openings : List (String × Opening)) (ports : List DeclaredPatch) :
    Except Failure Progress :=
  (sortBy (·.name) (ports.filter (·.isLocated))).foldlM (bindLocated diagSq) ⟨openings, []⟩

/-! ## By size -/

/-- `sorted(classes)`. -/
def classAreas (remaining : List DeclaredPatch) : List Size :=
  unique (remaining.filterMap (·.declaredAreaM2))

/-- `classes[area]`. -/
def classPorts (remaining : List DeclaredPatch) (area : Size) : List DeclaredPatch :=
  remaining.filter (·.declaredAreaM2 == some area)

def portNames (ports : List DeclaredPatch) : List String := sortBy id (ports.map (·.name))

/-- `matches[key]`. -/
def matching (areas : List Size) (o : Opening) : List Size := areas.filter o.sizeAgrees

/-- The openings that match this class and no other, in the order of their centroids. -/
def candidatesFor (areas : List Size) (pool : List (String × Opening)) (area : Size) :
    List (String × Opening) :=
  sortBy (·.2.centroid.key) (pool.filter fun e => matching areas e.2 == [area])

/-- Ports that may be swapped: of one role, and each names all the others. -/
def mayBeSwapped (ports : List DeclaredPatch) : Bool :=
  ports.all fun p => ports.all fun q =>
    p.role == q.role && (p.name == q.name ||
      (p.interchangeableWith.contains q.name && q.interchangeableWith.contains p.name))

/-- One size class, in the order of sizes. -/
def bindClass (areas : List Size) (remaining : List DeclaredPatch) (pool : List (String × Opening))
    (s : Progress) (area : Size) : Except Failure Progress :=
  let ports := classPorts remaining area
  let candidates := candidatesFor areas pool area
  let names := portNames ports
  if candidates.length < ports.length then
    .error (.bindError (.noOpening names candidates.length))
  else if ports.length < candidates.length then
    .error (.bindError (.surplusOpenings names candidates.length))
  else if 1 < ports.length ∧ mayBeSwapped ports = false then
    .error (.bindError (.notInterchangeable names))
  else
    let keys := candidates.map Prod.fst
    .ok ⟨s.pool.filter (!keys.contains ·.1), s.bound ++ names.zip keys⟩

/-- Rule 3b: neighbouring sizes that drift could confuse. -/
def tooClose (areas : List Size) : Option (Size × Size) :=
  (areas.zip areas.tail).find? fun (lo, hi) => hi.val / lo.val < minClassSeparation - eps

/-- Rules 3 and 4. -/
def bindBySize (remaining : List DeclaredPatch) (s : Progress) : Except Failure Progress :=
  let areas := classAreas remaining
  if remaining.any (·.declaredAreaM2.isNone) then .error .assertionError
  else match tooClose areas with
  | some (lo, hi) => .error (.bindError (.sizesTooClose (portNames (classPorts remaining lo))
      (portNames (classPorts remaining hi))))
  | none =>
    match s.pool.find? fun e => 1 < (matching areas e.2).length with
    | some e => .error (.bindError (.manySizes e.1))
    | none => areas.foldlM (bindClass areas remaining s.pool) s

/-! ## The binding -/

/-- The row of one bound port. -/
def evidenceOf (ports : List DeclaredPatch) (openings : List (String × Opening))
    (bound : String × String) : Option Evidence := do
  let p ← ports.find? (·.name == bound.1)
  let o ← openings.lookup bound.2
  return ⟨bound.1, p.role, bound.2, o.centroid, o.area, o.opening.map (·.area)⟩

def bindingOf (wall : String) (ports : List DeclaredPatch) (openings : List (String × Opening))
    (s : Progress) : Binding :=
  let bound := sortBy Prod.fst s.bound
  ⟨wall, bound, sortBy id (s.pool.map Prod.fst), bound.filterMap (evidenceOf ports openings)⟩

/-- `bind_ports`. -/
def bindPorts (declared : List DeclaredPatch) (t : Tessellation σ) : Except Failure Binding := do
  let openings := sortBy Prod.fst t.openings
  let wall ← checkDeclared declared openings.length
  let ports := declared.filter (·.isPort)
  let s ← bindByLocation (t.bboxMin.distSq t.bboxMax) openings ports
  let remaining := ports.filter fun p => !(s.bound.map Prod.fst).contains p.name
  let s ← bindBySize remaining s
  return bindingOf wall ports openings s

/-- What `apply_binding` hands on under the user's names. -/
structure Rekeyed (σ : Type) where
  stls : List (String × σ)
  foldedStls : List (String × σ)
  openings : List (String × Opening)
  binding : Binding

/-- `inverse`. -/
def Binding.userOf (b : Binding) (key : String) : Option String :=
  (b.portMap.find? (·.2 == key)).map Prod.fst

/-- `apply_binding`, of a binding whose names are distinct. -/
def applyBinding (t : Tessellation σ) (b : Binding) : Rekeyed σ where
  stls := ((t.stls.lookup "wall").map (b.wallName, ·)).toList ++
    t.stls.filterMap fun (k, v) => if k = "wall" then none else (b.userOf k).map (·, v)
  foldedStls := b.foldedIntoWall.filterMap fun k => (t.stls.lookup k).map (k, ·)
  openings := t.openings.filterMap fun (k, o) => (b.userOf k).map (·, o)
  binding := b

end MeshPipeline.Ports
