import Mathlib.Logic.Function.Basic
import MeshPipeline.Boundary.PatchNames
import MeshPipeline.Library.Numbering

/-!
# A declaration, normalised

Types first, then names: the correct ones are claimed, the others are cleaned and told apart, and
what repeats an earlier name keeps its spelling.
-/

namespace MeshPipeline.Boundary

/-- A value of a patch: null or missing, a text, or another one as it prints, with its truth. -/
inductive Value
  | null
  | str (s : Str)
  | other (printed : Str) (truthy : Bool)
  deriving DecidableEq

namespace Value

/-- `str(v)`. -/
def printed : Value → Str
  | .null => "None".toList
  | .str s => s
  | .other p _ => p

/-- `str(v if v is not None else "")`. -/
def text : Value → Str
  | .null => []
  | v => v.printed

def truthy : Value → Bool
  | .null => false
  | .str s => s ≠ []
  | .other _ t => t

/-- `v or w`. -/
def or (v w : Value) : Value := if v.truthy then v else w

/-- The text in it, if it is one that says something. -/
def said (v : Value) : Option Str :=
  match v with
  | .str s => if Text.stripList s = [] then none else some (Text.stripList s)
  | _ => none

end Value

/-- `interchangeable_with`. -/
inductive Interchangeable
  | list (entries : List Value)
  | other
  deriving DecidableEq

/-- What the normaliser reads of a declared patch. -/
structure Patch where
  name : Value
  type : Value
  role : Value
  interchangeableWith : Interchangeable
  deriving DecidableEq

/-- An entry of the list, which may be no patch at all. -/
inductive Item
  | patch (p : Patch)
  | other
  deriving DecidableEq

/-- How an external flow names its ground plane: a ground word that a mesher can write. -/
structure GroundRule where
  name : Str
  safe : isMeshSafe name = true
  ground : isGroundWord name = true

inductive Reason
  | spelling | reserved | duplicate | ground
  deriving DecidableEq

structure Rename where
  typed : Str
  name : Str
  reason : Reason
  deriving DecidableEq

structure Retype where
  name : Str
  typed : Str
  role : Str
  deriving DecidableEq

structure DeclarationChanges where
  patches : List Item
  renames : List Rename
  retypes : List Retype
  deriving DecidableEq

/-! ## Roles -/

/-- A `role` that stands for the type, or says the same. -/
def mergeRole (p : Patch) : Patch :=
  match p.type.said, p.role with
  | none, .str r =>
    if Text.stripList r ≠ [] then { p with type := p.role, role := .null }
    else match p.type with
      -- two blank texts say the same
      | .str _ => { p with role := .null }
      | _ => p
  | some word, .str r => if Text.stripList r = word then { p with role := .null } else p
  | _, _ => p

/-- The type as a role the purpose routes on. -/
def settleType (allowed : Option (List Str)) (p : Patch) : Patch :=
  match p.type.said with
  | none => p
  | some word =>
    let role := if word ∈ allowed.getD allRoles then none else canonicalRole word allowed
    { p with type := .str (role.getD word) }

/-- `_settle_roles`, of one patch. -/
def settleRole (allowed : Option (List Str)) (p : Patch) : Patch :=
  settleType allowed (mergeRole p)

/-- A change of type that is worth a sentence. -/
def retypeOf (allowed : Option (List Str)) (p : Patch) : Option Retype :=
  (mergeRole p).type.said.bind fun typed =>
    let role := if typed ∈ allowed.getD allRoles then none else canonicalRole typed allowed
    role.bind fun role =>
      if word typed ≠ role then some ⟨Text.stripList (p.name.or (.str [])).printed, typed, role⟩ else none

def Item.map (f : Patch → Patch) : Item → Item
  | .patch p => .patch (f p)
  | .other => .other

def Item.patch? : Item → Option Patch
  | .patch p => some p
  | .other => none

/-! ## Names -/

/-- What the naming reads of a named patch. -/
structure Label where
  typed : Str
  /-- Its type, as settled, is a wall. -/
  wall : Bool
  /-- Its type, as typed, is a ground word. -/
  groundType : Bool
  deriving DecidableEq

/-- A patch as the naming reads it; `typedType` is its type as it was typed. -/
def labelOf (typedType : Str) : Item → Option Label
  | .other => none
  | .patch p => p.name.said.map fun typed =>
    ⟨typed, (p.type.or (.str [])).printed == "wall".toList, isGroundWord typedType⟩

/-- `_is_ground`. -/
def Label.isGround (l : Label) : Bool := l.wall && (isGroundWord l.typed || l.groundType)

/-- The name under which two spellings are one. -/
def Label.key (l : Label) : Str := Text.casefold l.typed

section

variable (labels : List (Option Label)) (ground : Option GroundRule)

def labelAt (i : Nat) : Option Label := labels[i]?.join

/-- `first`: the first position of a spelling, in any capitals. -/
def firstOf (key : Str) : Nat := labels.findIdx fun l => l.any (·.key == key)

/-- `_repeat`. -/
def isRepeat (i : Nat) (l : Label) : Bool := firstOf labels l.key != i

/-- A patch is typed with the ground's own name. -/
def groundTyped : Bool :=
  ground.any fun g => labels.any fun l => l.any (·.key == Text.casefold g.name)

structure Naming where
  taken : List Str
  final : Nat → Option Str
  reasons : Nat → Option Reason
  groundTaken : Bool

def Naming.start : Naming := ⟨[], fun _ => none, fun _ => none, groundTyped labels ground⟩

/-- A name typed correctly is claimed first. -/
def claimTyped (s : Naming) (i : Nat) : Naming :=
  match labelAt labels i with
  | none => s
  | some l =>
    if isRepeat labels i l then s
    else if isMeshSafe l.typed ∧ isReserved l.typed = false ∧ l.key ∉ s.taken ∧
        ¬ (ground.isSome ∧ s.groundTaken = false ∧ l.isGround) then
      { s with
        final := Function.update s.final i (some l.typed)
        taken := s.taken ++ [l.key] }
    else s

/-- The loop that tells a name apart by a number, from 2 on. -/
def tellApart (taken : List Str) (base : Str) : Str :=
  Numbering.firstFree taken Text.casefold (suffixed base) (taken.length + 2) 2 base

/-- What a name is before it is told apart, why, and whether it is the ground now. -/
def spell (groundTaken : Bool) (l : Label) : Str × Option Reason × Bool :=
  let (safe, reason, groundTaken) :=
    match ground with
    | some g =>
      if groundTaken = false ∧ l.isGround then (g.name, some Reason.ground, true)
      else (meshSafe l.typed, if meshSafe l.typed ≠ l.typed then some .spelling else none,
        groundTaken)
    | none => (meshSafe l.typed, if meshSafe l.typed ≠ l.typed then some .spelling else none,
        groundTaken)
  if isReserved safe then (unreserved safe, some .reserved, groundTaken)
  else (safe, reason, groundTaken)

/-- Every other name is cleaned and told apart. -/
def claimCleaned (s : Naming) (i : Nat) : Naming :=
  match labelAt labels i with
  | none => s
  | some l =>
    if (s.final i).isSome ∨ isRepeat labels i l then s
    else
      let (base, reason, groundTaken) := spell ground s.groundTaken l
      let safe := tellApart s.taken base
      let reason := if safe = base then reason else some (reason.getD .duplicate)
      { taken := s.taken ++ [Text.casefold safe]
        final := Function.update s.final i (some safe)
        reasons :=
          if safe ≠ l.typed then Function.update s.reasons i (some (reason.getD .duplicate))
          else s.reasons
        groundTaken := groundTaken }

/-- A repeat is spelled as its first, or in its own capitals. -/
def claimRepeat (s : Naming) (i : Nat) : Naming :=
  match labelAt labels i with
  | none => s
  | some l =>
    if isRepeat labels i l then
      let j := firstOf labels l.key
      let first := (s.final j).getD []
      if (labelAt labels j).any (·.typed == l.typed) then
        { s with
          final := Function.update s.final i (some first)
          reasons := if (s.reasons j).isSome then Function.update s.reasons i (s.reasons j)
            else s.reasons }
      else
        let cleaned := meshSafe l.typed
        let reason := if cleaned ≠ l.typed then some Reason.spelling else none
        let (safe, reason) :=
          if isReserved cleaned then (unreserved cleaned, some Reason.reserved)
          else (cleaned, reason)
        let (safe, reason) :=
          if Text.casefold safe ≠ Text.casefold first then
            (first, some ((s.reasons j).getD .spelling))
          else (safe, reason)
        { s with
          final := Function.update s.final i (some safe)
          reasons := if reason.isSome then Function.update s.reasons i reason else s.reasons }
    else s

/-- The three passes over the positions. -/
def settleNames : Naming :=
  let positions := List.range labels.length
  let claimed := positions.foldl (claimTyped labels ground) (Naming.start labels ground)
  let cleaned := positions.foldl (claimCleaned labels ground) claimed
  positions.foldl (claimRepeat labels) cleaned

end

/-- The patch under the name it was given. -/
def Patch.rename (final : Option Str) (p : Patch) : Patch :=
  match final with
  | some name => { p with name := .str name }
  | none => p

/-- A patch that is called otherwise than typed is a rename, each typed name once. -/
def addRename (labels : List (Option Label)) (s : Naming) (renames : List Rename) (i : Nat) :
    List Rename :=
  match labelAt labels i, s.final i with
  | some l, some name =>
    if name ≠ l.typed ∧ l.typed ∉ renames.map (·.typed) then
      renames ++ [⟨l.typed, name, (s.reasons i).getD .spelling⟩]
    else renames
  | _, _ => renames

def renamesOf (labels : List (Option Label)) (s : Naming) : List Rename :=
  (List.range labels.length).foldl (addRename labels s) []

/-- `by_typed.get(str(o).strip(), mesh_safe(o))`. -/
def followRename (renames : List Rename) (entry : Value) : Value :=
  match renames.find? fun r => r.typed == Text.stripList entry.printed with
  | some r => .str r.name
  | none => .str (meshSafe entry.text)

/-- The references follow the renames. -/
def Patch.follow (renames : List Rename) (p : Patch) : Patch :=
  match p.interchangeableWith with
  | .list entries => { p with interchangeableWith := .list (entries.map (followRename renames)) }
  | .other => p

/-- The types as they were typed. -/
def typedType : Item → Str
  | .other => []
  | .patch p => ((p.type.or p.role).or (.str [])).printed

/-- What the naming reads of the patches, once their roles are settled. -/
def labelsOf (allowed : Option (List Str)) (patches : List Item) : List (Option Label) :=
  patches.map fun q => labelOf (typedType q) (q.map (settleRole allowed))

/-- `normalize_declaration`, of a list. -/
def normalizeDeclaration (patches : List Item) (allowed : Option (List Str))
    (ground : Option GroundRule) : DeclarationChanges :=
  let staged := patches.map (Item.map (settleRole allowed))
  let labels := labelsOf allowed patches
  let names := settleNames labels ground
  let renames := renamesOf labels names
  let out := staged.mapIdx fun i q => q.map (·.rename (names.final i))
  let retypes := patches.filterMap fun q => q.patch?.bind (retypeOf allowed)
  { patches := if renames = [] then out else out.map (Item.map (·.follow renames))
    renames := renames
    retypes := retypes.map fun r =>
      { r with name := ((renames.find? fun n => n.typed == r.name).map (·.name)).getD r.name } }

end MeshPipeline.Boundary
