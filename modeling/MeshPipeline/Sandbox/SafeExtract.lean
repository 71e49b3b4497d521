import Mathlib.Data.List.SplitOn
import Mathlib.Algebra.Order.Ring.Rat
import MeshPipeline.Library.FileTree
import MeshPipeline.Library.Text

/-!
# The extraction of an untrusted archive

An archive is extracted into an empty directory, or beside a directory that holds files and then moved
over it. Any step that asks the file system can fail.
-/

namespace MeshPipeline.Sandbox

/-- What a directory holds besides directories. -/
inductive Leaf
  | file (bytes : List UInt8)
  | link
  deriving DecidableEq, Repr

abbrev Tree := FileTree String Leaf

structure ExtractionLimits where
  maxArchiveBytes : Int
  maxEntries : Int
  maxTotalUncompressedBytes : Int
  maxFileBytes : Int
  maxDepth : Int
  maxPathLen : Int
  maxRatio : Rat
  allowSymlinks : Bool
  allowHardlinks : Bool

inductive MemberType
  | regular | directory | symlink | hardlink | special
  deriving DecidableEq, Repr

/-- `TarInfo`, with what reading the member gives. -/
structure Member where
  name : String
  type : MemberType
  mode : Nat
  size : Nat
  data : List UInt8
  deriving DecidableEq, Repr

/-- An archive, and its members if its headers can be read. -/
structure Archive where
  bytes : Nat
  members : Except String (List Member)

/-- Where the file system fails: staging, at a member, in the comparison of the trees, at a move. -/
structure Faults where
  staging : Bool
  member : Nat → Bool
  check : Bool
  move : Nat → Bool

/-- `validate_limits`. -/
def validateLimits (limits : ExtractionLimits) : Except String Unit :=
  match [("max_archive_bytes", limits.maxArchiveBytes), ("max_entries", limits.maxEntries),
      ("max_total_uncompressed_bytes", limits.maxTotalUncompressedBytes),
      ("max_file_bytes", limits.maxFileBytes), ("max_depth", limits.maxDepth),
      ("max_path_len", limits.maxPathLen)].find? fun l => l.2 ≤ 0 with
  | some (name, _) => .error ("extraction limit " ++ name ++ " must be positive")
  | none =>
    if limits.maxRatio ≤ 0 then .error "extraction limit max_ratio must be positive" else .ok ()

/-! ## Member paths -/

/-- `name.replace("\\", "/")`. -/
def slashes (name : String) : List Char := name.toList.map fun c => if c = '\\' then '/' else c

/-- The components of a name that a path keeps. -/
def parts (name : String) : List String :=
  (((slashes name).splitOn '/').map String.ofList).filter fun p => p ≠ "" ∧ p ≠ "."

/-- `Path.resolve`, of a path that meets no link. -/
def resolve (path : List String) : List String :=
  path.foldl (fun out p => if p = ".." then out.dropLast else out ++ [p]) []

/-- `_safe_member_path`. -/
def safeMemberPath (dest : List String) (name : String) (limits : ExtractionLimits) :
    Except String (List String) :=
  if name = "" ∨ name = "." ∨ name = "./" then .error "archive entry has an empty name"
  else if limits.maxPathLen < name.length then .error "archive entry path is too long"
  else if name.toList.head? = some '/' ∨ name.toList[1]? = some ':' then
    .error ("archive entry has an absolute path: " ++ name)
  else if ".." ∈ parts name then
    .error ("archive entry contains a '..' traversal: " ++ name)
  else if limits.maxDepth < (parts name).length then
    .error ("archive entry exceeds max depth: " ++ name)
  else
    let target := resolve (dest ++ parts name)
    if resolve dest <+: target then .ok target
    else .error ("archive entry resolves outside the destination: " ++ name)

/-- The spelling of a name that duplicates are told by. -/
def spelling (name : String) : String := Text.rstrip ['/'] (String.ofList (slashes name))

/-- The set-user and set-group bits. -/
def setsId (mode : Nat) : Bool := mode.testBit 11 || mode.testBit 10

/-- One member of `_validate_members`; `seen` and `total` are of those before it. -/
def validateMember (dest : List String) (limits : ExtractionLimits) (state : List String × Nat)
    (m : Member) : Except String (List String × Nat) := do
  let _ ← safeMemberPath dest m.name limits
  if spelling m.name ∈ state.1 then
    throw ("archive has a duplicate entry path: " ++ m.name)
  if m.type = .symlink ∧ ¬ limits.allowSymlinks then
    throw ("archive contains a symlink (disallowed): " ++ m.name)
  if m.type = .hardlink ∧ ¬ limits.allowHardlinks then
    throw ("archive contains a hard link (disallowed): " ++ m.name)
  if m.type = .special then
    throw ("archive contains a device/FIFO special file: " ++ m.name)
  if setsId m.mode then
    throw ("archive entry has setuid/setgid bits: " ++ m.name)
  if m.type = .regular ∧ limits.maxFileBytes < m.size then
    throw ("archive entry is over the per-file cap: " ++ m.name)
  return (spelling m.name :: state.1, if m.type = .regular then state.2 + m.size else state.2)

/-- `_validate_members`. -/
def validateMembers (members : List Member) (dest : List String) (limits : ExtractionLimits)
    (archiveBytes : Nat) : Except String Unit := do
  if limits.maxEntries < members.length then
    throw "archive has too many entries"
  let (_, total) ← members.foldlM (validateMember dest limits) ([], 0)
  if limits.maxTotalUncompressedBytes < total then
    throw "archive expands over the total cap (possible decompression bomb)"
  if 0 < archiveBytes ∧ limits.maxRatio < (total : Rat) / archiveBytes then
    throw "archive compression ratio exceeds the cap (possible decompression bomb)"

/-! ## Extraction into an empty directory -/

/-- One member is extracted into the tree, which is that of the destination. -/
def extractMember (dest : List String) (limits : ExtractionLimits) (fault : Bool) (m : Member)
    (state : Tree × Nat) : Except String (Tree × Nat) := do
  let target ← safeMemberPath dest m.name limits
  let path := target.drop (resolve dest).length
  if fault then
    throw "archive extraction failed: OSError"
  match m.type with
  | .directory =>
    match state.1.makeDirs path with
    | some tree => return (tree, state.2)
    | none => throw "archive extraction failed: FileExistsError"
  | .regular =>
    let written := state.2 + (m.data.take m.size).length
    if limits.maxTotalUncompressedBytes < written then
      throw "archive wrote more than the total-bytes cap mid-stream"
    match state.1.write (.file (m.data.take m.size)) path with
    | some tree =>
      if (m.data.take m.size).length = m.size then return (tree, written)
      else throw ("archive entry is shorter than its header says: " ++ m.name)
    | none => throw "archive extraction failed: OSError"
  | _ => return state

/-- The loop over the members. -/
def extractMembers (dest : List String) (limits : ExtractionLimits) (fault : Nat → Bool) :
    Nat → List Member → Tree × Nat → Except String (Tree × Nat)
  | _, [], state => .ok state
  | i, m :: members, state => do
    let state ← extractMember dest limits (fault i) m state
    extractMembers dest limits fault (i + 1) members state

/-- `_extract_fresh`: what becomes of a destination that is absent or empty. -/
def extractFresh (archive : Archive) (dest : List String) (limits : ExtractionLimits)
    (faults : Faults) (before : Option Tree) : Option Tree × Except String Nat :=
  match validateLimits limits with
  | .error e => (before, .error e)
  | .ok () =>
    if limits.maxArchiveBytes < archive.bytes then (some .nil, .error "archive is over the cap")
    else
      -- on an error past this point the partial tree is removed
      match archive.members with
      | .error e => (none, .error e)
      | .ok members =>
        match validateMembers members dest limits archive.bytes with
        | .error e => (none, .error e)
        | .ok () =>
          match extractMembers dest limits faults.member 0 members (.nil, 0) with
          | .error e => (none, .error e)
          | .ok (tree, written) => (some tree, .ok written)

/-! ## Extraction over a directory that holds files -/

/-- `_check_merge`: a conflict of the staged tree with the destination. -/
def checkMerge : Tree → Tree → Option String
  | .nil, _ => none
  | .leaf n _ rest, dest =>
    match dest.get n with
    | some (.leaf .link) =>
      some ("archive entry would land on a symlink in the destination: " ++ n)
    | some (.dir _) =>
      some ("archive file would replace a directory in the destination: " ++ n)
    | _ => checkMerge rest dest
  | .dir n inside rest, dest =>
    match dest.get n with
    | some (.leaf .link) =>
      some ("archive entry would land on a symlink in the destination: " ++ n)
    | some (.leaf (.file _)) =>
      some ("archive directory would replace a file in the destination: " ++ n)
    | some (.dir there) => (checkMerge inside there).or (checkMerge rest dest)
    | none => checkMerge rest dest

/-- `_move_over`, with the number of the next move: the destination, and that number unless a move
failed. -/
def moveOver (fault : Nat → Bool) : Tree → Tree → Nat → Tree × Option Nat
  | .nil, dest, i => (dest, some i)
  | .leaf n x rest, dest, i =>
    if fault i then (dest, none) else moveOver fault rest (dest.put n (.leaf x)) (i + 1)
  | .dir n inside rest, dest, i =>
    match dest.get n with
    | some (.dir there) =>
      match moveOver fault inside there i with
      | (there, none) => (dest.put n (.dir there), none)
      | (there, some i) => moveOver fault rest (dest.put n (.dir there)) i
    | _ =>
      if fault i then (dest, none) else moveOver fault rest (dest.put n (.dir inside)) (i + 1)

/-- `_extract_over`; the staging directory lies beside the destination. -/
def extractOver (archive : Archive) (staging : List String) (limits : ExtractionLimits)
    (faults : Faults) (dest : Tree) : Tree × Except String Nat :=
  if faults.staging then (dest, .error "archive extraction could not be staged: OSError")
  else
    match extractFresh archive staging limits faults (some .nil) with
    | (_, .error e) => (dest, .error e)
    | (staged, .ok written) =>
      let staged := staged.getD .nil
      if faults.check then (dest, .error "OSError")
      else
        match checkMerge staged dest with
        | some conflict => (dest, .error conflict)
        | none =>
          match moveOver faults.move staged dest 0 with
          | (dest, none) =>
            (dest, .error "archive extraction failed moving members into place: OSError")
          | (dest, some _) => (dest, .ok written)

/-- `safe_extract_tar`: what becomes of the destination. -/
def safeExtractTar (archive : Archive) (dest staging : List String) (limits : ExtractionLimits)
    (faults : Faults) : Option Tree → Option Tree × Except String Nat
  | some .nil => extractFresh archive dest limits faults (some .nil)
  | none => extractFresh archive dest limits faults none
  | some tree =>
    let (tree, answer) := extractOver archive staging limits faults tree
    (some tree, answer)

end MeshPipeline.Sandbox
