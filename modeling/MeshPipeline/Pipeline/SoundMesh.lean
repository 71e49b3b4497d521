import Mathlib.Algebra.Order.Ring.Rat
import Mathlib.Logic.Function.Basic
import Mathlib.Order.WithBot

/-!
# The sound meshes of a run and the workspaces that hold them

Every mesh that passed its gates is kept on a list, by the workspace it lies in, and the run may be
moved back onto the best of them. The list keeps no mesh: what a workspace holds by then is on disk.
-/

namespace MeshPipeline.Pipeline

/-- One sound mesh of a run, as the router may deliver it later. -/
structure SoundEntry where
  attempt : Nat
  workspace : Nat
  /-- Some requirement caveat was recorded. -/
  caveats : Bool
  /-- The resolution note, with the cells across the narrowest gap if they were measured. -/
  resolutionNote : Option (Option ℚ)
  /-- The mesh that was judged. A ghost: the row does not keep it. -/
  mesh : Nat
  deriving DecidableEq

/-- The newest row of a workspace replaces an earlier one. -/
def withSound (rows : List SoundEntry) (entry : SoundEntry) : List SoundEntry :=
  rows.filter (·.workspace ≠ entry.workspace) ++ [entry]

/-- A mesh without a resolution note meets the floor. -/
def resolutionOf (entry : SoundEntry) : WithTop ℚ :=
  match entry.resolutionNote with
  | none => ⊤
  | some cellsAcross => ↑(cellsAcross.getD 0)

/-- One row of the search: the newer row wins a tie. -/
def betterSound (reads : List Nat) (best : Option SoundEntry) (row : SoundEntry) :
    Option SoundEntry :=
  if row.workspace ∈ reads then
    match best with
    | none => some row
    | some b => if resolutionOf b ≤ resolutionOf row then some row else some b
  else best

/-- The best sound mesh whose manifest still reads with no fatal defect; `reads` are the workspaces
where it does. -/
def deliverableSound (rows : List SoundEntry) (reads : List Nat) : Option SoundEntry :=
  rows.foldl (betterSound reads) none

/-- An earlier sound mesh that resolves the narrowest gap strictly better than the current one. -/
def betterEarlierSound (rows : List SoundEntry) (reads : List Nat) (workspace : Option Nat) :
    Option SoundEntry :=
  match rows.getLast?, deliverableSound rows reads with
  | some last, some best =>
    let current := workspace.getD last.workspace
    let mine := (rows.find? (·.workspace = current)).getD last
    if 2 ≤ rows.length ∧ best.workspace ≠ current ∧ resolutionOf mine < resolutionOf best then
      some best
    else none
  | _, _ => none

theorem betterSound_cases (reads : List Nat) (best : Option SoundEntry) (row : SoundEntry) :
    betterSound reads best row = best ∨ betterSound reads best row = some row := by
  fun_cases betterSound reads best row <;> grind

theorem foldl_betterSound_mem (rows : List SoundEntry) (reads : List Nat)
    (best : Option SoundEntry) {e : SoundEntry} (h : rows.foldl (betterSound reads) best = some e) :
    best = some e ∨ e ∈ rows := by
  induction rows generalizing best with
  | nil => exact .inl h
  | cons row rows ih =>
    obtain hbest | hmem := ih _ h
    · obtain hkept | hrow := betterSound_cases reads best row
      · exact .inl (hkept ▸ hbest)
      · obtain rfl : row = e := Option.some.inj (hrow.symm.trans hbest)
        exact .inr List.mem_cons_self
    · exact .inr (List.mem_cons_of_mem row hmem)

theorem mem_of_deliverableSound {rows : List SoundEntry} {reads : List Nat} {e : SoundEntry}
    (h : deliverableSound rows reads = some e) : e ∈ rows :=
  (foldl_betterSound_mem rows reads none h).resolve_left (by simp)

theorem mem_withSound {rows : List SoundEntry} {entry e : SoundEntry} :
    e ∈ withSound rows entry ↔ e ∈ rows ∧ e.workspace ≠ entry.workspace ∨ e = entry := by
  simp [withSound]

/-- The attempt workspaces on disk: the mesh each holds, and the copy kept of it as its attempt
started. Every mesh that is written is a new one; `0` is no mesh. -/
structure Workspaces where
  mesh : Nat → Nat
  startCopy : Nat → Option Nat
  written : Nat

namespace Workspaces

def empty : Workspaces := ⟨fun _ => 0, fun _ => none, 0⟩

/-- Once: a replay keeps the copy of the attempt it replays. -/
def markAttemptStart (d : Workspaces) (ws : Nat) : Workspaces :=
  { d with
    startCopy := Function.update d.startCopy ws ((d.startCopy ws).or (some (d.mesh ws))) }

def writeMesh (d : Workspaces) (ws : Nat) : Workspaces :=
  { d with mesh := Function.update d.mesh ws (d.written + 1), written := d.written + 1 }

def restoreAttemptStart (d : Workspaces) (ws : Nat) : Workspaces :=
  { d with mesh := Function.update d.mesh ws ((d.startCopy ws).getD (d.mesh ws)) }

def dropAttemptStart (d : Workspaces) (ws : Nat) : Workspaces :=
  { d with startCopy := Function.update d.startCopy ws none }

/-- The mesh lies in the workspace or in the copy of it. -/
def Holds (d : Workspaces) (ws mesh : Nat) : Prop := d.mesh ws = mesh ∨ d.startCopy ws = some mesh

variable {d : Workspaces} {ws ws' mesh : Nat}

theorem holds_markAttemptStart (h : (d.markAttemptStart ws).Holds ws' mesh) : d.Holds ws' mesh := by
  obtain hmesh | hcopy := h
  · exact .inl hmesh
  · by_cases hws : ws' = ws
    · subst hws
      cases hkept : d.startCopy ws' with
      | some copy => exact .inr (by simpa [markAttemptStart, hkept] using hcopy)
      | none => exact .inl (by simpa [markAttemptStart, hkept] using hcopy)
    · exact .inr (by simpa [markAttemptStart, hws] using hcopy)

theorem holds_writeMesh (h : (d.writeMesh ws).Holds ws' mesh) :
    d.Holds ws' mesh ∨ mesh = d.written + 1 := by
  obtain rfl | hcopy := h
  · by_cases hws : ws' = ws
    · exact .inr (by simp [writeMesh, hws])
    · exact .inl (.inl (by simp [writeMesh, hws]))
  · exact .inl (.inr hcopy)

theorem holds_restoreAttemptStart (h : (d.restoreAttemptStart ws).Holds ws' mesh) :
    d.Holds ws' mesh := by
  obtain rfl | hcopy := h
  · by_cases hws : ws' = ws
    · subst hws
      cases hkept : d.startCopy ws' with
      | some copy => exact .inr (by simp [restoreAttemptStart, hkept])
      | none => exact .inl (by simp [restoreAttemptStart, hkept])
    · exact .inl (by simp [restoreAttemptStart, hws])
  · exact .inr hcopy

theorem holds_dropAttemptStart (h : (d.dropAttemptStart ws).Holds ws' mesh) :
    d.mesh ws' = mesh ∨ ws' ≠ ws ∧ d.Holds ws' mesh := by
  obtain hmesh | hcopy := h
  · exact .inl hmesh
  · by_cases hws : ws' = ws
    · simp [dropAttemptStart, hws] at hcopy
    · exact .inr ⟨hws, .inr (by simpa [dropAttemptStart, hws] using hcopy)⟩

end Workspaces

end MeshPipeline.Pipeline
