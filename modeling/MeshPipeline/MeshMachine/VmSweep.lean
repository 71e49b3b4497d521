import Mathlib.Algebra.Order.Ring.Rat
import MeshPipeline.Persistence.JobRepository

/-!
# The sweep of the mesh machines

A sweep looks at every machine it can list, one after the other, and asks about each only what its
decision needs: how long ago its beacon was written, whether its result is there, whether its owner is
alive. A beacon that cannot be read counts as one that was not heard.
-/

namespace MeshPipeline.VmSweep

/-- `OWNER_GRACE_S`. -/
def ownerGraceS : ℚ := 1800

/-- `WORKING_S`. -/
def workingS : ℚ := 900 + 300

/-- `STOPPED`. -/
def stopped : List String := ["TERMINATED", "STOPPED", "STOPPING", "SUSPENDED"]

/-- A machine as Compute Engine describes it. Its creation is `none` when the timestamp names no
instant; the items of its metadata are keys with values. -/
structure Vm where
  name : String
  zone : String
  status : Option String
  creationTimestamp : Option ℚ
  items : List (Option String × Option String)

namespace Vm

/-- `_meta`. -/
def metaOf (vm : Vm) (key : String) : String :=
  match vm.items.find? fun item => item.1 == some key with
  | some item => item.2.getD ""
  | none => ""

/-- `exchange_of`: the bucket and the output key of `gs://bucket/key`. -/
def exchangeOf (vm : Vm) : String × String :=
  let uri := (vm.metaOf "output-uri").toList
  if "gs://".toList.isPrefixOf uri then
    let rest := uri.drop 5
    (String.ofList (rest.takeWhile (· ≠ '/')), String.ofList ((rest.dropWhile (· ≠ '/')).drop 1))
  else ("", "")

/-- `reference_of`. -/
def referenceOf (vm : Vm) (project : String) : String :=
  s!"gce:projects/{project}/zones/{vm.zone}/instances/{vm.name}"

/-- `age_s`. -/
def ageS (vm : Vm) (now : ℚ) : ℚ :=
  match vm.creationTimestamp with
  | some created => now - created
  | none => 0

end Vm

/-- `key.rsplit("/", 1)[0]`. -/
def folder (key : String) : String :=
  match key.toList.reverse.dropWhile (· ≠ '/') with
  | [] => key
  | _ :: rest => String.ofList rest.reverse

/-- `result_key_beside`. -/
def resultKeyBeside (key : String) : String := folder key ++ "/result.json"

/-- `progress_key_beside`. -/
def progressKeyBeside (key : String) : String := folder key ++ "/progress.json"

/-- `decide`: why a machine is to be deleted, or nothing. A question that raises ends the decision. -/
def Vm.decide (vm : Vm) (now : ℚ) (project bucket : String)
    (resultWritten : String → String → Except String Bool)
    (owner : String → Except String (Option Bool))
    (beaconAge : String → String → Except String (Option ℚ)) : Except String String := do
  let (vmBucket, outKey) := vm.exchangeOf
  if vmBucket = "" ∨ vmBucket ≠ bucket then return ""
  let status := vm.status.getD ""
  if status ∈ stopped then return s!"it has stopped ({status}): its container is done"
  let heard ← if outKey = "" then pure none else beaconAge vmBucket (progressKeyBeside outKey)
  if ∃ age ∈ heard, age ≤ workingS then return ""
  let written ← if outKey = "" then pure false else resultWritten vmBucket (resultKeyBeside outKey)
  if written then return "its result is written in the exchange"
  if ownerGraceS ≤ vm.ageS now then
    match ← owner (vm.referenceOf project) with
    | some false => return "the job that started it has ended"
    | none => return "no job's claim names it"
    | some true => return ""
  return ""

/-! ## The production questions -/

/-- What is outside when a machine's turn comes: the clock, when each object of the exchange was last
written, whether the beacon can be read, whether a result can be asked for and is there, and the status
of the job whose claim names a reference. -/
structure World where
  clock : ℚ
  updated : String → String → Option ℚ
  beaconRead : Except String Unit
  resultExists : String → String → Except String Bool
  ownerRow : String → Except String (Option JobStatus)
  deletes : Bool

namespace World

/-- `_beacon_age`: a beacon that cannot be read is none. -/
def beaconAge (w : World) (bucket key : String) : Option ℚ :=
  match w.beaconRead with
  | .error _ => none
  | .ok () => (w.updated bucket key).map fun updated => max 0 (w.clock - updated)

/-- `owner_live`. -/
def ownerLive (w : World) (reference : String) : Except String (Option Bool) :=
  (w.ownerRow reference).map fun row => row.map fun status => decide ¬ status.Terminal

end World

/-- One machine with what is outside when its turn comes. -/
structure Turn where
  vm : Vm
  world : World

/-- `decide`, with the production questions. -/
def Turn.why (t : Turn) (now : ℚ) (project bucket : String) : Except String String :=
  t.vm.decide now project bucket t.world.resultExists t.world.ownerLive
    fun bucket key => .ok (t.world.beaconAge bucket key)

/-! ## The sweep -/

/-- What a sweep gives back, and the turns in which it called for a machine to be deleted. -/
structure Swept where
  seen : ℕ
  deleted : List (String × String)
  kept : ℕ
  calls : List Turn

/-- Why a machine is deleted: what cannot be judged is kept. -/
def Turn.reason (t : Turn) (now : ℚ) (project bucket : String) : String :=
  match t.why now project bucket with
  | .ok why => why
  | .error _ => ""

/-- One machine of a sweep. -/
def step (now : ℚ) (project bucket : String) (out : Swept) (t : Turn) : Swept :=
  let out := { out with seen := out.seen + 1 }
  let why := t.reason now project bucket
  if why = "" then { out with kept := out.kept + 1 }
  else
    { out with
      calls := out.calls ++ [t]
      deleted := if t.world.deletes then out.deleted ++ [(t.vm.name, why)] else out.deleted }

/-- `sweep`: machines that cannot be listed are not swept. -/
def sweep (now : ℚ) (project bucket : String) (listed : Except String (List Turn)) : Swept :=
  match listed with
  | .error _ => ⟨0, [], 0, []⟩
  | .ok turns => turns.foldl (step now project bucket) ⟨0, [], 0, []⟩

end MeshPipeline.VmSweep
