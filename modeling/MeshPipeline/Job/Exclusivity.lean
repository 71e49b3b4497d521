import MeshPipeline.Job.RowStep
import MeshPipeline.Library.Tenure

/-!
# Lease exclusivity

The lease columns implement an office held by at most one ownership at a time: a granted claim
appoints, every other step keeps the holder or withdraws it. What was lost is therefore lost for
good, which is what every fence check of a superseded worker relies on.
-/

namespace MeshPipeline

open LeaseRepository JobRepository

/-- A row step brings no holder in: it keeps the token or clears it. -/
theorem RowStep.holder {cfg : Settings} {now : Int} {op : JobOp} {row row' : SimulationJob}
    {ended : Bool} (h : RowStep cfg now op row ended row') :
    (row'.activeWorkerToken = row.activeWorkerToken ∨ row'.activeWorkerToken = none) ∧
      row'.executionGeneration = row.executionGeneration ∧
      row'.executionClaimEpoch = row.executionClaimEpoch := by
  cases h with
  | bookkeeping lease => exact ⟨.inl lease.activeWorkerToken, lease.1, lease.2⟩
  | extended target | beaten target =>
    obtain ⟨deadline, updatedAt, hextended, -⟩ := extendDeadline_eq row target now
    rw [hextended]
    exact ⟨.inl rfl, rfl, rfl⟩
  | withdrawn | handedBack => exact ⟨.inr rfl, rfl, rfl⟩
  | confirmed | requeued => exact ⟨.inl rfl, rfl, rfl⟩
  | rerun => unfold Cleanup.rerunWrite; grind
  | moved _ _ _ _ lease => exact ⟨.inl lease.activeWorkerToken, lease.1, lease.2⟩
  | cancelled =>
    simp only [JobCancel.cancelledRow, evictOwner_row, JobRepository.timestampsFor]
    split
    · exact ⟨.inl rfl, rfl, rfl⟩
    · exact ⟨.inr rfl, rfl, rfl⟩
  | reviewRerun started ended =>
    obtain ⟨startedAt, hreset⟩ :=
      reviewRerunReset_eq (timestampsFor row .pending now) started ended now
    rw [hreset]
    exact ⟨.inr rfl, rfl, rfl⟩

theorem Granted.holder {cfg : Settings} {w w' : JobWorld} {own : ExecutionOwnership}
    (h : Granted cfg w w' own) :
    w'.row.activeWorkerToken = some own.workerToken ∧
      w'.row.executionGeneration = own.executionGeneration ∧
      w'.row.executionClaimEpoch = w.row.executionClaimEpoch + 1 := by
  obtain ⟨execution, hrow⟩ := h.row
  rw [hrow]
  exact ⟨rfl, rfl, rfl⟩

namespace JobWorld

variable {cfg : Config} {w w' : JobWorld} {op : JobOp} {ops : List JobOp}
  {own : ExecutionOwnership}

/-- The office that the lease columns implement. -/
def office (w : JobWorld) : Tenure.Office (Nat × Token) where
  holder := w.row.activeWorkerToken.map (w.row.executionGeneration, ·)
  granted := { key | ∃ own ∈ w.granted, own.key = key }

theorem names_iff_holder : names w.row own ↔ w.office.holder = some own.key := by
  cases h : w.row.activeWorkerToken <;> simp [names, office, h, ExecutionOwnership.key]

theorem lost_iff (hmem : own ∈ w.granted) : w.office.Lost own.key ↔ names w.row own = false := by
  rw [← Bool.not_eq_true, names_iff_holder]
  exact ⟨fun h => h.2, fun h => ⟨⟨own, hmem, rfl⟩, h⟩⟩

/-- Each step of the world is a step of the office. -/
theorem step_office (hsel : w.SelectionsSound cfg.settings) (h : step cfg w op = some w') :
    Tenure.Step w.office w'.office := by
  obtain ⟨own, hg⟩ | ⟨hgranted, _, -, hrow⟩ := step_cases hsel h
  · obtain ⟨htoken, hgen, -⟩ := hg.holder
    have hfresh : own.key ∉ w.office.granted := by
      rintro ⟨own', hmem, hkey⟩
      have hne := List.all_eq_true.mp hg.fresh own' hmem
      simp [ExecutionOwnership.key] at hkey
      simp [hkey.2] at hne
    have hoffice : w'.office = ⟨some own.key, insert own.key w.office.granted⟩ := by
      simp [office, htoken, hgen, hg.granted, ExecutionOwnership.key, Set.ext_iff, eq_comm]
    exact hoffice ▸ .grant w.office own.key hfresh
  · obtain ⟨htoken | htoken, hgen, -⟩ := hrow.holder
    · have hoffice : w'.office = w.office := by simp [office, htoken, hgen, hgranted]
      exact hoffice ▸ .keep w.office
    · have hoffice : w'.office = { w.office with holder := none } := by
        simp [office, htoken, hgranted]
      exact hoffice ▸ .withdraw w.office

/-- Along a run an ownership that is not the holder's never becomes it again. -/
theorem lost_exec (hsel : w.SelectionsSound cfg.settings) (hmem : own ∈ w.granted)
    (hlost : names w.row own = false) (h : (machine cfg).exec w ops = some w') :
    names w'.row own = false := by
  have hpath : Relation.ReflTransGen Tenure.Step w.office w'.office :=
    Transition.Machine.exec_refines office (P := fun _ _ => True)
      (fun _ _ _ hI _ hs => selectionsSound_step hI hs) (fun _ _ _ hI _ hs => step_office hI hs)
      hsel (Transition.Machine.meets_of_forall fun _ _ => trivial) h
  have hlost' := Tenure.lost_of_path hpath ((lost_iff hmem).mpr hlost)
  rw [← Bool.not_eq_true, names_iff_holder]
  exact hlost'.2

/-- The steps that end an ownership: another claim, an eviction, its release, its hand-back. -/
inductive Dismisses (w : JobWorld) (own : ExecutionOwnership) : JobOp → JobWorld → Prop
  | superseded {op : JobOp} {w' : JobWorld} (other : ExecutionOwnership)
      (granted : w'.granted = other :: w.granted) : Dismisses w own op w'
  | evicted {w' : JobWorld} : Dismisses w own .evictOwner w'
  | released {w' : JobWorld} (live : ¬ w.row.status.Terminal) : Dismisses w own (.release own) w'
  | handedBack {w' : JobWorld} (running : w.row.status = .running) :
      Dismisses w own (.handBack own) w'

theorem not_names_of_dismisses (hsel : w.SelectionsSound cfg.settings) (hmem : own ∈ w.granted)
    (h : step cfg w op = some w') (hd : Dismisses w own op w') : names w'.row own = false := by
  cases hd with
  | superseded other hgranted =>
    obtain ⟨own', hg⟩ | ⟨hsame, -⟩ := step_cases hsel h
    · have hne := List.all_eq_true.mp hg.fresh own hmem
      have htoken : own'.workerToken ≠ own.workerToken := by
        rintro heq
        simp [heq] at hne
      simp [names, hg.holder.1, htoken]
    · simp [hgranted] at hsame
  | evicted => cases h; exact not_names_of_token evictOwner_token
  | released live => cases h; exact release_not_names live
  | handedBack running => cases h; exact handBack_not_names running

/-- What holds of the lease in a state, of each step from it and of every run from it. -/
structure Exclusive (cfg : Config) (w : JobWorld) : Prop where
  unique : ∀ a b, isCurrentOwner (some w.row) a → isCurrentOwner (some w.row) b → a.key = b.key
  generation : ∀ op w', step cfg w op = some w' →
    w.row.executionGeneration ≤ w'.row.executionGeneration
  epoch : ∀ op w', step cfg w op = some w' →
    (w'.granted = w.granted ∧ w'.row.executionClaimEpoch = w.row.executionClaimEpoch) ∨
      ∃ own, w'.granted = own :: w.granted ∧
        w'.row.executionClaimEpoch = w.row.executionClaimEpoch + 1
  free : ∀ op w' own, step cfg w op = some w' → w'.granted = own :: w.granted →
    ∀ token expires, w.row.activeWorkerToken = some token → token ≠ own.workerToken →
      w.row.leaseExpiresAt = some expires → expires ≤ w.clock
  dismissed : ∀ op w', step cfg w op = some w' → ∀ own ∈ w.granted, Dismisses w own op w' →
    names w'.row own = false
  final : ∀ own ∈ w.granted, names w.row own = false →
    ∀ ops w', (machine cfg).exec w ops = some w' →
      isCurrentOwner (some w'.row) own = false ∧ lockCurrentOwner (some w'.row) own = none ∧
        ∀ target now leaseFor, (heartbeat (some w'.row) own target now leaseFor).1 = false

theorem exclusive_of_selectionsSound (hsel : w.SelectionsSound cfg.settings) : Exclusive cfg w where
  unique a b ha hb := by
    simp only [isCurrentOwner, Bool.and_eq_true] at ha hb
    exact Tenure.Office.holder_unique (names_iff_holder.mp ha.2) (names_iff_holder.mp hb.2)
  generation op w' h := by
    obtain ⟨own, hg⟩ | ⟨-, _, -, hrow⟩ := step_cases hsel h
    · exact hg.holder.2.1 ▸ hg.generation
    · exact hrow.holder.2.1.ge
  epoch op w' h := by
    obtain ⟨own, hg⟩ | ⟨hgranted, _, -, hrow⟩ := step_cases hsel h
    · exact .inr ⟨own, hg.granted, hg.holder.2.2⟩
    · exact .inl ⟨hgranted, hrow.holder.2.2⟩
  free op w' own h hgranted token expires htoken hne hexpires := by
    obtain ⟨own', hg⟩ | ⟨hsame, -⟩ := step_cases hsel h
    · obtain rfl : own' = own := (List.cons.inj (hg.granted.symm.trans hgranted)).1
      obtain hfree | hsame := hg.free
      · simpa [leaseActive, htoken, hexpires] using hfree
      · exact absurd (Option.some.inj (htoken.symm.trans hsame)) hne
    · simp [hgranted] at hsame
  dismissed op w' h own hmem hd := not_names_of_dismisses hsel hmem h hd
  final own hmem hlost ops w' h := refused_of_not_names (lost_exec hsel hmem hlost h)

/-- In every state that any interleaving of the job's writers reaches, the lease is exclusive. -/
theorem lease_exclusive (cfg : Config) (id : JobId) (ownerId : String)
    (organizationId : Option Nat) (now : Int) (ops : List JobOp)
    (h : (machine cfg).exec (created id ownerId organizationId now) ops = some w) :
    Exclusive cfg w :=
  exclusive_of_selectionsSound <|
    Transition.Machine.exec_invariant_of_step (fun _ _ _ hI hs => selectionsSound_step hI hs)
      (selectionsSound_created id ownerId organizationId now) h

/-- A worker's lease runs out and another takes the job over. -/
def takeover : List JobOp :=
  [.claimExecution 1 "celery" (some "vm-1") true, .tick 900000000,
    .claimExecution 2 "celery" (some "vm-2") true]

theorem lease_exclusive_takeover :
    ∃ w, (machine .default).exec (created 7 "ada" none 0) takeover = some w ∧
      w.granted.length = 2 ∧ Exclusive .default w :=
  ⟨_, rfl, rfl, lease_exclusive .default 7 "ada" none 0 takeover rfl⟩

end JobWorld

end MeshPipeline
