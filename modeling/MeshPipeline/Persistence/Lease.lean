import MeshPipeline.EventStream.Fence
import MeshPipeline.Persistence.JobRepository

/-!
# Exclusive execution ownership

The row-locked operations of `LeaseRepository`, on the row each finds under its lock (`none` when
there is no such job). An operation answers its result and the row it leaves; the mirror writes it
makes before its commit are returned as the fingerprint to revoke.
-/

namespace MeshPipeline

inductive ClaimResult
  | acquiredNewGeneration | resumedSameGeneration | activeLeaseConflict | alreadyTerminal
  | invalidJobState | notFound
  deriving DecidableEq, Repr

/-- The exceptions of a claim: the transaction is rolled back. -/
inductive ClaimError
  | fenceUnavailable
  deriving DecidableEq, Repr

/-- A claim's answer, the row it leaves and the outgoing fence it revoked under the lock. -/
structure ClaimOutcome where
  result : ClaimResult
  ownership : Option ExecutionOwnership
  row : Option SimulationJob
  revoked : Option Fingerprint

namespace LeaseRepository

/-- A row whose holder is gone; its lease column marks when. -/
def withdrawn (row : SimulationJob) (now : Int) : SimulationJob :=
  { row with activeWorkerToken := none, leaseExpiresAt := some now, updatedAt := now }

/-- A token holds the row and its lease has not run out. -/
def leaseActive (row : SimulationJob) (now : Int) : Bool :=
  row.activeWorkerToken.isSome && row.leaseExpiresAt.any (now < ·)

/-- `fence_ttl_seconds`: what is left of the lease, in whole seconds and at least one. -/
def fenceTtlSeconds (row : SimulationJob) (now : Int) : Nat :=
  match row.leaseExpiresAt with
  | none => 1
  | some expires => (max 1 ((expires - now).tdiv (seconds 1))).toNat

/-- The claimant names the execution identity the row already carries. -/
def sameExecution (row : SimulationJob) (backendExecutionId : Option String) : Bool :=
  truthyText backendExecutionId && truthyText row.pipelineExecutionId &&
    backendExecutionId == row.pipelineExecutionId && 0 < row.executionGeneration

def reentrant (row : SimulationJob) (workerToken : Token) (now : Int) : Bool :=
  leaseActive row now && row.activeWorkerToken == some workerToken

/-- The columns a granted claim writes. -/
def claimed (row : SimulationJob) (generation : Nat) (workerToken : Token) (backend : String)
    (backendExecutionId : Option String) (now leaseFor pipelineTotal : Int) : SimulationJob :=
  { row with
    status := .running
    executionGeneration := generation
    executionClaimEpoch := row.executionClaimEpoch + 1
    activeWorkerToken := some workerToken
    owningBackend := some backend
    pipelineExecutionId :=
      if truthyText backendExecutionId then backendExecutionId else row.pipelineExecutionId
    leaseAcquiredAt := some now
    leaseHeartbeatAt := some now
    leaseExpiresAt := some (now + leaseFor)
    startedAt := some (row.startedAt.getD now)
    pipelineDeadlineAt := some (row.pipelineDeadlineAt.getD (now + pipelineTotal))
    updatedAt := now }

/-- The ownership read back from a claimed row. -/
def ownershipOf (row : SimulationJob) (workerToken : Token) (backend : String) (now : Int) :
    ExecutionOwnership where
  executionGeneration := row.executionGeneration
  workerToken := workerToken
  backend := backend
  pipelineDeadlineAt := row.pipelineDeadlineAt
  claimEpoch := row.executionClaimEpoch
  fenceTtlSeconds := fenceTtlSeconds row now

/-- The fingerprint of the execution that holds the row. -/
def holderFingerprint (row : SimulationJob) : Option Fingerprint :=
  row.activeWorkerToken.map fun token => ⟨row.executionGeneration, token⟩

/-- `claim_execution`. `fenceAvailable` says whether Redis answers the revoke. -/
def claimExecution (row? : Option SimulationJob) (workerToken : Token) (backend : String)
    (backendExecutionId : Option String) (fenceAvailable : Bool)
    (now leaseFor pipelineTotal : Int) : Except ClaimError ClaimOutcome :=
  match row? with
  | none => .ok ⟨.notFound, none, none, none⟩
  | some row =>
    if row.status.Terminal then .ok ⟨.alreadyTerminal, none, some row, none⟩
    else if row.status ≠ .pending ∧ row.status ≠ .running then
      .ok ⟨.invalidJobState, none, some row, none⟩
    else if leaseActive row now ∧ row.activeWorkerToken ≠ some workerToken then
      .ok ⟨.activeLeaseConflict, none, some row, none⟩
    else if reentrant row workerToken now || sameExecution row backendExecutionId then
      -- a resumed claim keeps its generation and revokes nothing
      let generation := if row.executionGeneration = 0 then 1 else row.executionGeneration
      let row' := claimed row generation workerToken backend backendExecutionId now leaseFor
        pipelineTotal
      .ok ⟨.resumedSameGeneration, some (ownershipOf row' workerToken backend now), some row',
        none⟩
    else if row.activeWorkerToken.isSome && !fenceAvailable then .error .fenceUnavailable
    else
      let row' := claimed row (row.executionGeneration + 1) workerToken backend backendExecutionId
        now leaseFor pipelineTotal
      .ok ⟨.acquiredNewGeneration, some (ownershipOf row' workerToken backend now), some row',
        holderFingerprint row⟩

/-- The row names this generation and this token. -/
def names (row : SimulationJob) (own : ExecutionOwnership) : Bool :=
  row.executionGeneration == own.executionGeneration &&
    row.activeWorkerToken == some own.workerToken

/-- Progress moves the deadline on, and only forward. -/
def extendDeadline (row : SimulationJob) (extendDeadlineTo : Option Int) (now : Int) :
    SimulationJob :=
  match extendDeadlineTo, row.pipelineDeadlineAt with
  | some target, some deadline =>
    if deadline < target then
      { row with pipelineDeadlineAt := some target, updatedAt := now }
    else row
  | _, _ => row

/-- The columns a verified beat writes. -/
def beaten (row : SimulationJob) (now leaseFor : Int) : SimulationJob :=
  { row with
    leaseHeartbeatAt := some now
    leaseExpiresAt := some (now + leaseFor)
    updatedAt := now }

/-- `heartbeat`, up to its mirror writes. A deadline moved on by progress stays moved on, also
when the beat is then refused. -/
def heartbeat (row? : Option SimulationJob) (own : ExecutionOwnership)
    (extendDeadlineTo : Option Int) (now leaseFor : Int) : Bool × Option SimulationJob :=
  match row? with
  | none => (false, none)
  | some row =>
    if row.status.Terminal then (false, some row)
    else if !names row own then (false, some row)
    else
      let row := extendDeadline row extendDeadlineTo now
      if row.pipelineDeadlineAt.any (· < now) then (false, some row)
      else (true, some (beaten row now leaseFor))

/-- `is_current_owner`. -/
def isCurrentOwner (row? : Option SimulationJob) (own : ExecutionOwnership) : Bool :=
  match row? with
  | none => false
  | some row => !decide row.status.Terminal && names row own

/-- `lock_current_owner`: the locked row, when it names this ownership. -/
def lockCurrentOwner (row? : Option SimulationJob) (own : ExecutionOwnership) :
    Option SimulationJob :=
  row?.filter (names · own)

/-- `evict_owner`: the holder's fence is revoked and its token cleared, with no successor. -/
def evictOwner (row? : Option SimulationJob) (now : Int) : Bool × Option SimulationJob :=
  match row? with
  | none => (false, none)
  | some row =>
    if row.activeWorkerToken.isNone then (false, some row)
    else (true, some (withdrawn row now))

/-- `release`. -/
def release (row? : Option SimulationJob) (own : ExecutionOwnership) (now : Int) :
    Option SimulationJob :=
  match row? with
  | none => none
  | some row =>
    if row.status.Terminal then some row
    else if names row own then some (withdrawn row now)
    else some row

/-- The compare-and-set of `hand_back`, after its revoke. -/
def handBack (row? : Option SimulationJob) (own : ExecutionOwnership) (now : Int) :
    Bool × Option SimulationJob :=
  match row? with
  | none => (false, none)
  | some row =>
    if row.status = .running ∧ names row own then
      (true, some { withdrawn row now with status := .pending })
    else (false, some row)

/-- `confirm_requeued`: only the job exactly as that release left it. -/
def confirmRequeued (row? : Option SimulationJob) (releasedAt now : Int) :
    Bool × Option SimulationJob :=
  match row? with
  | none => (false, none)
  | some row =>
    if row.status = .pending ∧ row.activeWorkerToken = none ∧
        row.leaseExpiresAt = some releasedAt then
      (true, some { row with leaseExpiresAt := none, updatedAt := now })
    else (false, some row)

variable {row : SimulationJob} {own : ExecutionOwnership} {now : Int}

/-- Moving the deadline on touches nothing else, and leaves a deadline where there was one. -/
theorem extendDeadline_eq (row : SimulationJob) (target : Option Int) (now : Int) :
    ∃ deadline updatedAt, extendDeadline row target now =
        { row with pipelineDeadlineAt := deadline, updatedAt := updatedAt } ∧
      (row.pipelineDeadlineAt.isSome → deadline.isSome) := by
  unfold extendDeadline
  split
  · split
    · exact ⟨_, _, rfl, fun _ => rfl⟩
    · exact ⟨_, _, rfl, id⟩
  · exact ⟨_, _, rfl, id⟩

@[simp]
theorem withdrawn_token : (withdrawn row now).activeWorkerToken = none := rfl

theorem names_iff : names row own = true ↔
    row.executionGeneration = own.executionGeneration ∧
      row.activeWorkerToken = some own.workerToken := by
  simp [names]

theorem token_of_names (h : names row own = true) :
    row.activeWorkerToken = some own.workerToken := (names_iff.mp h).2

theorem not_names_of_token (h : row.activeWorkerToken = none) : names row own = false := by
  simp [names, h]

/-- What every fence check answers an ownership that the row does not name. -/
theorem refused_of_not_names (h : names row own = false) :
    isCurrentOwner (some row) own = false ∧ lockCurrentOwner (some row) own = none ∧
      ∀ target now leaseFor, (heartbeat (some row) own target now leaseFor).1 = false := by
  refine ⟨by simp [isCurrentOwner, h], by simp [lockCurrentOwner, h], fun target now leaseFor => ?_⟩
  simp only [heartbeat, h, Bool.not_false, if_true]
  split <;> rfl

@[simp]
theorem evictOwner_row : (evictOwner (some row) now).2.getD row =
    if row.activeWorkerToken.isNone then row else withdrawn row now := by
  cases h : row.activeWorkerToken <;> simp [evictOwner, h]

/-- Nobody holds a row after an eviction. -/
theorem evictOwner_token :
    ((evictOwner (some row) now).2.getD row).activeWorkerToken = none := by
  rw [evictOwner_row]
  split
  · rename_i h
    exact Option.isNone_iff_eq_none.mp h
  · rfl

theorem release_not_names (live : ¬ row.status.Terminal) :
    names ((release (some row) own now).getD row) own = false := by
  by_cases hn : names row own = true
  · simp only [release, live, hn, if_true, if_false, Option.getD_some]
    exact not_names_of_token rfl
  · simp [release, hn]

theorem handBack_not_names (running : row.status = .running) :
    names ((handBack (some row) own now).2.getD row) own = false := by
  by_cases hn : names row own = true
  · simp only [handBack, running, hn, and_self, if_true, Option.getD_some]
    exact not_names_of_token rfl
  · simp [handBack, hn]

/-- What a granted claim was granted on, and what it leaves. -/
theorem granted_of_claimExecution {row : SimulationJob} {token : Token} {backend : String}
    {execution : Option String} {fenceAvailable : Bool} {now leaseFor total : Int}
    {result : ClaimResult} {own : ExecutionOwnership} {row' : SimulationJob}
    {revoked : Option Fingerprint}
    (h : claimExecution (some row) token backend execution fenceAvailable now leaseFor total =
      .ok ⟨result, some own, some row', revoked⟩) :
    (row.status = .pending ∨ row.status = .running) ∧
    (leaseActive row now = false ∨ row.activeWorkerToken = some token) ∧
    row.executionGeneration ≤ own.executionGeneration ∧ own.workerToken = token ∧
    own.backend = backend ∧
    row' = claimed row own.executionGeneration token backend execution now leaseFor total ∧
    own.fenceTtlSeconds = fenceTtlSeconds row' now := by
  unfold claimExecution at h
  dsimp only at h
  split at h
  · simp at h
  · split at h
    · simp at h
    · rename_i hs
      split at h
      · simp at h
      · rename_i hc
        have hstatus : row.status = .pending ∨ row.status = .running := by grind
        have hfree : leaseActive row now = false ∨ row.activeWorkerToken = some token := by grind
        split at h
        · simp only [Except.ok.injEq, ClaimOutcome.mk.injEq, Option.some.injEq] at h
          obtain ⟨-, rfl, rfl, -⟩ := h
          refine ⟨hstatus, hfree, ?_, rfl, rfl, rfl, rfl⟩
          simp only [ownershipOf, claimed]
          split <;> omega
        · split at h
          · simp at h
          · simp only [Except.ok.injEq, ClaimOutcome.mk.injEq, Option.some.injEq] at h
            obtain ⟨-, rfl, rfl, -⟩ := h
            exact ⟨hstatus, hfree, by simp [ownershipOf, claimed], rfl, rfl, rfl, rfl⟩

/-- A lease just written lives for the whole seconds it was written with. -/
theorem fenceTtlSeconds_of_lease {cfg : Settings}
    (h : row.leaseExpiresAt = some (now + cfg.lease)) :
    fenceTtlSeconds row now = cfg.workerLeaseSeconds := by
  have hpos := cfg.workerLeaseSeconds_pos
  have hdiff : now + cfg.lease - now = (cfg.workerLeaseSeconds : Int) * 1000000 := by
    simp only [Settings.lease, seconds]
    omega
  have hdiv : (now + cfg.lease - now).tdiv (seconds 1) = cfg.workerLeaseSeconds := by
    rw [hdiff, seconds, Int.one_mul]
    exact Int.mul_tdiv_cancel _ (by decide)
  simp only [fenceTtlSeconds, h, hdiv]
  omega

/-- A beat renews the lease of the row it verified, or leaves the lease alone. -/
theorem lease_of_heartbeat (row : SimulationJob) (own : ExecutionOwnership) (target : Option Int)
    (now leaseFor : Int) :
    ((heartbeat (some row) own target now leaseFor).2.getD row).leaseExpiresAt =
      if (heartbeat (some row) own target now leaseFor).1 then some (now + leaseFor)
      else row.leaseExpiresAt := by
  obtain ⟨deadline, updatedAt, hextended, -⟩ := extendDeadline_eq row target now
  simp only [heartbeat, hextended]
  split
  · rfl
  · split
    · rfl
    · split <;> rfl

/-! ## No operation but a claim brings a holder in -/

variable {other : ExecutionOwnership}

theorem names_of_heartbeat {target : Option Int} {leaseFor : Int}
    (h : names ((heartbeat (some row) other target now leaseFor).2.getD row) own) :
    names row own := by
  obtain ⟨deadline, updatedAt, hextended, -⟩ := extendDeadline_eq row target now
  simp only [heartbeat, hextended] at h
  split at h
  · exact h
  · split at h
    · exact h
    · split at h <;> exact h

theorem names_of_evictOwner (h : names ((evictOwner (some row) now).2.getD row) own) :
    names row own := by
  rw [not_names_of_token evictOwner_token] at h
  cases h

theorem names_of_release (h : names ((release (some row) other now).getD row) own) :
    names row own := by
  simp only [release] at h
  split at h
  · exact h
  · split at h
    · rw [Option.getD_some, not_names_of_token withdrawn_token] at h
      cases h
    · exact h

theorem names_of_handBack (h : names ((handBack (some row) other now).2.getD row) own) :
    names row own := by
  simp only [handBack] at h
  split at h
  · rw [Option.getD_some, not_names_of_token rfl] at h
    cases h
  · exact h

/-- A verified beat names its row. -/
theorem names_of_heartbeat_true {target : Option Int} {leaseFor : Int}
    (h : (heartbeat (some row) own target now leaseFor).1 = true) : names row own := by
  cases hn : names row own with
  | true => rfl
  | false => rw [(refused_of_not_names hn).2.2] at h; cases h

/-! ## A refused beat -/

/-- The columns a beat may write, read back as they were. -/
structure BeatColumnsKept (row row' : SimulationJob) : Prop where
  token : row'.activeWorkerToken = row.activeWorkerToken
  generation : row'.executionGeneration = row.executionGeneration
  lease : row'.leaseExpiresAt = row.leaseExpiresAt
  beat : row'.leaseHeartbeatAt = row.leaseHeartbeatAt
  deadline : row'.pipelineDeadlineAt = row.pipelineDeadlineAt

/-- A beat of the row's own live holder that brings a later deadline which is itself past. -/
def BringsPastDeadline (row : SimulationJob) (own : ExecutionOwnership)
    (extendDeadlineTo : Option Int) (now : Int) : Prop :=
  ¬ row.status.Terminal ∧ names row own ∧
    ∃ deadline ∈ row.pipelineDeadlineAt, ∃ target ∈ extendDeadlineTo,
      deadline < target ∧ target < now

theorem BeatColumnsKept.rfl : BeatColumnsKept row row := ⟨Eq.refl _, Eq.refl _, Eq.refl _,
  Eq.refl _, Eq.refl _⟩

/-- Moving the deadline on is all that happens before the last refusal. -/
theorem beatColumnsKept_extendDeadline {target : Option Int}
    (h : (extendDeadline row target now).pipelineDeadlineAt = row.pipelineDeadlineAt) :
    BeatColumnsKept row (extendDeadline row target now) := by
  obtain ⟨deadline, updatedAt, hextended, -⟩ := extendDeadline_eq row target now
  rw [hextended] at h ⊢
  exact ⟨Eq.refl _, Eq.refl _, Eq.refl _, Eq.refl _, h⟩

/-- The deadline is written, and the beat then refused, exactly on a target that is later and
past. -/
theorem extendDeadline_past_iff {target : Option Int} :
    ((extendDeadline row target now).pipelineDeadlineAt.any (· < now) = true ∧
      (extendDeadline row target now).pipelineDeadlineAt ≠ row.pipelineDeadlineAt) ↔
    ∃ deadline ∈ row.pipelineDeadlineAt, ∃ t ∈ target, deadline < t ∧ t < now := by
  unfold extendDeadline
  cases target with
  | none => simp
  | some t =>
    cases hd : row.pipelineDeadlineAt with
    | none => simp [hd]
    | some deadline =>
      by_cases hlt : deadline < t
      · simp only [hlt, if_true, Option.any_some, decide_eq_true_eq, ne_eq, Option.some.injEq,
          Option.mem_def, exists_eq_left', true_and]
        omega
      · simp [hlt, hd]

/-- A refused beat leaves the row's lease, heartbeat, generation and deadline as they were, except
where it brought the row's own holder a deadline already past. -/
theorem refused_beat_kept_iff (row : SimulationJob) (own : ExecutionOwnership)
    (extendDeadlineTo : Option Int) (now leaseFor : Int) :
    ((heartbeat (some row) own extendDeadlineTo now leaseFor).1 = false →
      ∃ row', (heartbeat (some row) own extendDeadlineTo now leaseFor).2 = some row' ∧
        BeatColumnsKept row row') ↔
    ¬ BringsPastDeadline row own extendDeadlineTo now := by
  unfold BringsPastDeadline
  rw [← extendDeadline_past_iff]
  simp only [heartbeat]
  split
  case isTrue ended => simp [ended, BeatColumnsKept.rfl]
  case isFalse live =>
    cases held : names row own with
    | false => simp [BeatColumnsKept.rfl]
    | true =>
      simp only [Bool.not_true, Bool.false_eq_true, if_false, live, not_false_eq_true, true_and]
      split
      case isFalse fresh => simp [fresh]
      case isTrue past =>
        simp only [past, true_and, ne_eq, not_not, forall_const, Option.some.injEq,
          exists_eq_left']
        exact ⟨fun kept => kept.deadline, beatColumnsKept_extendDeadline⟩

/-- A job claimed at zero for ten seconds: a beat at thirty, of a progress that ends at twenty, is
refused and leaves twenty as its deadline. -/
theorem refused_beat_moves_deadline :
    let row := claimed (JobRepository.create 1 "ada" none 0) 1 7 "ray" none 0 (seconds 60)
      (seconds 10)
    let beat := heartbeat (some row) (ownershipOf row 7 "ray" 0) (some (seconds 20)) (seconds 30)
      (seconds 60)
    beat.1 = false ∧ row.pipelineDeadlineAt = some (seconds 10) ∧
      beat.2.map (·.pipelineDeadlineAt) = some (some (seconds 20)) := by
  decide

end LeaseRepository

end MeshPipeline
