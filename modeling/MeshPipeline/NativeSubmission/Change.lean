import MeshPipeline.Job.World
import MeshPipeline.Persistence.NativeSubmissionRepository

/-!
# Workers submitting native runs

`ClaimingMeshExecutor.run`, cut at every statement and every provider call. A call that takes no
further step is a crash there. The job's own row is moved by its own machine, between any two steps.
-/

namespace MeshPipeline.NativeSubmission

open NativeSubmissionRepository

/-- How the provider's `run` came back. -/
inductive ProviderAnswer
  | result (reference : String)
  | indeterminate (failureClass : String)
  | failed (failureClass : String)
  deriving DecidableEq, Repr

/-- What `remote_state` answers about an earlier run; a probe that raises answers nothing. -/
inductive RemoteState
  | result | running | absent
  deriving DecidableEq, Repr

/-- Where a call of `ClaimingMeshExecutor.run` stands. -/
inductive Phase
  | entered
  /-- The insert was refused. -/
  | refused
  /-- The worker is current, so the operation was claimed before. -/
  | current
  | acquired
  /-- Earlier runs that are still to be probed. -/
  | probing (keys : List OperationKey)
  /-- Collecting the run of an earlier generation. -/
  | adopting (key : OperationKey)
  | adopted (key : OperationKey) (reference : String)
  /-- Inside the provider's `run`. -/
  | launched
  | answered (answer : ProviderAnswer)
  /-- Collecting a run that was found accepted. -/
  | replaying (key : OperationKey)
  | returned
  deriving DecidableEq, Repr

structure Call where
  submission : Submission
  phase : Phase
  /-- The worker held the job when it made its claim. -/
  heldAtClaim : Bool
  deriving DecidableEq, Repr

def Call.operationKey (c : Call) : OperationKey := c.submission.operationKey

/-- An invocation of the provider's `run`. -/
structure Launch where
  operationKey : OperationKey
  heldAtClaim : Bool
  deriving DecidableEq, Repr

/-- A row that was marked accepted, and the run whose acceptance that is. -/
structure Acceptance where
  operationKey : OperationKey
  run : OperationKey
  byAdoption : Bool
  deriving DecidableEq, Repr

structure NativeWorld where
  job : JobWorld
  claims : List NativeSubmissionClaim
  calls : List Call
  launches : List Launch
  acceptances : List Acceptance

inductive NativeOp
  | job (op : JobOp)
  | enter (s : Submission)
  | claim (i : Nat)
  | checkCurrent (i : Nat)
  | lookup (i : Nat) (canCollect : Bool)
  /-- `earlier_runs`, when the executor can adopt and the lookup answers. -/
  | lookEarlier (i : Nat) (known : Bool)
  | probe (i : Nat) (state : Option RemoteState)
  /-- Collecting an earlier run: its reference, or an exception. -/
  | collectEarlier (i : Nat) (reference : Option String)
  | recordAdopted (i : Nat)
  | launch (i : Nat)
  | answer (i : Nat) (answer : ProviderAnswer)
  | record (i : Nat)
  | collectReplay (i : Nat)
  | reconcile (s : Submission) (reference : String)

/-- The call a step belongs to. -/
def NativeOp.call : NativeOp → Option Nat
  | .claim i | .checkCurrent i | .lookup i _ | .lookEarlier i _ | .probe i _ | .collectEarlier i _
  | .recordAdopted i | .launch i | .answer i _ | .record i | .collectReplay i => some i
  | .job _ | .enter _ | .reconcile _ _ => none

namespace NativeWorld

/-- The submission a step acts for. -/
def actor (w : NativeWorld) (op : NativeOp) : Option Submission :=
  match op with
  | .reconcile s _ => some s
  | op => op.call.bind fun i => (w.calls[i]?).map (·.submission)

def keys (w : NativeWorld) : List OperationKey := w.claims.map (·.operationKey)

def launchedKeys (w : NativeWorld) : List OperationKey := w.launches.map (·.operationKey)

/-- The call moves on. -/
def moved (w : NativeWorld) (i : Nat) (call : Call) (phase : Phase) : NativeWorld :=
  { w with calls := w.calls.set i { call with phase := phase } }

/-- A row was marked accepted, if the transition applied. -/
def accepted (w : NativeWorld) (marked : Except SubmissionError (List NativeSubmissionClaim))
    (acceptance : Acceptance) : NativeWorld :=
  match marked with
  | .ok claims =>
    { w with
      claims := claims
      acceptances := if claims = w.claims then w.acceptances else w.acceptances ++ [acceptance] }
  | .error _ => w

/-- `str(reference or "")`, or the name of the adopted run. -/
def adoptedReference (key : OperationKey) (reference : String) : String :=
  if reference = "" then "adopted:" ++ toString key.generation ++ ":" ++ key.operation
  else reference

def claim (w : NativeWorld) (i : Nat) (call : Call) : NativeWorld :=
  let call' := { call with heldAtClaim := isCurrent w.job.row call.submission.own }
  match insertClaim w.job.row w.claims call.submission with
  | some claims => { w with claims := claims }.moved i call' .acquired
  | none => w.moved i call' .refused

def lookedUp (w : NativeWorld) (s : Submission) (canCollect : Bool) : Phase :=
  if existing (NativeSubmissionRepository.lookup w.claims s.operationKey) s = .existingAccepted ∧
      canCollect then .replaying s.operationKey
  else .returned

/-- The provider's `run` is called. -/
def launch (w : NativeWorld) (call : Call) : NativeWorld :=
  { w with launches := w.launches ++ [⟨call.operationKey, call.heldAtClaim⟩] }

/-- What `run` records of the provider's answer. -/
def record (w : NativeWorld) (s : Submission) : ProviderAnswer → NativeWorld
  | .result reference =>
    if reference ≠ "" then
      w.accepted (markAccepted w.job.row w.claims s reference)
        ⟨s.operationKey, s.operationKey, false⟩
    else { w with claims := markIndeterminate w.job.row w.claims s "no_provider_reference" }
  | .indeterminate failureClass =>
    { w with claims := markIndeterminate w.job.row w.claims s failureClass }
  | .failed failureClass => { w with claims := markFailed w.job.row w.claims s failureClass }

/-- The step of a call that stands at a phase; `none` where the call cannot take it. -/
def callStep (w : NativeWorld) (i : Nat) (call : Call) (op : NativeOp) : Option NativeWorld :=
  match op, call.phase with
  | .claim _, .entered => some (w.claim i call)
  | .checkCurrent _, .refused =>
    some (w.moved i call (if isCurrent w.job.row call.submission.own then .current else .returned))
  | .lookup _ canCollect, .current => some (w.moved i call (w.lookedUp call.submission canCollect))
  | .lookEarlier _ known, .acquired =>
    some (w.moved i call (.probing (if known then earlierRuns w.claims call.submission else [])))
  | .probe _ state, .probing (key :: keys) =>
    if state = some .result ∨ state = some .running then
      -- the provider has a run only under a key that one was launched with
      if key ∈ w.launchedKeys then some (w.moved i call (.adopting key)) else none
    else some (w.moved i call (.probing keys))
  | .collectEarlier _ reference, .adopting key =>
    some (w.moved i call (reference.elim .returned fun r => .adopted key (adoptedReference key r)))
  | .recordAdopted _, .adopted key reference =>
    some ((w.accepted (markAccepted w.job.row w.claims call.submission reference)
      ⟨call.operationKey, key, true⟩).moved i call .returned)
  | .launch _, .probing [] => some ((w.launch call).moved i call .launched)
  | .answer _ answer, .launched => some (w.moved i call (.answered answer))
  | .record _, .answered answer =>
    some ((w.record call.submission answer).moved i call .returned)
  | .collectReplay _, .replaying _ => some (w.moved i call .returned)
  | _, _ => none

def step (cfg : Config) (w : NativeWorld) (op : NativeOp) : Option NativeWorld :=
  match op with
  | .job op => (JobWorld.step cfg w.job op).map fun job => { w with job := job }
  | .enter s =>
    if s.own ∈ w.job.granted then some { w with calls := w.calls ++ [⟨s, .entered, false⟩] }
    else none
  | .reconcile s reference =>
    some (w.accepted (reconcileAccepted w.job.row w.claims s reference)
      ⟨s.operationKey, s.operationKey, false⟩)
  | op => op.call.bind fun i => (w.calls[i]?).bind fun call => w.callStep i call op

/-- The machine whose runs are the interleavings of a job's workers, crashes and takeovers. -/
def machine (cfg : Config) : Transition.Machine NativeWorld NativeOp := ⟨step cfg⟩

def created (id : JobId) (ownerId : String) (organizationId : Option Nat) (now : Int) :
    NativeWorld where
  job := JobWorld.created id ownerId organizationId now
  claims := []
  calls := []
  launches := []
  acceptances := []

end NativeWorld

end MeshPipeline.NativeSubmission

/-!
## What one step can do to the submissions

Each step moves one call, and beside it inserts a claim, calls the provider or records an answer.
The invariants of the claims are proved over this list.
-/

namespace MeshPipeline.NativeSubmission

open NativeSubmissionRepository

/-- The phases from which a call may still call the provider. -/
def Phase.mayLaunch : Phase → Bool
  | .acquired | .probing _ => true
  | _ => false

namespace NativeWorld

/-- The moves of a call that touch neither the claims nor the provider. -/
inductive Advances (w : NativeWorld) (call : Call) : Phase → Prop
  | current : Advances w call .current
  | returned : Advances w call .returned
  | replaying (found : existing (NativeSubmissionRepository.lookup w.claims call.operationKey)
      call.submission = .existingAccepted) : Advances w call (.replaying call.operationKey)
  | probing (keys : List OperationKey) (may : call.phase.mayLaunch)
      (earlier : ∀ key ∈ keys, key ∈ earlierRuns w.claims call.submission ∨
        ∃ known, call.phase = .probing known ∧ key ∈ known) : Advances w call (.probing keys)
  | adopting (key : OperationKey) (keys : List OperationKey)
      (probed : call.phase = .probing (key :: keys)) (launched : key ∈ w.launchedKeys) :
      Advances w call (.adopting key)
  | adopted (key : OperationKey) (reference : String) (adopting : call.phase = .adopting key) :
      Advances w call (.adopted key reference)
  | answered (answer : ProviderAnswer) (launched : call.phase = .launched) :
      Advances w call (.answered answer)

/-- What a submission's holder may record, of a run and of whether it was adopted. -/
inductive Marks (w : NativeWorld) (s : Submission) (run : OperationKey) (byAdoption : Bool) :
    NativeWorld → Prop
  | accepted (source : Disposition) (sources : source = .claimed ∨ source = .indeterminate)
      (reference : String) (named : reference ≠ "") :
      Marks w s run byAdoption (w.accepted (.ok (transition w.job.row w.claims s .accepted [source]
        (some reference) none)) ⟨s.operationKey, run, byAdoption⟩)
  | unresolved (own : byAdoption = false) (target : Disposition)
      (targets : target = .indeterminate ∨ target = .failed) (failureClass : String) :
      Marks w s run byAdoption { w with
        claims := transition w.job.row w.claims s target [.claimed] none (some failureClass) }
  | raised : Marks w s run byAdoption w

/-- The steps of the world, by what they change. -/
inductive Change (w : NativeWorld) : NativeWorld → Prop
  | job (job : JobWorld) : Change w { w with job := job }
  | enter (s : Submission) : Change w { w with calls := w.calls ++ [⟨s, .entered, false⟩] }
  | refused (i : Nat) (call : Call) (at' : w.calls[i]? = some call) (held : Bool) :
      Change w (w.moved i { call with heldAtClaim := held } .refused)
  | acquired (i : Nat) (call : Call) (at' : w.calls[i]? = some call)
      (entered : call.phase = .entered) (current : isCurrent w.job.row call.submission.own)
      (free : call.operationKey ∉ w.keys) (row : NativeSubmissionClaim)
      (key : row.operationKey = call.operationKey) (claimed : row.disposition = .claimed) :
      Change w ({ w with claims := w.claims ++ [row] }.moved i { call with heldAtClaim := true }
        .acquired)
  | advanced (i : Nat) (call : Call) (at' : w.calls[i]? = some call) (phase : Phase)
      (advances : Advances w call phase) : Change w (w.moved i call phase)
  | launched (i : Nat) (call : Call) (at' : w.calls[i]? = some call)
      (probed : call.phase = .probing []) : Change w ((w.launch call).moved i call .launched)
  | recorded (i : Nat) (call : Call) (at' : w.calls[i]? = some call) (answer : ProviderAnswer)
      (answered : call.phase = .answered answer) (w' : NativeWorld)
      (marks : Marks w call.submission call.operationKey false w') :
      Change w (w'.moved i call .returned)
  | adopted (i : Nat) (call : Call) (at' : w.calls[i]? = some call) (key : OperationKey)
      (reference : String) (adopted : call.phase = .adopted key reference) (w' : NativeWorld)
      (marks : Marks w call.submission key true w') : Change w (w'.moved i call .returned)
  | reconciled (s : Submission) (reference : String) (named : reference ≠ "") :
      Change w (w.accepted (.ok (transition w.job.row w.claims s .accepted [.indeterminate]
        (some reference) none)) ⟨s.operationKey, s.operationKey, false⟩)

variable {cfg : Config} {w w' : NativeWorld} {i : Nat} {call : Call} {op : NativeOp}

theorem marks_markAccepted (s : Submission) (run : OperationKey) (byAdoption : Bool)
    (reference : String) : Marks w s run byAdoption
      (w.accepted (markAccepted w.job.row w.claims s reference)
        ⟨s.operationKey, run, byAdoption⟩) := by
  unfold markAccepted
  split
  · exact .raised
  · rename_i hne
    exact .accepted .claimed (.inl rfl) reference hne

theorem marks_record (s : Submission) (answer : ProviderAnswer) :
    Marks w s s.operationKey false (w.record s answer) := by
  cases answer with
  | result reference =>
    simp only [record]
    split
    · exact marks_markAccepted s s.operationKey false reference
    · exact .unresolved rfl .indeterminate (.inl rfl) _
  | indeterminate failureClass => exact .unresolved rfl .indeterminate (.inl rfl) failureClass
  | failed failureClass => exact .unresolved rfl .failed (.inr rfl) failureClass

theorem change_claim (hcall : w.calls[i]? = some call) (hentered : call.phase = .entered) :
    Change w (w.claim i call) := by
  unfold claim
  split
  · rename_i claims hinsert
    simp only [insertClaim] at hinsert
    split at hinsert
    · rename_i hc
      cases hinsert
      rw [hc.1]
      refine .acquired i call hcall hentered hc.1 ?_ _ rfl rfl
      have hfree := lookup_eq_none.mp (Option.isNone_iff_eq_none.mp hc.2)
      simpa [keys, Call.operationKey, eq_comm] using hfree
    · cases hinsert
  · exact .refused i call hcall _

theorem change_callStep (hcall : w.calls[i]? = some call) (h : w.callStep i call op = some w') :
    Change w w' := by
  unfold callStep at h
  split at h
  · rename_i hphase
    cases h
    exact change_claim hcall hphase
  · cases h
    split
    · exact .advanced i call hcall _ .current
    · exact .advanced i call hcall _ .returned
  · rename_i canCollect hphase
    cases h
    unfold lookedUp
    split
    · rename_i hc
      exact .advanced i call hcall _ (.replaying hc.1)
    · exact .advanced i call hcall _ .returned
  · rename_i known hphase
    cases h
    refine .advanced i call hcall _ (.probing _ (by rw [hphase]; rfl) ?_)
    intro key hkey
    cases known with
    | false => cases hkey
    | true => exact .inl hkey
  · rename_i state key keys hphase
    split at h
    · split at h
      · rename_i hlaunched
        cases h
        exact .advanced i call hcall _ (.adopting key keys hphase hlaunched)
      · cases h
    · cases h
      refine .advanced i call hcall _ (.probing keys (by rw [hphase]; rfl) ?_)
      intro other hother
      exact .inr ⟨_, hphase, List.mem_cons_of_mem key hother⟩
  · rename_i reference key hphase
    cases h
    cases reference with
    | none => exact .advanced i call hcall _ .returned
    | some reference => exact .advanced i call hcall _ (.adopted key _ hphase)
  · rename_i key reference hphase
    cases h
    exact .adopted i call hcall key reference hphase _ (marks_markAccepted ..)
  · rename_i hphase
    cases h
    exact .launched i call hcall hphase
  · rename_i answer hphase
    cases h
    exact .advanced i call hcall _ (.answered answer hphase)
  · rename_i answer hphase
    cases h
    exact .recorded i call hcall answer hphase _ (marks_record ..)
  · cases h
    exact .advanced i call hcall _ .returned
  · cases h

/-- Every step is one of the changes. -/
theorem change_step (h : step cfg w op = some w') : Change w w' ∨ w' = w := by
  cases op with
  | job op =>
    obtain ⟨job, -, rfl⟩ := Option.map_eq_some_iff.mp h
    exact .inl (.job job)
  | enter s =>
    simp only [step] at h
    split at h <;> cases h
    exact .inl (.enter s)
  | reconcile s reference =>
    simp only [step, reconcileAccepted] at h
    split at h <;> cases h
    · exact .inr rfl
    · rename_i hne
      exact .inl (.reconciled s reference hne)
  | _ =>
    simp only [step, NativeOp.call, Option.bind_some] at h
    obtain ⟨call, hcall, h⟩ := Option.bind_eq_some_iff.mp h
    exact .inl (change_callStep hcall h)

end NativeWorld

end MeshPipeline.NativeSubmission
