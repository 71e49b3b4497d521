import Mathlib.Data.List.Forall2
import Mathlib.Data.List.Nodup
import MeshPipeline.NativeSubmission.Change

/-!
# A native run is submitted at most once

The inserted row is the right to one provider call. The right passes to the call that inserted it,
is spent by the launch, and is never granted again.
-/

namespace MeshPipeline.NativeSubmission

open NativeSubmissionRepository

/-- The moves of a disposition. -/
inductive Disposition.Moves : Disposition → Disposition → Prop
  | accepted : Moves .claimed .accepted
  | indeterminate : Moves .claimed .indeterminate
  | failed : Moves .claimed .failed
  | reconciled : Moves .indeterminate .accepted

namespace NativeWorld

/-- What a step may do to a row: nothing, or one move by a worker that holds the job. -/
inductive RowMoves (w : NativeWorld) (row : NativeSubmissionClaim) :
    NativeSubmissionClaim → Prop
  | kept : RowMoves w row row
  | moved (s : Submission) (current : isCurrent w.job.row s.own)
      (key : row.operationKey = s.operationKey) (target : Disposition)
      (moves : row.disposition.Moves target) (reference failureClass : Option String)
      (named : target = .accepted → ∃ r, reference = some r ∧ r ≠ "") :
      RowMoves w row (transitionRow target reference failureClass row)

variable {cfg : Config} {w w' : NativeWorld} {op : NativeOp}

/-- Rows move in place; the only other change is a row appended by a holder. -/
inductive ClaimsMove (w : NativeWorld) (claims : List NativeSubmissionClaim) : Prop
  | inPlace (rows : List.Forall₂ (RowMoves w) w.claims claims)
  | appended (row : NativeSubmissionClaim) (eq : claims = w.claims ++ [row])
      (claimed : row.disposition = .claimed) (free : row.operationKey ∉ w.keys)
      (s : Submission) (current : isCurrent w.job.row s.own)

theorem rowMoves_refl (w : NativeWorld) : List.Forall₂ (RowMoves w) w.claims w.claims :=
  List.forall₂_same.mpr fun _ _ => .kept

theorem rowMoves_transition {s : Submission} {target source : Disposition}
    (moves : source.Moves target) {reference failureClass : Option String}
    (named : target = .accepted → ∃ r, reference = some r ∧ r ≠ "") :
    List.Forall₂ (RowMoves w) w.claims
      (transition w.job.row w.claims s target [source] reference failureClass) := by
  refine List.forall₂_map_right_iff.mpr (List.forall₂_same.mpr fun row _ => ?_)
  split
  · rename_i hc
    refine .moved s hc.2.1 hc.1 target ?_ reference failureClass named
    rw [List.mem_singleton.mp hc.2.2]
    exact moves
  · exact .kept

theorem claims_marks {s : Submission} {run : OperationKey} {byAdoption : Bool}
    (h : Marks w s run byAdoption w') : List.Forall₂ (RowMoves w) w.claims w'.claims := by
  cases h with
  | accepted source sources reference named =>
    refine rowMoves_transition ?_ fun _ => ⟨reference, rfl, named⟩
    rcases sources with rfl | rfl
    · exact .accepted
    · exact .reconciled
  | unresolved _ target targets failureClass =>
    rcases targets with rfl | rfl
    · exact rowMoves_transition .indeterminate nofun
    · exact rowMoves_transition .failed nofun
  | raised => exact rowMoves_refl w

theorem claimsMove (h : Change w w') : ClaimsMove w w'.claims := by
  cases h with
  | job | enter | refused | advanced | launched => exact .inPlace (rowMoves_refl w)
  | acquired i call at' entered current free row key claimed =>
    exact .appended row rfl claimed (key ▸ free) call.submission current
  | recorded _ _ _ _ _ v marks =>
    have hrows := claims_marks marks
    exact .inPlace hrows
  | adopted _ _ _ _ _ _ v marks =>
    have hrows := claims_marks marks
    exact .inPlace hrows
  | reconciled s reference named =>
    exact .inPlace (rowMoves_transition .reconciled fun _ => ⟨reference, rfl, named⟩)

theorem keys_of_rowMoves {claims claims' : List NativeSubmissionClaim}
    (h : List.Forall₂ (RowMoves w) claims claims') :
    claims'.map (·.operationKey) = claims.map (·.operationKey) := by
  induction h with
  | nil => rfl
  | cons hrow _ ih =>
    rw [List.map_cons, List.map_cons, ih]
    cases hrow <;> rfl

theorem exists_rowMoves {claims claims' : List NativeSubmissionClaim}
    (h : List.Forall₂ (RowMoves w) claims claims') {row : NativeSubmissionClaim}
    (hmem : row ∈ claims') : ∃ old ∈ claims, RowMoves w old row := by
  induction h with
  | nil => cases hmem
  | cons hrow _ ih =>
    rcases List.mem_cons.mp hmem with rfl | hmem
    · exact ⟨_, List.mem_cons_self, hrow⟩
    · obtain ⟨old, hold, hmove⟩ := ih hmem
      exact ⟨old, List.mem_cons_of_mem _ hold, hmove⟩

/-- Every accepted row points at the provider's run. -/
def Referenced (w : NativeWorld) : Prop :=
  ∀ row ∈ w.claims, row.disposition = .accepted →
    ∃ reference, row.providerReference = some reference ∧ reference ≠ ""

theorem referenced_step (hr : w.Referenced) (h : Change w w') : w'.Referenced := by
  intro row hmem haccepted
  cases claimsMove h with
  | inPlace rows =>
    obtain ⟨old, hold, hmove⟩ := exists_rowMoves rows hmem
    cases hmove with
    | kept => exact hr row hold haccepted
    | moved s current key target moves reference failureClass named =>
      obtain ⟨r, rfl, hne⟩ := named haccepted
      exact ⟨r, rfl, hne⟩
  | appended new eq claimed =>
    rw [eq] at hmem
    rcases List.mem_append.mp hmem with hold | hnew
    · exact hr row hold haccepted
    · rw [List.mem_singleton.mp hnew, claimed] at haccepted
      cases haccepted

/-! ## The right to launch -/

/-- At most one call may still launch an operation, none once it was launched, and each right goes
back to a row inserted by a worker that held the job. -/
structure Rights (w : NativeWorld) : Prop where
  keys : w.keys.Nodup
  unique : ∀ (i j : Nat) (a b : Call), w.calls[i]? = some a → w.calls[j]? = some b →
    a.phase.mayLaunch → b.phase.mayLaunch → a.operationKey = b.operationKey → i = j
  held : ∀ a ∈ w.calls, a.phase.mayLaunch →
    a.heldAtClaim ∧ a.operationKey ∈ w.keys ∧ a.operationKey ∉ w.launchedKeys
  launched : ∀ l ∈ w.launches, l.heldAtClaim ∧ l.operationKey ∈ w.keys
  once : w.launchedKeys.Nodup

theorem getElem?_set_cases {calls : List Call} {i j : Nat} {a b : Call}
    (h : (calls.set i a)[j]? = some b) : i = j ∧ b = a ∨ i ≠ j ∧ calls[j]? = some b := by
  rw [List.getElem?_set] at h
  split at h
  · rename_i hij
    split at h
    · exact .inl ⟨hij, (Option.some.inj h).symm⟩
    · cases h
  · rename_i hij
    exact .inr ⟨hij, h⟩

theorem Rights.congr (hr : w.Rights) (hkeys : w'.keys = w.keys) (hcalls : w'.calls = w.calls)
    (hlaunches : w'.launches = w.launches) : w'.Rights := by
  have hlaunched : w'.launchedKeys = w.launchedKeys := by simp [launchedKeys, hlaunches]
  refine ⟨hkeys ▸ hr.keys, ?_, ?_, ?_, hlaunched ▸ hr.once⟩
  · rw [hcalls]
    exact hr.unique
  · rw [hcalls, hkeys, hlaunched]
    exact hr.held
  · rw [hlaunches, hkeys]
    exact hr.launched

/-- A call that moves on without gaining a right leaves everyone else's. -/
theorem Rights.moved (hr : w.Rights) {i : Nat} {call call' : Call} {phase : Phase}
    (hcall : w.calls[i]? = some call)
    (hmay : phase.mayLaunch → call.phase.mayLaunch ∧ call' = call) :
    (w.moved i call' phase).Rights := by
  have hmem : call ∈ w.calls := List.mem_of_getElem? hcall
  refine ⟨hr.keys, ?_, ?_, hr.launched, hr.once⟩
  · intro j k a b ha hb hla hlb hkey
    rcases getElem?_set_cases ha with ⟨rfl, rfl⟩ | ⟨hne, ha⟩
    · obtain ⟨hl, rfl⟩ := hmay hla
      rcases getElem?_set_cases hb with ⟨rfl, -⟩ | ⟨-, hb⟩
      · rfl
      · exact hr.unique i k call' b hcall hb hl hlb hkey
    · rcases getElem?_set_cases hb with ⟨rfl, rfl⟩ | ⟨-, hb⟩
      · obtain ⟨hl, rfl⟩ := hmay hlb
        exact hr.unique j i a call' ha hcall hla hl hkey
      · exact hr.unique j k a b ha hb hla hlb hkey
  · intro a ha hla
    rcases List.mem_or_eq_of_mem_set ha with hold | rfl
    · exact hr.held a hold hla
    · obtain ⟨hl, rfl⟩ := hmay hla
      exact hr.held call' hmem hl

theorem marks_calls {s : Submission} {run : OperationKey} {byAdoption : Bool}
    (h : Marks w s run byAdoption w') : w'.calls = w.calls ∧ w'.launches = w.launches := by
  cases h <;> exact ⟨rfl, rfl⟩

theorem Rights.marks (hr : w.Rights) {s : Submission} {run : OperationKey} {byAdoption : Bool}
    (h : Marks w s run byAdoption w') : w'.Rights :=
  hr.congr (keys_of_rowMoves (claims_marks h)) (marks_calls h).1 (marks_calls h).2

theorem rights_enter (hr : w.Rights) (s : Submission) :
    Rights { w with calls := w.calls ++ [⟨s, .entered, false⟩] } := by
  have hold : ∀ (i : Nat) (a : Call),
      (w.calls ++ [⟨s, .entered, false⟩])[i]? = some a → a.phase.mayLaunch →
      w.calls[i]? = some a := by
    intro i a ha hla
    rw [List.getElem?_append] at ha
    split at ha
    · exact ha
    · obtain rfl := List.mem_singleton.mp (List.mem_of_getElem? ha)
      cases hla
  refine ⟨hr.keys, ?_, ?_, hr.launched, hr.once⟩
  · intro i j a b ha hb hla hlb
    exact hr.unique i j a b (hold i a ha hla) (hold j b hb hlb) hla hlb
  · intro a ha hla
    obtain ⟨i, hi⟩ := List.mem_iff_getElem?.mp ha
    exact hr.held a (List.mem_of_getElem? (hold i a hi hla)) hla

/-- A call that is alone with its operation may gain or spend the right to launch it. -/
theorem Rights.unique_set (hr : w.Rights) {i : Nat} (call : Call)
    (halone : ∀ (j : Nat) (b : Call), j ≠ i → w.calls[j]? = some b → b.phase.mayLaunch →
      b.operationKey ≠ call.operationKey)
    {j k : Nat} {a b : Call} (ha : (w.calls.set i call)[j]? = some a)
    (hb : (w.calls.set i call)[k]? = some b) (hla : a.phase.mayLaunch) (hlb : b.phase.mayLaunch)
    (hkey : a.operationKey = b.operationKey) : j = k := by
  rcases getElem?_set_cases ha with ⟨rfl, rfl⟩ | ⟨hne, ha'⟩
  · rcases getElem?_set_cases hb with ⟨rfl, -⟩ | ⟨hne, hb'⟩
    · rfl
    · exact absurd hkey.symm (halone k b hne.symm hb' hlb)
  · rcases getElem?_set_cases hb with ⟨rfl, rfl⟩ | ⟨-, hb'⟩
    · exact absurd hkey (halone j a hne.symm ha' hla)
    · exact hr.unique j k a b ha' hb' hla hlb hkey

theorem rights_acquired (hr : w.Rights) {i : Nat} {call : Call}
    (hfree : call.operationKey ∉ w.keys) {row : NativeSubmissionClaim}
    (hkey : row.operationKey = call.operationKey) :
    Rights ({ w with claims := w.claims ++ [row] }.moved i { call with heldAtClaim := true }
      .acquired) := by
  have hkeys : (w.claims ++ [row]).map (·.operationKey) = w.keys ++ [call.operationKey] := by
    simp [keys, hkey]
  have hunlaunched : call.operationKey ∉ w.launchedKeys := by
    intro hmem
    obtain ⟨l, hl, hlkey⟩ := List.mem_map.mp hmem
    exact hfree (hlkey ▸ (hr.launched l hl).2)
  refine ⟨?_, ?_, ?_, ?_, hr.once⟩
  · rw [keys, moved, hkeys, ← List.concat_eq_append]
    exact List.Nodup.concat hfree hr.keys
  · intro j k a b
    refine hr.unique_set { call with heldAtClaim := true, phase := .acquired }
      fun j b _ hb hlb heq => hfree ?_
    exact heq ▸ (hr.held b (List.mem_of_getElem? hb) hlb).2.1
  · intro a ha hla
    rw [keys, moved, hkeys]
    rcases List.mem_or_eq_of_mem_set ha with hold | rfl
    · obtain ⟨hheld, hmem, hnot⟩ := hr.held a hold hla
      exact ⟨hheld, List.mem_append_left _ hmem, hnot⟩
    · exact ⟨rfl, List.mem_append_right _ (List.mem_singleton.mpr rfl), hunlaunched⟩
  · intro l hl
    rw [keys, moved, hkeys]
    exact ⟨(hr.launched l hl).1, List.mem_append_left _ (hr.launched l hl).2⟩

theorem rights_launched (hr : w.Rights) {i : Nat} {call : Call} (hcall : w.calls[i]? = some call)
    (hmay : call.phase.mayLaunch) : Rights ((w.launch call).moved i call .launched) := by
  obtain ⟨hheld, hmem, hnot⟩ := hr.held call (List.mem_of_getElem? hcall) hmay
  have halone : ∀ (j : Nat) (b : Call), j ≠ i → w.calls[j]? = some b → b.phase.mayLaunch →
      b.operationKey ≠ call.operationKey :=
    fun j b hne hb hlb heq => hne (hr.unique j i b call hb hcall hlb hmay heq)
  have hkeys : (w.launches ++ [⟨call.operationKey, call.heldAtClaim⟩] : List Launch).map
      (·.operationKey) = w.launchedKeys ++ [call.operationKey] := by
    simp [launchedKeys]
  refine ⟨hr.keys, ?_, ?_, ?_, ?_⟩
  · intro j k a b
    exact hr.unique_set { call with phase := .launched } halone
  · intro a ha hla
    obtain ⟨j, hj⟩ := List.mem_iff_getElem?.mp ha
    rcases getElem?_set_cases hj with ⟨-, rfl⟩ | ⟨hne, hold⟩
    · cases hla
    · obtain ⟨haheld, hamem, hanot⟩ := hr.held a (List.mem_of_getElem? hold) hla
      refine ⟨haheld, hamem, ?_⟩
      rw [launchedKeys, moved, launch, hkeys]
      rintro hin
      rcases List.mem_append.mp hin with hin | hin
      · exact hanot hin
      · exact halone j a hne.symm hold hla (List.mem_singleton.mp hin)
  · intro l hl
    rcases List.mem_append.mp hl with hl | hl
    · exact hr.launched l hl
    · rw [List.mem_singleton.mp hl]
      exact ⟨hheld, hmem⟩
  · rw [launchedKeys, moved, launch, hkeys, ← List.concat_eq_append]
    exact List.Nodup.concat hnot hr.once

theorem rights_step (hr : w.Rights) (h : Change w w') : w'.Rights := by
  cases h with
  | job => exact hr.congr rfl rfl rfl
  | enter s => exact rights_enter hr s
  | refused i call at' held => exact hr.moved at' nofun
  | acquired i call at' entered current free row key => exact rights_acquired hr free key
  | advanced i call at' phase advances =>
    refine hr.moved at' fun hmay => ⟨?_, rfl⟩
    cases advances with
    | probing _ may => exact may
    | _ => cases hmay
  | launched i call at' probed => exact rights_launched hr at' (by rw [probed]; rfl)
  | recorded i call at' answer answered v marks =>
    have hcall : v.calls[i]? = some call := (marks_calls marks).1 ▸ at'
    exact (hr.marks marks).moved hcall nofun
  | adopted i call at' key reference adopted v marks =>
    have hcall : v.calls[i]? = some call := (marks_calls marks).1 ▸ at'
    exact (hr.marks marks).moved hcall nofun
  | reconciled s reference named =>
    have hmarks : Marks w s s.operationKey false _ :=
      .accepted .indeterminate (.inr rfl) reference named
    exact hr.marks hmarks

theorem rights_created (id : JobId) (ownerId : String) (organizationId : Option Nat) (now : Int) :
    (created id ownerId organizationId now).Rights := by
  refine ⟨List.nodup_nil, ?_, ?_, ?_, List.nodup_nil⟩
  · intro i j a b ha
    cases ha
  · intro a ha
    cases ha
  · intro l hl
    cases hl

/-! ## Superseded workers -/

theorem claims_record_of_not_current {s : Submission} (hs : isCurrent w.job.row s.own = false)
    (answer : ProviderAnswer) :
    (w.record s answer).claims = w.claims ∧ (w.record s answer).job = w.job := by
  cases answer with
  | result reference =>
    simp only [record, markAccepted]
    split <;> exact ⟨transition_of_not_current hs, rfl⟩
  | indeterminate | failed => exact ⟨transition_of_not_current hs, rfl⟩

theorem claims_callStep_of_not_current {i : Nat} {call : Call}
    (hs : isCurrent w.job.row call.submission.own = false) (h : w.callStep i call op = some w') :
    w'.claims = w.claims ∧ w'.job = w.job := by
  unfold callStep at h
  split at h
  · cases h
    simp [claim, insertClaim_of_not_current hs, moved]
  · cases h
    exact ⟨rfl, rfl⟩
  · cases h
    exact ⟨rfl, rfl⟩
  · cases h
    exact ⟨rfl, rfl⟩
  · split at h
    · split at h <;> cases h
      exact ⟨rfl, rfl⟩
    · cases h
      exact ⟨rfl, rfl⟩
  · cases h
    exact ⟨rfl, rfl⟩
  · cases h
    unfold markAccepted
    split
    · exact ⟨rfl, rfl⟩
    · exact ⟨transition_of_not_current hs, rfl⟩
  · cases h
    exact ⟨rfl, rfl⟩
  · cases h
    exact ⟨rfl, rfl⟩
  · rename_i answer _
    cases h
    exact claims_record_of_not_current hs answer
  · cases h
    exact ⟨rfl, rfl⟩
  · cases h

theorem claims_step_of_not_current {s : Submission} (hactor : w.actor op = some s)
    (hs : isCurrent w.job.row s.own = false) (h : step cfg w op = some w') :
    w'.claims = w.claims ∧ w'.job = w.job := by
  cases op with
  | job | enter => cases hactor
  | reconcile s' reference =>
    obtain rfl : s' = s := Option.some.inj hactor
    simp only [step, reconcileAccepted] at h
    split at h <;> cases h
    · exact ⟨rfl, rfl⟩
    · exact ⟨transition_of_not_current hs, rfl⟩
  | _ =>
    simp only [step, NativeOp.call, Option.bind_some] at h
    obtain ⟨call, hcall, h⟩ := Option.bind_eq_some_iff.mp h
    have hcalled : call.submission = s := by simpa [actor, NativeOp.call, hcall] using hactor
    exact claims_callStep_of_not_current (hcalled ▸ hs) h

/-! ## Every run -/

/-- The provider's `run` was invoked at most once for an operation, by a holder's claim; rows move
only along the moves, by a holder; accepted ones point at a run; a superseded worker moves none. -/
structure SubmittedOnce (cfg : Config) (w : NativeWorld) : Prop where
  once : w.launchedKeys.Nodup
  held : ∀ l ∈ w.launches, l.heldAtClaim
  referenced : w.Referenced
  moves : ∀ op w', step cfg w op = some w' → ClaimsMove w w'.claims
  superseded : ∀ op w' s, w.actor op = some s → isCurrent w.job.row s.own = false →
    step cfg w op = some w' → w'.claims = w.claims ∧ w'.job = w.job

/-- Whatever the interleaving of workers, crashes, takeovers and replays, each operation of a
generation is submitted at most once. -/
theorem native_submission_at_most_once (cfg : Config) (id : JobId) (ownerId : String)
    (organizationId : Option Nat) (now : Int) (ops : List NativeOp)
    (h : (machine cfg).exec (created id ownerId organizationId now) ops = some w) :
    SubmittedOnce cfg w := by
  have hinv : w.Rights ∧ w.Referenced := by
    refine Transition.Machine.exec_invariant_of_step (I := fun w => w.Rights ∧ w.Referenced) ?_
      ⟨rights_created id ownerId organizationId now, fun row hrow => nomatch hrow⟩ h
    rintro v op v' ⟨hr, href⟩ hstep
    obtain hc | rfl := change_step hstep
    · exact ⟨rights_step hr hc, referenced_step href hc⟩
    · exact ⟨hr, href⟩
  obtain ⟨hr, href⟩ := hinv
  refine ⟨hr.once, fun l hl => (hr.launched l hl).1, href, ?_, ?_⟩
  · intro op w' hstep
    obtain hc | rfl := change_step hstep
    · exact claimsMove hc
    · exact .inPlace (rowMoves_refl w')
  · intro op w' s hactor hs hstep
    exact claims_step_of_not_current hactor hs hstep

/-- A worker is lost before its acknowledgement is recorded, and the next one runs the same node. -/
def lostAcknowledgement : List NativeOp :=
  let first : Submission := ⟨⟨1, 1, "celery", some 21600000000, 1, 900⟩, "mesh", "snappy", "d"⟩
  let second : Submission := ⟨⟨2, 2, "celery", some 21600000000, 2, 900⟩, "mesh", "snappy", "d"⟩
  [.job (.claimExecution 1 "celery" (some "vm-1") true), .enter first, .claim 0,
    .lookEarlier 0 true, .launch 0, .answer 0 (.result "run/1"), .job (.tick 900000000),
    .job (.claimExecution 2 "celery" (some "vm-2") true), .record 0, .enter second, .claim 1,
    .lookEarlier 1 true, .probe 1 (some .absent), .launch 1]

theorem native_submission_at_most_once_lostAcknowledgement :
    ∃ w, (machine .default).exec (created 7 "ada" none 0) lostAcknowledgement = some w ∧
      w.launches.length = 2 ∧ SubmittedOnce .default w :=
  ⟨_, rfl, rfl, native_submission_at_most_once .default 7 "ada" none 0 lostAcknowledgement rfl⟩

end NativeWorld

end MeshPipeline.NativeSubmission
