import MeshPipeline.Approval.World

/-!
# A confirmation starts one run or leaves nothing behind

A snapshot that a job was made from is never again awaiting on the gate, so no second job is made from
it. A refused call leaves the session as the next message finds it; a call that fails past its
transaction leaves the job marked.
-/

namespace MeshPipeline

open ApprovalTransaction

/-- The session that a refusal leaves: unlinked, and its snapshot invalidated, or answerable by the
next message of the user and by no other. -/
structure Reopened (session : ChatSession) (ownerId : String) (now : Int) : Prop where
  unlinked : session.jobId = none
  answerable : ∀ a ∈ session.intakeGate.approval, a.status = .invalidated ∨
    ∀ n, Approval.verify (some a) ownerId session.id session.intakeGate.selection n now = .ok a ↔
      n = session.userMsgs + 1

/-- The job was recorded as failed to launch. -/
def LaunchFailed (job : Option SimulationJob) : Prop :=
  ∃ row ∈ job, row.pipelineDispatchState = some .launchFailed ∧ row.status ≠ .pending

/-- What a call that has returned leaves behind. -/
def Confirmation.Clean (c : Confirmation) : Prop :=
  match c.phase with
  | .returned none outcome session _ now => outcome.ok = false → Reopened session c.ownerId now
  | .returned (some _) outcome _ job _ =>
    outcome.status = .dispatched ∨ outcome.status = .alreadyRunning ∨ LaunchFailed job
  | _ => True

namespace ApprovalWorld

variable {w w' : ApprovalWorld} {l : ApprovalStep}

/-- The snapshots that jobs were made from, one for each job. -/
def spent (w : ApprovalWorld) : List SnapshotId := w.jobs.map (·.snapshotId)

/-- One run for a snapshot, or nothing left behind. -/
structure OneRun (w : ApprovalWorld) : Prop where
  once : w.spent.Nodup
  clean : ∀ c ∈ w.confirmations, c.Clean

/-- The payload has the two fingerprints of the snapshot. -/
structure Matches (payload : ApprovalTransaction.RunPayload) (snapshot : Approval) : Prop where
  builder : payload.builderFingerprint = snapshot.fingerprint
  complete : snapshot.intentFingerprint ≠ ""
  intent : payload.intentFingerprint = snapshot.intentFingerprint

/-- The approval does not await an answer, or no job was made from it. -/
def Unspent (w : ApprovalWorld) (approval : Option Approval) : Prop :=
  ∀ a ∈ approval, a.status = .awaiting → a.id ∉ w.spent

/-- The snapshot of a call whose payload is built next. -/
def buildingFrom (w : ApprovalWorld) (i : Nat) : Option Approval :=
  (w.confirmations[i]?).bind fun c =>
    match c.phase with
    | .building _ snapshot _ => some snapshot
    | _ => none

/-- What keeps a confirmation whole: it finds a geometry or a job on the session it was handed, no
step of its transaction raises but a refused admission, the payload has the fingerprints of the
approval, the record of a failed launch is written, and no turn writes back an awaiting copy of a
snapshot that a job was made from. -/
def Undisturbed (w : ApprovalWorld) : ApprovalStep → Prop
  | .confirm _ _ => w.session.jobId.isSome ∨ w.session.geometrySourceId.isSome
  | .openTransaction _ env => env.Quiet
  | .build i (.ok payload) => ∀ snapshot ∈ w.buildingFrom i, Matches payload snapshot
  | .recordFailure _ recorded => recorded = true
  | .writeGate _ (.submitted _ _ _ _) _ => True
  | .writeGate i change _ => ∀ copy ∈ w.copies[i]?, w.Unspent (w.written copy change)
  | _ => True

instance (payload : ApprovalTransaction.RunPayload) (snapshot : Approval) : Decidable (Matches payload snapshot) :=
  decidable_of_iff
    (payload.builderFingerprint = snapshot.fingerprint ∧ snapshot.intentFingerprint ≠ "" ∧
      payload.intentFingerprint = snapshot.intentFingerprint)
    ⟨fun h => ⟨h.1, h.2.1, h.2.2⟩, fun h => ⟨h.builder, h.complete, h.intent⟩⟩

instance (w : ApprovalWorld) (approval : Option Approval) : Decidable (w.Unspent approval) :=
  inferInstanceAs (Decidable (∀ a ∈ approval, _ → _))

instance (w : ApprovalWorld) : (l : ApprovalStep) → Decidable (w.Undisturbed l)
  | .confirm _ _ => inferInstanceAs (Decidable (_ ∨ _))
  | .openTransaction _ env => inferInstanceAs (Decidable env.Quiet)
  | .build i (.ok payload) =>
    inferInstanceAs (Decidable (∀ snapshot ∈ w.buildingFrom i, Matches payload snapshot))
  | .recordFailure _ recorded => inferInstanceAs (Decidable (recorded = true))
  | .writeGate i .unmoved _ | .writeGate i .moved _ | .writeGate i (.invalidated _) _
  | .writeGate i .unitChanged _ =>
    inferInstanceAs (Decidable (∀ copy ∈ w.copies[i]?, w.Unspent _))
  | .writeGate _ (.submitted _ _ _ _) _ | .build _ (.error _) | .tick _ | .bindGeometry _
  | .declare | .accept _ | .readSession | .readMessages _ | .moveJob _ _ | .dispatch _ _ _ =>
    isTrue trivial

/-- What every run keeps. -/
structure Inv (w : ApprovalWorld) : Prop where
  once : w.spent.Nodup
  clean : ∀ c ∈ w.confirmations, c.Clean
  unspent : w.Unspent w.session.intakeGate.approval
  /-- Snapshots are counted when they are made. -/
  issued : ∀ id ∈ w.spent, id < w.snapshots
  gate : ∀ a ∈ w.session.intakeGate.approval, a.id < w.snapshots
  copies : ∀ copy ∈ w.copies, ∀ a ∈ copy.gate.approval, a.id < w.snapshots
  /-- A call in flight past its transaction has its job. -/
  made : ∀ c ∈ w.confirmations, ∀ j ∈ c.phase.job, j < w.jobs.length

/-! ## What each write keeps -/

lemma mem_modify {α : Type*} {x : α} {xs : List α} {i : Nat} {f : α → α} (h : x ∈ xs.modify i f) :
    x ∈ xs ∨ ∃ y, xs[i]? = some y ∧ x = f y := by
  obtain ⟨k, hk⟩ := List.mem_iff_getElem?.mp h
  rw [List.getElem?_modify] at hk
  obtain ⟨y, hy, rfl⟩ := Option.map_eq_some_iff.mp hk
  by_cases hik : i = k
  · exact .inr ⟨y, hik ▸ hy, by simp [hik]⟩
  · exact .inl (by simpa [hik] using List.mem_of_getElem? hy)

@[simp]
lemma spent_updateRow (w : ApprovalWorld) (j : JobId) (f : SimulationJob → SimulationJob) :
    (w.updateRow j f).spent = w.spent := by
  have hlist : ∀ (jobs : List ApprovedJob) (j : Nat),
      (jobs.modify j fun job => { job with row := f job.row }).map (·.snapshotId) =
        jobs.map (·.snapshotId) := by
    intro jobs
    induction jobs with
    | nil => simp
    | cons job jobs ih =>
      intro j
      cases j with
      | zero => simp
      | succ j => simp [ih j]
  exact hlist w.jobs j

namespace Inv

/-- A session whose approval is unspent and was issued. -/
lemma setSession (inv : Inv w) (session : ChatSession)
    (hunspent : w.Unspent session.intakeGate.approval)
    (hgate : ∀ a ∈ session.intakeGate.approval, a.id < w.snapshots) :
    Inv { w with session := session } :=
  ⟨inv.once, inv.clean, hunspent, inv.issued, hgate, inv.copies, inv.made⟩

/-- A phase that leaves things clean and has its job. -/
lemma setPhase (inv : Inv w) {i : Nat} {phase : ConfirmPhase}
    (hclean : ∀ c, w.confirmations[i]? = some c → Confirmation.Clean { c with phase := phase })
    (hmade : ∀ j ∈ phase.job, j < w.jobs.length) : Inv (w.setPhase i phase) := by
  refine ⟨inv.once, ?_, inv.unspent, inv.issued, inv.gate, inv.copies, ?_⟩
  · intro c hc
    obtain hc | ⟨c, hi, rfl⟩ := mem_modify hc
    · exact inv.clean c hc
    · exact hclean c hi
  · intro c hc
    obtain hc | ⟨c, hi, rfl⟩ := mem_modify hc
    · exact inv.made c hc
    · exact hmade

/-- The row of a job is its own; nothing else of the world reads it. -/
lemma updateRow (inv : Inv w) (j : JobId) (f : SimulationJob → SimulationJob) :
    Inv (w.updateRow j f) := by
  have hspent : (w.updateRow j f).spent = w.spent := spent_updateRow w j f
  refine ⟨hspent ▸ inv.once, inv.clean, ?_, hspent ▸ inv.issued, inv.gate, inv.copies, ?_⟩
  · intro a ha hawaiting
    rw [hspent]
    exact inv.unspent a ha hawaiting
  · intro c hc k hk
    simpa [ApprovalWorld.updateRow] using inv.made c hc k hk

/-- A new job is made from the awaiting snapshot of the gate, which is marked with it. -/
lemma created (inv : Inv w) {ownerId : String} {snapshot : Approval}
    (hverified : Verified w.session ownerId w.clock snapshot) (row : SimulationJob) :
    Inv { w with
      session := linked w.session snapshot w.jobs.length
      jobs := w.jobs ++ [ApprovedJob.mk row snapshot.id] } := by
  have hmem : snapshot ∈ w.session.intakeGate.approval := hverified.approval
  have hfresh : snapshot.id ∉ w.spent :=
    inv.unspent snapshot hmem hverified.answerable.awaiting
  set w' : ApprovalWorld := { w with
    session := linked w.session snapshot w.jobs.length
    jobs := w.jobs ++ [ApprovedJob.mk row snapshot.id] } with hw'
  have hspent : w'.spent = w.spent ++ [snapshot.id] := by simp [hw', spent]
  have hgate : w'.session.intakeGate.approval = some (snapshot.dispatch w.jobs.length) := rfl
  refine ⟨?_, inv.clean, ?_, ?_, ?_, inv.copies, ?_⟩
  · rw [hspent, List.nodup_append]
    refine ⟨inv.once, by simp, ?_⟩
    intro id hid b hb heq
    exact hfresh (by simpa [heq, List.mem_singleton.mp hb] using hid)
  · intro a ha hawaiting
    rw [hgate, Option.mem_some_iff] at ha
    simp [← ha] at hawaiting
  · intro id hid
    rw [hspent, List.mem_append, List.mem_singleton] at hid
    obtain hid | rfl := hid
    · exact inv.issued id hid
    · exact inv.gate snapshot hmem
  · intro a ha
    rw [hgate, Option.mem_some_iff] at ha
    exact ha ▸ inv.gate snapshot hmem
  · intro c hc j hj
    have hlength : w'.jobs.length = w.jobs.length + 1 := by simp [hw']
    rw [hlength]
    exact Nat.lt_succ_of_lt (inv.made c hc j hj)

end Inv

/-! ## What each call leaves -/

lemma mem_withdrawn {session : ChatSession} {why : String} {a : Approval}
    (h : a ∈ (withdrawn session why).intakeGate.approval) :
    ∃ b ∈ session.intakeGate.approval, b.invalidate why = a := by
  simpa [withdrawn, ChatSession.setApproval, ChatSession.appendMessage] using h

lemma mem_deferred {session : ChatSession} {snapshot a : Approval}
    (h : a ∈ (deferred session snapshot).intakeGate.approval) : snapshot.defer = a := by
  simpa [deferred, ChatSession.setApproval, ChatSession.appendMessage] using h

/-- A snapshot that was just verified, moved on by a refusal, is answered by the next message. -/
lemma reopened_deferred {ownerId : String} {snapshot : Approval}
    (hverified : Verified w.session ownerId w.clock snapshot) :
    Reopened (deferred w.session snapshot) ownerId w.clock := by
  refine ⟨hverified.unlinked, ?_⟩
  intro a ha
  obtain rfl := mem_deferred ha
  refine .inr fun n => ?_
  have huser : (deferred w.session snapshot).userMsgs = w.session.userMsgs := by
    simp [deferred, ChatSession.userMsgs, ChatSession.appendMessage, ChatSession.setApproval]
  rw [Approval.verify_eq_ok, huser]
  exact (and_iff_right rfl).trans (hverified.answerable.defer n)

lemma reopened_withdrawn {ownerId why : String} (hunlinked : w.session.jobId = none) :
    Reopened (withdrawn w.session why) ownerId w.clock := by
  refine ⟨hunlinked, ?_⟩
  intro a ha
  obtain ⟨b, -, rfl⟩ := mem_withdrawn ha
  exact .inl rfl

/-- A recorded launch failure is on the row, and the row is not pending. -/
lemma launchFailed_markLaunchFailed (row : SimulationJob) (error : String) (now : Int) :
    LaunchFailed (some (JobRepository.markLaunchFailed row error now)) := by
  refine ⟨_, rfl, ?_, ?_⟩
  · unfold JobRepository.markLaunchFailed
    split <;> rfl
  · unfold JobRepository.markLaunchFailed
    split
    · simp
    · next h =>
      intro hpending
      exact h (by simp only at hpending; rw [hpending]; decide)

/-- The transaction of a call. -/
lemma Inv.open_ (inv : Inv w) {i : Nat} {c : Confirmation} {env : Env} (quiet : env.Quiet)
    (hc : w.confirmations[i]? = some c) : Inv (w.open_ i c env) := by
  obtain ⟨done, hdone⟩ := quiet.commits w.session c.ownerId c.organizationId w.jobs.length w.clock
  unfold ApprovalWorld.open_
  rw [hdone]
  cases openTransaction_cases hdone with
  | repeated outcome ok =>
    refine inv.setPhase ?_ (by simp [returning, ConfirmPhase.job])
    intro c _ hrefused
    simp [ok] at hrefused
  | withdrawn why outcome refused unlinked =>
    refine (inv.setSession _ ?_ ?_).setPhase ?_ (by simp [returning, ConfirmPhase.job])
    · intro a ha hawaiting
      obtain ⟨b, -, rfl⟩ := mem_withdrawn ha
      simp at hawaiting
    · intro a ha
      obtain ⟨b, hb, rfl⟩ := mem_withdrawn ha
      exact inv.gate b hb
    · intro c' hc' _
      obtain rfl : c = c' := by simpa [hc] using hc'
      exact reopened_withdrawn unlinked
  | deferred snapshot outcome refused verified =>
    have hmem : snapshot ∈ w.session.intakeGate.approval := verified.approval
    refine (inv.setSession _ ?_ ?_).setPhase ?_ (by simp [returning, ConfirmPhase.job])
    · intro a ha hawaiting
      obtain rfl := mem_deferred ha
      exact inv.unspent snapshot hmem hawaiting
    · intro a ha
      obtain rfl := mem_deferred ha
      exact inv.gate snapshot hmem
    · intro c' hc' _
      obtain rfl : c = c' := by simpa [hc] using hc'
      exact reopened_deferred verified
  | created snapshot filename verified =>
    refine (inv.created verified _).setPhase (fun c _ => trivial) ?_
    intro j hj
    simp only [ConfirmPhase.job, Option.mem_some_iff] at hj
    simp [← hj]

/-- The payload of a call is built and compared. -/
lemma Inv.build (inv : Inv w) {i : Nat} {jobId : JobId} {snapshot : Approval} {filename : String}
    {built : Except Raised ApprovalTransaction.RunPayload} (hjob : jobId < w.jobs.length)
    (hmatches : ∀ payload, built = .ok payload → Matches payload snapshot) :
    Inv (w.build i jobId snapshot filename built) := by
  unfold ApprovalWorld.build
  cases built with
  | error e => exact inv.setPhase (fun c _ => trivial) (by simpa [ConfirmPhase.job] using hjob)
  | ok payload =>
    obtain ⟨builder, complete, intent⟩ := hmatches payload rfl
    have hassert : assertPayloadMatchesApproval payload snapshot = none := by
      simp [assertPayloadMatchesApproval, builder, complete, intent]
    simp only [hassert]
    exact inv.setPhase (fun c _ => trivial) (by simpa [ConfirmPhase.job] using hjob)

/-- A stage of the dispatch. -/
lemma Inv.dispatch (inv : Inv w) {i : Nat} {stage : DispatchStage} {jobId : JobId}
    {payload : ApprovalTransaction.RunPayload} {filename : String} {met : Except Raised Unit}
    {recorded : Option String} (hjob : jobId < w.jobs.length) :
    Inv (w.dispatch i stage jobId payload filename met recorded) := by
  have hrow : ∀ f, jobId < (w.updateRow jobId f).jobs.length := by
    intro f
    simpa [ApprovalWorld.updateRow] using hjob
  unfold ApprovalWorld.dispatch
  cases met with
  | error e => exact inv.setPhase (fun c _ => trivial) (by simpa [ConfirmPhase.job] using hjob)
  | ok u =>
    cases stage with
    | validate => exact inv.setPhase (fun c _ => trivial) (by simpa [ConfirmPhase.job] using hjob)
    | store =>
      exact (inv.updateRow jobId _).setPhase (fun c _ => trivial)
        (by simpa [ConfirmPhase.job] using hrow _)
    | launch =>
      cases recorded with
      | none => exact inv.setPhase (fun c _ => .inl rfl) (by simp [returning, ConfirmPhase.job])
      | some backend =>
        exact (inv.updateRow jobId _).setPhase (fun c _ => .inl rfl)
          (by simp [returning, ConfirmPhase.job])

/-- The handler of a failed launch, when its record is written. -/
lemma Inv.recordFailure (inv : Inv w) {i : Nat} {jobId : JobId} {error : Raised}
    (hjob : jobId < w.jobs.length) : Inv (w.recordFailure i jobId error true) := by
  unfold ApprovalWorld.recordFailure
  simp only [if_true]
  refine (inv.updateRow jobId _).setPhase ?_ ?_
  swap
  · simp [returning, ConfirmPhase.job]
  intro c _
  refine .inr (.inr ?_)
  have hrow : ((w.updateRow jobId fun row =>
      JobRepository.markLaunchFailed row error.text w.clock).jobs[jobId]?).map (·.row) =
        some (JobRepository.markLaunchFailed w.jobs[jobId].row error.text w.clock) := by
    simp [ApprovalWorld.updateRow, hjob]
  simp only [Option.bind_some, hrow]
  exact launchFailed_markLaunchFailed _ _ _

/-- What a turn writes back has the id that it read, unless it is a new submission. -/
lemma mem_written {copy : GateCopy} {change : GateChange} {a : Approval}
    (h : a ∈ w.written copy change) :
    (∃ b ∈ copy.gate.approval, a.id = b.id) ∨
      (∃ o sel f g, change = .submitted o sel f g) ∧ a.id = w.snapshots := by
  cases change with
  | unmoved =>
    obtain ⟨b, hb, rfl⟩ := Option.map_eq_some_iff.mp h
    refine .inl ⟨b, hb, ?_⟩
    split <;> rfl
  | moved => exact .inl ⟨a, h, rfl⟩
  | invalidated why =>
    obtain ⟨b, hb, rfl⟩ := Option.map_eq_some_iff.mp h
    exact .inl ⟨b, hb, rfl⟩
  | unitChanged =>
    unfold written at h
    dsimp only at h
    split at h
    · obtain ⟨b, hb, rfl⟩ := Option.map_eq_some_iff.mp h
      exact .inl ⟨b, hb, rfl⟩
    · exact .inl ⟨a, h, rfl⟩
  | submitted o sel f g =>
    obtain rfl := Option.some.inj h
    exact .inr ⟨⟨o, sel, f, g, rfl⟩, rfl⟩

/-- A turn writes a gate back: a copy, or a submission of its own. -/
lemma Inv.writeGate (inv : Inv w) {i : Nat} {copy : GateCopy} {change : GateChange}
    {selection : Option EngineSelection} (hcopy : w.copies[i]? = some copy)
    (hok : w.Undisturbed (.writeGate i change selection)) :
    Inv (w.writeGate copy change selection) := by
  have hgate : ∀ a ∈ copy.gate.approval, a.id < w.snapshots :=
    inv.copies copy (List.mem_of_getElem? hcopy)
  have hgrow : w.snapshots ≤ (w.writeGate copy change selection).snapshots := by
    unfold ApprovalWorld.writeGate
    dsimp only
    split <;> omega
  refine ⟨inv.once, inv.clean, ?_, fun id hid => Nat.lt_of_lt_of_le (inv.issued id hid) hgrow,
    ?_, fun c hc a ha => Nat.lt_of_lt_of_le (inv.copies c hc a ha) hgrow, inv.made⟩
  · intro a ha hawaiting hspent
    cases change with
    | submitted o sel f g =>
      have hid : a.id = w.snapshots := by
        obtain rfl := Option.some.inj ha
        rfl
      exact absurd (hid ▸ inv.issued a.id hspent) (Nat.lt_irrefl _)
    | _ => exact hok copy hcopy a ha hawaiting hspent
  · intro a ha
    obtain ⟨b, hb, hid⟩ | ⟨⟨o, sel, f, g, rfl⟩, hid⟩ := mem_written ha
    · rw [hid]
      exact Nat.lt_of_lt_of_le (hgate b hb) hgrow
    · simp [ApprovalWorld.writeGate, hid]

/-- An accepted message leaves the approval of the gate, moved on or withdrawn. -/
lemma mem_accept {answer : Answer} {a : Approval}
    (h : a ∈ (w.accept answer).session.intakeGate.approval) :
    ∃ b ∈ w.session.intakeGate.approval, a.id = b.id ∧
      (a.status = .awaiting → b.status = .awaiting) := by
  unfold accept at h
  dsimp only at h
  split at h
  · exact ⟨a, h, rfl, id⟩
  · change a ∈ settle answer w.clock w.session.intakeGate.approval at h
    unfold settle at h
    split at h
    · cases answer with
      | stands => exact ⟨a, h, rfl, id⟩
      | deferred =>
        obtain ⟨b, hb, rfl⟩ := Option.map_eq_some_iff.mp h
        exact ⟨b, hb, rfl, id⟩
      | withdrawn reason =>
        obtain ⟨b, hb, rfl⟩ := Option.map_eq_some_iff.mp h
        exact ⟨b, hb, rfl, by simp⟩
    · exact ⟨a, h, rfl, id⟩

lemma Inv.accept (inv : Inv w) (answer : Answer) : Inv (w.accept answer) := by
  have hworld : w.accept answer = { w with session := (w.accept answer).session } := by
    unfold ApprovalWorld.accept
    dsimp only
    split <;> rfl
  rw [hworld]
  refine inv.setSession _ ?_ ?_
  · intro a ha hawaiting
    obtain ⟨b, hb, hid, hstatus⟩ := mem_accept ha
    rw [hid]
    exact inv.unspent b hb (hstatus hawaiting)
  · intro a ha
    obtain ⟨b, hb, hid, -⟩ := mem_accept ha
    exact hid ▸ inv.gate b hb

/-- A call that starts. -/
lemma Inv.confirm (inv : Inv w) (ownerId : String) (organizationId : Option Nat)
    (hgeometry : w.session.jobId.isSome ∨ w.session.geometrySourceId.isSome) :
    Inv { w with
      confirmations := w.confirmations ++ [Confirmation.mk ownerId organizationId w.fastPath] } := by
  have hphase : w.fastPath.job = none ∧
      Confirmation.Clean ⟨ownerId, organizationId, w.fastPath⟩ := by
    unfold fastPath
    cases hjob : w.session.jobId with
    | some jobId => exact ⟨rfl, fun h => by simp [ConfirmOutcome.running, ConfirmOutcome.ok] at h⟩
    | none =>
      cases hsource : w.session.geometrySourceId with
      | none => simp [hjob, hsource] at hgeometry
      | some sourceId => exact ⟨rfl, trivial⟩
  refine ⟨inv.once, ?_, inv.unspent, inv.issued, inv.gate, inv.copies, ?_⟩
  · intro c hc
    obtain hc | hc := List.mem_append.mp hc
    · exact inv.clean c hc
    · exact List.mem_singleton.mp hc ▸ hphase.2
  · intro c hc j hj
    obtain hc | hc := List.mem_append.mp hc
    · exact inv.made c hc j hj
    · rw [List.mem_singleton.mp hc] at hj
      simp [hphase.1] at hj

theorem Inv.step (inv : Inv w) (hok : w.Undisturbed l) (h : w.step l = some w') : Inv w' := by
  cases l with
  | tick d =>
    cases h
    exact ⟨inv.once, inv.clean, inv.unspent, inv.issued, inv.gate, inv.copies, inv.made⟩
  | bindGeometry sourceId =>
    cases h
    exact inv.setSession _ inv.unspent inv.gate
  | declare =>
    cases h
    exact inv.setSession _ inv.unspent inv.gate
  | accept answer =>
    cases h
    exact inv.accept answer
  | readSession =>
    cases h
    refine ⟨inv.once, inv.clean, inv.unspent, inv.issued, inv.gate, ?_, inv.made⟩
    intro copy hcopy
    obtain hcopy | hcopy := List.mem_append.mp hcopy
    · exact inv.copies copy hcopy
    · obtain rfl := List.mem_singleton.mp hcopy
      exact inv.gate
  | readMessages i =>
    cases h
    refine ⟨inv.once, inv.clean, inv.unspent, inv.issued, inv.gate, ?_, inv.made⟩
    intro copy hcopy
    obtain hcopy | ⟨copy, hi, rfl⟩ := mem_modify hcopy
    · exact inv.copies copy hcopy
    · exact inv.copies copy (List.mem_of_getElem? hi)
  | writeGate i change selection =>
    obtain ⟨copy, hcopy, h⟩ := Option.bind_eq_some_iff.mp h
    cases h
    exact inv.writeGate hcopy hok
  | moveJob jobId target =>
    cases h
    exact inv.updateRow _ _
  | confirm ownerId organizationId =>
    cases h
    exact inv.confirm ownerId organizationId hok
  | openTransaction i env =>
    obtain ⟨c, hc, h⟩ := Option.bind_eq_some_iff.mp h
    split at h
    · cases h
      exact inv.open_ hok hc
    · cases h
  | build i built =>
    obtain ⟨c, hc, h⟩ := Option.bind_eq_some_iff.mp h
    split at h
    next jobId snapshot filename hphase =>
      cases h
      have hjob := inv.made c (List.mem_of_getElem? hc) jobId (by simp [hphase, ConfirmPhase.job])
      refine inv.build hjob ?_
      rintro payload rfl
      exact hok snapshot (by simp [buildingFrom, hc, hphase])
    · cases h
  | dispatch i met recorded =>
    obtain ⟨c, hc, h⟩ := Option.bind_eq_some_iff.mp h
    split at h
    next stage jobId payload filename hphase =>
      cases h
      exact inv.dispatch
        (inv.made c (List.mem_of_getElem? hc) jobId (by simp [hphase, ConfirmPhase.job]))
    · cases h
  | recordFailure i recorded =>
    obtain ⟨c, hc, h⟩ := Option.bind_eq_some_iff.mp h
    split at h
    next jobId error hphase =>
      cases h
      obtain rfl : recorded = true := hok
      exact inv.recordFailure
        (inv.made c (List.mem_of_getElem? hc) jobId (by simp [hphase, ConfirmPhase.job]))
    · cases h

/-- A new session keeps the invariant. -/
lemma inv_new (sessionId ownerId : String) (clock : Int) : Inv (new sessionId ownerId clock) where
  once := List.nodup_nil
  clean := by simp [new]
  unspent := by simp [Unspent, new]
  issued := by simp [spent, new]
  gate := by simp [new]
  copies := by simp [new]
  made := by simp [new]

/-- A confirmation starts one run or leaves nothing behind, in every run of a session in which no
step is disturbed. -/
theorem one_run (sessionId ownerId : String) (clock : Int) (run : List ApprovalStep)
    (hok : machine.Meets Undisturbed (new sessionId ownerId clock) run)
    (h : machine.exec (new sessionId ownerId clock) run = some w) : OneRun w := by
  have inv : Inv w := Transition.Machine.exec_invariant (fun _ _ _ hI hP ht => hI.step hP ht)
    (inv_new sessionId ownerId clock) hok h
  exact ⟨inv.once, inv.clean⟩

/-- A session with a summary that the user has just said yes to. -/
def summarised : List ApprovalStep :=
  [.bindGeometry 7, .accept .stands, .readSession,
    .writeGate 0 (.submitted "u" "e1" "admission" "intent")
      (some ⟨"e1", EngineSelection.confirmed, seconds 3600⟩),
    .accept .stands]

/-- A transaction in which no step raises. -/
def quietEnv : Env where
  lock := .ok ()
  spendGate := .ok ()
  quotas := .ok ()
  source := .ok (some ⟨7, "part.step"⟩)
  interpretation := .ok (some 1)
  purged := .ok false
  create := .ok ()
  writes := .ok ()
  commit := .ok ()

/-- Two confirmations at once, the first of which launches and the second finds its run. -/
def twoYeses : List ApprovalStep :=
  summarised ++
    [.confirm "u" none, .confirm "u" none, .openTransaction 0 quietEnv, .openTransaction 1 quietEnv,
      .build 0 (.ok ⟨[], "admission", "intent"⟩), .dispatch 0 (.ok ()) none,
      .dispatch 0 (.ok ()) none, .dispatch 0 (.error (.exception "broker unreachable")) none,
      .recordFailure 0 true]

theorem one_run_twoYeses : ∃ w, machine.exec (new "s" "u" 0) twoYeses = some w ∧ OneRun w := by
  obtain ⟨w, hw⟩ := Option.isSome_iff_exists.mp
    (show (machine.exec (new "s" "u" 0) twoYeses).isSome by decide +kernel)
  exact ⟨w, hw, one_run "s" "u" 0 twoYeses (by decide +kernel) hw⟩

/-- The file is replaced between the summary and the yes, so the run's intent has another
fingerprint than the approved one. -/
def replacedFile : List ApprovalStep :=
  summarised ++
    [.bindGeometry 8, .confirm "u" none, .openTransaction 0 quietEnv,
      .build 0 (.ok ⟨[], "admission", "intent of another file"⟩)]

/-- The call is refused, and its job stays pending with no launch failure on it. -/
theorem pending_left : ∃ w, machine.exec (new "s" "u" 0) replacedFile = some w ∧ ¬ OneRun w := by
  refine ⟨_, rfl, fun h => ?_⟩
  obtain hstatus | hstatus | ⟨row, hrow, hstate, -⟩ := h.clean _ List.mem_cons_self
  · exact absurd hstatus (by decide +kernel)
  · exact absurd hstatus (by decide +kernel)
  · cases hrow
    exact absurd hstate (by decide +kernel)

end ApprovalWorld

end MeshPipeline
