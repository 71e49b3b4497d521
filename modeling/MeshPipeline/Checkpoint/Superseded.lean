import MeshPipeline.Checkpoint.FencedCheckpointer
import MeshPipeline.Job.Endings

/-!
# Checkpoints of superseded workers

The threads of one job beside every writer of its row. Ownership is checked in one step and the entry
lands in another, so a claim may come between. A claim that opens a generation opens an empty thread;
one that resumes a generation goes on with the thread that the worker before it may still write to.
-/

namespace MeshPipeline

open LeaseRepository JobRepository

/-- Only a claim grants. -/
lemma JobWorld.claim_of_granted {cfg : Config} {w w' : JobWorld} {op : JobOp}
    (h : JobWorld.step cfg w op = some w') (hgranted : w'.granted ≠ w.granted) :
    ∃ token backend execution fenceAvailable,
      op = .claimExecution token backend execution fenceAvailable := by
  cases op with
  | claimExecution token backend execution fenceAvailable => exact ⟨_, _, _, _, rfl⟩
  | transition | reapSelect | guardWrite | reapWrite =>
    simp only [JobWorld.step] at h
    grind [JobWorld.putRow, JobWorld.put, JobWorld.reapWrite]
  | runReview i payload =>
    obtain ⟨job, -, h⟩ := Option.bind_eq_some_iff.mp h
    obtain ⟨db, -, rfl⟩ := Option.map_eq_some_iff.mp h
    exact absurd rfl hgranted
  | _ => cases h; exact absurd rfl hgranted

/-- What a run was resumed from, and whether it then owned the job. -/
structure Resumption where
  own : ExecutionOwnership
  current : Bool
  disposition : ThreadDisposition
  position : Option CheckpointPosition

structure CheckpointWorld where
  job : JobWorld
  /-- The threads, by generation. -/
  threads : Nat → CheckpointThread
  pending : List PendingCheckpoint
  resumptions : List Resumption

inductive CheckpointStep
  | job (op : JobOp)
  /-- The ownership check of `aput` or `aput_writes`. -/
  | assertOwner (own : ExecutionOwnership) (entry : CheckpointEntry)
  | write (i : Nat) (outcome : WriteTry)
  /-- The thread is read and the graph is entered. -/
  | enter (own : ExecutionOwnership) (materialized : Bool)

namespace CheckpointWorld

def row (w : CheckpointWorld) : SimulationJob := w.job.row

/-- An entry as it lands. -/
def landed (w : CheckpointWorld) (p : PendingCheckpoint) : SavedEntry where
  entry := p.entry
  writer := p.own
  current := isCurrentOwner (some w.row) p.own
  superseded := w.job.granted.head? ≠ some p.own

/-- The threads after an entry landed in that of its writer's generation. -/
def save (w : CheckpointWorld) (p : PendingCheckpoint) (g : Nat) : CheckpointThread :=
  if g = p.own.executionGeneration then (w.threads g).upsert (w.landed p) else w.threads g

/-- The position that a run goes on from, if it does not start again. -/
def resumedFrom (next : CheckpointPosition → List String) (thread : CheckpointThread)
    (materialized : Bool) : Option CheckpointPosition :=
  let continuation := planContinuation (dispositionOf next thread.position) () materialized
  if continuation.graphInput.isSome then none else thread.position

def step (cfg : Config) (next : CheckpointPosition → List String) (w : CheckpointWorld) :
    CheckpointStep → Option CheckpointWorld
  | .job op => (JobWorld.step cfg w.job op).map fun job => { w with job := job }
  | .assertOwner own entry =>
    if own ∉ w.job.granted then none
    else if isCurrentOwner (some w.row) own then
      some { w with pending := w.pending ++ [⟨own, entry, checkpointTries⟩] }
    else some w
  | .write i outcome =>
    w.pending[i]?.map fun p =>
      { w with
        threads := if outcome.lands then w.save p else w.threads
        pending := (w.pending.eraseIdx i) ++ (p.after outcome).toList }
  | .enter own materialized =>
    if own ∉ w.job.granted then none
    else
      let thread := w.threads own.executionGeneration
      some { w with
        resumptions := w.resumptions ++ [⟨own, isCurrentOwner (some w.row) own,
          dispositionOf next thread.position, resumedFrom next thread materialized⟩] }

def machine (cfg : Config) (next : CheckpointPosition → List String) :
    Transition.Machine CheckpointWorld CheckpointStep := ⟨step cfg next⟩

def created (id : JobId) (ownerId : String) (organizationId : Option Nat) (now : Int) :
    CheckpointWorld where
  job := JobWorld.created id ownerId organizationId now
  threads _ := []
  pending := []
  resumptions := []

/-- No run goes on from a checkpoint of a superseded worker: the thread of the present generation holds
none that was added after a later claim, and what an owner resumed from was written by owners. -/
structure NoneSuperseded (w : CheckpointWorld) : Prop where
  added : ∀ e ∈ w.threads w.row.executionGeneration, e.superseded = false
  resumed : ∀ r ∈ w.resumptions, r.current → ∀ p, r.position = some p →
    p.checkpoint.current ∧ ∀ e ∈ p.writes, e.current

/-- A claim that resumes the generation, its lease free, finds no write of that generation on its way
and none that landed after its writer had lost the job. -/
def Quiet (w : CheckpointWorld) : CheckpointStep → Prop
  | .job (.claimExecution _ _ execution _) =>
    sameExecution w.row execution → leaseActive w.row w.job.clock = false →
      (∀ p ∈ w.pending, p.own.executionGeneration ≠ w.row.executionGeneration) ∧
        ∀ e ∈ w.threads w.row.executionGeneration, e.current
  | _ => True

instance (w : CheckpointWorld) : (l : CheckpointStep) → Decidable (Quiet w l)
  | .job op => by
    cases op
    case claimExecution => exact inferInstanceAs (Decidable (_ → _ → _ ∧ _))
    all_goals exact isTrue trivial
  | .assertOwner _ _ | .write _ _ | .enter _ _ => isTrue trivial

/-- The invariant: the threads of generations to come are empty, writes on their way to the present
one are of the latest claim, and while somebody owns the job every entry of it is an owner's. -/
structure Inv (cfg : Config) (w : CheckpointWorld) : Prop where
  selections : w.job.SelectionsSound cfg.settings
  tokens : w.job.granted.Pairwise fun a b => a.workerToken ≠ b.workerToken
  holder : ∀ token, w.row.activeWorkerToken = some token →
    ∃ own, w.job.granted.head? = some own ∧ own.workerToken = token
  generations : ∀ own ∈ w.job.granted, own.executionGeneration ≤ w.row.executionGeneration
  pending : ∀ p ∈ w.pending, p.own ∈ w.job.granted ∧
    (p.own.executionGeneration = w.row.executionGeneration → w.job.granted.head? = some p.own)
  later : ∀ g, w.row.executionGeneration < g → w.threads g = []
  added : ∀ e ∈ w.threads w.row.executionGeneration, e.superseded = false
  owned : ∀ own, isCurrentOwner (some w.row) own →
    ∀ e ∈ w.threads w.row.executionGeneration, e.current
  resumed : ∀ r ∈ w.resumptions, r.current → ∀ p, r.position = some p →
    p.checkpoint.current ∧ ∀ e ∈ p.writes, e.current

variable {cfg : Config} {next : CheckpointPosition → List String} {w w' : CheckpointWorld}
  {own : ExecutionOwnership}

lemma isCurrentOwner_iff : isCurrentOwner (some w.row) own ↔
    ¬ w.row.status.Terminal ∧ names w.row own = true := by
  simp [isCurrentOwner]

/-- The owner is who was granted the latest claim. -/
lemma Inv.head_of_owner (hw : Inv cfg w) (hmem : own ∈ w.job.granted)
    (hown : isCurrentOwner (some w.row) own) : w.job.granted.head? = some own := by
  obtain ⟨latest, hhead, htoken⟩ := hw.holder _ (token_of_names (isCurrentOwner_iff.mp hown).2)
  obtain ⟨rest, hgranted⟩ := List.head?_eq_some_iff.mp hhead
  have htokens := hw.tokens
  rw [hgranted] at hmem htokens
  obtain rfl | hrest := List.mem_cons.mp hmem
  · exact hhead
  · exact absurd htoken ((List.pairwise_cons.mp htokens).1 own hrest)

/-- A claim that keeps the generation resumes the execution of a row whose lease is free. -/
lemma resumes_of_granted {token : Token} {backend : String} {execution : Option String}
    {fenceAvailable : Bool} {row row' : SimulationJob} {now leaseFor total : Int}
    {result : ClaimResult} {revoked : Option Fingerprint}
    (h : claimExecution (some row) token backend execution fenceAvailable now leaseFor total =
      .ok ⟨result, some own, some row', revoked⟩)
    (hgeneration : own.executionGeneration = row.executionGeneration)
    (hfresh : row.activeWorkerToken ≠ some token) :
    sameExecution row execution ∧ leaseActive row now = false := by
  have hfree := (granted_of_claimExecution h).2.1.resolve_right hfresh
  refine ⟨?_, hfree⟩
  by_contra hdifferent
  have hreentrant : reentrant row token now = false := by simp [reentrant, hfree]
  unfold claimExecution at h
  grind [ownershipOf, claimed]

/-- What the condition says of a granted claim that keeps the generation. -/
lemma Inv.quiet_of_granted (hw : Inv cfg w) {op : JobOp} {job : JobWorld}
    (hstep : JobWorld.step cfg w.job op = some job) (hg : Granted cfg.settings w.job job own)
    (hquiet : Quiet w (.job op))
    (hgeneration : own.executionGeneration = w.row.executionGeneration) :
    (∀ p ∈ w.pending, p.own.executionGeneration ≠ w.row.executionGeneration) ∧
      ∀ e ∈ w.threads w.row.executionGeneration, e.current := by
  obtain ⟨token, backend, execution, fenceAvailable, rfl⟩ :=
    JobWorld.claim_of_granted hstep (by simp [hg.granted])
  simp only [JobWorld.step, JobWorld.claim] at hstep
  split at hstep
  case isFalse => cases hstep
  rename_i hfresh
  split at hstep
  · rename_i own' row' revoked hclaim
    obtain rfl := Option.some.inj hstep
    obtain rfl : own' = own := (List.cons.inj hg.granted).1
    have htoken : w.row.activeWorkerToken ≠ some token := by
      intro htoken
      obtain ⟨latest, hhead, rfl⟩ := hw.holder _ htoken
      have := List.all_eq_true.mp hfresh latest (List.mem_of_mem_head? hhead)
      simp at this
    obtain ⟨hsame, hfree⟩ := resumes_of_granted hclaim hgeneration htoken
    exact hquiet hsame hfree
  · obtain rfl := Option.some.inj hstep
    have := hg.granted
    simp at this

lemma inv_created (id : JobId) (ownerId : String) (organizationId : Option Nat) (now : Int) :
    Inv cfg (created id ownerId organizationId now) where
  selections := JobWorld.selectionsSound_created id ownerId organizationId now
  tokens := List.Pairwise.nil
  holder _ h := by cases h
  generations _ h := by cases h
  pending _ h := by cases h
  later _ _ := rfl
  added _ h := by cases h
  owned _ _ _ h := by cases h
  resumed _ h := by cases h

/-- A granted claim: it opens an empty thread, or goes on with one that only owners wrote. -/
lemma Inv.granted (hw : Inv cfg w) {op : JobOp} {job : JobWorld}
    (hstep : JobWorld.step cfg w.job op = some job) (hg : Granted cfg.settings w.job job own)
    (hquiet : own.executionGeneration = w.row.executionGeneration →
      (∀ p ∈ w.pending, p.own.executionGeneration ≠ w.row.executionGeneration) ∧
        ∀ e ∈ w.threads w.row.executionGeneration, e.current) :
    Inv cfg { w with job := job } := by
  obtain ⟨htoken, hgeneration, -⟩ := hg.holder
  have hle : w.row.executionGeneration ≤ own.executionGeneration := hg.generation
  have hfresh : ∀ other ∈ w.job.granted, own.workerToken ≠ other.workerToken := by
    intro other hmem heq
    have := List.all_eq_true.mp hg.fresh other hmem
    simp [heq] at this
  have hrow : ({ w with job := job } : CheckpointWorld).row.executionGeneration =
    own.executionGeneration := hgeneration
  -- the thread of the claim's generation: empty, or one that was continued quietly
  have hthread : ∀ e ∈ w.threads own.executionGeneration, e.superseded = false ∧ e.current := by
    intro e he
    obtain heq | hlt := Nat.eq_or_lt_of_le hle
    · rw [← heq] at he
      exact ⟨hw.added e he, (hquiet heq.symm).2 e he⟩
    · rw [hw.later _ hlt] at he
      cases he
  refine ⟨JobWorld.selectionsSound_step hw.selections hstep, ?_, ?_, ?_, ?_, ?_, ?_, ?_, hw.resumed⟩
  · change job.granted.Pairwise _
    rw [hg.granted]
    exact List.pairwise_cons.mpr ⟨hfresh, hw.tokens⟩
  · intro token htok
    refine ⟨own, by rw [hg.granted]; rfl, ?_⟩
    exact Option.some.inj (htoken.symm.trans htok)
  · intro other hmem
    rw [hrow]
    rw [hg.granted] at hmem
    obtain rfl | hmem := List.mem_cons.mp hmem
    · exact Nat.le_refl _
    · exact Nat.le_trans (hw.generations other hmem) hle
  · intro p hp
    obtain ⟨hmem, -⟩ := hw.pending p hp
    rw [hrow, hg.granted]
    refine ⟨List.mem_cons_of_mem _ hmem, fun heq => ?_⟩
    have hold := hw.generations _ hmem
    have hsame : own.executionGeneration = w.row.executionGeneration := by
      apply Nat.le_antisymm _ hle
      rw [← heq]
      exact hold
    exact absurd (heq.trans hsame) ((hquiet hsame).1 p hp)
  · intro g hg'
    rw [hrow] at hg'
    exact hw.later g (Nat.lt_of_le_of_lt hle hg')
  · intro e he
    rw [hrow] at he
    exact (hthread e he).1
  · intro _ _ e he
    rw [hrow] at he
    exact (hthread e he).2

/-- Any other step of the job keeps its owner or leaves it without one. -/
lemma Inv.jobStep (hw : Inv cfg w) {op : JobOp} {job : JobWorld} {ended : Bool}
    (hstep : JobWorld.step cfg w.job op = some job) (hgranted : job.granted = w.job.granted)
    (hrow : RowStep cfg.settings w.job.clock op w.job.row ended job.row) :
    Inv cfg { w with job := job } := by
  obtain ⟨htoken, hgeneration, -⟩ := hrow.holder
  have hsame : ({ w with job := job } : CheckpointWorld).row.executionGeneration =
    w.row.executionGeneration := hgeneration
  refine ⟨JobWorld.selectionsSound_step hw.selections hstep, ?_, ?_, ?_, ?_, ?_, ?_, ?_, hw.resumed⟩
  · change job.granted.Pairwise _
    rw [hgranted]
    exact hw.tokens
  · intro token htok
    change job.row.activeWorkerToken = some token at htok
    rw [hgranted]
    obtain htoken | htoken := htoken
    · exact hw.holder token (htoken.symm.trans htok)
    · rw [htoken] at htok
      cases htok
  · rw [hgranted, hsame]
    exact hw.generations
  · rw [hgranted, hsame]
    exact hw.pending
  · rw [hsame]
    exact hw.later
  · rw [hsame]
    exact hw.added
  · intro own hown
    rw [hsame]
    apply hw.owned own
    obtain ⟨hlive, hnames⟩ := isCurrentOwner_iff.mp hown
    obtain ⟨hgen, htok⟩ := names_iff.mp hnames
    refine isCurrentOwner_iff.mpr ⟨fun hterminal => ?_, names_iff.mpr ⟨?_, ?_⟩⟩
    · exact hlive (hrow.terminal_iff.2.mpr (.inl hterminal))
    · rw [← hsame]
      exact hgen
    · obtain htoken | htoken := htoken
      · exact htoken.symm.trans htok
      · exact absurd (htoken.symm.trans htok) (by simp)

/-- Writes on their way may be dropped or tried again. -/
lemma Inv.withPending (hw : Inv cfg w) {pending : List PendingCheckpoint}
    (hsub : ∀ q ∈ pending, ∃ p ∈ w.pending, q.own = p.own) :
    Inv cfg { w with pending := pending } := by
  refine ⟨hw.selections, hw.tokens, hw.holder, hw.generations, ?_, hw.later, hw.added, hw.owned,
    hw.resumed⟩
  intro q hq
  obtain ⟨p, hp, hown⟩ := hsub q hq
  rw [hown]
  exact hw.pending p hp

/-- An entry lands in an older thread, or in the present one as the latest claimant's. -/
lemma Inv.saved (hw : Inv cfg w) {p : PendingCheckpoint} (hp : p ∈ w.pending) :
    Inv cfg { w with threads := w.save p } := by
  obtain ⟨hmem, hlatest⟩ := hw.pending p hp
  have hle := hw.generations _ hmem
  have hentry : ∀ e ∈ w.save p w.row.executionGeneration,
      e ∈ w.threads w.row.executionGeneration ∨
        e = w.landed p ∧ w.row.executionGeneration = p.own.executionGeneration := by
    intro e he
    unfold save at he
    split at he
    · rename_i hsame
      exact (CheckpointThread.mem_upsert he).imp_right fun heq => ⟨heq, hsame⟩
    · exact .inl he
  refine ⟨hw.selections, hw.tokens, hw.holder, hw.generations, hw.pending, ?_, ?_, ?_, hw.resumed⟩
  · intro g hg
    have hne : g ≠ p.own.executionGeneration := Nat.ne_of_gt (Nat.lt_of_le_of_lt hle hg)
    change w.save p g = []
    rw [save, if_neg hne]
    exact hw.later g hg
  · intro e he
    obtain he | ⟨rfl, hsame⟩ := hentry e he
    · exact hw.added e he
    · simp [landed, hlatest hsame.symm]
  · intro own hown e he
    obtain he | ⟨rfl, hsame⟩ := hentry e he
    · exact hw.owned own hown e he
    · -- whoever owns the job now was granted the latest claim, and so was the writer
      obtain ⟨hlive, hnames⟩ := isCurrentOwner_iff.mp hown
      obtain ⟨latest, hhead, htoken⟩ := hw.holder _ (token_of_names hnames)
      obtain rfl := Option.some.inj (hhead.symm.trans (hlatest hsame.symm))
      refine isCurrentOwner_iff.mpr ⟨hlive, names_iff.mpr ⟨hsame, ?_⟩⟩
      rw [htoken]
      exact token_of_names hnames

lemma mem_of_position {thread : CheckpointThread} {position : CheckpointPosition}
    (h : thread.position = some position) :
    position.checkpoint ∈ thread ∧ ∀ e ∈ position.writes, e ∈ thread := by
  obtain ⟨e, he, rfl⟩ := Option.map_eq_some_iff.mp h
  exact ⟨CheckpointThread.mem_of_latest he, fun _ => List.mem_of_mem_filter⟩

/-- What an owner resumes from was written by owners. -/
lemma Inv.entered (hw : Inv cfg w) {materialized : Bool} {disposition : ThreadDisposition} :
    Inv cfg { w with
      resumptions := w.resumptions ++ [⟨own, isCurrentOwner (some w.row) own, disposition,
        resumedFrom next (w.threads own.executionGeneration) materialized⟩] } := by
  refine ⟨hw.selections, hw.tokens, hw.holder, hw.generations, hw.pending, hw.later, hw.added,
    hw.owned, ?_⟩
  intro r hr hcurrent position hposition
  obtain hr | hr := List.mem_append.mp hr
  · exact hw.resumed r hr hcurrent position hposition
  · obtain rfl := List.mem_singleton.mp hr
    have hthread : (w.threads own.executionGeneration).position = some position := by
      simp only [resumedFrom] at hposition
      split at hposition
      · cases hposition
      · exact hposition
    obtain ⟨hcheckpoint, hwrites⟩ := mem_of_position hthread
    have hgeneration := (names_iff.mp (isCurrentOwner_iff.mp hcurrent).2).1
    rw [← hgeneration] at hcheckpoint hwrites
    exact ⟨hw.owned own hcurrent _ hcheckpoint, fun e he => hw.owned own hcurrent e (hwrites e he)⟩

lemma inv_step {l : CheckpointStep} (hw : Inv cfg w) (hquiet : Quiet w l)
    (h : step cfg next w l = some w') : Inv cfg w' := by
  cases l with
  | job op =>
    obtain ⟨job, hstep, rfl⟩ := Option.map_eq_some_iff.mp h
    obtain ⟨own, hg⟩ | ⟨hgranted, author, -, hrow⟩ := JobWorld.step_cases hw.selections hstep
    · exact hw.granted hstep hg (hw.quiet_of_granted hstep hg hquiet)
    · exact hw.jobStep hstep hgranted hrow
  | assertOwner own entry =>
    simp only [step] at h
    split_ifs at h with hmem hown
    · obtain rfl := Option.some.inj h
      refine ⟨hw.selections, hw.tokens, hw.holder, hw.generations, ?_, hw.later, hw.added,
        hw.owned, hw.resumed⟩
      intro p hp
      obtain hp | hp := List.mem_append.mp hp
      · exact hw.pending p hp
      · obtain rfl := List.mem_singleton.mp hp
        exact ⟨hmem, fun _ => hw.head_of_owner hmem hown⟩
    · obtain rfl := Option.some.inj h
      exact hw
  | write i outcome =>
    obtain ⟨p, hp, rfl⟩ := Option.map_eq_some_iff.mp h
    have hmem := List.mem_of_getElem? hp
    have hsub : ∀ q ∈ w.pending.eraseIdx i ++ (p.after outcome).toList,
        ∃ p ∈ w.pending, q.own = p.own := by
      intro q hq
      obtain hq | hq := List.mem_append.mp hq
      · exact ⟨q, List.mem_of_mem_eraseIdx hq, rfl⟩
      · refine ⟨p, hmem, ?_⟩
        cases outcome <;> grind [PendingCheckpoint.after]
    by_cases hlands : outcome.lands
    · rw [if_pos hlands]
      exact (hw.saved hmem).withPending hsub
    · rw [if_neg hlands]
      exact hw.withPending hsub
  | enter own materialized =>
    simp only [step] at h
    split_ifs at h
    obtain rfl := Option.some.inj h
    exact hw.entered

/-- A run whose resumed claims are quiet never goes on from a superseded worker's checkpoint, in any
state it reaches. -/
theorem no_superseded_checkpoint (cfg : Config) (next : CheckpointPosition → List String)
    (id : JobId) (ownerId : String) (organizationId : Option Nat) (now : Int)
    (ls : List CheckpointStep)
    (hquiet : (machine cfg next).Meets Quiet (created id ownerId organizationId now) ls)
    (h : (machine cfg next).exec (created id ownerId organizationId now) ls = some w) :
    NoneSuperseded w := by
  have hw : Inv cfg w :=
    Transition.Machine.exec_invariant (fun _ _ _ hI hP hs => inv_step hI hP hs)
      (inv_created id ownerId organizationId now) hquiet h
  exact ⟨hw.added, hw.resumed⟩

/-- The ownership of the first claim, and of the claim after it. -/
def firstClaim : ExecutionOwnership := ⟨1, 1, "celery", some 21600000000, 1, 900⟩

/-- A worker asks for a checkpoint, its lease runs out, and a claim by `execution` comes before the
checkpoint lands; the new owner reads its thread. -/
def lateCheckpoint (execution : String) (second : ExecutionOwnership) : List CheckpointStep :=
  [.job (.claimExecution 1 "celery" (some "vm-1") true),
    .assertOwner firstClaim (.checkpoint 5 .loop), .job (.tick 900000000),
    .job (.claimExecution 2 "celery" (some execution) true), .write 0 .saved,
    .enter second false]

/-- Another execution takes over: the late checkpoint is in a thread that nobody reads. -/
theorem no_superseded_checkpoint_takeover :
    ∃ w, (machine .default fun _ => ["builder"]).exec (created 7 "ada" none 0)
        (lateCheckpoint "vm-2" ⟨2, 2, "celery", some 21600000000, 2, 900⟩) = some w ∧
      (w.threads 1).length = 1 ∧ NoneSuperseded w := by
  have hquiet : (machine .default fun _ => ["builder"]).Meets Quiet (created 7 "ada" none 0)
      (lateCheckpoint "vm-2" ⟨2, 2, "celery", some 21600000000, 2, 900⟩) := by
    decide +kernel
  exact ⟨_, rfl, rfl, no_superseded_checkpoint .default _ 7 "ada" none 0 _ hquiet rfl⟩

/-- The same execution restarts: its new owner resumes from the checkpoint of the superseded worker. -/
theorem superseded_checkpoint_resumed :
    ¬ ∀ (cfg : Config) (next : CheckpointPosition → List String) (id : JobId) (ownerId : String)
      (organizationId : Option Nat) (now : Int) (ls : List CheckpointStep) (w : CheckpointWorld),
      (machine cfg next).exec (created id ownerId organizationId now) ls = some w →
        NoneSuperseded w := by
  intro h
  obtain ⟨w, hw, hthread⟩ : ∃ w, (machine .default fun _ => ["builder"]).exec
      (created 7 "ada" none 0)
      (lateCheckpoint "vm-1" ⟨1, 2, "celery", some 21600000000, 2, 900⟩) = some w ∧
        (w.threads w.row.executionGeneration).map (·.superseded) = [true] := ⟨_, rfl, rfl⟩
  have hadded := (h _ _ _ _ _ _ _ w hw).added
  have hnone : (w.threads w.row.executionGeneration).map (·.superseded) ⊆ [false] := by
    intro s hs
    obtain ⟨e, he, rfl⟩ := List.mem_map.mp hs
    simp [hadded e he]
  rw [hthread] at hnone
  simp at hnone

end CheckpointWorld

end MeshPipeline
