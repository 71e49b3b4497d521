import MeshPipeline.AgentLoop.Runner

/-!
# One loop, one account

What a run leaves behind: at most one record, which counts what was answered and run, a breadcrumb in its
place when ownership was lost, and nothing when it was cancelled. Every question to the provider stands
after the results of all calls before it.
-/

namespace MeshPipeline.AgentLoop

open Effect

variable {σ V α : Type}

/-! ## What a log holds -/

def records (log : List (Event V)) : List (AgentRunRecord V) :=
  log.filterMap fun
    | .record r => some r
    | _ => none

def crumbs (log : List (Event V)) : List LoopTally :=
  log.filterMap fun
    | .superseded t => some t
    | _ => none

/-- The provider calls that answered. -/
def answers (log : List (Event V)) : List ModelRoundResult :=
  log.filterMap fun
    | .answered r => some r
    | _ => none

/-- The tool calls that ran to an end. -/
def ran (log : List (Event V)) : List String :=
  log.filterMap fun
    | .ran tool => some tool
    | _ => none

@[simp]
lemma records_append (log es : List (Event V)) : records (log ++ es) = records log ++ records es :=
  List.filterMap_append

@[simp]
lemma crumbs_append (log es : List (Event V)) : crumbs (log ++ es) = crumbs log ++ crumbs es :=
  List.filterMap_append

@[simp]
lemma answers_append (log es : List (Event V)) : answers (log ++ es) = answers log ++ answers es :=
  List.filterMap_append

@[simp]
lemma ran_append (log es : List (Event V)) : ran (log ++ es) = ran log ++ ran es :=
  List.filterMap_append

@[simp]
lemma ran_ran (tool : String) : ran [(.ran tool : Event V)] = [tool] := rfl

/-- An exception that is the cancellation of the run, or hides it. -/
def Cancels (e : Exc) : Prop := e.kind = .cancelled ∨ e.cancelling = true

/-- An exception by which the run learns that it is no longer the owner. -/
def Loses (w : World σ V) (e : Exc) : Prop :=
  ¬ Cancels e ∧ (e.kind.isFence = true ∨ w.isSupersession e = true)

/-- The record counts what the log holds. -/
structure Counts (w : World σ V) (log : List (Event V)) (r : AgentRunRecord V) : Prop where
  rounds : r.tally.rounds = (answers log).length ∧ r.rounds.length = (answers log).length
  toolCalls : r.tally.toolCalls = (ran log).length ∧ r.toolCalls.length = (ran log).length
  byCategory : ∀ c, (r.tally.callsByCategory.lookup c).getD 0 = (ran log).countP (w.categoryOf · = c)

/-- What a run of at most `fuel` rounds leaves behind. -/
structure OneAccount (w : World σ V) (s : RunSettings) (fuel : ℕ)
    (out : Except Raised (Option (LoopResult V))) (log : List (Event V)) : Prop where
  bounded : ∀ m, s.limits.maxRounds = some m → (answers log).length ≤ m
  ends : ∀ m, s.limits.maxRounds = some m → m < fuel → out ≠ .ok none
  sent : ∀ messages, .asked messages ∈ log → Settled messages
  returned : ∀ r, out = .ok (some r) → records log = [r.record] ∧ crumbs log = []
  failed : ∀ r, out = .error r → r.step = .execute ∨ r.step = .closeOut → ¬ Cancels r.exc →
    ¬ Loses w r.exc → (records log).length = 1 ∧ crumbs log = []
  cancelled : (∃ r, .broke r ∈ log ∧ Cancels r.exc) → records log = [] ∧ crumbs log = []
  lost : (∃ r, .broke r ∈ log ∧ Loses w r.exc) → (∀ r, .broke r ∈ log → ¬ Cancels r.exc) →
    records log = [] ∧ (crumbs log).length = 1
  counts : ∀ r ∈ records log, Counts w log r

/-! ## The steps that keep the account -/

/-- An exception that is never taken for an answer at the place where it is raised. -/
def Propagates (s : RunSettings) (r : Raised) : Prop :=
  match r.step with
  | .trace => r.exc.kind.isException = false ∨ s.executionTrace = true ∧ r.exc.kind = .stalePublish
  | .provider => r.exc.kind.isException = false ∨ r.exc.kind.isFence = true
  | _ => True

/-- A step after which the run can be accounted for: the driver's hook leaves no call unanswered, no tool
call times out of a lost or cancelled run, only tool calls and close-outs lose ownership and the driver knows
it, and no other exception hides a cancellation where it is swallowed. -/
def Meets (w : World σ V) (s : RunSettings) : Event V → Prop
  | .prepared was is => Settled was → Settled is
  | .broke r =>
    match r.step with
    | .execute => (r.exc.kind = .timeout → ¬ Cancels r.exc ∧ ¬ Loses w r.exc) ∧
        (Loses w r.exc → w.isSupersession r.exc = true)
    | .closeOut => Loses w r.exc → w.isSupersession r.exc = true
    | _ => ¬ Loses w r.exc ∧ (Cancels r.exc → Propagates s r)
  | _ => True

def AllMeet (w : World σ V) (s : RunSettings) (log : List (Event V)) : Prop := ∀ e ∈ log, Meets w s e

variable {w : World σ V} {s : RunSettings} {log : List (Event V)}

lemma AllMeet.of_append {es : List (Event V)} (h : AllMeet w s (log ++ es)) : AllMeet w s log :=
  fun e he => h e (List.mem_append_left es he)

/-- What holds of a run that goes on; `last` is an exception that is still to be dealt with. -/
structure Going (w : World σ V) (s : RunSettings) (last : Option Raised) (acct : AgentRunAccountant)
    (log : List (Event V)) : Prop where
  rounds : acct.rounds.length = (answers log).length
  bounded : ∀ m, s.limits.maxRounds = some m → acct.rounds.length ≤ m
  calls : acct.toolCalls.length = (ran log).length
  categories : ∀ c, acct.count c = (ran log).countP (w.categoryOf · = c)
  keys : (acct.byCategory.map (·.1)).Nodup
  records : records log = []
  crumbs : crumbs log = []
  sent : ∀ messages, .asked messages ∈ log → Settled messages
  sound : ∀ r, .broke r ∈ log → some r = last ∨ ¬ Cancels r.exc ∧ ¬ Loses w r.exc

/-- A run that goes on, with so many rounds and such a debt. -/
def Alive (w : World σ V) (s : RunSettings) (last : Option Raised) (C : ℕ → Debt → Prop)
    (st : Run σ V) : Prop :=
  AllMeet w s st.log →
    Going w s last st.acct st.log ∧ C st.acct.rounds.length (Debt.of st.messages)

/-- A run in which a step has just raised. -/
def Stuck (w : World σ V) (s : RunSettings) (step : Step) (C : ℕ → Debt → Prop) (r : Raised)
    (st : Run σ V) : Prop :=
  r.step = step ∧ .broke r ∈ st.log ∧ Alive w s (some r) C st

/-- What holds of a run however it ended. -/
structure Over (w : World σ V) (s : RunSettings) (log : List (Event V)) : Prop where
  bounded : ∀ m, s.limits.maxRounds = some m → (answers log).length ≤ m
  sent : ∀ messages, .asked messages ∈ log → Settled messages

/-- No exception of a run was its cancellation or the loss of its ownership. -/
def Sound (w : World σ V) (log : List (Event V)) : Prop :=
  ∀ r, .broke r ∈ log → ¬ Cancels r.exc ∧ ¬ Loses w r.exc

/-- A run that made its record. -/
structure Recorded (w : World σ V) (s : RunSettings) (record : AgentRunRecord V)
    (log : List (Event V)) : Prop extends Over w s log where
  records : records log = [record]
  crumbs : crumbs log = []
  sound : Sound w log
  counts : Counts w log record

def Returned (w : World σ V) (s : RunSettings) (result : LoopResult V) (st : Run σ V) : Prop :=
  AllMeet w s st.log → Recorded w s result.record st.log

/-- A run that ended without a record and without losing its ownership. -/
structure Silent (w : World σ V) (s : RunSettings) (r : Raised) (log : List (Event V)) : Prop
    extends Over w s log where
  records : records log = []
  crumbs : crumbs log = []
  kept : ∀ r', .broke r' ∈ log → ¬ Loses w r'.exc
  cancelled : r.step = .execute ∨ r.step = .closeOut → Cancels r.exc

/-- A run that ended because it lost its ownership. -/
structure Superseded (w : World σ V) (s : RunSettings) (r : Raised) (log : List (Event V)) : Prop
    extends Over w s log where
  records : records log = []
  crumbs : (crumbs log).length = 1
  going : ∀ r', .broke r' ∈ log → ¬ Cancels r'.exc
  lost : Loses w r.exc

/-- A run that ended with an exception. -/
def Ended (w : World σ V) (s : RunSettings) (r : Raised) (st : Run σ V) : Prop :=
  AllMeet w s st.log →
    Silent w s r st.log ∨ Superseded w s r st.log ∨ ∃ record, Recorded w s record st.log

/-! ## Questions -/

variable {C C' : ℕ → Debt → Prop} {st : Run σ V} {r : Raised} {step : Step}

lemma Going.over {last : Option Raised} {acct : AgentRunAccountant} (h : Going w s last acct log) :
    Over w s log where
  bounded m hm := h.rounds ▸ h.bounded m hm
  sent := h.sent

/-- An event that is neither an answer, a call that ran nor an account changes no count. -/
lemma Going.noted {last last' : Option Raised} {acct : AgentRunAccountant} {e : Event V}
    (h : Going w s last acct log) (hanswers : answers [e] = []) (hran : ran [e] = [])
    (hrecords : MeshPipeline.AgentLoop.records [e] = []) (hcrumbs : MeshPipeline.AgentLoop.crumbs [e] = [])
    (hsent : ∀ messages, e = .asked messages → Settled messages)
    (hsound : ∀ r, .broke r ∈ log ++ [e] → some r = last' ∨ ¬ Cancels r.exc ∧ ¬ Loses w r.exc) :
    Going w s last' acct (log ++ [e]) where
  rounds := by simpa [hanswers] using h.rounds
  bounded := h.bounded
  calls := by simpa [hran] using h.calls
  categories := by simpa [hran] using h.categories
  keys := h.keys
  records := by simpa [hrecords] using h.records
  crumbs := by simpa [hcrumbs] using h.crumbs
  sent messages hmem := by
    obtain hmem | hmem := List.mem_append.mp hmem
    · exact h.sent messages hmem
    · exact hsent messages (List.mem_singleton.mp hmem).symm
  sound := hsound

lemma Alive.weaken {last : Option Raised} (h : Alive w s last C st) (hC : ∀ n d, C n d → C' n d) :
    Alive w s last C' st := fun hmeet =>
  ⟨(h hmeet).1, hC _ _ (h hmeet).2⟩

/-- An exception that neither cancels nor loses the run is dealt with. -/
lemma Stuck.alive (h : Stuck w s step C r st)
    (hsound : Meets w s (.broke r) → ¬ Cancels r.exc ∧ ¬ Loses w r.exc) : Alive w s none C st := by
  intro hmeet
  obtain ⟨-, hmem, halive⟩ := h
  obtain ⟨hgoing, hC⟩ := halive hmeet
  refine ⟨{ hgoing with sound := fun r' hr' => .inr ?_ }, hC⟩
  obtain heq | hsound' := hgoing.sound r' hr'
  · obtain rfl : r' = r := Option.some.inj heq
    exact hsound (hmeet _ hmem)
  · exact hsound'

/-- An exception that is passed on and loses nothing ends the run in silence. -/
lemma Stuck.silent (h : Stuck w s step C r st) {e : Raised} (hkept : Meets w s (.broke r) → ¬ Loses w r.exc)
    (hcancelled : e.step = .execute ∨ e.step = .closeOut → Cancels e.exc) : Ended w s e st := by
  intro hmeet
  obtain ⟨-, hmem, halive⟩ := h
  obtain ⟨hgoing, -⟩ := halive hmeet
  refine .inl { hgoing.over with records := hgoing.records, crumbs := hgoing.crumbs, kept := ?_, cancelled := hcancelled }
  intro r' hr'
  obtain heq | hsound := hgoing.sound r' hr'
  · obtain rfl : r' = r := Option.some.inj heq
    exact hkept (hmeet _ hmem)
  · exact hsound.2

lemma ask_holds (step : Step) (m : Effect σ Exc α) :
    Holds (Alive w s none C) (ask step m) (fun _ => Alive w s none C) (Stuck w s step C) := by
  intro st halive
  unfold ask
  cases hm : m st.world with
  | mk x world =>
    cases x with
    | ok a => exact halive
    | error e =>
      refine ⟨rfl, by simp, fun hmeet => ?_⟩
      obtain ⟨hgoing, hC⟩ := halive hmeet.of_append
      refine ⟨hgoing.noted rfl rfl rfl rfl nofun fun r hr => ?_, hC⟩
      obtain hr | hr := List.mem_append.mp hr
      · exact .inr ((hgoing.sound r hr).resolve_left (by simp))
      · left
        simpa using hr

lemma hook_holds (m : Effect σ Exc α) :
    Holds (Alive w s none C) (ask .hook m) (fun _ => Alive w s none C) (Ended w s) :=
  (ask_holds .hook m).weaken (fun _ => id) (fun _ _ => id) fun r _ h => by
    have hstep := h.1
    refine h.silent (fun hmeet => ?_) (by simp [hstep])
    simp only [Meets, hstep] at hmeet
    exact hmeet.1

/-- The outcome of a question, a failure included. -/
lemma attempt_ask_holds (step : Step) (m : Effect σ Exc α) {R : Raised → Run σ V → Prop} :
    Holds (Alive w s none C) (attempt (ask step m))
      (fun x st => match x with
        | .ok _ => Alive w s none C st
        | .error r => Stuck w s step C r st) R :=
  Holds.attempt (ask_holds step m)

lemma publish_holds (p : Publication V) :
    Holds (Alive w s none C) (publish w s p) (fun _ => Alive w s none C) (Stuck w s .trace C) := by
  unfold publish
  refine Holds.bind (attempt_ask_holds .trace (w.publish p)) fun x => ?_
  cases x with
  | ok _ => exact Holds.pure true fun _ => id
  | error r =>
    refine Holds.ite (fun hswallow => Holds.pure false fun st h => ?_) fun _ => Holds.fail r fun _ => id
    refine h.alive fun hmeet => ?_
    have hstep := h.1
    simp only [Meets, Propagates, hstep] at hmeet
    refine ⟨fun hcancels => ?_, hmeet.1⟩
    have hstale : r.exc.kind = .stalePublish → r.exc.kind.isEventStream = true := fun h => by
      rw [h]
      rfl
    grind

lemma Stuck.ended_trace (h : Stuck w s .trace C r st) : Ended w s r st := by
  have hstep := h.1
  refine h.silent (fun hmeet => ?_) (by simp [hstep])
  simp only [Meets, hstep] at hmeet
  exact hmeet.1

/-- What a trace raises and the loop swallows is dealt with. -/
lemma Stuck.swallowed_trace (h : Stuck w s .trace C r st) (hkind : r.exc.kind.isException = true)
    (hfence : r.exc.kind.isFence = false) : Alive w s none C st := by
  refine h.alive fun hmeet => ?_
  have hstep := h.1
  simp only [Meets, Propagates, hstep] at hmeet
  refine ⟨fun hcancels => ?_, hmeet.1⟩
  have hstale : r.exc.kind = .stalePublish → r.exc.kind.isFence = true := fun h => by
    rw [h]
    rfl
  grind

lemma Stuck.ended_provider (h : Stuck w s .provider C r st) : Ended w s r st := by
  have hstep := h.1
  refine h.silent (fun hmeet => ?_) (by simp [hstep])
  simp only [Meets, hstep] at hmeet
  exact hmeet.1

/-- What a provider call raises and the loop swallows is dealt with. -/
lemma Stuck.swallowed_provider (h : Stuck w s .provider C r st) (hkind : r.exc.kind.isException = true)
    (hfence : r.exc.kind.isFence = false) : Alive w s none C st := by
  refine h.alive fun hmeet => ?_
  have hstep := h.1
  simp only [Meets, Propagates, hstep] at hmeet
  refine ⟨fun hcancels => ?_, hmeet.1⟩
  grind

lemma published (p : Publication V) :
    Holds (Alive w s none C) (publish w s p) (fun _ => Alive w s none C) (Ended w s) :=
  (publish_holds p).weaken (fun _ => id) (fun _ _ => id) fun _ _ => Stuck.ended_trace

lemma roundEnded_holds (rid : Bool) (result : Option ModelRoundResult) (phase : String) :
    Holds (Alive w s none C) (roundEnded w s rid result phase) (fun _ => Alive w s none C)
      (Stuck w s .trace C) :=
  Holds.ite (fun _ => publish_holds _) fun _ => Holds.pure false fun _ => id

/-! ## Records -/

lemma Returned.ended {result : LoopResult V} (h : Returned w s result st) (r : Raised) : Ended w s r st :=
  fun hmeet => .inr (.inr ⟨_, h hmeet⟩)

lemma finish_holds (exit : LoopExit) (payload : Option V) (failure : String) :
    Holds (Alive w s none C) (finish w s exit payload failure) (Returned w s) (Ended w s) := by
  unfold finish
  refine Holds.bind (hook_holds w.extension) fun extension => ?_
  refine Holds.bind (Holds.read _ (Q := fun record st =>
    record = st.acct.report s exit extension failure ∧ Alive w s none C st) fun st h => ⟨rfl, h⟩) fun record => ?_
  refine Holds.bind (Holds.change _ (Q := fun _ => Returned w s ⟨exit, record, payload, failure⟩) ?_) fun _ =>
    Holds.pure _ fun _ => id
  rintro st ⟨rfl, halive⟩ hmeet
  obtain ⟨hgoing, -⟩ := halive hmeet.of_append
  refine { bounded := ?_, sent := ?_, records := ?_, crumbs := ?_, sound := ?_, counts := ?_ }
  · simpa [answers] using hgoing.over.bounded
  · simpa using hgoing.sent
  · simpa [records] using hgoing.records
  · simpa [crumbs] using hgoing.crumbs
  · intro r hr
    exact (hgoing.sound r (by simpa using hr)).resolve_left (by simp)
  · constructor
    · simp [AgentRunAccountant.report, AgentRunAccountant.tally, hgoing.rounds, answers]
    · simp [AgentRunAccountant.report, AgentRunAccountant.tally, hgoing.calls, ran]
    · intro c
      have hlookup := AgentRunAccountant.lookup_callsByCategory hgoing.keys c
      simpa [AgentRunAccountant.report, ran] using hlookup.trans (hgoing.categories c)

lemma exhausted_holds (exit : LoopExit) :
    Holds (Alive w s none C) (exhausted w s exit) (Returned w s) (Ended w s) :=
  Holds.bind (hook_holds (w.marker exit)) fun failure => finish_holds exit none failure

/-- What a result that ends the run satisfies, and a turn after which the run goes on. -/
def Next (w : World σ V) (s : RunSettings) (C : ℕ → Debt → Prop) :
    Option (LoopResult V) → Run σ V → Prop
  | some result, st => Returned w s result st
  | none, st => Alive w s none C st

lemma ends_with {m : Loop σ V (LoopResult V)} {P : Run σ V → Prop}
    (h : Holds P m (Returned w s) (Ended w s)) : Holds P (some <$> m) (Next w s C) (Ended w s) :=
  Holds.bind h fun result => Holds.pure (some result) fun _ => id

lemma account_holds {f : AgentRunAccountant → AgentRunAccountant}
    (hrounds : ∀ a, (f a).rounds = a.rounds) (hcalls : ∀ a, (f a).toolCalls = a.toolCalls)
    (hcategory : ∀ a, (f a).byCategory = a.byCategory) :
    Holds (Alive w s none C) (account f) (fun _ => Alive w s none C) (Ended w s) := by
  refine Holds.change _ fun st halive hmeet => ?_
  obtain ⟨hgoing, hC⟩ := halive hmeet
  refine ⟨?_, by rwa [hrounds]⟩
  refine { hgoing with rounds := ?_, bounded := ?_, calls := ?_, categories := ?_, keys := ?_ }
  · rw [hrounds, hgoing.rounds]
  · rw [hrounds]
    exact hgoing.bounded
  · rw [hcalls, hgoing.calls]
  · simpa [AgentRunAccountant.count, hcategory] using hgoing.categories
  · rw [hcategory]
    exact hgoing.keys

lemma terminated_holds (payload : Option V) :
    Holds (Alive w s none C) (terminated w s payload) (Returned w s) (Ended w s) :=
  Holds.bind (account_holds (fun _ => rfl) (fun _ => rfl) fun _ => rfl) fun _ => finish_holds _ _ _

/-- An executor failure leaves its record. -/
lemma executorFailed_holds (r : Raised) {Q : α → Run σ V → Prop} :
    Holds (Alive w s none C) (executorFailed w s r) Q (Ended w s) :=
  Holds.bind (exhausted_holds .executorFailed) fun _ => Holds.fail r fun _ h => h.ended r

/-- A loss of ownership that the driver knows leaves its breadcrumb. -/
lemma supersededBy_holds (r : Raised) {Q : α → Run σ V → Prop} :
    Holds (fun st => Stuck w s step C r st ∧ Loses w r.exc) (supersededBy r) Q (Ended w s) := by
  refine Holds.bind (Holds.read _ (Q := fun _ st => Stuck w s step C r st ∧ Loses w r.exc) fun _ => id)
    fun t => ?_
  refine Holds.bind (Holds.change _ (Q := fun _ => Ended w s r) ?_) fun _ => Holds.fail r fun _ => id
  rintro st ⟨⟨-, -, halive⟩, hlost⟩ hmeet
  obtain ⟨hgoing, -⟩ := halive hmeet.of_append
  refine .inr (.inl { bounded := ?_, sent := ?_, records := ?_, crumbs := ?_, going := ?_, lost := hlost })
  · simpa [answers] using hgoing.over.bounded
  · simpa using hgoing.sent
  · simpa [records] using hgoing.records
  · have hcrumbs := hgoing.crumbs
    simp_all [crumbs]
  · intro r' hr'
    obtain heq | hsound := hgoing.sound r' (by simpa using hr')
    · obtain rfl : r' = r := Option.some.inj heq
      exact hlost.1
    · exact hsound.1

/-! ## Tool calls -/

/-- Where the run stands: so many rounds, and a debt of these calls. -/
def At (n : ℕ) (ids : List String) : ℕ → Debt → Prop := fun k d => k = n ∧ d = .owes ids

/-- Where the run stands between two rounds. -/
def Settling (n : ℕ) : ℕ → Debt → Prop := fun k d => k = n ∧ d.isPaid = true

/-- Where the run stands when it may start another round. -/
def Ready (s : RunSettings) (n : ℕ) : ℕ → Debt → Prop := fun k d =>
  k = n ∧ d.isPaid = true ∧ ∀ m, s.limits.maxRounds = some m → n < m

lemma tally_holds : Holds (Alive w s none C) tally (fun _ => Alive w s none C) (Ended w s) :=
  Holds.read _ fun _ => id

lemma expired_holds : Holds (Alive w s none C) (expired w) (fun _ => Alive w s none C) (Ended w s) :=
  fun _ => id

lemma append_holds (ms : List (Message V)) {D : ℕ → Debt → Prop}
    (hC : ∀ n d, C n d → D n (ms.foldl Debt.after d)) :
    Holds (Alive w s none C) (append ms) (fun _ => Alive w s none D) (Ended w s) := by
  refine Holds.change _ fun st halive hmeet => ?_
  obtain ⟨hgoing, hdebt⟩ := halive hmeet
  refine ⟨hgoing, ?_⟩
  simpa using hC _ _ hdebt

lemma nudge_holds (text : Option String) :
    Holds (Alive w s none C) (nudge text) (fun _ => Alive w s none C) (Ended w s) := by
  refine append_holds _ fun n d hd => ?_
  cases text with
  | none => exact hd
  | some text =>
    dsimp only
    split
    · exact hd
    · exact hd

lemma countCall_holds (inv : ToolInvocation V) (accepted : Bool) :
    Holds (Alive w s none C) (countCall w inv accepted) (fun _ => Alive w s none C) (Ended w s) := by
  intro st halive
  have hrun : countCall w inv accepted st = (.ok (), { st with
      log := st.log ++ [.ran inv.tool]
      acct := st.acct.recordToolCall inv (w.categoryOf inv.tool) accepted }) := rfl
  rw [hrun]
  intro hmeet
  obtain ⟨hgoing, hC⟩ := halive hmeet.of_append
  refine ⟨?_, hC⟩
  constructor
  · simpa [answers] using hgoing.rounds
  · exact hgoing.bounded
  · simpa using hgoing.calls
  · intro c
    simp [AgentRunAccountant.count_recordToolCall, List.countP_cons, hgoing.categories c]
  · exact AgentRunAccountant.nodup_recordToolCall hgoing.keys
  · simpa [records] using hgoing.records
  · simpa [crumbs] using hgoing.crumbs
  · simpa using hgoing.sent
  · simpa using hgoing.sound

/-- What a tool call leaves: an exception still to be classified, an end, or one call less to answer. -/
def CallLeaves (w : World σ V) (s : RunSettings) (n : ℕ) (ids : List String) (o : CallOutcome V)
    (st : Run σ V) : Prop :=
  if o.timedOut then Alive w s none (fun _ _ => True) st
  else
    match o.raised with
    | some r =>
      if o.superseded then Stuck w s .execute (fun _ _ => True) r st ∧ Loses w r.exc
      else Alive w s none (fun _ _ => True) st
    | none => Alive w s none (At n ids) st

lemma runCall_holds (call : ToolCallRequest) (roundIndex n : ℕ) (ids : List String) :
    Holds (Alive w s none (At n (call.id :: ids))) (runCall w s call roundIndex)
      (CallLeaves w s n ids) (Ended w s) := by
  unfold runCall
  refine Holds.bind tally_holds fun t => ?_
  refine Holds.bind (published _) fun _ => ?_
  refine Holds.bind (attempt_ask_holds .execute _) fun x => ?_
  cases x with
  | ok outcome =>
    refine Holds.bind (countCall_holds _ _) fun _ => ?_
    refine Holds.bind (published _) fun _ => ?_
    refine Holds.bind (append_holds (D := At n ids) _ ?_) fun _ => Holds.pure _ fun _ => id
    rintro k d ⟨rfl, rfl⟩
    exact ⟨rfl, Debt.foldl_write w.results call.id ids outcome.content⟩
  | error r =>
    -- a failure that is neither cancellation nor loss is counted and published as one
    have hcounted (o : CallOutcome V)
        (ho : ∀ st, Alive w s none (At n (call.id :: ids)) st → CallLeaves w s n ids o st)
        (inv : ToolInvocation V) :
        Holds (Alive w s none (At n (call.id :: ids)))
          (do
            countCall w inv false
            let _ ← publish w s (.toolResult inv call.id none "failure")
            pure o) (CallLeaves w s n ids) (Ended w s) :=
      Holds.bind (countCall_holds _ _) fun _ => Holds.bind (published _) fun _ => Holds.pure o ho
    refine Holds.ite (fun hkind => Holds.fail r fun st h => ?_) fun hkind => ?_
    · refine h.silent (fun _ hlost => hlost.1 (.inl hkind)) fun _ => .inl hkind
    refine Holds.ite (fun htimeout => ?_) fun htimeout => ?_
    · refine (hcounted .timeout (fun st h => h.weaken fun _ _ _ => trivial) _).pre fun st h => h.alive fun hmeet => ?_
      have hstep := h.1
      simp only [Meets, hstep] at hmeet
      exact hmeet.1 htimeout
    refine Holds.ite (fun hmask => Holds.fail _ fun st h => ?_) fun hmask => ?_
    · exact h.silent (fun _ hlost => hlost.1 (.inr hmask)) fun _ => .inl rfl
    have hgoing : ¬ Cancels r.exc := by simp [Cancels, hkind, hmask]
    refine Holds.ite (fun hlost => Holds.pure _ fun st h => ?_) fun hlost => ?_
    · exact ⟨⟨h.1, h.2.1, fun hmeet => ⟨(h.2.2 hmeet).1, trivial⟩⟩, hgoing, .inr hlost⟩
    · refine (hcounted (.broke r false) (fun st h => h.weaken fun _ _ _ => trivial) _).pre fun st h => h.alive fun hmeet => ?_
      have hstep := h.1
      simp only [Meets, hstep] at hmeet
      exact ⟨hgoing, fun h => hlost (hmeet.2 h)⟩

lemma runCalls_holds (roundIndex n : ℕ) (calls : List ToolCallRequest) :
    Holds (Alive w s none (At n (calls.map (·.id)))) (runCalls w s roundIndex calls)
      (Next w s (At n [])) (Ended w s) := by
  induction calls with
  | nil => exact Holds.pure none fun _ => id
  | cons call calls ih =>
    unfold runCalls
    refine Holds.bind expired_holds fun late => ?_
    refine Holds.ite (fun _ => ends_with (exhausted_holds _)) fun _ => ?_
    refine Holds.bind (runCall_holds call roundIndex n (calls.map (·.id))) fun o => ?_
    unfold CallLeaves
    refine Holds.ite (fun htime => ?_) fun htime => ?_
    · simp only [htime, if_true]
      exact ends_with (exhausted_holds _)
    · simp only [htime, Bool.false_eq_true, if_false]
      cases o.raised with
      | some r =>
        refine Holds.ite (fun hsup => ?_) fun hsup => ?_
        · simp only [hsup, if_true]
          exact supersededBy_holds r
        · simp only [hsup, Bool.false_eq_true, if_false]
          exact executorFailed_holds r
      | none =>
        refine Holds.ite (fun _ => ends_with (terminated_holds _)) fun _ => ?_
        exact Holds.ite (fun _ => ends_with (finish_holds _ _ _)) fun _ => ih

/-! ## A round -/

lemma closeOut_holds : Holds (Alive w s none C) (closeOut w s) (fun _ => Alive w s none C) (Ended w s) := by
  unfold closeOut
  refine Holds.bind tally_holds fun t => ?_
  refine Holds.bind (attempt_ask_holds .closeOut _) fun x => ?_
  cases x with
  | ok closing => exact Holds.pure closing fun _ => id
  | error r =>
    refine Holds.ite (fun hkind => Holds.fail r fun st h => ?_) fun hkind => ?_
    · exact h.silent (fun _ hlost => hlost.1 (.inl hkind)) fun _ => .inl hkind
    refine Holds.ite (fun hmask => Holds.fail _ fun st h => ?_) fun hmask => ?_
    · exact h.silent (fun _ hlost => hlost.1 (.inr hmask)) fun _ => .inl rfl
    have hgoing : ¬ Cancels r.exc := by simp [Cancels, hkind, hmask]
    refine Holds.ite (fun hlost => ?_) fun hlost => ?_
    · exact (supersededBy_holds r).pre fun st h => ⟨h, hgoing, .inr hlost⟩
    · refine (executorFailed_holds r).pre fun st h => h.alive fun hmeet => ?_
      have hstep := h.1
      simp only [Meets, hstep] at hmeet
      exact ⟨hgoing, fun h => hlost (hmeet h)⟩

lemma progress_holds : Holds (Alive w s none C) (progress w s) (Next w s C) (Ended w s) := by
  unfold progress
  refine Holds.bind tally_holds fun before => ?_
  refine Holds.bind (hook_holds _) fun observation => ?_
  refine Holds.bind (account_holds (fun _ => AgentRunAccountant.rounds_recordProgress observation)
    (fun _ => AgentRunAccountant.toolCalls_recordProgress observation)
    fun _ => AgentRunAccountant.byCategory_recordProgress observation) fun _ => ?_
  refine Holds.bind tally_holds fun t => ?_
  refine Holds.ite (fun _ => ?_) fun _ => ?_
  · refine Holds.bind (hook_holds _) fun text => ?_
    exact Holds.bind (nudge_holds text) fun _ => ends_with (exhausted_holds _)
  · refine Holds.bind (hook_holds _) fun text => ?_
    exact Holds.bind (nudge_holds text) fun _ => Holds.pure none fun _ => id

lemma plaintext_holds : Holds (Alive w s none C) (plaintext w s) (Next w s C) (Ended w s) := by
  unfold plaintext
  refine Holds.bind tally_holds fun t => ?_
  refine Holds.bind (hook_holds _) fun decision => ?_
  refine Holds.ite (fun _ => ends_with (finish_holds _ _ _)) fun _ => ?_
  exact Holds.bind (nudge_holds _) fun _ => Holds.pure none fun _ => id

lemma Next.weaken {out : Option (LoopResult V)} (h : Next w s C out st) (hC : ∀ n d, C n d → C' n d) :
    Next w s C' out st := by
  cases out with
  | none => exact Alive.weaken h hC
  | some result => exact h

lemma afterAnswer_holds (result : ModelRoundResult) (n : ℕ) :
    Holds (Alive w s none (Settling n)) (afterAnswer w s result) (Next w s (Settling n)) (Ended w s) := by
  have hpaid : ∀ k d, At n [] k d → Settling n k d := by
    rintro k d ⟨rfl, rfl⟩
    exact ⟨rfl, rfl⟩
  unfold afterAnswer
  refine Holds.bind (append_holds (D := At n (result.toolCalls.map (·.id))) _ ?_) fun _ => ?_
  · rintro k d ⟨rfl, hd⟩
    exact ⟨rfl, Debt.after_turn hd result⟩
  refine Holds.bind (hook_holds _) fun _ => ?_
  refine Holds.bind (hook_holds _) fun _ => ?_
  refine Holds.ite (fun hcalls => ?_) fun hcalls => ?_
  · rw [hcalls]
    exact plaintext_holds.post fun out st h => h.weaken hpaid
  · refine Holds.bind tally_holds fun t => ?_
    refine Holds.bind (runCalls_holds t.rounds n result.toolCalls) fun out => ?_
    cases out with
    | some ended => exact Holds.pure _ fun _ => id
    | none =>
      refine Holds.bind closeOut_holds fun closing => ?_
      cases closing.filter (·.terminal) with
      | some outcome => exact ends_with (terminated_holds _)
      | none => exact progress_holds.post fun out st h => h.weaken hpaid

/-- A hook before a round keeps the conversation settled. -/
lemma beforeRound_holds (n : ℕ) :
    Holds (Alive w s none (Ready s n)) (beforeRound w) (fun _ => Alive w s none (Ready s n))
      (Ended w s) := by
  unfold beforeRound
  refine Holds.bind tally_holds fun t => ?_
  -- what is remembered of the conversation while the hook runs is its debt
  refine Holds.bind (Holds.read _ (Q := fun messages =>
    Alive w s none fun k d => Ready s n k d ∧ d = Debt.of messages) ?_) fun messages => ?_
  · intro st halive hmeet
    obtain ⟨hgoing, hready⟩ := halive hmeet
    exact ⟨hgoing, hready, rfl⟩
  refine Holds.bind (hook_holds _) fun rewritten => ?_
  refine Holds.bind (Holds.change _ (Q := fun _ st => .prepared messages rewritten ∈ st.log ∧
    Alive w s none (fun k d => Ready s n k d ∧ d = Debt.of messages) st) ?_) fun _ => ?_
  · intro st halive
    refine ⟨by simp, fun hmeet => ?_⟩
    obtain ⟨hgoing, hC⟩ := halive hmeet.of_append
    refine ⟨hgoing.noted rfl rfl rfl rfl nofun fun r hr => ?_, hC⟩
    exact hgoing.sound r (by simpa using hr)
  · refine Holds.change _ fun st h hmeet => ?_
    obtain ⟨hmem, halive⟩ := h
    obtain ⟨hgoing, ⟨hrounds, hpaid, hroom⟩, hdebt⟩ := halive hmeet
    have hsettled : Settled messages := by rwa [Settled, ← hdebt]
    exact ⟨hgoing, hrounds, hmeet _ hmem hsettled, hroom⟩

lemma countRound_holds (result : ModelRoundResult) (n : ℕ) :
    Holds (Alive w s none (Ready s n)) (countRound s result)
      (fun _ => Alive w s none (Settling (n + 1))) (Ended w s) := by
  intro st halive
  have hrun : countRound s result st = (.ok (), { st with
      log := st.log ++ [.answered result]
      acct := st.acct.recordRound s.limits result }) := rfl
  rw [hrun]
  intro hmeet
  obtain ⟨hgoing, hrounds, hd, hroom⟩ := halive hmeet.of_append
  refine ⟨?_, by simp [hrounds], hd⟩
  constructor
  · simp [hgoing.rounds, answers]
  · intro m hm
    have hlt := hroom m hm
    simp only [AgentRunAccountant.length_recordRound, hrounds]
    omega
  · simpa [ran] using hgoing.calls
  · intro c
    simpa [ran] using hgoing.categories c
  · exact hgoing.keys
  · simpa [records] using hgoing.records
  · simpa [crumbs] using hgoing.crumbs
  · simpa using hgoing.sent
  · simpa using hgoing.sound

/-- The question to the provider is noted with what it is asked. -/
lemma note_asked_holds (n : ℕ) (messages : List (Message V)) :
    Holds (fun st => messages = st.messages ∧ Alive w s none (Ready s n) st)
      (note (.asked messages)) (fun _ => Alive w s none (Ready s n)) (Ended w s) := by
  refine Holds.change _ fun st h hmeet => ?_
  obtain ⟨rfl, halive⟩ := h
  obtain ⟨hgoing, hready⟩ := halive hmeet.of_append
  refine ⟨hgoing.noted rfl rfl rfl rfl (fun messages heq => ?_) fun r hr => ?_, hready⟩
  · obtain rfl := Event.asked.inj heq
    exact hready.2.1
  · exact hgoing.sound r (by simpa using hr)

/-- What is there when the trace of a round was tried. -/
def Traced (w : World σ V) (s : RunSettings) (n : ℕ) : Except Raised Bool → Run σ V → Prop
  | .ok _ => Alive w s none (Ready s n)
  | .error r => Stuck w s .trace (Ready s n) r

lemma invoke_holds (forced : Option String) (roundNo n : ℕ) :
    Holds (Alive w s none (Ready s n)) (invoke w s forced roundNo)
      (fun out => match out with
        | .answered _ => Alive w s none (Settling (n + 1))
        | .ended _ _ => Alive w s none fun _ _ => True) (Ended w s) := by
  unfold invoke
  refine Holds.bind (published _) fun rid => ?_
  refine Holds.bind (Holds.read _ (Q := fun messages st =>
    messages = st.messages ∧ Alive w s none (Ready s n) st) fun st h => ⟨rfl, h⟩) fun messages => ?_
  refine Holds.bind (note_asked_holds n messages) fun _ => ?_
  refine Holds.bind (attempt_ask_holds .provider _) fun x => ?_
  cases x with
  | ok result =>
    refine Holds.bind (countRound_holds result n) fun _ => ?_
    refine Holds.ite (fun _ => ?_) fun _ => ?_
    · exact Holds.bind ((roundEnded_holds _ _ _).weaken (fun _ => id) (fun _ _ => id)
        fun _ _ => Stuck.ended_trace) fun _ => Holds.pure _ fun st h => h.weaken fun _ _ _ => trivial
    · exact Holds.bind ((roundEnded_holds _ _ _).weaken (fun _ => id) (fun _ _ => id)
        fun _ _ => Stuck.ended_trace) fun _ => Holds.pure _ fun st => id
  | error r =>
    refine Holds.ite (fun htimeout => ?_) fun _ => ?_
    · refine Holds.bind (((roundEnded_holds _ _ _).weaken (fun _ => id) (fun _ _ => id)
        fun _ _ => Stuck.ended_trace).pre fun st h => h.swallowed_provider ?_ ?_) fun _ =>
          Holds.pure _ fun st h => h.weaken fun _ _ _ => trivial
      · rw [htimeout]
        rfl
      · rw [htimeout]
        rfl
    refine Holds.ite (fun _ => Holds.fail r fun st => Stuck.ended_provider) fun hkind => ?_
    simp only [Bool.or_eq_true, Bool.not_eq_true', not_or, Bool.not_eq_true, Bool.not_eq_false] at hkind
    refine Holds.bind (Holds.attempt (Q := Traced w s n)
        ((roundEnded_holds _ _ _).pre fun st h => h.swallowed_provider hkind.2 hkind.1)) fun x => ?_
    cases x with
    | ok _ => exact Holds.pure _ fun st h => h.weaken fun _ _ _ => trivial
    | error r' =>
      refine Holds.ite (fun _ => Holds.fail r' fun st => Stuck.ended_trace) fun hkind' => ?_
      simp only [Bool.or_eq_true, Bool.not_eq_true', not_or, Bool.not_eq_true, Bool.not_eq_false] at hkind'
      exact Holds.pure _ fun st h =>
        (h.swallowed_trace hkind'.2 hkind'.1).weaken fun _ _ _ => trivial

lemma oneRound_holds (n : ℕ) :
    Holds (Alive w s none (Ready s n)) (oneRound w s) (Next w s (Settling (n + 1))) (Ended w s) := by
  unfold oneRound
  refine Holds.bind expired_holds fun late => ?_
  refine Holds.ite (fun _ => ends_with (exhausted_holds _)) fun _ => ?_
  refine Holds.bind (beforeRound_holds n) fun _ => ?_
  refine Holds.bind tally_holds fun t => ?_
  refine Holds.bind (hook_holds _) fun forced => ?_
  refine Holds.bind (invoke_holds forced t.rounds n) fun out => ?_
  cases out with
  | answered result => exact afterAnswer_holds result (n + 1)
  | ended exit failure =>
    exact Holds.ite (fun _ => ends_with (finish_holds _ _ _)) fun _ => ends_with (exhausted_holds _)

/-! ## The run -/

lemma rounds_holds (fuel n : ℕ) :
    Holds (Alive w s none (Settling n)) (rounds w s fuel) (Next w s (Settling (n + fuel))) (Ended w s) := by
  induction fuel generalizing n with
  | zero => exact Holds.pure none fun st => id
  | succ fuel ih =>
    unfold rounds
    refine Holds.bind (Holds.read _ (Q := fun t st =>
      t.rounds = st.acct.rounds.length ∧ Alive w s none (Settling n) st) fun st h => ⟨rfl, h⟩) fun t => ?_
    refine Holds.ite (fun _ => ?_) fun hmore => ?_
    · exact (ends_with (exhausted_holds _)).pre fun st h => h.2
    · refine Holds.bind ((oneRound_holds n).pre ?_) fun out => ?_
      · rintro st ⟨hcount, halive⟩ hmeet
        obtain ⟨hgoing, hrounds, hpaid⟩ := halive hmeet
        refine ⟨hgoing, hrounds, hpaid, fun m hm => ?_⟩
        have hlt : ¬ m ≤ t.rounds := by simpa [hm] using hmore
        omega
      · cases out with
        | some ended => exact Holds.pure _ fun _ => id
        | none =>
          have hsum : n + (fuel + 1) = n + 1 + fuel := by omega
          rw [hsum]
          exact ih (n + 1)

lemma going_start : Going w s none AgentRunAccountant.start [] where
  rounds := rfl
  bounded m _ := Nat.zero_le m
  calls := rfl
  categories c := rfl
  keys := List.nodup_nil
  records := rfl
  crumbs := rfl
  sent := nofun
  sound := nofun

lemma Recorded.lost {record : AgentRunRecord V} (h : Recorded w s record log) {P : Prop}
    (hlost : ∃ r, .broke r ∈ log ∧ Loses w r.exc) : P := by
  obtain ⟨r, hr, hlost⟩ := hlost
  exact absurd hlost (h.sound r hr).2

lemma Recorded.cancelled {record : AgentRunRecord V} (h : Recorded w s record log) {P : Prop}
    (hcancelled : ∃ r, .broke r ∈ log ∧ Cancels r.exc) : P := by
  obtain ⟨r, hr, hcancelled⟩ := hcancelled
  exact absurd hcancelled (h.sound r hr).1

lemma Recorded.account {record : AgentRunRecord V} (h : Recorded w s record log) {fuel : ℕ}
    {out : Except Raised (Option (LoopResult V))} (hends : out ≠ .ok none)
    (hreturned : ∀ result, out = .ok (some result) → result.record = record) :
    OneAccount w s fuel out log where
  bounded := h.bounded
  ends _ _ _ := hends
  sent := h.sent
  returned result hout := by
    rw [hreturned result hout]
    exact ⟨h.records, h.crumbs⟩
  failed r _ _ _ _ := by simp [h.records, h.crumbs]
  cancelled := h.cancelled
  lost hlost _ := h.lost hlost
  counts r hr := by
    obtain rfl : r = record := by simpa [h.records] using hr
    exact h.counts

lemma Silent.account {r : Raised} (h : Silent w s r log) (fuel : ℕ) :
    OneAccount w s fuel (.error r) log where
  bounded := h.bounded
  ends _ _ _ := nofun
  sent := h.sent
  returned _ := nofun
  failed r' hout hstep hgoing _ := by
    obtain rfl := Except.error.inj hout
    exact absurd (h.cancelled hstep) hgoing
  cancelled _ := ⟨h.records, h.crumbs⟩
  lost hlost _ := by
    obtain ⟨r', hr', hlost⟩ := hlost
    exact absurd hlost (h.kept r' hr')
  counts r' hr' := by simp [h.records] at hr'

lemma Superseded.account {r : Raised} (h : Superseded w s r log) (fuel : ℕ) :
    OneAccount w s fuel (.error r) log where
  bounded := h.bounded
  ends _ _ _ := nofun
  sent := h.sent
  returned _ := nofun
  failed r' hout _ _ hkept := by
    obtain rfl := Except.error.inj hout
    exact absurd h.lost hkept
  cancelled hcancelled := by
    obtain ⟨r', hr', hcancelled⟩ := hcancelled
    exact absurd hcancelled (h.going r' hr')
  lost _ _ := ⟨h.records, h.crumbs⟩
  counts r' hr' := by simp [h.records] at hr'

/-- A run that is still going when the fuel is spent. -/
lemma Going.account {acct : AgentRunAccountant} (h : Going w s none acct log) {fuel : ℕ}
    (hrounds : acct.rounds.length = fuel) : OneAccount w s fuel (.ok none) log where
  bounded := h.over.bounded
  ends m hm hlt := by
    have hle := h.bounded m hm
    omega
  sent := h.sent
  returned _ := nofun
  failed _ := nofun
  cancelled _ := ⟨h.records, h.crumbs⟩
  lost hlost _ := by
    obtain ⟨r, hr, hlost⟩ := hlost
    obtain heq | hsound := h.sound r hr
    · cases heq
    · exact absurd hlost hsound.2
  counts r hr := by simp [h.records] at hr

/-- A run of which every step can be accounted for leaves one account. -/
theorem run_agent_loop_one_account (w : World σ V) (s : RunSettings) (world : σ)
    (messages : List (Message V)) (fuel : ℕ)
    (hmeet : ∀ e ∈ (runAgentLoop w s world messages fuel).2.log, Meets w s e) :
    OneAccount w s fuel (runAgentLoop w s world messages fuel).1
      (runAgentLoop w s world messages fuel).2.log := by
  have hstart : Alive w s none (Settling 0) (Run.start world messages : Run σ V) := fun _ => by
    refine ⟨going_start, rfl, ?_⟩
    simp only [Run.start, Debt.of_given]
    rfl
  have hout : Outcome (fun a => Next w s (Settling (0 + fuel)) a (runAgentLoop w s world messages fuel).2)
      (fun r => Ended w s r (runAgentLoop w s world messages fuel).2)
      (runAgentLoop w s world messages fuel).1 := rounds_holds fuel 0 _ hstart
  cases hrun : (runAgentLoop w s world messages fuel).1 with
  | ok out =>
    rw [hrun] at hout
    cases out with
    | none =>
      obtain ⟨hgoing, hrounds, -⟩ := hout hmeet
      exact hgoing.account (by omega)
    | some result =>
      refine (hout hmeet).account nofun fun result' heq => ?_
      obtain rfl : result = result' := by simpa using heq
      rfl
  | error r =>
    rw [hrun] at hout
    obtain hsilent | hlost | ⟨record, hrecord⟩ := hout hmeet
    · exact hsilent.account fuel
    · exact hlost.account fuel
    · exact hrecord.account (fun h => by cases h) fun _ h => by cases h

/-! ## Three runs of one round -/

def oneRoundSettings : RunSettings where
  role := .builder
  jobId := "job"
  pipelineAttempt := 1
  agentAttempt := 1
  limits := ⟨some 1, none, none, none⟩
  executionTrace := true

def plainAnswer : ModelRoundResult where
  toolCalls := []
  assistantText := "done"
  finishReason := "stop"
  inputTokens := 1
  cachedInputTokens := 0
  outputTokens := 1
  attempts := 1
  failureMarker := ""

/-- A world in which everything goes well and the plain answer ends the turn. -/
def quietWorld : World Unit Unit where
  expired world := (false, world)
  beforeRound _ messages := pure messages
  forcedTool _ := pure none
  provider _ _ := pure plainAnswer
  publish _ := pure ()
  onRound _ := pure ()
  onRoundAwaited _ := pure ()
  onPlaintext _ := pure ⟨"", true, none, .turnComplete⟩
  loads _ := none
  noArguments := ()
  execute _ := pure ⟨(), true, false, none, false⟩
  categoryOf tool := tool
  isSupersession e := e.kind = .staleWorker
  closeOut _ := pure none
  observe _ := pure ⟨true, "", ""⟩
  correction _ _ _ := pure none
  extension := pure ()
  marker _ := pure ""
  results :=
    { write := fun id content => [.tool id content]
      one := fun id content => ⟨content, [], rfl, nofun⟩ }

/-- The quiet run. -/
theorem quiet_run_one_account :
    OneAccount quietWorld oneRoundSettings 2 (runAgentLoop quietWorld oneRoundSettings () [] 2).1
      (runAgentLoop quietWorld oneRoundSettings () [] 2).2.log := by
  have hlog : ∃ record, (runAgentLoop quietWorld oneRoundSettings () [] 2).2.log =
      [.prepared [] [], .asked [], .answered plainAnswer, .record record] := ⟨_, rfl⟩
  refine run_agent_loop_one_account quietWorld oneRoundSettings () [] 2 ?_
  obtain ⟨record, hlog⟩ := hlog
  rw [hlog]
  simp [Meets]

/-- The publisher of the execution trace learns that the run is no longer the owner. -/
def staleWorld : World Unit Unit :=
  { quietWorld with publish := fun _ => fail ⟨.stalePublish, "", false⟩ }

/-- A clean-up of the provider call hides that the run is being cancelled. -/
def maskedWorld : World Unit Unit :=
  { quietWorld with provider := fun _ _ => fail ⟨.error, "clean-up", true⟩ }

/-- Ownership lost in a trace leaves no breadcrumb, and a cancellation that a provider call hides leaves a
record. -/
theorem run_agent_loop_two_accounts :
    ¬ OneAccount staleWorld oneRoundSettings 2 (runAgentLoop staleWorld oneRoundSettings () [] 2).1
        (runAgentLoop staleWorld oneRoundSettings () [] 2).2.log ∧
      ¬ OneAccount maskedWorld oneRoundSettings 2
        (runAgentLoop maskedWorld oneRoundSettings () [] 2).1
        (runAgentLoop maskedWorld oneRoundSettings () [] 2).2.log := by
  constructor
  · intro h
    have hlog : (runAgentLoop staleWorld oneRoundSettings () [] 2).2.log =
        [.prepared [] [], .broke ⟨.trace, ⟨.stalePublish, "", false⟩⟩] := rfl
    rw [hlog] at h
    have hbroke : Loses staleWorld ⟨.stalePublish, "", false⟩ := ⟨by simp [Cancels], .inl rfl⟩
    have hlost := h.lost ⟨⟨.trace, _⟩, by simp, hbroke⟩ (by simp [Cancels])
    simp [crumbs] at hlost
  · intro h
    have hlog : ∃ record, (runAgentLoop maskedWorld oneRoundSettings () [] 2).2.log =
        [.prepared [] [], .asked [], .broke ⟨.provider, ⟨.error, "clean-up", true⟩⟩, .record record] :=
      ⟨_, rfl⟩
    obtain ⟨record, hlog⟩ := hlog
    rw [hlog] at h
    have hmasked : Cancels ⟨.error, "clean-up", true⟩ := .inr rfl
    have hcancelled := h.cancelled ⟨⟨.provider, _⟩, by simp, hmasked⟩
    simp [records] at hcancelled

end MeshPipeline.AgentLoop
