import MeshPipeline.EventStream.LiveStream
import MeshPipeline.Library.Cursor

/-!
# A client resumes where it got to

The backlog and the channel are one line that a socket reads by its cursor. Every event of the log is
in that line when its turn comes, unless the counter started again below the cursor; and a closing
message comes last, unless something still waits when it is sent.
-/

namespace MeshPipeline

variable {codec : EventCodec} {mode : DisclosureMode} {frame e : StreamEvent}

/-! ## One frame -/

lemma project_type {f shown : EventFields} (h : project mode f = some shown) :
    shown.type = f.type := by
  unfold project at h
  split at h
  · obtain ⟨img, -, rfl⟩ := Option.map_eq_some_iff.mp h
    rfl
  · cases h
    rfl

/-- A closing event. -/
def Closing (codec : EventCodec) (frame : StreamEvent) : Prop :=
  (codec.read frame.event).map (·.type) = some "closing"

instance : Decidable (Closing codec frame) := inferInstanceAs (Decidable (_ = _))

/-- A frame is passed over, or moves the cursor to its number. -/
lemma sendFrame_cases (codec : EventCodec) (mode : DisclosureMode) (sent : Nat)
    (hnumber : frame.seq ≠ 0) :
    (sendFrame codec mode sent frame = (sent, none) ∧
      (Shown codec mode frame → frame.seq ≤ sent)) ∨
    (sent < frame.seq ∧ sendFrame codec mode sent frame = (frame.seq, none) ∧
      ¬ Shown codec mode frame) ∨
    (sent < frame.seq ∧ ∃ shown, sendFrame codec mode sent frame = (frame.seq, some shown) ∧
      (shown.type = "closing" → Closing codec frame)) := by
  unfold sendFrame
  cases hread : codec.read frame.event with
  | none => simp [Shown, hread]
  | some f =>
    by_cases htype : f.type ∈ eventTypes
    · by_cases hle : frame.seq ≤ sent
      · simp [htype, hnumber, hle]
      · have hlt : sent < frame.seq := by omega
        cases hproject : project mode f with
        | none => simp [Shown, hread, htype, hnumber, hle, hlt, hproject]
        | some shown =>
          refine .inr (.inr ⟨hlt, shown, by simp [htype, hnumber, hle, hproject], ?_⟩)
          intro hclosing
          simp [Closing, hread, ← project_type hproject, hclosing]
    · simp [Shown, hread, htype]

/-- A frame that is logged without its image is not shown. -/
lemma not_shown_light {t : String} (h : codec.light t ≠ t) (n : Nat) :
    ¬ Shown codec mode ⟨codec.light t, n⟩ := by
  rintro ⟨f, hf, -, hshown⟩
  have hlight : ∃ g, codec.read t = some g ∧ g.type = "screenshot" := by
    by_contra hnone
    refine h (codec.light_eq t fun g hg htype => hnone ⟨g, hg, htype⟩)
  obtain ⟨g, hg, htype⟩ := hlight
  rw [codec.read_light t g hg htype] at hf
  cases hf
  simp [project, projectScreenshot, htype] at hshown

/-! ## The line of a socket -/

namespace Socket

/-- The frames that a socket has still to hand on. -/
def waiting (s : Socket) : List StreamEvent :=
  match s.phase with
  | .replaying backlog => backlog ++ s.queue
  | _ => s.queue

/-- The socket has its backlog, and was not closed. -/
def Following (s : Socket) : Prop :=
  match s.phase with
  | .subscribed | .closed _ => False
  | _ => True

instance (s : Socket) : Decidable s.Following := by
  unfold Following
  split <;> infer_instance

/-- The frame that is handed on next. -/
def nextFrame (s : Socket) : Option StreamEvent :=
  match s.phase with
  | .replaying backlog => backlog.head?
  | .listening => if s.confirmed then s.queue.head? else none
  | _ => none

lemma mem_waiting_of_queue (s : Socket) (h : frame ∈ s.queue) : frame ∈ s.waiting := by
  unfold waiting
  split
  · exact List.mem_append_right _ h
  · exact h

lemma waiting_append (s : Socket) (new : List StreamEvent) :
    { s with queue := s.queue ++ new }.waiting = s.waiting ++ new := by
  unfold waiting
  split <;> simp_all

end Socket

namespace StreamWorld

open Lapsing

variable {ttl : Int} {w w' : StreamWorld} {s : Socket} {l : StreamStep}

/-- The client's events are in order, and a closing message comes after every event of the log that
it is to be shown. -/
structure Resumed (codec : EventCodec) (w : StreamWorld) : Prop where
  increasing : w.received.Pairwise fun a b => a.seq < b.seq
  complete : ∀ s ∈ w.socket, ∀ log, s.phase = .closed log → ∀ e ∈ log, s.since < e.seq →
    Shown codec s.mode e → e ∈ w.received

/-- What keeps a stream whole: a number that is given while a socket follows the log is past every
number that the socket holds, or is not past the cursor that the client came with; a closing event is
the last that the log has to show when it is sent; and no event of the log waits when the socket finds
the job ended. -/
def Unbroken (codec : EventCodec) (w : StreamWorld) : StreamStep → Prop
  | .emit _ _ _ => ∀ s ∈ w.socket, s.Following →
      w.keys.liveSeq w.clock + 1 ≤ s.since ∨
        s.sent ≤ w.keys.liveSeq w.clock ∧ ∀ f ∈ s.waiting, f.seq ≤ w.keys.liveSeq w.clock
  | .replay | .next => ∀ s ∈ w.socket, ∀ f ∈ s.nextFrame, Closing codec f → s.sent < f.seq →
      ∀ e ∈ w.log, f.seq < e.seq → ¬ Shown codec s.mode e
  | .check readable => readable ∧ w.ended → ∀ s ∈ w.socket, ∀ e ∈ w.log, e ∈ s.queue →
      s.sent < e.seq → ¬ Shown codec s.mode e
  | _ => True

instance (w : StreamWorld) : (l : StreamStep) → Decidable (Unbroken codec w l)
  | .emit _ _ _ => inferInstanceAs (Decidable (∀ s ∈ w.socket, s.Following →
      w.keys.liveSeq w.clock + 1 ≤ s.since ∨
        s.sent ≤ w.keys.liveSeq w.clock ∧ ∀ f ∈ s.waiting, f.seq ≤ w.keys.liveSeq w.clock))
  | .replay | .next => inferInstanceAs (Decidable (∀ s ∈ w.socket, ∀ f ∈ s.nextFrame,
      Closing codec f → s.sent < f.seq → ∀ e ∈ w.log, f.seq < e.seq → ¬ Shown codec s.mode e))
  | .check readable => inferInstanceAs (Decidable (readable ∧ w.ended → ∀ s ∈ w.socket,
      ∀ e ∈ w.log, e ∈ s.queue → s.sent < e.seq → ¬ Shown codec s.mode e))
  | .tick _ | .setFence _ | .publish _ | .endJob | .connect _ | .readBacklog | .disconnect =>
    isTrue trivial

/-- A socket keeps up with the log. -/
structure Follows (codec : EventCodec) (w : StreamWorld) (s : Socket) : Prop where
  since_le : s.since ≤ s.sent
  received : ∀ f ∈ w.received, f.seq ≤ s.sent
  numbered : ∀ f ∈ s.waiting, f.seq ≠ 0
  fresh : s.phase = .subscribed → s.sent = s.since
  covers : s.Following → ∀ e ∈ w.log, s.since < e.seq → Shown codec s.mode e →
    e ∈ w.received ∨ s.sent < e.seq ∧ Cursor.Ahead StreamEvent.seq s.waiting e
  closed : ∀ log, s.phase = .closed log → ∀ e ∈ log, s.since < e.seq → Shown codec s.mode e →
    e ∈ w.received

structure Inv (codec : EventCodec) (w : StreamWorld) : Prop where
  counted : EventWorld.Counted w.keys
  numbered : ∀ f ∈ w.log, f.seq ≠ 0
  unpublished : ∀ f ∈ w.unpublished, f.seq ≠ 0
  increasing : w.received.Pairwise fun a b => a.seq < b.seq
  follows : ∀ s ∈ w.socket, Follows codec w s

lemma Inv.resumption (h : w.Inv codec) : w.Resumed codec :=
  ⟨h.increasing, fun s hs => (h.follows s hs).closed⟩

/-! ## A frame is sent -/

lemma Inv.after_send {s₀ : Socket} (h : w.Inv codec) (hs : w.socket = some s₀)
    (hwaiting : s₀.waiting = frame :: s.waiting) (hsame : s.since = s₀.since ∧ s.sent = s₀.sent ∧
      s.mode = s₀.mode) (hfollowing : s₀.Following) (hfollowing' : s.Following)
    (hlast : Closing codec frame → s.sent < frame.seq → ∀ e ∈ w.log, frame.seq < e.seq →
      ¬ Shown codec s.mode e) : (w.send codec s frame).Inv codec := by
  have hf := h.follows s₀ hs
  obtain ⟨hsince, hsent, hmode⟩ := hsame
  have hle : s.since ≤ s.sent := hsince ▸ hsent ▸ hf.since_le
  have hreceived : ∀ f ∈ w.received, f.seq ≤ s.sent := fun f hr => hsent ▸ hf.received f hr
  have hnumber : frame.seq ≠ 0 := hf.numbered frame (by simp [hwaiting])
  have hnumbered : ∀ f ∈ s.waiting, f.seq ≠ 0 := fun f hf' =>
    hf.numbered f (by simp [hwaiting, hf'])
  have hcovers : ∀ e ∈ w.log, s.since < e.seq → Shown codec s.mode e → e ∈ w.received ∨
      s.sent < e.seq ∧ (e = frame ∨ frame.seq < e.seq ∧ Cursor.Ahead StreamEvent.seq s.waiting e) := by
    intro e he hlt hshown
    rw [← Cursor.ahead_cons, ← hwaiting, hsent]
    exact hf.covers hfollowing e he (hsince ▸ hlt) (hmode ▸ hshown)
  have hphase : s.phase ≠ .subscribed ∧ ∀ log, s.phase ≠ .closed log := by
    unfold Socket.Following at hfollowing'
    split at hfollowing' <;> simp_all
  rcases sendFrame_cases codec s.mode s.sent hnumber with
    ⟨heq, hpassed⟩ | ⟨hlt, heq, hhidden⟩ | ⟨hlt, shown, heq, hclosing⟩
  · -- the frame is passed over, and is not one that still has to be shown
    simp only [send, heq]
    refine ⟨h.counted, h.numbered, h.unpublished, h.increasing, ?_⟩
    rintro _ ⟨⟩
    refine ⟨hle, hreceived, hnumbered, fun hsubscribed => absurd hsubscribed hphase.1, ?_,
      fun log hclosed => absurd hclosed (hphase.2 log)⟩
    intro _ e he hlt hshown
    refine (hcovers e he hlt hshown).imp_right fun ⟨hwaits, hahead⟩ => ⟨hwaits, ?_⟩
    rcases hahead with rfl | ⟨-, hahead⟩
    · exact absurd (hpassed hshown) (Nat.not_le.mpr hwaits)
    · exact hahead
  · simp only [send, heq]
    refine ⟨h.counted, h.numbered, h.unpublished, h.increasing, ?_⟩
    rintro _ ⟨⟩
    refine ⟨Nat.le_of_lt (Nat.lt_of_le_of_lt hle hlt), fun f hr =>
      Nat.le_of_lt (Nat.lt_of_le_of_lt (hreceived f hr) hlt), hnumbered,
      fun hsubscribed => absurd hsubscribed hphase.1, ?_,
      fun log hclosed => absurd hclosed (hphase.2 log)⟩
    intro _ e he hlt' hshown
    refine (hcovers e he hlt' hshown).imp_right fun hwaits => hwaits.2.resolve_left ?_
    rintro rfl
    exact hhidden hshown
  · -- the frame is shown, and ends the socket if it is a closing one
    simp only [send, heq]
    have hleft : ∀ e ∈ w.log, s.since < e.seq → Shown codec s.mode e →
        e ∈ w.received ++ [frame] ∨
          frame.seq < e.seq ∧ Cursor.Ahead StreamEvent.seq s.waiting e := by
      intro e he hlt' hshown
      rcases hcovers e he hlt' hshown with hr | ⟨-, rfl | hahead⟩
      · exact .inl (List.mem_append_left _ hr)
      · exact .inl (List.mem_append_right _ (List.mem_singleton.mpr rfl))
      · exact .inr hahead
    refine ⟨h.counted, h.numbered, h.unpublished, ?_, ?_⟩
    · refine List.pairwise_append.mpr ⟨h.increasing, List.pairwise_singleton _ _, ?_⟩
      intro f hr g hg
      rw [List.mem_singleton.mp hg]
      exact Nat.lt_of_le_of_lt (hreceived f hr) hlt
    rintro _ ⟨⟩
    refine ⟨Nat.le_of_lt (Nat.lt_of_le_of_lt hle hlt), ?_, ?_, ?_, ?_, ?_⟩
    · intro f hr
      rcases List.mem_append.mp hr with hr | hr
      · exact Nat.le_of_lt (Nat.lt_of_le_of_lt (hreceived f hr) hlt)
      · exact Nat.le_of_eq (congrArg StreamEvent.seq (List.mem_singleton.mp hr))
    · intro f hmem
      by_cases hend : shown.type = "closing"
      · simp only [Socket.waiting, hend, if_true] at hmem
        exact hnumbered f (s.mem_waiting_of_queue hmem)
      · simp only [Socket.waiting, hend, if_false] at hmem
        exact hnumbered f hmem
    · intro hsubscribed
      dsimp only at hsubscribed
      split at hsubscribed
      · cases hsubscribed
      · exact absurd hsubscribed hphase.1
    · intro hstill e he hlt' hshown
      by_cases hend : shown.type = "closing"
      · simp [Socket.Following, hend] at hstill
      · simp only [Socket.waiting, hend, if_false]
        exact hleft e he hlt' hshown
    · intro log hclosed e he hlt' hshown
      dsimp only at hclosed
      split at hclosed
      · cases hclosed
        exact (hleft e he hlt' hshown).resolve_right fun hahead =>
          hlast (hclosing ‹_›) hlt e he hahead.1 hshown
      · exact absurd hclosed (hphase.2 log)

/-! ## The log and its readers -/

lemma mem_log_of_later {n : Nat} (h : e ∈ log { w with clock := w.clock + n }) : e ∈ w.log := by
  simp only [log, EventKeys.liveLog, List.mem_map] at h ⊢
  obtain ⟨a, ha, rfl⟩ := h
  refine ⟨a, ?_, rfl⟩
  cases hlog : live w.keys.log (w.clock + n) with
  | none => simp [hlog] at ha
  | some events =>
    obtain ⟨l, hl, hlt, rfl⟩ := live_eq_some.mp hlog
    have hnow : live w.keys.log w.clock = some l.value := live_eq_some.mpr ⟨l, hl, by omega, rfl⟩
    simpa [hlog, hnow] using ha

/-- What an append leaves to read is what was there and the new event. -/
lemma mem_log_of_append {a : Emission}
    (h : e ∈ log { w with keys := w.keys.append a ttl w.clock }) :
    e ∈ w.log ∨ e = ⟨a.event, w.keys.liveSeq w.clock + 1⟩ := by
  simp only [log, EventKeys.liveLog, EventKeys.append, live_some] at h ⊢
  split at h
  · simpa using h
  · simp at h

lemma log_pairwise (h : EventWorld.Counted w.keys) :
    w.log.Pairwise fun a b => a.seq < b.seq := by
  rw [log, List.pairwise_map]
  exact h.pairwise

/-- A socket that keeps up with the log does so as the log grows by what it is delivered, and as it
lapses. -/
lemma Follows.of_delivered (h : Follows codec w s) (hreceived : w'.received = w.received)
    {new : List StreamEvent} (hnew : ∀ f ∈ new, f.seq ≠ 0)
    (hlog : ∀ e ∈ w'.log, s.Following → s.since < e.seq → Shown codec s.mode e → e ∈ w.log ∨
      s.sent < e.seq ∧ Cursor.Ahead StreamEvent.seq (s.waiting ++ new) e) :
    Follows codec w' { s with queue := s.queue ++ new } := by
  have hwaiting : Socket.waiting { s with queue := s.queue ++ new } = s.waiting ++ new :=
    s.waiting_append new
  refine ⟨h.since_le, hreceived ▸ h.received, ?_, h.fresh, ?_, hreceived ▸ h.closed⟩
  · intro f hf
    rw [hwaiting] at hf
    exact (List.mem_append.mp hf).elim (h.numbered f) (hnew f)
  · intro hfollowing e he hlt hshown
    rw [hwaiting, hreceived]
    rcases hlog e he hfollowing hlt hshown with hmem | hnew
    · exact (h.covers hfollowing e hmem hlt hshown).imp_right (And.imp_right Cursor.Ahead.append)
    · exact .inr hnew

lemma Follows.of_log (h : Follows codec w s) (hreceived : w'.received = w.received)
    (hlog : ∀ e ∈ w'.log, Shown codec s.mode e → e ∈ w.log) : Follows codec w' s := by
  have hnone : ∀ f ∈ ([] : List StreamEvent), f.seq ≠ 0 := by simp
  simpa using h.of_delivered hreceived hnone fun e he _ _ hshown => .inl (hlog e he hshown)

/-! ## The steps -/

/-- A step of the log alone, which leaves nothing new to read. -/
lemma Inv.of_log (h : w.Inv codec) (hcounted : EventWorld.Counted w'.keys)
    (hsame : w'.unpublished = w.unpublished ∧ w'.received = w.received ∧ w'.socket = w.socket)
    (hlog : ∀ e ∈ w'.log, e ∈ w.log) : w'.Inv codec := by
  obtain ⟨hunpublished, hreceived, hsocket⟩ := hsame
  refine ⟨hcounted, fun f hf => h.numbered f (hlog f hf), hunpublished ▸ h.unpublished,
    hreceived ▸ h.increasing, fun s hs => ?_⟩
  exact (h.follows s (hsocket ▸ hs)).of_log hreceived fun e he _ => hlog e he

lemma Inv.after_emit (h : w.Inv codec) {text opKey : String} {expected : Option Fingerprint}
    (hwhole : Unbroken codec w (.emit text opKey expected))
    (hstep : w.step codec ttl (.emit text opKey expected) = some w') : w'.Inv codec := by
  obtain ⟨-, heq⟩ | ⟨-, -, -, heq⟩ | ⟨-, -, heq⟩ :=
    w.keys.emit_cases ⟨codec.light text, opKey, expected⟩ ttl w.clock
  · simp only [step, heq] at hstep
    cases hstep
    exact h
  · simp only [step, heq] at hstep
    cases hstep
    exact h
  simp only [step, heq] at hstep
  set keys := w.keys.append ⟨codec.light text, opKey, expected⟩ ttl w.clock with hkeys
  have hcounted : EventWorld.Counted keys := EventWorld.counted_append h.counted
  have hlog : ∀ e ∈ log { w with keys := keys },
      e ∈ w.log ∨ e = ⟨codec.light text, w.keys.liveSeq w.clock + 1⟩ := fun e => mem_log_of_append
  have hnumbered : ∀ e ∈ log { w with keys := keys }, e.seq ≠ 0 := by
    intro e he
    rcases hlog e he with he | rfl
    · exact h.numbered e he
    · exact Nat.succ_ne_zero _
  split at hstep
  · -- logged and published in one step
    rename_i hlight
    cases hstep
    refine ⟨hcounted, hnumbered, h.unpublished, h.increasing, ?_⟩
    intro s' hs'
    obtain ⟨s, hs, rfl⟩ := Option.map_eq_some_iff.mp hs'
    have hnew : ∀ f ∈ [StreamEvent.mk text (w.keys.liveSeq w.clock + 1)], f.seq ≠ 0 := by simp
    refine (h.follows s hs).of_delivered ?_ hnew ?_
    · rfl
    intro e he hfollowing hlt hshown
    rcases hlog e he with he | rfl
    · exact .inl he
    rcases hwhole s hs hfollowing with hold | ⟨hsent, hwaiting⟩
    · exact absurd hlt (Nat.not_lt.mpr hold)
    · rw [hlight]
      refine .inr ⟨Nat.lt_succ_of_le hsent, Cursor.ahead_concat fun f hf => ?_⟩
      exact Nat.lt_succ_of_le (hwaiting f hf)
  · -- logged without its image, which no reader is shown
    rename_i hlight
    cases hstep
    refine ⟨hcounted, hnumbered, ?_, h.increasing, ?_⟩
    · intro f hf
      rcases List.mem_append.mp hf with hf | hf
      · exact h.unpublished f hf
      · rw [List.mem_singleton.mp hf]
        exact Nat.succ_ne_zero _
    intro s hs
    refine (h.follows s hs).of_log rfl fun e he hshown => ?_
    rcases hlog e he with he | rfl
    · exact he
    · exact absurd hshown (not_shown_light hlight _)

lemma le_cursor (h : w.received.Pairwise fun a b => a.seq < b.seq) {f : StreamEvent}
    (hf : f ∈ w.received) : f.seq ≤ w.cursor := by
  obtain ⟨front, last, hfront⟩ := List.eq_nil_or_concat w.received |>.resolve_left
    (List.ne_nil_of_mem hf)
  rw [List.concat_eq_append] at hfront
  rw [hfront] at h hf
  simp only [cursor, hfront, List.getLast?_concat, Option.map_some, Option.getD_some]
  rcases List.mem_append.mp hf with hf | hf
  · exact Nat.le_of_lt ((List.pairwise_append.mp h).2.2 f hf last (by simp))
  · exact Nat.le_of_eq (congrArg StreamEvent.seq (List.mem_singleton.mp hf))

lemma Inv.after_connect (h : w.Inv codec) (mode : DisclosureMode) :
    Inv codec { w with socket := some ⟨mode, w.cursor, w.cursor, .subscribed, false, []⟩ } := by
  refine ⟨h.counted, h.numbered, h.unpublished, h.increasing, ?_⟩
  rintro _ ⟨⟩
  exact ⟨Nat.le_refl _, fun f hf => le_cursor h.increasing hf, by simp [Socket.waiting],
    fun _ => rfl, False.elim, by simp⟩

/-- The backlog is the log, in order. -/
lemma Inv.after_readBacklog (h : w.Inv codec) (hs : w.socket = some s)
    (hphase : s.phase = .subscribed) :
    Inv codec { w with socket := some { s with phase := .replaying w.log } } := by
  have hf := h.follows s hs
  refine ⟨h.counted, h.numbered, h.unpublished, h.increasing, ?_⟩
  rintro _ ⟨⟩
  refine ⟨hf.since_le, hf.received, ?_, by simp, ?_, by simp⟩
  · intro f hmem
    rcases List.mem_append.mp hmem with hmem | hmem
    · exact h.numbered f hmem
    · exact hf.numbered f (s.mem_waiting_of_queue hmem)
  · intro _ e he hlt _
    refine .inr ⟨(hf.fresh hphase).symm ▸ hlt, ?_⟩
    exact (Cursor.ahead_of_pairwise (log_pairwise h.counted) he).append

/-- The socket goes on with the same line. -/
lemma Inv.after_turn (h : w.Inv codec) (hs : w.socket = some s) {s' : Socket}
    (hsame : s'.since = s.since ∧ s'.sent = s.sent ∧ s'.mode = s.mode ∧ s'.waiting = s.waiting)
    (hfollowing : s.Following) (hfollowing' : s'.Following) :
    Inv codec { w with socket := some s' } := by
  have hf := h.follows s hs
  obtain ⟨hsince, hsent, hmode, hwaiting⟩ := hsame
  refine ⟨h.counted, h.numbered, h.unpublished, h.increasing, ?_⟩
  rintro _ ⟨⟩
  refine ⟨hsince ▸ hsent ▸ hf.since_le, hsent ▸ hf.received, hwaiting ▸ hf.numbered, ?_, ?_, ?_⟩
  · intro hphase
    simp [Socket.Following, hphase] at hfollowing'
  · intro _
    rw [hsince, hsent, hmode, hwaiting]
    exact hf.covers hfollowing
  · intro log hphase
    simp [Socket.Following, hphase] at hfollowing'

/-- The socket finds the job ended, and nothing of the log waits. -/
lemma Inv.after_ended (h : w.Inv codec) (hs : w.socket = some s) (hphase : s.phase = .checking)
    (hlast : ∀ e ∈ w.log, e ∈ s.queue → s.sent < e.seq → ¬ Shown codec s.mode e) :
    Inv codec { w with socket := some { s with phase := .closed w.log } } := by
  have hf := h.follows s hs
  have hwaiting : s.waiting = s.queue := by simp [Socket.waiting, hphase]
  have hfollowing : s.Following := by simp [Socket.Following, hphase]
  refine ⟨h.counted, h.numbered, h.unpublished, h.increasing, ?_⟩
  rintro _ ⟨⟩
  refine ⟨hf.since_le, hf.received, ?_, by simp, False.elim, ?_⟩
  · exact fun f hmem => hf.numbered f (hwaiting ▸ hmem)
  · rintro log ⟨⟩ e he hlt hshown
    refine (hf.covers hfollowing e he hlt hshown).resolve_right fun hwaits => ?_
    exact hlast e he (hwaiting ▸ hwaits.2.mem) hwaits.1 hshown

lemma Inv.after_step (h : w.Inv codec) (hwhole : Unbroken codec w l)
    (hstep : w.step codec ttl l = some w') : w'.Inv codec := by
  cases l with
  | tick n =>
    cases hstep
    exact h.of_log h.counted ⟨rfl, rfl, rfl⟩ fun e => mem_log_of_later
  | setFence key =>
    cases hstep
    exact h.of_log ⟨h.counted.counter, h.counted.increasing⟩ ⟨rfl, rfl, rfl⟩ fun e he => he
  | emit text opKey expected => exact h.after_emit hwhole hstep
  | publish i =>
    obtain ⟨frame, hframe, rfl⟩ := Option.map_eq_some_iff.mp hstep
    have hnumber := h.unpublished frame (List.mem_of_getElem? hframe)
    refine ⟨h.counted, h.numbered, fun f hf => h.unpublished f (List.mem_of_mem_eraseIdx hf),
      h.increasing, ?_⟩
    intro s' hs'
    obtain ⟨s, hs, rfl⟩ := Option.map_eq_some_iff.mp hs'
    have hnew : ∀ f ∈ [frame], f.seq ≠ 0 := by simpa using hnumber
    refine (h.follows s hs).of_delivered ?_ hnew fun e he _ _ _ => .inl he
    rfl
  | endJob =>
    cases hstep
    exact h.of_log h.counted ⟨rfl, rfl, rfl⟩ fun e he => he
  | connect mode =>
    cases hstep
    exact h.after_connect mode
  | disconnect =>
    cases hstep
    exact ⟨h.counted, h.numbered, h.unpublished, h.increasing, by simp⟩
  | readBacklog =>
    simp only [step] at hstep
    split at hstep
    · rename_i s hs
      split at hstep <;> cases hstep
      exact h.after_readBacklog hs ‹_›
    · cases hstep
  | replay =>
    simp only [step] at hstep
    split at hstep
    · rename_i s hs
      split at hstep
      · rename_i frame backlog hphase
        cases hstep
        refine h.after_send hs (by simp [Socket.waiting, hphase]) ⟨rfl, rfl, rfl⟩
          (by simp [Socket.Following, hphase]) trivial ?_
        exact hwhole s hs frame (by simp [Socket.nextFrame, hphase])
      · rename_i hphase
        cases hstep
        exact h.after_turn hs ⟨rfl, rfl, rfl, by simp [Socket.waiting, hphase]⟩
          (by simp [Socket.Following, hphase]) trivial
      · cases hstep
    · cases hstep
  | check readable =>
    simp only [step] at hstep
    split at hstep
    · rename_i s hs
      split at hstep
      · cases hstep
      rename_i hphase
      rw [not_not] at hphase
      split at hstep <;> cases hstep
      · exact h.after_ended hs hphase (hwhole ‹_› s hs)
      · exact h.after_turn hs ⟨rfl, rfl, rfl, by simp [Socket.waiting, hphase]⟩
          (by simp [Socket.Following, hphase]) trivial
    · cases hstep
  | next =>
    simp only [step] at hstep
    split at hstep
    · rename_i s hs
      split at hstep
      · cases hstep
      rename_i hphase
      rw [not_not] at hphase
      split at hstep
      · cases hstep
        exact h.after_turn hs ⟨rfl, rfl, rfl, by simp [Socket.waiting, hphase]⟩
          (by simp [Socket.Following, hphase]) trivial
      split at hstep
      · cases hstep
        exact h.after_turn hs ⟨rfl, rfl, rfl, by simp [Socket.waiting, hphase]⟩
          (by simp [Socket.Following, hphase]) trivial
      · rename_i hconfirmed frame queue hqueue
        cases hstep
        refine h.after_send hs (by simp [Socket.waiting, hphase, hqueue]) ⟨rfl, rfl, rfl⟩
          (by simp [Socket.Following, hphase]) (by simp [Socket.Following, hphase]) ?_
        refine hwhole s hs frame ?_
        simp_all [Socket.nextFrame]
    · cases hstep

lemma inv_created (clock : Int) : (created clock).Inv codec where
  counted := ⟨by simp [created, EventKeys.empty], by simp [created, EventKeys.empty]⟩
  numbered := by simp [created, log, EventKeys.liveLog, EventKeys.empty]
  unpublished := by simp [created]
  increasing := List.Pairwise.nil
  follows := by simp [created]

/-- In every run the client's events are in order; in one that nothing breaks, a closing message
comes after all that there is to show. -/
theorem resumed (ttl clock : Int) {run : List StreamStep}
    (hrun : (machine codec ttl).Meets (Unbroken codec) (created clock) run)
    (h : (machine codec ttl).exec (created clock) run = some w) : w.Resumed codec :=
  ((machine codec ttl).exec_invariant (fun _ _ _ hI hP => hI.after_step hP) (inv_created clock)
    hrun h).resumption

/-! ## A note that waits while the job ends -/

/-- Texts of a note, a closing event and a screenshot with and without its image. -/
def fewTexts : EventCodec where
  read t :=
    if t = "note" then some ⟨"note", none⟩
    else if t = "closing" then some ⟨"closing", none⟩
    else if t = "shot" then some ⟨"screenshot", some "png"⟩
    else if t = "light shot" then some ⟨"screenshot", none⟩
    else none
  light t := if t = "shot" then "light shot" else t
  read_light := by
    intro t f hread htype
    grind
  light_eq := by
    intro t htype
    refine if_neg fun hshot => htype ⟨"screenshot", some "png"⟩ ?_ rfl
    simp [hshot]

/-- The client goes away, comes back, and is shown a screenshot and the closing event. -/
def comesBack : List StreamStep :=
  [.emit "note" "" none, .connect .raw, .readBacklog, .replay, .replay, .check true, .disconnect,
    .emit "note" "second" none, .connect .raw, .readBacklog, .emit "shot" "" none, .replay, .replay,
    .replay, .check true, .next, .check false, .publish 0, .next, .emit "closing" "end" none, .endJob,
    .next]

theorem resumed_comesBack : ∃ w, (machine fewTexts 86400).exec (created 0) comesBack = some w ∧
    w.Resumed fewTexts := by
  have hrun : (machine fewTexts 86400).Meets (Unbroken fewTexts) (created 0) comesBack := by
    decide +kernel
  exact ⟨_, rfl, resumed 86400 0 hrun rfl⟩

/-- A note is published after the backlog was read, and the job ends before the socket asks. -/
def endsMeanwhile : List StreamStep :=
  [.connect .safe, .readBacklog, .emit "note" "" none, .endJob, .replay, .check true]

theorem note_not_received : ∃ w,
    (machine fewTexts 86400).exec (created 0) endsMeanwhile = some w ∧ ¬ w.Resumed fewTexts := by
  refine ⟨_, rfl, fun h => ?_⟩
  exact List.not_mem_nil (h.complete _ rfl _ rfl ⟨"note", 1⟩ (by decide) (by decide) (by decide))

end StreamWorld

end MeshPipeline
