import Mathlib.Algebra.BigOperators.Group.List.Basic
import Mathlib.Data.List.Nodup
import Mathlib.Data.List.Perm.Lattice

/-!
# Inboxes

A receiver that remembers the keys of the messages that took effect, and refuses a message whose key
it remembers. Whatever is delivered, in whatever order and however often, a key takes effect once.
-/

/-- A receiver answers whether the message took effect. -/
structure Inbox (σ μ κ : Type*) where
  receive : σ → μ → σ × Bool
  key : μ → κ
  seen : σ → List κ
  refused : ∀ {s m}, key m ∈ seen s → (receive s m).2 = false
  ignored : ∀ {s m}, (receive s m).2 = false → (receive s m).1 = s
  recorded : ∀ {s m}, (receive s m).2 = true → seen (receive s m).1 = key m :: seen s

namespace Inbox

variable {σ μ κ : Type*} (inbox : Inbox σ μ κ)

/-- The state after a row of deliveries. -/
def after (s : σ) (ms : List μ) : σ := ms.foldl (fun s m => (inbox.receive s m).1) s

/-- The keys of the deliveries that took effect. -/
def effects : σ → List μ → List κ
  | _, [] => []
  | s, m :: ms =>
    let later := effects (inbox.receive s m).1 ms
    if (inbox.receive s m).2 then inbox.key m :: later else later

variable {inbox} {s : σ} {m : μ} {ms ks : List μ}

@[simp]
theorem after_nil : inbox.after s [] = s := rfl

@[simp]
theorem after_cons : inbox.after s (m :: ms) = inbox.after (inbox.receive s m).1 ms := rfl

@[simp]
theorem after_append : inbox.after s (ms ++ ks) = inbox.after (inbox.after s ms) ks :=
  List.foldl_append

theorem mem_seen_receive {k : κ} (h : k ∈ inbox.seen s) : k ∈ inbox.seen (inbox.receive s m).1 := by
  cases hm : (inbox.receive s m).2 with
  | false => rwa [inbox.ignored hm]
  | true =>
    rw [inbox.recorded hm]
    exact List.mem_cons_of_mem _ h

/-- A delivery whose key is remembered changes nothing. -/
theorem receive_seen (h : inbox.key m ∈ inbox.seen s) : (inbox.receive s m).1 = s :=
  inbox.ignored (inbox.refused h)

theorem not_mem_effects {k : κ} (h : k ∈ inbox.seen s) : k ∉ inbox.effects s ms := by
  induction ms generalizing s with
  | nil => exact List.not_mem_nil
  | cons m ms ih =>
    have hlater := ih (mem_seen_receive (m := m) h)
    unfold effects
    split
    · rename_i hm
      rintro (_ | ⟨_, hk⟩)
      · rw [inbox.refused h] at hm
        cases hm
      · exact hlater hk
    · exact hlater

/-- Each key takes effect at most once. -/
theorem nodup_effects (s : σ) (ms : List μ) : (inbox.effects s ms).Nodup := by
  induction ms generalizing s with
  | nil => exact List.nodup_nil
  | cons m ms ih =>
    unfold effects
    split
    · rename_i hm
      refine List.nodup_cons.mpr ⟨not_mem_effects ?_, ih _⟩
      rw [inbox.recorded hm]
      exact List.mem_cons_self
    · exact ih _

/-- What each delivery of a row preserves of two states, the row preserves. -/
theorem after_relates {R : σ → σ → Prop} {s t : σ} (hst : R s t)
    (h : ∀ s t, ∀ m ∈ ms, R s t → R (inbox.receive s m).1 (inbox.receive t m).1) :
    R (inbox.after s ms) (inbox.after t ms) := by
  induction ms generalizing s t with
  | nil => exact hst
  | cons m ms ih =>
    exact ih (h s t m List.mem_cons_self hst) fun s t k hk => h s t k (List.mem_cons_of_mem _ hk)

theorem mem_seen_of_receive {k : κ} (h : k ∈ inbox.seen (inbox.receive s m).1) :
    k ∈ inbox.seen s ∨ inbox.key m = k := by
  cases hm : (inbox.receive s m).2 with
  | false =>
    rw [inbox.ignored hm] at h
    exact .inl h
  | true =>
    rw [inbox.recorded hm] at h
    rcases List.mem_cons.mp h with rfl | h
    · exact .inr rfl
    · exact .inl h

/-- A key that no message of a row has is remembered only from before. -/
theorem mem_seen_of_after {k : κ} (h : k ∈ inbox.seen (inbox.after s ms))
    (hne : ∀ m ∈ ms, inbox.key m ≠ k) : k ∈ inbox.seen s := by
  induction ms generalizing s with
  | nil => exact h
  | cons m ms ih =>
    rcases mem_seen_of_receive (ih h fun m hm => hne m (List.mem_cons_of_mem _ hm)) with h | rfl
    · exact h
    · exact absurd rfl (hne m List.mem_cons_self)

theorem mem_seen_after {k : κ} (h : k ∈ inbox.seen s) : k ∈ inbox.seen (inbox.after s ms) := by
  induction ms generalizing s with
  | nil => exact h
  | cons m ms ih => exact ih (mem_seen_receive h)

end Inbox

/-!
## Amounts reported under keys

A receiver counts an amount under its key and answers a repeated key without counting it again. What
it has received of a list of amounts due, and what of them is outstanding, make up what is due.
-/

namespace ReportedOnce

variable {κ α : Type*}

def keys (l : List (κ × α)) : List κ := l.map Prod.fst

def total [AddCommMonoid α] (l : List (κ × α)) : α := (l.map Prod.snd).sum

/-- The receiver has each key once, and only what is due. -/
structure Sound (due received : List (κ × α)) : Prop where
  nodup : (keys received).Nodup
  sub : received ⊆ due

variable {due due' received : List (κ × α)} {entry : κ × α}

@[simp]
theorem keys_append (l k : List (κ × α)) : keys (l ++ k) = keys l ++ keys k := List.map_append

theorem mem_keys_of_mem {l : List (κ × α)} (h : entry ∈ l) : entry.1 ∈ keys l :=
  List.mem_map_of_mem h

theorem eq_of_key_eq {l : List (κ × α)} (hl : (keys l).Nodup) {a b : κ × α} (ha : a ∈ l)
    (hb : b ∈ l) (h : a.1 = b.1) : a = b :=
  List.inj_on_of_nodup_map hl ha hb h

theorem Sound.mono (h : Sound due received) (hsub : due ⊆ due') : Sound due' received :=
  ⟨h.nodup, fun _ he => hsub (h.sub he)⟩

variable [DecidableEq κ]

/-- A report: a key that is there is answered as before. -/
def receive (received : List (κ × α)) (entry : κ × α) : List (κ × α) :=
  if entry.1 ∈ keys received then received else received ++ [entry]

/-- The entries of `due` that the receiver does not have. -/
def outstanding (due received : List (κ × α)) : List (κ × α) :=
  due.filter fun entry => entry.1 ∉ keys received

theorem mem_keys_receive {key : κ} :
    key ∈ keys (receive received entry) ↔ key ∈ keys received ∨ key = entry.1 := by
  unfold receive
  split
  · rename_i h
    constructor
    · exact .inl
    · rintro (hk | rfl) <;> assumption
  · simp [keys]

theorem Sound.receive (h : Sound due received) (hentry : entry ∈ due) :
    Sound due (receive received entry) := by
  unfold ReportedOnce.receive
  split
  · exact h
  · rename_i hnew
    refine ⟨?_, ?_⟩
    · rw [keys_append]
      exact h.nodup.append (List.nodup_singleton _) (by simpa [keys] using hnew)
    · intro e he
      obtain he | he := List.mem_append.mp he
      · exact h.sub he
      · obtain rfl := List.mem_singleton.mp he
        exact hentry

theorem mem_keys_foldl_receive {entries : List (κ × α)} {key : κ} :
    key ∈ keys (entries.foldl ReportedOnce.receive received) ↔
      key ∈ keys received ∨ key ∈ keys entries := by
  induction entries generalizing received with
  | nil => simp [keys]
  | cons e entries ih =>
    rw [List.foldl_cons, ih, mem_keys_receive]
    simp [keys, or_assoc]

theorem Sound.foldl_receive {entries : List (κ × α)} (h : Sound due received)
    (hentries : entries ⊆ due) : Sound due (entries.foldl ReportedOnce.receive received) := by
  induction entries generalizing received with
  | nil => exact h
  | cons e entries ih =>
    obtain ⟨he, hrest⟩ := List.cons_subset.mp hentries
    exact ih (h.receive he) hrest

/-- What is received of a part of what is due. -/
theorem Sound.part (hdue : (keys due').Nodup) (h : Sound due' received) (hsub : due ⊆ due') :
    Sound due (received.filter fun e => e.1 ∈ keys due) := by
  refine ⟨h.nodup.sublist (List.filter_sublist.map _), ?_⟩
  intro e he
  obtain ⟨hreceived, hkey⟩ := List.mem_filter.mp he
  obtain ⟨d, hd, hde⟩ := List.mem_map.mp (of_decide_eq_true hkey)
  rwa [← eq_of_key_eq hdue (hsub hd) (h.sub hreceived) hde]

/-- Of the entries due, only what is received of them counts. -/
theorem outstanding_part (due received : List (κ × α)) :
    outstanding due (received.filter fun e => e.1 ∈ keys due) = outstanding due received := by
  apply List.filter_congr
  intro d hd
  have hkey := mem_keys_of_mem hd
  have hiff : d.1 ∈ keys (received.filter fun e => e.1 ∈ keys due) ↔ d.1 ∈ keys received := by
    constructor
    · intro h
      obtain ⟨e, he, hed⟩ := List.mem_map.mp h
      exact List.mem_map.mpr ⟨e, (List.mem_filter.mp he).1, hed⟩
    · intro h
      obtain ⟨e, he, hed⟩ := List.mem_map.mp h
      exact List.mem_map.mpr ⟨e, List.mem_filter.mpr ⟨he, by simpa [hed] using hkey⟩, hed⟩
  simp only [hiff]

/-- Received and outstanding amounts make up what is due. -/
theorem total_add_outstanding [AddCommMonoid α] (hdue : (keys due).Nodup)
    (h : Sound due received) : total received + total (outstanding due received) = total due := by
  have hreceived : received.Perm (due.filter fun e => e.1 ∈ keys received) := by
    apply (List.perm_ext_iff_of_nodup (List.Nodup.of_map _ h.nodup)
      ((List.Nodup.of_map _ hdue).filter _)).mpr
    intro e
    constructor
    · intro he
      exact List.mem_filter.mpr ⟨h.sub he, by simpa using mem_keys_of_mem he⟩
    · intro he
      obtain ⟨hd, hkey⟩ := List.mem_filter.mp he
      obtain ⟨r, hr, hre⟩ := List.mem_map.mp (of_decide_eq_true hkey)
      rwa [← eq_of_key_eq hdue (h.sub hr) hd hre]
  have hsplit := List.filter_append_perm (fun e => decide (e.1 ∈ keys received)) due
  have hout : outstanding due received =
      due.filter fun e => !decide (e.1 ∈ keys received) := by simp [outstanding]
  rw [total, total, total, hout, (hreceived.map _).sum_eq, ← List.sum_append, ← List.map_append,
    (hsplit.map _).sum_eq]

end ReportedOnce
