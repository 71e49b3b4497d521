import Mathlib.Tactic.Linarith
import MeshPipeline.ModelCapacity.Redis

/-!
# The capacity is kept

No call holds more than its own slot, a slot goes by its own release or by its time, and the key
goes only when all its slots have. So the set never outgrows the limit of its last admission, and a
slot that no caller knows of lasts no longer than a lease.
-/

namespace MeshPipeline.ModelCapacity

variable {c : Controller} {w w' : World} {i : ℕ} {k : Call} {e : Event} {m : ℕ × ℚ}
  {members : List (ℕ × ℚ)} {now asked t : ℚ} {s : Store}

/-! ## The commands -/

lemma mem_zremrangebyscore :
    m ∈ zremrangebyscore now members ↔ m ∈ members ∧ ¬ (0 ≤ m.2 ∧ m.2 ≤ now) := by
  rw [zremrangebyscore, List.mem_filter, decide_eq_true_iff]

lemma mem_zrem : m ∈ zrem i members ↔ m ∈ members ∧ m.1 ≠ i := by
  simp [zrem]

lemma mem_zadd : m ∈ zadd t i members ↔ m ∈ members ∧ m.1 ≠ i ∨ m = (i, t) := by
  simp [zadd, mem_zrem]

lemma length_zadd_le (t : ℚ) (i : ℕ) (members : List (ℕ × ℚ)) :
    (zadd t i members).length ≤ members.length + 1 := by
  simp only [zadd, zrem, List.length_append, List.length_singleton]
  have := List.length_filter_le (fun m : ℕ × ℚ => m.1 ≠ i) members
  omega

lemma Store.mem_of_mem_live (h : m ∈ s.live now) : m ∈ s.members := by
  unfold live at h
  split at h
  · cases h
  · exact h

lemma Store.length_live_le (now : ℚ) : (s.live now).length ≤ s.members.length := by
  unfold live
  split <;> simp

/-- What is left of what a command found is what the next one finds. -/
lemma Store.live_filter (p : ℕ × ℚ → Bool) :
    (Store.mk ((s.live now).filter p) s.expireAt).live now = (s.live now).filter p := by
  simp only [live]
  split <;> simp

/-- A key whose time is past has nothing. -/
lemma Store.live_of_later {later : ℚ} (hle : now ≤ later) (h : m ∈ s.live later) :
    m ∈ s.live now := by
  unfold live at h ⊢
  split at h
  · cases h
  · next hlater =>
    rw [if_neg]
    · exact h
    · rintro ⟨t, ht, hexpired⟩
      exact hlater ⟨t, ht, hexpired.trans hle⟩

lemma Store.expired_of_not_live {later : ℚ} (h : m ∈ s.live now) (hgone : m ∉ s.live later) :
    ∃ t ∈ s.expireAt, t ≤ later := by
  by_contra hnot
  exact hgone (by simpa only [live, if_neg hnot] using s.mem_of_mem_live h)

/-! ## What holds in every state -/

/-- A call has no slot. -/
def NoSlot (live : List (ℕ × ℚ)) (i : ℕ) : Prop := ∀ m ∈ live, m.1 ≠ i

/-- What slot a call has is that of its last request. -/
def OwnSlot (c : Controller) (live : List (ℕ × ℚ)) (i : ℕ) (asked : ℚ) : Prop :=
  ∀ m ∈ live, m.1 = i → m.2 = asked + c.leaseTtlS

/-- A call has its slot, or the time of its lease has passed. -/
def HeldSlot (c : Controller) (live : List (ℕ × ℚ)) (now : ℚ) (i : ℕ) (asked : ℚ) : Prop :=
  (i, asked + c.leaseTtlS) ∈ live ∨ asked + c.leaseTtlS ≤ now

/-- Nothing is on its way for a call. -/
def Call.Quiet (k : Call) : Prop := k.request = none ∧ k.reply = none

/-- A call against the set: a slot that a waiting call has is told by a reply on its way or by none,
and a request that is on its way has taken none yet. -/
def Call.Sound (c : Controller) (live : List (ℕ × ℚ)) (now : ℚ) (i : ℕ) (k : Call) : Prop :=
  match k.phase with
  | .asking asked => asked ≤ now ∧ k.releasing = false ∧ OwnSlot c live i asked ∧
      (k.request = some asked ∧ k.reply = none ∧ NoSlot live i ∨
        k.request = none ∧ (∀ active, k.reply = some (true, active) → HeldSlot c live now i asked) ∧
          ∀ active, k.reply = some (false, active) → NoSlot live i)
  | .sleeping _ | .refused none => k.Quiet ∧ k.releasing = false ∧ NoSlot live i
  | .leased _ asked => k.Quiet ∧ k.releasing = false ∧ OwnSlot c live i asked ∧
      HeldSlot c live now i asked
  | .refused (some asked) => asked ≤ now ∧ k.releasing = false ∧ OwnSlot c live i asked ∧
      (k.request = none ∨ k.request = some asked ∧ NoSlot live i)
  | .released asked freed => k.Quiet ∧ OwnSlot c live i asked ∧ (freed → NoSlot live i)

/-- The invariant of a run. -/
structure World.Sound (c : Controller) (w : World) : Prop where
  bounded : ∀ limit, w.lastLimit = some limit → (w.store.members.length : ℤ) ≤ limit
  unlimited : w.lastLimit = none → w.store.members = []
  outlived : ∀ m ∈ w.store.members, m.2 ≤ w.now + ⌊c.leaseTtlS * 2⌋ ∧
    ∀ t ∈ w.store.expireAt, m.2 ≤ t
  known : ∀ m ∈ w.live, m.1 < w.calls.length
  asked : ∀ now ∈ w.depths, now ≤ w.now
  calls : ∀ (i : ℕ) (k : Call), w.calls[i]? = some k → k.Sound c w.live w.now i

/-- Sound calls stay so while no slot of theirs comes, and none goes but by its time. -/
lemma Call.Sound.mono {live live' : List (ℕ × ℚ)} {now' : ℚ} (h : k.Sound c live now i)
    (hcome : ∀ m ∈ live', m.1 = i → m ∈ live)
    (hgo : ∀ m ∈ live, m.1 = i → m ∈ live' ∨ m.2 ≤ now') (hnow : now ≤ now') :
    k.Sound c live' now' i := by
  have hno : NoSlot live i → NoSlot live' i := fun h m hm heq => h m (hcome m hm heq) heq
  have hown : ∀ asked, OwnSlot c live i asked → OwnSlot c live' i asked :=
    fun asked h m hm heq => h m (hcome m hm heq) heq
  have hheld : ∀ asked, HeldSlot c live now i asked → HeldSlot c live' now' i asked := by
    rintro asked (hmem | hpast)
    · exact hgo _ hmem rfl
    · exact .inr (hpast.trans hnow)
  unfold Sound at h ⊢
  cases hphase : k.phase with
  | asking asked =>
    rw [hphase] at h
    obtain ⟨hasked, hrel, hslot, ⟨hreq, hrep, hnone⟩ | ⟨hreq, hyes, hnone⟩⟩ := h
    · exact ⟨hasked.trans hnow, hrel, hown _ hslot, .inl ⟨hreq, hrep, hno hnone⟩⟩
    · exact ⟨hasked.trans hnow, hrel, hown _ hslot, .inr ⟨hreq, fun a ha => hheld _ (hyes a ha),
        fun a ha => hno (hnone a ha)⟩⟩
  | sleeping wakeAt =>
    rw [hphase] at h
    exact ⟨h.1, h.2.1, hno h.2.2⟩
  | leased lease asked =>
    rw [hphase] at h
    exact ⟨h.1, h.2.1, hown _ h.2.2.1, hheld _ h.2.2.2⟩
  | refused failed =>
    rw [hphase] at h
    cases failed with
    | none => exact ⟨h.1, h.2.1, hno h.2.2⟩
    | some asked =>
      exact ⟨h.1.trans hnow, h.2.1, hown _ h.2.2.1, h.2.2.2.imp id fun h => ⟨h.1, hno h.2⟩⟩
  | released asked freed =>
    rw [hphase] at h
    exact ⟨h.1, hown _ h.2.1, fun hf => hno (h.2.2 hf)⟩

namespace World

lemma initial_sound : initial.Sound c where
  bounded _ h := by cases h
  unlimited _ := rfl
  outlived _ hm := by cases hm
  known _ hm := by cases hm
  asked _ h := by cases h
  calls i k h := by cases h

/-- A step of one call that leaves the set alone. -/
lemma Sound.set (h : w.Sound c) (hk : k.Sound c w.live w.now i) :
    ({ w with calls := w.calls.set i k } : World).Sound c where
  bounded := h.bounded
  unlimited := h.unlimited
  outlived := h.outlived
  known m hm := by
    rw [List.length_set]
    exact h.known m hm
  asked := h.asked
  calls j k' hj := by
    rw [List.getElem?_set] at hj
    split at hj
    · next heq =>
      subst heq
      split at hj
      · cases hj
        exact hk
      · cases hj
    · exact h.calls j k' hj

/-- What is left when some of the members are taken out, for the set itself. -/
lemma Sound.members_filter (h : w.Sound c) (p : ℕ × ℚ → Bool) :
    (∀ limit, w.lastLimit = some limit → ((w.live.filter p).length : ℤ) ≤ limit) ∧
      (w.lastLimit = none → w.live.filter p = []) ∧
      ∀ m ∈ w.live.filter p, m.2 ≤ w.now + ⌊c.leaseTtlS * 2⌋ ∧
        ∀ t ∈ w.store.expireAt, m.2 ≤ t := by
  refine ⟨?_, ?_, ?_⟩
  · intro limit hlimit
    have hbound := h.bounded limit hlimit
    have hfilter := List.length_filter_le p w.live
    have hlive := w.store.length_live_le w.now
    rw [live] at hfilter ⊢
    omega
  · intro hlimit
    have hnil : w.live = [] := by
      rw [live, Store.live, h.unlimited hlimit, ite_self]
    rw [hnil]
    rfl
  · intro m hm
    exact h.outlived m (Store.mem_of_mem_live (List.mem_filter.mp hm).1)

lemma Sound.advance (h : w.Sound c) {later : ℚ} (hle : w.now ≤ later) :
    ({ w with now := later } : World).Sound c where
  bounded := h.bounded
  unlimited := h.unlimited
  outlived m hm := by
    obtain ⟨hkey, hmem⟩ := h.outlived m hm
    exact ⟨hkey.trans (by dsimp only; linarith), hmem⟩
  known m hm := h.known m (Store.live_of_later hle hm)
  asked now hnow := (h.asked now hnow).trans hle
  calls i k hk := by
    apply (h.calls i k hk).mono (fun m hm _ => Store.live_of_later hle hm) _ hle
    intro m hm _
    by_cases hgone : m ∈ w.store.live later
    · exact .inl hgone
    · obtain ⟨t, ht, hpast⟩ := Store.expired_of_not_live hm hgone
      exact .inr (((h.outlived m (Store.mem_of_mem_live hm)).2 t ht).trans hpast)

lemma Sound.acquire (h : w.Sound c) (limit : ℤ) (deadlineS : ℚ) :
    ({ w with calls := w.calls ++
      [⟨limit, deadlineS, w.now, .asking w.now, some w.now, none, false⟩] } : World).Sound c where
  bounded := h.bounded
  unlimited := h.unlimited
  outlived := h.outlived
  known m hm := by
    have := h.known m hm
    simp only [List.length_append]
    omega
  asked := h.asked
  calls i k hk := by
    obtain hlt | hge := Nat.lt_or_ge i w.calls.length
    · rw [List.getElem?_append_left hlt] at hk
      exact h.calls i k hk
    · rw [List.getElem?_append_right hge] at hk
      have hi : i = w.calls.length := by
        have := (List.getElem?_eq_some_iff.mp hk).1
        simp only [List.length_singleton] at this
        omega
      subst hi
      rw [Nat.sub_self] at hk
      obtain rfl := Option.some.inj hk
      have hno : NoSlot w.live w.calls.length := fun m hm => (h.known m hm).ne
      refine ⟨le_rfl, rfl, fun m hm heq => absurd heq (hno m hm), .inl ⟨?_, ?_, hno⟩⟩ <;> simp

lemma Sound.executeDepth (h : w.Sound c) {j : ℕ} {now : ℚ} (hj : w.depths[j]? = some now) :
    ({ w with store := depthLua w.store w.now now, depths := w.depths.eraseIdx j } :
      World).Sound c := by
  have hnow : now ≤ w.now := h.asked now (List.mem_of_getElem? hj)
  have hlive : (depthLua w.store w.now now).live w.now = zremrangebyscore now w.live :=
    w.store.live_filter _
  obtain ⟨hbounded, hunlimited, houtlived⟩ :=
    h.members_filter fun m => decide ¬ (0 ≤ m.2 ∧ m.2 ≤ now)
  refine ⟨hbounded, hunlimited, houtlived, ?_, ?_, ?_⟩
  · intro m hm
    rw [World.live, hlive, mem_zremrangebyscore] at hm
    exact h.known m hm.1
  · intro t ht
    exact h.asked t (List.mem_of_mem_eraseIdx ht)
  · intro i k hk
    rw [World.live, hlive]
    apply (h.calls i k hk).mono _ _ le_rfl
    · intro m hm _
      exact (mem_zremrangebyscore.mp hm).1
    · intro m hm _
      rw [mem_zremrangebyscore]
      by_cases hpast : 0 ≤ m.2 ∧ m.2 ≤ now
      · exact .inr (hpast.2.trans hnow)
      · exact .inl ⟨hm, hpast⟩

/-- A step that is one call's at the set: the others keep their slots but for those whose time has
passed. -/
lemma Sound.set_store (h : w.Sound c) {store : Store} {limit : Option ℤ} {k' : Call}
    (hi : i < w.calls.length)
    (hbounded : ∀ l, limit = some l → (store.members.length : ℤ) ≤ l)
    (hunlimited : limit = none → store.members = [])
    (houtlived : ∀ m ∈ store.members, m.2 ≤ w.now + ⌊c.leaseTtlS * 2⌋ ∧
      ∀ t ∈ store.expireAt, m.2 ≤ t)
    (hcome : ∀ m ∈ store.live w.now, m.1 ≠ i → m ∈ w.live)
    (hgo : ∀ m ∈ w.live, m.1 ≠ i → m ∈ store.live w.now ∨ m.2 ≤ w.now)
    (hk : k'.Sound c (store.live w.now) w.now i) :
    ({ w with store, calls := w.calls.set i k', lastLimit := limit } : World).Sound c where
  bounded := hbounded
  unlimited := hunlimited
  outlived := houtlived
  known m hm := by
    rw [List.length_set]
    by_cases heq : m.1 = i
    · exact heq ▸ hi
    · exact h.known m (hcome m hm heq)
  asked := h.asked
  calls j k'' hj := by
    rw [List.getElem?_set] at hj
    split at hj
    · next heq =>
      subst heq
      cases hj
      exact hk
    · next hne =>
      exact (h.calls j k'' hj).mono (fun m hm heq => hcome m hm (heq ▸ Ne.symm hne))
        (fun m hm heq => hgo m hm (heq ▸ Ne.symm hne)) le_rfl

/-! ## The steps of a call -/

lemma quiet_request (hk : k.Sound c members now i) {t : ℚ} (hreq : k.request = some t) :
    NoSlot members i ∧ t ≤ now ∧ k.releasing = false ∧
      (k.phase = .asking t ∨ k.phase = .refused (some t)) := by
  unfold Call.Sound at hk
  cases hphase : k.phase with
  | asking asked =>
    rw [hphase] at hk
    obtain ⟨hasked, hrel, -, ⟨hsame, -, hno⟩ | ⟨hnone, -⟩⟩ := hk
    · obtain rfl : t = asked := by simpa [hreq] using hsame
      exact ⟨hno, hasked, hrel, .inl rfl⟩
    · simp [hreq] at hnone
  | refused failed =>
    rw [hphase] at hk
    cases failed with
    | none => simp [Call.Quiet, hreq] at hk
    | some asked =>
      obtain ⟨hasked, hrel, -, hnone | ⟨hsame, hno⟩⟩ := hk
      · simp [hreq] at hnone
      · obtain rfl : t = asked := by simpa [hreq] using hsame
        exact ⟨hno, hasked, hrel, .inr rfl⟩
  | sleeping wakeAt => simp [hphase, Call.Quiet, hreq] at hk
  | leased lease asked => simp [hphase, Call.Quiet, hreq] at hk
  | released asked freed => simp [hphase, Call.Quiet, hreq] at hk

lemma acquireLua_cases (c : Controller) (s : Store) (time now : ℚ) (limit : ℤ) (token : ℕ) :
    (((zremrangebyscore now (s.live time)).length : ℤ) < limit ∧
      acquireLua c s time now limit token =
        ⟨⟨zadd (now + c.leaseTtlS) token (zremrangebyscore now (s.live time)),
          some (time + ⌊c.leaseTtlS * 2⌋)⟩, true, (zremrangebyscore now (s.live time)).length⟩) ∨
      acquireLua c s time now limit token =
        ⟨⟨zremrangebyscore now (s.live time), s.expireAt⟩, false,
          (zremrangebyscore now (s.live time)).length⟩ := by
  by_cases hroom : ((zremrangebyscore now (s.live time)).length : ℤ) < limit
  · exact .inl ⟨hroom, by simp only [acquireLua, if_pos hroom]⟩
  · exact .inr (by simp only [acquireLua, if_neg hroom])

/-- The key outlives the lease of its last admission. -/
lemma ttl_le_key (httl : 1 / 2 ≤ c.leaseTtlS) :
    c.leaseTtlS ≤ ⌊c.leaseTtlS * 2⌋ ∧ (0 : ℚ) < ⌊c.leaseTtlS * 2⌋ := by
  have hone : (1 : ℤ) ≤ ⌊c.leaseTtlS * 2⌋ := Int.le_floor.mpr (by push_cast; linarith)
  have hone : (1 : ℚ) ≤ ⌊c.leaseTtlS * 2⌋ := by exact_mod_cast hone
  have hfloor := Int.lt_floor_add_one (c.leaseTtlS * 2)
  constructor
  · obtain hsmall | hlarge := le_total c.leaseTtlS 1 <;> linarith
  · linarith

/-- No slot goes but by the release of its own call or by its time. -/
def FreesOwn (w : World) (e : Event) (w' : World) : Prop :=
  ∀ m ∈ w.live, m ∉ w'.live → m.2 ≤ w'.now ∨ e = .executeRelease m.1

lemma Sound.execute (httl : 1 / 2 ≤ c.leaseTtlS) (h : w.Sound c) (hk : w.calls[i]? = some k)
    (hstep : w.call c i k (.execute i) = some w') :
    w'.Sound c ∧ FreesOwn w (.execute i) w' := by
  simp only [call, Option.map_eq_some_iff] at hstep
  obtain ⟨now, hreq, rfl⟩ := hstep
  have hi : i < w.calls.length := (List.getElem?_eq_some_iff.mp hk).1
  obtain ⟨hno, hnow, hrel, hphase⟩ := quiet_request (h.calls i k hk) hreq
  obtain ⟨hkey, hpos⟩ := ttl_le_key httl
  have hleft : ∀ m ∈ w.live, m ∈ zremrangebyscore now w.live ∨ m.2 ≤ w.now := by
    intro m hm
    rw [mem_zremrangebyscore]
    by_cases hpast : 0 ≤ m.2 ∧ m.2 ≤ now
    · exact .inr (hpast.2.trans hnow)
    · exact .inl ⟨hm, hpast⟩
  obtain ⟨hbounded, hunlimited, houtlived⟩ :=
    h.members_filter fun m => decide ¬ (0 ≤ m.2 ∧ m.2 ≤ now)
  obtain ⟨hroom, ha⟩ | ha := acquireLua_cases c w.store w.now now k.limit i <;> rw [ha]
  · have hlive : ((⟨zadd (now + c.leaseTtlS) i (zremrangebyscore now (w.store.live w.now)),
        some (w.now + ⌊c.leaseTtlS * 2⌋)⟩ : Store).live w.now) =
        zadd (now + c.leaseTtlS) i (zremrangebyscore now (w.store.live w.now)) := by
      rw [Store.live, if_neg]
      rintro ⟨t, ht, hpast⟩
      obtain rfl := Option.some.inj ht
      linarith
    refine ⟨?_, ?_⟩
    · apply h.set_store hi
      · intro l hl
        obtain rfl := Option.some.inj hl
        have := length_zadd_le (now + c.leaseTtlS) i (zremrangebyscore now (w.store.live w.now))
        dsimp only
        omega
      · intro hl
        cases hl
      · intro m hm
        have hlast : m.2 ≤ w.now + ⌊c.leaseTtlS * 2⌋ := by
          obtain ⟨hm, -⟩ | rfl := mem_zadd.mp hm
          · exact (houtlived m hm).1
          · dsimp only
            linarith
        refine ⟨hlast, ?_⟩
        rintro t ⟨⟩
        exact hlast
      · intro m hm hne
        rw [hlive] at hm
        obtain ⟨hm, -⟩ | rfl := mem_zadd.mp hm
        · exact (mem_zremrangebyscore.mp hm).1
        · exact absurd rfl hne
      · intro m hm hne
        rw [hlive, mem_zadd]
        exact (hleft m hm).imp_left fun hm => .inl ⟨hm, hne⟩
      · rw [hlive]
        have hown : OwnSlot c (zadd (now + c.leaseTtlS) i
            (zremrangebyscore now (w.store.live w.now))) i now := by
          intro m hm heq
          obtain ⟨-, hne⟩ | rfl := mem_zadd.mp hm
          · exact absurd heq hne
          · rfl
        have hheld := mem_zadd.mpr (.inr rfl : (i, now + c.leaseTtlS) ∈
          zremrangebyscore now (w.store.live w.now) ∧ i ≠ i ∨ _)
        obtain hphase | hphase := hphase <;> simp only [Call.Sound, hphase]
        · exact ⟨hnow, hrel, hown, .inr ⟨trivial, fun a _ => .inl hheld, fun a ha => by simp at ha⟩⟩
        · exact ⟨hnow, hrel, hown, .inl trivial⟩
    · intro m hm hgone
      rw [live, hlive, mem_zadd] at hgone
      obtain hm | hpast := hleft m hm
      · exact absurd (.inl ⟨hm, hno m (mem_zremrangebyscore.mp hm).1⟩) hgone
      · exact .inl hpast
  · have hlive : (⟨zremrangebyscore now (w.store.live w.now), w.store.expireAt⟩ :
        Store).live w.now = zremrangebyscore now w.live := w.store.live_filter _
    refine ⟨?_, ?_⟩
    · apply h.set_store hi hbounded hunlimited houtlived
      · intro m hm _
        rw [hlive] at hm
        exact (mem_zremrangebyscore.mp hm).1
      · intro m hm _
        rw [hlive]
        exact hleft m hm
      · rw [hlive]
        have hno : NoSlot (zremrangebyscore now w.live) i := fun m hm =>
          hno m (mem_zremrangebyscore.mp hm).1
        have hown : OwnSlot c (zremrangebyscore now w.live) i now := fun m hm heq =>
          absurd heq (hno m hm)
        obtain hphase | hphase := hphase <;> simp only [Call.Sound, hphase]
        · exact ⟨hnow, hrel, hown, .inr ⟨trivial, fun a ha => by simp at ha, fun a _ => hno⟩⟩
        · exact ⟨hnow, hrel, hown, .inl trivial⟩
    · intro m hm hgone
      rw [live, hlive] at hgone
      exact .inl ((hleft m hm).resolve_left hgone)

lemma sound_loseRequest (hk : k.Sound c members now i) {t : ℚ} (hreq : k.request = some t) :
    ({ k with request := none } : Call).Sound c members now i := by
  obtain ⟨-, -, -, hphase | hphase⟩ := quiet_request hk hreq <;>
    simp only [Call.Sound, hphase] at hk ⊢
  · obtain ⟨hasked, hrel, hown, ⟨-, hrep, -⟩ | ⟨-, hyes, hnone⟩⟩ := hk
    · exact ⟨hasked, hrel, hown, .inr ⟨trivial, by simp [hrep], by simp [hrep]⟩⟩
    · exact ⟨hasked, hrel, hown, .inr ⟨trivial, hyes, hnone⟩⟩
  · exact ⟨hk.1, hk.2.1, hk.2.2.1, .inl trivial⟩

lemma phase_of_reply (hk : k.Sound c members now i) {r : Bool × ℕ} (hrep : k.reply = some r) :
    (∃ t, k.phase = .asking t) ∨ ∃ t, k.phase = .refused (some t) := by
  unfold Call.Sound at hk
  cases hphase : k.phase with
  | asking asked => exact .inl ⟨asked, rfl⟩
  | refused failed =>
    cases failed with
    | none => simp [hphase, Call.Quiet, hrep] at hk
    | some t => exact .inr ⟨t, rfl⟩
  | sleeping wakeAt => simp [hphase, Call.Quiet, hrep] at hk
  | leased lease asked => simp [hphase, Call.Quiet, hrep] at hk
  | released asked freed => simp [hphase, Call.Quiet, hrep] at hk

lemma sound_loseReply (hk : k.Sound c members now i) {r : Bool × ℕ} (hrep : k.reply = some r) :
    ({ k with reply := none } : Call).Sound c members now i := by
  obtain ⟨t, hphase⟩ | ⟨t, hphase⟩ := phase_of_reply hk hrep <;>
    simp only [Call.Sound, hphase] at hk ⊢
  · obtain ⟨hasked, hrel, hown, ⟨-, hnone, -⟩ | ⟨hreq, -, -⟩⟩ := hk
    · simp [hrep] at hnone
    · exact ⟨hasked, hrel, hown, .inr ⟨hreq, by simp, by simp⟩⟩
  · exact hk

/-- A call that is told of its slot has it, one that is told of none has none. -/
lemma sound_answered (hk : k.Sound c members now i) {r : Bool × ℕ} (hrep : k.reply = some r) :
    (k.answered c now i r.1 r.2).Sound c members now i := by
  obtain ⟨t, hphase⟩ | ⟨t, hphase⟩ := phase_of_reply hk hrep
  · have hsound := hk
    simp only [Call.Sound, hphase] at hsound
    obtain ⟨hasked, hrel, hown, ⟨-, hnone, -⟩ | ⟨hreq, hyes, hno⟩⟩ := hsound
    · simp [hrep] at hnone
    obtain ⟨admitted, active⟩ := r
    cases admitted with
    | true =>
      simp only [Call.answered, hphase, if_true, Call.Sound]
      exact ⟨⟨hreq, rfl⟩, hrel, hown, hyes active hrep⟩
    | false =>
      simp only [Call.answered, hphase, Bool.false_eq_true, if_false]
      split
      · exact ⟨⟨hreq, rfl⟩, hrel, hno active hrep⟩
      · exact ⟨⟨hreq, rfl⟩, hrel, hno active hrep⟩
  · have hsame : k.answered c now i r.1 r.2 = { k with reply := none } := by
      simp only [Call.answered, hphase]
    rw [hsame]
    exact sound_loseReply hk hrep

lemma Sound.executeRelease (h : w.Sound c) (hk : w.calls[i]? = some k)
    (hstep : w.call c i k (.executeRelease i) = some w') :
    w'.Sound c ∧ FreesOwn w (.executeRelease i) w' := by
  have hsound := h.calls i k hk
  cases hphase : k.phase with
  | released asked freed =>
    simp only [call, hphase, Option.ite_none_right_eq_some] at hstep
    obtain ⟨-, ⟨⟩⟩ := hstep
    simp only [Call.Sound, hphase] at hsound
    have hi : i < w.calls.length := (List.getElem?_eq_some_iff.mp hk).1
    have hlive : (⟨zrem i (w.store.live w.now), w.store.expireAt⟩ : Store).live w.now =
        zrem i w.live := w.store.live_filter _
    obtain ⟨hbounded, hunlimited, houtlived⟩ := h.members_filter fun m => decide (m.1 ≠ i)
    refine ⟨?_, ?_⟩
    · apply h.set_store hi hbounded hunlimited houtlived
      · intro m hm _
        rw [hlive] at hm
        exact (mem_zrem.mp hm).1
      · intro m hm hne
        rw [hlive]
        exact .inl (mem_zrem.mpr ⟨hm, hne⟩)
      · rw [hlive]
        have hno : NoSlot (zrem i w.live) i := fun m hm => (mem_zrem.mp hm).2
        exact ⟨hsound.1, fun m hm heq => absurd heq (hno m hm), fun _ => hno⟩
    · intro m hm hgone
      rw [live, hlive, mem_zrem, not_and_not_right] at hgone
      exact .inr (by rw [hgone hm])
  | asking asked => simp [call, hphase] at hstep
  | sleeping wakeAt => simp [call, hphase] at hstep
  | leased lease asked => simp [call, hphase] at hstep
  | refused failed => simp [call, hphase] at hstep

lemma released_of_releasing (hk : k.Sound c members now i) (hrel : k.releasing = true) :
    ∃ asked freed, k.phase = .released asked freed := by
  unfold Call.Sound at hk
  cases hphase : k.phase with
  | released asked freed => exact ⟨asked, freed, rfl⟩
  | refused failed => cases failed <;> simp [hphase, hrel] at hk
  | asking asked => simp [hphase, hrel] at hk
  | sleeping wakeAt => simp [hphase, hrel] at hk
  | leased lease asked => simp [hphase, hrel] at hk

/-- A step that leaves the set and the time alone frees nothing. -/
lemma freesOwn_of_same (hlive : w'.live = w.live) : FreesOwn w e w' :=
  fun m hm hgone => absurd (hlive ▸ hm) hgone

/-- What a step of a call does. -/
lemma Sound.call (httl : 1 / 2 ≤ c.leaseTtlS) (h : w.Sound c) (hk : w.calls[i]? = some k)
    (hstep : w.call c i k e = some w') (he : e = .execute i ∨ e = .loseRequest i ∨ e = .deliver i ∨
      e = .loseReply i ∨ e = .fail i ∨ e = .poll i ∨ e = .release i ∨ e = .executeRelease i ∨
      e = .loseRelease i) :
    w'.Sound c ∧ FreesOwn w e w' := by
  have hsound := h.calls i k hk
  obtain rfl | rfl | rfl | rfl | rfl | rfl | rfl | rfl | rfl := he
  · exact h.execute httl hk hstep
  · simp only [World.call, Option.map_eq_some_iff] at hstep
    obtain ⟨t, hreq, rfl⟩ := hstep
    exact ⟨h.set (sound_loseRequest hsound hreq), freesOwn_of_same rfl⟩
  · simp only [World.call, Option.map_eq_some_iff] at hstep
    obtain ⟨r, hrep, rfl⟩ := hstep
    exact ⟨h.set (sound_answered hsound hrep), freesOwn_of_same rfl⟩
  · simp only [World.call, Option.map_eq_some_iff] at hstep
    obtain ⟨r, hrep, rfl⟩ := hstep
    exact ⟨h.set (sound_loseReply hsound hrep), freesOwn_of_same rfl⟩
  · cases hphase : k.phase <;> simp only [World.call, hphase] at hstep <;> try cases hstep
    next asked =>
    refine ⟨h.set ?_, freesOwn_of_same rfl⟩
    simp only [Call.Sound, hphase] at hsound ⊢
    obtain ⟨hasked, hrel, hown, ⟨hreq, -, hno⟩ | ⟨hreq, -⟩⟩ := hsound
    · exact ⟨hasked, hrel, hown, .inr ⟨hreq, hno⟩⟩
    · exact ⟨hasked, hrel, hown, .inl hreq⟩
  · cases hphase : k.phase <;>
      simp only [World.call, hphase, Option.ite_none_right_eq_some] at hstep <;> try cases hstep
    next wakeAt hwake hw =>
    obtain rfl := Option.some.inj hw
    refine ⟨h.set ?_, freesOwn_of_same rfl⟩
    simp only [Call.Sound, hphase] at hsound ⊢
    obtain ⟨hquiet, hrel, hno⟩ := hsound
    exact ⟨le_rfl, hrel, fun m hm heq => absurd heq (hno m hm), .inl ⟨trivial, hquiet.2, hno⟩⟩
  · cases hphase : k.phase <;> simp only [World.call, hphase] at hstep <;> try cases hstep
    next lease asked =>
    refine ⟨h.set ?_, freesOwn_of_same rfl⟩
    simp only [Call.Sound, hphase] at hsound ⊢
    exact ⟨hsound.1, hsound.2.2.1, by simp⟩
  · exact h.executeRelease hk hstep
  · simp only [World.call, Option.ite_none_right_eq_some] at hstep
    obtain ⟨hrel, ⟨⟩⟩ := hstep
    refine ⟨h.set ?_, freesOwn_of_same rfl⟩
    obtain ⟨asked, freed, hphase⟩ := released_of_releasing hsound hrel
    simp only [Call.Sound, hphase] at hsound ⊢
    exact hsound

/-- Every step keeps the invariant, and frees no slot that is not its own to free. -/
theorem Sound.step (httl : 1 / 2 ≤ c.leaseTtlS) (h : w.Sound c) (hstep : w.step c e = some w') :
    w'.Sound c ∧ FreesOwn w e w' := by
  cases e with
  | advance later =>
    simp only [World.step, Option.ite_none_right_eq_some] at hstep
    obtain ⟨hle, ⟨⟩⟩ := hstep
    refine ⟨h.advance hle, ?_⟩
    intro m hm hgone
    obtain ⟨t, ht, hpast⟩ := Store.expired_of_not_live hm hgone
    exact .inl (((h.outlived m (Store.mem_of_mem_live hm)).2 t ht).trans hpast)
  | acquire limit deadlineS =>
    obtain rfl := Option.some.inj hstep
    exact ⟨h.acquire limit deadlineS, freesOwn_of_same rfl⟩
  | depth =>
    obtain rfl := Option.some.inj hstep
    refine ⟨{ h with asked := ?_ }, freesOwn_of_same rfl⟩
    intro now hnow
    obtain hnow | hnow := List.mem_append.mp hnow
    · exact h.asked now hnow
    · rw [List.mem_singleton.mp hnow]
  | executeDepth j =>
    simp only [World.step, Option.map_eq_some_iff] at hstep
    obtain ⟨now, hj, rfl⟩ := hstep
    refine ⟨h.executeDepth hj, ?_⟩
    intro m hm hgone
    have hnow : now ≤ w.now := h.asked now (List.mem_of_getElem? hj)
    rw [live, show (depthLua w.store w.now now).live w.now = zremrangebyscore now w.live from
      w.store.live_filter _, mem_zremrangebyscore, not_and_not_right] at hgone
    exact .inl ((hgone hm).2.trans hnow)
  | loseDepth j =>
    obtain rfl := Option.some.inj hstep
    refine ⟨{ h with asked := ?_ }, freesOwn_of_same rfl⟩
    exact fun now hnow => h.asked now (List.mem_of_mem_eraseIdx hnow)
  | execute i | loseRequest i | deliver i | loseReply i | fail i | poll i | release i
  | executeRelease i | loseRelease i =>
    simp only [World.step, Option.bind_eq_some_iff] at hstep
    obtain ⟨k, hk, hstep⟩ := hstep
    exact h.call httl hk hstep (by simp)

end World

/-! ## Over whole runs -/

/-- What the callers can rely on: the set within its limit, a lease with its slot, and no slot left
by a lease whose release has run or by a call that gave up at its deadline. The slot of a release
that was lost, or of a call whose request failed, is one lease from that call's last request. -/
structure Kept (c : Controller) (w : World) : Prop where
  bounded : ∀ limit, w.lastLimit = some limit → (w.unexpired.length : ℤ) ≤ limit
  unlimited : w.lastLimit = none → w.unexpired = []
  held : ∀ (i : ℕ) (k : Call) lease asked, w.calls[i]? = some k → k.phase = .leased lease asked →
    HeldSlot c w.live w.now i asked
  freed : ∀ (i : ℕ) (k : Call) asked, w.calls[i]? = some k → k.phase = .released asked true →
    NoSlot w.live i
  lost : ∀ (i : ℕ) (k : Call) asked, w.calls[i]? = some k → k.phase = .released asked false →
    OwnSlot c w.live i asked
  refused : ∀ (i : ℕ) (k : Call), w.calls[i]? = some k → k.phase = .refused none → NoSlot w.live i
  failed : ∀ (i : ℕ) (k : Call) asked, w.calls[i]? = some k → k.phase = .refused (some asked) →
    OwnSlot c w.live i asked

lemma length_unexpired_le : w.unexpired.length ≤ w.store.members.length :=
  (List.length_filter_le _ _).trans (w.store.length_live_le _)

lemma World.Sound.kept (h : w.Sound c) : Kept c w where
  bounded limit hlimit := by
    have hbound := h.bounded limit hlimit
    have hle := length_unexpired_le (w := w)
    omega
  unlimited hlimit := by
    have hle := length_unexpired_le (w := w)
    rw [h.unlimited hlimit] at hle
    exact List.length_eq_zero_iff.mp (by simpa using hle)
  held i k lease asked hk hphase := by
    have hsound := h.calls i k hk
    simp only [Call.Sound, hphase] at hsound
    exact hsound.2.2.2
  freed i k asked hk hphase := by
    have hsound := h.calls i k hk
    simp only [Call.Sound, hphase] at hsound
    exact hsound.2.2 trivial
  lost i k asked hk hphase := by
    have hsound := h.calls i k hk
    simp only [Call.Sound, hphase] at hsound
    exact hsound.2.1
  refused i k hk hphase := by
    have hsound := h.calls i k hk
    simp only [Call.Sound, hphase] at hsound
    exact hsound.2.2
  failed i k asked hk hphase := by
    have hsound := h.calls i k hk
    simp only [Call.Sound, hphase] at hsound
    exact hsound.2.2.1

/-- In every run the capacity is kept, and no step frees a slot but by its release or its time. -/
theorem capacity_kept (httl : 1 / 2 ≤ c.leaseTtlS) (events : List Event)
    (h : (World.machine c).exec .initial events = some w) :
    Kept c w ∧ ∀ e w', w.step c e = some w' → World.FreesOwn w e w' := by
  have hsound : w.Sound c := by
    apply Transition.Machine.exec_invariant_of_step _ World.initial_sound h
    intro s e t hs hstep
    exact (hs.step httl hstep).1
  exact ⟨hsound.kept, fun e w' hstep => (hsound.step httl hstep).2⟩

/-- A call is admitted, and its caller is never told. -/
def replyLost : List Event := [.acquire 1 0, .execute 0, .loseReply 0, .fail 0]

/-- The one slot is taken, for as long as a lease lasts. -/
def afterReplyLost : World :=
  ⟨0, ⟨[(0, 1900)], some 3800⟩, [⟨1, 0, 0, .refused (some 0), none, none, false⟩], [], some 1⟩

lemma exec_replyLost :
    (World.machine .default).exec .initial replyLost = some afterReplyLost := by
  decide +kernel

theorem afterReplyLost_kept : Kept .default afterReplyLost ∧
    ∀ e w', afterReplyLost.step .default e = some w' → World.FreesOwn afterReplyLost e w' :=
  capacity_kept (by decide +kernel) replyLost exec_replyLost

/-- A call that has answered None has no slot. -/
def NoneLeavesNoSlot (w : World) : Prop :=
  ∀ (i : ℕ) (k : Call) failed, w.calls[i]? = some k → k.phase = .refused failed →
    NoSlot w.unexpired i

/-- A call that answers None because its reply was lost leaves its slot taken. -/
theorem none_leaves_slot : ¬ ∀ events w,
    (World.machine .default).exec .initial events = some w → NoneLeavesNoSlot w := by
  intro h
  have htaken : ((0, 1900) : ℕ × ℚ) ∈ afterReplyLost.unexpired := by decide +kernel
  exact h replyLost afterReplyLost exec_replyLost 0 _ (some 0) rfl rfl (0, 1900) htaken rfl

end MeshPipeline.ModelCapacity
