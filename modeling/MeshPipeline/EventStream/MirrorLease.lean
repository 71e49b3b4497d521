import MeshPipeline.EventStream.FencedPublishing

/-!
# How long the mirror stands

A mirror write gives the key a time to live that was measured from an earlier reading of the clock.
The lease of a claim that is no longer the row's is kept here by the rows committed so far. Where
every write lands at the reading it was measured from, and no beat that renewed a lease is undone,
the key is gone before the lease of the claim it stands for.
-/

namespace MeshPipeline

open LeaseRepository

/-- The claim and its mirror, with every row committed so far, newest first. -/
structure LeasedWorld where
  base : FencingWorld
  history : List SimulationJob

namespace LeasedWorld

def step (cfg : Settings) (w : LeasedWorld) (op : FenceOp) : Option LeasedWorld :=
  (FencingWorld.step cfg w.base op).map fun base =>
    ⟨base, match op with
      | .commit => (w.base.tx.map (·.row)).toList ++ w.history
      | _ => w.history⟩

def machine (cfg : Settings) : Transition.Machine LeasedWorld FenceOp := ⟨step cfg⟩

/-- A job just created, with nothing in Redis. -/
def created (id : JobId) (ownerId : String) (organizationId : Option Nat) (now : Int) :
    LeasedWorld :=
  ⟨.created id ownerId organizationId now, [JobRepository.create id ownerId organizationId now]⟩

/-- The row as it was written so far, by the open transaction and by the committed ones. -/
def written (w : LeasedWorld) : List SimulationJob := (w.base.tx.map (·.row)).toList ++ w.history

/-- The row is held under this fingerprint. -/
def heldUnder (value : Fingerprint) (row : SimulationJob) : Bool :=
  holderFingerprint row == some value

/-- The row as it was last written under the claim of a fingerprint. -/
def claimRow (w : LeasedWorld) (value : Fingerprint) : Option SimulationJob :=
  w.written.find? (heldUnder value)

/-- `lease_expires_at` of the claim of a fingerprint. -/
def leaseOf (w : LeasedWorld) (value : Fingerprint) : Option Int :=
  (w.claimRow value).bind (·.leaseExpiresAt)

/-- The property: the fence key expires no later than the lease of the claim it stands for. -/
def WithinLease (w : LeasedWorld) : Prop :=
  ∀ e ∈ w.base.fence, ∃ expires ∈ w.leaseOf e.value, e.expiresAt ≤ expires

/-- The open transaction is a beat that renewed the lease of the row's holder. -/
def Renews (w : LeasedWorld) (tx : RowTx) : Prop :=
  tx.granted = none ∧ tx.row.activeWorkerToken.isSome ∧
    tx.row.leaseExpiresAt ≠ w.base.row.leaseExpiresAt

/-- The condition: a write of the mirror lands no later than the reading of the clock that its
lease was last written from, and no beat that renewed a lease is rolled back. -/
def Prompt (cfg : Settings) (w : LeasedWorld) : FenceOp → Prop
  | .install own => ∀ row ∈ w.claimRow own.fingerprint, ∀ t ∈ row.leaseHeartbeatAt, w.base.clock ≤ t
  | .heartbeatLock own target now =>
    (heartbeat (some w.base.row) own target now cfg.lease).1 = true → w.base.clock ≤ now
  | .rollback => ∀ tx ∈ w.base.tx, ¬ Renews w tx
  | _ => True

instance (w : LeasedWorld) : Decidable (WithinLease w) :=
  inferInstanceAs <| Decidable <| ∀ e ∈ w.base.fence, ∃ expires ∈ w.leaseOf e.value, _

instance (w : LeasedWorld) (tx : RowTx) : Decidable (Renews w tx) :=
  inferInstanceAs <| Decidable <| _ ∧ _ ∧ _

instance (cfg : Settings) (w : LeasedWorld) : (op : FenceOp) → Decidable (Prompt cfg w op)
  | .install own => inferInstanceAs <| Decidable <| ∀ row ∈ w.claimRow own.fingerprint,
      ∀ t ∈ row.leaseHeartbeatAt, w.base.clock ≤ t
  | .heartbeatLock .. => inferInstanceAs <| Decidable <| _ → _
  | .rollback => inferInstanceAs <| Decidable <| ∀ tx ∈ w.base.tx, ¬ Renews w tx
  | .tick _ | .lapse | .claimLock .. | .evictLock _ | .releaseLock .. | .handBackRevoke _
  | .handBackLock .. | .commit | .authorize .. | .emit _ => isTrue trivial

variable {cfg : Settings} {w v : LeasedWorld} {op : FenceOp} {row : SimulationJob}
  {value : Fingerprint} {own : ExecutionOwnership}

/-! ## Rows and their holders -/

theorem names_iff_heldUnder : names row own ↔ heldUnder own.fingerprint row := by
  cases htoken : row.activeWorkerToken <;>
    simp [names, heldUnder, holderFingerprint, htoken, ExecutionOwnership.fingerprint]

/-- Every fingerprint is that of some ownership. -/
theorem exists_fingerprint (value : Fingerprint) :
    ∃ own : ExecutionOwnership, own.fingerprint = value :=
  ⟨⟨value.generation, value.token, "", none, 0, 0⟩, rfl⟩

theorem heldUnder_of_names {row' : SimulationJob} (h : ∀ own, names row' own → names row own)
    (hheld : heldUnder value row') : heldUnder value row := by
  obtain ⟨own, rfl⟩ := exists_fingerprint value
  exact names_iff_heldUnder.mp (h own (names_iff_heldUnder.mpr hheld))

theorem isSome_of_heldUnder (h : heldUnder value row) : row.activeWorkerToken.isSome := by
  cases htoken : row.activeWorkerToken <;> simp [heldUnder, holderFingerprint, htoken] at h ⊢

/-- A held row carries the reading of the clock that its lease was written from. -/
def Timed (cfg : Settings) (clock : Int) (row : SimulationJob) : Prop :=
  row.activeWorkerToken.isSome →
    ∃ t ≤ clock, row.leaseHeartbeatAt = some t ∧ row.leaseExpiresAt = some (t + cfg.lease)

/-- Every claim is in the history, and the mirror stands for one of them and within its lease. -/
structure Leased (cfg : Settings) (w : LeasedWorld) : Prop where
  sound : w.base.Sound
  newest : w.history.head? = some w.base.row
  timed : ∀ row ∈ w.written, Timed cfg w.base.clock row
  ttl : ∀ own ∈ w.base.granted, own.fenceTtlSeconds = cfg.workerLeaseSeconds
  recorded : ∀ own ∈ w.base.granted, (w.history.find? (heldUnder own.fingerprint)).isSome
  holder : ∀ value, heldUnder value w.base.row → ∃ own ∈ w.base.granted, own.fingerprint = value
  tx : ∀ tx ∈ w.base.tx, ∀ own ∈ tx.granted,
    own.fenceTtlSeconds = cfg.workerLeaseSeconds ∧ heldUnder own.fingerprint tx.row
  stands : ∀ e ∈ w.base.fence, ∃ own ∈ w.base.granted, own.fingerprint = e.value
  within : WithinLease w

theorem leased_created (id : JobId) (ownerId : String) (organizationId : Option Nat) (now : Int) :
    Leased cfg (created id ownerId organizationId now) where
  sound := FencingWorld.sound_created id ownerId organizationId now
  newest := rfl
  timed := by simp [created, written, FencingWorld.created, Timed, JobRepository.create]
  ttl := by simp [created, FencingWorld.created]
  recorded := by simp [created, FencingWorld.created]
  holder value h := by
    simp [created, FencingWorld.created, heldUnder, holderFingerprint, JobRepository.create] at h
  tx := by simp [created, FencingWorld.created]
  stands := by simp [created, FencingWorld.created, FencingWorld.fence, JobStream.empty]
  within := by
    simp [WithinLease, created, FencingWorld.created, FencingWorld.fence, JobStream.empty]

theorem claimRow_of_written (h : v.written = w.written) : v.claimRow value = w.claimRow value := by
  rw [claimRow, claimRow, h]

theorem leaseOf_of_written (h : v.written = w.written) : v.leaseOf value = w.leaseOf value := by
  rw [leaseOf, leaseOf, claimRow_of_written h]

theorem history_eq (h : Leased cfg w) : ∃ older, w.history = w.base.row :: older := by
  cases hh : w.history with
  | nil => simpa [hh] using h.newest
  | cons row older =>
    obtain rfl : row = w.base.row := by simpa [hh] using h.newest
    exact ⟨older, rfl⟩

/-! ## Taking the lock -/

/-- A locked row is a fresh claim's, or one whose lease, if it is still held, does not end before
that of the row it replaces. -/
structure Replaces (cfg : Settings) (w : LeasedWorld) (row : SimulationJob)
    (granted : Option ExecutionOwnership) : Prop where
  sound : FencingWorld.TxSound w.base ⟨row, granted⟩
  timed : Timed cfg w.base.clock row
  grants : ∀ own ∈ granted,
    own.fenceTtlSeconds = cfg.workerLeaseSeconds ∧ heldUnder own.fingerprint row
  keeps : granted = none → row.activeWorkerToken.isSome →
    ∀ expires ∈ w.base.row.leaseExpiresAt, ∃ expires' ∈ row.leaseExpiresAt, expires ≤ expires'

/-- The mirror after a lock is the one before, or stands for the row that was locked. -/
def Mirrors (w : LeasedWorld) (row : SimulationJob) (key : FenceKey) : Prop :=
  ∀ e ∈ key, e ∈ w.base.fence ∨
    heldUnder e.value row ∧ heldUnder e.value w.base.row ∧
      ∃ expires ∈ row.leaseExpiresAt, e.expiresAt ≤ expires

theorem leased_lock (h : Leased cfg w) (htx : w.base.tx = none)
    {granted : Option ExecutionOwnership} {key : FenceKey} (hrow : Replaces cfg w row granted)
    (hkey : Mirrors w row key) : Leased cfg ⟨w.base.lock row granted key, w.history⟩ := by
  have hbefore : w.written = w.history := by simp [written, htx]
  have hafter : (⟨w.base.lock row granted key, w.history⟩ : LeasedWorld).written =
      row :: w.history := rfl
  have hstands : ∀ e ∈ key, ∃ own ∈ w.base.granted, own.fingerprint = e.value := by
    intro e he
    obtain hold | ⟨-, hheld, -⟩ := hkey e he
    · exact h.stands e hold
    · exact h.holder e.value hheld
  refine ⟨FencingWorld.sound_lock h.sound hrow.sound, h.newest, ?_, h.ttl, h.recorded, h.holder, ?_,
    hstands, ?_⟩
  · intro row' hmem
    obtain rfl | hmem := List.mem_cons.mp (hafter ▸ hmem)
    · exact hrow.timed
    · exact h.timed row' (hbefore ▸ hmem)
  · rintro tx ⟨⟩
    exact hrow.grants
  · intro e he
    rw [leaseOf, claimRow, hafter]
    by_cases hheld : heldUnder e.value row
    · rw [List.find?_cons_of_pos hheld]
      obtain hold | ⟨-, -, hexpires⟩ := hkey e he
      · cases granted with
        | none =>
          -- the row's own holder, under a lease that ends no earlier
          have hbase : heldUnder e.value w.base.row := heldUnder_of_names hrow.sound hheld
          obtain ⟨expires, hexp, hle⟩ := h.within e hold
          obtain ⟨older, hhist⟩ := history_eq h
          rw [leaseOf, claimRow, hbefore, hhist, List.find?_cons_of_pos hbase] at hexp
          obtain ⟨expires', hexp', hle'⟩ :=
            hrow.keeps rfl (isSome_of_heldUnder hheld) expires hexp
          exact ⟨expires', hexp', Int.le_trans hle hle'⟩
        | some own =>
          -- a fresh claim's fingerprint is in no mirror yet
          obtain ⟨other, hmem, hother⟩ := h.stands e hold
          have hown := (hrow.grants own rfl).2
          have hsame : other.fingerprint = own.fingerprint := by
            simp only [heldUnder, beq_iff_eq] at hheld hown
            exact hother.trans (Option.some.inj (hheld.symm.trans hown))
          have hfresh : w.base.freshToken own.workerToken := hrow.sound.2
          exact absurd (FencingWorld.fingerprint_eq_iff.mp hsame).2
            (FencingWorld.ne_of_freshToken hfresh hmem)
      · exact hexpires
    · rw [List.find?_cons_of_neg hheld]
      obtain hold | ⟨hnot, -, -⟩ := hkey e he
      · have hwithin := h.within e hold
        rw [leaseOf, claimRow, hbefore] at hwithin
        exact hwithin
      · exact absurd hnot hheld

theorem mem_of_revoked {value? : Option Fingerprint} {e : FenceEntry}
    (he : e ∈ w.base.revoked value?) : e ∈ w.base.fence := by
  cases value? with
  | none => exact he
  | some value =>
    simp only [FencingWorld.revoked, Option.elim_some, Fence.revoke] at he
    split at he
    · cases he
    · exact he

theorem mirrors_revoked (row : SimulationJob) (value? : Option Fingerprint) :
    Mirrors w row (w.base.revoked value?) :=
  fun _ he => .inl (mem_of_revoked he)

theorem Leased.timed_row (h : Leased cfg w) : Timed cfg w.base.clock w.base.row := by
  obtain ⟨older, hhist⟩ := history_eq h
  exact h.timed _ (by simp [written, hhist])

/-- A locked row that is the one there, or one that nobody holds. -/
theorem replaces_of_token (h : Leased cfg w)
    (hsound : ∀ own, names row own → names w.base.row own)
    (hrow : row = w.base.row ∨ row.activeWorkerToken = none) : Replaces cfg w row none := by
  refine ⟨hsound, ?_, (fun _ hmem => by cases hmem), ?_⟩
  · obtain rfl | hnone := hrow
    · exact h.timed_row
    · intro hsome
      simp [hnone] at hsome
  · intro _ hsome expires hexpires
    obtain rfl | hnone := hrow
    · exact ⟨expires, hexpires, Int.le_refl _⟩
    · simp [hnone] at hsome

theorem release_eq (now : Int) : (release (some row) own now).getD row = row ∨
    ((release (some row) own now).getD row).activeWorkerToken = none := by
  simp only [release]
  split
  · exact .inl rfl
  · split
    · exact .inr rfl
    · exact .inl rfl

theorem handBack_eq (now : Int) : (handBack (some row) own now).2.getD row = row ∨
    ((handBack (some row) own now).2.getD row).activeWorkerToken = none := by
  simp only [handBack]
  split
  · exact .inr rfl
  · exact .inl rfl

/-! ## Beats -/

theorem mem_of_refreshOrHeal {key : FenceKey} {ttl now : Int} {e : FenceEntry}
    (he : e ∈ Fence.refreshOrHeal key value ttl now) : e ∈ key ∨ e = Fence.entry value ttl now := by
  simp only [Fence.refreshOrHeal, Fence.refresh, Fence.heal, Option.mem_def] at he ⊢
  grind

/-- A key written for a full lease stands for just that long. -/
theorem entry_expiresAt (cfg : Settings) (value : Fingerprint) (now : Int) :
    (Fence.entry value cfg.workerLeaseSeconds now).expiresAt = now + cfg.lease := by
  have hpos := cfg.workerLeaseSeconds_pos
  simp only [Fence.entry, Settings.lease, seconds]
  omega

/-- What a beat leaves of the columns of the lease. -/
theorem heartbeat_lease (row : SimulationJob) (own : ExecutionOwnership) (target : Option Int)
    (now leaseFor : Int) :
    let beat := heartbeat (some row) own target now leaseFor
    (beat.2.getD row).activeWorkerToken = row.activeWorkerToken ∧
      (beat.2.getD row).executionGeneration = row.executionGeneration ∧
      ((beat.2.getD row).leaseHeartbeatAt, (beat.2.getD row).leaseExpiresAt) =
        if beat.1 then (some now, some (now + leaseFor))
        else (row.leaseHeartbeatAt, row.leaseExpiresAt) := by
  obtain ⟨deadline, updatedAt, hextended, -⟩ := extendDeadline_eq row target now
  simp only [heartbeat, hextended]
  split
  · exact ⟨rfl, rfl, rfl⟩
  · split
    · exact ⟨rfl, rfl, rfl⟩
    · split <;> exact ⟨rfl, rfl, rfl⟩

theorem leased_heartbeat (h : Leased cfg w) (htx : w.base.tx = none) {target : Option Int}
    {now : Int} (hnow : now ≤ w.base.clock)
    (hprompt : Prompt cfg w (.heartbeatLock own target now)) :
    Leased cfg ⟨w.base.heartbeatLock cfg own target now, w.history⟩ := by
  obtain ⟨htoken, hgeneration, hlease⟩ := heartbeat_lease w.base.row own target now cfg.lease
  have hnames : ∀ other, names
      ((heartbeat (some w.base.row) own target now cfg.lease).2.getD w.base.row) other →
        names w.base.row other := fun _ => names_of_heartbeat
  rw [FencingWorld.heartbeatLock]
  cases hbeat : (heartbeat (some w.base.row) own target now cfg.lease).1 with
  | false =>
    rw [hbeat, if_neg (by simp), Prod.mk.injEq] at hlease
    rw [if_neg (by simp)]
    refine leased_lock h htx ⟨hnames, ?_, (fun _ hmem => by cases hmem), ?_⟩ fun e he => .inl he
    · intro hsome
      obtain ⟨t, hle, hbeatAt, hexpires⟩ := h.timed_row (htoken ▸ hsome)
      exact ⟨t, hle, hlease.1.trans hbeatAt, hlease.2.trans hexpires⟩
    · intro _ _ expires hexpires
      exact ⟨expires, hlease.2.trans hexpires, Int.le_refl _⟩
  | true =>
    have hown : names w.base.row own := names_of_heartbeat_true hbeat
    have hclock : w.base.clock = now := Int.le_antisymm (hprompt hbeat) hnow
    have hheld : heldUnder own.fingerprint
        ((heartbeat (some w.base.row) own target now cfg.lease).2.getD w.base.row) := by
      rw [← names_iff_heldUnder, names, htoken, hgeneration]
      exact hown
    rw [hbeat, if_pos rfl, Prod.mk.injEq] at hlease
    rw [if_pos rfl]
    generalize (heartbeat (some w.base.row) own target now cfg.lease).2.getD w.base.row = row
      at hlease hnames htoken hheld
    have httl := fenceTtlSeconds_of_lease hlease.2
    refine leased_lock h htx ⟨hnames, ?_, (fun _ hmem => by cases hmem), ?_⟩ ?_
    · exact fun _ => ⟨now, hnow, hlease.1, hlease.2⟩
    · intro _ hsome expires hexpires
      obtain ⟨t, hle, -, hbefore⟩ := h.timed_row (htoken ▸ hsome)
      obtain rfl : t + cfg.lease = expires := Option.some.inj (hbefore.symm.trans hexpires)
      exact ⟨_, hlease.2, by omega⟩
    · intro e he
      obtain hold | rfl := mem_of_refreshOrHeal he
      · exact .inl hold
      · refine .inr ⟨hheld, names_iff_heldUnder.mp hown, _, hlease.2, ?_⟩
        rw [httl, hclock]
        exact Int.le_of_eq (entry_expiresAt cfg own.fingerprint now)

/-! ## The other steps -/

theorem leased_claim (h : Leased cfg w) (htx : w.base.tx = none) {token : Token} {backend : String}
    {execution : Option String} {now : Int} (hnow : now ≤ w.base.clock)
    (hfresh : w.base.freshToken token) :
    Leased cfg ⟨w.base.claimLock cfg token backend execution now, w.history⟩ := by
  obtain hsame | ⟨_, own, row, outgoing, hclaim, hlock⟩ :=
    FencingWorld.claimLock_cases cfg w.base token backend execution now
  · rw [hsame]
    exact h
  · obtain ⟨-, -, -, rfl, rfl, hrow, httl⟩ := granted_of_claimExecution hclaim
    have hlease : row.leaseExpiresAt = some (now + cfg.lease) := by rw [hrow]; rfl
    rw [hlock]
    refine leased_lock h htx ⟨⟨by rw [hrow]; rfl, hfresh⟩, ?_, ?_, (fun hno => by cases hno)⟩
      (mirrors_revoked row outgoing)
    · exact fun _ => ⟨now, hnow, by rw [hrow]; rfl, hlease⟩
    · rintro _ ⟨⟩
      refine ⟨httl.trans (fenceTtlSeconds_of_lease hlease), ?_⟩
      rw [← names_iff_heldUnder, hrow]
      simp [names, claimed]

/-- A step that leaves the rows alone and writes nothing to the mirror. -/
theorem Leased.of_base (h : Leased cfg w) {base : FencingWorld} (hsound : base.Sound)
    (hclock : w.base.clock ≤ base.clock) (hrow : base.row = w.base.row) (htx : base.tx = w.base.tx)
    (hgranted : base.granted = w.base.granted) (hfence : ∀ e ∈ base.fence, e ∈ w.base.fence) :
    Leased cfg ⟨base, w.history⟩ := by
  have hwritten : (⟨base, w.history⟩ : LeasedWorld).written = w.written := by
    simp [written, htx]
  refine ⟨hsound, ?_, ?_, ?_, ?_, ?_, ?_, ?_, ?_⟩
  · simpa [hrow] using h.newest
  · intro row hmem hsome
    obtain ⟨t, hle, hbeat, hexpires⟩ := h.timed row (hwritten ▸ hmem) hsome
    exact ⟨t, Int.le_trans hle hclock, hbeat, hexpires⟩
  · simpa only [hgranted] using h.ttl
  · simpa only [hgranted] using h.recorded
  · simpa only [hgranted, hrow] using h.holder
  · simpa only [htx] using h.tx
  · intro e he
    simpa only [hgranted] using h.stands e (hfence e he)
  · intro e he
    rw [leaseOf_of_written hwritten]
    exact h.within e (hfence e he)

/-- The row on record under a granted ownership, with the reading its lease was written from. -/
theorem Leased.recorded_row (h : Leased cfg w) (hmem : own ∈ w.base.granted) :
    ∃ row t, w.claimRow own.fingerprint = some row ∧ row.leaseHeartbeatAt = some t ∧
      row.leaseExpiresAt = some (t + cfg.lease) := by
  have hfound : (w.claimRow own.fingerprint).isSome := by
    obtain ⟨row, hrow⟩ := Option.isSome_iff_exists.mp (h.recorded own hmem)
    have hin : row ∈ w.written := List.mem_append_right _ (List.mem_of_find?_eq_some hrow)
    exact List.find?_isSome.mpr ⟨row, hin, List.find?_some hrow⟩
  obtain ⟨row, hrow⟩ := Option.isSome_iff_exists.mp hfound
  have hheld : heldUnder own.fingerprint row := List.find?_some hrow
  obtain ⟨t, -, hbeat, hexpires⟩ :=
    h.timed row (List.mem_of_find?_eq_some hrow) (isSome_of_heldUnder hheld)
  exact ⟨row, t, hrow, hbeat, hexpires⟩

/-- An install is within the lease just when it is prompt. -/
theorem withinLease_install_iff (h : Leased cfg w) (hmem : own ∈ w.base.granted) :
    WithinLease ⟨w.base.install own, w.history⟩ ↔ Prompt cfg w (.install own) := by
  obtain ⟨row, t, hrow, hbeat, hexpires⟩ := h.recorded_row hmem
  have hpos := cfg.workerLeaseSeconds_pos
  have hfence : (w.base.install own).fence =
      some (Fence.entry own.fingerprint cfg.workerLeaseSeconds w.base.clock) := by
    simp only [FencingWorld.install, FencingWorld.setFence, FencingWorld.fence, Fence.install,
      h.ttl own hmem, if_neg (Nat.ne_of_gt hpos)]
  have hwritten : (⟨w.base.install own, w.history⟩ : LeasedWorld).written = w.written := rfl
  have hlease : (⟨w.base.install own, w.history⟩ : LeasedWorld).leaseOf own.fingerprint =
      some (t + cfg.lease) := by
    rw [leaseOf_of_written hwritten, leaseOf, hrow]
    exact hexpires
  have hvalue : (Fence.entry own.fingerprint cfg.workerLeaseSeconds w.base.clock).value =
      own.fingerprint := rfl
  simp only [WithinLease, Prompt, hfence, hrow, hbeat, Option.mem_def, Option.some.injEq,
    forall_eq', hvalue, hlease, entry_expiresAt, exists_eq_left']
  omega

theorem leased_install (h : Leased cfg w) (hmem : own ∈ w.base.granted)
    (hsound : (w.base.install own).Sound) (hprompt : Prompt cfg w (.install own)) :
    Leased cfg ⟨w.base.install own, w.history⟩ := by
  refine ⟨hsound, h.newest, h.timed, h.ttl, h.recorded, h.holder, h.tx, ?_,
    (withinLease_install_iff h hmem).mpr hprompt⟩
  rintro e ⟨⟩
  exact ⟨own, hmem, rfl⟩

theorem leased_commit (h : Leased cfg w) {tx : RowTx} (htx : w.base.tx = some tx)
    (hsound : FencingWorld.Sound { w.base with
      row := tx.row, tx := none, granted := tx.granted.toList ++ w.base.granted }) :
    Leased cfg ⟨{ w.base with
      row := tx.row, tx := none, granted := tx.granted.toList ++ w.base.granted },
        tx.row :: w.history⟩ := by
  have hwritten : w.written = tx.row :: w.history := by simp [written, htx]
  have hold : ∀ own ∈ w.base.granted, own ∈ tx.granted.toList ++ w.base.granted :=
    fun own hmem => List.mem_append_right _ hmem
  refine ⟨hsound, rfl, ?_, ?_, ?_, ?_, (by simp), ?_, ?_⟩
  · intro row hmem
    exact h.timed row (hwritten ▸ hmem)
  · intro own hmem
    obtain hmem | hmem := List.mem_append.mp hmem
    · exact (h.tx tx htx own (by simpa using hmem)).1
    · exact h.ttl own hmem
  · intro own hmem
    obtain hmem | hmem := List.mem_append.mp hmem
    · rw [List.find?_cons_of_pos (h.tx tx htx own (by simpa using hmem)).2]
      rfl
    · by_cases hheld : heldUnder own.fingerprint tx.row
      · rw [List.find?_cons_of_pos hheld]
        rfl
      · rw [List.find?_cons_of_neg hheld]
        exact h.recorded own hmem
  · intro value hheld
    have htxSound := h.sound.tx tx htx
    unfold FencingWorld.TxSound at htxSound
    cases hg : tx.granted with
    | none =>
      rw [hg] at htxSound
      obtain ⟨own, hmem, hown⟩ := h.holder value (heldUnder_of_names htxSound hheld)
      exact ⟨own, by simpa using hmem, hown⟩
    | some own =>
      have hown := (h.tx tx htx own hg).2
      simp only [heldUnder, beq_iff_eq] at hheld hown
      exact ⟨own, by simp, Option.some.inj (hown.symm.trans hheld)⟩
  · intro e he
    obtain ⟨own, hmem, hown⟩ := h.stands e he
    exact ⟨own, hold own hmem, hown⟩
  · intro e he
    have hwithin := h.within e he
    rw [leaseOf, claimRow, hwritten] at hwithin
    exact hwithin

theorem leased_rollback (h : Leased cfg w) {tx : RowTx} (htx : w.base.tx = some tx)
    (hsound : FencingWorld.Sound { w.base with tx := none }) (hprompt : ¬ Renews w tx) :
    Leased cfg ⟨{ w.base with tx := none }, w.history⟩ := by
  have hwritten : w.written = tx.row :: w.history := by simp [written, htx]
  have hafter : (⟨{ w.base with tx := none }, w.history⟩ : LeasedWorld).written = w.history := rfl
  refine ⟨hsound, h.newest, ?_, h.ttl, h.recorded, h.holder, (by simp), h.stands, ?_⟩
  · intro row hmem
    exact h.timed row (by rw [hwritten]; exact List.mem_cons_of_mem _ hmem)
  · intro e he
    have hwithin := h.within e he
    rw [leaseOf, claimRow, hwritten] at hwithin
    rw [leaseOf, claimRow, hafter]
    by_cases hheld : heldUnder e.value tx.row
    · rw [List.find?_cons_of_pos hheld] at hwithin
      have htxSound := h.sound.tx tx htx
      unfold FencingWorld.TxSound at htxSound
      cases hg : tx.granted with
      | none =>
        -- the undone row was not a beat's, so it had the lease of the row that stays
        rw [hg] at htxSound
        have hsame : tx.row.leaseExpiresAt = w.base.row.leaseExpiresAt := by
          by_contra hne
          exact hprompt ⟨hg, isSome_of_heldUnder hheld, hne⟩
        obtain ⟨older, hhist⟩ := history_eq h
        rw [hhist, List.find?_cons_of_pos (heldUnder_of_names htxSound hheld)]
        rw [Option.bind_some, ← hsame]
        exact hwithin
      | some own =>
        rw [hg] at htxSound
        obtain ⟨other, hmem, hother⟩ := h.stands e he
        have hown := (h.tx tx htx own hg).2
        simp only [heldUnder, beq_iff_eq] at hheld hown
        have hsame : other.fingerprint = own.fingerprint :=
          hother.trans (Option.some.inj (hheld.symm.trans hown))
        exact absurd (FencingWorld.fingerprint_eq_iff.mp hsame).2
          (FencingWorld.ne_of_freshToken htxSound.2 hmem)
    · rw [List.find?_cons_of_neg hheld] at hwithin
      exact hwithin

theorem leased_step (h : Leased cfg w) (hprompt : Prompt cfg w op)
    (hstep : (machine cfg).step w op = some v) : Leased cfg v := by
  obtain ⟨base, hbase, rfl⟩ := Option.map_eq_some_iff.mp hstep
  have hsound : base.Sound := FencingWorld.sound_step h.sound hbase
  have htx : ∀ {now : Int}, w.base.lockable now = true → w.base.tx = none ∧ now ≤ w.base.clock := by
    intro now hlock
    simpa [FencingWorld.lockable] using hlock
  cases op with
  | tick d =>
    cases hbase
    exact h.of_base hsound (Int.le_add_of_nonneg_right (Int.natCast_nonneg d)) rfl rfl rfl
      fun _ he => he
  | lapse =>
    cases hbase
    exact h.of_base hsound (Int.le_refl _) rfl rfl rfl fun _ he => by cases he
  | claimLock token backend execution now =>
    simp only [FencingWorld.step] at hbase
    split at hbase <;> cases hbase
    next hguard => exact leased_claim h (htx hguard.1).1 (htx hguard.1).2 hguard.2
  | heartbeatLock own target now =>
    simp only [FencingWorld.step] at hbase
    split at hbase <;> cases hbase
    next hguard => exact leased_heartbeat h (htx hguard).1 (htx hguard).2 hprompt
  | evictLock now =>
    simp only [FencingWorld.step] at hbase
    split at hbase <;> cases hbase
    next hguard =>
      exact leased_lock h (htx hguard).1
        (replaces_of_token h (fun _ => names_of_evictOwner) (.inr evictOwner_token))
        (mirrors_revoked _ _)
  | releaseLock own now =>
    simp only [FencingWorld.step] at hbase
    split at hbase <;> cases hbase
    next hguard =>
      exact leased_lock h (htx hguard).1
        (replaces_of_token h (fun _ => names_of_release) (release_eq now)) (mirrors_revoked _ _)
  | handBackRevoke own =>
    cases hbase
    exact h.of_base hsound (Int.le_refl _) rfl rfl rfl fun _ he =>
      @mem_of_revoked w (some own.fingerprint) _ he
  | handBackLock own now =>
    simp only [FencingWorld.step] at hbase
    split at hbase <;> cases hbase
    next hguard =>
      exact leased_lock h (htx hguard).1
        (replaces_of_token h (fun _ => names_of_handBack) (handBack_eq now))
        fun _ he => .inl he
  | commit =>
    obtain ⟨tx, htx, rfl⟩ := Option.map_eq_some_iff.mp hbase
    simpa [htx] using leased_commit h htx hsound
  | rollback =>
    obtain ⟨tx, htx, rfl⟩ := Option.map_eq_some_iff.mp hbase
    exact leased_rollback h htx hsound (hprompt tx htx)
  | install own =>
    simp only [FencingWorld.step] at hbase
    split at hbase <;> cases hbase
    next hguard => exact leased_install h hguard.1 hsound hprompt
  | authorize own event opKey =>
    simp only [FencingWorld.step] at hbase
    split at hbase <;> cases hbase
    unfold FencingWorld.authorize at hsound ⊢
    split at hsound
    · next hcurrent =>
      rw [if_pos hcurrent]
      exact h.of_base hsound (Int.le_refl _) rfl rfl rfl fun _ he => he
    · next hcurrent =>
      rw [if_neg hcurrent]
      exact h
  | emit i =>
    obtain ⟨p, -, rfl⟩ := Option.map_eq_some_iff.mp hbase
    refine h.of_base hsound (Int.le_refl _) rfl rfl rfl fun e he => ?_
    have hfence : (w.base.publish p).2.fence = w.base.fence := JobStream.emit_fence _
    exact hfence ▸ he

/-- In every run whose mirror writes are prompt and whose renewing beats commit, the fence key
expires no later than the lease of the claim it stands for. -/
theorem mirror_within_lease (cfg : Settings) (id : JobId) (ownerId : String)
    (organizationId : Option Nat) (now : Int) {ops : List FenceOp} {w : LeasedWorld}
    (hprompt : (machine cfg).Meets (Prompt cfg) (created id ownerId organizationId now) ops)
    (h : (machine cfg).exec (created id ownerId organizationId now) ops = some w) :
    WithinLease w :=
  (Transition.Machine.exec_invariant (I := Leased cfg) (fun _ _ _ => leased_step)
    (leased_created id ownerId organizationId now) hprompt h).within

/-- A first delivery that claims the job and installs its fence `delay` microseconds later. -/
def firstDelivery (delay : Nat) : List FenceOp :=
  [.claimLock 1 "celery" none 0, .commit, .tick delay,
    .install ⟨1, 1, "celery", some 21600000000, 1, 900⟩]

theorem mirror_within_lease_prompt :
    ∃ w, (machine .default).exec (created 7 "ada" none 0) (firstDelivery 0) = some w ∧
      WithinLease w := by
  have hruns : ((machine .default).exec (created 7 "ada" none 0) (firstDelivery 0)).isSome := by
    decide +kernel
  obtain ⟨w, hw⟩ := Option.isSome_iff_exists.mp hruns
  exact ⟨w, hw, mirror_within_lease .default 7 "ada" none 0 (by decide +kernel) hw⟩

/-- A second between the claim and the install, and the mirror outlives the lease by a second. -/
theorem mirror_outlives_lease :
    ∃ w ∈ (machine .default).exec (created 7 "ada" none 0) (firstDelivery 1000000),
      ¬ WithinLease w := by
  decide +kernel

end LeasedWorld

end MeshPipeline
