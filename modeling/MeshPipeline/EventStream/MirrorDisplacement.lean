import MeshPipeline.EventStream.FencedPublishing

/-!
# Who writes the mirror

Refresh, heal and revoke compare what they overwrite; the install does not. While every install is
the row's holder's own, the holder's fingerprint is the only one its mirror ever shows, and it
stands at least as long as the lease.
-/

namespace MeshPipeline.FencingWorld

open LeaseRepository

/-- The worker that makes a step on its own account. -/
def worker (w : FencingWorld) : FenceOp → Option ExecutionOwnership
  | .heartbeatLock own _ _ | .releaseLock own _ | .handBackRevoke own | .handBackLock own _
  | .install own | .authorize own _ _ => some own
  | .emit i => (w.inFlight[i]?).map (·.own)
  | .tick _ | .lapse | .claimLock _ _ _ _ | .evictLock _ | .commit | .rollback => none

/-- The condition: an install lands while its ownership is still the one the row names. -/
def InstallsHolder (w : FencingWorld) : FenceOp → Prop
  | .install own => names w.row own
  | _ => True

/-- Nobody takes the mirror from its holder on purpose: Redis keeps the key, no cancel evicts the
holder, and the holder does not give the job up. -/
def Contends (w : FencingWorld) : FenceOp → Prop
  | .lapse | .evictLock _ => False
  | .releaseLock own _ | .handBackRevoke own | .handBackLock own _ => names w.row own = false
  | _ => True

/-- The property: a worker the row does not name leaves the installed mirror of the holder. -/
def Kept (cfg : Settings) (w : FencingWorld) (op : FenceOp) : Prop :=
  ∀ own ∈ w.running, names w.row own → w.mirrored = some own.fingerprint →
    ∀ other ∈ w.worker op, names w.row other = false →
      ∀ w' ∈ step cfg w op, w'.mirrored = some own.fingerprint

/-- The property: no publication of the owner is refused while its lease is live. -/
def Served (w : FencingWorld) : FenceOp → Prop
  | .emit i => ∀ p ∈ w.inFlight[i]?, isCurrentOwner (some w.row) p.own →
      leaseActive w.row w.clock → (w.publish p).1 ≠ .stale
  | _ => True

instance (w : FencingWorld) : (op : FenceOp) → Decidable (w.InstallsHolder op)
  | .install own => inferInstanceAs <| Decidable <| names w.row own = true
  | .tick _ | .lapse | .claimLock .. | .heartbeatLock .. | .evictLock _ | .releaseLock ..
  | .handBackRevoke _ | .handBackLock .. | .commit | .rollback | .authorize .. | .emit _ =>
    isTrue trivial

instance (w : FencingWorld) : (op : FenceOp) → Decidable (w.Contends op)
  | .lapse | .evictLock _ => isFalse id
  | .releaseLock own _ | .handBackRevoke own | .handBackLock own _ =>
    inferInstanceAs <| Decidable <| names w.row own = false
  | .tick _ | .claimLock .. | .heartbeatLock .. | .commit | .rollback | .install _
  | .authorize .. | .emit _ => isTrue trivial

instance (cfg : Settings) (w : FencingWorld) (op : FenceOp) : Decidable (Kept cfg w op) :=
  inferInstanceAs <| Decidable <| ∀ own ∈ w.running, _ → _ → ∀ other ∈ w.worker op, _ →
    ∀ w' ∈ step cfg w op, w'.mirrored = some own.fingerprint

instance (w : FencingWorld) : (op : FenceOp) → Decidable (w.Served op)
  | .emit i => inferInstanceAs <| Decidable <| ∀ p ∈ w.inFlight[i]?, _ → _ →
      (w.publish p).1 ≠ .stale
  | .tick _ | .lapse | .claimLock .. | .heartbeatLock .. | .evictLock _ | .releaseLock ..
  | .handBackRevoke _ | .handBackLock .. | .commit | .rollback | .install _ | .authorize .. =>
    isTrue trivial

variable {cfg : Settings} {w w' : FencingWorld} {op : FenceOp}

/-! ## A superseded worker -/

theorem fingerprint_ne {row : SimulationJob} {own other : ExecutionOwnership}
    (hown : names row own) (hother : names row other = false) :
    own.fingerprint ≠ other.fingerprint := by
  intro h
  rw [names_congr h, hother] at hown
  cases hown

/-- A revoke of another fingerprint leaves the mirror as it is. -/
theorem revoked_of_ne {fp value : Fingerprint} (hne : fp ≠ value) (h : w.mirrored = some fp) :
    w.revoked (some value) = w.fence := by
  have hcurrent : Fence.current w.fence w.clock ≠ some value := by
    rintro hvalue
    exact hne (Option.some.inj (h.symm.trans hvalue))
  simp [revoked, Fence.revoke, hcurrent]

/-- No step but an install lets a worker that lost the job touch the holder's mirror. -/
theorem kept_of_installsHolder (hop : w.InstallsHolder op) : Kept cfg w op := by
  intro own _ hown hmirror other hother hlost w' hstep
  have hne := fingerprint_ne hown hlost
  cases op with
  | tick | lapse | claimLock | evictLock | commit | rollback => cases hother
  | heartbeatLock own' target now =>
    obtain rfl : own' = other := Option.some.inj hother
    simp only [step, Option.mem_def] at hstep
    split at hstep <;> cases hstep
    have hbeat : (heartbeat (some w.row) own' target now cfg.lease).1 = false :=
      (refused_of_not_names hlost).2.2 target now cfg.lease
    rw [heartbeatLock, mirrored_lock, if_neg (by simp [hbeat])]
    exact hmirror
  | releaseLock own' now =>
    obtain rfl : own' = other := Option.some.inj hother
    simp only [step, Option.mem_def] at hstep
    split at hstep <;> cases hstep
    rw [mirrored_lock, releaseRevokes, if_neg (by simp [hlost])]
    exact hmirror
  | handBackRevoke own' =>
    obtain rfl : own' = other := Option.some.inj hother
    cases hstep
    rw [mirrored_setFence, revoked_of_ne hne hmirror]
    exact hmirror
  | handBackLock own' now =>
    simp only [step, Option.mem_def] at hstep
    split at hstep <;> cases hstep
    exact hmirror
  | install own' =>
    obtain rfl : own' = other := Option.some.inj hother
    exact absurd hop (by simp [InstallsHolder, hlost])
  | authorize own' event opKey =>
    simp only [step, Option.mem_def] at hstep
    split at hstep <;> cases hstep
    unfold authorize
    split <;> exact hmirror
  | emit i =>
    obtain ⟨p, -, rfl⟩ := Option.map_eq_some_iff.mp hstep
    exact (congrArg (Fence.current · w.clock) (JobStream.emit_fence _)).trans hmirror

/-! ## The holder's mirror -/

/-- While the row's lease lasts, the mirror shows its holder's fingerprint, and will as long. -/
def Covers (w : FencingWorld) (row : SimulationJob) : Prop :=
  ∀ own ∈ w.running, names row own → ∀ expires, row.leaseExpiresAt = some expires →
    w.clock < expires →
    ∃ e, w.fence = some e ∧ e.value = own.fingerprint ∧ expires ≤ e.expiresAt

/-- No lease reaches further than one written now. -/
def Bounded (cfg : Settings) (w : FencingWorld) (row : SimulationJob) : Prop :=
  ∀ expires, row.leaseExpiresAt = some expires → expires ≤ w.clock + cfg.lease

/-- What the mirror of a started holder is, for the committed row and for an open transaction. -/
structure Mirroring (cfg : Settings) (w : FencingWorld) : Prop where
  alone : ∀ own ∈ w.running, names w.row own →
    w.mirrored = none ∨ w.mirrored = some own.fingerprint
  covers : Covers w w.row
  bounded : Bounded cfg w w.row
  ttl : ∀ own ∈ w.granted, own.fenceTtlSeconds = cfg.workerLeaseSeconds
  tx : ∀ tx ∈ w.tx, Covers w tx.row ∧ Bounded cfg w tx.row ∧
    ∀ own ∈ tx.granted, own.fenceTtlSeconds = cfg.workerLeaseSeconds

theorem mirroring_created (id : JobId) (ownerId : String) (organizationId : Option Nat)
    (now : Int) : Mirroring cfg (created id ownerId organizationId now) where
  alone own h := absurd h List.not_mem_nil
  covers own h := absurd h List.not_mem_nil
  bounded expires h := by simp [created, JobRepository.create] at h
  ttl own h := absurd h List.not_mem_nil
  tx tx h := by simp [created] at h

/-- An entry just written for a full lease covers every row whose holders carry its value. -/
theorem covers_entry {row : SimulationJob} {own : ExecutionOwnership} {ttl : Int}
    (hfence : w.fence = some (Fence.entry own.fingerprint ttl w.clock))
    (httl : ttl = cfg.workerLeaseSeconds) (hbounded : Bounded cfg w row)
    (hsame : ∀ other ∈ w.running, names row other → other.fingerprint = own.fingerprint) :
    Covers w row := by
  intro other hmem hnames expires hexpires _
  refine ⟨_, hfence, (hsame other hmem hnames).symm, ?_⟩
  have hle := hbounded expires hexpires
  have hpos := cfg.workerLeaseSeconds_pos
  simp only [Settings.lease, seconds] at hle
  simp only [Fence.entry, seconds, httl]
  omega

/-- The row of an open transaction names nobody who has started but the row's own holder. -/
theorem names_of_tx (hs : w.Sound) {tx : RowTx} (htx : tx ∈ w.tx) {own : ExecutionOwnership}
    (hmem : own ∈ w.running) (hnames : names tx.row own) : names w.row own := by
  have hsound := hs.tx tx htx
  unfold TxSound at hsound
  cases hg : tx.granted with
  | none =>
    rw [hg] at hsound
    exact hsound own hnames
  | some new =>
    rw [hg] at hsound
    obtain ⟨htoken, hfresh⟩ := hsound
    have hsame := Option.some.inj (htoken.symm.trans (token_of_names hnames))
    exact absurd hsame.symm (ne_of_freshToken hfresh (hs.running own hmem))

theorem fingerprint_of_names {row : SimulationJob} {a b : ExecutionOwnership}
    (ha : names row a) (hb : names row b) : a.fingerprint = b.fingerprint := by
  refine fingerprint_eq_iff.mpr ⟨(names_iff.mp ha).1.symm.trans (names_iff.mp hb).1, ?_⟩
  exact Option.some.inj ((token_of_names ha).symm.trans (token_of_names hb))

theorem mirroring_tick (hm : Mirroring cfg w) (d : Nat) :
    Mirroring cfg { w with clock := w.clock + d } := by
  have hle : w.clock ≤ w.clock + d := Int.le_add_of_nonneg_right (Int.natCast_nonneg d)
  have hcovers (row : SimulationJob) (h : Covers w row) :
      Covers { w with clock := w.clock + d } row := by
    intro own hmem hnames expires hexpires hlive
    exact h own hmem hnames expires hexpires (Int.lt_of_le_of_lt hle hlive)
  have hbounded (row : SimulationJob) (h : Bounded cfg w row) :
      Bounded cfg { w with clock := w.clock + d } row := by
    intro expires hexpires
    have := h expires hexpires
    change expires ≤ w.clock + d + cfg.lease
    omega
  refine ⟨?_, hcovers _ hm.covers, hbounded _ hm.bounded, hm.ttl, ?_⟩
  · intro own hmem hnames
    cases hlater : Fence.current w.fence (w.clock + d) with
    | none => exact .inl hlater
    | some fp =>
      have hnow : w.mirrored = some fp := Fence.current_mono hle hlater
      rcases hm.alone own hmem hnames with hnone | hown
      · exact absurd (hnow.symm.trans hnone) (by simp)
      · exact .inr (hlater.trans (hnow.symm.trans hown))
  · intro tx htx
    obtain ⟨hc, hb, ht⟩ := hm.tx tx htx
    exact ⟨hcovers _ hc, hbounded _ hb, ht⟩

/-- A transaction that leaves the row and the mirror as they are. -/
theorem mirroring_lock_same (hm : Mirroring cfg w) :
    Mirroring cfg (w.lock w.row none w.fence) := by
  refine ⟨hm.alone, hm.covers, hm.bounded, hm.ttl, ?_⟩
  rintro tx ⟨⟩
  exact ⟨hm.covers, hm.bounded, nofun⟩

theorem mirroring_heartbeat (hm : Mirroring cfg w) (own : ExecutionOwnership)
    (target : Option Int) {now : Int} (hnow : now ≤ w.clock) :
    Mirroring cfg (w.heartbeatLock cfg own target now) := by
  have hlease := lease_of_heartbeat w.row own target now cfg.lease
  have hnamed : ∀ other,
      names ((heartbeat (some w.row) own target now cfg.lease).2.getD w.row) other →
        names w.row other := fun _ => names_of_heartbeat
  cases hbeat : (heartbeat (some w.row) own target now cfg.lease).1 with
  | false =>
    rw [hbeat, if_neg (by simp)] at hlease
    rw [heartbeatLock, hbeat, if_neg (by simp)]
    refine ⟨hm.alone, hm.covers, hm.bounded, hm.ttl, ?_⟩
    rintro tx ⟨⟩
    refine ⟨?_, ?_, fun _ granted => by cases granted⟩
    · intro other hmem hnames expires hexpires
      exact hm.covers other hmem (hnamed other hnames) expires (hlease ▸ hexpires)
    · intro expires hexpires
      exact hm.bounded expires (hlease ▸ hexpires)
  | true =>
    have hown : names w.row own := names_of_heartbeat_true hbeat
    rw [hbeat, if_pos rfl] at hlease
    have hsame : ∀ other ∈ w.running, names w.row other →
        other.fingerprint = own.fingerprint :=
      fun other _ hother => fingerprint_of_names hother hown
    generalize hrow : (heartbeat (some w.row) own target now cfg.lease).2.getD w.row = row
      at hlease hnamed
    have httl := fenceTtlSeconds_of_lease hlease
    -- where somebody has started under this row, only its own fingerprint can be there
    have hkey : ∀ other ∈ w.running, names w.row other →
        Fence.refreshOrHeal w.fence own.fingerprint (fenceTtlSeconds row now) w.clock =
          some (Fence.entry own.fingerprint (fenceTtlSeconds row now) w.clock) := by
      intro other hmem hother
      apply Fence.refreshOrHeal_eq
      have halone := hm.alone other hmem hother
      rw [hsame other hmem hother] at halone
      exact halone
    have hrenewed : Bounded cfg w row := by
      intro expires hexpires
      have : now + cfg.lease = expires := Option.some.inj (hlease.symm.trans hexpires)
      omega
    rw [heartbeatLock, hbeat, if_pos rfl, hrow]
    refine ⟨?_, ?_, hm.bounded, hm.ttl, ?_⟩
    · intro other hmem hother
      right
      rw [mirrored_lock, hkey other hmem hother, Fence.current_entry, hsame other hmem hother]
    · intro other hmem hother
      exact covers_entry (w := w.lock row none _) (hkey other hmem hother)
        (congrArg Int.ofNat httl) hm.bounded hsame other hmem hother
    · rintro tx ⟨⟩
      refine ⟨?_, hrenewed, fun _ granted => by cases granted⟩
      intro other hmem hother
      exact covers_entry (w := w.lock row none _) (hkey other hmem (hnamed other hother))
        (congrArg Int.ofNat httl) hrenewed (fun a ha hname => hsame a ha (hnamed a hname)) other
        hmem hother

theorem mirroring_claim (hs : w.Sound) (hm : Mirroring cfg w) {token : Token} {backend : String}
    {execution : Option String} {now : Int} (hnow : now ≤ w.clock) (hfresh : w.freshToken token) :
    Mirroring cfg (w.claimLock cfg token backend execution now) := by
  obtain hsame | ⟨_, own, row, outgoing, hclaim, hlock⟩ :=
    claimLock_cases cfg w token backend execution now
  · rw [hsame]
    exact hm
  · obtain ⟨-, hfree, -, rfl, rfl, hrow, httl⟩ := granted_of_claimExecution hclaim
    have hlease : row.leaseExpiresAt = some (now + cfg.lease) := by rw [hrow]; rfl
    rw [hlock]
    refine ⟨?_, ?_, hm.bounded, hm.ttl, ?_⟩
    · intro other hmem hother
      cases hcurrent : Fence.current (w.revoked outgoing) w.clock with
      | none => exact .inl hcurrent
      | some fp =>
        right
        have hmirror : w.mirrored = some fp := mirrored_of_revoked hcurrent
        rcases hm.alone other hmem hother with hnone | hown
        · exact absurd (hmirror.symm.trans hnone) (by simp)
        · exact hcurrent.trans (hmirror.symm.trans hown)
    · -- a claim is granted only over a lease that has run out
      intro other hmem hother expires hexpires hlive
      have hheld : w.row.activeWorkerToken = some other.workerToken := token_of_names hother
      exfalso
      rcases hfree with hlapsed | htoken
      · have hexpires : w.row.leaseExpiresAt = some expires := hexpires
        have : expires ≤ now := by simpa [leaseActive, hheld, hexpires] using hlapsed
        change w.clock < expires at hlive
        omega
      · have := ne_of_freshToken hfresh (hs.running other hmem)
        exact this (Option.some.inj (hheld.symm.trans htoken))
    · rintro tx ⟨⟩
      refine ⟨?_, ?_, ?_⟩
      · intro other hmem hother
        rw [hrow] at hother
        have hsame : own.workerToken = other.workerToken := Option.some.inj (token_of_names hother)
        exact absurd hsame.symm (ne_of_freshToken hfresh (hs.running other hmem))
      · intro expires hexpires
        have : now + cfg.lease = expires := Option.some.inj (hlease.symm.trans hexpires)
        change expires ≤ w.clock + cfg.lease
        omega
      · rintro other ⟨⟩
        exact httl.trans (fenceTtlSeconds_of_lease hlease)

theorem mirroring_install (hs : w.Sound) (hm : Mirroring cfg w) {own : ExecutionOwnership}
    (hmem : own ∈ w.granted) (hown : names w.row own) : Mirroring cfg (w.install own) := by
  have hpos := cfg.workerLeaseSeconds_pos
  have httl : (if own.fenceTtlSeconds = 0 then 1 else (own.fenceTtlSeconds : Int)) =
      cfg.workerLeaseSeconds := by
    rw [hm.ttl own hmem, if_neg (by omega)]
  have hsame : ∀ other, names w.row other → other.fingerprint = own.fingerprint :=
    fun other hother => fingerprint_of_names hother hown
  refine ⟨?_, ?_, hm.bounded, hm.ttl, ?_⟩
  · intro other _ hother
    right
    rw [hsame other hother]
    exact Fence.current_entry
  · exact covers_entry rfl httl hm.bounded fun other _ hother => hsame other hother
  · intro tx htx
    obtain ⟨-, hb, ht⟩ := hm.tx tx htx
    refine ⟨covers_entry rfl httl hb ?_, hb, ht⟩
    intro other hrunning hother
    rcases List.mem_cons.mp hrunning with rfl | hrunning
    · rfl
    · exact hsame other (names_of_tx hs htx hrunning hother)

/-- Revoking a fingerprint that no named worker carries leaves its mirror covered. -/
theorem covers_revoke {row : SimulationJob} {value : Fingerprint} (hc : Covers w row)
    (hne : ∀ own ∈ w.running, names row own → own.fingerprint ≠ value) :
    Covers (w.setFence (w.revoked (some value))) row := by
  intro own hmem hnames expires hexpires hlive
  obtain ⟨e, hfence, hvalue, hlater⟩ := hc own hmem hnames expires hexpires hlive
  have hlive : w.clock < expires := hlive
  have hmirror : w.mirrored = some own.fingerprint := by
    rw [mirrored, hfence, Fence.current_of_live (by omega), hvalue]
  refine ⟨e, ?_, hvalue, hlater⟩
  exact (revoked_of_ne (hne own hmem hnames) hmirror).trans hfence

theorem mirroring_handBackRevoke (hs : w.Sound) (hm : Mirroring cfg w)
    {own : ExecutionOwnership} (hlost : names w.row own = false) :
    Mirroring cfg (w.setFence (w.revoked (some own.fingerprint))) := by
  refine ⟨?_, ?_, hm.bounded, hm.ttl, ?_⟩
  · intro other hmem hother
    cases hcurrent : Fence.current (w.revoked (some own.fingerprint)) w.clock with
    | none => exact .inl hcurrent
    | some fp =>
      have hmirror : w.mirrored = some fp := mirrored_of_revoked hcurrent
      rcases hm.alone other hmem hother with hnone | hown
      · exact absurd (hmirror.symm.trans hnone) (by simp)
      · exact .inr (hcurrent.trans (hmirror.symm.trans hown))
  · exact covers_revoke hm.covers fun other _ hother => fingerprint_ne hother hlost
  · intro tx htx
    obtain ⟨hc, hb, ht⟩ := hm.tx tx htx
    refine ⟨covers_revoke hc ?_, hb, ht⟩
    intro other hmem hother
    exact fingerprint_ne (names_of_tx hs htx hmem hother) hlost

theorem mirroring_commit (hs : w.Sound) (hm : Mirroring cfg w) {tx : RowTx} (htx : tx ∈ w.tx) :
    Mirroring cfg
      { w with row := tx.row, tx := none, granted := tx.granted.toList ++ w.granted } := by
  obtain ⟨hc, hb, ht⟩ := hm.tx tx htx
  refine ⟨?_, hc, hb, ?_, by simp⟩
  · intro own hmem hnames
    exact hm.alone own hmem (names_of_tx hs htx hmem hnames)
  · intro own hmem
    rcases List.mem_append.mp hmem with hnew | hold
    · exact ht own (Option.mem_toList.mp hnew)
    · exact hm.ttl own hold

/-- Whatever leaves the fence key alone leaves the mirror as it is. -/
theorem Mirroring.of_fence (hm : Mirroring cfg w) {stream : JobStream}
    {inFlight : List Publication} (h : stream.fence = w.fence) :
    Mirroring cfg { w with stream := stream, inFlight := inFlight } := by
  refine ⟨?_, ?_, hm.bounded, hm.ttl, ?_⟩
  · intro own hmem hnames
    unfold mirrored
    rw [fence, h]
    exact hm.alone own hmem hnames
  · intro own hmem hnames
    rw [fence, h]
    exact hm.covers own hmem hnames
  · intro tx htx
    refine ⟨?_, (hm.tx tx htx).2⟩
    intro own hmem hnames
    rw [fence, h]
    exact (hm.tx tx htx).1 own hmem hnames

theorem mirroring_step (hs : w.Sound) (hm : Mirroring cfg w) (hinstall : w.InstallsHolder op)
    (hop : w.Contends op) (h : step cfg w op = some w') : Mirroring cfg w' := by
  cases op with
  | lapse | evictLock => exact hop.elim
  | tick d => cases h; exact mirroring_tick hm d
  | claimLock token backend execution now =>
    simp only [step, lockable, Bool.and_eq_true, decide_eq_true_eq] at h
    split at h
    · rename_i hc
      cases h
      exact mirroring_claim hs hm hc.1.2 hc.2
    · cases h
  | heartbeatLock own target now =>
    simp only [step, lockable, Bool.and_eq_true, decide_eq_true_eq] at h
    split at h
    · rename_i hc
      cases h
      exact mirroring_heartbeat hm own target hc.2
    · cases h
  | releaseLock own now =>
    have hlost : names w.row own = false := hop
    simp only [step] at h
    split at h <;> cases h
    have hrow : (release (some w.row) own now).getD w.row = w.row := by
      simp [release, hlost]
    rw [hrow, releaseRevokes, if_neg (by simp [hlost])]
    exact mirroring_lock_same hm
  | handBackLock own now =>
    have hlost : names w.row own = false := hop
    simp only [step] at h
    split at h <;> cases h
    have hrow : (handBack (some w.row) own now).2.getD w.row = w.row := by
      simp [handBack, hlost]
    rw [hrow]
    exact mirroring_lock_same hm
  | handBackRevoke own => cases h; exact mirroring_handBackRevoke hs hm hop
  | commit =>
    obtain ⟨tx, htx, rfl⟩ := Option.map_eq_some_iff.mp h
    exact mirroring_commit hs hm htx
  | rollback =>
    obtain ⟨tx, -, rfl⟩ := Option.map_eq_some_iff.mp h
    exact ⟨hm.alone, hm.covers, hm.bounded, hm.ttl, by simp⟩
  | install own =>
    simp only [step] at h
    split at h
    · rename_i hi
      cases h
      exact mirroring_install hs hm hi.1 hinstall
    · cases h
  | authorize own event opKey =>
    simp only [step] at h
    split at h <;> cases h
    unfold authorize
    split
    · exact hm.of_fence rfl
    · exact hm
  | emit i =>
    obtain ⟨p, -, rfl⟩ := Option.map_eq_some_iff.mp h
    exact hm.of_fence (JobStream.emit_fence _)

theorem served (hs : w.Sound) (hm : Mirroring cfg w) : w.Served op := by
  cases op with
  | emit i =>
    intro p hp howner hlive hstale
    have hnames : names w.row p.own := (Bool.and_eq_true_iff.mp howner).2
    have hmem : p.own ∈ w.running := hs.inFlight p (List.mem_of_getElem? hp)
    cases hexpires : w.row.leaseExpiresAt with
    | none => simp [leaseActive, hexpires] at hlive
    | some expires =>
      have hlater : w.clock < expires := by
        simp only [leaseActive, hexpires, Option.any_some, Bool.and_eq_true,
          decide_eq_true_eq] at hlive
        exact hlive.2
      obtain ⟨e, hfence, hvalue, hle⟩ := hm.covers p.own hmem hnames expires hexpires hlater
      have hcurrent : Fence.current w.fence w.clock = some p.own.fingerprint := by
        rw [hfence, Fence.current_of_live (by omega), hvalue]
      exact JobStream.emit_stale_iff.mp hstale hcurrent
  | _ => trivial

/-- In a run whose installs are all the row's holder's own, no superseded worker replaces or
removes the holder's mirror. And where nobody takes the mirror from the holder on purpose, no
publication of the owner is refused while its lease is live. -/
theorem mirror_undisplaced (cfg : Settings) (id : JobId) (ownerId : String)
    (organizationId : Option Nat) (now : Int) (ops : List FenceOp)
    (h : (machine cfg).Meets InstallsHolder (created id ownerId organizationId now) ops) :
    (machine cfg).Meets (Kept cfg) (created id ownerId organizationId now) ops ∧
      ((machine cfg).Meets Contends (created id ownerId organizationId now) ops →
        (machine cfg).Meets Served (created id ownerId organizationId now) ops) := by
  refine ⟨Transition.Machine.meets_mono (fun _ _ hop => kept_of_installsHolder hop) h, ?_⟩
  intro hcontends
  refine Transition.Machine.meets_of_invariant (I := fun w => w.Sound ∧ Mirroring cfg w)
    (P := fun w op => w.InstallsHolder op ∧ w.Contends op) ?_ ?_
    ⟨sound_created id ownerId organizationId now, mirroring_created id ownerId organizationId now⟩
    (Transition.Machine.meets_and (P := InstallsHolder) (Q := Contends) |>.mpr ⟨h, hcontends⟩)
  · rintro w op w' ⟨hs, hm⟩ ⟨hinstall, hop⟩ hstep
    exact ⟨sound_step hs hstep, mirroring_step hs hm hinstall hop hstep⟩
  · rintro w op ⟨hs, hm⟩ -
    exact served hs hm

/-- A claims and stalls. B takes the job over and installs its fence, publishes and beats. -/
def stalledInstall (late : List FenceOp) : List FenceOp :=
  let b : ExecutionOwnership := ⟨2, 2, "celery", some 21600000000, 2, 900⟩
  [.claimLock 1 "celery" (some "vm-1") 0, .commit, .tick 900000000,
    .claimLock 2 "celery" (some "vm-2") 900000000, .commit, .install b] ++ late ++
  [.authorize b "meshed" "", .emit 0, .heartbeatLock b none 900000000, .commit,
    .authorize b "meshed" "", .emit 0]

theorem mirror_undisplaced_takeover :
    (machine .default).Meets (Kept .default) (created 7 "ada" none 0) (stalledInstall []) ∧
      (machine .default).Meets Served (created 7 "ada" none 0) (stalledInstall []) := by
  have h := mirror_undisplaced .default 7 "ada" none 0 (stalledInstall []) (by decide +kernel)
  exact ⟨h.1, h.2 (by decide +kernel)⟩

/-- A resumes and installs its fence over B's: B's mirror is gone, its beat cannot bring it back,
and its publications are refused. -/
theorem mirror_displaced_by_late_install :
    let late : FenceOp := .install ⟨1, 1, "celery", some 21600000000, 1, 900⟩
    (machine .default).Meets Contends (created 7 "ada" none 0) (stalledInstall [late]) ∧
      ¬ (machine .default).Meets (Kept .default) (created 7 "ada" none 0) (stalledInstall [late]) ∧
      ¬ (machine .default).Meets Served (created 7 "ada" none 0) (stalledInstall [late]) := by
  refine ⟨?_, ?_, ?_⟩ <;> decide +kernel

end MeshPipeline.FencingWorld
