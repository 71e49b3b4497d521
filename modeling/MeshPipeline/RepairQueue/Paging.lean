import Mathlib.Data.Int.Order.Basic
import Mathlib.Data.Prod.Lex
import MeshPipeline.Library.Cursor
import MeshPipeline.RepairQueue.Jobs

/-!
# The repair queue, page by page

The queue over the jobs of every tenant: the most urgent first, then the oldest, then by id. A page
is cut from the queue as it is when the page is read, and the rows come from the database in no
order of their own.
-/

namespace MeshPipeline.RepairQueue

/-- What the queue is ordered by. -/
def CadRepairJob.key (j : CadRepairJob) : ℤ ×ₗ ℕ ×ₗ ℕ :=
  toLex (j.servicePriority, toLex (j.createdAt, j.id))

/-- What a reader of the queue asks for. -/
structure QueueFilter where
  statuses : List RepairJobStatus := []
  operator : String := ""
  unassigned : Bool := false
  deriving DecidableEq

/-- The `WHERE` of `operator_queue`. -/
def QueueFilter.Matches (f : QueueFilter) (j : CadRepairJob) : Prop :=
  (f.statuses ≠ [] → j.status ∈ f.statuses) ∧
    if f.unassigned then j.assignedOperator = none
    else f.operator ≠ "" → j.assignedOperator = some f.operator

instance (f : QueueFilter) (j : CadRepairJob) : Decidable (f.Matches j) := by
  unfold QueueFilter.Matches
  infer_instance

/-- The rows of `operator_queue` before they are cut. -/
def queue (f : QueueFilter) (table : List CadRepairJob) : List CadRepairJob :=
  (table.filter (f.Matches ·)).mergeSort fun a b => a.key ≤ b.key

/-- `operator_queue`. -/
def operatorQueue (table : List CadRepairJob) (f : QueueFilter) (limit offset : ℤ) :
    List CadRepairJob :=
  ((queue f table).drop (max 0 offset).toNat).take limit.toNat

def allStatuses : List RepairJobStatus :=
  [.received, .inspecting, .awaitingStrategy, .repairing, .repairReview, .meshing, .meshReview,
    .manualCleanup, .retrying, .escalated, .waitingCustomer, .customerBlocked, .serviceFailed,
    .delivered, .repairDelivered, .deliveryDisputed, .deadLettered, .expired, .cancelled]

/-- `_statuses`: the names between commas; the first unknown one is refused. -/
def statuses (text : String) : Except String (List RepairJobStatus) :=
  let names := (text.toList.splitOn ',').map fun cs => Text.strip (String.ofList cs)
  (names.filter (· ≠ "")).mapM fun name =>
    match allStatuses.find? (·.value = name) with
    | some s => .ok s
    | none => .error s!"unknown repair status: {name}"

/-- The filter that the query of `read_queue` asks for. -/
def QueueFilter.ofQuery (status operator : String) (unassigned : Bool) :
    Except String QueueFilter :=
  (RepairQueue.statuses status).map fun wanted => ⟨wanted, operator, unassigned⟩

structure Page where
  jobs : List CadRepairJob
  offset : ℤ
  limit : ℤ
  returned : ℕ
  hasMore : Bool
  nextOffset : Option ℤ

/-- How many jobs a page holds. -/
def bounded (limit : ℤ) : ℤ := max 1 (min limit 200)

/-- `read_queue` with its filter read: one row more than the page is asked for. -/
def readQueue (table : List CadRepairJob) (f : QueueFilter) (limit offset : ℤ) : Page :=
  let start := max 0 offset
  let rows := operatorQueue table f (bounded limit + 1) start
  let hasMore := decide (bounded limit < rows.length)
  let page := rows.take (bounded limit).toNat
  ⟨page, start, bounded limit, page.length, hasMore,
    if hasMore then some (start + bounded limit) else none⟩

/-- Page after page, each from the table as it is then, as long as there is a next one. What is left
at the end is where the next page would begin. -/
def follow (f : QueueFilter) (limit : ℤ) :
    List (List CadRepairJob) → ℤ → List CadRepairJob × Option ℤ
  | [], offset => ([], some offset)
  | table :: tables, offset =>
    let page := readQueue table f limit offset
    match page.nextOffset with
    | none => (page.jobs, none)
    | some next => (page.jobs ++ (follow f limit tables next).1, (follow f limit tables next).2)

variable {f : QueueFilter} {limit : ℤ} {table other : List CadRepairJob}
  {tables : List (List CadRepairJob)} {a b : CadRepairJob} {o : ℕ}

/-! ## The order -/

lemma id_of_key (h : a.key = b.key) : a.id = b.id := by
  have hpair := toLex.injective h
  exact (Prod.mk.inj (toLex.injective (Prod.mk.inj hpair).2)).2

lemma queue_perm (f : QueueFilter) (table : List CadRepairJob) :
    (queue f table).Perm (table.filter (f.Matches ·)) :=
  List.mergeSort_perm _ _

lemma mem_queue : a ∈ queue f table ↔ a ∈ table ∧ f.Matches a := by
  simp [(queue_perm f table).mem_iff]

lemma queue_sorted (f : QueueFilter) (table : List CadRepairJob) :
    (queue f table).Pairwise fun a b => a.key ≤ b.key := by
  have hsorted : (queue f table).Pairwise fun a b => decide (a.key ≤ b.key) = true :=
    List.pairwise_mergeSort
      (fun a b c hab hbc => by simpa using le_trans (by simpa using hab) (by simpa using hbc))
      (fun a b => by simpa using le_total a.key b.key) (table.filter (f.Matches ·))
  exact hsorted.imp fun h => by simpa using h

/-- The keys come up in strict order, where no two rows share an id. -/
lemma queue_strict (hid : (table.map (·.id)).Nodup) :
    (queue f table).Pairwise fun a b => a.key < b.key := by
  have hids : ((queue f table).map (·.id)).Nodup :=
    (((queue_perm f table).map _).nodup_iff).mpr (hid.sublist ((List.filter_sublist).map _))
  refine ((queue_sorted f table).and (List.pairwise_map.mp hids)).imp fun h => ?_
  exact lt_of_le_of_ne h.1 fun hkey => h.2 (id_of_key hkey)

/-- The queue does not depend on how the rows are stored. -/
lemma queue_of_perm (hid : (table.map (·.id)).Nodup) (h : other.Perm table) :
    queue f other = queue f table := by
  have hid' : (other.map (·.id)).Nodup := ((h.map _).nodup_iff).mpr hid
  have hperm : (queue f other).Perm (queue f table) :=
    (queue_perm f other).trans ((h.filter _).trans (queue_perm f table).symm)
  refine hperm.eq_of_pairwise (fun a b _ _ hab hba => ?_) (queue_strict hid') (queue_strict hid)
  exact absurd hba (lt_asymm hab)

/-! ## The pages -/

/-- The size of a page, as a number of rows. -/
def pageSize (limit : ℤ) : ℕ := (bounded limit).toNat

lemma bounded_eq (limit : ℤ) : bounded limit = pageSize limit := by
  unfold pageSize bounded
  omega

lemma pageSize_pos (limit : ℤ) : 0 < pageSize limit := by
  unfold pageSize bounded
  omega

lemma length_rows : (operatorQueue table f (bounded limit + 1) o).length =
    min (pageSize limit + 1) ((queue f table).length - o) := by
  have hlimit : (bounded limit + 1).toNat = pageSize limit + 1 := by
    rw [bounded_eq]
    omega
  simp [operatorQueue, hlimit]

lemma readQueue_jobs : (readQueue table f limit o).jobs =
    ((queue f table).drop o).take (pageSize limit) := by
  have hlimit : (bounded limit + 1).toNat = pageSize limit + 1 := by
    rw [bounded_eq]
    omega
  have hmin : min (bounded limit).toNat (pageSize limit + 1) = pageSize limit := by
    rw [bounded_eq]
    omega
  simp [readQueue, operatorQueue, hlimit, List.take_take, hmin]

lemma readQueue_nextOffset : (readQueue table f limit o).nextOffset =
    if o + pageSize limit < (queue f table).length then some ((o + pageSize limit : ℕ) : ℤ)
    else none := by
  have hmore : bounded limit < (operatorQueue table f (bounded limit + 1) o).length ↔
      o + pageSize limit < (queue f table).length := by
    rw [length_rows, bounded_eq]
    have := pageSize_pos limit
    omega
  have hstart : max 0 (o : ℤ) = o := by omega
  simp only [readQueue, hstart, hmore, decide_eq_true_eq]
  split_ifs with h
  · rw [bounded_eq]
    push_cast
    rfl
  · rfl

/-- Following the pages is reading the queue by pages. -/
lemma follow_eq : follow f limit tables o =
    ((Paged.walk (pageSize limit) (tables.map (queue f)) o).1,
      (Paged.walk (pageSize limit) (tables.map (queue f)) o).2.map Nat.cast) := by
  induction tables generalizing o with
  | nil => rfl
  | cons table tables ih =>
    unfold follow
    simp only [readQueue_jobs, readQueue_nextOffset, List.map_cons]
    by_cases h : o + pageSize limit < (queue f table).length
    · rw [if_pos h, Paged.walk_cons_of_lt h]
      dsimp only
      rw [ih]
    · have hall : ((queue f table).drop o).take (pageSize limit) = (queue f table).drop o :=
        List.take_of_length_le (by rw [List.length_drop]; omega)
      rw [if_neg h, Paged.walk_cons_of_le (Nat.not_lt.mp h), hall]
      rfl

/-- As long as no job changes, following the pages from the first one ends, and shows every job of
the filter once, in the order of urgency, however the database stores the rows at each page. -/
theorem pages_show_all (hid : (table.map (·.id)).Nodup) (hperm : ∀ t ∈ tables, t.Perm table)
    (hn : table.length < tables.length) :
    (follow f limit tables 0).2 = none ∧
      (follow f limit tables 0).1.Perm (table.filter (f.Matches ·)) ∧
      (follow f limit tables 0).1.Pairwise fun a b => a.key < b.key := by
  have hsame : tables.map (queue f) = List.replicate tables.length (queue f table) := by
    refine List.eq_replicate_iff.mpr ⟨by simp, ?_⟩
    intro q hq
    obtain ⟨t, ht, rfl⟩ := List.mem_map.mp hq
    exact queue_of_perm hid (hperm t ht)
  have hlength : (queue f table).length ≤ table.length := by
    rw [(queue_perm f table).length_eq]
    exact List.length_filter_le _ _
  have henough : (queue f table).length ≤ 0 + tables.length * pageSize limit := by
    have := Nat.le_mul_of_pos_right tables.length (pageSize_pos limit)
    omega
  have hshown : follow f limit tables 0 = (queue f table, none) := by
    have hcast : follow f limit tables 0 = follow f limit tables (0 : ℕ) := rfl
    rw [hcast, follow_eq, hsame, Paged.walk_replicate henough (by omega)]
    simp
  rw [hshown]
  exact ⟨rfl, queue_perm f table, queue_strict hid⟩

/-- Two jobs of one moment are stored one way and the other. -/
theorem pages_show_all_one_moment :
    (follow {} 1 [[create 1 100 5, create 2 100 5], [create 2 100 5, create 1 100 5],
      [create 1 100 5, create 2 100 5]] 0).1.Perm [create 1 100 5, create 2 100 5] := by
  have hid : ([create 1 100 5, create 2 100 5].map (·.id)).Nodup := by decide
  have hperm : ∀ t ∈ [[create 1 100 5, create 2 100 5], [create 2 100 5, create 1 100 5],
      [create 1 100 5, create 2 100 5]], t.Perm [create 1 100 5, create 2 100 5] := by decide
  exact (pages_show_all hid hperm (by decide)).2.1

/-- How many jobs of the filter are ahead of a place in the queue. -/
def ahead (f : QueueFilter) (k : ℤ ×ₗ ℕ ×ₗ ℕ) (table : List CadRepairJob) : ℕ :=
  (table.filter fun j => f.Matches j ∧ j.key < k).length

lemma idxOf_key {k : ℤ ×ₗ ℕ ×ₗ ℕ} (hid : (table.map (·.id)).Nodup)
    (hin : ∃ j ∈ table, f.Matches j ∧ j.key = k) :
    ((queue f table).map CadRepairJob.key).idxOf k = ahead f k table := by
  obtain ⟨j, hj, hmatches, rfl⟩ := hin
  have hmem : j.key ∈ (queue f table).map CadRepairJob.key :=
    List.mem_map_of_mem (mem_queue.mpr ⟨hj, hmatches⟩)
  rw [Paged.idxOf_of_pairwise (List.pairwise_map.mpr (queue_strict hid)) hmem, List.filter_map,
    List.length_map, ((queue_perm f table).filter _).length_eq, List.filter_filter, ahead]
  congr 2
  funext i
  simp [and_comm]

/-- While other jobs come, go and move, a job that stays in the filter is shown before the pages
end, unless the number of jobs ahead of it falls between two of them. -/
theorem pages_skip_none {k : ℤ ×ₗ ℕ ×ₗ ℕ} (hid : ∀ t ∈ tables, (t.map (·.id)).Nodup)
    (hin : ∀ t ∈ tables, ∃ j ∈ t, f.Matches j ∧ j.key = k)
    (hahead : tables.Pairwise fun t t' => ahead f k t ≤ ahead f k t')
    (hend : (follow f limit tables 0).2 = none) : ∃ j ∈ (follow f limit tables 0).1, j.key = k := by
  have hcast : follow f limit tables 0 = follow f limit tables (0 : ℕ) := rfl
  rw [hcast, follow_eq] at hend ⊢
  have hkeys : Paged.walk (pageSize limit)
      ((tables.map (queue f)).map (List.map CadRepairJob.key)) 0 = _ :=
    Paged.walk_map CadRepairJob.key
  have hshown : k ∈ (Paged.walk (pageSize limit)
      ((tables.map (queue f)).map (List.map CadRepairJob.key)) 0).1 := by
    refine Paged.mem_walk ?_ ?_ (fun _ _ => Nat.zero_le _) ?_
    · intro l hl
      obtain ⟨t, ht, rfl⟩ : ∃ t ∈ tables, (queue f t).map CadRepairJob.key = l := by simpa using hl
      obtain ⟨j, hj, hmatches, rfl⟩ := hin t ht
      exact List.mem_map_of_mem (mem_queue.mpr ⟨hj, hmatches⟩)
    · rw [List.map_map, List.pairwise_map]
      refine hahead.imp_of_mem fun ht ht' hle => ?_
      simpa [idxOf_key (hid _ ht) (hin _ ht), idxOf_key (hid _ ht') (hin _ ht')] using hle
    · rw [hkeys]
      simpa using hend
  rw [hkeys] at hshown
  exact List.mem_map.mp hshown

/-- An urgent job arrives between two pages. -/
theorem pages_skip_none_urgent :
    ∃ j ∈ (follow {} 2 [[create 1 100 5, create 2 100 6, create 3 100 7],
      [create 1 100 5, create 2 100 6, create 3 100 7, create 4 10 8]] 0).1,
      j.key = (create 3 100 7).key := by
  have hfirst : (queue {} [create 1 100 5, create 2 100 6, create 3 100 7]).length = 3 := by
    rw [(queue_perm _ _).length_eq]
    decide
  have hsecond : (queue {} [create 1 100 5, create 2 100 6, create 3 100 7,
      create 4 10 8]).length = 4 := by
    rw [(queue_perm _ _).length_eq]
    decide
  have hend : (follow {} 2 [[create 1 100 5, create 2 100 6, create 3 100 7],
      [create 1 100 5, create 2 100 6, create 3 100 7, create 4 10 8]] (0 : ℕ)).2 = none := by
    rw [follow_eq]
    simp [Paged.walk, hfirst, hsecond, pageSize, bounded]
  exact pages_skip_none (by decide) (by decide) (by decide) hend

end MeshPipeline.RepairQueue
