import Mathlib.Algebra.Order.Ring.Rat
import Mathlib.Data.List.Sort
import MeshPipeline.Ecxml.PaintOrder
import MeshPipeline.Library.Clusters

/-!
# Round-off snapping

Planes of different objects that are closer than the reach of the file's own round-off are read as one
plane, as long as no object's extent changes by more than a share of it.
-/

namespace MeshPipeline.Ecxml

open Clusters

/-- What the file's numbers can tell apart. -/
structure Precision where
  printed : ℚ
  float32 : ℚ
  float64 : ℚ
  printed_nonneg : 0 ≤ printed

/-- Planes closer than this are one plane. -/
def Precision.noise (p : Precision) : ℚ := max (max (p.printed / 2) p.float32) p.float64

/-- `roundoff_reach`. -/
def roundoffReach (p : Precision) : ℚ := max (max p.noise (10 * p.printed)) (2 * p.float32)

def roundoffThicknessShare : ℚ := 1 / 100

structure Obj where
  order : ℕ
  location : Option (Fin 3 → ℚ)
  size : Option (Fin 3 → ℚ)

/-- The bounds of an object that has a place and a size. -/
def Obj.box (o : Obj) : Option (Box ℚ) :=
  match o.location, o.size with
  | some location, some size => some ⟨location, location + size⟩
  | _, _ => none

structure Domain where
  location : Fin 3 → ℚ
  size : Fin 3 → ℚ

/-- The solution domain and the active objects, which have distinct places in the file. -/
structure EcxmlModel where
  domain : Option Domain
  objs : List Obj
  orders_nodup : (objs.map Obj.order).Nodup

/-- A stated plane: a side of an object, or of the domain, whose number is -1. -/
structure Plane where
  value : ℚ
  owner : ℤ
  upper : Bool
  deriving DecidableEq, Repr

/-- The order of the triples. -/
def Plane.Le (p q : Plane) : Prop :=
  p.value < q.value ∨ p.value = q.value ∧
    (p.owner < q.owner ∨ p.owner = q.owner ∧ p.upper ≤ q.upper)

instance : DecidableRel Plane.Le := fun p q => inferInstanceAs (Decidable (_ ∨ _))

namespace EcxmlModel

variable (m : EcxmlModel) (precision : Precision)

def objPlanes (o : Obj) (i : Fin 3) : List Plane :=
  match o.box with
  | some b => [⟨b.lo i, o.order, false⟩, ⟨b.hi i, o.order, true⟩]
  | none => []

def domainPlanes (i : Fin 3) : List Plane :=
  match m.domain with
  | some d => [⟨d.location i, -1, false⟩, ⟨d.location i + d.size i, -1, true⟩]
  | none => []

/-- The planes of one axis. -/
def planes (i : Fin 3) : List Plane := m.objs.flatMap (objPlanes · i) ++ m.domainPlanes i

/-- The extent of an owner, if it has one. -/
def extent (owner : ℤ) (i : Fin 3) : Option ℚ :=
  if owner = -1 then m.domain.map fun d => |d.size i|
  else (m.objs.filterMap fun o =>
    if (o.order : ℤ) = owner then o.box.map fun b => |b.hi i - b.lo i| else none).getLast?

/-- `room`: how far a plane of this object may move; a flat object moves whole. -/
def room (i : Fin 3) (w : Plane) : WithTop ℚ :=
  match m.extent w.owner i with
  | none => ⊤
  | some e => if e ≤ precision.noise then ⊤ else ((roundoffThicknessShare * e : ℚ) : WithTop ℚ)

def measure (i : Fin 3) : Measure Plane ℚ where
  value := Plane.value
  room := m.room precision i
  noise := precision.noise
  merge := roundoffReach precision

def clusters (i : Fin 3) : List (List Plane) :=
  (m.measure precision i).clusters ((m.planes i).insertionSort Plane.Le)

/-- The value most planes state, the smallest of several. -/
def mostStated (values : List ℚ) : ℚ :=
  values.foldl (fun best x => if values.count best < values.count x then x else best)
    (values.headD 0)

/-- The plane that a cluster is read as: the domain's own side first. -/
def rep (cluster : List Plane) : ℚ :=
  let values := cluster.map Plane.value
  match cluster.find? (·.owner = -1) with
  | some w => w.value
  | none =>
    if values.getLastD 0 - values.headD 0 ≤ precision.noise then values.headD 0
    else mostStated values

/-- `rep_of`. -/
def repOf (i : Fin 3) (owner : ℤ) (upper : Bool) : Option ℚ :=
  ((m.clusters precision i).reverse.find? fun c =>
    c.any fun w => w.owner = owner ∧ w.upper = upper).map (rep precision)

/-- The box that `_snap_roundoff` returns for an object. -/
def snapped (o : Obj) : Option (Box ℚ) :=
  o.box.map fun b => {
    lo := fun i => (m.repOf precision i o.order false).getD (b.lo i)
    hi := fun i => (m.repOf precision i o.order true).getD (b.hi i) }

end EcxmlModel

end MeshPipeline.Ecxml

/-!
## Snapping keeps thicknesses

Every plane goes to one of the planes of its cluster. The faces of an object that is thicker than the
file's precision stay apart and in order, and so do all planes; the thickness is kept, and equal planes
stay equal, where no two objects pull a plane in different ways.
-/

namespace MeshPipeline.Ecxml

open Clusters

lemma Precision.noise_nonneg (p : Precision) : 0 ≤ p.noise := by
  have : 0 ≤ p.printed / 2 := div_nonneg p.printed_nonneg (by norm_num)
  exact this.trans ((le_max_left _ _).trans (le_max_left _ _))

/-- Of two members of a list in which each is before the later ones, one is before the other. -/
lemma before_or_before {α : Type*} {R : α → α → Prop} {l : List α} (h : l.Pairwise R) {x y : α}
    (hx : x ∈ l) (hy : y ∈ l) (hne : x ≠ y) : R x y ∨ R y x := by
  induction h with
  | nil => simp at hx
  | cons hz _ ih => grind

namespace EcxmlModel

variable (m : EcxmlModel) (precision : Precision)

lemma eq_of_order {o o' : Obj} (ho : o ∈ m.objs) (ho' : o' ∈ m.objs)
    (h : o.order = o'.order) : o = o' :=
  List.inj_on_of_nodup_map m.orders_nodup ho ho' h

lemma mem_planes {i : Fin 3} {w : Plane} : w ∈ m.planes i ↔
    (∃ o ∈ m.objs, ∃ b, o.box = some b ∧
      (w = ⟨b.lo i, o.order, false⟩ ∨ w = ⟨b.hi i, o.order, true⟩)) ∨
    ∃ d, m.domain = some d ∧
      (w = ⟨d.location i, -1, false⟩ ∨ w = ⟨d.location i + d.size i, -1, true⟩) := by
  unfold planes domainPlanes objPlanes
  rw [List.mem_append, List.mem_flatMap]
  refine or_congr (exists_congr fun o => and_congr_right fun _ => ?_) ?_
  · cases o.box <;> simp
  · cases m.domain <;> simp

/-- A plane is told by its owner and side. -/
lemma eq_of_owner {i : Fin 3} {v w : Plane} (hv : v ∈ m.planes i) (hw : w ∈ m.planes i)
    (ho : v.owner = w.owner) (hs : v.upper = w.upper) : v = w := by
  rw [mem_planes] at hv hw
  obtain ⟨o, hom, b, hb, rfl | rfl⟩ | ⟨d, hd, rfl | rfl⟩ := hv <;>
  obtain ⟨o', hom', b', hb', rfl | rfl⟩ | ⟨d', hd', rfl | rfl⟩ := hw <;>
  grind [m.eq_of_order]

lemma extent_obj {o : Obj} (ho : o ∈ m.objs) {b : Box ℚ} (hb : o.box = some b) (i : Fin 3) :
    m.extent o.order i = some |b.hi i - b.lo i| := by
  unfold extent
  rw [if_neg (by omega)]
  generalize hL : List.filterMap _ m.objs = L
  have hall : ∀ e ∈ L, e = |b.hi i - b.lo i| := by
    rw [← hL]
    intro e he
    obtain ⟨o', ho', he⟩ := List.mem_filterMap.1 he
    split_ifs at he with heq
    rw [m.eq_of_order ho' ho (by exact_mod_cast heq), hb] at he
    exact (Option.some.inj he).symm
  have hne : L ≠ [] := by
    rw [← hL]
    refine List.ne_nil_of_mem (a := |b.hi i - b.lo i|) (List.mem_filterMap.2 ⟨o, ho, by simp [hb]⟩)
  rw [List.getLast?_eq_some_getLast hne, hall _ (List.getLast_mem hne)]

instance : Std.Total Plane.Le := ⟨fun p q => by unfold Plane.Le; grind⟩

instance : IsTrans Plane Plane.Le := ⟨fun p q r h1 h2 => by unfold Plane.Le at *; grind⟩

lemma sorted_planes (i : Fin 3) :
    ((m.planes i).insertionSort Plane.Le).Pairwise (Plane.value · ≤ Plane.value ·) :=
  (List.pairwise_insertionSort Plane.Le _).imp fun h => h.elim le_of_lt fun h => h.1.le

lemma mostStated_mem {values : List ℚ} (h : values ≠ []) : mostStated values ∈ values := by
  suffices ∀ (l : List ℚ) (best : ℚ), best ∈ values → (∀ x ∈ l, x ∈ values) →
      l.foldl (fun best x => if values.count best < values.count x then x else best) best ∈
        values from
    this values _ (by cases values <;> simp_all) fun _ => id
  intro l
  induction l with
  | nil => exact fun _ hb _ => hb
  | cons x l ih =>
    intro best hb hl
    refine ih _ ?_ fun y hy => hl y (.tail _ hy)
    dsimp only
    split_ifs
    · exact hl x (.head _)
    · exact hb

lemma exists_rep {c : List Plane} (hc : c ≠ []) : ∃ u ∈ c, rep precision c = u.value := by
  have hvalues : c.map Plane.value ≠ [] := by simpa using hc
  unfold rep
  split
  · next w hw => exact ⟨w, List.mem_of_find?_eq_some hw, rfl⟩
  · suffices ∀ x ∈ c.map Plane.value, ∃ u ∈ c, x = u.value by
      dsimp only
      split_ifs
      · exact this _ (by cases c <;> simp_all)
      · exact this _ (mostStated_mem hvalues)
    simp [eq_comm]

lemma mem_cluster {i : Fin 3} {c : List Plane} (hc : c ∈ m.clusters precision i) {w : Plane}
    (hw : w ∈ c) : w ∈ m.planes i := by
  have : w ∈ (m.clusters precision i).flatten := List.mem_flatten.2 ⟨c, hc, hw⟩
  rwa [clusters, Measure.flatten_clusters, List.mem_insertionSort] at this

/-- A plane goes to what one of the clusters that hold it is read as. -/
lemma repOf_spec {i : Fin 3} {w : Plane} (hw : w ∈ m.planes i) :
    ∃ c ∈ m.clusters precision i, w ∈ c ∧
      m.repOf precision i w.owner w.upper = some (rep precision c) := by
  have hflat : w ∈ (m.clusters precision i).flatten := by
    rwa [clusters, Measure.flatten_clusters, List.mem_insertionSort]
  obtain ⟨c₀, hc₀, hw₀⟩ := List.mem_flatten.1 hflat
  have hsome : ((m.clusters precision i).reverse.find? fun c =>
      c.any fun v => v.owner = w.owner ∧ v.upper = w.upper).isSome := by
    rw [List.find?_isSome]
    exact ⟨c₀, by simpa using hc₀, by simpa using ⟨w, hw₀, rfl, rfl⟩⟩
  obtain ⟨c, hfind⟩ := Option.isSome_iff_exists.1 hsome
  have hc : c ∈ m.clusters precision i := by simpa using List.mem_of_find?_eq_some hfind
  obtain ⟨v, hv, ho, hs⟩ : ∃ v ∈ c, v.owner = w.owner ∧ v.upper = w.upper := by
    have := List.find?_some hfind
    simpa using this
  rw [m.eq_of_owner (m.mem_cluster precision hc hv) hw ho hs] at hv
  exact ⟨c, hc, hv, by rw [repOf, hfind, Option.map_some]⟩

lemma sorted (i : Fin 3) : ((m.planes i).insertionSort Plane.Le).Pairwise
    ((m.measure precision i).value · ≤ (m.measure precision i).value ·) := m.sorted_planes i

lemma cluster_tight {i : Fin 3} {c : List Plane} (hc : c ∈ m.clusters precision i) :
    (m.measure precision i).Tight c :=
  Measure.clusters_tight precision.noise_nonneg (m.sorted precision i) c hc

lemma clusters_before (i : Fin 3) :
    (m.clusters precision i).Pairwise (m.measure precision i).Before :=
  Measure.clusters_before precision.noise_nonneg (m.sorted precision i)

/-- Where a stated plane is after the snapping; the domain stays. -/
def moved (i : Fin 3) (w : Plane) : ℚ :=
  if w.owner = -1 then w.value else (m.repOf precision i w.owner w.upper).getD w.value

/-- The domain, if there is one, is flat or thicker than the precision. -/
def DomainThick : Prop :=
  ∀ d, m.domain = some d → ∀ i, d.size i = 0 ∨ precision.noise < |d.size i|

/-- How far two planes are apart, when one of them may be moved onto the other. -/
def Reaches (extent distance : ℚ) : Prop :=
  distance ≤ precision.noise ∨
    distance ≤ roundoffReach precision ∧ distance ≤ roundoffThicknessShare * extent

variable {precision} in
lemma Reaches.le_share {e d : ℚ} (h : Reaches precision e d)
    (hs : precision.noise < roundoffThicknessShare * e) : d ≤ roundoffThicknessShare * e :=
  h.elim (fun hn => hn.trans hs.le) And.right

lemma room_of_extent {i : Fin 3} {w : Plane} {e : ℚ} (he : m.extent w.owner i = some e)
    (hthick : precision.noise < e) :
    m.room precision i w = ((roundoffThicknessShare * e : ℚ) : WithTop ℚ) := by
  simp only [room, he, if_neg (not_le.2 hthick)]

/-- Two planes of a cluster are as near as an owner of one, thicker than the precision, allows. -/
lemma reaches_of_cluster {i : Fin 3} {c : List Plane} (hc : c ∈ m.clusters precision i)
    {u v w : Plane} (hu : u ∈ c) (hv : v ∈ c) (hw : w ∈ c) {e : ℚ}
    (he : m.extent w.owner i = some e) (hthick : precision.noise < e) :
    Reaches precision e |v.value - u.value| := by
  have hnear (u v : Plane) (hu : u ∈ c) (hv : v ∈ c) (hle : u.value ≤ v.value) :
      Reaches precision e (v.value - u.value) := by
    refine (m.cluster_tight precision hc u hu v hv w hw hle).imp_right fun ⟨hm, hr⟩ => ⟨hm, ?_⟩
    have hroom : (m.measure precision i).room w = _ := m.room_of_extent precision he hthick
    rw [hroom] at hr
    exact WithTop.coe_le_coe.1 hr
  obtain hle | hle := le_total u.value v.value
  · rw [abs_of_nonneg (sub_nonneg.2 hle)]
    exact hnear u v hu hv hle
  · rw [abs_sub_comm, abs_of_nonneg (sub_nonneg.2 hle)]
    exact hnear v u hv hu hle

/-- The two sides of an owner thicker than the precision are in different clusters. -/
lemma not_same_cluster {i : Fin 3} {c : List Plane} (hc : c ∈ m.clusters precision i) {u v : Plane}
    (hu : u ∈ c) (hv : v ∈ c) (he : m.extent u.owner i = some |v.value - u.value|)
    (hthick : precision.noise < |v.value - u.value|) : False := by
  obtain hn | ⟨-, hs⟩ := m.reaches_of_cluster precision hc hu hv hu he hthick
  · exact absurd hn (not_le.2 hthick)
  · have := precision.noise_nonneg
    unfold roundoffThicknessShare at hs
    linarith

/-- The sides of the domain that are in one cluster are one plane. -/
lemma domain_side (hd : m.DomainThick precision) {i : Fin 3} {c : List Plane}
    (hc : c ∈ m.clusters precision i) {u v : Plane} (hu : u ∈ c) (hv : v ∈ c)
    (huo : u.owner = -1) (hvo : v.owner = -1) : u.value = v.value := by
  by_contra hne
  have hup := m.mem_cluster precision hc hu
  have hvp := m.mem_cluster precision hc hv
  obtain ⟨d, hdom, he⟩ : ∃ d, m.domain = some d ∧ |v.value - u.value| = |d.size i| := by
    rw [mem_planes] at hup hvp
    obtain ⟨o, -, b, -, rfl | rfl⟩ | ⟨d, hdu, hu'⟩ := hup
    · simp at huo
    · simp at huo
    obtain ⟨o, -, b, -, rfl | rfl⟩ | ⟨d', hdv, hv'⟩ := hvp
    · simp at hvo
    · simp at hvo
    obtain rfl : d = d' := Option.some.inj (hdu.symm.trans hdv)
    refine ⟨d, hdu, ?_⟩
    obtain rfl | rfl := hu' <;> obtain rfl | rfl := hv' <;> simp_all
  have hext : m.extent u.owner i = some |v.value - u.value| := by
    simp [extent, huo, hdom, he]
  have hpos : 0 < |d.size i| := he ▸ abs_pos.2 (sub_ne_zero.2 (Ne.symm hne))
  have hthick := (hd d hdom i).resolve_left (abs_pos.1 hpos)
  exact m.not_same_cluster precision hc hu hv hext (he ▸ hthick)

/-- Every plane goes to what one of its clusters is read as. -/
lemma moved_spec {i : Fin 3} {w : Plane} (hd : w.owner = -1 → m.DomainThick precision)
    (hw : w ∈ m.planes i) :
    ∃ c ∈ m.clusters precision i, w ∈ c ∧ m.moved precision i w = rep precision c := by
  obtain ⟨c, hc, hwc, hrep⟩ := m.repOf_spec precision hw
  refine ⟨c, hc, hwc, ?_⟩
  unfold moved
  split_ifs with howner
  · unfold rep
    split
    · next v hv =>
      have hvc := List.mem_of_find?_eq_some hv
      have hvo : v.owner = -1 := by simpa using List.find?_some hv
      rw [m.domain_side precision (hd howner) hc hwc hvc howner hvo]
    · next hnone => simpa [howner] using List.find?_eq_none.1 hnone w hwc
  · rw [hrep, Option.getD_some]

/-! ## The order of the planes -/

lemma rep_le {i : Fin 3} {c d : List Plane} (hc : c ∈ m.clusters precision i)
    (hd : d ∈ m.clusters precision i) {u v : Plane} (hu : u ∈ c) (hv : v ∈ d)
    (hlt : u.value < v.value) : rep precision c ≤ rep precision d := by
  by_cases hcd : c = d
  · rw [hcd]
  obtain hb | hb := before_or_before (m.clusters_before precision i) hc hd hcd
  · obtain ⟨x, hx, hcx⟩ := exists_rep precision (List.ne_nil_of_mem hu)
    obtain ⟨y, hy, hdy⟩ := exists_rep precision (List.ne_nil_of_mem hv)
    rw [hcx, hdy]
    exact hb.le x hx y hy
  · exact absurd (hb.le v hv u hu) (not_le.2 hlt)

/-- The two sides of an owner thicker than the precision stay apart. -/
lemma rep_lt {i : Fin 3} {c d : List Plane} (hc : c ∈ m.clusters precision i)
    (hd : d ∈ m.clusters precision i) {u v : Plane} (hu : u ∈ c) (hv : v ∈ d)
    (howner : u.owner = v.owner) (he : m.extent u.owner i = some |v.value - u.value|)
    (hthick : precision.noise < |v.value - u.value|) (hlt : u.value < v.value) :
    rep precision c < rep precision d := by
  have hcd : c ≠ d := by
    rintro rfl
    exact m.not_same_cluster precision hc hu hv he hthick
  refine lt_of_le_of_ne (m.rep_le precision hc hd hu hv hlt) fun heq => ?_
  obtain hb | hb := before_or_before (m.clusters_before precision i) hc hd hcd
  · obtain ⟨x, hx, hcx⟩ := exists_rep precision (List.ne_nil_of_mem hu)
    obtain ⟨y, hy, hdy⟩ := exists_rep precision (List.ne_nil_of_mem hv)
    have hxy : x.value = y.value := by rw [← hcx, ← hdy, heq]
    obtain ⟨a, ha⟩ : ∃ a, c.head? = some a := Option.isSome_iff_exists.1 (by cases c <;> simp_all)
    -- the second cluster begins with the plane that the first is read as, past the noise
    have hnoise : precision.noise < x.value - a.value := hxy ▸ hb.noise_lt a ha y hy
    have hlong := m.reaches_of_cluster precision hc (List.mem_of_head? ha) hx hu he hthick
    have hshare : precision.noise < roundoffThicknessShare * |v.value - u.value| := by
      have := le_abs_self (x.value - a.value)
      obtain hn | ⟨-, hs⟩ := hlong <;> linarith
    have hu' := (m.reaches_of_cluster precision hc hu hx hu he hthick).le_share hshare
    have hv' := (m.reaches_of_cluster precision hd hy hv hv (howner ▸ he) hthick).le_share hshare
    have h1 := le_abs_self (x.value - u.value)
    have h2 := le_abs_self (v.value - y.value)
    have h3 : |v.value - u.value| = v.value - u.value := abs_of_pos (sub_pos.2 hlt)
    have := precision.noise_nonneg
    unfold roundoffThicknessShare at hu' hv'
    linarith
  · exact absurd (hb.le v hv u hu) (not_le.2 hlt)

/-- The faces of an object go to what clusters of theirs are read as. -/
lemma snapped_faces {o : Obj} (ho : o ∈ m.objs) {b b' : Box ℚ} (hb : o.box = some b)
    (hb' : m.snapped precision o = some b') (i : Fin 3) :
    ∃ c ∈ m.clusters precision i, ∃ d ∈ m.clusters precision i,
      ⟨b.lo i, o.order, false⟩ ∈ c ∧ ⟨b.hi i, o.order, true⟩ ∈ d ∧
        b'.lo i = rep precision c ∧ b'.hi i = rep precision d := by
  obtain ⟨c, hc, hlo, hrc⟩ := m.repOf_spec precision (i := i) (w := ⟨b.lo i, o.order, false⟩)
    (m.mem_planes.2 (.inl ⟨o, ho, b, hb, .inl rfl⟩))
  obtain ⟨d, hd, hhi, hrd⟩ := m.repOf_spec precision (i := i) (w := ⟨b.hi i, o.order, true⟩)
    (m.mem_planes.2 (.inl ⟨o, ho, b, hb, .inr rfl⟩))
  rw [snapped, hb, Option.map_some, Option.some.injEq] at hb'
  refine ⟨c, hc, d, hd, hlo, hhi, ?_, ?_⟩
  · rw [← hb']
    simp only [hrc, Option.getD_some]
  · rw [← hb']
    simp only [hrd, Option.getD_some]

/-! ## What is kept -/

/-- Snapping keeps the thicknesses, the faces apart, equal planes equal, and the planes in order. -/
structure ThicknessKept : Prop where
  thickness : ∀ o ∈ m.objs, ∀ b b', o.box = some b → m.snapped precision o = some b' → ∀ i,
    precision.noise < |b.hi i - b.lo i| → |b'.hi i - b'.lo i - (b.hi i - b.lo i)| ≤
      max precision.noise (roundoffThicknessShare * |b.hi i - b.lo i|)
  faces : ∀ o ∈ m.objs, ∀ b b', o.box = some b → m.snapped precision o = some b' → ∀ i,
    precision.noise < |b.hi i - b.lo i| →
      (b.lo i < b.hi i → b'.lo i < b'.hi i) ∧ (b.hi i < b.lo i → b'.hi i < b'.lo i)
  equal : ∀ i, ∀ u ∈ m.planes i, ∀ v ∈ m.planes i, u.value = v.value →
    m.moved precision i u = m.moved precision i v
  order : ∀ i, ∀ u ∈ m.planes i, ∀ v ∈ m.planes i, u.value < v.value →
    m.moved precision i u ≤ m.moved precision i v

/-- No plane is pulled in two ways: planes that are stated as one may be moved equally far, and planes
that the two faces of an object may be moved onto are as far apart as the faces. -/
structure PulledOneWay : Prop where
  domain : m.DomainThick precision
  equal : ∀ i, (m.measure precision i).Uniform (m.planes i)
  faces : ∀ o ∈ m.objs, ∀ b, o.box = some b → ∀ i, precision.noise < |b.hi i - b.lo i| →
    ∀ p ∈ m.planes i, ∀ q ∈ m.planes i,
      Reaches precision |b.hi i - b.lo i| |p.value - b.lo i| →
      Reaches precision |b.hi i - b.lo i| |q.value - b.hi i| →
        |q.value - p.value - (b.hi i - b.lo i)| ≤
          max precision.noise (roundoffThicknessShare * |b.hi i - b.lo i|)

lemma faces_apart {o : Obj} (ho : o ∈ m.objs) {b b' : Box ℚ} (hb : o.box = some b)
    (hb' : m.snapped precision o = some b') {i : Fin 3}
    (hthick : precision.noise < |b.hi i - b.lo i|) :
    (b.lo i < b.hi i → b'.lo i < b'.hi i) ∧ (b.hi i < b.lo i → b'.hi i < b'.lo i) := by
  obtain ⟨c, hc, d, hd, hlo, hhi, hc', hd'⟩ := m.snapped_faces precision ho hb hb' i
  have he := m.extent_obj ho hb i
  rw [hc', hd']
  refine ⟨m.rep_lt precision hc hd hlo hhi rfl he hthick, ?_⟩
  rw [abs_sub_comm] at he hthick
  exact m.rep_lt precision hd hc hhi hlo rfl he hthick

lemma thickness_kept (h : m.PulledOneWay precision) {o : Obj} (ho : o ∈ m.objs) {b b' : Box ℚ}
    (hb : o.box = some b) (hb' : m.snapped precision o = some b') {i : Fin 3}
    (hthick : precision.noise < |b.hi i - b.lo i|) :
    |b'.hi i - b'.lo i - (b.hi i - b.lo i)| ≤
      max precision.noise (roundoffThicknessShare * |b.hi i - b.lo i|) := by
  obtain ⟨c, hc, d, hd, hlo, hhi, hc', hd'⟩ := m.snapped_faces precision ho hb hb' i
  have he := m.extent_obj ho hb i
  obtain ⟨x, hx, hcx⟩ := exists_rep precision (List.ne_nil_of_mem hlo)
  obtain ⟨y, hy, hdy⟩ := exists_rep precision (List.ne_nil_of_mem hhi)
  have hp := m.reaches_of_cluster precision hc hlo hx hlo he hthick
  have hq := m.reaches_of_cluster precision hd hhi hy hhi he hthick
  rw [hc', hd', hcx, hdy]
  exact h.faces o ho b hb i hthick x (m.mem_cluster precision hc hx) y
    (m.mem_cluster precision hd hy) hp hq

lemma equal_kept (h : m.PulledOneWay precision) {i : Fin 3} {u v : Plane} (hu : u ∈ m.planes i)
    (hv : v ∈ m.planes i) (heq : u.value = v.value) :
    m.moved precision i u = m.moved precision i v := by
  obtain ⟨c, hc, huc, hcu⟩ := m.moved_spec precision (fun _ => h.domain) hu
  obtain ⟨d, hd, hvd, hdv⟩ := m.moved_spec precision (fun _ => h.domain) hv
  have huniform : (m.measure precision i).Uniform ((m.planes i).insertionSort Plane.Le) := by
    intro u hu v hv huv s hs
    simp only [List.mem_insertionSort] at hu hv hs
    exact h.equal i u hu v hv huv s hs
  have hlt := Measure.clusters_lt precision.noise_nonneg (m.sorted precision i) huniform
  rw [hcu, hdv]
  by_cases hcd : c = d
  · rw [hcd]
  obtain hb | hb := before_or_before hlt hc hd hcd
  · exact absurd heq (hb u huc v hvd).ne
  · exact absurd heq (hb v hvd u huc).ne'

end EcxmlModel

/-- An object of the same bounds on every axis. -/
def cube (order : ℕ) (lo hi : ℚ) : Obj := ⟨order, some fun _ => lo, some fun _ => hi - lo⟩

/-- A file of whole numbers. -/
def wholeNumbers : Precision := ⟨1, 0, 0, by decide⟩

/-- Two blocks with a step of round-off between them. -/
def twoBlocks : EcxmlModel := ⟨none, [cube 0 0 1000, cube 1 1005 2000], by decide⟩

/-- A block whose two faces are near others on their outer sides. -/
def bumps : EcxmlModel :=
  ⟨none, [cube 0 0 100, cube 1 (-9 / 10) 500, cube 2 (-9 / 10) 700, cube 3 (1009 / 10) 900,
    cube 4 (1009 / 10) 1100], by decide⟩

/-- Two blocks that begin on one plane, the second too thin to be moved as far as the first. -/
def thinBeside : EcxmlModel := ⟨none, [cube 0 5 2000, cube 1 5 105, cube 2 0 3000], by decide⟩

end MeshPipeline.Ecxml
