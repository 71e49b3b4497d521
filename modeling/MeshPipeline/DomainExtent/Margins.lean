import Mathlib.Algebra.Order.Field.Basic
import Mathlib.Analysis.Real.Sqrt
import Mathlib.Order.Bounds.Basic
import MeshPipeline.DomainExtent.Gate

/-!
# Margins and verdicts

A direction's margin is the least over its open sides. The verdict blocks, misses or passes by what
each requested margin is against its request.
-/

namespace MeshPipeline.DomainExtent

/-- The comparison by squares is the one with the diagonal itself. -/
theorem atMost_iff {fraction square length : ℚ} (hfraction : 0 ≤ fraction) (hsquare : 0 ≤ square) :
    AtMost fraction square length ↔ (length : ℝ) ≤ fraction * √(square : ℝ) := by
  have hf : (0 : ℝ) ≤ fraction := by exact_mod_cast hfraction
  have hs : (0 : ℝ) ≤ square := by exact_mod_cast hsquare
  have hroot : (0 : ℝ) ≤ fraction * √(square : ℝ) := mul_nonneg hf (Real.sqrt_nonneg _)
  have hcast : length ^ 2 ≤ fraction ^ 2 * square ↔
      (length : ℝ) ^ 2 ≤ (fraction * √(square : ℝ)) ^ 2 := by
    rw [mul_pow, Real.sq_sqrt hs]
    exact_mod_cast Iff.rfl
  constructor
  · rintro (hle | hle)
    · have : (length : ℝ) ≤ 0 := by exact_mod_cast hle
      exact this.trans hroot
    · exact le_of_sq_le_sq (hcast.mp hle) hroot
  · intro hle
    obtain hneg | hpos := le_total length 0
    · exact .inl hneg
    · have : (0 : ℝ) ≤ length := by exact_mod_cast hpos
      exact .inr (hcast.mpr (pow_le_pow_left₀ this hle 2))

lemma diagSquare_nonneg (body : Box) : 0 ≤ diagSquare body := by
  apply List.sum_nonneg
  intro q hq
  simp only [List.mem_filterMap, Option.bind_eq_some_iff, Option.map_eq_some_iff] at hq
  obtain ⟨j, -, lo, -, hi, -, rfl⟩ := hq
  positivity

/-- The seat of a plane, with the diagonal of the body. -/
theorem sitsOn_iff {box body : Box} {f : Face} :
    SitsOn box body f ↔ ∃ g ∈ gap box body f,
      -((clipTolFraction : ℝ) * √(diagSquare body : ℝ)) ≤ g ∧
        (g : ℝ) ≤ seatTolFraction * √(diagSquare body : ℝ) := by
  have hsquare := diagSquare_nonneg body
  unfold SitsOn
  simp only [atMost_iff (by norm_num [clipTolFraction] : 0 ≤ clipTolFraction) hsquare,
    atMost_iff (by norm_num [seatTolFraction] : 0 ≤ seatTolFraction) hsquare, Rat.cast_neg,
    neg_le]

/-! ## The margin of a direction -/

lemma smallest_foldl (m : ℚ × Face) (as : List (ℚ × Face)) :
    let least := as.foldl (fun m b =>
      if b.1 < m.1 ∨ b.1 = m.1 ∧ b.2.2 = .max ∧ m.2.2 = .min then b else m) m
    least ∈ m :: as ∧ ∀ b ∈ m :: as, least.1 ≤ b.1 := by
  induction as generalizing m with
  | nil => simp
  | cons a as ih =>
    simp only [List.foldl_cons]
    split
    · next hless =>
      obtain ⟨hmem, hle⟩ := ih a
      refine ⟨List.mem_cons_of_mem m hmem, ?_⟩
      have hstart : a.1 ≤ m.1 := by grind
      grind
    · next hless =>
      obtain ⟨hmem, hle⟩ := ih m
      have hstart : m.1 ≤ a.1 := by grind
      grind

lemma smallest_eq_none {as : List (ℚ × Face)} : smallest as = none ↔ as = [] := by
  cases as <;> simp [smallest]

lemma smallest_spec {as : List (ℚ × Face)} {m : ℚ × Face} (h : smallest as = some m) :
    m ∈ as ∧ ∀ b ∈ as, m.1 ≤ b.1 := by
  cases as with
  | nil => cases h
  | cons a as =>
    cases h
    exact smallest_foldl a as

section Margins

variable {box body : Box} {r : ℚ} {flow : FlowSides} {grounded : Bool}
  {seats : List (Face × String)} {k : Direction}

variable (box body r flow grounded seats k) in
/-- The margins of a direction's open sides. -/
def openMargins : Set ℚ :=
  {q | ∃ f ∈ flow.faces k, Open box body flow grounded seats f ∧ ∃ g ∈ gap box body f, g / r = q}

lemma mem_margins_iff {q : ℚ} {f : Face} :
    (q, f) ∈ ((flow.faces k).filter fun f => decide (Open box body flow grounded seats f)).filterMap
        (fun f => (gap box body f).map fun g => (g / r, f)) ↔
      f ∈ flow.faces k ∧ Open box body flow grounded seats f ∧ ∃ g ∈ gap box body f, g / r = q := by
  simp only [List.mem_filterMap, List.mem_filter, decide_eq_true_eq, Option.map_eq_some_iff,
    Prod.mk.injEq, Option.mem_def]
  constructor
  · rintro ⟨f', ⟨hf, hopen⟩, g, hg, hq, rfl⟩
    exact ⟨hf, hopen, g, hg, hq⟩
  · rintro ⟨hf, hopen, g, hg, hq⟩
    exact ⟨f, ⟨hf, hopen⟩, g, hg, hq, rfl⟩

theorem room_eq_none : room box body r flow grounded seats k = none ↔
    openMargins box body r flow grounded seats k = ∅ := by
  simp only [room, Option.map_eq_none_iff, smallest_eq_none, List.eq_nil_iff_forall_not_mem,
    Set.eq_empty_iff_forall_notMem, Prod.forall, mem_margins_iff]
  constructor
  · rintro hnone q ⟨⟨j, s⟩, hf⟩
    exact hnone q j s hf
  · intro hnone q j s hf
    exact hnone q ⟨(j, s), hf⟩

/-- A direction's margin is the least of its open sides. -/
theorem isLeast_margin {R : Room} (h : room box body r flow grounded seats k = some R) :
    IsLeast (openMargins box body r flow grounded seats k) R.margin := by
  simp only [room, Option.map_eq_some_iff] at h
  obtain ⟨⟨q, f⟩, hsmallest, rfl⟩ := h
  obtain ⟨hmem, hle⟩ := smallest_spec hsmallest
  constructor
  · exact ⟨f, mem_margins_iff.mp hmem⟩
  · rintro q' ⟨f', hf'⟩
    exact hle (q', f') (mem_margins_iff.mpr hf')

lemma exists_room {q : ℚ} (hq : q ∈ openMargins box body r flow grounded seats k) :
    ∃ R, room box body r flow grounded seats k = some R ∧ R.margin ≤ q := by
  cases hroom : room box body r flow grounded seats k with
  | none =>
    rw [room_eq_none.mp hroom] at hq
    cases hq
  | some R => exact ⟨R, rfl, (isLeast_margin hroom).2 hq⟩

/-- Margins read the same where the open sides have the same. -/
lemma margin_congr {box' body' : Box} {flow' : FlowSides} {seats' : List (Face × String)}
    (h : openMargins box' body' r flow' grounded seats' k =
      openMargins box body r flow grounded seats k) :
    (room box' body' r flow' grounded seats' k).map Room.margin =
      (room box body r flow grounded seats k).map Room.margin := by
  cases hroom : room box body r flow grounded seats k with
  | none =>
    rw [room_eq_none.mpr (h.trans (room_eq_none.mp hroom))]
  | some R =>
    have hleast := isLeast_margin hroom
    obtain ⟨R', hroom', -⟩ := exists_room (h ▸ hleast.1)
    have hleast' := isLeast_margin hroom'
    rw [h] at hleast'
    simp [hroom', hleast'.unique hleast]

end Margins

/-! ## What is found -/

section Findings

variable {requested : Request} {tol r : ℚ} {flow : FlowSides} {seats : List (Face × String)}
  {margins : Direction → Option Room} {k : Direction} {rv mv : ℚ}

/-- A margin that blocks. -/
def Blocks (tol rv mv : ℚ) : Prop := mv ≤ 0 ∨ mv < rv * (1 - tol) ∧ mv < rv * floorFraction

/-- A margin that is a near miss. -/
def Nears (tol rv mv : ℚ) : Prop := 0 < mv ∧ mv < rv * (1 - tol) ∧ rv * floorFraction ≤ mv

/-- A requested direction is judged by its room. -/
def Judged (requested : Request) (flow : FlowSides) (seats : List (Face × String))
    (margins : Direction → Option Room) (k : Direction) (rv : ℚ) (room : Room) : Prop :=
  acrossPlane flow seats k = none ∧ requested.get k = some rv ∧ margins k = some room

lemma judge_blocks {room : Room} :
    (judge tol r k rv room).blocks ≠ [] ↔ Blocks tol rv room.margin := by
  unfold judge Blocks Findings.empty
  grind

lemma judge_caveats {room : Room} :
    (judge tol r k rv room).caveats ≠ [] ↔ Nears tol rv room.margin := by
  unfold judge Nears Findings.empty
  grind

lemma concat_blocks (fs : List Findings) :
    (Findings.concat fs).blocks ≠ [] ↔ ∃ f ∈ fs, f.blocks ≠ [] := by
  induction fs with
  | nil => simp [Findings.concat, Findings.empty]
  | cons f fs ih =>
    have hcons : (Findings.concat (f :: fs)).blocks = f.blocks ++ (Findings.concat fs).blocks := rfl
    rw [hcons]
    simp only [ne_eq, List.append_eq_nil_iff, not_and_or, List.exists_mem_cons_iff]
    exact or_congr_right ih

lemma concat_caveats (fs : List Findings) :
    (Findings.concat fs).caveats ≠ [] ↔ ∃ f ∈ fs, f.caveats ≠ [] := by
  induction fs with
  | nil => simp [Findings.concat, Findings.empty]
  | cons f fs ih =>
    have hcons : (Findings.concat (f :: fs)).caveats = f.caveats ++ (Findings.concat fs).caveats :=
      rfl
    rw [hcons]
    simp only [ne_eq, List.append_eq_nil_iff, not_and_or, List.exists_mem_cons_iff]
    exact or_congr_right ih

lemma Direction.mem_all (k : Direction) : k ∈ Direction.all := by cases k <;> decide

/-- The findings are those of the planes across the flow and of the directions that are judged. -/
lemma exists_finding {P : Findings → Prop} :
    (∃ f ∈ (Direction.all.filterMap fun k =>
        (acrossPlane flow seats k).map (acrossFinding requested margins k)) ++
      Direction.all.filterMap fun k =>
        if (acrossPlane flow seats k).isSome then none
        else (requested.get k).bind fun rv => (margins k).map (judge tol r k rv), P f) ↔
    (∃ k, ∃ plane ∈ acrossPlane flow seats k, P (acrossFinding requested margins k plane)) ∨
      ∃ k rv room, Judged requested flow seats margins k rv room ∧ P (judge tol r k rv room) := by
  simp only [List.mem_append, List.mem_filterMap, Direction.mem_all, true_and, or_and_right,
    exists_or, Option.map_eq_some_iff, Option.ite_none_left_eq_some, Option.bind_eq_some_iff,
    Judged, Option.not_isSome_iff_eq_none, Option.mem_def]
  constructor
  · rintro (⟨f, ⟨k, plane, hplane, rfl⟩, hP⟩ | ⟨f, ⟨k, hnone, rv, hrv, room, hroom, rfl⟩, hP⟩)
    · exact .inl ⟨k, plane, hplane, hP⟩
    · exact .inr ⟨k, rv, room, ⟨hnone, hrv, hroom⟩, hP⟩
  · rintro (⟨k, plane, hplane, hP⟩ | ⟨k, rv, room, ⟨hnone, hrv, hroom⟩, hP⟩)
    · exact .inl ⟨_, ⟨k, plane, hplane, rfl⟩, hP⟩
    · exact .inr ⟨_, ⟨k, hnone, rv, hrv, room, hroom, rfl⟩, hP⟩

theorem findings_blocks : (findings requested tol r flow seats margins).blocks ≠ [] ↔
    (∃ k, acrossPlane flow seats k ≠ none) ∨
      ∃ k rv room, Judged requested flow seats margins k rv room ∧ Blocks tol rv room.margin := by
  unfold findings
  rw [concat_blocks, exists_finding]
  simp only [judge_blocks, acrossFinding, ne_eq, List.cons_ne_self, not_false_eq_true, and_true,
    Option.mem_def, ← Option.isSome_iff_exists, Option.isSome_iff_ne_none]

theorem findings_caveats : (findings requested tol r flow seats margins).caveats ≠ [] ↔
    ∃ k rv room, Judged requested flow seats margins k rv room ∧ Nears tol rv room.margin := by
  unfold findings
  rw [concat_caveats, exists_finding]
  simp [judge_caveats, acrossFinding]

lemma Findings.status_block {f : Findings} : f.verdict.status = .block ↔ f.blocks ≠ [] := by
  unfold verdict
  split
  · simp_all
  · split <;> simp_all

lemma Findings.status_miss {f : Findings} :
    f.verdict.status = .miss ↔ f.blocks = [] ∧ f.caveats ≠ [] := by
  unfold verdict
  split
  · simp_all
  · split <;> simp_all

lemma Findings.status_pass {f : Findings} :
    f.verdict.status = .pass ↔ f.blocks = [] ∧ f.caveats = [] := by
  unfold verdict
  split
  · simp_all
  · split <;> simp_all

end Findings

end MeshPipeline.DomainExtent
