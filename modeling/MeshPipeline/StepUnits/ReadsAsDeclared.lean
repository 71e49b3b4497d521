import Mathlib.Data.List.Find
import MeshPipeline.StepUnits.Declared

/-!
# The reader against what the file declares

The reader's search for instances and its patterns know neither comments nor strings. Where they
come upon what the text declares, the lengths are right but for chains that are longer than it
follows and for lengths that it takes to be the same.
-/

namespace MeshPipeline.StepUnits

open Regex

/-- What `_unit_metres` takes an instance for. -/
def meaningOf (data body : Data) : Meaning :=
  match conversion.search body with
  | some conv =>
    match measure.search ((find data (int (conv.text 2))).getD []) with
    | some m =>
      let value := float (if m.text 1 = [] then m.text 2 else m.text 1)
      if 0 < value then .converted value (int (m.text 3)) else .malformed
    | none => .malformed
  | none =>
    match si.search body with
    | some g =>
      let siWord := strip (g.text 1)
      if strip (g.text 2) ≠ ".METRE.".toList then .malformed
      else if siWord = ['$'] ∨ siWord = [] then .metre 1
      else
        let word := (siWord.dropWhile (· == '.')).rdropWhile (· == '.')
        (if siWord.head? = some '.' ∧ siWord.getLast? = some '.' then siPrefix word
          else none).elim .malformed .metre
    | none => .malformed

/-- What the reader's search and its patterns make of a number. -/
def view (data : Data) (ref : ℕ) : View :=
  match find data ref with
  | none => ⟨false, false, .malformed⟩
  | some body =>
    { length := "LENGTH_UNIT".toList <:+: body
      siMetre := decide (".METRE.".toList <:+: body ∧ "SI_UNIT".toList <:+: body)
      meaning := meaningOf data body }

variable {data : Data} {n left links : ℕ} {metres : ℚ} {refs : List ℕ}

@[simp]
lemma unitMetres_zero : (unitMetres data 0 n).metres = none := by
  unfold unitMetres
  split <;> rfl

/-- One link of the chain. -/
lemma unitMetres_succ : (unitMetres data (left + 1) n).metres =
    match (view data n).meaning with
    | .converted value base => (unitMetres data left base).metres.map (value * ·)
    | .metre scale => some scale
    | .malformed => none := by
  rw [unitMetres, view]
  cases hfind : find data n with
  | none => rfl
  | some body =>
    simp only [meaningOf]
    cases conversion.search body with
    | some conv =>
      simp only
      cases measure.search ((find data (int (conv.text 2))).getD []) with
      | none => rfl
      | some m =>
        simp only
        generalize float (if m.text 1 = [] then m.text 2 else m.text 1) = value
        by_cases hvalue : 0 < value
        · cases hbase : (unitMetres data left (int (m.text 3))).metres <;> simp [hvalue, hbase]
        · cases (unitMetres data left (int (m.text 3))).metres <;> simp [hvalue]
    | none =>
      simp only
      cases si.search body with
      | none => rfl
      | some g =>
        simp only
        split
        · rfl
        · split
          · rfl
          · split <;> simp_all

/-- The reader follows a chain that it has the depth for. -/
theorem unitMetres_eq_some :
    (unitMetres data left n).metres = some metres ↔
      ∃ links < left, Chain (view data) links n metres := by
  induction left generalizing n metres with
  | zero => simp
  | succ left ih =>
    rw [unitMetres_succ]
    cases hm : (view data n).meaning with
    | malformed =>
      simp only [reduceCtorEq, false_iff, not_exists, not_and]
      rintro links - hc
      cases hc <;> simp_all
    | metre scale =>
      constructor
      · rintro ⟨⟩
        exact ⟨0, by omega, .metre hm⟩
      · rintro ⟨links, -, hc⟩
        rw [(hc.unique (.metre hm)).2]
    | converted value base =>
      simp only [Option.map_eq_some_iff, ih]
      constructor
      · rintro ⟨m, ⟨links, hlt, hc⟩, rfl⟩
        exact ⟨links + 1, by omega, .converted hm hc⟩
      · rintro ⟨links, hlt, hc⟩
        cases hc with
        | metre hm' => simp [hm] at hm'
        | converted hm' hbase =>
          obtain ⟨rfl, rfl⟩ : _ ∧ _ := by simpa [hm] using hm'
          exact ⟨_, ⟨_, by omega, hbase⟩, rfl⟩

/-- A length has no number, or it has no problem. -/
lemma none_or_no_problem :
    (unitMetres data left n).metres = none ∨ (unitMetres data left n).problem = "" := by
  rw [unitMetres]
  cases find data n with
  | none => exact .inl rfl
  | some body =>
    cases left with
    | zero => exact .inl rfl
    | succ left =>
      simp only
      cases conversion.search body with
      | some conv =>
        simp only
        cases measure.search ((find data (int (conv.text 2))).getD []) with
        | none => exact .inl rfl
        | some m =>
          simp only
          cases (unitMetres data left (int (m.text 3))).metres with
          | none => exact .inl rfl
          | some metres =>
            simp only
            generalize float (if m.text 1 = [] then m.text 2 else m.text 1) = value
            split
            · exact .inl rfl
            · exact .inr rfl
      | none =>
        simp only
        cases si.search body with
        | none => exact .inl rfl
        | some g =>
          simp only
          split
          · exact .inl rfl
          · split
            · exact .inr rfl
            · split
              · exact .inl rfl
              · exact .inr rfl

lemma problem_of_metres (h : (unitMetres data left n).metres = some metres) :
    (unitMetres data left n).problem = "" :=
  none_or_no_problem.resolve_left (by simp [h])

lemma lengthUnitAmong_eq (fallback : Option ℕ) :
    lengthUnitAmong data fallback refs =
      ((refs.find? fun n => (view data n).length).or
        (fallback.or (refs.find? fun n => (view data n).siMetre))).map
        (unitMetres data (maxDepth + 1)) := by
  induction refs generalizing fallback with
  | nil => simp [lengthUnitAmong]
  | cons ref refs ih =>
    rw [lengthUnitAmong, List.find?_cons, List.find?_cons]
    cases hfind : find data ref with
    | none =>
      have hview : view data ref = ⟨false, false, .malformed⟩ := by rw [view, hfind]
      rw [hview]
      exact ih fallback
    | some body =>
      have hlength : (view data ref).length = decide ("LENGTH_UNIT".toList <:+: body) := by
        rw [view, hfind]
      have hmetre : (view data ref).siMetre =
          decide (".METRE.".toList <:+: body ∧ "SI_UNIT".toList <:+: body) := by
        rw [view, hfind]
      rw [hlength, hmetre]
      by_cases hl : "LENGTH_UNIT".toList <:+: body
      · rw [decide_eq_true hl]
        exact if_pos hl
      · rw [decide_eq_false hl]
        refine (if_neg hl).trans ?_
        by_cases hm : ".METRE.".toList <:+: body ∧ "SI_UNIT".toList <:+: body
        · rw [decide_eq_true hm]
          cases fallback with
          | none => exact (if_pos ⟨rfl, hm⟩).trans (ih _)
          | some ref' => exact (if_neg (by simp)).trans (ih _)
        · rw [decide_eq_false hm]
          exact (if_neg fun h => hm h.2).trans (ih _)

theorem lengthUnitOfContext_eq : lengthUnitOfContext data refs =
    (assigned (view data) refs).map (unitMetres data (maxDepth + 1)) := by
  simp [lengthUnitOfContext, lengthUnitAmong_eq, assigned]

/-! ## Where the reader's search comes upon what is declared -/

/-- The numbers that the contexts refer to, and those that the conversions lead to. -/
inductive Reached (data : Data) : ℕ → Prop
  | context {refs : List ℕ} {n : ℕ} (h : refs ∈ declaredContexts data) (hn : n ∈ refs) :
      Reached data n
  | base {n base : ℕ} {value : ℚ} (h : Reached data n)
      (hm : (declaredView data n).meaning = .converted value base) : Reached data base

/-- The patterns and the search for names, which know neither strings nor comments, find the
contexts and the instances that the text declares, and take them for what they are. -/
structure Legible (data : Data) : Prop where
  contexts : contexts data = declaredContexts data
  views : ∀ n, Reached data n → view data n = declaredView data n

/-- The units that the contexts assign. -/
def units (data : Data) : List ℕ :=
  (declaredContexts data).filterMap (assigned (declaredView data))

/-- No chain to the metre has more conversions than the reader follows. -/
def Shallow (data : Data) : Prop :=
  ∀ n ∈ units data, ∀ links metres, Chain (declaredView data) links n metres → links ≤ maxDepth

/-- No two of the declared lengths agree to twelve decimals. -/
def Unmerged (data : Data) : Prop :=
  ∀ metres metres', some metres ∈ declared data → some metres' ∈ declared data →
    DecimalRound.round 12 metres = DecimalRound.round 12 metres' → metres = metres'

/-- Each length, and each malformed unit, is returned with as many uses as contexts declare it. -/
def ReadsAsDeclared (data : Data) : Prop :=
  ∀ metres : Option ℚ, Tally.total DeclaredLength.metres metres (declaredLengthUses data) =
    (declared data).count metres

lemma declared_eq : declared data = (units data).map (metresOf (declaredView data)) := by
  rw [declared, units, List.map_filterMap]

lemma count_declared (v : Option ℚ) : (declared data).count v =
    (units data).countP fun n => metresOf (declaredView data) n = v := by
  rw [declared_eq, List.count_eq_countP, List.countP_map]
  exact List.countP_congr fun n _ => by simp

lemma mem_of_assigned {view : ℕ → View} (h : assigned view refs = some n) : n ∈ refs := by
  unfold assigned at h
  obtain h | ⟨-, h⟩ := Option.or_eq_some_iff.mp h
  · exact List.mem_of_find?_eq_some h
  · exact List.mem_of_find?_eq_some h

lemma reached_of_mem_units (h : n ∈ units data) : Reached data n := by
  obtain ⟨refs, hrefs, hn⟩ := List.mem_filterMap.mp h
  exact .context hrefs (mem_of_assigned hn)

namespace Legible

variable (h : Legible data)

include h

lemma chain_iff (hn : Reached data n) :
    Chain (view data) links n metres ↔ Chain (declaredView data) links n metres := by
  constructor
  · intro hc
    induction hc with
    | metre hm => exact .metre (h.views _ hn ▸ hm)
    | converted hm _ ih =>
      rw [h.views _ hn] at hm
      exact .converted hm (ih (hn.base hm))
  · intro hc
    induction hc with
    | metre hm => exact .metre ((h.views _ hn).symm ▸ hm)
    | converted hm _ ih => exact .converted ((h.views _ hn).symm ▸ hm) (ih (hn.base hm))

lemma assigned_eq (hrefs : refs ∈ declaredContexts data) :
    assigned (view data) refs = assigned (declaredView data) refs := by
  have hview : ∀ n ∈ refs, view data n = declaredView data n := fun n hn =>
    h.views n (.context hrefs hn)
  unfold assigned
  congr 1
  · exact List.find?_congr fun n hn => by rw [hview n hn]
  · exact List.find?_congr fun n hn => by rw [hview n hn]

/-- What the reader finds, context by context. -/
lemma found_eq : (StepUnits.contexts data).filterMap (lengthUnitOfContext data) =
    (units data).map (unitMetres data (maxDepth + 1)) := by
  rw [h.contexts, units, List.map_filterMap]
  apply List.filterMap_congr
  intro refs hrefs
  rw [lengthUnitOfContext_eq, h.assigned_eq hrefs]

lemma metres_eq_some (hn : n ∈ units data) :
    (unitMetres data (maxDepth + 1) n).metres = some metres ↔
      ∃ links ≤ maxDepth, Chain (declaredView data) links n metres := by
  simp only [unitMetres_eq_some, h.chain_iff (reached_of_mem_units hn), Nat.lt_succ_iff]

lemma metres_eq (hshallow : Shallow data) (hn : n ∈ units data) :
    (unitMetres data (maxDepth + 1) n).metres = metresOf (declaredView data) n := by
  apply Option.ext
  intro metres
  rw [h.metres_eq_some hn, metresOf_eq_some]
  constructor
  · rintro ⟨links, -, hc⟩
    exact ⟨links, hc⟩
  · rintro ⟨links, hc⟩
    exact ⟨links, hshallow n hn links metres hc, hc⟩

lemma metres_eq_none (hn : n ∈ units data) (hnone : metresOf (declaredView data) n = none) :
    (unitMetres data (maxDepth + 1) n).metres = none := by
  rw [Option.eq_none_iff_forall_ne_some]
  intro metres hsome
  obtain ⟨links, -, hc⟩ := (h.metres_eq_some hn).mp hsome
  exact metresOf_eq_none.mp hnone links metres hc

lemma uses_eq : declaredLengthUses data =
    Tally.tally useKey ((units data).map (unitMetres data (maxDepth + 1))) := by
  rw [declaredLengthUses, h.found_eq]

/-- A problem is never kept under the key of a number, so the malformed units are counted as the
reader finds them. -/
lemma total_none : Tally.total DeclaredLength.metres none (declaredLengthUses data) =
    (units data).countP fun n => (unitMetres data (maxDepth + 1) n).metres = none := by
  rw [h.uses_eq, Tally.total_tally, List.countP_map]
  · rfl
  · intro x _ y _ hkey
    have hmetres := congrArg Prod.fst hkey
    simp only [useKey] at hmetres
    rw [← Option.map_eq_none_iff, hmetres, Option.map_eq_none_iff]

/-- A chain that is too deep is a problem that the file does not have. -/
lemma shallow_of_reads (hreads : ReadsAsDeclared data) : Shallow data := by
  by_contra hdeep
  simp only [Shallow, not_forall, not_le] at hdeep
  obtain ⟨n, hn, links, metres, hc, hlinks⟩ := hdeep
  have hlost : (unitMetres data (maxDepth + 1) n).metres = none := by
    rw [Option.eq_none_iff_forall_ne_some]
    intro metres' hsome
    obtain ⟨links', hle, hc'⟩ := (h.metres_eq_some hn).mp hsome
    have := (hc.unique hc').1
    omega
  have hgood : metresOf (declaredView data) n = some metres := metresOf_eq_some.mpr ⟨links, hc⟩
  have hmore : (declared data).count none <
      Tally.total DeclaredLength.metres none (declaredLengthUses data) := by
    rw [h.total_none, count_declared]
    apply Tally.countP_lt _ hn (by simp [hgood]) (by simpa using hlost)
    intro m hm hnone
    simpa using h.metres_eq_none hm (by simpa using hnone)
  have := hreads none
  omega

/-- A length that is declared is found, with no problem. -/
lemma exists_found (hshallow : Shallow data) (hmem : some metres ∈ declared data) :
    ∃ d ∈ (units data).map (unitMetres data (maxDepth + 1)), d.metres = some metres := by
  rw [declared_eq] at hmem
  obtain ⟨n, hn, heq⟩ := List.mem_map.mp hmem
  exact ⟨_, List.mem_map_of_mem hn, by rw [h.metres_eq hshallow hn, heq]⟩

lemma count_found (hshallow : Shallow data) (v : Option ℚ) :
    (declared data).count v =
      ((units data).map (unitMetres data (maxDepth + 1))).countP (·.metres = v) := by
  rw [count_declared, List.countP_map]
  apply List.countP_congr
  intro n hn
  simp [h.metres_eq hshallow hn]

end Legible

lemma useKey_of_metres {d : DeclaredLength}
    (hd : d ∈ (units data).map (unitMetres data (maxDepth + 1))) (hm : d.metres = some metres) :
    useKey d = (some (DecimalRound.round 12 metres), "") := by
  obtain ⟨n, -, rfl⟩ := List.mem_map.mp hd
  simp [useKey, hm, problem_of_metres hm]

/-- Of two lengths under one key the second is counted as the first. -/
lemma Legible.unmerged_of_reads (h : Legible data) (hshallow : Shallow data)
    (hreads : ReadsAsDeclared data) : Unmerged data := by
  intro m m' hm hm' hround
  by_contra hne
  obtain ⟨d, hd, hdm⟩ := h.exists_found hshallow hm
  obtain ⟨d', hd', hdm'⟩ := h.exists_found hshallow hm'
  have hown : ∀ e ∈ (units data).map (unitMetres data (maxDepth + 1)),
      ∀ e' ∈ (units data).map (unitMetres data (maxDepth + 1)), ∀ metres,
      e'.metres = some metres → e.metres = e'.metres → useKey e = useKey e' := by
    intro e he e' he' metres hmetres heq
    rw [useKey_of_metres he' hmetres, useKey_of_metres he (heq.trans hmetres)]
  have hkey : useKey d = useKey d' := by
    rw [useKey_of_metres hd hdm, useKey_of_metres hd' hdm', hround]
  have hmetres : d.metres ≠ d'.metres := by
    rw [hdm, hdm']
    simpa using hne
  obtain ⟨v, hv⟩ := Tally.exists_total_ne hd hd' hkey hmetres
    (fun e he heq => hown e he d hd m hdm heq) (fun e he heq => hown e he d' hd' m' hdm' heq)
  exact hv (by rw [← h.uses_eq, hreads v, h.count_found hshallow])

/-- Where no two lengths are merged a key stands for one length. -/
lemma Legible.reads_of_unmerged (h : Legible data) (hshallow : Shallow data)
    (hunmerged : Unmerged data) : ReadsAsDeclared data := by
  intro v
  rw [h.uses_eq, h.count_found hshallow, Tally.total_tally]
  intro d hd d' hd' hkey
  suffices heq : d.metres = d'.metres by rw [heq]
  have hround : d.metres.map (DecimalRound.round 12) = d'.metres.map (DecimalRound.round 12) :=
    congrArg Prod.fst hkey
  have hdeclared : ∀ e ∈ (units data).map (unitMetres data (maxDepth + 1)),
      e.metres ∈ declared data := by
    intro e he
    obtain ⟨n, hn, rfl⟩ := List.mem_map.mp he
    rw [h.metres_eq hshallow hn, declared_eq]
    exact List.mem_map_of_mem hn
  have hd := hdeclared d hd
  have hd' := hdeclared d' hd'
  cases hm : d.metres with
  | none => simpa [hm, eq_comm] using hround
  | some m =>
    cases hm' : d'.metres with
    | none => simp [hm, hm'] at hround
    | some m' =>
      rw [hm] at hd
      rw [hm'] at hd'
      rw [hunmerged m m' hd hd' (by simpa [hm, hm'] using hround)]

/-- An inch and a plain metre, each in a context of its own. -/
def inchAndMetre : Data :=
  ["#1=(LENGTH_UNIT()", "SI_UNIT(.MILLI.,.METRE.));", "#2=MEASURE_WITH_UNIT(", "LENGTH_MEASURE",
    "(25.4),#1);", "#3=(CONVERSION_BASED_", "UNIT('INCH;',#2)", "LENGTH_UNIT());",
    "#4=(GLOBAL_UNIT_", "ASSIGNED_CONTEXT((#3)));", "#5 = (LENGTH_UNIT()", "SI_UNIT($,.METRE.));",
    "#6=(GLOBAL_UNIT_", "ASSIGNED_CONTEXT((#5)));"].flatMap String.toList

/-- What is declared in it, and that the reader comes upon the same. -/
lemma inchAndMetre_read :
    (declaredContexts inchAndMetre = [[3], [5]] ∧ contexts inchAndMetre = [[3], [5]]) ∧
      (declaredView inchAndMetre 1 = ⟨true, true, .metre (1 / 1000)⟩ ∧
        declaredView inchAndMetre 3 = ⟨true, false, .converted (254 / 10) 1⟩ ∧
        declaredView inchAndMetre 5 = ⟨true, true, .metre 1⟩) ∧
      (view inchAndMetre 1 = ⟨true, true, .metre (1 / 1000)⟩ ∧
        view inchAndMetre 3 = ⟨true, false, .converted (254 / 10) 1⟩ ∧
        view inchAndMetre 5 = ⟨true, true, .metre 1⟩) ∧
      DecimalRound.round 12 (254 / 10 * (1 / 1000)) ≠ DecimalRound.round 12 1 := by
  -- the kernel searches in its characters, not in the texts
  have hchars : inchAndMetre =
      ['#', '1', '=', '(', 'L', 'E', 'N', 'G', 'T', 'H', '_', 'U', 'N', 'I', 'T', '(', ')', 'S',
        'I', '_', 'U', 'N', 'I', 'T', '(', '.', 'M', 'I', 'L', 'L', 'I', '.', ',', '.', 'M', 'E',
        'T', 'R', 'E', '.', ')', ')', ';', '#', '2', '=', 'M', 'E', 'A', 'S', 'U', 'R', 'E', '_',
        'W', 'I', 'T', 'H', '_', 'U', 'N', 'I', 'T', '(', 'L', 'E', 'N', 'G', 'T', 'H', '_', 'M',
        'E', 'A', 'S', 'U', 'R', 'E', '(', '2', '5', '.', '4', ')', ',', '#', '1', ')', ';', '#',
        '3', '=', '(', 'C', 'O', 'N', 'V', 'E', 'R', 'S', 'I', 'O', 'N', '_', 'B', 'A', 'S', 'E',
        'D', '_', 'U', 'N', 'I', 'T', '(', '\x27', 'I', 'N', 'C', 'H', ';', '\x27', ',', '#', '2',
        ')', 'L', 'E', 'N', 'G', 'T', 'H', '_', 'U', 'N', 'I', 'T', '(', ')', ')', ';', '#', '4',
        '=', '(', 'G', 'L', 'O', 'B', 'A', 'L', '_', 'U', 'N', 'I', 'T', '_', 'A', 'S', 'S', 'I',
        'G', 'N', 'E', 'D', '_', 'C', 'O', 'N', 'T', 'E', 'X', 'T', '(', '(', '#', '3', ')', ')',
        ')', ';', '#', '5', ' ', '=', ' ', '(', 'L', 'E', 'N', 'G', 'T', 'H', '_', 'U', 'N', 'I',
        'T', '(', ')', 'S', 'I', '_', 'U', 'N', 'I', 'T', '(', '$', ',', '.', 'M', 'E', 'T', 'R',
        'E', '.', ')', ')', ';', '#', '6', '=', '(', 'G', 'L', 'O', 'B', 'A', 'L', '_', 'U', 'N',
        'I', 'T', '_', 'A', 'S', 'S', 'I', 'G', 'N', 'E', 'D', '_', 'C', 'O', 'N', 'T', 'E', 'X',
        'T', '(', '(', '#', '5', ')', ')', ')', ';'] := by
    decide +kernel
  rw [hchars]
  refine ⟨⟨?_, ?_⟩, ⟨?_, ?_, ?_⟩, ⟨?_, ?_, ?_⟩, ?_⟩ <;> decide +kernel

lemma inchAndMetre_contexts : declaredContexts inchAndMetre = [[3], [5]] :=
  inchAndMetre_read.1.1

lemma millimetre_view : declaredView inchAndMetre 1 = ⟨true, true, .metre (1 / 1000)⟩ :=
  inchAndMetre_read.2.1.1

lemma inch_view : declaredView inchAndMetre 3 = ⟨true, false, .converted (254 / 10) 1⟩ :=
  inchAndMetre_read.2.1.2.1

lemma metre_view : declaredView inchAndMetre 5 = ⟨true, true, .metre 1⟩ :=
  inchAndMetre_read.2.1.2.2

lemma inchAndMetre_reached {n : ℕ} (h : Reached inchAndMetre n) : n = 1 ∨ n = 3 ∨ n = 5 := by
  induction h with
  | context h hn =>
    rw [inchAndMetre_contexts] at h
    grind
  | base _ hm ih =>
    obtain rfl | rfl | rfl := ih
    · simp [millimetre_view] at hm
    · simp [inch_view] at hm
      simp [← hm.2]
    · simp [metre_view] at hm

lemma inchAndMetre_legible : Legible inchAndMetre where
  contexts := by rw [inchAndMetre_contexts, inchAndMetre_read.1.2]
  views n hn := by
    obtain ⟨hmillimetre, hinch, hmetre⟩ := inchAndMetre_read.2.2.1
    obtain rfl | rfl | rfl := inchAndMetre_reached hn
    · rw [millimetre_view, hmillimetre]
    · rw [inch_view, hinch]
    · rw [metre_view, hmetre]

lemma inch_chain : Chain (declaredView inchAndMetre) 1 3 (254 / 10 * (1 / 1000)) :=
  .converted (by rw [inch_view]) (.metre (by rw [millimetre_view]))

lemma metre_chain : Chain (declaredView inchAndMetre) 0 5 1 := .metre (by rw [metre_view])

lemma inchAndMetre_units : units inchAndMetre = [3, 5] := by
  simp [units, inchAndMetre_contexts, assigned, inch_view, metre_view]

/-- A metre, and before it in a comment the millimetre that it was. -/
def commentedOut : Data :=
  ["/* #1=(LENGTH_UNIT()", "SI_UNIT(.MILLI.,.METRE.)); */ ", "#1=(LENGTH_UNIT()",
    "SI_UNIT($,.METRE.));", "#2=(GLOBAL_UNIT_", "ASSIGNED_CONTEXT((#1)));"].flatMap String.toList

end MeshPipeline.StepUnits
