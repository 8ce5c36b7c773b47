/-
The modular scale of a set of sizes.

The rule on modular scales throws away repeated sizes, sorts the rest, divides each size by the one below it as long as
that is not zero, and looks at the first three quotients. All of this can be told from the ladder of the sizes: the
positive ones in ascending order, each once (`IsLadder`). A set has only one ladder, so neither the order nor the number
of times in which sizes are declared makes a difference. Zero is the only size that is missing from the ladder, and it is
below all others, so neighbours on the ladder are neighbours among all sizes.

Values are ordered by their units; nothing is assumed about the rounding of a quotient, or about which quotients are near
the ratio of a scale.

Main result:
- `modular_scale_by_set`: what the search for a ratio off all scales finds on the ladder, and that it, and with it the
  report on a text, depends on nothing but the set of sizes.
-/
import Mathlib.Tactic
import AppAudit.Proofs.Numerals
import AppAudit.Proofs.Thresholds

namespace AppAudit

/-! ## Sizes and their ladder -/

namespace Binary64

/-- finite and not negative -/
def IsSize : Binary64 → Prop
  | finite u => 0 ≤ u
  | infinite _ => False

/-- the number of units of a finite value -/
def units : Binary64 → ℤ
  | finite u => u
  | infinite _ => 0

theorem IsSize.finite_units {v : Binary64} (h : v.IsSize) : finite v.units = v := by
  cases v with
  | finite u => rfl
  | infinite negative => exact h.elim

end Binary64

open Binary64 (finite)

/-- the positive sizes in ascending order, each of them once -/
structure IsLadder (sizes : List Binary64) (ladder : List ℤ) : Prop where
  ascending : ladder.Pairwise (· < ·)
  mem_iff : ∀ u, u ∈ ladder ↔ 0 < u ∧ finite u ∈ sizes

/-- two sizes with no other one between them, the lower one positive -/
structure Neighbours (sizes : List Binary64) (a b : ℤ) : Prop where
  lower : finite a ∈ sizes
  upper : finite b ∈ sizes
  positive : 0 < a
  lt : a < b
  apart : ∀ u, finite u ∈ sizes → u ≤ a ∨ b ≤ u

namespace IsLadder

variable {sizes other : List Binary64} {ladder ladder' : List ℤ}

/-- **A set of sizes has one ladder.** -/
theorem unique (h : IsLadder sizes ladder) (h' : IsLadder other ladder') (hsame : ∀ size, size ∈ sizes ↔ size ∈ other) :
    ladder = ladder' := by
  refine h.ascending.eq_of_mem_iff h'.ascending fun u => ?_
  rw [h.mem_iff, h'.mem_iff, hsame]

/-- neighbours on the ladder are neighbours among all sizes -/
theorem neighbours (h : IsLadder sizes ladder) {i : ℕ} {a b : ℤ} (ha : ladder[i]? = some a)
    (hb : ladder[i + 1]? = some b) : Neighbours sizes a b := by
  obtain ⟨hi, rfl⟩ := List.getElem?_eq_some_iff.1 ha
  obtain ⟨hi', rfl⟩ := List.getElem?_eq_some_iff.1 hb
  have hlower := (h.mem_iff _).1 (List.getElem_mem hi)
  have hupper := (h.mem_iff _).1 (List.getElem_mem hi')
  have horder := List.pairwise_iff_getElem.1 h.ascending
  refine ⟨hlower.2, hupper.2, hlower.1, horder i (i + 1) hi hi' (Nat.lt_succ_self i), fun u hu => ?_⟩
  rcases Int.lt_or_le 0 u with hpos | hneg
  · obtain ⟨k, hk, rfl⟩ := List.getElem_of_mem ((h.mem_iff u).2 ⟨hpos, hu⟩)
    rcases Nat.lt_trichotomy k i with hlt | rfl | hgt
    · exact Or.inl (horder k i hk hi hlt).le
    · exact Or.inl le_rfl
    · rcases Nat.lt_or_eq_of_le (Nat.succ_le_of_lt hgt) with hlt | rfl
      · exact Or.inr (horder (i + 1) k hi' hk hlt).le
      · exact Or.inr le_rfl
  · exact Or.inl (hneg.trans hlower.1.le)

end IsLadder

/-! ## The different sizes in order -/

theorem nodup_eraseDups {α : Type} [BEq α] [LawfulBEq α] (l : List α) : l.eraseDups.Nodup := by
  cases l with
  | nil => simp
  | cons a l =>
    rw [List.eraseDups_cons, List.nodup_cons]
    exact ⟨by simp [List.mem_eraseDups], nodup_eraseDups (l.filter fun b => !b == a)⟩
termination_by l.length
decreasing_by exact Nat.lt_succ_of_le (List.length_filter_le _ l)

namespace Catalog

variable {sizes : List Binary64} {us : List ℤ}

/-- the different sizes in order, as numbers of units -/
theorem distinctSizes_eq (h : ∀ size ∈ sizes, size.IsSize) :
    ∃ us : List ℤ, distinctSizes sizes = us.map finite ∧ us.Pairwise (· < ·) ∧ ∀ u, u ∈ us ↔ finite u ∈ sizes := by
  set vs := sizes.eraseDups.map Binary64.units with hvs
  have hback : vs.map finite = sizes.eraseDups := by
    rw [hvs, List.map_map]
    refine List.map_congr_left (g := id) (fun size hsize => ?_) |>.trans (List.map_id _)
    exact (h size (List.mem_eraseDups.1 hsize)).finite_units
  have hnodup : vs.Nodup := by
    apply List.Nodup.of_map finite
    rw [hback]
    exact nodup_eraseDups sizes
  refine ⟨vs.mergeSort fun a b => decide (a ≤ b), ?_, ?_, ?_⟩
  · rw [distinctSizes, ← hback]
    refine (List.map_mergeSort fun a _ b _ => ?_).symm
    rw [Binary64.lt, ← decide_not]
    simp only [not_lt]
  · have htrans : ∀ a b c : ℤ, decide (a ≤ b) = true → decide (b ≤ c) = true → decide (a ≤ c) = true := by
      simp only [decide_eq_true_eq]
      intro a b c
      exact le_trans
    have htotal : ∀ a b : ℤ, (decide (a ≤ b) || decide (b ≤ a)) = true := by
      simp only [Bool.or_eq_true, decide_eq_true_eq]
      exact le_total
    have hordered := List.pairwise_mergeSort htrans htotal vs
    have hdistinct := (List.mergeSort_perm vs fun a b => decide (a ≤ b)).nodup_iff.2 hnodup
    refine (hordered.and hdistinct).imp fun hab => ?_
    exact lt_of_le_of_ne (of_decide_eq_true hab.1) hab.2
  · intro u
    rw [List.mem_mergeSort, ← List.mem_eraseDups (l := sizes), ← hback]
    constructor
    · intro hu
      exact List.mem_map_of_mem hu
    · intro hu
      obtain ⟨v, hv, heq⟩ := List.mem_map.1 hu
      cases heq
      exact hv

/-! ## Quotients of neighbours -/

/-- the quotient of two sizes, the upper one by the lower one -/
def quotientOf (a b : ℤ) : Binary64 := (finite b).quotient (finite a)

/-- the quotients along a ladder, from its foot -/
def quotients (ladder : List ℤ) : List Binary64 := (ladder.zip ladder.tail).map fun p => quotientOf p.1 p.2

theorem getElem?_quotients {ladder : List ℤ} {i : ℕ} {r : Binary64} :
    (quotients ladder)[i]? = some r ↔ ∃ a b, ladder[i]? = some a ∧ ladder[i + 1]? = some b ∧ r = quotientOf a b := by
  rw [quotients, List.getElem?_map, Option.map_eq_some_iff]
  simp only [List.getElem?_zip_eq_some, List.getElem?_tail]
  constructor
  · rintro ⟨p, hp, hr⟩
    exact ⟨p.1, p.2, hp.1, hp.2, hr.symm⟩
  · rintro ⟨a, b, ha, hb, hr⟩
    exact ⟨(a, b), ⟨ha, hb⟩, hr.symm⟩

/-- only the foot of an ascending list of sizes can be zero -/
theorem filter_zip_tail (hascending : us.Pairwise (· < ·)) (hsizes : ∀ u ∈ us, 0 ≤ u) :
    (us.zip us.tail).filter (fun p => decide (0 < p.1)) =
      (us.filter fun u => decide (0 < u)).zip (us.filter fun u => decide (0 < u)).tail := by
  have hkept : ∀ us : List ℤ, (∀ u ∈ us, 0 < u) →
      us.filter (fun u => decide (0 < u)) = us ∧
        (us.zip us.tail).filter (fun p => decide (0 < p.1)) = us.zip us.tail := by
    intro us hpos
    refine ⟨List.filter_eq_self.2 fun u hu => decide_eq_true (hpos u hu), List.filter_eq_self.2 fun p hp => ?_⟩
    exact decide_eq_true (hpos p.1 (List.of_mem_zip hp).1)
  cases us with
  | nil => rfl
  | cons u us =>
    rw [List.pairwise_cons] at hascending
    have habove : ∀ v ∈ us, 0 < v := by
      intro v hv
      exact lt_of_le_of_lt (hsizes u List.mem_cons_self) (hascending.1 v hv)
    -- everything behind the foot is positive, so the filters drop the foot or nothing
    by_cases hu : 0 < u
    · obtain ⟨hall, hzip⟩ := hkept (u :: us) (List.forall_mem_cons.2 ⟨hu, habove⟩)
      rw [hall, hzip]
    · obtain ⟨hall, hzip⟩ := hkept us habove
      rw [List.filter_cons_of_neg (by simpa using hu), hall, List.tail_cons, ← hzip]
      cases us with
      | nil => rfl
      | cons v us => rw [List.zip_cons_cons, List.filter_cons_of_neg (by simpa using hu), List.tail_cons]

/-- **The rule looks at the first three quotients along the ladder.** -/
theorem offScaleRatio?_eq (h : ∀ size ∈ sizes, size.IsSize) :
    ∃ ladder, IsLadder sizes ladder ∧
      offScaleRatio? sizes = ((quotients ladder).take 3).find? fun r => !nearScaleRatio r := by
  obtain ⟨us, hus, hascending, hmem⟩ := distinctSizes_eq h
  have hsizes : ∀ u ∈ us, 0 ≤ u := fun u hu => h _ ((hmem u).1 hu)
  refine ⟨us.filter fun u => decide (0 < u), ⟨hascending.filter _, fun u => ?_⟩, ?_⟩
  · rw [List.mem_filter, hmem, decide_eq_true_eq, and_comm]
  · have hratios : neighbourRatios (us.map finite) = quotients (us.filter fun u => decide (0 < u)) := by
      rw [neighbourRatios, quotients, ← filter_zip_tail hascending hsizes, ← List.map_tail, List.zip_map, List.filter_map,
        List.map_map]
      simp only [Function.comp_def, Prod.map_fst, Prod.map_snd, Binary64.lt, quotientOf]
    rw [offScaleRatio?, hus, hratios]

end Catalog

section

variable {α : Type} {l : List α} {good : α → Bool} {n : ℕ}

theorem find?_take_eq_some {a : α} :
    (l.take n).find? good = some a ↔
      ∃ i < n, l[i]? = some a ∧ good a = true ∧ ∀ j < i, ∀ b, l[j]? = some b → good b = false := by
  rw [List.find?_eq_some_iff_getElem]
  constructor
  · rintro ⟨hgood, i, hi, rfl, hbefore⟩
    rw [List.length_take, Nat.lt_min] at hi
    refine ⟨i, hi.1, by rw [List.getElem_take, List.getElem?_eq_getElem hi.2], hgood, ?_⟩
    intro j hj b hb
    obtain ⟨hlt, rfl⟩ := List.getElem?_eq_some_iff.1 hb
    have hbad := hbefore j hj
    rw [List.getElem_take] at hbad
    simpa using hbad
  · rintro ⟨i, hi, ha, hgood, hbefore⟩
    obtain ⟨hlt, rfl⟩ := List.getElem?_eq_some_iff.1 ha
    refine ⟨hgood, i, by rw [List.length_take]; exact lt_min hi hlt, List.getElem_take, ?_⟩
    intro j hj
    rw [List.getElem_take, hbefore j hj _ (List.getElem?_eq_getElem (hj.trans hlt))]
    rfl

theorem find?_take_eq_none :
    (l.take n).find? good = none ↔ ∀ i < n, ∀ a, l[i]? = some a → good a = false := by
  rw [List.find?_eq_none]
  constructor
  · intro h i hi a ha
    have hmem : a ∈ l.take n := List.mem_of_getElem? (i := i) (by rw [List.getElem?_take, if_pos hi, ha])
    exact Bool.eq_false_iff.2 (h a hmem)
  · intro h a ha
    obtain ⟨i, hi⟩ := List.mem_iff_getElem?.1 ha
    rw [List.getElem?_take] at hi
    split_ifs at hi with hlt
    exact Bool.eq_false_iff.1 (h i hlt a hi)

end

/-! ## The sizes of a text -/

/-- a fraction that is not negative is a size as far as it is in range -/
theorem Binary64.isSize_ofRatio {n : ℤ} {d : ℕ} {u : ℤ} (hn : 0 ≤ n) (hu : ofRatio n d = finite u) :
    (finite u).IsSize := by
  rw [ofRatio, decide_eq_false (not_lt.2 hn), ofUnits, if_neg Bool.false_ne_true] at hu
  split_ifs at hu
  cases hu
  exact Int.natCast_nonneg _

/-- what is read from a number without a sign is a size -/
theorem Decimal.isSize_of_toBinary64? {d : Decimal} {v : Binary64} (h : 0 ≤ d.coefficient)
    (hv : d.toBinary64? = some v) : v.IsSize := by
  have hzero : (Binary64.finite 0).IsSize := le_refl 0
  unfold toBinary64? at hv
  dsimp only at hv
  split_ifs at hv
  · cases hv
    exact hzero
  · cases hv
    exact hzero
  · split at hv
    · rename_i u hratio
      cases hv
      cases he : d.exponent with
      | ofNat e =>
        rw [he] at hratio
        exact Binary64.isSize_ofRatio (Int.mul_nonneg h (Int.natCast_nonneg _)) hratio
      | negSucc e =>
        rw [he] at hratio
        exact Binary64.isSize_ofRatio h hratio
    · cases hv

theorem Binary64.isSize_of_read? {t : List Char} {v : Binary64} (ht : IsToken t) (hv : Binary64.read? t = some v) :
    v.IsSize := by
  rw [Binary64.read?, Decimal.read?_token ht, Option.bind_eq_some_iff] at hv
  obtain ⟨d, hd, hv⟩ := hv
  split_ifs at hd
  cases hd
  exact Decimal.isSize_of_toBinary64? (Int.natCast_nonneg _) hv

/-- the values that an extractor measures, in the order of the text -/
def Extractor.values (e : Extractor) (content : List Char) : List Binary64 := (e.measures content).map (·.value)

theorem Extractor.isSize_of_mem_values {e : Extractor} (h : e.token.draws .numeric = true) {content : List Char}
    {size : Binary64} (hsize : size ∈ e.values content) : size.IsSize := by
  simp only [values, measures, List.mem_map, List.mem_filterMap, Option.map_eq_some_iff] at hsize
  obtain ⟨-, ⟨t, ht, v, hv, rfl⟩, rfl⟩ := hsize
  exact Binary64.isSize_of_read? (isToken_of_mem h ht) hv

namespace Catalog

/-- what the rule reports about the sizes in a text -/
def scaleReport (file : String) (sizes : List Binary64) : List Finding :=
  match if 3 < sizes.length then offScaleRatio? sizes else none with
  | some ratio =>
    [.newWarning "modular-scale" "Typography" file
      ("Font sizes may not follow modular scale (ratio: " ++ ratio.toFixed2 ++ "). Consider consistent ratio.")]
  | none => []

/-- the sizes are all that the rule takes from a text, and it confirms nothing -/
theorem evaluate_modularScale (file : String) (content : List Char) :
    modularScale.evaluate file content = ⟨scaleReport file (fontSizeNumber.values content), []⟩ := by
  rw [disciplined_modularScale.evaluate_eq, scaleReport, Extractor.values]
  simp only [modularScale]
  generalize (if 3 < _ then offScaleRatio? _ else none) = ratio
  cases ratio <;> rfl

/-- **Equal sets of sizes give equal answers.** -/
theorem offScaleRatio?_congr {sizes other : List Binary64} (h : ∀ size ∈ sizes, size.IsSize)
    (hsame : ∀ size, size ∈ sizes ↔ size ∈ other) : offScaleRatio? sizes = offScaleRatio? other := by
  obtain ⟨ladder, hladder, hfind⟩ := offScaleRatio?_eq h
  obtain ⟨ladder', hladder', hfind'⟩ := offScaleRatio?_eq fun size hsize => h size ((hsame size).2 hsize)
  rw [hfind, hfind', hladder.unique hladder' hsame]

end Catalog

open Catalog in
/-- **A modular scale is a matter of the set of sizes.** For every list of finite sizes that are not negative, let the
ladder be its positive sizes in ascending order. A ratio off all scales is found exactly if it is one of the first three
quotients along the ladder, each of a size by its lower neighbour, is near no ratio of a scale, and all quotients in front
of it are near one; none is found exactly if the first three quotients, or as many as there are, are all near a ratio of a
scale. So lists with the same sizes in any order and any number give the same answer; and texts with the same set of sizes,
more than three declared in each of them, give the same report. -/
theorem modular_scale_by_set :
    (∀ sizes : List Binary64, (∀ size ∈ sizes, size.IsSize) → ∃ ladder, IsLadder sizes ladder ∧
      (∀ i a b, ladder[i]? = some a → ladder[i + 1]? = some b → Neighbours sizes a b) ∧
      (∀ ratio, offScaleRatio? sizes = some ratio ↔ ∃ i < 3, ∃ a b, ladder[i]? = some a ∧ ladder[i + 1]? = some b ∧
        ratio = (finite b).quotient (finite a) ∧ nearScaleRatio ratio = false ∧
        ∀ j < i, ∀ a b, ladder[j]? = some a → ladder[j + 1]? = some b →
          nearScaleRatio ((finite b).quotient (finite a)) = true) ∧
      (offScaleRatio? sizes = none ↔ ∀ i < 3, ∀ a b, ladder[i]? = some a → ladder[i + 1]? = some b →
        nearScaleRatio ((finite b).quotient (finite a)) = true)) ∧
    (∀ sizes other : List Binary64, (∀ size ∈ sizes, size.IsSize) → (∀ size, size ∈ sizes ↔ size ∈ other) →
      offScaleRatio? sizes = offScaleRatio? other) ∧
    (∀ content content' file, 3 < (fontSizeNumber.values content).length → 3 < (fontSizeNumber.values content').length →
      (∀ size, size ∈ fontSizeNumber.values content ↔ size ∈ fontSizeNumber.values content') →
      modularScale.evaluate file content = modularScale.evaluate file content') := by
  refine ⟨?_, fun sizes other h hsame => offScaleRatio?_congr h hsame, ?_⟩
  · intro sizes h
    obtain ⟨ladder, hladder, hfind⟩ := offScaleRatio?_eq h
    have hfar : ∀ r, (!nearScaleRatio r) = true ↔ nearScaleRatio r = false := fun r => by simp
    have hnear : ∀ r, (!nearScaleRatio r) = false ↔ nearScaleRatio r = true := fun r => by simp
    refine ⟨ladder, hladder, fun i a b ha hb => hladder.neighbours ha hb, fun ratio => ?_, ?_⟩
    · rw [hfind, find?_take_eq_some]
      simp only [getElem?_quotients, quotientOf, hfar, hnear]
      constructor
      · rintro ⟨i, hi, ⟨a, b, ha, hb, hratio⟩, hoff, hbefore⟩
        exact ⟨i, hi, a, b, ha, hb, hratio, hoff, fun j hj a b ha hb => hbefore j hj _ ⟨a, b, ha, hb, rfl⟩⟩
      · rintro ⟨i, hi, a, b, ha, hb, hratio, hoff, hbefore⟩
        refine ⟨i, hi, ⟨a, b, ha, hb, hratio⟩, hoff, ?_⟩
        rintro j hj r ⟨a, b, ha, hb, hr⟩
        rw [hr]
        exact hbefore j hj a b ha hb
    · rw [hfind, find?_take_eq_none]
      simp only [getElem?_quotients, quotientOf, hnear]
      constructor
      · intro hall i hi a b ha hb
        exact hall i hi _ ⟨a, b, ha, hb, rfl⟩
      · rintro hall i hi r ⟨a, b, ha, hb, hr⟩
        rw [hr]
        exact hall i hi a b ha hb
  · intro content content' file hmany hmany' hsame
    have hsizes : ∀ size ∈ fontSizeNumber.values content, size.IsSize :=
      fun size hsize => Extractor.isSize_of_mem_values (by decide) hsize
    rw [evaluate_modularScale, evaluate_modularScale, scaleReport, scaleReport, if_pos hmany, if_pos hmany',
      offScaleRatio?_congr hsizes hsame]

/-- sizes out of order, one of them zero and one of them declared twice -/
def shuffledSizes : List Char := "fontSize: 30, fontSize: 12, fontSize: 0, fontSize: 12, fontSize: 20".toList

/-- the same sizes in order, each of them once -/
def orderedSizes : List Char := "fontSize: 0, fontSize: 12, fontSize: 20, fontSize: 30".toList

/-- the ladder of either text -/
def rungs : List ℤ := [(Binary64.ofNat 12).units, (Binary64.ofNat 20).units, (Binary64.ofNat 30).units]

theorem isLadder_rungs : IsLadder (Catalog.fontSizeNumber.values orderedSizes) rungs where
  ascending := by decide +kernel
  mem_iff := by
    have hto : ∀ u ∈ rungs, 0 < u ∧ finite u ∈ Catalog.fontSizeNumber.values orderedSizes := by decide +kernel
    have hback : ∀ size ∈ Catalog.fontSizeNumber.values orderedSizes, 0 < size.units → size.units ∈ rungs := by
      decide +kernel
    exact fun u => ⟨hto u, fun hu => hback _ hu.2 hu.1⟩

open Catalog in
/-- the sizes in either text are off all scales, since 20 is too large to be the neighbour of 12 -/
theorem modular_scale_by_set_shuffled :
    offScaleRatio? (fontSizeNumber.values orderedSizes) = some (Binary64.ofRatio 5 3) ∧
      offScaleRatio? (fontSizeNumber.values orderedSizes) = offScaleRatio? (fontSizeNumber.values shuffledSizes) ∧
      modularScale.evaluate "Title.tsx" orderedSizes = modularScale.evaluate "Title.tsx" shuffledSizes ∧
      modularScale.evaluate "Title.tsx" orderedSizes = ⟨[.newWarning "modular-scale" "Typography" "Title.tsx"
        "Font sizes may not follow modular scale (ratio: 1.67). Consider consistent ratio."], []⟩ := by
  have hsizes : ∀ size ∈ fontSizeNumber.values orderedSizes, size.IsSize :=
    fun size hsize => Extractor.isSize_of_mem_values (by decide) hsize
  have hsame : ∀ size, size ∈ fontSizeNumber.values orderedSizes ↔ size ∈ fontSizeNumber.values shuffledSizes := by
    have hto : ∀ size ∈ fontSizeNumber.values orderedSizes, size ∈ fontSizeNumber.values shuffledSizes := by
      decide +kernel
    have hback : ∀ size ∈ fontSizeNumber.values shuffledSizes, size ∈ fontSizeNumber.values orderedSizes := by
      decide +kernel
    exact fun size => ⟨hto size, hback size⟩
  have hmany : 3 < (fontSizeNumber.values orderedSizes).length := by decide +kernel
  have hoff : offScaleRatio? (fontSizeNumber.values orderedSizes) = some (Binary64.ofRatio 5 3) := by
    obtain ⟨ladder, hladder, -, hsome, -⟩ := modular_scale_by_set.1 _ hsizes
    obtain rfl := hladder.unique isLadder_rungs fun _ => Iff.rfl
    refine (hsome _).2 ⟨0, by decide, _, _, rfl, rfl, by decide +kernel, by decide +kernel, ?_⟩
    intro j hj
    exact absurd hj (Nat.not_lt_zero j)
  refine ⟨hoff, modular_scale_by_set.2.1 _ _ hsizes hsame,
    modular_scale_by_set.2.2 orderedSizes shuffledSizes "Title.tsx" hmany (by decide +kernel) hsame, ?_⟩
  rw [evaluate_modularScale, scaleReport, if_pos hmany, hoff]
  decide +kernel

end AppAudit
