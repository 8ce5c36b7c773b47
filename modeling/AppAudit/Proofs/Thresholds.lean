/-
Measured numbers against limits.

The rules on sizes, distances, line heights and font sizes take numbers out of a text, read them as binary numbers and
compare them with limits, one of which is not itself a binary number. Tokens consist of digits and points, so they are
numerals or nothing (`Proofs.Numerals`); and next to each of the limits rounding tells the two neighbours on the grid of
trillionths from the limit (`Proofs.Rounding`). So what these rules report can be said without any rounding.

Main result:
- `thresholds_exact`: each of the rules reports the numerals whose exact value is beyond its limit, in order and as they
  are written, and nothing else.
-/
import Mathlib.Tactic
import AppAudit.Proofs.Discipline
import AppAudit.Proofs.Numerals

namespace AppAudit

/-! ## What a token is made of -/

namespace CharSet

variable {outer k : CharSet} {c : Char}

theorem inRanges_iff {ranges : List (Char × Char)} : inRanges c ranges = true ↔ ∃ r ∈ ranges, r.1 ≤ c ∧ c ≤ r.2 := by
  induction ranges with
  | nil => simp [inRanges]
  | cons r ranges ih => simp [inRanges, ih]

/-- digits and points -/
def numeric : CharSet := ⟨[('0', '9'), ('.', '.')], false⟩

theorem mem_numeric (h : numeric.mem c = true) : c.isDigit = true ∨ c = '.' := by
  have hranges : ('0' ≤ c ∧ c ≤ '9') ∨ '.' ≤ c ∧ c ≤ '.' := by simpa [mem, numeric, inRanges] using h
  rcases hranges with hdigit | hpoint
  · left
    simpa [Char.isDigit, Char.le_def] using hdigit
  · exact Or.inr (Char.le_antisymm hpoint.2 hpoint.1)

/-- every range of the set lies inside one of the outer ranges -/
def within (outer k : CharSet) : Bool :=
  !outer.inverted && !k.inverted && k.ranges.all fun r => outer.ranges.any fun o => o.1 ≤ r.1 && r.2 ≤ o.2

theorem mem_of_within (h : outer.within k = true) (hc : k.mem c = true) : outer.mem c = true := by
  simp only [within, Bool.and_eq_true, Bool.not_eq_true', List.all_eq_true, List.any_eq_true, decide_eq_true_eq] at h
  obtain ⟨⟨houter, hk⟩, hranges⟩ := h
  rw [mem, hk, Bool.bne_false, inRanges_iff] at hc
  rw [mem, houter, Bool.bne_false, inRanges_iff]
  obtain ⟨r, hr, hlo, hhi⟩ := hc
  obtain ⟨o, ho, hle, hge⟩ := hranges r hr
  exact ⟨o, ho, Char.le_trans hle hlo, Char.le_trans hhi hge⟩

end CharSet

namespace Pattern

variable {p : Pattern} {outer k : CharSet} {s : List Char} {m : List Char × List Char}

/-- takes characters of the set only -/
def draws (outer : CharSet) : Pattern → Bool
  | nothing | wordEnd | textEnd => true
  | text w => w.all outer.mem
  | one k | many k => outer.within k
  | seq p q | either p q => p.draws outer && q.draws outer

theorem mem_of_mem_runSplits (hm : m ∈ runSplits k s) : ∀ c ∈ m.1, k.mem c = true := by
  induction s generalizing m with
  | nil =>
    rw [runSplits, List.mem_singleton] at hm
    simp [hm]
  | cons d s ih =>
    rw [runSplits] at hm
    split_ifs at hm with hd
    · rcases List.mem_append.1 hm with hlong | hshort
      · obtain ⟨m', hm', rfl⟩ := List.mem_map.1 hlong
        exact List.forall_mem_cons.2 ⟨hd, ih hm'⟩
      · rw [List.mem_singleton] at hshort
        simp [hshort]
    · rw [List.mem_singleton] at hm
      simp [hm]

/-- **What a pattern takes is drawn from the set.** -/
theorem mem_of_mem_splits (h : p.draws outer = true) (hm : m ∈ p.splits s) : ∀ c ∈ m.1, outer.mem c = true := by
  induction p generalizing s m with
  | nothing =>
    rw [splits, List.mem_singleton] at hm
    simp [hm]
  | text w =>
    rw [splits] at hm
    obtain ⟨r, -, rfl⟩ := List.mem_map.1 hm
    exact List.all_eq_true.1 h
  | one k =>
    cases s with
    | nil => simp [splits] at hm
    | cons d s =>
      rw [splits] at hm
      split_ifs at hm with hd
      · rw [List.mem_singleton] at hm
        simpa [hm] using CharSet.mem_of_within h hd
      · simp at hm
  | many k => exact fun c hc => CharSet.mem_of_within h (mem_of_mem_runSplits hm c hc)
  | wordEnd | textEnd =>
    rw [splits] at hm
    obtain ⟨r, -, rfl⟩ := List.mem_map.1 hm
    simp
  | seq p q ihp ihq =>
    rw [draws, Bool.and_eq_true] at h
    rw [splits, List.mem_flatMap] at hm
    obtain ⟨m₁, hm₁, hm⟩ := hm
    obtain ⟨m₂, hm₂, rfl⟩ := List.mem_map.1 hm
    exact List.forall_mem_append.2 ⟨ihp h.1 hm₁, ihq h.2 hm₂⟩
  | either p q ihp ihq =>
    rw [draws, Bool.and_eq_true] at h
    rw [splits, List.mem_append] at hm
    rcases hm with hm | hm
    · exact ihp h.1 hm
    · exact ihq h.2 hm

end Pattern

/-- what a scan finds was recognised somewhere -/
theorem exists_next_of_mem_scan {α : Type} {next : List Char → Option (α × List Char)}
    {progress : ∀ s a r, next s = some (a, r) → r.length < s.length} {a : α} {s : List Char}
    (ha : a ∈ scan next progress s) : ∃ s' r, next s' = some (a, r) := by
  induction hn : s.length using Nat.strong_induction_on generalizing s with
  | _ n ih =>
    cases s with
    | nil => simp [scan] at ha
    | cons c t =>
      cases hc : next (c :: t) with
      | some m =>
        rw [scan_of_some hc] at ha
        rcases List.mem_cons.1 ha with rfl | ha
        · exact ⟨_, _, hc⟩
        · exact ih _ (hn ▸ progress _ m.1 m.2 hc) ha rfl
      | none =>
        rw [scan_of_none hc] at ha
        exact ih _ (hn ▸ Nat.lt_succ_self _) ha rfl

theorem Extractor.isToken_of_mem {e : Extractor} (h : e.token.draws .numeric = true) {s t : List Char}
    (ht : t ∈ e.tokens s) : IsToken t := by
  obtain ⟨s', r, hnext⟩ := exists_next_of_mem_scan ht
  have hm := List.mem_of_mem_head? hnext
  simp only [List.mem_flatMap, List.mem_map, Prod.mk.injEq] at hm
  obtain ⟨s₁, -, m, hm, -, -, rfl, -⟩ := hm
  exact fun c hc => CharSet.mem_numeric (Pattern.mem_of_mem_splits h hm c hc)

/-! ## What a rule makes of its numerals -/

variable {rule : Rule} {file : String} {content : List Char}

/-- a rule that judges one measure after the other, as long as all of them are of moderate length -/
theorem Rule.findings_of_numerals {e : Extractor} {judge : Measure → Option Signal} {tell : List Char → Option Finding}
    (h : rule.Disciplined) (hcheck : rule.check = fun content => (e.measures content).filterMap judge)
    (htoken : e.token.draws .numeric = true) (hmoderate : ∀ t ∈ e.tokens content, IsModerate t)
    (htell : ∀ t, ModerateNumeral t →
      (judge ⟨t, .ofTrillionths (trillionths t)⟩).bind (rule.finding? file) = tell t) :
    (rule.evaluate file content).findings = ((e.tokens content).filter isNumeral).filterMap tell := by
  rw [h.evaluate_eq, hcheck]
  dsimp only
  rw [Extractor.measures, List.filterMap_filterMap, List.filterMap_filterMap, List.filterMap_filter]
  refine List.filterMap_congr fun t ht => ?_
  have hmade : IsToken t := Extractor.isToken_of_mem htoken ht
  rw [Binary64.read?_token hmade (hmoderate t ht)]
  split_ifs with hone
  · exact htell t ((hmoderate t ht).numeral hmade hone)
  · rfl

namespace Binary64.Sharp

variable {limit : Binary64} {m : ℕ} {q : ℚ} {t : List Char}

/-- a numeral is below a limit after rounding exactly when its exact value is below it -/
theorem lt_iff_exactValue (hlimit : Sharp limit m) (hq : q * grid = m) (h : ModerateNumeral t) :
    (ofTrillionths (trillionths t)).lt limit = true ↔ exactValue t < q := by
  rw [hlimit.lt_iff h.trillionths_le, h.exactValue_eq, div_lt_iff₀ (by norm_num [grid]), hq, Nat.cast_lt]

theorem gt_iff_exactValue (hlimit : Sharp limit m) (hq : q * grid = m) (h : ModerateNumeral t) :
    limit.lt (ofTrillionths (trillionths t)) = true ↔ q < exactValue t := by
  rw [hlimit.gt_iff h.trillionths_le, h.exactValue_eq, lt_div_iff₀ (by norm_num [grid]), hq, Nat.cast_lt]

end Binary64.Sharp

/-! ## The limits -/

namespace Catalog

open Binary64 (Sharp grid)

theorem sharp_minTarget : Sharp minTarget (44 * grid) := by
  constructor <;> decide +kernel

theorem sharp_minSpacing : Sharp minSpacing (8 * grid) := by
  constructor <;> decide +kernel

theorem sharp_maxLineHeight : Sharp maxLineHeight (18 * (grid / 10)) := by
  constructor <;> decide +kernel

theorem sharp_minFontSize : Sharp minFontSize (12 * grid) := by
  constructor <;> decide +kernel

theorem sharp_maxFontSize : Sharp maxFontSize (32 * grid) := by
  constructor <;> decide +kernel

end Catalog

open Catalog in
/-- **Limits are compared with exact decimal values.** As long as the tokens that a rule takes out of the text are of
moderate length, the rules on touch targets, spacing, line heights and font sizes report, in the order of the text, one
finding for each token that is a numeral and whose exact value is beyond the limit; it quotes the token as it is written.
Every other token, a lone point or two of them and a value on the limit among them, gives nothing. -/
theorem thresholds_exact (content : List Char) (file : String) :
    ((∀ t ∈ edgeLength.tokens content, IsModerate t) →
      (touchTargetSize.evaluate file content).findings =
        ((edgeLength.tokens content).filter isNumeral).filterMap fun t =>
          if exactValue t < 44 then
            some (.newIssue "touch-target-size" "Touch Target" file
              ("Touch target size " ++ String.ofList t ++ "px < 44px minimum (iOS: 44pt, Android: 48dp)"))
          else none) ∧
    ((∀ t ∈ spacing.tokens content, IsModerate t) →
      (touchTargetSpacing.evaluate file content).findings =
        ((spacing.tokens content).filter isNumeral).filterMap fun t =>
          if exactValue t < 8 then
            some (.newWarning "touch-target-spacing" "Touch Spacing" file
              ("Touch target spacing " ++ String.ofList t ++ "px < 8px minimum. Accidental taps risk."))
          else none) ∧
    ((∀ t ∈ lineHeightValue.tokens content, IsModerate t) →
      (lineHeight.evaluate file content).findings =
        ((lineHeightValue.tokens content).filter isNumeral).filterMap fun t =>
          if 18 / 10 < exactValue t then
            some (.newWarning "line-height" "Typography" file
              ("lineHeight " ++ String.ofList t ++ " too high for mobile. Mobile text needs tighter spacing (1.3-1.5)."))
          else none) ∧
    ((∀ t ∈ fontSizeValue.tokens content, IsModerate t) →
      (fontSizeRange.evaluate file content).findings =
        ((fontSizeValue.tokens content).filter isNumeral).filterMap fun t =>
          if exactValue t < 12 then
            some (.newWarning "font-size-range" "Typography" file
              ("fontSize " ++ String.ofList t ++ "px below 12px minimum readability."))
          else if 32 < exactValue t then
            some (.newWarning "font-size-range" "Typography" file
              ("fontSize " ++ String.ofList t ++ "px very large. Consider using responsive scaling."))
          else none) := by
  refine ⟨?_, ?_, ?_, ?_⟩
  · intro hmoderate
    refine Rule.findings_of_numerals disciplined_touchTargetSize rfl (by decide) hmoderate fun t h => ?_
    have hlimit : _ ↔ exactValue t < 44 := sharp_minTarget.lt_iff_exactValue (by norm_num) h
    simp only [hlimit]
    split_ifs <;> rfl
  · intro hmoderate
    refine Rule.findings_of_numerals disciplined_touchTargetSpacing rfl (by decide) hmoderate fun t h => ?_
    have hlimit : _ ↔ exactValue t < 8 := sharp_minSpacing.lt_iff_exactValue (by norm_num) h
    simp only [hlimit]
    split_ifs <;> rfl
  · intro hmoderate
    refine Rule.findings_of_numerals disciplined_lineHeight rfl (by decide) hmoderate fun t h => ?_
    have hlimit : _ ↔ 18 / 10 < exactValue t :=
      sharp_maxLineHeight.gt_iff_exactValue (by norm_num [Binary64.grid]) h
    simp only [hlimit]
    split_ifs <;> rfl
  · intro hmoderate
    refine Rule.findings_of_numerals disciplined_fontSizeRange rfl (by decide) hmoderate fun t h => ?_
    have hlower : _ ↔ exactValue t < 12 := sharp_minFontSize.lt_iff_exactValue (by norm_num) h
    have hupper : _ ↔ 32 < exactValue t := sharp_maxFontSize.gt_iff_exactValue (by norm_num) h
    simp only [hlower, hupper]
    split_ifs <;> rfl

/-- values on the limits and next to them, and tokens that are no numerals -/
def limitStyles : List Char :=
  ("size:44 size:43.999999999999 gap:8 lineHeight:1.8 lineHeight:1.800000000001 lineHeight:. " ++
    "fontSize:12 fontSize:1.2.3").toList

open Catalog in
theorem tokens_limitStyles :
    edgeLength.tokens limitStyles = ["44".toList, "43.999999999999".toList] ∧
    spacing.tokens limitStyles = ["8".toList] ∧
    lineHeightValue.tokens limitStyles = ["1.8".toList, "1.800000000001".toList, ".".toList] ∧
    fontSizeValue.tokens limitStyles = ["12".toList, "1.2.3".toList] := by
  refine ⟨?_, ?_, ?_, ?_⟩ <;> decide +kernel

open Catalog in
theorem thresholds_exact_limitStyles :
    (∀ t ∈ edgeLength.tokens limitStyles, IsModerate t) ∧ (∀ t ∈ spacing.tokens limitStyles, IsModerate t) ∧
    (∀ t ∈ lineHeightValue.tokens limitStyles, IsModerate t) ∧ (∀ t ∈ fontSizeValue.tokens limitStyles, IsModerate t) ∧
    (touchTargetSize.evaluate "Card.tsx" limitStyles).findings =
      [.newIssue "touch-target-size" "Touch Target" "Card.tsx"
        "Touch target size 43.999999999999px < 44px minimum (iOS: 44pt, Android: 48dp)"] ∧
    (touchTargetSpacing.evaluate "Card.tsx" limitStyles).findings = [] ∧
    (lineHeight.evaluate "Card.tsx" limitStyles).findings =
      [.newWarning "line-height" "Typography" "Card.tsx"
        "lineHeight 1.800000000001 too high for mobile. Mobile text needs tighter spacing (1.3-1.5)."] ∧
    (fontSizeRange.evaluate "Card.tsx" limitStyles).findings = [] := by
  obtain ⟨hedge, hspacing, hline, hfont⟩ := tokens_limitStyles
  obtain ⟨hsize, hgap, hheight, hrange⟩ := thresholds_exact limitStyles "Card.tsx"
  rw [hedge] at hsize ⊢
  rw [hspacing] at hgap ⊢
  rw [hline] at hheight ⊢
  rw [hfont] at hrange ⊢
  refine ⟨by decide, by decide, by decide, by decide, ?_, ?_, ?_, ?_⟩
  · rw [hsize (by decide)]
    decide +kernel
  · rw [hgap (by decide)]
    decide +kernel
  · rw [hheight (by decide)]
    decide +kernel
  · rw [hrange (by decide)]
    decide +kernel

end AppAudit
