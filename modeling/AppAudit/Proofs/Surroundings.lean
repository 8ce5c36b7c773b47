/-
Text around a snippet.

A pattern that never looks at what follows it occurs in every text around a text in which it occurs. So a condition that
only asks for such patterns keeps holding when text is added on either side, and one that only asks for their absence
keeps failing. This decides, rule by rule and signal by signal, what surroundings can change: conditions are examined by
their shape (`grows`, `shrinks`), and patterns by the two anchors that look at what follows (`looksAhead`). Rules that
need both a presence and an absence are in neither class.

Main result:
- `surroundings_hide_nothing`: frameworks stay detected, some reports and confirmations stay, and some reports about a
  text are made about its parts already.
-/
import Mathlib.Tactic
import AppAudit.Proofs.Discipline

namespace AppAudit

/-! ## Patterns and conditions -/

namespace Pattern

/-- tells some characters behind it, or the end of the text, from others -/
def looksAhead : Pattern → Bool
  | nothing | text _ | one _ | many _ => false
  | wordEnd | textEnd => true
  | seq p q | either p q => p.looksAhead || q.looksAhead

variable {p : Pattern} {s r : List Char}

/-- what can be taken off the front can be taken off with more text behind it -/
theorem mem_rests_append (h : p.looksAhead = false) (hr : r ∈ p.rests s) (after : List Char) :
    r ++ after ∈ p.rests (s ++ after) := by
  induction p generalizing s r with
  | nothing =>
    rw [rests, List.mem_singleton] at hr ⊢
    rw [hr]
  | text w =>
    simp only [rests, Option.mem_toList, strip_eq_some] at hr ⊢
    rw [hr, List.append_assoc]
  | one k =>
    cases s with
    | nil => simp [rests] at hr
    | cons c s =>
      rw [List.cons_append]
      simp only [rests] at hr ⊢
      split_ifs at hr ⊢
      · rw [List.mem_singleton] at hr ⊢
        rw [hr]
      · simp at hr
  | many k =>
    simp only [rests, mem_runRests, List.not_mem_nil, false_or] at hr ⊢
    obtain ⟨u, rfl, hu⟩ := hr
    exact ⟨u, List.append_assoc _ _ _, hu⟩
  | wordEnd => simp [looksAhead] at h
  | textEnd => simp [looksAhead] at h
  | seq p q ihp ihq =>
    rw [looksAhead, Bool.or_eq_false_iff] at h
    rw [rests, List.mem_flatMap] at hr ⊢
    obtain ⟨m, hm, hr⟩ := hr
    exact ⟨m ++ after, ihp h.1 hm, ihq h.2 hr⟩
  | either p q ihp ihq =>
    rw [looksAhead, Bool.or_eq_false_iff] at h
    rw [rests, List.mem_append] at hr ⊢
    exact hr.imp (ihp h.1) (ihq h.2)

/-- **What occurs in a text occurs in every text around it.** -/
theorem occursIn_within (h : p.looksAhead = false) (before after : List Char) (hs : p.occursIn s = true) :
    p.occursIn (before ++ s ++ after) = true := by
  obtain ⟨a, t, r, rfl, hr⟩ := occursIn_iff.1 hs
  refine occursIn_iff.2 ⟨before ++ a, t ++ after, r ++ after, ?_, mem_rests_append h hr after⟩
  simp only [List.append_assoc]

end Pattern

namespace Condition

/-- keeps holding when text is added around -/
def grows : Condition → Bool
  | present p => !p.looksAhead
  | absent _ => false
  | both a b | either a b => a.grows && b.grows

/-- keeps failing when text is added around -/
def shrinks : Condition → Bool
  | present _ => false
  | absent p => !p.looksAhead
  | both a b | either a b => a.shrinks && b.shrinks

variable {c : Condition} {s : List Char}

theorem holds_within (h : c.grows = true) (before after : List Char) (hs : c.holds s = true) :
    c.holds (before ++ s ++ after) = true := by
  induction c with
  | present p =>
    rw [grows, Bool.not_eq_true'] at h
    exact Pattern.occursIn_within h before after hs
  | absent p => simp [grows] at h
  | both a b iha ihb =>
    simp only [grows, holds, Bool.and_eq_true] at h hs ⊢
    exact ⟨iha h.1 hs.1, ihb h.2 hs.2⟩
  | either a b iha ihb =>
    simp only [grows, holds, Bool.and_eq_true, Bool.or_eq_true] at h hs ⊢
    exact hs.imp (iha h.1) (ihb h.2)

theorem holds_of_within (h : c.shrinks = true) {before after : List Char} (hs : c.holds (before ++ s ++ after) = true) :
    c.holds s = true := by
  induction c with
  | present p => simp [shrinks] at h
  | absent p =>
    rw [shrinks, Bool.not_eq_true'] at h
    rw [holds, Bool.not_eq_true', ← Bool.not_eq_true] at hs ⊢
    exact mt (Pattern.occursIn_within h before after) hs
  | both a b iha ihb =>
    simp only [shrinks, holds, Bool.and_eq_true] at h hs ⊢
    exact ⟨iha h.1 hs.1, ihb h.2 hs.2⟩
  | either a b iha ihb =>
    simp only [shrinks, holds, Bool.and_eq_true, Bool.or_eq_true] at h hs ⊢
    exact hs.imp (iha h.1) (ihb h.2)

end Condition

/-! ## Frameworks -/

namespace Frameworks

theorem has_trans {a b c : Frameworks} (hab : a.has b = true) (hbc : b.has c = true) : a.has c = true := by
  simp only [has, beq_iff_eq] at hab hbc ⊢
  calc a.bits &&& c.bits = a.bits &&& (b.bits &&& c.bits) := by rw [hbc]
    _ = b.bits &&& c.bits := by rw [← UInt8.and_assoc, hab]
    _ = c.bits := hbc

theorem inScope_of_has {a b : Frameworks} (hab : a.has b = true) (hb : b.inScope = true) : a.inScope = true := by
  simp only [has, inScope, beq_iff_eq, bne_iff_ne] at hab hb ⊢
  intro ha
  rw [ha, UInt8.zero_and] at hab
  exact hb hab.symm

/-- no framework is lost when text is added around -/
theorem detect_within (before content after : List Char) :
    (detect (before ++ content ++ after)).has (detect content) = true := by
  have hnative := Pattern.occursIn_within (p := reactNativeSign) (s := content) (by decide) before after
  have hflutter := Pattern.occursIn_within (p := flutterSign) (s := content) (by decide) before after
  unfold detect
  cases hn : reactNativeSign.occursIn content <;> cases hf : flutterSign.occursIn content <;>
    simp only [hn, hf, forall_const, reduceCtorEq, false_implies] at hnative hflutter
  · cases reactNativeSign.occursIn (before ++ content ++ after) <;>
      cases flutterSign.occursIn (before ++ content ++ after) <;> decide
  · rw [hflutter]
    cases reactNativeSign.occursIn (before ++ content ++ after) <;> decide
  · rw [hnative]
    cases flutterSign.occursIn (before ++ content ++ after) <;> decide
  · rw [hnative, hflutter]
    decide

end Frameworks

theorem Rule.applies_within {rule : Rule} {before content after : List Char}
    (h : rule.applies (Frameworks.detect content) = true) :
    rule.applies (Frameworks.detect (before ++ content ++ after)) = true := by
  have hkept := Frameworks.detect_within before content after
  rw [applies, Bool.and_eq_true] at h ⊢
  exact ⟨Frameworks.inScope_of_has hkept h.1, Frameworks.has_trans hkept h.2⟩

/-! ## Signals -/

variable {cases : List (Condition × Signal)} {signal : Signal} {content : List Char}

theorem mem_signals : signal ∈ signals cases content ↔ ∃ c ∈ cases, c.1.holds content = true ∧ c.2 = signal := by
  simp only [signals, List.mem_map, List.mem_filter, and_assoc]

/-- a signal stays if every condition that raises it does -/
theorem mem_signals_within (h : ∀ c ∈ cases, c.2 = signal → c.1.grows = true) (before after : List Char)
    (hs : signal ∈ signals cases content) : signal ∈ signals cases (before ++ content ++ after) := by
  obtain ⟨c, hc, hholds, hsignal⟩ := mem_signals.1 hs
  exact mem_signals.2 ⟨c, hc, Condition.holds_within (h c hc hsignal) before after hholds, hsignal⟩

/-! ## Rules -/

namespace Rule

variable {rule : Rule} {file : String} {c : Condition}

theorem evaluate_congr {a b : List Char} (h : rule.check a = rule.check b) :
    rule.evaluate file a = rule.evaluate file b := by
  rw [evaluate, evaluate, h]

theorem check_ne_nil_of_findings (h : (rule.evaluate file content).findings ≠ []) : rule.check content ≠ [] := by
  intro hnil
  simp [evaluate, hnil] at h

/-- what a rule with one condition reports on a text, it reports wherever the condition holds along with it -/
theorem findings_eq_of_holds {other : List Char} (hcheck : rule.check = signals [(c, signal)])
    (hkept : c.holds content = true → c.holds other = true) (h : (rule.evaluate file content).findings ≠ []) :
    (rule.evaluate file other).findings = (rule.evaluate file content).findings := by
  have hsaid := check_ne_nil_of_findings h
  rw [hcheck, signals_single] at hsaid
  have hholds : c.holds content = true := by
    by_contra hnot
    rw [if_neg hnot] at hsaid
    exact hsaid rfl
  have hsame : rule.check other = rule.check content := by
    rw [hcheck, signals_single, signals_single, if_pos hholds, if_pos (hkept hholds)]
  rw [evaluate_congr hsame]

/-- a rule that confirms under conditions that stay confirms with more text around -/
theorem passed_within (h : rule.Disciplined) (hcheck : rule.check = signals cases)
    (hcases : ∀ c ∈ cases, c.2 = .pass → c.1.grows = true) (before after : List Char)
    (hpassed : (rule.evaluate file content).passed ≠ []) :
    (rule.evaluate file (before ++ content ++ after)).passed = [rule.id] := by
  have hsaid := h.pass_mem_iff.2 hpassed
  rw [hcheck] at hsaid
  have hkept := mem_signals_within hcases before after hsaid
  rw [← hcheck] at hkept
  exact h.passed_eq_of_mem hkept

end Rule

namespace Catalog

/-- families of components stay when text is added around -/
theorem androidMaterialComponents_within (file : String) (before after : List Char)
    (h : (androidMaterialComponents.evaluate file content).passed ≠ []) :
    (androidMaterialComponents.evaluate file (before ++ content ++ after)).passed = ["android-material-components"] := by
  have hlooks : ∀ p ∈ materialFamilies, p.looksAhead = false := by decide
  have hcount : materialFamilies.countP (fun p => p.occursIn content) ≤
      materialFamilies.countP (fun p => p.occursIn (before ++ content ++ after)) := by
    apply List.countP_mono_left
    intro p hp hoccurs
    exact Pattern.occursIn_within (hlooks p hp) before after hoccurs
  rw [List.countP_eq_length_filter, List.countP_eq_length_filter] at hcount
  have hsaid := disciplined_androidMaterialComponents.pass_mem_iff.2 h
  simp only [androidMaterialComponents] at hsaid
  split_ifs at hsaid with htwo
  · apply disciplined_androidMaterialComponents.passed_eq_of_mem
    simp only [androidMaterialComponents]
    rw [if_pos (le_trans htwo hcount)]
    exact hsaid
  · simp at hsaid

/-- the issue that a list keyed by position gets -/
def positionalKeys (file : String) : Finding :=
  .newIssue "list-key-extractor" "Performance CRITICAL" file
    "Using index as key. This causes bugs when list changes. Use unique ID from data."

end Catalog

open Catalog in
/-- **Surroundings hide nothing.** Whatever text is added before and behind a text: every framework of it stays detected,
so it stays in scope and every rule that applied still does; what the rules on pure black, low contrast, white text in the
dark and animated layouts report is reported again, and so is a list keyed by position; icons, components, profiling, dark
backgrounds and bottom navigation stay confirmed; and a missing dark mode, safe area, error boundary or dynamic color that
is reported with the text around was already reported without it. -/
theorem surroundings_hide_nothing (before content after : List Char) (file : String) :
    (Frameworks.detect (before ++ content ++ after)).has (Frameworks.detect content) = true ∧
    ((Frameworks.detect content).inScope = true → (Frameworks.detect (before ++ content ++ after)).inScope = true) ∧
    (∀ rule : Rule, rule.applies (Frameworks.detect content) = true →
      rule.applies (Frameworks.detect (before ++ content ++ after)) = true) ∧
    (∀ rule ∈ [pureBlack, lowContrast, darkModeWhiteText, animatedLayout],
      (rule.evaluate file content).findings ≠ [] →
        (rule.evaluate file (before ++ content ++ after)).findings = (rule.evaluate file content).findings) ∧
    (positionalKeys file ∈ (listKeyExtractor.evaluate file content).findings →
      positionalKeys file ∈ (listKeyExtractor.evaluate file (before ++ content ++ after)).findings) ∧
    (∀ rule ∈ [androidMaterialIcons, iosComponents, androidMaterialComponents, performanceProfiling, oledBackground,
        androidNavigation],
      (rule.evaluate file content).passed ≠ [] → (rule.evaluate file (before ++ content ++ after)).passed = [rule.id]) ∧
    ∀ rule ∈ [darkMode, iosSafeArea, errorBoundary, androidDynamicColor],
      (rule.evaluate file (before ++ content ++ after)).findings ≠ [] →
        (rule.evaluate file content).findings = (rule.evaluate file (before ++ content ++ after)).findings := by
  have hgrows : ∀ {c : Condition}, c.grows = true → c.holds content = true →
      c.holds (before ++ content ++ after) = true := fun hc => Condition.holds_within hc before after
  have hshrinks : ∀ {c : Condition}, c.shrinks = true → c.holds (before ++ content ++ after) = true →
      c.holds content = true := fun hc => Condition.holds_of_within hc
  have hkept := Frameworks.detect_within before content after
  refine ⟨hkept, Frameworks.inScope_of_has hkept, fun rule => Rule.applies_within, ?_, ?_, ?_, ?_⟩
  · simp only [List.forall_mem_cons]
    refine ⟨?_, ?_, ?_, ?_, by simp⟩
    · exact Rule.findings_eq_of_holds rfl (hgrows (by decide))
    · exact Rule.findings_eq_of_holds rfl (hgrows (by decide))
    · exact Rule.findings_eq_of_holds rfl (hgrows (by decide))
    · exact Rule.findings_eq_of_holds rfl (hgrows (by decide))
  · have hrule : listKeyExtractor.Disciplined := Rule.disciplined_of_mem (by simp [catalog])
    intro h
    have hsaid := hrule.issue_mem_iff.1 h
    apply hrule.issue_mem_iff.2
    exact mem_signals_within (by decide) before after hsaid
  · simp only [List.forall_mem_cons]
    refine ⟨?_, ?_, ?_, ?_, ?_, ?_, by simp⟩
    · exact Rule.passed_within disciplined_androidMaterialIcons rfl (by decide) before after
    · exact Rule.passed_within disciplined_iosComponents rfl (by decide) before after
    · exact androidMaterialComponents_within file before after
    · exact Rule.passed_within disciplined_performanceProfiling rfl (by decide) before after
    · exact Rule.passed_within disciplined_oledBackground rfl (by decide) before after
    · exact Rule.passed_within disciplined_androidNavigation rfl (by decide) before after
  · simp only [List.forall_mem_cons]
    refine ⟨?_, ?_, ?_, ?_, by simp⟩
    · exact Rule.findings_eq_of_holds rfl (hshrinks (by decide))
    · exact Rule.findings_eq_of_holds rfl (hshrinks (by decide))
    · exact Rule.findings_eq_of_holds rfl (hshrinks (by decide))
    · exact Rule.findings_eq_of_holds rfl (hshrinks (by decide))

namespace Catalog

/-- a list whose rows are keyed by position and whose layout is animated -/
def snippet : List Char := "import 'react-native'; MaterialIcons; Animated.timing(height); key: index".toList

theorem surroundings_hide_nothing_snippet :
    let whole := "// rows\n".toList ++ snippet ++ "\nexport default Rows".toList
    ((Frameworks.detect snippet).inScope = true ∧ (Frameworks.detect whole).inScope = true) ∧
    (listKeyExtractor.applies (Frameworks.detect snippet) = true ∧
      listKeyExtractor.applies (Frameworks.detect whole) = true) ∧
    ((animatedLayout.evaluate "Rows.tsx" snippet).findings ≠ [] ∧
      (animatedLayout.evaluate "Rows.tsx" whole).findings = (animatedLayout.evaluate "Rows.tsx" snippet).findings) ∧
    (positionalKeys "Rows.tsx" ∈ (listKeyExtractor.evaluate "Rows.tsx" snippet).findings ∧
      positionalKeys "Rows.tsx" ∈ (listKeyExtractor.evaluate "Rows.tsx" whole).findings) ∧
    ((androidMaterialIcons.evaluate "Rows.tsx" snippet).passed ≠ [] ∧
      (androidMaterialIcons.evaluate "Rows.tsx" whole).passed = ["android-material-icons"]) ∧
    (iosSafeArea.evaluate "Rows.tsx" whole).findings ≠ [] ∧
      (iosSafeArea.evaluate "Rows.tsx" snippet).findings = (iosSafeArea.evaluate "Rows.tsx" whole).findings := by
  intro whole
  obtain ⟨-, hscope, happlies, hreports, hkey, hconfirms, hmissing⟩ :=
    surroundings_hide_nothing "// rows\n".toList snippet "\nexport default Rows".toList "Rows.tsx"
  have hinScope : (Frameworks.detect snippet).inScope = true := by decide
  have hrule : listKeyExtractor.applies (Frameworks.detect snippet) = true := by decide
  have hlayout : (animatedLayout.evaluate "Rows.tsx" snippet).findings ≠ [] := by decide
  have hpositional : positionalKeys "Rows.tsx" ∈ (listKeyExtractor.evaluate "Rows.tsx" snippet).findings := by decide
  have hicons : (androidMaterialIcons.evaluate "Rows.tsx" snippet).passed ≠ [] := by decide
  have hsafe : (iosSafeArea.evaluate "Rows.tsx" whole).findings ≠ [] := by decide
  exact ⟨⟨hinScope, hscope hinScope⟩, ⟨hrule, happlies _ hrule⟩, ⟨hlayout, hreports _ (by simp) hlayout⟩,
    ⟨hpositional, hkey hpositional⟩, ⟨hicons, hconfirms _ (by simp) hicons⟩, hsafe, hmissing _ (by simp) hsafe⟩

end Catalog

end AppAudit
