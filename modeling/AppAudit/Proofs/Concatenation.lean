/-
Texts joined by a semicolon.

None of the patterns that rules measure or count with can take a semicolon. So joining two texts by one neither makes nor
breaks nor shifts a match, wherever the first text ends, and every match is judged as if its text stood alone.

Main result:
- `matches_independent`: rules that judge single matches report on the joined text what they report on both texts, one
  after the other; and rules that count matches warn by the sum of both counts.
-/
import Mathlib.Tactic
import AppAudit.Proofs.Discipline
import AppAudit.Proofs.Separators

namespace AppAudit

theorem Extractor.measures_separated {e : Extractor} {c : Char} (h : e.shuns c = true) (s t : List Char) :
    e.measures (s ++ c :: t) = e.measures s ++ e.measures t := by
  rw [measures, tokens_separated h, List.filterMap_append, measures, measures]

/-! ## What rules make of matches -/

namespace Rule

variable {rule : Rule} {file : String} {content : List Char}

/-- a rule that judges one measure after the other -/
theorem findings_separated {e : Extractor} {judge : Measure → Option Signal} {c : Char} (h : rule.Disciplined)
    (hcheck : rule.check = fun content => (e.measures content).filterMap judge) (hc : e.shuns c = true) (s t : List Char) :
    (rule.evaluate file (s ++ c :: t)).findings =
      (rule.evaluate file s).findings ++ (rule.evaluate file t).findings := by
  rw [h.evaluate_eq, h.evaluate_eq, h.evaluate_eq, hcheck]
  simp only [Extractor.measures_separated hc, List.filterMap_append]

/-- a rule that says one thing or nothing -/
theorem findings_of_warning {bad : Prop} [Decidable bad] {message : String} (h : rule.Disciplined)
    (hcheck : rule.check content = if bad then [.warn message] else []) :
    (rule.evaluate file content).findings =
      if bad then [.newWarning rule.id rule.category file message] else [] := by
  rw [h.evaluate_eq, hcheck]
  split_ifs <;> rfl

end Rule

namespace Catalog

/-- how many of the hex colors in a text are highly saturated -/
def saturatedCount (content : List Char) : Nat := ((hexColor.tokens content).filter isSaturated).length

theorem saturatedCount_separated {c : Char} (h : hexColor.shuns c = true) (s t : List Char) :
    saturatedCount (s ++ c :: t) = saturatedCount s + saturatedCount t := by
  rw [saturatedCount, Extractor.tokens_separated h, List.filter_append, List.length_append, saturatedCount,
    saturatedCount]

/-- the extractors of the rules that judge single matches -/
theorem shuns_extractors : ∀ e ∈ [edgeLength, spacing, lineHeightValue, fontSizeValue, hexColor],
    e.shuns ';' = true := by decide

/-- the markers of the rules that count matches -/
theorem shuns_markers : ∀ m ∈ [consoleCall, anyConsoleCall, tabEntry], m.pattern.shuns ';' = true := by decide

end Catalog

open Catalog in
/-- **Every match is evaluated independently.** For all texts, whatever the first one ends with: on both texts joined by a
semicolon, the rules on touch targets, spacing, line heights and font sizes report what they report on the first text and
then what they report on the second; the console calls, the entries of tab bars and the saturated colors are as many as in
both texts together; and the rules that count them warn exactly when this sum is over their limit, and quote it. -/
theorem matches_independent (first second : List Char) (file : String) :
    (∀ rule ∈ [touchTargetSize, touchTargetSpacing, lineHeight, fontSizeRange],
      (rule.evaluate file (first ++ ';' :: second)).findings =
        (rule.evaluate file first).findings ++ (rule.evaluate file second).findings) ∧
    consoleCall.count (first ++ ';' :: second) = consoleCall.count first + consoleCall.count second ∧
    anyConsoleCall.count (first ++ ';' :: second) = anyConsoleCall.count first + anyConsoleCall.count second ∧
    tabEntry.count (first ++ ';' :: second) = tabEntry.count first + tabEntry.count second ∧
    saturatedCount (first ++ ';' :: second) = saturatedCount first + saturatedCount second ∧
    (consoleOutput.evaluate file (first ++ ';' :: second)).findings =
      (if 5 < consoleCall.count first + consoleCall.count second then
        [.newWarning "console-output" "Performance" file (toString (consoleCall.count first + consoleCall.count second) ++
          " console.log statements detected. Remove before production (blocks JS thread).")]
      else []) ∧
    (debugConsole.evaluate file (first ++ ';' :: second)).findings =
      (if 10 < anyConsoleCall.count first + anyConsoleCall.count second then
        [.newWarning "debug-console" "Debugging" file (toString (anyConsoleCall.count first + anyConsoleCall.count second) ++
          " console.log statements. Remove before production; they block JS thread.")]
      else []) ∧
    (tabBarItems.evaluate file (first ++ ';' :: second)).findings =
      (if 5 < tabEntry.count first + tabEntry.count second then
        [.newWarning "tab-bar-items" "Navigation" file (toString (tabEntry.count first + tabEntry.count second) ++
          " tab bar items (max 5 recommended). More than 5 becomes hard to tap.")]
      else []) ∧
    (saturatedColors.evaluate file (first ++ ';' :: second)).findings =
      if 10 < saturatedCount first + saturatedCount second then
        [.newWarning "saturated-colors" "Mobile Color" file (toString (saturatedCount first + saturatedCount second) ++
          " highly saturated colors detected. Desaturated colors save battery on OLED screens.")]
      else [] := by
  have hconsole := Marker.count_separated (shuns_markers consoleCall (by simp)) first second
  have hall := Marker.count_separated (shuns_markers anyConsoleCall (by simp)) first second
  have htabs := Marker.count_separated (shuns_markers tabEntry (by simp)) first second
  have hsaturated := saturatedCount_separated (shuns_extractors hexColor (by simp)) first second
  refine ⟨?_, hconsole, hall, htabs, hsaturated, ?_, ?_, ?_, ?_⟩
  · simp only [List.forall_mem_cons]
    refine ⟨?_, ?_, ?_, ?_, by simp⟩
    · exact Rule.findings_separated disciplined_touchTargetSize rfl (shuns_extractors edgeLength (by simp)) first second
    · exact Rule.findings_separated disciplined_touchTargetSpacing rfl (shuns_extractors spacing (by simp)) first second
    · exact Rule.findings_separated disciplined_lineHeight rfl (shuns_extractors lineHeightValue (by simp)) first second
    · exact Rule.findings_separated disciplined_fontSizeRange rfl (shuns_extractors fontSizeValue (by simp)) first second
  · rw [← hconsole]
    exact Rule.findings_of_warning disciplined_consoleOutput rfl
  · rw [← hall]
    exact Rule.findings_of_warning disciplined_debugConsole rfl
  · rw [← htabs]
    exact Rule.findings_of_warning disciplined_tabBarItems rfl
  · rw [← hsaturated]
    exact Rule.findings_of_warning disciplined_saturatedColors rfl

end AppAudit
