/-
What counts as dark mode.

Two rules look for dark mode. One of them reports that there is none, the other one reports white text where there is. Each
has patterns of its own, and three of the four signs that the second rule goes by are also signs for the first one. The
fourth, a theme key `dark:`, is none, so a text whose only sign is such a key is told both things at once.

Main results:
- `dark_mode_rules_agree`: a report of white text goes along with a report of no dark mode exactly for these texts;
- `dark_mode_rules_darkTheme`: such a text.
-/
import Mathlib.Tactic
import AppAudit.Proofs.Lines

namespace AppAudit

namespace Pattern

variable {p q : Pattern} {s : List Char}

/-- where two patterns occur one behind the other, the first one occurs -/
theorem occursIn_of_seq (h : (p.seq q).occursIn s = true) : p.occursIn s = true := by
  obtain ⟨before, rest, rfl, hstart⟩ := occursIn_iff_startsAt.1 h
  rw [startsAt_eq_any, List.any_eq_true] at hstart
  obtain ⟨r, hr, -⟩ := hstart
  exact occursIn_iff.2 ⟨before, rest, r, rfl, hr⟩

end Pattern

/-- a longer word holds every word that begins it -/
theorem InOrder.of_append {w v : String} {s : List Char} (h : InOrder [w ++ v] s) : InOrder [w] s := by
  obtain ⟨before, after, rfl, -⟩ := h
  refine ⟨before, v.toList ++ after, ?_, trivial⟩
  rw [String.toList_append]
  simp only [List.append_assoc]

namespace Catalog

open Pattern

variable {content : List Char} {file : String}

/-! ## Signs of dark mode -/

/-- the signs that the report of white text goes by -/
theorem occursIn_darkContext (content : List Char) :
    darkContext.occursIn content = true ↔
      InOrder ["dark:"] content ∨ InOrder ["isDark"] content ∨ InOrder ["useColorScheme"] content ∨
        (all [lit "colorScheme:", gap, maybeQuote, lit "dark"]).occursIn content = true := by
  have hshape : darkContext = ((lit "dark:").seq gap).either ((lit "isDark").either ((lit "useColorScheme").either
      (all [lit "colorScheme:", gap, maybeQuote, lit "dark"]))) := rfl
  have hkey : ((lit "dark:").seq gap).occursIn content = true ↔ InOrder ["dark:"] content := by
    rw [← occursIn_lit]
    constructor
    · exact occursIn_of_seq
    · intro h
      obtain ⟨before, after, rfl, hstart⟩ := occursIn_iff_startsAt.1 h
      apply occursIn_iff_startsAt.2
      refine ⟨before, after, rfl, ?_⟩
      obtain ⟨r, hr⟩ := startsAt_iff.1 hstart
      -- the white space behind the key may be empty
      rw [startsAt_eq_any, List.any_eq_true]
      exact ⟨r, hr, startsAt_iff.2 ⟨r, mem_runRests.2 (Or.inr ⟨[], rfl, by simp⟩)⟩⟩
  rw [hshape, occursIn_either, occursIn_either, occursIn_either]
  simp only [Bool.or_eq_true, hkey, occursIn_lit]

/-- **Every sign but the theme key is a sign for both rules.** -/
theorem dark_of_darkContext (h : darkContext.occursIn content = true) (hkey : ¬InOrder ["dark:"] content) :
    colorScheme.occursIn content = true ∨ darkStyle.occursIn content = true := by
  have hscheme : colorScheme = (lit "useColorScheme").either ((lit "colorScheme").either
      (all [lit "appearance:", gap, maybeQuote, lit "dark"])) := rfl
  have hstyle : darkStyle = (all [lit "\\?", lineGap, lit "dark"]).either ((all [lit "style:", gap, lineGap,
      lit "dark"]).either (lit "isDark")) := rfl
  rw [hscheme, hstyle]
  simp only [occursIn_either, Bool.or_eq_true]
  rcases (occursIn_darkContext content).1 h with hdark | hdark | hdark | hdark
  · exact absurd hdark hkey
  · exact Or.inr (Or.inr (Or.inr ((occursIn_lit _ _).2 hdark)))
  · exact Or.inl (Or.inl ((occursIn_lit _ _).2 hdark))
  · have hprefix : "colorScheme:" = "colorScheme" ++ ":" := by decide
    have hword : InOrder ["colorScheme" ++ ":"] content := hprefix ▸ (occursIn_lit _ _).1 (occursIn_of_seq hdark)
    exact Or.inl (Or.inr (Or.inl ((occursIn_lit _ _).2 hword.of_append)))

/-! ## Both rules -/

theorem reports_darkModeWhiteText :
    (darkModeWhiteText.evaluate file content).findings ≠ [] ↔
      darkContext.occursIn content = true ∧ whiteText.occursIn content = true := by
  have hrule : darkModeWhiteText.Disciplined := Rule.disciplined_of_mem (by simp [catalog])
  rw [hrule.findings_of_condition rfl rfl]
  simp [Condition.holds]

theorem reports_darkMode :
    (darkMode.evaluate file content).findings ≠ [] ↔
      colorScheme.occursIn content = false ∧ darkStyle.occursIn content = false := by
  have hrule : darkMode.Disciplined := Rule.disciplined_of_mem (by simp [catalog])
  rw [hrule.findings_of_condition rfl rfl]
  simp [Condition.holds]

/-- **The rules on dark mode agree on what it is, up to one sign.** If white text is reported in a text with any other
sign of dark mode than a theme key `dark:`, it is not reported that there is no dark mode. Both reports are made exactly
for texts with white text and such a key, in which neither a color scheme nor any dark style is found. -/
theorem dark_mode_rules_agree (content : List Char) (file : String) :
    ((darkModeWhiteText.evaluate file content).findings ≠ [] → ¬InOrder ["dark:"] content →
      (darkMode.evaluate file content).findings = []) ∧
    ((darkModeWhiteText.evaluate file content).findings ≠ [] ∧ (darkMode.evaluate file content).findings ≠ [] ↔
      InOrder ["dark:"] content ∧ whiteText.occursIn content = true ∧
        colorScheme.occursIn content = false ∧ darkStyle.occursIn content = false) := by
  have hnone : (darkModeWhiteText.evaluate file content).findings ≠ [] → ¬InOrder ["dark:"] content →
      (darkMode.evaluate file content).findings = [] := by
    intro hwhite hkey
    by_contra hreport
    obtain ⟨hscheme, hstyle⟩ := reports_darkMode.1 hreport
    rcases dark_of_darkContext (reports_darkModeWhiteText.1 hwhite).1 hkey with hdark | hdark
    · exact absurd (hscheme.symm.trans hdark) (by decide)
    · exact absurd (hstyle.symm.trans hdark) (by decide)
  refine ⟨hnone, ?_⟩
  constructor
  · intro ⟨hwhite, hreport⟩
    have hkey : InOrder ["dark:"] content := by
      by_contra hkey
      exact hreport (hnone hwhite hkey)
    exact ⟨hkey, (reports_darkModeWhiteText.1 hwhite).2, reports_darkMode.1 hreport⟩
  · intro ⟨hkey, hwhite, hsigns⟩
    exact ⟨reports_darkModeWhiteText.2 ⟨(occursIn_darkContext content).2 (Or.inl hkey), hwhite⟩, reports_darkMode.2 hsigns⟩

/-- a row with white text where a switch says that it is dark -/
def switchedRow : List Char := "if (isDark) return \x7b color: '#ffffff' \x7d;".toList

theorem dark_mode_rules_agree_switchedRow :
    (darkModeWhiteText.evaluate "Row.tsx" switchedRow).findings ≠ [] ∧ ¬InOrder ["dark:"] switchedRow ∧
      (darkMode.evaluate "Row.tsx" switchedRow).findings = [] := by
  obtain ⟨hagree, -⟩ := dark_mode_rules_agree switchedRow "Row.tsx"
  have hwhite : (darkModeWhiteText.evaluate "Row.tsx" switchedRow).findings ≠ [] := by decide
  have hkey : ¬InOrder ["dark:"] switchedRow := by
    rw [← occursIn_lit]
    decide
  exact ⟨hwhite, hkey, hagree hwhite hkey⟩

/-- a theme with white text in its dark variant -/
def darkTheme : List Char := "const theme = \x7b dark: \x7b color: '#ffffff' \x7d \x7d;".toList

/-- **White text in a dark mode that is not supported.** Not every text for which white text in dark mode is reported
escapes the report that there is no dark mode. -/
theorem dark_mode_rules_darkTheme :
    ¬((darkModeWhiteText.evaluate "theme.ts" darkTheme).findings ≠ [] →
        (darkMode.evaluate "theme.ts" darkTheme).findings = []) ∧
      (darkModeWhiteText.evaluate "theme.ts" darkTheme).findings = [.newWarning "dark-mode-white-text" "Mobile Color"
        "theme.ts" "Pure white text (#FFFFFF) in dark mode. Use #E8E8E8 or light gray for better readability."] ∧
      (darkMode.evaluate "theme.ts" darkTheme).findings = [.newWarning "dark-mode" "Color"
        "theme.ts" "No dark mode support detected. Consider useColorScheme for system dark mode."] := by
  have hwhite : (darkModeWhiteText.evaluate "theme.ts" darkTheme).findings = [.newWarning "dark-mode-white-text"
      "Mobile Color" "theme.ts"
      "Pure white text (#FFFFFF) in dark mode. Use #E8E8E8 or light gray for better readability."] := by decide
  have hnone : (darkMode.evaluate "theme.ts" darkTheme).findings = [.newWarning "dark-mode" "Color"
      "theme.ts" "No dark mode support detected. Consider useColorScheme for system dark mode."] := by decide
  refine ⟨fun h => ?_, hwhite, hnone⟩
  rw [hwhite, hnone] at h
  exact absurd (h (by simp)) (by simp)

end Catalog

end AppAudit
