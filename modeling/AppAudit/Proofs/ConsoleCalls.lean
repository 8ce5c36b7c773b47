/-
Console calls, counted by two rules.

One rule warns about more than five calls that log, warn, report an error or debug; the other one about more than ten,
and takes calls that inform into account as well. One pattern lists whole words, the other one the part behind the point.
Both kinds of match begin with a letter that stands nowhere else in them, so neither scan misses a call
(`Proofs.Occurrences`), and both counts are plain sums over the words.

Main result:
- `console_rules_escalate`: what both rules count and report, and how one report entails the other.
-/
import Mathlib.Tactic
import AppAudit.Proofs.Concatenation
import AppAudit.Proofs.Lines
import AppAudit.Proofs.Occurrences

namespace AppAudit

/-- a word and one of several others behind it, as one of the joined words -/
theorem Pattern.startsAt_lit_seq_anyOf (w : String) (vs : List String) (s : List Char) :
    ((lit w).seq (anyOf vs)).startsAt s = (anyOf (vs.map (w ++ ·))).startsAt s := by
  rw [Bool.eq_iff_iff, startsAt_lit_seq, startsAt_anyOf]
  simp only [startsAt_anyOf, List.any_map, List.any_eq_true, Function.comp_apply, List.isPrefixOf_iff_prefix,
    String.toList_append]
  constructor
  · rintro ⟨after, rfl, v, hv, hafter⟩
    exact ⟨v, hv, (List.prefix_append_right_inj _).2 hafter⟩
  · rintro ⟨v, hv, after, rfl⟩
    exact ⟨v.toList ++ after, List.append_assoc _ _ _, v, hv, List.prefix_append _ _⟩

namespace Catalog

variable {content : List Char} {file : String}

/-! ## Counting -/

/-- **The first count**: four words, wherever they stand. -/
theorem count_consoleCall_eq (content : List Char) :
    consoleCall.count content =
      occurrences "console.log" content + occurrences "console.warn" content + occurrences "console.error" content +
        occurrences "console.debug" content := by
  have hcount : consoleCall.count content =
      (["console.log", "console.warn", "console.error", "console.debug"].map fun w => occurrences w content).sum := by
    rw [Marker.count_eq_countP (c := 'c') (by decide)]
    exact Pattern.countP_startsAt_anyOf (by decide) content
  rw [hcount]
  simp only [List.map_cons, List.map_nil, List.sum_cons, List.sum_nil]
  omega

/-- **The second count**: one word more. -/
theorem count_anyConsoleCall_eq (content : List Char) :
    anyConsoleCall.count content = consoleCall.count content + occurrences "console.info" content := by
  have hshape : anyConsoleCall.pattern = (Pattern.lit "console.").seq (.anyOf ["log", "warn", "error", "debug", "info"]) :=
    rfl
  have hwords : ["log", "warn", "error", "debug", "info"].map ("console." ++ ·) =
      ["console.log", "console.warn", "console.error", "console.debug", "console.info"] := by decide
  have hcount : anyConsoleCall.count content =
      (["console.log", "console.warn", "console.error", "console.debug", "console.info"].map
        fun w => occurrences w content).sum := by
    rw [Marker.count_eq_countP (c := 'c') (by decide), ← Pattern.countP_startsAt_anyOf (by decide), hshape]
    refine List.countP_congr fun t _ => ?_
    rw [Pattern.startsAt_lit_seq_anyOf, hwords]
  rw [hcount, count_consoleCall_eq]
  simp only [List.map_cons, List.map_nil, List.sum_cons, List.sum_nil]
  omega

/-! ## Reporting -/

/-- the first rule's report of a number of calls -/
def consoleOutputWarning (file : String) (n : ℕ) : Finding :=
  .newWarning "console-output" "Performance" file
    (toString n ++ " console.log statements detected. Remove before production (blocks JS thread).")

/-- the second rule's report of a number of calls -/
def debugConsoleWarning (file : String) (n : ℕ) : Finding :=
  .newWarning "debug-console" "Debugging" file
    (toString n ++ " console.log statements. Remove before production; they block JS thread.")

/-- a number can be read back from its digits -/
theorem toString_injective {n m : ℕ} (h : toString n = toString m) : n = m := by
  rw [Nat.toString_eq_ofList_toDigits, Nat.toString_eq_ofList_toDigits, String.ofList_inj] at h
  rw [← Nat.ofDigitChars_ten_toDigits (n := n), h, Nat.ofDigitChars_ten_toDigits]

/-- a report tells the number -/
theorem consoleOutputWarning_injective {n m : ℕ} (h : consoleOutputWarning file n = consoleOutputWarning file m) :
    n = m := by
  have hmessage := congrArg Finding.message h
  exact toString_injective ((String.append_left_inj _).1 hmessage)

theorem findings_consoleOutput (content : List Char) (file : String) :
    (consoleOutput.evaluate file content).findings =
      if 5 < consoleCall.count content then [consoleOutputWarning file (consoleCall.count content)] else [] :=
  Rule.findings_of_warning disciplined_consoleOutput rfl

theorem findings_debugConsole (content : List Char) (file : String) :
    (debugConsole.evaluate file content).findings =
      if 10 < anyConsoleCall.count content then [debugConsoleWarning file (anyConsoleCall.count content)] else [] :=
  Rule.findings_of_warning disciplined_debugConsole rfl

end Catalog

open Catalog in
/-- **The two rules on console calls escalate.** For every text: the first rule counts how often `console.log`,
`console.warn`, `console.error` and `console.debug` stand in it, at whatever position; the second one counts
`console.info` as well. The first warns of more than five, the second of more than ten. So where the first one reports
more than ten calls, the second one reports at least as many; and where the second one reports and the first one does
not, there are six calls of `console.info` or more. -/
theorem console_rules_escalate (content : List Char) (file : String) :
    consoleCall.count content =
      occurrences "console.log" content + occurrences "console.warn" content + occurrences "console.error" content +
        occurrences "console.debug" content ∧
    anyConsoleCall.count content = consoleCall.count content + occurrences "console.info" content ∧
    (consoleOutput.evaluate file content).findings =
      (if 5 < consoleCall.count content then [consoleOutputWarning file (consoleCall.count content)] else []) ∧
    (debugConsole.evaluate file content).findings =
      (if 10 < anyConsoleCall.count content then [debugConsoleWarning file (anyConsoleCall.count content)] else []) ∧
    (∀ n, 10 < n → consoleOutputWarning file n ∈ (consoleOutput.evaluate file content).findings →
      ∃ m, n ≤ m ∧ debugConsoleWarning file m ∈ (debugConsole.evaluate file content).findings) ∧
    ((debugConsole.evaluate file content).findings ≠ [] → (consoleOutput.evaluate file content).findings = [] →
      6 ≤ occurrences "console.info" content) := by
  have hmore := count_anyConsoleCall_eq content
  have hfirst := findings_consoleOutput content file
  have hsecond := findings_debugConsole content file
  refine ⟨count_consoleCall_eq content, hmore, hfirst, hsecond, ?_, ?_⟩
  · intro n hn hreport
    rw [hfirst] at hreport
    split_ifs at hreport
    · rw [List.mem_singleton] at hreport
      have hcount : n = consoleCall.count content := consoleOutputWarning_injective hreport
      refine ⟨anyConsoleCall.count content, by omega, ?_⟩
      rw [hsecond, if_pos (by omega)]
      exact List.mem_singleton_self _
    · simp at hreport
  · intro hreport hsilent
    rw [hsecond] at hreport
    rw [hfirst] at hsilent
    split_ifs at hreport hsilent
    · omega
    · simp at hreport

/-- eleven calls that log -/
def loggingScreen : List Char := (List.replicate 11 "console.log".toList).flatten

/-- five calls that warn, and six that inform -/
def informingScreen : List Char :=
  (List.replicate 5 "console.warn".toList ++ List.replicate 6 "console.info".toList).flatten

open Catalog in
theorem console_rules_escalate_screens :
    consoleOutputWarning "App.tsx" 11 ∈ (consoleOutput.evaluate "App.tsx" loggingScreen).findings ∧
    (∃ m, 11 ≤ m ∧ debugConsoleWarning "App.tsx" m ∈ (debugConsole.evaluate "App.tsx" loggingScreen).findings) ∧
    (debugConsole.evaluate "App.tsx" informingScreen).findings ≠ [] ∧
    (consoleOutput.evaluate "App.tsx" informingScreen).findings = [] ∧
    6 ≤ occurrences "console.info" informingScreen := by
  obtain ⟨hcount, -, hfirst, -, hescalates, -⟩ := console_rules_escalate loggingScreen "App.tsx"
  obtain ⟨hcount', hmore, hfirst', hsecond', -, hinforms⟩ := console_rules_escalate informingScreen "App.tsx"
  have heleven : consoleCall.count loggingScreen = 11 := by
    rw [hcount]
    decide +kernel
  have hfive : consoleCall.count informingScreen = 5 := by
    rw [hcount']
    decide +kernel
  have hsix : occurrences "console.info" informingScreen = 6 := by decide +kernel
  have hreport : consoleOutputWarning "App.tsx" 11 ∈ (consoleOutput.evaluate "App.tsx" loggingScreen).findings := by
    rw [hfirst, heleven]
    simp
  have hloud : (debugConsole.evaluate "App.tsx" informingScreen).findings ≠ [] := by
    rw [hsecond', hmore, hfive, hsix]
    simp
  have hsilent : (consoleOutput.evaluate "App.tsx" informingScreen).findings = [] := by
    rw [hfirst', hfive]
    simp
  exact ⟨hreport, hescalates 11 (by decide) hreport, hloud, hsilent, hinforms hloud hsilent⟩

end AppAudit
