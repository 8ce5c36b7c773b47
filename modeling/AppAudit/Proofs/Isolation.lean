/-
Rules do not get in each other's way.

What a catalog contributes for a text is the list of what its rules contribute, one after the other, and adding a list of
outcomes to a result is merging with `Result.ofOutcomes` of the list, which turns appending into merging. So a catalog can
be cut in two anywhere. A check that breaks down has the empty outcome, whatever it said before, and the empty outcome
merges into nothing, wherever its rule stands.

Main result:
- `auditContent_isolated`: two catalogs contribute one after the other and count the file once, and a rule that breaks
  down on a text might as well not be there.
-/
import Mathlib.Tactic
import AppAudit.Proofs.Totals

namespace AppAudit

/-! ## Lists of outcomes -/

namespace Result

theorem ofOutcomes_append (a b : List Outcome) : ofOutcomes (a ++ b) = (ofOutcomes a).merge (ofOutcomes b) := by
  simp only [ofOutcomes, merge, List.flatMap_append, List.map_append, List.sum_append, add_zero]

theorem ofOutcomes_empty : ofOutcomes [Outcome.empty] = empty := rfl

end Result

/-! ## One text -/

/-- what the rules of a catalog contribute for a text, rule by rule -/
def outcomesFor (rules : List Rule) (path : String) (content : List Char) : List Outcome :=
  (rulesFor rules content).map fun rule => rule.outcomeAt path content

theorem outcomesFor_append (first second : List Rule) (path : String) (content : List Char) :
    outcomesFor (first ++ second) path content = outcomesFor first path content ++ outcomesFor second path content := by
  unfold outcomesFor rulesFor
  rw [List.filter_append, List.map_append]

theorem auditContent_of_inScope {content : List Char} (h : (Frameworks.detect content).inScope = true)
    (rules : List Rule) (path : String) (r : Result) :
    auditContent rules path content r = r.countFile.merge (.ofOutcomes (outcomesFor rules path content)) := by
  unfold auditContent outcomesFor
  rw [if_pos h, ← Result.foldl_add, List.foldl_map]
  rfl

theorem auditContent_of_not_inScope {content : List Char} (h : ¬ (Frameworks.detect content).inScope = true)
    (rules : List Rule) (path : String) (r : Result) : auditContent rules path content r = r := by
  unfold auditContent
  exact if_neg h

/-! ## Checks that break down -/

/-- a check that breaks down takes back everything it has said -/
theorem Rule.evaluate_of_fail {rule : Rule} {content : List Char} (h : Signal.fail ∈ rule.check content)
    (file : String) : rule.evaluate file content = Outcome.empty := by
  unfold evaluate
  exact if_pos (List.contains_iff_mem.2 h)

theorem ofOutcomes_of_fail {broken : Rule} {content : List Char} (h : Signal.fail ∈ broken.check content)
    (path : String) : Result.ofOutcomes (outcomesFor [broken] path content) = Result.empty := by
  have hnothing : broken.outcomeAt path content = Outcome.empty := by
    unfold Rule.outcomeAt
    rw [Rule.evaluate_of_fail h]
    rfl
  unfold outcomesFor rulesFor
  -- a rule that does not even apply contributes no outcome at all
  by_cases happlies : broken.applies (Frameworks.detect content) = true
  · rw [List.filter_singleton, happlies, cond_true, List.map_singleton, hnothing]
    exact Result.ofOutcomes_empty
  · rw [Bool.not_eq_true] at happlies
    rw [List.filter_singleton, happlies]
    rfl

theorem auditContent_of_fail {broken : Rule} {content : List Char} (h : Signal.fail ∈ broken.check content)
    (first second : List Rule) (path : String) (r : Result) :
    auditContent (first ++ [broken] ++ second) path content r = auditContent (first ++ second) path content r := by
  by_cases hscope : (Frameworks.detect content).inScope = true
  · rw [auditContent_of_inScope hscope, auditContent_of_inScope hscope]
    simp only [outcomesFor_append, Result.ofOutcomes_append]
    rw [ofOutcomes_of_fail h, Result.merge_empty]
  · rw [auditContent_of_not_inScope hscope, auditContent_of_not_inScope hscope]

/-! ## Two catalogs -/

theorem auditContent_append {content : List Char} (h : (Frameworks.detect content).inScope = true)
    (first second : List Rule) (path : String) (r : Result) :
    let a := auditContent first path content .empty
    let b := auditContent second path content .empty
    auditContent (first ++ second) path content r =
      { filesChecked := r.filesChecked + 1
        issues := r.issues ++ a.issues ++ b.issues
        warnings := r.warnings ++ a.warnings ++ b.warnings
        passedCount := r.passedCount + a.passedCount + b.passedCount } := by
  intro a b
  have ha : a = Result.empty.countFile.merge (.ofOutcomes (outcomesFor first path content)) :=
    auditContent_of_inScope h first path .empty
  have hb : b = Result.empty.countFile.merge (.ofOutcomes (outcomesFor second path content)) :=
    auditContent_of_inScope h second path .empty
  rw [auditContent_of_inScope h, outcomesFor_append, Result.ofOutcomes_append, ha, hb]
  simp only [Result.merge, Result.countFile, Result.empty, Result.ofOutcomes, List.nil_append, List.append_assoc,
    add_assoc, zero_add, add_zero]

/-- **Rules are isolated.** Whatever a catalog adds to a result is the same for every result and comes after everything
that is already there. Of a text with a framework, two catalogs one after the other add the issues of the first and then
those of the second, likewise the warnings, and the sum of their passes, and count the file once; of any other text they
change nothing. And a rule whose check breaks down on the text, whatever it has said until then, can be left out wherever
it stands in the catalog. -/
theorem auditContent_isolated (first second : List Rule) (path : String) (content : List Char) (r : Result) :
    let a := auditContent first path content .empty
    let b := auditContent second path content .empty
    auditContent first path content r = r.merge a ∧ auditContent second path content r = r.merge b ∧
    auditContent (first ++ second) path content r =
      (if (Frameworks.detect content).inScope then
        { filesChecked := r.filesChecked + 1
          issues := r.issues ++ a.issues ++ b.issues
          warnings := r.warnings ++ a.warnings ++ b.warnings
          passedCount := r.passedCount + a.passedCount + b.passedCount }
      else r) ∧
    ∀ (broken : Rule) (said rest : List Signal), broken.check content = said ++ .fail :: rest →
      auditContent (first ++ [broken] ++ second) path content r = auditContent (first ++ second) path content r := by
  intro a b
  refine ⟨auditContent_eq_merge first path content r, auditContent_eq_merge second path content r, ?_, ?_⟩
  · split_ifs with hscope
    · exact auditContent_append hscope first second path r
    · exact auditContent_of_not_inScope hscope _ path r
  · intro broken said rest hsaid
    apply auditContent_of_fail
    rw [hsaid]
    exact List.mem_append_right said List.mem_cons_self

/-- a rule that reports, confirms and then breaks down on every text -/
def brokenRule : Rule :=
  { id := "broken", category := "Test", description := "breaks down"
    check := fun _ => [.issue "half a finding", .pass, .fail] }

theorem auditContent_isolated_brokenRule :
    brokenRule.check "react-native".toList = [.issue "half a finding", .pass] ++ .fail :: [] ∧
    auditContent (catalog ++ [brokenRule] ++ catalog) "a.ts" "react-native".toList .empty =
      auditContent (catalog ++ catalog) "a.ts" "react-native".toList .empty :=
  ⟨rfl, (auditContent_isolated catalog catalog "a.ts" _ .empty).2.2.2 brokenRule [.issue "half a finding", .pass] [] rfl⟩

end AppAudit
