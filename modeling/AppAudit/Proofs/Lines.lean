/-
Rules that look at lines.

Three rules look for things on one line: an animation of the layout, two colors of low contrast, rows mapped inside a
scroll container. Their patterns are matched against the whole text; since they never take a newline, this comes to the
same as looking at every line by itself (`occursIn_splitOn`). Within a line a gap between two words may be anything at
all, so finding the words is a plain search for one behind the other (`InOrder`), whichever of their occurrences the
matcher tries first.

Main result:
- `line_rules_scan_lines`: what these rules report, as a scan of the lines of the text.
-/
import Mathlib.Tactic
import AppAudit.Proofs.Discipline
import AppAudit.Proofs.Separators

namespace AppAudit

/-- the words stand in the text in this order, each of them behind the one before it -/
def InOrder : List String → List Char → Prop
  | [], _ => True
  | w :: ws, s => ∃ before after, s = before ++ w.toList ++ after ∧ InOrder ws after

theorem not_mem_of_mem_splitOn {c : Char} {s piece : List Char} (h : piece ∈ s.splitOn c) : c ∉ piece := by
  induction s generalizing piece with
  | nil =>
    rw [List.splitOn_nil, List.mem_singleton] at h
    simp [h]
  | cons d s ih =>
    rw [List.splitOn_cons_eq_if_modifyHead] at h
    split_ifs at h with hd
    · rcases List.mem_cons.1 h with rfl | h
      · simp
      · exact ih h
    · obtain ⟨first, others, hs⟩ := List.exists_cons_of_ne_nil (List.splitOn_ne_nil c s)
      rw [hs, List.modifyHead_cons] at h
      rcases List.mem_cons.1 h with rfl | h
      · have hfirst := ih (hs ▸ List.mem_cons_self)
        have hne : c ≠ d := fun heq => hd (by simp [heq])
        simp [hne, hfirst]
      · exact ih (hs ▸ List.mem_cons_of_mem _ h)

namespace Pattern

variable {p : Pattern} {w : String} {line : List Char}

theorem startsAt_lit_seq (w : String) (p : Pattern) (s : List Char) :
    ((lit w).seq p).startsAt s = true ↔ ∃ after, s = w.toList ++ after ∧ p.startsAt after = true := by
  rw [startsAt_eq_any, List.any_eq_true]
  simp only [lit, rests, Option.mem_toList, strip_eq_some]

/-- on a line, whatever comes behind a gap comes anywhere -/
theorem startsAt_lineGap_seq (h : '\n' ∉ line) (p : Pattern) : (lineGap.seq p).startsAt line = p.occursIn line := by
  rw [Bool.eq_iff_iff, startsAt_eq_any, List.any_eq_true, occursIn_iff_startsAt]
  simp only [lineGap, rests, mem_runRests, List.not_mem_nil, false_or]
  constructor
  · rintro ⟨r, ⟨u, hu, -⟩, hr⟩
    exact ⟨u, r, hu, hr⟩
  · rintro ⟨u, r, hu, hr⟩
    refine ⟨r, ⟨u, hu, fun c hc => ?_⟩, hr⟩
    have hc : c ∈ line := hu ▸ List.mem_append_left r hc
    have hne : c ≠ '\n' := fun heq => h (heq ▸ hc)
    simp [CharSet.inLine, CharSet.mem_noneOf, hne]

/-- on a line, a word and something behind a gap stand in this order -/
theorem occursIn_lit_lineGap (h : '\n' ∉ line) (w : String) (p : Pattern) :
    ((lit w).seq (lineGap.seq p)).occursIn line = true ↔
      ∃ before after, line = before ++ w.toList ++ after ∧ '\n' ∉ after ∧ p.occursIn after = true := by
  simp only [occursIn_iff_startsAt (p := (lit w).seq _), startsAt_lit_seq]
  constructor
  · rintro ⟨before, _, hline, after, rfl, hp⟩
    rw [← List.append_assoc] at hline
    have hafter : '\n' ∉ after := fun hmem => h (hline ▸ List.mem_append_right _ hmem)
    rw [startsAt_lineGap_seq hafter] at hp
    exact ⟨before, after, hline, hafter, hp⟩
  · rintro ⟨before, after, hline, hafter, hp⟩
    rw [← startsAt_lineGap_seq hafter] at hp
    rw [List.append_assoc] at hline
    exact ⟨before, w.toList ++ after, hline, after, rfl, hp⟩

theorem occursIn_lit (w : String) (s : List Char) : (lit w).occursIn s = true ↔ InOrder [w] s := by
  have hword : ∀ s, (lit w).startsAt s = true ↔ ∃ after, s = w.toList ++ after := by
    intro s
    simp only [startsAt_iff, lit, rests, Option.mem_toList, strip_eq_some]
  simp only [occursIn_iff_startsAt, hword, InOrder, and_true]
  constructor
  · rintro ⟨before, _, rfl, after, rfl⟩
    exact ⟨before, after, (List.append_assoc _ _ _).symm⟩
  · rintro ⟨before, after, rfl⟩
    exact ⟨before, _, List.append_assoc _ _ _, after, rfl⟩

/-- the words in this order, with anything between them that does not end the line -/
def phrase : List String → Pattern
  | [] => nothing
  | [w] => lit w
  | w :: ws => (lit w).seq (lineGap.seq (phrase ws))

theorem inOrder_cons (h : '\n' ∉ line) (w : String) (ws : List String) :
    InOrder (w :: ws) line ↔ ∃ before after, line = before ++ w.toList ++ after ∧ '\n' ∉ after ∧ InOrder ws after := by
  constructor
  · rintro ⟨before, after, hline, hafter⟩
    exact ⟨before, after, hline, fun hmem => h (hline ▸ List.mem_append_right _ hmem), hafter⟩
  · rintro ⟨before, after, hline, -, hafter⟩
    exact ⟨before, after, hline, hafter⟩

/-- **On a line, a phrase occurs exactly when a plain search finds its words one behind the other.** -/
theorem occursIn_phrase (h : '\n' ∉ line) (ws : List String) : (phrase ws).occursIn line = true ↔ InOrder ws line := by
  induction ws generalizing line with
  | nil => cases line <;> simp [phrase, occursIn, startsAt, rests, InOrder]
  | cons w ws ih =>
    cases ws with
    | nil => exact occursIn_lit w line
    | cons v ws =>
      have hshape : phrase (w :: v :: ws) = (lit w).seq (lineGap.seq (phrase (v :: ws))) := rfl
      rw [hshape, occursIn_lit_lineGap h, inOrder_cons h]
      constructor
      · rintro ⟨before, after, hline, hafter, hrest⟩
        exact ⟨before, after, hline, hafter, (ih hafter).1 hrest⟩
      · rintro ⟨before, after, hline, hafter, hrest⟩
        exact ⟨before, after, hline, hafter, (ih hafter).2 hrest⟩

theorem occursIn_either (p q : Pattern) (s : List Char) :
    (p.either q).occursIn s = (p.occursIn s || q.occursIn s) := by
  rw [Bool.eq_iff_iff, Bool.or_eq_true]
  simp only [occursIn_iff_startsAt, startsAt_either, Bool.or_eq_true, ← exists_or, ← and_or_left]

/-- one of some texts occurs exactly when a plain search finds one of them -/
theorem occursIn_anyOf (ws : List String) (s : List Char) :
    (anyOf ws).occursIn s = true ↔ ∃ w ∈ ws, InOrder [w] s := by
  have hnever : (anyOf []).occursIn s = false := by
    rw [← Bool.not_eq_true, occursIn_iff_startsAt]
    rintro ⟨-, t, -, ht⟩
    cases t <;> simp [anyOf, any, startsAt, rests, CharSet.mem, CharSet.inRanges] at ht
  induction ws with
  | nil => simp [hnever]
  | cons w ws ih =>
    cases ws with
    | nil =>
      have hshape : anyOf [w] = lit w := rfl
      rw [hshape, occursIn_lit]
      simp
    | cons v ws =>
      have hshape : anyOf (w :: v :: ws) = (lit w).either (anyOf (v :: ws)) := rfl
      rw [hshape, occursIn_either, Bool.or_eq_true, occursIn_lit, List.exists_mem_cons_iff]
      exact or_congr_right ih

end Pattern

/-! ## The three rules -/

namespace Catalog

open Pattern

/-- none of the patterns that look at lines takes a newline -/
theorem shuns_newline : ∀ p ∈ [layoutAnimation, lowContrastPair, scrollContainer, mappedRows, virtualList],
    p.shuns '\n' = true := by decide

theorem occursIn_layoutAnimation {line : List Char} (h : '\n' ∉ line) :
    layoutAnimation.occursIn line = true ↔
      ∃ word ∈ ["width", "height", "margin", "padding"], InOrder ["Animated.timing", word] line := by
  have hshape : layoutAnimation =
      (lit "Animated.timing").seq (lineGap.seq (anyOf ["width", "height", "margin", "padding"])) := rfl
  rw [hshape, occursIn_lit_lineGap h]
  constructor
  · rintro ⟨before, after, hline, -, hafter⟩
    obtain ⟨word, hword, hafter⟩ := (occursIn_anyOf _ _).1 hafter
    exact ⟨word, hword, before, after, hline, hafter⟩
  · rintro ⟨word, hword, hphrase⟩
    obtain ⟨before, after, hline, hmem, hafter⟩ := (inOrder_cons h _ _).1 hphrase
    exact ⟨before, after, hline, hmem, (occursIn_anyOf _ _).2 ⟨word, hword, hafter⟩⟩

theorem occursIn_mappedRows {line : List Char} (h : '\n' ∉ line) :
    mappedRows.occursIn line = true ↔
      InOrder ["ScrollView", ".map("] line ∨ InOrder ["ScrollView", "\x7b", ".map"] line := by
  have hshape : mappedRows = (phrase ["ScrollView", ".map("]).either (phrase ["ScrollView", "\x7b", ".map"]) := rfl
  rw [hshape, occursIn_either, Bool.or_eq_true, occursIn_phrase h, occursIn_phrase h]

theorem occursIn_scrollContainer (line : List Char) :
    scrollContainer.occursIn line = true ↔ InOrder ["<ScrollView"] line ∨ InOrder ["ScrollView."] line := by
  rw [scrollContainer, occursIn_anyOf]
  simp

end Catalog

open Catalog in
/-- **Line rules mean what a scan of the lines means.** For every text: an animated layout is reported exactly when some
line has `Animated.timing` and, behind it, one of the layout properties; low contrast is reported exactly when it is
reported on some line by itself; and mapped rows in a scroll container are reported exactly when some line names the
container, some line has `ScrollView` and behind it `.map(`, or a brace and behind that `.map`, and no line names a
virtual list. -/
theorem line_rules_scan_lines (content : List Char) (file : String) :
    (.newIssue "animated-layout" "Performance" file
        "Animating layout properties (width/height/margin). Use transform/opacity for 60fps."
        ∈ (animatedLayout.evaluate file content).findings ↔
      ∃ line ∈ content.splitOn '\n',
        ∃ word ∈ ["width", "height", "margin", "padding"], InOrder ["Animated.timing", word] line) ∧
    ((lowContrast.evaluate file content).findings ≠ [] ↔
      ∃ line ∈ content.splitOn '\n', (lowContrast.evaluate file line).findings ≠ []) ∧
    (.newIssue "scrollview-map" "Performance CRITICAL" file
        "ScrollView with .map() detected. Use FlatList for lists to prevent memory explosion."
        ∈ (scrollViewMap.evaluate file content).findings ↔
      (∃ line ∈ content.splitOn '\n', InOrder ["<ScrollView"] line ∨ InOrder ["ScrollView."] line) ∧
      (∃ line ∈ content.splitOn '\n',
        InOrder ["ScrollView", ".map("] line ∨ InOrder ["ScrollView", "\x7b", ".map"] line) ∧
      ∀ line ∈ content.splitOn '\n', ∀ word ∈ ["FlatList", "FlashList", "SectionList"], ¬ InOrder [word] line) := by
  have hbare : ∀ line ∈ content.splitOn '\n', '\n' ∉ line := fun line hline => not_mem_of_mem_splitOn hline
  have hlines : ∀ p ∈ [layoutAnimation, lowContrastPair, scrollContainer, mappedRows, virtualList],
      (p.occursIn content = true ↔ ∃ line ∈ content.splitOn '\n', p.occursIn line = true) :=
    fun p hp => Pattern.occursIn_splitOn (shuns_newline p hp) content
  refine ⟨?_, ?_, ?_⟩
  · have hrule : animatedLayout.Disciplined := Rule.disciplined_of_mem (by simp [catalog])
    refine (hrule.mem_findings_iff rfl rfl).trans ?_
    rw [Condition.holds, hlines layoutAnimation (by simp)]
    exact exists_congr fun line => and_congr_right fun hline => occursIn_layoutAnimation (hbare line hline)
  · have hrule : lowContrast.Disciplined := Rule.disciplined_of_mem (by simp [catalog])
    have hreports : ∀ s, (lowContrast.evaluate file s).findings ≠ [] ↔ lowContrastPair.occursIn s = true := by
      intro s
      rw [hrule.findings_of_condition rfl rfl, Condition.holds]
      cases lowContrastPair.occursIn s <;> simp
    simp only [hreports]
    exact hlines lowContrastPair (by simp)
  · have hrule : scrollViewMap.Disciplined := Rule.disciplined_of_mem (by simp [catalog])
    have hcontainer : scrollContainer.occursIn content = true ↔
        ∃ line ∈ content.splitOn '\n', InOrder ["<ScrollView"] line ∨ InOrder ["ScrollView."] line := by
      rw [hlines scrollContainer (by simp)]
      exact exists_congr fun line => and_congr_right fun _ => occursIn_scrollContainer line
    have hrows : mappedRows.occursIn content = true ↔
        ∃ line ∈ content.splitOn '\n',
          InOrder ["ScrollView", ".map("] line ∨ InOrder ["ScrollView", "\x7b", ".map"] line := by
      rw [hlines mappedRows (by simp)]
      exact exists_congr fun line => and_congr_right fun hline => occursIn_mappedRows (hbare line hline)
    have hlist : virtualList.occursIn content = false ↔
        ∀ line ∈ content.splitOn '\n', ∀ word ∈ ["FlatList", "FlashList", "SectionList"], ¬ InOrder [word] line := by
      rw [← Bool.not_eq_true, hlines virtualList (by simp)]
      simp only [virtualList, Pattern.occursIn_anyOf, not_exists, not_and]
    refine (hrule.mem_findings_iff rfl rfl).trans ?_
    simp only [Condition.holds, Bool.and_eq_true, Bool.not_eq_true', and_assoc]
    rw [hcontainer, hrows, hlist]

end AppAudit
