/-
Patterns and a character that they never take.

A pattern that shuns a character can neither take it nor tell it from the end of the text. So what it takes off a text is
what it takes off the part in front of that character, with the character and all that follows put back to what is left,
and in the same order of preference (`splits_separated`). Whether it occurs, and what a scan for it finds, can therefore
be asked of both parts on their own. Nothing is assumed about where the front part ends: it may be in the middle of a
word, in white space or in a number.

Main results:
- `occursIn_splitOn`: such a pattern occurs in a text exactly when it occurs in one of the pieces between separators;
- `Marker.count_separated`, `Extractor.tokens_separated`: the occurrences in both parts add up, and so do the tokens.
-/
import Mathlib.Tactic
import AppAudit.Pattern.Scan

namespace AppAudit

namespace Pattern

/-- cannot take the character, and cannot tell it from the end of the text -/
def shuns (c : Char) : Pattern → Bool
  | nothing => true
  | text w => !w.contains c
  | one k | many k => !k.mem c
  | wordEnd => !CharSet.word.mem c
  | textEnd => false
  | seq p q | either p q => p.shuns c && q.shuns c

variable {p : Pattern} {k : CharSet} {c : Char} {w : List Char}

/-! ## Taking something off the front -/

theorem strip_separated (h : c ∉ w) (s t : List Char) : strip w (s ++ c :: t) = (strip w s).map (· ++ c :: t) := by
  induction w generalizing s with
  | nil => rfl
  | cons d w ih =>
    rw [List.mem_cons, not_or] at h
    cases s with
    | nil =>
      rw [List.nil_append, strip, strip, if_neg (Ne.symm h.1)]
      rfl
    | cons e s =>
      rw [List.cons_append, strip, strip]
      split_ifs
      · exact ih h.2 s
      · rfl

theorem runSplits_separated (h : k.mem c = false) (s t : List Char) :
    runSplits k (s ++ c :: t) = (runSplits k s).map fun m => (m.1, m.2 ++ c :: t) := by
  induction s with
  | nil => simp [runSplits, h]
  | cons d s ih =>
    rw [List.cons_append, runSplits, runSplits, ih]
    split_ifs <;> simp [Function.comp_def]

/-- **What is taken off the front is taken off the front part.** -/
theorem splits_separated (h : p.shuns c = true) (s t : List Char) :
    p.splits (s ++ c :: t) = (p.splits s).map fun m => (m.1, m.2 ++ c :: t) := by
  induction p generalizing s with
  | nothing => rfl
  | text w =>
    simp only [shuns, Bool.not_eq_true', List.contains_eq_mem, decide_eq_false_iff_not] at h
    rw [splits, splits, strip_separated h]
    cases strip w s <;> rfl
  | one k =>
    simp only [shuns, Bool.not_eq_true'] at h
    cases s with
    | nil => simp [splits, h]
    | cons d s =>
      rw [List.cons_append, splits, splits]
      split_ifs <;> rfl
  | many k =>
    simp only [shuns, Bool.not_eq_true'] at h
    exact runSplits_separated h s t
  | wordEnd =>
    simp only [shuns, Bool.not_eq_true'] at h
    cases s with
    | nil => simp [splits, rests, h]
    | cons d s =>
      rw [List.cons_append, splits, splits, rests, rests]
      split_ifs <;> rfl
  | textEnd => simp [shuns] at h
  | seq p q ihp ihq =>
    simp only [shuns, Bool.and_eq_true] at h
    simp only [splits, ihp h.1, ihq h.2, List.flatMap_map, List.map_flatMap, List.map_map, Function.comp_def]
  | either p q ihp ihq =>
    simp only [shuns, Bool.and_eq_true] at h
    simp only [splits, ihp h.1, ihq h.2, List.map_append]

theorem rests_separated (h : p.shuns c = true) (s t : List Char) :
    p.rests (s ++ c :: t) = (p.rests s).map (· ++ c :: t) := by
  rw [← map_snd_splits, ← map_snd_splits, splits_separated h, List.map_map, List.map_map]
  rfl

theorem first?_separated (h : p.shuns c = true) (s t : List Char) :
    p.first? (s ++ c :: t) = (p.first? s).map (· ++ c :: t) := by
  rw [first?, first?, rests_separated h, List.head?_map]

theorem startsAt_separated (h : p.shuns c = true) (s t : List Char) : p.startsAt (s ++ c :: t) = p.startsAt s := by
  rw [startsAt, startsAt, rests_separated h, List.isEmpty_map]

/-! ## Occurring -/

/-- no occurrence reaches across the separator -/
theorem occursIn_separated (h : p.shuns c = true) (s t : List Char) :
    p.occursIn (s ++ c :: t) = (p.occursIn s || p.occursIn t) := by
  induction s with
  | nil => rw [List.nil_append, occursIn, occursIn, ← List.nil_append (c :: t), startsAt_separated h]
  | cons d s ih =>
    have hstart := startsAt_separated h (d :: s) t
    rw [List.cons_append] at hstart ⊢
    rw [occursIn, occursIn, hstart, ih, Bool.or_assoc]

theorem occursIn_intercalate (h : p.shuns c = true) {pieces : List (List Char)} (hne : pieces ≠ []) :
    p.occursIn ([c].intercalate pieces) = pieces.any p.occursIn := by
  induction pieces with
  | nil => exact absurd rfl hne
  | cons piece pieces ih =>
    cases pieces with
    | nil => simp
    | cons next pieces =>
      rw [List.intercalate_cons_cons, List.any_cons, ← ih (List.cons_ne_nil _ _), List.append_assoc,
        List.singleton_append, occursIn_separated h]

/-- **A pattern occurs in a text exactly when it occurs in one of its pieces.** -/
theorem occursIn_splitOn (h : p.shuns c = true) (s : List Char) :
    p.occursIn s = true ↔ ∃ piece ∈ s.splitOn c, p.occursIn piece = true := by
  rw [← List.any_eq_true, ← occursIn_intercalate h (List.splitOn_ne_nil c s), List.intercalate_splitOn]

end Pattern

/-! ## Scanning -/

/-- a scan whose steps stay in front of the separator starts anew behind it -/
theorem scan_separated {α : Type} {next : List Char → Option (α × List Char)}
    {progress : ∀ s a r, next s = some (a, r) → r.length < s.length} {c : Char} {t : List Char}
    (hnext : ∀ s, next (s ++ c :: t) = (next s).map fun m => (m.1, m.2 ++ c :: t)) (s : List Char) :
    scan next progress (s ++ c :: t) = scan next progress s ++ scan next progress t := by
  induction hn : s.length using Nat.strong_induction_on generalizing s with
  | _ n ih =>
    cases s with
    | nil =>
      have hstart := hnext []
      rw [next_nil progress, Option.map_none, List.nil_append] at hstart
      rw [List.nil_append, scan_of_none hstart, scan, List.nil_append]
    | cons d s =>
      have hstart := hnext (d :: s)
      rw [List.cons_append] at hstart ⊢
      cases hd : next (d :: s) with
      | some m =>
        have hlt : m.2.length < n := hn ▸ progress _ m.1 m.2 hd
        rw [hd, Option.map_some] at hstart
        rw [scan_of_some hstart, scan_of_some hd, ih _ hlt m.2 rfl, List.cons_append]
      | none =>
        have hlt : s.length < n := hn ▸ Nat.lt_succ_self _
        rw [hd, Option.map_none] at hstart
        rw [scan_of_none hstart, scan_of_none hd, ih _ hlt s rfl]

namespace Marker

/-- **Occurrences on both sides of a separator add up.** -/
theorem count_separated {m : Marker} {c : Char} (h : m.pattern.shuns c = true) (s t : List Char) :
    m.count (s ++ c :: t) = m.count s + m.count t := by
  have hnext : ∀ s, m.next (s ++ c :: t) = (m.next s).map fun x => (x.1, x.2 ++ c :: t) := by
    intro s
    rw [next, next, Pattern.first?_separated h, Option.map_map, Option.map_map]
    rfl
  rw [count, scan_separated hnext, List.length_append, count, count]

end Marker

namespace Extractor

/-- takes the character neither around the token nor in it -/
def shuns (c : Char) (e : Extractor) : Bool := e.lead.shuns c && e.token.shuns c && e.trail.shuns c

variable {e : Extractor} {c : Char}

theorem next_separated (h : e.shuns c = true) (s t : List Char) :
    e.next (s ++ c :: t) = (e.next s).map fun m => (m.1, m.2 ++ c :: t) := by
  simp only [shuns, Bool.and_eq_true] at h
  obtain ⟨⟨hlead, htoken⟩, htrail⟩ := h
  simp only [next, Pattern.rests_separated hlead, Pattern.splits_separated htoken, Pattern.rests_separated htrail,
    List.flatMap_map, List.map_map, ← List.head?_map, List.map_flatMap, Function.comp_def]

/-- **Tokens on both sides of a separator follow one another.** -/
theorem tokens_separated (h : e.shuns c = true) (s t : List Char) :
    e.tokens (s ++ c :: t) = e.tokens s ++ e.tokens t := by
  rw [tokens, scan_separated fun s => next_separated h s t, tokens, tokens]

end Extractor

end AppAudit
