/-
Successive occurrences of a pattern, from left to right and without overlap.

`scan` walks the text with a step that recognises something at the front of what is left; it goes on behind what it
recognised, and past one character where it recognises nothing. Every use of it comes with the proof that recognising
takes at least one character, so the walk ends.
-/
import AppAudit.Pattern.Basic

namespace AppAudit

/-- everything that `next` recognises on a walk through the text -/
def scan {α : Type} (next : List Char → Option (α × List Char))
    (progress : ∀ s a r, next s = some (a, r) → r.length < s.length) : List Char → List α
  | [] => []
  | c :: t =>
    match h : next (c :: t) with
    | some (a, r) =>
      have : r.length < (c :: t).length := progress _ a r h
      a :: scan next progress r
    | none => scan next progress t
termination_by s => s.length
decreasing_by
  · exact this
  · exact Nat.lt_succ_self _

section

variable {α : Type} {next : List Char → Option (α × List Char)}
  {progress : ∀ s a r, next s = some (a, r) → r.length < s.length}

theorem scan_of_some {c : Char} {t r : List Char} {a : α} (h : next (c :: t) = some (a, r)) :
    scan next progress (c :: t) = a :: scan next progress r := by
  rw [scan]
  split
  · rename_i h'
    rw [h, Option.some.injEq, Prod.mk.injEq] at h'
    rw [h'.1, h'.2]
  · rename_i h'
    simp [h] at h'

theorem scan_of_none {c : Char} {t : List Char} (h : next (c :: t) = none) :
    scan next progress (c :: t) = scan next progress t := by
  rw [scan]
  split
  · rename_i h'
    simp [h] at h'
  · rfl

/-- nothing can be recognised in the empty text -/
theorem next_nil (progress : ∀ s a r, next s = some (a, r) → r.length < s.length) : next [] = none := by
  cases h : next [] with
  | none => rfl
  | some m => exact absurd (progress [] m.1 m.2 h) (Nat.not_lt_zero _)

end

/-- a pattern whose occurrences can be counted, because each of them takes at least one character -/
structure Marker where
  pattern : Pattern
  consumes : pattern.consumes = true := by decide

namespace Marker

/-- the step of a scan for the marker: what is left after its preferred match -/
def next (m : Marker) (s : List Char) : Option (Unit × List Char) := (m.pattern.first? s).map fun r => ((), r)

theorem next_length_lt (m : Marker) (s : List Char) (a : Unit) (r : List Char) (h : m.next s = some (a, r)) :
    r.length < s.length := by
  simp only [next, Pattern.first?, Option.map_eq_some_iff, Prod.mk.injEq] at h
  obtain ⟨r', hr', _, rfl⟩ := h
  exact Pattern.rests_length_lt m.consumes (List.mem_of_mem_head? hr')

/-- the number of successive occurrences -/
def count (m : Marker) (s : List Char) : Nat := (scan m.next m.next_length_lt s).length

end Marker

/-! ## Tokens -/

namespace Pattern

/-- a run of characters of the set and what is left, longest run first -/
def runSplits (k : CharSet) : List Char → List (List Char × List Char)
  | [] => [([], [])]
  | c :: t => if k.mem c then (runSplits k t).map (fun m => (c :: m.1, m.2)) ++ [([], c :: t)] else [([], c :: t)]

/-- the text that a pattern may take off the front, with what is then left, most preferred first -/
def splits : Pattern → List Char → List (List Char × List Char)
  | nothing, s => [([], s)]
  | text w, s => (strip w s).toList.map fun r => (w, r)
  | one _, [] => []
  | one k, c :: t => if k.mem c then [([c], t)] else []
  | many k, s => runSplits k s
  | wordEnd, s => (rests wordEnd s).map fun r => ([], r)
  | textEnd, s => (rests textEnd s).map fun r => ([], r)
  | seq p q, s => (splits p s).flatMap fun m => (splits q m.2).map fun m' => (m.1 ++ m'.1, m'.2)
  | either p q, s => splits p s ++ splits q s

theorem runRests_eq (k : CharSet) (shorter : List (List Char)) (s : List Char) :
    runRests k shorter s = (runSplits k s).map (·.2) ++ shorter := by
  induction s generalizing shorter with
  | nil => rfl
  | cons c t ih =>
    by_cases h : k.mem c = true
    · simp [runRests, runSplits, h, ih, Function.comp_def]
    · simp [runRests, runSplits, h]

/-- both views of matching leave the same, in the same order -/
theorem map_snd_splits (p : Pattern) (s : List Char) : (p.splits s).map (·.2) = p.rests s := by
  induction p generalizing s with
  | nothing => rfl
  | text w => simp [splits, rests, Function.comp_def]
  | one k =>
    cases s with
    | nil => rfl
    | cons c t => by_cases h : k.mem c = true <;> simp [splits, rests, h]
  | many k => simp [splits, rests, runRests_eq]
  | wordEnd | textEnd => simp [splits, Function.comp_def]
  | seq p q ihp ihq =>
    simp only [splits, rests, ← ihp, List.map_flatMap, List.flatMap_map, List.map_map, Function.comp_def, ← ihq]
  | either p q ihp ihq => simp [splits, rests, ihp, ihq]

end Pattern

/-- a pattern around a token of interest: what leads up to it, the token, and what may trail it -/
structure Extractor where
  lead : Pattern
  token : Pattern
  trail : Pattern := .nothing
  consumes : (lead.seq (token.seq trail)).consumes = true := by decide

namespace Extractor

/-- the token of the preferred match at the front of the text, and what is left after the match -/
def next (e : Extractor) (s : List Char) : Option (List Char × List Char) :=
  ((e.lead.rests s).flatMap fun s₁ =>
    (e.token.splits s₁).flatMap fun m =>
      (e.trail.rests m.2).map fun r => (m.1, r)).head?

theorem next_length_lt (e : Extractor) (s : List Char) (a r : List Char) (h : e.next s = some (a, r)) :
    r.length < s.length := by
  have hm := List.mem_of_mem_head? h
  simp only [List.mem_flatMap, List.mem_map, Prod.mk.injEq] at hm
  obtain ⟨s₁, h₁, m, h₂, r', h₃, _, rfl⟩ := hm
  have h₂ : m.2 ∈ e.token.rests s₁ := by
    rw [← Pattern.map_snd_splits]
    exact List.mem_map_of_mem h₂
  refine Pattern.rests_length_lt e.consumes (r := r') ?_
  simp only [Pattern.rests, List.mem_flatMap]
  exact ⟨s₁, h₁, m.2, h₂, h₃⟩

/-- the tokens of all successive occurrences -/
def tokens (e : Extractor) (s : List Char) : List (List Char) := scan e.next e.next_length_lt s

end Extractor

end AppAudit
