/-
Patterns over source text, and where they occur.

A pattern is read from left to right. `rests p s` lists what may be left of `s` after `p` consumed a beginning of it,
in order of preference: a run of characters is taken as long as possible first, and of two alternatives the first one
wins. The leftmost occurrence is at the first position with a non-empty list, and it ends before the head of that list.

Only runs of single characters repeat, so every definition here is structural; no fuel is needed.

Main facts: `rests_suffix` (what is left is an end of the text), `rests_length_lt` (a pattern that always consumes
leaves less than it was given, on which scanning for successive occurrences rests) and `occursIn_iff` (a pattern occurs
exactly when it leaves something of some end of the text).
-/
import AppAudit.Pattern.CharSet

namespace AppAudit

inductive Pattern where
  /-- the empty text -/
  | nothing
  /-- this very text -/
  | text (w : List Char)
  /-- one character of the set -/
  | one (s : CharSet)
  /-- any number of characters of the set, as many as possible first -/
  | many (s : CharSet)
  /-- the empty text where no identifier character follows -/
  | wordEnd
  /-- the empty text at the very end -/
  | textEnd
  /-- the first, then the second -/
  | seq (p q : Pattern)
  /-- the first, or else the second -/
  | either (p q : Pattern)
deriving DecidableEq, Repr

namespace Pattern

/-! ## Writing patterns -/

def lit (w : String) : Pattern := .text w.toList

/-- the patterns one after the other -/
def all : List Pattern → Pattern
  | [] => .nothing
  | [p] => p
  | p :: ps => .seq p (all ps)

/-- the first of the patterns that leads to a match -/
def any : List Pattern → Pattern
  | [] => .one ⟨[], false⟩
  | [p] => p
  | p :: ps => .either p (any ps)

/-- one of the texts, earlier ones preferred -/
def anyOf (ws : List String) : Pattern := any (ws.map lit)

/-- the pattern if possible, else nothing -/
def optional (p : Pattern) : Pattern := .either p .nothing

/-- at least one character of the set -/
def atLeastOne (s : CharSet) : Pattern := .seq (.one s) (.many s)

/-- exactly `n` characters of the set -/
def times (n : Nat) (s : CharSet) : Pattern := all (List.replicate n (.one s))

/-- the text, each letter in any of its case forms -/
def caseless (w : String) : Pattern := all (w.toList.map fun c => .one (CharSet.anyCase c))

/-- the text, each letter in upper or lower case; other case forms are not recognised -/
def eitherCase (w : String) : Pattern := all (w.toList.map fun c => .one (CharSet.eitherCase c))

/-- the rest of the line, or a beginning of it -/
def lineGap : Pattern := .many .inLine

/-- white space, or none -/
def gap : Pattern := .many .blank

/-- an opening quote, or none -/
def maybeQuote : Pattern := optional (.one .quote)

/-! ## Meaning -/

/-- what is left of the text once `w` is taken off its front -/
def strip : List Char → List Char → Option (List Char)
  | [], s => some s
  | _ :: _, [] => none
  | c :: w, d :: s => if c = d then strip w s else none

/-- what may be left after a run of characters of the set, longest run first; `shorter` holds the shorter runs -/
def runRests (s : CharSet) : List (List Char) → List Char → List (List Char)
  | shorter, [] => [] :: shorter
  | shorter, c :: t => if s.mem c then runRests s ((c :: t) :: shorter) t else (c :: t) :: shorter

/-- what may be left of the text after the pattern, most preferred first -/
def rests : Pattern → List Char → List (List Char)
  | nothing, s => [s]
  | text w, s => (strip w s).toList
  | one _, [] => []
  | one k, c :: t => if k.mem c then [t] else []
  | many k, s => runRests k [] s
  | wordEnd, [] => [[]]
  | wordEnd, c :: t => if CharSet.word.mem c then [] else [c :: t]
  | textEnd, [] => [[]]
  | textEnd, _ :: _ => []
  | seq p q, s => (rests p s).flatMap (rests q)
  | either p q, s => rests p s ++ rests q s

/-- what is left after the preferred match at the front of the text -/
def first? (p : Pattern) (s : List Char) : Option (List Char) := (p.rests s).head?

/-- whether the pattern matches at the front of the text -/
def startsAt (p : Pattern) (s : List Char) : Bool := !(p.rests s).isEmpty

/-- whether the pattern matches somewhere in the text -/
def occursIn (p : Pattern) : List Char → Bool
  | [] => p.startsAt []
  | c :: t => p.startsAt (c :: t) || p.occursIn t

/-- whether every match takes at least one character -/
def consumes : Pattern → Bool
  | text w => !w.isEmpty
  | one _ => true
  | seq p q => p.consumes || q.consumes
  | either p q => p.consumes && q.consumes
  | nothing | many _ | wordEnd | textEnd => false

/-! ## What is left is an end of the text -/

theorem strip_eq_some {w s r : List Char} : strip w s = some r ↔ s = w ++ r := by
  induction w generalizing s with
  | nil => simp [strip]
  | cons c w ih =>
    cases s with
    | nil => simp [strip]
    | cons d s =>
      by_cases h : c = d
      · simp [strip, h, ih]
      · simp [strip, h, Ne.symm h]

theorem mem_runRests {k : CharSet} {shorter : List (List Char)} {s r : List Char} :
    r ∈ runRests k shorter s ↔ r ∈ shorter ∨ ∃ u, s = u ++ r ∧ ∀ c ∈ u, k.mem c = true := by
  induction s generalizing shorter with
  | nil =>
    simp only [runRests, List.mem_cons]
    constructor
    · rintro (rfl | h)
      · exact Or.inr ⟨[], rfl, by simp⟩
      · exact Or.inl h
    · rintro (h | ⟨u, hu, _⟩)
      · exact Or.inr h
      · exact Or.inl (List.append_eq_nil_iff.1 hu.symm).2
  | cons c t ih =>
    by_cases h : k.mem c = true
    · simp only [runRests, h, if_true, ih, List.mem_cons]
      constructor
      · rintro ((rfl | hs) | ⟨u, rfl, hu⟩)
        · exact Or.inr ⟨[], rfl, by simp⟩
        · exact Or.inl hs
        · exact Or.inr ⟨c :: u, rfl, by simpa [h] using hu⟩
      · rintro (hs | ⟨u, hu, hk⟩)
        · exact Or.inl (Or.inr hs)
        · cases u with
          | nil => exact Or.inl (Or.inl hu.symm)
          | cons d u =>
            obtain ⟨rfl, rfl⟩ := List.cons.inj hu
            exact Or.inr ⟨u, rfl, fun e he => hk e (List.mem_cons_of_mem _ he)⟩
    · simp only [runRests, h, Bool.false_eq_true, if_false, List.mem_cons]
      constructor
      · rintro (rfl | hs)
        · exact Or.inr ⟨[], rfl, by simp⟩
        · exact Or.inl hs
      · rintro (hs | ⟨u, hu, hk⟩)
        · exact Or.inr hs
        · cases u with
          | nil => exact Or.inl hu.symm
          | cons d u =>
            obtain ⟨rfl, rfl⟩ := List.cons.inj hu
            exact absurd (hk c List.mem_cons_self) h

/-- what a pattern leaves is an end of the text -/
theorem rests_suffix {p : Pattern} {s r : List Char} (h : r ∈ p.rests s) : r <:+ s := by
  induction p generalizing s r with
  | nothing => simp only [rests, List.mem_singleton] at h; exact h ▸ List.suffix_refl _
  | text w =>
    simp only [rests, Option.mem_toList] at h
    exact ⟨w, (strip_eq_some.1 h).symm⟩
  | one k =>
    cases s with
    | nil => simp [rests] at h
    | cons c t =>
      simp only [rests] at h
      split at h
      · simp only [List.mem_singleton] at h; exact h ▸ List.suffix_cons _ _
      · simp at h
  | many k =>
    simp only [rests, mem_runRests, List.not_mem_nil, false_or] at h
    obtain ⟨u, hu, _⟩ := h
    exact ⟨u, hu.symm⟩
  | wordEnd =>
    cases s with
    | nil => simp only [rests, List.mem_singleton] at h; exact h ▸ List.suffix_refl _
    | cons c t =>
      simp only [rests] at h
      split at h
      · simp at h
      · simp only [List.mem_singleton] at h; exact h ▸ List.suffix_refl _
  | textEnd =>
    cases s with
    | nil => simp only [rests, List.mem_singleton] at h; exact h ▸ List.suffix_refl _
    | cons c t => simp [rests] at h
  | seq p q ihp ihq =>
    simp only [rests, List.mem_flatMap] at h
    obtain ⟨m, hm, hr⟩ := h
    exact (ihq hr).trans (ihp hm)
  | either p q ihp ihq =>
    simp only [rests, List.mem_append] at h
    exact h.elim ihp ihq

theorem rests_length_le {p : Pattern} {s r : List Char} (h : r ∈ p.rests s) : r.length ≤ s.length :=
  (rests_suffix h).length_le

/-- a pattern that always consumes leaves less than it was given -/
theorem rests_length_lt {p : Pattern} (hp : p.consumes = true) {s r : List Char} (h : r ∈ p.rests s) :
    r.length < s.length := by
  induction p generalizing s r with
  | nothing | many k | wordEnd | textEnd => simp [consumes] at hp
  | text w =>
    simp only [rests, Option.mem_toList] at h
    rw [strip_eq_some.1 h]
    cases w with
    | nil => simp [consumes] at hp
    | cons c w => simp only [List.cons_append, List.length_cons, List.length_append]; omega
  | one k =>
    cases s with
    | nil => simp [rests] at h
    | cons c t =>
      simp only [rests] at h
      split at h
      · simp only [List.mem_singleton] at h; subst h; simp
      · simp at h
  | seq p q ihp ihq =>
    simp only [rests, List.mem_flatMap] at h
    obtain ⟨m, hm, hr⟩ := h
    simp only [consumes, Bool.or_eq_true] at hp
    rcases hp with hp | hp
    · have := ihp hp hm; have := rests_length_le hr; omega
    · have := ihq hp hr; have := rests_length_le hm; omega
  | either p q ihp ihq =>
    simp only [rests, List.mem_append] at h
    simp only [consumes, Bool.and_eq_true] at hp
    exact h.elim (ihp hp.1) (ihq hp.2)

/-! ## Occurrence -/

theorem startsAt_iff {p : Pattern} {s : List Char} : p.startsAt s = true ↔ ∃ r, r ∈ p.rests s := by
  unfold startsAt
  cases p.rests s <;> simp

theorem startsAt_eq_any (p q : Pattern) (s : List Char) : (p.seq q).startsAt s = (p.rests s).any q.startsAt := by
  rw [Bool.eq_iff_iff, startsAt_iff, List.any_eq_true]
  simp only [rests, List.mem_flatMap, startsAt_iff]
  constructor
  · intro ⟨r, x, hx, hr⟩
    exact ⟨x, hx, r, hr⟩
  · intro ⟨x, hx, r, hr⟩
    exact ⟨r, x, hx, hr⟩

theorem startsAt_either (p q : Pattern) (s : List Char) : (p.either q).startsAt s = (p.startsAt s || q.startsAt s) := by
  rw [Bool.eq_iff_iff, Bool.or_eq_true, startsAt_iff, startsAt_iff, startsAt_iff]
  simp only [rests, List.mem_append, exists_or]

/-- a pattern occurs in a text exactly when it matches at the front of one of its ends -/
theorem occursIn_iff {p : Pattern} {s : List Char} :
    p.occursIn s = true ↔ ∃ a t r, s = a ++ t ∧ r ∈ p.rests t := by
  induction s with
  | nil =>
    rw [occursIn, startsAt_iff]
    constructor
    · intro ⟨r, hr⟩
      exact ⟨[], [], r, rfl, hr⟩
    · intro ⟨a, t, r, h, hr⟩
      obtain ⟨rfl, rfl⟩ := List.append_eq_nil_iff.1 h.symm
      exact ⟨r, hr⟩
  | cons c s ih =>
    rw [occursIn, Bool.or_eq_true, startsAt_iff, ih]
    constructor
    · intro h
      rcases h with ⟨r, hr⟩ | ⟨a, t, r, h, hr⟩
      · exact ⟨[], c :: s, r, rfl, hr⟩
      · exact ⟨c :: a, t, r, by rw [h]; rfl, hr⟩
    · intro ⟨a, t, r, h, hr⟩
      cases a with
      | nil => exact Or.inl ⟨r, by rw [List.nil_append] at h; rw [h]; exact hr⟩
      | cons d a =>
        obtain ⟨rfl, rfl⟩ := List.cons.inj h
        exact Or.inr ⟨a, t, r, rfl, hr⟩

theorem occursIn_iff_startsAt {p : Pattern} {s : List Char} :
    p.occursIn s = true ↔ ∃ a t, s = a ++ t ∧ p.startsAt t = true := by
  simp only [occursIn_iff, startsAt_iff, exists_and_left]

end Pattern

end AppAudit
