/-
Matches that no scan can miss.

A scan goes on behind what it recognised, so in general it sees only some of the places where a pattern matches. Nothing
is lost if every match begins with a character that it does not take again (`Pattern.heads`): then no other match can
begin inside it. Such a scan finds what a look at every position of the text finds, and how far each match reaches makes
no difference. Positions are counted as the ends of the text that begin there (`List.tails`).

Main results:
- `scan_eq_filterMap_tails`: such a scan looks at every position;
- `Marker.count_eq_countP`, `Extractor.tokens_eq_filterMap`: the count of a marker is the number of positions where its
  pattern matches, and the tokens are those of all positions;
- `Pattern.countP_startsAt_anyOf`: words that do not begin one another are counted by adding up how often each stands in
  the text.
-/
import Mathlib.Tactic
import AppAudit.Proofs.Separators

namespace AppAudit

namespace Pattern

variable {p : Pattern} {c : Char} {s r : List Char}

/-! ## What a match takes -/

/-- every match begins with the character and does not take it again -/
def heads (c : Char) : Pattern → Bool
  | text (d :: w) => d == c && !w.contains c
  | seq p q => p.heads c && q.shuns c
  | either p q => p.heads c && q.heads c
  | text [] | nothing | one _ | many _ | wordEnd | textEnd => false

/-- a pattern that shuns a character does not take it -/
theorem taken_of_shuns (h : p.shuns c = true) (hr : r ∈ p.rests s) : ∃ u, s = u ++ r ∧ c ∉ u := by
  induction p generalizing s r with
  | nothing =>
    rw [rests, List.mem_singleton] at hr
    exact ⟨[], by simp [hr], List.not_mem_nil⟩
  | text w =>
    simp only [shuns, Bool.not_eq_true', List.contains_eq_mem, decide_eq_false_iff_not] at h
    rw [rests, Option.mem_toList] at hr
    exact ⟨w, strip_eq_some.1 hr, h⟩
  | one k =>
    simp only [shuns, Bool.not_eq_true'] at h
    cases s with
    | nil => simp [rests] at hr
    | cons d s =>
      rw [rests] at hr
      split_ifs at hr with hd
      · rw [List.mem_singleton] at hr
        have hne : c ≠ d := by
          rintro rfl
          simp [h] at hd
        exact ⟨[d], by simp [hr], by simpa using hne⟩
      · simp at hr
  | many k =>
    simp only [shuns, Bool.not_eq_true'] at h
    simp only [rests, mem_runRests, List.not_mem_nil, false_or] at hr
    obtain ⟨u, hu, hk⟩ := hr
    refine ⟨u, hu, fun hc => ?_⟩
    simp [hk c hc] at h
  | wordEnd =>
    cases s with
    | nil =>
      rw [rests, List.mem_singleton] at hr
      exact ⟨[], by simp [hr], List.not_mem_nil⟩
    | cons d s =>
      rw [rests] at hr
      split_ifs at hr
      · simp at hr
      · rw [List.mem_singleton] at hr
        exact ⟨[], by simp [hr], List.not_mem_nil⟩
  | textEnd => simp [shuns] at h
  | seq p q ihp ihq =>
    rw [shuns, Bool.and_eq_true] at h
    rw [rests, List.mem_flatMap] at hr
    obtain ⟨m, hm, hr⟩ := hr
    obtain ⟨u, rfl, hu⟩ := ihp h.1 hm
    obtain ⟨v, rfl, hv⟩ := ihq h.2 hr
    exact ⟨u ++ v, by simp, by simp [hu, hv]⟩
  | either p q ihp ihq =>
    rw [shuns, Bool.and_eq_true] at h
    rw [rests, List.mem_append] at hr
    rcases hr with hr | hr
    · exact ihp h.1 hr
    · exact ihq h.2 hr

/-- **A headed match begins with its character and does not take it again.** -/
theorem taken_of_heads (h : p.heads c = true) (hr : r ∈ p.rests s) : ∃ u, s = c :: (u ++ r) ∧ c ∉ u := by
  induction p generalizing s r with
  | nothing | one k | many k | wordEnd | textEnd => simp [heads] at h
  | text w =>
    cases w with
    | nil => simp [heads] at h
    | cons d w =>
      simp only [heads, Bool.and_eq_true, beq_iff_eq, Bool.not_eq_true', List.contains_eq_mem,
        decide_eq_false_iff_not] at h
      rw [rests, Option.mem_toList, strip_eq_some] at hr
      exact ⟨w, by rw [hr, h.1, List.cons_append], h.2⟩
  | seq p q ihp _ =>
    rw [heads, Bool.and_eq_true] at h
    rw [rests, List.mem_flatMap] at hr
    obtain ⟨m, hm, hr⟩ := hr
    obtain ⟨u, rfl, hu⟩ := ihp h.1 hm
    obtain ⟨v, rfl, hv⟩ := taken_of_shuns h.2 hr
    exact ⟨u ++ v, by simp, by simp [hu, hv]⟩
  | either p q ihp ihq =>
    rw [heads, Bool.and_eq_true] at h
    rw [rests, List.mem_append] at hr
    rcases hr with hr | hr
    · exact ihp h.1 hr
    · exact ihq h.2 hr

end Pattern

/-! ## Scans that look at every position -/

section

variable {α : Type} {next : List Char → Option (α × List Char)}
  {progress : ∀ s a r, next s = some (a, r) → r.length < s.length} {c : Char}

/-- the positions before which the character does not stand are of no account -/
theorem filterMap_tails_append {f : List Char → Option α} (hf : ∀ s, (f s).isSome → ∃ t, s = c :: t) {u : List Char}
    (hu : c ∉ u) (r : List Char) : (u ++ r).tails.filterMap f = r.tails.filterMap f := by
  induction u with
  | nil => rfl
  | cons d u ih =>
    rw [List.mem_cons, not_or] at hu
    have hnone : f (d :: (u ++ r)) = none := by
      rw [← Option.not_isSome_iff_eq_none]
      intro hsome
      obtain ⟨t, ht⟩ := hf _ hsome
      exact hu.1 (List.cons.inj ht).1.symm
    rw [List.cons_append, List.tails_cons, List.filterMap_cons_none hnone]
    exact ih hu.2

/-- **A scan for headed matches looks at every position.** -/
theorem scan_eq_filterMap_tails (hnext : ∀ s a r, next s = some (a, r) → ∃ u, s = c :: (u ++ r) ∧ c ∉ u)
    (s : List Char) : scan next progress s = s.tails.filterMap fun t => (next t).map (·.1) := by
  have hbegin : ∀ s, ((next s).map (·.1)).isSome → ∃ t, s = c :: t := by
    intro s hs
    rw [Option.isSome_map, Option.isSome_iff_exists] at hs
    obtain ⟨⟨a, r⟩, hm⟩ := hs
    obtain ⟨u, hu, -⟩ := hnext s a r hm
    exact ⟨_, hu⟩
  -- the scan may skip any number of positions, but none of them begins with the character
  induction hn : s.length using Nat.strong_induction_on generalizing s with
  | _ n ih =>
    cases s with
    | nil => simp [scan, next_nil progress]
    | cons d s =>
      rw [List.tails_cons]
      cases hd : next (d :: s) with
      | some m =>
        obtain ⟨u, hu, hc⟩ := hnext _ m.1 m.2 hd
        have hlt : m.2.length < n := hn ▸ progress _ m.1 m.2 hd
        rw [scan_of_some hd, ih _ hlt m.2 rfl, List.filterMap_cons_some (b := m.1) (by rw [hd]; rfl), (List.cons.inj hu).2,
          filterMap_tails_append hbegin hc]
      | none =>
        have hlt : s.length < n := hn ▸ Nat.lt_succ_self _
        rw [scan_of_none hd, ih _ hlt s rfl, List.filterMap_cons_none (by rw [hd]; rfl)]

end

/-- **A headed marker is counted at every position.** -/
theorem Marker.count_eq_countP {m : Marker} {c : Char} (h : m.pattern.heads c = true) (s : List Char) :
    m.count s = s.tails.countP m.pattern.startsAt := by
  have hnext : ∀ s a r, m.next s = some (a, r) → ∃ u, s = c :: (u ++ r) ∧ c ∉ u := by
    intro s a r hm
    rw [next, Option.map_eq_some_iff] at hm
    obtain ⟨r', hr, heq⟩ := hm
    obtain ⟨-, rfl⟩ := Prod.mk.inj heq
    exact Pattern.taken_of_heads h (List.mem_of_mem_head? hr)
  rw [count, scan_eq_filterMap_tails hnext, List.length_filterMap_eq_countP]
  refine List.countP_congr fun t _ => ?_
  rw [Option.isSome_map, next, Option.isSome_map, Pattern.first?, Pattern.startsAt]
  cases m.pattern.rests t <;> simp

namespace Extractor

variable {e : Extractor} {c : Char} {s a r : List Char}

/-- all that a match takes: the lead, the token and the trail -/
def whole (e : Extractor) : Pattern := e.lead.seq (e.token.seq e.trail)

theorem mem_rests_of_next (h : e.next s = some (a, r)) : r ∈ e.whole.rests s := by
  have hm := List.mem_of_mem_head? h
  simp only [List.mem_flatMap, List.mem_map, Prod.mk.injEq] at hm
  obtain ⟨s₁, h₁, m, h₂, r', h₃, -, rfl⟩ := hm
  have htoken : m.2 ∈ e.token.rests s₁ := by
    rw [← Pattern.map_snd_splits]
    exact List.mem_map_of_mem h₂
  simp only [whole, Pattern.rests, List.mem_flatMap]
  exact ⟨s₁, h₁, m.2, htoken, h₃⟩

/-- **The tokens of a headed extractor are those of all positions.** -/
theorem tokens_eq_filterMap (h : e.whole.heads c = true) (s : List Char) :
    e.tokens s = s.tails.filterMap fun t => (e.next t).map (·.1) :=
  scan_eq_filterMap_tails (fun _ _ _ hm => Pattern.taken_of_heads h (mem_rests_of_next hm)) s

end Extractor

/-! ## Words -/

/-- how often a word stands in a text, at any position -/
def occurrences (w : String) (s : List Char) : ℕ := s.tails.countP w.toList.isPrefixOf

theorem countP_or_of_exclusive {α : Type} {f g : α → Bool} (h : ∀ a, f a = true → g a = false) (l : List α) :
    l.countP (fun a => f a || g a) = l.countP f + l.countP g := by
  induction l with
  | nil => rfl
  | cons a l ih =>
    rw [List.countP_cons, List.countP_cons, List.countP_cons, ih]
    cases hf : f a with
    | true =>
      simp only [h a hf, Bool.or_false, Bool.false_eq_true, if_true, if_false]
      omega
    | false =>
      simp only [Bool.false_or, Bool.false_eq_true, if_false]
      omega

namespace Pattern

theorem startsAt_lit (w : String) (s : List Char) : (lit w).startsAt s = w.toList.isPrefixOf s := by
  rw [Bool.eq_iff_iff, startsAt_iff, List.isPrefixOf_iff_prefix]
  simp only [lit, rests, Option.mem_toList, strip_eq_some]
  constructor
  · rintro ⟨r, hr⟩
    exact ⟨r, hr.symm⟩
  · rintro ⟨r, hr⟩
    exact ⟨r, hr.symm⟩

theorem startsAt_anyOf (ws : List String) (s : List Char) :
    (anyOf ws).startsAt s = ws.any fun w => w.toList.isPrefixOf s := by
  induction ws with
  | nil => cases s <;> rfl
  | cons w ws ih =>
    cases ws with
    | nil =>
      have hshape : anyOf [w] = lit w := rfl
      rw [hshape, startsAt_lit, List.any_cons, List.any_nil, Bool.or_false]
    | cons v ws =>
      have hshape : anyOf (w :: v :: ws) = (lit w).either (anyOf (v :: ws)) := rfl
      rw [hshape, startsAt_either, startsAt_lit, ih, List.any_cons (a := w)]

/-- neither of two words begins the other -/
def parted (w v : String) : Bool := !w.toList.isPrefixOf v.toList && !v.toList.isPrefixOf w.toList

/-- two such words never stand at the same position -/
theorem not_both_of_parted {w v : String} (h : parted w v = true) {s : List Char} (hw : w.toList.isPrefixOf s = true) :
    v.toList.isPrefixOf s = false := by
  rw [parted, Bool.and_eq_true, Bool.not_eq_true', Bool.not_eq_true'] at h
  rw [← Bool.not_eq_true]
  intro hv
  rw [List.isPrefixOf_iff_prefix] at hw hv
  rcases List.prefix_or_prefix_of_prefix hw hv with hwv | hvw
  · rw [List.isPrefixOf_iff_prefix.2 hwv] at h
    exact absurd h.1 (by decide)
  · rw [List.isPrefixOf_iff_prefix.2 hvw] at h
    exact absurd h.2 (by decide)

/-- **Words that do not begin one another are counted by adding up.** -/
theorem countP_startsAt_anyOf {ws : List String} (h : ws.Pairwise fun w v => parted w v = true) (s : List Char) :
    s.tails.countP (anyOf ws).startsAt = (ws.map fun w => occurrences w s).sum := by
  have hany : (anyOf ws).startsAt = fun t => ws.any fun w => w.toList.isPrefixOf t := funext (startsAt_anyOf ws)
  rw [hany]
  clear hany
  induction ws with
  | nil => simp
  | cons w ws ih =>
    rw [List.pairwise_cons] at h
    have hexclusive : ∀ t, w.toList.isPrefixOf t = true → (ws.any fun v => v.toList.isPrefixOf t) = false := by
      intro t hw
      rw [List.any_eq_false]
      intro v hv
      rw [not_both_of_parted (h.1 v hv) hw]
      exact Bool.false_ne_true
    simp only [List.any_cons]
    rw [countP_or_of_exclusive hexclusive, ih h.2, List.map_cons, List.sum_cons, occurrences]

end Pattern

end AppAudit
