/-
Patterns and line breaks.

`withReturns` writes every line break of a text as a carriage return and a newline. A pattern meets more places in the
converted text than in the original: it can start, stop and go on between the two characters of a break. A rest that
starts there is *torn*; in a converted text that is every rest that starts with a newline.

What a steady pattern leaves of the converted text is, torn rests aside, the conversion of what it leaves of the original,
in the same order (`filter_rests_withReturns`). Steadiness is decided by the sets in the pattern and by what stands behind
a part that may tear a break: it must not go on from there by taking the newline. So is the weaker property to match at
the front of both texts or of neither (`alike`), which is all that matters for whether a pattern occurs.

Main results:
- `occursIn_withReturns`: an indifferent pattern occurs in both texts or in neither;
- `Marker.count_withReturns`, `Extractor.tokens_withReturns`: as many occurrences, and the same tokens.
-/
import Mathlib.Tactic
import AppAudit.Pattern.Scan

namespace AppAudit

/-- the text with a carriage return put before every newline -/
def withReturns : List Char → List Char
  | [] => []
  | c :: s => if c = '\n' then '\r' :: '\n' :: withReturns s else c :: withReturns s

/-- the text starts inside a converted line break -/
def torn (s : List Char) : Bool := s.head? == some '\n'

theorem withReturns_newline (s : List Char) : withReturns ('\n' :: s) = '\r' :: '\n' :: withReturns s := by
  rw [withReturns, if_pos rfl]

theorem withReturns_cons {c : Char} (h : c ≠ '\n') (s : List Char) : withReturns (c :: s) = c :: withReturns s := by
  rw [withReturns, if_neg h]

theorem torn_newline (s : List Char) : torn ('\n' :: s) = true := rfl

theorem torn_cons {c : Char} (h : c ≠ '\n') (s : List Char) : torn (c :: s) = false := by
  simp [torn, h]

theorem eq_newline_of_torn {s : List Char} (h : torn s = true) : ∃ t, s = '\n' :: t := by
  cases s with
  | nil => simp [torn] at h
  | cons c t =>
    simp only [torn, List.head?_cons, beq_iff_eq, Option.some.injEq] at h
    exact ⟨t, by rw [h]⟩

/-- the converted text itself is whole -/
theorem torn_withReturns (s : List Char) : torn (withReturns s) = false := by
  cases s with
  | nil => rfl
  | cons c s =>
    by_cases hc : c = '\n'
    · rw [hc, withReturns_newline]
      rfl
    · rw [withReturns_cons hc, torn_cons hc]

namespace Pattern

/-! ## Deciding what a pattern does at a line break -/

/-- may match at a newline without taking it -/
def idles : Pattern → Bool
  | nothing | many _ | wordEnd => true
  | text w => w.isEmpty
  | one _ | textEnd => false
  | seq p q => p.idles && q.idles
  | either p q => p.idles || q.idles

/-- may take a newline at its front -/
def crosses : Pattern → Bool
  | nothing | wordEnd | textEnd => false
  | text w => w.head? == some '\n'
  | one k | many k => k.mem '\n'
  | seq p q => p.crosses || (p.idles && q.crosses)
  | either p q => p.crosses || q.crosses

/-- cannot match at a newline at all -/
def avoids (p : Pattern) : Bool := !p.idles && !p.crosses

/-- may stop inside a converted line break -/
def tears : Pattern → Bool
  | nothing | text _ | wordEnd | textEnd => false
  | one k | many k => k.mem '\r'
  | seq p q => q.tears || (p.tears && q.idles)
  | either p q => p.tears || q.tears

/-- takes a carriage return wherever it takes a newline -/
def takesPairs (k : CharSet) : Bool := !k.mem '\n' || k.mem '\r'

/-- at least one character of a set that takes whole line breaks -/
def isRun : Pattern → Pattern → Bool
  | one k, many k' => k == k' && takesPairs k
  | _, _ => false

/-- leaves the same of a converted text as of the original, torn rests aside -/
def steady : Pattern → Bool
  | nothing | wordEnd | textEnd => true
  | text w => !w.contains '\n' && !w.contains '\r'
  | one k => !k.mem '\n' && !k.mem '\r'
  | many k => takesPairs k
  | seq p q => (p.steady && q.steady && (!p.tears || !q.crosses)) || isRun p q
  | either p q => p.steady && q.steady

def isMany : Pattern → Bool
  | many _ => true
  | _ => false

/-- matches at the front of a converted text exactly when it matches at the front of the original -/
def alike : Pattern → Bool
  | nothing | many _ | wordEnd | textEnd => true
  | text w => !w.contains '\n' && !w.contains '\r'
  | one k => k.mem '\n' == k.mem '\r'
  | seq p q => (p.alike && q.isMany) || (p.steady && q.alike && (!p.tears || q.avoids))
  | either p q => p.alike && q.alike

/-- occurs in a converted text exactly when it occurs in the original -/
def indifferent (p : Pattern) : Bool := p.alike && p.avoids

/-! ## At a newline -/

variable {p q : Pattern} {k : CharSet} {s r v w : List Char}

theorem rests_many_cons (k : CharSet) (c : Char) (t : List Char) :
    (many k).rests (c :: t) = if k.mem c then (many k).rests t ++ [c :: t] else [c :: t] := by
  simp only [rests, runRests_eq, runSplits, List.append_nil]
  split_ifs <;> simp [Function.comp_def]

theorem rests_run_cons (k : CharSet) (c : Char) (t : List Char) :
    (atLeastOne k).rests (c :: t) = if k.mem c then (many k).rests t else [] := by
  simp only [atLeastOne, rests]
  split_ifs <;> simp

/-- a pattern that does not take a newline either stays in front of it or fails there -/
theorem rests_at_newline (hc : p.crosses = false) (h : r ∈ p.rests ('\n' :: v)) : r = '\n' :: v ∧ p.idles = true := by
  induction p generalizing r with
  | nothing => exact ⟨List.mem_singleton.1 h, rfl⟩
  | text w =>
    simp only [rests, Option.mem_toList] at h
    have hw := strip_eq_some.1 h
    cases w with
    | nil => exact ⟨hw.symm, rfl⟩
    | cons c w =>
      obtain ⟨rfl, -⟩ := List.cons.inj hw
      simp [crosses] at hc
  | one k =>
    simp only [crosses] at hc
    simp [rests, hc] at h
  | many k =>
    simp only [crosses] at hc
    rw [rests_many_cons, hc, if_neg (by simp), List.mem_singleton] at h
    exact ⟨h, rfl⟩
  | wordEnd =>
    have hword : CharSet.word.mem '\n' = false := by decide
    simp only [rests, hword, Bool.false_eq_true, if_false, List.mem_singleton] at h
    exact ⟨h, rfl⟩
  | textEnd => simp [rests] at h
  | seq p q ihp ihq =>
    simp only [crosses, Bool.or_eq_false_iff, Bool.and_eq_false_iff] at hc
    simp only [rests, List.mem_flatMap] at h
    obtain ⟨m, hm, hr⟩ := h
    obtain ⟨rfl, hp⟩ := ihp hc.1 hm
    obtain ⟨hr, hq⟩ := ihq (hc.2.resolve_left (by simp [hp])) hr
    exact ⟨hr, by simp [idles, hp, hq]⟩
  | either p q ihp ihq =>
    simp only [crosses, Bool.or_eq_false_iff] at hc
    rcases List.mem_append.1 h with h | h
    · obtain ⟨hr, hp⟩ := ihp hc.1 h
      exact ⟨hr, by simp [idles, hp]⟩
    · obtain ⟨hr, hq⟩ := ihq hc.2 h
      exact ⟨hr, by simp [idles, hq]⟩

theorem rests_of_avoids (h : p.avoids = true) (v : List Char) : p.rests ('\n' :: v) = [] := by
  simp only [avoids, Bool.and_eq_true, Bool.not_eq_true'] at h
  rw [List.eq_nil_iff_forall_not_mem]
  intro r hr
  have := (rests_at_newline h.2 hr).2
  simp [h.1] at this

/-! ## In a converted text -/

theorem strip_withReturns (hn : '\n' ∉ w) (hr : '\r' ∉ w) (s : List Char) :
    strip w (withReturns s) = (strip w s).map withReturns := by
  induction w generalizing s with
  | nil => rfl
  | cons c w ih =>
    rw [List.mem_cons, not_or] at hn hr
    cases s with
    | nil => rfl
    | cons d s =>
      by_cases hd : d = '\n'
      · rw [hd, withReturns_newline, strip, strip, if_neg (Ne.symm hr.1), if_neg (Ne.symm hn.1)]
        rfl
      · rw [withReturns_cons hd, strip, strip]
        split_ifs
        · exact ih hn.2 hr.2 s
        · rfl

/-- a run ends in the converted text where it ends in the original, and within the breaks that it takes -/
theorem filter_many_withReturns (h : takesPairs k = true) (s : List Char) :
    ((many k).rests (withReturns s)).filter (fun r => !torn r) = ((many k).rests s).map withReturns := by
  induction s with
  | nil => rfl
  | cons c s ih =>
    by_cases hc : c = '\n'
    · subst hc
      have hwhole : torn ('\r' :: '\n' :: withReturns s) = false := rfl
      rw [withReturns_newline, rests_many_cons, rests_many_cons, rests_many_cons]
      -- the set takes both characters, only the return, or neither of them
      cases hn : k.mem '\n' <;> cases hr : k.mem '\r'
      · simp [hwhole, withReturns_newline]
      · simp [hwhole, torn_newline, withReturns_newline]
      · simp [takesPairs, hn, hr] at h
      · simp [hwhole, torn_newline, withReturns_newline, ih]
    · have hwhole : torn (c :: withReturns s) = false := torn_cons hc _
      rw [withReturns_cons hc, rests_many_cons, rests_many_cons]
      cases hk : k.mem c <;> simp [hwhole, withReturns_cons hc, ih]

/-- the same for a run of at least one character -/
theorem filter_run_withReturns (h : takesPairs k = true) (s : List Char) :
    ((atLeastOne k).rests (withReturns s)).filter (fun r => !torn r) = ((atLeastOne k).rests s).map withReturns := by
  cases s with
  | nil => rfl
  | cons c s =>
    by_cases hc : c = '\n'
    · subst hc
      rw [withReturns_newline, rests_run_cons, rests_run_cons, rests_many_cons]
      cases hn : k.mem '\n' <;> cases hr : k.mem '\r'
      · simp
      · simp [torn_newline]
      · simp [takesPairs, hn, hr] at h
      · simp [torn_newline, filter_many_withReturns h]
    · rw [withReturns_cons hc, rests_run_cons, rests_run_cons]
      cases hk : k.mem c <;> simp [filter_many_withReturns h]

theorem tears_of_torn_many (hr : r ∈ (many k).rests (withReturns s)) (ht : torn r = true) : k.mem '\r' = true := by
  induction s with
  | nil =>
    simp only [withReturns, rests, runRests, List.mem_singleton] at hr
    simp [hr, torn] at ht
  | cons c s ih =>
    by_cases hc : c = '\n'
    · subst hc
      rw [withReturns_newline, rests_many_cons] at hr
      cases hm : k.mem '\r'
      · rw [hm, if_neg (by simp), List.mem_singleton] at hr
        simp [hr, torn] at ht
      · rfl
    · rw [withReturns_cons hc, rests_many_cons] at hr
      split_ifs at hr
      · rcases List.mem_append.1 hr with hr | hr
        · exact ih hr
        · rw [List.mem_singleton.1 hr, torn_cons hc] at ht
          simp at ht
      · rw [List.mem_singleton.1 hr, torn_cons hc] at ht
        simp at ht

/-- parts that give nothing where an element is dropped do not notice that it is -/
theorem flatMap_filter_of_nil {α β : Type} {l : List α} {f : α → List β} {keep : α → Bool}
    (h : ∀ x ∈ l, keep x = false → f x = []) : (l.filter keep).flatMap f = l.flatMap f := by
  induction l with
  | nil => rfl
  | cons x l ih =>
    have ih := ih fun y hy => h y (List.mem_cons_of_mem _ hy)
    cases hx : keep x with
    | true => rw [List.filter_cons_of_pos hx, List.flatMap_cons, List.flatMap_cons, ih]
    | false =>
      rw [List.filter_cons_of_neg (by simp [hx]), List.flatMap_cons, ih, h x List.mem_cons_self hx, List.nil_append]

theorem whole_of_mem_map {l : List (List Char)} (hr : r ∈ l.map withReturns) : torn r = false := by
  obtain ⟨s, -, rfl⟩ := List.mem_map.1 hr
  exact torn_withReturns s

theorem filter_map_withReturns (l : List (List Char)) :
    (l.map withReturns).filter (fun r => !torn r) = l.map withReturns := by
  rw [List.filter_eq_self]
  intro r hr
  rw [whole_of_mem_map hr]
  rfl

theorem rests_one_withReturns (hn : k.mem '\n' = false) (hr : k.mem '\r' = false) (s : List Char) :
    (one k).rests (withReturns s) = ((one k).rests s).map withReturns := by
  cases s with
  | nil => rfl
  | cons c s =>
    by_cases hc : c = '\n'
    · rw [hc, withReturns_newline, rests, rests, hn, hr]
      rfl
    · rw [withReturns_cons hc, rests, rests]
      split_ifs <;> rfl

theorem rests_wordEnd_withReturns (s : List Char) :
    wordEnd.rests (withReturns s) = (wordEnd.rests s).map withReturns := by
  have hn : CharSet.word.mem '\n' = false := by decide
  have hr : CharSet.word.mem '\r' = false := by decide
  cases s with
  | nil => rfl
  | cons c s =>
    by_cases hc : c = '\n'
    · subst hc
      rw [withReturns_newline, rests, rests, hn, hr]
      simp [withReturns_newline]
    · rw [withReturns_cons hc, rests, rests]
      split_ifs <;> simp [withReturns_cons hc]

theorem rests_textEnd_withReturns (s : List Char) :
    textEnd.rests (withReturns s) = (textEnd.rests s).map withReturns := by
  cases s with
  | nil => rfl
  | cons c s =>
    by_cases hc : c = '\n'
    · rw [hc, withReturns_newline]
      rfl
    · rw [withReturns_cons hc]
      rfl

theorem tears_of_torn_run (hr : r ∈ (atLeastOne k).rests (withReturns s)) (ht : torn r = true) :
    k.mem '\r' = true := by
  cases s with
  | nil => simp [withReturns, atLeastOne, rests] at hr
  | cons c s =>
    by_cases hc : c = '\n'
    · rw [hc, withReturns_newline, rests_run_cons] at hr
      split_ifs at hr with hm
      · exact hm
      · simp at hr
    · rw [withReturns_cons hc, rests_run_cons] at hr
      split_ifs at hr
      · exact tears_of_torn_many hr ht
      · simp at hr

theorem eq_run_of_isRun (h : isRun p q = true) : ∃ k, p = one k ∧ q = many k ∧ takesPairs k = true := by
  cases p <;> cases q <;> simp [isRun] at h
  case one.many k k' => exact ⟨k, rfl, by rw [h.1], h.2⟩

/-- what it takes for a pattern to be steady on one text -/
def SteadyOn (p : Pattern) (s : List Char) : Prop :=
  (p.rests (withReturns s)).filter (fun r => !torn r) = (p.rests s).map withReturns ∧
    ∀ r ∈ p.rests (withReturns s), torn r = true → p.tears = true

theorem steadyOn_of_map (h : p.rests (withReturns s) = (p.rests s).map withReturns) : p.SteadyOn s := by
  unfold SteadyOn
  rw [h]
  refine ⟨filter_map_withReturns _, fun r hr ht => ?_⟩
  rw [whole_of_mem_map hr] at ht
  simp at ht

theorem SteadyOn.mem (h : p.SteadyOn s) (hr : r ∈ p.rests (withReturns s)) (ht : torn r = false) :
    ∃ r' ∈ p.rests s, withReturns r' = r := by
  have hmem : r ∈ (p.rests (withReturns s)).filter fun r => !torn r := List.mem_filter.2 ⟨hr, by simp [ht]⟩
  rw [h.1] at hmem
  exact List.mem_map.1 hmem

/-- behind a part that may tear a break, nothing must go on from inside of it -/
theorem SteadyOn.seq (hp : p.SteadyOn s) (hq : ∀ r ∈ p.rests s, q.SteadyOn r)
    (hpq : p.tears = false ∨ q.crosses = false) : (p.seq q).SteadyOn s := by
  have hinside : ∀ x ∈ p.rests (withReturns s), torn x = true → ∀ r ∈ q.rests x, r = x ∧ p.tears = true ∧ q.idles = true := by
    intro x hx htx r hr
    have hptears := hp.2 x hx htx
    obtain ⟨v, rfl⟩ := eq_newline_of_torn htx
    obtain ⟨hrx, hidles⟩ := rests_at_newline (hpq.resolve_left (by simp [hptears])) hr
    exact ⟨hrx, hptears, hidles⟩
  constructor
  · calc ((p.seq q).rests (withReturns s)).filter (fun r => !torn r)
        = (p.rests (withReturns s)).flatMap fun x => (q.rests x).filter fun r => !torn r := by
          rw [rests, List.filter_flatMap]
      _ = ((p.rests (withReturns s)).filter fun x => !torn x).flatMap fun x => (q.rests x).filter fun r => !torn r := by
          refine (flatMap_filter_of_nil fun x hx htx => ?_).symm
          rw [Bool.not_eq_false'] at htx
          rw [List.filter_eq_nil_iff]
          intro r hr
          rw [(hinside x hx htx r hr).1, htx]
          simp
      _ = (p.rests s).flatMap fun r => (q.rests r).map withReturns := by
          rw [hp.1, List.flatMap_map]
          exact List.flatMap_congr fun r hr => (hq r hr).1
      _ = ((p.seq q).rests s).map withReturns := by rw [rests, List.map_flatMap]
  · intro r hr htr
    obtain ⟨x, hx, hrx⟩ := List.mem_flatMap.1 hr
    cases htx : torn x with
    | false =>
      obtain ⟨x', hx', rfl⟩ := hp.mem hx htx
      simp [tears, (hq x' hx').2 r hrx htr]
    | true =>
      obtain ⟨-, hptears, hidles⟩ := hinside x hx htx r hrx
      simp [tears, hptears, hidles]

theorem SteadyOn.either (hp : p.SteadyOn s) (hq : q.SteadyOn s) : (p.either q).SteadyOn s := by
  refine ⟨by simp only [rests, List.filter_append, List.map_append, hp.1, hq.1], fun r hr ht => ?_⟩
  rcases List.mem_append.1 hr with hr | hr
  · simp [tears, hp.2 r hr ht]
  · simp [tears, hq.2 r hr ht]

/-- **Steady patterns.** What a steady pattern leaves of a converted text is, apart from torn rests, the conversion of
what it leaves of the original, in the same order; and there are torn rests only if it may tear a break. -/
theorem steadyOn (h : p.steady = true) (s : List Char) : p.SteadyOn s := by
  induction p generalizing s with
  | nothing => exact steadyOn_of_map rfl
  | text w =>
    simp only [steady, Bool.and_eq_true, Bool.not_eq_true', List.contains_eq_mem, decide_eq_false_iff_not] at h
    refine steadyOn_of_map ?_
    rw [rests, rests, strip_withReturns h.1 h.2]
    cases strip w s <;> rfl
  | one k =>
    simp only [steady, Bool.and_eq_true, Bool.not_eq_true'] at h
    exact steadyOn_of_map (rests_one_withReturns h.1 h.2 s)
  | many k => exact ⟨filter_many_withReturns h s, fun r hr ht => tears_of_torn_many hr ht⟩
  | wordEnd => exact steadyOn_of_map (rests_wordEnd_withReturns s)
  | textEnd => exact steadyOn_of_map (rests_textEnd_withReturns s)
  | seq p q ihp ihq =>
    simp only [steady, Bool.or_eq_true, Bool.and_eq_true, Bool.not_eq_true'] at h
    rcases h with ⟨⟨hp, hq⟩, hpq⟩ | hrun
    · exact (ihp hp s).seq (fun r _ => ihq hq r) hpq
    · obtain ⟨k, rfl, rfl, hk⟩ := eq_run_of_isRun hrun
      refine ⟨filter_run_withReturns hk s, fun r hr ht => ?_⟩
      simp [tears, tears_of_torn_run hr ht]
  | either p q ihp ihq =>
    simp only [steady, Bool.and_eq_true] at h
    exact (ihp h.1 s).either (ihq h.2 s)

/-- a steady pattern that never tears a break leaves the conversions and nothing else -/
theorem rests_withReturns (h : p.steady = true) (ht : p.tears = false) (s : List Char) :
    p.rests (withReturns s) = (p.rests s).map withReturns := by
  obtain ⟨hfilter, htears⟩ := steadyOn h s
  rw [← hfilter, eq_comm, List.filter_eq_self]
  intro r hr
  rw [Bool.not_eq_true', ← Bool.not_eq_true]
  intro htorn
  rw [htears r hr htorn] at ht
  simp at ht

theorem first?_withReturns (h : p.steady = true) (ht : p.tears = false) (s : List Char) :
    p.first? (withReturns s) = (p.first? s).map withReturns := by
  rw [first?, first?, rests_withReturns h ht, List.head?_map]

/-! ## Occurring -/

theorem startsAt_many (k : CharSet) (s : List Char) : (many k).startsAt s = true := by
  rw [startsAt_iff]
  exact ⟨s, by simp [rests, mem_runRests]⟩

theorem startsAt_of_map (h : p.rests (withReturns s) = (p.rests s).map withReturns) :
    p.startsAt (withReturns s) = p.startsAt s := by
  rw [startsAt, startsAt, h]
  cases p.rests s <;> rfl

theorem startsAt_seq_many (p : Pattern) (k : CharSet) (s : List Char) : (p.seq (many k)).startsAt s = p.startsAt s := by
  rw [startsAt_eq_any, startsAt, funext (startsAt_many k)]
  cases p.rests s <;> simp

theorem startsAt_seq_withReturns (hp : p.SteadyOn s) (hq : ∀ r, q.startsAt (withReturns r) = q.startsAt r)
    (hpq : p.tears = false ∨ q.avoids = true) : (p.seq q).startsAt (withReturns s) = (p.seq q).startsAt s := by
  rw [startsAt_eq_any, startsAt_eq_any, Bool.eq_iff_iff, List.any_eq_true, List.any_eq_true]
  constructor
  · rintro ⟨x, hx, hstart⟩
    cases htx : torn x with
    | false =>
      obtain ⟨r, hr, rfl⟩ := hp.mem hx htx
      exact ⟨r, hr, by rwa [hq] at hstart⟩
    | true =>
      -- a torn rest is left for `q`, which cannot start there
      have havoids := hpq.resolve_left (by simp [hp.2 x hx htx])
      obtain ⟨v, rfl⟩ := eq_newline_of_torn htx
      simp [startsAt, rests_of_avoids havoids] at hstart
  · rintro ⟨r, hr, hstart⟩
    have hmem : withReturns r ∈ (p.rests (withReturns s)).filter fun r => !torn r := by
      rw [hp.1]
      exact List.mem_map_of_mem hr
    exact ⟨withReturns r, (List.mem_filter.1 hmem).1, by rwa [hq]⟩

theorem startsAt_withReturns (h : p.alike = true) (s : List Char) : p.startsAt (withReturns s) = p.startsAt s := by
  induction p generalizing s with
  | nothing => rfl
  | text w => exact startsAt_of_map (rests_withReturns (p := text w) h rfl s)
  | one k =>
    simp only [alike, beq_iff_eq] at h
    cases s with
    | nil => rfl
    | cons c s =>
      by_cases hc : c = '\n'
      · subst hc
        rw [withReturns_newline, startsAt, startsAt, rests, rests, h]
        split_ifs <;> rfl
      · rw [withReturns_cons hc, startsAt, startsAt, rests, rests]
        split_ifs <;> rfl
  | many k => rw [startsAt_many, startsAt_many]
  | wordEnd => exact startsAt_of_map (rests_wordEnd_withReturns s)
  | textEnd => exact startsAt_of_map (rests_textEnd_withReturns s)
  | seq p q ihp ihq =>
    simp only [alike, Bool.or_eq_true, Bool.and_eq_true, Bool.not_eq_true'] at h
    rcases h with ⟨hp, hq⟩ | ⟨⟨hp, hq⟩, hpq⟩
    · cases q with
      | many k => rw [startsAt_seq_many, startsAt_seq_many, ihp hp]
      | _ => simp [isMany] at hq
    · exact startsAt_seq_withReturns (steadyOn hp s) (ihq hq) hpq
  | either p q ihp ihq =>
    simp only [alike, Bool.and_eq_true] at h
    rw [startsAt_either, startsAt_either, ihp h.1, ihq h.2]

theorem startsAt_of_avoids (h : p.avoids = true) (v : List Char) : p.startsAt ('\n' :: v) = false := by
  simp [startsAt, rests_of_avoids h]

/-- **An indifferent pattern occurs in both texts or in neither.** -/
theorem occursIn_withReturns (h : p.indifferent = true) (s : List Char) : p.occursIn (withReturns s) = p.occursIn s := by
  rw [indifferent, Bool.and_eq_true] at h
  induction s with
  | nil => rfl
  | cons c s ih =>
    have hstart := startsAt_withReturns h.1 (c :: s)
    by_cases hc : c = '\n'
    · subst hc
      rw [withReturns_newline] at hstart ⊢
      rw [occursIn, occursIn, occursIn, hstart, startsAt_of_avoids h.2, startsAt_of_avoids h.2, ih, Bool.false_or]
    · rw [withReturns_cons hc] at hstart ⊢
      rw [occursIn, occursIn, hstart, ih]

end Pattern

/-! ## Scanning -/

section

variable {α : Type} {next : List Char → Option (α × List Char)}
  {progress : ∀ s a r, next s = some (a, r) → r.length < s.length}

/-- A scan finds the same in a converted text, if its steps leave the conversion of what they leave in the original and
recognise nothing at a newline. -/
theorem scan_withReturns (hnext : ∀ s, next (withReturns s) = (next s).map fun m => (m.1, withReturns m.2))
    (hnewline : ∀ v, next ('\n' :: v) = none) (s : List Char) :
    scan next progress (withReturns s) = scan next progress s := by
  induction hn : s.length using Nat.strong_induction_on generalizing s with
  | _ n ih =>
    cases s with
    | nil => rfl
    | cons c t =>
      have hct := hnext (c :: t)
      cases h : next (c :: t) with
      | some m =>
        have hlt := progress _ m.1 m.2 h
        rw [h, Option.map_some] at hct
        rw [scan_of_some h, ← ih _ (hn ▸ hlt) m.2 rfl]
        obtain ⟨d, u, hdu⟩ : ∃ d u, withReturns (c :: t) = d :: u := by
          rw [withReturns]
          split_ifs <;> exact ⟨_, _, rfl⟩
        rw [hdu] at hct ⊢
        exact scan_of_some hct
      | none =>
        have hlt : t.length < n := hn ▸ Nat.lt_succ_self _
        rw [h, Option.map_none] at hct
        rw [scan_of_none h, ← ih _ hlt t rfl]
        by_cases hc : c = '\n'
        · subst hc
          rw [withReturns_newline] at hct ⊢
          rw [scan_of_none hct, scan_of_none (hnewline _)]
        · rw [withReturns_cons hc] at hct ⊢
          exact scan_of_none hct

end

namespace Marker

/-- has as many occurrences in a converted text as in the original -/
def indifferent (m : Marker) : Bool := m.pattern.steady && !m.pattern.tears && m.pattern.avoids

/-- **Occurrences are counted alike.** -/
theorem count_withReturns {m : Marker} (h : m.indifferent = true) (s : List Char) :
    m.count (withReturns s) = m.count s := by
  simp only [indifferent, Bool.and_eq_true, Bool.not_eq_true'] at h
  have hnext : ∀ s, m.next (withReturns s) = (m.next s).map fun x => (x.1, withReturns x.2) := by
    intro s
    rw [next, next, Pattern.first?_withReturns h.1.1 h.1.2, Option.map_map, Option.map_map]
    rfl
  have hnewline : ∀ v, m.next ('\n' :: v) = none := by
    intro v
    rw [next, Pattern.first?, Pattern.rests_of_avoids h.2]
    rfl
  rw [count, count, scan_withReturns hnext hnewline]

end Marker

/-! ## Tokens -/

namespace Pattern

variable {p q : Pattern} {k : CharSet}

/-- takes no character of a line break -/
def plain : Pattern → Bool
  | nothing | wordEnd | textEnd => true
  | text w => !w.contains '\n' && !w.contains '\r'
  | one k | many k => !k.mem '\n' && !k.mem '\r'
  | seq p q | either p q => p.plain && q.plain

theorem runSplits_withReturns (hn : k.mem '\n' = false) (hr : k.mem '\r' = false) (s : List Char) :
    runSplits k (withReturns s) = (runSplits k s).map fun m => (m.1, withReturns m.2) := by
  induction s with
  | nil => rfl
  | cons c s ih =>
    by_cases hc : c = '\n'
    · subst hc
      simp [withReturns_newline, runSplits, hn, hr]
    · rw [withReturns_cons hc, runSplits, runSplits, ih]
      split_ifs <;> simp [withReturns_cons hc, Function.comp_def]

/-- a plain pattern takes the same off the front of both texts -/
theorem splits_withReturns (h : p.plain = true) (s : List Char) :
    p.splits (withReturns s) = (p.splits s).map fun m => (m.1, withReturns m.2) := by
  induction p generalizing s with
  | nothing => rfl
  | text w =>
    simp only [plain, Bool.and_eq_true, Bool.not_eq_true', List.contains_eq_mem, decide_eq_false_iff_not] at h
    rw [splits, splits, strip_withReturns h.1 h.2]
    cases strip w s <;> rfl
  | one k =>
    simp only [plain, Bool.and_eq_true, Bool.not_eq_true'] at h
    cases s with
    | nil => rfl
    | cons c s =>
      by_cases hc : c = '\n'
      · subst hc
        rw [withReturns_newline, splits, splits, h.1, h.2]
        rfl
      · rw [withReturns_cons hc, splits, splits]
        split_ifs <;> rfl
  | many k =>
    simp only [plain, Bool.and_eq_true, Bool.not_eq_true'] at h
    exact runSplits_withReturns h.1 h.2 s
  | wordEnd => simp [splits, rests_wordEnd_withReturns, Function.comp_def]
  | textEnd => simp [splits, rests_textEnd_withReturns, Function.comp_def]
  | seq p q ihp ihq =>
    simp only [plain, Bool.and_eq_true] at h
    simp only [splits, ihp h.1, ihq h.2, List.flatMap_map, List.map_flatMap, List.map_map, Function.comp_def]
  | either p q ihp ihq =>
    simp only [plain, Bool.and_eq_true] at h
    simp only [splits, ihp h.1, ihq h.2, List.map_append]

theorem splits_of_avoids (h : p.avoids = true) (v : List Char) : p.splits ('\n' :: v) = [] := by
  rw [← List.map_eq_nil_iff (f := Prod.snd), map_snd_splits, rests_of_avoids h]

/-! What a pattern prefers to leave. -/

theorem first?_seq (p q : Pattern) (s : List Char) : (p.seq q).first? s = (p.rests s).findSome? q.first? := by
  rw [first?, rests, List.head?_flatMap]
  rfl

theorem first?_many (k : CharSet) (s : List Char) : (many k).first? s = some (s.dropWhile k.mem) := by
  induction s with
  | nil => rfl
  | cons c s ih =>
    rw [first?, rests_many_cons]
    cases hk : k.mem c with
    | true =>
      rw [first?] at ih
      simp [hk, ih]
    | false => simp [hk]

/-- a run in front of something optional is taken whole -/
theorem first?_many_seq (k : CharSet) (hq : ∀ s, (q.first? s).isSome = true) (s : List Char) :
    ((many k).seq q).first? s = q.first? (s.dropWhile k.mem) := by
  have hfirst := first?_many k s
  rw [first?] at hfirst
  obtain ⟨r, hr⟩ := Option.isSome_iff_exists.1 (hq (s.dropWhile k.mem))
  rw [first?_seq]
  cases h : (many k).rests s with
  | nil => simp [h] at hfirst
  | cons x l =>
    rw [h, List.head?_cons, Option.some.injEq] at hfirst
    rw [hfirst, List.findSome?_cons, hr]

theorem dropWhile_withReturns (h : k.mem '\n' = k.mem '\r') (s : List Char) :
    (withReturns s).dropWhile k.mem = withReturns (s.dropWhile k.mem) := by
  induction s with
  | nil => rfl
  | cons c s ih =>
    by_cases hc : c = '\n'
    · subst hc
      rw [withReturns_newline]
      cases hr : k.mem '\r' with
      | true => simp [h, hr, ih]
      | false => simp [h, hr, withReturns_newline]
    · rw [withReturns_cons hc]
      cases hk : k.mem c with
      | true => simp [hk, ih]
      | false => simp [hk, withReturns_cons hc]

end Pattern

namespace Extractor

variable {e : Extractor}

/-- finds the same tokens in a converted text, as far as the trail allows -/
def indifferent (e : Extractor) : Bool := e.lead.steady && e.lead.avoids && e.token.plain && e.token.avoids

/-- a step of an extractor: the first way to take lead and token off the front that the trail can follow -/
theorem next_eq (e : Extractor) (s : List Char) :
    e.next s = ((e.lead.rests s).flatMap e.token.splits).findSome? fun m =>
      (e.trail.first? m.2).map fun r => (m.1, r) := by
  rw [next, ← List.flatMap_assoc, List.head?_flatMap]
  simp only [List.head?_map, Pattern.first?]

theorem next_withReturns (hlead : e.lead.steady = true) (htoken : e.token.plain = true) (havoids : e.token.avoids = true)
    (htrail : ∀ s, e.trail.first? (withReturns s) = (e.trail.first? s).map withReturns) (s : List Char) :
    e.next (withReturns s) = (e.next s).map fun m => (m.1, withReturns m.2) := by
  have hways : (e.lead.rests (withReturns s)).flatMap e.token.splits =
      ((e.lead.rests s).flatMap e.token.splits).map fun m => (m.1, withReturns m.2) := by
    have hinside : ∀ x ∈ e.lead.rests (withReturns s), (!torn x) = false → e.token.splits x = [] := by
      intro x _ htx
      obtain ⟨v, rfl⟩ := eq_newline_of_torn (by simpa using htx)
      exact Pattern.splits_of_avoids havoids v
    rw [← Pattern.flatMap_filter_of_nil hinside, (Pattern.steadyOn hlead s).1, List.flatMap_map, List.map_flatMap]
    simp only [Pattern.splits_withReturns htoken]
  rw [next_eq, next_eq, hways, List.findSome?_map, List.map_findSome?]
  simp only [Function.comp_def, htrail, Option.map_map]

/-- **The same tokens are found.** -/
theorem tokens_withReturns (h : e.indifferent = true)
    (htrail : ∀ s, e.trail.first? (withReturns s) = (e.trail.first? s).map withReturns) (s : List Char) :
    e.tokens (withReturns s) = e.tokens s := by
  simp only [indifferent, Bool.and_eq_true] at h
  obtain ⟨⟨⟨hlead, hstart⟩, htoken⟩, havoids⟩ := h
  refine scan_withReturns (next_withReturns hlead htoken havoids htrail) (fun v => ?_) s
  rw [next_eq, Pattern.rests_of_avoids hstart]
  rfl

end Extractor

end AppAudit
