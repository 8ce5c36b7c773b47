/-
The letter case of hexadecimal colors.

Two texts that differ in the case of digits in their colors (`Recased`) are read side by side. A pattern is blind to such
differences if whatever it takes off one text it takes off the other one as well, and what is left is side by side again
(`Pattern.Blind`). Being blind is composed like patterns are; what has to be looked at are the fixed texts in them. A color
that is written in digits only, or a word that no color can run into, is the same in both texts. A color that is written
with letters is not, and five rules look for some of these in one case only. So a `Reserve` names the colors that have to
keep their spelling for a rule, and says whether that is asked of colors that run on into a word, too.

Main results:
- `colors_in_either_case`: how far five rules on colors do not depend on the case of digits;
- `colors_in_one_case`: four of them depend on it for the colors that they name.
-/
import Mathlib.Tactic
import AppAudit.Proofs.Saturation
import AppAudit.Proofs.Surroundings

namespace AppAudit

open CharSet (hexDigit)

/-! ## Texts side by side -/

/-- the same hexadecimal digit, in the same case or not -/
structure SameDigit (c d : Char) : Prop where
  left : hexDigit.mem c = true
  right : hexDigit.mem d = true
  lower : c.toLower = d.toLower

/-- the digits that the text begins with, if any, go over into a word -/
def runsOn (s : List Char) : Bool := (s.dropWhile hexDigit.mem).head?.any Char.isAlpha

/-- which colors keep their spelling -/
structure Reserve where
  /-- the digits of these colors, in lower case -/
  kept : List String := []
  /-- colors that run on into a word -/
  words : Bool := false

/-- the digits of a color may be written in either case, given the text behind it -/
structure Reserve.Frees (r : Reserve) (digits rest : List Char) : Prop where
  other : String.ofList (digits.map Char.toLower) ∉ r.kept
  apart : r.words = true → runsOn rest = false

/-- the same text up to the letter case of hexadecimal digits in colors that do not keep their spelling -/
inductive Recased (r : Reserve) : List Char → List Char → Prop where
  | nil : Recased r [] []
  | keep (c : Char) {s t : List Char} : Recased r s t → Recased r (c :: s) (c :: t)
  | color {digits digits' s t : List Char} : digits.length = 6 → List.Forall₂ SameDigit digits digits' →
      r.Frees digits s → Recased r s t → Recased r ('#' :: (digits ++ s)) ('#' :: (digits' ++ t))

variable {r : Reserve} {c d : Char} {s t a digits digits' rest : List Char}

theorem SameDigit.symm (h : SameDigit c d) : SameDigit d c := ⟨h.right, h.left, h.lower.symm⟩

/-- what holds of all hexadecimal digits, one by one -/
theorem of_hexDigit {P : Char → Bool} (h : "0123456789ABCDEFabcdef".toList.all P = true) (hc : hexDigit.mem c = true) :
    P c = true := by
  have hlisted : c ∈ "0123456789ABCDEFabcdef".toList :=
    of_ascii (P := fun c => hexDigit.mem c = true → c ∈ "0123456789ABCDEFabcdef".toList) (by decide)
      (toNat_lt_of_hexDigit hc) hc
  exact List.all_eq_true.1 h c hlisted

theorem hexDigit_of_forall₂ (h : List.Forall₂ SameDigit digits digits') : ∀ d ∈ digits, hexDigit.mem d = true := by
  induction h with
  | nil => simp
  | cons hcd _ ih =>
    intro d hd
    rcases List.mem_cons.1 hd with rfl | hd
    · exact hcd.left
    · exact ih d hd

theorem map_toLower_of_forall₂ (h : List.Forall₂ SameDigit digits digits') :
    digits.map Char.toLower = digits'.map Char.toLower := by
  induction h with
  | nil => rfl
  | cons hcd _ ih => rw [List.map_cons, List.map_cons, hcd.lower, ih]

/-- digits have no case -/
theorem eq_of_isDigit (h : List.Forall₂ SameDigit digits digits') (hplain : ∀ d ∈ digits, d.isDigit = true) :
    digits' = digits := by
  have hlower (d : Char) (hd : hexDigit.mem d = true) : d.isDigit = true ∨ d.toLower.isDigit = true → d.toLower = d := by
    apply of_decide_eq_true
    exact of_hexDigit (P := fun d => d.isDigit = true ∨ d.toLower.isDigit = true → d.toLower = d) (by decide) hd
  induction h with
  | nil => rfl
  | @cons c d ds ds' hcd _ ih =>
    rw [List.forall_mem_cons] at hplain
    have hc : c.toLower = c := hlower c hcd.left (Or.inl hplain.1)
    have hd : d.toLower = c := hcd.lower.symm.trans hc
    have hsame : d.toLower = d := hlower d hcd.right (Or.inr (hd.symm ▸ hplain.1))
    rw [ih hplain.2, ← hsame, hd]

/-- digits in front of a text make no difference to where it runs on to -/
theorem runsOn_digits (h : ∀ d ∈ digits, hexDigit.mem d = true) (s : List Char) : runsOn (digits ++ s) = runsOn s := by
  rw [runsOn, runsOn, List.dropWhile_append_of_pos h]

theorem runsOn_append (h : runsOn s = true) (t : List Char) : runsOn (s ++ t) = true := by
  induction s with
  | nil => simp [runsOn] at h
  | cons c s ih =>
    rw [List.cons_append]
    by_cases hc : hexDigit.mem c = true
    · rw [runsOn, List.dropWhile_cons_of_pos hc] at h ⊢
      exact ih h
    · rw [runsOn, List.dropWhile_cons_of_neg hc] at h ⊢
      exact h

namespace Recased

theorem runsOn_eq (h : Recased r s t) : runsOn s = runsOn t := by
  induction h with
  | nil => rfl
  | keep c _ ih =>
    by_cases hc : hexDigit.mem c = true
    · rw [runsOn, runsOn, List.dropWhile_cons_of_pos hc, List.dropWhile_cons_of_pos hc]
      exact ih
    · rw [runsOn, runsOn, List.dropWhile_cons_of_neg hc, List.dropWhile_cons_of_neg hc]
      rfl
  | color => rfl

theorem symm (h : Recased r s t) : Recased r t s := by
  induction h with
  | nil => exact .nil
  | keep c _ ih => exact .keep c ih
  | @color digits digits' s t hlength hdigits hfree hrest ih =>
    have hback : List.Forall₂ SameDigit digits' digits := by
      apply List.Forall₂.flip
      exact hdigits.imp fun _ _ h => h.symm
    refine .color (hdigits.length_eq ▸ hlength) hback ⟨?_, fun hwords => ?_⟩ ih
    · rw [map_toLower_of_forall₂ hback]
      exact hfree.other
    · rw [← hrest.runsOn_eq]
      exact hfree.apart hwords

theorem cons_cases (h : Recased r (c :: s) t) :
    (∃ t', t = c :: t' ∧ Recased r s t') ∨
    c = '#' ∧ ∃ digits digits' u v, s = digits ++ u ∧ t = '#' :: (digits' ++ v) ∧ digits.length = 6 ∧
      List.Forall₂ SameDigit digits digits' ∧ r.Frees digits u ∧ Recased r u v := by
  cases h with
  | keep _ h => exact Or.inl ⟨_, rfl, h⟩
  | color hlength hdigits hfree hrest =>
    exact Or.inr ⟨rfl, _, _, _, _, rfl, rfl, hlength, hdigits, hfree, hrest⟩

/-- what holds no number sign is the same in both texts -/
theorem of_noSign (ha : '#' ∉ a) (h : Recased r (a ++ s) t) : ∃ u, t = a ++ u ∧ Recased r s u := by
  induction a generalizing t with
  | nil => exact ⟨t, rfl, h⟩
  | cons c a ih =>
    rw [List.mem_cons, not_or] at ha
    rw [List.cons_append] at h
    rcases h.cons_cases with ⟨t', rfl, hrest⟩ | ⟨rfl, -⟩
    · obtain ⟨u, rfl, hu⟩ := ih ha.2 hrest
      exact ⟨u, rfl, hu⟩
    · exact absurd rfl ha.1

end Recased

/-- two such texts from the same position on, which may lie among the digits of a color -/
inductive Aligned (r : Reserve) (s t : List Char) : Prop where
  | text : Recased r s t → Aligned r s t
  | digits (before : List Char) {digits digits' u v : List Char} : s = digits ++ u → t = digits' ++ v → digits ≠ [] →
      List.Forall₂ SameDigit digits digits' → r.Frees (before ++ digits) u → Recased r u v → Aligned r s t

namespace Aligned

/-- one character further on -/
theorem tail (h : Aligned r (c :: s) t) : ∃ d t', t = d :: t' ∧ (c = d ∨ SameDigit c d) ∧ Aligned r s t' := by
  cases h with
  | text h =>
    rcases h.cons_cases with ⟨t', rfl, hs⟩ | ⟨rfl, digits, digits', u, v, rfl, rfl, hlength, hdigits, hfree, hu⟩
    · exact ⟨c, t', rfl, Or.inl rfl, .text hs⟩
    · have hne : digits ≠ [] := List.ne_nil_of_length_pos (hlength ▸ by decide)
      exact ⟨'#', digits' ++ v, rfl, Or.inl rfl, .digits [] rfl rfl hne hdigits hfree hu⟩
  | @digits before digits digits' u v hs ht hne hdigits hfree h =>
    cases hdigits with
    | nil => exact absurd rfl hne
    | @cons c' d ds ds' hcd hrest =>
      obtain ⟨rfl, rfl⟩ := List.cons.inj hs
      refine ⟨d, ds' ++ v, ht, Or.inr hcd, ?_⟩
      by_cases hds : ds = []
      · subst hds
        cases hrest
        exact .text h
      · refine .digits (before ++ [c]) rfl rfl hds hrest ?_ h
        rwa [List.append_assoc, List.singleton_append]

theorem append (h : Aligned r (a ++ s) t) : ∃ b u, t = b ++ u ∧ Aligned r s u := by
  induction a generalizing t with
  | nil => exact ⟨[], t, rfl, h⟩
  | cons c a ih =>
    obtain ⟨d, t', rfl, -, h'⟩ := h.tail
    obtain ⟨b, u, rfl, hu⟩ := ih h'
    exact ⟨d :: b, u, rfl, hu⟩

/-- what is no digit does not lie among the digits of a color -/
theorem recased_of_not_digit (hc : hexDigit.mem c = false) (h : Aligned r (c :: s) t) : Recased r (c :: s) t := by
  cases h with
  | text h => exact h
  | digits _ hs _ hne hdigits =>
    obtain ⟨d, ds, rfl⟩ := List.exists_cons_of_ne_nil hne
    obtain ⟨rfl, -⟩ := List.cons.inj hs
    have hd := hexDigit_of_forall₂ hdigits c List.mem_cons_self
    exact absurd (hc.symm.trans hd) (by decide)

/-- where colors that run on into a word keep their spelling, no word begins among the digits of one -/
theorem recased_of_runsOn (hwords : r.words = true) (hs : runsOn s = true) (h : Aligned r s t) : Recased r s t := by
  cases h with
  | text h => exact h
  | digits _ hsplit _ _ hdigits hfree =>
    rw [hsplit, runsOn_digits (hexDigit_of_forall₂ hdigits), hfree.apart hwords] at hs
    exact absurd hs (by decide)

end Aligned

/-! ## Blind patterns -/

/-- contains a digit in both cases or in none -/
def CharSet.evenHanded (k : CharSet) : Bool := "0123456789ABCDEFabcdef".toList.all fun c => k.mem c == k.mem c.toLower

theorem CharSet.mem_of_sameDigit {k : CharSet} (hk : k.evenHanded = true) (h : SameDigit c d) : k.mem c = k.mem d := by
  have hlower (c : Char) (hc : hexDigit.mem c = true) : k.mem c = k.mem c.toLower := by
    apply beq_iff_eq.1
    exact of_hexDigit (P := fun c => k.mem c == k.mem c.toLower) hk hc
  calc k.mem c = k.mem c.toLower := hlower c h.left
    _ = k.mem d.toLower := by rw [h.lower]
    _ = k.mem d := (hlower d h.right).symm

/-- a fixed text that is the same in both texts wherever it stands in one of them -/
def Reserve.settles (r : Reserve) : List Char → Bool
  | [] => false
  | '#' :: digits =>
    digits.isEmpty || digits.length == 6 && digits.all hexDigit.mem &&
      (digits.all Char.isDigit || r.kept.contains (String.ofList (digits.map Char.toLower)))
  | c :: w => !(c :: w).contains '#' && (!hexDigit.mem c || r.words && runsOn (c :: w))

namespace Pattern

/-- takes the same off both texts -/
def Blind (r : Reserve) (p : Pattern) : Prop :=
  ∀ s t rest, Aligned r s t → rest ∈ p.rests s → ∃ rest' ∈ p.rests t, Aligned r rest rest'

variable {p q : Pattern}

theorem Blind.seq (hp : p.Blind r) (hq : q.Blind r) : (p.seq q).Blind r := by
  intro s t rest h hrest
  rw [rests, List.mem_flatMap] at hrest
  obtain ⟨m, hm, hrest⟩ := hrest
  obtain ⟨m', hm', h'⟩ := hp s t m h hm
  obtain ⟨rest', hrest', h''⟩ := hq m m' rest h' hrest
  exact ⟨rest', List.mem_flatMap.2 ⟨m', hm', hrest'⟩, h''⟩

theorem Blind.either (hp : p.Blind r) (hq : q.Blind r) : (p.either q).Blind r := by
  intro s t rest h hrest
  rcases List.mem_append.1 hrest with hrest | hrest
  · obtain ⟨rest', hrest', h'⟩ := hp s t rest h hrest
    exact ⟨rest', List.mem_append_left _ hrest', h'⟩
  · obtain ⟨rest', hrest', h'⟩ := hq s t rest h hrest
    exact ⟨rest', List.mem_append_right _ hrest', h'⟩

theorem blind_nothing : nothing.Blind r := by
  intro s t rest h hrest
  rw [rests, List.mem_singleton] at hrest
  exact ⟨t, List.mem_singleton.2 rfl, hrest ▸ h⟩

theorem blind_one {k : CharSet} (hk : k.evenHanded = true) : (one k).Blind r := by
  intro s t rest h hrest
  cases s with
  | nil => simp [rests] at hrest
  | cons c s =>
    obtain ⟨d, t', rfl, hcd, h'⟩ := h.tail
    have hmem : k.mem c = k.mem d := by
      rcases hcd with rfl | hcd
      · rfl
      · exact CharSet.mem_of_sameDigit hk hcd
    simp only [rests, hmem] at hrest ⊢
    split_ifs at hrest ⊢
    · rw [List.mem_singleton] at hrest
      exact ⟨t', List.mem_singleton.2 rfl, hrest ▸ h'⟩
    · simp at hrest

theorem blind_many {k : CharSet} (hk : k.evenHanded = true) : (many k).Blind r := by
  intro s t rest h hrest
  simp only [rests, mem_runRests, List.not_mem_nil, false_or] at hrest ⊢
  obtain ⟨run, rfl, hrun⟩ := hrest
  -- the run is as long in the other text
  revert hrun
  induction run generalizing t with
  | nil => exact fun _ => ⟨t, ⟨[], rfl, by simp⟩, h⟩
  | cons c run ih =>
    intro hrun
    rw [List.forall_mem_cons] at hrun
    obtain ⟨d, t', rfl, hcd, h'⟩ := h.tail
    have hd : k.mem d = true := by
      rcases hcd with rfl | hcd
      · exact hrun.1
      · rw [← CharSet.mem_of_sameDigit hk hcd]
        exact hrun.1
    obtain ⟨rest', ⟨run', rfl, hrun'⟩, h''⟩ := ih t' h' hrun.2
    exact ⟨rest', ⟨d :: run', rfl, List.forall_mem_cons.2 ⟨hd, hrun'⟩⟩, h''⟩

/-- a fixed text that stands in both texts if it stands in one of them -/
theorem blind_text {w : List Char}
    (h : ∀ s t, Aligned r (w ++ s) t → ∃ u, t = w ++ u ∧ Aligned r s u) : (text w).Blind r := by
  intro s t rest hst hrest
  simp only [rests, Option.mem_toList, strip_eq_some] at hrest ⊢
  subst hrest
  exact h rest t hst

/-- a single character that is no digit -/
theorem blind_char (hc : hexDigit.mem c = false) : (text [c]).Blind r := by
  apply blind_text
  intro s t h
  obtain ⟨d, t', rfl, hcd, hs⟩ := h.tail
  rcases hcd with rfl | hcd
  · exact ⟨t', rfl, hs⟩
  · exact absurd (hc.symm.trans hcd.left) (by decide)

/-- a word that does not begin among the digits of a color -/
theorem blind_word {w : List Char} (hsign : '#' ∉ w) (h : ∀ s t, Aligned r (w ++ s) t → Recased r (w ++ s) t) :
    (text w).Blind r := by
  apply blind_text
  intro s t hst
  obtain ⟨u, rfl, hu⟩ := Recased.of_noSign hsign (h s t hst)
  exact ⟨u, rfl, .text hu⟩

/-- a color in digits only, or one that keeps its spelling -/
theorem blind_color (hlength : digits.length = 6) (hdigits : ∀ d ∈ digits, hexDigit.mem d = true)
    (hsettled : (∀ d ∈ digits, d.isDigit = true) ∨ String.ofList (digits.map Char.toLower) ∈ r.kept) :
    (text ('#' :: digits)).Blind r := by
  have hsign : '#' ∉ digits := fun hmem => absurd (hdigits '#' hmem) (by decide)
  apply blind_text
  intro s t h
  rw [List.cons_append] at h
  rcases (h.recased_of_not_digit (by decide)).cons_cases with
    ⟨t', rfl, hs⟩ | ⟨-, ds, ds', u, v, hs, rfl, hsix, hds, hfree, hu⟩
  · obtain ⟨u, rfl, hu⟩ := Recased.of_noSign hsign hs
    exact ⟨u, rfl, .text hu⟩
  · obtain ⟨rfl, rfl⟩ := List.append_inj hs (hlength.trans hsix.symm)
    rcases hsettled with hplain | hkept
    · rw [eq_of_isDigit hds hplain]
      exact ⟨v, rfl, .text hu⟩
    · exact absurd hkept hfree.other

/-- fewer digits than a color has, with something behind them that is no digit -/
theorem blind_short (hlength : digits.length < 6) (hsign : '#' ∉ digits) (hq : q.Blind r)
    (hstop : ∀ c s, hexDigit.mem c = true → q.rests (c :: s) = []) : ((text ('#' :: digits)).seq q).Blind r := by
  intro s t rest h hrest
  simp only [rests, Option.mem_toList, List.mem_flatMap, strip_eq_some] at hrest ⊢
  obtain ⟨m, rfl, hrest⟩ := hrest
  rw [List.cons_append] at h
  rcases (h.recased_of_not_digit (by decide)).cons_cases with
    ⟨t', rfl, hm⟩ | ⟨-, ds, ds', u, v, hm, rfl, hsix, hds, -, -⟩
  · obtain ⟨u, rfl, hu⟩ := Recased.of_noSign hsign hm
    obtain ⟨rest', hrest', h'⟩ := hq m u rest (.text hu) hrest
    exact ⟨rest', ⟨u, rfl, hrest'⟩, h'⟩
  · -- the seventh character of a color would be where the digits stop
    obtain ⟨more, rfl, rfl⟩ : ∃ more, ds = digits ++ more ∧ m = more ++ u := by
      rcases List.append_eq_append_iff.1 hm with ⟨more, h1, h2⟩ | ⟨more, rfl, rfl⟩
      · exact ⟨more, h1, h2⟩
      · rw [List.length_append] at hlength
        omega
    cases more with
    | nil =>
      rw [List.append_nil] at hsix
      omega
    | cons c more =>
      have hc := hexDigit_of_forall₂ hds c (List.mem_append_right _ List.mem_cons_self)
      rw [List.cons_append, hstop c _ hc] at hrest
      exact absurd hrest (by simp)

/-- nothing in the pattern depends on the case of digits -/
def settled (r : Reserve) : Pattern → Bool
  | nothing => true
  | text w => r.settles w
  | one k | many k => k.evenHanded
  | wordEnd | textEnd => false
  | seq p q | either p q => p.settled r && q.settled r

theorem blind_of_settles {w : List Char} (h : r.settles w = true) : (text w).Blind r := by
  unfold Reserve.settles at h
  split at h
  · exact absurd h (by decide)
  · rename_i digits
    simp only [Bool.or_eq_true, Bool.and_eq_true, List.isEmpty_iff, beq_iff_eq, List.all_eq_true,
      List.contains_iff_mem] at h
    rcases h with rfl | ⟨⟨hlength, hdigits⟩, hsettled⟩
    · exact blind_char (by decide)
    · exact blind_color hlength hdigits hsettled
  · rename_i c w _
    simp only [Bool.and_eq_true, Bool.or_eq_true, Bool.not_eq_true', List.contains_eq_mem, decide_eq_false_iff_not] at h
    obtain ⟨hsign, hc | ⟨hwords, hruns⟩⟩ := h
    · exact blind_word hsign fun s t hst => hst.recased_of_not_digit hc
    · exact blind_word hsign fun s t hst => hst.recased_of_runsOn hwords (runsOn_append hruns s)

/-- **Patterns that can be seen to be blind.** -/
theorem blind_of_settled (h : p.settled r = true) : p.Blind r := by
  induction p with
  | nothing => exact blind_nothing
  | text w => exact blind_of_settles h
  | one k => exact blind_one h
  | many k => exact blind_many h
  | wordEnd => exact absurd h (by simp [settled])
  | textEnd => exact absurd h (by simp [settled])
  | seq p q ihp ihq =>
    rw [settled, Bool.and_eq_true] at h
    exact (ihp h.1).seq (ihq h.2)
  | either p q ihp ihq =>
    rw [settled, Bool.and_eq_true] at h
    exact (ihp h.1).either (ihq h.2)

theorem Blind.occursIn (hp : p.Blind r) (h : Recased r s t) (hs : p.occursIn s = true) : p.occursIn t = true := by
  obtain ⟨before, s', rest, rfl, hrest⟩ := occursIn_iff.1 hs
  obtain ⟨before', t', rfl, h'⟩ := (Aligned.text h).append
  obtain ⟨rest', hrest', -⟩ := hp s' t' rest h' hrest
  exact occursIn_iff.2 ⟨before', t', rest', rfl, hrest'⟩

/-- **A blind pattern occurs in both texts or in none.** -/
theorem Blind.occursIn_eq (hp : p.Blind r) (h : Recased r s t) : p.occursIn s = p.occursIn t := by
  rw [Bool.eq_iff_iff]
  exact ⟨hp.occursIn h, hp.occursIn h.symm⟩

end Pattern

/-! ## Blind rules -/

/-- the patterns that a condition asks for -/
def Condition.patterns : Condition → List Pattern
  | present p | absent p => [p]
  | both a b | either a b => a.patterns ++ b.patterns

theorem Condition.holds_recased {cond : Condition} (hp : ∀ p ∈ cond.patterns, p.Blind r) (h : Recased r s t) :
    cond.holds s = cond.holds t := by
  induction cond with
  | present p => exact (hp p (by simp [patterns])).occursIn_eq h
  | absent p => rw [holds, holds, (hp p (by simp [patterns])).occursIn_eq h]
  | both a b iha ihb =>
    rw [patterns, List.forall_mem_append] at hp
    rw [holds, holds, iha hp.1, ihb hp.2]
  | either a b iha ihb =>
    rw [patterns, List.forall_mem_append] at hp
    rw [holds, holds, iha hp.1, ihb hp.2]

/-- a rule that asks for blind patterns only has the same outcome for both texts -/
theorem Rule.evaluate_recased {rule : Rule} {cases : List (Condition × Signal)} (hcheck : rule.check = signals cases)
    (hp : ∀ e ∈ cases, ∀ p ∈ e.1.patterns, p.Blind r) (h : Recased r s t) (file : String) :
    rule.evaluate file s = rule.evaluate file t := by
  apply Rule.evaluate_congr
  rw [hcheck, signals, signals]
  congr 1
  refine List.filter_congr fun e he => ?_
  exact Condition.holds_recased (hp e he) h

theorem Rule.evaluate_recased_of_settled {rule : Rule} {cases : List (Condition × Signal)}
    (hcheck : rule.check = signals cases) (hp : ∀ e ∈ cases, ∀ p ∈ e.1.patterns, p.settled r = true)
    (h : Recased r s t) (file : String) : rule.evaluate file s = rule.evaluate file t :=
  Rule.evaluate_recased hcheck (fun e he p hmem => Pattern.blind_of_settled (hp e he p hmem)) h file

/-! ## Saturation -/

/-- the texts agree at every position, up to the case of digits -/
theorem Recased.forall₂ (h : Recased r s t) : List.Forall₂ (fun c d => c = d ∨ SameDigit c d) s t := by
  have haligned : ∀ s t, Aligned r s t → List.Forall₂ (fun c d => c = d ∨ SameDigit c d) s t := by
    intro s
    induction s with
    | nil =>
      intro t h
      cases h with
      | text h =>
        cases h
        exact .nil
      | digits _ hs _ hne => exact absurd (List.append_eq_nil_iff.1 hs.symm).1 hne
    | cons c s ih =>
      intro t h
      obtain ⟨d, t', rfl, hcd, h'⟩ := h.tail
      exact .cons hcd (ih t' h')
  exact haligned s t (.text h)

namespace Color

theorem digit?_congr (h : c = d ∨ SameDigit c d) : digit? c = digit? d := by
  rcases h with rfl | h
  · rfl
  · have hlower (c : Char) (hc : hexDigit.mem c = true) : digit? c = digit? c.toLower := by
      apply of_decide_eq_true
      exact of_hexDigit (P := fun c => digit? c = digit? c.toLower) (by decide) hc
    rw [hlower c h.left, hlower d h.right, h.lower]

/-- the same color stands in both texts -/
theorem at?_congr (h : List.Forall₂ (fun c d => c = d ∨ SameDigit c d) s t) : at? s = at? t := by
  cases h with
  | nil => rfl
  | @cons c d s t hcd h =>
    by_cases hc : c = '#'
    · have hd : d = '#' := by
        rcases hcd with rfl | hcd
        · exact hc
        · rw [hc] at hcd
          exact absurd hcd.left (by decide)
      rw [hc, hd]
      by_cases hlength : 6 ≤ s.length
      · obtain ⟨r₁, r₀, g₁, g₀, b₁, b₀, rest, rfl⟩ := exists_six hlength
        simp only [List.forall₂_cons_left_iff] at h
        obtain ⟨_, _, h₁, ⟨_, _, h₀, ⟨_, _, h₃, ⟨_, _, h₂, ⟨_, _, h₅, ⟨_, _, h₄, -, rfl⟩, rfl⟩, rfl⟩, rfl⟩, rfl⟩, rfl⟩ := h
        simp only [at?, channel?, digit?_congr h₁, digit?_congr h₀, digit?_congr h₃, digit?_congr h₂, digit?_congr h₅,
          digit?_congr h₄]
      · have hlength' : t.length < 6 := h.length_eq ▸ Nat.lt_of_not_le hlength
        rw [at?_of_length_lt (Nat.lt_of_not_le hlength), at?_of_length_lt hlength']
    · have hd : d ≠ '#' := by
        rcases hcd with rfl | hcd
        · exact hc
        · rintro rfl
          exact absurd hcd.right (by decide)
      rw [at?_of_ne hc, at?_of_ne hd]

end Color

/-- as many vivid colors stand in both texts -/
theorem vividCount_recased (h : Recased r s t) : vividCount s = vividCount t := by
  have hsimilar := h.forall₂
  clear h
  unfold vividCount
  induction hsimilar with
  | nil => rfl
  | @cons c d s t hcd hrest ih =>
    rw [List.tails_cons, List.tails_cons, List.countP_cons, List.countP_cons, Color.at?_congr (.cons hcd hrest)]
    rw [ih]

/-! ## The rules -/

namespace Catalog

open Pattern

/-- a short white in front of a brace -/
theorem blind_shortWhite : (all [lit "#fff", maybeQuote, lit "\x7d"]).Blind r := by
  have hbehind : (all [maybeQuote, lit "\x7d"]).Blind r := by
    refine .seq (.either (blind_one (by decide)) blind_nothing) ?_
    exact blind_char (by decide)
  have hstop : ∀ c s, hexDigit.mem c = true → (all [maybeQuote, lit "\x7d"]).rests (c :: s) = [] := by
    intro c s hc
    have hother : CharSet.quote.mem c = false ∧ '\x7d' ≠ c := by
      apply of_decide_eq_true
      exact of_hexDigit (P := fun c => CharSet.quote.mem c = false ∧ '\x7d' ≠ c) (by decide) hc
    simp [all, maybeQuote, Pattern.optional, lit, rests, strip, hother.1, hother.2]
  have hlength : "fff".toList.length < 6 := by decide
  exact blind_short hlength (by decide) hbehind hstop

/-- white text, where white keeps its spelling -/
theorem blind_whiteText : whiteText.Blind { kept := ["ffffff"], words := true } := by
  have hcolor : (all [lit "color:", gap, maybeQuote, lit "#ffffff"]).Blind { kept := ["ffffff"], words := true } :=
    blind_of_settled (by decide)
  have hname : (all [lit "textColor:", gap, maybeQuote, lit "white"]).Blind { kept := ["ffffff"], words := true } :=
    blind_of_settled (by decide)
  exact hcolor.either (blind_shortWhite.either hname)

end Catalog

open Catalog

/-- **Colors may be written in either case, with exceptions.** Let two texts differ in nothing but the letter case of
hexadecimal digits in colors. Then as many saturated colors are reported for both. The rule on low contrast has the same
outcome for both unless the case of white differs. So have the rules on white text in dark mode, on dark backgrounds and
on accent colors, unless the case differs of a color that runs on into a word, or of white, of one of two dark grays and
of one of six system colors, respectively. -/
theorem colors_in_either_case (content content' : List Char) (file : String) :
    (Recased {} content content' →
      saturatedColors.evaluate file content = saturatedColors.evaluate file content') ∧
    (Recased { kept := ["ffffff"] } content content' →
      lowContrast.evaluate file content = lowContrast.evaluate file content') ∧
    (Recased { kept := ["ffffff"], words := true } content content' →
      darkModeWhiteText.evaluate file content = darkModeWhiteText.evaluate file content') ∧
    (Recased { kept := ["1a1a1a", "0d0d0d"], words := true } content content' →
      oledBackground.evaluate file content = oledBackground.evaluate file content') ∧
    (Recased { kept := ["007aff", "0a84ff", "34c759", "30d158", "ff3b30", "ff453a"], words := true } content content' →
      iosAccentColors.evaluate file content = iosAccentColors.evaluate file content') := by
  refine ⟨fun h => ?_, fun h => ?_, fun h => ?_, fun h => ?_, fun h => ?_⟩
  · have hcount : saturatedCount content = saturatedCount content' := by
      rw [saturatedCount_eq, saturatedCount_eq, vividCount_recased h]
    apply Rule.evaluate_congr
    unfold saturatedCount at hcount
    simp only [saturatedColors, hcount]
  · exact Rule.evaluate_recased_of_settled rfl (by decide) h file
  · refine Rule.evaluate_recased rfl ?_ h file
    have hdark : darkContext.Blind { kept := ["ffffff"], words := true } := Pattern.blind_of_settled (by decide)
    simp only [List.forall_mem_cons, Condition.patterns, List.cons_append, List.nil_append]
    exact ⟨⟨hdark, blind_whiteText, by simp⟩, by simp⟩
  · exact Rule.evaluate_recased_of_settled rfl (by decide) h file
  · exact Rule.evaluate_recased_of_settled rfl (by decide) h file

/-- a color whose last digit begins a word of a pattern -/
example : darkModeWhiteText.evaluate "Row.tsx" "isDark #abcdecolor: '#ffffff'".toList ≠
    darkModeWhiteText.evaluate "Row.tsx" "isDark #abcdeColor: '#ffffff'".toList := by decide +kernel

/-! ## Spellings of a palette -/

namespace Recased

theorem refl (s : List Char) : Recased r s s := by
  induction s with
  | nil => exact .nil
  | cons c s ih => exact .keep c ih

theorem prepend (a : List Char) (h : Recased r s t) : Recased r (a ++ s) (a ++ t) := by
  induction a with
  | nil => exact h
  | cons c a ih => exact .keep c ih

end Recased

instance (c d : Char) : Decidable (SameDigit c d) :=
  decidable_of_iff (hexDigit.mem c = true ∧ hexDigit.mem d = true ∧ c.toLower = d.toLower)
    ⟨fun ⟨hl, hr, hlower⟩ => ⟨hl, hr, hlower⟩, fun h => ⟨h.left, h.right, h.lower⟩⟩

instance (r : Reserve) (digits rest : List Char) : Decidable (r.Frees digits rest) :=
  decidable_of_iff (String.ofList (digits.map Char.toLower) ∉ r.kept ∧ (r.words = true → runsOn rest = false))
    ⟨fun ⟨hother, hapart⟩ => ⟨hother, hapart⟩, fun h => ⟨h.other, h.apart⟩⟩

namespace Catalog

/-- a screen in dark mode with three colors, and a gray for lines -/
def palette (accent background text : String) : List Char :=
  "isDark, primaryColor: '".toList ++ '#' :: (accent.toList ++ ("', backgroundColor: '".toList ++
    '#' :: (background.toList ++ ("', borderColor: '#999999', color: '".toList ++ '#' :: (text.toList ++ ['\''])))))

/-- the same six digits, and not those of a color that keeps its spelling -/
def Respells (r : Reserve) (digits digits' : String) : Prop :=
  digits.toList.length = 6 ∧ List.Forall₂ SameDigit digits.toList digits'.toList ∧
    String.ofList (digits.toList.map Char.toLower) ∉ r.kept

instance (r : Reserve) (digits digits' : String) : Decidable (Respells r digits digits') :=
  inferInstanceAs (Decidable (_ ∧ _ ∧ _))

theorem recased_palette {accent accent' background background' text text' : String}
    (haccent : Respells r accent accent') (hbackground : Respells r background background')
    (htext : Respells r text text') : Recased r (palette accent background text) (palette accent' background' text') := by
  obtain ⟨hlength₁, hdigits₁, hother₁⟩ := haccent
  obtain ⟨hlength₂, hdigits₂, hother₂⟩ := hbackground
  obtain ⟨hlength₃, hdigits₃, hother₃⟩ := htext
  unfold palette
  apply Recased.prepend
  refine .color hlength₁ hdigits₁ ⟨hother₁, fun _ => rfl⟩ ?_
  apply Recased.prepend
  refine .color hlength₂ hdigits₂ ⟨hother₂, fun _ => rfl⟩ ?_
  apply Recased.prepend
  exact .color hlength₃ hdigits₃ ⟨hother₃, fun _ => rfl⟩ (.refl _)

/-- a palette that no rule has a name for, in two spellings -/
theorem colors_in_either_case_palette :
    let spelled := palette "c0ffee" "1b1b1b" "eeeeee"
    let respelled := palette "C0FFEE" "1B1b1B" "EeEeEe"
    (Recased {} spelled respelled ∧
      saturatedColors.evaluate "Row.tsx" spelled = saturatedColors.evaluate "Row.tsx" respelled) ∧
    (Recased { kept := ["ffffff"] } spelled respelled ∧
      lowContrast.evaluate "Row.tsx" spelled = lowContrast.evaluate "Row.tsx" respelled) ∧
    (Recased { kept := ["ffffff"], words := true } spelled respelled ∧
      darkModeWhiteText.evaluate "Row.tsx" spelled = darkModeWhiteText.evaluate "Row.tsx" respelled) ∧
    (Recased { kept := ["1a1a1a", "0d0d0d"], words := true } spelled respelled ∧
      oledBackground.evaluate "Row.tsx" spelled = oledBackground.evaluate "Row.tsx" respelled) ∧
    (Recased { kept := ["007aff", "0a84ff", "34c759", "30d158", "ff3b30", "ff453a"], words := true } spelled respelled ∧
      iosAccentColors.evaluate "Row.tsx" spelled = iosAccentColors.evaluate "Row.tsx" respelled) := by
  intro spelled respelled
  obtain ⟨hsaturated, hcontrast, hwhite, hblack, haccent⟩ := colors_in_either_case spelled respelled "Row.tsx"
  have hsame : ∀ r : Reserve, Respells r "c0ffee" "C0FFEE" → Respells r "1b1b1b" "1B1b1B" →
      Respells r "eeeeee" "EeEeEe" → Recased r spelled respelled := fun _ => recased_palette
  have hplain := hsame {} (by decide) (by decide) (by decide)
  have hkept := hsame { kept := ["ffffff"] } (by decide) (by decide) (by decide)
  have hwords := hsame { kept := ["ffffff"], words := true } (by decide) (by decide) (by decide)
  have hgrays := hsame { kept := ["1a1a1a", "0d0d0d"], words := true } (by decide) (by decide) (by decide)
  have hsystem := hsame { kept := ["007aff", "0a84ff", "34c759", "30d158", "ff3b30", "ff453a"], words := true }
    (by decide) (by decide) (by decide)
  exact ⟨⟨hplain, hsaturated hplain⟩, ⟨hkept, hcontrast hkept⟩, ⟨hwords, hwhite hwords⟩, ⟨hgrays, hblack hgrays⟩,
    ⟨hsystem, haccent hsystem⟩⟩

/-- **Colors that are known in one case only.** White, a dark gray and a system color, first as the rules spell them and
then in the other case: four rules do not have the same outcome. -/
theorem colors_in_one_case :
    Recased {} (palette "007AFF" "1A1A1A" "ffffff") (palette "007aff" "1a1a1a" "FFFFFF") ∧
    ∀ rule ∈ [lowContrast, darkModeWhiteText, oledBackground, iosAccentColors],
      rule.evaluate "Row.tsx" (palette "007AFF" "1A1A1A" "ffffff") ≠
        rule.evaluate "Row.tsx" (palette "007aff" "1a1a1a" "FFFFFF") := by
  constructor
  · exact recased_palette (by decide) (by decide) (by decide)
  · decide +kernel

end Catalog

end AppAudit
