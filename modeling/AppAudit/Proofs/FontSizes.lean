/-
Font sizes as two kinds of tokens.

Two extractors read declared font sizes. One takes any run of digits and points, the other a number only, so they stop at
different places and skip different declarations. Both begin at the name of the declaration and do not reach the next one,
so each of them looks at every position of the text (`Proofs.Occurrences`), and what they take can be compared position by
position: behind the name, the colon and white space, the first one takes all digits and points there are, and the second
one the longest beginning of these that is a plain number (`IsLongestPlain`).

A token that starts with a digit and has no second point is a plain number, or one with a bare point at its end. The point
makes no difference to the value, so then both extractors measure the same sizes.

Main result:
- `font_sizes_agree`: the numbers are the tokens that start with a digit, each cut to its longest plain beginning; and where
  nothing but a bare point is cut off, the rules on font sizes have the same sizes to go by.
-/
import Mathlib.Tactic
import AppAudit.Proofs.LineBreaks
import AppAudit.Proofs.ModularScale
import AppAudit.Proofs.Occurrences

namespace AppAudit

/-! ## What a pattern prefers to take -/

namespace Pattern

variable {p q : Pattern} {k : CharSet} {s : List Char} {m m' : List Char × List Char}

/-- what the pattern prefers to take off the front of the text, and what is then left -/
def take? (p : Pattern) (s : List Char) : Option (List Char × List Char) := (p.splits s).head?

/-- a fixed text can be taken in one way only -/
theorem take?_text_seq (w : List Char) (q : Pattern) (s : List Char) :
    ((text w).seq q).take? s = (strip w s).bind fun r => (q.take? r).map fun m => (w ++ m.1, m.2) := by
  rw [take?, splits, splits]
  cases strip w s with
  | none => rfl
  | some r => simp [take?]

/-- a run is taken whole -/
theorem take?_many (k : CharSet) (s : List Char) :
    (many k).take? s = some (s.takeWhile k.mem, s.dropWhile k.mem) := by
  rw [take?, splits]
  induction s with
  | nil => rfl
  | cons c s ih =>
    rw [runSplits]
    by_cases hc : k.mem c = true
    · rw [if_pos hc, List.head?_append, List.head?_map, ih, List.takeWhile_cons_of_pos hc, List.dropWhile_cons_of_pos hc]
      rfl
    · rw [if_neg hc, List.takeWhile_cons_of_neg hc, List.dropWhile_cons_of_neg hc]
      rfl

theorem take?_seq_of_none (hp : p.take? s = none) : (p.seq q).take? s = none := by
  rw [take?, List.head?_eq_none_iff] at hp
  rw [take?, splits, hp]
  rfl

/-- if the second pattern goes on where the first one prefers to stop, that is what both of them prefer -/
theorem take?_seq_of_some (hp : p.take? s = some m) (hq : q.take? m.2 = some m') :
    (p.seq q).take? s = some (m.1 ++ m'.1, m'.2) := by
  rw [take?, List.head?_eq_some_iff] at hp hq
  obtain ⟨l, hl⟩ := hp
  obtain ⟨l', hl'⟩ := hq
  rw [take?, splits, hl, List.flatMap_cons, hl']
  rfl

theorem take?_optional (p : Pattern) (s : List Char) : p.optional.take? s = some ((p.take? s).getD ([], s)) := by
  rw [take?, optional, splits, splits, List.head?_append, take?]
  cases (p.splits s).head? <;> rfl

theorem take?_atLeastOne (k : CharSet) (s : List Char) :
    (atLeastOne k).take? s =
      if s.takeWhile k.mem = [] then none else some (s.takeWhile k.mem, s.dropWhile k.mem) := by
  cases s with
  | nil => rfl
  | cons c s =>
    by_cases hc : k.mem c = true
    · have hone : (one k).take? (c :: s) = some ([c], s) := by rw [take?, splits, if_pos hc]; rfl
      rw [atLeastOne, take?_seq_of_some hone (take?_many k s), List.takeWhile_cons_of_pos hc,
        List.dropWhile_cons_of_pos hc, if_neg (List.cons_ne_nil c _)]
      rfl
    · have hone : (one k).take? (c :: s) = none := by rw [take?, splits, if_neg hc]; rfl
      rw [atLeastOne, take?_seq_of_none hone, List.takeWhile_cons_of_neg hc, if_pos rfl]

/-- white space in front of something that does not begin with it is taken whole -/
theorem findSome?_rests_many {α : Type} {f : List Char → Option α} (hf : ∀ c s, k.mem c = true → f (c :: s) = none)
    (s : List Char) : ((many k).rests s).findSome? f = f (s.dropWhile k.mem) := by
  induction s with
  | nil => simp [rests, runRests]
  | cons c s ih =>
    rw [rests_many_cons]
    by_cases hc : k.mem c = true
    · rw [if_pos hc, List.findSome?_append, ih, List.findSome?_singleton, hf c s hc, Option.or_none,
        List.dropWhile_cons_of_pos hc]
    · rw [if_neg hc, List.findSome?_singleton, List.dropWhile_cons_of_neg hc]

end Pattern

/-! ## What is declared -/

/-- what is behind the name, a colon and white space, if the text begins with a declaration of that name -/
def declared? (name : String) (s : List Char) : Option (List Char) :=
  ((Pattern.strip name.toList s).bind (Pattern.strip [':'])).map (·.dropWhile CharSet.blank.mem)

theorem findSome?_rests_property {α : Type} {f : List Char → Option α}
    (hf : ∀ c s, CharSet.blank.mem c = true → f (c :: s) = none) (name : String) (s : List Char) :
    ((Pattern.property [name]).rests s).findSome? f = (declared? name s).bind f := by
  have hshape : Pattern.property [name] = (Pattern.lit name).seq ((Pattern.text [':']).seq (.many .blank)) := rfl
  rw [hshape, declared?, Pattern.lit, Pattern.rests, Pattern.rests]
  cases Pattern.strip name.toList s with
  | none => rfl
  | some r =>
    rw [Option.toList_some, List.flatMap_singleton, Pattern.rests, Pattern.rests, Option.bind_some]
    cases Pattern.strip [':'] r with
    | none => rfl
    | some r =>
      rw [Option.toList_some, List.flatMap_singleton, Pattern.findSome?_rests_many hf]
      rfl

/-- **A declared token is what its pattern prefers to take** from what is declared. -/
theorem Extractor.next_declared {e : Extractor} {name : String} (hlead : e.lead = .property [name])
    (htrail : e.trail = .nothing) (hblank : ∀ c s, CharSet.blank.mem c = true → e.token.take? (c :: s) = none)
    (s : List Char) : e.next s = (declared? name s).bind e.token.take? := by
  rw [next, hlead, htrail, List.head?_flatMap, ← findSome?_rests_property hblank]
  congr 1
  funext s₁
  simp [Pattern.rests, Pattern.take?]

/-! ## Plain numbers -/

/-- digits, or digits on both sides of a point -/
def IsPlain (t : List Char) : Prop :=
  (AllDigits t ∧ t ≠ []) ∨ ∃ ds fs, t = ds ++ '.' :: fs ∧ AllDigits ds ∧ ds ≠ [] ∧ AllDigits fs ∧ fs ≠ []

/-- the longest plain number with which a text begins -/
structure IsLongestPlain (u t : List Char) : Prop where
  begins : u <+: t
  plain : IsPlain u
  longest : ∀ v, v <+: t → IsPlain v → v.length ≤ u.length

def startsWithDigit (t : List Char) : Bool := t.head?.any Char.isDigit

/-- a point and the digits behind it, or nothing if there are none -/
def leadingFraction (t : List Char) : List Char :=
  if t.head? = some '.' ∧ startsWithDigit t.tail then '.' :: t.tail.takeWhile Char.isDigit else []

/-- the digits at the front of a text, and the fraction behind them -/
def leadingNumber (t : List Char) : List Char :=
  t.takeWhile Char.isDigit ++ leadingFraction (t.dropWhile Char.isDigit)

section

variable {t u v : List Char}

theorem takeWhile_begins {p : Char → Bool} (h : u <+: t) (hu : ∀ c ∈ u, p c = true) : u <+: t.takeWhile p := by
  obtain ⟨w, rfl⟩ := h
  rw [List.takeWhile_append_of_pos hu]
  exact List.prefix_append u _

theorem CharSet.mem_digit (c : Char) : CharSet.digit.mem c = c.isDigit := by
  simp [CharSet.mem, CharSet.digit, CharSet.inRanges, Char.isDigit, Char.le_def]

theorem IsPlain.numeric (h : IsPlain u) : ∀ c ∈ u, CharSet.numeric.mem c = true := by
  have hdigits : ∀ {ds}, AllDigits ds → ∀ c ∈ ds, CharSet.numeric.mem c = true := by
    intro ds hds c hc
    exact CharSet.mem_of_within (k := .digit) (by decide) ((CharSet.mem_digit c).trans (hds c hc))
  rcases h with ⟨hds, -⟩ | ⟨ds, fs, rfl, hds, -, hfs, -⟩
  · exact hdigits hds
  · exact List.forall_mem_append.2 ⟨hdigits hds, List.forall_mem_cons.2 ⟨by decide, hdigits hfs⟩⟩

theorem takeWhile_isDigit_eq_nil : t.takeWhile Char.isDigit = [] ↔ startsWithDigit t = false := by
  cases t with
  | nil => simp [startsWithDigit]
  | cons c t => cases h : c.isDigit <;> simp [startsWithDigit, h]

theorem takeWhile_isDigit_ne_nil (h : startsWithDigit t = true) : t.takeWhile Char.isDigit ≠ [] := by
  rw [ne_eq, takeWhile_isDigit_eq_nil, h]
  decide

theorem allDigits_takeWhile (t : List Char) : AllDigits (t.takeWhile Char.isDigit) := fun _ hc => List.mem_takeWhile_imp hc

theorem IsLongestPlain.unique (h : IsLongestPlain u t) (h' : IsLongestPlain v t) : u = v := by
  have hlength := Nat.le_antisymm (h'.longest u h.begins h.plain) (h.longest v h'.begins h'.plain)
  exact (List.prefix_of_prefix_length_le h.begins h'.begins hlength.le).eq_of_length hlength

theorem leadingFraction_begins (t : List Char) : leadingFraction t <+: t := by
  rw [leadingFraction]
  split_ifs with h
  · obtain ⟨s, rfl⟩ := List.head?_eq_some_iff.1 h.1
    rw [List.prefix_cons_inj]
    exact List.takeWhile_prefix _
  · exact List.nil_prefix

theorem leadingNumber_point {ds fs : List Char} (hds : AllDigits ds) (hfs : AllDigits fs) (hne : fs ≠ []) (w : List Char) :
    leadingNumber (ds ++ '.' :: (fs ++ w)) = ds ++ '.' :: (fs ++ w).takeWhile Char.isDigit := by
  have hdigit : startsWithDigit (fs ++ w) = true := by
    cases fs with
    | nil => exact absurd rfl hne
    | cons d fs => simp [startsWithDigit, hfs d List.mem_cons_self]
  rw [leadingNumber, Decimal.takeWhile_point hds, Decimal.dropWhile_point hds, leadingFraction, if_pos ⟨rfl, hdigit⟩,
    List.tail_cons]

/-- **The leading number is the longest plain beginning** of a text that starts with a digit. -/
theorem isLongestPlain_leadingNumber (h : startsWithDigit t = true) : IsLongestPlain (leadingNumber t) t where
  begins := by
    conv => rhs; rw [← List.takeWhile_append_dropWhile (p := Char.isDigit) (l := t)]
    exact (List.prefix_append_right_inj _).2 (leadingFraction_begins _)
  plain := by
    have hne := takeWhile_isDigit_ne_nil h
    rw [leadingNumber, leadingFraction]
    split_ifs with hfraction
    · exact Or.inr ⟨_, _, rfl, allDigits_takeWhile t, hne, allDigits_takeWhile _, takeWhile_isDigit_ne_nil hfraction.2⟩
    · rw [List.append_nil]
      exact Or.inl ⟨allDigits_takeWhile t, hne⟩
  longest := by
    rintro v hv (⟨hdigits, -⟩ | ⟨ds, fs, rfl, hds, -, hfs, hne⟩)
    · rw [leadingNumber, List.length_append]
      exact (takeWhile_begins hv hdigits).length_le.trans (Nat.le_add_right _ _)
    · -- the whole part of such a beginning cannot but be all digits there are, so only the fractions compare
      obtain ⟨w, rfl⟩ := hv
      rw [List.append_assoc, List.cons_append, leadingNumber_point hds hfs hne, List.length_append, List.length_append,
        List.length_cons, List.length_cons]
      exact Nat.add_le_add_left (Nat.succ_le_succ (takeWhile_begins (List.prefix_append fs w) hfs).length_le) _

theorem startsWithDigit_takeWhile_numeric (t : List Char) :
    startsWithDigit (t.takeWhile CharSet.numeric.mem) = startsWithDigit t := by
  cases t with
  | nil => rfl
  | cons c t =>
    by_cases hc : CharSet.numeric.mem c = true
    · rw [List.takeWhile_cons_of_pos hc]
      rfl
    · rw [List.takeWhile_cons_of_neg hc]
      have hdigit : c.isDigit = false := by
        rw [← Bool.not_eq_true, ← CharSet.mem_digit]
        exact fun h => hc (CharSet.mem_of_within (by decide) h)
      simp [startsWithDigit, hdigit]

/-- the digits and points at the front of a text are all that its leading number depends on -/
theorem leadingNumber_takeWhile_numeric (h : startsWithDigit t = true) :
    leadingNumber (t.takeWhile CharSet.numeric.mem) = leadingNumber t := by
  have hlongest := isLongestPlain_leadingNumber h
  have hlongest' := isLongestPlain_leadingNumber ((startsWithDigit_takeWhile_numeric t).trans h)
  refine hlongest'.unique ⟨takeWhile_begins hlongest.begins hlongest.plain.numeric, hlongest.plain, ?_⟩
  intro v hv hplain
  exact hlongest.longest v (hv.trans (List.takeWhile_prefix _)) hplain

end

/-! ## What the two extractors take -/

namespace Pattern

theorem take?_looseNumber (t : List Char) :
    (Catalog.looseNumber.take? t).map (·.1) =
      if t.takeWhile CharSet.numeric.mem = [] then none else some (t.takeWhile CharSet.numeric.mem) := by
  have hshape : Catalog.looseNumber = atLeastOne CharSet.numeric := rfl
  rw [hshape, take?_atLeastOne]
  split_ifs <;> rfl

theorem take?_fraction (t : List Char) :
    ((optional ((lit ".").seq (atLeastOne .digit))).take? t).map (·.1) = some (leadingFraction t) := by
  have hdigit : CharSet.digit.mem = Char.isDigit := funext CharSet.mem_digit
  rw [take?_optional, lit, take?_text_seq, Option.map_some]
  cases t with
  | nil => rfl
  | cons c t =>
    by_cases hc : c = '.'
    · subst hc
      have hstrip : strip ".".toList ('.' :: t) = some t := rfl
      rw [hstrip, Option.bind_some, take?_atLeastOne, hdigit, leadingFraction, List.tail_cons]
      by_cases h : startsWithDigit t = true
      · rw [if_neg (takeWhile_isDigit_ne_nil h), if_pos ⟨rfl, h⟩]
        rfl
      · rw [if_pos (takeWhile_isDigit_eq_nil.2 (Bool.eq_false_iff.2 h)), if_neg fun hboth => h hboth.2]
        rfl
    · have hstrip : strip ".".toList (c :: t) = none := if_neg (Ne.symm hc)
      rw [hstrip, leadingFraction, if_neg fun hboth => hc (Option.some.inj hboth.1)]
      rfl

theorem take?_plainNumber (t : List Char) :
    (plainNumber.take? t).map (·.1) = if startsWithDigit t = true then some (leadingNumber t) else none := by
  have hdigit : CharSet.digit.mem = Char.isDigit := funext CharSet.mem_digit
  have hrun := take?_atLeastOne .digit t
  rw [hdigit] at hrun
  rw [plainNumber]
  split_ifs with h
  · obtain ⟨m, hm, hfraction⟩ := Option.map_eq_some_iff.1 (take?_fraction (t.dropWhile Char.isDigit))
    rw [if_neg (takeWhile_isDigit_ne_nil h)] at hrun
    rw [take?_seq_of_some hrun hm, Option.map_some, hfraction, leadingNumber]
  · rw [if_pos (takeWhile_isDigit_eq_nil.2 (Bool.eq_false_iff.2 h))] at hrun
    rw [take?_seq_of_none hrun]
    rfl

end Pattern

/-! ## What they measure -/

section

variable {t ds : List Char}

theorem leadingNumber_digits (h : AllDigits ds) : leadingNumber ds = ds := by
  rw [leadingNumber, Decimal.takeWhile_digits h, Decimal.dropWhile_digits h, leadingFraction, if_neg (by simp),
    List.append_nil]

theorem leadingNumber_bare (h : AllDigits ds) : leadingNumber (ds ++ ['.']) = ds := by
  rw [leadingNumber, Decimal.takeWhile_point h, Decimal.dropWhile_point h, leadingFraction,
    if_neg (by simp [startsWithDigit]), List.append_nil]

/-- **A bare point at the end is all that can be lost**, and it does not count. -/
theorem Binary64.read?_leadingNumber (ht : IsToken t) (h : startsWithDigit t = true) (hpoint : t.count '.' ≤ 1) :
    Binary64.read? (leadingNumber t) = Binary64.read? t := by
  rcases ht.shapes with hds | ⟨ds, fs, rfl, hds, hfs⟩ | ⟨ds, fs, s, rfl, -, -⟩
  · rw [leadingNumber_digits hds]
  · cases fs with
    | nil =>
      have hdigits : IsToken ds := fun c hc => Or.inl (hds c hc)
      rw [leadingNumber_bare hds, Binary64.read?, Binary64.read?, Decimal.read?_token hdigits, Decimal.read?_token ht,
        isNumeral_digits hds, isNumeral_point hds hfs, wholePart_digits hds, wholePart_point hds,
        fractionPart_digits hds, fractionPart_point hds, List.isEmpty_nil, Bool.and_true]
    | cons d fs =>
      have hcut := leadingNumber_point hds hfs (List.cons_ne_nil d fs) []
      rw [List.append_nil, Decimal.takeWhile_digits hfs] at hcut
      rw [hcut]
  · simp only [List.count_append, List.count_cons_self] at hpoint
    omega

end

theorem Extractor.values_eq (e : Extractor) (content : List Char) :
    e.values content = (e.tokens content).filterMap Binary64.read? := by
  rw [values, measures, List.map_filterMap]
  simp only [Option.map_map, Function.comp_def, Option.map_id']

namespace Catalog

/-- a token cut to its leading number, if it starts with a digit -/
def cut? (t : List Char) : Option (List Char) := if startsWithDigit t = true then some (leadingNumber t) else none

/-- **The two extractors at one position.** -/
theorem next_fontSizeNumber (s : List Char) :
    (fontSizeNumber.next s).map (·.1) = ((fontSizeValue.next s).map (·.1)).bind cut? := by
  have hblank : ∀ c t, CharSet.blank.mem c = true → (c :: t).takeWhile CharSet.numeric.mem = [] := by
    have hall : ['\t', '\n', '\x0c', '\x0d', ' '].all (fun c => !CharSet.numeric.mem c) = true := by decide
    intro c t hc
    rw [CharSet.blank, CharSet.mem_oneOf, List.contains_iff_mem] at hc
    have hother := List.all_eq_true.1 hall c hc
    rw [Bool.not_eq_true'] at hother
    rw [List.takeWhile_cons_of_neg (Bool.eq_false_iff.1 hother)]
  have hvalue : ∀ c t, CharSet.blank.mem c = true → fontSizeValue.token.take? (c :: t) = none := by
    intro c t hc
    rw [← Option.map_eq_none_iff (f := (·.1)), fontSizeValue, Pattern.take?_looseNumber, if_pos (hblank c t hc)]
  have hnumber : ∀ c t, CharSet.blank.mem c = true → fontSizeNumber.token.take? (c :: t) = none := by
    intro c t hc
    rw [← Option.map_eq_none_iff (f := (·.1)), fontSizeNumber, Pattern.take?_plainNumber,
      ← startsWithDigit_takeWhile_numeric, hblank c t hc]
    rfl
  rw [Extractor.next_declared rfl rfl hvalue, Extractor.next_declared rfl rfl hnumber]
  cases declared? "fontSize" s with
  | none => rfl
  | some t =>
    rw [Option.bind_some, Option.bind_some, fontSizeNumber, fontSizeValue, Pattern.take?_plainNumber,
      Pattern.take?_looseNumber]
    by_cases hnil : t.takeWhile CharSet.numeric.mem = []
    · rw [if_pos hnil, ← startsWithDigit_takeWhile_numeric, hnil]
      rfl
    · rw [if_neg hnil, Option.bind_some, cut?, startsWithDigit_takeWhile_numeric]
      split_ifs with h
      · rw [leadingNumber_takeWhile_numeric h]
      · rfl

theorem tokens_fontSizeNumber_eq (content : List Char) :
    fontSizeNumber.tokens content = ((fontSizeValue.tokens content).filter startsWithDigit).map leadingNumber := by
  -- the two scans go on at different places, so they are compared as what they see at every position
  have hheads : fontSizeNumber.whole.heads 'f' = true := by decide
  have hheads' : fontSizeValue.whole.heads 'f' = true := by decide
  rw [Extractor.tokens_eq_filterMap hheads, Extractor.tokens_eq_filterMap hheads', ← List.filterMap_eq_map,
    List.filterMap_filter, List.filterMap_filterMap]
  refine List.filterMap_congr fun t _ => ?_
  exact next_fontSizeNumber t

/-! ## What the rules make of the sizes -/

/-- what the rule on text styles reports about the sizes in a text -/
def styleReport (file : String) (sizes : List Binary64) : List Finding :=
  if 3 < sizes.length && 2 * (sizes.filter onIosScale).length < sizes.length then
    [.newWarning "ios-type-scale" "iOS Typography" file
      "Font sizes don't match iOS type scale. Consider iOS text styles for native feel."]
  else []

/-- what the rule on the range reports about sizes that are spelled in some way -/
def rangeReport (file : String) (spellings : List (List Char)) (sizes : List Binary64) : List Finding :=
  (spellings.zip sizes).filterMap fun p =>
    if p.2.lt minFontSize then
      some (.newWarning "font-size-range" "Typography" file
        ("fontSize " ++ String.ofList p.1 ++ "px below 12px minimum readability."))
    else if maxFontSize.lt p.2 then
      some (.newWarning "font-size-range" "Typography" file
        ("fontSize " ++ String.ofList p.1 ++ "px very large. Consider using responsive scaling."))
    else none

theorem evaluate_iosTypeScale (file : String) (content : List Char) :
    iosTypeScale.evaluate file content = ⟨styleReport file (fontSizeValue.values content), []⟩ := by
  rw [disciplined_iosTypeScale.evaluate_eq, styleReport, Extractor.values, List.length_map, List.filter_map,
    List.length_map]
  simp only [iosTypeScale, Function.comp_def]
  split <;> rfl

theorem evaluate_fontSizeRange (file : String) (content : List Char) :
    fontSizeRange.evaluate file content =
      ⟨rangeReport file ((fontSizeValue.measures content).map (·.raw)) (fontSizeValue.values content), []⟩ := by
  have hpassed := disciplined_fontSizeRange.passed_eq_nil (by decide) file content
  have hfindings : (fontSizeRange.evaluate file content).findings =
      rangeReport file ((fontSizeValue.measures content).map (·.raw)) (fontSizeValue.values content) := by
    rw [disciplined_fontSizeRange.evaluate_eq, rangeReport, Extractor.values, List.zip_map', List.filterMap_map]
    simp only [fontSizeRange, List.filterMap_filterMap]
    refine List.filterMap_congr fun m _ => ?_
    simp only [Function.comp_apply]
    split_ifs <;> rfl
  rw [← hfindings, ← hpassed]

end Catalog

open Catalog in
/-- **The two extractors of font sizes agree.** The numbers in a text are the tokens of digits and points that start with a
digit, in order, each of them cut to the longest beginning that is digits, or digits on both sides of a point. So if all
tokens start with a digit and have at most one point, both extractors measure the same sizes, and these are what the rules
on text styles, on the range and on the modular scale go by. -/
theorem font_sizes_agree (content : List Char) (file : String) :
    fontSizeNumber.tokens content = ((fontSizeValue.tokens content).filter startsWithDigit).map leadingNumber ∧
      (∀ t, startsWithDigit t = true → IsLongestPlain (leadingNumber t) t) ∧
      ((∀ t ∈ fontSizeValue.tokens content, startsWithDigit t = true ∧ t.count '.' ≤ 1) →
        fontSizeNumber.values content = fontSizeValue.values content ∧
        iosTypeScale.evaluate file content = ⟨styleReport file (fontSizeNumber.values content), []⟩ ∧
        fontSizeRange.evaluate file content =
          ⟨rangeReport file ((fontSizeValue.measures content).map (·.raw)) (fontSizeNumber.values content), []⟩ ∧
        modularScale.evaluate file content = ⟨scaleReport file (fontSizeNumber.values content), []⟩) := by
  refine ⟨tokens_fontSizeNumber_eq content, fun t h => isLongestPlain_leadingNumber h, fun hplain => ?_⟩
  have hsame : fontSizeNumber.values content = fontSizeValue.values content := by
    have hall : (fontSizeValue.tokens content).filter startsWithDigit = fontSizeValue.tokens content :=
      List.filter_eq_self.2 fun t ht => (hplain t ht).1
    rw [Extractor.values_eq, Extractor.values_eq, tokens_fontSizeNumber_eq, hall, List.filterMap_map]
    refine List.filterMap_congr fun t ht => ?_
    have htoken : IsToken t := Extractor.isToken_of_mem (by decide) ht
    exact Binary64.read?_leadingNumber htoken (hplain t ht).1 (hplain t ht).2
  exact ⟨hsame, hsame ▸ evaluate_iosTypeScale file content, hsame ▸ evaluate_fontSizeRange file content,
    evaluate_modularScale file content⟩

/-- four sizes, the first of them with a bare point -/
def titleSizes : List Char := "fontSize: 12., fontSize: 18.50, fontSize:25, fontSize: 40.75".toList

open Catalog in
/-- the bare point is cut off, and the sizes stay the same -/
theorem font_sizes_agree_titleSizes :
    fontSizeValue.tokens titleSizes = ["12.", "18.50", "25", "40.75"].map String.toList ∧
      fontSizeNumber.tokens titleSizes = ["12", "18.50", "25", "40.75"].map String.toList ∧
      fontSizeNumber.values titleSizes = fontSizeValue.values titleSizes ∧
      iosTypeScale.evaluate "Title.tsx" titleSizes = ⟨[.newWarning "ios-type-scale" "iOS Typography" "Title.tsx"
        "Font sizes don't match iOS type scale. Consider iOS text styles for native feel."], []⟩ ∧
      fontSizeRange.evaluate "Title.tsx" titleSizes = ⟨[.newWarning "font-size-range" "Typography" "Title.tsx"
        "fontSize 40.75px very large. Consider using responsive scaling."], []⟩ := by
  have htokens : fontSizeValue.tokens titleSizes = ["12.", "18.50", "25", "40.75"].map String.toList := by
    decide +kernel
  obtain ⟨hcut, -, hsizes⟩ := font_sizes_agree titleSizes "Title.tsx"
  rw [htokens] at hcut hsizes
  obtain ⟨hsame, hstyle, hrange, -⟩ := hsizes (by decide)
  refine ⟨htokens, ?_, hsame, ?_, ?_⟩
  · rw [hcut]
    decide
  · rw [hstyle]
    decide +kernel
  · rw [hrange]
    decide +kernel

example : Catalog.fontSizeNumber.tokens "fontSize: 1.2.3, fontSize: .5, fontSize: 1..2fontSize:7".toList =
    ["1.2", "1", "7"].map String.toList := by decide +kernel

end AppAudit
