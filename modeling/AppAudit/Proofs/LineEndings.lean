/-
Line endings do not matter.

Sources come with newlines or with carriage returns and newlines. All but two rules say the same about both, because the
patterns they look for occur in both texts or in neither, and the tokens they measure are the same (`Rule.Indifferent`).
The two rules left out look at more than patterns within lines: `line-length` counts the characters of a text element,
line breaks included, and `testing-tools` looks for a single newline at the very end.

Two patterns are not decided to be indifferent as they stand, since a run of white space meets another one behind an
optional quote. They are replaced by patterns that occur in the same texts (`startsAt_declaredFont`).

Main result:
- `auditContent_withReturns`: an audit without these two rules comes to the same result for both texts.
-/
import Mathlib.Tactic
import AppAudit.Audit.Content
import AppAudit.Proofs.LineBreaks

namespace AppAudit

/-! ## Conditions and tokens -/

/-- every pattern of the condition is indifferent -/
def Condition.indifferent : Condition → Bool
  | present p | absent p => p.indifferent
  | both a b | either a b => a.indifferent && b.indifferent

theorem Condition.holds_withReturns {c : Condition} (h : c.indifferent = true) (s : List Char) :
    c.holds (withReturns s) = c.holds s := by
  induction c with
  | present p => exact Pattern.occursIn_withReturns h s
  | absent p => rw [holds, holds, Pattern.occursIn_withReturns h]
  | both a b iha ihb =>
    simp only [indifferent, Bool.and_eq_true] at h
    rw [holds, holds, iha h.1, ihb h.2]
  | either a b iha ihb =>
    simp only [indifferent, Bool.and_eq_true] at h
    rw [holds, holds, iha h.1, ihb h.2]

theorem signals_withReturns {cases : List (Condition × Signal)}
    (h : ∀ c ∈ cases, ∀ s, c.1.holds (withReturns s) = c.1.holds s) (s : List Char) :
    signals cases (withReturns s) = signals cases s := by
  rw [signals, signals, List.filter_congr fun c hc => h c hc s]

theorem Extractor.measures_withReturns {e : Extractor} (h : ∀ s, e.tokens (withReturns s) = e.tokens s) (s : List Char) :
    e.measures (withReturns s) = e.measures s := by
  rw [measures, measures, h]

namespace Catalog

open Pattern

/-- the extractors of the catalog -/
theorem indifferent_extractors : ∀ e ∈ [edgeLength, spacing, lineHeightValue, fontSizeValue, fontSizeNumber,
    fontWeightValue, hexColor], e.indifferent = true := by decide +kernel

/-- the markers of the catalog -/
theorem indifferent_markers : ∀ m ∈ [tabEntry, consoleCall, anyConsoleCall, inlineHandler], m.indifferent = true := by
  decide +kernel

theorem tokens_edgeLength (s : List Char) : edgeLength.tokens (withReturns s) = edgeLength.tokens s :=
  Extractor.tokens_withReturns (indifferent_extractors edgeLength (by simp)) (fun _ => rfl) s

theorem tokens_lineHeightValue (s : List Char) : lineHeightValue.tokens (withReturns s) = lineHeightValue.tokens s :=
  Extractor.tokens_withReturns (indifferent_extractors lineHeightValue (by simp)) (fun _ => rfl) s

theorem tokens_fontSizeValue (s : List Char) : fontSizeValue.tokens (withReturns s) = fontSizeValue.tokens s :=
  Extractor.tokens_withReturns (indifferent_extractors fontSizeValue (by simp)) (fun _ => rfl) s

theorem tokens_fontSizeNumber (s : List Char) : fontSizeNumber.tokens (withReturns s) = fontSizeNumber.tokens s :=
  Extractor.tokens_withReturns (indifferent_extractors fontSizeNumber (by simp)) (fun _ => rfl) s

theorem tokens_fontWeightValue (s : List Char) : fontWeightValue.tokens (withReturns s) = fontWeightValue.tokens s :=
  Extractor.tokens_withReturns (indifferent_extractors fontWeightValue (by simp)) (fun _ => rfl) s

theorem tokens_hexColor (s : List Char) : hexColor.tokens (withReturns s) = hexColor.tokens s :=
  Extractor.tokens_withReturns (indifferent_extractors hexColor (by simp)) (fun _ => rfl) s

theorem tokens_spacing (s : List Char) : spacing.tokens (withReturns s) = spacing.tokens s := by
  refine Extractor.tokens_withReturns (indifferent_extractors spacing (by simp)) (fun s => ?_) s
  -- the trail takes all white space and then, perhaps, a unit
  have hunit : ∀ s, ((optional (anyOf ["px", "dp"])).first? s).isSome = true := by
    intro s
    rw [first?, Pattern.optional, rests, rests, List.head?_append]
    cases (((anyOf ["px", "dp"]).rests s).head?) <;> rfl
  have htrail : ∀ s, spacing.trail.first? s = (optional (anyOf ["px", "dp"])).first? (s.dropWhile CharSet.blank.mem) :=
    first?_many_seq CharSet.blank hunit
  have hblank : CharSet.blank.mem '\n' = CharSet.blank.mem '\r' := by decide
  rw [htrail, htrail, dropWhile_withReturns hblank, first?_withReturns (by decide) (by decide)]

theorem count_tabEntry (s : List Char) : tabEntry.count (withReturns s) = tabEntry.count s :=
  Marker.count_withReturns (indifferent_markers tabEntry (by simp)) s

theorem count_consoleCall (s : List Char) : consoleCall.count (withReturns s) = consoleCall.count s :=
  Marker.count_withReturns (indifferent_markers consoleCall (by simp)) s

theorem count_inlineHandler (s : List Char) : inlineHandler.count (withReturns s) = inlineHandler.count s :=
  Marker.count_withReturns (indifferent_markers inlineHandler (by simp)) s

theorem count_anyConsoleCall (s : List Char) : anyConsoleCall.count (withReturns s) = anyConsoleCall.count s :=
  Marker.count_withReturns (indifferent_markers anyConsoleCall (by simp)) s

end Catalog

/-! ## Fonts that are declared by name -/

namespace Pattern

variable {k k' : CharSet}

/-- a run in front of a run of a larger set adds nothing -/
theorem startsAt_many_many (hk : ∀ c, k.mem c = true → k'.mem c = true) (q : Pattern) (s : List Char) :
    ((many k).seq ((many k').seq q)).startsAt s = ((many k').seq q).startsAt s := by
  rw [Bool.eq_iff_iff, startsAt_iff, startsAt_iff]
  simp only [rests, List.mem_flatMap, mem_runRests, List.not_mem_nil, false_or]
  constructor
  · rintro ⟨r, x, ⟨u, rfl, hu⟩, y, ⟨v, rfl, hv⟩, hr⟩
    refine ⟨r, y, ⟨u ++ v, (List.append_assoc _ _ _).symm, ?_⟩, hr⟩
    exact List.forall_mem_append.2 ⟨fun c hc => hk c (hu c hc), hv⟩
  · rintro ⟨r, y, hy, hr⟩
    exact ⟨r, s, ⟨[], rfl, by simp⟩, y, hy, hr⟩

/-- an optional part between two such runs is there, or else there is only one run -/
theorem startsAt_many_optional (hk : ∀ c, k.mem c = true → k'.mem c = true) (o q : Pattern) (s : List Char) :
    ((many k).seq ((Pattern.optional o).seq ((many k').seq q))).startsAt s =
      (((many k).seq (o.seq ((many k').seq q))).either ((many k').seq q)).startsAt s := by
  have hsplit : ∀ x, ((Pattern.optional o).seq ((many k').seq q)).startsAt x =
      ((o.seq ((many k').seq q)).startsAt x || ((many k').seq q).startsAt x) := by
    intro x
    rw [startsAt_eq_any, startsAt_eq_any, Pattern.optional, rests, rests, List.any_append]
    simp
  rw [startsAt_either, startsAt_eq_any, funext hsplit, startsAt_eq_any, ← startsAt_many_many hk q s, startsAt_eq_any]
  induction (many k).rests s with
  | nil => rfl
  | cons x l ih =>
    rw [List.any_cons, List.any_cons, List.any_cons, ih]
    cases (o.seq ((many k').seq q)).startsAt x <;> cases ((many k').seq q).startsAt x <;> simp

theorem occursIn_congr {p q : Pattern} (h : ∀ s, p.startsAt s = q.startsAt s) (s : List Char) :
    p.occursIn s = q.occursIn s := by
  induction s with
  | nil => exact h []
  | cons c s ih => rw [occursIn, occursIn, h, ih]

end Pattern

namespace Catalog

open Pattern

/-- a font declared by this name, perhaps in quotes and behind dashes -/
def declaredFont (name : String) : Pattern :=
  all [lit "fontFamily:", gap, maybeQuote, fontLead, lit name]

/-- the same with and without the quote -/
def declaredFontCases (name : String) : Pattern :=
  .seq (lit "fontFamily:")
    (.either (.seq gap (.seq (one .quote) (.seq fontLead (lit name)))) (.seq fontLead (lit name)))

theorem startsAt_declaredFont (name : String) (s : List Char) :
    (declaredFont name).startsAt s = (declaredFontCases name).startsAt s := by
  have hblank : ∀ c, CharSet.blank.mem c = true → (CharSet.oneOf ['-', '\t', '\n', '\x0c', '\x0d', ' ']).mem c = true := by
    intro c hc
    rw [CharSet.blank, CharSet.mem_oneOf] at hc
    rw [CharSet.mem_oneOf, List.contains_cons, hc, Bool.or_true]
  have hfont : ∀ x, ((gap.seq (maybeQuote.seq (fontLead.seq (lit name))))).startsAt x =
      ((gap.seq ((one .quote).seq (fontLead.seq (lit name)))).either (fontLead.seq (lit name))).startsAt x :=
    startsAt_many_optional hblank (one .quote) (lit name)
  have hshape : declaredFont name = (lit "fontFamily:").seq (gap.seq (maybeQuote.seq (fontLead.seq (lit name)))) := rfl
  rw [hshape, declaredFontCases, startsAt_eq_any, startsAt_eq_any, funext hfont]

theorem occursIn_sfProName (s : List Char) : sfProName.occursIn (withReturns s) = sfProName.occursIn s := by
  have hshape : sfProName = (lit "SF Pro").either ((lit "SFPro").either (declaredFont "SF")) := rfl
  have hcases : ∀ s, sfProName.occursIn s =
      ((lit "SF Pro").either ((lit "SFPro").either (declaredFontCases "SF"))).occursIn s := by
    refine occursIn_congr fun s => ?_
    rw [hshape, startsAt_either, startsAt_either, startsAt_either, startsAt_either, startsAt_declaredFont]
  rw [hcases, hcases, occursIn_withReturns (by decide)]

theorem occursIn_robotoName (s : List Char) : robotoName.occursIn (withReturns s) = robotoName.occursIn s := by
  have hshape : robotoName = (lit "Roboto").either (declaredFont "Roboto") := rfl
  have hcases : ∀ s, robotoName.occursIn s = ((lit "Roboto").either (declaredFontCases "Roboto")).occursIn s := by
    refine occursIn_congr fun s => ?_
    rw [hshape, startsAt_either, startsAt_either, startsAt_declaredFont]
  rw [hcases, hcases, occursIn_withReturns (by decide)]

end Catalog

/-! ## Rules -/

namespace Rule

/-- the check says the same about both texts -/
def Indifferent (rule : Rule) : Prop := ∀ content, rule.check (withReturns content) = rule.check content

variable {rule : Rule}

theorem indifferent_of_signals {cases : List (Condition × Signal)} (hcheck : rule.check = signals cases)
    (h : ∀ c ∈ cases, c.1.indifferent = true) : rule.Indifferent := by
  intro content
  rw [hcheck]
  exact signals_withReturns (fun c hc => Condition.holds_withReturns (h c hc)) content

end Rule

namespace Catalog

open Rule

theorem indifferent_touchTargetSize : touchTargetSize.Indifferent := by
  intro content
  simp only [touchTargetSize, Extractor.measures_withReturns tokens_edgeLength]

theorem indifferent_touchTargetSpacing : touchTargetSpacing.Indifferent := by
  intro content
  simp only [touchTargetSpacing, Extractor.measures_withReturns tokens_spacing]

theorem indifferent_lineHeight : lineHeight.Indifferent := by
  intro content
  simp only [lineHeight, Extractor.measures_withReturns tokens_lineHeightValue]

theorem indifferent_fontSizeRange : fontSizeRange.Indifferent := by
  intro content
  simp only [fontSizeRange, Extractor.measures_withReturns tokens_fontSizeValue]

theorem indifferent_iosTypeScale : iosTypeScale.Indifferent := by
  intro content
  simp only [iosTypeScale, Extractor.measures_withReturns tokens_fontSizeValue]

theorem indifferent_modularScale : modularScale.Indifferent := by
  intro content
  simp only [modularScale, Extractor.measures_withReturns tokens_fontSizeNumber]

theorem indifferent_fontWeightBalance : fontWeightBalance.Indifferent := by
  intro content
  simp only [fontWeightBalance, tokens_fontWeightValue]

theorem indifferent_saturatedColors : saturatedColors.Indifferent := by
  intro content
  simp only [saturatedColors, tokens_hexColor]

theorem indifferent_tabBarItems : tabBarItems.Indifferent := by
  intro content
  simp only [tabBarItems, overLimit, count_tabEntry]

theorem indifferent_consoleOutput : consoleOutput.Indifferent := by
  intro content
  simp only [consoleOutput, overLimit, count_consoleCall]

theorem indifferent_inlineHandlers : inlineHandlers.Indifferent := by
  intro content
  simp only [inlineHandlers, overLimit, count_inlineHandler]

theorem indifferent_debugConsole : debugConsole.Indifferent := by
  intro content
  simp only [debugConsole, overLimit, count_anyConsoleCall]

theorem indifferent_hermesEngine : hermesEngine.Indifferent := fun _ => rfl

theorem indifferent_androidMaterialComponents : androidMaterialComponents.Indifferent := by
  intro content
  have hall : ∀ p ∈ materialFamilies, p.indifferent = true := by decide
  have hfilter : materialFamilies.filter (fun p => p.occursIn (withReturns content)) =
      materialFamilies.filter fun p => p.occursIn content :=
    List.filter_congr fun p hp => Pattern.occursIn_withReturns (hall p hp) content
  simp only [androidMaterialComponents, hfilter]

theorem indifferent_iosSfPro : iosSfPro.Indifferent := by
  refine signals_withReturns fun c hc s => ?_
  have hnamed : namedFont.occursIn (withReturns s) = namedFont.occursIn s :=
    Pattern.occursIn_withReturns (by decide) s
  rw [List.mem_singleton.1 hc]
  simp only [Condition.holds, hnamed, occursIn_sfProName]

theorem indifferent_androidRoboto : androidRoboto.Indifferent := by
  refine signals_withReturns fun c hc s => ?_
  have hnamed : namedFont.occursIn (withReturns s) = namedFont.occursIn s :=
    Pattern.occursIn_withReturns (by decide) s
  rw [List.mem_singleton.1 hc]
  simp only [Condition.holds, hnamed, occursIn_robotoName]

/-- the rules that look at line breaks -/
def breakSensitive : List String := ["line-length", "testing-tools"]

end Catalog

/-- **All other rules are indifferent to line endings.** -/
theorem Rule.indifferent_of_mem {rule : Rule} (h : rule ∈ catalog) (hid : rule.id ∉ Catalog.breakSensitive) :
    rule.Indifferent := by
  have hlength : Catalog.lineLength.id ∈ Catalog.breakSensitive := by decide
  have htesting : Catalog.testingTools.id ∈ Catalog.breakSensitive := by decide
  have hall : ∀ rule ∈ catalog, rule.id ∉ Catalog.breakSensitive → rule.Indifferent := by
    simp only [catalog, List.forall_mem_cons, Catalog.indifferent_touchTargetSize,
      Catalog.indifferent_touchTargetSpacing, Catalog.indifferent_lineHeight, Catalog.indifferent_fontSizeRange,
      Catalog.indifferent_iosTypeScale, Catalog.indifferent_modularScale, Catalog.indifferent_fontWeightBalance,
      Catalog.indifferent_saturatedColors, Catalog.indifferent_tabBarItems, Catalog.indifferent_consoleOutput,
      Catalog.indifferent_inlineHandlers, Catalog.indifferent_debugConsole, Catalog.indifferent_hermesEngine,
      Catalog.indifferent_androidMaterialComponents, Catalog.indifferent_iosSfPro, Catalog.indifferent_androidRoboto,
      hlength, htesting, not_true_eq_false, implies_true, true_and, List.not_mem_nil, false_implies, and_true]
    -- all other rules raise signals under indifferent conditions
    and_intros <;> exact fun _ => indifferent_of_signals rfl (by decide +kernel)
  exact hall rule h hid

/-! ## Audits -/

theorem Frameworks.detect_withReturns (s : List Char) : detect (withReturns s) = detect s := by
  have hnative : reactNativeSign.occursIn (withReturns s) = reactNativeSign.occursIn s :=
    Pattern.occursIn_withReturns (by decide) s
  have hflutter : flutterSign.occursIn (withReturns s) = flutterSign.occursIn s :=
    Pattern.occursIn_withReturns (by decide) s
  rw [detect, detect, hnative, hflutter]

theorem Rule.Indifferent.outcomeAt {rule : Rule} (h : rule.Indifferent) (path : String) (content : List Char) :
    rule.outcomeAt path (withReturns content) = rule.outcomeAt path content := by
  rw [Rule.outcomeAt, Rule.outcomeAt, evaluate, evaluate, h]

/-- **Line endings do not matter.** Without the two rules that look at line breaks, a text and the same text with every
newline written as a carriage return and a newline are audited alike: the same scope, the same findings in the same
order, the same passes, on top of whatever has been found before. -/
theorem auditContent_withReturns (path : String) (content : List Char) (r : Result) :
    auditContent (catalog.filter fun rule => rule.id ∉ ["line-length", "testing-tools"]) path (withReturns content) r =
      auditContent (catalog.filter fun rule => rule.id ∉ ["line-length", "testing-tools"]) path content r := by
  have houtcome : ∀ rule ∈ (catalog.filter fun rule => rule.id ∉ ["line-length", "testing-tools"]).filter
      (fun rule => rule.applies (Frameworks.detect content)), ∀ r : Result,
      r.add (rule.outcomeAt path (withReturns content)) = r.add (rule.outcomeAt path content) := by
    intro rule hrule r
    obtain ⟨hmem, hid⟩ := List.mem_filter.1 (List.mem_filter.1 hrule).1
    rw [(Rule.indifferent_of_mem hmem (of_decide_eq_true hid)).outcomeAt]
  simp only [auditContent, Frameworks.detect_withReturns]
  split_ifs
  · exact List.foldl_ext _ _ _ fun r rule hrule => houtcome rule hrule r
  · rfl

end AppAudit
