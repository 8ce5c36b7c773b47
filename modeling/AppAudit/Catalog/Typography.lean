/-
Rules on typography: native fonts that follow the reader's settings, sizes and line heights in range, sizes that sit on
a recognised scale, lines that are not too long, and more regular than bold text.

Sizes are compared as binary numbers, exactly as an implementation in floating point would: a ratio of sizes is rounded
before it is held against the ratios of the known scales.
-/
import AppAudit.Rule.Basic

namespace AppAudit.Catalog

open Pattern

/-! ## Fonts -/

/-- a font family named in quotes -/
def namedFont : Pattern := all [lit "fontFamily:", gap, one .quote, atLeastOne (.noneOf ['"', '\''])]

def systemFontName : Pattern :=
  all [lit "fontFamily:", gap, maybeQuote, anyOf ["System", "San Francisco", "Roboto", "-apple-system"]]

def systemFont : Rule where
  id := "system-font"
  category := "Typography"
  description := "Custom font families without a system font."
  requires := .reactNative
  check := signals [(.both (.present namedFont) (.absent systemFontName), .warn
    "Custom font detected. Consider system fonts (iOS: SF Pro, Android: Roboto) for native feel.")]

def scalesWithSettings : Pattern :=
  any [all [lit "allowFontScaling:", gap, lit "true"], lit "responsiveFontSize", lit "useWindowDimensions"]

def fontScaling : Rule where
  id := "font-scaling"
  category := "Typography"
  description := "Fixed font sizes without Dynamic Type / font scaling support."
  requires := .reactNative
  check := signals [(.both (.present (lit "fontSize:")) (.absent scalesWithSettings), .warn
    "Fixed font sizes without scaling support. Consider allowFontScaling for accessibility.")]

/-! ## Sizes in range -/

/-- digits and points in any arrangement; not every such token is a number -/
def looseNumber : Pattern := atLeastOne ⟨[('0', '9'), ('.', '.')], false⟩

def lineHeightValue : Extractor where
  lead := property ["lineHeight"]
  token := looseNumber

def fontSizeValue : Extractor where
  lead := property ["fontSize"]
  token := looseNumber

/-- a font size that starts with a digit and ends where the number does -/
def fontSizeNumber : Extractor where
  lead := property ["fontSize"]
  token := plainNumber

def maxLineHeight : Binary64 := .ofRatio 18 10

def minFontSize : Binary64 := .ofNat 12

def maxFontSize : Binary64 := .ofNat 32

def lineHeight : Rule where
  id := "line-height"
  category := "Typography"
  description := "Every lineHeight above 1.8 is too loose for mobile text."
  check s := (lineHeightValue.measures s).filterMap fun m =>
    if maxLineHeight.lt m.value then
      some (.warn ("lineHeight " ++ String.ofList m.raw ++
        " too high for mobile. Mobile text needs tighter spacing (1.3-1.5)."))
    else none

def fontSizeRange : Rule where
  id := "font-size-range"
  category := "Typography"
  description := "Every fontSize outside 12..32."
  check s := (fontSizeValue.measures s).filterMap fun m =>
    if m.value.lt minFontSize then
      some (.warn ("fontSize " ++ String.ofList m.raw ++ "px below 12px minimum readability."))
    else if maxFontSize.lt m.value then
      some (.warn ("fontSize " ++ String.ofList m.raw ++ "px very large. Consider using responsive scaling."))
    else none

/-! ## Scales -/

/-- the point sizes of the iOS text styles -/
def iosTextStyles : List Binary64 := [34, 28, 22, 20, 17, 16, 15, 13, 12, 11].map .ofNat

/-- within one point of a text style -/
def onIosScale (size : Binary64) : Bool :=
  iosTextStyles.any fun style => (size.distance style).lt (.ofNat 1)

def iosTypeScale : Rule where
  id := "ios-type-scale"
  category := "iOS Typography"
  description := "Most font sizes should sit on the iOS text style scale."
  requires := .reactNative
  check s :=
    let sizes := fontSizeValue.measures s
    let matching := (sizes.filter fun m => onIosScale m.value).length
    if 3 < sizes.length && 2 * matching < sizes.length then
      [.warn "Font sizes don't match iOS type scale. Consider iOS text styles for native feel."]
    else []

/-- the ratios between neighbouring sizes of the usual modular scales -/
def scaleRatios : List Binary64 :=
  [(1125, 1000), (12, 10), (125, 100), (1333, 1000), (15, 10)].map fun (n, d) => .ofRatio n d

def scaleTolerance : Binary64 := .ofRatio 3 100

/-- within the tolerance of some scale's ratio -/
def nearScaleRatio (ratio : Binary64) : Bool :=
  scaleRatios.any fun r => (ratio.distance r).lt scaleTolerance

/-- the different sizes in ascending order -/
def distinctSizes (sizes : List Binary64) : List Binary64 :=
  sizes.eraseDups.mergeSort fun a b => !b.lt a

/-- the ratios of neighbouring sizes, as far as the smaller one is positive -/
def neighbourRatios (sorted : List Binary64) : List Binary64 :=
  ((sorted.zip sorted.tail).filter fun p => (Binary64.finite 0).lt p.1).map fun p => p.2.quotient p.1

/-- the first of the three lowest ratios that belongs to no scale -/
def offScaleRatio? (sizes : List Binary64) : Option Binary64 :=
  ((neighbourRatios (distinctSizes sizes)).take 3).find? fun r => !nearScaleRatio r

def modularScale : Rule where
  id := "modular-scale"
  category := "Typography"
  description := "Font sizes should follow a consistent modular scale ratio."
  check s :=
    let sizes := (fontSizeNumber.measures s).map (·.value)
    match if 3 < sizes.length then offScaleRatio? sizes else none with
    | some ratio =>
      [.warn ("Font sizes may not follow modular scale (ratio: " ++ ratio.toFixed2 ++ "). Consider consistent ratio.")]
    | none => []

/-! ## Units, length and weight -/

def displayText : Pattern :=
  any [all [lit "fontSize:", gap, one (.oneOf ['4', '5', '6']), one .digit], lit "display"]

def headlineText : Pattern :=
  any [all [lit "fontSize:", gap, one (.oneOf ['2', '3']), one .digit], lit "headline"]

def scaledUnit : Pattern := all [atLeastOne .digit, gap, lit "sp", wordEnd]

def androidSpUnits : Rule where
  id := "android-sp-units"
  category := "Android Typography"
  description := "Material display/headline typography should be sized in sp."
  requires := .reactNative
  check := signals
    [(.both (.either (.present displayText) (.present headlineText)) (.absent scaledUnit), .warn
      "Material typography detected without sp units. Use sp for text to respect user font size preferences.")]

/-- a text element with at least 40 characters before the next tag -/
def longText : Pattern :=
  all [lit "<Text", many (.noneOf ['>']), lit ">", times 40 (.noneOf ['<']), many (.noneOf ['<'])]

def widthLimit : Pattern :=
  any [lit "maxWidth", all [lit "max-w-", atLeastOne .digit], all [lit "width:", gap, maybeQuote, atLeastOne .digit]]

def lineLength : Rule where
  id := "line-length"
  category := "Mobile Typography"
  description := "Long text blocks need a max width to stay within 40-60 characters per line."
  requires := .reactNative
  check := signals [(.both (.present longText) (.absent widthLimit), .warn
    "Text without max-width constraint. Mobile text should be 40-60 characters per line for readability.")]

def fontWeightValue : Extractor where
  lead := all [lit "fontWeight:", gap, maybeQuote]
  token := any [atLeastOne .digit, lit "normal", lit "bold", lit "medium", lit "light"]

/-- the number behind a weight, which may be written as a name -/
def fontWeight? (token : List Char) : Option Nat :=
  match String.ofList token with
  | "normal" => some 400
  | "light" => some 300
  | "medium" => some 500
  | "bold" => some 700
  | _ => wholeNumber? token

def fontWeightBalance : Rule where
  id := "font-weight-balance"
  category := "Mobile Typography"
  description := "Bold weights should not outnumber regular weights."
  requires := .reactNative
  check s :=
    let weights := (fontWeightValue.tokens s).filterMap fontWeight?
    let bold := (weights.filter fun w => 700 ≤ w).length
    let regular := (weights.filter fun w => 400 ≤ w && w < 500).length
    if regular < bold then
      [.warn "More bold weights than regular. Mobile typography should be regular-dominant for readability."]
    else []

end AppAudit.Catalog
