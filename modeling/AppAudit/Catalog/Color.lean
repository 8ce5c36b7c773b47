/-
Rules on color: blacks that suit the display, dark mode, saturation and contrast.
-/
import AppAudit.Rule.Basic

namespace AppAudit.Catalog

open Pattern

/-! ## Black and dark mode -/

def pureBlackColor : Pattern :=
  any [lit "#000000", all [lit "color:", gap, lit "black"],
    all [lit "backgroundColor:", gap, maybeQuote, lit "black"]]

def pureBlack : Rule where
  id := "pure-black"
  category := "Color"
  description := "Pure black (#000000) instead of a dark gray."
  check := signals [(.present pureBlackColor, .warn
    "Pure black (#000000) detected. Use dark gray (#1C1C1E iOS, #121212 Android) for better OLED/battery.")]

def colorScheme : Pattern :=
  any [lit "useColorScheme", lit "colorScheme", all [lit "appearance:", gap, maybeQuote, lit "dark"]]

/-- styles that mention darkness; the first form is a backslash and a question mark -/
def darkStyle : Pattern :=
  any [all [lit "\\?", lineGap, lit "dark"], all [lit "style:", gap, lineGap, lit "dark"], lit "isDark"]

def darkMode : Rule where
  id := "dark-mode"
  category := "Color"
  description := "No color scheme or dark styling at all."
  check := signals [(.both (.absent colorScheme) (.absent darkStyle), .warn
    "No dark mode support detected. Consider useColorScheme for system dark mode.")]

def nearBlack : Pattern := anyOf ["#121212", "#1A1A1A", "#0D0D0D"]

def blackBackground : Pattern := all [lit "backgroundColor:", gap, maybeQuote, lit "#000000"]

def hexBackground : Pattern := all [lit "backgroundColor:", gap, maybeQuote, lit "#", times 6 .hexDigit]

/-- near-black anywhere is confirmed, a pure black background is accepted, any other fixed background is not -/
def oledBackground : Rule where
  id := "oled-background"
  category := "Mobile Color"
  description := "Dark backgrounds should be OLED friendly."
  check := signals
    [(.present nearBlack, .pass),
     (.both (.both (.absent nearBlack) (.absent blackBackground)) (.present hexBackground), .warn
      "Consider OLED-optimized dark backgrounds (#121212 Android, #000000 iOS) for battery savings.")]

def darkContext : Pattern :=
  any [all [lit "dark:", gap], lit "isDark", lit "useColorScheme",
    all [lit "colorScheme:", gap, maybeQuote, lit "dark"]]

def whiteText : Pattern :=
  any [all [lit "color:", gap, maybeQuote, lit "#ffffff"], all [lit "#fff", maybeQuote, lit "\x7d"],
    all [lit "textColor:", gap, maybeQuote, lit "white"]]

def darkModeWhiteText : Rule where
  id := "dark-mode-white-text"
  category := "Mobile Color"
  description := "Pure white text on dark backgrounds."
  check := signals [(.both (.present darkContext) (.present whiteText), .warn
    "Pure white text (#FFFFFF) in dark mode. Use #E8E8E8 or light gray for better readability.")]

/-! ## Saturation and contrast -/

/-- a channel of a color in hexadecimal, at most 255 -/
def channel? (ds : List Char) : Option Nat :=
  if ds.isEmpty || !ds.all CharSet.hexDigit.mem then none
  else
    let n := ds.foldl (fun n d => 16 * n + hexValue d) 0
    if n ≤ 255 then some n else none
where
  /-- the value of one hexadecimal digit -/
  hexValue (d : Char) : Nat := if d.isDigit then d.toNat - '0'.toNat else d.toLower.toNat - 'a'.toNat + 10

/-- the spread of the channels relative to the largest one; zero for black and for what is no color -/
def saturation (r g b : List Char) : Binary64 :=
  match channel? r, channel? g, channel? b with
  | some r, some g, some b =>
    let hi := max (max r g) b
    let lo := min (min r g) b
    if hi = 0 then .finite 0 else (Binary64.ofNat (hi - lo)).quotient (.ofNat hi)
  | _, _, _ => .finite 0

def hexColor : Extractor where
  lead := lit "#"
  token := times 6 .hexDigit

def highSaturation : Binary64 := .ofRatio 8 10

/-- whether six hexadecimal digits are a highly saturated color -/
def isSaturated (ds : List Char) : Bool :=
  highSaturation.lt (saturation (ds.take 2) ((ds.drop 2).take 2) (ds.drop 4))

def saturatedColors : Rule where
  id := "saturated-colors"
  category := "Mobile Color"
  description := "More than 10 highly saturated hex colors."
  check s :=
    let n := ((hexColor.tokens s).filter isSaturated).length
    if 10 < n then
      [.warn (toString n ++ " highly saturated colors detected. Desaturated colors save battery on OLED screens.")]
    else []

/-- two colors on one line that are hard to tell apart -/
def lowContrastPair : Pattern :=
  any [all [lit "#", one (.oneOf ['E', 'e']), lineGap, lit "#ffffff"],
    all [lit "#999999", lineGap, lit "#ffffff"],
    all [lit "#333333", lineGap, lit "#000000"],
    all [lit "#666666", lineGap, lit "#000000"]]

def lowContrast : Rule where
  id := "low-contrast"
  category := "Mobile Color"
  description := "Known low-contrast color pairs."
  check := signals [(.present lowContrastPair, .warn
    "Possible low contrast combination detected. Critical for outdoor visibility. Ensure WCAG AAA (7:1) for mobile.")]

end AppAudit.Catalog
