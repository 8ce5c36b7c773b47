/-
Rules on touch: targets large and far apart enough to hit, actions within reach of the thumb, gestures with a visible
alternative, and feedback that can be felt and seen.
-/
import AppAudit.Rule.Basic

namespace AppAudit.Catalog

open Pattern

/-! ## Size and spacing -/

/-- a declared edge length -/
def edgeLength : Extractor :=
  { lead := property ["width", "height", "size"], token := plainNumber }

/-- a declared distance between elements, with its unit -/
def spacing : Extractor :=
  { lead := property ["margin", "gap"]
    token := plainNumber
    trail := all [gap, optional (anyOf ["px", "dp"])] }

def minTarget : Binary64 := .ofNat 44

def minSpacing : Binary64 := .ofNat 8

def touchTargetSize : Rule where
  id := "touch-target-size"
  category := "Touch Target"
  description := "Every width/height/size below 44 units is too small to tap reliably."
  check s := (edgeLength.measures s).filterMap fun m =>
    if m.value.lt minTarget then
      some (.issue ("Touch target size " ++ String.ofList m.raw ++ "px < 44px minimum (iOS: 44pt, Android: 48dp)"))
    else none

def touchTargetSpacing : Rule where
  id := "touch-target-spacing"
  category := "Touch Spacing"
  description := "Every margin/gap below 8 units risks accidental taps on neighbouring targets."
  check s := (spacing.measures s).filterMap fun m =>
    if m.value.lt minSpacing then
      some (.warn ("Touch target spacing " ++ String.ofList m.raw ++ "px < 8px minimum. Accidental taps risk."))
    else none

/-! ## Reach -/

/-- an element identified as the main action of the screen -/
def primaryAction : Pattern :=
  all [any [caseless "testID", caseless "id"], lit ":", gap, one .quote, lineGap,
    any [caseless "primary", caseless "cta", caseless "submit", caseless "confirm"],
    many (.noneOf ['"', '\'']), one .quote]

/-- something is placed at the bottom of the screen -/
def atBottom : Pattern :=
  any [all [lit "position:", gap, maybeQuote, lit "absolute", maybeQuote],
    all [lit "bottom:", gap, atLeastOne .digit],
    all [lit "style", lineGap, lit "bottom"],
    all [lit "justifyContent:", gap, maybeQuote, lit "flex-end"]]

def thumbZone : Rule where
  id := "thumb-zone"
  category := "Thumb Zone"
  description := "Primary calls to action should be anchored at the bottom of the screen."
  check := signals [(.both (.present primaryAction) (.absent atBottom), .warn
    "Primary CTA may not be in thumb zone (bottom). Place primary actions at bottom for easy reach.")]

/-! ## Gestures and feedback -/

def swipe : Pattern := anyOf ["Swipeable", "onSwipe", "PanGestureHandler", "swipe"]

/-- a button that offers what a swipe would do -/
def swipeButton : Pattern :=
  any [all [lit "Button", lineGap, anyOf ["delete", "archive", "more"]], lit "TouchableOpacity", lit "Pressable"]

def gestureAlternatives : Rule where
  id := "gesture-alternatives"
  category := "Gestures"
  description := "Swipe actions need a visible button alternative."
  check := signals [(.both (.present swipe) (.absent swipeButton), .warn
    "Swipe gestures detected without visible button alternatives. Motor impaired users need alternatives.")]

def weightyAction : Pattern := anyOf ["onPress", "onSubmit", "delete", "remove", "confirm", "purchase"]

def vibration : Pattern := anyOf ["Haptics", "Vibration", "react-native-haptic-feedback", "FeedbackManager"]

def hapticFeedback : Rule where
  id := "haptic-feedback"
  category := "Haptics"
  description := "Important actions should confirm with haptic feedback."
  check := signals [(.both (.present weightyAction) (.absent vibration), .warn
    "Important actions without haptic feedback. Consider adding haptic confirmation.")]

def pressable : Pattern := anyOf ["Pressable", "TouchableOpacity"]

/-- a look of its own while pressed -/
def pressedLook : Pattern := any [lit "pressed", all [lit "style", lineGap, lit "opacity"], lit "underlay"]

def touchFeedback : Rule where
  id := "touch-feedback"
  category := "Touch Feedback"
  description := "Pressables should change appearance while pressed."
  requires := .reactNative
  check := signals [(.both (.present pressable) (.absent pressedLook), .warn
    "Pressable without visual feedback state. Add opacity/scale change for tap confirmation.")]

end AppAudit.Catalog
