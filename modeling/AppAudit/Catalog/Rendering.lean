/-
Rules on rendering: long lists that are virtualised, keyed and memoised, animations off the script thread, effects
that clean up, and little console output and few functions made anew per render.
-/
import AppAudit.Rule.Basic

namespace AppAudit.Catalog

open Pattern

/-! ## Lists -/

def scrollContainer : Pattern := anyOf ["<ScrollView", "ScrollView."]

/-- rows produced by mapping inside a scroll container, on one line -/
def mappedRows : Pattern :=
  any [all [lit "ScrollView", lineGap, lit ".map("],
    all [lit "ScrollView", lineGap, lit "\x7b", lineGap, lit ".map"]]

def virtualList : Pattern := anyOf ["FlatList", "FlashList", "SectionList"]

def scrollViewMap : Rule where
  id := "scrollview-map"
  category := "Performance CRITICAL"
  description := "Lists rendered with .map() inside ScrollView keep every row mounted."
  check := signals
    [(.both (.both (.present scrollContainer) (.present mappedRows)) (.absent virtualList), .issue
      "ScrollView with .map() detected. Use FlatList for lists to prevent memory explosion.")]

def memoised : Pattern := anyOf ["React.memo", "memo("]

def listItemMemo : Rule where
  id := "list-item-memo"
  category := "Performance"
  description := "List items should be wrapped in React.memo."
  requires := .reactNative
  check := signals [(.both (.present virtualList) (.absent memoised), .warn
    "FlatList without React.memo on list items. Items will re-render on every parent update.")]

def renderItemCallback : Rule where
  id := "render-item-callback"
  category := "Performance"
  description := "renderItem should be memoized with useCallback."
  requires := .reactNative
  check := signals [(.both (.present (anyOf ["FlatList", "FlashList"])) (.absent (lit "useCallback")), .warn
    "FlatList renderItem without useCallback. New function created every render.")]

/-- rows keyed by their position -/
def positionalKey : Pattern :=
  any [all [lit "key=\x7b", lineGap, lit "index", lineGap, lit "\x7d"], all [lit "key:", gap, lit "index"]]

/-- a missing key extractor and positional keys are two issues of their own -/
def listKeyExtractor : Rule where
  id := "list-key-extractor"
  category := "Performance CRITICAL"
  description := "Virtualized lists need a stable keyExtractor and must not key rows by index."
  requires := .reactNative
  check := signals
    [(.both (.present (lit "FlatList")) (.absent (lit "keyExtractor")), .issue
      "FlatList without keyExtractor. Index-based keys cause bugs on reorder/delete."),
     (.present positionalKey, .issue
      "Using index as key. This causes bugs when list changes. Use unique ID from data.")]

/-! ## Animations and effects -/

def animated : Pattern := lit "Animated."

def nativeDriverOn : Pattern := all [lit "useNativeDriver:", gap, lit "true"]

def nativeDriverOff : Pattern := all [lit "useNativeDriver:", gap, lit "false"]

def nativeDriver : Rule where
  id := "native-driver"
  category := "Performance"
  description := "Animations should run on the native driver."
  requires := .reactNative
  check := signals
    [(.both (.present animated) (.present nativeDriverOff), .warn
      "Animation with useNativeDriver: false. Use true for 60fps (only supports transform/opacity)."),
     (.both (.present animated) (.absent nativeDriverOn), .warn
      "Animated component without useNativeDriver. Add useNativeDriver: true for 60fps.")]

def subscription : Pattern := anyOf ["addEventListener", "subscribe", ".focus()", ".off("]

/-- an effect that returns its own cleanup -/
def teardown : Pattern :=
  any [all [lit "return", gap, lit "()", gap, lit "=>"],
    all [lit "return", atLeastOne .blank, lit "function"]]

def effectCleanup : Rule where
  id := "effect-cleanup"
  category := "Memory Leak"
  description := "useEffect subscriptions must return a teardown callback."
  requires := .reactNative
  check := signals
    [(.both (.both (.present (lit "useEffect")) (.present subscription)) (.absent teardown), .issue
      "useEffect with subscriptions but no cleanup function. Memory leak on unmount.")]

/-- an animation of something that changes the layout, on one line -/
def layoutAnimation : Pattern :=
  all [lit "Animated.timing", lineGap, anyOf ["width", "height", "margin", "padding"]]

def animatedLayout : Rule where
  id := "animated-layout"
  category := "Performance"
  description := "Animations should target transform/opacity, not layout properties."
  check := signals [(.present layoutAnimation, .issue
    "Animating layout properties (width/height/margin). Use transform/opacity for 60fps.")]

/-! ## Work per render -/

def consoleCall : Marker where
  pattern := anyOf ["console.log", "console.warn", "console.error", "console.debug"]

def consoleOutput : Rule where
  id := "console-output"
  category := "Performance"
  description := "More than 5 console calls in one file."
  check := overLimit 5 consoleCall fun n =>
    toString n ++ " console.log statements detected. Remove before production (blocks JS thread)."

/-- a function written in place as a handler -/
def inlineHandler : Marker where
  pattern := all [anyOf ["onPress", "onPressIn", "onPressOut", "renderItem"], lit ":", gap, lit "(",
    many (.noneOf [')']), lit ")", gap, lit "=>"]

def inlineHandlers : Rule where
  id := "inline-handlers"
  category := "Performance"
  description := "More than 3 inline arrow functions passed as handler props."
  requires := .reactNative
  check := overLimit 3 inlineHandler fun n =>
    toString n ++ " inline arrow functions in props. Creates new function every render. Use useCallback."

end AppAudit.Catalog
