/-
Rules on how the code is kept in shape: tests at both ends of the pyramid, labels for screen readers, little debug
output, profiling and error boundaries.
-/
import AppAudit.Rule.Basic

namespace AppAudit.Catalog

open Pattern

/-! ## Testing -/

/-- the tools that tests are written with; the last form is a flow file named at the very end of the text -/
def testTools : List Pattern :=
  [anyOf ["jest", "describe(", "test(", "it("],
   anyOf ["react-native-testing-library", "@testing-library"],
   anyOf ["detox", "element(", "by.text", "by.id"],
   any [lit "maestro", all [lit ".yaml", optional (one (.oneOf ['\n'])), textEnd]]]

def testingTools : Rule where
  id := "testing-tools"
  category := "Testing"
  description := "No unit or E2E testing framework referenced."
  check s :=
    if testTools.any fun p => p.occursIn s then []
    else [.warn "No testing framework detected. Consider Jest (unit) + Detox/Maestro (E2E) for mobile."]

def unitTestFile : Pattern := any [all [lit ".test.", anyOf ["tsx", "ts", "js", "jsx"]], lit ".spec."]

/-- a mention of tests on devices, whatever the case of its letters -/
def deviceTest : Pattern :=
  any [eitherCase "detox", eitherCase "maestro", eitherCase "e2e", eitherCase "spec.e2e"]

def testPyramid : Rule where
  id := "test-pyramid"
  category := "Testing"
  description := "Unit tests referenced without any E2E coverage."
  check := signals [(.both (.present unitTestFile) (.absent deviceTest), .warn
    "Unit tests found but no E2E tests. Mobile needs E2E on real devices for complete coverage.")]

def labelledTouchable : Pattern := anyOf ["Pressable", "TouchableOpacity", "TouchableHighlight"]

def screenReaderLabel : Pattern := anyOf ["accessibilityLabel", "aria-label", "testID"]

def a11yLabels : Rule where
  id := "a11y-labels"
  category := "A11y Mobile"
  description := "Touchable elements need accessibility labels."
  requires := .reactNative
  check := signals [(.both (.present labelledTouchable) (.absent screenReaderLabel), .warn
    "Touchable element without accessibilityLabel. Screen readers need labels for all interactive elements.")]

/-! ## Debugging -/

/-- a console call of any kind, the informational one included -/
def anyConsoleCall : Marker where
  pattern := all [lit "console.", anyOf ["log", "warn", "error", "debug", "info"]]

def debugConsole : Rule where
  id := "debug-console"
  category := "Debugging"
  description := "More than 10 console calls in one file."
  check := overLimit 10 anyConsoleCall fun n =>
    toString n ++ " console.log statements. Remove before production; they block JS thread."

def performanceProfiling : Rule where
  id := "performance-profiling"
  category := "Debugging"
  description := "Performance monitoring or profiling hooks in use."
  check := signals [(.present (anyOf ["Performance", "systrace", "profile", "Flipper"]), .pass)]

def errorBoundary : Rule where
  id := "error-boundary"
  category := "Debugging"
  description := "No error boundary to contain render crashes."
  requires := .reactNative
  check := signals [(.absent (anyOf ["ErrorBoundary", "componentDidCatch", "getDerivedStateFromError"]), .warn
    "No ErrorBoundary detected. Consider adding ErrorBoundary to prevent app crashes.")]

/-- the engine is the default one and cannot be told from source text, so this is always confirmed -/
def hermesEngine : Rule where
  id := "hermes-engine"
  category := "Debugging"
  description := "Hermes JavaScript engine."
  requires := .reactNative
  check _ := [.pass]

end AppAudit.Catalog
