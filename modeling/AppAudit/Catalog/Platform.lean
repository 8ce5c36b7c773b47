/-
Rules on the two platforms: what iOS users expect (icons, typed haptics, safe areas, SF Pro, system colors, titled
navigation bars, native components) and what Android users expect (Material icons and components, ripples, the back
button, Roboto, dynamic color, elevation, thumb-reachable navigation).
-/
import AppAudit.Catalog.Typography

namespace AppAudit.Catalog

open Pattern

/-! ## iOS -/

def iosIcons : Rule where
  id := "ios-icons"
  category := "iOS"
  description := "Vector icon sets in use."
  requires := .reactNative
  check := signals
    [(.both (.present (anyOf ["@expo/vector-icons", "ionicons"])) (.absent (anyOf ["sf-symbol", "SF Symbols"])), .pass)]

def hapticLibrary : Pattern := anyOf ["expo-haptics", "react-native-haptic-feedback"]

def typedHaptics : Pattern := anyOf ["ImpactFeedback", "NotificationFeedback", "SelectionFeedback"]

def iosHapticTypes : Rule where
  id := "ios-haptic-types"
  category := "iOS Haptics"
  description := "Haptic libraries should be used through typed feedback styles."
  requires := .reactNative
  check := signals [(.both (.present hapticLibrary) (.absent typedHaptics), .warn
    "Haptic library imported but not using typed haptics (Impact/Notification/Selection).")]

def safeArea : Pattern := anyOf ["SafeAreaView", "useSafeAreaInsets", "safeArea"]

def iosSafeArea : Rule where
  id := "ios-safe-area"
  category := "iOS"
  description := "Screens should respect safe area insets."
  requires := .reactNative
  check := signals [(.absent safeArea, .warn
    "No SafeArea detected. Content may be hidden by notch/home indicator.")]

/-- dashes and white space before a font's name -/
def fontLead : Pattern := many (.oneOf ['-', '\t', '\n', '\x0c', '\x0d', ' '])

def sfProName : Pattern :=
  any [lit "SF Pro", lit "SFPro", all [lit "fontFamily:", gap, maybeQuote, fontLead, lit "SF"]]

def iosSfPro : Rule where
  id := "ios-sf-pro"
  category := "iOS"
  description := "Custom fonts should fall back to SF Pro."
  requires := .reactNative
  check := signals [(.both (.present namedFont) (.absent sfProName), .warn
    "Custom font without SF Pro fallback. Consider SF Pro Text for body, SF Pro Display for headings.")]

/-- a gray written out in digits -/
def fixedGray : Pattern := all [lit "#", one (.oneOf ['7', '8']), times 4 (.oneOf ['0'])]

def labelColor : Pattern := any [all [lit "color:", gap, maybeQuote, lit "label"], lit ".label"]

def secondaryLabel : Pattern := anyOf ["secondaryLabel", ".secondaryLabel"]

def iosSemanticColors : Rule where
  id := "ios-semantic-colors"
  category := "iOS"
  description := "Hard-coded grays instead of semantic label colors."
  requires := .reactNative
  check := signals
    [(.both (.present fixedGray) (.both (.absent labelColor) (.absent secondaryLabel)), .warn
      "Hardcoded gray colors detected. Consider iOS semantic colors (label, secondaryLabel) for automatic dark mode.")]

def primaryColor : Pattern := any [lit "primaryColor", all [lit "theme", lineGap, lit "primary"], lit "colors.primary"]

def iosSystemColor : Pattern :=
  anyOf ["#007AFF", "#0A84FF", "systemBlue", "#34C759", "#30D158", "systemGreen", "#FF3B30", "#FF453A", "systemRed"]

def iosAccentColors : Rule where
  id := "ios-accent-colors"
  category := "iOS"
  description := "Custom primary colors without an iOS system color fallback."
  requires := .reactNative
  check := signals [(.both (.present primaryColor) (.absent iosSystemColor), .warn
    "Custom primary color without iOS system color fallback. Consider systemBlue for consistent iOS feel.")]

def navigationBar : Pattern := anyOf ["navigationOptions", "headerStyle", "cardStyle"]

def navigationTitle : Pattern :=
  any [all [lit "title:", gap, one .quote], lit "headerTitle", lit "navigation.setOptions"]

def iosNavTitle : Rule where
  id := "ios-nav-title"
  category := "iOS"
  description := "Styled navigation bars should carry a title."
  requires := .reactNative
  check := signals [(.both (.present navigationBar) (.absent navigationTitle), .warn
    "Navigation bar detected without title. iOS apps should have clear context in nav bar.")]

def nativeComponent : Pattern :=
  anyOf ["Alert.alert", "showAlert", "ActionSheet", "ActionSheetIOS", "showActionSheetWithOptions", "ActivityIndicator",
    "ActivityIndic"]

def iosComponents : Rule where
  id := "ios-components"
  category := "iOS"
  description := "Native iOS components (alerts, action sheets, activity indicators) in use."
  requires := .reactNative
  check := signals [(.present nativeComponent, .pass)]

/-! ## Android -/

def androidMaterialIcons : Rule where
  id := "android-material-icons"
  category := "Android"
  description := "Material icon set in use."
  requires := .reactNative
  check := signals [(.present (anyOf ["@expo/vector-icons", "MaterialIcons"]), .pass)]

def touchable : Pattern := anyOf ["Pressable", "Touchable"]

def ripple : Pattern := anyOf ["ripple", "android_ripple", "foregroundRipple"]

def androidRipple : Rule where
  id := "android-ripple"
  category := "Android"
  description := "Touchables should show ripple feedback on Android."
  requires := .reactNative
  check := signals [(.both (.present touchable) (.absent ripple), .warn
    "Touchable without ripple effect. Android users expect ripple feedback.")]

def backButton : Pattern := anyOf ["BackHandler", "useBackHandler"]

def androidBackButton : Rule where
  id := "android-back-button"
  category := "Android"
  description := "React Navigation apps should handle the hardware back button."
  requires := .reactNative
  check := signals [(.both (.present (lit "@react-navigation")) (.absent backButton), .warn
    "React Navigation detected without BackHandler listener. Android hardware back may not work correctly.")]

def robotoName : Pattern :=
  any [lit "Roboto", all [lit "fontFamily:", gap, maybeQuote, fontLead, lit "Roboto"]]

def androidRoboto : Rule where
  id := "android-roboto"
  category := "Android"
  description := "Custom fonts should fall back to Roboto."
  requires := .reactNative
  check := signals [(.both (.present namedFont) (.absent robotoName), .warn
    "Custom font without Roboto fallback. Roboto is optimized for Android displays.")]

def dynamicColor : Pattern := anyOf ["MD3", "MaterialYou", "dynamicColor", "useColorScheme"]

def themeProvider : Pattern := anyOf ["MaterialTheme", "ThemeProvider", "PaperProvider"]

def androidDynamicColor : Rule where
  id := "android-dynamic-color"
  category := "Android"
  description := "Material 3 dynamic color or a theme provider."
  requires := .reactNative
  check := signals [(.both (.absent dynamicColor) (.absent themeProvider), .warn
    "No Material 3 dynamic color detected. Consider Material 3 theming for personalized feel.")]

def boxShadow : Pattern := lit "boxShadow:"

def elevation : Pattern :=
  any [all [lit "elevation:", gap, atLeastOne .digit], lit "shadowOpacity", lit "shadowRadius", lit "android:elevation"]

def androidElevation : Rule where
  id := "android-elevation"
  category := "Android"
  description := "CSS box shadows without Material elevation."
  requires := .reactNative
  check := signals [(.both (.present boxShadow) (.absent elevation), .warn
    "CSS box-shadow detected without elevation. Consider Material elevation system for consistent depth.")]

/-- the families of Material components that can be told from source text -/
def materialFamilies : List Pattern :=
  [ripple,
   any [lit "Card", lit "Paper", all [lit "elevation", lineGap, atLeastOne .digit]],
   anyOf ["FAB", "FloatingActionButton", "fab"],
   anyOf ["Snackbar", "showSnackBar", "Toast"]]

def androidMaterialComponents : Rule where
  id := "android-material-components"
  category := "Android"
  description := "Two or more Material component families used together."
  requires := .reactNative
  check s := if 2 ≤ (materialFamilies.filter fun p => p.occursIn s).length then [.pass] else []

def bottomNav : Pattern := anyOf ["BottomNavigation", "BottomNav"]

def topAppBar : Pattern := anyOf ["TopAppBar", "AppBar", "CollapsingToolbar"]

/-- bottom navigation is confirmed; a top bar alone, without a rail, is not enough -/
def androidNavigation : Rule where
  id := "android-navigation"
  category := "Android"
  description := "Primary navigation should be thumb reachable."
  requires := .reactNative
  check := signals
    [(.present bottomNav, .pass),
     (.both (.absent bottomNav) (.both (.present topAppBar) (.absent (lit "NavigationRail"))), .warn
      "TopAppBar without bottom navigation. Consider BottomNavigation for thumb-friendly access.")]

end AppAudit.Catalog
