/-
The rule catalog, in the order in which rules run on a file. Findings of one file are reported in this order.
-/
import AppAudit.Catalog.Color
import AppAudit.Catalog.Navigation
import AppAudit.Catalog.Platform
import AppAudit.Catalog.Quality
import AppAudit.Catalog.Rendering
import AppAudit.Catalog.Services
import AppAudit.Catalog.Touch
import AppAudit.Catalog.Typography

namespace AppAudit

/-- every rule, in running order -/
def catalog : List Rule :=
  open Catalog in
  [touchTargetSize, touchTargetSpacing, thumbZone, gestureAlternatives, hapticFeedback, touchFeedback,
   scrollViewMap, listItemMemo, renderItemCallback, listKeyExtractor, nativeDriver, effectCleanup, consoleOutput,
   inlineHandlers, animatedLayout,
   tabBarItems, tabState, backHandling, deepLinking,
   systemFont, fontScaling, lineHeight, fontSizeRange,
   pureBlack, darkMode,
   iosIcons, iosHapticTypes, iosSafeArea,
   androidMaterialIcons, androidRipple, androidBackButton,
   secureStorage, offlineHandling, pushHandler,
   iosTypeScale, androidSpUnits, modularScale, lineLength, fontWeightBalance,
   oledBackground, saturatedColors, lowContrast, darkModeWhiteText,
   iosSfPro, iosSemanticColors, iosAccentColors, iosNavTitle, iosComponents,
   androidRoboto, androidDynamicColor, androidElevation, androidMaterialComponents, androidNavigation,
   testingTools, testPyramid, a11yLabels,
   debugConsole, performanceProfiling, errorBoundary, hermesEngine]

/-- the rule with an identifier -/
def Catalog.lookup? (id : String) : Option Rule := catalog.find? fun r => r.id == id

end AppAudit
