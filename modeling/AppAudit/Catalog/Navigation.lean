/-
Rules on navigation: tab bars of a reasonable size that keep their screens, back handling that is wired up, and deep
links that lead somewhere.
-/
import AppAudit.Rule.Basic

namespace AppAudit.Catalog

open Pattern

def tabEntry : Marker where
  pattern := anyOf ["Tab.Screen", "createBottomTabNavigator", "BottomTab"]

def tabBarItems : Rule where
  id := "tab-bar-items"
  category := "Navigation"
  description := "Tab bars should declare at most 5 entries."
  check := overLimit 5 tabEntry fun n =>
    toString n ++ " tab bar items (max 5 recommended). More than 5 becomes hard to tap."

def tabNavigator : Pattern := anyOf ["createBottomTabNavigator", "Tab.Navigator"]

/-- screens stay mounted behind their tabs -/
def eagerTabs : Pattern := all [lit "lazy:", gap, lit "false"]

def tabState : Rule where
  id := "tab-state"
  category := "Navigation"
  description := "Tab navigators should keep screens mounted with lazy: false."
  check := signals [(.both (.present tabNavigator) (.absent eagerTabs), .warn
    "Tab navigation without lazy: false. Tabs may lose state on switch.")]

def customBack : Pattern := anyOf ["onBackPress", "handleBackPress"]

def backListener : Pattern := anyOf ["BackHandler", "useFocusEffect", "navigation.addListener"]

def backHandling : Rule where
  id := "back-handling"
  category := "Navigation"
  description := "Custom back handlers need a registered back listener."
  check := signals [(.both (.present customBack) (.absent backListener), .warn
    "Custom back handling without BackHandler listener. May not work correctly.")]

def deepLink : Pattern := anyOf ["Linking.", "Linking.openURL", "deepLink", "universalLink"]

def linkRouting : Pattern := anyOf ["apollo-link", "react-native-screens", "navigation.link"]

/-- no linking at all is fine; linking without any routing is not -/
def deepLinking : Rule where
  id := "deep-linking"
  category := "Navigation"
  description := "Deep links should come with navigation linking configuration."
  check := signals
    [(.both (.absent deepLink) (.absent linkRouting), .pass),
     (.both (.present deepLink) (.absent linkRouting), .warn
      "Deep linking detected but may lack proper configuration. Test notification/share flows.")]

end AppAudit.Catalog
