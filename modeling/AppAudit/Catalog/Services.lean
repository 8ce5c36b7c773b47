/-
Rules on what lies behind the screens: credentials in safe storage, requests that expect to be offline, and push
messages that somebody handles.
-/
import AppAudit.Rule.Basic

namespace AppAudit.Catalog

open Pattern

/-- talk of tokens or of storing authentication, in any case -/
def credential : Pattern :=
  any [caseless "token", caseless "jwt", all [caseless "auth", lineGap, caseless "storage"]]

def plainStorage : Pattern := anyOf ["AsyncStorage", "@react-native-async-storage"]

def safeStorage : Pattern := anyOf ["SecureStore", "Keychain", "EncryptedSharedPreferences"]

def secureStorage : Rule where
  id := "secure-storage"
  category := "Security"
  description := "Credentials persisted through plain AsyncStorage."
  check := signals
    [(.both (.both (.present credential) (.present plainStorage)) (.absent safeStorage), .issue
      "Storing auth tokens in AsyncStorage (insecure). Use SecureStore (iOS) / EncryptedSharedPreferences (Android).")]

def networkCall : Pattern := anyOf ["fetch", "axios", "netinfo", "@react-native-community/netinfo"]

def offlineAware : Pattern :=
  any [lit "offline", lit "isConnected", lit "netInfo", all [lit "cache", lineGap, lit "offline"]]

def offlineHandling : Rule where
  id := "offline-handling"
  category := "Offline"
  description := "Network requests without connectivity handling."
  check := signals [(.both (.present networkCall) (.absent offlineAware), .warn
    "Network requests detected without offline handling. Consider NetInfo for connection status.")]

def pushMessages : Pattern := anyOf ["Notifications", "pushNotification", "Firebase.messaging", "PushNotificationIOS"]

def pushListener : Pattern := anyOf ["onNotification", "addNotificationListener", "notification.open"]

def pushHandler : Rule where
  id := "push-handler"
  category := "Push"
  description := "Push notifications imported without a handler."
  check := signals [(.both (.present pushMessages) (.absent pushListener), .warn
    "Push notifications imported but no handler found. May miss notifications.")]

end AppAudit.Catalog
