/-
Which mobile frameworks a source file uses.

Frameworks are bits of one byte, so that a rule can require several at once. A file is in scope as soon as any bit is
set. Detection looks for a few telling texts and never fails; it knows two frameworks, and the other bits stay clear.
-/
import AppAudit.Pattern.Basic

namespace AppAudit

/-- a set of frameworks, one bit each -/
structure Frameworks where
  bits : UInt8
deriving DecidableEq, Repr

namespace Frameworks

def none : Frameworks := ⟨0⟩

def reactNative : Frameworks := ⟨1⟩

def flutter : Frameworks := ⟨2⟩

/-- the frameworks of either set -/
def union (a b : Frameworks) : Frameworks := ⟨a.bits ||| b.bits⟩

/-- whether the two sets share a framework -/
def meets (a b : Frameworks) : Bool := (a.bits &&& b.bits) != 0

/-- whether every required framework is there -/
def has (a required : Frameworks) : Bool := (a.bits &&& required.bits) == required.bits

/-- whether any framework is there -/
def inScope (a : Frameworks) : Bool := a.bits != 0

/-- the known frameworks of the set, separated by commas -/
def names (a : Frameworks) : String :=
  match a.meets reactNative, a.meets flutter with
  | true, true => "react-native,flutter"
  | true, false => "react-native"
  | false, true => "flutter"
  | false, false => "none"

/-- what gives a React Native source away -/
def reactNativeSign : Pattern := .anyOf ["react-native", "@react-navigation", "React.Native"]

/-- what gives a Flutter source away -/
def flutterSign : Pattern := .anyOf ["import 'package:flutter", "MaterialApp", "Widget.build"]

/-- the frameworks that a text gives away -/
def detect (content : List Char) : Frameworks :=
  let a := if reactNativeSign.occursIn content then reactNative else none
  let b := if flutterSign.occursIn content then flutter else none
  a.union b

end Frameworks

end AppAudit
