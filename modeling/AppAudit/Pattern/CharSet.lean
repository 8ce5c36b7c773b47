/-
Sets of characters, the leaves of every pattern.

A set is a list of inclusive ranges of code points, or everything outside such ranges. Keeping it as data, and not as
a function, lets a pattern be inspected (which characters can it ever consume?) and compared by `decide`.
-/

namespace AppAudit

/-- characters inside the given inclusive ranges, or outside all of them when `inverted` -/
structure CharSet where
  ranges : List (Char × Char)
  inverted : Bool := false
deriving DecidableEq, Repr

namespace CharSet

/-- whether a character lies in one of the ranges -/
def inRanges (c : Char) : List (Char × Char) → Bool
  | [] => false
  | (lo, hi) :: rest => (decide (lo ≤ c) && decide (c ≤ hi)) || inRanges c rest

def mem (s : CharSet) (c : Char) : Bool := inRanges c s.ranges != s.inverted

/-- exactly the listed characters -/
def oneOf (cs : List Char) : CharSet := ⟨cs.map fun c => (c, c), false⟩

/-- every character but the listed ones -/
def noneOf (cs : List Char) : CharSet := ⟨cs.map fun c => (c, c), true⟩

/-- every character that does not end a line -/
def inLine : CharSet := noneOf ['\n']

/-- white space of source text: tab, newline, form feed, carriage return and the blank -/
def blank : CharSet := oneOf ['\t', '\n', '\x0c', '\x0d', ' ']

def digit : CharSet := ⟨[('0', '9')], false⟩

def hexDigit : CharSet := ⟨[('0', '9'), ('A', 'F'), ('a', 'f')], false⟩

/-- the quotes that open and close a string literal -/
def quote : CharSet := oneOf ['"', '\'']

/-- a character of an identifier: letters and digits of ASCII, and the underscore -/
def word : CharSet := ⟨[('0', '9'), ('A', 'Z'), ('_', '_'), ('a', 'z')], false⟩

/-- a letter in upper or lower case -/
def eitherCase (c : Char) : CharSet := oneOf [c.toLower, c.toUpper]

/-- a letter in any of its case forms. Two letters have a third one outside ASCII: the Kelvin sign is a `k` and the
long s is an `s`. -/
def anyCase (c : Char) : CharSet :=
  let extra := match c.toLower with
    | 'k' => ['\u212a']
    | 's' => ['\u017f']
    | _ => []
  oneOf (c.toLower :: c.toUpper :: extra)

theorem inRanges_points (c : Char) (cs : List Char) :
    inRanges c (cs.map fun d => (d, d)) = cs.contains c := by
  induction cs with
  | nil => rfl
  | cons d cs ih =>
    have : (decide (d ≤ c) && decide (c ≤ d)) = (c == d) := by
      rw [Bool.eq_iff_iff]
      simp only [Bool.and_eq_true, decide_eq_true_eq, beq_iff_eq]
      exact ⟨fun h => Char.le_antisymm h.2 h.1, fun h => h ▸ ⟨Char.le_refl _, Char.le_refl _⟩⟩
    rw [List.map_cons, inRanges, List.contains_cons, ih, this]

theorem mem_oneOf (cs : List Char) (c : Char) : (oneOf cs).mem c = cs.contains c := by
  simp only [mem, oneOf, inRanges_points]
  cases cs.contains c <;> rfl

theorem mem_noneOf (cs : List Char) (c : Char) : (noneOf cs).mem c = !cs.contains c := by
  simp only [mem, noneOf, inRanges_points]
  cases cs.contains c <;> rfl

end CharSet

end AppAudit
