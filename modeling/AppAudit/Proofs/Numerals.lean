/-
Tokens as decimal numbers.

A token of digits and points denotes a number if it has at least one digit and at most one point: its digits in front of
the point count ones, tens and so on, those behind it tenths, hundredths and so on. Reading such a token finds just this
number, written as a whole coefficient and a number of places, and rounds it once; any other token is refused.

Main results:
- `Decimal.read?_token`: which tokens are read, and as which coefficient with how many places;
- `Binary64.read?_token`: a token of moderate length is read as the value closest to its exact number of trillionths.
-/
import Mathlib.Tactic
import Mathlib.Data.List.TakeWhile
import AppAudit.Number.Decimal
import AppAudit.Proofs.Rounding

namespace AppAudit

/-! ## Digits -/

/-- what a digit is worth -/
def digitValue (c : Char) : ℕ := c.toNat - '0'.toNat

theorem digitValue_le {c : Char} (h : c.isDigit = true) : digitValue c ≤ 9 := by
  have hle : c.toNat ≤ 57 := by
    simp only [Char.isDigit, Bool.and_eq_true, decide_eq_true_eq] at h
    exact UInt32.le_iff_toNat_le.1 h.2
  have hzero : '0'.toNat = 48 := rfl
  unfold digitValue
  omega

def AllDigits (ds : List Char) : Prop := ∀ c ∈ ds, c.isDigit = true

theorem allDigits_nil : AllDigits [] := List.forall_mem_nil _

/-- ones, tens and so on, from the last digit on -/
def wholeValue (ds : List Char) : ℕ := Nat.ofDigits 10 (ds.reverse.map digitValue)

/-- tenths, hundredths and so on, from the first digit on -/
def fractionValue : List Char → ℚ
  | [] => 0
  | d :: ds => (digitValue d + fractionValue ds) / 10

theorem natOfDigits_append_singleton (ds : List Char) (d : Char) :
    natOfDigits (ds ++ [d]) = 10 * natOfDigits ds + digitValue d := by
  simp [natOfDigits, digitValue]

theorem natOfDigits_eq_wholeValue (ds : List Char) : natOfDigits ds = wholeValue ds := by
  induction ds using List.reverseRecOn with
  | nil => rfl
  | append_singleton ds d ih =>
    rw [natOfDigits_append_singleton, ih, wholeValue, wholeValue, List.reverse_append, List.reverse_singleton,
      List.singleton_append, List.map_cons, Nat.ofDigits_cons, Nat.add_comm]

theorem natOfDigits_append (a b : List Char) :
    natOfDigits (a ++ b) = natOfDigits a * 10 ^ b.length + natOfDigits b := by
  simp only [natOfDigits_eq_wholeValue, wholeValue]
  rw [List.reverse_append, List.map_append, Nat.ofDigits_append, List.length_map, List.length_reverse]
  ring

theorem natOfDigits_eq_fractionValue (ds : List Char) : (natOfDigits ds : ℚ) = fractionValue ds * 10 ^ ds.length := by
  induction ds with
  | nil => simp [natOfDigits, fractionValue]
  | cons d ds ih =>
    have hd : natOfDigits [d] = digitValue d := by simp [natOfDigits, digitValue]
    rw [← List.singleton_append, natOfDigits_append, hd, List.singleton_append, fractionValue, List.length_cons, pow_succ]
    push_cast
    rw [ih]
    ring

theorem natOfDigits_lt {ds : List Char} (h : AllDigits ds) : natOfDigits ds < 10 ^ ds.length := by
  have hdigits : ∀ n ∈ ds.reverse.map digitValue, n < 10 := by
    intro n hn
    obtain ⟨c, hc, rfl⟩ := List.mem_map.1 hn
    exact Nat.lt_succ_of_le (digitValue_le (h c (List.mem_reverse.1 hc)))
  have hlt := Nat.ofDigits_lt_base_pow_length (by decide) hdigits
  rw [List.length_map, List.length_reverse] at hlt
  rwa [natOfDigits_eq_wholeValue, wholeValue]

/-! ## Tokens -/

/-- the digits in front of the first point -/
def wholePart (t : List Char) : List Char := t.takeWhile (· ≠ '.')

/-- what is behind the first point -/
def fractionPart (t : List Char) : List Char := (t.dropWhile (· ≠ '.')).tail

/-- at least one digit and at most one point -/
def isNumeral (t : List Char) : Bool := t.any Char.isDigit && t.count '.' ≤ 1

/-- the number that a numeral denotes -/
def exactValue (t : List Char) : ℚ := wholeValue (wholePart t) + fractionValue (fractionPart t)

/-- made of digits and points -/
def IsToken (t : List Char) : Prop := ∀ c ∈ t, c.isDigit = true ∨ c = '.'

/-- without a second point, at most 300 digits in front of the point and at most twelve behind it -/
def IsModerate (t : List Char) : Prop :=
  t.count '.' ≤ 1 → (wholePart t).length ≤ 300 ∧ (fractionPart t).length ≤ 12

instance (t : List Char) : Decidable (IsModerate t) := inferInstanceAs (Decidable (_ → _))

section

variable {t ds fs s : List Char}

theorem ne_point_of_isDigit {c : Char} (h : c.isDigit = true) : c ≠ '.' := by
  rintro rfl
  simp at h

/-- a token is digits only, or digits in front of a point and a token behind it -/
theorem IsToken.cases (h : IsToken t) :
    AllDigits t ∨ ∃ ds s, t = ds ++ '.' :: s ∧ AllDigits ds ∧ IsToken s := by
  induction t with
  | nil => exact Or.inl allDigits_nil
  | cons c t ih =>
    rcases h c List.mem_cons_self with hc | rfl
    · rcases ih fun d hd => h d (List.mem_cons_of_mem _ hd) with hall | ⟨ds, s, rfl, hds, hs⟩
      · exact Or.inl (List.forall_mem_cons.2 ⟨hc, hall⟩)
      · exact Or.inr ⟨c :: ds, s, rfl, List.forall_mem_cons.2 ⟨hc, hds⟩, hs⟩
    · exact Or.inr ⟨[], t, rfl, allDigits_nil, fun d hd => h d (List.mem_cons_of_mem _ hd)⟩

theorem count_point_eq_zero (h : AllDigits ds) : ds.count '.' = 0 :=
  List.count_eq_zero.2 fun hp => ne_point_of_isDigit (h _ hp) rfl

theorem any_isDigit (h : AllDigits ds) : ds.any Char.isDigit = !ds.isEmpty := by
  cases ds with
  | nil => rfl
  | cons d ds => simp [h d List.mem_cons_self]

/-! Digits alone. -/

theorem wholePart_digits (h : AllDigits ds) : wholePart ds = ds :=
  List.takeWhile_eq_self_iff.2 fun c hc => decide_eq_true (ne_point_of_isDigit (h c hc))

theorem fractionPart_digits (h : AllDigits ds) : fractionPart ds = [] := by
  rw [fractionPart, List.dropWhile_eq_nil_iff.2 fun c hc => decide_eq_true (ne_point_of_isDigit (h c hc))]
  rfl

theorem isNumeral_digits (h : AllDigits ds) : isNumeral ds = !ds.isEmpty := by
  simp [isNumeral, any_isDigit h, count_point_eq_zero h]

/-! Digits in front of a point. -/

theorem wholePart_point (h : AllDigits ds) (s : List Char) : wholePart (ds ++ '.' :: s) = ds := by
  rw [wholePart, List.takeWhile_append_of_pos fun c hc => decide_eq_true (ne_point_of_isDigit (h c hc))]
  simp

theorem fractionPart_point (h : AllDigits ds) (s : List Char) : fractionPart (ds ++ '.' :: s) = s := by
  rw [fractionPart, List.dropWhile_append_of_pos fun c hc => decide_eq_true (ne_point_of_isDigit (h c hc))]
  simp

theorem isNumeral_point (hds : AllDigits ds) (hfs : AllDigits fs) :
    isNumeral (ds ++ '.' :: fs) = !(ds.isEmpty && fs.isEmpty) := by
  have hpoint : Char.isDigit '.' = false := by decide
  simp [isNumeral, any_isDigit hds, any_isDigit hfs, count_point_eq_zero hds, count_point_eq_zero hfs, hpoint]

theorem isNumeral_points (ds fs s : List Char) : isNumeral (ds ++ '.' :: (fs ++ '.' :: s)) = false := by
  simp only [isNumeral, List.count_append, List.count_cons_self, Bool.and_eq_false_iff, decide_eq_false_iff_not]
  right
  omega

/-- the three shapes of a token -/
theorem IsToken.shapes (h : IsToken t) :
    AllDigits t ∨ (∃ ds fs, t = ds ++ '.' :: fs ∧ AllDigits ds ∧ AllDigits fs) ∨
      ∃ ds fs s, t = ds ++ '.' :: (fs ++ '.' :: s) ∧ AllDigits ds ∧ AllDigits fs := by
  rcases h.cases with hall | ⟨ds, s, rfl, hds, hs⟩
  · exact Or.inl hall
  · rcases hs.cases with hfs | ⟨fs, s, rfl, hfs, -⟩
    · exact Or.inr (Or.inl ⟨ds, s, rfl, hds, hfs⟩)
    · exact Or.inr (Or.inr ⟨ds, fs, s, rfl, hds, hfs⟩)

end

/-! ## Reading -/

namespace Decimal

variable {t ds fs s : List Char}

theorem separated_of_not_mem {s : List Char} (h : '_' ∉ s) (afterDigit : Bool) : separated afterDigit s = true := by
  induction s generalizing afterDigit with
  | nil => rfl
  | cons c s ih =>
    rw [List.mem_cons, not_or] at h
    unfold separated
    split
    · rfl
    · rename_i heq
      exact absurd (List.cons.inj heq).1.symm h.1
    · rename_i heq
      obtain ⟨rfl, rfl⟩ := List.cons.inj heq
      simp [Ne.symm h.1, ih h.2]

/-- no sign, and no underscore to drop -/
theorem read?_eq_readPlain? (h : IsToken t) : read? t = readPlain? t := by
  have hne : '_' ∉ t := fun hmem => by
    rcases h _ hmem with hdigit | hpoint
    · exact absurd hdigit (by decide)
    · exact absurd hpoint (by decide)
  have hfilter : t.filter (· ≠ '_') = t := by
    refine List.filter_eq_self.2 fun c hc => decide_eq_true ?_
    rintro rfl
    exact hne hc
  rw [read?, if_pos (separated_of_not_mem hne false), hfilter]

theorem takeSign_token (h : IsToken t) : takeSign t = (false, t) := by
  unfold takeSign
  split
  · exact absurd (h '-' List.mem_cons_self) (by decide)
  · exact absurd (h '+' List.mem_cons_self) (by decide)
  · rfl

theorem takeWhile_digits (h : AllDigits ds) : ds.takeWhile Char.isDigit = ds :=
  List.takeWhile_eq_self_iff.2 h

theorem dropWhile_digits (h : AllDigits ds) : ds.dropWhile Char.isDigit = [] :=
  List.dropWhile_eq_nil_iff.2 h

theorem takeWhile_point (h : AllDigits ds) (s : List Char) :
    (ds ++ '.' :: s).takeWhile Char.isDigit = ds := by
  rw [List.takeWhile_append_of_pos h, List.takeWhile_cons_of_neg (by decide), List.append_nil]

theorem dropWhile_point (h : AllDigits ds) (s : List Char) :
    (ds ++ '.' :: s).dropWhile Char.isDigit = '.' :: s := by
  rw [List.dropWhile_append_of_pos h, List.dropWhile_cons_of_neg (by decide)]

theorem readPlain?_digits (h : AllDigits ds) :
    readPlain? ds = if ds.isEmpty then none else some ⟨natOfDigits ds, 0⟩ := by
  have htoken : IsToken ds := fun c hc => Or.inl (h c hc)
  simp [readPlain?, takeSign_token htoken, takeWhile_digits h, dropWhile_digits h, readExponent]

theorem readPlain?_point (hds : AllDigits ds) (hfs : AllDigits fs) :
    readPlain? (ds ++ '.' :: fs) =
      if ds.isEmpty && fs.isEmpty then none else some ⟨natOfDigits (ds ++ fs), -(fs.length : Int)⟩ := by
  have htoken : IsToken (ds ++ '.' :: fs) := by
    intro c hc
    rcases List.mem_append.1 hc with hc | hc
    · exact Or.inl (hds c hc)
    · exact (List.mem_cons.1 hc).symm.imp_left (hfs c)
  simp [readPlain?, takeSign_token htoken, takeWhile_point hds, dropWhile_point hds, takeWhile_digits hfs,
    dropWhile_digits hfs, readExponent]

theorem readPlain?_points (h : IsToken (ds ++ '.' :: (fs ++ '.' :: s))) (hds : AllDigits ds)
    (hfs : AllDigits fs) : readPlain? (ds ++ '.' :: (fs ++ '.' :: s)) = none := by
  have hpoint : readExponent ('.' :: s) = none := by simp [readExponent]
  simp [readPlain?, takeSign_token h, takeWhile_point hds, dropWhile_point hds, takeWhile_point hfs,
    dropWhile_point hfs, hpoint]

/-- **Numerals are read as they are written**, and nothing else is. -/
theorem read?_token (h : IsToken t) :
    read? t =
      if isNumeral t then
        some ⟨natOfDigits (wholePart t ++ fractionPart t), -((fractionPart t).length : Int)⟩
      else none := by
  rw [read?_eq_readPlain? h]
  rcases h.shapes with hds | ⟨ds, fs, rfl, hds, hfs⟩ | ⟨ds, fs, s, rfl, hds, hfs⟩
  · rw [readPlain?_digits hds, isNumeral_digits hds, wholePart_digits hds, fractionPart_digits hds]
    cases t.isEmpty <;> simp
  · rw [readPlain?_point hds hfs, isNumeral_point hds hfs, wholePart_point hds, fractionPart_point hds]
    cases ds.isEmpty && fs.isEmpty <;> simp
  · rw [readPlain?_points h hds hfs, isNumeral_points]
    rfl

/-- a number with a few places in range is rounded once -/
theorem toBinary64?_places {n k : Nat} (hk : k ≤ 12) (hn : n ≤ Binary64.safeBound * 10 ^ k) :
    toBinary64? ⟨n, -(k : Int)⟩ = some (.ofRatio n (10 ^ k)) := by
  have hfinite := Binary64.ofRatio_eq_finite (Nat.pow_pos (n := k) (by decide : 0 < 10)) hn
  unfold toBinary64?
  dsimp only
  split_ifs with hzero hlarge hsmall
  · rw [hfinite, Int.natCast_eq_zero.1 hzero, Nat.zero_mul, Binary64.nearest_zero]
    rfl
  · exact absurd hlarge (by unfold reach; omega)
  · exact absurd hsmall (by unfold reach; omega)
  · cases k with
    | zero =>
      have hexponent : -((0 : Nat) : Int) = .ofNat 0 := rfl
      have hcoefficient : (n : Int) * (Nat.pow 10 0 : Nat) = n := Int.mul_one _
      rw [pow_zero] at hfinite ⊢
      simp only [hexponent, hcoefficient, hfinite]
    | succ k =>
      have hexponent : -((k + 1 : Nat) : Int) = .negSucc k := rfl
      simp only [hexponent, Nat.pow_eq, hfinite]

end Decimal

/-! ## Exact values -/

/-- a numeral with at most 300 digits in front of the point and at most twelve behind it -/
structure ModerateNumeral (t : List Char) : Prop where
  token : IsToken t
  numeral : isNumeral t = true
  wholeLength : (wholePart t).length ≤ 300
  fractionLength : (fractionPart t).length ≤ 12

/-- the number that a token denotes, counted on the grid -/
def trillionths (t : List Char) : ℕ :=
  natOfDigits (wholePart t ++ fractionPart t) * 10 ^ (12 - (fractionPart t).length)

section

variable {t : List Char}

theorem IsModerate.numeral (h : IsModerate t) (htoken : IsToken t) (hone : isNumeral t = true) : ModerateNumeral t := by
  have hpoints : t.count '.' ≤ 1 := by
    simp only [isNumeral, Bool.and_eq_true, decide_eq_true_eq] at hone
    exact hone.2
  exact ⟨htoken, hone, (h hpoints).1, (h hpoints).2⟩

namespace ModerateNumeral

theorem grid_eq (h : ModerateNumeral t) :
    10 ^ (fractionPart t).length * 10 ^ (12 - (fractionPart t).length) = Binary64.grid := by
  rw [← pow_add, Nat.add_sub_cancel' h.fractionLength, Binary64.grid]

theorem exactValue_eq (h : ModerateNumeral t) : exactValue t = trillionths t / Binary64.grid := by
  rw [eq_div_iff (by norm_num [Binary64.grid]), ← h.grid_eq, exactValue, trillionths, natOfDigits_append]
  push_cast
  rw [natOfDigits_eq_fractionValue (fractionPart t), natOfDigits_eq_wholeValue]
  ring

theorem allDigits (h : ModerateNumeral t) : AllDigits (wholePart t ++ fractionPart t) := by
  rcases h.token.shapes with hds | ⟨ds, fs, rfl, hds, hfs⟩ | ⟨ds, fs, s, rfl, hds, hfs⟩
  · rwa [wholePart_digits hds, fractionPart_digits hds, List.append_nil]
  · rw [wholePart_point hds, fractionPart_point hds]
    exact List.forall_mem_append.2 ⟨hds, hfs⟩
  · have hone := h.numeral
    rw [isNumeral_points] at hone
    cases hone

theorem coefficient_lt (h : ModerateNumeral t) :
    natOfDigits (wholePart t ++ fractionPart t) < Binary64.safeBound * 10 ^ (fractionPart t).length :=
  calc natOfDigits (wholePart t ++ fractionPart t)
      < 10 ^ (wholePart t ++ fractionPart t).length := natOfDigits_lt h.allDigits
    _ = 10 ^ (wholePart t).length * 10 ^ (fractionPart t).length := by rw [List.length_append, pow_add]
    _ ≤ Binary64.safeBound * 10 ^ (fractionPart t).length :=
      Nat.mul_le_mul_right _ (pow_le_pow_right₀ (by decide) h.wholeLength)

theorem trillionths_le (h : ModerateNumeral t) : trillionths t ≤ Binary64.safeBound * Binary64.grid := by
  rw [← h.grid_eq, ← Nat.mul_assoc]
  exact Nat.mul_le_mul_right _ h.coefficient_lt.le

end ModerateNumeral

/-- **A numeral of moderate length is rounded once from its exact value**, and every other token is refused. -/
theorem Binary64.read?_token (h : IsToken t) (hm : IsModerate t) :
    Binary64.read? t = if isNumeral t then some (.ofTrillionths (trillionths t)) else none := by
  rw [Binary64.read?, Decimal.read?_token h]
  split_ifs with hone
  · have hmoderate := hm.numeral h hone
    rw [Option.bind_some, Decimal.toBinary64?_places hmoderate.fractionLength hmoderate.coefficient_lt.le,
      ofRatio_eq_ofTrillionths (Nat.pow_pos (by decide)) hmoderate.grid_eq, trillionths]
  · rfl

end

end AppAudit
