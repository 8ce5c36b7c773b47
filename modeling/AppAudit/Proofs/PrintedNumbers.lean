/-
Printed whole numbers and how they are read back.

A number is printed as its decimal digits, behind a minus if it is below zero, and never with a zero in front of other
digits. So there is one way to print it, and its digits are worth what was printed.

Main facts:
- `toList_int`: what a printed number looks like;
- `integer?_int`: a printed number is read as itself.
-/
import Mathlib.Tactic
import AppAudit.Proofs.Numerals

namespace AppAudit

def IsDigits (ds : List Char) : Prop := ds ≠ [] ∧ AllDigits ds

/-! ## Printing -/

theorem isDigits_toDigits (n : ℕ) : IsDigits (Nat.toDigits 10 n) :=
  ⟨Nat.toDigits_ne_nil, fun _ hc => Nat.isDigit_of_mem_toDigits (by decide) (by decide) hc⟩

/-- only zero begins with a zero -/
theorem toDigits_of_head? {n : ℕ} (h : (Nat.toDigits 10 n).head? = some '0') : Nat.toDigits 10 n = ['0'] := by
  induction n using Nat.strongRecOn with
  | ind n ih =>
    by_cases hn : n < 10
    · rw [Nat.toDigits_of_lt_base hn] at h ⊢
      rw [Option.some.inj h]
    · rw [Nat.toDigits_of_base_le (by decide) (not_lt.1 hn)] at h
      rw [List.head?_append_of_ne_nil _ Nat.toDigits_ne_nil] at h
      have hzero := congrArg (Nat.ofDigitChars 10 · 0) (ih (n / 10) (by omega) h)
      rw [Nat.ofDigitChars_ten_toDigits] at hzero
      exact absurd (Nat.div_eq_zero_iff.1 hzero) (by omega)

theorem wholeValue_toDigits (n : ℕ) : wholeValue (Nat.toDigits 10 n) = n := by
  rw [← natOfDigits_eq_wholeValue]
  exact Nat.ofDigitChars_ten_toDigits

/-- the digits of a whole number, behind a minus or not -/
theorem toList_int (n : ℤ) :
    0 ≤ n ∧ (toString n).toList = Nat.toDigits 10 n.toNat ∨
      n < 0 ∧ (toString n).toList = '-' :: Nat.toDigits 10 (-n).toNat := by
  rw [Int.toString_eq_repr, Int.repr_eq_if]
  by_cases hn : 0 ≤ n
  · rw [if_pos hn, Nat.toList_repr]
    exact Or.inl ⟨hn, rfl⟩
  · rw [if_neg hn, String.toList_append, Nat.toList_repr]
    exact Or.inr ⟨not_le.1 hn, rfl⟩

/-! ## Reading -/

/-- the number that is written with these digits -/
def natural? (ds : List Char) : Option ℕ :=
  if ds ≠ [] ∧ ds.all Char.isDigit = true then some (wholeValue ds) else none

/-- the same, behind a minus or not -/
def integer? : List Char → Option ℤ
  | '-' :: ds => (natural? ds).map fun n : ℕ => -(n : ℤ)
  | ds => (natural? ds).map fun n : ℕ => (n : ℤ)

theorem natural?_toDigits (n : ℕ) : natural? (Nat.toDigits 10 n) = some n := by
  obtain ⟨hne, hdigits⟩ := isDigits_toDigits n
  rw [natural?, if_pos ⟨hne, List.all_eq_true.2 hdigits⟩, wholeValue_toDigits]

theorem natural?_nat (n : ℕ) : natural? (toString n).toList = some n := by
  rw [Nat.toString_eq_repr, Nat.toList_repr]
  exact natural?_toDigits n

theorem integer?_of_isDigits {ds : List Char} (h : IsDigits ds) :
    integer? ds = (natural? ds).map fun n : ℕ => (n : ℤ) := by
  unfold integer?
  split
  · exact absurd (h.2 '-' List.mem_cons_self) (by decide)
  · rfl

theorem integer?_int (n : ℤ) : integer? (toString n).toList = some n := by
  rcases toList_int n with ⟨hn, h⟩ | ⟨hn, h⟩
  · rw [h, integer?_of_isDigits (isDigits_toDigits _), natural?_toDigits, Option.map_some, Int.toNat_of_nonneg hn]
  · rw [h, integer?, natural?_toDigits, Option.map_some, Int.toNat_of_nonneg (by omega), neg_neg]

end AppAudit
