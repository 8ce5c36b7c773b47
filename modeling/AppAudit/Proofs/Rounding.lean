/-
Order and rounding.

Rounding never turns an order around: the nearest whole number, and with it the nearest value of the binary format, grows
with the quotient and depends on nothing but the quotient. So a comparison of rounded numbers can only err where two
numbers round to the same value. Next to a limit this can be ruled out for every number of a grid at once, by looking at
the two that stand beside the limit (`Binary64.Sharp`): what is beyond them is beyond the limit after rounding as well.

Main results:
- `Binary64.nearest_mono`, `Binary64.nearest_congr`: rounding keeps the order, and forgets how a quotient is written;
- `Binary64.quotient_ofNat`: whole numbers of at most 53 bits are values, and their quotient is rounded once;
- `Binary64.Sharp.lt_iff`, `Binary64.Sharp.gt_iff`: on the grid of trillionths, comparing with a sharp limit after
  rounding is comparing exactly.
-/
import Mathlib.Tactic
import AppAudit.Number.Binary64

namespace AppAudit

/-! ## The nearest whole number -/

section

variable {n d n' d' : Nat}

theorem div_le_roundDiv (n d : Nat) : n / d ≤ roundDiv n d := by
  unfold roundDiv
  dsimp only
  split_ifs <;> omega

theorem roundDiv_le_div_succ (n d : Nat) : roundDiv n d ≤ n / d + 1 := by
  unfold roundDiv
  dsimp only
  split_ifs <;> omega

/-- rounding up takes at least half of the divisor, and more than that where the quotient is even -/
theorem roundDiv_eq_succ_iff (n d : Nat) :
    roundDiv n d = n / d + 1 ↔ d < 2 * (n % d) ∨ d = 2 * (n % d) ∧ n / d % 2 = 1 := by
  unfold roundDiv
  dsimp only
  split_ifs <;> omega

theorem div_le_div_of_cross (hd : 0 < d) (hd' : 0 < d') (h : n * d' ≤ n' * d) : n / d ≤ n' / d' := by
  rw [Nat.le_div_iff_mul_le hd']
  refine Nat.le_of_mul_le_mul_right ?_ hd
  calc n / d * d' * d = n / d * d * d' := Nat.mul_right_comm _ _ _
    _ ≤ n * d' := Nat.mul_le_mul_right _ (Nat.div_mul_le_self n d)
    _ ≤ n' * d := h

/-- between quotients with the same whole part, the parts that are left over compare like the quotients -/
theorem mod_cross (h : n * d' ≤ n' * d) (hq : n / d = n' / d') : n % d * d' ≤ n' % d' * d := by
  have hn : n * d' = n / d * (d * d') + n % d * d' := by
    conv_lhs => rw [← Nat.div_add_mod n d]
    ring
  have hn' : n' * d = n / d * (d * d') + n' % d' * d := by
    conv_lhs => rw [← Nat.div_add_mod n' d']
    rw [hq]
    ring
  omega

/-- **Rounding keeps the order.** -/
theorem roundDiv_mono (hd : 0 < d) (hd' : 0 < d') (h : n * d' ≤ n' * d) : roundDiv n d ≤ roundDiv n' d' := by
  have hle : n / d ≤ n' / d' := div_le_div_of_cross hd hd' h
  rcases Nat.lt_or_eq_of_le hle with hlt | heq
  · calc roundDiv n d ≤ n / d + 1 := roundDiv_le_div_succ n d
      _ ≤ n' / d' := hlt
      _ ≤ roundDiv n' d' := div_le_roundDiv n' d'
  · have hrest : n % d * d' ≤ n' % d' * d := mod_cross h heq
    by_cases hup : roundDiv n d = n / d + 1
    · -- what is rounded up on the left is at least as much on the right
      have hup' : roundDiv n' d' = n' / d' + 1 := by
        rw [roundDiv_eq_succ_iff]
        rcases (roundDiv_eq_succ_iff n d).1 hup with hmore | ⟨hhalf, hodd⟩
        · left
          nlinarith
        · have hge : d' ≤ 2 * (n' % d') := by nlinarith
          rcases Nat.lt_or_eq_of_le hge with hmore | hhalf'
          · exact Or.inl hmore
          · exact Or.inr ⟨hhalf', heq ▸ hodd⟩
      rw [hup, hup', heq]
    · have := roundDiv_le_div_succ n d
      have := div_le_roundDiv n' d'
      omega

theorem roundDiv_one (n : Nat) : roundDiv n 1 = n := by
  simp [roundDiv, Nat.mod_one]

theorem roundDiv_le (hd : 0 < d) {k : Nat} (h : n ≤ k * d) : roundDiv n d ≤ k := by
  rw [← roundDiv_one k]
  exact roundDiv_mono hd Nat.one_pos (by omega)

theorem le_roundDiv (hd : 0 < d) {k : Nat} (h : k * d ≤ n) : k ≤ roundDiv n d := by
  rw [← roundDiv_one k]
  exact roundDiv_mono Nat.one_pos hd (by omega)

theorem roundDiv_mul_right (hd : 0 < d) (k : Nat) : roundDiv (k * d) d = k :=
  Nat.le_antisymm (roundDiv_le hd le_rfl) (le_roundDiv hd le_rfl)

end

namespace Binary64

variable {n d n' d' : Nat}

/-! ## The nearest value -/

/-- the exponent of the last place: 53 bits are kept -/
def lastPlace (n d : Nat) : Nat := Nat.log2 (n / d) - 52

theorem nearest_eq (n d : Nat) : nearest n d = roundDiv n (d * 2 ^ lastPlace n d) * 2 ^ lastPlace n d := rfl

/-- a value has at most 53 bits, so it ends at the next power of two -/
theorem nearest_le (hd : 0 < d) : nearest n d ≤ 2 ^ (lastPlace n d + 53) := by
  have hlog : n / d < 2 ^ (lastPlace n d + 53) := by
    refine Nat.lt_log2_self.trans_le (Nat.pow_le_pow_right Nat.two_pos ?_)
    unfold lastPlace
    omega
  have hn : n ≤ 2 ^ 53 * (d * 2 ^ lastPlace n d) := by
    have := (Nat.div_lt_iff_lt_mul hd).1 hlog
    rw [pow_add] at this
    nlinarith
  rw [nearest_eq, pow_add, Nat.mul_comm (2 ^ lastPlace n d)]
  exact Nat.mul_le_mul_right _ (roundDiv_le (Nat.mul_pos hd (Nat.two_pow_pos _)) hn)

/-- a value with a last place above the unit has all 53 bits -/
theorem le_nearest (hd : 0 < d) (h : 0 < lastPlace n d) : 2 ^ (lastPlace n d + 52) ≤ nearest n d := by
  have hlog : 2 ^ (lastPlace n d + 52) ≤ n / d := by
    have hplace : lastPlace n d + 52 = Nat.log2 (n / d) := by
      unfold lastPlace at h ⊢
      omega
    rw [hplace]
    refine Nat.log2_self_le fun hzero => ?_
    simp [lastPlace, hzero] at h
  have hn : 2 ^ 52 * (d * 2 ^ lastPlace n d) ≤ n := by
    have := (Nat.le_div_iff_mul_le hd).1 hlog
    rw [pow_add] at this
    nlinarith
  rw [nearest_eq, pow_add, Nat.mul_comm (2 ^ lastPlace n d)]
  exact Nat.mul_le_mul_right _ (le_roundDiv (Nat.mul_pos hd (Nat.two_pow_pos _)) hn)

/-- **The nearest value grows with the quotient.** -/
theorem nearest_mono (hd : 0 < d) (hd' : 0 < d') (h : n * d' ≤ n' * d) : nearest n d ≤ nearest n' d' := by
  have hplace : lastPlace n d ≤ lastPlace n' d' := by
    unfold lastPlace
    rw [Nat.log2_eq_log_two, Nat.log2_eq_log_two]
    exact Nat.sub_le_sub_right (Nat.log_mono_right (div_le_div_of_cross hd hd' h)) 52
  rcases Nat.lt_or_eq_of_le hplace with hlt | heq
  · calc nearest n d ≤ 2 ^ (lastPlace n d + 53) := nearest_le hd
      _ ≤ 2 ^ (lastPlace n' d' + 52) := Nat.pow_le_pow_right Nat.two_pos (by omega)
      _ ≤ nearest n' d' := le_nearest hd' (by omega)
  · rw [nearest_eq, nearest_eq, heq]
    refine Nat.mul_le_mul_right _ (roundDiv_mono ?_ ?_ ?_)
    · exact Nat.mul_pos hd (Nat.two_pow_pos _)
    · exact Nat.mul_pos hd' (Nat.two_pow_pos _)
    · calc n * (d' * 2 ^ lastPlace n' d') = n * d' * 2 ^ lastPlace n' d' := (Nat.mul_assoc _ _ _).symm
        _ ≤ n' * d * 2 ^ lastPlace n' d' := Nat.mul_le_mul_right _ h
        _ = n' * (d * 2 ^ lastPlace n' d') := Nat.mul_assoc _ _ _

theorem nearest_congr (hd : 0 < d) (hd' : 0 < d') (h : n * d' = n' * d) : nearest n d = nearest n' d' :=
  Nat.le_antisymm (nearest_mono hd hd' h.le) (nearest_mono hd' hd h.ge)

theorem nearest_zero (d : Nat) : nearest 0 d = 0 := by
  simp [nearest, roundDiv]

/-! ## Fractions in range -/

theorem one_eq_two_pow : ∃ e, one = 2 ^ e := by
  unfold one
  generalize 1074 = e
  exact ⟨e, rfl⟩

theorem one_pos : 0 < one := by
  obtain ⟨e, he⟩ := one_eq_two_pow
  exact he ▸ Nat.two_pow_pos e

/-- all numbers up to this one are in range; it takes more than 300 digits in front of the point to exceed it -/
def safeBound : Nat := 10 ^ 300

theorem safeBound_pos : 0 < safeBound := by
  unfold safeBound
  positivity

theorem nearest_lt_limit (hd : 0 < d) (h : n ≤ safeBound * d) : nearest (n * one) d < limit := by
  have hend : nearest (safeBound * one) 1 < limit := by decide +kernel
  refine (nearest_mono hd Nat.one_pos ?_).trans_lt hend
  calc n * one * 1 ≤ safeBound * d * one := by
        rw [Nat.mul_one]
        exact Nat.mul_le_mul_right _ h
    _ = safeBound * one * d := Nat.mul_right_comm _ _ _

theorem ofRatio_eq_finite (hd : 0 < d) (h : n ≤ safeBound * d) : ofRatio n d = .finite (nearest (n * one) d) := by
  unfold ofRatio ofUnits
  rw [Int.natAbs_natCast, if_pos (nearest_lt_limit hd h), if_neg (by simp)]

theorem ofRatio_lt (hd : 0 < d) (hn : n ≤ safeBound * d) (hd' : 0 < d') (hn' : n' ≤ safeBound * d') :
    (ofRatio n d).lt (ofRatio n' d') = true ↔ nearest (n * one) d < nearest (n' * one) d' := by
  rw [ofRatio_eq_finite hd hn, ofRatio_eq_finite hd' hn', lt, decide_eq_true_eq, Nat.cast_lt]

/-- a whole number of at most 53 bits is a value -/
theorem nearest_whole (h : n < 2 ^ 53) : nearest (n * one) 1 = n * one := by
  obtain ⟨e, he⟩ := one_eq_two_pow
  have hplace : lastPlace (n * one) 1 ≤ e := by
    rcases Nat.eq_zero_or_pos n with rfl | hn
    · simp [lastPlace]
    · have hpos : n * one ≠ 0 := Nat.mul_ne_zero hn.ne' one_pos.ne'
      have hlt : n * one < 2 ^ (53 + e) := by
        rw [pow_add, he]
        exact Nat.mul_lt_mul_of_pos_right h (Nat.two_pow_pos e)
      have hlog : Nat.log2 (n * one) < 53 + e := (Nat.log2_lt hpos).2 hlt
      rw [lastPlace, Nat.div_one]
      omega
  -- the last place is no larger than 1, so nothing stands behind it
  obtain ⟨k, hk⟩ : 2 ^ lastPlace (n * one) 1 ∣ n * one := he ▸ Dvd.dvd.mul_left (pow_dvd_pow 2 (he ▸ hplace)) n
  have hround : roundDiv (n * one) (2 ^ lastPlace (n * one) 1) = k := by
    conv_lhs =>
      arg 1
      rw [hk, Nat.mul_comm]
    exact roundDiv_mul_right (Nat.two_pow_pos _) k
  rw [nearest_eq, Nat.one_mul, hround, Nat.mul_comm]
  exact hk.symm

theorem ofNat_eq_finite (h : n < 2 ^ 53) : ofNat n = .finite ((n * one : Nat) : Int) := by
  have hbound : 2 ^ 53 ≤ safeBound := by
    calc 2 ^ 53 ≤ 10 ^ 53 := Nat.pow_le_pow_left (by decide) 53
      _ ≤ safeBound := by
        unfold safeBound
        gcongr <;> decide
  rw [ofNat, ofRatio_eq_finite Nat.one_pos (by omega), nearest_whole h]

/-- **The quotient of whole numbers is rounded once.** -/
theorem quotient_ofNat (hn : n < 2 ^ 53) (hd : 0 < d) (hd' : d < 2 ^ 53) :
    (ofNat n).quotient (ofNat d) = ofRatio n d := by
  have hsame : nearest (n * one * one) (d * one) = nearest (n * one) d :=
    nearest_congr (Nat.mul_pos hd one_pos) hd (by ring)
  rw [ofNat_eq_finite hn, ofNat_eq_finite hd', quotient, Int.natAbs_natCast, Int.natAbs_natCast, hsame, ofRatio,
    Int.natAbs_natCast, decide_eq_false (Int.natCast_nonneg n).not_gt]

/-! ## Numbers on a grid -/

/-- how many numbers of the grid lie between two whole numbers -/
def grid : Nat := 10 ^ 12

/-- the value closest to a number of trillionths -/
def ofTrillionths (n : Nat) : Binary64 := ofRatio n grid

/-- a fraction of the grid may be written with a smaller denominator -/
theorem ofRatio_eq_ofTrillionths (hd : 0 < d) {k : Nat} (hk : d * k = grid) :
    ofRatio n d = ofTrillionths (n * k) := by
  have hsame : nearest (n * one) d = nearest (n * k * one) grid := by
    refine nearest_congr hd (by decide) ?_
    rw [← hk]
    ring
  have hsign : ∀ a : Nat, decide ((a : Int) < 0) = false := fun a => decide_eq_false (Int.natCast_nonneg a).not_gt
  unfold ofTrillionths ofRatio
  rw [Int.natAbs_natCast, Int.natAbs_natCast, hsame, hsign, hsign]

theorem ofTrillionths_lt {m : Nat} (hn : n ≤ safeBound * grid) (hm : m ≤ safeBound * grid) :
    (ofTrillionths n).lt (ofTrillionths m) = true ↔ nearest (n * one) grid < nearest (m * one) grid :=
  ofRatio_lt (by decide) hn (by decide) hm

theorem nearest_grid_mono {m : Nat} (h : n ≤ m) : nearest (n * one) grid ≤ nearest (m * one) grid :=
  nearest_mono (by decide) (by decide) (Nat.mul_le_mul_right _ (Nat.mul_le_mul_right _ h))

/-- a limit on the grid, and rounding tells it from both of its neighbours there -/
structure Sharp (limit : Binary64) (m : Nat) : Prop where
  onGrid : limit = ofTrillionths m
  safe : m ≤ safeBound * grid
  below : nearest ((m - 1) * one) grid < nearest (m * one) grid
  above : nearest (m * one) grid < nearest ((m + 1) * one) grid

variable {limit : Binary64} {m : Nat}

/-- **Below a sharp limit after rounding is below it.** -/
theorem Sharp.lt_iff (h : Sharp limit m) (hn : n ≤ safeBound * grid) :
    (ofTrillionths n).lt limit = true ↔ n < m := by
  rw [h.onGrid, ofTrillionths_lt hn h.safe]
  constructor
  · intro hlt
    by_contra hge
    exact (nearest_grid_mono (Nat.le_of_not_lt hge)).not_gt hlt
  · intro hlt
    exact (nearest_grid_mono (Nat.le_sub_one_of_lt hlt)).trans_lt h.below

/-- **Above a sharp limit after rounding is above it.** -/
theorem Sharp.gt_iff (h : Sharp limit m) (hn : n ≤ safeBound * grid) :
    limit.lt (ofTrillionths n) = true ↔ m < n := by
  rw [h.onGrid, ofTrillionths_lt h.safe hn]
  constructor
  · intro hlt
    by_contra hge
    exact (nearest_grid_mono (Nat.le_of_not_lt hge)).not_gt hlt
  · intro hlt
    exact h.above.trans_le (nearest_grid_mono hlt)

end Binary64

end AppAudit
