/-
Highly saturated colors, without rounding.

A color is highly saturated if the spread of its channels is more than 0.8 of the largest one. The rule divides binary
numbers and compares the rounded quotient with a rounded 0.8, which no binary number is. Channels are at most 255, so a
quotient that is not 4/5 exactly keeps a distance of 1/1275 from it, far more than rounding can bridge; and 4/5 itself is
rounded to the very limit. What remains is a comparison of whole numbers: five times the smallest channel against the
largest one.

A number sign is no hexadecimal digit, so a scan for colors looks at every position (`Proofs.Occurrences`), also where
more than six digits follow.

Main result:
- `saturated_colors_exact`: the rule counts the positions where a color stands whose largest channel is more than five
  times the smallest one.
-/
import Mathlib.Tactic
import AppAudit.Proofs.Concatenation
import AppAudit.Proofs.Occurrences
import AppAudit.Proofs.Rounding

namespace AppAudit

/-! ## Colors -/

/-- the channels of a color -/
structure Color where
  red : ℕ
  green : ℕ
  blue : ℕ
deriving DecidableEq, Repr

namespace Color

def most (color : Color) : ℕ := max (max color.red color.green) color.blue

def least (color : Color) : ℕ := min (min color.red color.green) color.blue

/-- the largest channel is more than five times the smallest one -/
def isVivid (color : Color) : Bool := 5 * color.least < color.most

/-- a hexadecimal digit by its place among the digits, in either case -/
def digit? (c : Char) : Option ℕ := "0123456789ABCDEF".toList.idxOf? c <|> "0123456789abcdef".toList.idxOf? c

/-- two digits as a channel -/
def channel? (c d : Char) : Option ℕ :=
  match digit? c, digit? d with
  | some x, some y => some (16 * x + y)
  | _, _ => none

/-- the color at the front of the text: a number sign and six hexadecimal digits, whatever follows them -/
def at? : List Char → Option Color
  | '#' :: r₁ :: r₀ :: g₁ :: g₀ :: b₁ :: b₀ :: _ =>
    match channel? r₁ r₀, channel? g₁ g₀, channel? b₁ b₀ with
    | some r, some g, some b => some ⟨r, g, b⟩
    | _, _, _ => none
  | _ => none

theorem least_le_most (color : Color) : color.least ≤ color.most := by
  unfold least most
  omega

end Color

/-- at how many positions of a text a vivid color stands -/
def vividCount (content : List Char) : ℕ := content.tails.countP fun t => (Color.at? t).any Color.isVivid

/-! ## Digits -/

open CharSet (hexDigit)
open Catalog.channel? (hexValue)

variable {c d : Char}

/-- what holds of the first 128 characters, one by one -/
theorem of_ascii {P : Char → Prop} (h : ∀ n < 128, P (Char.ofNat n)) (hc : c.toNat < 128) : P c := by
  have hP := h c.toNat hc
  rwa [Char.ofNat_toNat] at hP

theorem toNat_lt_of_hexDigit (h : hexDigit.mem c = true) : c.toNat < 128 := by
  have hranges : ('0' ≤ c ∧ c ≤ '9') ∨ ('A' ≤ c ∧ c ≤ 'F') ∨ ('a' ≤ c ∧ c ≤ 'f') := by
    simpa [CharSet.mem, hexDigit, CharSet.inRanges] using h
  have hend : ∀ e : Char, e.toNat < 128 → c ≤ e → c.toNat < 128 := by
    intro e he hle
    exact lt_of_le_of_lt (UInt32.le_iff_toNat_le.1 hle) he
  rcases hranges with ⟨-, hle⟩ | ⟨-, hle⟩ | ⟨-, hle⟩
  · exact hend '9' (by decide) hle
  · exact hend 'F' (by decide) hle
  · exact hend 'f' (by decide) hle

theorem digit?_eq_none (h : 128 ≤ c.toNat) : Color.digit? c = none := by
  have hsmall : ("0123456789ABCDEF".toList ++ "0123456789abcdef".toList).all (·.toNat < 128) = true := by decide
  have hnot : c ∉ "0123456789ABCDEF".toList ++ "0123456789abcdef".toList := by
    intro hc
    exact absurd (of_decide_eq_true (List.all_eq_true.1 hsmall c hc)) (Nat.not_lt.2 h)
  rw [List.mem_append, not_or] at hnot
  rw [Color.digit?, List.idxOf?_eq_none_iff.2 hnot.1, List.idxOf?_eq_none_iff.2 hnot.2]
  rfl

/-- the places of the digits are their values -/
theorem digit?_eq (c : Char) : Color.digit? c = if hexDigit.mem c then some (hexValue c) else none := by
  rcases Nat.lt_or_ge c.toNat 128 with hascii | hother
  · refine of_ascii (P := fun c => Color.digit? c = if hexDigit.mem c then some (hexValue c) else none) ?_ hascii
    decide +kernel
  · rw [digit?_eq_none hother, if_neg]
    intro hmem
    exact absurd (toNat_lt_of_hexDigit hmem) (Nat.not_lt.2 hother)

theorem hexValue_lt (h : hexDigit.mem c = true) : hexValue c < 16 := by
  refine of_ascii (P := fun c => hexDigit.mem c = true → hexValue c < 16) ?_ (toNat_lt_of_hexDigit h) h
  decide

/-- two digits are a channel, the same in both ways of reading them -/
theorem channel?_pair (hc : hexDigit.mem c = true) (hd : hexDigit.mem d = true) :
    ∃ v, v ≤ 255 ∧ Color.channel? c d = some v ∧ Catalog.channel? [c, d] = some v := by
  have hbyte : 16 * hexValue c + hexValue d ≤ 255 := by
    have := hexValue_lt hc
    have := hexValue_lt hd
    omega
  refine ⟨16 * hexValue c + hexValue d, hbyte, ?_, ?_⟩
  · rw [Color.channel?, digit?_eq, digit?_eq, if_pos hc, if_pos hd]
  · simp [Catalog.channel?, hc, hd, hbyte]

theorem channel?_eq_none (h : ¬ (hexDigit.mem c = true ∧ hexDigit.mem d = true)) : Color.channel? c d = none := by
  rw [Color.channel?, digit?_eq, digit?_eq]
  split_ifs with hc hd
  · exact absurd ⟨hc, hd⟩ h
  · rfl
  · rfl
  · rfl

/-! ## Dividing and comparing -/

namespace Catalog

open Binary64 (ofRatio ofRatio_lt nearest one nearest_mono quotient_ofNat safeBound safeBound_pos)

/-- a quotient of bytes is beyond the limit after rounding exactly when it is beyond 4/5 -/
theorem highSaturation_lt_iff {spread most : ℕ} (hle : spread ≤ most) (hpos : 0 < most) (hbyte : most ≤ 255) :
    highSaturation.lt (ofRatio spread most) = true ↔ 4 * most < 5 * spread := by
  have hsafe : spread ≤ safeBound * most := hle.trans (Nat.le_mul_of_pos_left most safeBound_pos)
  have hlimit : 8 ≤ safeBound * 10 := by decide +kernel
  have hhigh : highSaturation = ofRatio (8 : ℕ) 10 := rfl
  rw [hhigh, ofRatio_lt (by decide) hlimit hpos hsafe]
  constructor
  · intro hlt
    by_contra hle
    have hmono : nearest (spread * one) most ≤ nearest (8 * one) 10 := by
      refine nearest_mono hpos (by decide) ?_
      calc spread * one * 10 = 2 * (5 * spread) * one := by ring
        _ ≤ 2 * (4 * most) * one := by
          have hle := Nat.le_of_not_lt hle
          gcongr
        _ = 8 * one * most := by ring
    exact absurd hlt (Nat.not_lt.2 hmono)
  · intro hlt
    -- the fractions of bytes next to 4/5 are 1/1275 away from it
    have hgap : nearest (8 * one) 10 < nearest (1021 * one) 1275 := by decide +kernel
    refine hgap.trans_le (nearest_mono (by decide) hpos ?_)
    calc 1021 * one * most = 1021 * most * one := Nat.mul_right_comm _ _ _
      _ ≤ 1275 * spread * one := Nat.mul_le_mul_right _ (by omega)
      _ = spread * one * 1275 := by ring

variable {r₁ r₀ g₁ g₀ b₁ b₀ : Char}

/-- **Six digits are highly saturated exactly when their color is vivid.** -/
theorem isSaturated_eq {color : Color} (hred : channel? [r₁, r₀] = some color.red)
    (hgreen : channel? [g₁, g₀] = some color.green) (hblue : channel? [b₁, b₀] = some color.blue)
    (hbyte : color.most ≤ 255) : isSaturated [r₁, r₀, g₁, g₀, b₁, b₀] = color.isVivid := by
  have hvalue : saturation [r₁, r₀] [g₁, g₀] [b₁, b₀] =
      if color.most = 0 then .finite 0
      else (Binary64.ofNat (color.most - color.least)).quotient (.ofNat color.most) := by
    rw [saturation, hred, hgreen, hblue]
    rfl
  have hle := color.least_le_most
  have hsplit : isSaturated [r₁, r₀, g₁, g₀, b₁, b₀] =
      highSaturation.lt (saturation [r₁, r₀] [g₁, g₀] [b₁, b₀]) := rfl
  rw [hsplit, hvalue, Bool.eq_iff_iff, Color.isVivid, decide_eq_true_eq]
  split_ifs with hzero
  · have hblack : highSaturation.lt (.finite 0) = false := by decide +kernel
    rw [hblack]
    simp [hzero]
  · rw [quotient_ofNat (by omega) (by omega) (by omega), highSaturation_lt_iff (by omega) (by omega) hbyte]
    omega

end Catalog

/-! ## Positions -/

namespace Pattern

/-- a character of the set for a fixed number of times -/
theorem splits_times (n : ℕ) (k : CharSet) (s : List Char) :
    (times n k).splits s = if n ≤ s.length ∧ (s.take n).all k.mem = true then [(s.take n, s.drop n)] else [] := by
  induction n generalizing s with
  | zero => simp [times, all, splits]
  | succ n ih =>
    cases n with
    | zero => cases s <;> simp [times, all, splits]
    | succ n =>
      have hshape : times (n + 2) k = (one k).seq (times (n + 1) k) := rfl
      rw [hshape, splits]
      cases s with
      | nil => simp [splits]
      | cons c s =>
        rw [splits]
        by_cases hc : k.mem c = true
        · have hiff : (n + 1 + 1 ≤ (c :: s).length ∧ ((c :: s).take (n + 1 + 1)).all k.mem = true) ↔
              (n + 1 ≤ s.length ∧ (s.take (n + 1)).all k.mem = true) := by
            rw [List.take_succ_cons, List.all_cons, hc, Bool.true_and, List.length_cons, Nat.add_le_add_iff_right]
          rw [if_pos hc, List.flatMap_singleton, ih]
          simp only [hiff]
          split_ifs <;> rfl
        · rw [if_neg hc, List.flatMap_nil, if_neg]
          intro hall
          exact hc (List.all_eq_true.1 hall.2 c (by simp))

end Pattern

namespace Catalog

theorem next_hexColor (s : List Char) :
    hexColor.next ('#' :: s) =
      if 6 ≤ s.length ∧ (s.take 6).all hexDigit.mem = true then some (s.take 6, s.drop 6) else none := by
  have hlead : hexColor.lead.rests ('#' :: s) = [s] := by
    simp [hexColor, Pattern.lit, Pattern.rests, Pattern.strip]
  rw [Extractor.next, hlead]
  simp only [hexColor, Pattern.splits_times, Pattern.rests, List.flatMap_singleton, List.map_singleton]
  split_ifs <;> rfl

theorem next_hexColor_of_ne (h : c ≠ '#') (s : List Char) : hexColor.next (c :: s) = none := by
  have hlead : hexColor.lead.rests (c :: s) = [] := by
    simp [hexColor, Pattern.lit, Pattern.rests, Pattern.strip, Ne.symm h]
  rw [Extractor.next, hlead]
  rfl

end Catalog

namespace Color

theorem at?_of_ne (h : c ≠ '#') (s : List Char) : at? (c :: s) = none := by
  unfold at?
  split
  · rename_i heq
    exact absurd (List.cons.inj heq).1 h
  · rfl

theorem at?_of_length_lt {s : List Char} (h : s.length < 6) : at? ('#' :: s) = none := by
  unfold at?
  split
  · rename_i heq
    rw [(List.cons.inj heq).2] at h
    simp only [List.length_cons] at h
    omega
  · rfl

theorem at?_of_not_digits {r₁ r₀ g₁ g₀ b₁ b₀ : Char} {rest : List Char}
    (h : ¬ ∀ d ∈ [r₁, r₀, g₁, g₀, b₁, b₀], hexDigit.mem d = true) :
    at? ('#' :: r₁ :: r₀ :: g₁ :: g₀ :: b₁ :: b₀ :: rest) = none := by
  rw [at?]
  by_cases hr : hexDigit.mem r₁ = true ∧ hexDigit.mem r₀ = true
  · by_cases hg : hexDigit.mem g₁ = true ∧ hexDigit.mem g₀ = true
    · have hb : ¬ (hexDigit.mem b₁ = true ∧ hexDigit.mem b₀ = true) := by
        intro hb
        refine h ?_
        simp [hr, hg, hb]
      rw [channel?_eq_none hb]
      cases channel? r₁ r₀ <;> cases channel? g₁ g₀ <;> rfl
    · rw [channel?_eq_none hg]
      cases channel? r₁ r₀ <;> rfl
  · rw [channel?_eq_none hr]

end Color

theorem exists_six {s : List Char} (h : 6 ≤ s.length) : ∃ r₁ r₀ g₁ g₀ b₁ b₀ rest, s = r₁ :: r₀ :: g₁ :: g₀ :: b₁ :: b₀ :: rest := by
  rcases s with _ | ⟨r₁, _ | ⟨r₀, _ | ⟨g₁, _ | ⟨g₀, _ | ⟨b₁, _ | ⟨b₀, rest⟩⟩⟩⟩⟩⟩
  case cons.cons.cons.cons.cons.cons => exact ⟨r₁, r₀, g₁, g₀, b₁, b₀, rest, rfl⟩
  all_goals simp at h

namespace Catalog

/-- **At every position**, a highly saturated match and a vivid color are the same. -/
theorem isSaturated_next (t : List Char) :
    ((hexColor.next t).map (·.1)).any isSaturated = (Color.at? t).any Color.isVivid := by
  cases t with
  | nil => rfl
  | cons c s =>
    by_cases hc : c = '#'
    · subst hc
      by_cases hlength : 6 ≤ s.length
      · obtain ⟨r₁, r₀, g₁, g₀, b₁, b₀, rest, rfl⟩ := exists_six hlength
        by_cases hdigits : ∀ d ∈ [r₁, r₀, g₁, g₀, b₁, b₀], hexDigit.mem d = true
        · have hmatch : ((hexColor.next ('#' :: r₁ :: r₀ :: g₁ :: g₀ :: b₁ :: b₀ :: rest)).map (·.1)).any isSaturated =
              isSaturated [r₁, r₀, g₁, g₀, b₁, b₀] := by
            rw [next_hexColor, if_pos ⟨hlength, List.all_eq_true.2 hdigits⟩]
            simp only [Option.map_some, Option.any_some, List.take_succ_cons, List.take_zero]
          simp only [List.forall_mem_cons, List.not_mem_nil, false_implies, implies_true, and_true] at hdigits
          obtain ⟨hr₁, hr₀, hg₁, hg₀, hb₁, hb₀⟩ := hdigits
          obtain ⟨red, hred, hcolor, hsplit⟩ := channel?_pair hr₁ hr₀
          obtain ⟨green, hgreen, hcolor', hsplit'⟩ := channel?_pair hg₁ hg₀
          obtain ⟨blue, hblue, hcolor'', hsplit''⟩ := channel?_pair hb₁ hb₀
          have hbyte : Color.most ⟨red, green, blue⟩ ≤ 255 := max_le (max_le hred hgreen) hblue
          rw [hmatch, isSaturated_eq hsplit hsplit' hsplit'' hbyte, Color.at?, hcolor, hcolor', hcolor'', Option.any_some]
        · rw [next_hexColor, if_neg fun h => hdigits (List.all_eq_true.1 h.2), Color.at?_of_not_digits hdigits]
          rfl
      · rw [next_hexColor, if_neg fun h => hlength h.1, Color.at?_of_length_lt (Nat.lt_of_not_le hlength)]
        rfl
    · rw [next_hexColor_of_ne hc, Color.at?_of_ne hc]
      rfl

/-- as many highly saturated matches as vivid colors -/
theorem saturatedCount_eq (content : List Char) : saturatedCount content = vividCount content := by
  have htokens := Extractor.tokens_eq_filterMap (e := hexColor) (c := '#') (by decide) content
  rw [saturatedCount, htokens, ← List.countP_eq_length_filter, List.countP_filterMap, vividCount]
  refine List.countP_congr fun t _ => ?_
  rw [← isSaturated_next]
  cases (hexColor.next t).map (·.1) <;> rfl

end Catalog

open Catalog in
/-- **Highly saturated colors are counted without rounding.** For every text: with `n` the number of positions at which a
number sign stands in front of six hexadecimal digits whose largest channel is more than five times the smallest one,
the rule says nothing as long as `n` is at most ten; otherwise it gives one warning, which quotes `n`. -/
theorem saturated_colors_exact (content : List Char) (file : String) :
    (saturatedColors.evaluate file content).passed = [] ∧
    (saturatedColors.evaluate file content).findings =
      if 10 < vividCount content then
        [.newWarning "saturated-colors" "Mobile Color" file (toString (vividCount content) ++
          " highly saturated colors detected. Desaturated colors save battery on OLED screens.")]
      else [] := by
  have hfindings : (saturatedColors.evaluate file content).findings =
      if 10 < saturatedCount content then
        [.newWarning "saturated-colors" "Mobile Color" file (toString (saturatedCount content) ++
          " highly saturated colors detected. Desaturated colors save battery on OLED screens.")]
      else [] := Rule.findings_of_warning disciplined_saturatedColors rfl
  rw [saturatedCount_eq] at hfindings
  exact ⟨disciplined_saturatedColors.passed_eq_nil (by decide) file content, hfindings⟩

/-- on the limit, just beyond it, in a longer run of digits, and in both cases of letters -/
example : vividCount "#ff3333 #FF3232 #00ff00ff #000000 #ff00".toList = 2 := by decide +kernel

end AppAudit
