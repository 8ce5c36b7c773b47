/-
Text that is not altogether text.

Sources are read as UTF-8 whatever their bytes are. The decoder takes one byte at a time, and a character that is left
unfinished becomes one U+FFFD. What may be pending is bounded by an invariant (`Pending.Sound`): every way to finish a
pending character leads to a character beyond ASCII, and only continuation bytes continue it. So a byte that is no
continuation byte always starts afresh, and ill-formed bytes yield nothing that looks like ASCII.

Main result:
- `decode_faithful`: texts come back as they are, decoding can be cut in front of every byte that is no continuation
  byte, ASCII characters are exactly the bytes below 0x80, and nothing in front of a text can change it.
-/
import Mathlib.Tactic
import AppAudit.Report.Sink

namespace AppAudit.Utf8

/-- a byte that only continues characters -/
def isTail (b : UInt8) : Bool := 0x80 ≤ b && b ≤ 0xbf

theorem isTail_iff {b : UInt8} : isTail b = true ↔ 0x80 ≤ b.toNat ∧ b.toNat ≤ 0xbf := by
  simp [isTail, UInt8.le_iff_toNat_le]

/-! ## Runs -/

/-- what bytes yield from a state on, and where they lead -/
def run : Option Pending → List UInt8 → List Char × Option Pending
  | state, [] => ([], state)
  | state, b :: bs => ((feed state b).1 ++ (run (feed state b).2 bs).1, (run (feed state b).2 bs).2)

/-- what stands for a character that is not finished -/
def unfinished : Option Pending → List Char
  | none => []
  | some _ => [replacement]

theorem run_append (state : Option Pending) (a b : List UInt8) :
    run state (a ++ b) = ((run state a).1 ++ (run (run state a).2 b).1, (run (run state a).2 b).2) := by
  induction a generalizing state with
  | nil => rfl
  | cons x a ih => simp only [List.cons_append, run, ih, List.append_assoc]

theorem decodeFrom_eq (done : List Char) (state : Option Pending) (bs : List UInt8) :
    decodeFrom done state bs = done.reverse ++ ((run state bs).1 ++ unfinished (run state bs).2) := by
  induction bs generalizing done state with
  | nil => cases state <;> simp [decodeFrom, run, unfinished]
  | cons b bs ih => simp [decodeFrom, run, ih]

theorem decode_eq (bs : List UInt8) : decode bs = (run none bs).1 ++ unfinished (run none bs).2 :=
  decodeFrom_eq [] none bs

/-! ## What may be pending -/

namespace Pending

/-- the least code that the pending character can get -/
def least (p : Pending) : ℕ := (p.code * 64 + (p.lo.toNat - 0x80)) * 64 ^ (p.owed - 1)

/-- a bound beyond every code that the pending character can get -/
def bound (p : Pending) : ℕ := (p.code * 64 + (p.hi.toNat - 0x80) + 1) * 64 ^ (p.owed - 1)

/-- only continuation bytes continue the character, and it becomes one beyond ASCII, no surrogate and not too large -/
structure Sound (p : Pending) : Prop where
  owed : 1 ≤ p.owed
  lo : 0x80 ≤ p.lo.toNat
  hi : p.hi.toNat ≤ 0xbf
  least : 0x80 ≤ p.least
  scalar : p.bound ≤ 0xd800 ∨ 0xe000 ≤ p.least ∧ p.bound ≤ 0x110000

end Pending

/-! ## Steps -/

theorem start_ascii {b : UInt8} (h : b.toNat < 0x80) : start b = ([Char.ofNat b.toNat], none) := by
  unfold start
  rw [if_pos (UInt8.lt_iff_toNat_lt.2 h)]

/-- a byte that no character starts with -/
theorem start_stray {b : UInt8} (h : 0x80 ≤ b.toNat) (h' : b.toNat < 0xc2 ∨ 0xf5 ≤ b.toNat) :
    start b = ([replacement], none) := by
  have ht : (0x80 : UInt8).toNat = 0x80 ∧ (0xc2 : UInt8).toNat = 0xc2 := by decide
  unfold start
  simp only [UInt8.lt_iff_toNat_lt, UInt8.reduceToNat]
  split_ifs
  all_goals first | rfl | omega

theorem start_two {b : UInt8} (h : 0xc2 ≤ b.toNat) (h' : b.toNat < 0xe0) :
    start b = ([], some ⟨1, b.toNat - 0xc0, 0x80, 0xbf⟩) := by
  unfold start
  simp only [UInt8.lt_iff_toNat_lt, UInt8.reduceToNat]
  rw [if_neg (by omega), if_neg (by omega), if_pos h']

theorem start_three {b : UInt8} (h : 0xe0 ≤ b.toNat) (h' : b.toNat < 0xf0) :
    start b = ([], some ⟨2, b.toNat - 0xe0, if b.toNat = 0xe0 then 0xa0 else 0x80,
      if b.toNat = 0xed then 0x9f else 0xbf⟩) := by
  unfold start
  simp only [UInt8.lt_iff_toNat_lt, ← UInt8.toNat_inj, UInt8.reduceToNat]
  rw [if_neg (by omega), if_neg (by omega), if_neg (by omega), if_pos h']

theorem start_four {b : UInt8} (h : 0xf0 ≤ b.toNat) (h' : b.toNat < 0xf5) :
    start b = ([], some ⟨3, b.toNat - 0xf0, if b.toNat = 0xf0 then 0x90 else 0x80,
      if b.toNat = 0xf4 then 0x8f else 0xbf⟩) := by
  unfold start
  simp only [UInt8.lt_iff_toNat_lt, ← UInt8.toNat_inj, UInt8.reduceToNat]
  rw [if_neg (by omega), if_neg (by omega), if_neg (by omega), if_neg (by omega), if_pos h']

variable {p : Pending} {b : UInt8}

theorem feed_of_mem (hlo : p.lo.toNat ≤ b.toNat) (hhi : b.toNat ≤ p.hi.toNat) :
    feed (some p) b =
      if p.owed ≤ 1 then ([Char.ofNat (p.code * 64 + (b.toNat - 0x80))], none)
      else ([], some ⟨p.owed - 1, p.code * 64 + (b.toNat - 0x80), 0x80, 0xbf⟩) := by
  have hmem : (decide (p.lo ≤ b) && decide (b ≤ p.hi)) = true := by simp [UInt8.le_iff_toNat_le, hlo, hhi]
  rw [feed, if_pos hmem]

theorem feed_of_not_mem (h : ¬(p.lo.toNat ≤ b.toNat ∧ b.toNat ≤ p.hi.toNat)) :
    feed (some p) b = (replacement :: (start b).1, (start b).2) := by
  have hmem : ¬(decide (p.lo ≤ b) && decide (b ≤ p.hi)) = true := by simpa [UInt8.le_iff_toNat_le] using h
  rw [feed, if_neg hmem]

/-! ## Soundness -/

/-- whatever is pending is sound -/
def Sound (state : Option Pending) : Prop := ∀ p ∈ state, p.Sound

theorem sound_none : Sound none := fun _ h => nomatch h

theorem sound_some : Sound (some p) ↔ p.Sound := by simp [Sound]

theorem sound_start (b : UInt8) : Sound (start b).2 := by
  by_cases hascii : b.toNat < 0x80
  · rw [start_ascii hascii]
    exact sound_none
  by_cases hstray : b.toNat < 0xc2 ∨ 0xf5 ≤ b.toNat
  · rw [start_stray (not_lt.1 hascii) hstray]
    exact sound_none
  by_cases htwo : b.toNat < 0xe0
  · rw [start_two (by omega) htwo, sound_some]
    constructor <;> simp [Pending.least, Pending.bound] <;> omega
  by_cases hthree : b.toNat < 0xf0
  · rw [start_three (by omega) hthree, sound_some]
    constructor <;> simp [Pending.least, Pending.bound] <;> split_ifs <;> simp <;> omega
  · rw [start_four (by omega) (by omega), sound_some]
    constructor <;> simp [Pending.least, Pending.bound] <;> split_ifs <;> simp <;> omega

/-- a sound character stays sound while continuation bytes are owed -/
theorem Pending.Sound.continued (h : p.Sound) (hlo : p.lo.toNat ≤ b.toNat) (hhi : b.toNat ≤ p.hi.toNat)
    (howed : ¬p.owed ≤ 1) : Pending.Sound ⟨p.owed - 1, p.code * 64 + (b.toNat - 0x80), 0x80, 0xbf⟩ := by
  obtain ⟨owed, howed'⟩ : ∃ owed, p.owed = owed + 2 := ⟨p.owed - 2, by omega⟩
  have hleast : p.least ≤ Pending.least ⟨p.owed - 1, p.code * 64 + (b.toNat - 0x80), 0x80, 0xbf⟩ := by
    have hcode : p.code * 64 + (p.lo.toNat - 0x80) ≤ p.code * 64 + (b.toNat - 0x80) := by omega
    calc p.least = (p.code * 64 + (p.lo.toNat - 0x80)) * 64 * 64 ^ owed := by
          rw [Pending.least, howed', show owed + 2 - 1 = owed + 1 from rfl, pow_succ', Nat.mul_assoc]
      _ ≤ (p.code * 64 + (b.toNat - 0x80)) * 64 * 64 ^ owed := by gcongr
      _ = _ := by simp [Pending.least, howed']
  have hbound : Pending.bound ⟨p.owed - 1, p.code * 64 + (b.toNat - 0x80), 0x80, 0xbf⟩ ≤ p.bound := by
    have hcode : (p.code * 64 + (b.toNat - 0x80)) * 64 + 64 ≤ (p.code * 64 + (p.hi.toNat - 0x80) + 1) * 64 := by omega
    calc _ = ((p.code * 64 + (b.toNat - 0x80)) * 64 + 64) * 64 ^ owed := by simp [Pending.bound, howed', Nat.add_assoc]
      _ ≤ (p.code * 64 + (p.hi.toNat - 0x80) + 1) * 64 * 64 ^ owed := by gcongr
      _ = p.bound := by
          rw [Pending.bound, howed', show owed + 2 - 1 = owed + 1 from rfl, pow_succ', Nat.mul_assoc]
  refine ⟨by simp [howed'], by simp, by simp, h.least.trans hleast, ?_⟩
  rcases h.scalar with hs | ⟨hs, hs'⟩
  · exact Or.inl (hbound.trans hs)
  · exact Or.inr ⟨hs.trans hleast, hbound.trans hs'⟩

/-- the last continuation byte makes a character beyond ASCII -/
theorem Pending.Sound.toNat_finished (h : p.Sound) (hlo : p.lo.toNat ≤ b.toNat) (hhi : b.toNat ≤ p.hi.toNat)
    (howed : p.owed ≤ 1) :
    (Char.ofNat (p.code * 64 + (b.toNat - 0x80))).toNat = p.code * 64 + (b.toNat - 0x80) ∧
      0x80 ≤ p.code * 64 + (b.toNat - 0x80) := by
  have hone : p.owed - 1 = 0 := by omega
  have hleast := h.least
  have hscalar := h.scalar
  simp only [Pending.least, Pending.bound, hone, pow_zero, Nat.mul_one] at hleast hscalar
  have hvalid : (p.code * 64 + (b.toNat - 0x80)).isValidChar := by
    rcases hscalar with hs | hs
    · exact Or.inl (by omega)
    · exact Or.inr (by omega)
  refine ⟨?_, by omega⟩
  rw [Char.ofNat, dif_pos hvalid]
  rfl

theorem sound_feed {state : Option Pending} (h : Sound state) (b : UInt8) : Sound (feed state b).2 := by
  cases state with
  | none => exact sound_start b
  | some p =>
    have hp := sound_some.1 h
    by_cases hmem : p.lo.toNat ≤ b.toNat ∧ b.toNat ≤ p.hi.toNat
    · rw [feed_of_mem hmem.1 hmem.2]
      split_ifs with howed
      · exact sound_none
      · exact sound_some.2 (hp.continued hmem.1 hmem.2 howed)
    · rw [feed_of_not_mem hmem]
      exact sound_start b

theorem sound_run {state : Option Pending} (h : Sound state) (bs : List UInt8) : Sound (run state bs).2 := by
  induction bs generalizing state with
  | nil => exact h
  | cons b bs ih => exact ih (sound_feed h b)

/-! ## Cuts -/

/-- a byte that is no continuation byte gives up what is pending and starts afresh -/
theorem feed_of_not_isTail {state : Option Pending} (h : Sound state) {b : UInt8} (hb : isTail b = false) :
    feed state b = (unfinished state ++ (start b).1, (start b).2) := by
  cases state with
  | none => rfl
  | some p =>
    have hp := sound_some.1 h
    refine feed_of_not_mem fun hmem => ?_
    have htail : isTail b = true := isTail_iff.2 ⟨hp.lo.trans hmem.1, hmem.2.trans hp.hi⟩
    rw [hb] at htail
    cases htail

theorem decode_append {a b : List UInt8} (h : ∀ x ∈ b.head?, isTail x = false) :
    decode (a ++ b) = decode a ++ decode b := by
  simp only [decode_eq, run_append]
  cases b with
  | nil => simp [run, unfinished]
  | cons x b =>
    have hx : isTail x = false := h x rfl
    simp only [run, feed_of_not_isTail (sound_run sound_none a) hx, feed_of_not_isTail sound_none hx,
      List.append_assoc]
    rfl

/-! ## ASCII -/

/-- the part of a text that is ASCII -/
def asciiOf (s : List Char) : List Char := s.filter (·.toNat < 0x80)

/-- the bytes below 0x80 as characters -/
def asciiBytes (bs : List UInt8) : List Char := (bs.filter (· < 0x80)).map fun b => Char.ofNat b.toNat

theorem asciiOf_append (s t : List Char) : asciiOf (s ++ t) = asciiOf s ++ asciiOf t := List.filter_append s t

theorem asciiOf_unfinished (state : Option Pending) : asciiOf (unfinished state) = [] := by
  cases state <;> rfl

theorem asciiBytes_cons (b : UInt8) (bs : List UInt8) : asciiBytes (b :: bs) = asciiBytes [b] ++ asciiBytes bs := by
  rw [asciiBytes, ← List.singleton_append, List.filter_append, List.map_append]
  rfl

theorem asciiBytes_of_lt {b : UInt8} (h : b.toNat < 0x80) : asciiBytes [b] = [Char.ofNat b.toNat] := by
  simp [asciiBytes, UInt8.lt_iff_toNat_lt, h]

theorem asciiBytes_of_ge {b : UInt8} (h : 0x80 ≤ b.toNat) : asciiBytes [b] = [] := by
  simp [asciiBytes, UInt8.lt_iff_toNat_lt, h]

theorem asciiOf_start (b : UInt8) : asciiOf (start b).1 = asciiBytes [b] := by
  by_cases hascii : b.toNat < 0x80
  · have hchar : (Char.ofNat b.toNat).toNat < 0x80 := by
      rwa [Char.ofNat, dif_pos (Or.inl (by omega))]
    rw [start_ascii hascii, asciiBytes_of_lt hascii]
    simp [asciiOf, hchar]
  rw [asciiBytes_of_ge (not_lt.1 hascii)]
  by_cases hstray : b.toNat < 0xc2 ∨ 0xf5 ≤ b.toNat
  · rw [start_stray (not_lt.1 hascii) hstray]
    rfl
  by_cases htwo : b.toNat < 0xe0
  · rw [start_two (by omega) htwo]
    rfl
  by_cases hthree : b.toNat < 0xf0
  · rw [start_three (by omega) hthree]
    rfl
  · rw [start_four (by omega) (by omega)]
    rfl

theorem asciiOf_feed {state : Option Pending} (h : Sound state) (b : UInt8) :
    asciiOf (feed state b).1 = asciiBytes [b] := by
  cases state with
  | none => exact asciiOf_start b
  | some p =>
    have hp := sound_some.1 h
    by_cases hmem : p.lo.toNat ≤ b.toNat ∧ b.toNat ≤ p.hi.toNat
    · rw [feed_of_mem hmem.1 hmem.2, asciiBytes_of_ge (hp.lo.trans hmem.1)]
      split_ifs with howed
      · obtain ⟨hchar, hbeyond⟩ := hp.toNat_finished hmem.1 hmem.2 howed
        simp [asciiOf, hchar, hbeyond]
      · rfl
    · rw [feed_of_not_mem hmem, ← asciiOf_start b]
      rfl

theorem asciiOf_run {state : Option Pending} (h : Sound state) (bs : List UInt8) :
    asciiOf (run state bs).1 = asciiBytes bs := by
  induction bs generalizing state with
  | nil => rfl
  | cons b bs ih => rw [run, asciiOf_append, asciiOf_feed h, ih (sound_feed h b), ← asciiBytes_cons]

theorem asciiOf_decode (bs : List UInt8) : asciiOf (decode bs) = asciiBytes bs := by
  rw [decode_eq, asciiOf_append, asciiOf_run sound_none, asciiOf_unfinished, List.append_nil]

/-! ## Texts -/

theorem toNat_ofNat {n : ℕ} (h : n < 256) : (UInt8.ofNat n).toNat = n := UInt8.toNat_ofNat_of_lt' h

/-- a byte that starts a character of several bytes -/
theorem run_lead {b : UInt8} {p : Pending} (h : start b = ([], some p)) (bs : List UInt8) :
    run none (b :: bs) = run (some p) bs := by
  rw [run, feed, h]
  rfl

/-- a continuation byte by its six bits, while more are owed -/
theorem run_owed {n code bits : ℕ} {lo hi : UInt8} (h : bits < 64) (hlo : lo.toNat ≤ bits + 128)
    (hhi : bits + 128 ≤ hi.toNat) (bs : List UInt8) :
    run (some ⟨n + 2, code, lo, hi⟩) (UInt8.ofNat (bits + 128) :: bs) =
      run (some ⟨n + 1, code * 64 + bits, 0x80, 0xbf⟩) bs := by
  have hb := toNat_ofNat (n := bits + 128) (by omega)
  rw [run, feed_of_mem (by rwa [hb]) (by rwa [hb]), if_neg (by simp), hb, Nat.add_sub_cancel]
  rfl

/-- the last continuation byte -/
theorem run_last {code bits : ℕ} {lo hi : UInt8} (h : bits < 64) (hlo : lo.toNat ≤ bits + 128)
    (hhi : bits + 128 ≤ hi.toNat) :
    run (some ⟨1, code, lo, hi⟩) [UInt8.ofNat (bits + 128)] = ([Char.ofNat (code * 64 + bits)], none) := by
  have hb := toNat_ofNat (n := bits + 128) (by omega)
  rw [run, feed_of_mem (by rwa [hb]) (by rwa [hb]), if_pos (by simp), hb, Nat.add_sub_cancel]
  rfl

/-- the bytes of a character lead to the character, with nothing pending -/
theorem run_encodeChar (c : Char) : run none (String.utf8EncodeChar c) = ([c], none) := by
  have hc : Char.ofNat c.val.toNat = c := Char.ofNat_toNat c
  have hvalid : c.val.toNat < 0xd800 ∨ 0xdfff < c.val.toNat ∧ c.val.toNat < 0x110000 := c.valid
  unfold String.utf8EncodeChar
  dsimp only
  generalize c.val.toNat = v at hc hvalid
  subst hc
  split_ifs with hone htwo hthree
  · have hb := toNat_ofNat (n := v) (by omega)
    rw [run, feed, start_ascii (by rw [hb]; omega), hb]
    rfl
  · have hb := toNat_ofNat (n := v / 64 % 32 + 192) (by omega)
    have hlead := start_two (b := UInt8.ofNat (v / 64 % 32 + 192)) (by omega) (by omega)
    rw [run_lead hlead, run_last (by omega) (by simp) (by simp; omega), hb,
      show (v / 64 % 32 + 192 - 0xc0) * 64 + v % 64 = v by omega]
  · have hb := toNat_ofNat (n := v / 4096 % 16 + 224) (by omega)
    have hlead := start_three (b := UInt8.ofNat (v / 4096 % 16 + 224)) (by omega) (by omega)
    rw [run_lead hlead, run_owed (by omega) (by split_ifs <;> simp; omega) (by split_ifs <;> simp <;> omega),
      run_last (by omega) (by simp) (by simp; omega), hb,
      show ((v / 4096 % 16 + 224 - 0xe0) * 64 + v / 64 % 64) * 64 + v % 64 = v by omega]
  · have hb := toNat_ofNat (n := v / 262144 % 8 + 240) (by omega)
    have hlead := start_four (b := UInt8.ofNat (v / 262144 % 8 + 240)) (by omega) (by omega)
    rw [run_lead hlead, run_owed (by omega) (by split_ifs <;> simp; omega) (by split_ifs <;> simp <;> omega),
      run_owed (by omega) (by simp) (by simp; omega), run_last (by omega) (by simp) (by simp; omega), hb,
      show (((v / 262144 % 8 + 240 - 0xf0) * 64 + v / 4096 % 64) * 64 + v / 64 % 64) * 64 + v % 64 = v by omega]

theorem run_encode (s : List Char) : run none (encode s) = (s, none) := by
  induction s with
  | nil => rfl
  | cons c s ih =>
    have hsplit : encode (c :: s) = String.utf8EncodeChar c ++ encode s := rfl
    rw [hsplit, run_append, run_encodeChar, ih, List.singleton_append]

/-- a text comes back as it is -/
theorem decode_encode (s : List Char) : decode (encode s) = s := by
  rw [decode_eq, run_encode]
  exact List.append_nil s

/-- the bytes of a text determine it -/
theorem textBytes_inj {a b : String} : textBytes a = textBytes b ↔ a = b := by
  refine ⟨fun h => ?_, congrArg textBytes⟩
  rw [← String.toList_inj, ← decode_encode a.toList, ← decode_encode b.toList]
  exact congrArg decode h

/-- no character starts with a continuation byte -/
theorem isTail_head?_encode (s : List Char) : ∀ x ∈ (encode s).head?, isTail x = false := by
  cases s with
  | nil => simp [encode]
  | cons c s =>
    have hsplit : encode (c :: s) = String.utf8EncodeChar c ++ encode s := rfl
    have hvalid : c.val.toNat < 0xd800 ∨ 0xdfff < c.val.toNat ∧ c.val.toNat < 0x110000 := c.valid
    rw [hsplit]
    unfold String.utf8EncodeChar
    dsimp only
    intro x hx
    rw [← Bool.not_eq_true, isTail_iff]
    split_ifs at hx <;> cases hx
    · rw [toNat_ofNat (by omega)]
      omega
    · rw [toNat_ofNat (by omega)]
      omega
    · rw [toNat_ofNat (by omega)]
      omega
    · rw [toNat_ofNat (by omega)]
      omega

/-- **Decoding is faithful.** Every text comes back from its bytes as it is. Bytes can be cut in front of a byte that is
no continuation byte, and both parts decode on their own. The ASCII characters of what is decoded are the bytes below
0x80, all of them and in order. So decoding again changes nothing, and no bytes in front of a text can change it. -/
theorem decode_faithful :
    (∀ s : List Char, decode (encode s) = s) ∧
    (∀ a b : List UInt8, (∀ x ∈ b.head?, x < 0x80 ∨ 0xbf < x) → decode (a ++ b) = decode a ++ decode b) ∧
    (∀ raw : List UInt8, (decode raw).filter (fun c => c.toNat < 0x80) =
      (raw.filter (· < 0x80)).map fun b => Char.ofNat b.toNat) ∧
    (∀ raw : List UInt8, decode (encode (decode raw)) = decode raw) ∧
    ∀ (raw : List UInt8) (s : List Char), decode (raw ++ encode s) = decode raw ++ s := by
  refine ⟨decode_encode, fun a b h => ?_, asciiOf_decode, fun raw => decode_encode _, fun raw s => ?_⟩
  · refine decode_append fun x hx => ?_
    rw [← Bool.not_eq_true, isTail_iff]
    rcases h x hx with hlt | hgt
    · exact fun htail => absurd (UInt8.lt_iff_toNat_lt.1 hlt) (not_lt.2 htail.1)
    · exact fun htail => absurd (UInt8.lt_iff_toNat_lt.1 hgt) (not_lt.2 htail.2)
  · rw [decode_append (isTail_head?_encode s), decode_encode]

/-- a character of three bytes that breaks off does not swallow the comment behind it -/
theorem decode_faithful_brokenOff :
    decode ([0xe2, 0x82] ++ [0x2f, 0x2f]) = ['\ufffd', '/', '/'] ∧
      ∀ x ∈ [0x2f, 0x2f].head?, x < (0x80 : UInt8) ∨ 0xbf < x := by
  have hslash : ∀ x ∈ [0x2f, 0x2f].head?, x < (0x80 : UInt8) ∨ 0xbf < x := by
    rintro x ⟨⟩
    decide
  refine ⟨?_, hslash⟩
  rw [decode_faithful.2.1 _ _ hslash]
  decide

end AppAudit.Utf8
