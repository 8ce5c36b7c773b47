/-
The grammar of JSON texts, and why it is unambiguous.

A JSON text is a sequence of tokens with blanks between them: six marks, three words, numbers and strings. The tokens of
a value are fixed (`Value.tokens`), so a text spells a value if it consists of these tokens and of blanks (`Spells`).
What is inside a string is read character by character, and an escape stands for one character: by its letter, by its
code, or by two codes for a character beyond the first 65536. A surrogate on its own stands for no character.

The relations say what a text may be, not how to read it. That there is only one way to read it is proved in two steps:
the characters determine the tokens (`Lexes.unique`), and the tokens determine the value (`tokens_prefix`).

Main result:
- `Spells.unique`: a text spells at most one value.
-/
import Mathlib.Data.Bool.AllAny
import Mathlib.Tactic
import AppAudit.Proofs.PrintedNumbers
import AppAudit.Text.Hex

namespace AppAudit.JsonText

/-! ## Values and tokens -/

/-- what a JSON text stands for -/
inductive Value where
  | null
  | bool (b : Bool)
  | number (q : ℚ)
  | string (s : String)
  | array (items : List Value)
  /-- members in order, names may be repeated -/
  | object (members : List (String × Value))

inductive Token where
  | mark (c : Char)
  | null
  | bool (b : Bool)
  | number (q : ℚ)
  | string (s : String)

mutual

/-- the tokens of a value -/
def Value.tokens : Value → List Token
  | .null => [.null]
  | .bool b => [.bool b]
  | .number q => [.number q]
  | .string s => [.string s]
  | .array items => .mark '[' :: ([.mark ','].intercalate (itemTokens items) ++ [.mark ']'])
  | .object members => .mark '\x7b' :: ([.mark ','].intercalate (memberTokens members) ++ [.mark '\x7d'])

def itemTokens : List Value → List (List Token)
  | [] => []
  | v :: rest => v.tokens :: itemTokens rest

def memberTokens : List (String × Value) → List (List Token)
  | [] => []
  | (name, v) :: rest => (.string name :: .mark ':' :: v.tokens) :: memberTokens rest

end

/-! ## Characters -/

def isBlank (c : Char) : Bool := [' ', '\t', '\n', '\x0d'].contains c

def isMark (c : Char) : Bool := ['[', ']', '\x7b', '\x7d', ':', ','].contains c

/-- can be part of a number -/
def isNumeric (c : Char) : Bool := c.isDigit || ['-', '+', '.', 'e', 'E'].contains c

def words : List (List Char × Token) :=
  [("null".toList, .null), ("true".toList, .bool true), ("false".toList, .bool false)]

/-! ### Numbers -/

/-- an optional minus, digits without a leading zero, an optional fraction and an optional exponent -/
def IsNumber (w : List Char) : Prop :=
  ∃ minus whole fraction exponent, w = minus ++ (whole ++ (fraction ++ exponent)) ∧
    (minus = [] ∨ minus = ['-']) ∧
    (IsDigits whole ∧ (whole.head? = some '0' → whole = ['0'])) ∧
    (fraction = [] ∨ ∃ ds, IsDigits ds ∧ fraction = '.' :: ds) ∧
    (exponent = [] ∨ ∃ e ∈ ['e', 'E'], ∃ sign ∈ [[], ['+'], ['-']], ∃ ds, IsDigits ds ∧ exponent = e :: (sign ++ ds))

/-- a value behind an optional sign -/
def signed {α : Type} [Neg α] (value : List Char → α) : List Char → α
  | '-' :: ds => -value ds
  | '+' :: ds => value ds
  | ds => value ds

/-- what a number is worth -/
def numberValue (w : List Char) : ℚ :=
  let isMantissa (c : Char) : Bool := c ≠ 'e' && c ≠ 'E'
  let exponent : ℤ := signed (fun ds => (wholeValue ds : ℤ)) (w.dropWhile isMantissa).tail
  signed exactValue (w.takeWhile isMantissa) * 10 ^ exponent

/-! ### Strings -/

/-- what a letter behind a backslash stands for -/
def shortEscapes : List (Char × Char) :=
  [('"', '"'), ('\\', '\\'), ('/', '/'), ('b', '\x08'), ('f', '\x0c'), ('n', '\n'), ('r', '\x0d'), ('t', '\t')]

/-- the number written by four hexadecimal digits -/
def codeUnit? (a b c d : Char) : Option ℕ :=
  match hexValue? a, hexValue? b, hexValue? c, hexValue? d with
  | some a, some b, some c, some d => some (((a * 16 + b) * 16 + c) * 16 + d)
  | _, _, _, _ => none

/-- what stands behind an opening quote: the characters up to the closing quote, and what follows it -/
inductive Chars : List Char → List Char → List Char → Prop where
  | done {r : List Char} : Chars ('"' :: r) [] r
  | plain {c : Char} {t s r : List Char} : 0x20 ≤ c.toNat → c ≠ '"' → c ≠ '\\' → Chars t s r → Chars (c :: t) (c :: s) r
  | short {e c : Char} {t s r : List Char} : shortEscapes.lookup e = some c → Chars t s r →
      Chars ('\\' :: e :: t) (c :: s) r
  | code {a b c d x : Char} {t s r : List Char} : codeUnit? a b c d = some x.toNat → Chars t s r →
      Chars ('\\' :: 'u' :: a :: b :: c :: d :: t) (x :: s) r
  | pair {a b c d a' b' c' d' x : Char} {high low : ℕ} {t s r : List Char} :
      codeUnit? a b c d = some (0xd800 + high) → high < 0x400 →
      codeUnit? a' b' c' d' = some (0xdc00 + low) → low < 0x400 →
      x.toNat = 0x10000 + high * 0x400 + low → Chars t s r →
      Chars ('\\' :: 'u' :: a :: b :: c :: d :: '\\' :: 'u' :: a' :: b' :: c' :: d' :: t) (x :: s) r

/-! ## Texts -/

/-- a text consists of tokens, with blanks in front of, between and behind them -/
inductive Lexes : List Char → List Token → Prop where
  | done : Lexes [] []
  | blank {c : Char} {t : List Char} {ts : List Token} : isBlank c = true → Lexes t ts → Lexes (c :: t) ts
  | mark {c : Char} {t : List Char} {ts : List Token} : isMark c = true → Lexes t ts → Lexes (c :: t) (.mark c :: ts)
  | word {w t : List Char} {token : Token} {ts : List Token} : (w, token) ∈ words → Lexes t ts →
      Lexes (w ++ t) (token :: ts)
  /-- a number ends where nothing follows that could belong to it -/
  | number {w t : List Char} {ts : List Token} : IsNumber w → (∀ c ∈ t.head?, isNumeric c = false) → Lexes t ts →
      Lexes (w ++ t) (.number (numberValue w) :: ts)
  | string {t s r : List Char} {ts : List Token} : Chars t s r → Lexes r ts →
      Lexes ('"' :: t) (.string (String.ofList s) :: ts)

/-- a text is a well-formed JSON text, and this is the value that it stands for -/
def Spells (text : List Char) (v : Value) : Prop := Lexes text v.tokens

/-! ## One way to read -/

theorem toNat_ne_surrogate {c : Char} {n : ℕ} (h : n < 0x400) : c.toNat ≠ 0xd800 + n := by
  have hvalid : c.toNat < 0xd800 ∨ 0xdfff < c.toNat ∧ c.toNat < 0x110000 := c.valid
  omega

theorem Chars.unique {t s r s' r' : List Char} (h : Chars t s r) (h' : Chars t s' r') : s = s' ∧ r = r' := by
  have hu : shortEscapes.lookup 'u' = none := by decide
  induction h generalizing s' r' with
  | done =>
    cases h' with
    | done => exact ⟨rfl, rfl⟩
    | plain _ hquote => exact absurd rfl hquote
  | plain _ hquote hslash _ ih =>
    cases h' with
    | done => exact absurd rfl hquote
    | plain _ _ _ h' =>
      obtain ⟨rfl, rfl⟩ := ih h'
      exact ⟨rfl, rfl⟩
    | short => exact absurd rfl hslash
    | code => exact absurd rfl hslash
    | pair => exact absurd rfl hslash
  | short he _ ih =>
    cases h' with
    | plain _ _ hslash => exact absurd rfl hslash
    | short he' h' =>
      obtain ⟨rfl, rfl⟩ := ih h'
      rw [he, Option.some.injEq] at he'
      exact ⟨by rw [he'], rfl⟩
    | code =>
      rw [hu] at he
      cases he
    | pair =>
      rw [hu] at he
      cases he
  | code hx _ ih =>
    cases h' with
    | plain _ _ hslash => exact absurd rfl hslash
    | short he =>
      rw [hu] at he
      cases he
    | code hx' h' =>
      obtain ⟨rfl, rfl⟩ := ih h'
      rw [hx, Option.some.injEq] at hx'
      exact ⟨by rw [Char.toNat_inj.1 hx'], rfl⟩
    | pair hhigh hh =>
      rw [hx, Option.some.injEq] at hhigh
      exact absurd hhigh (toNat_ne_surrogate hh)
  | pair hhigh hh hlow hl hx _ ih =>
    cases h' with
    | plain _ _ hslash => exact absurd rfl hslash
    | short he =>
      rw [hu] at he
      cases he
    | code hx' h' =>
      rw [hhigh, Option.some.injEq] at hx'
      exact absurd hx'.symm (toNat_ne_surrogate hh)
    | pair hhigh' hh' hlow' hl' hx' h' =>
      obtain ⟨rfl, rfl⟩ := ih h'
      rw [hhigh, Option.some.injEq] at hhigh'
      rw [hlow, Option.some.injEq] at hlow'
      rw [Nat.add_left_cancel hhigh', Nat.add_left_cancel hlow', ← hx'] at hx
      exact ⟨by rw [Char.toNat_inj.1 hx], rfl⟩

/-- what begins with a character -/
inductive Lead where
  | number
  | blank
  | mark
  | string
  | word
deriving DecidableEq

def lead (c : Char) : Lead :=
  if isNumeric c then .number
  else if isBlank c then .blank
  else if isMark c then .mark
  else if c = '"' then .string
  else .word

theorem lead_of_isBlank {c : Char} (h : isBlank c = true) : lead c = .blank := by
  have hblanks : ∀ c ∈ [' ', '\t', '\n', '\x0d'], lead c = .blank :=
    List.all_iff_forall_prop.1 (by decide)
  exact hblanks c (List.contains_iff_mem.1 h)

theorem lead_of_isMark {c : Char} (h : isMark c = true) : lead c = .mark := by
  have hmarks : ∀ c ∈ ['[', ']', '\x7b', '\x7d', ':', ','], lead c = .mark :=
    List.all_iff_forall_prop.1 (by decide)
  exact hmarks c (List.contains_iff_mem.1 h)

theorem takeWhile_isNumeric {w r : List Char} (hw : ∀ c ∈ w, isNumeric c = true)
    (hr : ∀ c ∈ r.head?, isNumeric c = false) : (w ++ r).takeWhile isNumeric = w := by
  rw [List.takeWhile_append_of_pos hw]
  cases r with
  | nil => simp
  | cons c r => simp [hr c rfl]

theorem isNumeric_of_isDigits {ds : List Char} (h : IsDigits ds) : ∀ c ∈ ds, isNumeric c = true := by
  intro c hc
  rw [isNumeric, h.2 c hc, Bool.true_or]

theorem IsNumber.isNumeric {w : List Char} (h : IsNumber w) : ∀ c ∈ w, isNumeric c = true := by
  obtain ⟨minus, whole, fraction, exponent, rfl, hminus, ⟨hwhole, -⟩, hfraction, hexponent⟩ := h
  have hletters : ∀ e ∈ ['e', 'E'], JsonText.isNumeric e = true := List.all_iff_forall_prop.1 (by decide)
  have hsigns : ∀ sign ∈ [[], ['+'], ['-']], sign.all JsonText.isNumeric = true := by decide
  simp only [List.forall_mem_append]
  refine ⟨?_, isNumeric_of_isDigits hwhole, ?_, ?_⟩
  · rcases hminus with rfl | rfl
    · exact List.forall_mem_nil _
    · exact List.forall_mem_singleton.2 (by decide)
  · rcases hfraction with rfl | ⟨ds, hds, rfl⟩
    · exact List.forall_mem_nil _
    · exact List.forall_mem_cons.2 ⟨by decide, isNumeric_of_isDigits hds⟩
  · rcases hexponent with rfl | ⟨e, he, sign, hsign, ds, hds, rfl⟩
    · exact List.forall_mem_nil _
    · have hnumeric := List.all_eq_true.1 (hsigns sign hsign)
      exact List.forall_mem_cons.2 ⟨hletters e he, List.forall_mem_append.2 ⟨hnumeric, isNumeric_of_isDigits hds⟩⟩

theorem IsNumber.ne_nil {w : List Char} (h : IsNumber w) : w ≠ [] := by
  obtain ⟨minus, whole, fraction, exponent, rfl, -, ⟨⟨hwhole, -⟩, -⟩, -⟩ := h
  simp [hwhole]

theorem ne_nil_of_mem_words {w : List Char} {token : Token} (h : (w, token) ∈ words) : w ≠ [] := by
  have hwords : ∀ x ∈ words, x.1 ≠ [] := by decide
  exact hwords _ h

theorem lead_of_mem_words {c : Char} {w : List Char} {token : Token} (h : (c :: w, token) ∈ words) :
    lead c = .word := by
  have hwords : ∀ x ∈ words, x.1.head?.map lead = some .word := by decide
  exact Option.some.inj (hwords _ h)

theorem Lexes.eq_nil {ts : List Token} (h : Lexes [] ts) : ts = [] := by
  generalize htext : [] = text at h
  cases h with
  | done => rfl
  | blank => cases htext
  | mark => cases htext
  | word hw => exact absurd (List.append_eq_nil_iff.1 htext.symm).1 (ne_nil_of_mem_words hw)
  | number hw => exact absurd (List.append_eq_nil_iff.1 htext.symm).1 hw.ne_nil
  | string => cases htext

/-- what a text can consist of, by its first character -/
theorem Lexes.cons_cases {c : Char} {t : List Char} {ts : List Token} (h : Lexes (c :: t) ts) :
    match lead c with
    | .blank => Lexes t ts
    | .mark => ∃ ts', ts = .mark c :: ts' ∧ Lexes t ts'
    | .string => ∃ s r ts', Chars t s r ∧ ts = .string (String.ofList s) :: ts' ∧ Lexes r ts'
    | .number => ∃ w r ts', c :: t = w ++ r ∧ IsNumber w ∧ (∀ c ∈ r.head?, isNumeric c = false) ∧
        ts = .number (numberValue w) :: ts' ∧ Lexes r ts'
    | .word => ∃ w r token ts', c :: t = w ++ r ∧ (w, token) ∈ words ∧ ts = token :: ts' ∧ Lexes r ts' := by
  generalize htext : c :: t = text at h
  cases h with
  | done => cases htext
  | blank hblank h =>
    cases htext
    rw [lead_of_isBlank hblank]
    exact h
  | mark hmark h =>
    cases htext
    rw [lead_of_isMark hmark]
    exact ⟨_, rfl, h⟩
  | @word w r _ _ hw h =>
    obtain ⟨d, u, rfl⟩ := List.exists_cons_of_ne_nil (ne_nil_of_mem_words hw)
    cases htext
    rw [lead_of_mem_words hw]
    exact ⟨_, _, _, _, rfl, hw, rfl, h⟩
  | @number w r _ hw hr h =>
    obtain ⟨d, u, rfl⟩ := List.exists_cons_of_ne_nil hw.ne_nil
    cases htext
    rw [lead, if_pos (hw.isNumeric c List.mem_cons_self)]
    exact ⟨_, _, _, rfl, hw, hr, rfl, h⟩
  | string hs h =>
    cases htext
    exact ⟨_, _, _, hs, rfl, h⟩

/-- there is at most one word at the front of a text -/
theorem words_unique {w w' r r' : List Char} {token token' : Token} (h : (w, token) ∈ words)
    (h' : (w', token') ∈ words) (heq : w ++ r = w' ++ r') : token = token' ∧ r = r' := by
  simp only [words, List.mem_cons, List.not_mem_nil, or_false, Prod.mk.injEq] at h h'
  rcases h with ⟨rfl, rfl⟩ | ⟨rfl, rfl⟩ | ⟨rfl, rfl⟩ <;>
    rcases h' with ⟨rfl, rfl⟩ | ⟨rfl, rfl⟩ | ⟨rfl, rfl⟩ <;> simp_all

/-- characters have only one way to be tokens -/
theorem Lexes.unique {t : List Char} {ts ts' : List Token} (h : Lexes t ts) (h' : Lexes t ts') : ts = ts' := by
  induction h generalizing ts' with
  | done => exact h'.eq_nil.symm
  | blank hblank _ ih =>
    have hcases := h'.cons_cases
    rw [lead_of_isBlank hblank] at hcases
    exact ih hcases
  | mark hmark _ ih =>
    have hcases := h'.cons_cases
    rw [lead_of_isMark hmark] at hcases
    obtain ⟨rest, rfl, hrest⟩ := hcases
    rw [ih hrest]
  | @word w r _ _ hw _ ih =>
    obtain ⟨d, u, rfl⟩ := List.exists_cons_of_ne_nil (ne_nil_of_mem_words hw)
    have hcases := h'.cons_cases
    rw [lead_of_mem_words hw] at hcases
    obtain ⟨w', r', token', rest, htext, hw', rfl, hrest⟩ := hcases
    obtain ⟨rfl, rfl⟩ := words_unique hw hw' htext
    rw [ih hrest]
  | @number w r _ hw hr _ ih =>
    obtain ⟨d, u, rfl⟩ := List.exists_cons_of_ne_nil hw.ne_nil
    have hcases := h'.cons_cases
    rw [lead, if_pos (hw.isNumeric d List.mem_cons_self)] at hcases
    obtain ⟨w', r', rest, htext, hw', hr', rfl, hrest⟩ := hcases
    change d :: u ++ r = w' ++ r' at htext
    obtain rfl : d :: u = w' := by
      rw [← takeWhile_isNumeric hw.isNumeric hr, ← takeWhile_isNumeric hw'.isNumeric hr', htext]
    rw [ih (List.append_cancel_left htext ▸ hrest)]
  | string hs _ ih =>
    obtain ⟨s', r', rest, hs', rfl, hrest⟩ := h'.cons_cases
    obtain ⟨rfl, rfl⟩ := hs.unique hs'
    rw [ih hrest]

/-! ## One value -/

theorem itemTokens_eq_map (items : List Value) : itemTokens items = items.map Value.tokens := by
  induction items with
  | nil => rfl
  | cons v items ih => rw [itemTokens, ih, List.map_cons]

/-- the tokens of a member -/
def pairTokens (m : String × Value) : List Token := .string m.1 :: .mark ':' :: m.2.tokens

theorem memberTokens_eq_map (members : List (String × Value)) : memberTokens members = members.map pairTokens := by
  induction members with
  | nil => rfl
  | cons m members ih => rw [memberTokens, ih, List.map_cons, pairTokens]

/-- no value begins with a mark that ends or separates something -/
theorem Value.tokens_eq_cons (v : Value) :
    ∃ token rest, v.tokens = token :: rest ∧ token ≠ .mark ']' := by
  cases v <;> exact ⟨_, _, rfl, by simp⟩

/-- the rest of a list behind a part: a comma and the next part, or the mark at the end -/
def following (close : Char) (r : List Token) : List (List Token) → List Token
  | [] => .mark close :: r
  | p :: ps => .mark ',' :: (p ++ following close r ps)

theorem intercalate_eq_following (close : Char) (r p : List Token) (ps : List (List Token)) :
    [.mark ','].intercalate (p :: ps) ++ .mark close :: r = p ++ following close r ps := by
  induction ps generalizing p with
  | nil => rw [List.intercalate_singleton, following]
  | cons q ps ih =>
    simp only [List.intercalate_cons_cons, List.append_assoc, List.cons_append, List.nil_append, ih, following]

section

variable {α : Type} {part : α → List Token} {close : Char} {xs ys : List α} {r r' : List Token}

theorem following_prefix (hclose : close ≠ ',')
    (hparts : ∀ x ∈ xs, ∀ (y : α) {r r' : List Token}, part x ++ r = part y ++ r' → x = y ∧ r = r')
    (h : following close r (xs.map part) = following close r' (ys.map part)) : xs = ys ∧ r = r' := by
  induction xs generalizing ys with
  | nil =>
    cases ys with
    | nil => exact ⟨rfl, (List.cons.inj h).2⟩
    | cons y ys => exact absurd (Token.mark.inj (List.cons.inj h).1) hclose
  | cons x xs ih =>
    cases ys with
    | nil => exact absurd (Token.mark.inj (List.cons.inj h).1).symm hclose
    | cons y ys =>
      obtain ⟨rfl, hrest⟩ := hparts x List.mem_cons_self y (List.cons.inj h).2
      obtain ⟨rfl, rfl⟩ := ih (fun x hx => hparts x (List.mem_cons_of_mem _ hx)) hrest
      exact ⟨rfl, rfl⟩

/-- parts that can be told apart can be told apart in a list with commas between them and a mark at its end -/
theorem closed_prefix (hclose : close ≠ ',') (hhead : ∀ x, ∃ token rest, part x = token :: rest ∧ token ≠ .mark close)
    (hparts : ∀ x ∈ xs, ∀ (y : α) {r r' : List Token}, part x ++ r = part y ++ r' → x = y ∧ r = r')
    (h : [.mark ','].intercalate (xs.map part) ++ .mark close :: r =
      [.mark ','].intercalate (ys.map part) ++ .mark close :: r') : xs = ys ∧ r = r' := by
  cases xs with
  | nil =>
    cases ys with
    | nil => exact ⟨rfl, (List.cons.inj h).2⟩
    | cons y ys =>
      obtain ⟨token, rest, hy, hne⟩ := hhead y
      rw [List.map_cons, intercalate_eq_following, hy] at h
      exact absurd (List.cons.inj h).1.symm hne
  | cons x xs =>
    cases ys with
    | nil =>
      obtain ⟨token, rest, hx, hne⟩ := hhead x
      rw [List.map_cons, intercalate_eq_following, hx] at h
      exact absurd (List.cons.inj h).1 hne
    | cons y ys =>
      rw [List.map_cons, List.map_cons, intercalate_eq_following, intercalate_eq_following] at h
      obtain ⟨rfl, hrest⟩ := hparts x List.mem_cons_self y h
      obtain ⟨rfl, rfl⟩ := following_prefix hclose (fun x hx => hparts x (List.mem_cons_of_mem _ hx)) hrest
      exact ⟨rfl, rfl⟩

end

/-- the tokens of a value, whatever follows them, are those of no other value -/
theorem Value.tokens_prefix (v w : Value) {r r' : List Token} (h : v.tokens ++ r = w.tokens ++ r') :
    v = w ∧ r = r' := by
  match v with
  | .null => cases w <;> simp_all [Value.tokens]
  | .bool b => cases w <;> simp_all [Value.tokens]
  | .number q => cases w <;> simp_all [Value.tokens]
  | .string s => cases w <;> simp_all [Value.tokens]
  | .array items =>
    cases w with
    | array items' =>
      simp only [tokens, itemTokens_eq_map, List.cons_append, List.append_assoc, List.nil_append, List.cons.injEq,
        true_and] at h
      obtain ⟨rfl, rfl⟩ := closed_prefix (by decide) Value.tokens_eq_cons (fun x hx y _ _ => Value.tokens_prefix x y) h
      exact ⟨rfl, rfl⟩
    | _ => simp_all [Value.tokens]
  | .object members =>
    cases w with
    | object members' =>
      simp only [tokens, memberTokens_eq_map, List.cons_append, List.append_assoc, List.nil_append, List.cons.injEq,
        true_and] at h
      have hparts : ∀ m ∈ members, ∀ (m' : String × Value) {r r' : List Token},
          pairTokens m ++ r = pairTokens m' ++ r' → m = m' ∧ r = r' := by
        intro m hm m' r r' heq
        simp only [pairTokens, List.cons_append, List.cons.injEq, Token.string.injEq, true_and] at heq
        obtain ⟨hvalue, rfl⟩ := Value.tokens_prefix m.2 m'.2 heq.2
        exact ⟨Prod.ext heq.1 hvalue, rfl⟩
      obtain ⟨rfl, rfl⟩ := closed_prefix (by decide) (fun m => ⟨_, _, rfl, by simp⟩) hparts h
      exact ⟨rfl, rfl⟩
    | _ => simp_all [Value.tokens]
termination_by v
decreasing_by
  · simp only [Value.array.sizeOf_spec]
    have := List.sizeOf_lt_of_mem hx
    omega
  · obtain ⟨name, v⟩ := m
    have := List.sizeOf_lt_of_mem hm
    simp only [Value.object.sizeOf_spec, Prod.mk.sizeOf_spec] at this ⊢
    omega

/-- **JSON texts are unambiguous.** A text spells at most one value. -/
theorem Spells.unique {text : List Char} {v w : Value} (h : Spells text v) (h' : Spells text w) : v = w := by
  have htokens : v.tokens ++ [] = w.tokens ++ [] := congrArg (· ++ []) (Lexes.unique h h')
  exact (Value.tokens_prefix v w htokens).1

end AppAudit.JsonText
