/-
The JSON report can be read back.

Every document that is written over several lines is a well-formed JSON text and stands for the value that it was made
from (`Json.spells_pretty`): each part is read as its own tokens, wherever it stands (`Lexed`), except that a number
must not run into what follows it (`Reads`). Inside of strings every quote, backslash, control and markup character is
an escape, so nothing from outside breaks out of its string, and the only line breaks are those of the layout.

Since the grammar is unambiguous (`JsonText.Spells.unique`), different snapshots have different reports.

Main result:
- `json_report_lossless`: the JSON report stands for the five members of its snapshot and for nothing else.
-/
import Mathlib.Data.Bool.AllAny
import Mathlib.Tactic
import AppAudit.Proofs.Decoding
import AppAudit.Proofs.JsonGrammar
import AppAudit.Proofs.LogLines

namespace AppAudit

open JsonText

/-! ## Values of documents -/

namespace Json

mutual

/-- what a document stands for -/
def value : Json → Value
  | null => .null
  | bool b => .bool b
  | num n => .number n
  | str s => .string s
  | raw s => .string s.shown
  | arr items => .array (itemValues items)
  | obj members => .object (memberValues members)

def itemValues : List Json → List Value
  | [] => []
  | j :: rest => j.value :: itemValues rest

def memberValues : List (String × Json) → List (String × Value)
  | [] => []
  | (name, j) :: rest => (name, j.value) :: memberValues rest

end

theorem itemValues_eq_map (items : List Json) : itemValues items = items.map value := by
  induction items with
  | nil => rfl
  | cons j items ih => rw [itemValues, ih, List.map_cons]

end Json

namespace JsonText

/-! ## Parts of texts -/

/-- does not go on with a number -/
def Apart (t : List Char) : Prop := ∀ c ∈ t.head?, isNumeric c = false

/-- read as these tokens, whatever follows -/
def Lexed (text : String) (tokens : List Token) : Prop :=
  ∀ t ts, Lexes t ts → Lexes (text.toList ++ t) (tokens ++ ts)

/-- read as these tokens, whatever follows that is not part of a number -/
def Reads (text : String) (tokens : List Token) : Prop :=
  ∀ t ts, Apart t → Lexes t ts → Lexes (text.toList ++ t) (tokens ++ ts)

section

variable {a b : String} {x y : List Token}

theorem Lexed.reads (h : Lexed a x) : Reads a x := fun t ts _ ht => h t ts ht

theorem Lexed.append (ha : Lexed a x) (hb : Lexed b y) : Lexed (a ++ b) (x ++ y) := by
  intro t ts ht
  rw [String.toList_append, List.append_assoc, List.append_assoc]
  exact ha _ _ (hb t ts ht)

theorem Lexed.append_reads (ha : Lexed a x) (hb : Reads b y) : Reads (a ++ b) (x ++ y) := by
  intro t ts hapart ht
  rw [String.toList_append, List.append_assoc, List.append_assoc]
  exact ha _ _ (hb t ts hapart ht)

/-- a number ends in front of anything that is no part of it -/
theorem Reads.append {c : Char} {u : List Char} (ha : Reads a x) (hb : Lexed b y) (hu : b.toList = c :: u)
    (hc : isNumeric c = false) : Lexed (a ++ b) (x ++ y) := by
  intro t ts ht
  rw [String.toList_append, List.append_assoc, List.append_assoc]
  refine ha _ _ ?_ (hb t ts ht)
  rw [hu]
  rintro d ⟨⟩
  exact hc

end

theorem lexed_word {w : String} {token : Token} (h : (w.toList, token) ∈ words) : Lexed w [token] :=
  fun _ _ ht => .word h ht

theorem lexed_blanks {s : String} (h : ∀ c ∈ s.toList, isBlank c = true) : Lexed s [] := by
  intro t ts ht
  rw [List.nil_append]
  generalize s.toList = blanks at h
  induction blanks with
  | nil => exact ht
  | cons c u ih => exact .blank (h c List.mem_cons_self) (ih fun d hd => h d (List.mem_cons_of_mem _ hd))

theorem lexed_mark {s : String} {c : Char} (hs : s.toList = [c]) (h : isMark c = true) : Lexed s [.mark c] := by
  intro t ts ht
  rw [hs]
  exact .mark h ht

theorem lexed_newline (depth : ℕ) : Lexed (Json.newline depth) [] := by
  refine lexed_blanks fun c hc => ?_
  rw [Json.newline, String.toList_append, @String.toList_ofList (List.replicate (2 * depth) ' ')] at hc
  rcases List.mem_append.1 hc with hc | hc
  · rw [List.mem_singleton.1 hc]
    decide
  · rw [List.eq_of_mem_replicate hc]
    decide

theorem newline_eq_cons (depth : ℕ) : ∃ t, (Json.newline depth).toList = '\n' :: t := by
  rw [Json.newline, String.toList_append]
  exact ⟨_, rfl⟩

/-! ## Strings -/

/-- characters that are written by their code -/
def codes : List ℕ := List.range 0x20 ++ [0x3c, 0x3e, 0x26, 0x2028, 0x2029, 0xfffd]

/-- the number that is written with four hexadecimal digits and nothing else -/
def fourDigits? : List Char → Option ℕ
  | [a, b, c, d] => codeUnit? a b c d
  | _ => none

theorem codeUnit?_hexDigits {n : ℕ} (h : n ∈ codes) :
    ∃ a b c d, hexDigits 4 n = [a, b, c, d] ∧ codeUnit? a b c d = some n := by
  have hcodes : ∀ n ∈ codes, fourDigits? (hexDigits 4 n) = some n := by decide
  have hn := hcodes n h
  unfold fourDigits? at hn
  split at hn
  · rename_i a b c d hdigits
    exact ⟨a, b, c, d, hdigits, hn⟩
  · cases hn

theorem chars_code {c : Char} {t s r : List Char} (h : c.toNat ∈ codes) (ht : Chars t s r) :
    Chars ('\\' :: 'u' :: hexDigits 4 c.toNat ++ t) (c :: s) r := by
  obtain ⟨x, y, z, w, hdigits, hcode⟩ := codeUnit?_hexDigits h
  rw [hdigits]
  exact .code hcode ht

theorem toNat_mem_codes {c : Char} (h : Json.needsCode c = true) : c.toNat ∈ codes := by
  rw [Json.needsCode, Bool.or_eq_true, decide_eq_true_eq, List.contains_iff_mem] at h
  rcases h with hlow | hmarkup
  · exact List.mem_append_left _ (List.mem_range.2 hlow)
  · have hcodes : ∀ c ∈ ['<', '>', '&', '\u2028', '\u2029'], c.toNat ∈ codes :=
      List.all_iff_forall_prop.1 (by decide)
    exact hcodes c hmarkup

theorem chars_escapeChar (c : Char) {t s r : List Char} (ht : Chars t s r) :
    Chars (Json.escapeChar c ++ t) (c :: s) r := by
  unfold Json.escapeChar
  split_ifs with hquote hslash hb hf hn hr htab hcode
  · rw [hquote]
    exact .short (by decide) ht
  · rw [hslash]
    exact .short (by decide) ht
  · rw [hb]
    exact .short (by decide) ht
  · rw [hf]
    exact .short (by decide) ht
  · rw [hn]
    exact .short (by decide) ht
  · rw [hr]
    exact .short (by decide) ht
  · rw [htab]
    exact .short (by decide) ht
  · exact chars_code (toNat_mem_codes hcode) ht
  · have hlow : ¬c.toNat < 0x20 := fun h => hcode (by simp [Json.needsCode, h])
    exact .plain (not_lt.1 hlow) hquote hslash ht

theorem lexed_quote (s : String) : Lexed (Json.quote s) [.string s] := by
  intro t ts ht
  have hchars (cs : List Char) : Chars (cs.flatMap Json.escapeChar ++ '"' :: t) cs t := by
    induction cs with
    | nil => exact .done
    | cons c cs ih =>
      rw [List.flatMap_cons, List.append_assoc]
      exact chars_escapeChar c ih
  have h := Lexes.string (hchars s.toList) ht
  rw [String.ofList_toList] at h
  simpa [Json.quote, Json.quoteChars] using h

theorem lexed_quoteRaw (s : RawText) : Lexed (Json.quoteRaw s) [.string s.shown] := by
  intro t ts ht
  have hchars (letters : List Utf8.Letter) :
      Chars (letters.flatMap Json.escapeLetter ++ '"' :: t) (letters.map Utf8.Letter.shown) t := by
    induction letters with
    | nil => exact .done
    | cons letter letters ih =>
      rw [List.flatMap_cons, List.append_assoc]
      cases letter with
      | char c => exact chars_escapeChar c ih
      | stray b => exact chars_code (by decide) ih
  have h := Lexes.string (hchars s.letters) ht
  simpa [Json.quoteRaw, RawText.shown, RawText.shownChars] using h

/-! ## Numbers -/

theorem signed_digits {α : Type} [Neg α] (value : List Char → α) {ds : List Char} (h : AllDigits ds) :
    signed value ds = value ds := by
  unfold signed
  split
  · exact absurd (h '-' List.mem_cons_self) (by decide)
  · exact absurd (h '+' List.mem_cons_self) (by decide)
  · rfl

/-- without an exponent, a number is worth its mantissa -/
theorem numberValue_mantissa {w : List Char} (h : ∀ c ∈ w, c ≠ 'e' ∧ c ≠ 'E') :
    numberValue w = signed exactValue w := by
  have hall : ∀ c ∈ w, (c ≠ 'e' && c ≠ 'E') = true := fun c hc => by simp [h c hc]
  have hexponent : signed (fun ds => (wholeValue ds : ℤ)) [] = 0 := rfl
  unfold numberValue
  dsimp only
  rw [List.takeWhile_eq_self_iff.2 hall, List.dropWhile_eq_nil_iff.2 hall, List.tail_nil, hexponent, zpow_zero, mul_one]

theorem exactValue_digits {ds : List Char} (h : AllDigits ds) : exactValue ds = wholeValue ds := by
  rw [exactValue, wholePart_digits h, fractionPart_digits h, fractionValue, add_zero]

theorem ne_exponent_of_allDigits {ds : List Char} (h : AllDigits ds) : ∀ c ∈ ds, c ≠ 'e' ∧ c ≠ 'E' := by
  intro c hc
  constructor
  · rintro rfl
    exact absurd (h _ hc) (by decide)
  · rintro rfl
    exact absurd (h _ hc) (by decide)

theorem numberValue_digits {ds : List Char} (h : AllDigits ds) : numberValue ds = wholeValue ds := by
  rw [numberValue_mantissa (ne_exponent_of_allDigits h), signed_digits _ h, exactValue_digits h]

theorem numberValue_minus {ds : List Char} (h : AllDigits ds) : numberValue ('-' :: ds) = -wholeValue ds := by
  have hmantissa : ∀ c ∈ '-' :: ds, c ≠ 'e' ∧ c ≠ 'E' :=
    List.forall_mem_cons.2 ⟨by decide, ne_exponent_of_allDigits h⟩
  rw [numberValue_mantissa hmantissa, signed, exactValue_digits h]

theorem isNumber_int (n : ℤ) : IsNumber (toString n).toList := by
  rcases toList_int n with ⟨-, h⟩ | ⟨-, h⟩
  · refine ⟨[], _, [], [], ?_, Or.inl rfl, ⟨isDigits_toDigits n.toNat, toDigits_of_head?⟩, Or.inl rfl, Or.inl rfl⟩
    rw [h, List.nil_append, List.append_nil, List.append_nil]
  · refine ⟨['-'], _, [], [], ?_, Or.inr rfl, ⟨isDigits_toDigits (-n).toNat, toDigits_of_head?⟩, Or.inl rfl, Or.inl rfl⟩
    rw [h, List.append_nil, List.append_nil]
    rfl

theorem numberValue_int (n : ℤ) : numberValue (toString n).toList = n := by
  rcases toList_int n with ⟨hn, h⟩ | ⟨hn, h⟩
  · rw [h, numberValue_digits (isDigits_toDigits _).2, wholeValue_toDigits]
    exact_mod_cast Int.toNat_of_nonneg hn
  · rw [h, numberValue_minus (isDigits_toDigits _).2, wholeValue_toDigits]
    have hneg : ((-n).toNat : ℤ) = -n := Int.toNat_of_nonneg (by omega)
    have hcast : ((-n).toNat : ℚ) = -n := by exact_mod_cast hneg
    rw [hcast, neg_neg]

theorem reads_int (n : ℤ) : Reads (toString n) [.number n] := by
  intro t ts hapart ht
  have h := Lexes.number (isNumber_int n) hapart ht
  rwa [numberValue_int] at h

/-! ## Blocks -/

theorem reads_parts {sep : String} {c : Char} {u : List Char} (hsep : Lexed sep [.mark ',']) (hu : sep.toList = c :: u)
    (hc : isNumeric c = false) {p : String} {ps : List String} {x : List Token} {xs : List (List Token)} (h : Reads p x)
    (hs : List.Forall₂ Reads ps xs) : Reads (sep.intercalate (p :: ps)) ([.mark ','].intercalate (x :: xs)) := by
  induction hs generalizing p x with
  | nil =>
    rw [String.intercalate_singleton, List.intercalate_singleton]
    exact h
  | cons hq _ ih =>
    rw [String.intercalate_cons_cons, List.intercalate_cons_cons]
    exact (h.append hsep hu hc).append_reads (ih hq)

/-- parts between two marks, with commas between them -/
theorem lexed_block {opening closing : String} {o c : Char} (ho : Lexed opening [.mark o])
    (hc : Lexed closing [.mark c]) (depth : ℕ) {parts : List String} {tokens : List (List Token)}
    (h : List.Forall₂ Reads parts tokens) :
    Lexed (Json.block opening closing depth parts) (.mark o :: ([.mark ','].intercalate tokens ++ [.mark c])) := by
  unfold Json.block
  cases h with
  | nil => exact ho.append hc
  | cons hp hs =>
    have hcomma : Lexed ("," ++ Json.newline (depth + 1)) [.mark ','] :=
      (lexed_mark rfl (by decide)).append (lexed_newline _)
    obtain ⟨t, ht⟩ := newline_eq_cons depth
    have hparts := reads_parts hcomma String.toList_append (by decide) hp hs
    have hinner := (ho.append (lexed_newline (depth + 1))).append_reads hparts
    have hblock := (hinner.append (lexed_newline depth) ht (by decide)).append hc
    simpa using hblock

end JsonText

/-! ## Documents -/

namespace Json

mutual

theorem reads_indented : ∀ (depth : ℕ) (j : Json), Reads (j.indented depth) j.value.tokens
  | _, null => (lexed_word (w := "null") (by simp [words])).reads
  | _, bool b => by
    cases b
    · exact (lexed_word (w := "false") (by simp [words])).reads
    · exact (lexed_word (w := "true") (by simp [words])).reads
  | _, num n => reads_int n
  | _, str s => (lexed_quote s).reads
  | _, raw s => (lexed_quoteRaw s).reads
  | depth, arr items =>
    (lexed_block (lexed_mark rfl (by decide)) (lexed_mark rfl (by decide)) depth (reads_items (depth + 1) items)).reads
  | depth, obj members =>
    (lexed_block (lexed_mark rfl (by decide)) (lexed_mark rfl (by decide)) depth
      (reads_members (depth + 1) members)).reads

theorem reads_items : ∀ (depth : ℕ) (items : List Json),
    List.Forall₂ Reads (indentedItems depth items) (itemTokens (itemValues items))
  | _, [] => .nil
  | depth, j :: rest => .cons (reads_indented depth j) (reads_items depth rest)

theorem reads_members : ∀ (depth : ℕ) (members : List (String × Json)),
    List.Forall₂ Reads (indentedMembers depth members) (memberTokens (memberValues members))
  | _, [] => .nil
  | depth, (name, j) :: rest => by
    have hcolon : Lexed ": " [.mark ':'] :=
      (lexed_mark (s := ":") rfl (by decide)).append (lexed_blanks (s := " ") (List.forall_mem_singleton.2 (by decide)))
    have hname : Lexed (quote name ++ ": ") [.string name, .mark ':'] := (lexed_quote name).append hcolon
    exact .cons (hname.append_reads (reads_indented depth j)) (reads_members depth rest)

end

/-- a document over several lines is a well-formed JSON text and stands for what it was made from -/
theorem spells_pretty (j : Json) : Spells j.pretty.toList j.value := by
  have h := reads_indented 0 j [] [] (fun c hc => nomatch hc) .done
  rwa [List.append_nil, List.append_nil] at h

/-! ## Characters -/

/-- whatever is written by its code stands nowhere as it is, line breaks apart -/
def Bare (text : String) : Prop := ∀ c ∈ text.toList, needsCode c = true → c = '\n'

theorem bare_of_plain {s : String} (h : ∀ c ∈ s.toList, needsCode c = false) : Bare s := by
  intro c hc hcode
  rw [h c hc] at hcode
  cases hcode

theorem bare_of_all {s : String} (h : s.toList.all (fun c => decide (needsCode c = false)) = true) : Bare s :=
  bare_of_plain (List.all_iff_forall_prop.1 h)

theorem bare_break : Bare "\n" := fun _ hc _ => List.mem_singleton.1 hc

theorem Bare.append {a b : String} (ha : Bare a) (hb : Bare b) : Bare (a ++ b) := by
  intro c hc
  rw [String.toList_append] at hc
  exact (List.mem_append.1 hc).elim (ha c) (hb c)

theorem bare_newline (depth : ℕ) : Bare (newline depth) := by
  refine bare_break.append (bare_of_plain fun c hc => ?_)
  rw [String.toList_ofList] at hc
  rw [List.eq_of_mem_replicate hc]
  decide

theorem needsCode_hexDigits {n : ℕ} (h : n ∈ codes) : ∀ c ∈ hexDigits 4 n, needsCode c = false := by
  have hcodes : ∀ n ∈ codes, (hexDigits 4 n).all (fun c => decide (needsCode c = false)) = true := by decide
  exact List.all_iff_forall_prop.1 (hcodes n h)

theorem needsCode_code {n : ℕ} (h : n ∈ codes) : ∀ c ∈ '\\' :: 'u' :: hexDigits 4 n, needsCode c = false :=
  List.forall_mem_cons.2 ⟨by decide, List.forall_mem_cons.2 ⟨by decide, needsCode_hexDigits h⟩⟩

theorem needsCode_escapeChar (c : Char) : ∀ d ∈ escapeChar c, needsCode d = false := by
  unfold escapeChar
  split_ifs with hquote hslash hb hf hn hr htab hcode
  · exact List.all_iff_forall_prop.1 (by decide)
  · exact List.all_iff_forall_prop.1 (by decide)
  · exact List.all_iff_forall_prop.1 (by decide)
  · exact List.all_iff_forall_prop.1 (by decide)
  · exact List.all_iff_forall_prop.1 (by decide)
  · exact List.all_iff_forall_prop.1 (by decide)
  · exact List.all_iff_forall_prop.1 (by decide)
  · exact needsCode_code (toNat_mem_codes hcode)
  · exact List.forall_mem_singleton.2 (Bool.eq_false_iff.2 hcode)

theorem needsCode_escapeLetter (letter : Utf8.Letter) : ∀ d ∈ escapeLetter letter, needsCode d = false := by
  cases letter with
  | char c => exact needsCode_escapeChar c
  | stray b => exact needsCode_code (by decide)

theorem bare_quoted {inside : List Char} (h : ∀ c ∈ inside, needsCode c = false) :
    Bare (String.ofList ('"' :: (inside ++ ['"']))) := by
  refine bare_of_plain ?_
  rw [String.toList_ofList]
  exact List.forall_mem_cons.2 ⟨by decide, List.forall_mem_append.2 ⟨h, List.forall_mem_singleton.2 (by decide)⟩⟩

theorem bare_quote (s : String) : Bare (quote s) :=
  bare_quoted (List.forall_mem_flatMap.2 fun c _ => needsCode_escapeChar c)

theorem bare_quoteRaw (s : RawText) : Bare (quoteRaw s) :=
  bare_quoted (List.forall_mem_flatMap.2 fun letter _ => needsCode_escapeLetter letter)

theorem bare_int (n : ℤ) : Bare (toString n) := by
  have hcodes : ∀ n ∈ codes, isNumeric (Char.ofNat n) = false := by decide
  refine bare_of_plain fun c hc => Bool.eq_false_iff.2 fun hcode => ?_
  have hplain := hcodes c.toNat (toNat_mem_codes hcode)
  rw [Char.ofNat_toNat, (isNumber_int n).isNumeric c hc] at hplain
  cases hplain

theorem bare_intercalate {sep : String} (hsep : Bare sep) {parts : List String} (h : ∀ p ∈ parts, Bare p) :
    Bare (sep.intercalate parts) := by
  induction parts with
  | nil => exact bare_of_plain (List.forall_mem_nil _)
  | cons p parts ih =>
    obtain ⟨hp, hrest⟩ := List.forall_mem_cons.1 h
    cases parts with
    | nil =>
      rw [String.intercalate_singleton]
      exact hp
    | cons q parts =>
      rw [String.intercalate_cons_cons]
      exact (hp.append hsep).append (ih hrest)

theorem bare_block {opening closing : String} (ho : Bare opening) (hc : Bare closing) (depth : ℕ) {parts : List String}
    (h : ∀ p ∈ parts, Bare p) : Bare (block opening closing depth parts) := by
  have hsep : Bare ("," ++ newline (depth + 1)) := (bare_of_all (by decide)).append (bare_newline _)
  unfold block
  split_ifs
  · exact ho.append hc
  · exact (((ho.append (bare_newline _)).append (bare_intercalate hsep h)).append (bare_newline _)).append hc

mutual

theorem bare_indented : ∀ (depth : ℕ) (j : Json), Bare (j.indented depth)
  | _, null => bare_of_all (s := "null") (by decide)
  | _, bool b => by
    cases b
    · exact bare_of_all (s := "false") (by decide)
    · exact bare_of_all (s := "true") (by decide)
  | _, num n => bare_int n
  | _, str s => bare_quote s
  | _, raw s => bare_quoteRaw s
  | depth, arr items =>
    bare_block (bare_of_all (by decide)) (bare_of_all (by decide)) depth (bare_items (depth + 1) items)
  | depth, obj members =>
    bare_block (bare_of_all (by decide)) (bare_of_all (by decide)) depth (bare_members (depth + 1) members)

theorem bare_items : ∀ (depth : ℕ) (items : List Json), ∀ p ∈ indentedItems depth items, Bare p
  | _, [] => List.forall_mem_nil _
  | depth, j :: rest => List.forall_mem_cons.2 ⟨bare_indented depth j, bare_items depth rest⟩

theorem bare_members : ∀ (depth : ℕ) (members : List (String × Json)), ∀ p ∈ indentedMembers depth members, Bare p
  | _, [] => List.forall_mem_nil _
  | depth, (name, j) :: rest =>
    List.forall_mem_cons.2 ⟨((bare_quote name).append (bare_of_all (by decide))).append (bare_indented depth j),
      bare_members depth rest⟩

end

/-! ## Line breaks -/

def lineBreaks (text : String) : ℕ := text.toList.count '\n'

theorem lineBreaks_append (a b : String) : lineBreaks (a ++ b) = lineBreaks a + lineBreaks b := by
  rw [lineBreaks, String.toList_append, List.count_append]
  rfl

theorem lineBreaks_of_not_mem {s : String} (h : '\n' ∉ s.toList) : lineBreaks s = 0 := List.count_eq_zero.2 h

theorem lineBreaks_newline (depth : ℕ) : lineBreaks (newline depth) = 1 := by
  have hblanks : lineBreaks (String.ofList (List.replicate (2 * depth) ' ')) = 0 := by
    refine lineBreaks_of_not_mem fun h => ?_
    rw [String.toList_ofList] at h
    exact absurd (List.eq_of_mem_replicate h) (by decide)
  rw [newline, lineBreaks_append, hblanks]
  rfl

theorem lineBreaks_intercalate (sep p : String) (parts : List String) :
    lineBreaks (sep.intercalate (p :: parts)) =
      ((p :: parts).map lineBreaks).sum + parts.length * lineBreaks sep := by
  induction parts generalizing p with
  | nil => simp [String.intercalate_singleton]
  | cons q parts ih =>
    rw [String.intercalate_cons_cons, lineBreaks_append, lineBreaks_append, ih]
    simp only [List.map_cons, List.sum_cons, List.length_cons]
    ring

/-- a list over several lines has a line break in front of each part and one behind the last -/
theorem lineBreaks_block {opening closing : String} (ho : lineBreaks opening = 0) (hc : lineBreaks closing = 0)
    (depth : ℕ) (parts : List String) :
    lineBreaks (block opening closing depth parts) =
      if parts = [] then 0 else (parts.map lineBreaks).sum + parts.length + 1 := by
  have hsep : lineBreaks ("," ++ newline (depth + 1)) = 1 := by
    rw [lineBreaks_append, lineBreaks_newline]
    rfl
  unfold block
  cases parts with
  | nil => simp [lineBreaks_append, ho, hc]
  | cons p parts =>
    rw [if_neg (by simp), if_neg (by simp)]
    simp only [lineBreaks_append, lineBreaks_newline, lineBreaks_intercalate, hsep, ho, hc, List.length_cons]
    omega

theorem lineBreaks_quote (s : String) : lineBreaks (quote s) = 0 := lineBreaks_of_not_mem (newline_not_mem_quote s)

theorem lineBreaks_int (n : ℤ) : lineBreaks (toString n) = 0 := lineBreaks_of_not_mem (newline_not_mem_int n)

theorem indentedItems_texts (depth : ℕ) (texts : List String) :
    indentedItems depth (texts.map .str) = texts.map quote := by
  induction texts with
  | nil => rfl
  | cons s texts ih => rw [List.map_cons, indentedItems, ih, List.map_cons, indented]

end Json

/-! ## The report -/

open Json

/-- the line breaks of a list of texts -/
def listBreaks (texts : List String) : ℕ := if texts = [] then 0 else texts.length + 1

theorem lineBreaks_texts (depth : ℕ) (texts : List String) :
    lineBreaks ((Json.arr (texts.map .str)).indented depth) = listBreaks texts := by
  have hsum : ((texts.map quote).map lineBreaks).sum = 0 := by
    refine List.sum_eq_zero fun n hn => ?_
    obtain ⟨quoted, hquoted, rfl⟩ := List.mem_map.1 hn
    obtain ⟨s, -, rfl⟩ := List.mem_map.1 hquoted
    exact lineBreaks_quote s
  rw [indented, indentedItems_texts, lineBreaks_block rfl rfl, hsum, List.length_map, listBreaks, Nat.zero_add]
  simp only [List.map_eq_nil_iff]

theorem value_snapshot (s : Snapshot) : s.toJson.value = .object
    [("files_checked", .number s.filesChecked), ("issues", .array (s.issues.map .string)),
      ("warnings", .array (s.warnings.map .string)), ("passed_checks", .number s.passedChecks),
      ("compliant", .bool s.compliant)] := by
  simp only [Snapshot.toJson, value, memberValues, itemValues_eq_map, List.map_map]
  rfl

theorem lineBreaks_jsonReport (s : Snapshot) :
    lineBreaks (jsonReport s) = 7 + listBreaks s.issues + listBreaks s.warnings := by
  have hend : lineBreaks "\n" = 1 := rfl
  have hcolon : lineBreaks ": " = 0 := rfl
  have hbool : lineBreaks ((Json.bool s.compliant).indented 1) = 0 := by
    cases s.compliant <;> rfl
  have hnum (n : ℤ) : lineBreaks ((Json.num n).indented 1) = 0 := lineBreaks_int n
  rw [jsonReport, lineBreaks_append, hend, pretty, Snapshot.toJson, indented, lineBreaks_block rfl rfl]
  simp only [indentedMembers, lineBreaks_append, List.map_cons, List.map_nil, List.sum_cons, List.sum_nil,
    List.length_cons, List.length_nil, lineBreaks_quote, lineBreaks_texts, hcolon, hbool, hnum, reduceCtorEq, if_false]
  omega

theorem bare_jsonReport (s : Snapshot) : Bare (jsonReport s) :=
  (bare_indented 0 s.toJson).append bare_break

/-- a snapshot is what its document stands for -/
theorem snapshot_of_value {s s' : Snapshot} (h : s.toJson.value = s'.toJson.value) : s = s' := by
  have hstrings {a b : List String} (hab : a.map Value.string = b.map Value.string) : a = b :=
    List.map_injective_iff.2 (fun _ _ => Value.string.inj) hab
  rw [value_snapshot, value_snapshot] at h
  simp only [Value.object.injEq, List.cons.injEq, Prod.mk.injEq, true_and, and_true, Value.number.injEq,
    Value.array.injEq, Value.bool.injEq, Int.cast_inj] at h
  obtain ⟨hfiles, hissues, hwarnings, hpassed, hcompliant⟩ := h
  cases s
  cases s'
  simp only [Snapshot.mk.injEq]
  exact ⟨hfiles, hstrings hissues, hstrings hwarnings, hpassed, hcompliant⟩

/-- **The JSON report is lossless.** The report of every snapshot is a well-formed JSON text and one line break behind
it. The text stands for an object with the five members of the snapshot and their values, and for nothing else. It holds
no markup character and no separator of lines or paragraphs, and no control character besides the line breaks of the
layout, whose number depends on the lengths of the lists only. Different snapshots have different reports, also as
bytes. -/
theorem json_report_lossless :
    (∀ s : Snapshot,
      (∃ document, jsonReport s = document ++ "\n" ∧ ∀ v, Spells document.toList v ↔ v = .object
        [("files_checked", .number s.filesChecked), ("issues", .array (s.issues.map .string)),
          ("warnings", .array (s.warnings.map .string)), ("passed_checks", .number s.passedChecks),
          ("compliant", .bool s.compliant)]) ∧
      (∀ c ∈ (jsonReport s).toList, c ∉ ['<', '>', '&', '\u2028', '\u2029'] ∧ (c.toNat < 0x20 → c = '\n')) ∧
      (jsonReport s).toList.count '\n' = 7 + listBreaks s.issues + listBreaks s.warnings) ∧
    Function.Injective fun s : Snapshot => textBytes (jsonReport s) := by
  refine ⟨fun s => ⟨⟨s.toJson.pretty, rfl, fun v => ?_⟩, fun c hc => ?_, lineBreaks_jsonReport s⟩, fun s s' h => ?_⟩
  · rw [← value_snapshot]
    constructor
    · exact fun hv => hv.unique (spells_pretty _)
    · rintro rfl
      exact spells_pretty _
  · have hbare := bare_jsonReport s c hc
    rw [needsCode, Bool.or_eq_true, decide_eq_true_eq, List.contains_iff_mem] at hbare
    refine ⟨fun hmarkup => ?_, fun hcontrol => hbare (Or.inl hcontrol)⟩
    rw [hbare (Or.inr hmarkup)] at hmarkup
    exact absurd hmarkup (by decide)
  · have htext : jsonReport s = jsonReport s' := Utf8.textBytes_inj.1 h
    have hpretty : s.toJson.pretty = s'.toJson.pretty := (String.append_left_inj _).1 htext
    have hspells := spells_pretty s.toJson
    rw [hpretty] at hspells
    exact snapshot_of_value (hspells.unique (spells_pretty s'.toJson))

end AppAudit
