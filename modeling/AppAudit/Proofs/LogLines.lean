/-
What log lines start with.

Values from outside reach the log: paths, error texts, the level that the environment asks for. None of them can start a
line of its own. In plain text the lines of a value are indented and everything unusual in them is written by its code; in
JSON a line break is written by its code. A line may start with the time, which is a number. So every line of the log
opens with a mark (`IsLogMark`), and nothing that is said in other words can be mistaken for it.

Main facts:
- `ruled_writeLog`: what a logger writes consists of whole lines, each of which opens with a mark;
- `Ruled.not_hasLine`: such a text has no line that starts otherwise.
-/
import Mathlib.Tactic
import AppAudit.Command.Audit
import AppAudit.Proofs.Paths

namespace AppAudit

/-! ## Texts of lines -/

/-- a line of the text starts with some words -/
def HasLine (words text : String) : Prop :=
  ∃ before after, text.toList = before ++ words.toList ++ after ∧ (before = [] ∨ before.getLast? = some '\n')

/-- the text is empty or its last line is complete -/
def EndsLine (text : String) : Prop := text.toList = [] ∨ text.toList.getLast? = some '\n'

theorem EndsLine.append {a b : String} (ha : EndsLine a) (hb : EndsLine b) : EndsLine (a ++ b) := by
  unfold EndsLine at *
  rw [String.toList_append]
  rcases hb with hb | hb
  · rw [hb, List.append_nil]
    exact ha
  · rw [List.getLast?_append, hb]
    exact Or.inr rfl

theorem endsLine_append_newline (s : String) : EndsLine (s ++ "\n") := by
  unfold EndsLine
  rw [String.toList_append]
  exact Or.inr List.getLast?_concat

/-- what is said after complete lines starts a line -/
theorem hasLine_append {a b words : String} (ha : EndsLine a) (hb : words.toList <+: b.toList) :
    HasLine words (a ++ b) := by
  obtain ⟨after, hafter⟩ := hb
  refine ⟨a.toList, after, ?_, ha⟩
  rw [String.toList_append, ← hafter, List.append_assoc]

/-- what lines of the log can start with -/
def IsLogMark (c : Char) : Prop := c.isDigit = true ∨ c ∈ ['[', ' ', '\x7b']

instance : DecidablePred IsLogMark := fun c => inferInstanceAs (Decidable (c.isDigit = true ∨ c ∈ ['[', ' ', '\x7b']))

/-- whole lines that open with marks -/
inductive Ruled : List Char → Prop where
  | nil : Ruled []
  | line {mark : Char} {rest text : List Char} : IsLogMark mark → '\n' ∉ rest → Ruled text →
      Ruled (mark :: rest ++ '\n' :: text)

/-- whole lines that open with marks, and the start of a further one -/
inductive Begun : List Char → Prop where
  | line {mark : Char} {log rest : List Char} : Ruled log → IsLogMark mark → '\n' ∉ rest → Begun (log ++ mark :: rest)

namespace Ruled

theorem append {a b : List Char} (ha : Ruled a) (hb : Ruled b) : Ruled (a ++ b) := by
  induction ha with
  | nil => exact hb
  | line hmark hrest _ ih =>
    rw [List.append_assoc, List.cons_append]
    exact .line hmark hrest ih

theorem flatMap {α : Type} {f : α → List Char} {xs : List α} (h : ∀ x ∈ xs, Ruled (f x)) : Ruled (xs.flatMap f) := by
  induction xs with
  | nil => exact .nil
  | cons x xs ih =>
    rw [List.flatMap_cons]
    exact (h x List.mem_cons_self).append (ih fun y hy => h y (List.mem_cons_of_mem _ hy))

theorem single {mark : Char} {rest : List Char} (hmark : IsLogMark mark) (hrest : '\n' ∉ rest) :
    Ruled (mark :: rest ++ ['\n']) := .line hmark hrest .nil

theorem endsLine {text : String} (h : Ruled text.toList) : EndsLine text := by
  unfold EndsLine
  generalize text.toList = cs at h
  induction h with
  | nil => exact Or.inl rfl
  | line _ _ _ ih =>
    right
    rcases ih with rfl | ih
    · exact List.getLast?_concat
    · rw [List.getLast?_append, List.getLast?_cons, ih]
      rfl

/-- a line break behind a first line either ends this line or stands behind it -/
theorem exists_before {first text before after : List Char} (hfirst : '\n' ∉ first)
    (h : first ++ '\n' :: text = before ++ '\n' :: after) :
    ∃ between, text = between ++ after ∧ (between = [] ∨ between.getLast? = some '\n') := by
  rcases List.append_eq_append_iff.1 h with ⟨between, rfl, hrest⟩ | ⟨missing, rfl, hrest⟩
  · cases between with
    | nil => exact ⟨[], (List.cons.inj hrest).2, Or.inl rfl⟩
    | cons d between =>
      refine ⟨between ++ ['\n'], ?_, Or.inr List.getLast?_concat⟩
      rw [List.append_assoc]
      exact (List.cons.inj hrest).2
  · cases missing with
    | nil => exact ⟨[], (List.cons.inj hrest).2.symm, Or.inl rfl⟩
    | cons d missing =>
      have hd : d = '\n' := (List.cons.inj hrest).1.symm
      exact absurd (List.mem_append_right _ (hd ▸ List.mem_cons_self)) hfirst

/-- the lines of a ruled text start with marks and with nothing else -/
theorem mem_of_split {before after : List Char} {c : Char} {text : List Char} (h : Ruled text)
    (hsplit : text = before ++ c :: after) (hbefore : before = [] ∨ before.getLast? = some '\n') : IsLogMark c := by
  induction h generalizing before with
  | nil => exact absurd hsplit.symm (List.append_ne_nil_of_right_ne_nil _ (List.cons_ne_nil _ _))
  | @line mark rest text hmark hrest _ ih =>
    rcases hbefore with rfl | hlast
    · rw [List.nil_append, List.cons_append] at hsplit
      rw [← (List.cons.inj hsplit).1]
      exact hmark
    · obtain ⟨front, rfl⟩ := List.getLast?_eq_some_iff.1 hlast
      have hfirst : '\n' ∉ mark :: rest := by
        rintro (_ | ⟨_, hmem⟩)
        · exact absurd hmark (by decide)
        · exact hrest hmem
      rw [List.append_assoc, List.singleton_append] at hsplit
      obtain ⟨between, hbetween, hends⟩ := exists_before hfirst hsplit
      exact ih hbetween hends

/-- no line of a ruled text starts with words that do not start with a mark -/
theorem not_hasLine {text words : String} (h : Ruled text.toList) {c : Char} {rest : List Char}
    (hwords : words.toList = c :: rest) (hc : ¬IsLogMark c) : ¬HasLine words text := by
  rintro ⟨before, after, hsplit, hbefore⟩
  rw [hwords, List.append_assoc, List.cons_append] at hsplit
  exact hc (h.mem_of_split hsplit hbefore)

end Ruled

namespace Begun

theorem append {text more : List Char} (h : Begun text) (hmore : '\n' ∉ more) : Begun (text ++ more) := by
  cases h with
  | line hlog hmark hrest =>
    rw [List.append_assoc, List.cons_append]
    exact .line hlog hmark (List.not_mem_append hrest hmore)

theorem finish {text : List Char} (h : Begun text) : Ruled (text ++ ['\n']) := by
  cases h with
  | line hlog hmark hrest =>
    rw [List.append_assoc]
    exact hlog.append (.single hmark hrest)

end Begun

/-! ## Texts without a line break -/

theorem newline_not_mem_toDigits {base : Nat} (hbase : 1 < base) (n : Nat) : '\n' ∉ Nat.toDigits base n := by
  have hdigit (k : Nat) : '\n' ∉ [Nat.digitChar k] := by
    intro h
    exact Nat.digitChar_ne '\n' (by rfl) (List.mem_singleton.1 h).symm
  induction n using Nat.strongRecOn with
  | ind n ih =>
    by_cases hn : n < base
    · rw [Nat.toDigits_of_lt_base hn]
      exact hdigit n
    · rw [Nat.toDigits_of_base_le hbase (Nat.not_lt.1 hn)]
      refine List.not_mem_append (ih (n / base) ?_) (hdigit _)
      exact Nat.div_lt_self (by omega) hbase

theorem newline_not_mem_hexDigits (width n : Nat) : '\n' ∉ hexDigits width n := by
  unfold hexDigits
  refine List.not_mem_append ?_ (newline_not_mem_toDigits (by decide) n)
  intro h
  exact absurd (List.eq_of_mem_replicate h) (by decide)

theorem newline_not_mem_int (n : Int) : '\n' ∉ (toString n).toList := by
  rw [Int.toString_eq_repr, Int.repr_eq_if]
  split_ifs
  · rw [Nat.toList_repr]
    exact newline_not_mem_toDigits (by decide) _
  · rw [String.toList_append, Nat.toList_repr]
    exact List.not_mem_append (by decide) (newline_not_mem_toDigits (by decide) _)

theorem newline_not_mem_ite {p : Prop} [Decidable p] {a b : List Char} (ha : p → '\n' ∉ a) (hb : ¬p → '\n' ∉ b) :
    '\n' ∉ if p then a else b := by
  split_ifs with hp
  · exact ha hp
  · exact hb hp

theorem newline_not_mem_code {x : Char} (hx : x ≠ '\n') (width n : Nat) : '\n' ∉ '\\' :: x :: hexDigits width n := by
  rintro (_ | ⟨_, _ | ⟨_, h⟩⟩)
  · exact hx rfl
  · exact newline_not_mem_hexDigits width n h

theorem newline_not_mem_quotedChar (c : Char) : '\n' ∉ quotedChar c := by
  unfold quotedChar
  iterate 2 refine newline_not_mem_ite (fun _ => by decide) fun _ => ?_
  refine newline_not_mem_ite (fun hprintable => ?_) fun _ => ?_
  · intro h
    rw [← List.mem_singleton.1 h] at hprintable
    exact absurd hprintable (by decide)
  · iterate 7 refine newline_not_mem_ite (fun _ => by decide) fun _ => ?_
    refine newline_not_mem_ite (fun _ => newline_not_mem_code (by decide) _ _) fun _ => ?_
    exact newline_not_mem_ite (fun _ => newline_not_mem_code (by decide) _ _)
      fun _ => newline_not_mem_code (by decide) _ _

/-! ## Stamps -/

namespace Moment

theorem isDigit_of_mem_padded {width n : ℕ} {c : Char} (h : c ∈ padded width n) : c.isDigit = true := by
  rcases List.mem_append.1 h with h | h
  · rw [List.eq_of_mem_replicate h]
    rfl
  · exact Nat.isDigit_of_mem_toDigits (by decide) (by decide) h

theorem newline_not_mem_padded (width n : ℕ) : '\n' ∉ padded width n :=
  fun h => absurd (isDigit_of_mem_padded h) (by decide)

theorem newline_not_mem_zone (m : Moment) (json : Bool) : '\n' ∉ m.zone json := by
  unfold zone
  refine newline_not_mem_ite (fun _ => by decide) fun _ => ?_
  refine List.not_mem_append (List.not_mem_append ?_ ?_) (newline_not_mem_padded _ _)
  · refine List.not_mem_cons_of_ne_of_not_mem ?_ (newline_not_mem_padded _ _)
    split_ifs <;> decide
  · cases json <;> decide

theorem newline_not_mem_text (m : Moment) (json : Bool) : '\n' ∉ (m.text json).toList := by
  have hjoined {c : Char} (hc : '\n' ≠ c) {a : List Char} (ha : '\n' ∉ a) (n : ℕ) : '\n' ∉ a ++ c :: padded 2 n :=
    List.not_mem_append ha (List.not_mem_cons_of_ne_of_not_mem hc (newline_not_mem_padded 2 n))
  unfold text
  rw [String.toList_ofList]
  refine List.not_mem_append (List.not_mem_append ?_ ?_) (m.newline_not_mem_zone json)
  · iterate 5 refine hjoined (by decide) ?_ _
    exact newline_not_mem_padded 4 m.year
  · refine List.not_mem_cons_of_ne_of_not_mem (by decide) ?_
    cases json <;> exact newline_not_mem_padded _ _

/-- a line that tells the time starts with the year -/
theorem begun_text (m : Moment) (json : Bool) : Begun (m.text json).toList := by
  have hne : padded 4 m.year ≠ [] := List.append_ne_nil_of_right_ne_nil _ Nat.toDigits_ne_nil
  obtain ⟨digit, more, hyear⟩ := List.exists_cons_of_ne_nil hne
  have hdigit : digit.isDigit = true := isDigit_of_mem_padded (hyear ▸ List.mem_cons_self)
  have hnone := m.newline_not_mem_text json
  unfold text at hnone ⊢
  rw [String.toList_ofList, hyear] at hnone ⊢
  exact .line .nil (Or.inl hdigit) (List.not_mem_of_not_mem_cons hnone)

end Moment

namespace Caller

theorem newline_not_mem_shortFile (c : Caller) : '\n' ∉ c.shortFile := by
  intro h
  rcases Path.mem_joinNames h with hslash | ⟨name, hname, hmem⟩
  · exact absurd hslash (by decide)
  · exact c.oneLine ((Path.mem_split (List.mem_of_mem_drop hname)).2 _ hmem)

theorem newline_not_mem_plain (c : Caller) : '\n' ∉ c.plain.toList := by
  unfold plain
  simp only [String.toList_append, String.toList_ofList]
  refine List.not_mem_append (List.not_mem_append (List.not_mem_append ?_ ?_) ?_) (by decide)
  · exact List.not_mem_append (by decide) c.newline_not_mem_shortFile
  · decide
  · exact newline_not_mem_int _

end Caller

/-- the stamps and the level of a plain line are the start of it -/
theorem begun_stamped (stamps : Stamps) (level : LogLevel) :
    Begun ((stamps.moment.map fun m => m.text false ++ " ").getD "" ++ level.bracket
      ++ (stamps.caller.map Caller.plain).getD "" ++ " ").toList := by
  have hbracket : '\n' ∉ level.bracket.toList := by cases level <;> decide
  have hplace : '\n' ∉ ((stamps.caller.map Caller.plain).getD "").toList := by
    cases stamps.caller with
    | none => decide
    | some c => exact c.newline_not_mem_plain
  have hlevel : Begun ((stamps.moment.map fun m => m.text false ++ " ").getD "" ++ level.bracket).toList := by
    cases stamps.moment with
    | none =>
      rw [Option.map_none, Option.getD_none, String.empty_append, ← List.nil_append level.bracket.toList]
      cases level <;> exact .line .nil (by decide : IsLogMark '[') (by decide)
    | some m =>
      rw [Option.map_some, Option.getD_some, String.toList_append, String.toList_append]
      exact (m.begun_text false |>.append (by decide)).append hbracket
  rw [String.toList_append, String.toList_append]
  exact (hlevel.append hplace).append (by decide)

/-! ## Plain lines -/

namespace LogValue

theorem newline_not_mem_escape (quotes : Bool) (s : List Char) : '\n' ∉ escape quotes s := by
  unfold escape
  intro h
  obtain ⟨c, -, hc⟩ := List.mem_flatMap.1 h
  revert hc
  unfold escapeChar
  refine newline_not_mem_ite (fun hquote => newline_not_mem_ite (fun _ => by decide) fun _ => ?_) fun _ => ?_
  · rw [hquote]
    decide
  · refine newline_not_mem_ite (fun hslash => ?_) fun _ => ?_
    · rw [hslash]
      decide
    · exact newline_not_mem_ite (fun _ => by decide) fun _ => newline_not_mem_quotedChar c

/-- the lines of a value stand behind a bar -/
theorem ruled_barred (parts : List (List Char)) :
    Ruled (String.join (parts.map fun l => "  | " ++ String.ofList (escape false l) ++ "\n")).toList := by
  rw [String.toList_join, List.flatMap_map]
  refine Ruled.flatMap fun l _ => ?_
  rw [String.toList_append, String.toList_append, @String.toList_ofList (escape false l)]
  have hrest : '\n' ∉ " | ".toList ++ escape false l := List.not_mem_append (by decide) (newline_not_mem_escape _ _)
  have hline : Ruled (' ' :: (" | ".toList ++ escape false l) ++ ['\n']) := Ruled.single (by decide) hrest
  exact hline

/-- a value that follows the start of a line leaves the start of a line -/
theorem begun_plain {text : List Char} {key : String} (h : Begun text) (hkey : '\n' ∉ key.toList) (v : LogValue) :
    Begun (text ++ (v.plain key).toList) := by
  have hname (tail : String) (htail : '\n' ∉ tail.toList) : '\n' ∉ (" " ++ key ++ tail).toList := by
    rw [String.toList_append, String.toList_append]
    exact List.not_mem_append (List.not_mem_append (by decide) hkey) htail
  unfold plain
  cases v with
  | number n =>
    rw [String.toList_append]
    exact h.append (List.not_mem_append (hname "=" (by decide)) (newline_not_mem_int n))
  | text s =>
    dsimp only
    split_ifs with hempty hbroken husual
    · exact h.append (hname "=\"\"" (by decide))
    · -- the line ends, the key and the value stand on lines of their own, and a blank line begins
      have hkeyLine : Ruled (' ' :: (" " ++ key ++ "=").toList ++ ['\n']) :=
        Ruled.single (by decide) (hname "=" (by decide))
      have hlines := (h.finish.append hkeyLine).append (ruled_barred (lines s.toList))
      have hblank : IsLogMark ' ' := by decide
      have hbegun := Begun.line hlines hblank (by decide : '\n' ∉ [' '])
      simp only [String.toList_append, List.append_assoc, List.cons_append] at hbegun ⊢
      exact hbegun
    · rw [String.toList_append]
      refine h.append (List.not_mem_append (hname "=" (by decide)) ?_)
      exact fun hmem => hbroken (List.contains_iff_mem.2 hmem)
    · rw [String.toList_append, String.toList_append, String.toList_ofList]
      refine h.append (List.not_mem_append (List.not_mem_append ?_ ?_) (by decide))
      · exact hname "=\"" (by decide)
      · exact newline_not_mem_escape _ _

end LogValue

/-- a message and keys that keep to one line -/
structure LogEntry.Tidy (e : LogEntry) : Prop where
  message : '\n' ∉ e.message.toList
  keys : ∀ key ∈ e.pairs.map Prod.fst, '\n' ∉ key.toList

theorem begun_pairs {text : List Char} (h : Begun text) {pairs : List (String × LogValue)}
    (hkeys : ∀ key ∈ pairs.map Prod.fst, '\n' ∉ key.toList) :
    Begun (text ++ (String.join (pairs.map fun p => p.2.plain p.1)).toList) := by
  rw [String.toList_join, List.flatMap_map]
  induction pairs generalizing text with
  | nil =>
    rw [List.flatMap_nil, List.append_nil]
    exact h
  | cons p pairs ih =>
    rw [List.flatMap_cons, ← List.append_assoc]
    refine ih ?_ fun key hkey => hkeys key (List.mem_cons_of_mem _ hkey)
    exact LogValue.begun_plain h (hkeys p.1 List.mem_cons_self) p.2

theorem LogEntry.ruled_plain {e : LogEntry} (h : e.Tidy) {name : String} (hname : '\n' ∉ name.toList)
    (stamps : Stamps) : Ruled (e.plain name stamps).toList := by
  have hstart := begun_stamped stamps e.level
  have hhead : '\n' ∉ (if name.isEmpty then e.message else if e.message.isEmpty then name
      else name ++ ": " ++ e.message).toList := by
    split_ifs
    · exact h.message
    · exact hname
    · rw [String.toList_append, String.toList_append]
      exact List.not_mem_append (List.not_mem_append hname (by decide)) h.message
  have hline := hstart.append hhead
  unfold plain
  dsimp only
  rw [String.toList_append, String.toList_append, String.toList_append]
  refine Begun.finish ?_
  by_cases hpairs : e.pairs.isEmpty
  · rw [if_pos hpairs]
    exact hline.append (by decide)
  · rw [if_neg hpairs, @String.toList_append ":", ← List.append_assoc]
    exact begun_pairs (hline.append (by decide)) h.keys

/-! ## JSON lines -/

namespace Json

theorem newline_not_mem_escapeChar (c : Char) : '\n' ∉ escapeChar c := by
  unfold escapeChar
  iterate 4 refine newline_not_mem_ite (fun _ => by decide) fun _ => ?_
  refine newline_not_mem_ite (fun _ => by decide) fun hbreak => ?_
  iterate 2 refine newline_not_mem_ite (fun _ => by decide) fun _ => ?_
  refine newline_not_mem_ite (fun _ => newline_not_mem_code (by decide) _ _) fun _ => ?_
  exact fun h => hbreak (List.mem_singleton.1 h).symm

theorem newline_not_mem_quote (s : String) : '\n' ∉ (quote s).toList := by
  unfold quote quoteChars
  rw [String.toList_ofList]
  rintro (_ | ⟨_, h⟩)
  rcases List.mem_append.1 h with h | h
  · obtain ⟨c, -, hc⟩ := List.mem_flatMap.1 h
    exact newline_not_mem_escapeChar c hc
  · exact absurd h (by decide)

theorem newline_not_mem_quoteRaw (s : RawText) : '\n' ∉ (quoteRaw s).toList := by
  unfold quoteRaw
  rw [String.toList_ofList]
  rintro (_ | ⟨_, h⟩)
  rcases List.mem_append.1 h with h | h
  · obtain ⟨letter, -, hletter⟩ := List.mem_flatMap.1 h
    cases letter with
    | char c => exact newline_not_mem_escapeChar c hletter
    | stray b => exact newline_not_mem_code (by decide) _ _ hletter
  · exact absurd h (by decide)

theorem newline_not_mem_intercalate {parts : List String} (h : ∀ p ∈ parts, '\n' ∉ p.toList) :
    '\n' ∉ (",".intercalate parts).toList := by
  induction parts with
  | nil => exact List.not_mem_nil
  | cons p parts ih =>
    have hp := h p List.mem_cons_self
    have hrest := ih fun q hq => h q (List.mem_cons_of_mem _ hq)
    cases parts with
    | nil =>
      rw [String.intercalate_singleton]
      exact hp
    | cons q parts =>
      rw [String.intercalate_cons_cons, String.toList_append, String.toList_append]
      exact List.not_mem_append (List.not_mem_append hp (by decide)) hrest

mutual

theorem newline_not_mem_compact : (j : Json) → '\n' ∉ j.compact.toList
  | null => by decide
  | bool b => by cases b <;> decide
  | num n => newline_not_mem_int n
  | str s => newline_not_mem_quote s
  | raw s => newline_not_mem_quoteRaw s
  | arr items => by
    rw [compact, String.toList_append, String.toList_append]
    refine List.not_mem_append (List.not_mem_append (by decide) ?_) (by decide)
    exact newline_not_mem_intercalate (newline_not_mem_compactItems items)
  | obj members => by
    rw [compact, String.toList_append, String.toList_append]
    refine List.not_mem_append (List.not_mem_append (by decide) ?_) (by decide)
    exact newline_not_mem_intercalate (newline_not_mem_compactMembers members)

theorem newline_not_mem_compactItems : (items : List Json) → ∀ p ∈ compactItems items, '\n' ∉ p.toList
  | [] => by
    rw [compactItems]
    exact fun p hp => absurd hp List.not_mem_nil
  | j :: rest => by
    rw [compactItems]
    rintro p (_ | ⟨_, hp⟩)
    · exact newline_not_mem_compact j
    · exact newline_not_mem_compactItems rest p hp

theorem newline_not_mem_compactMembers : (members : List (String × Json)) →
    ∀ p ∈ compactMembers members, '\n' ∉ p.toList
  | [] => by
    rw [compactMembers]
    exact fun p hp => absurd hp List.not_mem_nil
  | (k, j) :: rest => by
    rw [compactMembers]
    rintro p (_ | ⟨_, hp⟩)
    · rw [String.toList_append, String.toList_append]
      refine List.not_mem_append (List.not_mem_append (newline_not_mem_quote k) (by decide)) ?_
      exact newline_not_mem_compact j
    · exact newline_not_mem_compactMembers rest p hp

end

end Json

theorem LogEntry.ruled_json (e : LogEntry) (name : String) (stamps : Stamps) : Ruled (e.json name stamps).toList := by
  have hmembers (members : List (String × Json)) : '\n' ∉ (",".intercalate (Json.compactMembers members)).toList :=
    Json.newline_not_mem_intercalate (Json.newline_not_mem_compactMembers members)
  have hbrace : IsLogMark '\x7b' := by decide
  unfold json
  rw [String.toList_append, Json.compact, String.toList_append, String.toList_append]
  exact Ruled.single hbrace (List.not_mem_append (hmembers _) (by decide))

/-! ## Loggers -/

namespace Logger

theorem ruled_write {l : Logger} (hname : '\n' ∉ l.name.toList) {e : LogEntry} (h : e.Tidy) (now : Moment)
    (caller : Caller) : Ruled (l.write e now caller).toList := by
  unfold write
  split_ifs
  · exact .nil
  · exact e.ruled_json l.name _
  · exact LogEntry.ruled_plain h hname _

theorem tidy_unknownLevel (given : String) : (unknownLevel given).Tidy where
  message := (by decide : '\n' ∉ "Unrecognized log level, defaulting to INFO".toList)
  keys := (by decide : ∀ key ∈ ["providedLevel"], '\n' ∉ key.toList)

/-- also the warning about an unknown level consists of log lines -/
theorem ruled_make (env : String) (c : Option Config) (name : String) : Ruled (make env c name).2.toList := by
  unfold make chooseLevel
  dsimp only
  generalize (if env.isEmpty then (c.map (·.logger.level.shown)).getD "" else env) = given
  split_ifs
  · exact .nil
  · cases LogLevel.ofUpper? (upper given) with
    | some l => exact .nil
    | none => exact LogEntry.ruled_plain (tidy_unknownLevel _) (by decide) _

end Logger

/-- what is logged consists of lines of the log -/
theorem Environment.ruled_writeLog (env : Environment) {l : Logger} (hname : '\n' ∉ l.name.toList) (before : ℕ)
    {entries : List LogEntry} (h : ∀ e ∈ entries, e.Tidy) : Ruled (env.writeLog l before entries).toList := by
  unfold writeLog
  rw [String.toList_join, List.flatMap_map]
  exact Ruled.flatMap fun e he => Logger.ruled_write hname (h e.1 (List.fst_mem_of_mem_zipIdx he)) _ _

/-! ## The log of an audit -/

theorem Visit.tidy_entry? {v : Visit} {e : LogEntry} (h : v.entry? = some e) : e.Tidy := by
  cases v with
  | source path => cases h
  | unreadable path error =>
    cases h
    exact ⟨(by decide : '\n' ∉ "skipping unreadable path".toList),
      (by decide : ∀ key ∈ ["path", "error"], '\n' ∉ key.toList)⟩

namespace FileSystem

theorem Reading.tidy_entry (path : List Char) (reading : Reading) : (reading.entry path).Tidy := by
  cases reading with
  | unreadable error =>
    exact ⟨(by decide : '\n' ∉ "skipping unreadable file".toList),
      (by decide : ∀ key ∈ ["path", "error"], '\n' ∉ key.toList)⟩
  | outOfScope =>
    exact ⟨(by decide : '\n' ∉ "skipping non-mobile file".toList),
      (by decide : ∀ key ∈ ["path"], '\n' ∉ key.toList)⟩
  | audited frameworks =>
    exact ⟨(by decide : '\n' ∉ "file audited".toList),
      (by decide : ∀ key ∈ ["path", "frameworks"], '\n' ∉ key.toList)⟩

theorem tidy_auditEntries {fs : FileSystem} {target : List Char} {workers : Nat} {turns : Turns} {r : Result} :
    ∀ e ∈ fs.auditEntries target workers turns r, e.Tidy := by
  unfold auditEntries
  intro e he
  rcases List.mem_append.1 he with he | he
  · rcases List.mem_append.1 he with hvisit | hwalk
    · obtain ⟨v, -, hv⟩ := List.mem_filterMap.1 hvisit
      exact Visit.tidy_entry? hv
    · rcases List.mem_cons.1 hwalk with rfl | hfile
      · exact ⟨(by decide : '\n' ∉ "files collected".toList),
          (by decide : ∀ key ∈ ["target", "count", "jobs"], '\n' ∉ key.toList)⟩
      · -- whose turn it was makes no difference to what has been said
        obtain ⟨path, -, rfl⟩ := List.mem_map.1 ((turns.perm _ _).subset hfile)
        exact Reading.tidy_entry _ _
  · rw [List.mem_singleton.1 he]
    exact ⟨(by decide : '\n' ∉ "audit finished".toList),
      (by decide : ∀ key ∈ ["files_checked", "issues", "warnings"], '\n' ∉ key.toList)⟩

end FileSystem

theorem Environment.tidy_originEntries {env : Environment} {fs : FileSystem} {format : String} {target : List Char} :
    ∀ e ∈ env.originEntries fs format target, e.Tidy := by
  unfold originEntries
  intro e he
  split_ifs at he
  · cases he
  · split at he
    · cases he
    · cases he
    · rw [List.mem_singleton.1 he]
      exact ⟨(by decide : '\n' ∉ "no repository provenance for target".toList),
        (by decide : ∀ key ∈ ["target", "reason"], '\n' ∉ key.toList)⟩

namespace ReportJob

theorem tidy_print {job : ReportJob} {env : Environment} : ∀ e ∈ (job.print env).entries, e.Tidy := by
  unfold print
  dsimp only
  split <;> exact Environment.tidy_originEntries

theorem tidy_saveAt {job : ReportJob} {env : Environment} {fs : FileSystem} {path : List Char} :
    ∀ e ∈ (job.saveAt env fs path).entries, e.Tidy := by
  unfold saveAt
  cases hopen : fs.openTruncated path with
  | error e =>
    simp only [FileSystem.save, hopen]
    exact fun e he => absurd he List.not_mem_nil
  | ok found =>
    have horigin : ∀ e ∈ env.originEntries found.1 job.format job.target, e.Tidy := Environment.tidy_originEntries
    dsimp only
    split
    · exact horigin
    · intro e he
      rcases List.mem_append.1 he with he | he
      · exact horigin e he
      · rw [List.mem_singleton.1 he]
        exact ⟨(by decide : '\n' ∉ "report saved to file".toList),
          (by decide : ∀ key ∈ ["path", "format"], '\n' ∉ key.toList)⟩

theorem tidy_deliver (job : ReportJob) (env : Environment) (output : String) :
    ∀ e ∈ (job.deliver env output).entries, e.Tidy := by
  unfold deliver saveUnder
  split_ifs
  · exact tidy_print
  · split
    · exact fun e he => absurd he List.not_mem_nil
    · split
      · exact fun e he => absurd he List.not_mem_nil
      · exact tidy_saveAt

end ReportJob

theorem Environment.tidy_verdict (r : Result) (error : Option DeliveryError) :
    ∀ e ∈ (verdict r error).2, e.Tidy := by
  intro e he
  unfold verdict at he
  split at he
  · split at he
    · cases he
    · rw [List.mem_singleton.1 he]
      exact ⟨(by decide : '\n' ∉ "failed to write report".toList),
        (by decide : ∀ key ∈ ["error"], '\n' ∉ key.toList)⟩
  · split_ifs at he
    · rw [List.mem_singleton.1 he]
      exact ⟨(by decide : '\n' ∉ "audit command completed successfully".toList),
        fun key hkey => absurd hkey List.not_mem_nil⟩
    · rw [List.mem_singleton.1 he]
      exact ⟨(by decide : '\n' ∉ "audit finished with blocking issues".toList),
        (by decide : ∀ key ∈ ["issues"], '\n' ∉ key.toList)⟩

end AppAudit
