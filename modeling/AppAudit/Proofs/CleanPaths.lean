/-
Clean paths.

Cleaning takes names up one after the other and lets `..` take back the name before it. What is left over has every `..`
in front, and none at all below the root (`Tidy`): one step keeps this, so a whole path does. Names in this form are
cleaned to themselves, and so cleaning a second time changes nothing, adding a name to a path adds it to the clean form,
and the directory of a clean path is the path without its last name.

Main facts:
- `clean_eq`: a clean path spells names in this form;
- `names_spelled`: and these are read off it again;
- `dir_join`: a name put behind a path is in the directory that the path cleans to;
- `parts_join`, `plain_dir`: where every `..` is in front (`Forward`), the parts of a path are those of its directory and
  one more.
-/
import Mathlib.Tactic
import Mathlib.Data.List.TakeWhile
import AppAudit.Proofs.Paths

namespace AppAudit.Path

open FileSystem (parts)

/-- the names that are left of a path: some steps up, none of them from the root, and then names to go down by -/
def Tidy (rooted : Bool) (names : List Name) : Prop :=
  ∃ k below, names = List.replicate k ['.', '.'] ++ below ∧ (rooted = true → k = 0) ∧ ∀ n ∈ below, IsName n

variable {rooted : Bool} {ns done : List Name} {part name : Name} {s t : List Char}

/-! ## What a step keeps -/

theorem tidy_nil (rooted : Bool) : Tidy rooted [] := ⟨0, [], rfl, fun _ => rfl, by simp⟩

theorem tidy_cleanStep (hpart : '/' ∉ part) (h : Tidy rooted done.reverse) :
    Tidy rooted (cleanStep rooted done part).reverse := by
  obtain ⟨k, below, hdone, hrooted, hbelow⟩ := h
  have hdone' : done = below.reverse ++ List.replicate k ['.', '.'] := by
    rw [← List.reverse_reverse done, hdone, List.reverse_append, List.reverse_replicate]
  by_cases hskip : part = [] ∨ part = ['.']
  · have hstep : cleanStep rooted done part = done := by simp [cleanStep, hskip]
    rw [hstep]
    exact ⟨k, below, hdone, hrooted, hbelow⟩
  rw [not_or] at hskip
  by_cases hup : part = ['.', '.']
  · subst hup
    rcases List.eq_nil_or_concat' below with rfl | ⟨below, last, rfl⟩
    · -- only steps up so far: the root takes no more, any other path does
      cases rooted with
      | true =>
        have hk : k = 0 := hrooted rfl
        subst hk hdone'
        exact tidy_nil true
      | false =>
        have hstep : cleanStep false done ['.', '.'] = List.replicate (k + 1) ['.', '.'] := by
          subst hdone'
          cases k <;> simp [cleanStep, List.replicate_succ]
        rw [hstep, List.reverse_replicate]
        exact ⟨k + 1, [], (List.append_nil _).symm, by simp, by simp⟩
    · -- the last name is taken back
      have hlast : IsName last := hbelow last (by simp)
      have hstep : cleanStep rooted done ['.', '.'] = below.reverse ++ List.replicate k ['.', '.'] := by
        subst hdone'
        simp [cleanStep, hlast.ne_dots]
      rw [hstep, List.reverse_append, List.reverse_replicate, List.reverse_reverse]
      exact ⟨k, below, rfl, hrooted, fun n hn => hbelow n (List.mem_append_left _ hn)⟩
  · have hname : IsName part := ⟨hskip.1, hpart, hskip.2, hup⟩
    have hstep : cleanStep rooted done part = part :: done := by simp [cleanStep, hskip, hup]
    rw [hstep, List.reverse_cons, hdone, List.append_assoc]
    exact ⟨k, below ++ [part], rfl, hrooted, List.forall_mem_append.2 ⟨hbelow, by simpa using hname⟩⟩

theorem tidy_foldl {ps : List Name} (hps : ∀ p ∈ ps, '/' ∉ p) (h : Tidy rooted done.reverse) :
    Tidy rooted (ps.foldl (cleanStep rooted) done).reverse := by
  induction ps generalizing done with
  | nil => exact h
  | cons p ps ih =>
    rw [List.forall_mem_cons] at hps
    rw [List.foldl_cons]
    exact ih hps.2 (tidy_cleanStep hps.1 h)

/-- the names that are left of a path are tidy -/
theorem tidy_names (s : List Char) : Tidy (isAbs s) (Path.names s) :=
  tidy_foldl (fun _ hp => (mem_split hp).1) (tidy_nil _)

namespace Tidy

theorem ne_nil (h : Tidy rooted ns) : ∀ n ∈ ns, n ≠ [] := by
  obtain ⟨k, below, rfl, -, hbelow⟩ := h
  rw [List.forall_mem_append]
  refine ⟨fun n hn => ?_, fun n hn => (hbelow n hn).ne_nil⟩
  rw [List.eq_of_mem_replicate hn]
  simp

theorem noSlash (h : Tidy rooted ns) : ∀ n ∈ ns, '/' ∉ n := by
  obtain ⟨k, below, rfl, -, hbelow⟩ := h
  rw [List.forall_mem_append]
  refine ⟨fun n hn => ?_, fun n hn => (hbelow n hn).noSlash⟩
  rw [List.eq_of_mem_replicate hn]
  decide

/-- below the root there are only names to go down by -/
theorem isName (h : Tidy true ns) : ∀ n ∈ ns, IsName n := by
  obtain ⟨k, below, rfl, hrooted, hbelow⟩ := h
  rw [hrooted rfl]
  exact hbelow

theorem of_isName (h : ∀ n ∈ ns, IsName n) : Tidy rooted ns := ⟨0, ns, rfl, fun _ => rfl, h⟩

/-- names to go down by can be added -/
theorem append (h : Tidy rooted ns) {more : List Name} (hmore : ∀ n ∈ more, IsName n) :
    Tidy rooted (ns ++ more) := by
  obtain ⟨k, below, rfl, hrooted, hbelow⟩ := h
  exact ⟨k, below ++ more, List.append_assoc _ _ _, hrooted, List.forall_mem_append.2 ⟨hbelow, hmore⟩⟩

/-- tidy names are cleaned to themselves -/
theorem foldl_eq (h : Tidy rooted ns) : ns.foldl (cleanStep rooted) [] = ns.reverse := by
  obtain ⟨k, below, rfl, hrooted, hbelow⟩ := h
  have hdots : ['.', '.'] ∉ below := fun hm => (hbelow _ hm).ne_dots rfl
  have hup : (List.replicate k ['.', '.']).foldl (cleanStep rooted) [] = List.replicate k ['.', '.'] := by
    clear hbelow hdots
    induction k with
    | zero => rfl
    | succ k ih =>
      have hnot : rooted = false := by
        cases rooted with
        | false => rfl
        | true => exact absurd (hrooted rfl) (Nat.succ_ne_zero k)
      rw [List.replicate_succ', List.foldl_append, ih (by simp [hnot]), List.foldl_cons, List.foldl_nil,
        ← List.replicate_succ', List.replicate_succ]
      cases k <;> simp [cleanStep, hnot, List.replicate_succ]
  have hkeep : below.filter (fun p => !p.isEmpty && p ≠ ['.']) = below := by
    rw [List.filter_eq_self]
    intro n hn
    simp [(hbelow n hn).ne_nil, (hbelow n hn).ne_dot]
  rw [List.foldl_append, hup, foldl_cleanStep _ _ hdots, hkeep, List.reverse_append, List.reverse_replicate]

end Tidy

/-! ## Spelling -/

theorem split_joinNames (h : ∀ n ∈ ns, '/' ∉ n) (hne : ns ≠ []) : split (joinNames ns) = ns := by
  induction ns with
  | nil => exact absurd rfl hne
  | cons name ns ih =>
    rw [List.forall_mem_cons] at h
    by_cases hn : ns = []
    · subst hn
      exact split_of_noSlash h.1
    · rw [joinNames_cons hn, split_append_slash, split_of_noSlash h.1, ih h.2 hn, List.singleton_append]

/-- what is left out of cleaning makes no difference to it -/
theorem foldl_cleanStep_filter {keep : Name → Bool} (h : ∀ n, keep n = false → n = [] ∨ n = ['.']) (rooted : Bool)
    (ps done : List Name) : (ps.filter keep).foldl (cleanStep rooted) done = ps.foldl (cleanStep rooted) done := by
  induction ps generalizing done with
  | nil => rfl
  | cons p ps ih =>
    rw [List.filter_cons, List.foldl_cons]
    split_ifs with hp
    · rw [List.foldl_cons, ih]
    · have hskip : cleanStep rooted done p = done := by
        rcases h p (Bool.eq_false_iff.2 hp) with rfl | rfl <;> rfl
      rw [hskip, ih]

theorem names_eq (s : List Char) : Path.names s = ((parts s).foldl (cleanStep (isAbs s)) []).reverse := by
  have hskip : ∀ n : Name, (!n.isEmpty) = false → n = [] ∨ n = ['.'] := fun n hn => Or.inl (by simpa using hn)
  rw [Path.names, parts, foldl_cleanStep_filter hskip]

theorem clean_eq (s : List Char) : clean s = spelled (isAbs s) (Path.names s) := by
  have hempty : (joinNames (Path.names s)).isEmpty = true ↔ Path.names s = [] := by
    rw [List.isEmpty_iff, joinNames_eq_nil (tidy_names s).ne_nil]
  simp only [clean, spelled]
  split_ifs <;> simp_all

theorem isAbs_spelled_of_tidy (h : Tidy rooted ns) : isAbs (spelled rooted ns) = rooted := by
  cases rooted with
  | true => rfl
  | false =>
    rcases ns with _ | ⟨name, ns⟩
    · rfl
    · have hname := h.noSlash name List.mem_cons_self
      obtain ⟨c, more, rfl⟩ := List.exists_cons_of_ne_nil (h.ne_nil name List.mem_cons_self)
      have hc : c ≠ '/' := fun he => hname (he ▸ List.mem_cons_self)
      cases ns <;> simp [spelled, joinNames, isAbs, hc]

theorem parts_spelled_of_tidy (h : Tidy rooted ns) (hne : rooted = true ∨ ns ≠ []) :
    parts (spelled rooted ns) = ns := by
  have hkeep : ns.filter (fun p => !p.isEmpty) = ns := by
    rw [List.filter_eq_self]
    intro n hn
    simpa using h.ne_nil n hn
  have hjoined : parts (joinNames ns) = ns := by
    by_cases hn : ns = []
    · rw [hn]; rfl
    · rw [parts, split_joinNames h.noSlash hn, hkeep]
  cases rooted with
  | true =>
    have hroot := parts_append_slash [] (joinNames ns)
    rw [List.nil_append, hjoined] at hroot
    exact hroot
  | false =>
    have hn : ns ≠ [] := hne.resolve_left (by decide)
    rw [spelled, if_neg (by decide), if_neg hn, hjoined]

/-- **Tidy names are read off again.** -/
theorem names_spelled (h : Tidy rooted ns) : Path.names (spelled rooted ns) = ns := by
  by_cases hne : rooted = true ∨ ns ≠ []
  · rw [names_eq, isAbs_spelled_of_tidy h, parts_spelled_of_tidy h hne, h.foldl_eq, List.reverse_reverse]
  · simp only [not_or, Bool.not_eq_true, not_not] at hne
    rw [hne.1, hne.2]
    rfl

theorem clean_spelled (h : Tidy rooted ns) : clean (spelled rooted ns) = spelled rooted ns := by
  rw [clean_eq, isAbs_spelled_of_tidy h, names_spelled h]

/-- **Cleaning twice is cleaning once.** -/
theorem clean_clean (s : List Char) : clean (clean s) = clean s := by
  rw [clean_eq s]
  exact clean_spelled (tidy_names s)

/-- an absolute path is cleaned to names below the root -/
theorem clean_of_isAbs (h : isAbs s = true) : ∃ ns, (∀ n ∈ ns, IsName n) ∧ clean s = spelled true ns := by
  have htidy := tidy_names s
  rw [h] at htidy
  exact ⟨Path.names s, htidy.isName, by rw [clean_eq, h]⟩

/-! ## Directories -/

theorem clean_append_slash (hs : s ≠ []) : clean (s ++ ['/']) = clean s := by
  have hparts : parts (s ++ ['/']) = parts s := by
    have h := parts_append_slash s []
    rw [h, show parts [] = [] from rfl, List.append_nil]
  rw [clean_eq, clean_eq s, names_eq, names_eq s, hparts, isAbs_append hs]

theorem upToSlash_of_noSlash (h : '/' ∉ s) : upToSlash s = [] := by
  have hdrop : s.reverse.dropWhile (· ≠ '/') = [] := by
    apply List.dropWhile_eq_nil_iff.2
    intro c hc
    have hne : c ≠ '/' := fun he => h (he ▸ List.mem_reverse.1 hc)
    simpa using hne
  rw [upToSlash, hdrop, List.reverse_nil]

theorem upToSlash_append_slash (a : List Char) (h : '/' ∉ name) : upToSlash (a ++ '/' :: name) = a ++ ['/'] := by
  have hreverse : (a ++ '/' :: name).reverse = name.reverse ++ '/' :: a.reverse := by simp
  have hdrop : (name.reverse ++ '/' :: a.reverse).dropWhile (· ≠ '/') = '/' :: a.reverse := by
    rw [List.dropWhile_append_of_pos]
    · rw [List.dropWhile_cons_of_neg (by simp)]
    · intro c hc
      have hne : c ≠ '/' := fun he => h (he ▸ List.mem_reverse.1 hc)
      simpa using hne
  rw [upToSlash, hreverse, hdrop, List.reverse_cons, List.reverse_reverse]

/-- the directory of a spelled path is spelled by the names before the last one -/
theorem dir_spelled (h : Tidy rooted ns) (hname : '/' ∉ name) :
    dir (spelled rooted (ns ++ [name])) = spelled rooted ns := by
  have hne : ns ++ [name] ≠ [] := by simp
  by_cases hn : ns = []
  · subst hn
    cases rooted with
    | true =>
      have hup := upToSlash_append_slash [] hname
      rw [List.nil_append] at hup
      rw [spelled, if_pos rfl, List.nil_append, dir, joinNames, hup]
      rfl
    | false =>
      rw [spelled, if_neg (by decide), if_neg hne, List.nil_append, dir, joinNames, upToSlash_of_noSlash hname]
      rfl
  · have hspelled : spelled rooted ns ≠ [] := by
      cases rooted with
      | true => simp [spelled]
      | false => simpa [spelled, hn] using (joinNames_eq_nil h.ne_nil).not.2 hn
    have hshape : spelled rooted (ns ++ [name]) = spelled rooted ns ++ '/' :: name := by
      cases rooted with
      | true => simp only [spelled, if_true, joinNames_append_singleton hn, List.cons_append]
      | false => simp only [spelled, Bool.false_eq_true, if_false, if_neg hne, if_neg hn, joinNames_append_singleton hn]
    rw [dir, hshape, upToSlash_append_slash _ hname, clean_append_slash hspelled, clean_spelled h]

theorem dir_root : dir ['/'] = ['/'] := by decide

/-- one more part that is a name is one more name -/
theorem names_of_parts (h : IsName name) (habs : isAbs t = isAbs s) (hparts : parts t = parts s ++ [name]) :
    Path.names t = Path.names s ++ [name] := by
  have hstep (done : List Name) : cleanStep (isAbs s) done name = name :: done := by
    simp [cleanStep, h.ne_nil, h.ne_dot, h.ne_dots]
  rw [names_eq, names_eq s, habs, hparts, List.foldl_append, List.foldl_cons, List.foldl_nil, hstep,
    List.reverse_cons]

/-- a name put behind a path -/
theorem join_name (s : List Char) (h : IsName name) : join [s, name] = spelled (isAbs s) (Path.names s ++ [name]) := by
  have hname : name.isEmpty = false := by simpa using h.ne_nil
  by_cases hs : s = []
  · subst hs
    have hrel : isAbs name = false := by
      have hall : ∀ n ∈ [name], IsName n := by simpa using h
      exact isAbs_joinNames hall
    have hjoin : join [[], name] = clean name := by simp [join, hname, joinNames]
    rw [hjoin, clean_eq, hrel, names_of_parts h (s := []) hrel (parts_of_isName h)]
    rfl
  · have hsome : s.isEmpty = false := by simpa using hs
    have hjoin : join [s, name] = clean (s ++ '/' :: name) := by simp [join, hname, hsome, joinNames]
    have hparts : parts (s ++ '/' :: name) = parts s ++ [name] := by rw [parts_append_slash, parts_of_isName h]
    rw [hjoin, clean_eq, isAbs_append hs, names_of_parts h (isAbs_append hs _) hparts]

/-- **A name put behind a path is in the directory that the path cleans to.** -/
theorem dir_join (s : List Char) (h : IsName name) : dir (join [s, name]) = clean s := by
  rw [join_name s h, dir_spelled (tidy_names s) h.noSlash, clean_eq]

/-- the directory of a path is clean -/
theorem clean_dir (s : List Char) : clean (dir s) = dir s := clean_clean _

/-! ## The last part -/

theorem upToSlash_append_lastPart (s : List Char) : upToSlash s ++ lastPart s = s := by
  rw [upToSlash, lastPart, ← List.reverse_append, List.takeWhile_append_dropWhile, List.reverse_reverse]

theorem noSlash_lastPart (s : List Char) : '/' ∉ lastPart s := by
  intro hm
  rw [lastPart, List.mem_reverse] at hm
  simpa using List.mem_takeWhile_imp hm

theorem upToSlash_cases (s : List Char) : upToSlash s = [] ∨ ∃ a, upToSlash s = a ++ ['/'] := by
  unfold upToSlash
  cases hrest : s.reverse.dropWhile (· ≠ '/') with
  | nil => exact Or.inl rfl
  | cons c rest =>
    have hc := List.head?_dropWhile_not (· ≠ '/') s.reverse
    rw [hrest] at hc
    have hslash : c = '/' := by simpa using hc
    exact Or.inr ⟨rest.reverse, by rw [hslash, List.reverse_cons]⟩

/-- the last part is one more part, unless the path ends in a slash -/
theorem parts_of_lastPart (h : lastPart s ≠ []) : parts s = parts (upToSlash s) ++ [lastPart s] := by
  have hlast : parts (lastPart s) = [lastPart s] := by simp [parts, split_of_noSlash (noSlash_lastPart s), h]
  have hsplit := upToSlash_append_lastPart s
  rcases upToSlash_cases s with hnone | ⟨a, ha⟩
  · rw [hnone, List.nil_append] at hsplit
    rw [hnone, ← hlast, hsplit]
    rfl
  · rw [ha, List.append_assoc, List.singleton_append] at hsplit
    calc parts s = parts (a ++ '/' :: lastPart s) := by rw [hsplit]
      _ = parts a ++ parts (lastPart s) := parts_append_slash _ _
      _ = parts (upToSlash s) ++ [lastPart s] := by
        rw [hlast, ha, parts_append_slash, show parts [] = [] from rfl, List.append_nil]

theorem isAbs_upToSlash (s : List Char) : isAbs (upToSlash s) = isAbs s := by
  have hsplit := upToSlash_append_lastPart s
  rcases upToSlash_cases s with hnone | ⟨a, ha⟩
  · rw [hnone, List.nil_append] at hsplit
    rw [hnone, ← hsplit]
    cases hlast : lastPart s with
    | nil => rfl
    | cons c rest =>
      have hc : c ≠ '/' := by
        rintro rfl
        exact noSlash_lastPart s (hlast ▸ List.mem_cons_self)
      simp [isAbs, hc]
  · conv_rhs => rw [← hsplit]
    exact (isAbs_append (by simp [ha]) _).symm

/-! ## Steps up in front -/

/-- every `..` is in front, and below the root there is none: all that cleaning takes away are dots -/
def Forward (s : List Char) : Prop := Tidy (isAbs s) (plain s)

theorem Tidy.of_append {a b : List Name} (h : Tidy rooted (a ++ b)) : Tidy rooted a := by
  obtain ⟨k, below, hnames, hrooted, hbelow⟩ := h
  rcases List.append_eq_append_iff.1 hnames with ⟨ups, hups, -⟩ | ⟨more, rfl, hmore⟩
  · have ha : a = List.replicate a.length ['.', '.'] := by
      rw [List.eq_replicate_iff]
      refine ⟨rfl, fun n hn => ?_⟩
      exact List.eq_of_mem_replicate (hups ▸ List.mem_append_left _ hn)
    refine ⟨a.length, [], by rw [← ha, List.append_nil], fun hr => ?_, by simp⟩
    have hlength := congrArg List.length hups
    rw [List.length_replicate, hrooted hr, List.length_append] at hlength
    omega
  · exact ⟨k, more, rfl, hrooted, fun n hn => hbelow n (hmore ▸ List.mem_append_left _ hn)⟩

/-- behind nothing but steps up there is only another one -/
theorem Tidy.eq_dots {a : List Name} (h : Tidy rooted (a ++ [['.', '.']])) : ∀ n ∈ a, n = ['.', '.'] := by
  obtain ⟨k, below, hnames, -, hbelow⟩ := h
  rcases List.eq_nil_or_concat' below with rfl | ⟨below, last, rfl⟩
  · intro n hn
    rw [List.append_nil] at hnames
    exact List.eq_of_mem_replicate (hnames ▸ List.mem_append_left _ hn)
  · rw [← List.append_assoc] at hnames
    have hlast : ['.', '.'] = last := List.singleton_inj.1 (List.append_inj' hnames rfl).2
    exact absurd hlast.symm (hbelow last (by simp)).ne_dots

theorem forward_of_noDots (h : ['.', '.'] ∉ parts s) : Forward s := .of_isName fun _ => isName_of_mem_plain h

theorem plain_spelled_of_tidy (h : Tidy rooted ns) : plain (spelled rooted ns) = ns := by
  by_cases hne : rooted = true ∨ ns ≠ []
  · rw [plain, parts_spelled_of_tidy h hne, List.filter_eq_self]
    obtain ⟨k, below, rfl, -, hbelow⟩ := h
    rw [List.forall_mem_append]
    refine ⟨fun n hn => ?_, fun n hn => by simpa using (hbelow n hn).ne_dot⟩
    rw [List.eq_of_mem_replicate hn]
    decide
  · simp only [not_or, Bool.not_eq_true, not_not] at hne
    rw [hne.1, hne.2]
    rfl

theorem forward_spelled (h : Tidy rooted ns) : Forward (spelled rooted ns) := by
  rw [Forward, isAbs_spelled_of_tidy h, plain_spelled_of_tidy h]
  exact h

theorem forward_clean (s : List Char) : Forward (clean s) := by
  rw [clean_eq]
  exact forward_spelled (tidy_names s)

theorem Forward.names_eq (h : Forward s) : Path.names s = plain s := by
  have hskip : ∀ n : Name, decide (n ≠ ['.']) = false → n = [] ∨ n = ['.'] := fun n hn => Or.inr (by simpa using hn)
  rw [Path.names_eq, ← foldl_cleanStep_filter hskip]
  exact (congrArg List.reverse (Tidy.foldl_eq h)).trans (List.reverse_reverse _)

theorem plain_eq_append (hparts : parts s = parts t ++ [part]) :
    plain s = plain t ++ [part].filter fun n => n ≠ ['.'] := by
  rw [plain, hparts, List.filter_append, plain]

/-- without its last part a path still has every step up in front -/
theorem Forward.above (h : Forward s) (habs : isAbs t = isAbs s) (hparts : parts s = parts t ++ [part]) : Forward t := by
  rw [Forward, plain_eq_append hparts, ← habs] at h
  exact h.of_append

/-- the directory of a path has the names before its last part -/
theorem plain_dir (h : Forward s) (hlast : lastPart s ≠ []) :
    plain (dir s) = plain (upToSlash s) ∧ isAbs (dir s) = isAbs s := by
  have hup : Forward (upToSlash s) := h.above (isAbs_upToSlash s) (parts_of_lastPart hlast)
  rw [dir, clean_eq, plain_spelled_of_tidy (tidy_names _), isAbs_spelled_of_tidy (tidy_names _), hup.names_eq,
    isAbs_upToSlash]
  exact ⟨rfl, rfl⟩

/-- the parts of a path with a name put behind it -/
theorem parts_join (h : Forward s) (hname : IsName name) :
    parts (join [s, name]) = plain s ++ [name] ∧ isAbs (join [s, name]) = isAbs s := by
  have htidy : Tidy (isAbs s) (Path.names s ++ [name]) := (tidy_names s).append (by simpa using hname)
  rw [join_name s hname, parts_spelled_of_tidy htidy (Or.inr (by simp)), isAbs_spelled_of_tidy htidy, h.names_eq]
  exact ⟨rfl, rfl⟩

end AppAudit.Path
