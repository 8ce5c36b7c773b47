/-
Paths and the names they are made of.

A path without `..` is cleaned by leaving out its empty parts and its dots, and what remains is spelled in one way
(`spelled`). Joining such a path with names spells the same with the names behind it (`join_cons`), so a path below a
starting path is as good as the list of names that leads there: the names can be read off it again, whichever way the
start was written.
-/
import Mathlib.Tactic
import AppAudit.Files.System

namespace AppAudit.Path

open FileSystem (parts)

/-! ## Splitting -/

theorem split_ne_nil (s : List Char) : split s ≠ [] := by
  cases s with
  | nil => simp [split]
  | cons c s =>
    unfold split
    split
    · simp
    · split_ifs <;> simp

theorem split_cons_of_ne {c : Char} (hc : c ≠ '/') (s : List Char) :
    ∃ part more, split s = part :: more ∧ split (c :: s) = (c :: part) :: more := by
  obtain ⟨part, more, h⟩ := List.exists_cons_of_ne_nil (split_ne_nil s)
  refine ⟨part, more, h, ?_⟩
  rw [split, h]
  simp [hc]

/-- a slash separates what is before it from what is behind it -/
theorem split_append_slash (a b : List Char) : split (a ++ '/' :: b) = split a ++ split b := by
  induction a with
  | nil => rw [List.nil_append, split_cons_slash]; rfl
  | cons c a ih =>
    by_cases hc : c = '/'
    · rw [hc, List.cons_append, split_cons_slash, split_cons_slash, ih, List.cons_append]
    · obtain ⟨part, more, hs, hcs⟩ := split_cons_of_ne hc a
      obtain ⟨part', more', hs', hcs'⟩ := split_cons_of_ne hc (a ++ '/' :: b)
      rw [ih, hs, List.cons_append] at hs'
      injection hs' with hp hm
      rw [List.cons_append, hcs', hcs, ← hp, ← hm, List.cons_append]

theorem split_of_noSlash {s : List Char} (h : '/' ∉ s) : split s = [s] := by
  induction s with
  | nil => rfl
  | cons c s ih =>
    rw [List.mem_cons, not_or] at h
    obtain ⟨part, more, hs, hcs⟩ := split_cons_of_ne (Ne.symm h.1) s
    rw [ih h.2] at hs
    injection hs with hp hm
    rw [hcs, ← hp, ← hm]

/-- parts have no slash and are made of the characters of the path -/
theorem mem_split {s part : List Char} (h : part ∈ split s) : '/' ∉ part ∧ ∀ c ∈ part, c ∈ s := by
  induction s generalizing part with
  | nil =>
    rw [split, List.mem_singleton] at h
    subst h
    simp
  | cons c s ih =>
    by_cases hc : c = '/'
    · rw [hc, split_cons_slash] at h
      rcases List.mem_cons.1 h with rfl | h
      · simp
      · exact ⟨(ih h).1, fun d hd => List.mem_cons_of_mem _ ((ih h).2 d hd)⟩
    · obtain ⟨first, more, hs, hcs⟩ := split_cons_of_ne hc s
      rw [hcs] at h
      rcases List.mem_cons.1 h with rfl | h
      · obtain ⟨h1, h2⟩ := ih (hs ▸ List.mem_cons_self : first ∈ split s)
        refine ⟨by simp [Ne.symm hc, h1], fun d hd => ?_⟩
        rcases List.mem_cons.1 hd with rfl | hd
        · exact List.mem_cons_self
        · exact List.mem_cons_of_mem _ (h2 d hd)
      · obtain ⟨h1, h2⟩ := ih (hs ▸ List.mem_cons_of_mem _ h : part ∈ split s)
        exact ⟨h1, fun d hd => List.mem_cons_of_mem _ (h2 d hd)⟩

/-! ## Names -/

/-- a name as it can stand between slashes, other than the two that mean the directory itself and the one above -/
structure IsName (name : Name) : Prop where
  ne_nil : name ≠ []
  noSlash : '/' ∉ name
  ne_dot : name ≠ ['.']
  ne_dots : name ≠ ['.', '.']

theorem mem_parts {s name : List Char} (h : name ∈ parts s) : name ≠ [] ∧ '/' ∉ name ∧ ∀ c ∈ name, c ∈ s := by
  obtain ⟨hm, hne⟩ := List.mem_filter.1 h
  exact ⟨by simpa using hne, mem_split hm⟩

theorem parts_append_slash (a b : List Char) : parts (a ++ '/' :: b) = parts a ++ parts b := by
  simp only [parts, split_append_slash, List.filter_append]

theorem parts_of_isName {name : Name} (h : IsName name) : parts name = [name] := by
  simp [parts, split_of_noSlash h.noSlash, h.ne_nil]

theorem joinNames_cons {names : List Name} (h : names ≠ []) (name : Name) :
    joinNames (name :: names) = name ++ '/' :: joinNames names := by
  cases names with
  | nil => exact absurd rfl h
  | cons next names => rfl

theorem joinNames_append_singleton {names : List Name} (h : names ≠ []) (name : Name) :
    joinNames (names ++ [name]) = joinNames names ++ '/' :: name := by
  induction names with
  | nil => exact absurd rfl h
  | cons first names ih =>
    by_cases hn : names = []
    · rw [hn]; rfl
    · rw [List.cons_append, joinNames_cons (by simp), joinNames_cons hn, ih hn, List.append_assoc, List.cons_append]

theorem parts_joinNames {names : List Name} (h : ∀ n ∈ names, IsName n) : parts (joinNames names) = names := by
  induction names with
  | nil => rfl
  | cons name names ih =>
    have hname := h name List.mem_cons_self
    by_cases hn : names = []
    · subst hn
      exact parts_of_isName hname
    · rw [joinNames_cons hn, parts_append_slash, parts_of_isName hname,
        ih (fun n hm => h n (List.mem_cons_of_mem _ hm)), List.singleton_append]

theorem joinNames_eq_nil {names : List Name} (h : ∀ n ∈ names, n ≠ []) : joinNames names = [] ↔ names = [] := by
  cases names with
  | nil => simp [joinNames]
  | cons name names =>
    have hname := h name List.mem_cons_self
    by_cases hn : names = []
    · subst hn; simp [joinNames, hname]
    · simp [joinNames_cons hn]

theorem mem_joinNames {names : List Name} {c : Char} (h : c ∈ joinNames names) : c = '/' ∨ ∃ n ∈ names, c ∈ n := by
  induction names with
  | nil => simp [joinNames] at h
  | cons name names ih =>
    by_cases hn : names = []
    · subst hn
      exact Or.inr ⟨name, List.mem_cons_self, h⟩
    · rw [joinNames_cons hn, List.mem_append, List.mem_cons] at h
      rcases h with h | h | h
      · exact Or.inr ⟨name, List.mem_cons_self, h⟩
      · exact Or.inl h
      · rcases ih h with h | ⟨n, hm, hc⟩
        · exact Or.inl h
        · exact Or.inr ⟨n, List.mem_cons_of_mem _ hm, hc⟩

/-! ## Cleaning a path without `..` -/

/-- the names of a path as written, dots left out -/
def plain (s : List Char) : List Name := (parts s).filter fun n => n ≠ ['.']

/-- the way to spell a list of names -/
def spelled (rooted : Bool) (names : List Name) : List Char :=
  if rooted then '/' :: joinNames names else if names = [] then ['.'] else joinNames names

theorem isName_of_mem_plain {s : List Char} (hdots : ['.', '.'] ∉ parts s) {name : Name} (h : name ∈ plain s) :
    IsName name := by
  obtain ⟨hm, hd⟩ := List.mem_filter.1 h
  obtain ⟨h1, h2, -⟩ := mem_parts hm
  exact ⟨h1, h2, by simpa using hd, fun he => hdots (he ▸ hm)⟩

theorem isName_of_mem_plain_append {s : List Char} (hdots : ['.', '.'] ∉ parts s) {below : List Name}
    (h : ∀ n ∈ below, IsName n) : ∀ n ∈ plain s ++ below, IsName n :=
  List.forall_mem_append.2 ⟨fun _ hn => isName_of_mem_plain hdots hn, h⟩

theorem foldl_cleanStep {ps : List (List Char)} (rooted : Bool) (done : List (List Char))
    (h : ['.', '.'] ∉ ps) :
    ps.foldl (cleanStep rooted) done = (ps.filter fun p => !p.isEmpty && p ≠ ['.']).reverse ++ done := by
  induction ps generalizing done with
  | nil => rfl
  | cons p ps ih =>
    rw [List.mem_cons, not_or] at h
    rw [List.foldl_cons, ih _ h.2]
    by_cases hp : p = [] ∨ p = ['.']
    · have hstep : cleanStep rooted done p = done := by simp [cleanStep, hp]
      have hdrop : (!p.isEmpty && decide (p ≠ ['.'])) = false := by rcases hp with rfl | rfl <;> rfl
      rw [hstep, List.filter_cons, hdrop]
      rfl
    · rw [not_or] at hp
      have hstep : cleanStep rooted done p = p :: done := by simp [cleanStep, hp, Ne.symm h.1]
      have hkeep : (!p.isEmpty && decide (p ≠ ['.'])) = true := by simp [hp]
      rw [hstep, List.filter_cons, hkeep]
      simp

theorem names_eq_plain {s : List Char} (h : ['.', '.'] ∉ parts s) : names s = plain s := by
  have hs : ['.', '.'] ∉ split s := fun hm => h (List.mem_filter.2 ⟨hm, rfl⟩)
  rw [names, foldl_cleanStep _ _ hs, List.append_nil, List.reverse_reverse, plain, parts, List.filter_filter]
  congr 1
  funext p
  exact Bool.and_comm _ _

theorem clean_eq_spelled {s : List Char} (h : ['.', '.'] ∉ parts s) : clean s = spelled (isAbs s) (plain s) := by
  have hempty : (joinNames (plain s)).isEmpty = true ↔ plain s = [] := by
    rw [List.isEmpty_iff, joinNames_eq_nil fun n hn => (isName_of_mem_plain h hn).ne_nil]
  simp only [clean, spelled, names_eq_plain h]
  split_ifs <;> simp_all

/-! ## Spelled paths -/

theorem isAbs_append {s : List Char} (hs : s ≠ []) (t : List Char) : isAbs (s ++ t) = isAbs s := by
  cases s with
  | nil => exact absurd rfl hs
  | cons c s => rfl

theorem isAbs_joinNames {names : List Name} (h : ∀ n ∈ names, IsName n) : isAbs (joinNames names) = false := by
  cases names with
  | nil => rfl
  | cons name names =>
    have hname := h name List.mem_cons_self
    obtain ⟨c, r, rfl⟩ := List.exists_cons_of_ne_nil hname.ne_nil
    have hc : c ≠ '/' := fun he => hname.noSlash (he ▸ List.mem_cons_self)
    by_cases hn : names = []
    · subst hn; simp [joinNames, isAbs, hc]
    · simp [joinNames_cons hn, isAbs, hc]

section

variable {rooted : Bool} {names : List Name} (h : ∀ n ∈ names, IsName n)

include h

theorem isAbs_spelled : isAbs (spelled rooted names) = rooted := by
  unfold spelled
  cases rooted with
  | true => rfl
  | false =>
    by_cases hn : names = []
    · simp [hn, isAbs]
    · simp [hn, isAbs_joinNames h]

theorem spelled_ne_nil : spelled rooted names ≠ [] := by
  unfold spelled
  split_ifs with hr hn
  · simp
  · simp
  · rwa [Ne, joinNames_eq_nil fun n hm => (h n hm).ne_nil]

theorem parts_spelled (hne : rooted = true ∨ names ≠ []) : parts (spelled rooted names) = names := by
  unfold spelled
  split_ifs with hr hn
  · have := parts_append_slash [] (joinNames names)
    rw [List.nil_append] at this
    rw [this, parts_joinNames h]
    rfl
  · rcases hne with hne | hne
    · exact absurd hne hr
    · exact absurd hn hne
  · exact parts_joinNames h

/-- the names can be read off again -/
theorem plain_spelled : plain (spelled rooted names) = names := by
  by_cases hne : rooted = true ∨ names ≠ []
  · rw [plain, parts_spelled h hne, List.filter_eq_self]
    intro n hn
    simpa using (h n hn).ne_dot
  · simp only [not_or, Bool.not_eq_true, not_not] at hne
    rw [hne.1, hne.2]
    rfl

theorem dots_notMem_spelled : ['.', '.'] ∉ parts (spelled rooted names) := by
  by_cases hne : rooted = true ∨ names ≠ []
  · rw [parts_spelled h hne]
    exact fun hm => (h _ hm).ne_dots rfl
  · simp only [not_or, Bool.not_eq_true, not_not] at hne
    rw [hne.1, hne.2]
    decide

end

theorem mem_spelled {rooted : Bool} {names : List Name} {c : Char} (hc : c ∈ spelled rooted names) :
    c = '/' ∨ c = '.' ∨ ∃ n ∈ names, c ∈ n := by
  unfold spelled at hc
  split_ifs at hc
  · rcases List.mem_cons.1 hc with hc | hc
    · exact Or.inl hc
    · exact (mem_joinNames hc).imp_right Or.inr
  · exact Or.inr (Or.inl (List.mem_singleton.1 hc))
  · exact (mem_joinNames hc).imp_right Or.inr

theorem joinNames_prefix (a b : List Name) : joinNames a <+: joinNames (a ++ b) := by
  induction a with
  | nil => exact List.nil_prefix
  | cons name a ih =>
    by_cases ha : a = []
    · subst ha
      by_cases hb : b = []
      · rw [hb, List.append_nil]
      · rw [List.singleton_append, joinNames_cons hb]
        exact List.prefix_append _ _
    · rw [List.cons_append, joinNames_cons ha, joinNames_cons (by simp [ha])]
      exact (List.prefix_append_right_inj _).2 (List.cons_prefix_cons.2 ⟨rfl, ih⟩)

/-- more names make a longer path -/
theorem spelled_prefix (rooted : Bool) {a : List Name} (ha : a ≠ []) (b : List Name) :
    spelled rooted a <+: spelled rooted (a ++ b) := by
  have hab : a ++ b ≠ [] := by simp [ha]
  cases rooted with
  | true => exact List.cons_prefix_cons.2 ⟨rfl, joinNames_prefix a b⟩
  | false =>
    simp only [spelled, Bool.false_eq_true, if_false, if_neg ha, if_neg hab]
    exact joinNames_prefix a b

theorem spelled_injective {rooted : Bool} {a b : List Name} (ha : ∀ n ∈ a, IsName n) (hb : ∀ n ∈ b, IsName n)
    (h : spelled rooted a = spelled rooted b) : a = b := by
  rw [← @plain_spelled rooted a ha, h, plain_spelled hb]

/-! ## Joining -/

/-- **Joining spells.** A path without `..` joined with names is spelled by its own names and these. -/
theorem join_cons {root : List Char} (hroot : root ≠ []) (hdots : ['.', '.'] ∉ parts root) {below : List Name}
    (h : ∀ n ∈ below, IsName n) : join (root :: below) = spelled (isAbs root) (plain root ++ below) := by
  have hkeep : (root :: below).filter (fun p => !p.isEmpty) = root :: below := by
    rw [List.filter_eq_self]
    intro p hp
    rcases List.mem_cons.1 hp with rfl | hp
    · simpa using hroot
    · simpa using (h p hp).ne_nil
  have hparts : parts (joinNames (root :: below)) = parts root ++ below := by
    by_cases hb : below = []
    · rw [hb, List.append_nil]; rfl
    · rw [joinNames_cons hb, parts_append_slash, parts_joinNames h]
  have habs : isAbs (joinNames (root :: below)) = isAbs root := by
    by_cases hb : below = []
    · rw [hb]; rfl
    · rw [joinNames_cons hb, isAbs_append hroot]
  have hdots' : ['.', '.'] ∉ parts (joinNames (root :: below)) := by
    rw [hparts, List.mem_append, not_or]
    exact ⟨hdots, fun hm => (h _ hm).ne_dots rfl⟩
  have hplain : plain (joinNames (root :: below)) = plain root ++ below := by
    rw [plain, hparts, List.filter_append, plain]
    congr 1
    rw [List.filter_eq_self]
    intro n hn
    simpa using (h n hn).ne_dot
  have hjoin : join (root :: below) = clean (joinNames (root :: below)) := by rw [join, hkeep]
  rw [hjoin, clean_eq_spelled hdots', habs, hplain]

theorem join_spelled {rooted : Bool} {names below : List Name} (h : ∀ n ∈ names, IsName n)
    (hbelow : ∀ n ∈ below, IsName n) : join (spelled rooted names :: below) = spelled rooted (names ++ below) := by
  rw [join_cons (spelled_ne_nil h) (dots_notMem_spelled h) hbelow, isAbs_spelled h, plain_spelled h]

/-! ## The last name -/

theorem takeWhile_reverse_append {name : Name} (h : '/' ∉ name) (l : List Char) :
    (name.reverse ++ l).takeWhile (· ≠ '/') = name.reverse ++ l.takeWhile (· ≠ '/') := by
  apply List.takeWhile_append_of_pos
  intro c hc
  rw [List.mem_reverse] at hc
  simpa using fun he : c = '/' => h (he ▸ hc)

theorem lastPart_append_slash (a : List Char) {name : Name} (h : '/' ∉ name) : lastPart (a ++ '/' :: name) = name := by
  rw [lastPart, List.reverse_append, List.reverse_cons, List.append_assoc, takeWhile_reverse_append h]
  simp

theorem lastPart_of_noSlash {name : Name} (h : '/' ∉ name) : lastPart name = name := by
  have := takeWhile_reverse_append h []
  rw [List.append_nil, List.takeWhile_nil, List.append_nil] at this
  rw [lastPart, this, List.reverse_reverse]

theorem lastPart_spelled (rooted : Bool) (names : List Name) {name : Name} (h : '/' ∉ name) :
    lastPart (spelled rooted (names ++ [name])) = name := by
  have hne : names ++ [name] ≠ [] := by simp
  by_cases hn : names = []
  · subst hn
    cases rooted with
    | true => exact lastPart_append_slash [] h
    | false => exact lastPart_of_noSlash h
  · cases rooted with
    | true =>
      rw [spelled, if_pos rfl, joinNames_append_singleton hn, ← List.cons_append]
      exact lastPart_append_slash _ h
    | false =>
      rw [spelled, if_neg (by simp), if_neg hne, joinNames_append_singleton hn]
      exact lastPart_append_slash _ h

/-- a path with something behind its last slash does not end in that slash -/
theorem getLast?_ne_slash {s : List Char} (h : lastPart s ≠ []) : s.getLast? ≠ some '/' := by
  intro hlast
  obtain ⟨a, rfl⟩ := List.getLast?_eq_some_iff.1 hlast
  exact h (lastPart_append_slash a (by simp))

theorem base_eq_lastPart {s : List Char} (h : lastPart s ≠ []) : base s = lastPart s := by
  have htrim : trimSlashes s = s := by
    cases hr : s.reverse with
    | nil =>
      rw [List.reverse_eq_nil_iff] at hr
      rw [hr]
      rfl
    | cons c r =>
      have hc : c ≠ '/' := by
        rintro rfl
        exact h (by simp [lastPart, hr])
      rw [trimSlashes, hr, List.dropWhile_cons_of_neg (by simpa using hc), ← hr, List.reverse_reverse]
  have hne : s.isEmpty = false := by
    rw [List.isEmpty_eq_false_iff]
    rintro rfl
    exact h rfl
  simp only [base, htrim, hne, Bool.false_eq_true, if_false]

/-- the extension depends on the last name only -/
theorem ext_spelled (rooted : Bool) (names : List Name) {name : Name} (h : '/' ∉ name) :
    ext (spelled rooted (names ++ [name])) = ext name := by
  simp only [ext, lastPart_spelled rooted names h, lastPart_of_noSlash h]

end AppAudit.Path
