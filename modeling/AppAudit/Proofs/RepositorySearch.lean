/-
Finding the repository of a path.

The search goes from a folder to the directory above it, round after round (`Search`), until a directory opens as a
repository or the directory above is the same again. A step up makes every path shorter except for one that goes to `.`,
where the search stays, so a search takes no more rounds than its folder has characters, however that is spelled. Which
directories open, and what is known about them, is left to a `Git` that nothing is assumed about.

Seen from the root, the directories that are met are the first names of the path (`Path.Above`), longest first. The search
therefore ends at the nearest one that opens (`IsNearest`), and the names left over lead back from there to the path.

Main facts:
- `search_climb?` and `Search.unique`: every search ends, and in one way;
- `climb?_eq_some_iff` and `climb?_eq_none_iff`: where it ends, below the root;
- `metadataAt_above`: root and subfolder together are the path;
- `repository_search`: all of it, for every target.
-/
import Mathlib
import AppAudit.Proofs.CleanPaths
import AppAudit.Repository.Metadata
import AppAudit.Report.Sink

namespace AppAudit

variable {opens : List Char → Bool} {start root path folder : List Char} {ns : List Name}

/-! ## Every search ends -/

/-- a search from a folder on, with the number of steps up and what it comes to -/
inductive Search (opens : List Char → Bool) : List Char → Nat → Option (List Char) → Prop where
  | found {folder : List Char} : opens folder = true → Search opens folder 0 (some folder)
  /-- the directory above is the same again -/
  | top {folder : List Char} : opens folder = false → Path.dir folder = folder → Search opens folder 0 none
  | up {folder : List Char} {steps : Nat} {result : Option (List Char)} : opens folder = false →
      Path.dir folder ≠ folder → Search opens (Path.dir folder) steps result → Search opens folder (steps + 1) result

/-- the steps that a path leaves room for: one for each character, and none at `.` -/
def stepsLeft (folder : List Char) : Nat := if folder = ['.'] then 0 else folder.length

theorem stepsLeft_le (folder : List Char) : stepsLeft folder ≤ folder.length := by
  unfold stepsLeft
  split_ifs
  · exact Nat.zero_le _
  · exact Nat.le_refl _

/-- a step up uses room -/
theorem stepsLeft_dir_lt (hne : folder ≠ []) (hup : Path.dir folder ≠ folder) :
    stepsLeft (Path.dir folder) < stepsLeft folder := by
  have hdepth := Path.depth_dir_lt folder hne hup
  have hlength : 0 < folder.length := List.length_pos_iff.2 hne
  have hdot : folder ≠ ['.'] := by
    rintro rfl
    exact hup (by decide)
  unfold Path.depth at hdepth
  unfold stepsLeft
  rw [if_neg hdot] at hdepth ⊢
  split_ifs at hdepth ⊢ <;> omega

theorem dir_ne_nil (s : List Char) : Path.dir s ≠ [] := by
  rw [Path.dir, Path.clean_eq]
  intro h
  have hspelled := Path.isAbs_spelled_of_tidy (Path.tidy_names (Path.upToSlash s))
  unfold Path.spelled at h
  split_ifs at h with hr hn
  exact hn ((Path.joinNames_eq_nil (Path.tidy_names _).ne_nil).1 h)

/-- one round of the search -/
theorem climb?_of_ne (hne : folder ≠ []) : climb? opens folder =
    if opens folder then some folder else if Path.dir folder = folder then none else climb? opens (Path.dir folder) := by
  rw [climb?, dif_neg hne]
  rfl

/-- **Every search ends**, after no more steps than its folder has characters. -/
theorem search_climb? (hne : folder ≠ []) : ∃ steps ≤ folder.length, Search opens folder steps (climb? opens folder) := by
  suffices hsearch : ∃ steps ≤ stepsLeft folder, Search opens folder steps (climb? opens folder) by
    obtain ⟨steps, hsteps, h⟩ := hsearch
    exact ⟨steps, hsteps.trans (stepsLeft_le folder), h⟩
  induction hrank : stepsLeft folder using Nat.strong_induction_on generalizing folder with
  | _ rank ih =>
    subst hrank
    rw [climb?_of_ne hne]
    by_cases hopens : opens folder = true
    · rw [if_pos hopens]
      exact ⟨0, Nat.zero_le _, .found hopens⟩
    · have hclosed : opens folder = false := Bool.eq_false_iff.2 hopens
      rw [if_neg hopens]
      by_cases htop : Path.dir folder = folder
      · rw [if_pos htop]
        exact ⟨0, Nat.zero_le _, .top hclosed htop⟩
      · rw [if_neg htop]
        have hlt := stepsLeft_dir_lt hne htop
        obtain ⟨steps, hsteps, hsearch⟩ := ih _ hlt (dir_ne_nil folder) rfl
        exact ⟨steps + 1, Nat.succ_le_of_lt (hsteps.trans_lt hlt), .up hclosed htop hsearch⟩

/-- a search has one end, and one way there -/
theorem Search.unique {steps steps' : Nat} {result result' : Option (List Char)} (h : Search opens folder steps result)
    (h' : Search opens folder steps' result') : steps = steps' ∧ result = result' := by
  induction h generalizing steps' with
  | found hopens =>
    cases h' with
    | found => exact ⟨rfl, rfl⟩
    | top hclosed => exact absurd hopens (Bool.eq_false_iff.1 hclosed)
    | up hclosed => exact absurd hopens (Bool.eq_false_iff.1 hclosed)
  | top hclosed htop =>
    cases h' with
    | found hopens => exact absurd hopens (Bool.eq_false_iff.1 hclosed)
    | top => exact ⟨rfl, rfl⟩
    | up _ hup => exact absurd htop hup
  | up hclosed hup _ ih =>
    cases h' with
    | found hopens => exact absurd hopens (Bool.eq_false_iff.1 hclosed)
    | top _ htop => exact absurd htop hup
    | up _ _ hrest =>
      obtain ⟨rfl, rfl⟩ := ih hrest
      exact ⟨rfl, rfl⟩

/-! ## Above a path -/

/-- the path itself, or a directory above it: both seen from the root, and the names of one are the first of the other -/
def Path.Above (above path : List Char) : Prop :=
  ∃ ns below : List Name, (∀ n ∈ ns ++ below, IsName n) ∧ above = spelled true ns ∧ path = spelled true (ns ++ below)

namespace Path

theorem above_spelled_iff (h : ∀ n ∈ ns, IsName n) {above : List Char} :
    Above above (spelled true ns) ↔ ∃ first, first <+: ns ∧ above = spelled true first := by
  constructor
  · rintro ⟨first, below, hnames, rfl, hpath⟩
    have hsame := spelled_injective h hnames hpath
    exact ⟨first, ⟨below, hsame.symm⟩, rfl⟩
  · rintro ⟨first, ⟨below, rfl⟩, rfl⟩
    exact ⟨first, below, h, rfl, rfl⟩

theorem above_self (h : ∀ n ∈ ns, IsName n) : Above (spelled true ns) (spelled true ns) :=
  (above_spelled_iff h).2 ⟨ns, List.prefix_refl ns, rfl⟩

theorem Above.trans {a b c : List Char} (hab : Above a b) (hbc : Above b c) : Above a c := by
  obtain ⟨ns, below, hnames, rfl, rfl⟩ := hbc
  have hns : ∀ n ∈ ns, IsName n := fun n hn => hnames n (List.mem_append_left _ hn)
  obtain ⟨first, hfirst, rfl⟩ := (above_spelled_iff hns).1 hab
  exact (above_spelled_iff hnames).2 ⟨first, hfirst.trans (List.prefix_append ns below), rfl⟩

theorem Above.antisymm {a b : List Char} (hab : Above a b) (hba : Above b a) : a = b := by
  obtain ⟨ns, below, hnames, rfl, rfl⟩ := hab
  have hns : ∀ n ∈ ns, IsName n := fun n hn => hnames n (List.mem_append_left _ hn)
  obtain ⟨first, hfirst, hspelled⟩ := (above_spelled_iff hns).1 hba
  have hsame : ns ++ below = first :=
    spelled_injective hnames (fun n hn => hns n (hfirst.subset hn)) hspelled
  have hlong : ns ++ below <+: ns := hsame ▸ hfirst
  rw [hlong.eq_of_length_le (List.prefix_append ns below).length_le]

/-- above a path are the path and what is above its directory -/
theorem above_concat_iff {name : Name} (h : ∀ n ∈ ns ++ [name], IsName n) {above : List Char} :
    Above above (spelled true (ns ++ [name])) ↔ above = spelled true (ns ++ [name]) ∨ Above above (spelled true ns) := by
  rw [above_spelled_iff h, above_spelled_iff fun n hn => h n (List.mem_append_left _ hn)]
  simp only [List.prefix_concat_iff, or_and_right, exists_or, exists_eq_left]

theorem above_top_iff {above : List Char} : Above above (spelled true []) ↔ above = spelled true [] := by
  rw [above_spelled_iff (by simp)]
  simp only [List.prefix_nil, exists_eq_left]

end Path

/-! ## Where a search ends -/

/-- the nearest directory above a path, or the path itself, that opens -/
structure IsNearest (opens : List Char → Bool) (start root : List Char) : Prop where
  above : Path.Above root start
  isOpen : opens root = true
  deepest : ∀ other, Path.Above other start → opens other = true → Path.Above other root

theorem IsNearest.unique {root' : List Char} (h : IsNearest opens start root) (h' : IsNearest opens start root') :
    root = root' := by
  apply Path.Above.antisymm
  · exact h'.deepest root h.above h.isOpen
  · exact h.deepest root' h'.above h'.isOpen

open AppAudit.Path

/-- a search from a path below the root -/
theorem climb?_concat {name : Name} (h : ∀ n ∈ ns ++ [name], IsName n) :
    climb? opens (spelled true (ns ++ [name])) =
      if opens (spelled true (ns ++ [name])) then some (spelled true (ns ++ [name]))
      else climb? opens (spelled true ns) := by
  have hns : ∀ n ∈ ns, IsName n := fun n hn => h n (List.mem_append_left _ hn)
  have hname : IsName name := h name (by simp)
  have hdir : dir (spelled true (ns ++ [name])) = spelled true ns := dir_spelled (.of_isName hns) hname.noSlash
  have hup : spelled true ns ≠ spelled true (ns ++ [name]) := by
    intro he
    have hsame := spelled_injective hns h he
    simp at hsame
  rw [climb?_of_ne (spelled_ne_nil h), hdir, if_neg hup]

theorem climb?_root :
    climb? opens (spelled true []) = if opens (spelled true []) then some (spelled true []) else none := by
  have hdir : dir (spelled true []) = spelled true [] := dir_root
  rw [climb?_of_ne (spelled_ne_nil (by simp)), if_pos hdir]

/-- what is found is the nearest that opens, and where nothing is found nothing opens -/
theorem climb?_cases (opens : List Char → Bool) (h : ∀ n ∈ ns, IsName n) :
    (∃ root, climb? opens (spelled true ns) = some root ∧ IsNearest opens (spelled true ns) root) ∨
    climb? opens (spelled true ns) = none ∧ ∀ above, Above above (spelled true ns) → opens above = false := by
  induction ns using List.reverseRecOn with
  | nil =>
    rw [climb?_root]
    by_cases hopens : opens (spelled true []) = true
    · left
      exact ⟨_, if_pos hopens, above_self h, hopens, fun other hother _ => hother⟩
    · right
      refine ⟨if_neg hopens, fun above habove => ?_⟩
      rw [above_top_iff.1 habove]
      exact Bool.eq_false_iff.2 hopens
  | append_singleton ns name ih =>
    rw [climb?_concat h]
    by_cases hopens : opens (spelled true (ns ++ [name])) = true
    · left
      exact ⟨_, if_pos hopens, above_self h, hopens, fun other hother _ => hother⟩
    · rw [if_neg hopens]
      have hclosed : opens (spelled true (ns ++ [name])) = false := Bool.eq_false_iff.2 hopens
      rcases ih fun n hn => h n (List.mem_append_left _ hn) with ⟨root, hroot, hnearest⟩ | ⟨hnone, hall⟩
      · refine Or.inl ⟨root, hroot, (above_concat_iff h).2 (Or.inr hnearest.above), hnearest.isOpen, ?_⟩
        intro other hother hopen
        rcases (above_concat_iff h).1 hother with rfl | hother
        · exact absurd hopen hopens
        · exact hnearest.deepest other hother hopen
      · refine Or.inr ⟨hnone, fun above habove => ?_⟩
        rcases (above_concat_iff h).1 habove with rfl | habove
        · exact hclosed
        · exact hall above habove

/-- **A search finds the nearest directory that opens.** -/
theorem climb?_eq_some_iff (h : ∀ n ∈ ns, IsName n) :
    climb? opens (spelled true ns) = some root ↔ IsNearest opens (spelled true ns) root := by
  rcases climb?_cases opens h with ⟨found, hfound, hnearest⟩ | ⟨hnone, hall⟩
  · rw [hfound, Option.some.injEq]
    constructor
    · rintro rfl
      exact hnearest
    · exact hnearest.unique
  · rw [hnone]
    constructor
    · intro hnot
      cases hnot
    · intro hnearest
      have hclosed := hall root hnearest.above
      rw [hnearest.isOpen] at hclosed
      cases hclosed

/-- **A search finds nothing exactly where no directory opens.** -/
theorem climb?_eq_none_iff (h : ∀ n ∈ ns, IsName n) :
    climb? opens (spelled true ns) = none ↔ ∀ above, Above above (spelled true ns) → opens above = false := by
  rcases climb?_cases opens h with ⟨found, hfound, hnearest⟩ | ⟨hnone, hall⟩
  · rw [hfound]
    constructor
    · intro hnot
      cases hnot
    · intro hall
      have hclosed := hall found hnearest.above
      rw [hnearest.isOpen] at hclosed
      cases hclosed
  · exact iff_of_true hnone hall

/-! ## From the root to the path -/

namespace Path

theorem dropCommon_append (a b : List Name) : dropCommon a (a ++ b) = ([], b) := by
  induction a with
  | nil => cases b <;> rfl
  | cons name a ih => rw [List.cons_append, dropCommon, if_pos rfl, ih]

theorem joinNames_ne_dot {below : List Name} (h : ∀ n ∈ below, IsName n) : joinNames below ≠ ['.'] := by
  intro hdot
  have hbelow := parts_joinNames h
  rw [hdot] at hbelow
  have hmem : ['.'] ∈ below := hbelow ▸ (by decide : ['.'] ∈ FileSystem.parts ['.'])
  exact (h _ hmem).ne_dot rfl

/-- from a directory above a path the way is the names that are left -/
theorem rel_above {below : List Name} (h : ∀ n ∈ ns ++ below, IsName n) :
    rel (spelled true ns) (spelled true (ns ++ below)) = if below = [] then ['.'] else joinNames below := by
  have hns : ∀ n ∈ ns, IsName n := fun n hn => h n (List.mem_append_left _ hn)
  rw [rel, names_spelled (.of_isName hns), names_spelled (.of_isName h), dropCommon_append]
  simp only [List.map_nil, List.nil_append, List.isEmpty_iff]

/-- names that are joined already are joined to a path as well as one by one -/
theorem join_joinNames {below : List Name} (hns : ∀ n ∈ ns, IsName n) (hbelow : ∀ n ∈ below, IsName n) :
    join [spelled true ns, joinNames below] = spelled true (ns ++ below) := by
  by_cases hb : below = []
  · subst hb
    exact (by rfl : join [spelled true ns, []] = join [spelled true ns]).trans (join_spelled hns hbelow)
  · rw [← join_spelled hns hbelow]
    have hjoined : (joinNames below).isEmpty = false := by
      simpa using (joinNames_eq_nil fun n hn => (hbelow n hn).ne_nil).not.2 hb
    have hroot : (spelled true ns).isEmpty = false := by simpa using spelled_ne_nil hns
    have hkeep : (spelled true ns :: below).filter (fun p => !p.isEmpty) = spelled true ns :: below := by
      rw [List.filter_eq_self, List.forall_mem_cons]
      exact ⟨by rw [hroot]; rfl, fun n hn => by simpa using (hbelow n hn).ne_nil⟩
    rw [join, join, hkeep]
    simp only [List.filter_cons, hroot, hjoined, Bool.not_false, if_true, List.filter_nil]
    rw [joinNames_cons hb, joinNames_cons (List.cons_ne_nil _ _)]
    rfl

/-- a path seen from the root is cleaned to names below the root -/
theorem abs_eq_spelled (cwd : RootedPath) (target : List Char) :
    ∃ ns, (∀ n ∈ ns, IsName n) ∧ abs cwd.text target = spelled true ns := by
  have hne : cwd.text ≠ [] := fun hnil => absurd cwd.isAbs (by rw [hnil]; decide)
  have hcwd : cwd.text.isEmpty = false := List.isEmpty_eq_false_iff.2 hne
  unfold abs
  by_cases habs : isAbs target = true
  · rw [if_pos habs]
    exact clean_of_isAbs habs
  · rw [if_neg habs]
    by_cases hempty : target = []
    · have hjoin : join [cwd.text, target] = clean cwd.text := by simp [join, hempty, hcwd, joinNames]
      rw [hjoin]
      exact clean_of_isAbs cwd.isAbs
    · have hsome : target.isEmpty = false := List.isEmpty_eq_false_iff.2 hempty
      have hjoin : join [cwd.text, target] = clean (cwd.text ++ '/' :: target) := by
        simp [join, hsome, hcwd, joinNames]
      have hrooted : isAbs (cwd.text ++ '/' :: target) = true := by
        have hcwd := cwd.isAbs
        unfold isAbs at hcwd ⊢
        rwa [List.head?_append_of_ne_nil _ hne]
      rw [hjoin]
      exact clean_of_isAbs hrooted

end Path

/-- the way from a root to a path: root and subfolder together are the path, and no step of it goes up -/
structure Metadata.LeadsTo (m : Metadata) (path : List Char) : Prop where
  joined : join [m.root, m.subfolder] = path
  noStepUp : ['.', '.'] ∉ FileSystem.parts m.subfolder
  empty_iff : m.subfolder = [] ↔ path = m.root

namespace FileSystem

variable {fs : FileSystem} {target : List Char} {m : Metadata}

/-- the search starts at the path or at the directory it is in -/
theorem searchStart_above (fs : FileSystem) (h : ∀ n ∈ ns, IsName n) :
    ∃ first, (∀ n ∈ first, IsName n) ∧ fs.searchStart (spelled true ns) = spelled true first ∧
      Above (spelled true first) (spelled true ns) := by
  have hself : ∃ first, (∀ n ∈ first, IsName n) ∧ spelled true ns = spelled true first ∧
      Above (spelled true first) (spelled true ns) := ⟨ns, h, rfl, above_self h⟩
  have hdir : ∃ first, (∀ n ∈ first, IsName n) ∧ dir (spelled true ns) = spelled true first ∧
      Above (spelled true first) (spelled true ns) := by
    rcases List.eq_nil_or_concat' ns with rfl | ⟨first, name, rfl⟩
    · exact ⟨[], h, dir_root, above_self h⟩
    · have hfirst : ∀ n ∈ first, IsName n := fun n hn => h n (List.mem_append_left _ hn)
      refine ⟨first, hfirst, dir_spelled (.of_isName hfirst) (h name (by simp)).noSlash, ?_⟩
      exact (above_concat_iff h).2 (Or.inr (above_self hfirst))
  unfold searchStart
  split
  · split_ifs
    · exact hself
    · exact hdir
  · exact hself

end FileSystem

namespace Git

variable {git : Git} {m : Metadata}

/-- what a successful look-up says about the place of the path -/
theorem metadataAt_place (h : git.metadataAt root path = .ok m) :
    m.root = clean root ∧ m.subfolder = if rel root path = ['.'] then [] else rel root path := by
  unfold metadataAt at h
  dsimp only at h
  split at h
  · cases h
    exact ⟨rfl, rfl⟩
  · split at h
    · cases h
      exact ⟨rfl, rfl⟩
    · cases h

/-- without an origin there is nothing that can go wrong, and no address -/
theorem metadataAt_of_noOrigin (root path : List Char) (h : git.origin? root = none) :
    ∃ m, git.metadataAt root path = .ok m ∧ m.remote = [] ∧ m.url = {} := by
  unfold metadataAt
  dsimp only
  rw [h]
  exact ⟨_, rfl, rfl, rfl⟩

/-- the address of the origin and its page are stated, and what is checked out -/
theorem metadataAt_of_origin (root path : List Char) {address : List Char} {page : RawText}
    (horigin : git.origin? root = some address) (hpage : Remote.webUrl address = .ok page) :
    ∃ m, git.metadataAt root path = .ok m ∧ m.remote = Remote.dropGit address ∧ m.url = page ∧
      m.branch = Ref.branch ((git.head? root).getD ({}, [])).1 ∧ m.commit = ((git.head? root).getD ({}, [])).2 := by
  unfold metadataAt
  dsimp only
  rw [horigin]
  dsimp only
  rw [hpage]
  exact ⟨_, rfl, rfl, rfl, rfl, rfl⟩

/-- **Root and subfolder together are the path.** -/
theorem metadataAt_above (habove : Above root path) (h : git.metadataAt root path = .ok m) :
    m.root = root ∧ m.LeadsTo path := by
  obtain ⟨ns, below, hnames, rfl, rfl⟩ := habove
  obtain ⟨hns, hbelow⟩ := List.forall_mem_append.1 hnames
  obtain ⟨hroot, hsubfolder⟩ := metadataAt_place h
  have hclean : m.root = spelled true ns := hroot.trans (clean_spelled (.of_isName hns))
  have hjoined : m.subfolder = joinNames below := by
    rw [hsubfolder, rel_above hnames]
    by_cases hb : below = []
    · subst hb
      rfl
    · rw [if_neg hb, if_neg (joinNames_ne_dot hbelow)]
  refine ⟨hclean, ?_, ?_, ?_⟩
  · rw [hclean, hjoined]
    exact join_joinNames hns hbelow
  · rw [hjoined, parts_joinNames hbelow]
    exact fun hm => (hbelow _ hm).ne_dots rfl
  · rw [hclean, hjoined, joinNames_eq_nil fun n hn => (hbelow n hn).ne_nil]
    constructor
    · rintro rfl
      rw [List.append_nil]
    · intro hsame
      exact List.append_right_eq_self.1 (spelled_injective hnames hns hsame)

/-- a look-up at a root never says that there is none -/
theorem metadataAt_ne_notRepository : git.metadataAt root path ≠ .error .notRepository := by
  unfold metadataAt
  dsimp only
  split
  · exact nofun
  · split <;> exact nofun

end Git

namespace FileSystem

variable {fs : FileSystem} {gitDir : List Char}

/-- what files say about an origin is what the settings say -/
theorem origin?_git {tie : Setting.TieBreak} {bytes : List UInt8} {address : List Char}
    (hgitDir : fs.gitDir? root = some gitDir)
    (hread : fs.readFile (Path.join [gitDir, "config".toList]) = .ok bytes)
    (haddress : (Setting.read? bytes).bind (Setting.origin? tie) = some address) :
    (fs.git tie).origin? root = some address := by
  change fs.originOf? tie ((fs.gitDir? root).getD root) = _
  unfold originOf?
  rw [hgitDir, Option.getD_some, hread]
  exact haddress

theorem head?_git (tie : Setting.TieBreak) (hgitDir : fs.gitDir? root = some gitDir) :
    (fs.git tie).head? root = fs.headOf? gitDir := by
  change fs.headOf? ((fs.gitDir? root).getD root) = _
  rw [hgitDir, Option.getD_some]

end FileSystem

theorem FileSystem.metadata_of_ne (fs : FileSystem) {target : List Char} (git : Git) (cwd : RootedPath)
    (hne : target ≠ []) : fs.metadata target git cwd =
      match climb? git.opens (fs.searchStart (abs cwd.text target)) with
      | none => .error .notRepository
      | some root => git.metadataAt root (abs cwd.text target) := by
  have hsome : target.isEmpty = false := by simpa using hne
  rw [metadata, hsome]
  exact if_neg Bool.false_ne_true

open FileSystem

/-- **The repository of a target.** A search from any folder ends, and in one way. From where the search for a target
starts it finds the nearest directory that opens, whatever it is that opens, and nothing only if none does, which is the
error that there is no repository. The root that is found leads to the target, seen from the working directory and
cleaned. -/
theorem repository_search (fs : FileSystem) (git : Git) (cwd : RootedPath) :
    climb? git.opens [] = none ∧
    (∀ folder, folder ≠ [] → ∃ steps ≤ folder.length, Search git.opens folder steps (climb? git.opens folder) ∧
      ∀ taken result, Search git.opens folder taken result → taken = steps ∧ result = climb? git.opens folder) ∧
    ∀ target, target ≠ [] →
      let path := abs cwd.text target
      let start := fs.searchStart path
      (∀ root, climb? git.opens start = some root ↔ IsNearest git.opens start root) ∧
      (climb? git.opens start = none ↔ ∀ above, Above above start → git.opens above = false) ∧
      (∀ root m, climb? git.opens start = some root → git.metadataAt root path = .ok m →
        m.root = root ∧ m.LeadsTo path) ∧
      (fs.metadata target git cwd = .error .notRepository ↔ ∀ above, Above above start → git.opens above = false) ∧
      ∀ m, fs.metadata target git cwd = .ok m → IsNearest git.opens start m.root ∧ m.LeadsTo path := by
  have hempty : climb? git.opens [] = none := by rw [climb?, dif_pos rfl]
  refine ⟨hempty, ?_, ?_⟩
  · intro folder hne
    obtain ⟨steps, hsteps, hsearch⟩ :
        ∃ steps ≤ folder.length, Search git.opens folder steps (climb? git.opens folder) := search_climb? hne
    exact ⟨steps, hsteps, hsearch, fun taken result h => h.unique hsearch⟩
  intro target hne path start
  obtain ⟨ns, hns, hpath⟩ : ∃ ns, (∀ n ∈ ns, IsName n) ∧ path = spelled true ns := abs_eq_spelled cwd target
  obtain ⟨first, hfirst, hstart, habove⟩ := fs.searchStart_above hns
  have hmetadata : fs.metadata target git cwd =
      match climb? git.opens start with
      | none => .error .notRepository
      | some root => git.metadataAt root path := fs.metadata_of_ne git cwd hne
  have hstart : start = spelled true first := (congrArg fs.searchStart hpath).trans hstart
  clear_value start path
  subst hpath hstart
  have hleads (root : List Char) (m : Metadata) (hroot : climb? git.opens (spelled true first) = some root)
      (hm : git.metadataAt root (spelled true ns) = .ok m) : m.root = root ∧ m.LeadsTo (spelled true ns) := by
    have hnearest : IsNearest git.opens (spelled true first) root := (climb?_eq_some_iff hfirst).1 hroot
    exact git.metadataAt_above (hnearest.above.trans habove) hm
  refine ⟨fun root => climb?_eq_some_iff hfirst, climb?_eq_none_iff hfirst, hleads, ?_, ?_⟩
  · rw [hmetadata, ← climb?_eq_none_iff hfirst]
    cases climb? git.opens (spelled true first) with
    | none => exact iff_of_true rfl rfl
    | some root => exact iff_of_false git.metadataAt_ne_notRepository nofun
  · intro m hm
    rw [hmetadata] at hm
    cases hroot : climb? git.opens (spelled true first) with
    | none =>
      rw [hroot] at hm
      cases hm
    | some root =>
      rw [hroot] at hm
      obtain ⟨rfl, hpath⟩ := hleads root m hroot hm
      exact ⟨(climb?_eq_some_iff hfirst).1 hroot, hpath⟩

/-- a repository inside of another one, seen from the outer one -/
def nestedTree : FileSystem :=
  let data : Node := .dir [("HEAD".toList, .file (textBytes "ref: refs/heads/main\n"))]
  let sources : Node := .dir [("App.tsx".toList, .file [])]
  let app : Node := .dir [(".git".toList, data), ("src".toList, sources)]
  ⟨.dir [("work".toList, .dir [(".git".toList, data), ("app".toList, app)])], ["work".toList]⟩

/-- a file of the inner repository, by a detour -/
def nestedFile : List Char := "app/lib/..//./src/App.tsx".toList

theorem path_nestedFile : abs nestedTree.cwdPath.text nestedFile = "/work/app/src/App.tsx".toList := by cbv

theorem searchStart_nestedTree :
    nestedTree.searchStart "/work/app/src/App.tsx".toList = "/work/app/src".toList := by
  cbv

theorem climb?_nestedTree : climb? nestedTree.opens "/work/app/src".toList = some "/work/app".toList := by
  have hsources : nestedTree.opens "/work/app/src".toList = false := by cbv
  have happ : nestedTree.opens "/work/app".toList = true := by cbv
  have hdir : dir "/work/app/src".toList = "/work/app".toList := by decide
  rw [climb?_of_ne (by decide), hsources, hdir, climb?_of_ne (by decide), happ]
  rfl

theorem metadataAt_nestedTree :
    ∃ m, nestedTree.git.metadataAt "/work/app".toList "/work/app/src/App.tsx".toList = .ok m := by
  have hnone : nestedTree.git.origin? "/work/app".toList = none := by cbv
  obtain ⟨m, hm, -⟩ := Git.metadataAt_of_noOrigin "/work/app".toList "/work/app/src/App.tsx".toList hnone
  exact ⟨m, hm⟩

/-- the inner repository is found, and from there the file without the detour -/
theorem repository_search_nested : ∃ m, nestedTree.metadata nestedFile = .ok m ∧
    m.root = "/work/app".toList ∧ IsNearest nestedTree.opens "/work/app/src".toList m.root ∧
    m.LeadsTo "/work/app/src/App.tsx".toList ∧
    ∃ steps ≤ nestedFile.length, Search nestedTree.opens nestedFile steps (climb? nestedTree.opens nestedFile) := by
  obtain ⟨m, hplace⟩ := metadataAt_nestedTree
  have hm : nestedTree.metadata nestedFile = .ok m := by
    have hroot : climb? nestedTree.git.opens "/work/app/src".toList = some "/work/app".toList := climb?_nestedTree
    rw [nestedTree.metadata_of_ne _ _ (by decide), path_nestedFile, searchStart_nestedTree, hroot]
    exact hplace
  obtain ⟨-, hends, htargets⟩ := repository_search nestedTree nestedTree.git nestedTree.cwdPath
  obtain ⟨steps, hsteps, hsearch, -⟩ := hends nestedFile (by decide)
  obtain ⟨-, -, hleads, -, hfound⟩ := htargets nestedFile (by decide)
  have hnearest := (hfound m hm).1
  have hback := hleads "/work/app".toList m
  rw [path_nestedFile, searchStart_nestedTree] at hnearest hback
  obtain ⟨hsame, hway⟩ := hback climb?_nestedTree hplace
  exact ⟨m, hm, hsame, hnearest, hway, steps, hsteps, hsearch⟩

end AppAudit
