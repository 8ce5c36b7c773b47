/-
Where paths lead.

`Follows` says without any reference to texts how names lead from one directory to another: dots stay, two dots go up, a
directory is entered, and a link is followed as if its target stood there. Looking up a path finds a directory exactly
when its names lead there (`follows_of_resolve`, `Follows.resolve_eq`). Dots can be left out (`Follows.withoutDots`), and
a way can be continued (`Follows.append`), so cleaning a path without `..` does not change where it leads, and neither
does looking up a directory step by step.
-/
import Mathlib.Tactic
import AppAudit.Proofs.Paths

namespace AppAudit

/-! ## Places in a tree -/

namespace Node

theorem at?_nil (n : Node) : n.at? [] = some n := by rw [at?]

theorem at?_cons (n : Node) (name : Name) (names : List Name) :
    n.at? (name :: names) = (n.child? name).bind fun m => m.at? names := by rw [at?]

theorem at?_append (n : Node) (a b : List Name) : n.at? (a ++ b) = (n.at? a).bind fun m => m.at? b := by
  induction a generalizing n with
  | nil => rw [List.nil_append, at?_nil, Option.bind_some]
  | cons name a ih =>
    rw [List.cons_append, at?_cons, at?_cons, Option.bind_assoc]
    congr 1
    funext m
    exact ih m

theorem at?_append_singleton (n : Node) (place : List Name) (name : Name) :
    n.at? (place ++ [name]) = (n.at? place).bind fun m => m.child? name := by
  rw [at?_append]
  congr 1
  funext m
  rw [at?_cons]
  cases m.child? name with
  | none => rfl
  | some c => exact at?_nil c

theorem child?_dir_eq_some {entries : List (Name × Node)} {name : Name} {n : Node}
    (h : (dir entries).child? name = some n) : (name, n) ∈ entries := by
  simp only [child?, Option.map_eq_some_iff] at h
  obtain ⟨e, he, rfl⟩ := h
  have hname : e.1 = name := by simpa using List.find?_some he
  rw [← hname]
  exact List.mem_of_find?_eq_some he

/-- where names are unique, every entry is found under its name -/
theorem child?_of_mem {entries : List (Name × Node)} (hu : (entries.map (·.1)).Nodup) {name : Name} {n : Node}
    (h : (name, n) ∈ entries) : (dir entries).child? name = some n := by
  induction entries with
  | nil => simp at h
  | cons e entries ih =>
    rw [List.map_cons, List.nodup_cons] at hu
    rcases List.mem_cons.1 h with rfl | h
    · simp [child?]
    · have hne : e.1 ≠ name := fun he => hu.1 (List.mem_map.2 ⟨(name, n), h, he.symm⟩)
      have := ih hu.2 h
      simp only [child?] at this ⊢
      rw [List.find?_cons_of_neg (by simpa using hne)]
      exact this

theorem height_le_heights {entries : List (Name × Node)} {e : Name × Node} (h : e ∈ entries) :
    e.2.height ≤ heights entries := by
  induction entries with
  | nil => simp at h
  | cons first entries ih =>
    obtain ⟨name, n⟩ := first
    rw [heights]
    rcases List.mem_cons.1 h with rfl | h
    · exact le_max_left _ _
    · exact (ih h).trans (le_max_right _ _)

theorem height_child?_le {n m : Node} {name : Name} (h : n.child? name = some m) : m.height ≤ n.height := by
  cases n with
  | dir entries =>
    have : m.height ≤ heights entries := height_le_heights (child?_dir_eq_some h)
    rw [height]
    omega
  | _ => simp [child?] at h

theorem height_at?_le {n m : Node} {place : List Name} (h : n.at? place = some m) : m.height ≤ n.height := by
  induction place generalizing n with
  | nil =>
    rw [at?_nil, Option.some.injEq] at h
    rw [h]
  | cons name place ih =>
    rw [at?_cons, Option.bind_eq_some_iff] at h
    obtain ⟨c, hc, hm⟩ := h
    exact (ih hm).trans (height_child?_le hc)

/-! ## Trees that a file system can hold -/

/-- a name that an entry of a directory can have -/
structure IsEntryName (name : Name) : Prop extends Path.IsName name where
  noNul : '\x00' ∉ name
  short : (Utf8.encode name).length ≤ FileSystem.maxName

instance (name : Name) : Decidable (IsEntryName name) :=
  decidable_of_iff (name ≠ [] ∧ '/' ∉ name ∧ name ≠ ['.'] ∧ name ≠ ['.', '.'] ∧ '\x00' ∉ name ∧
      (Utf8.encode name).length ≤ FileSystem.maxName)
    ⟨fun ⟨h1, h2, h3, h4, h5, h6⟩ => ⟨⟨h1, h2, h3, h4⟩, h5, h6⟩,
      fun h => ⟨h.ne_nil, h.noSlash, h.ne_dot, h.ne_dots, h.noNul, h.short⟩⟩

/-- in every directory, entries have names of their own that entries can have -/
inductive WellFormed : Node → Prop where
  | file (bytes : List UInt8) : WellFormed (file bytes)
  | device (d : Device) : WellFormed (device d)
  | link (target : List Char) : WellFormed (link target)
  | dir (entries : List (Name × Node)) : (entries.map (·.1)).Nodup → (∀ e ∈ entries, IsEntryName e.1) →
      (∀ e ∈ entries, WellFormed e.2) → WellFormed (dir entries)

theorem WellFormed.at? {n m : Node} (hn : n.WellFormed) {place : List Name} (h : n.at? place = some m) :
    m.WellFormed := by
  induction place generalizing n with
  | nil =>
    rw [at?_nil, Option.some.injEq] at h
    exact h ▸ hn
  | cons name place ih =>
    rw [at?_cons, Option.bind_eq_some_iff] at h
    obtain ⟨c, hc, hm⟩ := h
    cases hn with
    | dir entries _ _ hsub => exact ih (hsub _ (child?_dir_eq_some hc)) hm
    | _ => simp [child?] at hc

end Node

namespace FileSystem

/-! ## Following names -/

/-- a name that stands for an entry and is not too long -/
def IsStep (name : Name) : Prop := name ≠ ['.'] ∧ name ≠ ['.', '.'] ∧ (Utf8.encode name).length ≤ maxName

/-- the names `todo` lead from the directory `here` to `place`; of the links that may be followed, so many are left -/
inductive Follows (tree : Node) : (links : Nat) → (here todo : List Name) → (left : Nat) → (place : List Name) → Prop where
  | stop (links : Nat) (here : List Name) : Follows tree links here [] links here
  | dot {links left : Nat} {here rest place : List Name} : Follows tree links here rest left place →
      Follows tree links here (['.'] :: rest) left place
  | up {links left : Nat} {here rest place : List Name} : Follows tree links here.dropLast rest left place →
      Follows tree links here (['.', '.'] :: rest) left place
  | dir {links left : Nat} {here rest place : List Name} {name : Name} {entries : List (Name × Node)} :
      IsStep name → tree.at? (here ++ [name]) = some (.dir entries) →
      Follows tree links (here ++ [name]) rest left place → Follows tree links here (name :: rest) left place
  | link {links mid left : Nat} {here rest stop place : List Name} {name : Name} {target : List Char} :
      IsStep name → tree.at? (here ++ [name]) = some (.link target) →
      Follows tree links (if Path.isAbs target then [] else here) (parts target) mid stop →
      Follows tree mid stop rest left place → Follows tree (links + 1) here (name :: rest) left place

variable {tree : Node} {links mid left : Nat} {here stop place : List Name} {a b todo : List Name}

theorem Follows.append (h : Follows tree links here a mid stop) (h' : Follows tree mid stop b left place) :
    Follows tree links here (a ++ b) left place := by
  induction h with
  | stop => exact h'
  | dot _ ih => exact .dot (ih h')
  | up _ ih => exact .up (ih h')
  | dir hs hd _ ih => exact .dir hs hd (ih h')
  | link hs hl ht _ _ ih => exact .link hs hl ht (ih h')

theorem Follows.split (h : Follows tree links here (a ++ b) left place) :
    ∃ mid stop, Follows tree links here a mid stop ∧ Follows tree mid stop b left place := by
  generalize hab : a ++ b = todo at h
  induction h generalizing a with
  | stop links here =>
    rw [List.append_eq_nil_iff] at hab
    obtain ⟨rfl, rfl⟩ := hab
    exact ⟨links, here, .stop _ _, .stop _ _⟩
  | @dot links left here rest place hrest ih =>
    rcases List.append_eq_cons_iff.1 hab with ⟨rfl, rfl⟩ | ⟨a', rfl, rfl⟩
    · exact ⟨links, here, .stop _ _, .dot hrest⟩
    · obtain ⟨mid, stop, h1, h2⟩ := ih rfl
      exact ⟨mid, stop, .dot h1, h2⟩
  | @up links left here rest place hrest ih =>
    rcases List.append_eq_cons_iff.1 hab with ⟨rfl, rfl⟩ | ⟨a', rfl, rfl⟩
    · exact ⟨links, here, .stop _ _, .up hrest⟩
    · obtain ⟨mid, stop, h1, h2⟩ := ih rfl
      exact ⟨mid, stop, .up h1, h2⟩
  | @dir links left here rest place name entries hs hd hrest ih =>
    rcases List.append_eq_cons_iff.1 hab with ⟨rfl, rfl⟩ | ⟨a', rfl, rfl⟩
    · exact ⟨links, here, .stop _ _, .dir hs hd hrest⟩
    · obtain ⟨mid, stop, h1, h2⟩ := ih rfl
      exact ⟨mid, stop, .dir hs hd h1, h2⟩
  | @link links between left here rest turn place name target hs hl ht hrest _ ih =>
    rcases List.append_eq_cons_iff.1 hab with ⟨rfl, rfl⟩ | ⟨a', rfl, rfl⟩
    · exact ⟨links + 1, here, .stop _ _, .link hs hl ht hrest⟩
    · obtain ⟨mid, stop, h1, h2⟩ := ih rfl
      exact ⟨mid, stop, .link hs hl ht h1, h2⟩

/-- dots on the way make no difference -/
theorem Follows.withoutDots (h : Follows tree links here todo left place) :
    Follows tree links here (todo.filter fun n => n ≠ ['.']) left place := by
  have keep : ∀ {name : Name} {rest : List Name}, name ≠ ['.'] →
      (name :: rest).filter (fun n => n ≠ ['.']) = name :: rest.filter fun n => n ≠ ['.'] := by
    intro name rest hn
    rw [List.filter_cons, if_pos (by simpa using hn)]
  induction h with
  | stop => exact .stop _ _
  | dot _ ih => exact ih
  | up _ ih =>
    rw [keep (by simp)]
    exact .up ih
  | dir hs hd _ ih =>
    rw [keep hs.1]
    exact .dir hs hd ih
  | link hs hl ht _ _ ih =>
    rw [keep hs.1]
    exact .link hs hl ht ih

/-! ## Resolving -/

/-- what resolving finds as a directory is reached by following the names -/
theorem follows_of_resolve {follow asDir : Bool} {entries : List (Name × Node)}
    (h : resolve tree follow links here todo asDir = .ok (.found place (.dir entries))) :
    (∃ left, Follows tree links here todo left place) ∧ tree.at? place = some (.dir entries) := by
  -- one case per step of the look-up; those that fail or end at something else contradict `h`
  induction links, here, todo, asDir using resolve.induct tree follow with
  | case1 links asDir here n hn =>
    rw [resolve, hn] at h
    simp only [Except.ok.injEq, Place.found.injEq] at h
    obtain ⟨rfl, rfl⟩ := h
    exact ⟨⟨links, .stop _ _⟩, hn⟩
  | case2 links asDir here hn =>
    rw [resolve, hn] at h
    simp at h
  | case3 links here rest asDir ih =>
    rw [resolve, if_pos rfl] at h
    obtain ⟨⟨left, hf⟩, hp⟩ := ih h
    exact ⟨⟨left, .dot hf⟩, hp⟩
  | case4 links here rest asDir hne ih =>
    rw [resolve, if_neg hne, if_pos rfl] at h
    obtain ⟨⟨left, hf⟩, hp⟩ := ih h
    exact ⟨⟨left, .up hf⟩, hp⟩
  | case5 links here name rest asDir hd hu hl =>
    rw [resolve, if_neg hd, if_neg hu, if_pos hl] at h
    simp at h
  | case6 links here name rest asDir hd hu hl hc he =>
    rw [resolve, if_neg hd, if_neg hu, if_neg hl, hc] at h
    simp [he] at h
  | case7 links here name rest asDir hd hu hl hc he =>
    rw [resolve, if_neg hd, if_neg hu, if_neg hl, hc] at h
    simp [he] at h
  | case8 links here name rest asDir hd hu hl below hc ih =>
    rw [resolve, if_neg hd, if_neg hu, if_neg hl, hc] at h
    obtain ⟨⟨left, hf⟩, hp⟩ := ih h
    exact ⟨⟨left, .dir ⟨hd, hu, not_lt.1 hl⟩ ((Node.at?_append_singleton _ _ _).trans hc) hf⟩, hp⟩
  | case9 links here name rest asDir hd hu hl target hc hstop =>
    rw [resolve, if_neg hd, if_neg hu, if_neg hl, hc] at h
    simp [hstop] at h
  | case10 here name rest asDir hd hu hl target hc hstop =>
    rw [resolve, if_neg hd, if_neg hu, if_neg hl, hc] at h
    simp [hstop] at h
  | case11 here name rest asDir hd hu hl target hc hstop links ih =>
    rw [resolve, if_neg hd, if_neg hu, if_neg hl, hc] at h
    simp only [hstop, if_false, Bool.false_eq_true] at h
    obtain ⟨⟨left, hf⟩, hp⟩ := ih (by simpa using h)
    obtain ⟨mid, stop, h1, h2⟩ := hf.split
    refine ⟨⟨left, .link ⟨hd, hu, not_lt.1 hl⟩ ((Node.at?_append_singleton _ _ _).trans hc) ?_ h2⟩, hp⟩
    simpa using h1
  | case12 links here name rest asDir hd hu hl node hdir hlink hc he =>
    cases node with
    | dir below => exact absurd rfl (hdir below)
    | link target => exact absurd rfl (hlink target)
    | _ =>
      rw [resolve, if_neg hd, if_neg hu, if_neg hl, hc] at h
      cases asDir <;> simp [he] at h
  | case13 links here name rest asDir hd hu hl node hdir hlink hc he =>
    cases node with
    | dir below => exact absurd rfl (hdir below)
    | link target => exact absurd rfl (hlink target)
    | _ =>
      rw [resolve, if_neg hd, if_neg hu, if_neg hl, hc] at h
      simp only [he, Bool.false_eq_true, if_false, reduceCtorEq] at h

/-- following names first and resolving the rest is resolving everything, unless a link at the very end is not followed;
where something is left to resolve, a directory is demanded of it as before -/
theorem Follows.resolve_eq (h : Follows tree links here todo left place) {follow : Bool} {tail : List Name}
    (ht : follow = true ∨ tail ≠ []) (asDir : Bool) :
    ∃ asDir', (tail ≠ [] → asDir' = asDir) ∧
      resolve tree follow links here (todo ++ tail) asDir = resolve tree follow left place tail asDir' := by
  induction h generalizing tail asDir with
  | stop => exact ⟨asDir, fun _ => rfl, rfl⟩
  | dot _ ih =>
    obtain ⟨asDir', hsame, h⟩ := ih ht asDir
    refine ⟨asDir', hsame, ?_⟩
    rw [List.cons_append, resolve, if_pos rfl, h]
  | up _ ih =>
    obtain ⟨asDir', hsame, h⟩ := ih ht asDir
    refine ⟨asDir', hsame, ?_⟩
    rw [List.cons_append, resolve, if_neg (by simp), if_pos rfl, h]
  | dir hs hd _ ih =>
    obtain ⟨asDir', hsame, h⟩ := ih ht asDir
    refine ⟨asDir', hsame, ?_⟩
    rw [Node.at?_append_singleton] at hd
    rw [List.cons_append, resolve, if_neg hs.1, if_neg hs.2.1, if_neg (not_lt.2 hs.2.2), hd]
    exact h
  | @link links mid left here rest stop place name target hs hl _ _ ih1 ih2 =>
    rw [Node.at?_append_singleton] at hl
    have hfollowed : ((rest ++ tail).isEmpty && !follow && !asDir) = false := by
      rcases ht with rfl | ht
      · simp
      · simp [ht]
    have hmore : tail ≠ [] → rest ++ tail ≠ [] := fun h => by simp [h]
    -- first through the target of the link, then through what comes behind it
    obtain ⟨asDir', hsame1, h1⟩ := ih1 (ht.imp_right hmore) (asDir || ((rest ++ tail).isEmpty && endsInSlash target))
    obtain ⟨asDir'', hsame2, h2⟩ := ih2 ht asDir'
    refine ⟨asDir'', fun hne => ?_, ?_⟩
    · have hempty : (rest ++ tail).isEmpty = false := by simp [hne]
      rw [hsame2 hne, hsame1 (hmore hne), hempty, Bool.false_and, Bool.or_false]
    · rw [List.cons_append, resolve, if_neg hs.1, if_neg hs.2.1, if_neg (not_lt.2 hs.2.2), hl]
      simp only [hfollowed, Bool.false_eq_true, if_false]
      rw [h1, h2]

/-- an entry is found at the end of the way, a directory in any case, anything else where it is asked for as it is -/
theorem Follows.resolve_entry (h : Follows tree links here todo left place) {name : Name} (hn : IsStep name) {n : Node}
    (hd : tree.at? (place ++ [name]) = some n) {follow asDir : Bool}
    (hkind : n.isDir = true ∨ follow = false ∧ asDir = false) :
    resolve tree follow links here (todo ++ [name]) asDir = .ok (.found (place ++ [name]) n) := by
  obtain ⟨asDir', hsame, hres⟩ := h.resolve_eq (Or.inr (by simp) : follow = true ∨ [name] ≠ []) asDir
  have hchild := hd
  rw [Node.at?_append_singleton] at hchild
  rw [hres, hsame (by simp), resolve, if_neg hn.1, if_neg hn.2.1, if_neg (not_lt.2 hn.2.2), hchild]
  cases n with
  | dir entries =>
    dsimp only
    rw [resolve, hd]
  | _ =>
    obtain ⟨rfl, rfl⟩ := hkind.resolve_left (by simp [Node.isDir])
    rfl

/-! ## Looking up directories -/

variable {fs : FileSystem} {path : List Char} {rooted : Bool} {names : List Name} {entries below : List (Name × Node)}

/-- a text that can be a path -/
structure IsPathText (path : List Char) : Prop where
  ne_nil : path ≠ []
  noNul : '\x00' ∉ path
  short : (Utf8.encode path).length < pathLimit

theorem IsPathText.locate_eq (h : IsPathText path) (follow asDir : Bool) :
    fs.locate follow path asDir =
      resolve fs.tree follow maxLinks (if Path.isAbs path then [] else fs.cwd) (parts path) asDir := by
  have hnul : path.contains '\x00' = false := by simpa using h.noNul
  have hempty : path.isEmpty = false := by simpa using h.ne_nil
  rw [locate, hnul, if_neg (by simp), if_neg (not_le.2 h.short), hempty, if_neg (by simp)]

theorem isPathText_of_locate {follow asDir : Bool} {found : Place} (h : fs.locate follow path asDir = .ok found) :
    IsPathText path := by
  rw [locate] at h
  by_cases hnul : path.contains '\x00'
  · rw [if_pos hnul] at h
    simp at h
  by_cases hlong : pathLimit ≤ (Utf8.encode path).length
  · rw [if_neg hnul, if_pos hlong] at h
    simp at h
  by_cases hempty : path.isEmpty
  · rw [if_neg hnul, if_neg hlong, if_pos hempty] at h
    simp at h
  exact ⟨by simpa using hempty, by simpa using hnul, not_le.1 hlong⟩

theorem isPathText_of_lookup {follow : Bool} {n : Node} (h : fs.lookup follow path = .ok n) : IsPathText path := by
  rw [lookup] at h
  cases hloc : fs.locate follow path (endsInSlash path) with
  | ok found => exact isPathText_of_locate hloc
  | error e => simp [hloc] at h

/-- the names lead, from the top or from the working directory, to a directory with these entries -/
def LeadsTo (fs : FileSystem) (rooted : Bool) (names : List Name) (entries : List (Name × Node)) : Prop :=
  ∃ left place, Follows fs.tree maxLinks (if rooted then [] else fs.cwd) names left place ∧
    fs.tree.at? place = some (.dir entries)

theorem LeadsTo.withoutDots (h : fs.LeadsTo rooted (parts path) entries) :
    fs.LeadsTo rooted (Path.plain path) entries := by
  obtain ⟨left, place, hf, hp⟩ := h
  exact ⟨left, place, hf.withoutDots, hp⟩

/-- a directory that is found leads on to the directories in it -/
theorem LeadsTo.child (h : fs.LeadsTo rooted names entries) {name : Name} (hn : IsStep name)
    (hc : (Node.dir entries).child? name = some (.dir below)) : fs.LeadsTo rooted (names ++ [name]) below := by
  obtain ⟨left, place, hf, hp⟩ := h
  have hat : fs.tree.at? (place ++ [name]) = some (.dir below) := by
    rw [Node.at?_append_singleton, hp]
    exact hc
  exact ⟨left, place ++ [name], hf.append (.dir hn hat (.stop _ _)), hat⟩

/-- a path that is found to be a directory has names that lead there -/
theorem leadsTo_of_lookup {follow : Bool} (h : fs.lookup follow path = .ok (.dir entries)) :
    IsPathText path ∧ fs.LeadsTo (Path.isAbs path) (parts path) entries := by
  unfold lookup at h
  split at h
  · rename_i place n hloc
    rw [Except.ok.injEq] at h
    subst h
    have hp := isPathText_of_locate hloc
    rw [hp.locate_eq] at hloc
    obtain ⟨⟨left, hf⟩, hat⟩ := follows_of_resolve hloc
    exact ⟨hp, left, place, hf, hat⟩
  · exact absurd h (by simp)
  · exact absurd h (by simp)
  · exact absurd h (by simp)

/-- a path whose names lead to a directory is found to be that directory -/
theorem LeadsTo.lookup_eq (h : fs.LeadsTo (Path.isAbs path) (parts path) entries) (hp : IsPathText path) :
    fs.lookup true path = .ok (.dir entries) := by
  obtain ⟨left, place, hf, hat⟩ := h
  obtain ⟨asDir', -, hres⟩ := hf.resolve_eq (Or.inl rfl : true = true ∨ ([] : List Name) ≠ []) (endsInSlash path)
  rw [List.append_nil] at hres
  rw [lookup, hp.locate_eq, hres, resolve, hat]

/-- a path that is too long is not looked up at all -/
theorem lookup_of_long {follow : Bool} (hnul : '\x00' ∉ path) (hlong : pathLimit ≤ (Utf8.encode path).length) :
    fs.lookup follow path = .error .nameTooLong := by
  have hnul' : path.contains '\x00' = false := by simpa using hnul
  rw [lookup, locate, hnul', if_neg (by simp), if_pos hlong]

end FileSystem

end AppAudit
