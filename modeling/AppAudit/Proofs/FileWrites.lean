/-
Opening a file for writing.

A look-up that follows links ends at a directory, or at a last name that is no link and no directory (`resolve_end`). It
ends the same way in every tree that keeps directories and links, so what is written through a path is found again through
that path. Opening a path therefore does one of two things: it comes to a device, and nothing changes, or it puts an empty
file at one place, where the path leads from then on (`openTruncated_cases`).

All of this is for a working directory that exists; otherwise a path can lead to a place that cannot be filled.
-/
import Mathlib.Tactic
import AppAudit.Proofs.TreeWrites

namespace AppAudit.FileSystem

variable {tree after : Node} {fs opened : FileSystem} {path : List Char} {links left left' : Nat} {follow asDir : Bool}
  {here stop place place' todo rest : List Name} {name : Name} {found : Place}

/-! ## Single steps -/

theorem resolve_stay (rest : List Name) (asDir : Bool) :
    resolve tree follow links here (['.'] :: rest) asDir = resolve tree follow links here rest asDir := by
  rw [resolve, if_pos rfl]

theorem resolve_up (rest : List Name) (asDir : Bool) :
    resolve tree follow links here (['.', '.'] :: rest) asDir = resolve tree follow links here.dropLast rest asDir := by
  rw [resolve, if_neg (by simp), if_pos rfl]

theorem resolve_into_dir (hname : IsStep name) (hdir : tree.IsDirAt (here ++ [name])) (rest : List Name) (asDir : Bool) :
    resolve tree follow links here (name :: rest) asDir = resolve tree follow links (here ++ [name]) rest asDir := by
  obtain ⟨entries, hat⟩ := hdir
  rw [Node.at?_append_singleton] at hat
  rw [resolve, if_neg hname.1, if_neg hname.2.1, if_neg (not_lt.2 hname.2.2), hat]

theorem resolve_through_link {target : List Char} (hname : IsStep name)
    (hlink : tree.at? (here ++ [name]) = some (.link target)) (rest : List Name) (asDir : Bool) :
    resolve tree true (links + 1) here (name :: rest) asDir =
      resolve tree true links (if Path.isAbs target then [] else here) (parts target ++ rest)
        (asDir || (rest.isEmpty && endsInSlash target)) := by
  rw [Node.at?_append_singleton] at hlink
  rw [resolve, if_neg hname.1, if_neg hname.2.1, if_neg (not_lt.2 hname.2.2), hlink]
  simp only [Bool.not_true, Bool.and_false, Bool.false_and, Bool.false_eq_true, if_false]

/-- nothing stands at the last name -/
theorem resolve_vacant (hname : IsStep name) (hnone : tree.at? (here ++ [name]) = none) (asDir : Bool) :
    resolve tree follow links here [name] asDir = .ok (.vacant here name asDir) := by
  rw [Node.at?_append_singleton] at hnone
  rw [resolve, if_neg hname.1, if_neg hname.2.1, if_neg (not_lt.2 hname.2.2), hnone]
  rfl

/-- neither a directory nor a link stands at a name: a look-up goes no further -/
theorem resolve_stop {n : Node} (hname : IsStep name) (hat : tree.at? (here ++ [name]) = some n)
    (hdir : ∀ entries, n ≠ .dir entries) (hlink : ∀ target, n ≠ .link target) (rest : List Name) (asDir : Bool) :
    resolve tree follow links here (name :: rest) asDir =
      if rest.isEmpty then .ok (if asDir then .blocked else .found (here ++ [name]) n) else .error .notDirectory := by
  rw [Node.at?_append_singleton] at hat
  rw [resolve, if_neg hname.1, if_neg hname.2.1, if_neg (not_lt.2 hname.2.2), hat]
  cases n with
  | dir entries => exact absurd rfl (hdir entries)
  | link target => exact absurd rfl (hlink target)
  | _ => rfl

/-- neither a directory nor a link stands at the last name -/
theorem resolve_other {n : Node} (hname : IsStep name) (hat : tree.at? (here ++ [name]) = some n)
    (hdir : ∀ entries, n ≠ .dir entries) (hlink : ∀ target, n ≠ .link target) (asDir : Bool) :
    resolve tree follow links here [name] asDir = .ok (if asDir then .blocked else .found (here ++ [name]) n) :=
  resolve_stop hname hat hdir hlink [] asDir

/-! ## Following names again -/

theorem Follows.isDirAt (h : Follows tree links here todo left place) (hhere : tree.IsDirAt here) :
    tree.IsDirAt place := by
  induction h with
  | stop => exact hhere
  | dot _ ih => exact ih hhere
  | up _ ih => exact ih hhere.dropLast
  | dir _ hat _ ih => exact ih ⟨_, hat⟩
  | link _ _ _ _ ih1 ih2 =>
    apply ih2
    apply ih1
    split_ifs
    · exact hhere.root
    · exact hhere

/-- names lead to one directory -/
theorem Follows.unique (h : Follows tree links here todo left place) (h' : Follows tree links here todo left' place')
    (hhere : tree.IsDirAt here) : place = place' := by
  obtain ⟨asDir₁, -, hfirst⟩ := h.resolve_eq (Or.inl rfl : true = true ∨ ([] : List Name) ≠ []) false
  obtain ⟨asDir₂, -, hsecond⟩ := h'.resolve_eq (Or.inl rfl : true = true ∨ ([] : List Name) ≠ []) false
  obtain ⟨entries, hat⟩ := h.isDirAt hhere
  obtain ⟨entries', hat'⟩ := h'.isDirAt hhere
  rw [hfirst, resolve, resolve, hat, hat'] at hsecond
  injection hsecond with hsame
  injection hsame

/-- where directories and links are kept, names lead where they led before -/
theorem Follows.keep (h : Follows tree links here todo left place) (hkeeps : tree.Keeps after) :
    Follows after links here todo left place := by
  induction h with
  | stop => exact .stop _ _
  | dot _ ih => exact .dot ih
  | up _ ih => exact .up ih
  | dir hname hat _ ih =>
    obtain ⟨entries, hat'⟩ := hkeeps.dir _ ⟨_, hat⟩
    exact .dir hname hat' ih
  | link hname hat _ _ ih1 ih2 => exact .link hname (hkeeps.link _ _ hat) ih1 ih2

/-- dots can be put in as well as left out -/
theorem Follows.withDots (h : Follows tree links here (todo.filter fun n => n ≠ ['.']) left place) :
    Follows tree links here todo left place := by
  induction todo generalizing links here with
  | nil => exact h
  | cons name todo ih =>
    by_cases hdot : name = ['.']
    · subst hdot
      exact .dot (ih h)
    · rw [List.filter_cons, if_pos (by simpa using hdot)] at h
      cases h with
      | dot => exact absurd rfl hdot
      | up hrest => exact .up (ih hrest)
      | dir hname hat hrest => exact .dir hname hat (ih hrest)
      | link hname hat htarget hrest => exact .link hname hat htarget (ih hrest)

/-- names that only stay or go up lead from a directory to a directory -/
theorem follows_dots (h : ∀ n ∈ todo, n = ['.'] ∨ n = ['.', '.']) (tree : Node) (links : Nat) (here : List Name) :
    ∃ place, Follows tree links here todo links place := by
  induction todo generalizing here with
  | nil => exact ⟨here, .stop _ _⟩
  | cons name todo ih =>
    rw [List.forall_mem_cons] at h
    rcases h.1 with rfl | rfl
    · obtain ⟨place, hplace⟩ := ih h.2 here
      exact ⟨place, .dot hplace⟩
    · obtain ⟨place, hplace⟩ := ih h.2 here.dropLast
      exact ⟨place, .up hplace⟩

/-! ## Where a look-up ends -/

/-- **The end of a look-up.** A look-up that follows links ends at a directory, or at a last name that can be filled; and
it ends the same way wherever directories and links are kept. -/
theorem resolve_end (hhere : tree.IsDirAt here) (h : resolve tree true links here todo asDir = .ok found) :
    (∃ place entries, found = .found place (.dir entries)) ∨
    ∃ left stop name asDir', IsStep name ∧ tree.IsFillable stop name ∧ ∀ after, tree.Keeps after →
      resolve after true links here todo asDir = resolve after true left stop [name] asDir' := by
  -- one case per step of the look-up, as in the definition
  induction links, here, todo, asDir using resolve.induct tree true with
  | case1 links asDir here n hn =>
    rw [resolve, hn] at h
    obtain ⟨entries, hat⟩ := hhere
    rw [hat, Option.some.injEq] at hn
    cases h
    exact Or.inl ⟨here, entries, by rw [hn]⟩
  | case2 links asDir here hn =>
    rw [resolve, hn] at h
    cases h
  | case3 links here rest asDir ih =>
    simp only [resolve_stay] at h ⊢
    exact ih hhere h
  | case4 links here rest asDir hne ih =>
    simp only [resolve_up] at h ⊢
    exact ih hhere.dropLast h
  | case5 links here name rest asDir hd hu hl =>
    rw [resolve, if_neg hd, if_neg hu, if_pos hl] at h
    cases h
  | case6 links here name rest asDir hd hu hl hc he =>
    rw [List.isEmpty_iff] at he
    subst he
    have hnone : tree.at? (here ++ [name]) = none := (Node.at?_append_singleton _ _ _).trans hc
    have hfill : tree.IsFillable here name := Node.isFillable_of_none hhere hnone
    exact Or.inr ⟨links, here, name, asDir, ⟨hd, hu, not_lt.1 hl⟩, hfill, fun _ _ => rfl⟩
  | case7 links here name rest asDir hd hu hl hc he =>
    rw [resolve, if_neg hd, if_neg hu, if_neg hl, hc] at h
    simp [he] at h
  | case8 links here name rest asDir hd hu hl below hc ih =>
    have hname : IsStep name := ⟨hd, hu, not_lt.1 hl⟩
    have hdir : tree.IsDirAt (here ++ [name]) := ⟨below, (Node.at?_append_singleton _ _ _).trans hc⟩
    rw [resolve_into_dir hname hdir] at h
    refine (ih hdir h).imp_right ?_
    rintro ⟨left, stop, last, asDir', hlast, hfill, hagain⟩
    refine ⟨left, stop, last, asDir', hlast, hfill, fun after hkeeps => ?_⟩
    rw [resolve_into_dir hname (hkeeps.dir _ hdir)]
    exact hagain after hkeeps
  | case9 links here name rest asDir hd hu hl target hc hstop => simp at hstop
  | case10 here name rest asDir hd hu hl target hc hstop =>
    simp [resolve, if_neg hd, if_neg hu, if_neg hl, hc] at h
  | case11 here name rest asDir hd hu hl target hc hstop links ih =>
    have hname : IsStep name := ⟨hd, hu, not_lt.1 hl⟩
    have hlink : tree.at? (here ++ [name]) = some (.link target) := (Node.at?_append_singleton _ _ _).trans hc
    have hstart : tree.IsDirAt (if Path.isAbs target then [] else here) := by
      split_ifs
      · exact hhere.root
      · exact hhere
    rw [resolve_through_link hname hlink] at h
    refine (ih (by simpa using hstart) (by simpa using h)).imp_right ?_
    rintro ⟨left, stop, last, asDir', hlast, hfill, hagain⟩
    refine ⟨left, stop, last, asDir', hlast, hfill, fun after hkeeps => ?_⟩
    rw [resolve_through_link hname (hkeeps.link _ _ hlink)]
    simpa using hagain after hkeeps
  | case12 links here name rest asDir hd hu hl node hdir hlink hc he =>
    rw [List.isEmpty_iff] at he
    subst he
    have hat : tree.at? (here ++ [name]) = some node := (Node.at?_append_singleton _ _ _).trans hc
    have hfill : tree.IsFillable here name := by
      refine ⟨hhere, ?_, ?_⟩
      · rintro ⟨entries, hat'⟩
        rw [hat, Option.some.injEq] at hat'
        exact hdir entries hat'
      · intro target hat'
        rw [hat, Option.some.injEq] at hat'
        exact hlink target hat'
    exact Or.inr ⟨links, here, name, asDir, ⟨hd, hu, not_lt.1 hl⟩, hfill, fun _ _ => rfl⟩
  | case13 links here name rest asDir hd hu hl node hdir hlink hc he =>
    have hat : tree.at? (here ++ [name]) = some node := (Node.at?_append_singleton _ _ _).trans hc
    rw [resolve_stop ⟨hd, hu, not_lt.1 hl⟩ hat hdir hlink, if_neg he] at h
    cases h

/-! ## Opening -/

/-- the directory that a path starts from -/
def startOf (fs : FileSystem) (path : List Char) : List Name := if Path.isAbs path then [] else fs.cwd

theorem isDirAt_startOf (hcwd : fs.tree.IsDirAt fs.cwd) (path : List Char) : fs.tree.IsDirAt (fs.startOf path) := by
  unfold startOf
  split_ifs
  · exact hcwd.root
  · exact hcwd

/-- what is written at the end of a path -/
structure OpensAt (fs : FileSystem) (path : List Char) (directory : List Name) (name : Name) : Prop where
  fillable : fs.tree.IsFillable directory name
  /-- nothing stood there, or a file -/
  before : ∀ n, fs.tree.at? (directory ++ [name]) = some n → ∃ bytes, n = .file bytes
  /-- the path leads there wherever directories and links are kept -/
  again : ∀ after : FileSystem, after.cwd = fs.cwd → fs.tree.Keeps after.tree → ∀ bytes,
    after.tree.at? (directory ++ [name]) = some (.file bytes) →
    after.locate true path false = .ok (.found (directory ++ [name]) (.file bytes))

/-- **Opening for writing.** An open device is left alone; an open file is an empty one, and it is where the path leads. -/
theorem openTruncated_cases (hcwd : fs.tree.IsDirAt fs.cwd) {target : Target}
    (h : fs.openTruncated path = .ok (opened, target)) :
    (∃ d place, target = .device d ∧ opened = fs ∧ fs.locate true path false = .ok (.found place (.device d))) ∨
    ∃ directory name, target = .regular (directory ++ [name]) ∧ opened = fs.set (directory ++ [name]) (.file []) ∧
      fs.OpensAt path directory name := by
  unfold openTruncated at h
  dsimp only at h
  cases hlocate : fs.locate true path false with
  | error e =>
    rw [hlocate] at h
    cases h
  | ok found =>
    have htext := isPathText_of_locate hlocate
    have hresolve := hlocate
    rw [htext.locate_eq] at hresolve
    have hstart := isDirAt_startOf hcwd path
    unfold startOf at hstart
    rw [hlocate] at h
    dsimp only at h
    split_ifs at h with hslash
    rcases resolve_end hstart hresolve with ⟨place, entries, rfl⟩ | ⟨left, stop, name, asDir, hname, hfill, hagain⟩
    · cases h
    · rw [hagain fs.tree (.refl _)] at hresolve
      have hwritten (hasDir : asDir = false) (after : FileSystem) (hsame : after.cwd = fs.cwd)
          (hkeeps : fs.tree.Keeps after.tree) (bytes : List UInt8)
          (hat : after.tree.at? (stop ++ [name]) = some (.file bytes)) :
          after.locate true path false = .ok (.found (stop ++ [name]) (.file bytes)) := by
        rw [htext.locate_eq, hsame, hagain after.tree hkeeps, resolve_other hname hat (by simp) (by simp), hasDir]
        rfl
      cases hat : fs.tree.at? (stop ++ [name]) with
      | none =>
        rw [resolve_vacant hname hat, Except.ok.injEq] at hresolve
        subst hresolve
        cases asDir with
        | true => cases h
        | false =>
          cases h
          exact Or.inr ⟨stop, name, rfl, rfl, hfill, by simp [hat], hwritten rfl⟩
      | some n =>
        have hdir : ∀ entries, n ≠ .dir entries := by
          rintro entries rfl
          exact hfill.noDir ⟨entries, hat⟩
        have hlink : ∀ target, n ≠ .link target := by
          rintro target rfl
          exact hfill.noLink target hat
        rw [resolve_other hname hat hdir hlink, Except.ok.injEq] at hresolve
        subst hresolve
        cases asDir with
        | true => cases h
        | false =>
          cases n with
          | dir entries => exact absurd rfl (hdir entries)
          | link target => exact absurd rfl (hlink target)
          | device d =>
            cases h
            exact Or.inl ⟨d, stop ++ [name], rfl, rfl, rfl⟩
          | file bytes =>
            cases h
            refine Or.inr ⟨stop, name, rfl, rfl, hfill, ?_, hwritten rfl⟩
            intro m hm
            rw [hat, Option.some.injEq] at hm
            exact ⟨bytes, hm.symm⟩

end AppAudit.FileSystem
