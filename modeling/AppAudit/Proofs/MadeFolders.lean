/-
Making a folder with its missing parents.

The parents are made first, from the last one that is there on, and then the folder itself. A new folder is empty, so if a
parent had to be made then the way on is a single new name each time, and all that is new lies on the way to the folder.
A `..` behind a new name would lead out of it again; where every `..` is in front (`Path.Forward`) this cannot happen.

Main result: `mkdirAll_cases`. Either the folder is there already, or it is new (`MadeFolder`): it is empty, the path leads
to it, and nothing else is different except for new directories above it.
-/
import Mathlib.Tactic
import AppAudit.Proofs.CleanPaths
import AppAudit.Proofs.FileWrites

namespace AppAudit.FileSystem

variable {fs middle made : FileSystem} {path parent : List Char} {links left : Nat} {here todo place directory : List Name}
  {name last : Name} {tree : Node} {asDir : Bool}

/-! ## The parent of a path -/

theorem trimSlashes_concat_slash (s : List Char) : Path.trimSlashes (s ++ ['/']) = Path.trimSlashes s := by
  simp [Path.trimSlashes]

theorem trimSlashes_concat {c : Char} (hc : c ≠ '/') (s : List Char) : Path.trimSlashes (s ++ [c]) = s ++ [c] := by
  simp [Path.trimSlashes, hc]

theorem parts_trimSlashes (s : List Char) : parts (Path.trimSlashes s) = parts s := by
  induction s using List.reverseRecOn with
  | nil => rfl
  | append_singleton s c ih =>
    by_cases hc : c = '/'
    · subst hc
      rw [trimSlashes_concat_slash, ih, Path.parts_append_slash, show parts [] = [] from rfl, List.append_nil]
    · rw [trimSlashes_concat hc]

theorem trimSlashes_getLast (s : List Char) : (Path.trimSlashes s).getLast? ≠ some '/' := by
  induction s using List.reverseRecOn with
  | nil => exact nofun
  | append_singleton s c ih =>
    by_cases hc : c = '/'
    · subst hc
      rwa [trimSlashes_concat_slash]
    · rw [trimSlashes_concat hc, List.getLast?_concat]
      simpa using hc

/-- a path has one more part than its parent -/
theorem parts_parentText (h : parentText path ≠ []) :
    Path.isAbs (parentText path) = Path.isAbs path ∧ ∃ last, parts path = parts (parentText path) ++ [last] := by
  have hsplit := Path.upToSlash_append_lastPart (Path.trimSlashes path)
  rcases Path.upToSlash_cases (Path.trimSlashes path) with hnone | ⟨a, ha⟩
  · rw [hnone, List.nil_append] at hsplit
    exact absurd (by rw [parentText, hsplit]; simp) h
  · rw [ha, List.append_assoc, List.singleton_append] at hsplit
    have hparent : parentText path = a := by
      rw [parentText]
      conv_lhs => rw [← hsplit]
      have hlength (last : List Char) : (a ++ '/' :: last).length - last.length - 1 = a.length := by
        rw [List.length_append, List.length_cons]
        omega
      rw [Path.lastPart_append_slash a (Path.noSlash_lastPart _), hlength, List.take_left]
    have hlast : Path.lastPart (Path.trimSlashes path) ≠ [] := by
      intro hnil
      rw [hnil] at hsplit
      exact trimSlashes_getLast path (List.getLast?_eq_some_iff.2 ⟨a, hsplit.symm⟩)
    have hparts := Path.parts_of_lastPart hlast
    rw [ha, Path.parts_append_slash, show parts [] = [] from rfl, List.append_nil, parts_trimSlashes] at hparts
    refine ⟨?_, _, hparent ▸ hparts⟩
    have hbegins : parentText path <+: path := by
      have htrimmed : Path.trimSlashes path <+: path := by
        rw [Path.trimSlashes, ← List.reverse_suffix, List.reverse_reverse]
        exact List.dropWhile_suffix _
      exact (List.take_prefix _ _).trans htrimmed
    obtain ⟨rest, hrest⟩ := hbegins
    conv_rhs => rw [← hrest]
    exact (Path.isAbs_append h rest).symm

/-! ## Making one directory -/

/-- where the last name is missing, the names before it lead to the directory that the new one is made in -/
theorem follows_of_vacant {wanted : Bool}
    (h : resolve tree false links here todo wanted = .ok (.vacant directory name asDir)) (hwanted : wanted = false) :
    ∃ before left, todo = before ++ [name] ∧ IsStep name ∧ Follows tree links here before left directory ∧
      tree.at? (directory ++ [name]) = none := by
  -- one case per step of the look-up; a link at the end is not followed, as no directory is asked for
  induction links, here, todo, wanted using resolve.induct tree false with
  | case1 links wanted here n hn =>
    rw [resolve, hn] at h
    cases h
  | case2 links wanted here hn =>
    rw [resolve, hn] at h
    cases h
  | case3 links here rest wanted ih =>
    rw [resolve_stay] at h
    obtain ⟨before, left, rfl, hname, hfollows, hnone⟩ := ih h hwanted
    exact ⟨['.'] :: before, left, rfl, hname, .dot hfollows, hnone⟩
  | case4 links here rest wanted hne ih =>
    rw [resolve_up] at h
    obtain ⟨before, left, rfl, hname, hfollows, hnone⟩ := ih h hwanted
    exact ⟨['.', '.'] :: before, left, rfl, hname, .up hfollows, hnone⟩
  | case5 links here first rest wanted hd hu hl =>
    rw [resolve, if_neg hd, if_neg hu, if_pos hl] at h
    cases h
  | case6 links here first rest wanted hd hu hl hc he =>
    rw [List.isEmpty_iff] at he
    subst he
    have hnone : tree.at? (here ++ [first]) = none := (Node.at?_append_singleton _ _ _).trans hc
    rw [resolve_vacant ⟨hd, hu, not_lt.1 hl⟩ hnone] at h
    cases h
    exact ⟨[], links, rfl, ⟨hd, hu, not_lt.1 hl⟩, .stop _ _, hnone⟩
  | case7 links here first rest wanted hd hu hl hc he =>
    rw [resolve, if_neg hd, if_neg hu, if_neg hl, hc] at h
    simp [he] at h
  | case8 links here first rest wanted hd hu hl below hc ih =>
    have hfirst : IsStep first := ⟨hd, hu, not_lt.1 hl⟩
    have hat : tree.at? (here ++ [first]) = some (.dir below) := (Node.at?_append_singleton _ _ _).trans hc
    rw [resolve_into_dir hfirst ⟨below, hat⟩] at h
    obtain ⟨before, left, rfl, hname, hfollows, hnone⟩ := ih h hwanted
    exact ⟨first :: before, left, rfl, hname, .dir hfirst hat hfollows, hnone⟩
  | case9 links here first rest wanted hd hu hl target hc hstop =>
    rw [resolve, if_neg hd, if_neg hu, if_neg hl, hc] at h
    dsimp only at h
    rw [if_pos hstop] at h
    cases h
  | case10 here first rest wanted hd hu hl target hc hstop =>
    rw [resolve, if_neg hd, if_neg hu, if_neg hl, hc] at h
    dsimp only at h
    rw [if_neg hstop] at h
    cases h
  | case11 here first rest wanted hd hu hl target hc hstop links ih =>
    subst hwanted
    have hrest : rest ≠ [] := by
      rintro rfl
      exact hstop rfl
    have hempty : rest.isEmpty = false := by simpa using hrest
    rw [resolve, if_neg hd, if_neg hu, if_neg hl, hc] at h
    simp only [hempty, Bool.false_and, Bool.or_false, Bool.false_eq_true, if_false] at h
    obtain ⟨before, left, htodo, hname, hfollows, hnone⟩ := ih (by simpa [hempty] using h) (by simp [hempty])
    -- the missing name is behind the link, not in its target
    obtain ⟨front, rfl⟩ : ∃ front, rest = front ++ [name] := by
      obtain ⟨front, last, rfl⟩ := (List.eq_nil_or_concat' rest).resolve_left hrest
      rw [← List.append_assoc] at htodo
      have hlast := List.singleton_inj.1 (List.append_inj' htodo rfl).2
      exact ⟨front, by rw [hlast]⟩
    rw [← List.append_assoc] at htodo
    have hfront := (List.append_inj' htodo rfl).1
    rw [← hfront] at hfollows
    obtain ⟨mid, stop, htarget, hbehind⟩ := hfollows.split
    have hlink : tree.at? (here ++ [first]) = some (.link target) := (Node.at?_append_singleton _ _ _).trans hc
    refine ⟨first :: front, left, rfl, hname, .link ⟨hd, hu, not_lt.1 hl⟩ hlink ?_ hbehind, hnone⟩
    simpa using htarget
  | case12 links here first rest wanted hd hu hl node hdir hlink hc he =>
    have hat : tree.at? (here ++ [first]) = some node := (Node.at?_append_singleton _ _ _).trans hc
    rw [resolve_stop ⟨hd, hu, not_lt.1 hl⟩ hat hdir hlink, if_pos he] at h
    subst hwanted
    cases h
  | case13 links here first rest wanted hd hu hl node hdir hlink hc he =>
    have hat : tree.at? (here ++ [first]) = some node := (Node.at?_append_singleton _ _ _).trans hc
    rw [resolve_stop ⟨hd, hu, not_lt.1 hl⟩ hat hdir hlink, if_neg he] at h
    cases h

/-! ## New folders -/

/-- a folder that is new and empty, where the path leads, and nothing else is different but new directories above it -/
structure MadeFolder (fs made : FileSystem) (path : List Char) (place : List Name) : Prop where
  cwd : made.cwd = fs.cwd
  writes : fs.tree.WritesOnly made.tree place
  keeps : fs.tree.Keeps made.tree
  new : fs.tree.at? place = none
  empty : made.tree.at? place = some (.dir [])
  leads : ∃ left, Follows made.tree maxLinks (fs.startOf path) (parts path) left place

/-- nothing has been made, or the parent of the path has -/
def ParentMade (fs middle : FileSystem) (path : List Char) : Prop :=
  middle = fs ∨ ∃ parent last place, parts path = parts parent ++ [last] ∧ Path.isAbs parent = Path.isAbs path ∧
    MadeFolder fs middle parent place

theorem startOf_eq (hcwd : made.cwd = fs.cwd) (habs : Path.isAbs parent = Path.isAbs path) :
    made.startOf parent = fs.startOf path := by
  unfold startOf
  rw [hcwd, habs]

theorem ParentMade.cwd (h : ParentMade fs middle path) : middle.cwd = fs.cwd := by
  rcases h with rfl | ⟨_, _, _, _, _, hmade⟩
  · rfl
  · exact hmade.cwd

theorem ParentMade.keeps (h : ParentMade fs middle path) : fs.tree.Keeps middle.tree := by
  rcases h with rfl | ⟨_, _, _, _, _, hmade⟩
  · exact .refl _
  · exact hmade.keeps

theorem at?_below_empty (h : tree.at? directory = some (.dir [])) (name : Name) : tree.at? (directory ++ [name]) = none := by
  rw [Node.at?_append_singleton, h]
  rfl

/-- the names of a parent that has been made lead to it -/
theorem MadeFolder.eq_of_follows (hmade : MadeFolder fs made parent place) (habs : Path.isAbs parent = Path.isAbs path)
    (hhere : made.tree.IsDirAt (fs.startOf path))
    (h : Follows made.tree maxLinks (fs.startOf path) (parts parent) left directory) : directory = place := by
  obtain ⟨left', hleads⟩ := hmade.leads
  rw [startOf_eq rfl habs] at hleads
  exact h.unique hleads hhere

/-- where the names before the last part lead, nothing but directories above has been made so far -/
theorem ParentMade.writes (hparent : ParentMade fs middle path) (hhere : middle.tree.IsDirAt (fs.startOf path))
    {front : List Name} (hparts : parts path = front ++ [name])
    (h : Follows middle.tree maxLinks (fs.startOf path) front left directory)
    (hnone : middle.tree.at? (directory ++ [name]) = none) :
    fs.tree.WritesOnly middle.tree (directory ++ [name]) ∧ fs.tree.at? (directory ++ [name]) = none := by
  rcases hparent with rfl | ⟨parent, last, place, hlast, habs, hmade⟩
  · exact ⟨.refl _ _, hnone⟩
  · -- the names before the last part are those of the parent
    have hfront : front = parts parent := (List.append_inj' (hparts.symm.trans hlast) rfl).1
    rw [hfront] at h
    obtain rfl := hmade.eq_of_follows habs hhere h
    refine ⟨hmade.writes.below ⟨[], hmade.empty⟩ (by simp [hmade.new]) [name], ?_⟩
    rw [Node.at?_append, hmade.new]
    rfl

/-- the folder itself is made, behind its parent -/
theorem madeFolder_of_mkdir (hcwd : fs.tree.IsDirAt fs.cwd) (hparent : ParentMade fs middle path)
    (h : middle.mkdir path = .ok made) : ∃ place, MadeFolder fs made path place := by
  have hhere : middle.tree.IsDirAt (fs.startOf path) := hparent.keeps.dir _ (isDirAt_startOf hcwd path)
  unfold mkdir at h
  cases hlocate : middle.locate false path false with
  | error e =>
    rw [hlocate] at h
    cases h
  | ok found =>
    rw [hlocate] at h
    cases found with
    | found place n => cases h
    | blocked => cases h
    | vacant directory name asDir =>
      cases h
      rw [(isPathText_of_locate hlocate).locate_eq] at hlocate
      obtain ⟨front, left, hparts, hname, hfollows, hnone⟩ := follows_of_vacant hlocate rfl
      have hstart : (if Path.isAbs path then [] else middle.cwd) = fs.startOf path := startOf_eq hparent.cwd rfl
      rw [hstart] at hfollows
      have hfill : middle.tree.IsFillable directory name := Node.isFillable_of_none (hfollows.isDirAt hhere) hnone
      have hput := Node.keeps_put hfill (.dir [])
      have hempty : (middle.set (directory ++ [name]) (.dir [])).tree.at? (directory ++ [name]) = some (.dir []) :=
        Node.at?_put_place hfill.dir name (.dir [])
      have hwrites := Node.writesOnly_put hfill fun _ hrest => Node.at?_emptyDir hrest
      have hleads : Follows (middle.set (directory ++ [name]) (.dir [])).tree maxLinks (fs.startOf path) (parts path) left
          (directory ++ [name]) := by
        rw [hparts]
        exact (hfollows.keep hput).append (.dir hname hempty (.stop _ _))
      obtain ⟨hbefore, hnew⟩ := hparent.writes hhere hparts hfollows hnone
      exact ⟨directory ++ [name], hparent.cwd, hbefore.trans hwrites, hparent.keeps.trans hput, hnew, hempty, left, hleads⟩

/-- the folder has been made with its parent: its last part is a dot -/
theorem madeFolder_of_exists (hcwd : fs.tree.IsDirAt fs.cwd) (hforward : Path.Forward path)
    (hparent : ParentMade fs middle path) (hmissing : ∀ entries, fs.lookup true path ≠ .ok (.dir entries))
    {entries : List (Name × Node)} (h : middle.lookup false path = .ok (.dir entries)) :
    ∃ place, MadeFolder fs middle path place := by
  obtain ⟨htext, left, place, hfollows, hat⟩ := leadsTo_of_lookup h
  rcases hparent with rfl | ⟨parent, last, directory, hlast, habs, hmade⟩
  · exact absurd (LeadsTo.lookup_eq ⟨left, place, hfollows, hat⟩ htext) (hmissing entries)
  · have hstart : (if Path.isAbs path then [] else middle.cwd) = fs.startOf path := startOf_eq hmade.cwd rfl
    have hhere : middle.tree.IsDirAt (fs.startOf path) := hmade.keeps.dir _ (isDirAt_startOf hcwd path)
    rw [hstart, hlast] at hfollows
    obtain ⟨mid, stop, hfront, hend⟩ := hfollows.split
    obtain rfl := hmade.eq_of_follows habs hhere hfront
    cases hend with
    | dot hstop =>
      cases hstop
      refine ⟨_, hmade.cwd, hmade.writes, hmade.keeps, hmade.new, hmade.empty, left, ?_⟩
      rw [hlast]
      exact hfront.append (.dot (.stop _ _))
    | up =>
      -- then the parent would be nothing but steps up, and could not be new
      have hdots : ∀ n ∈ parts parent, n = ['.'] ∨ n = ['.', '.'] := by
        rw [Path.Forward, Path.plain_eq_append hlast] at hforward
        intro n hn
        by_cases hdot : n = ['.']
        · exact Or.inl hdot
        · exact Or.inr (hforward.eq_dots n (List.mem_filter.2 ⟨hn, by simpa using hdot⟩))
      obtain ⟨other, hother⟩ := follows_dots hdots fs.tree maxLinks (fs.startOf path)
      obtain rfl := hmade.eq_of_follows habs hhere (hother.keep hmade.keeps)
      obtain ⟨old, hold⟩ := hother.isDirAt (isDirAt_startOf hcwd path)
      rw [hmade.new] at hold
      cases hold
    | dir _ hat' =>
      rw [at?_below_empty hmade.empty] at hat'
      cases hat'
    | link _ hat' =>
      rw [at?_below_empty hmade.empty] at hat'
      cases hat'

/-- **A folder with its parents.** It is there already, or it is new, and nothing else is different but new directories
above it. -/
theorem mkdirAll_cases (hcwd : fs.tree.IsDirAt fs.cwd) (hforward : Path.Forward path) (h : fs.mkdirAll path = .ok made) :
    made = fs ∧ (∃ entries, fs.lookup true path = .ok (.dir entries)) ∨ ∃ place, MadeFolder fs made path place := by
  induction hlength : path.length using Nat.strong_induction_on generalizing path made with
  | _ length ih =>
    subst hlength
    rw [mkdirAll] at h
    unfold stat at h
    cases hlookup : fs.lookup true path with
    | ok n =>
      rw [hlookup] at h
      dsimp only [Except.mapError] at h
      cases n with
      | dir entries =>
        cases h
        exact Or.inl ⟨rfl, entries, rfl⟩
      | _ => cases h
    | error cause =>
      right
      rw [hlookup] at h
      dsimp only [Except.mapError] at h
      have hmissing : ∀ entries, fs.lookup true path ≠ .ok (.dir entries) := by simp [hlookup]
      split at h
      · cases h
      · rename_i middle hmiddle
        have hparent : ParentMade fs middle path := by
          split_ifs at hmiddle with hnone
          · cases hmiddle
            exact Or.inl rfl
          · obtain ⟨habs, last, hlast⟩ := parts_parentText hnone
            rcases ih _ (parentText_length_lt path hnone) (hforward.above habs hlast) hmiddle rfl with
              ⟨rfl, -⟩ | ⟨place, hmade⟩
            · exact Or.inl rfl
            · exact Or.inr ⟨_, last, place, hlast, habs, hmade⟩
        split at h
        · rename_i made' hmkdir
          cases h
          exact madeFolder_of_mkdir hcwd hparent hmkdir
        · split at h
          · rename_i entries hlstat
            cases h
            have hexists : made.lookup false path = .ok (.dir entries) := by
              unfold lstat at hlstat
              cases hlookup' : made.lookup false path with
              | ok n =>
                rw [hlookup'] at hlstat
                cases hlstat
                rfl
              | error e =>
                rw [hlookup'] at hlstat
                cases hlstat
            exact madeFolder_of_exists hcwd hforward hparent hmissing hexists
          · cases h

end AppAudit.FileSystem
