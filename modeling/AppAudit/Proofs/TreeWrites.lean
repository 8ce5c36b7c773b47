/-
What a write changes in a tree.

A node is put at a place whose directory exists (`Node.put`). It stands there afterwards, and everything that is neither
there nor below stays as it is, except that the directories above hold other entries (`Node.at?_put_apart`). Nothing needs
to be known about the order of entries or whether their names are unique, because the first entry with a name counts.

Two relations between trees follow from this and are kept by one write after another: directories and links stay
(`Node.Keeps`), so that paths lead where they led before, and nothing but one place and new directories above it is
different (`Node.WritesOnly`).
-/
import Mathlib.Tactic
import AppAudit.Proofs.Resolution

namespace AppAudit.Node

variable {tree before middle after n m : Node} {name other : Name} {place directory rest a b : List Name}
  {entries : List (Name × Node)}

/-! ## Directories -/

/-- a directory stands at the place -/
def IsDirAt (tree : Node) (place : List Name) : Prop := ∃ entries, tree.at? place = some (.dir entries)

theorem isDirAt_iff : tree.IsDirAt place ↔ ∃ n, tree.at? place = some n ∧ n.isDir = true := by
  constructor
  · rintro ⟨entries, h⟩
    exact ⟨.dir entries, h, rfl⟩
  · rintro ⟨n, h, hdir⟩
    cases n with
    | dir entries => exact ⟨entries, h⟩
    | _ => cases hdir

theorem isDir_of_child? (h : n.child? name = some m) : n.isDir = true := by
  cases n with
  | dir entries => rfl
  | _ => simp [child?] at h

/-- what has something below it is a directory -/
theorem isDirAt_of_append (h : tree.at? (a ++ b) = some n) (hb : b ≠ []) : tree.IsDirAt a := by
  obtain ⟨name, b, rfl⟩ := List.exists_cons_of_ne_nil hb
  rw [at?_append, Option.bind_eq_some_iff] at h
  obtain ⟨m, hm, hbelow⟩ := h
  rw [at?_cons, Option.bind_eq_some_iff] at hbelow
  obtain ⟨c, hc, -⟩ := hbelow
  exact isDirAt_iff.2 ⟨m, hm, isDir_of_child? hc⟩

theorem IsDirAt.above (h : tree.IsDirAt (a ++ b)) : tree.IsDirAt a := by
  by_cases hb : b = []
  · rwa [hb, List.append_nil] at h
  · obtain ⟨entries, h⟩ := h
    exact isDirAt_of_append h hb

theorem IsDirAt.root (h : tree.IsDirAt place) : tree.IsDirAt [] := by
  rw [← List.nil_append place] at h
  exact h.above

theorem IsDirAt.dropLast (h : tree.IsDirAt place) : tree.IsDirAt place.dropLast := by
  obtain ⟨rest, hrest⟩ := List.dropLast_prefix place
  rw [← hrest] at h
  exact h.above

/-- below what is no directory there is nothing -/
theorem at?_append_eq_none (h : ¬ tree.IsDirAt a) (hb : b ≠ []) : tree.at? (a ++ b) = none := by
  rw [Option.eq_none_iff_forall_not_mem]
  intro n hn
  exact h (isDirAt_of_append hn hb)

/-! ## Entries -/

theorem child?_putEntry_self (name : Name) (n : Node) (entries : List (Name × Node)) :
    (dir (putEntry name n entries)).child? name = some n := by
  induction entries with
  | nil => simp [putEntry, child?]
  | cons e entries ih =>
    obtain ⟨first, m⟩ := e
    rw [putEntry]
    split_ifs with hsame hless
    · simp [child?]
    · simp [child?]
    · rw [child?, List.find?_cons_of_neg (by simpa using Ne.symm hsame)]
      exact ih

theorem child?_putEntry_other (h : other ≠ name) (n : Node) (entries : List (Name × Node)) :
    (dir (putEntry name n entries)).child? other = (dir entries).child? other := by
  induction entries with
  | nil => simp [putEntry, child?, Ne.symm h]
  | cons e entries ih =>
    obtain ⟨first, m⟩ := e
    rw [putEntry]
    split_ifs with hsame hless
    · subst hsame
      simp [child?, Ne.symm h]
    · rw [child?, child?, List.find?_cons_of_neg (by simpa using Ne.symm h)]
    · by_cases hfirst : first = other
      · simp [child?, hfirst]
      · rw [child?, child?, List.find?_cons_of_neg (by simpa using hfirst), List.find?_cons_of_neg (by simpa using hfirst)]
        exact ih

/-! ## Putting a node at a place -/

/-- the same at a place, but a directory may have other entries -/
inductive Alike : Option Node → Option Node → Prop where
  | same (found : Option Node) : Alike found found
  | dir (entries entries' : List (Name × Node)) : Alike (some (dir entries)) (some (dir entries'))

/-- one step of putting: the directory is taken apart at the first name of the place -/
theorem put_step (hdir : (dir entries).IsDirAt (name :: directory)) (last : Name) (n : Node) :
    ∃ below, (dir entries).child? name = some below ∧ below.IsDirAt directory ∧
      (dir entries).put (name :: directory ++ [last]) n =
        dir (putEntry name (below.put (directory ++ [last]) n) entries) := by
  obtain ⟨found, hfound⟩ := hdir
  rw [at?_cons, Option.bind_eq_some_iff] at hfound
  obtain ⟨below, hbelow, hat⟩ := hfound
  refine ⟨below, hbelow, ⟨found, hat⟩, ?_⟩
  cases directory <;> simp only [List.cons_append, List.nil_append, put, hbelow]

theorem exists_dir_of_isDirAt (h : tree.IsDirAt place) : ∃ entries, tree = dir entries := by
  obtain ⟨entries, hroot⟩ := h.root
  rw [at?_nil, Option.some.injEq] at hroot
  exact ⟨entries, hroot⟩

/-- at the place and below there is what was put there -/
theorem at?_put_self (h : tree.IsDirAt directory) (name : Name) (n : Node) (rest : List Name) :
    (tree.put (directory ++ [name]) n).at? (directory ++ [name] ++ rest) = n.at? rest := by
  induction directory generalizing tree with
  | nil =>
    obtain ⟨entries, rfl⟩ := exists_dir_of_isDirAt h
    rw [List.nil_append, put, List.singleton_append, at?_cons, child?_putEntry_self, Option.bind_some]
  | cons first directory ih =>
    obtain ⟨entries, rfl⟩ := exists_dir_of_isDirAt h
    obtain ⟨below, -, hbelow, hput⟩ := put_step h name n
    rw [hput, List.cons_append, List.cons_append, at?_cons, child?_putEntry_self, Option.bind_some]
    exact ih hbelow

theorem at?_put_place (h : tree.IsDirAt directory) (name : Name) (n : Node) :
    (tree.put (directory ++ [name]) n).at? (directory ++ [name]) = some n := by
  have hself := at?_put_self h name n []
  rwa [List.append_nil, at?_nil] at hself

/-- **Everything else stays**, except for the entries of the directories above. -/
theorem at?_put_apart (h : tree.IsDirAt directory) (n : Node) (hapart : ¬ directory ++ [name] <+: place) :
    Alike (tree.at? place) ((tree.put (directory ++ [name]) n).at? place) := by
  induction directory generalizing tree place with
  | nil =>
    obtain ⟨entries, rfl⟩ := exists_dir_of_isDirAt h
    rw [List.nil_append, put]
    cases place with
    | nil =>
      rw [at?_nil, at?_nil]
      exact .dir _ _
    | cons first place =>
      have hfirst : first ≠ name := by
        rintro rfl
        exact hapart (List.cons_prefix_cons.2 ⟨rfl, List.nil_prefix⟩)
      rw [at?_cons, at?_cons, child?_putEntry_other hfirst]
      exact .same _
  | cons first directory ih =>
    obtain ⟨entries, rfl⟩ := exists_dir_of_isDirAt h
    obtain ⟨below, hchild, hbelow, hput⟩ := put_step h name n
    rw [hput]
    cases place with
    | nil =>
      rw [at?_nil, at?_nil]
      exact .dir _ _
    | cons next place =>
      by_cases hnext : next = first
      · subst hnext
        rw [at?_cons, at?_cons, child?_putEntry_self, hchild, Option.bind_some, Option.bind_some]
        apply ih hbelow
        intro hlater
        exact hapart (List.cons_prefix_cons.2 ⟨rfl, hlater⟩)
      · rw [at?_cons, at?_cons, child?_putEntry_other hnext]
        exact .same _

/-! ## Directories and links stay -/

/-- directories and links are where they were -/
structure Keeps (before after : Node) : Prop where
  dir : ∀ place, before.IsDirAt place → after.IsDirAt place
  link : ∀ place target, before.at? place = some (.link target) → after.at? place = some (.link target)

theorem Keeps.refl (tree : Node) : tree.Keeps tree := ⟨fun _ h => h, fun _ _ h => h⟩

theorem Keeps.trans (h : before.Keeps middle) (h' : middle.Keeps after) : before.Keeps after :=
  ⟨fun place hdir => h'.dir place (h.dir place hdir), fun place target hlink => h'.link place target (h.link place target hlink)⟩

/-- a place that can be filled: its directory exists, and neither a directory nor a link stands there -/
structure IsFillable (tree : Node) (directory : List Name) (name : Name) : Prop where
  dir : tree.IsDirAt directory
  noDir : ¬ tree.IsDirAt (directory ++ [name])
  noLink : ∀ target, tree.at? (directory ++ [name]) ≠ some (.link target)

/-- a place where nothing stands -/
theorem isFillable_of_none (hdir : tree.IsDirAt directory) (hnone : tree.at? (directory ++ [name]) = none) :
    tree.IsFillable directory name := by
  refine ⟨hdir, ?_, fun target => by simp [hnone]⟩
  rintro ⟨entries, hat⟩
  rw [hnone] at hat
  cases hat

/-- what stands somewhere stands apart from a place that can be filled, or there -/
theorem IsFillable.apart (h : tree.IsFillable directory name) (hat : tree.at? place = some m)
    (hne : place ≠ directory ++ [name]) : ¬ directory ++ [name] <+: place := by
  rintro ⟨rest, rfl⟩
  have hrest : rest ≠ [] := by
    rintro rfl
    exact hne (List.append_nil _)
  rw [at?_append_eq_none h.noDir hrest] at hat
  cases hat

theorem keeps_put (h : tree.IsFillable directory name) (n : Node) : tree.Keeps (tree.put (directory ++ [name]) n) := by
  constructor
  · rintro place ⟨entries, hat⟩
    have hne : place ≠ directory ++ [name] := by
      rintro rfl
      exact h.noDir ⟨entries, hat⟩
    have halike := at?_put_apart h.dir n (h.apart hat hne)
    rw [hat] at halike
    cases hafter : (tree.put (directory ++ [name]) n).at? place with
    | none =>
      rw [hafter] at halike
      cases halike
    | some m =>
      rw [hafter] at halike
      cases halike with
      | same => exact ⟨entries, hafter⟩
      | dir _ entries' => exact ⟨entries', hafter⟩
  · intro place target hat
    have hne : place ≠ directory ++ [name] := by
      rintro rfl
      exact h.noLink target hat
    have halike := at?_put_apart h.dir n (h.apart hat hne)
    rw [hat] at halike
    generalize hafter : (tree.put (directory ++ [name]) n).at? place = found at halike
    cases halike
    rfl

/-- a file can be written again -/
theorem IsFillable.put (h : tree.IsFillable directory name) (bytes : List UInt8) :
    (tree.put (directory ++ [name]) (.file bytes)).IsFillable directory name := by
  have hat := at?_put_place h.dir name (.file bytes)
  refine ⟨(keeps_put h _).dir _ h.dir, ?_, fun target => by simp [hat]⟩
  rintro ⟨entries, hdir⟩
  rw [hat] at hdir
  cases hdir

/-! ## Only one place changes -/

/-- nothing but a place is different, and new directories above it: files, devices and links elsewhere are the same,
directories are still there, and what is new is at the place or a directory above it -/
structure WritesOnly (before after : Node) (place : List Name) : Prop where
  kept : ∀ other n, before.at? other = some n → n.isDir = false → other ≠ place → after.at? other = some n
  dirs : ∀ other, before.IsDirAt other → after.IsDirAt other
  made : ∀ other n, before.at? other = none → after.at? other = some n →
    other = place ∨ n.isDir = true ∧ other <+: place

theorem WritesOnly.refl (tree : Node) (place : List Name) : tree.WritesOnly tree place := by
  refine ⟨fun _ _ h _ _ => h, fun _ h => h, fun _ _ hnone hsome => ?_⟩
  rw [hnone] at hsome
  cases hsome

/-- one write after another at the same place -/
theorem WritesOnly.trans (h : before.WritesOnly middle place) (h' : middle.WritesOnly after place) :
    before.WritesOnly after place := by
  refine ⟨fun other n hat hn hne => ?_, fun other hdir => h'.dirs other (h.dirs other hdir), fun other n hnone hsome => ?_⟩
  · exact h'.kept other n (h.kept other n hat hn hne) hn hne
  · cases hmiddle : middle.at? other with
    | none => exact h'.made other n hmiddle hsome
    | some m =>
      rcases h.made other m hnone hmiddle with rfl | ⟨hdir, habove⟩
      · exact Or.inl rfl
      · -- the directory was made on the way and is still one
        obtain ⟨found, hfound, hisDir⟩ := isDirAt_iff.1 (h'.dirs other (isDirAt_iff.2 ⟨m, hmiddle, hdir⟩))
        rw [hfound, Option.some.injEq] at hsome
        exact Or.inr ⟨hsome ▸ hisDir, habove⟩

/-- one write is one more directory on the way to a place below -/
theorem WritesOnly.below (h : before.WritesOnly after directory) (hdir : after.IsDirAt directory)
    (hnone : ∀ n, before.at? directory = some n → n.isDir = true) (rest : List Name) :
    before.WritesOnly after (directory ++ rest) := by
  refine ⟨fun other n hat hn hne => ?_, h.dirs, fun other n hother hsome => ?_⟩
  · by_cases hother : other = directory
    · subst hother
      rw [hnone n hat] at hn
      cases hn
    · exact h.kept other n hat hn hother
  · rcases h.made other n hother hsome with rfl | ⟨hn, habove⟩
    · obtain ⟨found, hfound, hisDir⟩ := isDirAt_iff.1 hdir
      rw [hfound, Option.some.injEq] at hsome
      exact Or.inr ⟨hsome ▸ hisDir, List.prefix_append _ _⟩
    · exact Or.inr ⟨hn, habove.trans (List.prefix_append _ _)⟩

/-- what is put is a file or an empty directory: there is nothing below it -/
theorem writesOnly_put (h : tree.IsFillable directory name) (hn : ∀ rest, rest ≠ [] → n.at? rest = none) :
    tree.WritesOnly (tree.put (directory ++ [name]) n) (directory ++ [name]) := by
  refine ⟨fun other m hat hm hne => ?_, (keeps_put h n).dir, fun other m hnone hsome => ?_⟩
  · have halike := at?_put_apart h.dir n (h.apart hat hne)
    rw [hat] at halike
    generalize hafter : (tree.put (directory ++ [name]) n).at? other = found at halike
    cases halike with
    | same => rfl
    | dir => cases hm
  · by_cases hbelow : directory ++ [name] <+: other
    · obtain ⟨rest, rfl⟩ := hbelow
      rw [at?_put_self h.dir] at hsome
      by_cases hrest : rest = []
      · subst hrest
        exact Or.inl (List.append_nil _)
      · rw [hn rest hrest] at hsome
        cases hsome
    · have halike := at?_put_apart h.dir n hbelow
      rw [hnone, hsome] at halike
      cases halike

theorem at?_file (bytes : List UInt8) (h : rest ≠ []) : (Node.file bytes).at? rest = none := by
  obtain ⟨name, rest, rfl⟩ := List.exists_cons_of_ne_nil h
  rw [at?_cons]
  rfl

theorem at?_emptyDir (h : rest ≠ []) : (Node.dir []).at? rest = none := by
  obtain ⟨name, rest, rfl⟩ := List.exists_cons_of_ne_nil h
  rw [at?_cons]
  rfl

end AppAudit.Node
