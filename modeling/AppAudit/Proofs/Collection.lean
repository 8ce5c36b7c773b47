/-
What a walk collects.

`LeadsToSource` says what counts as a source below a directory, without paths and without an order. A walk works on
paths: it joins them, looks them up again from the start, and compares them with its root. `sourceNames` is the walk
without all this, on entries and names alone. The paths of a walk spell its names (`sources_visitDir`), and its names are
exactly the sources, in ascending order (`mem_sourceNames`, `pairwise_sourceNames`).

A directory is opened by its path. A path of 4096 bytes or more cannot be opened, so what lies that deep is left out, as
is everything that cannot be read; every other source is collected.

Main results:
- `collect_exact`: exactly the sources below directories that can be opened are collected, each once and in order;
- `collect_loopTree`: a source that lies too deep is left out.
-/
import Mathlib.Tactic
import AppAudit.Proofs.Resolution
import AppAudit.Files.Walk

namespace AppAudit

/-! ## Order -/

theorem Utf8.encode_injective {a b : List Char} (h : Utf8.encode a = Utf8.encode b) : a = b := by
  have hbytes : a.utf8Encode = b.utf8Encode := by
    unfold List.utf8Encode
    exact congrArg List.toByteArray h
  exact String.ofList_inj.1 (String.toByteArray_inj.1 hbytes)

namespace FileSystem

variable {entries below : List (Name × Node)} {name : Name} {names : List Name}

theorem mem_sortEntries {e : Name × Node} : e ∈ sortEntries entries ↔ e ∈ entries :=
  (List.mergeSort_perm entries _).mem_iff

/-- entries with names of their own are sorted strictly -/
theorem pairwise_sortEntries (hu : (entries.map (·.1)).Nodup) :
    (sortEntries entries).Pairwise fun a b => Utf8.encode a.1 < Utf8.encode b.1 := by
  have hle : (sortEntries entries).Pairwise fun a b => Utf8.encode a.1 ≤ Utf8.encode b.1 := by
    unfold sortEntries
    refine (List.pairwise_mergeSort ?_ ?_ entries).imp (fun h => by simpa using h)
    · intro a b c hab hbc
      rw [decide_eq_true_eq] at hab hbc ⊢
      exact List.le_trans hab hbc
    · intro a b
      rw [Bool.or_eq_true, decide_eq_true_eq, decide_eq_true_eq]
      exact List.le_total _ _
  have hne : (sortEntries entries).Pairwise fun a b => a.1 ≠ b.1 := by
    rw [← List.pairwise_map]
    exact ((List.mergeSort_perm entries _).map (·.1)).nodup_iff.2 hu
  refine (hle.and hne).imp ?_
  rintro a b ⟨hab, hn⟩
  exact (List.le_iff_lt_or_eq.1 hab).resolve_right fun he => hn (Utf8.encode_injective he)

/-! ## Sources below a directory -/

/-- the names lead from a directory with these entries, through directories that are entered, to a source: an entry with
the right extension that is no directory -/
inductive LeadsToSource : List (Name × Node) → List Name → Prop where
  | here {entries : List (Name × Node)} {name : Name} {n : Node} : (name, n) ∈ entries → n.isDir = false →
      hasSourceExtension name = true → LeadsToSource entries [name]
  | under {entries below : List (Name × Node)} {name : Name} {names : List Name} : (name, .dir below) ∈ entries →
      isSkippedDir name = false → LeadsToSource below names → LeadsToSource entries (name :: names)

theorem LeadsToSource.ne_nil (h : LeadsToSource entries names) : names ≠ [] := by
  cases h <;> simp

theorem LeadsToSource.isEntryName (h : LeadsToSource entries names) (hwf : (Node.dir entries).WellFormed) :
    ∀ n ∈ names, Node.IsEntryName n := by
  induction h with
  | here hmem _ _ =>
    cases hwf with
    | dir _ _ hname _ =>
      intro n hn
      rw [List.mem_singleton] at hn
      exact hn ▸ hname _ hmem
  | under hmem _ _ ih =>
    cases hwf with
    | dir _ _ hname hsub =>
      intro n hn
      rcases List.mem_cons.1 hn with rfl | hn
      · exact hname _ hmem
      · exact ih (hsub _ hmem) n hn

/-- the names that lead to sources in one entry: `opens` says whether a directory opens, `inside` what is found there -/
def entrySources (opens : Bool) (inside : List (Name × Node) → List (List Name)) : Name × Node → List (List Name)
  | (name, .dir below) => if isSkippedDir name || !opens then [] else (inside below).map (name :: ·)
  | (name, _) => if hasSourceExtension name then [[name]] else []

/-- the names that lead to sources, in the order of a walk that is at `here` and enters the directories that open -/
def sourceNames (opens : List Name → Bool) :
    (depth : Nat) → (here : List Name) → (entries : List (Name × Node)) → List (List Name)
  | 0, _, _ => []
  | depth + 1, here, entries => (sortEntries entries).flatMap fun e =>
    entrySources (opens (here ++ [e.1])) (sourceNames opens depth (here ++ [e.1])) e

theorem mem_entrySources {opens : Bool} {inside : List (Name × Node) → List (List Name)} {n : Node} :
    names ∈ entrySources opens inside (name, n) ↔
      (n.isDir = false ∧ hasSourceExtension name = true ∧ names = [name]) ∨
        ∃ below rest, n = .dir below ∧ isSkippedDir name = false ∧ opens = true ∧ rest ∈ inside below ∧
          names = name :: rest := by
  cases n with
  | dir below =>
    rw [entrySources]
    constructor
    · intro h
      split_ifs at h with hc
      · simp at h
      · obtain ⟨rest, hrest, rfl⟩ := List.mem_map.1 h
        simp only [Bool.or_eq_true, Bool.not_eq_true', not_or, Bool.not_eq_true, Bool.not_eq_false] at hc
        exact Or.inr ⟨below, rest, rfl, hc.1, hc.2, hrest, rfl⟩
    · rintro (⟨hd, -, -⟩ | ⟨_, rest, hn, hs, ho, hrest, rfl⟩)
      · simp [Node.isDir] at hd
      · cases hn
        simpa [hs, ho] using hrest
  | _ => cases hx : hasSourceExtension name <;> simp [entrySources, hx, Node.isDir]

/-- what is found in an entry starts with its name -/
theorem head_of_mem_entrySources {opens : Bool} {inside : List (Name × Node) → List (List Name)} {e : Name × Node}
    (h : names ∈ entrySources opens inside e) : ∃ rest, names = e.1 :: rest := by
  rcases mem_entrySources.1 h with ⟨-, -, rfl⟩ | ⟨_, rest, -, -, -, -, rfl⟩
  · exact ⟨[], rfl⟩
  · exact ⟨rest, rfl⟩

variable {opens : List Name → Bool} {depth : Nat} {here : List Name}

/-- every directory on the way opens -/
def Opened (opens : List Name → Bool) (here names : List Name) : Prop :=
  ∀ dirs, dirs ≠ [] → dirs <+: names.dropLast → opens (here ++ dirs) = true

theorem opened_singleton : Opened opens here [name] := by
  intro dirs hne hdirs
  exact absurd (List.prefix_nil.1 hdirs) hne

theorem opened_cons (hne : names ≠ []) :
    Opened opens here (name :: names) ↔ opens (here ++ [name]) = true ∧ Opened opens (here ++ [name]) names := by
  unfold Opened
  rw [List.dropLast_cons_of_ne_nil hne]
  constructor
  · intro h
    refine ⟨h [name] (by simp) (by simp), fun dirs _ hdirs => ?_⟩
    rw [List.append_assoc]
    exact h (name :: dirs) (by simp) (List.cons_prefix_cons.2 ⟨rfl, hdirs⟩)
  · rintro ⟨h0, h⟩ dirs hd hdirs
    obtain ⟨first, more, rfl⟩ := List.exists_cons_of_ne_nil hd
    obtain ⟨rfl, hmore⟩ := List.cons_prefix_cons.1 hdirs
    by_cases hn : more = []
    · rwa [hn]
    · have := h more hn hmore
      rwa [List.append_assoc] at this

/-- deep enough, the walk finds exactly the sources that are reached through directories that open -/
theorem mem_sourceNames (hdepth : Node.heights entries < depth) :
    names ∈ sourceNames opens depth here entries ↔ LeadsToSource entries names ∧ Opened opens here names := by
  induction depth generalizing here entries names with
  | zero => omega
  | succ depth ih =>
    have hbelow : ∀ {name : Name} {below : List (Name × Node)}, (name, .dir below) ∈ entries →
        Node.heights below < depth := by
      intro name below hmem
      have := Node.height_le_heights hmem
      rw [Node.height] at this
      omega
    rw [sourceNames, List.mem_flatMap]
    constructor
    · rintro ⟨⟨name, n⟩, hmem, h⟩
      rw [mem_sortEntries] at hmem
      rcases mem_entrySources.1 h with ⟨hd, hx, rfl⟩ | ⟨below, rest, rfl, hs, ho, hrest, rfl⟩
      · exact ⟨.here hmem hd hx, opened_singleton⟩
      · obtain ⟨hl, hopen⟩ := (ih (hbelow hmem)).1 hrest
        exact ⟨.under hmem hs hl, (opened_cons hl.ne_nil).2 ⟨ho, hopen⟩⟩
    · rintro ⟨hl, hopen⟩
      cases hl with
      | @here _ name n hmem hd hx =>
        exact ⟨(name, n), mem_sortEntries.2 hmem, mem_entrySources.2 (Or.inl ⟨hd, hx, rfl⟩)⟩
      | @under _ below name rest hmem hs hl =>
        obtain ⟨ho, hopen⟩ := (opened_cons hl.ne_nil).1 hopen
        have hrest := (ih (hbelow hmem)).2 ⟨hl, hopen⟩
        exact ⟨(name, .dir below), mem_sortEntries.2 hmem,
          mem_entrySources.2 (Or.inr ⟨below, rest, rfl, hs, ho, hrest, rfl⟩)⟩

/-- one list of names comes before another: component by component, in the order of their bytes -/
def Precedes (a b : List Name) : Prop := a.map Utf8.encode < b.map Utf8.encode

theorem precedes_cons (a b : List Name) : Precedes (name :: a) (name :: b) ↔ Precedes a b := by
  simp [Precedes]

theorem precedes_of_lt {m n : Name} (h : Utf8.encode m < Utf8.encode n) (a b : List Name) :
    Precedes (m :: a) (n :: b) := by
  simp only [Precedes, List.map_cons, List.cons_lt_cons_iff]
  exact Or.inl h

/-- the walk goes upwards -/
theorem pairwise_sourceNames (hwf : (Node.dir entries).WellFormed) :
    (sourceNames opens depth here entries).Pairwise Precedes := by
  induction depth generalizing here entries with
  | zero => exact List.Pairwise.nil
  | succ depth ih =>
    cases hwf with
    | dir _ hu _ hsub =>
      rw [sourceNames, List.pairwise_flatMap]
      constructor
      · -- inside one entry all names start alike
        rintro ⟨name, n⟩ hmem
        cases n with
        | dir below =>
          rw [entrySources]
          split_ifs
          · exact List.Pairwise.nil
          · rw [List.pairwise_map]
            exact (ih (hsub _ (mem_sortEntries.1 hmem))).imp fun h => (precedes_cons _ _).2 h
        | _ =>
          rw [entrySources]
          · split_ifs
            · exact List.pairwise_singleton _ _
            · exact List.Pairwise.nil
          · simp
      · -- between two entries their own names decide
        refine (pairwise_sortEntries hu).imp ?_
        intro e e' hlt x hx y hy
        obtain ⟨a, rfl⟩ := head_of_mem_entrySources hx
        obtain ⟨b, rfl⟩ := head_of_mem_entrySources hy
        exact precedes_of_lt hlt a b

/-- lists of names in this order are the same as soon as they hold the same -/
theorem eq_of_pairwise_precedes {a b : List (List Name)} (ha : a.Pairwise Precedes) (hb : b.Pairwise Precedes)
    (h : ∀ names, names ∈ a ↔ names ∈ b) : a = b := by
  have hne : ∀ {x y : List Name}, Precedes x y → x ≠ y := by
    rintro x y hxy rfl
    exact List.lt_irrefl _ hxy
  refine List.Perm.eq_of_pairwise ?_ ha hb ((List.perm_ext_iff_of_nodup (ha.imp hne) (hb.imp hne)).2 h)
  intro x y _ _ hxy hyx
  exact absurd hyx (List.lt_asymm hxy)

/-! ## Paths of a walk -/

/-- whether a directory below `root` can be opened by its path -/
def opensBelow (root : List Char) (names : List Name) : Bool :=
  (Utf8.encode (Path.join (root :: names))).length < pathLimit

variable {fs : FileSystem} {root path : List Char}

theorem isStep_of_isEntryName (h : Node.IsEntryName name) : IsStep name := ⟨h.ne_dot, h.ne_dots, h.short⟩

theorem readDir_eq (h : fs.lookup true path = .ok (.dir entries)) : fs.readDir path = .ok (sortEntries entries) := by
  rw [readDir, h]

/-- nothing is collected in a directory that cannot be read -/
theorem sources_visitDir_of_lookup {cause : FileCause} (h : fs.lookup true path = .error cause) :
    (fs.visitDir root depth path).filterMap Visit.source? = [] := by
  cases depth with
  | zero => rfl
  | succ depth =>
    rw [visitDir, readDir, h]
    rfl

section

variable (hp : IsPathText root) (hdots : ['.', '.'] ∉ parts root)

include hp hdots

theorem noNul_join (hnames : ∀ n ∈ names, Node.IsEntryName n) : '\x00' ∉ Path.join (root :: names) := by
  rw [Path.join_cons hp.ne_nil hdots fun n hn => (hnames n hn).toIsName]
  intro hc
  rcases Path.mem_spelled hc with h | h | ⟨n, hn, h⟩
  · exact absurd h (by decide)
  · exact absurd h (by decide)
  · rcases List.mem_append.1 hn with hn | hn
    · obtain ⟨-, -, hsub⟩ := Path.mem_parts (List.mem_filter.1 hn).1
      exact hp.noNul (hsub _ h)
    · exact (hnames n hn).noNul h

/-- a path below the root is another text than the root, whichever way the root is spelled -/
theorem join_ne_root (hnames : ∀ n ∈ names, Path.IsName n) (hne : names ≠ []) : Path.join (root :: names) ≠ root := by
  intro h
  have hplain : Path.plain root ++ names = Path.plain root := by
    rw [← @Path.plain_spelled (Path.isAbs root) _ (Path.isName_of_mem_plain_append hdots hnames),
      ← Path.join_cons hp.ne_nil hdots hnames, h]
  exact hne (List.append_right_eq_self.1 hplain)

theorem join_injective {a b : List Name} (ha : ∀ n ∈ a, Path.IsName n) (hb : ∀ n ∈ b, Path.IsName n)
    (h : Path.join (root :: a) = Path.join (root :: b)) : a = b := by
  rw [Path.join_cons hp.ne_nil hdots ha, Path.join_cons hp.ne_nil hdots hb] at h
  exact List.append_cancel_left (Path.spelled_injective (Path.isName_of_mem_plain_append hdots ha)
    (Path.isName_of_mem_plain_append hdots hb) h)

theorem join_join {a b : List Name} (ha : ∀ n ∈ a, Path.IsName n) (hb : ∀ n ∈ b, Path.IsName n) :
    Path.join (Path.join (root :: a) :: b) = Path.join (root :: (a ++ b)) := by
  have hall : ∀ n ∈ a ++ b, Path.IsName n := List.forall_mem_append.2 ⟨ha, hb⟩
  rw [Path.join_cons hp.ne_nil hdots ha, Path.join_cons hp.ne_nil hdots hall,
    Path.join_spelled (Path.isName_of_mem_plain_append hdots ha) hb, List.append_assoc]

/-- whether a path below the root is a source is decided by its last name -/
theorem hasSourceExtension_join (hnames : ∀ n ∈ names ++ [name], Path.IsName n) :
    hasSourceExtension (Path.join (root :: (names ++ [name]))) = hasSourceExtension name := by
  have hslash : '/' ∉ name := (hnames name (by simp)).noSlash
  rw [Path.join_cons hp.ne_nil hdots hnames, ← List.append_assoc, hasSourceExtension, hasSourceExtension,
    Path.ext_spelled _ _ hslash]

/-- a path below the root ends in its last name -/
theorem lastPart_join (hnames : ∀ n ∈ names ++ [name], Path.IsName n) :
    Path.lastPart (Path.join (root :: (names ++ [name]))) = name := by
  rw [Path.join_cons hp.ne_nil hdots hnames, ← List.append_assoc]
  exact Path.lastPart_spelled _ _ (hnames name (by simp)).noSlash

theorem endsInSlash_join (hnames : ∀ n ∈ names, Path.IsName n) (hne : names ≠ []) :
    endsInSlash (Path.join (root :: names)) = false := by
  obtain ⟨dirs, name, rfl⟩ := (List.eq_nil_or_concat' names).resolve_left hne
  have hlast : Path.lastPart (Path.join (root :: (dirs ++ [name]))) ≠ [] := by
    rw [lastPart_join hp hdots hnames]
    exact (hnames name (by simp)).ne_nil
  rw [endsInSlash, decide_eq_false_iff_not]
  exact Path.getLast?_ne_slash hlast

/-- a path below the root can be looked up as long as it is short enough -/
theorem isPathText_join (hnames : ∀ n ∈ names, Node.IsEntryName n) (ho : opensBelow root names = true) :
    IsPathText (Path.join (root :: names)) := by
  have hall := Path.isName_of_mem_plain_append hdots fun n hn => (hnames n hn).toIsName
  refine ⟨?_, noNul_join hp hdots hnames, by simpa [opensBelow] using ho⟩
  rw [Path.join_cons hp.ne_nil hdots fun n hn => (hnames n hn).toIsName]
  exact Path.spelled_ne_nil hall

/-- looking up a path below the root is following the names of the root and those below it -/
theorem locate_join (hnames : ∀ n ∈ names, Node.IsEntryName n) (hne : names ≠ [])
    (ho : opensBelow root names = true) (follow asDir : Bool) :
    fs.locate follow (Path.join (root :: names)) asDir =
      resolve fs.tree follow maxLinks (if Path.isAbs root then [] else fs.cwd) (Path.plain root ++ names) asDir := by
  have hall := Path.isName_of_mem_plain_append hdots fun n hn => (hnames n hn).toIsName
  rw [(isPathText_join hp hdots hnames ho).locate_eq, Path.join_cons hp.ne_nil hdots fun n hn => (hnames n hn).toIsName,
    Path.isAbs_spelled hall, Path.parts_spelled hall (Or.inr (by simp [hne]))]

/-- a directory below the root is found by its path, unless the path is too long -/
theorem lookup_join (hnames : ∀ n ∈ names, Node.IsEntryName n) (hne : names ≠ [])
    (hl : fs.LeadsTo (Path.isAbs root) (Path.plain root ++ names) entries) :
    fs.lookup true (Path.join (root :: names)) =
      if opensBelow root names then .ok (.dir entries) else .error .nameTooLong := by
  by_cases ho : opensBelow root names = true
  · rw [if_pos ho]
    have hall := Path.isName_of_mem_plain_append hdots fun n hn => (hnames n hn).toIsName
    refine LeadsTo.lookup_eq ?_ (isPathText_join hp hdots hnames ho)
    rw [Path.join_cons hp.ne_nil hdots fun n hn => (hnames n hn).toIsName]
    rwa [Path.isAbs_spelled hall, Path.parts_spelled hall (Or.inr (by simp [hne]))]
  · rw [if_neg ho]
    rw [opensBelow, decide_eq_true_eq, not_lt] at ho
    exact lookup_of_long (noNul_join hp hdots hnames) ho

/-- **A walk spells its names.** What is collected from a directory on is what the walk on entries finds there, by the
paths from the root. -/
theorem sources_visitDir (hhere : ∀ n ∈ here, Node.IsEntryName n)
    (hl : fs.LeadsTo (Path.isAbs root) (Path.plain root ++ here) entries) (hwf : (Node.dir entries).WellFormed)
    (hlook : fs.lookup true path = .ok (.dir entries))
    (hpath : ∀ name, Path.IsName name → Path.join [path, name] = Path.join (root :: (here ++ [name]))) :
    (fs.visitDir root depth path).filterMap Visit.source? =
      (sourceNames (opensBelow root) depth here entries).map fun names => Path.join (root :: (here ++ names)) := by
  -- both sides go entry by entry through the same sorted list
  induction depth generalizing here path entries with
  | zero => rfl
  | succ depth ih =>
    cases hwf with
    | dir _ hu hnames hsub =>
      rw [visitDir, readDir_eq hlook]
      simp only [sourceNames, List.filterMap_flatMap, List.map_flatMap]
      refine List.flatMap_congr fun e he => ?_
      obtain ⟨name, n⟩ := e
      rw [mem_sortEntries] at he
      have hname : Node.IsEntryName name := hnames _ he
      have hall : ∀ n ∈ here ++ [name], Node.IsEntryName n :=
        List.forall_mem_append.2 ⟨hhere, List.forall_mem_singleton.2 hname⟩
      have hall' : ∀ n ∈ here ++ [name], Path.IsName n := fun n hn => (hall n hn).toIsName
      rw [hpath name hname.toIsName]
      cases n with
      | dir below =>
        have hdir : (Node.dir below).isDir = true := rfl
        have hroot := join_ne_root hp hdots hall' (by simp)
        have hlbelow : fs.LeadsTo (Path.isAbs root) (Path.plain root ++ (here ++ [name])) below := by
          rw [← List.append_assoc]
          exact hl.child (isStep_of_isEntryName hname) (Node.child?_of_mem hu he)
        have hlook' := lookup_join hp hdots hall (by simp) hlbelow
        -- a directory is passed over, entered, or too deep to be opened
        by_cases hs : isSkippedDir name = true
        · simp [hdir, hs, hroot, entrySources]
        · by_cases ho : opensBelow root (here ++ [name]) = true
          · rw [if_pos ho] at hlook'
            have := ih hall hlbelow (hsub _ he) hlook' fun next hnext =>
              join_join hp hdots hall' (List.forall_mem_singleton.2 hnext)
            simp [hdir, hs, ho, entrySources, this, Function.comp_def]
          · rw [if_neg ho] at hlook'
            simp [hdir, hs, ho, entrySources, sources_visitDir_of_lookup hlook']
      | _ =>
        cases hx : hasSourceExtension name <;>
          simp [Node.isDir, entrySources, hasSourceExtension_join hp hdots hall', hx, Visit.source?]

end

theorem lookup_of_lstat {n : Node} (h : fs.lstat path = .ok n) : fs.lookup false path = .ok n := by
  cases hlook : fs.lookup false path with
  | error e => simp [lstat, hlook, Except.mapError] at h
  | ok m => simpa [lstat, hlook, Except.mapError] using h

theorem lookup_of_stat {n : Node} (h : fs.stat path = .ok n) : fs.lookup true path = .ok n := by
  cases hlook : fs.lookup true path with
  | error e => simp [stat, hlook, Except.mapError] at h
  | ok m => simpa [stat, hlook, Except.mapError] using h

/-- a directory in a well-formed tree is well-formed, and no higher than the tree -/
theorem wellFormed_of_lstat (htree : fs.tree.WellFormed) (h : fs.lstat path = .ok (.dir entries)) :
    (Node.dir entries).WellFormed ∧ Node.heights entries < fs.tree.height + 2 := by
  obtain ⟨-, left, place, -, hat⟩ := leadsTo_of_lookup (lookup_of_lstat h)
  refine ⟨htree.at? hat, ?_⟩
  have := Node.height_at?_le hat
  rw [Node.height] at this
  omega

theorem collect_eq_sourceNames (htree : fs.tree.WellFormed) (hdots : ['.', '.'] ∉ parts root)
    (hroot : fs.lstat root = .ok (.dir entries)) :
    fs.collect root = .ok ((sourceNames (opensBelow root) (fs.tree.height + 2) [] entries).map
      fun names => Path.join (root :: names)) := by
  obtain ⟨hp, hleads⟩ := leadsTo_of_lookup (lookup_of_lstat hroot)
  have hlook : fs.lookup true root = .ok (.dir entries) := hleads.lookup_eq hp
  have hplain : fs.LeadsTo (Path.isAbs root) (Path.plain root ++ []) entries := by
    rw [List.append_nil]
    exact hleads.withoutDots
  have hstat : fs.stat root = .ok (.dir entries) := by rw [stat, hlook, Except.mapError]
  have hwalk : (fs.visitDir root (fs.tree.height + 2) root).filterMap Visit.source? =
      (sourceNames (opensBelow root) (fs.tree.height + 2) [] entries).map fun names => Path.join (root :: names) :=
    sources_visitDir hp hdots (by simp) hplain (wellFormed_of_lstat htree hroot).1 hlook fun _ _ => rfl
  have hvisits : fs.visits root = .ok (fs.visitDir root (fs.tree.height + 2) root) := by
    rw [visits, hstat, hroot]
    rfl
  rw [collect, hvisits]
  exact congrArg Except.ok hwalk

/-- **Collection is sound, complete and in order.** From a directory, spelled without `..` in any way, exactly those paths
are collected that lead to a source below it through directories that can be opened, each once, and in strictly
ascending order of their components. -/
theorem collect_exact {fs : FileSystem} {root : List Char} {entries : List (Name × Node)}
    (htree : fs.tree.WellFormed) (hdots : ['.', '.'] ∉ parts root) (hroot : fs.lstat root = .ok (.dir entries)) :
    ∃ found : List (List Name),
      fs.collect root = .ok (found.map fun names => Path.join (root :: names)) ∧
      (∀ names, names ∈ found ↔ LeadsToSource entries names ∧ Opened (opensBelow root) [] names) ∧
      found.Pairwise Precedes ∧
      (found.map fun names => Path.join (root :: names)).Nodup := by
  obtain ⟨hwf, hdepth⟩ := wellFormed_of_lstat htree hroot
  have hp := (leadsTo_of_lookup (lookup_of_lstat hroot)).1
  have hmem : ∀ names, names ∈ sourceNames (opensBelow root) (fs.tree.height + 2) [] entries ↔
      LeadsToSource entries names ∧ Opened (opensBelow root) [] names := fun names => mem_sourceNames hdepth
  have hordered : (sourceNames (opensBelow root) (fs.tree.height + 2) [] entries).Pairwise Precedes :=
    pairwise_sourceNames hwf
  refine ⟨_, collect_eq_sourceNames htree hdots hroot, hmem, hordered, ?_⟩
  rw [List.Nodup, List.pairwise_map]
  refine (List.Pairwise.and_mem.1 hordered).imp ?_
  rintro a b ⟨ha, hb, hab⟩ heq
  have hnames : ∀ names ∈ sourceNames (opensBelow root) (fs.tree.height + 2) [] entries, ∀ n ∈ names, Path.IsName n :=
    fun names hm n hn => (((hmem names).1 hm).1.isEntryName hwf n hn).toIsName
  rw [join_injective hp hdots (hnames a ha) (hnames b hb) heq] at hab
  exact List.lt_irrefl _ hab

/-- a link to its own directory, a directory that is passed over, and names that come in another order as whole paths -/
def iosEntries : List (Name × Node) :=
  [("a.ts".toList, .link ".".toList), ("a".toList, .dir [("b.ts".toList, .file [])]),
    ("dist".toList, .dir [("c.ts".toList, .file [])])]

/-- these entries in a directory that would be passed over itself, if the walk did not start there -/
def iosTree : FileSystem := ⟨.dir [("ios".toList, .dir iosEntries)], []⟩

theorem wellFormed_singleton {name : Name} {n : Node} (hname : Node.IsEntryName name) (hn : n.WellFormed) :
    (Node.dir [(name, n)]).WellFormed :=
  .dir _ (by simp) (by simpa using hname) (by simpa using hn)

theorem wellFormed_iosTree : iosTree.tree.WellFormed := by
  refine .dir _ (by decide) (by decide) ?_
  intro e he
  rw [List.mem_singleton] at he
  subst he
  refine .dir _ (by decide) (by decide) ?_
  intro e he
  simp only [iosEntries, List.mem_cons, List.not_mem_nil, or_false] at he
  rcases he with rfl | rfl | rfl
  · exact .link _
  · exact wellFormed_singleton (by decide) (.file _)
  · exact wellFormed_singleton (by decide) (.file _)

theorem collect_exact_iosTree :
    iosTree.lstat "./ios//".toList = .ok (.dir iosEntries) ∧
    iosTree.collect "./ios//".toList = .ok ["ios/a/b.ts".toList, "ios/a.ts".toList] ∧
    ∃ found : List (List Name),
      iosTree.collect "./ios//".toList = .ok (found.map fun names => Path.join ("./ios//".toList :: names)) ∧
      (∀ names, names ∈ found ↔ LeadsToSource iosEntries names ∧ Opened (opensBelow "./ios//".toList) [] names) ∧
      found.Pairwise Precedes := by
  have hroot : iosTree.lstat "./ios//".toList = .ok (.dir iosEntries) := by cbv
  obtain ⟨found, hfound, hmem, hordered, -⟩ := collect_exact wellFormed_iosTree (by decide) hroot
  exact ⟨hroot, by cbv, found, hfound, hmem, hordered⟩

/-! ## Rounds of a loop

A link to where it stands can be followed again and again. So a way can be spelled as long as one likes, and through as
many links as may be followed.
-/

theorem at?_entry {n : Node} (hu : (entries.map (·.1)).Nodup) (h : (name, n) ∈ entries) :
    (Node.dir entries).at? ([] ++ [name]) = some n := by
  rw [Node.at?_append_singleton, Node.at?_nil]
  exact Node.child?_of_mem hu h

theorem lstat_of_locate {place : List Name} {n : Node}
    (h : fs.locate false path (endsInSlash path) = .ok (.found place n)) : fs.lstat path = .ok n := by
  rw [lstat, lookup, h, Except.mapError]

theorem length_encode_replicate (k : Nat) (c : Char) :
    (Utf8.encode (List.replicate k c)).length = k * (String.utf8EncodeChar c).length := by
  simp [Utf8.encode, List.length_flatMap]

/-- a name that repeats one character -/
theorem isEntryName_replicate {c : Char} {k : Nat} (hk : 2 < k) (hc : c ∉ ['/', '\x00'])
    (hshort : k * (String.utf8EncodeChar c).length ≤ maxName) : Node.IsEntryName (List.replicate k c) := by
  simp only [List.mem_cons, List.not_mem_nil, or_false, not_or] at hc
  have hlong : ∀ name : Name, name.length ≤ 2 → List.replicate k c ≠ name := by
    rintro name hname rfl
    rw [List.length_replicate] at hname
    omega
  refine ⟨⟨hlong _ (by simp), ?_, hlong _ (by simp), hlong _ (by simp)⟩, ?_, ?_⟩
  · exact fun h => hc.1 (List.eq_of_mem_replicate h).symm
  · exact fun h => hc.2 (List.eq_of_mem_replicate h).symm
  · rwa [length_encode_replicate]

/-- some rounds of a loop and then a directory -/
def loopPath (name : Name) (rounds : Nat) : List Char := Path.joinNames (List.replicate rounds name ++ [['p']])

theorem isEntryName_p : Node.IsEntryName ['p'] := by decide

/-- going round a loop takes links and leads nowhere -/
theorem follows_loop {tree : Node} (hn : IsStep name) (hlink : tree.at? ([] ++ [name]) = some (.link ['.']))
    (rounds left : Nat) : Follows tree (rounds + left) [] (List.replicate rounds name) left [] := by
  induction rounds with
  | zero =>
    rw [Nat.zero_add]
    exact .stop _ _
  | succ rounds ih =>
    rw [List.replicate_succ, Nat.succ_add]
    exact .link hn hlink (.dot (.stop _ _)) ih

theorem length_loopPath (name : Name) (rounds : Nat) :
    (Utf8.encode (loopPath name rounds)).length = rounds * ((Utf8.encode name).length + 1) + 1 := by
  have hslash : (String.utf8EncodeChar '/').length = 1 := by decide
  induction rounds with
  | zero =>
    have hp : (Utf8.encode ['p']).length = 1 := by decide
    rw [Nat.zero_mul]
    exact hp
  | succ rounds ih =>
    have hstep : loopPath name (rounds + 1) = name ++ '/' :: loopPath name rounds := by
      rw [loopPath, List.replicate_succ, List.cons_append, Path.joinNames_cons (by simp)]
      rfl
    rw [Utf8.encode] at ih
    rw [hstep, Utf8.encode, List.flatMap_append, List.flatMap_cons, List.length_append, List.length_append, ih, hslash,
      Utf8.encode]
    ring

section

variable {rounds : Nat} (hname : Node.IsEntryName name)

include hname

theorem isEntryName_of_mem_rounds : ∀ n ∈ List.replicate rounds name ++ [['p']], Node.IsEntryName n := by
  intro n hn
  rcases List.mem_append.1 hn with hn | hn
  · rw [List.eq_of_mem_replicate hn]
    exact hname
  · rw [List.mem_singleton.1 hn]
    exact isEntryName_p

theorem parts_loopPath : parts (loopPath name rounds) = List.replicate rounds name ++ [['p']] :=
  Path.parts_joinNames fun n hn => (isEntryName_of_mem_rounds hname n hn).toIsName

theorem dots_notMem_loopPath : ['.', '.'] ∉ parts (loopPath name rounds) := by
  rw [parts_loopPath hname]
  exact fun hmem => (isEntryName_of_mem_rounds hname _ hmem).ne_dots rfl

theorem plain_loopPath : Path.plain (loopPath name rounds) = List.replicate rounds name ++ [['p']] := by
  rw [Path.plain, parts_loopPath hname, List.filter_eq_self]
  intro n hn
  simpa using (isEntryName_of_mem_rounds hname n hn).ne_dot

theorem isAbs_loopPath : Path.isAbs (loopPath name rounds) = false :=
  Path.isAbs_joinNames fun n hn => (isEntryName_of_mem_rounds hname n hn).toIsName

theorem isPathText_loopPath (hshort : rounds * ((Utf8.encode name).length + 1) + 1 < pathLimit) :
    IsPathText (loopPath name rounds) := by
  refine ⟨?_, ?_, ?_⟩
  · rw [Ne, loopPath, Path.joinNames_eq_nil fun n hn => (isEntryName_of_mem_rounds hname n hn).ne_nil]
    simp
  · intro hnul
    rcases Path.mem_joinNames hnul with h | ⟨n, hn, h⟩
    · exact absurd h (by decide)
    · exact (isEntryName_of_mem_rounds hname n hn).noNul h
  · rwa [length_loopPath]

variable (hshort : rounds * ((Utf8.encode name).length + 1) + 1 < pathLimit)

include hshort

/-- how much space the rounds leave for a name -/
theorem opensBelow_loopPath {below : Name} (hbelow : Path.IsName below) : opensBelow (loopPath name rounds) [below] =
    decide (rounds * ((Utf8.encode name).length + 1) + 1 + (1 + (Utf8.encode below).length) < pathLimit) := by
  have hjoin : Path.join [loopPath name rounds, below] = loopPath name rounds ++ '/' :: below := by
    rw [Path.join_cons (isPathText_loopPath hname hshort).ne_nil (dots_notMem_loopPath hname)
      (List.forall_mem_singleton.2 hbelow), plain_loopPath hname, isAbs_loopPath hname]
    have hne : List.replicate rounds name ++ [['p']] ≠ [] := by simp
    rw [Path.spelled, if_neg (by simp), if_neg (by simp)]
    exact Path.joinNames_append_singleton hne below
  have hslash : (String.utf8EncodeChar '/').length = 1 := by decide
  have hlength := length_loopPath name rounds
  rw [Utf8.encode] at hlength
  rw [opensBelow, hjoin, Utf8.encode, List.flatMap_append, List.flatMap_cons, List.length_append, List.length_append,
    hlength, hslash]
  rfl

variable {left : Nat} (hcwd : fs.cwd = []) (hbudget : rounds + left = maxLinks)
  (hlink : fs.tree.at? ([] ++ [name]) = some (.link ['.']))
  (hdir : fs.tree.at? ([] ++ [['p']]) = some (.dir entries))

include hcwd hbudget hlink hdir

/-- behind the rounds, the directory is found where it stands -/
theorem locate_loopPath (follow asDir : Bool) :
    fs.locate follow (loopPath name rounds) asDir = .ok (.found [['p']] (.dir entries)) := by
  rw [(isPathText_loopPath hname hshort).locate_eq, isAbs_loopPath hname, if_neg (by simp), hcwd, parts_loopPath hname,
    ← hbudget]
  exact (follows_loop (isStep_of_isEntryName hname) hlink rounds left).resolve_entry
    (isStep_of_isEntryName isEntryName_p) hdir (Or.inl rfl)

omit hshort in
theorem follows_loopPath : Follows fs.tree maxLinks (if Path.isAbs (loopPath name rounds) then [] else fs.cwd)
    (Path.plain (loopPath name rounds)) left [['p']] := by
  rw [plain_loopPath hname, isAbs_loopPath hname, if_neg (by simp), hcwd, ← hbudget]
  exact (follows_loop (isStep_of_isEntryName hname) hlink rounds left).append
    (.dir (isStep_of_isEntryName isEntryName_p) hdir (.stop _ _))

end

/-! ## Too deep to be opened -/

/-- a directory with a long name and a source in it -/
def deepName : Name := List.replicate 100 'd'

def deepEntries : List (Name × Node) := [(deepName, .dir [("a.ts".toList, .file [])])]

/-- a link to where it stands, with a long name, so that a way can be spelled as long as one likes -/
def loopName : Name := List.replicate 250 'l'

def loopTree : FileSystem := ⟨.dir [(loopName, .link ['.']), (['p'], .dir deepEntries)], []⟩

/-- sixteen times round the loop -/
def loopRoot : List Char := Path.joinNames (List.replicate 16 loopName ++ [['p']])

theorem isEntryName_deepName : Node.IsEntryName deepName := isEntryName_replicate (by decide) (by decide) (by decide)

theorem isEntryName_loopName : Node.IsEntryName loopName := isEntryName_replicate (by decide) (by decide) (by decide)

theorem length_loopName : (Utf8.encode loopName).length = 250 := (length_encode_replicate 250 'l').trans (by decide)

theorem short_loopRoot : 16 * ((Utf8.encode loopName).length + 1) + 1 < pathLimit := by
  rw [length_loopName]
  decide

theorem dots_notMem_loopRoot : ['.', '.'] ∉ parts loopRoot := dots_notMem_loopPath isEntryName_loopName

theorem isPathText_loopRoot : IsPathText loopRoot := isPathText_loopPath isEntryName_loopName short_loopRoot

theorem nodup_over_loop : ([(loopName, Node.link ['.']), (['p'], .dir entries)].map (·.1)).Nodup := by
  have hne : loopName ≠ ['p'] := by decide
  simpa using hne

/-- the loop and the directory behind it -/
theorem wellFormed_over_loop (h : (Node.dir entries).WellFormed) :
    (Node.dir [(loopName, .link ['.']), (['p'], .dir entries)]).WellFormed := by
  refine .dir _ nodup_over_loop (by simpa using ⟨isEntryName_loopName, isEntryName_p⟩) ?_
  intro e he
  simp only [List.mem_cons, List.not_mem_nil, or_false] at he
  rcases he with rfl | rfl
  · exact .link _
  · exact h

theorem lstat_over_loop : (⟨.dir [(loopName, .link ['.']), (['p'], .dir entries)], []⟩ : FileSystem).lstat loopRoot =
    .ok (.dir entries) :=
  lstat_of_locate (locate_loopPath isEntryName_loopName short_loopRoot rfl (by decide : 16 + 24 = maxLinks)
    (at?_entry nodup_over_loop (by simp)) (at?_entry nodup_over_loop (by simp)) _ _)

theorem wellFormed_loopTree : loopTree.tree.WellFormed :=
  wellFormed_over_loop (wellFormed_singleton isEntryName_deepName (wellFormed_singleton (by decide) (.file _)))

theorem lstat_loopRoot : loopTree.lstat loopRoot = .ok (.dir deepEntries) := lstat_over_loop

theorem opensBelow_loopRoot : opensBelow loopRoot [deepName] = false := by
  have hlength : (Utf8.encode deepName).length = 100 := (length_encode_replicate 100 'd').trans (by decide)
  refine (opensBelow_loopPath isEntryName_loopName short_loopRoot isEntryName_deepName.toIsName).trans ?_
  rw [length_loopName, hlength]
  decide

/-- **A source can lie too deep.** The names lead to a source, but the directory it is in has a path that is too long to
be opened, and nothing is collected. -/
theorem collect_loopTree :
    loopTree.tree.WellFormed ∧ ['.', '.'] ∉ parts loopRoot ∧ loopTree.lstat loopRoot = .ok (.dir deepEntries) ∧
    LeadsToSource deepEntries [deepName, "a.ts".toList] ∧ loopTree.collect loopRoot = .ok [] := by
  have hsource : LeadsToSource deepEntries [deepName, "a.ts".toList] :=
    .under List.mem_cons_self (by decide +kernel) (.here List.mem_cons_self rfl (by decide))
  have hnone : sourceNames (opensBelow loopRoot) (loopTree.tree.height + 2) [] deepEntries = [] := by
    simp [sourceNames, sortEntries, deepEntries, entrySources, opensBelow_loopRoot]
  have hcollect := collect_eq_sourceNames wellFormed_loopTree dots_notMem_loopRoot lstat_loopRoot
  rw [hnone] at hcollect
  exact ⟨wellFormed_loopTree, dots_notMem_loopRoot, lstat_loopRoot, hsource, hcollect⟩

end FileSystem

end AppAudit
