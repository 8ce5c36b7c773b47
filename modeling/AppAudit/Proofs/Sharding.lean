/-
Audits in shards.

The audit of a directory is the merge of the audits of its entries: of the directories in it that are entered, and of
the other entries that have the extension of a source. An entry that is given to an audit by itself is looked at in another
way than in a walk. Links are followed to see what it is, a file is taken whatever its extension, and a directory is
entered whatever its name. It comes to the same because the paths of the two walks are the same texts
(`join_join`), because a name leads to the same sources from wherever it is followed (`sourceNames_below`), and because
a link is recognised as such by its own path (`lstat_entry`).

The one entry that makes a difference is a directory whose path is too long to be looked up. A walk passes it over,
but there is no audit of it.

Main results:
- `auditPath_sharded`: the audit of a directory is the merge of the audits of its entries, in the order of their names;
- `auditPath_hollowTree`: a directory that cannot be audited by itself, in a directory that can.
-/
import Mathlib.Tactic
import AppAudit.Proofs.Collection
import AppAudit.Proofs.Totals

namespace AppAudit.FileSystem

/-! ## Totals of parts -/

variable {fs : FileSystem} {rules : List Rule} {root : List Char} {entries below : List (Name × Node)} {name : Name}
  {names : List Name} {n : Node}

theorem total_append (fs : FileSystem) (rules : List Rule) (a b : List (List Char)) :
    fs.total rules (a ++ b) = (fs.total rules a).merge (fs.total rules b) := by
  induction a with
  | nil => exact (Result.empty_merge _).symm
  | cons path a ih => rw [List.cons_append, total_cons, ih, total_cons, Result.merge_assoc]

/-- paths that come in parts are audited part by part -/
theorem total_flatMap {α : Type} (fs : FileSystem) (rules : List Rule) (l : List α) (paths : α → List (List Char)) :
    fs.total rules (l.flatMap paths) = (l.map fun x => fs.total rules (paths x)).foldl Result.merge .empty := by
  induction l with
  | nil => rfl
  | cons x l ih =>
    rw [List.flatMap_cons, total_append, ih, List.map_cons, List.foldl_cons,
      Result.foldl_merge (Result.empty.merge _), Result.empty_merge]

/-! ## Entries -/

/-- whether an entry of the directory at `root` is audited by itself: a directory that is entered and can be opened, or
a source -/
def isShard (root : List Char) : Name × Node → Bool
  | (name, .dir _) => !isSkippedDir name && opensBelow root [name]
  | (name, _) => hasSourceExtension name

theorem isShard_iff : isShard root (name, n) = true ↔
    (n.isDir = true ∧ isSkippedDir name = false ∧ opensBelow root [name] = true) ∨
      (n.isDir = false ∧ hasSourceExtension name = true) := by
  cases n <;> simp [isShard, Node.isDir]

/-- there are no sources in what is no shard -/
theorem entrySources_of_not_isShard {e : Name × Node} {inside : List (Name × Node) → List (List Name)}
    (h : isShard root e = false) : entrySources (opensBelow root [e.1]) inside e = [] := by
  obtain ⟨name, n⟩ := e
  cases n with
  | dir below =>
    rw [isShard, Bool.and_eq_false_iff, Bool.not_eq_false'] at h
    rw [entrySources, if_pos]
    rcases h with h | h
    · rw [h, Bool.true_or]
    · rw [h, Bool.not_false, Bool.or_true]
  | _ =>
    rw [isShard] at h
    · simp [entrySources, h]
    · simp

section

variable (hp : IsPathText root) (hdots : ['.', '.'] ∉ parts root)

include hp hdots

/-- the walk from a directory below the root finds the same names as the walk that comes through the root -/
theorem sourceNames_below (hwf : (Node.dir below).WellFormed) (hname : Path.IsName name) {deep deeper : Nat}
    (hdeep : Node.heights below < deep) (hdeeper : Node.heights below < deeper) :
    sourceNames (opensBelow (Path.join [root, name])) deep [] below =
      sourceNames (opensBelow root) deeper [name] below := by
  refine eq_of_pairwise_precedes (pairwise_sourceNames hwf) (pairwise_sourceNames hwf) fun names => ?_
  rw [mem_sourceNames hdeep, mem_sourceNames hdeeper]
  refine and_congr_right fun hsource => ?_
  -- every directory on the way has one path, whichever walk comes by
  refine forall_congr' fun dirs => imp_congr_right fun _ => imp_congr_right fun hdirs => ?_
  have hnames : ∀ n ∈ dirs, Path.IsName n := fun n hn =>
    (hsource.isEntryName hwf n (List.dropLast_subset _ (hdirs.subset hn))).toIsName
  rw [opensBelow, opensBelow, List.nil_append, join_join hp hdots (List.forall_mem_singleton.2 hname) hnames]

end

section

variable (htree : fs.tree.WellFormed) (hdots : ['.', '.'] ∉ parts root) (hroot : fs.lstat root = .ok (.dir entries))

include htree hdots hroot

/-- an entry of the directory is found by its path, links as links -/
theorem lstat_entry (hmem : (name, n) ∈ entries) (ho : opensBelow root [name] = true) :
    fs.lstat (Path.join [root, name]) = .ok n := by
  obtain ⟨hp, hleads⟩ := leadsTo_of_lookup (lookup_of_lstat hroot)
  obtain ⟨left, place, hfollows, hat⟩ := hleads.withoutDots
  cases (wellFormed_of_lstat htree hroot).1 with
  | dir _ hu hnames _ =>
    have hname : Node.IsEntryName name := hnames _ hmem
    have hchild : fs.tree.at? (place ++ [name]) = some n := by
      rw [Node.at?_append_singleton, hat]
      exact Node.child?_of_mem hu hmem
    have hfound : fs.locate false (Path.join [root, name]) false = .ok (.found (place ++ [name]) n) := by
      rw [locate_join hp hdots (List.forall_mem_singleton.2 hname) (by simp) ho]
      exact hfollows.resolve_entry (isStep_of_isEntryName hname) hchild (Or.inr ⟨rfl, rfl⟩)
    have hslash : endsInSlash (Path.join [root, name]) = false :=
      endsInSlash_join hp hdots (List.forall_mem_singleton.2 hname.toIsName) (by simp)
    rw [lstat, lookup, hslash, hfound, Except.mapError]

/-- a walk that starts at a directory below the root -/
theorem collect_directory (hmem : (name, .dir below) ∈ entries) (ho : opensBelow root [name] = true) :
    fs.collect (Path.join [root, name]) =
      .ok ((sourceNames (opensBelow root) (fs.tree.height + 1) [name] below).map
        fun names => Path.join (root :: name :: names)) := by
  have hp := (leadsTo_of_lookup (lookup_of_lstat hroot)).1
  obtain ⟨hwfRoot, hdepth⟩ := wellFormed_of_lstat htree hroot
  cases hwfRoot with
  | dir _ _ hnames hsub =>
    have hwf : (Node.dir below).WellFormed := hsub _ hmem
    have hone : ∀ n ∈ [name], Path.IsName n := List.forall_mem_singleton.2 (hnames _ hmem).toIsName
    have hheight : Node.heights below < fs.tree.height + 1 := by
      have := Node.height_le_heights hmem
      rw [Node.height] at this
      omega
    have hdots' : ['.', '.'] ∉ parts (Path.join [root, name]) := by
      rw [Path.join_cons hp.ne_nil hdots hone]
      exact Path.dots_notMem_spelled (Path.isName_of_mem_plain_append hdots hone)
    rw [collect_eq_sourceNames htree hdots' (lstat_entry htree hdots hroot hmem ho),
      sourceNames_below hp hdots hwf (hnames _ hmem).toIsName (by omega) hheight]
    congr 1
    refine List.map_congr_left fun names hfound => ?_
    have hbelow : ∀ n ∈ names, Path.IsName n := fun n hn =>
      (((mem_sourceNames hheight).1 hfound).1.isEntryName hwf n hn).toIsName
    exact join_join hp hdots hone hbelow

/-- a walk that starts at a source of the directory collects it, even if it is a link to a directory -/
theorem collect_source (hmem : (name, n) ∈ entries) (hdir : n.isDir = false) (hx : hasSourceExtension name = true)
    {m : Node} (hm : fs.stat (Path.join [root, name]) = .ok m) :
    fs.collect (Path.join [root, name]) = .ok [Path.join [root, name]] := by
  have hp := (leadsTo_of_lookup (lookup_of_lstat hroot)).1
  have ho : opensBelow root [name] = true := by
    rw [opensBelow, decide_eq_true_eq]
    exact (isPathText_of_lookup (lookup_of_stat hm)).short
  have hx' : hasSourceExtension (Path.join [root, name]) = true := by
    cases (wellFormed_of_lstat htree hroot).1 with
    | dir _ _ hnames _ =>
      have hall : ∀ n ∈ ([] : List Name) ++ [name], Path.IsName n :=
        List.forall_mem_singleton.2 (hnames _ hmem).toIsName
      exact (hasSourceExtension_join hp hdots hall).trans hx
  have hvisits : fs.visits (Path.join [root, name]) = .ok [.source (Path.join [root, name])] := by
    rw [visits, hm, lstat_entry htree hdots hroot hmem ho]
    -- a link to a directory is not entered, but it has the extension of a source
    cases n <;> simp_all [Node.isDir]
  rw [collect, hvisits]
  rfl

/-- **An entry by itself.** A walk that starts at an entry collects what a walk through the directory collects in it. -/
theorem collect_entry (hmem : (name, n) ∈ entries) (hshard : isShard root (name, n) = true)
    (hstat : n.isDir = false → ∃ m, fs.stat (Path.join [root, name]) = .ok m) :
    fs.collect (Path.join [root, name]) =
      .ok ((entrySources (opensBelow root [name]) (sourceNames (opensBelow root) (fs.tree.height + 1) [name])
        (name, n)).map fun names => Path.join (root :: names)) := by
  rcases isShard_iff.1 hshard with ⟨hdir, hskip, ho⟩ | ⟨hdir, hx⟩
  · cases n with
    | dir below =>
      rw [collect_directory htree hdots hroot hmem ho, entrySources, hskip, ho]
      simp only [Bool.not_true, Bool.or_false, Bool.false_eq_true, if_false, List.map_map]
      rfl
    | _ => simp [Node.isDir] at hdir
  · obtain ⟨m, hm⟩ := hstat hdir
    have hsources : entrySources (opensBelow root [name])
        (sourceNames (opensBelow root) (fs.tree.height + 1) [name]) (name, n) = [[name]] := by
      cases n <;> simp_all [entrySources, Node.isDir]
    rw [collect_source htree hdots hroot hmem hdir hx hm, hsources]
    rfl

/-- the walk through the directory goes from shard to shard -/
theorem collect_shards
    (hstat : ∀ e ∈ entries, e.2.isDir = false → hasSourceExtension e.1 = true →
      ∃ m, fs.stat (Path.join [root, e.1]) = .ok m) :
    ∃ paths : Name × Node → List (List Char),
      (∀ e ∈ entries, isShard root e = true → fs.collect (Path.join [root, e.1]) = .ok (paths e)) ∧
      fs.collect root = .ok (((sortEntries entries).filter (isShard root)).flatMap paths) := by
  let found : Name × Node → List (List Name) := fun e =>
    entrySources (opensBelow root [e.1]) (sourceNames (opensBelow root) (fs.tree.height + 1) [e.1]) e
  refine ⟨fun e => (found e).map fun names => Path.join (root :: names), ?_, ?_⟩
  · rintro ⟨name, n⟩ hmem hshard
    refine collect_entry htree hdots hroot hmem hshard fun hdir => ?_
    rcases isShard_iff.1 hshard with ⟨hdir', -⟩ | ⟨-, hx⟩
    · rw [hdir] at hdir'
      exact absurd hdir' (by simp)
    · exact hstat _ hmem hdir hx
  · rw [collect_eq_sourceNames htree hdots hroot, sourceNames, List.map_flatMap]
    congr 1
    -- what is no shard contributes nothing
    induction sortEntries entries with
    | nil => rfl
    | cons e rest ih =>
      rw [List.flatMap_cons, ih, List.filter_cons, List.nil_append]
      cases hshard : isShard root e with
      | true => rw [if_pos rfl, List.flatMap_cons]
      | false =>
        rw [if_neg (by simp), entrySources_of_not_isShard hshard]
        rfl

end

/-- **Sharding.** The audit of a directory, spelled without `..` in any way, is the merge of the audits of its entries, in
strictly ascending byte order of their names. These entries are the directories that are not passed over and whose path
can be opened, and the others with the extension of a source. It is required of these others only that they exist, when
links are followed. All of these audits have a result, and the results agree as a whole, with the paths and the order of
their findings. -/
theorem auditPath_sharded {fs : FileSystem} {root : List Char} {entries : List (Name × Node)} (rules : List Rule)
    (htree : fs.tree.WellFormed) (hdots : ['.', '.'] ∉ parts root) (hroot : fs.lstat root = .ok (.dir entries))
    (hstat : ∀ e ∈ entries, e.2.isDir = false → hasSourceExtension e.1 = true →
      ∃ m, fs.stat (Path.join [root, e.1]) = .ok m) :
    ∃ shards : List Name,
      shards.Pairwise (fun a b => Utf8.encode a < Utf8.encode b) ∧
      (∀ name, name ∈ shards ↔ ∃ n, (name, n) ∈ entries ∧
        ((n.isDir = true ∧ isSkippedDir name = false ∧ opensBelow root [name] = true) ∨
          (n.isDir = false ∧ hasSourceExtension name = true))) ∧
      ∃ results : List Result,
        (shards.map fun name => fs.auditPath rules (Path.join [root, name])) = results.map .ok ∧
        fs.auditPath rules root = .ok (results.foldl Result.merge .empty) := by
  obtain ⟨paths, hshard, hwhole⟩ := collect_shards htree hdots hroot hstat
  cases (wellFormed_of_lstat htree hroot).1 with
  | dir _ hu _ _ =>
    refine ⟨((sortEntries entries).filter (isShard root)).map (·.1), ?_, fun name => ?_,
      ((sortEntries entries).filter (isShard root)).map fun e => fs.total rules (paths e), ?_, ?_⟩
    · rw [List.pairwise_map]
      exact (pairwise_sortEntries hu).filter _
    · simp only [List.mem_map, List.mem_filter, mem_sortEntries]
      constructor
      · rintro ⟨⟨name, n⟩, ⟨hmem, hkind⟩, rfl⟩
        exact ⟨n, hmem, isShard_iff.1 hkind⟩
      · rintro ⟨n, hmem, hkind⟩
        exact ⟨(name, n), ⟨hmem, isShard_iff.2 hkind⟩, rfl⟩
    · rw [List.map_map, List.map_map]
      refine List.map_congr_left fun e he => ?_
      obtain ⟨hmem, hkind⟩ := List.mem_filter.1 he
      exact auditPath_of_collect (hshard e (mem_sortEntries.1 hmem) hkind)
    · rw [auditPath_of_collect hwhole, total_flatMap]

/-- a link to the directory itself is audited by itself as what it is, and holds nothing that could be read -/
theorem auditPath_sharded_iosTree :
    ∃ shards : List Name,
      (∀ name, name ∈ shards ↔ ∃ n, (name, n) ∈ iosEntries ∧
        ((n.isDir = true ∧ isSkippedDir name = false ∧ opensBelow "./ios//".toList [name] = true) ∨
          (n.isDir = false ∧ hasSourceExtension name = true))) ∧
      ∃ results : List Result,
        (shards.map fun name => iosTree.auditPath catalog (Path.join ["./ios//".toList, name])) = results.map .ok ∧
        iosTree.auditPath catalog "./ios//".toList = .ok (results.foldl Result.merge .empty) := by
  have hroot : iosTree.lstat "./ios//".toList = .ok (.dir iosEntries) := by cbv
  have hstat : ∀ e ∈ iosEntries, e.2.isDir = false → hasSourceExtension e.1 = true →
      ∃ m, iosTree.stat (Path.join ["./ios//".toList, e.1]) = .ok m := by
    intro e he hdir _
    simp only [iosEntries, List.mem_cons, List.not_mem_nil, or_false] at he
    rcases he with rfl | rfl | rfl
    · exact ⟨.dir iosEntries, by cbv⟩
    · simp [Node.isDir] at hdir
    · simp [Node.isDir] at hdir
  obtain ⟨shards, -, hmem, hresults⟩ := auditPath_sharded catalog wellFormed_iosTree (by decide) hroot hstat
  exact ⟨shards, hmem, hresults⟩

/-! ## A directory that cannot be audited by itself -/

/-- there is no audit of a path that is too long -/
theorem auditPath_of_long {path : List Char} (hnul : '\x00' ∉ path)
    (hlong : pathLimit ≤ (Utf8.encode path).length) :
    fs.auditPath rules path = .error ⟨path, ⟨"stat", path, .nameTooLong⟩⟩ := by
  have hstat : fs.stat path = .error ⟨"stat", path, .nameTooLong⟩ := by
    rw [stat, lookup_of_long hnul hlong, Except.mapError]
  rw [auditPath, collect, visits, hstat, Except.map]

/-- an empty directory with a long name -/
def hollowEntries : List (Name × Node) := [(deepName, .dir [])]

def hollowTree : FileSystem := ⟨.dir [(loopName, .link ['.']), (['p'], .dir hollowEntries)], []⟩

theorem wellFormed_hollowTree : hollowTree.tree.WellFormed :=
  wellFormed_over_loop (wellFormed_singleton isEntryName_deepName (.dir _ (by simp) (by simp) (by simp)))

/-- **A directory can be too deep for an audit of its own.** It is empty and the only entry, so there is no source that
could not be looked up, and it is not passed over by its name. But there is no result for it that could be merged, while
the root has one. -/
theorem auditPath_hollowTree :
    hollowTree.tree.WellFormed ∧ ['.', '.'] ∉ parts loopRoot ∧ hollowTree.lstat loopRoot = .ok (.dir hollowEntries) ∧
    hollowEntries = [(deepName, .dir [])] ∧ isSkippedDir deepName = false ∧
    hollowTree.auditPath catalog loopRoot = .ok .empty ∧
    ¬ ∃ result, hollowTree.auditPath catalog (Path.join [loopRoot, deepName]) = .ok result := by
  have hroot : hollowTree.lstat loopRoot = .ok (.dir hollowEntries) := lstat_over_loop
  have hshards : (sortEntries hollowEntries).filter (isShard loopRoot) = [] := by
    simp [sortEntries, hollowEntries, isShard, opensBelow_loopRoot]
  have hwhole : hollowTree.auditPath catalog loopRoot = .ok .empty := by
    obtain ⟨paths, -, hcollect⟩ := collect_shards wellFormed_hollowTree dots_notMem_loopRoot hroot
      fun e he hdir => by simp_all [hollowEntries, Node.isDir]
    rw [hshards] at hcollect
    exact auditPath_of_collect hcollect
  have hname : ∀ n ∈ [deepName], Node.IsEntryName n := List.forall_mem_singleton.2 isEntryName_deepName
  have hnul := noNul_join isPathText_loopRoot dots_notMem_loopRoot hname
  have hlong : pathLimit ≤ (Utf8.encode (Path.join [loopRoot, deepName])).length := by
    simpa [opensBelow] using opensBelow_loopRoot
  refine ⟨wellFormed_hollowTree, dots_notMem_loopRoot, hroot, rfl, by decide, hwhole, ?_⟩
  rintro ⟨result, hresult⟩
  rw [auditPath_of_long hnul hlong] at hresult
  exact absurd hresult (by simp)

end AppAudit.FileSystem
