/-
The spelling of a root.

One directory can be spelled in many ways: with dots and repeated slashes, from the top or from the working directory,
and by way of links. All paths of a walk begin with the spelling of its root. But whether a directory is entered, whether
an entry is a source and what a report calls it is decided by the last name, and what is read at the end follows the names
below the root from the place where the root stands (`lookup_below`).

Two things of the spelling reach further down: how many bytes it takes, as no path of 4096 bytes can be looked up, and how
many links it goes through, as only 40 are followed on one way. `WithinLimits` is about these. Directories and sources
beyond the limits are passed over in silence.

Main results:
- `reports_agree`: two spellings of a root give the same text report, the same JSON report, and SARIF runs that differ at
  most in the places of their results, if they do not differ in which sources are within the limits;
- `reports_spinTree`: a directory with two sources, each of them beyond one of the limits under one of three spellings.
-/
import Mathlib.Tactic
import AppAudit.Proofs.Collection
import AppAudit.Proofs.Pathless

namespace AppAudit.FileSystem

variable {fs : FileSystem} {tree : Node} {root root₁ root₂ path : List Char} {entries : List (Name × Node)}
  {name : Name} {names here todo place : List Name} {links more left : Nat}

/-! ## Links on the way -/

/-- where the links were enough, more of them make no difference -/
theorem resolve_of_le {follow asDir : Bool} (h : resolve tree follow links here todo asDir ≠ .error .tooManyLinks)
    (hle : links ≤ more) : resolve tree follow more here todo asDir = resolve tree follow links here todo asDir := by
  -- one case per step of the look-up; only following a link counts
  induction links, here, todo, asDir using resolve.induct tree follow generalizing more with
  | case1 links asDir here n hn => simp only [resolve]
  | case2 links asDir here hn => simp only [resolve]
  | case3 links here rest asDir ih =>
    simp only [resolve, if_true] at h ⊢
    exact ih h hle
  | case4 links here rest asDir hne ih =>
    simp only [resolve, if_neg hne, if_true] at h ⊢
    exact ih h hle
  | case5 links here name rest asDir hd hu hl => simp only [resolve, if_neg hd, if_neg hu, if_pos hl]
  | case6 links here name rest asDir hd hu hl hc he | case7 links here name rest asDir hd hu hl hc he =>
    simp only [resolve, if_neg hd, if_neg hu, if_neg hl, hc]
  | case8 links here name rest asDir hd hu hl below hc ih =>
    simp only [resolve, if_neg hd, if_neg hu, if_neg hl, hc] at h ⊢
    exact ih h hle
  | case9 links here name rest asDir hd hu hl target hc hstop =>
    simp only [resolve, if_neg hd, if_neg hu, if_neg hl, hc, hstop, if_true]
  | case10 here name rest asDir hd hu hl target hc hstop =>
    simp [resolve, if_neg hd, if_neg hu, if_neg hl, hc, hstop] at h
  | case11 here name rest asDir hd hu hl target hc hstop links ih =>
    obtain ⟨more, rfl⟩ : ∃ k, more = k + 1 := Nat.exists_eq_add_one_of_ne_zero (by omega)
    simp only [resolve, if_neg hd, if_neg hu, if_neg hl, hc, hstop, Bool.false_eq_true, if_false] at h ⊢
    exact ih h (by omega)
  | case12 links here name rest asDir hd hu hl node hdir hlink hc he
  | case13 links here name rest asDir hd hu hl node hdir hlink hc he =>
    cases node with
    | dir below => exact absurd rfl (hdir below)
    | link target => exact absurd rfl (hlink target)
    | _ => simp only [resolve, if_neg hd, if_neg hu, if_neg hl, hc]

/-! ## Below a root -/

/-- what a look-up says of the place it comes to -/
def reached : Except FileCause Place → Except FileCause Node
  | .ok (.found _ n) => .ok n
  | .ok (.vacant _ _ _) => .error .notFound
  | .ok .blocked => .error .notDirectory
  | .error e => .error e

theorem lookup_eq_reached (follow : Bool) :
    fs.lookup follow path = reached (fs.locate follow path (endsInSlash path)) := by
  unfold lookup reached
  rfl

/-- a root that is found as a directory has names that lead there -/
theorem follows_of_locate (h : fs.locate false root (endsInSlash root) = .ok (.found place (.dir entries))) :
    IsPathText root ∧
      ∃ left, Follows fs.tree maxLinks (if Path.isAbs root then [] else fs.cwd) (Path.plain root) left place := by
  have hp := isPathText_of_locate h
  rw [hp.locate_eq] at h
  obtain ⟨⟨left, hfollows⟩, -⟩ := follows_of_resolve h
  exact ⟨hp, left, hfollows.withoutDots⟩

section

variable (hp : IsPathText root) (hdots : ['.', '.'] ∉ parts root)

include hp hdots

/-- what is below a root is looked up from the place where the root stands, with the links that the root has left -/
theorem lookup_below (hnames : ∀ n ∈ names, Node.IsEntryName n) (hne : names ≠ [])
    (hfollows : Follows fs.tree maxLinks (if Path.isAbs root then [] else fs.cwd) (Path.plain root) left place)
    (ho : opensBelow root names = true) :
    fs.lookup true (Path.join (root :: names)) = reached (resolve fs.tree true left place names false) := by
  have hslash := endsInSlash_join hp hdots (fun n hn => (hnames n hn).toIsName) hne
  obtain ⟨asDir, hsame, hresolve⟩ := hfollows.resolve_eq (Or.inr hne : true = true ∨ names ≠ []) false
  rw [lookup_eq_reached, hslash, locate_join hp hdots hnames hne ho, hresolve, hsame hne]

/-- a report calls a file below a root by its last name -/
theorem fileName_join (hnames : ∀ n ∈ names ++ [name], Path.IsName n) :
    fileName (String.ofList (Path.join (root :: (names ++ [name])))) = String.ofList name := by
  have hlast := lastPart_join hp hdots hnames
  have hne : Path.lastPart (Path.join (root :: (names ++ [name]))) ≠ [] := by
    rw [hlast]
    exact (hnames name (by simp)).ne_nil
  rw [fileName, String.toList_ofList, Path.base_eq_lastPart hne, hlast]

/-- the way to what can be opened can be opened -/
theorem opened_of_opensBelow (hnames : ∀ n ∈ names, Path.IsName n) (ho : opensBelow root names = true) :
    Opened (opensBelow root) [] names := by
  intro dirs hne hdirs
  obtain ⟨rest, rfl⟩ := hdirs.trans (List.dropLast_prefix names)
  have hdirs' : ∀ n ∈ dirs, Path.IsName n := fun n hn => hnames n (List.mem_append_left _ hn)
  have hprefix : Path.join (root :: dirs) <+: Path.join (root :: (dirs ++ rest)) := by
    rw [Path.join_cons hp.ne_nil hdots hdirs', Path.join_cons hp.ne_nil hdots hnames, ← List.append_assoc]
    exact Path.spelled_prefix _ (by simp [hne]) rest
  obtain ⟨more, hmore⟩ := hprefix
  rw [opensBelow, decide_eq_true_eq, ← hmore, Utf8.encode, List.flatMap_append, List.length_append] at ho
  rw [List.nil_append, opensBelow, decide_eq_true_eq, Utf8.encode]
  omega

end

/-! ## Limits -/

/-- the path is short enough to be looked up, and does not meet too many links -/
structure WithinLimits (fs : FileSystem) (path : List Char) : Prop where
  short : (Utf8.encode path).length < pathLimit
  links : fs.lookup true path ≠ .error .tooManyLinks

/-- what is found is within the limits -/
theorem withinLimits_of_lookup {n : Node} (h : fs.lookup true path = .ok n) : fs.WithinLimits path :=
  ⟨(isPathText_of_lookup h).short, by simp [h]⟩

/-- nothing is seen beyond the limits -/
theorem seenAt_of_not_withinLimits (hnul : '\x00' ∉ path) (h : ¬ fs.WithinLimits path) : fs.seenAt path = none := by
  have hlook : ∃ cause, fs.lookup true path = .error cause := by
    by_cases hshort : (Utf8.encode path).length < pathLimit
    · exact ⟨.tooManyLinks, by_contra fun hlinks => h ⟨hshort, hlinks⟩⟩
    · exact ⟨.nameTooLong, lookup_of_long hnul (not_lt.1 hshort)⟩
  obtain ⟨cause, hlook⟩ := hlook
  rw [seenAt, readFile, hlook]

/-! ## Two spellings -/

section

variable (hdots₁ : ['.', '.'] ∉ parts root₁) (hdots₂ : ['.', '.'] ∉ parts root₂)
  (h₁ : fs.locate false root₁ (endsInSlash root₁) = .ok (.found place (.dir entries)))
  (h₂ : fs.locate false root₂ (endsInSlash root₂) = .ok (.found place (.dir entries)))
  (hnames : ∀ n ∈ names, Node.IsEntryName n) (hne : names ≠ [])

include hdots₁ hdots₂ h₁ h₂ hnames hne

/-- within the limits, a path below a root leads to the same under both spellings -/
theorem lookup_spellings (hw₁ : fs.WithinLimits (Path.join (root₁ :: names)))
    (hw₂ : fs.WithinLimits (Path.join (root₂ :: names))) :
    fs.lookup true (Path.join (root₁ :: names)) = fs.lookup true (Path.join (root₂ :: names)) := by
  obtain ⟨hp₁, left₁, hfollows₁⟩ := follows_of_locate h₁
  obtain ⟨hp₂, left₂, hfollows₂⟩ := follows_of_locate h₂
  have hlook₁ := lookup_below hp₁ hdots₁ hnames hne hfollows₁ (by simpa [opensBelow] using hw₁.short)
  have hlook₂ := lookup_below hp₂ hdots₂ hnames hne hfollows₂ (by simpa [opensBelow] using hw₂.short)
  have henough₁ : resolve fs.tree true left₁ place names false ≠ .error .tooManyLinks := by
    intro he
    exact hw₁.links (by rw [hlook₁, he]; rfl)
  have henough₂ : resolve fs.tree true left₂ place names false ≠ .error .tooManyLinks := by
    intro he
    exact hw₂.links (by rw [hlook₂, he]; rfl)
  -- the spelling with fewer links left had enough of them
  rw [hlook₁, hlook₂]
  rcases le_total left₁ left₂ with hle | hle
  · rw [resolve_of_le henough₁ hle]
  · rw [resolve_of_le henough₂ hle]

/-- the rules see the same of a source under both spellings, unless only one of them is within the limits -/
theorem seenAt_spellings (hlimits : fs.WithinLimits (Path.join (root₁ :: names)) ↔
      fs.WithinLimits (Path.join (root₂ :: names))) :
    fs.seenAt (Path.join (root₁ :: names)) = fs.seenAt (Path.join (root₂ :: names)) := by
  have hp₁ := (follows_of_locate h₁).1
  have hp₂ := (follows_of_locate h₂).1
  by_cases hw₁ : fs.WithinLimits (Path.join (root₁ :: names))
  · have hlook := lookup_spellings hdots₁ hdots₂ h₁ h₂ hnames hne hw₁ (hlimits.1 hw₁)
    have hcalled : fileName (String.ofList (Path.join (root₁ :: names))) =
        fileName (String.ofList (Path.join (root₂ :: names))) := by
      obtain ⟨dirs, name, rfl⟩ := (List.eq_nil_or_concat' names).resolve_left hne
      have hall : ∀ n ∈ dirs ++ [name], Path.IsName n := fun n hn => (hnames n hn).toIsName
      rw [fileName_join hp₁ hdots₁ hall, fileName_join hp₂ hdots₂ hall]
    rw [seenAt, seenAt, readFile, readFile, hlook, hcalled]
    cases fs.lookup true (Path.join (root₂ :: names)) with
    | error cause => rfl
    | ok n => cases n <;> rfl
  · rw [seenAt_of_not_withinLimits (noNul_join hp₁ hdots₁ hnames) hw₁,
      seenAt_of_not_withinLimits (noNul_join hp₂ hdots₂ hnames) fun hw₂ => hw₁ (hlimits.2 hw₂)]

end

/-- ordered lists of names that hold the same of what counts come to the same -/
theorem filterMap_eq_of_pairwise_precedes {α : Type} {a b : List (List Name)} (ha : a.Pairwise Precedes)
    (hb : b.Pairwise Precedes) (f : List Name → Option α)
    (h : ∀ names, (f names).isSome = true → (names ∈ a ↔ names ∈ b)) : a.filterMap f = b.filterMap f := by
  have hdrop : ∀ l : List (List Name), (l.filter fun names => (f names).isSome).filterMap f = l.filterMap f := by
    intro l
    rw [List.filterMap_filter]
    congr 1
    funext names
    cases f names <;> rfl
  have hsame : (a.filter fun names => (f names).isSome) = b.filter fun names => (f names).isSome := by
    refine eq_of_pairwise_precedes (ha.filter _) (hb.filter _) fun names => ?_
    simp only [List.mem_filter, and_congr_left_iff]
    exact h names
  rw [← hdrop a, hsame, hdrop b]

/-- the paths that two spellings of a root collect are different texts, but the rules see the same of them -/
theorem seen_spellings (htree : fs.tree.WellFormed) (hdots₁ : ['.', '.'] ∉ parts root₁)
    (hdots₂ : ['.', '.'] ∉ parts root₂)
    (h₁ : fs.locate false root₁ (endsInSlash root₁) = .ok (.found place (.dir entries)))
    (h₂ : fs.locate false root₂ (endsInSlash root₂) = .ok (.found place (.dir entries)))
    (hlimits : ∀ names, LeadsToSource entries names →
      (fs.WithinLimits (Path.join (root₁ :: names)) ↔ fs.WithinLimits (Path.join (root₂ :: names)))) :
    ∃ paths₁ paths₂, fs.collect root₁ = .ok paths₁ ∧ fs.collect root₂ = .ok paths₂ ∧
      paths₁.filterMap fs.seenAt = paths₂.filterMap fs.seenAt := by
  have hp₁ := (follows_of_locate h₁).1
  have hp₂ := (follows_of_locate h₂).1
  have hroot₁ := lstat_of_locate h₁
  have hroot₂ := lstat_of_locate h₂
  obtain ⟨hwf, hdepth⟩ := wellFormed_of_lstat htree hroot₁
  refine ⟨_, _, collect_eq_sourceNames htree hdots₁ hroot₁, collect_eq_sourceNames htree hdots₂ hroot₂, ?_⟩
  rw [List.filterMap_map, List.filterMap_map]
  have hseen : ∀ names, LeadsToSource entries names →
      fs.seenAt (Path.join (root₁ :: names)) = fs.seenAt (Path.join (root₂ :: names)) := by
    intro names hsource
    exact seenAt_spellings hdots₁ hdots₂ h₁ h₂ (hsource.isEntryName hwf) hsource.ne_nil (hlimits names hsource)
  -- what is seen is within both limits, so both walks come by
  have hmem : ∀ names, (fs.seenAt (Path.join (root₁ :: names))).isSome = true →
      (names ∈ sourceNames (opensBelow root₁) (fs.tree.height + 2) [] entries ↔
        names ∈ sourceNames (opensBelow root₂) (fs.tree.height + 2) [] entries) := by
    intro names hsome
    rw [mem_sourceNames hdepth, mem_sourceNames hdepth]
    refine and_congr_right fun hsource => ?_
    have hnames := hsource.isEntryName hwf
    have hw₁ : fs.WithinLimits (Path.join (root₁ :: names)) := by
      by_contra hw
      rw [seenAt_of_not_withinLimits (noNul_join hp₁ hdots₁ hnames) hw] at hsome
      exact absurd hsome (by simp)
    have hw₂ := (hlimits names hsource).1 hw₁
    have hnames' : ∀ n ∈ names, Path.IsName n := fun n hn => (hnames n hn).toIsName
    exact iff_of_true (opened_of_opensBelow hp₁ hdots₁ hnames' (by simpa [opensBelow] using hw₁.short))
      (opened_of_opensBelow hp₂ hdots₂ hnames' (by simpa [opensBelow] using hw₂.short))
  calc (sourceNames (opensBelow root₁) (fs.tree.height + 2) [] entries).filterMap
        (fs.seenAt ∘ fun names => Path.join (root₁ :: names))
      = (sourceNames (opensBelow root₂) (fs.tree.height + 2) [] entries).filterMap
        (fs.seenAt ∘ fun names => Path.join (root₁ :: names)) :=
        filterMap_eq_of_pairwise_precedes (pairwise_sourceNames hwf) (pairwise_sourceNames hwf) _ hmem
    _ = (sourceNames (opensBelow root₂) (fs.tree.height + 2) [] entries).filterMap
        (fs.seenAt ∘ fun names => Path.join (root₂ :: names)) := by
        refine List.filterMap_congr fun names hn => ?_
        exact hseen names ((mem_sourceNames hdepth).1 hn).1

/-- **The spelling of a root does not matter.** Two spellings without `..` that stand for the same directory give audits
with the same text report and the same JSON report, byte by byte, and with SARIF runs that differ at most in the places
of their results. It is required that no source is within the limits of the system under one of the spellings only. -/
theorem reports_agree {fs : FileSystem} {root₁ root₂ : List Char} {place : List Name} {entries : List (Name × Node)}
    (rules : List Rule) (htree : fs.tree.WellFormed) (hdots₁ : ['.', '.'] ∉ parts root₁)
    (hdots₂ : ['.', '.'] ∉ parts root₂)
    (h₁ : fs.locate false root₁ (endsInSlash root₁) = .ok (.found place (.dir entries)))
    (h₂ : fs.locate false root₂ (endsInSlash root₂) = .ok (.found place (.dir entries)))
    (hlimits : ∀ names, LeadsToSource entries names →
      (fs.WithinLimits (Path.join (root₁ :: names)) ↔ fs.WithinLimits (Path.join (root₂ :: names)))) :
    ∃ r₁ r₂, fs.auditPath rules root₁ = .ok r₁ ∧ fs.auditPath rules root₂ = .ok r₂ ∧
      (∀ c₁ c₂, ReportFormat.text.render r₁ c₁ = ReportFormat.text.render r₂ c₂ ∧
        ReportFormat.json.render r₁ c₁ = ReportFormat.json.render r₂ c₂) ∧
      ∀ toolVersion guid provenance,
        (Sarif.run r₁ toolVersion guid provenance).uriless = (Sarif.run r₂ toolVersion guid provenance).uriless := by
  obtain ⟨paths₁, paths₂, hcollect₁, hcollect₂, hseen⟩ := seen_spellings htree hdots₁ hdots₂ h₁ h₂ hlimits
  have hpathless : (fs.total rules paths₁).pathless = (fs.total rules paths₂).pathless := by
    rw [pathless_total, pathless_total, hseen]
  refine ⟨fs.total rules paths₁, fs.total rules paths₂, ?_, ?_, ?_, ?_⟩
  · exact auditPath_of_collect hcollect₁
  · exact auditPath_of_collect hcollect₂
  · exact render_of_pathless hpathless
  · exact Sarif.run_of_pathless hpathless

/-- spelled in two ways, a directory with a link to itself and a file further down -/
theorem reports_agree_iosTree :
    ∃ r₁ r₂, iosTree.auditPath catalog "./ios//".toList = .ok r₁ ∧ iosTree.auditPath catalog "/ios".toList = .ok r₂ ∧
      ∀ c₁ c₂, ReportFormat.text.render r₁ c₁ = ReportFormat.text.render r₂ c₂ ∧
        ReportFormat.json.render r₁ c₁ = ReportFormat.json.render r₂ c₂ := by
  have hroot₁ : iosTree.locate false "./ios//".toList true = .ok (.found ["ios".toList] (.dir iosEntries)) := by cbv
  have hroot₂ : iosTree.locate false "/ios".toList false = .ok (.found ["ios".toList] (.dir iosEntries)) := by cbv
  have hsources : sourceNames (fun _ => true) 2 [] iosEntries = [["a".toList, "b.ts".toList], ["a.ts".toList]] := by cbv
  have hlimits : ∀ names, LeadsToSource iosEntries names →
      (iosTree.WithinLimits (Path.join ("./ios//".toList :: names)) ↔
        iosTree.WithinLimits (Path.join ("/ios".toList :: names))) := by
    intro names hsource
    have hmem : names ∈ sourceNames (fun _ => true) 2 [] iosEntries :=
      (mem_sourceNames (by decide)).2 ⟨hsource, fun _ _ _ => rfl⟩
    rw [hsources, List.mem_cons, List.mem_singleton] at hmem
    rcases hmem with rfl | rfl
    · have hlook₁ : iosTree.lookup true (Path.join ["./ios//".toList, "a".toList, "b.ts".toList]) = .ok (.file []) := by
        cbv
      have hlook₂ : iosTree.lookup true (Path.join ["/ios".toList, "a".toList, "b.ts".toList]) = .ok (.file []) := by
        cbv
      exact iff_of_true (withinLimits_of_lookup hlook₁) (withinLimits_of_lookup hlook₂)
    · have hlook₁ : iosTree.lookup true (Path.join ["./ios//".toList, "a.ts".toList]) = .ok (.dir iosEntries) := by cbv
      have hlook₂ : iosTree.lookup true (Path.join ["/ios".toList, "a.ts".toList]) = .ok (.dir iosEntries) := by cbv
      exact iff_of_true (withinLimits_of_lookup hlook₁) (withinLimits_of_lookup hlook₂)
  obtain ⟨r₁, r₂, h₁, h₂, hreports, -⟩ :=
    reports_agree catalog wellFormed_iosTree (by decide) (by decide) hroot₁ hroot₂ hlimits
  exact ⟨r₁, r₂, h₁, h₂, hreports⟩

/-! ## Beyond the limits -/

/-- a source with a long name -/
def spunName : Name := List.replicate 75 'a' ++ ".ts".toList

def spunBytes : List UInt8 := Utf8.encode "react-native".toList

/-- a source with a long name, and one that is a link -/
def spunEntries : List (Name × Node) := [(spunName, .file spunBytes), ("x.ts".toList, .link "../y".toList)]

/-- two links to where they stand, one with a short and one with a long name -/
def spinTree : FileSystem :=
  ⟨.dir [(['l'], .link ['.']), (loopName, .link ['.']), (['p'], .dir spunEntries), (['y'], .file spunBytes)], []⟩

theorem isEntryName_spunName : Node.IsEntryName spunName := by decide

theorem wellFormed_spinTree : spinTree.tree.WellFormed := by
  refine .dir _ (by decide) ?_ ?_
  · have hshort : ∀ name ∈ [['l'], ['p'], ['y']], Node.IsEntryName name := by decide
    simpa [isEntryName_loopName] using hshort
  intro e he
  simp only [List.mem_cons, List.not_mem_nil, or_false] at he
  rcases he with rfl | rfl | rfl | rfl
  · exact .link _
  · exact .link _
  · refine .dir _ (by decide) (by decide) ?_
    intro e he
    simp only [spunEntries, List.mem_cons, List.not_mem_nil, or_false] at he
    rcases he with rfl | rfl
    · exact .file _
    · exact .link _
  · exact .file _

theorem at?_spinTree {n : Node} (h : (name, n) ∈ [(['l'], Node.link ['.']), (loopName, .link ['.']),
    (['p'], .dir spunEntries), (['y'], .file spunBytes)]) : spinTree.tree.at? ([] ++ [name]) = some n :=
  at?_entry (by decide) h

theorem at?_spunEntries : spinTree.tree.at? ([] ++ [['p']]) = some (.dir spunEntries) := at?_spinTree (by simp)

theorem child?_spunEntries {n : Node} (h : (name, n) ∈ spunEntries) :
    (spinTree.tree.at? [['p']]).bind (fun m => m.child? name) = some n := by
  rw [← List.nil_append [['p']], at?_spunEntries, Option.bind_some]
  exact Node.child?_of_mem (by decide) h

/-- the long name is looked up without links -/
theorem resolve_spunName (left : Nat) :
    resolve spinTree.tree true left [['p']] [spunName] false = .ok (.found [['p'], spunName] (.file spunBytes)) := by
  have hchild := child?_spunEntries (by simp [spunEntries] : (spunName, Node.file spunBytes) ∈ spunEntries)
  rw [resolve, if_neg isEntryName_spunName.ne_dot, if_neg isEntryName_spunName.ne_dots,
    if_neg (not_lt.2 isEntryName_spunName.short), hchild]
  rfl

/-- the link takes one more link -/
theorem resolve_spunLink (left : Nat) :
    resolve spinTree.tree true left [['p']] ["x.ts".toList] false =
      if left = 0 then .error .tooManyLinks else .ok (.found [['y']] (.file spunBytes)) := by
  have hchild := child?_spunEntries (by simp [spunEntries] : ("x.ts".toList, Node.link "../y".toList) ∈ spunEntries)
  have htarget : (spinTree.tree.at? []).bind (fun n => n.child? ['y']) = some (.file spunBytes) := by
    rw [← Node.at?_append_singleton]
    exact at?_spinTree (by simp)
  have hparts : parts "../y".toList ++ [] = [['.', '.'], ['y']] := by decide
  rw [resolve, if_neg (by decide), if_neg (by decide), if_neg (by decide), hchild]
  cases left with
  | zero => rfl
  | succ left =>
    dsimp only
    rw [if_neg (by simp), if_neg (by decide), hparts, resolve, if_neg (by decide), if_pos rfl, resolve, if_neg (by decide),
      if_neg (by decide), if_neg (by decide), List.dropLast_singleton, htarget]
    rfl

theorem isSome_seenAt (h : fs.lookup true path = .ok (.file spunBytes)) : (fs.seenAt path).isSome = true := by
  have hscope : (Frameworks.detect (Utf8.decode spunBytes)).inScope = true := by decide
  rw [seenAt, readFile, h]
  exact congrArg Option.isSome (if_pos hscope)

/-- the directory can be spelled with so many rounds of a loop, and so many links are left then -/
structure Spins (name : Name) (rounds left : Nat) : Prop where
  isEntryName : Node.IsEntryName name
  short : rounds * ((Utf8.encode name).length + 1) + 1 < pathLimit
  budget : rounds + left = maxLinks
  loop : spinTree.tree.at? ([] ++ [name]) = some (.link ['.'])

namespace Spins

variable {rounds : Nat} (h : Spins name rounds left)

include h

theorem locate_eq : spinTree.locate false (loopPath name rounds) (endsInSlash (loopPath name rounds)) =
    .ok (.found [['p']] (.dir spunEntries)) :=
  locate_loopPath h.isEntryName h.short rfl h.budget h.loop at?_spunEntries _ _

theorem lookup_eq (hnames : ∀ n ∈ names, Node.IsEntryName n) (hne : names ≠ [])
    (ho : opensBelow (loopPath name rounds) names = true) :
    spinTree.lookup true (Path.join (loopPath name rounds :: names)) =
      reached (resolve spinTree.tree true left [['p']] names false) :=
  lookup_below (isPathText_loopPath h.isEntryName h.short) (dots_notMem_loopPath h.isEntryName) hnames hne
    (follows_loopPath h.isEntryName rfl h.budget h.loop at?_spunEntries) ho

theorem seenAt_of_not (hnames : ∀ n ∈ names, Node.IsEntryName n)
    (hw : ¬ spinTree.WithinLimits (Path.join (loopPath name rounds :: names))) :
    spinTree.seenAt (Path.join (loopPath name rounds :: names)) = none :=
  seenAt_of_not_withinLimits
    (noNul_join (isPathText_loopPath h.isEntryName h.short) (dots_notMem_loopPath h.isEntryName) hnames) hw

/-- the source with the long name is seen if its path is short enough -/
theorem seenAt_spunName : (spinTree.seenAt (Path.join [loopPath name rounds, spunName])).isSome =
    opensBelow (loopPath name rounds) [spunName] := by
  have hname : ∀ n ∈ [spunName], Node.IsEntryName n := List.forall_mem_singleton.2 isEntryName_spunName
  cases ho : opensBelow (loopPath name rounds) [spunName] with
  | true =>
    have hlook := h.lookup_eq hname (by simp) ho
    rw [resolve_spunName] at hlook
    exact isSome_seenAt hlook
  | false =>
    rw [opensBelow, decide_eq_false_iff_not] at ho
    rw [h.seenAt_of_not hname fun hw => ho hw.short]
    rfl

/-- the link is seen if there is one more link to follow -/
theorem seenAt_spunLink (ho : opensBelow (loopPath name rounds) ["x.ts".toList] = true) :
    (spinTree.seenAt (Path.join [loopPath name rounds, "x.ts".toList])).isSome = decide (left ≠ 0) := by
  have hname : ∀ n ∈ ["x.ts".toList], Node.IsEntryName n := by decide
  have hlook := h.lookup_eq hname (by simp) ho
  rw [resolve_spunLink] at hlook
  cases left with
  | zero =>
    rw [h.seenAt_of_not hname fun hw => hw.links hlook]
    rfl
  | succ left => exact isSome_seenAt hlook

/-- how many of the two sources are read, as long as there is space for the short name -/
theorem filesChecked_eq (hspace : rounds * ((Utf8.encode name).length + 1) + 1 + (1 + 4) < pathLimit) :
    ∃ r, spinTree.auditPath catalog (loopPath name rounds) = .ok r ∧
      r.filesChecked = (if rounds * ((Utf8.encode name).length + 1) + 1 + (1 + 78) < pathLimit then 1 else 0) +
        (if left = 0 then 0 else 1) := by
  have hopens : opensBelow (loopPath name rounds) [spunName] =
      decide (rounds * ((Utf8.encode name).length + 1) + 1 + (1 + 78) < pathLimit) :=
    opensBelow_loopPath h.isEntryName h.short isEntryName_spunName.toIsName
  have hopens' : opensBelow (loopPath name rounds) ["x.ts".toList] = true := by
    have hx : Path.IsName "x.ts".toList := ⟨by decide, by decide, by decide, by decide⟩
    exact (opensBelow_loopPath h.isEntryName h.short hx).trans (decide_eq_true hspace)
  have hsources : sourceNames (opensBelow (loopPath name rounds)) (spinTree.tree.height + 2) [] spunEntries =
      [[spunName], ["x.ts".toList]] := by
    have hsort : sortEntries spunEntries = spunEntries := List.mergeSort_of_pairwise (by decide)
    have hext : hasSourceExtension spunName = true := by decide
    have hext' : hasSourceExtension "x.ts".toList = true := by decide
    rw [sourceNames, hsort]
    simp only [spunEntries, List.flatMap_cons, List.flatMap_nil, entrySources, hext, hext', if_true]
    rfl
  have hcount : ∀ a b : List Char, (pathlessTotal catalog ([a, b].filterMap spinTree.seenAt)).filesChecked =
      (if (spinTree.seenAt a).isSome then 1 else 0) + (if (spinTree.seenAt b).isSome then 1 else 0) := by
    intro a b
    cases ha : spinTree.seenAt a <;> cases hb : spinTree.seenAt b <;> simp [pathlessTotal, ha, hb]
  have hcollect := collect_eq_sourceNames wellFormed_spinTree (dots_notMem_loopPath h.isEntryName)
    (lstat_of_locate h.locate_eq)
  rw [hsources] at hcollect
  refine ⟨_, auditPath_of_collect hcollect, ?_⟩
  rw [← Result.filesChecked_pathless, pathless_total]
  refine (hcount _ _).trans ?_
  rw [h.seenAt_spunName, h.seenAt_spunLink hopens', hopens]
  simp only [decide_eq_true_eq, ite_not]

end Spins

/-- text reports about two files and about one file differ in their first line -/
theorem content_text_ne {r s : Result} (hr : r.filesChecked = 2) (hs : s.filesChecked = 1) (c : ReportContext) :
    (ReportFormat.text.render r c).map Rendering.content ≠ (ReportFormat.text.render s c).map Rendering.content := by
  simp only [ReportFormat.render, Except.map, Rendering.content, TextReport.lines, Result.snapshot, hr, hs,
    List.map_append, List.map_cons, List.flatten_append, List.flatten_cons, List.append_assoc, ne_eq, Except.ok.injEq]
  intro h
  exact absurd (List.append_inj_left h (by decide)) (by decide)

/-- **The limits of the system show.** Three spellings stand for one directory. From the short one both of its sources are
read. Behind the loop with the long name one of them has a path that is too long, and behind forty rounds of the loop with
the short name the other takes one link too many. It is left out without a word, and the text reports differ. -/
theorem reports_spinTree :
    spinTree.tree.WellFormed ∧
    (∀ root ∈ [loopPath ['l'] 0, loopPath loopName 16, loopPath ['l'] 40], ['.', '.'] ∉ parts root ∧
      spinTree.locate false root (endsInSlash root) = .ok (.found [['p']] (.dir spunEntries))) ∧
    ∃ short long round, spinTree.auditPath catalog (loopPath ['l'] 0) = .ok short ∧
      spinTree.auditPath catalog (loopPath loopName 16) = .ok long ∧
      spinTree.auditPath catalog (loopPath ['l'] 40) = .ok round ∧
      ∀ c, (ReportFormat.text.render short c).map Rendering.content ≠
          (ReportFormat.text.render long c).map Rendering.content ∧
        (ReportFormat.text.render short c).map Rendering.content ≠
          (ReportFormat.text.render round c).map Rendering.content := by
  have hl : Node.IsEntryName ['l'] := by decide
  have hloop : spinTree.tree.at? ([] ++ [['l']]) = some (.link ['.']) := at?_spinTree (by simp)
  have hshort : Spins ['l'] 0 40 := ⟨hl, by decide, rfl, hloop⟩
  have hlong : Spins loopName 16 24 := ⟨isEntryName_loopName, short_loopRoot, rfl, at?_spinTree (by simp)⟩
  have hround : Spins ['l'] 40 0 := ⟨hl, by decide, rfl, hloop⟩
  obtain ⟨short, hauditShort, hcountShort⟩ := hshort.filesChecked_eq (by decide)
  obtain ⟨long, hauditLong, hcountLong⟩ := hlong.filesChecked_eq (by rw [length_loopName]; decide)
  obtain ⟨round, hauditRound, hcountRound⟩ := hround.filesChecked_eq (by decide)
  rw [length_loopName] at hcountLong
  refine ⟨wellFormed_spinTree, ?_, short, long, round, hauditShort, hauditLong, hauditRound, fun c => ?_⟩
  · intro root hroot
    simp only [List.mem_cons, List.not_mem_nil, or_false] at hroot
    rcases hroot with rfl | rfl | rfl
    · exact ⟨dots_notMem_loopPath hl, hshort.locate_eq⟩
    · exact ⟨dots_notMem_loopPath isEntryName_loopName, hlong.locate_eq⟩
    · exact ⟨dots_notMem_loopPath hl, hround.locate_eq⟩
  · exact ⟨content_text_ne (hcountShort.trans (by decide)) (hcountLong.trans (by decide)) c,
      content_text_ne (hcountShort.trans (by decide)) (hcountRound.trans (by decide)) c⟩

end AppAudit.FileSystem
