/-
The page of a remote repository, for every address.

A page is put together from the path of an address, or it is the address itself. The path of a URL with a host is empty
or starts with a slash (`Url.Rooted`), so its first part is empty and the project is looked for behind it. On the host
with nested groups the part behind it may be `-`, which leaves no project; this is the one kind of address for which
there is no answer at all (`Remote.DashFirst`).

Main results:
- `Remote.webUrl_eq_error_iff`: the addresses without an answer;
- `Remote.webUrl_cases` and `Remote.webUrl_eq_nil_iff`: the pages of all others.
-/
import Mathlib.Tactic
import AppAudit.Repository.Remote

namespace AppAudit

/-! ## Parts of a text -/

section

variable {α : Type} [DecidableEq α] {c : α} {s : List α}

theorem splitAt_ne_nil (c : α) (s : List α) : splitAt c s ≠ [] := by
  cases s with
  | nil => exact List.cons_ne_nil _ _
  | cons d s =>
    unfold splitAt
    split
    · exact List.cons_ne_nil _ _
    · split_ifs <;> exact List.cons_ne_nil _ _

theorem splitAt_cons_self (c : α) (s : List α) : splitAt c (c :: s) = [] :: splitAt c s := by
  obtain ⟨part, more, h⟩ := List.exists_cons_of_ne_nil (splitAt_ne_nil c s)
  rw [splitAt, h]
  exact if_pos rfl

theorem splitAt_cons_of_ne {d : α} (hd : d ≠ c) (s : List α) :
    ∃ part more, splitAt c s = part :: more ∧ splitAt c (d :: s) = (d :: part) :: more := by
  obtain ⟨part, more, h⟩ := List.exists_cons_of_ne_nil (splitAt_ne_nil c s)
  refine ⟨part, more, h, ?_⟩
  rw [splitAt, h]
  exact if_neg hd

/-- the first of several parts ends where the separator is -/
theorem eq_append_of_splitAt {part next : List α} {more : List (List α)} (h : splitAt c s = part :: next :: more) :
    ∃ rest, s = part ++ c :: rest := by
  induction s generalizing part with
  | nil => cases h
  | cons d s ih =>
    by_cases hd : d = c
    · subst hd
      rw [splitAt_cons_self] at h
      obtain ⟨rfl, -⟩ := List.cons.inj h
      exact ⟨s, rfl⟩
    · obtain ⟨first, others, hs, hds⟩ := splitAt_cons_of_ne hd s
      rw [hds] at h
      obtain ⟨rfl, rfl⟩ := List.cons.inj h
      obtain ⟨rest, rfl⟩ := ih hs
      exact ⟨rest, rfl⟩

end

/-! ## Paths of URLs -/

namespace Utf8

theorem width_slash (bytes : List UInt8) : width (0x2f :: bytes) = 1 := by
  have hdecoded : decode ((0x2f :: bytes).take 1) = ['/'] := by
    rw [List.take_succ_cons, List.take_zero]
    rfl
  unfold width
  rw [List.find?_cons, hdecoded, List.take_succ_cons, List.take_zero]
  rfl

theorem letters_slash (bytes : List UInt8) : letters (0x2f :: bytes) = .char '/' :: letters bytes := by
  rw [letters, width_slash]
  rfl

end Utf8

namespace Url

/-- the path of a URL with a host is empty or starts with a slash -/
def Rooted (u : Url) : Prop := u.path = {} ∨ ∃ rest, u.path = RawText.ofString "/" ++ rest

theorem rooted_of_withPath? {scheme host path : List Char} {u : Url} (h : withPath? scheme host path = some u)
    (hpath : path = [] ∨ path.head? = some '/') : u.Rooted := by
  obtain ⟨bytes, hbytes, rfl⟩ := Option.map_eq_some_iff.1 h
  cases path with
  | nil =>
    obtain rfl := Option.some.inj hbytes
    left
    exact congrArg RawText.mk (by rw [Utf8.letters] : Utf8.letters [] = [])
  | cons c path =>
    obtain rfl : c = '/' := by simpa using hpath
    obtain ⟨more, -, rfl⟩ := Option.map_eq_some_iff.1 (hbytes : (unescape? path).map _ = some bytes)
    right
    exact ⟨.ofBytes more, congrArg RawText.mk (Utf8.letters_slash more)⟩

theorem host_of_withPath? {scheme host path : List Char} {u : Url} (h : withPath? scheme host path = some u) :
    u.host = host := by
  obtain ⟨bytes, -, rfl⟩ := Option.map_eq_some_iff.1 h
  rfl

theorem rooted_of_readRest? {scheme rest : List Char} {u : Url} (h : readRest? scheme rest = some u)
    (hhost : u.host ≠ []) : u.Rooted := by
  unfold readRest? at h
  split at h
  · rename_i more
    split_ifs at h
    · exact absurd (host_of_withPath? h) hhost
    · obtain ⟨host, -, hpath⟩ := Option.bind_eq_some_iff.1 h
      apply rooted_of_withPath? hpath
      have hstop := List.head?_dropWhile_not (· ≠ '/') more
      cases hmore : more.dropWhile (· ≠ '/') with
      | nil => exact Or.inl rfl
      | cons c rest =>
        right
        rw [hmore] at hstop
        simpa using hstop
  · exact absurd (host_of_withPath? h) hhost
  · split_ifs at h
    · cases h
      exact absurd rfl hhost
    · exact absurd (host_of_withPath? h) hhost

theorem rooted_of_read? {s : List Char} {u : Url} (h : read? s = some u) (hhost : u.host ≠ []) : u.Rooted := by
  unfold read? at h
  dsimp only at h
  split_ifs at h
  · cases h
    exact absurd rfl hhost
  · split at h
    · cases h
    · exact rooted_of_readRest? h hhost

end Url

namespace Remote

/-! ## Pages -/

theorem rooted_of_url? {address : List Char} {u : Url} (h : url? address = some u) (hhost : u.host ≠ []) :
    u.Rooted := by
  obtain ⟨v, hv, hu⟩ := Option.bind_eq_some_iff.1 h
  split_ifs at hu
  · exact Url.rooted_of_read? hu hhost
  · cases hu
    exact Url.rooted_of_read? hv hhost

/-- the address leads to the host with nested groups, and its path starts with a part `-` -/
def DashFirst (remote : List Char) : Prop :=
  ∃ (scheme : List Char) (rest : RawText),
    url? (trimmed remote) = some ⟨scheme, "gitlab.com".toList, .ofString "/-/" ++ rest⟩

/-- the page of a project on one of the known hosts, with an owner and a name -/
def IsProjectPage (page : RawText) : Prop :=
  ∃ (host : String) (owner name : RawText), host ∈ ["github.com", "bitbucket.org", "gitlab.com"] ∧
    owner.isEmpty = false ∧ name.isEmpty = false ∧
    page = .ofString "https://" ++ .ofString host ++ .ofString "/" ++ owner ++ .ofString "/" ++ name

/-- a path that starts with a slash has an empty part first -/
theorem split_slash (rest : RawText) : (.ofString "/" ++ rest : RawText).split '/' = {} :: rest.split '/' :=
  congrArg (List.map RawText.mk) (splitAt_cons_self (.char '/' : Utf8.Letter) rest.letters)

/-- a text whose first part is `-`, with more parts behind it -/
theorem head_split_dash {rest next : RawText} {more : List RawText}
    (h : rest.split '/' = .ofString "-" :: next :: more) : ∃ last, rest = .ofString "-/" ++ last := by
  unfold RawText.split at h
  obtain ⟨part, parts, hsplit, hpart, hparts⟩ := List.map_eq_cons_iff.1 h
  obtain ⟨part', parts', rfl, -, -⟩ := List.map_eq_cons_iff.1 hparts
  obtain ⟨last, hlast⟩ := eq_append_of_splitAt hsplit
  have hdash : part = [.char '-'] := congrArg RawText.letters hpart
  subst hdash
  exact ⟨⟨last⟩, congrArg RawText.mk hlast⟩

theorem split_dash (last : RawText) :
    (.ofString "-/" ++ last : RawText).split '/' = .ofString "-" :: last.split '/' := by
  have hdash : (.char '-' : Utf8.Letter) ≠ .char '/' := by decide
  obtain ⟨part, more, hslash, hparts⟩ := splitAt_cons_of_ne hdash (.char '/' :: last.letters)
  rw [splitAt_cons_self] at hslash
  obtain ⟨rfl, rfl⟩ := List.cons.inj hslash
  exact congrArg (List.map RawText.mk) hparts

theorem split_ne_nil (s : RawText) (c : Char) : s.split c ≠ [] := fun h => splitAt_ne_nil _ _ (List.map_eq_nil_iff.1 h)

/-- what is left of a path on the host with nested groups, from its second part on -/
theorem nestedProject?_cons (host : String) (first : RawText) (more : List RawText) :
    nestedProject? host ({} :: first :: more) =
      if more = [] then .ok none
      else if first = .ofString "-" then .error ⟨⟩
      else
        let used := first :: more.takeWhile (· ≠ .ofString "-")
        .ok (some ⟨host.toList, .join '/' used.dropLast, (used.getLast?.getD {}).dropEnding ".git"⟩) := by
  have hempty : ({} : RawText) ≠ .ofString "-" := by decide
  unfold nestedProject?
  rw [List.takeWhile_cons_of_pos (by simpa using hempty), List.drop_one, List.tail_cons]
  cases more with
  | nil => rfl
  | cons next more =>
    rw [if_neg (by simp), if_neg (List.cons_ne_nil next more)]
    by_cases hfirst : first = .ofString "-"
    · rw [if_pos hfirst, List.takeWhile_cons_of_neg (by simpa using hfirst)]
    · rw [if_neg hfirst, List.takeWhile_cons_of_pos (by simpa using hfirst)]

/-- a path with nested groups has no project exactly if it starts with a part `-` and goes on -/
theorem nestedProject?_eq_error_iff {host : String} {u : Url} (hu : u.Rooted) {e : Breakdown} :
    nestedProject? host (u.path.split '/') = .error e ↔ ∃ last, u.path = .ofString "/-/" ++ last := by
  rcases hu with hpath | ⟨rest, hpath⟩
  · rw [hpath]
    refine iff_of_false nofun ?_
    rintro ⟨last, hlast⟩
    cases congrArg RawText.letters hlast
  · -- the first part is the empty one before the slash, so `-` can only be the second
    obtain ⟨first, more, hrest⟩ := List.exists_cons_of_ne_nil (split_ne_nil rest '/')
    rw [hpath, split_slash, hrest, nestedProject?_cons]
    constructor
    · intro h
      split_ifs at h with hmore hfirst
      obtain ⟨next, more, rfl⟩ := List.exists_cons_of_ne_nil hmore
      rw [hfirst] at hrest
      obtain ⟨last, rfl⟩ := head_split_dash hrest
      exact ⟨last, rfl⟩
    · rintro ⟨last, hlast⟩
      have hletters := (List.cons.inj (congrArg RawText.letters hlast)).2
      obtain rfl : rest = .ofString "-/" ++ last := congrArg RawText.mk hletters
      rw [split_dash] at hrest
      obtain ⟨rfl, rfl⟩ := List.cons.inj hrest
      rw [if_neg (split_ne_nil last '/'), if_pos rfl]

theorem host_of_plainProject? {host : String} {parts : List RawText} {p : Project}
    (h : plainProject? host parts = some p) : p.host = host.toList := by
  unfold plainProject? at h
  split at h
  · cases h
    rfl
  · cases h

theorem host_of_nestedProject? {host : String} {parts : List RawText} {p : Project}
    (h : nestedProject? host parts = .ok (some p)) : p.host = host.toList := by
  unfold nestedProject? at h
  split_ifs at h
  · cases h
  · split at h
    · cases h
    · cases h
      rfl

/-- only on the host with nested groups the look-up can break down -/
theorem project?_eq_error_iff {u : Url} {e : Breakdown} :
    project? u = .error e ↔
      u.host = "gitlab.com".toList ∧ nestedProject? "gitlab.com" (u.path.split '/') = .error e := by
  have hhost {host : String} (h : String.ofList u.host = host) : u.host = host.toList := by
    rw [← h, String.toList_ofList]
  constructor
  · intro h
    unfold project? at h
    dsimp only at h
    split at h
    · cases h
    · cases h
    · cases h
    · rename_i hgroups
      exact ⟨hhost hgroups, h⟩
    · cases h
  · rintro ⟨hgroups, h⟩
    unfold project?
    rw [hgroups, String.ofList_toList]
    exact h

theorem host_of_project? {u : Url} {p : Project} (h : project? u = .ok (some p)) :
    ∃ host : String, host ∈ ["github.com", "bitbucket.org", "gitlab.com"] ∧ p.host = host.toList := by
  unfold project? at h
  dsimp only at h
  split at h
  · exact ⟨_, by decide, host_of_plainProject? (Except.ok.inj h)⟩
  · split_ifs at h
    · exact ⟨_, by decide, host_of_plainProject? (Except.ok.inj h)⟩
    · cases h
  · exact ⟨_, by decide, host_of_plainProject? (Except.ok.inj h)⟩
  · exact ⟨_, by decide, host_of_nestedProject? h⟩
  · cases h

/-- **Addresses without an answer.** They lead to the host with nested groups, and their path starts with a part `-` and
goes on. -/
theorem webUrl_eq_error_iff {remote : List Char} {e : Breakdown} : webUrl remote = .error e ↔ DashFirst remote := by
  unfold webUrl DashFirst
  dsimp only
  cases hurl : url? (trimmed remote) with
  | none => exact iff_of_false nofun nofun
  | some u =>
    dsimp only
    constructor
    · intro h
      cases hproject : project? u with
      | error e' =>
        obtain ⟨hhost, hnested⟩ := project?_eq_error_iff.1 hproject
        have hrooted : u.Rooted := rooted_of_url? hurl (by rw [hhost]; decide)
        obtain ⟨last, hpath⟩ := (nestedProject?_eq_error_iff hrooted).1 hnested
        refine ⟨u.scheme, last, ?_⟩
        rw [← hhost, ← hpath]
      | ok p =>
        rw [hproject] at h
        cases p <;> cases h
    · rintro ⟨scheme, last, hu⟩
      obtain rfl := Option.some.inj hu
      have hrooted : Url.Rooted ⟨scheme, "gitlab.com".toList, .ofString "/-/" ++ last⟩ :=
        Or.inr ⟨.ofString "-/" ++ last, rfl⟩
      rw [project?_eq_error_iff.2 ⟨rfl, (nestedProject?_eq_error_iff hrooted).2 ⟨last, rfl⟩⟩]

theorem page_eq {p : Project} {host : String} (h : p.host = host.toList) :
    p.page = .ofString "https://" ++ .ofString host ++ .ofString "/" ++ p.owner ++ .ofString "/" ++ p.name := by
  have hletters : ∀ a b c d e : List Utf8.Letter, a ++ (b ++ c ++ (d ++ c ++ e)) = a ++ b ++ c ++ d ++ c ++ e := by
    intro a b c d e
    simp only [List.append_assoc]
  unfold Project.page
  rw [h]
  exact congrArg RawText.mk (hletters _ _ _ _ _)

/-- **Every other address has a page**: that of a project, or the address as it is. -/
theorem webUrl_cases {remote : List Char} {page : RawText} (h : webUrl remote = .ok page) :
    page = .ofChars (trimmed remote) ∨ IsProjectPage page := by
  unfold webUrl at h
  dsimp only at h
  split at h
  · left
    exact (Except.ok.inj h).symm
  · split at h
    · cases h
    · left
      exact (Except.ok.inj h).symm
    · rename_i p hproject
      split_ifs at h with hmissing
      · left
        exact (Except.ok.inj h).symm
      · right
        rw [Bool.or_eq_true, not_or, Bool.not_eq_true, Bool.not_eq_true] at hmissing
        obtain ⟨host, hhost, hp⟩ := host_of_project? hproject
        refine ⟨host, p.owner, p.name, hhost, hmissing.1, hmissing.2, ?_⟩
        rw [← Except.ok.inj h, page_eq hp]

theorem IsProjectPage.ne_nil {page : RawText} (h : IsProjectPage page) : page ≠ {} := by
  obtain ⟨host, owner, name, -, -, -, rfl⟩ := h
  intro hnil
  cases congrArg RawText.letters hnil

/-- only the empty address has an empty page -/
theorem webUrl_eq_nil_iff {remote : List Char} {page : RawText} (h : webUrl remote = .ok page) :
    page = {} ↔ trimmed remote = [] := by
  constructor
  · intro hnil
    rcases webUrl_cases h with hpage | hpage
    · rw [hpage] at hnil
      exact List.map_eq_nil_iff.1 (congrArg RawText.letters hnil)
    · exact absurd hnil hpage.ne_nil
  · intro hnil
    have hempty : webUrl remote = .ok {} := by
      unfold webUrl
      rw [hnil]
      rfl
    rw [hempty] at h
    exact (Except.ok.inj h).symm

/-- an address from which nothing is left without a final `.git` -/
theorem dropGit_eq_nil_iff {address : List Char} : dropGit address = [] ↔ address = [] ∨ address = ".git".toList := by
  unfold dropGit dropEnding
  split_ifs with hsuffix
  · obtain ⟨before, rfl⟩ := List.isSuffixOf_iff_suffix.1 hsuffix
    rw [List.length_append, Nat.add_sub_cancel, List.take_left]
    constructor
    · rintro rfl
      right
      rfl
    · rintro (hnil | hgit)
      · exact (List.append_eq_nil_iff.1 hnil).1
      · exact List.append_left_eq_self.1 hgit
  · constructor
    · exact Or.inl
    · rintro (hnil | rfl)
      · exact hnil
      · exact absurd (by decide) hsuffix

/-- the trimmed address is empty where nothing but white space and a final `.git` is there -/
theorem trimmed_eq_nil_of_dropGit {address : List Char} (h : dropGit address = []) : trimmed address = [] := by
  rcases dropGit_eq_nil_iff.1 h with rfl | rfl
  · rfl
  · decide

end Remote

end AppAudit
