/-
Addresses that are abbreviated, and ties between replacements.

An address is replaced by a rule that fits it, and by none that is shorter than another that fits (`replaceStart_cases`).
Which one is taken among several of the same length is open, and each of them may be (`exists_tie`). That makes no
difference where no two rules fit an address equally well.

Main result:
- `git_untied`: settings without ties are read in one way.
-/
import Mathlib
import AppAudit.Repository.Metadata

namespace AppAudit

namespace Setting

variable {rules : List Replacement} {address : List Char} {rule : Replacement}

/-! ## The longest start -/

theorem mem_longestFitting : rule ∈ longestFitting rules address ↔
    (rule ∈ rules ∧ rule.2 <+: address) ∧ ∀ other ∈ rules, other.2 <+: address → other.2.length ≤ rule.2.length := by
  unfold longestFitting
  dsimp only
  simp only [List.mem_filter, List.all_eq_true, decide_eq_true_eq, List.isPrefixOf_iff_prefix, and_imp]

/-- among the rules that fit there is a longest one -/
theorem longestFitting_eq_nil_iff : longestFitting rules address = [] ↔ ∀ rule ∈ rules, ¬rule.2 <+: address := by
  constructor
  · intro hnone rule hrule hfits
    let fitting := (rules.filter fun r => r.2.isPrefixOf address).toFinset
    have hmem (r : Replacement) : r ∈ fitting ↔ r ∈ rules ∧ r.2 <+: address := by
      simp only [fitting, List.mem_toFinset, List.mem_filter, List.isPrefixOf_iff_prefix]
    have hsome : fitting.Nonempty := ⟨rule, (hmem rule).2 ⟨hrule, hfits⟩⟩
    obtain ⟨longest, hlongest, hmax⟩ := fitting.exists_max_image (fun r => r.2.length) hsome
    have hfound : longest ∈ longestFitting rules address := by
      refine mem_longestFitting.2 ⟨(hmem longest).1 hlongest, fun other hother hfits => ?_⟩
      exact hmax other ((hmem other).2 ⟨hother, hfits⟩)
    rw [hnone] at hfound
    cases hfound
  · intro hnone
    rw [List.eq_nil_iff_forall_not_mem]
    intro rule hrule
    obtain ⟨⟨hmem, hfits⟩, -⟩ := mem_longestFitting.1 hrule
    exact hnone rule hmem hfits

/-! ## Ties -/

/-- however ties are broken, one of the longest rules that fit is followed; if none fits the address stays -/
theorem replaceStart_cases (tie : TieBreak) (rules : List Replacement) (address : List Char) :
    (∃ rule ∈ longestFitting rules address, replaceStart tie rules address = rule.1 ++ address.drop rule.2.length) ∨
    (∀ rule ∈ rules, ¬rule.2 <+: address) ∧ replaceStart tie rules address = address := by
  rw [← longestFitting_eq_nil_iff]
  unfold replaceStart
  dsimp only
  generalize longestFitting rules address = longest
  by_cases hnone : longest = []
  · subst hnone
    exact Or.inr ⟨rfl, rfl⟩
  · have hplace : tie longest % longest.length < longest.length := Nat.mod_lt _ (List.length_pos_iff.2 hnone)
    left
    exact ⟨longest[tie longest % longest.length], List.getElem_mem hplace, by rw [List.getElem?_eq_getElem hplace]⟩

/-- each of the longest rules that fit may be followed -/
theorem exists_tie (h : rule ∈ longestFitting rules address) :
    ∃ tie, replaceStart tie rules address = rule.1 ++ address.drop rule.2.length := by
  obtain ⟨i, hi, hrule⟩ := List.mem_iff_getElem.1 h
  refine ⟨fun _ => i, ?_⟩
  unfold replaceStart
  dsimp only
  rw [Nat.mod_eq_of_lt hi, List.getElem?_eq_getElem hi, hrule]

/-- no two of some rules fit an address equally well -/
def Untied (rules : List Replacement) : Prop :=
  ∀ address, ∀ a ∈ longestFitting rules address, ∀ b ∈ longestFitting rules address, a = b

theorem replaceStart_untied (h : Untied rules) (tie tie' : TieBreak) (address : List Char) :
    replaceStart tie rules address = replaceStart tie' rules address := by
  rcases replaceStart_cases tie rules address with ⟨rule, hrule, hfollowed⟩ | ⟨hnone, hkept⟩
  · rcases replaceStart_cases tie' rules address with ⟨rule', hrule', hfollowed'⟩ | ⟨hnone', -⟩
    · rw [hfollowed, hfollowed', h address rule hrule rule' hrule']
    · obtain ⟨⟨hmem, hfits⟩, -⟩ := mem_longestFitting.1 hrule
      exact absurd hfits (hnone' rule hmem)
  · rcases replaceStart_cases tie' rules address with ⟨rule', hrule', -⟩ | ⟨-, hkept'⟩
    · obtain ⟨⟨hmem, hfits⟩, -⟩ := mem_longestFitting.1 hrule'
      exact absurd hfits (hnone rule' hmem)
    · rw [hkept, hkept']

theorem origin?_untied {settings : List Setting} (h : Untied (replacements settings)) (tie tie' : TieBreak) :
    origin? tie settings = origin? tie' settings := by
  have hsame : replaceStart tie (replacements settings) = replaceStart tie' (replacements settings) :=
    funext (replaceStart_untied h tie tie')
  unfold origin?
  rw [hsame]

/-- two rules for one abbreviation: the address may become either -/
example :
    let rules : List Replacement :=
      [("https://github.com/".toList, "gh:".toList), ("git@github.com:".toList, "gh:".toList)]
    replaceStart .first rules "gh:acme/app".toList = "https://github.com/acme/app".toList ∧
      replaceStart (fun _ => 1) rules "gh:acme/app".toList = "git@github.com:acme/app".toList := by
  decide

end Setting

/-- there are no ties in the settings of any repository -/
def FileSystem.Untied (fs : FileSystem) : Prop :=
  ∀ gitDir bytes settings, fs.readFile (Path.join [gitDir, "config".toList]) = .ok bytes →
    Setting.read? bytes = some settings → Setting.Untied (Setting.replacements settings)

/-- **Without ties, repositories are read in one way.** -/
theorem FileSystem.git_untied {fs : FileSystem} (h : fs.Untied) (tie tie' : Setting.TieBreak) :
    fs.git tie = fs.git tie' := by
  have horigin (gitDir : List Char) : fs.originOf? tie gitDir = fs.originOf? tie' gitDir := by
    unfold originOf?
    cases hread : fs.readFile (Path.join [gitDir, "config".toList]) with
    | error e => rfl
    | ok bytes =>
      dsimp only
      cases hsettings : Setting.read? bytes with
      | none => rfl
      | some settings => exact Setting.origin?_untied (h gitDir bytes settings hread hsettings) tie tie'
  unfold git
  simp only [horigin]

end AppAudit
