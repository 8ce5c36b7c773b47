/-
The table of rules in a SARIF run, and the results that point into it.

The table is written while results that refer to it by position are emitted: a finding lists its rule or overwrites the
entry that is there, and its result takes the position that the rule has at that moment. `Draft.Inv` is what holds after
every finding: positions never change, since an entry is only ever replaced by one of the same rule, and the entry of a
rule is always the one that its latest finding wrote.

Main result:
- `run_wellFormed`: in the finished run the rules are the ones that fired, each once and in order of first occurrence;
  there is one result per finding, pointing to the entry of its rule; and every entry is that of its last finding.
-/
import Mathlib.Tactic
import AppAudit.Report.Sarif

namespace AppAudit.Sarif

/-! ## Putting an entry -/

/-- a rule keeps its position; a new one goes to the end -/
theorem ids_putRule (e : RuleEntry) (table : List RuleEntry) :
    (putRule e table).map (·.id) =
      if e.id ∈ table.map (·.id) then table.map (·.id) else table.map (·.id) ++ [e.id] := by
  induction table with
  | nil => rfl
  | cons old rest ih =>
    unfold putRule
    by_cases h : old.id = e.id
    · simp [h]
    · rw [if_neg h, List.map_cons, ih]
      have hne : ¬ e.id = old.id := fun he => h he.symm
      by_cases hm : e.id ∈ rest.map (·.id)
      · rw [if_pos hm, if_pos (by rw [List.map_cons]; exact List.mem_cons_of_mem _ hm), List.map_cons]
      · rw [if_neg hm, if_neg (by rw [List.map_cons, List.mem_cons]; tauto), List.map_cons, List.cons_append]

theorem ids_prefix_putRule (e : RuleEntry) (table : List RuleEntry) :
    table.map (·.id) <+: (putRule e table).map (·.id) := by
  rw [ids_putRule]
  split_ifs
  · exact List.prefix_refl _
  · exact List.prefix_append _ _

theorem nodup_putRule (e : RuleEntry) {table : List RuleEntry} (h : (table.map (·.id)).Nodup) :
    ((putRule e table).map (·.id)).Nodup := by
  rw [ids_putRule]
  split_ifs with hm
  · exact h
  · rw [List.nodup_append]
    refine ⟨h, by simp, fun a ha b hb hab => ?_⟩
    rw [List.mem_singleton] at hb
    subst hab hb
    exact hm ha

/-- what is in the table afterwards: the new entry, and the old entries of other rules -/
theorem mem_putRule {e x : RuleEntry} {table : List RuleEntry} (h : (table.map (·.id)).Nodup)
    (hx : x ∈ putRule e table) : x = e ∨ (x ∈ table ∧ x.id ≠ e.id) := by
  induction table with
  | nil => exact Or.inl (by simpa [putRule] using hx)
  | cons old rest ih =>
    rw [List.map_cons, List.nodup_cons] at h
    unfold putRule at hx
    split_ifs at hx with ho
    · rcases List.mem_cons.1 hx with rfl | hx
      · exact Or.inl rfl
      · refine Or.inr ⟨List.mem_cons_of_mem _ hx, fun he => h.1 ?_⟩
        rw [ho, ← he]
        exact List.mem_map_of_mem hx
    · rcases List.mem_cons.1 hx with rfl | hx
      · exact Or.inr ⟨List.mem_cons_self, ho⟩
      · rcases ih h.2 hx with rfl | ⟨hm, hne⟩
        · exact Or.inl rfl
        · exact Or.inr ⟨List.mem_cons_of_mem _ hm, hne⟩

/-! ## Positions -/

theorem findIdx_id (table : List RuleEntry) (id : String) :
    table.findIdx (fun e => e.id == id) = (table.map (·.id)).idxOf id := by
  rw [List.idxOf, List.findIdx_map]
  rfl

/-- a result does not change when the table grows behind the rules that are listed already -/
theorem entry_of_grown {table later : List RuleEntry} {f : Finding} (hm : f.ruleId ∈ table.map (·.id))
    (hp : table.map (·.id) <+: later.map (·.id)) : entry later f = entry table f := by
  obtain ⟨more, hmore⟩ := hp
  unfold entry
  rw [findIdx_id, findIdx_id, ← hmore, List.idxOf_append_of_mem hm]

/-- a listed rule is where its result points -/
theorem getElem?_ruleIndex {table : List RuleEntry} {f : Finding} (hm : f.ruleId ∈ table.map (·.id)) :
    ∃ e, table[(entry table f).ruleIndex]? = some e ∧ e.id = f.ruleId := by
  have hlt : (entry table f).ruleIndex < table.length := by
    have := List.idxOf_lt_length_of_mem hm
    rw [List.length_map] at this
    simp only [entry, findIdx_id]
    exact this
  refine ⟨table[(entry table f).ruleIndex], List.getElem?_eq_getElem hlt, ?_⟩
  exact beq_iff_eq.1 (List.findIdx_getElem (w := hlt))

/-! ## The invariant -/

/-- what holds of a run in the making once some findings have been taken in -/
structure Draft.Inv (seen : List Finding) (d : Draft) : Prop where
  nodup : (d.rules.map (·.id)).Nodup
  ids : d.rules.map (·.id) = (seen.map (·.ruleId)).eraseDups
  /-- an entry is what the last finding of its rule says -/
  last : ∀ e ∈ d.rules, ∃ f, (seen.filter fun f => f.ruleId = e.id).getLast? = some f ∧ e = ruleEntry f
  /-- results that were emitted against an earlier table are right for this one -/
  entries : d.entries = seen.map (entry d.rules)

theorem Draft.Inv.mem_ids {seen : List Finding} {d : Draft} (h : d.Inv seen) {f : Finding} (hf : f ∈ seen) :
    f.ruleId ∈ d.rules.map (·.id) := by
  rw [h.ids, List.mem_eraseDups]
  exact List.mem_map_of_mem hf

theorem Draft.add_inv {seen : List Finding} {d : Draft} (h : d.Inv seen) (f : Finding) :
    (d.add f).Inv (seen ++ [f]) := by
  refine ⟨nodup_putRule _ h.nodup, ?_, fun e he => ?_, ?_⟩
  · simp only [Draft.add]
    rw [ids_putRule, h.ids, List.map_append, List.eraseDups_append, show (ruleEntry f).id = f.ruleId from rfl]
    generalize seen.map (·.ruleId) = ids
    by_cases hm : f.ruleId ∈ ids
    · rw [if_pos (List.mem_eraseDups.2 hm)]
      simp [List.removeAll, hm]
    · rw [if_neg (fun hc => hm (List.mem_eraseDups.1 hc))]
      simp [List.removeAll, hm, List.eraseDups_cons]
  · rw [List.filter_append]
    rcases mem_putRule h.nodup he with rfl | ⟨he, hne⟩
    · exact ⟨f, by simp [ruleEntry], rfl⟩
    · have hskip : [f].filter (fun f => f.ruleId = e.id) = [] := by
        simp only [List.filter_cons, List.filter_nil]
        rw [if_neg]
        simpa [ruleEntry] using Ne.symm hne
      rw [hskip, List.append_nil]
      exact h.last e he
  · simp only [Draft.add, List.map_append, List.map_cons, List.map_nil]
    congr 1
    rw [h.entries]
    apply List.map_congr_left
    intro g hg
    exact (entry_of_grown (h.mem_ids hg) (ids_prefix_putRule _ _)).symm

theorem draft_inv (findings : List Finding) : (draft findings).Inv findings := by
  induction findings using List.reverseRecOn with
  | nil => exact ⟨List.nodup_nil, rfl, by simp [draft], rfl⟩
  | append_singleton seen f ih =>
    have hstep : draft (seen ++ [f]) = (draft seen).add f := by simp [draft, List.foldl_append]
    rw [hstep]
    exact Draft.add_inv ih f

/-- **The run is well formed.** For every result, whatever its findings, and all options: the rules have distinct
identifiers, those of the findings in order of first occurrence; result `k` is that of finding `k`, with its identifier,
message, level and place, and points to the entry of its rule; and each entry describes the last finding of its rule. -/
theorem run_wellFormed (r : Result) (toolVersion guid : String) (provenance : Option Provenance) :
    let run := run r toolVersion guid provenance
    (run.rules.map (·.id)).Nodup ∧
    run.rules.map (·.id) = (r.findings.map (·.ruleId)).eraseDups ∧
    (∀ id, id ∈ run.rules.map (·.id) ↔ ∃ f ∈ r.findings, f.ruleId = id) ∧
    run.entries.length = r.findings.length ∧
    (∀ (k : Nat) (f : Finding), r.findings[k]? = some f → ∃ x, run.entries[k]? = some x ∧
      x.ruleId = f.ruleId ∧ x.message = f.message ∧ x.level = level f.severity ∧
      x.uri = (if f.path = "" then f.file else f.path) ∧
      ∃ e, run.rules[x.ruleIndex]? = some e ∧ e.id = x.ruleId) ∧
    ∀ e ∈ run.rules, ∃ f, (r.findings.filter fun f => f.ruleId = e.id).getLast? = some f ∧
      e.description = description f ∧ e.level = level f.severity ∧ e.category = f.category := by
  have h := draft_inv r.findings
  refine ⟨h.nodup, h.ids, fun id => ?_, ?_, fun k f hk => ?_, fun e he => ?_⟩
  · show id ∈ (draft r.findings).rules.map (·.id) ↔ _
    rw [h.ids, List.mem_eraseDups, List.mem_map]
  · show (draft r.findings).entries.length = _
    rw [h.entries, List.length_map]
  · refine ⟨entry (draft r.findings).rules f, ?_, rfl, rfl, rfl, ?_, ?_⟩
    · show (draft r.findings).entries[k]? = _
      rw [h.entries, List.getElem?_map, hk, Option.map_some]
    · simp only [entry, String.isEmpty_iff]
    · exact getElem?_ruleIndex (h.mem_ids (List.mem_of_getElem? hk))
  · obtain ⟨f, hf, rfl⟩ := h.last e he
    exact ⟨f, hf, rfl, rfl, rfl⟩

end AppAudit.Sarif
