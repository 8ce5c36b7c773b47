/-
The pool of workers, whatever the order of its steps.

`Inv` says how the parts of a state hang together: which workers have been started, which hold a slot, which have yet to
report, and which places hold what a call has returned. Every step keeps it, and every step uses up one of the
`7 * n + 1` steps that `n` values take, so no run goes on for ever.

Main results:
- `stored_of_returned`: once the main loop has returned, every call has returned and its result stands at its index;
- `progress`: until then some step is possible, so nobody waits for ever;
- `inevitably_returned`: hence every run, in whatever order, ends with the main loop returned.
-/
import Mathlib.Tactic
import AppAudit.Audit.Pool

namespace AppAudit.Pool

variable {α β : Type} {limit : Int} {values : List α} {call : Nat → α → β} {s t : State β}

/-! ## What workers and the main loop owe -/

/-- the slots that a worker holds -/
def Phase.slots : Phase → Nat
  | unborn => 0
  | started => 1
  | calling => 1
  | returned => 1
  | released => 0
  | done => 0

/-- the reports that a worker still owes -/
def Phase.reports : Phase → Nat
  | unborn => 0
  | started => 1
  | calling => 1
  | returned => 1
  | released => 1
  | done => 0

/-- the steps that a worker still has to take -/
def Phase.steps : Phase → Nat
  | unborn => 4
  | started => 4
  | calling => 3
  | returned => 2
  | released => 1
  | done => 0

/-- whether the worker's call has returned -/
def Phase.hasReturned : Phase → Bool
  | unborn => false
  | started => false
  | calling => false
  | returned => true
  | released => true
  | done => true

/-- the slot that the main loop has taken for a worker not yet started -/
def Main.slots : Main → Nat
  | looping => 0
  | acquired => 1
  | registered => 1
  | returned => 0

/-- the report that the main loop has announced for a worker not yet started -/
def Main.reports : Main → Nat
  | looping => 0
  | acquired => 0
  | registered => 1
  | returned => 0

/-- the steps that the main loop still has to take when so many values are left -/
def Main.steps (left : Nat) : Main → Nat
  | looping => 3 * left + 1
  | acquired => 3 * left
  | registered => 3 * left - 1
  | returned => 0

/-- the total of some weights of workers -/
def weigh (f : Phase → Nat) (workers : List Phase) : Nat := (workers.map f).sum

/-- a worker that moves on takes its old weight away and brings its new one -/
theorem weigh_set (f : Phase → Nat) {workers : List Phase} {i : Nat} {p : Phase} (h : workers[i]? = some p)
    (q : Phase) : weigh f (workers.set i q) + f p = weigh f workers + f q := by
  induction workers generalizing i with
  | nil => simp at h
  | cons w workers ih =>
    cases i with
    | zero =>
      simp only [List.getElem?_cons_zero, Option.some.injEq] at h
      subst h
      simp only [weigh, List.set_cons_zero, List.map_cons, List.sum_cons]
      omega
    | succ i =>
      have := ih (by simpa using h)
      simp only [weigh, List.set_cons_succ, List.map_cons, List.sum_cons] at this ⊢
      omega

theorem le_weigh (f : Phase → Nat) {workers : List Phase} {i : Nat} {p : Phase} (h : workers[i]? = some p) :
    f p ≤ weigh f workers :=
  List.single_le_sum (by simp) _ (List.mem_map_of_mem (List.mem_of_getElem? h))

theorem exists_of_weigh_pos (f : Phase → Nat) {workers : List Phase} (h : 0 < weigh f workers) :
    ∃ (i : Nat) (p : Phase), workers[i]? = some p ∧ 0 < f p := by
  obtain ⟨n, hn, hpos⟩ := List.exists_mem_ne_zero_of_sum_ne_zero (Nat.ne_of_gt h)
  obtain ⟨p, hp, rfl⟩ := List.mem_map.1 hn
  obtain ⟨i, hi⟩ := List.getElem?_of_mem hp
  exact ⟨i, p, hi, Nat.pos_of_ne_zero hpos⟩

/-! ## The invariant -/

/-- how the parts of a state hang together -/
structure Inv (limit : Int) (values : List α) (call : Nat → α → β) (s : State β) : Prop where
  workers_length : s.workers.length = values.length
  stored_length : s.stored.length = values.length
  next_le : s.next ≤ values.length
  /-- a slot is only taken for a value that is there -/
  next_lt : 0 < s.main.slots → s.next < values.length
  /-- workers are started in order -/
  unborn_iff : ∀ i p, s.workers[i]? = some p → (p = .unborn ↔ s.next ≤ i)
  held_eq : s.held = weigh Phase.slots s.workers + s.main.slots
  held_le : s.held ≤ width limit
  pending_eq : s.pending = weigh Phase.reports s.workers + s.main.reports
  /-- a place holds the result of its own call, from the moment that the call returns -/
  stored_eq : ∀ i v p, values[i]? = some v → s.workers[i]? = some p →
    s.stored[i]? = some (if p.hasReturned then some (call i v) else none)
  /-- the main loop waits for every report -/
  returned : s.main = .returned → s.next = values.length ∧ s.pending = 0

/-- the worker that a slot has been taken for has not been started -/
theorem Inv.next_unborn (h : Inv limit values call s) (hm : 0 < s.main.slots) :
    s.workers[s.next]? = some .unborn := by
  have hi : s.next < s.workers.length := by
    rw [h.workers_length]
    exact h.next_lt hm
  rw [List.getElem?_eq_getElem hi, Option.some.injEq]
  exact (h.unborn_iff s.next _ (List.getElem?_eq_getElem hi)).2 le_rfl

theorem inv_initial : Inv limit values call (State.initial β values) := by
  have hw : ∀ f : Phase → Nat, f .unborn = 0 → weigh f (values.map fun _ => .unborn) = 0 := by
    intro f hf
    simp [weigh, hf]
  refine ⟨by simp [State.initial], by simp [State.initial], by simp [State.initial], by simp [State.initial, Main.slots],
    ?_, ?_, by simp [State.initial], ?_, ?_, by simp [State.initial]⟩
  · intro i p hp
    simp only [State.initial, List.getElem?_map, Option.map_eq_some_iff] at hp ⊢
    obtain ⟨_, _, rfl⟩ := hp
    simp
  · simp only [State.initial, hw Phase.slots rfl, Main.slots]
  · simp only [State.initial, hw Phase.reports rfl, Main.reports]
  · intro i v p hv hp
    simp only [State.initial, List.getElem?_map, hv, Option.map_some, Option.some.injEq] at hp ⊢
    subst hp
    rfl

/-- a worker that has been started moves on by itself: the state stays in order as long as slots, reports and the
worker's own place are kept in step -/
theorem Inv.move (h : Inv limit values call s) {i : Nat} {p q : Phase} {held pending : Nat}
    {stored : List (Option β)} (hp : s.workers[i]? = some p) (hpu : p ≠ .unborn) (hqu : q ≠ .unborn)
    (hheld : held + p.slots = s.held + q.slots) (hslots : q.slots ≤ p.slots)
    (hpending : pending + p.reports = s.pending + q.reports) (hreports : q.reports ≤ p.reports)
    (hlength : stored.length = s.stored.length) (hothers : ∀ j, j ≠ i → stored[j]? = s.stored[j]?)
    (hown : ∀ v, values[i]? = some v → stored[i]? = some (if q.hasReturned then some (call i v) else none)) :
    Inv limit values call { s with workers := s.workers.set i q, held, pending, stored } := by
  have hi : i < s.workers.length := (List.getElem?_eq_some_iff.1 hp).1
  have hws := weigh_set Phase.slots hp q
  have hwr := weigh_set Phase.reports hp q
  have hheldeq := h.held_eq
  have hpendeq := h.pending_eq
  have hpl := le_weigh Phase.reports hp
  refine ⟨by simpa using h.workers_length, hlength.trans h.stored_length, h.next_le, h.next_lt, ?_, ?_, ?_, ?_, ?_, ?_⟩
  · intro j r hr
    by_cases hj : i = j
    · subst hj
      rw [List.getElem?_set_self hi, Option.some.injEq] at hr
      subst hr
      have := h.unborn_iff i p hp
      tauto
    · rw [List.getElem?_set_ne hj] at hr
      exact h.unborn_iff j r hr
  · simp only
    omega
  · have := h.held_le
    simp only
    omega
  · simp only
    omega
  · intro j v r hv hr
    by_cases hj : i = j
    · subst hj
      rw [List.getElem?_set_self hi, Option.some.injEq] at hr
      subst hr
      exact hown v hv
    · rw [List.getElem?_set_ne hj] at hr
      exact (hothers j (Ne.symm hj)).trans (h.stored_eq j v r hv hr)
  · intro hm
    obtain ⟨hn, hz⟩ := h.returned hm
    refine ⟨hn, ?_⟩
    simp only
    omega

/-- every step keeps the state in order -/
theorem step_inv (hs : Step limit values call s t) (h : Inv limit values call s) : Inv limit values call t := by
  have hheld := h.held_eq
  have hpending := h.pending_eq
  cases hs with
  | acquire hm hn hw =>
    simp only [hm, Main.slots, Main.reports] at hheld hpending
    refine { h with next_lt := fun _ => hn, held_eq := ?_, held_le := hw, pending_eq := ?_, returned := by simp }
    · simp only [Main.slots]
      omega
    · simpa only [Main.reports] using hpending
  | register hm =>
    simp only [hm, Main.slots, Main.reports] at hheld hpending
    refine { h with next_lt := fun _ => h.next_lt (by simp [hm, Main.slots]), held_eq := ?_, pending_eq := ?_,
                    returned := by simp }
    · simpa only [Main.slots] using hheld
    · simp only [Main.reports]
      omega
  | start hm =>
    have hlt : s.next < values.length := h.next_lt (by simp [hm, Main.slots])
    have hp := h.next_unborn (by simp [hm, Main.slots])
    have hi : s.next < s.workers.length := (List.getElem?_eq_some_iff.1 hp).1
    have hws := weigh_set Phase.slots hp .started
    have hwr := weigh_set Phase.reports hp .started
    simp only [hm, Main.slots, Main.reports, Phase.slots, Phase.reports] at hheld hpending hws hwr
    refine { h with workers_length := by simpa using h.workers_length, next_le := hlt, next_lt := by simp [Main.slots],
                    unborn_iff := ?_, held_eq := ?_, pending_eq := ?_, stored_eq := ?_, returned := by simp }
    · intro i p hip
      by_cases hj : s.next = i
      · subst hj
        rw [List.getElem?_set_self hi, Option.some.injEq] at hip
        subst hip
        simp
      · rw [List.getElem?_set_ne hj] at hip
        have := h.unborn_iff i p hip
        rw [this]
        simp only
        omega
    · simp only [Main.slots]
      omega
    · simp only [Main.reports]
      omega
    · intro i v p hv hip
      by_cases hj : s.next = i
      · subst hj
        rw [List.getElem?_set_self hi, Option.some.injEq] at hip
        subst hip
        exact h.stored_eq s.next v .unborn hv hp
      · rw [List.getElem?_set_ne hj] at hip
        exact h.stored_eq i v p hv hip
  | enter i hp =>
    exact h.move hp (by simp) (by simp) rfl le_rfl rfl le_rfl rfl (fun _ _ => rfl)
      (fun v hv => h.stored_eq i v .started hv hp)
  | leave i v hp hv =>
    have hi : i < s.stored.length := by
      rw [h.stored_length]
      exact (List.getElem?_eq_some_iff.1 hv).1
    refine h.move hp (by simp) (by simp) rfl le_rfl rfl le_rfl (by simp) (fun j hj => ?_) (fun w hw => ?_)
    · exact List.getElem?_set_ne (Ne.symm hj)
    · rw [hv, Option.some.injEq] at hw
      rw [List.getElem?_set_self hi, hw]
      rfl
  | release i hp =>
    have := le_weigh Phase.slots hp
    refine h.move hp (by simp) (by simp) ?_ (by simp [Phase.slots]) rfl le_rfl rfl (fun _ _ => rfl)
      (fun v hv => h.stored_eq i v .returned hv hp)
    simp only [Phase.slots] at this ⊢
    omega
  | report i hp =>
    have := le_weigh Phase.reports hp
    refine h.move hp (by simp) (by simp) rfl le_rfl ?_ (by simp [Phase.reports]) rfl (fun _ _ => rfl)
      (fun v hv => h.stored_eq i v .released hv hp)
    simp only [Phase.reports] at this ⊢
    omega
  | finish hm hn hz =>
    simp only [hm, Main.slots, Main.reports] at hheld hpending
    exact { h with next_lt := by simp [Main.slots], held_eq := by simpa only [Main.slots] using hheld,
                   pending_eq := by simpa only [Main.reports] using hpending, returned := fun _ => ⟨hn, hz⟩ }

/-- the states that the pool can get into -/
def Reachable (limit : Int) (values : List α) (call : Nat → α → β) (s : State β) : Prop :=
  Relation.ReflTransGen (Step limit values call) (State.initial β values) s

theorem reachable_inv (h : Reachable limit values call s) : Inv limit values call s := by
  induction h with
  | refl => exact inv_initial
  | tail _ hs ih => exact step_inv hs ih

/-! ## Every run ends -/

/-- the steps that are left until the main loop has returned and every worker is done -/
def State.work (n : Nat) (s : State β) : Nat := weigh Phase.steps s.workers + s.main.steps (n - s.next)

/-- every step is one less to take -/
theorem step_work (hs : Step limit values call s t) (h : Inv limit values call s) :
    t.work values.length + 1 = s.work values.length := by
  cases hs with
  | acquire hm hn hw =>
    simp only [State.work, hm, Main.steps]
    omega
  | register hm =>
    have := h.next_lt (by simp [hm, Main.slots])
    simp only [State.work, hm, Main.steps]
    omega
  | start hm =>
    have hlt := h.next_lt (by simp [hm, Main.slots])
    have := weigh_set Phase.steps (h.next_unborn (by simp [hm, Main.slots])) .started
    simp only [State.work, hm, Main.steps, Phase.steps] at this ⊢
    omega
  | enter i hp =>
    have := weigh_set Phase.steps hp .calling
    simp only [State.work, Phase.steps] at this ⊢
    omega
  | leave i v hp hv =>
    have := weigh_set Phase.steps hp .returned
    simp only [State.work, Phase.steps] at this ⊢
    omega
  | release i hp =>
    have := weigh_set Phase.steps hp .released
    simp only [State.work, Phase.steps] at this ⊢
    omega
  | report i hp =>
    have := weigh_set Phase.steps hp .done
    simp only [State.work, Phase.steps] at this ⊢
    omega
  | finish hm hn hz =>
    simp only [State.work, hm, Main.steps]
    omega

/-- a worker that still owes a report can move -/
theorem worker_progress (h : Inv limit values call s) {i : Nat} {p : Phase} (hp : s.workers[i]? = some p)
    (hr : 0 < p.reports) : ∃ t, Step limit values call s t := by
  cases p with
  | unborn => simp [Phase.reports] at hr
  | started => exact ⟨_, .enter s i hp⟩
  | calling =>
    have hi : i < values.length := by
      rw [← h.workers_length]
      exact (List.getElem?_eq_some_iff.1 hp).1
    exact ⟨_, .leave s i values[i] hp (List.getElem?_eq_getElem hi)⟩
  | returned => exact ⟨_, .release s i hp⟩
  | released => exact ⟨_, .report s i hp⟩
  | done => simp [Phase.reports] at hr

/-- **No deadlock.** Until the main loop has returned, some step is possible: where it has to wait, for a slot or for a
report, there is a worker that can move on. -/
theorem progress (h : Inv limit values call s) (hm : s.main ≠ .returned) : ∃ t, Step limit values call s t := by
  have hheld := h.held_eq
  have hpending := h.pending_eq
  have waits : 0 < weigh Phase.reports s.workers → ∃ t, Step limit values call s t := by
    intro hw
    obtain ⟨i, p, hp, hr⟩ := exists_of_weigh_pos Phase.reports hw
    exact worker_progress h hp hr
  cases hmain : s.main with
  | looping =>
    simp only [hmain, Main.slots, Main.reports, Nat.add_zero] at hheld hpending
    by_cases hn : s.next < values.length
    · by_cases hw : s.held < width limit
      · exact ⟨_, .acquire s hmain hn hw⟩
      · have hpos : 0 < weigh Phase.slots s.workers := by
          have : 0 < width limit := by simp [width]
          omega
        obtain ⟨i, p, hp, hslots⟩ := exists_of_weigh_pos Phase.slots hpos
        exact worker_progress h hp (by cases p <;> simp_all [Phase.slots, Phase.reports])
    · by_cases hz : s.pending = 0
      · exact ⟨_, .finish s hmain (le_antisymm h.next_le (not_lt.1 hn)) hz⟩
      · exact waits (by omega)
  | acquired => exact ⟨_, .register s hmain⟩
  | registered => exact ⟨_, .start s hmain⟩
  | returned => exact absurd hmain hm

/-- the main loop returns after every worker is done -/
theorem Inv.done_of_returned (h : Inv limit values call s) (hm : s.main = .returned) : ∀ p ∈ s.workers, p = .done := by
  intro p hp
  obtain ⟨i, hi⟩ := List.getElem?_of_mem hp
  obtain ⟨hnext, hzero⟩ := h.returned hm
  have hreports : p.reports = 0 := by
    have hle := le_weigh Phase.reports hi
    have hpending := h.pending_eq
    omega
  have hborn : p ≠ .unborn := by
    intro hu
    have hlate := (h.unborn_iff i p hi).1 hu
    have hlt := (List.getElem?_eq_some_iff.1 hi).1
    rw [h.workers_length] at hlt
    omega
  cases p <;> simp_all [Phase.reports]

/-- **Every slot is filled before the return.** Once the main loop has returned, each place holds what the call of its
own index returned. -/
theorem stored_of_returned (h : Inv limit values call s) (hm : s.main = .returned) :
    s.stored = (results values call).map some := by
  apply List.ext_getElem?
  intro i
  by_cases hi : i < values.length
  · have hw : i < s.workers.length := by rw [h.workers_length]; exact hi
    have hdone : s.workers[i] = .done := h.done_of_returned hm _ (List.getElem_mem hw)
    rw [h.stored_eq i _ _ (List.getElem?_eq_getElem hi) (List.getElem?_eq_getElem hw), hdone]
    simp [results, hi, Phase.hasReturned]
  · rw [List.getElem?_eq_none (by rw [h.stored_length]; omega), List.getElem?_eq_none (by simp [results]; omega)]

/-- whatever steps are taken from a state on, a state with the property is reached after finitely many -/
inductive Inevitably (limit : Int) (values : List α) (call : Nat → α → β) (P : State β → Prop) : State β → Prop where
  | now {s : State β} : P s → Inevitably limit values call P s
  | later {s : State β} : (∃ t, Step limit values call s t) →
      (∀ t, Step limit values call s t → Inevitably limit values call P t) → Inevitably limit values call P s

theorem inevitably_of_inv (h : Inv limit values call s) :
    Inevitably limit values call (fun s => s.main = .returned) s := by
  -- by the number of steps that are left
  induction hw : s.work values.length generalizing s with
  | zero =>
    by_cases hm : s.main = .returned
    · exact .now hm
    · obtain ⟨t, hs⟩ := progress h hm
      have := step_work hs h
      omega
  | succ n ih =>
    by_cases hm : s.main = .returned
    · exact .now hm
    · refine .later (progress h hm) fun t hs => ih (step_inv hs h) ?_
      have := step_work hs h
      omega

/-- **Every run ends.** For every limit and every interleaving of the workers, the main loop returns after finitely many
steps. -/
theorem inevitably_returned (limit : Int) (values : List α) (call : Nat → α → β) :
    Inevitably limit values call (fun s => s.main = .returned) (State.initial β values) :=
  inevitably_of_inv inv_initial

end AppAudit.Pool
