/-
Which calls the pool makes, whatever the order of its steps.

The record of a crew is tied to the phases of its workers (`Crew.Kept`): the calls that have begun are those of the
workers that are past their beginning, and likewise for the calls that have returned. What the workers have been given
are the calls that are due, in order and each one once. Everything else is the pool without the record: a crew moves
exactly as the pool does (`Crew.step_toState`, `Crew.exists_step`), so that slots, reports and progress are those of
`Inv`.

Main results:
- `reachable_iff_crew`: the states of the pool are those of its crews;
- `calls_within_limit_each_once`: the calls in progress, the calls that have been made, and those once the main loop has
  returned.
-/
import Mathlib.Tactic
import AppAudit.Audit.Crew
import AppAudit.Proofs.Pool

namespace AppAudit.Pool

variable {α β : Type} {limit : Int} {values : List α} {call : Nat → α → β}

/-! ## Calls by phase -/

/-- whether the worker's call has begun -/
def Phase.hasBegun : Phase → Bool
  | unborn => false
  | started => false
  | calling => true
  | returned => true
  | released => true
  | done => true

/-- the calls of the workers whose phase passes a test -/
def callsWhere (p : Phase → Bool) (workers : List Phase) (due : List (Call α)) : List (Call α) :=
  ((workers.zip due).filter fun w => p w.1).map Prod.snd

section

variable {p : Phase → Bool} {workers : List Phase} {due : List (Call α)} {i : Nat} {q r : Phase} {a : Call α}

theorem callsWhere_cons (p : Phase → Bool) (q : Phase) (workers : List Phase) (a : Call α) (due : List (Call α)) :
    callsWhere p (q :: workers) (a :: due) =
      if p q then a :: callsWhere p workers due else callsWhere p workers due := by
  unfold callsWhere
  rw [List.zip_cons_cons, List.filter_cons]
  split_ifs
  · rfl
  · rfl

/-- a worker that moves on without a change of the test changes nothing -/
theorem callsWhere_set_of_eq (hr : workers[i]? = some r) (hq : p q = p r) :
    callsWhere p (workers.set i q) due = callsWhere p workers due := by
  induction workers generalizing i due with
  | nil => rfl
  | cons w workers ih =>
    cases due with
    | nil => simp [callsWhere]
    | cons b due =>
      cases i with
      | zero =>
        simp only [List.getElem?_cons_zero, Option.some.injEq] at hr
        subst hr
        rw [List.set_cons_zero, callsWhere_cons, callsWhere_cons, hq]
      | succ i =>
        rw [List.set_cons_succ, callsWhere_cons, callsWhere_cons, ih (by simpa using hr)]

/-- a worker that comes to pass the test adds its call -/
theorem callsWhere_set (hr : workers[i]? = some r) (ha : due[i]? = some a) (hp : p r = false) (hq : p q = true) :
    (callsWhere p (workers.set i q) due).Perm (callsWhere p workers due ++ [a]) := by
  induction workers generalizing i due with
  | nil => simp at hr
  | cons w workers ih =>
    cases due with
    | nil => simp at ha
    | cons b due =>
      cases i with
      | zero =>
        simp only [List.getElem?_cons_zero, Option.some.injEq] at hr ha
        subst hr ha
        rw [List.set_cons_zero, callsWhere_cons, callsWhere_cons, hp, hq]
        exact (List.perm_append_singleton _ _).symm
      | succ i =>
        have hrest := ih (by simpa using hr) (by simpa using ha)
        rw [List.set_cons_succ, callsWhere_cons, callsWhere_cons]
        split_ifs
        · exact hrest.cons b
        · exact hrest

/-- a test that everyone fails leaves no call -/
theorem callsWhere_eq_nil (h : ∀ w ∈ workers, p w = false) : callsWhere p workers due = [] := by
  unfold callsWhere
  rw [List.map_eq_nil_iff, List.filter_eq_nil_iff]
  intro w hw
  rw [h w.1 (List.of_mem_zip hw).1]
  exact Bool.false_ne_true

/-- a test that everyone passes leaves all calls -/
theorem callsWhere_eq_self (hlength : workers.length = due.length) (h : ∀ w ∈ workers, p w = true) :
    callsWhere p workers due = due := by
  unfold callsWhere
  rw [List.filter_eq_self.2 fun w hw => h w.1 (List.of_mem_zip hw).1]
  exact List.map_snd_zip hlength.ge

/-- fewer workers pass a stricter test -/
theorem callsWhere_sublist {p' : Phase → Bool} (h : ∀ w, p w = true → p' w = true) (workers : List Phase)
    (due : List (Call α)) : (callsWhere p workers due).Sublist (callsWhere p' workers due) := by
  apply List.Sublist.map
  exact List.monotone_filter_right _ fun w hw => h w.1 hw

theorem callsWhere_sublist_due (hlength : workers.length = due.length) : (callsWhere p workers due).Sublist due :=
  calc
    (callsWhere p workers due).Sublist (callsWhere (fun _ => true) workers due) :=
      callsWhere_sublist (fun _ _ => rfl) workers due
    _ = due := callsWhere_eq_self hlength fun _ _ => rfl

end

/-! ## The calls that are due -/

@[simp]
theorem length_calls (values : List α) : (calls values).length = values.length := List.length_mapIdx

theorem getElem?_calls (values : List α) (i : Nat) : (calls values)[i]? = values[i]?.map (Call.mk i) :=
  List.getElem?_mapIdx

theorem mem_calls {a : Call α} : a ∈ calls values ↔ values[a.index]? = some a.value := by
  rw [List.mem_iff_getElem?]
  simp only [getElem?_calls, Option.map_eq_some_iff]
  constructor
  · rintro ⟨i, v, hv, rfl⟩
    exact hv
  · intro h
    exact ⟨a.index, a.value, h, rfl⟩

/-- no index is due twice -/
theorem nodup_index_calls (values : List α) : ((calls values).map Call.index).Nodup := by
  have hindex : (calls values).map Call.index = List.range values.length := by
    apply List.ext_getElem?
    intro i
    rw [List.getElem?_map, getElem?_calls]
    by_cases hi : i < values.length
    · rw [List.getElem?_eq_getElem hi, List.getElem?_range hi]
      rfl
    · rw [List.getElem?_eq_none (not_lt.1 hi), List.getElem?_eq_none (by simpa using hi)]
      rfl
  rw [hindex]
  exact List.nodup_range

/-! ## The record -/

namespace Crew

variable {c d : Crew α β} {i : Nat} {a : Call α}

/-- what has been given to workers, and how the record follows their phases -/
structure Kept (values : List α) (c : Crew α β) : Prop where
  /-- the workers have been given the calls that are due, in order -/
  given_eq : c.given = (calls values).take c.next
  begun_perm : c.begun.Perm (callsWhere Phase.hasBegun c.workers (calls values))
  ended_perm : c.ended.Perm (callsWhere Phase.hasReturned c.workers (calls values))

theorem kept_initial : Kept values (initial β values) := by
  have hnone : ∀ p : Phase → Bool, p .unborn = false →
      callsWhere p (initial β values : Crew α β).workers (calls values) = [] := by
    intro p hp
    apply callsWhere_eq_nil
    intro w hw
    obtain ⟨v, -, rfl⟩ := List.mem_map.1 hw
    exact hp
  constructor
  · rfl
  · rw [hnone Phase.hasBegun rfl]
    rfl
  · rw [hnone Phase.hasReturned rfl]
    rfl

/-- a worker has been given the call of its own index -/
theorem Kept.due (h : Kept values c) (ha : c.given[i]? = some a) : (calls values)[i]? = some a := by
  rw [h.given_eq, List.getElem?_take] at ha
  split_ifs at ha
  exact ha

theorem Kept.value (h : Kept values c) (ha : c.given[i]? = some a) : a.index = i ∧ values[i]? = some a.value := by
  have hdue := h.due ha
  rw [getElem?_calls, Option.map_eq_some_iff] at hdue
  obtain ⟨v, hv, rfl⟩ := hdue
  exact ⟨rfl, hv⟩

/-- a worker that moves on without beginning or ending its call leaves the record as it is -/
theorem Kept.move {p q : Phase} {held pending : Nat} (h : Kept values c) (hp : c.workers[i]? = some p)
    (hbegun : q.hasBegun = p.hasBegun) (hreturned : q.hasReturned = p.hasReturned) :
    Kept values { c with workers := c.workers.set i q, held, pending } := by
  constructor
  · exact h.given_eq
  · rw [callsWhere_set_of_eq hp hbegun]
    exact h.begun_perm
  · rw [callsWhere_set_of_eq hp hreturned]
    exact h.ended_perm

/-- every step keeps the record -/
theorem step_kept (hs : Step limit values call c d) (h : Kept values c) (hinv : Inv limit values call c.toState) :
    Kept values d := by
  -- a worker is given its call by `start`; only `enter` and `leave` add to the record, and they add that call
  cases hs with
  | acquire hm hn hw => exact ⟨h.given_eq, h.begun_perm, h.ended_perm⟩
  | register hm => exact ⟨h.given_eq, h.begun_perm, h.ended_perm⟩
  | start v hm hv =>
    have hunborn := hinv.next_unborn (by simp [hm, Main.slots])
    constructor
    · rw [List.take_add_one, getElem?_calls, hv, h.given_eq]
      rfl
    · rw [callsWhere_set_of_eq (p := Phase.hasBegun) (q := .started) hunborn rfl]
      exact h.begun_perm
    · rw [callsWhere_set_of_eq (p := Phase.hasReturned) (q := .started) hunborn rfl]
      exact h.ended_perm
  | enter i a hp ha =>
    constructor
    · exact h.given_eq
    · have hadded := callsWhere_set (p := Phase.hasBegun) (q := .calling) hp (h.due ha) rfl rfl
      exact (h.begun_perm.append_right [a]).trans hadded.symm
    · rw [callsWhere_set_of_eq (p := Phase.hasReturned) (q := .calling) hp rfl]
      exact h.ended_perm
  | leave i a hp ha =>
    constructor
    · exact h.given_eq
    · rw [callsWhere_set_of_eq (p := Phase.hasBegun) (q := .returned) hp rfl]
      exact h.begun_perm
    · have hadded := callsWhere_set (p := Phase.hasReturned) (q := .returned) hp (h.due ha) rfl rfl
      exact (h.ended_perm.append_right [a]).trans hadded.symm
  | release i hp hheld => exact h.move hp rfl rfl
  | report i hp hpending => exact h.move hp rfl rfl
  | finish hm hn hz => exact ⟨h.given_eq, h.begun_perm, h.ended_perm⟩

/-! ## The pool behind the record -/

/-- a step of the crew is a step of the pool -/
theorem step_toState (hs : Step limit values call c d) (h : Kept values c) :
    Pool.Step limit values call c.toState d.toState := by
  cases hs with
  | acquire hm hn hw => exact .acquire c.toState hm hn hw
  | register hm => exact .register c.toState hm
  | start v hm hv => exact .start c.toState hm
  | enter i a hp ha => exact .enter c.toState i hp
  | leave i a hp ha =>
    obtain ⟨rfl, hv⟩ := h.value ha
    exact .leave c.toState a.index a.value hp hv
  | release i hp hheld => exact .release c.toState i hp
  | report i hp hpending => exact .report c.toState i hp
  | finish hm hn hz => exact .finish c.toState hm hn hz

/-- a worker that has been started has been given its call -/
theorem Kept.given_of_started {p : Phase} (h : Kept values c) (hinv : Inv limit values call c.toState)
    (hp : c.workers[i]? = some p) (hborn : p ≠ .unborn) {v : α} (hv : values[i]? = some v) :
    c.given[i]? = some ⟨i, v⟩ := by
  have hnext : i < c.next := by
    by_contra hle
    exact hborn ((hinv.unborn_iff i p hp).2 (not_lt.1 hle))
  rw [h.given_eq, List.getElem?_take_of_lt hnext, getElem?_calls, hv]
  rfl

/-- a step of the pool is a step of the crew: the channel is not empty where a slot is taken out, and every report is of
a call that has been registered -/
theorem exists_step {t : State β} (hs : Pool.Step limit values call c.toState t) (h : Kept values c)
    (hinv : Inv limit values call c.toState) : ∃ d, Step limit values call c d ∧ d.toState = t := by
  have hvalue : ∀ {i : Nat} {p : Phase}, c.workers[i]? = some p → ∃ v, values[i]? = some v := by
    intro i p hp
    have hi : i < values.length := by
      rw [← hinv.workers_length]
      exact (List.getElem?_eq_some_iff.1 hp).1
    exact ⟨values[i], List.getElem?_eq_getElem hi⟩
  cases hs with
  | acquire hm hn hw => exact ⟨_, .acquire c hm hn hw, rfl⟩
  | register hm => exact ⟨_, .register c hm, rfl⟩
  | start hm =>
    obtain ⟨v, hv⟩ := hvalue (hinv.next_unborn (by simp [hm, Main.slots]))
    exact ⟨_, .start c v hm hv, rfl⟩
  | enter i hp =>
    obtain ⟨v, hv⟩ := hvalue hp
    exact ⟨_, .enter c i ⟨i, v⟩ hp (h.given_of_started hinv hp (by simp) hv), rfl⟩
  | leave i v hp hv => exact ⟨_, .leave c i ⟨i, v⟩ hp (h.given_of_started hinv hp (by simp) hv), rfl⟩
  | release i hp =>
    have hslots : Phase.returned.slots ≤ weigh Phase.slots c.workers := le_weigh Phase.slots hp
    have hheld := hinv.held_eq
    simp only [Phase.slots] at hslots
    exact ⟨_, .release c i hp (by omega), rfl⟩
  | report i hp =>
    have hreports : Phase.released.reports ≤ weigh Phase.reports c.workers := le_weigh Phase.reports hp
    have hpending := hinv.pending_eq
    simp only [Phase.reports] at hreports
    exact ⟨_, .report c i hp (by omega), rfl⟩
  | finish hm hn hz => exact ⟨_, .finish c hm hn hz, rfl⟩

/-- the states that a crew can get into -/
def Reachable (limit : Int) (values : List α) (call : Nat → α → β) (c : Crew α β) : Prop :=
  Relation.ReflTransGen (Step limit values call) (initial β values) c

/-- a crew is always in order, with its record and without it -/
theorem reachable_kept (h : Reachable limit values call c) :
    Kept values c ∧ Pool.Reachable limit values call c.toState := by
  induction h with
  | refl => exact ⟨kept_initial, .refl⟩
  | tail _ hs ih =>
    obtain ⟨hkept, hreachable⟩ := ih
    exact ⟨step_kept hs hkept (reachable_inv hreachable), hreachable.tail (step_toState hs hkept)⟩

end Crew

/-- **The pool is what a crew does.** The states that the pool can get into are those of its crews, without the
record. -/
theorem reachable_iff_crew {s : State β} :
    Reachable limit values call s ↔ ∃ c : Crew α β, Crew.Reachable limit values call c ∧ c.toState = s := by
  constructor
  · intro h
    induction h with
    | refl => exact ⟨Crew.initial β values, .refl, rfl⟩
    | tail _ hs ih =>
      obtain ⟨c, hc, rfl⟩ := ih
      obtain ⟨hkept, hreachable⟩ := Crew.reachable_kept hc
      obtain ⟨d, hd, rfl⟩ := Crew.exists_step hs hkept (reachable_inv hreachable)
      exact ⟨d, hc.tail hd, rfl⟩
  · rintro ⟨c, hc, rfl⟩
    exact (Crew.reachable_kept hc).2

namespace Crew

variable {c d : Crew α β}

/-! ## Calls in progress and at the end -/

/-- the workers that call a function hold a slot each -/
theorem count_calling_le (workers : List Phase) : workers.count .calling ≤ weigh Phase.slots workers := by
  induction workers with
  | nil => rfl
  | cons w workers ih =>
    unfold weigh at ih ⊢
    rw [List.map_cons, List.sum_cons, List.count_cons]
    cases w <;> simp [Phase.slots] <;> omega

/-- of the calls that have begun, those in progress have not returned -/
theorem length_callsWhere (workers : List Phase) (due : List (Call α)) (hlength : workers.length = due.length) :
    (callsWhere Phase.hasBegun workers due).length =
      (callsWhere Phase.hasReturned workers due).length + workers.count .calling := by
  induction workers generalizing due with
  | nil => rfl
  | cons w workers ih =>
    cases due with
    | nil => simp at hlength
    | cons a due =>
      have hrest := ih due (by simpa using hlength)
      rw [callsWhere_cons, callsWhere_cons, List.count_cons]
      cases w <;> simp [Phase.hasBegun, Phase.hasReturned] <;> omega

/-- a worker that is done does not move, and neither does a main loop that has returned -/
theorem not_step_of_returned (hinv : Inv limit values call c.toState) (hm : c.main = .returned) :
    ¬Step limit values call c d := by
  have hdone : ∀ {i : Nat} {p : Phase}, c.workers[i]? = some p → p = .done :=
    fun hp => hinv.done_of_returned hm _ (List.mem_of_getElem? hp)
  intro hs
  cases hs with
  | acquire hloop => simp [hm] at hloop
  | register hloop => simp [hm] at hloop
  | start v hloop => simp [hm] at hloop
  | enter i a hp => cases hdone hp
  | leave i a hp => cases hdone hp
  | release i hp => cases hdone hp
  | report i hp => cases hdone hp
  | finish hloop => simp [hm] at hloop

end Crew

/-- **No more calls at a time than the limit, and each call once.** Whatever the order of the steps, at most as many
calls are in progress as the limit says, and at most one where it says less than one. These are the calls that have
begun and have not returned. No index is called twice, and each call is given its index and the value there. Once the
main loop has returned, the calls that are due have begun and returned, each of them once, and nothing moves any more.
Before that some step is possible. -/
theorem calls_within_limit_each_once (limit : Int) (values : List α) (call : Nat → α → β) (c : Crew α β)
    (h : Crew.Reachable limit values call c) :
    (c.running : Int) ≤ max limit 1 ∧
    (c.ended.Subperm c.begun ∧ c.begun.length = c.ended.length + c.running) ∧
    (c.begun.map Call.index).Nodup ∧
    (∀ a ∈ c.begun, values[a.index]? = some a.value) ∧
    (c.main = .returned → c.begun.Perm (calls values) ∧ c.ended.Perm (calls values) ∧
      ∀ d, ¬Crew.Step limit values call c d) ∧
    (c.main ≠ .returned → ∃ d, Crew.Step limit values call c d) := by
  obtain ⟨hkept, hreachable⟩ := Crew.reachable_kept h
  have hinv := reachable_inv hreachable
  have hlength : c.workers.length = (calls values).length := by
    rw [length_calls]
    exact hinv.workers_length
  have hdue : (callsWhere Phase.hasBegun c.workers (calls values)).Sublist (calls values) :=
    callsWhere_sublist_due hlength
  refine ⟨?_, ⟨?_, ?_⟩, ?_, ?_, ?_, ?_⟩
  · have hbound : c.running ≤ width limit :=
      calc
        c.running ≤ weigh Phase.slots c.workers := Crew.count_calling_le c.workers
        _ ≤ weigh Phase.slots c.workers + c.main.slots := Nat.le_add_right _ _
        _ = c.held := hinv.held_eq.symm
        _ ≤ width limit := hinv.held_le
    unfold width at hbound
    omega
  · have hsub : (callsWhere Phase.hasReturned c.workers (calls values)).Sublist
        (callsWhere Phase.hasBegun c.workers (calls values)) := by
      apply callsWhere_sublist
      intro w hw
      cases w <;> simp_all [Phase.hasReturned, Phase.hasBegun]
    exact hkept.ended_perm.subperm.trans (hsub.subperm.trans hkept.begun_perm.symm.subperm)
  · rw [hkept.begun_perm.length_eq, hkept.ended_perm.length_eq]
    exact Crew.length_callsWhere c.workers (calls values) hlength
  · rw [(hkept.begun_perm.map Call.index).nodup_iff]
    exact (nodup_index_calls values).sublist (hdue.map Call.index)
  · intro a ha
    exact mem_calls.1 (hdue.subset (hkept.begun_perm.subset ha))
  · intro hm
    have hall : ∀ p : Phase → Bool, p .done = true → callsWhere p c.workers (calls values) = calls values := by
      intro p hp
      apply callsWhere_eq_self hlength
      intro w hw
      rw [hinv.done_of_returned hm w hw]
      exact hp
    refine ⟨?_, ?_, fun d => Crew.not_step_of_returned hinv hm⟩
    · rw [← hall Phase.hasBegun rfl]
      exact hkept.begun_perm
    · rw [← hall Phase.hasReturned rfl]
      exact hkept.ended_perm
  · intro hm
    obtain ⟨t, ht⟩ := progress hinv hm
    obtain ⟨d, hd, -⟩ := Crew.exists_step ht hkept hinv
    exact ⟨d, hd⟩

/-- One slot and two values. The first worker has given its slot back but has not reported, and the second is calling
already. -/
def handover : Crew String (Nat × String) :=
  { main := .looping, next := 2, held := 1, pending := 2, workers := [.released, .calling]
    stored := [some (0, "a"), none], given := [⟨0, "a"⟩, ⟨1, "b"⟩], begun := [⟨0, "a"⟩, ⟨1, "b"⟩], ended := [⟨0, "a"⟩] }

/-- the same pool at its end; the second worker has reported first -/
def handedOver : Crew String (Nat × String) :=
  { main := .returned, next := 2, held := 0, pending := 0, workers := [.done, .done]
    stored := [some (0, "a"), some (1, "b")], given := [⟨0, "a"⟩, ⟨1, "b"⟩], begun := [⟨0, "a"⟩, ⟨1, "b"⟩]
    ended := [⟨0, "a"⟩, ⟨1, "b"⟩] }

theorem reachable_handover : Crew.Reachable 0 ["a", "b"] Prod.mk handover := by
  apply Relation.ReflTransGen.head (.acquire _ rfl Nat.zero_lt_two Nat.zero_lt_one)
  apply Relation.ReflTransGen.head (.register _ rfl)
  apply Relation.ReflTransGen.head (.start _ "a" rfl rfl)
  apply Relation.ReflTransGen.head (.enter _ 0 ⟨0, "a"⟩ rfl rfl)
  apply Relation.ReflTransGen.head (.leave _ 0 ⟨0, "a"⟩ rfl rfl)
  apply Relation.ReflTransGen.head (.release _ 0 rfl Nat.zero_lt_one)
  apply Relation.ReflTransGen.head (.acquire _ rfl Nat.one_lt_two Nat.zero_lt_one)
  apply Relation.ReflTransGen.head (.register _ rfl)
  apply Relation.ReflTransGen.head (.start _ "b" rfl rfl)
  apply Relation.ReflTransGen.head (.enter _ 1 ⟨1, "b"⟩ rfl rfl)
  exact Relation.ReflTransGen.refl

theorem reachable_handedOver : Crew.Reachable 0 ["a", "b"] Prod.mk handedOver := by
  apply reachable_handover.trans
  apply Relation.ReflTransGen.head (.leave _ 1 ⟨1, "b"⟩ rfl rfl)
  apply Relation.ReflTransGen.head (.release _ 1 rfl Nat.zero_lt_one)
  apply Relation.ReflTransGen.head (.report _ 1 rfl Nat.zero_lt_two)
  apply Relation.ReflTransGen.head (.report _ 0 rfl Nat.zero_lt_one)
  apply Relation.ReflTransGen.head (.finish _ rfl rfl rfl)
  exact Relation.ReflTransGen.refl

/-- a limit below one stands for one: the second call begins when the first has returned -/
theorem calls_within_limit_each_once_handover :
    Crew.Reachable 0 ["a", "b"] Prod.mk handover ∧ handover.running = 1 ∧
    (handover.running : Int) ≤ max 0 1 ∧ (∃ d, Crew.Step 0 ["a", "b"] Prod.mk handover d) ∧
    Crew.Reachable 0 ["a", "b"] Prod.mk handedOver ∧ handedOver.begun.Perm (calls ["a", "b"]) ∧
    ∀ d, ¬Crew.Step 0 ["a", "b"] Prod.mk handedOver d := by
  obtain ⟨hbound, -, -, -, -, hmoves⟩ := calls_within_limit_each_once 0 ["a", "b"] Prod.mk handover reachable_handover
  obtain ⟨-, -, -, -, hends, -⟩ := calls_within_limit_each_once 0 ["a", "b"] Prod.mk handedOver reachable_handedOver
  obtain ⟨hbegun, -, hstill⟩ := hends rfl
  exact ⟨reachable_handover, rfl, hbound, hmoves nofun, reachable_handedOver, hbegun, hstill⟩

end AppAudit.Pool
