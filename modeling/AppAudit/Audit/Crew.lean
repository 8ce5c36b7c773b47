/-
The pool of workers with everything that passes between the main loop and its workers.

`Pool.Step` says who moves when. Here a worker is given an index and a value when it is started, and makes its call with
these two. Every call is recorded when it begins and again when it returns. Slots are kept in a channel: one is put in
by the main loop, which waits while the channel is full, and one is taken out by a worker, which would wait while it is
empty. A report that nobody waits for would be an error, and is no step.

Without the record this is the machine of `Pool.Step` (`reachable_iff_crew`).
-/
import AppAudit.Audit.Pool

namespace AppAudit.Pool

/-- what the function is called with -/
structure Call (α : Type) where
  index : Nat
  value : α
deriving DecidableEq, Repr

/-- the calls that are due: one for each value -/
def calls {α : Type} (values : List α) : List (Call α) := values.mapIdx Call.mk

/-- a state of the pool, and what has been passed on and called so far, first ones first -/
structure Crew (α β : Type) extends State β where
  /-- what each worker was given when it was started -/
  given : List (Call α)
  /-- the calls that have begun -/
  begun : List (Call α)
  /-- the calls that have returned -/
  ended : List (Call α)

namespace Crew

/-- nothing has happened yet -/
def initial {α : Type} (β : Type) (values : List α) : Crew α β :=
  { State.initial β values with given := [], begun := [], ended := [] }

/-- how many calls are in progress -/
def running {α β : Type} (c : Crew α β) : Nat := c.workers.count .calling

/-- one step of the main loop or of one worker -/
inductive Step {α β : Type} (limit : Int) (values : List α) (call : Nat → α → β) : Crew α β → Crew α β → Prop where
  /-- puts a slot into the channel, if it is not full -/
  | acquire (c : Crew α β) : c.main = .looping → c.next < values.length → c.held < width limit →
      Step limit values call c { c with main := .acquired, held := c.held + 1 }
  | register (c : Crew α β) : c.main = .acquired →
      Step limit values call c { c with main := .registered, pending := c.pending + 1 }
  /-- starts a worker and gives it the index and the value of this round -/
  | start (c : Crew α β) (v : α) : c.main = .registered → values[c.next]? = some v →
      Step limit values call c
        { c with
          main := .looping
          next := c.next + 1
          workers := c.workers.set c.next .started
          given := c.given ++ [⟨c.next, v⟩] }
  /-- begins the call with what the worker was given -/
  | enter (c : Crew α β) (i : Nat) (a : Call α) : c.workers[i]? = some .started → c.given[i]? = some a →
      Step limit values call c { c with workers := c.workers.set i .calling, begun := c.begun ++ [a] }
  | leave (c : Crew α β) (i : Nat) (a : Call α) : c.workers[i]? = some .calling → c.given[i]? = some a →
      Step limit values call c
        { c with
          workers := c.workers.set i .returned
          stored := c.stored.set a.index (some (call a.index a.value))
          ended := c.ended ++ [a] }
  /-- takes a slot out of the channel, if it is not empty -/
  | release (c : Crew α β) (i : Nat) : c.workers[i]? = some .returned → 0 < c.held →
      Step limit values call c { c with workers := c.workers.set i .released, held := c.held - 1 }
  | report (c : Crew α β) (i : Nat) : c.workers[i]? = some .released → 0 < c.pending →
      Step limit values call c { c with workers := c.workers.set i .done, pending := c.pending - 1 }
  | finish (c : Crew α β) : c.main = .looping → c.next = values.length → c.pending = 0 →
      Step limit values call c { c with main := .returned }

end Crew

end AppAudit.Pool
