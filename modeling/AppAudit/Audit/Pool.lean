/-
A pool of workers that calls a function once for every value, a bounded number of calls at a time.

The main loop takes a slot, registers the call and starts a worker for it; it waits where all slots are taken. A worker
runs the call, stores what it returns under its own index, gives its slot back and reports that it is done. The main loop
returns once every worker has reported. `Step` is this machine, with the workers interleaved in any order.

Whatever the order, what has been stored at the end is `results`: the values mapped in place. The bound is not visible
in it.
-/

namespace AppAudit.Pool

/-- how many calls may be in progress: the limit, but at least one -/
def width (limit : Int) : Nat := max limit.toNat 1

/-- what has been stored once every call has returned -/
def results {α β : Type} (values : List α) (call : Nat → α → β) : List β := values.mapIdx call

/-! ## The machine -/

/-- how far a worker has come -/
inductive Phase where
  | unborn
  | started
  | calling
  | returned
  | released
  | done
deriving DecidableEq, Repr

/-- how far the main loop has come -/
inductive Main where
  /-- about to take a slot for the next value, or to wait when there is none left -/
  | looping
  /-- holds a slot for the next value -/
  | acquired
  /-- has registered the call as well -/
  | registered
  /-- has returned -/
  | returned
deriving DecidableEq, Repr

structure State (β : Type) where
  main : Main
  /-- index of the next value to start a worker for -/
  next : Nat
  /-- slots in use -/
  held : Nat
  /-- registered calls that have not reported yet -/
  pending : Nat
  /-- one phase per value -/
  workers : List Phase
  /-- one place per value -/
  stored : List (Option β)

/-- nothing has happened yet -/
def State.initial {α : Type} (β : Type) (values : List α) : State β :=
  { main := .looping, next := 0, held := 0, pending := 0
    workers := values.map fun _ => .unborn
    stored := values.map fun _ => none }

/-- one step of the main loop or of one worker -/
inductive Step {α β : Type} (limit : Int) (values : List α) (call : Nat → α → β) : State β → State β → Prop where
  | acquire (s : State β) : s.main = .looping → s.next < values.length → s.held < width limit →
      Step limit values call s { s with main := .acquired, held := s.held + 1 }
  | register (s : State β) : s.main = .acquired →
      Step limit values call s { s with main := .registered, pending := s.pending + 1 }
  | start (s : State β) : s.main = .registered →
      Step limit values call s
        { s with main := .looping, next := s.next + 1, workers := s.workers.set s.next .started }
  | enter (s : State β) (i : Nat) : s.workers[i]? = some .started →
      Step limit values call s { s with workers := s.workers.set i .calling }
  | leave (s : State β) (i : Nat) (v : α) : s.workers[i]? = some .calling → values[i]? = some v →
      Step limit values call s
        { s with workers := s.workers.set i .returned, stored := s.stored.set i (some (call i v)) }
  | release (s : State β) (i : Nat) : s.workers[i]? = some .returned →
      Step limit values call s { s with workers := s.workers.set i .released, held := s.held - 1 }
  | report (s : State β) (i : Nat) : s.workers[i]? = some .released →
      Step limit values call s { s with workers := s.workers.set i .done, pending := s.pending - 1 }
  | finish (s : State β) : s.main = .looping → s.next = values.length → s.pending = 0 →
      Step limit values call s { s with main := .returned }

end AppAudit.Pool
