/-
Where reports go: sinks that take one write after another until they fail, and the buffer in front of them.

A buffer of 4096 bytes gathers small writes. What fits is kept back; what does not fit fills the buffer up, which is then
written, and a large rest goes straight through. What was kept back is written by a last flush. The sequence of writes
that reach the sink depends only on the sizes, so a failing sink is described by how many writes it takes.
-/
import AppAudit.Text.Utf8

namespace AppAudit

abbrev Bytes := List UInt8

/-- the bytes of a text -/
def textBytes (s : String) : Bytes := Utf8.encode s.toList

namespace Buffer

def capacity : Nat := 4096

/-- a write into the buffer: what goes on to the sink, and what is kept back -/
def push (kept chunk : Bytes) : List Bytes × Bytes :=
  let room := capacity - kept.length
  if chunk.length ≤ room then ([], kept ++ chunk)
  else if kept.isEmpty then ([chunk], [])
  else
    let filled := kept ++ chunk.take room
    let rest := chunk.drop room
    if rest.length ≤ capacity then ([filled], rest) else ([filled, rest], [])

/-- all writes that reach the sink, before the last flush, and what is kept back then -/
def pushAll (chunks : List Bytes) : List Bytes × Bytes :=
  chunks.foldl (fun (out, kept) chunk => let (more, kept) := push kept chunk; (out ++ more, kept)) ([], [])

/-- the write of the last flush, if there is anything to write -/
def flush (kept : Bytes) : List Bytes := if kept.isEmpty then [] else [kept]

/-- all writes that reach the sink -/
def writes (chunks : List Bytes) : List Bytes :=
  let (out, kept) := pushAll chunks
  out ++ flush kept

end Buffer

/-- what something that is to be written consists of -/
structure Rendering where
  /-- the writes, in order -/
  chunks : List Bytes
  /-- whether they go through a buffer of their own -/
  buffered : Bool := false
  /-- what precedes the text of a failed write -/
  context : String := ""
  /-- why rendering breaks off after the last write -/
  failure : Option String := none

namespace Rendering

/-- the writes that reach a sink without a buffer -/
def writes (r : Rendering) : List Bytes := if r.buffered then Buffer.writes r.chunks else r.chunks

/-- everything that is written, when nothing fails -/
def content (r : Rendering) : Bytes := r.chunks.flatten

/-- writes to a sink that takes `accepts` writes and then fails with a text: what it took, and the failure -/
def deliver (r : Rendering) (accepts : Nat) (failure : String) : List Bytes × Option String :=
  (r.writes.take accepts,
    if accepts < r.writes.length then some (r.context ++ failure) else r.failure)

/-- the same through a buffer that is flushed at the end. A write that fails on the way fails the rendering, which gives
its own context; what is still in the buffer when rendering breaks off is lost. -/
def deliverBuffered (r : Rendering) (accepts : Nat) (failure : String) : List Bytes × Option String :=
  let (sent, kept) := Buffer.pushAll r.chunks
  if accepts < sent.length then (sent.take accepts, some (r.context ++ failure))
  else if r.failure.isSome then (sent, r.failure)
  else
    let all := sent ++ Buffer.flush kept
    if accepts < all.length then (sent, some failure) else (all, none)

end Rendering

end AppAudit
