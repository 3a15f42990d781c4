import StreamEngine.Ipc.Server
import StreamEngine.Library.Transition
import Mathlib.Logic.Function.Basic

/-! The threads that write to one connection: the workers that emit events and the loop that
responds. Each takes `write_mu_`, writes a header and a body, and releases it. The kernel may
take any part of what is left in one step. -/
namespace StreamEngine.Ipc
open ByteString Binary64 Json

/-- What `emit` sends. -/
def eventMessage (event : Bytes) (data : Value) : Value :=
  (((Value.obj []).set (ascii "kind") (.str (ascii "event"))).set (ascii "event")
    (.str event)).set (ascii "data") data

/-- A call that ends in `write_locked`. -/
inductive Call where
  | emit (event : Bytes) (data : Value)
  | respond (id : Double) (outcome : Outcome)

def Call.payload : Call → Bytes
  | .emit event data => dump (eventMessage event data)
  | .respond id outcome => dump (response id outcome)

/-- A thread, by what it does next. From `header` on it holds the mutex. -/
inductive Writer where
  | idle
  | lock (payload : Bytes)
  | header (payload : Bytes) (sent : Nat)
  | body (payload : Bytes) (sent : Nat)
  | unlock

/-- The cap is checked under the mutex. -/
def Writer.locked (payload : Bytes) : Writer :=
  if payload.length > kMaxFrame then .unlock else .header payload 0

/-- After this many bytes of the header. -/
def Writer.afterHeader (payload : Bytes) (sent : Nat) : Writer :=
  if sent < 4 then .header payload sent else if payload.length = 0 then .unlock else .body payload 0

def Writer.afterBody (payload : Bytes) (sent : Nat) : Writer :=
  if sent < payload.length then .body payload sent else .unlock

structure Connection (θ : Type) where
  writer : θ → Writer
  holder : Option θ
  wire : Bytes

def Connection.fresh {θ : Type} : Connection θ := ⟨fun _ => .idle, none, []⟩

inductive Action (θ : Type) where
  | call (thread : θ) (call : Call)
  | lock (thread : θ)
  | send (thread : θ) (bytes : Nat)
  | unlock (thread : θ)

variable {θ : Type} [DecidableEq θ]

/-- The thread does this next, with this holder of the mutex and these bytes on the wire. -/
def Connection.to (c : Connection θ) (thread : θ) (next : Writer) (holder : Option θ)
    (wire : Bytes) : Connection θ :=
  ⟨Function.update c.writer thread next, holder, wire⟩

inductive Step : Connection θ → Action θ → Connection θ → Prop where
  | call {c thread call} (idle : c.writer thread = .idle) :
      Step c (.call thread call) (c.to thread (.lock call.payload) c.holder c.wire)
  | lock {c thread payload} (waits : c.writer thread = .lock payload) (free : c.holder = none) :
      Step c (.lock thread) (c.to thread (.locked payload) (some thread) c.wire)
  | header {c thread payload sent n} (writes : c.writer thread = .header payload sent)
      (some : 0 < n) (within : sent + n ≤ 4) :
      Step c (.send thread n) (c.to thread (.afterHeader payload (sent + n)) c.holder
        (c.wire ++ ((frameHeader payload.length).drop sent).take n))
  | body {c thread payload sent n} (writes : c.writer thread = .body payload sent)
      (some : 0 < n) (within : sent + n ≤ payload.length) :
      Step c (.send thread n) (c.to thread (.afterBody payload (sent + n)) c.holder
        (c.wire ++ (payload.drop sent).take n))
  | unlock {c thread} (done : c.writer thread = .unlock) :
      Step c (.unlock thread) (c.to thread .idle none c.wire)

end StreamEngine.Ipc
