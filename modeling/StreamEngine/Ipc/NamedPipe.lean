import StreamEngine.Ipc.Socket

/-! The named pipe under the frames on Windows. `ReadFile` and `WriteFile` are given the length as
a `DWORD`, and a transfer of no bytes ends the loops of `PipeTransport`. -/
namespace StreamEngine.Ipc
open ByteString

/-- How `ReadFile` ends next. After the last of these the other end is closed. -/
inductive PipeRead where
  | piece (data : Bytes) (nonempty : data ≠ [])
  | empty
  | failed

/-- How `WriteFile` ends next. After the last of these it takes whole buffers. -/
inductive PipeWrite where
  | room (bytes : Nat)
  | failed

def dword (n : Nat) : Nat := n % 4294967296

theorem PipeTransport.rest_nonempty {n : Nat} {data : Bytes} (longer : n < data.length) :
    data.drop n ≠ [] := by
  intro all
  have short := congrArg List.length all
  rw [List.length_drop, List.length_nil] at short
  omega

/-- `none` when it returns FALSE. The rest of a longer piece stays. -/
def PipeTransport.readFile (n : Nat) : List PipeRead → Option Bytes × List PipeRead
  | [] => (none, [])
  | .failed :: reads => (none, reads)
  | .empty :: reads => (some [], reads)
  | .piece data _ :: reads =>
    if longer : n < data.length then
      (some (data.take n), .piece (data.drop n) (rest_nonempty longer) :: reads)
    else (some data, reads)

def PipeTransport.writeFile (data : Bytes) : List PipeWrite → Option Nat × List PipeWrite
  | [] => (some data.length, [])
  | .failed :: writes => (none, writes)
  | .room k :: writes => (some (min k data.length), writes)

namespace PipeTransport

/-- The loop of `read_exact` with what it has got. -/
def readExact (n : Nat) (got : Bytes) (reads : List PipeRead) : Option Bytes × List PipeRead :=
  if got.length < n then
    match readFile (dword (n - got.length)) reads with
    | (none, rest) => (none, rest)
    | (some bytes, rest) =>
      if bytes.length = 0 then (none, rest) else readExact n (got ++ bytes) rest
  else (some got, reads)
termination_by n - got.length
decreasing_by
  rw [List.length_append]
  omega

/-- The loop of `write_all` with the number of bytes sent. -/
def writeAll (data : Bytes) (sent : Nat) (writes : List PipeWrite) (wire : Bytes) :
    Bool × List PipeWrite × Bytes :=
  if sent < data.length then
    let buffer := (data.drop sent).take (dword (data.length - sent))
    match writeFile buffer writes with
    | (none, rest) => (false, rest, wire)
    | (some n, rest) =>
      if n = 0 then (false, rest, wire)
      else writeAll data (sent + n) rest (wire ++ buffer.take n)
  else (true, writes, wire)
termination_by data.length - sent

end PipeTransport

/-- A connected pipe, the bytes it has sent, and the state of the process around it. -/
structure NamedPipe (σ : Type) where
  reads : List PipeRead
  writes : List PipeWrite
  sent : Bytes
  app : σ

namespace NamedPipe
variable {σ : Type}

def transport : Transport (StateM (NamedPipe σ)) where
  readExact n := do
    let pipe ← get
    let (result, reads) := PipeTransport.readExact n [] pipe.reads
    set { pipe with reads := reads }
    return result
  writeAll data := do
    let pipe ← get
    let (ok, writes, sent) := PipeTransport.writeAll data 0 pipe.writes pipe.sent
    set { pipe with writes := writes, sent := sent }
    return ok

end NamedPipe

end StreamEngine.Ipc
