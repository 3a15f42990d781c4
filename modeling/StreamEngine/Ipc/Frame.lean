import StreamEngine.Library.ByteString

/-! Wire framing: a little-endian 32-bit length, then the payload. The transport is a
pair of operations in any monad, as `ITransport` is an interface. -/
namespace StreamEngine.Ipc
open ByteString

/-- `read_exact`, `none` when it returns false, and `write_all`. -/
structure Transport (m : Type → Type) where
  readExact : Nat → m (Option Bytes)
  writeAll : Bytes → m Bool

def kMaxFrame : Nat := 8 * 1024 * 1024

/-- The four header bytes of a length below `2^32`. -/
def frameHeader (n : Nat) : Bytes :=
  [n.toUInt8, (n / 256).toUInt8, (n / 65536).toUInt8, (n / 16777216).toUInt8]

def frameLength (header : Bytes) : Nat :=
  header.foldr (fun c n => c.toNat + 256 * n) 0

def oversizeOut : Bytes := ascii "frame exceeds 8 MiB cap"

def oversizeIn : Bytes := ascii "incoming frame exceeds 8 MiB cap"

variable {m : Type → Type} [Monad m] (t : Transport m)

/-- An error carries the message. -/
def writeFrame (payload : Bytes) : m (Except Bytes Unit) := do
  if payload.length > kMaxFrame then return .error oversizeOut
  else if (← t.writeAll (frameHeader payload.length)) = false then
    return .error (ascii "write frame header failed")
  else if payload.length = 0 then return .ok ()
  else if (← t.writeAll payload) = false then return .error (ascii "write frame body failed")
  else return .ok ()

/-- The empty message stands for a clean close. -/
def readFrame : m (Except Bytes Bytes) := do
  match ← t.readExact 4 with
  | none => return .error []
  | some header =>
    let n := frameLength header
    if n > kMaxFrame then return .error oversizeIn
    else if n = 0 then return .ok []
    else
      match ← t.readExact n with
      | none => return .error (ascii "truncated frame body")
      | some payload => return .ok payload

end StreamEngine.Ipc
