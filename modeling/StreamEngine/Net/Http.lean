import StreamEngine.Library.Decimal
import StreamEngine.Library.Loop

/-! Decoding of an HTTP reply. Positions are `size_t`, so their sums are taken
modulo `2^64`. The chunk loop advances by a length the peer chooses, and `none`
stands for a loop that is never left. -/
namespace StreamEngine.Net
open ByteString Decimal

def sizeT (n : Nat) : Nat := n % 2 ^ 64

def crlf : Bytes := [13, 10]

/-- The digit loop of a chunk line from the length read so far. It stops at the first
character that is not a digit, and a line without digits leaves the length zero. -/
def chunkSize (len : Nat) : Bytes → Nat
  | [] => len
  | c :: line =>
    match hexVal c with
    | some v => chunkSize (sizeT (len * 16 + v)) line
    | none => len

/-- A chunk announced at position `i`: where its data start and how many bytes the line
claims. There is none at the end of the body, on a line that is not terminated, and
after a zero or missing length. -/
def chunkAt (body : Bytes) (i : Nat) : Option (Nat × Nat) :=
  if i < body.length then
    match find body crlf i with
    | none => none
    | some eol =>
      let len := chunkSize 0 (substr body i (eol - i))
      if len = 0 then none else some (sizeT (eol + 2), len)
  else none

/-- The chunk that the iteration at position `i` appends. -/
def nextChunk (body : Bytes) (i : Nat) : Option (Nat × Nat) :=
  match chunkAt body i with
  | none => none
  | some (start, len) => if body.length < sizeT (start + len) then none else some (start, len)

/-- Position after a chunk and its line end. -/
def afterChunk (chunk : Nat × Nat) : Nat := sizeT (chunk.1 + chunk.2 + 2)

/-- One iteration of `dechunk` on the position and the output. Appending clips the
range at the end of the body, as `std::string::append` does. -/
def dechunkStep (body : Bytes) : Nat × Bytes → (Nat × Bytes) ⊕ Bytes
  | (i, out) =>
    match nextChunk body i with
    | none => .inr out
    | some chunk => .inl (afterChunk chunk, out ++ substr body chunk.1 chunk.2)

def dechunk (body : Bytes) : Option Bytes :=
  Loop.run (dechunkStep body) (body.length + 1) (0, [])

structure HttpResponse where
  ok : Bool
  httpStatus : Int
  body : Bytes
deriving DecidableEq

/-- The empty reply. -/
def noResponse : HttpResponse := ⟨false, 0, []⟩

/-- End of the headers and start of the body, split at an empty line. -/
def splitHeaders (raw : Bytes) : Nat × Nat :=
  match find raw (crlf ++ crlf) 0 with
  | some sep => (sep, sep + 4)
  | none =>
    match find raw [10, 10] 0 with
    | some sep => (sep, sep + 2)
    | none => (raw.length, raw.length)

/-- `none` when the body is chunked and its decoding never returns. -/
def parseHttpResponse (raw : Bytes) : Option HttpResponse :=
  if raw.take 5 ≠ ascii "HTTP/" then some noResponse
  else
    match find raw [32] 0 with
    | none => some noResponse
    | some sp =>
      let httpStatus := atoi (raw.drop (sp + 1))
      let headers := (raw.take (splitHeaders raw).1).map toLower
      let body := raw.drop (splitHeaders raw).2
      if (find headers (ascii "transfer-encoding: chunked") 0).isSome then
        (dechunk body).map fun body => ⟨true, httpStatus, body⟩
      else some ⟨true, httpStatus, body⟩

end StreamEngine.Net
