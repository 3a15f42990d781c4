import StreamEngine.Ipc.Frame
import StreamEngine.Json.Dump
import StreamEngine.Json.Parse

/-! The dispatch server: the hello handshake and the request loop over a table of
method handlers. -/
namespace StreamEngine.Ipc
open ByteString Binary64 Decimal Json

def kProtocolVersion : Int := 1

/-- What a handler leaves behind: its value, and an error code that counts when it is
not empty. -/
structure Outcome where
  result : Value
  errCode : Bytes
  errMsg : Bytes

variable {m : Type → Type} [Monad m]

/-- The handler table. -/
abbrev Handlers (m : Type → Type) := Bytes → Option (Value → m Outcome)

def kind (v : Value) : Bytes := v.getStr (ascii "kind") []

def helloMessage (engineVersion : Bytes) : Value :=
  (((Value.obj []).set (ascii "kind") (.str (ascii "hello"))).set (ascii "protocolVersion")
    (.num (ofInt kProtocolVersion))).set (ascii "engineVersion") (.str engineVersion)

/-- The verdict of `handshake` on the peer's frame. -/
def checkHello (raw : Bytes) : Except Bytes Unit :=
  match parse raw with
  | none => .error (ascii "malformed handshake frame")
  | some peer =>
    if peer.isObject = false then .error (ascii "malformed handshake frame")
    else if kind peer ≠ ascii "hello" then
      .error (ascii "expected hello, got '" ++ kind peer ++ ascii "'")
    else
      let peerVer := (peer.getNum (ascii "protocolVersion") (ofInt (-1))).toSigned 32
      if peerVer ≠ kProtocolVersion then
        .error (ascii "protocol version mismatch (engine " ++ printInt kProtocolVersion ++
          ascii ", launcher " ++ printInt peerVer ++ ascii ")")
      else .ok ()

def handshake (t : Transport m) (engineVersion : Bytes) : m (Except Bytes Unit) := do
  match ← writeFrame t (dump (helloMessage engineVersion)) with
  | .error err => return .error err
  | .ok () =>
    match ← readFrame t with
    | .error err =>
      return .error (if err = [] then ascii "connection closed before handshake" else err)
    | .ok raw => return checkHello raw

/-- The message of a frame that `run` acts on: an object of kind `req`. -/
def request? (raw : Bytes) : Option Value :=
  match parse raw with
  | none => none
  | some msg => if msg.isObject ∧ kind msg = ascii "req" then some msg else none

def method (msg : Value) : Bytes := msg.getStr (ascii "method") []

/-- The parameters of a request, the empty object when there are none. -/
def params (msg : Value) : Value := (msg.find (ascii "params")).getD (.obj [])

/-- The id goes through `uint64_t` and back. -/
def echoedId (msg : Value) : Double :=
  ofInt ((msg.getNum (ascii "id") (ofInt 0)).toUnsigned64 : Int)

def unsupported (msg : Value) : Outcome :=
  ⟨.null, ascii "unsupported_method", ascii "unknown method: " ++ method msg⟩

def dispatch (handlers : Handlers m) (msg : Value) : m Outcome :=
  match handlers (method msg) with
  | none => return unsupported msg
  | some handler => handler (params msg)

def response (id : Double) (outcome : Outcome) : Value :=
  let res := ((Value.obj []).set (ascii "kind") (.str (ascii "res"))).set (ascii "id") (.num id)
  if outcome.errCode = [] then
    (res.set (ascii "ok") (.bool true)).set (ascii "result") outcome.result
  else
    (res.set (ascii "ok") (.bool false)).set (ascii "error")
      (((Value.obj []).set (ascii "code") (.str outcome.errCode)).set (ascii "message")
        (.str outcome.errMsg))

/-- `run` for a number of frames, `none` while it is still serving. It returns true for a
clean close and an error otherwise. -/
def run (t : Transport m) (handlers : Handlers m) : Nat → m (Option (Except Bytes Unit))
  | 0 => return none
  | fuel + 1 => do
    match ← readFrame t with
    | .error err => return some (if err = [] then .ok () else .error err)
    | .ok raw =>
      match request? raw with
      | none => run t handlers fuel
      | some msg =>
        let outcome ← dispatch handlers msg
        match ← writeFrame t (dump (response (echoedId msg) outcome)) with
        | .error err => return some (.error err)
        | .ok () => run t handlers fuel

/-- The end of a connection as `stream_main` sees it. -/
inductive Exit where
  | handshakeFailed (err : Bytes)
  | ran (result : Except Bytes Unit)
  | serving

/-- `stream_main` from the handshake on, for a number of frames. -/
def serve (t : Transport m) (handlers : Handlers m) (engineVersion : Bytes) (fuel : Nat) :
    m Exit := do
  match ← handshake t engineVersion with
  | .error err => return .handshakeFailed err
  | .ok () =>
    match ← run t handlers fuel with
    | none => return .serving
    | some result => return .ran result

end StreamEngine.Ipc
