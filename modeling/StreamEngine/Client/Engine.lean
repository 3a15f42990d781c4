import StreamEngine.Library.Hoare
import StreamEngine.Net.AppList
import StreamEngine.Net.Http
import StreamEngine.Net.IdentityStore
import StreamEngine.Net.Launch

/-! The engine's view of the outside world. Everything the network, the random source and
the session worker do is an answer to the history so far, given by an `Environment`; the
engine records what it does in that history. A request that never returns stops the
engine, and its history still counts. -/
namespace StreamEngine.Client
open ByteString Decimal Net

/-- What the engine has done and learnt, in order. `X509` is the type of certificates. -/
inductive Event (X509 : Type) where
  | random (n : Nat) (bytes : Option Bytes)
  | generated (identity : Option ClientIdentity)
  | connect (host : Bytes) (port : Int) (connected : Bool)
  | plain (host : Bytes) (port : Int) (command args request : Bytes) (raw : Option Bytes)
  | handshake (host : Bytes) (port : Int) (peer : Option (Option X509))
  | tlsWrite (host : Bytes) (port : Int) (command args request : Bytes) (peer : X509)
  | tlsReply (raw : Option Bytes)
  | recorded (host : PairedHost)
  | sessionAsked (ended : Bool)
deriving DecidableEq

/-- The outside world as a function of the history. -/
structure Environment (X509 : Type) where
  crypto : Crypto
  /-- `RAND_bytes`, `none` when it fails. -/
  rand : List (Event X509) → (n : Nat) → Option { bytes : Bytes // bytes.length = n }
  generateIdentity : List (Event X509) → Option ClientIdentity
  tcpConnect : List (Event X509) → Bytes → Int → Bool
  /-- What is received after a plain request, `none` when sending fails. -/
  plainReply : List (Event X509) → Option Bytes
  /-- The certificate of the peer after a handshake, `none` when there is no session. -/
  tlsPeer : List (Event X509) → ClientIdentity → Option (Option X509)
  tlsReply : List (Event X509) → Option Bytes
  pemReadX509 : Bytes → Option X509
  /-- `LiGetLaunchUrlQueryParameters`. -/
  launchQuery : Bytes
  /-- Whether the session worker has ended by itself. -/
  workerEnded : List (Event X509) → Bool

structure NvHttpClient where
  host : Bytes
  httpPort : Int
  httpsPort : Int
  identity : ClientIdentity
  uniqueId : Bytes
  pinnedServerCert : Bytes
deriving DecidableEq

/-- The parts of the stream session that a start request reads and sets. -/
structure SessionState where
  running : Bool
  joinable : Bool
deriving DecidableEq

/-- The store directory, the client object of the request in progress, the stream session
and the history. -/
structure World (X509 : Type) where
  disk : StoreFile → Option Bytes
  client : NvHttpClient
  session : SessionState
  log : List (Event X509)

variable {X509 : Type}

/-- A freshly started engine on a store directory. -/
def World.start (disk : StoreFile → Option Bytes) : World X509 :=
  ⟨disk, ⟨[], 0, 0, ⟨[], []⟩, [], []⟩, ⟨false, false⟩, []⟩

abbrev Engine (X509 : Type) := OptionT (StateM (World X509))

namespace Engine

def record (e : Event X509) : Engine X509 Unit :=
  modify fun w => { w with log := w.log ++ [e] }

/-- A call that never returns. -/
def hang {α : Type} : Engine X509 α := OptionT.mk (pure none)

/-- The store when no file operation fails. -/
def files : FileOps (Engine X509) where
  readFile file := do return (← get).disk file
  writeFile file data := do
    modify fun w => { w with disk := Function.update w.disk file (some data) }
    return true

variable (env : Environment X509)

def randBytes (n : Nat) : Engine X509 (Option Bytes) := do
  let bytes := (env.rand (← get).log n).map Subtype.val
  record (.random n bytes)
  return bytes

/-- `random_bytes`. -/
def randomBytes (n : Nat) : Engine X509 Bytes := do
  if n = 0 then return []
  else return (← randBytes env n).getD []

def randomUuidHex : Engine X509 Bytes := do
  match ← randBytes env 16 with
  | none => return ascii "00000000000000000000000000000000"
  | some bytes => return toHex bytes

/-- Sixteen hexadecimal digits of a random 64-bit number. -/
def generateUniqueId : Engine X509 Bytes := do
  match ← randBytes env 8 with
  | none => return []
  | some bytes => return toHex bytes.reverse

def generateIdentity : Engine X509 (Option ClientIdentity) := do
  let identity := env.generateIdentity (← get).log
  record (.generated identity)
  return identity

def loadOrCreateIdentity : Engine X509 (Option (ClientIdentity × Bytes)) :=
  Net.loadOrCreateIdentity files (generateIdentity env) (generateUniqueId env)

/-! ### HTTP -/

def buildRequestTarget (command uniqueId uuidHex args : Bytes) : Bytes :=
  ascii "/" ++ command ++ ascii "?uniqueid=" ++ uniqueId ++ ascii "&uuid=" ++ uuidHex ++
    (if args = [] then [] else ascii "&" ++ args)

def requestText (client : NvHttpClient) (port : Int) (command uuidHex args : Bytes) : Bytes :=
  ascii "GET " ++ buildRequestTarget command client.uniqueId uuidHex args ++
    ascii " HTTP/1.1\r\nHost: " ++ client.host ++ ascii ":" ++ printInt port ++
    ascii "\r\nConnection: close\r\n\r\n"

/-- `read_pem_cert`. -/
def readPemCert (pem : Bytes) : Option X509 := if pem = [] then none else env.pemReadX509 pem

/-- The TLS branch of `request`: the peer must present the pinned certificate before
anything is written. -/
def tlsExchange [DecidableEq X509] (client : NvHttpClient) (port : Int)
    (command args req : Bytes) : Engine X509 Bytes := do
  let session := env.tlsPeer (← get).log client.identity
  record (.handshake client.host port session)
  match session.join, readPemCert env client.pinnedServerCert with
  | some peer, some pinned =>
    if peer = pinned then
      record (.tlsWrite client.host port command args req peer)
      let raw := env.tlsReply (← get).log
      record (.tlsReply raw)
      return raw.getD []
    else return []
  | _, _ => return []

def plainExchange (client : NvHttpClient) (port : Int) (command args req : Bytes) :
    Engine X509 Bytes := do
  let raw := env.plainReply (← get).log
  record (.plain client.host port command args req raw)
  return raw.getD []

/-- `NvHttpClient::request`. The body of the reply, empty on any failure. -/
def request [DecidableEq X509] (https : Bool) (port : Int) (command args : Bytes) :
    Engine X509 Bytes := do
  let uuid ← randomUuidHex env
  let client := (← get).client
  let req := requestText client port command uuid args
  let connected := env.tcpConnect (← get).log client.host port
  record (.connect client.host port connected)
  if connected = false then return []
  else
    let raw ← if https then tlsExchange env client port command args req
      else plainExchange env client port command args req
    match parseHttpResponse raw with
    | none => hang
    | some resp => return if resp.ok then resp.body else []

def getHttp [DecidableEq X509] (command args : Bytes) : Engine X509 Bytes := do
  request env false (← get).client.httpPort command args

def getHttps [DecidableEq X509] (command args : Bytes) : Engine X509 Bytes := do
  request env true (← get).client.httpsPort command args

def setPinnedServerCert (pem : Bytes) : Engine X509 Unit :=
  modify fun w => { w with client := { w.client with pinnedServerCert := pem } }

def setHttpsPort (port : Int) : Engine X509 Unit :=
  modify fun w => { w with client := { w.client with httpsPort := port } }

def newClient (client : NvHttpClient) : Engine X509 Unit :=
  modify fun w => { w with client := client }

/-- `pair_with_client`. -/
def pairWithClient [DecidableEq X509] (identity : ClientIdentity) (pin : Bytes)
    (serverMajorVersion : Int) : Engine X509 PairResult :=
  nvPair env.crypto (fun https command args =>
      if https then getHttps env command args else getHttp env command args)
    identity pin serverMajorVersion setPinnedServerCert (randomBytes env)

/-- `upsert_host` on the engine's store. A record that was written is noted. -/
def upsert (host : PairedHost) : Engine X509 Bool := do
  let ok ← upsertHost files host
  if ok then record (.recorded host)
  return ok

end Engine
end StreamEngine.Client
