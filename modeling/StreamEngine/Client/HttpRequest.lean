import StreamEngine.Client.Engine
import StreamEngine.Library.Threads
import Mathlib.Data.Set.Insert

/-! `NvHttpClient::request`, call by call: the socket, the TLS session, and what OpenSSL allocates on
the way. Calls fail as they like, and the peer may send for ever: a request is written and its reply
is read piece by piece, with a round for each piece. -/
namespace StreamEngine.Client
open ByteString Decimal Net

namespace HttpRequest
open Interaction Threads

abbrev Ptr := Nat

/-- What has to be given back. -/
inductive Resource where
  | addrinfo (p : Ptr)
  | socket (fd : Ptr)
  | ctx (p : Ptr)
  | ssl (p : Ptr)
  | x509 (p : Ptr)
  | key (p : Ptr)
  | bio (p : Ptr)
deriving DecidableEq

/-- What the network and the random source see of a request. -/
inductive Io (X509 : Type) where
  | random (bytes : Option Bytes)
  | connect (connected : Bool)
  | handshake (peer : Option (Option X509))
  | sent (bytes : Bytes)
  | received (bytes : Bytes)

/-- What is held, the text in each memory BIO, the certificate of each handle, the socket of each
TLS session and the certificate of its peer once there is one, and what was done so far. -/
structure World (X509 : Type) where
  held : Set Resource
  text : Ptr → Bytes
  cert : Ptr → Option X509
  socketOf : Ptr → Option Ptr
  session : Ptr → Option (Option X509)
  log : List (Io X509)

/-- Addresses are told apart by numbers. Of a private key only its handle matters. -/
inductive Call where
  | randBytes
  | getaddrinfo (host service : Bytes)
  | socket (address : Nat)
  | connect (fd : Ptr) (address : Nat)
  | closeSocket (fd : Ptr)
  | freeaddrinfo (res : Ptr)
  | setTimeout (fd : Ptr) (sending : Bool) (seconds microseconds : Int)
  | send (fd : Ptr) (data : Bytes)
  | recv (fd : Ptr)
  | sslCtxNew
  | bioNew (text : Bytes)
  | pemReadX509 (bio : Ptr)
  | pemReadPrivateKey (bio : Ptr)
  | bioFree (bio : Ptr)
  | useCertificate (ctx cert : Ptr)
  | usePrivateKey (ctx key : Ptr)
  | setVerifyNone (ctx : Ptr)
  | sslNew (ctx : Ptr)
  | setFd (ssl fd : Ptr)
  | sslConnect (ssl : Ptr)
  | getPeerCertificate (ssl : Ptr)
  | x509Cmp (a b : Ptr)
  | x509Free (cert : Ptr)
  | keyFree (key : Ptr)
  | sslWrite (ssl : Ptr) (data : Bytes)
  | sslRead (ssl : Ptr)
  | sslShutdown (ssl : Ptr)
  | sslFree (ssl : Ptr)
  | ctxFree (ctx : Ptr)

/-- Reading answers with the bytes that have come, `none` at the end of the stream and on failure. -/
abbrev Call.Answer : Call → Type
  | .randBytes => Option { bytes : Bytes // bytes.length = 16 }
  | .getaddrinfo .. => Option (Ptr × List Nat)
  | .socket _ | .sslCtxNew | .bioNew _ | .pemReadX509 _ | .pemReadPrivateKey _ | .sslNew _
  | .getPeerCertificate _ => Option Ptr
  | .connect .. | .sslConnect _ | .x509Cmp .. => Bool
  | .send .. | .sslWrite .. => Int
  | .recv _ | .sslRead _ => Option Bytes
  | _ => Unit

/-- The parameters of the call, with the members of the object. -/
structure Locals where
  client : NvHttpClient
  https : Bool
  port : Int
  command : Bytes
  args : Bytes
  timeoutMs : Int

/-- The request, and the loops of `send_all`, `recv_all_plain` and their TLS counterparts with what
they have come to. -/
inductive Method where
  | request (l : Locals)
  | sendAll (l : Locals) (req : Bytes) (sock : Ptr) (sent : Nat)
  | recvAllPlain (l : Locals) (req : Bytes) (sock : Ptr) (out : Bytes)
  | sendAllSsl (l : Locals) (req : Bytes) (sock ctx ssl : Ptr) (sent : Nat)
  | recvAllSsl (l : Locals) (req : Bytes) (sock ctx ssl : Ptr) (out : Bytes)
  | dechunking (l : Locals)

def Method.locals : Method → Locals
  | .request l | .sendAll l .. | .recvAllPlain l .. | .sendAllSsl l .. | .recvAllSsl l ..
  | .dechunking l => l

abbrev Code := Program Call Call.Answer

abbrev access (c : Call) : Code c.Answer := Interaction.request c

/-! ### The socket -/

/-- The loop over the addresses. -/
def connectFirst : List Nat → Code (Option Ptr)
  | [] => return none
  | address :: rest => do
    match ← access (.socket address) with
    | none => connectFirst rest
    | some sock =>
      if ← access (.connect sock address) then return some sock
      else
        access (.closeSocket sock)
        connectFirst rest

def setTimeouts (sock : Ptr) (timeoutMs : Int) : Code Unit := do
  if timeoutMs > 0 then
    access (.setTimeout sock false (timeoutMs.tdiv 1000) (timeoutMs.tmod 1000 * 1000))
    access (.setTimeout sock true (timeoutMs.tdiv 1000) (timeoutMs.tmod 1000 * 1000))
  else return

def tcpConnect (host : Bytes) (port timeoutMs : Int) : Code (Option Ptr) := do
  match ← access (.getaddrinfo host (printInt port)) with
  | none => return none
  | some (res, addresses) =>
    let sock ← connectFirst addresses
    access (.freeaddrinfo res)
    match sock with
    | none => return none
    | some sock =>
      setTimeouts sock timeoutMs
      return some sock

/-! ### The TLS session -/

/-- A handle that a PEM reader makes of a text. The reader is given a memory BIO. -/
def readPem (reader : Ptr → Code (Option Ptr)) (pem : Bytes) : Code (Option Ptr) := do
  if pem = [] then return none
  else
    match ← access (.bioNew pem) with
    | none => return none
    | some bio =>
      let handle ← reader bio
      access (.bioFree bio)
      return handle

def readPemCert : Bytes → Code (Option Ptr) := readPem fun bio => access (.pemReadX509 bio)

def readPemKey : Bytes → Code (Option Ptr) := readPem fun bio => access (.pemReadPrivateKey bio)

/-- A call with a handle, unless that is null. -/
def ifThere (handle : Option Ptr) (f : Ptr → Code Unit) : Code Unit :=
  match handle with
  | none => return
  | some p => f p

/-- `X509_cmp` of two handles that are there. -/
def sameCert : Option Ptr → Option Ptr → Code Bool
  | some a, some b => access (.x509Cmp a b)
  | _, _ => return false

/-- Whether the peer shows the pinned certificate. -/
def checkPin (ssl : Ptr) (pinnedServerCert : Bytes) : Code Bool := do
  let peer ← access (.getPeerCertificate ssl)
  let pinned ← readPemCert pinnedServerCert
  let tlsOk ← sameCert peer pinned
  ifThere peer fun p => access (.x509Free p)
  ifThere pinned fun p => access (.x509Free p)
  return tlsOk

def handshake (client : NvHttpClient) (sock : Ptr) : Option Ptr → Code Bool
  | none => return false
  | some ssl => do
    access (.setFd ssl sock)
    if ← access (.sslConnect ssl) then checkPin ssl client.pinnedServerCert
    else return false

/-- The session, and whether it may be written to. -/
def establish (client : NvHttpClient) (sock ctx : Ptr) : Code (Option Ptr × Bool) := do
  let clientCert ← readPemCert client.identity.certPem
  let clientKey ← readPemKey client.identity.keyPem
  ifThere clientCert fun cert => access (.useCertificate ctx cert)
  ifThere clientKey fun key => access (.usePrivateKey ctx key)
  access (.setVerifyNone ctx)
  let ssl ← access (.sslNew ctx)
  let tlsOk ← handshake client sock ssl
  ifThere clientCert fun cert => access (.x509Free cert)
  ifThere clientKey fun key => access (.keyFree key)
  return (ssl, tlsOk)

def closeTls (ssl ctx : Option Ptr) (sock : Ptr) : Code Unit := do
  ifThere ssl fun ssl => do
    access (.sslShutdown ssl)
    access (.sslFree ssl)
  ifThere ctx fun ctx => access (.ctxFree ctx)
  access (.closeSocket sock)

/-! ### The request -/

/-- The body of what was received. Decoding its chunks may not end. -/
def reply (l : Locals) (raw : Bytes) : Ending Method Bytes :=
  match parseHttpResponse raw with
  | none => .again (.dechunking l)
  | some resp => .result (if resp.ok then resp.body else [])

def tlsExchange (l : Locals) (req : Bytes) (sock : Ptr) : Code (Ending Method Bytes) := do
  match ← access .sslCtxNew with
  | none =>
    closeTls none none sock
    return reply l []
  | some ctx =>
    match ← establish l.client sock ctx with
    | (some ssl, true) => return .again (.sendAllSsl l req sock ctx ssl 0)
    | (ssl, _) =>
      closeTls ssl (some ctx) sock
      return reply l []

def randomUuidHex : Code Bytes := do
  match ← access .randBytes with
  | none => return ascii "00000000000000000000000000000000"
  | some bytes => return toHex bytes.val

def request (l : Locals) : Code (Ending Method Bytes) := do
  let uuid ← randomUuidHex
  let req := Engine.requestText l.client l.port l.command uuid l.args
  match ← tcpConnect l.client.host l.port l.timeoutMs with
  | none => return .result []
  | some sock =>
    if l.https then tlsExchange l req sock
    else return .again (.sendAll l req sock 0)

def body : Method → Code (Ending Method Bytes)
  | .request l => request l
  | .sendAll l req sock sent => do
    if sent < req.length then
      let n ← access (.send sock (req.drop sent))
      if n ≤ 0 then
        access (.closeSocket sock)
        return reply l []
      else return .again (.sendAll l req sock (sent + n.toNat))
    else return .again (.recvAllPlain l req sock [])
  | .recvAllPlain l req sock out => do
    match ← access (.recv sock) with
    | none =>
      access (.closeSocket sock)
      return reply l out
    | some bytes => return .again (.recvAllPlain l req sock (out ++ bytes))
  | .sendAllSsl l req sock ctx ssl sent => do
    if sent < req.length then
      let n ← access (.sslWrite ssl (req.drop sent))
      if n ≤ 0 then
        closeTls (some ssl) (some ctx) sock
        return reply l []
      else return .again (.sendAllSsl l req sock ctx ssl (sent + n.toNat))
    else return .again (.recvAllSsl l req sock ctx ssl [])
  | .recvAllSsl l req sock ctx ssl out => do
    match ← access (.sslRead ssl) with
    | none =>
      closeTls (some ssl) (some ctx) sock
      return reply l out
    | some bytes => return .again (.recvAllSsl l req sock ctx ssl (out ++ bytes))
  | .dechunking l => return .again (.dechunking l)

/-! ### What the calls do -/

variable {X509 : Type}

namespace World
variable (w : World X509)

def hold (r : Resource) : World X509 := { w with held := insert r w.held }

def drop (r : Resource) : World X509 := { w with held := w.held \ {r} }

def note (io : Io X509) : World X509 := { w with log := w.log ++ [io] }

@[simp] theorem hold_held (r : Resource) : (w.hold r).held = insert r w.held := rfl
@[simp] theorem hold_log (r : Resource) : (w.hold r).log = w.log := rfl
@[simp] theorem drop_held (r : Resource) : (w.drop r).held = w.held \ {r} := rfl
@[simp] theorem drop_log (r : Resource) : (w.drop r).log = w.log := rfl
@[simp] theorem note_held (io : Io X509) : (w.note io).held = w.held := rfl
@[simp] theorem note_log (io : Io X509) : (w.note io).log = w.log ++ [io] := rfl

end World

/-- A call that allocates answers with a handle that is not in use, or null. -/
def Allocates (r : Ptr → Resource) (w : World X509) (answer : Option Ptr) (made : Ptr → World X509)
    (w' : World X509) : Prop :=
  match answer with
  | none => w' = w
  | some p => r p ∉ w.held ∧ w' = (made p).hold (r p)

/-- A write takes some bytes from the front of the buffer, or fails. -/
def Writes (data : Bytes) (w : World X509) (n : Int) (w' : World X509) : Prop :=
  if n ≤ 0 then w' = w
  else n ≤ data.length ∧ w' = w.note (.sent (data.take n.toNat))

/-- A read fills a buffer of 4096 bytes, at least in part. -/
def Reads (w : World X509) (answer : Option Bytes) (w' : World X509) : Prop :=
  match answer with
  | none => w' = w
  | some bytes => 0 < bytes.length ∧ bytes.length ≤ 4096 ∧ w' = w.note (.received bytes)

/-- A handshake that succeeds leaves a session, whose peer may have shown a certificate. -/
def effect (env : Environment X509) : (c : Call) → World X509 → c.Answer → World X509 → Prop
  | .randBytes, w, answer, w' => w' = w.note (.random (answer.map Subtype.val))
  | .getaddrinfo .., w, none, w' => w' = w
  | .getaddrinfo .., w, some (res, _), w' => .addrinfo res ∉ w.held ∧ w' = w.hold (.addrinfo res)
  | .socket _, w, answer, w' => Allocates .socket w answer (fun _ => w) w'
  | .connect .., w, answer, w' => w' = w.note (.connect answer)
  | .closeSocket fd, w, _, w' => w' = w.drop (.socket fd)
  | .freeaddrinfo res, w, _, w' => w' = w.drop (.addrinfo res)
  | .send _ data, w, n, w' | .sslWrite _ data, w, n, w' => Writes data w n w'
  | .recv _, w, answer, w' | .sslRead _, w, answer, w' => Reads w answer w'
  | .sslCtxNew, w, answer, w' => Allocates .ctx w answer (fun _ => w) w'
  | .bioNew text, w, answer, w' =>
    Allocates .bio w answer (fun p => { w with text := Function.update w.text p text }) w'
  | .pemReadX509 bio, w, answer, w' => (answer.isSome → (env.pemReadX509 (w.text bio)).isSome) ∧
    Allocates .x509 w answer (fun p =>
      { w with cert := Function.update w.cert p (env.pemReadX509 (w.text bio)) }) w'
  | .pemReadPrivateKey _, w, answer, w' => Allocates .key w answer (fun _ => w) w'
  | .bioFree bio, w, _, w' => w' = w.drop (.bio bio)
  | .sslNew _, w, answer, w' => Allocates .ssl w answer (fun p =>
      { w with
        socketOf := Function.update w.socketOf p none
        session := Function.update w.session p none }) w'
  | .setFd ssl fd, w, _, w' => w' = { w with socketOf := Function.update w.socketOf ssl (some fd) }
  | .sslConnect _, w, false, w' => w' = w.note (.handshake none)
  | .sslConnect ssl, w, true, w' => ∃ peer,
    w' = { w with session := Function.update w.session ssl (some peer) }.note (.handshake (some peer))
  | .getPeerCertificate ssl, w, answer, w' => answer.isSome = (w.session ssl).join.isSome ∧
    Allocates .x509 w answer (fun p =>
      { w with cert := Function.update w.cert p (w.session ssl).join }) w'
  | .x509Cmp a b, w, answer, w' => (answer = true ↔ w.cert a = w.cert b) ∧ w' = w
  | .x509Free cert, w, _, w' => w' = w.drop (.x509 cert)
  | .keyFree key, w, _, w' => w' = w.drop (.key key)
  | .sslFree ssl, w, _, w' => w' = w.drop (.ssl ssl)
  | .ctxFree ctx, w, _, w' => w' = w.drop (.ctx ctx)
  | .setTimeout .., w, _, w' | .useCertificate .., w, _, w' | .usePrivateKey .., w, _, w'
  | .setVerifyNone _, w, _, w' | .sslShutdown _, w, _, w' => w' = w

/-- The client sends one request at a time. -/
def Method.ready : Method → World X509 → Prop
  | .request _, _ => True
  | _, _ => False

def requester (env : Environment X509) : Object Unit (World X509) Call Call.Answer Method Bytes where
  effect _ := effect env
  body := body
  thread _ := ()
  overlaps _ _ := False
  overlaps_symm _ _ := id
  ready := Method.ready

end HttpRequest
end StreamEngine.Client
