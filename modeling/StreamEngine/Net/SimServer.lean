import StreamEngine.Net.PairingProofs

/-! The simulated host of the pairing tests, which does the host's side of the handshake
with the same primitives. The tests fix its secret and its challenge; here they are
fields, like the rest of what a host brings to a handshake. -/
namespace StreamEngine.Net
open ByteString

/-- Sixteen bytes, the length of every random draw of the handshake. -/
abbrev Block := { bytes : Bytes // bytes.length = 16 }

/-- Value of a parameter of a query, up to the next `&` or the end. -/
def param (args name : Bytes) : Bytes :=
  match find args (name ++ ascii "=") 0 with
  | none => []
  | some found =>
    let start := found + name.length + 1
    match find args [38] start with
    | none => args.drop start
    | some stop => substr args start (stop - start)

def root200 (inner : Bytes) : Bytes :=
  ascii "<?xml version=\"1.0\"?><root status_code=\"200\">" ++ inner ++ ascii "</root>"

/-- `std::string::find` that is not `npos`. -/
def contains (s needle : Bytes) : Bool := (find s needle 0).isSome

/-- Zeros up to the next multiple of sixteen. -/
def padBlocks (s : Bytes) : Bytes := resize s ((s.length + 15) / 16 * 16)

/-- A host, with the key and the secret it remembers between requests. -/
structure SimServer where
  pin : Bytes
  gen7 : Bool
  offerCert : Bool
  id : ClientIdentity
  secret : Block
  challenge : Block
  aesKey : Bytes
  serverSecret : Bytes

namespace SimServer
variable (crypto : Crypto) (server : SimServer)

/-- A host before the handshake, with the generation and the PIN that are typed in. -/
def new (pin : Bytes) (gen : Int) (id : ClientIdentity) (secret challenge : Block) : SimServer :=
  ⟨pin, decide (gen ≥ 7), true, id, secret, challenge, [], []⟩

/-- `respond`: the reply, and the host after it. -/
def respond (_https : Bool) (command args : Bytes) : Bytes × SimServer :=
  if command = ascii "unpair" then (root200 [], server)
  else if command ≠ ascii "pair" then ([], server)
  else if contains args (ascii "phrase=getservercert") then
    let salt := fromHex (param args (ascii "salt"))
    -- Without a certificate another client is being paired.
    let cert := if server.offerCert then toHex server.id.certPem else []
    (root200 (ascii "<paired>1</paired><plaincert>" ++ cert ++ ascii "</plaincert>"),
      { server with aesKey := crypto.deriveAesKey salt server.pin server.gen7 })
  else if contains args (ascii "clientchallenge=") then
    let clientChallenge :=
      crypto.aesEcbDecrypt (fromHex (param args (ascii "clientchallenge"))) server.aesKey
    let serverResponse := crypto.genHash (clientChallenge ++
      crypto.signatureFromPemCert server.id.certPem ++ server.secret.val) server.gen7
    let blob := crypto.aesEcbEncrypt (padBlocks (serverResponse ++ server.challenge.val)) server.aesKey
    (root200 (ascii "<paired>1</paired><challengeresponse>" ++ toHex blob ++
      ascii "</challengeresponse>"), { server with serverSecret := server.secret.val })
  else if contains args (ascii "serverchallengeresp=") then
    let secret := server.serverSecret ++ crypto.signMessage server.serverSecret server.id.keyPem
    (root200 (ascii "<paired>1</paired><pairingsecret>" ++ toHex secret ++
      ascii "</pairingsecret>"), server)
  else if contains args (ascii "clientpairingsecret=") ||
      contains args (ascii "phrase=pairchallenge") then
    (root200 (ascii "<paired>1</paired>"), server)
  else ([], server)

/-- The host after the requests of a log. -/
def after (log : List PairEvent) : SimServer :=
  log.foldl (fun server e =>
    match e with
    | .request https command args _ => (server.respond crypto https command args).2
    | _ => server) server

end SimServer

/-- The client's three draws: salt, challenge and secret. -/
structure Draws where
  salt : Block
  randomChallenge : Block
  clientSecret : Block

def Draws.next (draws : Draws) (log : List PairEvent) : Bytes :=
  match (log.filter fun e => match e with | .random .. => true | _ => false).length with
  | 0 => draws.salt.val
  | 1 => draws.randomChallenge.val
  | _ => draws.clientSecret.val

/-- The world of an attempt against the simulated host. -/
def SimServer.peer (crypto : Crypto) (server : SimServer) (draws : Draws) : Peer where
  reply log https command args := ((server.after crypto log).respond crypto https command args).1
  random log _ := draws.next log

end StreamEngine.Net
