import StreamEngine.Net.PairingCrypto
import StreamEngine.Net.Xml

/-! The five-stage pairing handshake, over the callbacks the source injects: a
request function, the certificate pin and a random source. The callbacks live in
any monad, so the same definition runs against a recorded peer and in the engine. -/
namespace StreamEngine.Net
open ByteString

structure ClientIdentity where
  certPem : Bytes
  keyPem : Bytes
deriving DecidableEq

inductive PairState where
  | paired
  | failed
  | pinWrong
  | alreadyInProgress
deriving DecidableEq

structure PairResult where
  state : PairState
  serverCertPem : Bytes
deriving DecidableEq

def kPairPrefix : Bytes := ascii "devicename=roth&updateState=1&"

/-- A status-200 reply with `<paired>1</paired>`. -/
def pairedOk (xml : Bytes) : Bool :=
  xml != [] && xmlAttr xml (ascii "root") (ascii "status_code") == ascii "200" &&
    xmlText xml (ascii "paired") == ascii "1"

/-- `PairTransport`: whether over TLS, command and query tail to the reply. -/
abbrev PairTransport (m : Type → Type) := Bool → Bytes → Bytes → m Bytes

variable {m : Type → Type} [Monad m]

/-- Ends a failed pairing with a request to drop it. -/
def unpairWith (transport : PairTransport m) (state : PairState) : m PairResult := do
  let _ ← transport false (ascii "unpair") []
  return ⟨state, []⟩

def nvPair (crypto : Crypto) (transport : PairTransport m) (identity : ClientIdentity)
    (pin : Bytes) (serverMajorVersion : Int) (setPinnedCert : Bytes → m Unit)
    (randomFn : Nat → m Bytes) : m PairResult := do
  let gen7 := decide (serverMajorVersion ≥ 7)
  let hashLen := if gen7 then 32 else 20
  let salt ← randomFn 16
  let aesKey := crypto.deriveAesKey salt pin gen7
  if aesKey = [] then return ⟨.failed, []⟩ else
  -- Stage 1: getservercert
  let getCert ← transport false (ascii "pair") (kPairPrefix ++ ascii "phrase=getservercert&salt=" ++
    toHex salt ++ ascii "&clientcert=" ++ toHex identity.certPem)
  if pairedOk getCert = false then return ⟨.failed, []⟩ else
  let serverCertPem := xmlTextHex getCert (ascii "plaincert")
  if serverCertPem = [] then unpairWith transport .alreadyInProgress else
  setPinnedCert serverCertPem
  -- Stage 2: clientchallenge
  let randomChallenge ← randomFn 16
  let encChallenge := crypto.aesEcbEncrypt randomChallenge aesKey
  let challengeXml ← transport false (ascii "pair")
    (kPairPrefix ++ ascii "clientchallenge=" ++ toHex encChallenge)
  if pairedOk challengeXml = false then unpairWith transport .failed else
  let challengeResp :=
    crypto.aesEcbDecrypt (xmlTextHex challengeXml (ascii "challengeresponse")) aesKey
  if challengeResp.length < hashLen + 16 then unpairWith transport .failed else
  -- Stage 3: serverchallengeresp
  let serverResponse := substr challengeResp 0 hashLen
  let clientSecret ← randomFn 16
  let toHash := substr challengeResp hashLen 16 ++ crypto.signatureFromPemCert identity.certPem ++
    clientSecret
  let paddedHash := resize (crypto.genHash toHash gen7) 32
  let respXml ← transport false (ascii "pair")
    (kPairPrefix ++ ascii "serverchallengeresp=" ++ toHex (crypto.aesEcbEncrypt paddedHash aesKey))
  if pairedOk respXml = false then unpairWith transport .failed else
  let pairingSecret := xmlTextHex respXml (ascii "pairingsecret")
  if pairingSecret.length ≤ 16 then unpairWith transport .failed else
  let serverSecret := substr pairingSecret 0 16
  let serverSignature := pairingSecret.drop 16
  if crypto.verifySignature serverSecret serverSignature serverCertPem = false then
    unpairWith transport .failed
  else
  let expected := randomChallenge ++ crypto.signatureFromPemCert serverCertPem ++ serverSecret
  if crypto.genHash expected gen7 ≠ serverResponse then unpairWith transport .pinWrong else
  -- Stage 4: clientpairingsecret
  let clientPairingSecret := clientSecret ++ crypto.signMessage clientSecret identity.keyPem
  let secretXml ← transport false (ascii "pair")
    (kPairPrefix ++ ascii "clientpairingsecret=" ++ toHex clientPairingSecret)
  if pairedOk secretXml = false then unpairWith transport .failed else
  -- Stage 5: pairchallenge
  let challengeFinal ← transport true (ascii "pair") (kPairPrefix ++ ascii "phrase=pairchallenge")
  if pairedOk challengeFinal = false then unpairWith transport .failed else
  return ⟨.paired, serverCertPem⟩

end StreamEngine.Net
