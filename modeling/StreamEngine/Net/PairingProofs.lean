import Mathlib.Data.List.Forall2
import StreamEngine.Library.Hoare
import StreamEngine.Net.Pairing

/-! What a pairing attempt does to the outside world, for any peer. The events of an
attempt are determined by what the peer answered and how many stages were reached;
every way out of `nvPair` is one of the endings of `Exchange`. The callbacks are only
known through an assertion `Log` on the events so far, so the same result holds for a
recorded peer and for the engine's own requests. -/
namespace StreamEngine.Net
open ByteString Hoare

inductive PairEvent where
  | random (n : Nat) (bytes : Bytes)
  | request (https : Bool) (command args reply : Bytes)
  | pin (cert : Bytes)
deriving DecidableEq

inductive Stage where
  | getservercert
  | clientchallenge
  | serverchallengeresp
  | clientpairingsecret
  | pairchallenge
deriving DecidableEq

/-- Only the last stage is sent over TLS. -/
def Stage.https : Stage → Bool
  | .pairchallenge => true
  | _ => false

/-- The parameter after the fixed prefix that tells the stages apart. -/
def Stage.phrase : Stage → Bytes
  | .getservercert => ascii "phrase=getservercert&salt="
  | .clientchallenge => ascii "clientchallenge="
  | .serverchallengeresp => ascii "serverchallengeresp="
  | .clientpairingsecret => ascii "clientpairingsecret="
  | .pairchallenge => ascii "phrase=pairchallenge"

def Stage.all : List Stage :=
  [.getservercert, .clientchallenge, .serverchallengeresp, .clientpairingsecret, .pairchallenge]

/-- The random draws and the replies of one attempt. -/
structure Answers where
  salt : Bytes
  randomChallenge : Bytes
  clientSecret : Bytes
  reply : Stage → Bytes

def replies (getCert challengeXml respXml secretXml challengeFinal : Bytes) : Stage → Bytes
  | .getservercert => getCert
  | .clientchallenge => challengeXml
  | .serverchallengeresp => respXml
  | .clientpairingsecret => secretXml
  | .pairchallenge => challengeFinal

/-- What the client brings to an attempt. -/
structure Client where
  crypto : Crypto
  identity : ClientIdentity
  pin : Bytes
  gen7 : Bool

namespace Client
variable (client : Client) (answers : Answers)

def aesKey : Bytes := client.crypto.deriveAesKey answers.salt client.pin client.gen7

def hashLen : Nat := if client.gen7 then 32 else 20

def challengeResp : Bytes :=
  client.crypto.aesEcbDecrypt
    (xmlTextHex (answers.reply .clientchallenge) (ascii "challengeresponse"))
    (client.aesKey answers)

def paddedHash : Bytes :=
  resize (client.crypto.genHash (substr (client.challengeResp answers) client.hashLen 16 ++
    client.crypto.signatureFromPemCert client.identity.certPem ++ answers.clientSecret)
    client.gen7) 32

def query : Stage → Bytes
  | .getservercert => kPairPrefix ++ ascii "phrase=getservercert&salt=" ++ toHex answers.salt ++
      ascii "&clientcert=" ++ toHex client.identity.certPem
  | .clientchallenge => kPairPrefix ++ ascii "clientchallenge=" ++
      toHex (client.crypto.aesEcbEncrypt answers.randomChallenge (client.aesKey answers))
  | .serverchallengeresp => kPairPrefix ++ ascii "serverchallengeresp=" ++
      toHex (client.crypto.aesEcbEncrypt (client.paddedHash answers) (client.aesKey answers))
  | .clientpairingsecret => kPairPrefix ++ ascii "clientpairingsecret=" ++
      toHex (answers.clientSecret ++
        client.crypto.signMessage answers.clientSecret client.identity.keyPem)
  | .pairchallenge => kPairPrefix ++ ascii "phrase=pairchallenge"

def request (stage : Stage) : PairEvent :=
  .request stage.https (ascii "pair") (client.query answers stage) (answers.reply stage)

end Client

namespace Answers
variable (answers : Answers)

def serverCertPem : Bytes := xmlTextHex (answers.reply .getservercert) (ascii "plaincert")

def pairingSecret : Bytes := xmlTextHex (answers.reply .serverchallengeresp) (ascii "pairingsecret")

/-- Events between the previous stage's reply and the request of a stage. -/
def before : Stage → List PairEvent
  | .getservercert => [.random 16 answers.salt]
  | .clientchallenge => [.pin answers.serverCertPem, .random 16 answers.randomChallenge]
  | .serverchallengeresp => [.random 16 answers.clientSecret]
  | .clientpairingsecret | .pairchallenge => []

end Answers

/-- Events of an attempt that sent the requests of these stages. -/
def attempt (client : Client) (answers : Answers) (stages : List Stage) : List PairEvent :=
  stages.flatMap fun stage => answers.before stage ++ [client.request answers stage]

def unpairEvent (reply : Bytes) : PairEvent := .request false (ascii "unpair") [] reply

/-- What the peer has shown when an attempt succeeds. -/
structure Proven (client : Client) (answers : Answers) : Prop where
  accepted : ∀ stage, pairedOk (answers.reply stage) = true
  certified : answers.serverCertPem ≠ []
  signed : client.crypto.verifySignature (substr answers.pairingSecret 0 16)
    (answers.pairingSecret.drop 16) answers.serverCertPem = true
  keyed : client.crypto.genHash (answers.randomChallenge ++
      client.crypto.signatureFromPemCert answers.serverCertPem ++
      substr answers.pairingSecret 0 16) client.gen7 =
    substr (client.challengeResp answers) 0 client.hashLen

/-- The endings of an attempt: without a key, with the first request refused, dropped
with an unpair request after some stage, and completed. -/
inductive Exchange (client : Client) : PairResult → List PairEvent → Prop where
  | noKey {salt} (missing : client.crypto.deriveAesKey salt client.pin client.gen7 = []) :
      Exchange client ⟨.failed, []⟩ [.random 16 salt]
  | refused (answers) (keyed : client.aesKey answers ≠ [])
      (notPaired : pairedOk (answers.reply .getservercert) = false) :
      Exchange client ⟨.failed, []⟩ (attempt client answers [.getservercert])
  | dropped (answers) {state reply} (sent : List Stage) (last : Stage)
      (keyed : client.aesKey answers ≠ []) (stages : sent ++ [last] <+: Stage.all)
      (accepted : ∀ stage ∈ sent, pairedOk (answers.reply stage) = true)
      (first : pairedOk (answers.reply .getservercert) = true) (notPaired : state ≠ .paired) :
      Exchange client ⟨state, []⟩
        (attempt client answers (sent ++ [last]) ++ [unpairEvent reply])
  | completed (answers) (keyed : client.aesKey answers ≠ []) (proven : Proven client answers) :
      Exchange client ⟨.paired, answers.serverCertPem⟩ (attempt client answers Stage.all)

/-- The requests that an attempt may send, each with the events before it. -/
inductive Call (client : Client) : List PairEvent → Bool → Bytes → Bytes → Prop where
  | stage (answers) (sent : List Stage) (stage : Stage) (ordered : sent ++ [stage] <+: Stage.all)
      (accepted : ∀ stage ∈ sent, pairedOk (answers.reply stage) = true) :
      Call client (attempt client answers sent ++ answers.before stage) stage.https
        (ascii "pair") (client.query answers stage)
  | unpair (log) : Call client log false (ascii "unpair") []

section Walk
variable {σ : Type} {Log : List PairEvent → σ → Prop} {hung : σ → Prop} {client : Client}
  {transport : PairTransport (OptionT (StateM σ))} {setPinnedCert : Bytes → OptionT (StateM σ) Unit}
  {randomFn : Nat → OptionT (StateM σ) Bytes}
  (requests : ∀ log https command args, Call client log https command args →
    Triple (Log log) (transport https command args)
      (fun reply => Log (log ++ [.request https command args reply])) hung)
  (pins : ∀ log cert, Triple (Log log) (setPinnedCert cert) (fun _ => Log (log ++ [.pin cert])) hung)
  (draws : ∀ log n, Triple (Log log) (randomFn n)
    (fun bytes => Log (log ++ [.random n bytes])) hung)

include requests in
/-- An attempt that is given up after the stages in `sent` and `last`. -/
theorem unpairWith_spec (answers : Answers) (sent : List Stage) (last : Stage)
    {state : PairState} (keyed : client.aesKey answers ≠ []) (stages : sent ++ [last] <+: Stage.all)
    (accepted : ∀ stage ∈ sent, pairedOk (answers.reply stage) = true)
    (first : pairedOk (answers.reply .getservercert) = true) (notPaired : state ≠ .paired) :
    Triple (Log (attempt client answers (sent ++ [last]))) (unpairWith transport state)
      (fun result s => ∃ log, Exchange client result log ∧ Log log s) hung :=
  triple_bind (requests _ _ _ _ (.unpair _)) fun _ => triple_pure fun _ held =>
    ⟨_, .dropped answers sent last keyed stages accepted first notPaired, held⟩

include requests in
/-- The request of a stage, after the events that come before it. -/
theorem stage_spec (answers : Answers) (sent : List Stage) (stage : Stage)
    {f : Bytes → OptionT (StateM σ) α} {post : α → σ → Prop} {log : List PairEvent}
    (ordered : sent ++ [stage] <+: Stage.all)
    (accepted : ∀ stage ∈ sent, pairedOk (answers.reply stage) = true)
    (events : log = attempt client answers sent ++ answers.before stage)
    (rest : ∀ reply, Triple (Log (log ++
      [.request stage.https (ascii "pair") (client.query answers stage) reply])) (f reply) post hung) :
    Triple (Log log)
      (transport stage.https (ascii "pair") (client.query answers stage) >>= f) post hung := by
  subst events
  exact triple_bind (requests _ _ _ _ (.stage answers sent stage ordered accepted)) rest

/-- The events so far, written as those of an attempt. -/
theorem triple_attempt {x : OptionT (StateM σ) α} {post : α → σ → Prop}
    {log : List PairEvent} (answers : Answers) (stages : List Stage)
    (triple : Triple (Log (attempt client answers stages)) x post hung)
    (events : log = attempt client answers stages) : Triple (Log log) x post hung :=
  events ▸ triple

variable (Log client) in
include requests pins draws in
/-- A pairing attempt leaves the events of one of the endings. -/
theorem nvPair_spec (serverMajorVersion : Int)
    (generation : client.gen7 = decide (serverMajorVersion ≥ 7)) :
    Triple (Log []) (nvPair client.crypto transport client.identity client.pin serverMajorVersion
        setPinnedCert randomFn)
      (fun result s => ∃ log, Exchange client result log ∧ Log log s) hung := by
  unfold nvPair
  rw [← generation]
  refine triple_bind (draws _ _) fun salt => triple_ite (fun missing => ?_) fun keyed => ?_
  · exact triple_pure fun s held => ⟨_, .noKey missing, held⟩
  refine stage_spec requests ⟨salt, [], [], replies [] [] [] [] []⟩ [] .getservercert (by decide)
    (by simp) rfl fun getCert => ?_
  refine triple_attempt ⟨salt, [], [], replies getCert [] [] [] []⟩ [.getservercert] ?_ rfl
  refine triple_ite (fun notPaired => ?_) fun accepted₁ => ?_
  · exact triple_pure fun s held =>
      ⟨_, .refused ⟨salt, [], [], replies getCert [] [] [] []⟩ keyed notPaired, held⟩
  rw [Bool.not_eq_false] at accepted₁
  have sent₁ : ∀ b c d e, ∀ stage ∈ [Stage.getservercert],
      pairedOk (replies getCert b c d e stage) = true := by simpa [replies] using accepted₁
  refine triple_ite (fun unknown => ?_) fun certified => ?_
  · exact unpairWith_spec requests _ [] .getservercert keyed (by decide) (by simp) accepted₁
      (by decide)
  refine triple_bind (pins _ _) fun _ => triple_bind (draws _ _) fun randomChallenge => ?_
  refine stage_spec requests ⟨salt, randomChallenge, [], replies getCert [] [] [] []⟩
    [.getservercert] .clientchallenge (by decide) (sent₁ _ _ _ _) rfl fun challengeXml => ?_
  refine triple_attempt ⟨salt, randomChallenge, [], replies getCert challengeXml [] [] []⟩
    [.getservercert, .clientchallenge] ?_ rfl
  refine triple_ite (fun notPaired => ?_) fun accepted₂ => ?_
  · exact unpairWith_spec requests _ [.getservercert] .clientchallenge keyed (by decide)
      (sent₁ _ _ _ _) accepted₁ (by decide)
  rw [Bool.not_eq_false] at accepted₂
  have sent₂ : ∀ c d e, ∀ stage ∈ [Stage.getservercert, .clientchallenge],
      pairedOk (replies getCert challengeXml c d e stage) = true := by
    simpa [replies] using ⟨accepted₁, accepted₂⟩
  refine triple_ite (fun short => ?_) fun long => ?_
  · exact unpairWith_spec requests _ [.getservercert] .clientchallenge keyed (by decide)
      (sent₁ _ _ _ _) accepted₁ (by decide)
  refine triple_bind (draws _ _) fun clientSecret => ?_
  refine stage_spec requests
    ⟨salt, randomChallenge, clientSecret, replies getCert challengeXml [] [] []⟩
    [.getservercert, .clientchallenge] .serverchallengeresp (by decide) (sent₂ _ _ _) rfl
    fun respXml => ?_
  refine triple_attempt
    ⟨salt, randomChallenge, clientSecret, replies getCert challengeXml respXml [] []⟩
    [.getservercert, .clientchallenge, .serverchallengeresp] ?_ rfl
  have giveUp₃ := fun state (notPaired : state ≠ PairState.paired) =>
    unpairWith_spec requests
      ⟨salt, randomChallenge, clientSecret, replies getCert challengeXml respXml [] []⟩
      [.getservercert, .clientchallenge] .serverchallengeresp keyed (by decide) (sent₂ _ _ _)
      accepted₁ notPaired
  refine triple_ite (fun notPaired => giveUp₃ _ (by decide)) fun accepted₃ => ?_
  rw [Bool.not_eq_false] at accepted₃
  have sent₃ : ∀ d e, ∀ stage ∈ [Stage.getservercert, .clientchallenge, .serverchallengeresp],
      pairedOk (replies getCert challengeXml respXml d e stage) = true := by
    simpa [replies] using ⟨accepted₁, accepted₂, accepted₃⟩
  refine triple_ite (fun short => giveUp₃ _ (by decide)) fun _ => ?_
  refine triple_ite (fun unsigned => giveUp₃ _ (by decide)) fun signed => ?_
  refine triple_ite (fun different => giveUp₃ _ (by decide)) fun same => ?_
  rw [Bool.not_eq_false] at signed
  rw [not_not] at same
  refine stage_spec requests
    ⟨salt, randomChallenge, clientSecret, replies getCert challengeXml respXml [] []⟩
    [.getservercert, .clientchallenge, .serverchallengeresp] .clientpairingsecret (by decide)
    (sent₃ _ _) rfl fun secretXml => ?_
  refine triple_attempt
    ⟨salt, randomChallenge, clientSecret, replies getCert challengeXml respXml secretXml []⟩
    [.getservercert, .clientchallenge, .serverchallengeresp, .clientpairingsecret] ?_ rfl
  refine triple_ite (fun notPaired => ?_) fun accepted₄ => ?_
  · exact unpairWith_spec requests _ [.getservercert, .clientchallenge, .serverchallengeresp]
      .clientpairingsecret keyed (by decide) (sent₃ _ _) accepted₁ (by decide)
  rw [Bool.not_eq_false] at accepted₄
  have sent₄ : ∀ e, ∀ stage ∈ [Stage.getservercert, .clientchallenge, .serverchallengeresp,
      .clientpairingsecret],
      pairedOk (replies getCert challengeXml respXml secretXml e stage) = true := by
    simpa [replies] using ⟨accepted₁, accepted₂, accepted₃, accepted₄⟩
  refine stage_spec requests
    ⟨salt, randomChallenge, clientSecret, replies getCert challengeXml respXml secretXml []⟩
    [.getservercert, .clientchallenge, .serverchallengeresp, .clientpairingsecret] .pairchallenge
    (by decide) (sent₄ _) rfl fun challengeFinal => ?_
  refine triple_attempt ⟨salt, randomChallenge, clientSecret,
    replies getCert challengeXml respXml secretXml challengeFinal⟩ Stage.all ?_ rfl
  refine triple_ite (fun notPaired => ?_) fun accepted₅ => ?_
  · exact unpairWith_spec requests _ [.getservercert, .clientchallenge, .serverchallengeresp,
      .clientpairingsecret] .pairchallenge keyed (by decide) (sent₄ _) accepted₁ (by decide)
  rw [Bool.not_eq_false] at accepted₅
  refine triple_pure fun s held => ⟨_, .completed ⟨salt, randomChallenge, clientSecret,
    replies getCert challengeXml respXml secretXml challengeFinal⟩ keyed
    ⟨?_, certified, signed, same⟩, held⟩
  intro stage
  cases stage
  · exact accepted₁
  · exact accepted₂
  · exact accepted₃
  · exact accepted₄
  · exact accepted₅

end Walk

/-! ### A recorded peer -/

/-- The outside world of one attempt, which may answer as it likes on everything that
has happened so far. -/
structure Peer where
  reply : List PairEvent → Bool → Bytes → Bytes → Bytes
  random : List PairEvent → Nat → Bytes

namespace Peer
variable (peer : Peer)

def transport : PairTransport (OptionT (StateM (List PairEvent))) := fun https command args => do
  let log ← get
  let reply := peer.reply log https command args
  set (log ++ [.request https command args reply])
  return reply

def setPinnedCert (cert : Bytes) : OptionT (StateM (List PairEvent)) Unit :=
  modify (· ++ [.pin cert])

def randomFn (n : Nat) : OptionT (StateM (List PairEvent)) Bytes := do
  let log ← get
  let bytes := peer.random log n
  set (log ++ [.random n bytes])
  return bytes

end Peer

/-- Result of a pairing attempt and everything it did. -/
def runPair (crypto : Crypto) (peer : Peer) (identity : ClientIdentity) (pin : Bytes)
    (serverMajorVersion : Int) : Option PairResult × List PairEvent :=
  exec (nvPair crypto peer.transport identity pin serverMajorVersion Peer.setPinnedCert
    peer.randomFn) []

/-- Logs in which every answer is the peer's. -/
inductive Recorded (peer : Peer) : List PairEvent → Prop where
  | nil : Recorded peer []
  | request {log} (earlier : Recorded peer log) (https command args) :
      Recorded peer (log ++ [.request https command args (peer.reply log https command args)])
  | random {log} (earlier : Recorded peer log) (n) :
      Recorded peer (log ++ [.random n (peer.random log n)])
  | pin {log} (earlier : Recorded peer log) (cert) : Recorded peer (log ++ [.pin cert])

/-- The first draw is answered from an empty history. -/
theorem Recorded.first_random {peer : Peer} {log : List PairEvent} (recorded : Recorded peer log) :
    ∀ n bytes, log.head? = some (.random n bytes) → bytes = peer.random [] n := by
  have extend : ∀ {log : List PairEvent} {e : PairEvent},
      (∀ n bytes, log.head? = some (.random n bytes) → bytes = peer.random [] n) →
      (∀ n bytes, log = [] → e = .random n bytes → bytes = peer.random [] n) →
      ∀ n bytes, (log ++ [e]).head? = some (.random n bytes) → bytes = peer.random [] n := by
    intro log e earlier single n bytes head
    cases log with
    | nil => exact single n bytes rfl (by simpa using head)
    | cons first log => exact earlier n bytes (by simpa using head)
  induction recorded with
  | nil => simp
  | request earlier https command args ih => exact extend ih (by simp)
  | @random log earlier k ih =>
    refine extend ih ?_
    rintro n bytes rfl same
    cases same
    rfl
  | pin earlier cert ih => exact extend ih (by simp)

/-- An attempt always returns, with one of the endings. -/
theorem runPair_spec (crypto : Crypto) (peer : Peer) (identity : ClientIdentity) (pin : Bytes)
    (serverMajorVersion : Int) :
    ∃ result log, runPair crypto peer identity pin serverMajorVersion = (some result, log) ∧
      Exchange ⟨crypto, identity, pin, decide (serverMajorVersion ≥ 7)⟩ result log ∧
      Recorded peer log := by
  have requests : ∀ log https command args,
      Call ⟨crypto, identity, pin, decide (serverMajorVersion ≥ 7)⟩ log https command args →
      Triple (fun s => s = log ∧ Recorded peer log) (peer.transport https command args)
        (fun reply s => s = log ++ [.request https command args reply] ∧
          Recorded peer (log ++ [.request https command args reply])) (fun _ => False) := by
    rintro log https command args - s ⟨rfl, recorded⟩
    exact Or.inl ⟨_, rfl, rfl, recorded.request https command args⟩
  have pins : ∀ log cert, Triple (fun s => s = log ∧ Recorded peer log) (Peer.setPinnedCert cert)
      (fun _ s => s = log ++ [.pin cert] ∧ Recorded peer (log ++ [.pin cert]))
      (fun _ => False) := by
    rintro log cert s ⟨rfl, recorded⟩
    exact Or.inl ⟨(), rfl, rfl, recorded.pin cert⟩
  have draws : ∀ log n, Triple (fun s => s = log ∧ Recorded peer log) (peer.randomFn n)
      (fun bytes s => s = log ++ [.random n bytes] ∧ Recorded peer (log ++ [.random n bytes]))
      (fun _ => False) := by
    rintro log n s ⟨rfl, recorded⟩
    exact Or.inl ⟨_, rfl, rfl, recorded.random n⟩
  have spec := nvPair_spec (fun log s => s = log ∧ Recorded peer log)
    ⟨crypto, identity, pin, decide (serverMajorVersion ≥ 7)⟩ requests pins draws
    serverMajorVersion rfl
  obtain ⟨result, value, log, exchange, same, recorded⟩ | ⟨-, impossible⟩ :=
    spec [] ⟨rfl, .nil⟩
  · exact ⟨result, log, Prod.ext value same, exchange, recorded⟩
  · exact impossible.elim

/-! ### Success -/

/-- An attempt that is paired is a completed one. -/
theorem runPair_completed {crypto : Crypto} {peer : Peer} {identity : ClientIdentity} {pin : Bytes}
    {serverMajorVersion : Int} {cert : Bytes} {log : List PairEvent}
    (paired : runPair crypto peer identity pin serverMajorVersion =
      (some ⟨.paired, cert⟩, log)) :
    ∃ (client : Client) (answers : Answers),
      client = ⟨crypto, identity, pin, decide (serverMajorVersion ≥ 7)⟩ ∧
      client.aesKey answers ≠ [] ∧ Proven client answers ∧ cert = answers.serverCertPem ∧
      log = attempt client answers Stage.all ∧ Recorded peer log := by
  obtain ⟨result, log', run, exchange, recorded⟩ :=
    runPair_spec crypto peer identity pin serverMajorVersion
  rw [paired] at run
  cases run
  cases exchange with
  | dropped answers sent last keyed stages accepted first notPaired => exact absurd rfl notPaired
  | completed answers keyed proven => exact ⟨_, answers, rfl, keyed, proven, rfl, rfl, recorded⟩

def PairEvent.overTls : PairEvent → Bool
  | .request https _ _ _ => https
  | _ => false

def PairEvent.pinned? : PairEvent → Option Bytes
  | .pin cert => some cert
  | _ => none

/-- A successful attempt sent all five stages, each accepted. Its certificate is the
one of the first reply, pinned once and before the one request over TLS, and the peer
has proved that it holds the key of that certificate and knows the PIN. -/
theorem runPair_paired {crypto : Crypto} {peer : Peer} {identity : ClientIdentity} {pin : Bytes}
    {serverMajorVersion : Int} {cert : Bytes} {log : List PairEvent}
    (paired : runPair crypto peer identity pin serverMajorVersion =
      (some ⟨.paired, cert⟩, log)) :
    ∃ (client : Client) (answers : Answers),
      client = ⟨crypto, identity, pin, decide (serverMajorVersion ≥ 7)⟩ ∧
      log = attempt client answers Stage.all ∧ Proven client answers ∧
      cert = answers.serverCertPem ∧ log.filterMap PairEvent.pinned? = [cert] ∧
      ∃ before after, log = before ++ .pin cert :: after ∧
        before.filter PairEvent.overTls = [] ∧
        after.filter PairEvent.overTls = [client.request answers .pairchallenge] := by
  obtain ⟨client, answers, same, -, proven, rfl, rfl, -⟩ := runPair_completed paired
  refine ⟨client, answers, same, rfl, proven, rfl, rfl, ?_⟩
  exact ⟨[.random 16 answers.salt, client.request answers .getservercert], _, rfl, rfl, rfl⟩

/-- Primitives that hash everything to zeros and encrypt nothing, and a peer that agrees
with them at every stage. -/
def zeroCrypto : Crypto where
  sha256 _ := List.replicate 32 0
  sha1 _ := List.replicate 20 0
  evpEncrypt data _ := some data
  evpDecrypt data _ := some data
  signatureFromPemCert _ := [1]
  verifySignature _ _ _ := true
  signMessage _ _ := [2]

def agreeingPeer : Peer where
  reply _ _ _ _ := ascii "<root status_code='200'><paired>1</paired><plaincert>41</plaincert>" ++
    ascii "<challengeresponse>" ++ toHex (List.replicate 48 0) ++
    ascii "</challengeresponse><pairingsecret>" ++ toHex (List.replicate 17 0) ++
    ascii "</pairingsecret></root>"
  random _ n := List.replicate n 3

def agreeingRun : Option PairResult × List PairEvent :=
  runPair zeroCrypto agreeingPeer ⟨ascii "c", ascii "k"⟩ (ascii "1234") 7

theorem agreeingRun_paired : agreeingRun.1 = some ⟨.paired, [65]⟩ := by decide +kernel

theorem runPair_paired_agreeing :
    ∃ (client : Client) (answers : Answers),
      client = ⟨zeroCrypto, ⟨ascii "c", ascii "k"⟩, ascii "1234", true⟩ ∧
      agreeingRun.2 = attempt client answers Stage.all ∧ Proven client answers ∧
      [65] = answers.serverCertPem := by
  have paired : agreeingRun = (some ⟨.paired, [65]⟩, agreeingRun.2) := by
    rw [← agreeingRun_paired]
  obtain ⟨client, answers, same, log, proven, cert, -⟩ := runPair_paired paired
  exact ⟨client, answers, same, log, proven, cert⟩

/-! ### Order of the requests -/

structure Request where
  https : Bool
  command : Bytes
  args : Bytes
  reply : Bytes

def PairEvent.sent? : PairEvent → Option Request
  | .request https command args reply => some ⟨https, command, args, reply⟩
  | _ => none

/-- The request of a stage, by its fixed part. -/
def IsRequestOf (stage : Stage) (request : Request) : Prop :=
  request.https = stage.https ∧ request.command = ascii "pair" ∧
    kPairPrefix ++ stage.phrase <+: request.args

/-- The requests of the first stages in order, each after the acceptance of the one
before, and an unpair request exactly when the first was accepted in vain. -/
structure Sequenced (result : PairResult) (stages : List Stage) (requests cleanup : List Request) :
    Prop where
  nonempty : stages ≠ []
  ordered : stages <+: Stage.all
  matching : List.Forall₂ IsRequestOf stages requests
  accepted : ∀ k, k + 1 < requests.length →
    ∃ request, requests[k]? = some request ∧ pairedOk request.reply = true
  cleanup_unpair : cleanup = [] ∨ ∃ reply, cleanup = [⟨false, ascii "unpair", [], reply⟩]
  cleanup_iff : cleanup ≠ [] ↔
    (∃ request, requests.head? = some request ∧ pairedOk request.reply = true) ∧
      result.state ≠ .paired

def Client.sent (client : Client) (answers : Answers) (stage : Stage) : Request :=
  ⟨stage.https, ascii "pair", client.query answers stage, answers.reply stage⟩

theorem attempt_requests (client : Client) (answers : Answers) (stages : List Stage) :
    (attempt client answers stages).filterMap PairEvent.sent? =
      stages.map (client.sent answers) := by
  induction stages with
  | nil => rfl
  | cons stage stages ih =>
    have earlier : (answers.before stage).filterMap PairEvent.sent? = [] := by cases stage <;> rfl
    have request : [client.request answers stage].filterMap PairEvent.sent? =
        [client.sent answers stage] := rfl
    rw [attempt] at ih ⊢
    rw [List.flatMap_cons, List.filterMap_append, List.filterMap_append, earlier, request, ih]
    rfl

theorem sent_isRequestOf (client : Client) (answers : Answers) (stage : Stage) :
    IsRequestOf stage (client.sent answers stage) := by
  refine ⟨rfl, rfl, ?_⟩
  cases stage <;> simp only [Client.sent, Client.query, Stage.phrase, List.append_assoc]
  · exact ⟨_, List.append_assoc _ _ _⟩
  · exact ⟨_, List.append_assoc _ _ _⟩
  · exact ⟨_, List.append_assoc _ _ _⟩
  · exact ⟨_, List.append_assoc _ _ _⟩
  · exact List.prefix_refl _

theorem requests_matching (client : Client) (answers : Answers) (stages : List Stage) :
    List.Forall₂ IsRequestOf stages (stages.map (client.sent answers)) :=
  List.forall₂_map_right_iff.mpr
    (List.forall₂_same.mpr fun stage _ => sent_isRequestOf client answers stage)

theorem head_of_prefix {stages : List Stage} (nonempty : stages ≠ [])
    (ordered : stages <+: Stage.all) : stages.head? = some .getservercert := by
  obtain ⟨rest, all⟩ := ordered
  cases stages with
  | nil => contradiction
  | cons stage stages =>
    have same : stage = .getservercert := (List.cons.inj all).1
    rw [same, List.head?_cons]

/-- Once there is a key, an attempt returns and its requests are in order. -/
theorem runPair_sequenced (crypto : Crypto) (peer : Peer) (identity : ClientIdentity) (pin : Bytes)
    (serverMajorVersion : Int)
    (keyed : crypto.deriveAesKey (peer.random [] 16) pin (decide (serverMajorVersion ≥ 7)) ≠ []) :
    ∃ result log stages requests cleanup,
      runPair crypto peer identity pin serverMajorVersion = (some result, log) ∧
      log.filterMap PairEvent.sent? = requests ++ cleanup ∧
      Sequenced result stages requests cleanup := by
  obtain ⟨result, log, run, exchange, recorded⟩ :=
    runPair_spec crypto peer identity pin serverMajorVersion
  obtain ⟨client, same⟩ : ∃ client : Client,
    client = ⟨crypto, identity, pin, decide (serverMajorVersion ≥ 7)⟩ := ⟨_, rfl⟩
  rw [← same] at exchange
  refine ⟨result, log, ?_⟩
  cases exchange with
  | @noKey salt missing =>
    have drawn : salt = peer.random [] 16 := recorded.first_random 16 salt rfl
    subst same drawn
    exact absurd missing keyed
  | refused answers _ notPaired =>
    refine ⟨[.getservercert], [client.sent answers .getservercert], [], run, rfl,
      by simp, by decide, ?_, by simp, Or.inl rfl, ?_⟩
    · exact requests_matching client answers [.getservercert]
    · simp [Client.sent, notPaired]
  | @dropped answers state reply sent last _ ordered accepted first notPaired =>
    refine ⟨sent ++ [last], (sent ++ [last]).map (client.sent answers),
      [⟨false, ascii "unpair", [], reply⟩], run, ?_, by simp, ordered, ?_, ?_, Or.inr ⟨_, rfl⟩, ?_⟩
    · rw [List.filterMap_append, attempt_requests]
      rfl
    · exact requests_matching client answers _
    · intro k within
      have inSent : k < sent.length := by simpa using within
      refine ⟨client.sent answers sent[k], ?_, accepted _ (List.getElem_mem inSent)⟩
      simp [List.getElem?_append_left, inSent]
    · have head : ((sent ++ [last]).map (client.sent answers)).head? =
          some (client.sent answers .getservercert) := by
        rw [List.head?_map, head_of_prefix (by simp) ordered]
        rfl
      exact ⟨fun _ => ⟨⟨_, head, first⟩, notPaired⟩, fun _ => by simp⟩
  | completed answers _ proven =>
    refine ⟨Stage.all, Stage.all.map (client.sent answers), [], run, rfl,
      by decide, List.prefix_refl _, ?_, ?_, Or.inl rfl, by simp⟩
    · exact requests_matching client answers _
    · intro k within
      have inAll : k < Stage.all.length := by
        rw [List.length_map] at within
        omega
      refine ⟨client.sent answers Stage.all[k], ?_, proven.accepted _⟩
      simp [inAll]

/-- A peer that never answers. -/
theorem runPair_sequenced_silent :
    ∃ result log stages requests cleanup,
      runPair zeroCrypto ⟨fun _ _ _ _ => [], fun _ n => List.replicate n 3⟩
        ⟨ascii "c", ascii "k"⟩ (ascii "1234") 7 = (some result, log) ∧
      log.filterMap PairEvent.sent? = requests ++ cleanup ∧
      Sequenced result stages requests cleanup :=
  runPair_sequenced _ _ _ _ _ (by decide)

end StreamEngine.Net
