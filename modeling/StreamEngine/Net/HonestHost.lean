import StreamEngine.Net.PairingCompleteness
import StreamEngine.Net.SimServerProofs

/-! The simulated host is paired with, in either generation and whatever was drawn. Its
replies prove what the client asks for, and what it receives proves the client. -/
namespace StreamEngine.Net
open ByteString Hoare

/-! ### Laws of the primitives -/

/-- What the cryptographic library does on well-formed inputs. Decryption inverts
encryption on whole blocks, digests have their lengths, and the empty text is neither a
certificate nor a signature. -/
structure Crypto.Lawful (crypto : Crypto) : Prop where
  aes : ∀ data key : Bytes, key.length = 16 → data ≠ [] → data.length % 16 = 0 →
    ∃ out, crypto.evpEncrypt data key = some out ∧ out.length = data.length ∧
      crypto.evpDecrypt out key = some data
  sha256_length : ∀ data, (crypto.sha256 data).length = 32
  sha1_length : ∀ data, (crypto.sha1 data).length = 20
  noCert : crypto.signatureFromPemCert [] = []
  noSignature : ∀ data cert, crypto.verifySignature data [] cert = false

/-- A signature with the key of an identity verifies under its certificate. -/
def ClientIdentity.Signs (crypto : Crypto) (id : ClientIdentity) : Prop :=
  ∀ message, crypto.verifySignature message (crypto.signMessage message id.keyPem) id.certPem = true

theorem take_block (block : Block) (rest : Bytes) : (block.val ++ rest).take 16 = block.val :=
  List.take_left' block.property

theorem drop_block (block : Block) (rest : Bytes) : (block.val ++ rest).drop 16 = rest :=
  List.drop_left' block.property

theorem length_resize (s : Bytes) (n : Nat) : (resize s n).length = n := by
  rw [resize, List.length_append, List.length_take, List.length_replicate]
  omega

theorem prefix_resize {s : Bytes} {n : Nat} (fits : s.length ≤ n) : s <+: resize s n := by
  rw [resize, List.take_of_length_le fits]
  exact List.prefix_append _ _

theorem length_padBlocks (s : Bytes) : (padBlocks s).length = (s.length + 15) / 16 * 16 :=
  length_resize _ _

theorem prefix_padBlocks (s : Bytes) : s <+: padBlocks s := prefix_resize (by omega)

namespace Crypto.Lawful
variable {crypto : Crypto} (lawful : crypto.Lawful)
include lawful

theorem decrypt_encrypt {data key : Bytes} (keyed : key.length = 16) (nonempty : data ≠ [])
    (blocks : data.length % 16 = 0) :
    crypto.aesEcbDecrypt (crypto.aesEcbEncrypt data key) key = data := by
  obtain ⟨out, encrypted, same, decrypted⟩ := lawful.aes data key keyed nonempty blocks
  have usable : ∀ text : Bytes, text.length = data.length →
      ¬ (key.length ≠ 16 ∨ text = [] ∨ text.length % 16 ≠ 0) := by
    rintro text length (unkeyed | rfl | partly)
    · exact unkeyed keyed
    · exact nonempty (List.length_eq_zero_iff.mp length.symm)
    · exact partly (length ▸ blocks)
  have cipher : crypto.aesEcbEncrypt data key = out := by
    rw [aesEcbEncrypt, aesEcb, if_neg (usable data rfl), encrypted]
    exact if_neg (not_not.mpr same)
  rw [cipher, aesEcbDecrypt, aesEcb, if_neg (usable out same), decrypted]
  exact if_neg (not_not.mpr same.symm)

theorem length_genHash (data : Bytes) (gen7 : Bool) :
    (crypto.genHash data gen7).length = if gen7 then 32 else 20 := by
  cases gen7 with
  | true => exact lawful.sha256_length data
  | false => exact lawful.sha1_length data

theorem length_deriveAesKey (salt pin : Bytes) (gen7 : Bool) :
    (crypto.deriveAesKey salt pin gen7).length = 16 := by
  have long : ¬ (crypto.genHash (salt ++ pin) gen7).length < 16 := by
    rw [lawful.length_genHash]
    cases gen7 <;> decide
  rw [deriveAesKey]
  simp only [if_neg long, length_resize]

theorem signMessage_ne_nil {id : ClientIdentity} (signs : id.Signs crypto) (message : Bytes) :
    crypto.signMessage message id.keyPem ≠ [] := by
  intro empty
  have verified := signs message
  rw [empty, lawful.noSignature] at verified
  contradiction

theorem certPem_ne_nil {id : ClientIdentity}
    (certified : crypto.signatureFromPemCert id.certPem ≠ []) : id.certPem ≠ [] := by
  intro empty
  rw [empty] at certified
  exact certified lawful.noCert

end Crypto.Lawful

/-! ### The requests of the client -/

theorem query_serverchallengeresp (client : Client) (answers : Answers) :
    client.query answers .serverchallengeresp = valueQuery (ascii "serverchallengeresp")
      (client.crypto.aesEcbEncrypt (client.paddedHash answers) (client.aesKey answers)) := by
  have name : ascii "serverchallengeresp" ++ ascii "=" = ascii "serverchallengeresp=" := by decide
  rw [valueQuery, name, Client.query]

theorem query_clientpairingsecret (client : Client) (answers : Answers) :
    client.query answers .clientpairingsecret = valueQuery (ascii "clientpairingsecret")
      (answers.clientSecret ++
        client.crypto.signMessage answers.clientSecret client.identity.keyPem) := by
  have name : ascii "clientpairingsecret" ++ ascii "=" = ascii "clientpairingsecret=" := by decide
  rw [valueQuery, name, Client.query]

/-! ### The replies of the host -/

namespace SimServer
variable (crypto : Crypto) (server : SimServer) (identity : ClientIdentity) (draws : Draws)

/-- A client that uses the PIN and the generation of the host. -/
def client : Client := ⟨crypto, identity, server.pin, server.gen7⟩

def key : Bytes := crypto.deriveAesKey draws.salt.val server.pin server.gen7

/-- The hash by which the host shows that it decrypted the client's challenge. -/
def serverResponse : Bytes :=
  crypto.genHash (draws.randomChallenge.val ++ crypto.signatureFromPemCert server.id.certPem ++
    server.secret.val) server.gen7

/-- The draws of the client and the replies of the host. -/
def answers : Answers where
  salt := draws.salt.val
  randomChallenge := draws.randomChallenge.val
  clientSecret := draws.clientSecret.val
  reply := replies
    (root200 (ascii "<paired>1</paired><plaincert>" ++ toHex server.id.certPem ++
      ascii "</plaincert>"))
    (root200 (ascii "<paired>1</paired><challengeresponse>" ++
      toHex (crypto.aesEcbEncrypt (padBlocks (server.serverResponse crypto draws ++
        server.challenge.val)) (server.key crypto draws)) ++ ascii "</challengeresponse>"))
    (root200 (ascii "<paired>1</paired><pairingsecret>" ++ toHex (server.secret.val ++
      crypto.signMessage server.secret.val server.id.keyPem) ++ ascii "</pairingsecret>"))
    (root200 (ascii "<paired>1</paired>"))
    (root200 (ascii "<paired>1</paired>"))

/-- The host after its reply to a stage. -/
def left : Stage → SimServer
  | .getservercert => { server with aesKey := server.key crypto draws }
  | _ => { server with aesKey := server.key crypto draws, serverSecret := server.secret.val }

/-- The host when the request of a stage arrives. -/
def reached : Stage → SimServer
  | .getservercert => server
  | .clientchallenge => server.left crypto draws .getservercert
  | .serverchallengeresp => server.left crypto draws .clientchallenge
  | .clientpairingsecret => server.left crypto draws .serverchallengeresp
  | .pairchallenge => server.left crypto draws .clientpairingsecret

variable {crypto server identity draws}

theorem serverCertPem_answers : (server.answers crypto draws).serverCertPem = server.id.certPem :=
  xmlTextHex_plaincert _

theorem pairingSecret_answers : (server.answers crypto draws).pairingSecret =
    server.secret.val ++ crypto.signMessage server.secret.val server.id.keyPem :=
  xmlTextHex_pairingsecret _

theorem accepted_answers (stage : Stage) :
    pairedOk ((server.answers crypto draws).reply stage) = true := by
  have elements : ∀ opening closing : Bytes, ∀ text, ascii "<paired>1</paired>" <+: opening →
      pairedOk (root200 (opening ++ text ++ closing)) = true := by
    intro opening closing text element
    rw [List.append_assoc]
    exact pairedOk_opening element _
  cases stage with
  | getservercert => exact elements _ _ _ (by decide)
  | clientchallenge => exact elements _ _ _ (by decide)
  | serverchallengeresp => exact elements _ _ _ (by decide)
  | clientpairingsecret => exact pairedOk_root200 []
  | pairchallenge => exact pairedOk_root200 []

section Lawful
variable (lawful : crypto.Lawful)
include lawful

theorem length_key : (server.key crypto draws).length = 16 := lawful.length_deriveAesKey _ _ _

theorem challengeResp_answers :
    (server.client crypto identity).challengeResp (server.answers crypto draws) =
      padBlocks (server.serverResponse crypto draws ++ server.challenge.val) := by
  have cipher : xmlTextHex ((server.answers crypto draws).reply .clientchallenge)
      (ascii "challengeresponse") = crypto.aesEcbEncrypt (padBlocks
        (server.serverResponse crypto draws ++ server.challenge.val)) (server.key crypto draws) :=
    xmlTextHex_challengeresponse _
  have length := length_padBlocks (server.serverResponse crypto draws ++ server.challenge.val)
  have sixteen := server.challenge.property
  rw [Client.challengeResp, cipher]
  refine lawful.decrypt_encrypt (length_key lawful) ?_ (by omega)
  intro empty
  rw [empty, List.length_append] at length
  simp only [List.length_nil] at length
  omega

/-- The hash of the host ends where the client takes its challenge from. -/
theorem length_serverResponse :
    (server.serverResponse crypto draws).length = (server.client crypto identity).hashLen :=
  lawful.length_genHash _ _

theorem hashLen_le_challengeResp :
    (server.client crypto identity).hashLen + 16 ≤
      ((server.client crypto identity).challengeResp (server.answers crypto draws)).length := by
  have hash : (server.serverResponse crypto draws).length =
      (server.client crypto identity).hashLen := length_serverResponse lawful
  have sixteen := server.challenge.property
  rw [challengeResp_answers lawful, length_padBlocks, List.length_append]
  omega

theorem serverResponse_read :
    substr ((server.client crypto identity).challengeResp (server.answers crypto draws)) 0
      (server.client crypto identity).hashLen = server.serverResponse crypto draws := by
  obtain ⟨zeros, padded⟩ :=
    prefix_padBlocks (server.serverResponse crypto draws ++ server.challenge.val)
  rw [challengeResp_answers lawful, ← padded, ← length_serverResponse lawful, substr, List.drop_zero,
    List.append_assoc, List.take_left]

theorem serverChallenge_read :
    substr ((server.client crypto identity).challengeResp (server.answers crypto draws))
      (server.client crypto identity).hashLen 16 = server.challenge.val := by
  obtain ⟨zeros, padded⟩ :=
    prefix_padBlocks (server.serverResponse crypto draws ++ server.challenge.val)
  rw [challengeResp_answers lawful, ← padded, ← length_serverResponse lawful, substr,
    List.append_assoc, List.drop_left, take_block]

theorem proven_answers (certified : crypto.signatureFromPemCert server.id.certPem ≠ [])
    (signs : server.id.Signs crypto) :
    Proven (server.client crypto identity) (server.answers crypto draws) where
  accepted := accepted_answers
  certified := by
    rw [serverCertPem_answers]
    exact lawful.certPem_ne_nil certified
  signed := by
    rw [pairingSecret_answers, serverCertPem_answers, substr, List.drop_zero, take_block, drop_block]
    exact signs _
  keyed := by
    rw [serverResponse_read lawful, pairingSecret_answers, serverCertPem_answers, substr,
      List.drop_zero, take_block]
    rfl

theorem challenge_read : crypto.aesEcbDecrypt (crypto.aesEcbEncrypt draws.randomChallenge.val
    (server.key crypto draws)) (server.key crypto draws) = draws.randomChallenge.val := by
  have sixteen := draws.randomChallenge.property
  refine lawful.decrypt_encrypt (length_key lawful) ?_ (by rw [sixteen])
  intro empty
  rw [empty] at sixteen
  contradiction

variable (identity draws) in
/-- At every stage the host gives its reply and is in the next state. -/
theorem respond_query (offers : server.offerCert = true) (stage : Stage) :
    (server.reached crypto draws stage).respond crypto stage.https (ascii "pair")
      ((server.client crypto identity).query (server.answers crypto draws) stage) =
      ((server.answers crypto draws).reply stage, server.left crypto draws stage) := by
  cases stage with
  | getservercert =>
    have responds := respond_getservercert crypto server false draws.salt.val identity.certPem
    rw [if_pos offers] at responds
    exact responds
  | clientchallenge =>
    have decrypted : crypto.aesEcbDecrypt (crypto.aesEcbEncrypt draws.randomChallenge.val
        (server.key crypto draws)) (server.reached crypto draws .clientchallenge).aesKey =
        draws.randomChallenge.val := challenge_read lawful
    have responds := respond_clientchallenge crypto (server.reached crypto draws .clientchallenge)
      false (crypto.aesEcbEncrypt draws.randomChallenge.val (server.key crypto draws))
    rw [decrypted] at responds
    exact responds
  | serverchallengeresp => exact respond_serverchallengeresp _ _ _ _
  | clientpairingsecret => exact respond_clientpairingsecret _ _ _ _
  | pairchallenge => exact respond_pairchallenge _ _ _

omit lawful in
theorem after_before (log : List PairEvent) (answers : Answers) (stage : Stage) :
    server.after crypto (log ++ answers.before stage) = server.after crypto log := by
  rw [after, List.foldl_append]
  cases stage <;> rfl

/-- A stage leaves the host as the next one finds it. -/
theorem after_next (offers : server.offerCert = true) {stage : Stage} (next : Stage)
    (here : server.after crypto ((server.client crypto identity).arriving
      (server.answers crypto draws) stage) = server.reached crypto draws stage)
    (sent : attempt (server.client crypto identity) (server.answers crypto draws) next.sent =
      (server.client crypto identity).arriving (server.answers crypto draws) stage ++
        [(server.client crypto identity).request (server.answers crypto draws) stage]) :
    server.after crypto ((server.client crypto identity).arriving (server.answers crypto draws)
      next) = server.left crypto draws stage := by
  rw [Client.arriving, after_before, sent, after, List.foldl_append]
  have responds := respond_query identity draws lawful offers stage
  rw [← here] at responds
  exact congrArg Prod.snd responds

theorem after_arriving (offers : server.offerCert = true) (stage : Stage) :
    server.after crypto ((server.client crypto identity).arriving (server.answers crypto draws)
      stage) = server.reached crypto draws stage := by
  have first : server.after crypto ((server.client crypto identity).arriving
      (server.answers crypto draws) .getservercert) = server := rfl
  have second := after_next lawful offers .clientchallenge first rfl
  have third := after_next lawful offers .serverchallengeresp second rfl
  have fourth := after_next lawful offers .clientpairingsecret third rfl
  cases stage with
  | getservercert => exact first
  | clientchallenge => exact second
  | serverchallengeresp => exact third
  | clientpairingsecret => exact fourth
  | pairchallenge => exact after_next lawful offers _ fourth rfl

theorem follows_answers (offers : server.offerCert = true) :
    Follows (server.peer crypto draws) (server.client crypto identity)
      (server.answers crypto draws) where
  salt := rfl
  randomChallenge := rfl
  clientSecret := rfl
  reply stage := by
    have responds := respond_query identity draws lawful offers stage
    rw [← after_arriving lawful offers] at responds
    exact congrArg Prod.fst responds

end Lawful
end SimServer

/-! ### Pairing with the host -/

/-- What the host can check of the client: the block it decrypts from the third request
starts with the hash over its challenge, and the secret of that hash comes next, signed. -/
def ClientProven (crypto : Crypto) (server : SimServer) (identity : ClientIdentity) (draws : Draws)
    (log : List PairEvent) : Prop :=
  ∃ before args reply args' reply' rest,
    log = before ++ .request false (ascii "pair") args reply ::
      .request false (ascii "pair") args' reply' :: rest ∧
    (∃ block, block = crypto.aesEcbDecrypt (fromHex (param args (ascii "serverchallengeresp")))
        (server.after crypto before).aesKey ∧ block.length = 32 ∧
      crypto.genHash (server.challenge.val ++ crypto.signatureFromPemCert identity.certPem ++
        draws.clientSecret.val) server.gen7 <+: block) ∧
    ∃ signature, fromHex (param args' (ascii "clientpairingsecret")) =
        draws.clientSecret.val ++ signature ∧
      crypto.verifySignature draws.clientSecret.val signature identity.certPem = true

variable {crypto : Crypto} {server : SimServer} {identity : ClientIdentity} {draws : Draws}

/-- The hash of either generation, in the two blocks that carry it. -/
theorem paddedHash_answers (lawful : crypto.Lawful) :
    (server.client crypto identity).paddedHash (server.answers crypto draws) =
      resize (crypto.genHash (server.challenge.val ++ crypto.signatureFromPemCert identity.certPem ++
        draws.clientSecret.val) server.gen7) 32 := by
  rw [Client.paddedHash, SimServer.serverChallenge_read lawful]
  rfl

theorem clientProven_attempt (lawful : crypto.Lawful) (offers : server.offerCert = true)
    (signs : identity.Signs crypto) :
    ClientProven crypto server identity draws
      (attempt (server.client crypto identity) (server.answers crypto draws) Stage.all) := by
  have split : attempt (server.client crypto identity) (server.answers crypto draws) Stage.all =
      (server.client crypto identity).arriving (server.answers crypto draws) .serverchallengeresp ++
        (server.client crypto identity).request (server.answers crypto draws) .serverchallengeresp ::
        (server.client crypto identity).request (server.answers crypto draws) .clientpairingsecret ::
        [(server.client crypto identity).request (server.answers crypto draws) .pairchallenge] := rfl
  have keyed : (server.after crypto ((server.client crypto identity).arriving
      (server.answers crypto draws) .serverchallengeresp)).aesKey = server.key crypto draws := by
    rw [SimServer.after_arriving lawful offers]
    rfl
  have sent : fromHex (param ((server.client crypto identity).query (server.answers crypto draws)
      .serverchallengeresp) (ascii "serverchallengeresp")) = crypto.aesEcbEncrypt
        ((server.client crypto identity).paddedHash (server.answers crypto draws))
        (server.key crypto draws) := by
    rw [query_serverchallengeresp]
    exact param_valueQuery _ (by decide) _
  have two : ((server.client crypto identity).paddedHash (server.answers crypto draws)).length = 32 :=
    length_resize _ _
  refine ⟨_, _, _, _, _, _, split, ⟨_, ?_, two, ?_⟩, _, ?_, signs _⟩
  · rw [keyed, sent, lawful.decrypt_encrypt (SimServer.length_key lawful) ?_ (by rw [two])]
    exact List.ne_nil_of_length_pos (by omega)
  · rw [paddedHash_answers lawful]
    refine prefix_resize ?_
    rw [lawful.length_genHash]
    split <;> omega
  · rw [query_clientpairingsecret]
    exact param_valueQuery _ (by decide) _

/-- Whatever is drawn, the client pairs with the host that was given the same PIN and
generation, and each side has proved itself to the other. -/
theorem honest_paired (lawful : crypto.Lawful) {id : ClientIdentity}
    (certified : crypto.signatureFromPemCert id.certPem ≠ []) (hostSigns : id.Signs crypto)
    (clientSigns : identity.Signs crypto) (pin : Bytes) (gen : Int) (secret challenge : Block)
    (draws : Draws) :
    ∃ log, runPair crypto ((SimServer.new pin gen id secret challenge).peer crypto draws) identity
        pin gen = (some ⟨.paired, id.certPem⟩, log) ∧
      ClientProven crypto (SimServer.new pin gen id secret challenge) identity draws log := by
  have keyed : (SimServer.new pin gen id secret challenge).key crypto draws ≠ [] := by
    refine List.ne_nil_of_length_pos ?_
    rw [SimServer.length_key lawful]
    decide
  have signature : 16 <
      ((SimServer.new pin gen id secret challenge).answers crypto draws).pairingSecret.length := by
    have some := List.length_pos_of_ne_nil (lawful.signMessage_ne_nil hostSigns secret.val)
    have sixteen := secret.property
    rw [SimServer.pairingSecret_answers, List.length_append]
    change 16 < secret.val.length + (crypto.signMessage secret.val id.keyPem).length
    omega
  have completed := nvPair_completed
    ((SimServer.new pin gen id secret challenge).client crypto identity) rfl
    (SimServer.follows_answers lawful rfl) keyed
    (SimServer.proven_answers lawful certified hostSigns)
    (SimServer.hashLen_le_challengeResp lawful) signature
  obtain ⟨result, value, rfl, log⟩ | ⟨-, impossible⟩ := completed [] rfl
  · rw [SimServer.serverCertPem_answers] at value
    have run : runPair crypto ((SimServer.new pin gen id secret challenge).peer crypto draws) identity
        pin gen = (some ⟨.paired, id.certPem⟩, _) := Prod.ext value log
    exact ⟨_, run, clientProven_attempt lawful rfl clientSigns⟩
  · exact impossible.elim

/-- Primitives that satisfy the laws: encryption mirrors the text, a digest cuts it, and a
certificate is its own signature and its own key. -/
def mirrorCrypto : Crypto where
  sha256 data := resize data 32
  sha1 data := resize data 20
  evpEncrypt data _ := some data.reverse
  evpDecrypt data _ := some data.reverse
  signatureFromPemCert cert := cert
  verifySignature data signature cert := signature != [] && signature == cert ++ data
  signMessage message key := key ++ message

theorem mirrorCrypto_lawful : mirrorCrypto.Lawful where
  aes data _ _ _ _ := ⟨data.reverse, rfl, List.length_reverse, congrArg some (List.reverse_reverse data)⟩
  sha256_length _ := length_resize _ _
  sha1_length _ := length_resize _ _
  noCert := rfl
  noSignature _ _ := rfl

theorem mirrorCrypto_signs {cert : Bytes} (nonempty : cert ≠ []) :
    ClientIdentity.Signs mirrorCrypto ⟨cert, cert⟩ := by
  intro message
  simp [mirrorCrypto, nonempty]

/-- Sixteen equal bytes. -/
def Block.fill (c : UInt8) : Block := ⟨List.replicate 16 c, List.length_replicate⟩

/-- The values of the tests, in the older generation. -/
theorem honest_paired_older :
    ∃ log, runPair mirrorCrypto ((SimServer.new (ascii "4321") 6 ⟨ascii "host", ascii "host"⟩
        (Block.fill 90) (Block.fill 51)).peer mirrorCrypto
          ⟨Block.fill 1, Block.fill 2, Block.fill 3⟩) ⟨ascii "client", ascii "client"⟩
        (ascii "4321") 6 = (some ⟨.paired, ascii "host"⟩, log) ∧
      ClientProven mirrorCrypto (SimServer.new (ascii "4321") 6 ⟨ascii "host", ascii "host"⟩
        (Block.fill 90) (Block.fill 51)) ⟨ascii "client", ascii "client"⟩
        ⟨Block.fill 1, Block.fill 2, Block.fill 3⟩ log := by
  have host : ascii "host" ≠ [] := by decide
  have client : ascii "client" ≠ [] := by decide
  have certified : mirrorCrypto.signatureFromPemCert
      (⟨ascii "host", ascii "host"⟩ : ClientIdentity).certPem ≠ [] := host
  exact honest_paired mirrorCrypto_lawful certified (mirrorCrypto_signs host) (mirrorCrypto_signs client)
    (ascii "4321") 6 (Block.fill 90) (Block.fill 51) ⟨Block.fill 1, Block.fill 2, Block.fill 3⟩

end StreamEngine.Net
