import StreamEngine.Net.PairingProofs

/-! An attempt is completed when the peer proves what it must. The peer's draws and
replies are given for every stage, and no test of the client stops the attempt. -/
namespace StreamEngine.Net
open ByteString Hoare

/-- The stages before a stage. -/
def Stage.sent : Stage → List Stage
  | .getservercert => []
  | .clientchallenge => [.getservercert]
  | .serverchallengeresp => [.getservercert, .clientchallenge]
  | .clientpairingsecret => [.getservercert, .clientchallenge, .serverchallengeresp]
  | .pairchallenge => [.getservercert, .clientchallenge, .serverchallengeresp, .clientpairingsecret]

/-- The events before the request of a stage. -/
def Client.arriving (client : Client) (answers : Answers) (stage : Stage) : List PairEvent :=
  attempt client answers stage.sent ++ answers.before stage

/-- The draws and the replies of an attempt are those of the peer. -/
structure Follows (peer : Peer) (client : Client) (answers : Answers) : Prop where
  salt : peer.random [] 16 = answers.salt
  randomChallenge : peer.random (attempt client answers [.getservercert] ++
    [.pin answers.serverCertPem]) 16 = answers.randomChallenge
  clientSecret : peer.random (attempt client answers [.getservercert, .clientchallenge]) 16 =
    answers.clientSecret
  reply : ∀ stage, peer.reply (client.arriving answers stage) stage.https (ascii "pair")
    (client.query answers stage) = answers.reply stage

variable {peer : Peer} {client : Client} {answers : Answers} {log : List PairEvent}
  {post : α → List PairEvent → Prop} {hung : List PairEvent → Prop}

theorem triple_draw {bytes : Bytes} {f : Bytes → OptionT (StateM (List PairEvent)) α}
    (drawn : peer.random log 16 = bytes)
    (rest : Triple (· = log ++ [.random 16 bytes]) (f bytes) post hung) :
    Triple (· = log) (peer.randomFn 16 >>= f) post hung := by
  rintro s rfl
  have run : exec (peer.randomFn 16) s = (some bytes, s ++ [.random 16 bytes]) := by
    rw [← drawn]
    rfl
  rw [exec_bind_returned run]
  exact rest _ rfl

theorem triple_pin {cert : Bytes} {f : Unit → OptionT (StateM (List PairEvent)) α}
    (rest : Triple (· = log ++ [.pin cert]) (f ()) post hung) :
    Triple (· = log) (Peer.setPinnedCert cert >>= f) post hung := by
  rintro s rfl
  have run : exec (Peer.setPinnedCert cert) s = (some (), s ++ [.pin cert]) := rfl
  rw [exec_bind_returned run]
  exact rest _ rfl

theorem triple_stage (follows : Follows peer client answers) (stage : Stage)
    {f : Bytes → OptionT (StateM (List PairEvent)) α} (here : log = client.arriving answers stage)
    (rest : Triple (· = log ++ [client.request answers stage]) (f (answers.reply stage)) post hung) :
    Triple (· = log) (peer.transport stage.https (ascii "pair") (client.query answers stage) >>= f)
      post hung := by
  rintro s rfl
  have reply := follows.reply stage
  rw [← here] at reply
  have run : exec (peer.transport stage.https (ascii "pair") (client.query answers stage)) s =
      (some (answers.reply stage), s ++ [client.request answers stage]) := by
    rw [Client.request, ← reply]
    rfl
  rw [exec_bind_returned run]
  exact rest _ rfl

theorem triple_unpair (state : PairState) :
    Triple (· = log) (unpairWith peer.transport state) (fun result _ => result.state = state)
      (fun _ => False) :=
  triple_bind (fun _ _ => .inl ⟨_, rfl, trivial⟩) fun _ => triple_pure fun _ (_ : True) => rfl

/-- One of the two answers that the client cuts up does not hold its first part. -/
def TooShort (client : Client) (answers : Answers) : Prop :=
  (client.challengeResp answers).length < client.hashLen + 16 ∨ answers.pairingSecret.length ≤ 16

variable (client) in
/-- With a peer that proves what it must, only an answer that is too short ends an attempt. -/
theorem nvPair_proven {serverMajorVersion : Int}
    (generation : client.gen7 = decide (serverMajorVersion ≥ 7))
    (follows : Follows peer client answers) (keyed : client.aesKey answers ≠ [])
    (proven : Proven client answers) :
    Triple (· = []) (nvPair client.crypto peer.transport client.identity client.pin
        serverMajorVersion Peer.setPinnedCert peer.randomFn)
      (fun result log => (TooShort client answers ∧ result.state = .failed) ∨
        (¬ TooShort client answers ∧ result = ⟨.paired, answers.serverCertPem⟩ ∧
          log = attempt client answers Stage.all)) (fun _ => False) := by
  have accepted : ∀ stage, ¬ pairedOk (answers.reply stage) = false :=
    fun stage => ne_false_of_eq_true (proven.accepted stage)
  have failed : ∀ {log : List PairEvent}, TooShort client answers →
      Triple (· = log) (unpairWith peer.transport .failed)
        (fun result log => (TooShort client answers ∧ result.state = .failed) ∨
          (¬ TooShort client answers ∧ result = ⟨.paired, answers.serverCertPem⟩ ∧
            log = attempt client answers Stage.all)) (fun _ => False) :=
    fun short => triple_weaken (triple_unpair .failed) (fun _ same => same)
      fun _ _ ended => .inl ⟨short, ended⟩
  unfold nvPair
  rw [← generation]
  refine triple_draw follows.salt (triple_ite (fun missing => absurd missing keyed) fun _ => ?_)
  refine triple_stage follows .getservercert rfl ?_
  refine triple_ite (fun refused => absurd refused (accepted _)) fun _ => ?_
  refine triple_ite (fun missing => absurd missing proven.certified) fun _ => ?_
  refine triple_pin (triple_draw follows.randomChallenge ?_)
  refine triple_stage follows .clientchallenge rfl ?_
  refine triple_ite (fun refused => absurd refused (accepted _)) fun _ => ?_
  refine triple_ite (fun short => failed (.inl short)) fun long => ?_
  refine triple_draw follows.clientSecret ?_
  refine triple_stage follows .serverchallengeresp rfl ?_
  refine triple_ite (fun refused => absurd refused (accepted _)) fun _ => ?_
  refine triple_ite (fun short => failed (.inr short)) fun signature => ?_
  refine triple_ite (fun forged => absurd proven.signed (ne_true_of_eq_false forged)) fun _ => ?_
  refine triple_ite (fun other => absurd proven.keyed other) fun _ => ?_
  refine triple_stage follows .clientpairingsecret rfl ?_
  refine triple_ite (fun refused => absurd refused (accepted _)) fun _ => ?_
  refine triple_stage follows .pairchallenge rfl ?_
  refine triple_ite (fun refused => absurd refused (accepted _)) fun _ => ?_
  refine triple_pure fun log held => .inr ⟨not_or.mpr ⟨long, signature⟩, rfl, ?_⟩
  rw [held]
  rfl

variable (client) in
/-- Nothing stops an attempt with a peer that proves what it must. -/
theorem nvPair_completed {serverMajorVersion : Int}
    (generation : client.gen7 = decide (serverMajorVersion ≥ 7))
    (follows : Follows peer client answers) (keyed : client.aesKey answers ≠ [])
    (proven : Proven client answers)
    (long : client.hashLen + 16 ≤ (client.challengeResp answers).length)
    (signature : 16 < answers.pairingSecret.length) :
    Triple (· = []) (nvPair client.crypto peer.transport client.identity client.pin
        serverMajorVersion Peer.setPinnedCert peer.randomFn)
      (fun result log => result = ⟨.paired, answers.serverCertPem⟩ ∧
        log = attempt client answers Stage.all) (fun _ => False) := by
  refine triple_weaken (nvPair_proven client generation follows keyed proven)
    (fun _ same => same) fun result log ended => ?_
  have enough : ¬ TooShort client answers :=
    not_or.mpr ⟨not_lt.mpr long, not_le.mpr signature⟩
  rcases ended with ⟨short, -⟩ | ⟨-, completed⟩
  · exact absurd short enough
  · exact completed

end StreamEngine.Net
