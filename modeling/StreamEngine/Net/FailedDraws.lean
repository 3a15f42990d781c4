import StreamEngine.Library.History
import StreamEngine.Net.PairingCompleteness
import StreamEngine.Net.HonestHost

/-! Random draws that fail. A draw that fails is empty, and the handshake never looks at the length
of one, so a host that agrees on what was drawn is paired with all the same. -/
namespace StreamEngine.Net
open ByteString History Hoare

variable {peer : Peer} {client : Client} {answers : Answers} {log : List PairEvent}

/-! ### Whose answers a log holds -/

/-- The event is the peer's answer on the events before it, or no answer. -/
def Answered (peer : Peer) (before : List PairEvent) : PairEvent → Prop
  | .random n bytes => peer.random before n = bytes
  | .request https command args reply => peer.reply before https command args = reply
  | .pin _ => True

/-- Every event of a recorded log was answered on the events before it. -/
theorem Recorded.answered (recorded : Recorded peer log) : Justified (Answered peer) log := by
  induction recorded with
  | nil => exact justified_nil
  | request _ https command args ih => exact justified_snoc ih rfl
  | random _ n ih => exact justified_snoc ih rfl
  | pin _ cert ih => exact justified_snoc ih trivial

theorem Recorded.random_answer (recorded : Recorded peer log) (before after : List PairEvent)
    {n : Nat} {bytes : Bytes} (split : log = before ++ .random n bytes :: after) :
    peer.random before n = bytes := recorded.answered before _ after split

theorem Recorded.request_answer (recorded : Recorded peer log) (before after : List PairEvent)
    {https : Bool} {command args reply : Bytes}
    (split : log = before ++ .request https command args reply :: after) :
    peer.reply before https command args = reply := recorded.answered before _ after split

/-- A recorded attempt of all stages has the answers that the peer gives. -/
theorem follows_of_recorded (recorded : Recorded peer (attempt client answers Stage.all)) :
    Follows peer client answers where
  salt := recorded.random_answer [] _ rfl
  randomChallenge := recorded.random_answer (attempt client answers [.getservercert] ++
    [.pin answers.serverCertPem]) _ rfl
  clientSecret :=
    recorded.random_answer (attempt client answers [.getservercert, .clientchallenge]) _ rfl
  reply stage := by
    cases stage with
    | getservercert => exact recorded.request_answer (client.arriving answers .getservercert) _ rfl
    | clientchallenge =>
      exact recorded.request_answer (client.arriving answers .clientchallenge) _ rfl
    | serverchallengeresp =>
      exact recorded.request_answer (client.arriving answers .serverchallengeresp) _ rfl
    | clientpairingsecret =>
      exact recorded.request_answer (client.arriving answers .clientpairingsecret) _ rfl
    | pairchallenge => exact recorded.request_answer (client.arriving answers .pairchallenge) _ rfl

/-! ### The tests of the client -/

/-- The peer's answers pass every test of the client. -/
structure Passes (peer : Peer) (client : Client) (answers : Answers) : Prop where
  follows : Follows peer client answers
  keyed : client.aesKey answers ≠ []
  proven : Proven client answers
  long : client.hashLen + 16 ≤ (client.challengeResp answers).length
  signature : 16 < answers.pairingSecret.length

/-- The attempt is paired exactly when the peer's answers pass every test. -/
theorem runPair_paired_iff (crypto : Crypto) (peer : Peer) (identity : ClientIdentity) (pin : Bytes)
    (serverMajorVersion : Int) (log : List PairEvent) :
    (∃ cert, runPair crypto peer identity pin serverMajorVersion = (some ⟨.paired, cert⟩, log)) ↔
      ∃ answers, Passes peer ⟨crypto, identity, pin, decide (serverMajorVersion ≥ 7)⟩ answers ∧
        log = attempt ⟨crypto, identity, pin, decide (serverMajorVersion ≥ 7)⟩ answers Stage.all := by
  constructor
  · rintro ⟨cert, paired⟩
    obtain ⟨_, answers, rfl, keyed, proven, -, rfl, recorded⟩ := runPair_completed paired
    have follows := follows_of_recorded recorded
    have enough : ¬ TooShort ⟨crypto, identity, pin, decide (serverMajorVersion ≥ 7)⟩ answers := by
      intro short
      obtain ⟨-, failed⟩ | ⟨enough, -⟩ :=
        (nvPair_proven _ rfl follows keyed proven).returned rfl paired
      · cases failed
      · exact enough short
    exact ⟨answers, ⟨follows, keyed, proven, not_lt.mp fun short => enough (.inl short),
      not_le.mp fun short => enough (.inr short)⟩, rfl⟩
  · rintro ⟨answers, ⟨follows, keyed, proven, long, signature⟩, rfl⟩
    obtain ⟨result, value, rfl, log⟩ | ⟨-, impossible⟩ :=
      nvPair_completed _ rfl follows keyed proven long signature [] rfl
    · exact ⟨_, Prod.ext value log⟩
    · exact impossible.elim

/-! ### Failed draws -/

/-- One of the three draws has fewer bytes than were asked for. -/
def Answers.Short (answers : Answers) : Prop :=
  answers.salt.length < 16 ∨ answers.randomChallenge.length < 16 ∨ answers.clientSecret.length < 16

/-- A draw of sixteen bytes gave fewer. -/
def ShortDraw (log : List PairEvent) : Prop := ∃ bytes, .random 16 bytes ∈ log ∧ bytes.length < 16

theorem shortDraw_attempt_iff (client : Client) (answers : Answers) :
    ShortDraw (attempt client answers Stage.all) ↔ answers.Short := by
  simp [ShortDraw, attempt, Stage.all, Answers.before, Client.request, Answers.Short, or_and_right,
    exists_or]

/-- A short draw keeps an attempt from being paired exactly when no answers that the peer gives pass
the tests of the client with one of the draws short: the tests are all there is, and none of them
is about the draws. -/
theorem runPair_short_iff (crypto : Crypto) (peer : Peer) (identity : ClientIdentity) (pin : Bytes)
    (serverMajorVersion : Int) :
    (ShortDraw (runPair crypto peer identity pin serverMajorVersion).2 →
      ∀ cert, (runPair crypto peer identity pin serverMajorVersion).1 ≠ some ⟨.paired, cert⟩) ↔
    ∀ answers, answers.Short →
      ¬ Passes peer ⟨crypto, identity, pin, decide (serverMajorVersion ≥ 7)⟩ answers := by
  constructor
  · intro caught answers short passes
    obtain ⟨cert, paired⟩ := (runPair_paired_iff crypto peer identity pin serverMajorVersion _).mpr
      ⟨answers, passes, rfl⟩
    rw [paired] at caught
    exact caught ((shortDraw_attempt_iff _ _).mpr short) cert rfl
  · intro fails drawn cert paired
    obtain ⟨answers, passes, log⟩ := (runPair_paired_iff crypto peer identity pin serverMajorVersion
      (runPair crypto peer identity pin serverMajorVersion).2).mp ⟨cert, Prod.ext paired rfl⟩
    exact fails answers ((shortDraw_attempt_iff _ _).mp (log ▸ drawn)) passes

/-- The simulated host with the right PIN, and a client whose random source has failed. -/
def failingPeer : Peer where
  reply log https command args := (((SimServer.new (ascii "4321") 7 ⟨ascii "host", ascii "host"⟩
    (Block.fill 90) (Block.fill 51)).after mirrorCrypto log).respond mirrorCrypto https command args).1
  random _ _ := []

def failingRun : Option PairResult × List PairEvent :=
  runPair mirrorCrypto failingPeer ⟨ascii "client", ascii "client"⟩ (ascii "4321") 7

/-- All three draws are empty, and the client is paired. -/
theorem failingRun_paired : ShortDraw failingRun.2 ∧ failingRun.1 = some ⟨.paired, ascii "host"⟩ := by
  have run : PairEvent.random 16 [] ∈ failingRun.2 ∧
      failingRun.1 = some ⟨.paired, ascii "host"⟩ := by decide +kernel
  exact ⟨⟨[], run.1, by decide⟩, run.2⟩

end StreamEngine.Net
