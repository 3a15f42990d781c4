import StreamEngine.Client.StartProofs

/-! Whole runs of the engine: any requests, in any order, against any environment. -/
namespace StreamEngine.Client
open ByteString Decimal Hoare History Json Net Engine

variable {X509 : Type} {env : Environment X509} {initial : List PairedHost}
  {content : Option Bytes} {past : List (Event X509)} {host : Bytes}

/-- The record that a request asks for. -/
def askedRecord (params : Value) (cert : Bytes) : PairedHost :=
  ⟨params.getStr (ascii "host") [], params.getStr (ascii "name") [], cert⟩

/-- How a request may change the registry: not at all, by an explicit trust call, or by a
pairing attempt of the same request that returned `Paired`. -/
inductive Recording [DecidableEq X509] (env : Environment X509) (params : Value)
    (past : List (Event X509)) (content : Option Bytes) :
    Method → Option Bytes → World X509 → Prop where
  | unchanged {method w} : Recording env params past content method content w
  | trusted {w} (named : params.getStr (ascii "host") [] ≠ [])
      (shown : params.getStr (ascii "serverCertPem") [] ≠ []) :
      Recording env params past content .trustHost
        (upserted (askedRecord params (params.getStr (ascii "serverCertPem") [])) content) w
  | paired {w w₁ w₂ identity serverMajorVersion cert}
      (attempt : exec (pairWithClient env identity (params.getStr (ascii "pin") [])
        serverMajorVersion) w₁ = (some ⟨.paired, cert⟩, w₂))
      (target : w₁.client.host = params.getStr (ascii "host") [])
      (named : params.getStr (ascii "host") [] ≠ [])
      (after : past <+: w₁.log) (before : w₂.log <+: w.log) :
      Recording env params past content .pair (upserted (askedRecord params cert) content) w

/-- A registry that the rule holds of, and how it came from the one before. -/
def Handled [DecidableEq X509] (env : Environment X509) (initial : List PairedHost)
    (content : Option Bytes) (past : List (Event X509)) (method : Method) (params : Value)
    (w : World X509) : Prop :=
  ∃ content', Sound env initial content' past w ∧ Recording env params past content method content' w

theorem clientStop_spec {hung : World X509 → Prop} :
    Triple (Sound env initial content past) clientStop
      (fun _ => Sound env initial content past) hung :=
  triple_bind (triple_modify fun _ sound => sound.session _) fun _ =>
    triple_pure fun _ sound => sound

theorem clientHosts_spec {hung : World X509 → Prop} :
    Triple (Sound env initial content past) clientHosts
      (fun _ => Sound env initial content past) hung :=
  triple_bind (readHosts_spec (fun content => readHosts_files_spec content) content) fun _ =>
    triple_pure fun _ held => held.2

theorem clientIdentity_spec :
    Triple (Sound env initial content past) (clientIdentity env)
      (fun _ => Sound env initial content past) (Sound env initial content past) := by
  refine triple_bind (triple_quiet isQuiet_loadOrCreateIdentity
    (fun step sound => sound.quietly step) fun _ sound => sound) fun loaded => ?_
  cases loaded with
  | none => exact triple_pure fun w sound => sound
  | some loaded => exact triple_pure fun w sound => sound

theorem pairAnswer_spec (host name : Bytes) (res : PairResult) {hung : World X509 → Prop} :
    Triple (Sound env initial content past) (pairAnswer host name res)
      (fun _ w => (res.state = .paired →
          Sound env initial (upserted ⟨host, name, res.serverCertPem⟩ content) past w) ∧
        (res.state ≠ .paired → Sound env initial content past w)) hung := by
  obtain ⟨state, cert⟩ := res
  cases state with
  | paired =>
    refine triple_bind (upsert_spec _) fun _ => triple_pure fun w held => ⟨fun _ => held.2, ?_⟩
    exact fun other => absurd rfl other
  | failed => exact triple_pure fun w sound => ⟨nofun, fun _ => sound⟩
  | pinWrong => exact triple_pure fun w sound => ⟨nofun, fun _ => sound⟩
  | alreadyInProgress => exact triple_pure fun w sound => ⟨nofun, fun _ => sound⟩

/-- A world that the rule holds in, whatever its registry. -/
def Secure (env : Environment X509) (initial : List PairedHost) (w : World X509) : Prop :=
  Sound env initial (w.disk .hostsJson) w.log w

theorem Sound.secure {w : World X509} (sound : Sound env initial content past w) :
    Secure env initial w := by
  obtain rfl := sound.hosts
  exact sound.at_ (List.prefix_refl _)

theorem start_secure (env : Environment X509) (disk : StoreFile → Option Bytes) :
    Secure env (decodeHosts (disk .hostsJson)) (World.start disk) where
  hosts := rfl
  since := List.prefix_refl _
  registry _ := rfl
  justified := justified_nil

variable [DecidableEq X509]

theorem clientTrustHost_spec (params : Value) :
    Triple (Sound env initial content past) (clientTrustHost params)
      (fun _ => Handled env initial content past .trustHost params)
      (Sound env initial content past) := by
  refine triple_ite (fun _ => ?_) fun given => ?_
  · exact triple_pure fun w sound => ⟨content, sound, .unchanged⟩
  rw [not_or] at given
  refine triple_bind (upsert_spec _) fun ok => triple_ite (fun _ => ?_) fun _ => ?_
  · exact triple_pure fun w held => ⟨_, held.2, .trusted given.1 given.2⟩
  · exact triple_pure fun w held => ⟨_, held.2, .trusted given.1 given.2⟩

theorem clientApps_spec (params : Value) :
    Triple (Sound env initial content past) (clientApps env params)
      (fun _ => Sound env initial content past) (Sound env initial content past) := by
  refine triple_ite (fun _ => triple_pure fun w sound => sound) fun _ => ?_
  refine triple_bind (connectPairedHost_spec _) fun connected => ?_
  cases connected with
  | error e => exact triple_pure fun w held => held.1
  | ok _ =>
    refine triple_bind fetchAppList_spec fun apps => ?_
    cases apps with
    | error err => exact triple_pure fun w ready => ready.sound
    | ok apps => exact triple_pure fun w ready => ready.sound

theorem clientPair_spec (params : Value) :
    Triple (Sound env initial content past) (clientPair env params)
      (fun _ => Handled env initial content past .pair params)
      (Sound env initial content past) := by
  refine triple_ite (fun _ => ?_) fun given => ?_
  · exact triple_pure fun w sound => ⟨content, sound, .unchanged⟩
  rw [not_or] at given
  refine triple_bind (triple_quiet isQuiet_loadOrCreateIdentity
    (fun step sound => sound.quietly step) fun _ sound => sound) fun loaded => ?_
  cases loaded with
  | none => exact triple_pure fun w sound => ⟨content, sound, .unchanged⟩
  | some loaded =>
    obtain ⟨identity, uniqueId⟩ := loaded
    have created : Triple (Sound env initial content past)
        (newClient ⟨params.getStr (ascii "host") [], kDefaultHttpPort, kDefaultHttpsPort, identity,
          uniqueId, []⟩)
        (fun _ w => Sound env initial content past w ∧
          w.client.host = params.getStr (ascii "host") []) (Sound env initial content past) :=
      triple_modify fun w sound => ⟨sound.client _, rfl⟩
    refine triple_bind created fun _ => triple_bind (getHttp_spec _ _
      (fun w events harmless held => ⟨held.1.harmless _ harmless, held.2⟩) fun w held => held.1)
      fun info => ?_
    refine triple_ite (fun _ => ?_) fun _ => ?_
    · exact triple_pure fun w held => ⟨content, held.1, .unchanged⟩
    have attempt : ∀ gen, Triple
        (fun w => Sound env initial content past w ∧
          w.client.host = params.getStr (ascii "host") [])
        (do
          let res ← pairWithClient env identity (params.getStr (ascii "pin") []) gen
          pairAnswer (params.getStr (ascii "host") []) (params.getStr (ascii "name") []) res)
        (fun _ => Handled env initial content past .pair params)
        (Sound env initial content past) := by
      intro gen
      refine triple_bind (triple_ran (pairWithClient_spec identity _ gen)) fun res => ?_
      rintro w₂ ⟨⟨-, sound⟩, w₁, ⟨sound₁, target⟩, run⟩
      refine triple_weaken (pairAnswer_spec _ _ res) (fun _ held => held) ?_ w₂
        (sound.at_ (List.prefix_refl w₂.log))
      rintro answer w ⟨paired, otherwise⟩
      obtain ⟨state, cert⟩ := res
      by_cases success : state = .paired
      · subst success
        have recorded := paired rfl
        exact ⟨_, recorded.at_ (sound.since.trans recorded.since),
          .paired run target given.1 sound₁.since recorded.since⟩
      · have same := otherwise success
        exact ⟨content, same.at_ (sound.since.trans same.since), .unchanged⟩
    refine triple_ite (fun _ => ?_) fun _ => ?_
    · refine triple_bind (triple_modify fun w held => ?_) fun _ => attempt _
      exact ⟨held.1.client _, held.2⟩
    · exact attempt _

theorem handle_spec (method : Method) (params : Value) :
    Triple (Sound env initial content past) (handle env method params)
      (fun _ => Handled env initial content past method params)
      (Sound env initial content past) := by
  have unchanged : ∀ (method : Method) (_ : Except IpcError Value) w,
      Sound env initial content past w → Handled env initial content past method params w :=
    fun method _ w sound => ⟨content, sound, .unchanged⟩
  cases method with
  | hosts => exact triple_weaken clientHosts_spec (fun _ sound => sound) (unchanged .hosts)
  | apps => exact triple_weaken (clientApps_spec params) (fun _ sound => sound) (unchanged .apps)
  | pair => exact clientPair_spec params
  | identity => exact triple_weaken clientIdentity_spec (fun _ sound => sound) (unchanged .identity)
  | trustHost => exact clientTrustHost_spec params
  | start =>
    exact triple_weaken (clientStart_spec params) (fun _ sound => sound)
      fun _ _ held => ⟨content, held.1, .unchanged⟩
  | stop => exact triple_weaken clientStop_spec (fun _ sound => sound) (unchanged .stop)

theorem handleAll_spec (requests : List (Method × Value)) :
    Triple (Secure env initial) (handleAll env requests) (fun _ => Secure env initial)
      (Secure env initial) := by
  induction requests with
  | nil => exact triple_pure fun w secure => secure
  | cons request requests ih =>
    have first : Triple (Secure env initial) (handle env request.1 request.2)
        (fun _ => Secure env initial) (Secure env initial) := by
      intro w secure
      refine triple_weaken (triple_stopped (handle_spec request.1 request.2)
        fun _ sound => sound.secure) (fun _ sound => sound) ?_ w secure
      rintro answer w' ⟨content', sound, -⟩
      exact sound.secure
    exact triple_bind first fun _ => ih

/-- In every run, a request is written to a TLS session only if the peer is the one
recorded for the host, or for the last pairing stage the one of the first stage; and the
registry agrees with what was recorded. -/
theorem handleAll_secure (env : Environment X509) (disk : StoreFile → Option Bytes)
    (requests : List (Method × Value)) :
    let initial := decodeHosts (disk .hostsJson)
    let w := (exec (handleAll env requests) (World.start disk)).2
    Justified (EventOk env initial) w.log ∧
      ∀ host, KeyedList.lookup PairedHost.address host (decodeHosts (w.disk .hostsJson)) =
        recordOf initial w.log host := by
  intro initial w
  have secure : Secure env initial w :=
    (handleAll_spec requests).last (fun _ _ secure => secure) (fun _ secure => secure)
      (start_secure env disk)
  exact ⟨secure.justified, secure.registry⟩

/-- What a request makes of the registry in a world that a run has reached. -/
theorem handle_recording {disk : StoreFile → Option Bytes} {requests : List (Method × Value)}
    {w : World X509} (reached : exec (handleAll env requests) (World.start disk) = (some (), w))
    (method : Method) (params : Value) :
    Recording env params w.log (w.disk .hostsJson) method
      ((exec (handle env method params) w).2.disk .hostsJson) (exec (handle env method params) w).2 := by
  have secure : Secure env (decodeHosts (disk .hostsJson)) w :=
    (handleAll_spec requests).returned (start_secure env disk) reached
  have returned : ∀ w', Handled env (decodeHosts (disk .hostsJson)) (w.disk .hostsJson) w.log
      method params w' → Recording env params w.log (w.disk .hostsJson) method
        (w'.disk .hostsJson) w' := by
    rintro w' ⟨content', sound, recording⟩
    rwa [sound.hosts]
  have stopped : ∀ w', Sound env (decodeHosts (disk .hostsJson)) (w.disk .hostsJson) w.log w' →
      Recording env params w.log (w.disk .hostsJson) method (w'.disk .hostsJson) w' := by
    intro w' sound
    rw [sound.hosts]
    exact .unchanged
  obtain ⟨answer, -, held⟩ | ⟨-, held⟩ := handle_spec method params w secure
  · exact returned _ held
  · exact stopped _ held

/-- The registry file is a map from addresses under any operations on any initial file,
and the requests of the engine record a certificate only by a trust call or by a pairing
attempt that returned `Paired`. -/
theorem registry_laws :
    (∀ (ops : List HostOp) (disk : Disk),
      ∃ disk', exec (performAll ops) disk = (some (), disk') ∧ MapLaw disk disk' ops) ∧
    (∀ (record : PairedHost) (disk : Disk), record.address = [] →
      exec (upsertHost diskFiles record) disk = (some false, disk)) ∧
    ∀ (env : Environment X509) (disk : StoreFile → Option Bytes)
      (requests : List (Method × Value)) (w : World X509),
      exec (handleAll env requests) (World.start disk) = (some (), w) →
      ∀ (method : Method) (params : Value),
        Recording env params w.log (w.disk .hostsJson) method
          ((exec (handle env method params) w).2.disk .hostsJson)
          (exec (handle env method params) w).2 := by
  refine ⟨performAll_mapLaw, ?_, fun env disk requests w reached => handle_recording reached⟩
  intro record disk empty
  rw [upsertHost, if_pos empty]
  rfl

/-! ### A busy session -/

/-- No host was asked to launch or resume anything since some point in the past. -/
def Undisturbed (past log : List (Event X509)) : Prop :=
  ∀ rest, log = past ++ rest → ∀ host port verb args req peer,
    .tlsWrite host port verb args req peer ∈ rest → verb ∉ [ascii "launch", ascii "resume"]

omit [DecidableEq X509] in
theorem Rekeyed.not_undisturbed {log : List (Event X509)} (rekeyed : Rekeyed past log) :
    ¬ Undisturbed past log := by
  obtain ⟨key, cfg, verb, before, between, host, port, req, peer, after, -, -, launched, rfl⟩ :=
    rekeyed
  intro undisturbed
  refine undisturbed (before ++ .random 16 (some key) :: between ++
    .tlsWrite host port verb (launchArgs verb cfg) req peer :: after) (by simp) host port verb
    (launchArgs verb cfg) req peer (by simp) launched

theorem start_busy_rekeyed {w w' : World X509} {params : Value} {msg : Bytes}
    (secure : Secure env initial w)
    (busy : exec (handle env .start params) w = (some (.error (ascii "engine_busy", msg)), w')) :
    Rekeyed w.log w'.log :=
  ((clientStart_spec params).returned secure busy).2 msg rfl

/-- Every `client.start` that is answered with `engine_busy` has sent a launch or resume
request with a new remote-input key. -/
theorem start_busy_disturbs {disk : StoreFile → Option Bytes} {requests : List (Method × Value)}
    {w w' : World X509} {params : Value} {msg : Bytes}
    (reached : exec (handleAll env requests) (World.start disk) = (some (), w))
    (busy : exec (handle env .start params) w = (some (.error (ascii "engine_busy", msg)), w')) :
    Rekeyed w.log w'.log ∧ ¬ Undisturbed w.log w'.log := by
  have secure : Secure env (decodeHosts (disk .hostsJson)) w :=
    (handleAll_spec requests).returned (start_secure env disk) reached
  have rekeyed := start_busy_rekeyed secure busy
  exact ⟨rekeyed, rekeyed.not_undisturbed⟩

/-- An idle host that accepts everything, and a session that goes on. -/
def idleHost : Environment Unit where
  crypto := zeroCrypto
  rand _ n := some ⟨List.replicate n 7, List.length_replicate⟩
  generateIdentity _ := none
  tcpConnect _ _ _ := true
  plainReply _ := some (ascii "HTTP/1.1 200 OK\r\n\r\n<root status_code=\"200\"></root>")
  tlsPeer _ _ := some (some ())
  tlsReply _ := some (ascii "HTTP/1.1 200 OK\r\n\r\n<root status_code=\"200\">" ++
    ascii "<sessionUrl0>rtsp</sessionUrl0></root>")
  pemReadX509 _ := some ()
  launchQuery := []
  workerEnded _ := false

/-- A store with an identity and one paired host. -/
def pairedStore : StoreFile → Option Bytes
  | .hostsJson => some (encodeHosts [⟨ascii "pc", [], ascii "cert"⟩])
  | _ => some (ascii "x")

def startRequest : Value :=
  .obj [(ascii "app", .str (ascii "1")), (ascii "host", .str (ascii "pc"))]

def startedRun : Option Unit × World Unit :=
  exec (handleAll idleHost [(.start, startRequest)]) (World.start pairedStore)

def secondStart : Option (Except IpcError Value) × World Unit :=
  exec (handle idleHost .start startRequest) startedRun.2

/-- The message of a busy answer. -/
def busyMessage? : Option (Except IpcError Value) → Option Bytes
  | some (.error (code, msg)) => if code = ascii "engine_busy" then some msg else none
  | _ => none

theorem busyMessage?_eq_some {answer : Option (Except IpcError Value)} {msg : Bytes}
    (busy : busyMessage? answer = some msg) : answer = some (.error (ascii "engine_busy", msg)) := by
  rcases answer with _ | ⟨code, msg'⟩ | value
  · contradiction
  · simp only [busyMessage?] at busy
    split at busy
    · rename_i same
      cases busy
      rw [same]
    · contradiction
  · contradiction

theorem secondStart_run : startedRun.1 = some () ∧ startedRun.2.session.running = true ∧
    busyMessage? secondStart.1 = some (ascii "a stream is already running") := by
  decide +kernel

theorem eq_of_fst {α β : Type} {p : α × β} {a : α} (first : p.1 = a) : p = (a, p.2) := by
  rw [← first]

theorem startedRun_returned : startedRun = (some (), startedRun.2) := eq_of_fst secondStart_run.1

theorem secondStart_busy : secondStart =
    (some (.error (ascii "engine_busy", ascii "a stream is already running")), secondStart.2) :=
  eq_of_fst (busyMessage?_eq_some secondStart_run.2.2)

theorem start_busy_disturbs_second :
    Rekeyed startedRun.2.log secondStart.2.log ∧ ¬ Undisturbed startedRun.2.log secondStart.2.log :=
  start_busy_disturbs startedRun_returned secondStart_busy

/-- A second `client.start` is refused, after the host of the running session was sent
another key. -/
theorem secondStart_disturbs :
    startedRun = (some (), startedRun.2) ∧ startedRun.2.session.running = true ∧
      secondStart.1 =
        some (.error (ascii "engine_busy", ascii "a stream is already running")) ∧
      ¬ Undisturbed startedRun.2.log secondStart.2.log := by
  have secure : Secure idleHost (decodeHosts (pairedStore .hostsJson)) startedRun.2 :=
    (handleAll_spec _).returned (start_secure idleHost pairedStore) startedRun_returned
  refine ⟨startedRun_returned, secondStart_run.2.1, congrArg Prod.fst secondStart_busy, ?_⟩
  exact (start_busy_rekeyed secure secondStart_busy).not_undisturbed

end StreamEngine.Client
