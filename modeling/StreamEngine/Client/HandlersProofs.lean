import StreamEngine.Client.PairProofs

/-! What a handler does to the registry and to TLS sessions, in any world that the rule
holds in. Between the connection to a paired host and the end of the handler the client
is pinned to the record of that host. -/
namespace StreamEngine.Client
open ByteString Decimal Hoare History Json Net Engine

variable {X509 : Type} {env : Environment X509} {initial : List PairedHost}
  {content : Option Bytes} {past : List (Event X509)} {host : Bytes} {w w' : World X509}

/-! ### A pinned client -/

/-- The client object is pinned to the record of its host. -/
structure Ready (env : Environment X509) (initial : List PairedHost) (content : Option Bytes)
    (past : List (Event X509)) (host : Bytes) (w : World X509) : Prop where
  sound : Sound env initial content past w
  client : w.client.host = host
  pinned : ∃ record, KeyedList.lookup PairedHost.address host (decodeHosts content) = some record ∧
    w.client.pinnedServerCert = record.serverCertPem

/-- The request was written to a TLS session since some point in the past. -/
def Written (past : List (Event X509)) (command args : Bytes) (w : World X509) : Prop :=
  ∃ before host port req peer after,
    w.log = past ++ before ++ .tlsWrite host port command args req peer :: after

namespace Ready

theorem quietly (ready : Ready env initial content past host w) (quietly : Quietly w w') :
    Ready env initial content past host w' :=
  ⟨ready.sound.quietly quietly, quietly.client ▸ ready.client, quietly.client ▸ ready.pinned⟩

theorem permitted (ready : Ready env initial content past host w) {command args : Bytes}
    {peer : X509} (pinned : command ∈ pinnedCommands)
    (parsed : readPemCert env w.client.pinnedServerCert = some peer) :
    Permitted env initial w.log w.client.host command args peer := by
  obtain ⟨record, found, pin⟩ := ready.pinned
  rw [ready.sound.registry] at found
  rw [pin] at parsed
  rw [ready.client]
  exact .recorded pinned found parsed

theorem requested (ready : Ready env initial content past host w) {https : Bool} {port : Int}
    {command args : Bytes} {events : List (Event X509)} {result : Option Bytes}
    (pinned : command ∈ pinnedCommands)
    (requested : Requested env w.client port command args https events result) :
    Ready env initial content past host (w.noted events) :=
  ⟨ready.sound.requested requested fun _ _ parsed => ready.permitted pinned parsed,
    ready.client, ready.pinned⟩

end Ready

/-- A reply with a body was received over a session that the request was written to. -/
theorem Requested.replied {port : Int} {command args reply : Bytes} {client : NvHttpClient}
    {events : List (Event X509)}
    (requested : Requested env client port command args true events (some reply))
    (since : past <+: w.log) (replied : reply ≠ []) :
    Written past command args (w.noted events) := by
  obtain ⟨rest, extended⟩ := since
  obtain ⟨uuid, req, raw, peer, -, rfl⟩ := requested.answered replied
  exact ⟨rest ++ [.random 16 uuid, .connect client.host port true,
    .handshake client.host port (some (some peer))], client.host, port, req, peer, [.tlsReply raw],
    by simp [World.noted, ← extended]⟩

theorem Written.quietly {command args : Bytes} (written : Written past command args w)
    (quietly : Quietly w w') : Written past command args w' := by
  obtain ⟨before, host, port, req, peer, after, log⟩ := written
  obtain ⟨events, extended, -⟩ := quietly.events
  exact ⟨before, host, port, req, peer, after ++ events, by rw [extended, log]; simp⟩

theorem readHosts_files_spec (content : Option Bytes) {hung : World X509 → Prop} :
    Triple (Sound env initial content past) (files.readFile .hostsJson)
      (fun read w => read = content ∧ Sound env initial content past w) hung :=
  fun w sound => .inl ⟨w.disk .hostsJson, rfl, sound.hosts, sound⟩

theorem findHost_files_spec (host : Bytes) {hung : World X509 → Prop} :
    Triple (Sound env initial content past) (findHost files host)
      (fun found w => found = KeyedList.lookup PairedHost.address host (decodeHosts content) ∧
        Sound env initial content past w) hung :=
  findHost_spec (fun content => readHosts_files_spec content) content host

variable [DecidableEq X509]

theorem getHttps_spec {command : Bytes} (args : Bytes) (pinned : command ∈ pinnedCommands) :
    Triple (Ready env initial content past host) (getHttps env command args)
      (fun reply w => Ready env initial content past host w ∧
        (reply ≠ [] → Written past command args w))
      (Sound env initial content past) := by
  refine triple_get fun w₀ => triple_request fun w events result ready requested => ⟨?_, ?_⟩
  · rintro reply rfl
    exact ⟨ready.2.requested pinned requested, requested.replied ready.2.sound.since⟩
  · rintro -
    exact (ready.2.requested pinned requested).sound

/-- A plain request changes neither the registry nor the client. -/
theorem getHttp_spec (command args : Bytes) {held : World X509 → Prop}
    (kept : ∀ w events, (∀ e ∈ events, e.harmless = true) → held w → held (w.noted events))
    (sound : ∀ w, held w → Sound env initial content past w) :
    Triple held (getHttp env command args) (fun _ => held) (Sound env initial content past) := by
  refine triple_get fun w₀ => triple_request fun w events result start requested => ⟨?_, ?_⟩
  · rintro reply rfl
    exact kept w events requested.harmless start.2
  · rintro -
    exact (sound w start.2).harmless _ requested.harmless

/-- A step of a handler after which the client stays pinned. -/
def Continues (env : Environment X509) (initial : List PairedHost) (content : Option Bytes)
    (past : List (Event X509)) (host : Bytes) : Except IpcError α → World X509 → Prop
  | .ok _, w => Ready env initial content past host w
  | .error e, w => Sound env initial content past w ∧ e.1 ≠ ascii "engine_busy"

theorem connectPairedHost_spec (host : Bytes) :
    Triple (Sound env initial content past) (connectPairedHost env host)
      (Continues env initial content past host) (Sound env initial content past) := by
  have notPaired : ascii "not_paired" ≠ ascii "engine_busy" := by decide
  have unreachable : ascii "host_unreachable" ≠ ascii "engine_busy" := by decide
  refine triple_bind (findHost_files_spec host) fun found => triple_assume fun registered => ?_
  cases found with
  | none => exact triple_pure fun w sound => ⟨sound, notPaired⟩
  | some paired =>
    refine triple_bind (triple_quiet isQuiet_loadOrCreateIdentity
      (fun step sound => sound.quietly step) fun _ sound => sound) fun loaded => ?_
    cases loaded with
    | none => exact triple_pure fun w sound => ⟨sound, by decide⟩
    | some loaded =>
      obtain ⟨identity, uniqueId⟩ := loaded
      have created : Triple (Sound env initial content past) (newClient ⟨host, kDefaultHttpPort,
          kDefaultHttpsPort, identity, uniqueId, []⟩)
          (fun _ w => Sound env initial content past w ∧ w.client.host = host)
          (Sound env initial content past) :=
        triple_modify fun w sound => ⟨sound.client _, rfl⟩
      have pinned : Triple (fun w => Sound env initial content past w ∧ w.client.host = host)
          (setPinnedServerCert paired.serverCertPem)
          (fun _ => Ready env initial content past host) (Sound env initial content past) :=
        triple_modify fun w start => ⟨start.1.client _, start.2, paired, registered.symm, rfl⟩
      refine triple_bind created fun _ => triple_bind pinned fun _ => ?_
      refine triple_bind (getHttp_spec _ _
        (fun w events harmless ready => ⟨ready.sound.harmless _ harmless, ready.client, ready.pinned⟩)
        fun w ready => ready.sound) fun infoHttp => ?_
      refine triple_ite (fun unusable => ?_) fun usable => ?_
      · exact triple_pure fun w ready => ⟨ready.sound, unreachable⟩
      refine triple_ite (fun announced => ?_) fun absent => ?_
      · refine triple_bind (triple_modify fun w ready => ?_) fun _ => triple_pure fun w ready => ready
        exact ⟨ready.sound.client _, ready.client, ready.pinned⟩
      · exact triple_pure fun w ready => ready

end StreamEngine.Client
