import StreamEngine.Client.EngineProofs
import StreamEngine.Client.Handlers

/-! Which requests may be written to which TLS session. The rule looks only at the
history: the certificate most recently recorded for the host, or the one of the first
pairing stage. `Sound` is what every part of a handler keeps of it, together with the
contents of the registry. -/
namespace StreamEngine.Client
open ByteString Decimal Hoare History Net Engine

variable {X509 : Type}

/-- The record that an event makes for a host. -/
def Event.recordFor? (host : Bytes) : Event X509 → Option PairedHost
  | .recorded record => if record.address = host then some record else none
  | _ => none

/-- The record most recently made for a host, the first initial one when there is none. -/
def recordOf (initial : List PairedHost) (log : List (Event X509)) (host : Bytes) :
    Option PairedHost :=
  (latest (Event.recordFor? host) log).or (KeyedList.lookup PairedHost.address host initial)

/-- Requests of the first pairing stage. -/
def isStageOne (command args : Bytes) : Bool :=
  command == ascii "pair" && (kPairPrefix ++ Stage.getservercert.phrase).isPrefixOf args

/-- The certificate in a host's reply to the first pairing stage. -/
def Event.plaincertOf? (host : Bytes) : Event X509 → Option Bytes
  | .plain peer _ command args _ raw =>
    if peer = host ∧ isStageOne command args = true then
      (replyBody raw).map fun body => xmlTextHex body (ascii "plaincert")
    else none
  | _ => none

def plaincertOf (log : List (Event X509)) (host : Bytes) : Option Bytes :=
  latest (Event.plaincertOf? host) log

/-- The requests of `client.apps` and `client.start` over TLS. -/
def pinnedCommands : List Bytes :=
  [ascii "serverinfo", ascii "applist", ascii "launch", ascii "resume"]

/-- A request to a host that may be written to a session with this peer. -/
inductive Permitted (env : Environment X509) (initial : List PairedHost)
    (before : List (Event X509)) (host : Bytes) : Bytes → Bytes → X509 → Prop where
  | recorded {command args peer record} (pinned : command ∈ pinnedCommands)
      (recorded : recordOf initial before host = some record)
      (parsed : readPemCert env record.serverCertPem = some peer) :
      Permitted env initial before host command args peer
  | challenge {peer cert} (shown : plaincertOf before host = some cert)
      (parsed : readPemCert env cert = some peer) :
      Permitted env initial before host (ascii "pair") (kPairPrefix ++ Stage.pairchallenge.phrase)
        peer

/-- A write to a TLS session follows the handshake that showed the peer's certificate. -/
def EventOk (env : Environment X509) (initial : List PairedHost) (before : List (Event X509)) :
    Event X509 → Prop
  | .tlsWrite host port command args _ peer =>
    before.getLast? = some (.handshake host port (some (some peer))) ∧
      Permitted env initial before host command args peer
  | _ => True

/-- The registry file, the history since some point in the past, and the rule. -/
structure Sound (env : Environment X509) (initial : List PairedHost) (content : Option Bytes)
    (past : List (Event X509)) (w : World X509) : Prop where
  hosts : w.disk .hostsJson = content
  since : past <+: w.log
  registry : ∀ host, KeyedList.lookup PairedHost.address host (decodeHosts content) =
    recordOf initial w.log host
  justified : Justified (EventOk env initial) w.log

variable {env : Environment X509} {initial : List PairedHost} {content : Option Bytes}
  {past log events : List (Event X509)} {host : Bytes} {w w' : World X509}

theorem recordOf_harmless (harmless : ∀ e ∈ events, e.harmless = true) :
    recordOf initial (log ++ events) host = recordOf initial log host := by
  rw [recordOf, latest_silent, recordOf]
  intro e member
  have here := harmless e member
  cases e with
  | recorded => contradiction
  | _ => rfl

theorem plaincertOf_quiet (quiet : ∀ e ∈ events, e.quiet = true) :
    plaincertOf (log ++ events) host = plaincertOf log host := by
  apply latest_silent
  intro e member
  have here := quiet e member
  cases e with
  | plain => contradiction
  | _ => rfl

theorem eventOk_harmless {e : Event X509} (harmless : e.harmless = true)
    (before : List (Event X509)) : EventOk env initial before e := by
  cases e with
  | tlsWrite => contradiction
  | _ => trivial

theorem Permitted.quietly {command args : Bytes} {peer : X509}
    (permitted : Permitted env initial log host command args peer)
    (quiet : ∀ e ∈ events, e.quiet = true) :
    Permitted env initial (log ++ events) host command args peer := by
  cases permitted with
  | recorded pinned recorded parsed =>
    refine .recorded pinned ?_ parsed
    rwa [recordOf_harmless fun e member => Event.harmless_of_quiet (quiet e member)]
  | challenge shown parsed =>
    refine .challenge ?_ parsed
    rwa [plaincertOf_quiet quiet]

namespace Sound

theorem harmless (sound : Sound env initial content past w) (events : List (Event X509))
    (harmless : ∀ e ∈ events, e.harmless = true) :
    Sound env initial content past (w.noted events) where
  hosts := sound.hosts
  since := sound.since.trans (List.prefix_append _ _)
  registry host := (sound.registry host).trans (recordOf_harmless harmless).symm
  justified := sound.justified.append fun e member _ => eventOk_harmless (harmless e member) _

theorem quietly (sound : Sound env initial content past w) (quietly : Quietly w w') :
    Sound env initial content past w' := by
  obtain ⟨events, log, quiet⟩ := quietly.events
  have later := sound.harmless events fun e member => Event.harmless_of_quiet (quiet e member)
  have same : w'.log = (w.noted events).log := log
  exact ⟨quietly.hosts.trans sound.hosts, same ▸ later.since, same ▸ later.registry,
    same ▸ later.justified⟩

/-- The client object is not looked at. -/
theorem client (sound : Sound env initial content past w) (client : NvHttpClient) :
    Sound env initial content past { w with client } :=
  ⟨sound.hosts, sound.since, sound.registry, sound.justified⟩

theorem session (sound : Sound env initial content past w) (session : SessionState) :
    Sound env initial content past { w with session } :=
  ⟨sound.hosts, sound.since, sound.registry, sound.justified⟩

/-- A later point in the past. -/
theorem at_ (sound : Sound env initial content past w) {later : List (Event X509)}
    (since : later <+: w.log) : Sound env initial content later w :=
  { sound with since }

theorem written (sound : Sound env initial content past w) {port : Int} {command args req : Bytes}
    {peer : X509} (shown : w.log.getLast? = some (.handshake host port (some (some peer))))
    (permitted : Permitted env initial w.log host command args peer) :
    Sound env initial content past (w.noted [.tlsWrite host port command args req peer]) where
  hosts := sound.hosts
  since := sound.since.trans (List.prefix_append _ _)
  registry host := by
    rw [sound.registry, World.noted, recordOf, recordOf, latest_silent]
    simp [Event.recordFor?]
  justified := justified_snoc sound.justified ⟨shown, permitted⟩

/-- A request, when every peer that a TLS session may have is permitted. -/
theorem requested {port : Int} {command args : Bytes} {https : Bool} {result : Option Bytes}
    (sound : Sound env initial content past w)
    (requested : Requested env w.client port command args https events result)
    (permitted : https = true → ∀ peer, readPemCert env w.client.pinnedServerCert = some peer →
      Permitted env initial w.log w.client.host command args peer) :
    Sound env initial content past (w.noted events) := by
  cases requested with
  | unconnected => exact sound.harmless _ (by simp [Event.harmless])
  | plain => exact sound.harmless _ (by simp [Event.harmless])
  | refused => exact sound.harmless _ (by simp [Event.harmless])
  | @written uuid req raw peer pinned =>
    have before : ∀ e ∈ ([.random 16 uuid, .connect w.client.host port true,
        .handshake w.client.host port (some (some peer))] : List (Event X509)), e.quiet = true := by
      simp [Event.quiet, Event.harmless]
    have shaken := sound.harmless _ fun e member => Event.harmless_of_quiet (before e member)
    have shown : (w.noted [.random 16 uuid, .connect w.client.host port true,
        .handshake w.client.host port (some (some peer))]).log.getLast? =
        some (.handshake w.client.host port (some (some peer))) := by simp [World.noted]
    have sent : Sound env initial content past ((w.noted [.random 16 uuid,
        .connect w.client.host port true, .handshake w.client.host port (some (some peer))]).noted
        [.tlsWrite w.client.host port command args req peer]) :=
      shaken.written shown ((permitted rfl peer pinned).quietly before)
    have answered := sent.harmless [.tlsReply raw] (by simp [Event.harmless])
    rwa [noted_noted, noted_noted] at answered

end Sound
end StreamEngine.Client
