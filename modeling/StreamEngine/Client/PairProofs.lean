import StreamEngine.Client.Security

/-! Pairing in the engine. During an attempt the client's pin is the last certificate the
attempt pinned, and the history shows the host's last reply to the first stage, so the
only request over TLS is written to the peer of that reply. -/
namespace StreamEngine.Client
open ByteString Decimal Hoare History Net Engine

variable {X509 : Type} {env : Environment X509} {initial : List PairedHost}
  {content : Option Bytes} {past : List (Event X509)} {host : Bytes}

/-- The reply to the first stage. -/
def stageOneReply? : PairEvent → Option Bytes
  | .request false command args reply => if isStageOne command args = true then some reply else none
  | _ => none

/-- What the events of an attempt say about the world. -/
structure Attempting (env : Environment X509) (initial : List PairedHost) (content : Option Bytes)
    (past : List (Event X509)) (host : Bytes) (log : List PairEvent) (w : World X509) : Prop where
  sound : Sound env initial content past w
  client : w.client.host = host
  pin : ∀ cert, latest PairEvent.pinned? log = some cert → w.client.pinnedServerCert = cert
  shown : ∀ body, latest stageOneReply? log = some body → body ≠ [] →
    plaincertOf w.log host = some (xmlTextHex body (ascii "plaincert"))

/-- The plain reply of the host is the one that the history shows. -/
theorem Requested.plaincert {client : NvHttpClient} {port : Int} {command args reply : Bytes}
    {https : Bool} {events : List (Event X509)}
    (requested : Requested env client port command args https events (some reply)) :
    (https = true ∨ isStageOne command args = false →
        latest (Event.plaincertOf? client.host) events = none) ∧
      (https = false → isStageOne command args = true → reply ≠ [] →
        latest (Event.plaincertOf? client.host) events =
          some (xmlTextHex reply (ascii "plaincert"))) := by
  generalize result : some reply = answer at requested
  cases requested with
  | unconnected => simp_all [latest, Event.plaincertOf?]
  | plain uuid req raw => simp_all [latest, Event.plaincertOf?, ← result]
  | refused => simp [latest, Event.plaincertOf?]
  | written => simp [latest, Event.plaincertOf?]

/-- The last stage comes after the other four. -/
theorem before_pairchallenge {sent : List Stage} (ordered : sent ++ [.pairchallenge] <+: Stage.all) :
    sent = [.getservercert, .clientchallenge, .serverchallengeresp, .clientpairingsecret] := by
  have split : ∀ n < 5, (Stage.all.take (n + 1)).getLast? = some .pairchallenge →
      (Stage.all.take (n + 1)).dropLast =
        [.getservercert, .clientchallenge, .serverchallengeresp, .clientpairingsecret] := by decide
  have length : sent.length + 1 ≤ 5 := by simpa [Stage.all] using ordered.length_le
  have taken : sent ++ [.pairchallenge] = Stage.all.take (sent.length + 1) := by
    simpa using List.prefix_iff_eq_take.mp ordered
  have last := split sent.length (by omega)
  rw [← taken] at last
  simpa using last

/-- The only request over TLS is the last stage's, after the certificate of the first
reply was pinned. -/
theorem call_overTls {client : Net.Client} {log : List PairEvent} {command args : Bytes}
    (call : Call client log true command args) :
    ∃ answers : Answers, command = ascii "pair" ∧
      args = kPairPrefix ++ Stage.pairchallenge.phrase ∧
      latest PairEvent.pinned? log = some answers.serverCertPem ∧
      latest stageOneReply? log = some (answers.reply .getservercert) ∧
      answers.reply .getservercert ≠ [] := by
  generalize tls : true = https at call
  cases call with
  | unpair => contradiction
  | stage answers sent stage ordered accepted =>
    cases stage with
    | pairchallenge =>
      have replied : pairedOk (answers.reply .getservercert) = true :=
        accepted _ (by simp [before_pairchallenge ordered])
      obtain rfl := before_pairchallenge ordered
      refine ⟨answers, rfl, rfl, rfl, rfl, ?_⟩
      rintro empty
      rw [empty] at replied
      contradiction
    | _ => contradiction

namespace Attempting

theorem quietly {log : List PairEvent} {w w' : World X509}
    (attempting : Attempting env initial content past host log w) (quietly : Quietly w w') :
    Attempting env initial content past host log w' := by
  obtain ⟨events, extended, quiet⟩ := quietly.events
  refine ⟨attempting.sound.quietly quietly, quietly.client ▸ attempting.client,
    quietly.client ▸ attempting.pin, fun body latest replied => ?_⟩
  rw [extended, plaincertOf_quiet quiet]
  exact attempting.shown body latest replied

/-- Events of the attempt that are neither pins nor requests. -/
theorem random {log : List PairEvent} {w : World X509}
    (attempting : Attempting env initial content past host log w) (n : Nat) (bytes : Bytes) :
    Attempting env initial content past host (log ++ [.random n bytes]) w := by
  refine ⟨attempting.sound, attempting.client, ?_, ?_⟩
  · rw [latest_silent (by simp [PairEvent.pinned?])]
    exact attempting.pin
  · rw [latest_silent (by simp [stageOneReply?])]
    exact attempting.shown

theorem pinned {log : List PairEvent} {w : World X509}
    (attempting : Attempting env initial content past host log w) (cert : Bytes) :
    Attempting env initial content past host (log ++ [.pin cert])
      { w with client := { w.client with pinnedServerCert := cert } } := by
  refine ⟨attempting.sound.client _, attempting.client, ?_, ?_⟩
  · intro cert' latest
    have here : PairEvent.pinned? (.pin cert) = some cert := rfl
    rw [latest_snoc here] at latest
    exact Option.some.inj latest
  · rw [latest_silent (by simp [stageOneReply?])]
    exact attempting.shown

/-- At a request over TLS the pin is the certificate of the first reply. -/
theorem permitted {log : List PairEvent} {w : World X509} {client : Net.Client}
    {command args : Bytes} {peer : X509}
    (attempting : Attempting env initial content past host log w)
    (call : Call client log true command args)
    (parsed : readPemCert env w.client.pinnedServerCert = some peer) :
    Permitted env initial w.log w.client.host command args peer := by
  obtain ⟨answers, rfl, rfl, pin, reply, replied⟩ := call_overTls call
  rw [attempting.pin _ pin] at parsed
  rw [attempting.client]
  exact .challenge (attempting.shown _ reply replied) parsed

theorem requested {log : List PairEvent} {w : World X509} {client : Net.Client} {port : Int}
    {https : Bool} {command args reply : Bytes} {events : List (Event X509)}
    (attempting : Attempting env initial content past host log w)
    (call : Call client log https command args)
    (requested : Requested env w.client port command args https events (some reply)) :
    Attempting env initial content past host (log ++ [.request https command args reply])
      (w.noted events) := by
  obtain ⟨silent, shown⟩ := requested.plaincert
  rw [attempting.client] at silent shown
  refine ⟨?_, attempting.client, ?_, ?_⟩
  · refine attempting.sound.requested requested ?_
    rintro rfl peer parsed
    exact attempting.permitted call parsed
  · rw [latest_silent (by simp [PairEvent.pinned?])]
    exact attempting.pin
  · intro body latest replied
    rw [plaincertOf, World.noted, latest_append]
    by_cases first : https = false ∧ isStageOne command args = true
    · obtain ⟨rfl, stageOne⟩ := first
      have here : stageOneReply? (.request false command args reply) = some reply := if_pos stageOne
      rw [latest_snoc here] at latest
      obtain rfl := Option.some.inj latest
      rw [shown rfl stageOne replied]
      rfl
    · have unshown : https = true ∨ isStageOne command args = false := by
        cases https with
        | false => simpa using first
        | true => exact .inl rfl
      rw [silent unshown, Option.none_or]
      refine attempting.shown body ?_ replied
      rwa [latest_silent] at latest
      rcases unshown with rfl | other
      · simp [stageOneReply?]
      · cases https <;> simp [stageOneReply?, other]

end Attempting

/-! ### The registry -/

theorem exec_upsert {record : PairedHost} (addressed : record.address ≠ []) (w : World X509) :
    exec (upsert record) w = (some true, { w with
      disk := Function.update w.disk .hostsJson (upserted record (w.disk .hostsJson)),
      log := w.log ++ [.recorded record] }) := by
  have written : exec (upsertHost files record) w = (some true, { w with
      disk := Function.update w.disk .hostsJson (upserted record (w.disk .hostsJson)) }) := by
    rw [upsertHost, if_neg addressed, upserted, if_neg addressed]
    rfl
  rw [upsert, exec_bind_returned written]
  rfl

theorem exec_upsert_empty {record : PairedHost} (empty : record.address = []) (w : World X509) :
    exec (upsert record) w = (some false, w) := by
  have refused : exec (upsertHost files record) w = (some false, w) := by
    rw [upsertHost, if_pos empty]
    rfl
  rw [upsert, exec_bind_returned refused]
  rfl

/-- The new record is the most recent one for its address. -/
theorem recordOf_recorded {record : PairedHost} {log : List (Event X509)} :
    recordOf initial (log ++ [.recorded record]) host =
      if record.address = host then some record else recordOf initial log host := by
  split
  · rename_i same
    have here : (Event.recorded record : Event X509).recordFor? host = some record := if_pos same
    rw [recordOf, latest_snoc here]
    rfl
  · rename_i different
    rw [recordOf, latest_silent (by simp [Event.recordFor?, different]), recordOf]

theorem Sound.upserted {record : PairedHost} {w : World X509}
    (sound : Sound env initial content past w) (addressed : record.address ≠ []) :
    Sound env initial (upserted record content) past { w with
      disk := Function.update w.disk .hostsJson (upserted record content),
      log := w.log ++ [.recorded record] } where
  hosts := by simp
  since := sound.since.trans (List.prefix_append _ _)
  registry host := by
    rw [decodeHosts_upserted addressed, recordOf_recorded]
    split
    · rename_i same
      rw [← same]
      exact KeyedList.lookup_put_self record _
    · rename_i different
      rw [KeyedList.lookup_put_of_ne different, sound.registry]
  justified := justified_snoc sound.justified trivial

theorem upsert_spec (record : PairedHost) {hung : World X509 → Prop} :
    Triple (Sound env initial content past) (upsert record)
      (fun ok w => ok = decide (record.address ≠ []) ∧
        Sound env initial (upserted record content) past w) hung := by
  intro w sound
  by_cases addressed : record.address = []
  · rw [exec_upsert_empty addressed, upserted, if_pos addressed]
    exact .inl ⟨false, rfl, by simp [addressed], sound⟩
  · rw [exec_upsert addressed, sound.hosts]
    exact .inl ⟨true, rfl, by simp [addressed], sound.upserted addressed⟩

/-! ### Pairing -/

variable [DecidableEq X509]

/-- A pairing attempt ends in one of the endings of the handshake and keeps the rule. -/
theorem pairWithClient_spec (identity : ClientIdentity) (pin : Bytes) (serverMajorVersion : Int) :
    Triple (fun w => Sound env initial content past w ∧ w.client.host = host)
      (pairWithClient env identity pin serverMajorVersion)
      (fun result w => (∃ log, Exchange
          ⟨env.crypto, identity, pin, decide (serverMajorVersion ≥ 7)⟩ result log) ∧
        Sound env initial content past w)
      (Sound env initial content past) := by
  refine triple_weaken (nvPair_spec (Attempting env initial content past host)
    ⟨env.crypto, identity, pin, decide (serverMajorVersion ≥ 7)⟩ ?_ ?_ ?_ _ rfl) ?_ ?_
  · intro log https command args call
    refine triple_exchange fun w port events result attempting requested => ⟨?_, ?_⟩
    · rintro reply rfl
      exact attempting.requested call requested
    · rintro -
      refine attempting.sound.requested requested ?_
      rintro rfl peer parsed
      exact attempting.permitted call parsed
  · exact fun log cert => triple_modify fun w attempting => attempting.pinned cert
  · intro log n
    have quiet : Triple (Attempting env initial content past host log) (randomBytes env n)
        (fun _ => Attempting env initial content past host log) (Sound env initial content past) :=
      triple_quiet (isQuiet_randomBytes n) (fun step held => held.quietly step)
        fun _ held => held.sound
    exact triple_weaken quiet (fun _ held => held) fun bytes _ held => held.random n bytes
  · rintro w ⟨sound, client⟩
    exact ⟨sound, client, by simp [latest], by simp [latest]⟩
  · rintro result w ⟨log, exchange, attempting⟩
    exact ⟨⟨log, exchange⟩, attempting.sound⟩

end StreamEngine.Client
