import StreamEngine.Client.Engine
import StreamEngine.Library.History
import StreamEngine.Net.IdentityStoreProofs
import StreamEngine.Net.PairingProofs

/-! What the operations of the engine can do to the world. A request adds one of a few
groups of events and nothing else; the remaining operations are quiet, and an assertion
that quiet steps keep is kept by all of them. -/
namespace StreamEngine.Client
open ByteString Decimal Hoare Net Engine

variable {X509 : Type}

/-- The world after more events. -/
def World.noted (w : World X509) (events : List (Event X509)) : World X509 :=
  { w with log := w.log ++ events }

/-! ### Requests -/

/-- What `request` makes of the received bytes, `none` when it never returns. -/
def replyBody (raw : Option Bytes) : Option Bytes :=
  (parseHttpResponse (raw.getD [])).map fun resp => if resp.ok then resp.body else []

/-- The events and the result of one request. -/
inductive Requested (env : Environment X509) (client : NvHttpClient) (port : Int)
    (command args : Bytes) : Bool → List (Event X509) → Option Bytes → Prop where
  | unconnected (https uuid) : Requested env client port command args https
      [.random 16 uuid, .connect client.host port false] (some [])
  | plain (uuid req raw) : Requested env client port command args false
      [.random 16 uuid, .connect client.host port true,
        .plain client.host port command args req raw] (replyBody raw)
  | refused (uuid session) : Requested env client port command args true
      [.random 16 uuid, .connect client.host port true, .handshake client.host port session]
      (some [])
  | written (uuid req raw) {peer} (pinned : readPemCert env client.pinnedServerCert = some peer) :
      Requested env client port command args true
        [.random 16 uuid, .connect client.host port true,
          .handshake client.host port (some (some peer)),
          .tlsWrite client.host port command args req peer, .tlsReply raw] (replyBody raw)

variable {env : Environment X509}

theorem exec_record (e : Event X509) (w : World X509) :
    exec (record e) w = (some ⟨⟩, w.noted [e]) := rfl

theorem exec_randBytes (n : Nat) (w : World X509) :
    exec (randBytes env n) w =
      (some ((env.rand w.log n).map Subtype.val),
        w.noted [.random n ((env.rand w.log n).map Subtype.val)]) := rfl

variable (env) in
theorem exec_randomUuidHex (w : World X509) :
    ∃ hex uuid, exec (randomUuidHex env) w = (some hex, w.noted [.random 16 uuid]) := by
  rw [randomUuidHex, exec_bind_returned (exec_randBytes 16 w)]
  cases (env.rand w.log 16).map Subtype.val with
  | none => exact ⟨_, _, rfl⟩
  | some bytes => exact ⟨_, _, rfl⟩

/-- The end of a request, after something was received. -/
theorem exec_reply (raw : Option Bytes) (w : World X509) :
    exec (match parseHttpResponse (raw.getD []) with
      | none => hang
      | some resp => return if resp.ok then resp.body else []) w = (replyBody raw, w) := by
  unfold replyBody
  cases parseHttpResponse (raw.getD []) <;> rfl

theorem noted_noted (w : World X509) (first second : List (Event X509)) :
    (w.noted first).noted second = w.noted (first ++ second) := by
  simp only [World.noted, List.append_assoc]

/-- A reply with a body over TLS was received after the request was written. -/
theorem Requested.answered {client : NvHttpClient} {port : Int} {command args reply : Bytes}
    {events : List (Event X509)}
    (requested : Requested env client port command args true events (some reply))
    (replied : reply ≠ []) :
    ∃ uuid req raw peer, replyBody raw = some reply ∧ events = [.random 16 uuid,
      .connect client.host port true, .handshake client.host port (some (some peer)),
      .tlsWrite client.host port command args req peer, .tlsReply raw] := by
  generalize result : some reply = answer at requested
  cases requested with
  | unconnected => exact absurd (Option.some.inj result) replied
  | refused => exact absurd (Option.some.inj result) replied
  | @written uuid req raw peer _ => exact ⟨uuid, req, raw, peer, rfl, rfl⟩

variable (env) in
/-- Nothing is written to a session of another peer than the pinned one. -/
theorem exec_tlsExchange [DecidableEq X509] (client : NvHttpClient) (port : Int)
    (command args req : Bytes) (w : World X509) :
    (∃ session, exec (tlsExchange env client port command args req) w =
      (some [], w.noted [.handshake client.host port session])) ∨
    ∃ peer raw, readPemCert env client.pinnedServerCert = some peer ∧
      exec (tlsExchange env client port command args req) w =
        (some (raw.getD []), w.noted [.handshake client.host port (some (some peer)),
          .tlsWrite client.host port command args req peer, .tlsReply raw]) := by
  rw [tlsExchange, exec_bind_returned (exec_get _), exec_bind_returned (exec_record _ _)]
  rcases session : env.tlsPeer w.log client.identity with _ | _ | peer
  · exact .inl ⟨none, rfl⟩
  · exact .inl ⟨some none, rfl⟩
  · cases parsed : readPemCert env client.pinnedServerCert with
    | none => exact .inl ⟨some (some peer), rfl⟩
    | some pinned =>
      simp only [Option.join_some]
      by_cases same : peer = pinned
      · subst same
        rw [if_pos rfl, exec_bind_returned (exec_record _ _), noted_noted,
          exec_bind_returned (exec_get _), exec_bind_returned (exec_record _ _), noted_noted]
        exact .inr ⟨peer, _, rfl, rfl⟩
      · rw [if_neg same]
        exact .inl ⟨some (some peer), rfl⟩

variable (env) in
theorem exec_request [DecidableEq X509] (https : Bool) (port : Int) (command args : Bytes)
    (w : World X509) :
    ∃ events result, Requested env w.client port command args https events result ∧
      exec (request env https port command args) w = (result, w.noted events) := by
  obtain ⟨hex, uuid, drawn⟩ := exec_randomUuidHex env w
  rw [request, exec_bind_returned drawn]
  generalize same : w.noted [.random 16 uuid] = w₁
  have client : w₁.client = w.client := same ▸ rfl
  rw [exec_bind_returned (exec_get _), exec_bind_returned (exec_get _),
    exec_bind_returned (exec_record _ _), client]
  by_cases refused : env.tcpConnect w₁.log w.client.host port = false
  · rw [if_pos refused, refused, ← same, noted_noted]
    exact ⟨_, _, .unconnected https uuid, rfl⟩
  rw [if_neg refused, (Bool.not_eq_false _).mp refused, ← same, noted_noted]
  cases https with
  | false =>
    rw [if_neg Bool.noConfusion, plainExchange, bind_assoc, exec_bind_returned (exec_get _),
      bind_assoc, exec_bind_returned (exec_record _ _), noted_noted, pure_bind]
    exact ⟨_, _, .plain uuid _ _, exec_reply _ _⟩
  | true =>
    rw [if_pos rfl]
    obtain ⟨session, refused⟩ | ⟨peer, raw, pinned, written⟩ :=
      exec_tlsExchange env w.client port command args
        (requestText w.client port command hex args)
        (w.noted ([.random 16 uuid] ++ [.connect w.client.host port true]))
    · rw [exec_bind_returned refused, noted_noted]
      exact ⟨_, _, .refused uuid session, rfl⟩
    · rw [exec_bind_returned written, noted_noted]
      exact ⟨_, _, .written uuid _ raw pinned, exec_reply _ _⟩

theorem triple_request [DecidableEq X509] {https : Bool} {port : Int} {command args : Bytes}
    {pre : World X509 → Prop} {post : Bytes → World X509 → Prop} {hung : World X509 → Prop}
    (steps : ∀ w events result, pre w →
      Requested env w.client port command args https events result →
      (∀ reply, result = some reply → post reply (w.noted events)) ∧
        (result = none → hung (w.noted events))) :
    Triple pre (request env https port command args) post hung := by
  intro w start
  obtain ⟨events, result, requested, run⟩ := exec_request env https port command args w
  obtain ⟨returned, stopped⟩ := steps w events result start requested
  rw [run]
  cases result with
  | none => exact .inr ⟨rfl, stopped rfl⟩
  | some reply => exact .inl ⟨reply, rfl, returned reply rfl⟩

/-- The request function that pairing is given. -/
theorem triple_exchange [DecidableEq X509] {https : Bool} {command args : Bytes}
    {pre : World X509 → Prop} {post : Bytes → World X509 → Prop} {hung : World X509 → Prop}
    (steps : ∀ w port events result, pre w →
      Requested env w.client port command args https events result →
      (∀ reply, result = some reply → post reply (w.noted events)) ∧
        (result = none → hung (w.noted events))) :
    Triple pre (if https then getHttps env command args else getHttp env command args)
      post hung := by
  cases https with
  | false =>
    refine triple_get fun w₀ => triple_request fun w events result start requested => ?_
    exact steps w _ events result start.2 requested
  | true =>
    refine triple_get fun w₀ => triple_request fun w events result start requested => ?_
    exact steps w _ events result start.2 requested

/-! ### Quiet operations -/

/-- Events that neither write to a TLS session nor change the registry. -/
def Event.harmless : Event X509 → Bool
  | .tlsWrite .. | .recorded _ => false
  | _ => true

/-- Harmless events that no host answers over plain HTTP. -/
def Event.quiet : Event X509 → Bool
  | .plain .. => false
  | e => e.harmless

omit env in
theorem Event.harmless_of_quiet {e : Event X509} (quiet : e.quiet = true) : e.harmless = true := by
  cases e with
  | plain => contradiction
  | tlsWrite => contradiction
  | recorded => contradiction
  | _ => rfl

theorem Requested.harmless {client : NvHttpClient} {port : Int} {command args : Bytes}
    {events : List (Event X509)} {result : Option Bytes}
    (requested : Requested env client port command args false events result) :
    ∀ e ∈ events, e.harmless = true := by
  cases requested <;> simp [Event.harmless]

/-- Same registry and same client, and only quiet events. -/
structure Quietly (w w' : World X509) : Prop where
  hosts : w'.disk .hostsJson = w.disk .hostsJson
  client : w'.client = w.client
  events : ∃ events, w'.log = w.log ++ events ∧ ∀ e ∈ events, e.quiet = true

namespace Quietly
omit env

theorem refl (w : World X509) : Quietly w w := ⟨rfl, rfl, [], by simp, by simp⟩

theorem trans {a b c : World X509} (first : Quietly a b) (second : Quietly b c) : Quietly a c := by
  obtain ⟨events₁, log₁, quiet₁⟩ := first.events
  obtain ⟨events₂, log₂, quiet₂⟩ := second.events
  refine ⟨second.hosts.trans first.hosts, second.client.trans first.client,
    events₁ ++ events₂, by rw [log₂, log₁, List.append_assoc], ?_⟩
  intro e member
  rcases List.mem_append.mp member with earlier | later
  · exact quiet₁ e earlier
  · exact quiet₂ e later

theorem noted {e : Event X509} (quiet : e.quiet = true) (w : World X509) :
    Quietly w (w.noted [e]) :=
  ⟨rfl, rfl, [e], rfl, by simpa using quiet⟩

end Quietly

/-- An operation that is quiet from every world. -/
def IsQuiet (x : Engine X509 α) : Prop := ∀ w, Quietly w (exec x w).2

/-- An assertion that quiet steps keep. -/
def KeptQuietly (held : World X509 → Prop) : Prop := ∀ {w w'}, Quietly w w' → held w → held w'

section
omit env

theorem isQuiet_pure (a : α) : IsQuiet (pure a : Engine X509 α) := Quietly.refl

theorem isQuiet_bind {x : Engine X509 α} {f : α → Engine X509 β} (first : IsQuiet x)
    (rest : ∀ a, IsQuiet (f a)) : IsQuiet (x >>= f) := by
  intro w
  have step := first w
  rcases run : exec x w with ⟨_ | a, w'⟩
  · rw [run] at step
    rw [exec_bind_stopped run]
    exact step
  · rw [run] at step
    rw [exec_bind_returned run]
    exact step.trans (rest a w')

theorem isQuiet_ite {c : Prop} [Decidable c] {x y : Engine X509 α} (positive : IsQuiet x)
    (negative : IsQuiet y) : IsQuiet (if c then x else y) := by
  split
  · exact positive
  · exact negative

theorem isQuiet_get : IsQuiet (get : Engine X509 (World X509)) := Quietly.refl

theorem isQuiet_record {e : Event X509} (quiet : e.quiet = true) : IsQuiet (record e) :=
  Quietly.noted quiet

theorem isQuiet_readFile (file : StoreFile) : IsQuiet (files.readFile file : Engine X509 _) :=
  Quietly.refl

/-- Files other than the registry are not looked at. -/
theorem isQuiet_writeFile {file : StoreFile} (other : file ≠ .hostsJson) (data : Bytes) :
    IsQuiet (files.writeFile file data : Engine X509 Bool) := fun _ =>
  ⟨Function.update_of_ne other.symm _ _, rfl, [], (List.append_nil _).symm, by simp⟩

end

theorem isQuiet_randBytes (n : Nat) : IsQuiet (randBytes env n) :=
  isQuiet_bind isQuiet_get fun _ => isQuiet_bind (isQuiet_record rfl) fun _ => isQuiet_pure _

theorem isQuiet_randomBytes (n : Nat) : IsQuiet (randomBytes env n) :=
  isQuiet_ite (isQuiet_pure _) (isQuiet_bind (isQuiet_randBytes n) fun _ => isQuiet_pure _)

theorem isQuiet_generateUniqueId : IsQuiet (generateUniqueId env) := by
  refine isQuiet_bind (isQuiet_randBytes 8) fun bytes => ?_
  cases bytes with
  | none => exact isQuiet_pure _
  | some bytes => exact isQuiet_pure _

theorem isQuiet_generateIdentity : IsQuiet (Engine.generateIdentity env) :=
  isQuiet_bind isQuiet_get fun _ => isQuiet_bind (isQuiet_record rfl) fun _ => isQuiet_pure _

theorem isQuiet_loadOrCreateIdentity : IsQuiet (Engine.loadOrCreateIdentity env) := by
  refine isQuiet_bind (isQuiet_readFile _) fun cert => isQuiet_bind (isQuiet_readFile _) fun key =>
    isQuiet_bind (isQuiet_readFile _) fun uid => isQuiet_ite (isQuiet_pure _) ?_
  refine isQuiet_bind isQuiet_generateIdentity fun fresh => ?_
  cases fresh with
  | none => exact isQuiet_pure _
  | some fresh =>
    refine isQuiet_bind isQuiet_generateUniqueId fun freshUid => isQuiet_ite (isQuiet_pure _) ?_
    refine isQuiet_bind (isQuiet_writeFile (by decide) _) fun _ => isQuiet_ite (isQuiet_pure _) ?_
    refine isQuiet_bind (isQuiet_writeFile (by decide) _) fun _ => isQuiet_ite (isQuiet_pure _) ?_
    refine isQuiet_bind (isQuiet_writeFile (by decide) _) fun _ => isQuiet_ite (isQuiet_pure _) ?_
    exact isQuiet_pure _

theorem triple_quiet {held hung : World X509 → Prop} {x : Engine X509 α} (quiet : IsQuiet x)
    (kept : KeptQuietly held) (stopped : ∀ w, held w → hung w) :
    Triple held x (fun _ => held) hung := by
  intro w start
  have later := kept (quiet w) start
  cases value : (exec x w).1 with
  | none => exact .inr ⟨rfl, stopped _ later⟩
  | some a => exact .inl ⟨a, rfl, later⟩

end StreamEngine.Client
