import StreamEngine.Client.HttpRequestProofs
import StreamEngine.Client.RunProofs

/-! Requests over any number of rounds. What is held when a round ends is what the next one is
given, and what was done is what the engine's own account of a request allows. -/
namespace StreamEngine.Client
namespace HttpRequest
open ByteString Decimal Net Interaction Threads Transition

variable {X509 : Type} {env : Environment X509} {l : Locals} {m : Method} {uuid : Option Bytes}
  {req sent received : Bytes} {session : Option (Option (Option X509))}
  {current more : List (Io X509)} {w w' : World X509}

/-! ### How a request goes on -/

theorem Since.append (since : Since uuid current w) (quiet : ∀ io ∈ more, io.isDraw = false)
    (log : w'.log = w.log ++ more) : Since uuid (current ++ more) w' := by
  obtain ⟨⟨earlier, split⟩, before⟩ := since
  refine ⟨⟨earlier, ?_⟩, fun io member => ?_⟩
  · rw [log, split, List.append_assoc, List.cons_append]
  · rcases List.mem_append.mp member with old | new
    · exact before io old
    · exact quiet io new

/-- Nothing was done since. -/
theorem Since.still (since : Since uuid current w) (log : w'.log = w.log) :
    Since uuid current w' := by
  rw [Since, log]
  exact since

namespace Progress

/-- One action more. -/
theorem note (progress : Progress l uuid req session sent received current) (io : Io X509) :
    Progress l uuid req (session.or io.handshake?) (sent ++ io.sentBytes)
      (received ++ io.receivedBytes) (current ++ [io]) where
  made := progress.made
  connected := by rw [List.any_append, progress.connected, Bool.true_or]
  session := by
    rw [List.findSome?_append, progress.session, List.findSome?_singleton]
  sent := by simp [progress.sent]
  received := by simp [progress.received]

/-- What was received counts once the whole request was sent. -/
def raw (req sent received : Bytes) : Option Bytes := if sent = req then some received else none

theorem summary_eq (progress : Progress l uuid req session sent received current) :
    summary l uuid current = .random 16 uuid :: .connect l.client.host l.port true ::
      if l.https = false then
        [.plain l.client.host l.port l.command l.args req (raw req sent received)]
      else match session.join.join with
        | none => [.handshake l.client.host l.port session.join]
        | some peer =>
          if sent = [] then [.handshake l.client.host l.port session.join]
          else [.handshake l.client.host l.port session.join,
            .tlsWrite l.client.host l.port l.command l.args req peer,
            .tlsReply (raw req sent received)] := by
  obtain rfl := progress.made
  rw [summary, progress.connected, exchanged, progress.session, progress.sent, progress.received]
  rfl

theorem plain (progress : Progress l uuid req session sent received current)
    (bare : l.https = false) : Finished env l uuid current (replyBody (raw req sent received)) := by
  rw [Finished, progress.summary_eq, if_pos bare, bare]
  exact .plain uuid req _

theorem refused (progress : Progress l uuid req session [] received current)
    (tls : l.https = true) : Finished env l uuid current (some []) := by
  have short : summary l uuid current = [.random 16 uuid, .connect l.client.host l.port true,
      .handshake l.client.host l.port session.join] := by
    rw [progress.summary_eq, if_neg (by simp [tls])]
    cases session.join.join <;> rfl
  rw [Finished, short, tls]
  exact .refused uuid _

theorem request_nonempty (progress : Progress l uuid req session sent received current) :
    req ≠ [] := by
  obtain rfl := progress.made
  simp +decide [Engine.requestText]

/-- A session that the pinned certificate was shown on. -/
theorem pinned {peer : X509}
    (progress : Progress l uuid req (some (some (some peer))) sent received current)
    (tls : l.https = true) (pin : Engine.readPemCert env l.client.pinnedServerCert = some peer) :
    Finished env l uuid current (replyBody (raw req sent received)) := by
  by_cases unsent : sent = []
  · subst unsent
    have none : raw req [] received = none := if_neg progress.request_nonempty.symm
    rw [none]
    exact progress.refused tls
  · have written : summary l uuid current = [.random 16 uuid, .connect l.client.host l.port true,
        .handshake l.client.host l.port (some (some peer)),
        .tlsWrite l.client.host l.port l.command l.args req peer,
        .tlsReply (raw req sent received)] := by
      rw [progress.summary_eq, if_neg (by simp [tls])]
      simp [unsent]
    rw [Finished, written, tls]
    exact .written uuid req _ pin

end Progress

theorem unconnected_finished {refusals : List (Io X509)} (refuse : Refusals refusals) :
    Finished env l uuid refusals (some []) := by
  have never : refusals.any Io.isConnected = false := by
    rw [List.any_eq_false]
    intro io member
    rw [refuse io member]
    exact Bool.false_ne_true
  have events : summary l uuid refusals = [.random 16 uuid, .connect l.client.host l.port false] := by
    rw [summary, never]
    rfl
  rw [Finished, events]
  exact .unconnected _ uuid

/-- Up to its connection a request only tries addresses. -/
theorem tries_connect {refusals : List (Io X509)} (refuse : Refusals refusals) {io : Io X509}
    (member : io ∈ refusals ++ [Io.connect true]) : ∃ connected, io = .connect connected := by
  rcases List.mem_append.mp member with refusal | last
  · exact ⟨false, refuse io refusal⟩
  · exact ⟨true, List.mem_singleton.mp last⟩

theorem connected_progress {refusals : List (Io X509)} (refuse : Refusals refusals) :
    Progress l uuid (Engine.requestText l.client l.port l.command (uuidHex uuid) l.args) none [] []
      (refusals ++ [Io.connect true]) where
  made := rfl
  connected := by simp [Io.isConnected]
  session := by
    rw [List.findSome?_eq_none_iff]
    intro io member
    obtain ⟨_, rfl⟩ := tries_connect refuse member
    rfl
  sent := by
    rw [List.flatMap_eq_nil_iff]
    intro io member
    obtain ⟨_, rfl⟩ := tries_connect refuse member
    rfl
  received := by
    rw [List.flatMap_eq_nil_iff]
    intro io member
    obtain ⟨_, rfl⟩ := tries_connect refuse member
    rfl

theorem Begun.note (begun : Begun l req session sent received w) (io : Io X509)
    (quiet : io.isDraw = false) (log : w'.log = w.log ++ [io]) :
    Begun l req (session.or io.handshake?) (sent ++ io.sentBytes) (received ++ io.receivedBytes)
      w' := by
  obtain ⟨uuid, current, since, progress⟩ := begun
  refine ⟨uuid, current ++ [io], since.append ?_ log, progress.note io⟩
  rintro _ (_ | ⟨_, ⟨⟩⟩)
  exact quiet

theorem Begun.still (begun : Begun l req session sent received w) (log : w'.log = w.log) :
    Begun l req session sent received w' := by
  obtain ⟨uuid, current, since, progress⟩ := begun
  exact ⟨uuid, current, since.still log, progress⟩

theorem Begun.ends (begun : Begun l req session sent received w) {result : Option Bytes}
    (finishes : ∀ uuid current, Progress l uuid req session sent received current →
      Finished env l uuid current result) : Ends env l result w := by
  obtain ⟨uuid, current, since, progress⟩ := begun
  exact ⟨uuid, current, since, finishes uuid current progress⟩

theorem Ends.still {result : Option Bytes} (ends : Ends env l result w) (log : w'.log = w.log) :
    Ends env l result w' := by
  obtain ⟨uuid, current, since, finished⟩ := ends
  exact ⟨uuid, current, since.still log, finished⟩

/-! ### Rounds -/

/-- A session that may be written to. -/
structure Pinned (env : Environment X509) (l : Locals) (sock ctx ssl : Ptr) (peer : X509)
    (w : World X509) : Prop where
  tls : l.https = true
  held : w.held = tlsHeld (some ssl) (some ctx) sock
  socketOf : w.socketOf ssl = some sock
  session : w.session ssl = some (some peer)
  pin : Engine.readPemCert env l.client.pinnedServerCert = some peer

/-- Where a round starts. -/
def Entry (env : Environment X509) : Method → World X509 → Prop
  | .request _, w => w.held = ∅
  | .sendAll l req sock sent, w => l.https = false ∧ w.held = {.socket sock} ∧
      Begun l req none (req.take sent) [] w
  | .recvAllPlain l req sock out, w => l.https = false ∧ w.held = {.socket sock} ∧
      Begun l req none req out w
  | .sendAllSsl l req sock ctx ssl sent, w => ∃ peer, Pinned env l sock ctx ssl peer w ∧
      Begun l req (some (some (some peer))) (req.take sent) [] w
  | .recvAllSsl l req sock ctx ssl out, w => ∃ peer, Pinned env l sock ctx ssl peer w ∧
      Begun l req (some (some (some peer))) req out w
  | .dechunking l, w => w.held = ∅ ∧ Ends env l none w

def outline (env : Environment X509) : Outline (requester env) where
  allowed := Allowed env
  guarantee _ _ _ := True
  entry := Entry env
  follows m n := n.locals = m.locals
  rests _ w := w.held = ∅
  post m r w := Ends env m.locals (some r) w

/-- A request ends with the body of what was received, or goes on with its chunks for ever. -/
theorem reply_ends {raw : Bytes} (free : w.held = ∅) (own : m.locals = l)
    (ends : Ends env l (replyBody (some raw)) w) : (outline env).ends m (reply l raw) w := by
  subst own
  rw [replyBody, Option.getD_some] at ends
  rw [reply]
  cases decoded : parseHttpResponse raw with
  | none =>
    rw [decoded] at ends
    exact ⟨⟨free, ends⟩, rfl⟩
  | some resp =>
    rw [decoded] at ends
    exact ⟨free, ends⟩

theorem reply_nothing (free : w.held = ∅) (own : m.locals = l) (ends : Ends env l (some []) w) :
    (outline env).ends m (reply l []) w := reply_ends free own ends

/-- A bare socket is closed, and nothing is held. -/
theorem safely_closeSocket {sock : Ptr} (held : w.held = {.socket sock}) :
    Safely env m (fun _ w' => w'.held = ∅ ∧ w'.log = w.log) (access (.closeSocket sock)) w := by
  refine alone_request ⟨⟨?_, fun s there => ?_⟩, trivial⟩ fun _ w' dropped => ?_
  · rw [held]
    rfl
  · rw [held] at there
    exact nomatch there
  · obtain rfl : w' = w.drop (.socket sock) := dropped
    refine ⟨?_, rfl⟩
    rw [World.drop_held, held]
    exact Set.sdiff_self ..

theorem tlsExchange_round {sock : Ptr} (own : m.locals = l) (tls : l.https = true)
    (held : w.held = {.socket sock}) (begun : Begun l req none [] [] w) :
    Safely env m ((outline env).ends m) (tlsExchange l req sock) w := by
  refine alone_call ⟨trivial, trivial⟩ fun ctx w₁ allocated => ?_
  cases ctx with
  | none =>
    obtain rfl : w₁ = w := allocated
    have closes : Safely env m (fun _ w' => w'.held = ∅ ∧ w'.log = w₁.log)
        (closeTls none none sock) w₁ := safely_closeTls held nofun
    refine alone_bind closes fun _ w₂ ⟨free, log⟩ => alone_done ?_
    exact reply_nothing free own ((begun.ends fun _ _ progress => progress.refused tls).still log)
  | some ctx =>
    obtain ⟨fresh, rfl⟩ := allocated
    have both : (w.hold (.ctx ctx)).held = insert (.ctx ctx) {.socket sock} := by
      rw [World.hold_held, held]
    have ctx_there : .ctx ctx ∈ (w.hold (.ctx ctx)).held := Set.mem_insert ..
    have sock_there : .socket sock ∈ (w.hold (.ctx ctx)).held := by
      rw [both]
      exact Set.mem_insert_of_mem _ rfl
    refine alone_bind (safely_establish ctx_there sock_there) fun result w₂ established => ?_
    obtain ⟨ssl, tlsOk⟩ := result
    have all : w₂.held = tlsHeld ssl (some ctx) sock := by
      rw [established.held, both]
      rfl
    have refused : Ends env l (some []) w₂ := by
      rcases established.log with same | ⟨peer, noted⟩
      · exact (begun.still same).ends fun _ _ progress => progress.refused tls
      · exact (begun.note (.handshake peer) rfl noted).ends fun _ _ progress => progress.refused tls
    have closes : Safely env m ((outline env).ends m)
        (closeTls ssl (some ctx) sock >>= fun _ => pure (reply l [])) w₂ := by
      refine alone_bind (safely_closeTls all established.socketOf) fun _ w₃ ⟨free, log⟩ => ?_
      exact alone_done (reply_nothing free own (refused.still log))
    cases ssl with
    | none => exact closes
    | some ssl =>
      cases tlsOk with
      | false => exact closes
      | true =>
        obtain ⟨_, peer, ⟨⟩, session, pin, noted⟩ := established.pinned rfl
        refine alone_done ⟨⟨peer, ⟨tls, all, established.socketOf ssl rfl, session, pin⟩, ?_⟩, own.symm⟩
        exact begun.note (.handshake (some (some peer))) rfl noted

theorem request_round (free : w.held = ∅) :
    Safely env (.request l) ((outline env).ends (.request l)) (request l) w := by
  refine alone_bind safely_randomUuidHex fun hex w₁ ⟨uuid, made, noted⟩ => ?_
  subst made noted
  have started : Since uuid [] (w.note (.random uuid)) := ⟨⟨w.log, rfl⟩, nofun⟩
  refine alone_bind (safely_tcpConnect free) fun sock w₂ tried => ?_
  obtain ⟨refusals, refuse, log⟩ := tried.log
  rw [List.append_assoc] at log
  have quiet : ∀ io ∈ refusals ++ [Io.connect true], io.isDraw = false := by
    intro io member
    obtain ⟨_, rfl⟩ := tries_connect refuse member
    rfl
  cases sock with
  | none =>
    have since : Since uuid refusals w₂ := by
      refine started.append (fun io member => quiet io (List.mem_append_left _ member)) ?_
      rw [log]
      exact congrArg _ (List.append_nil _)
    exact alone_done ⟨tried.held, uuid, refusals, since, unconnected_finished refuse⟩
  | some sock =>
    have begun : Begun l (Engine.requestText l.client l.port l.command (uuidHex uuid) l.args)
        none [] [] w₂ := ⟨uuid, _, started.append quiet log, connected_progress refuse⟩
    have only : w₂.held = {.socket sock} := tried.held.trans (insert_empty_eq ..)
    refine alone_ite (fun tls => ?_) fun bare => ?_
    · exact tlsExchange_round rfl tls only begun
    · exact alone_done ⟨⟨eq_false_of_ne_true bare, only, begun⟩, rfl⟩

/-! ### The loops -/

variable {sock ctx ssl : Ptr} {count : Nat} {out : Bytes} {peer : X509}

theorem raw_short (short : count < req.length) : Progress.raw req (req.take count) [] = none := by
  refine if_neg fun whole => ?_
  have length := congrArg List.length whole
  rw [List.length_take] at length
  omega

theorem drop_nonempty (short : count < req.length) : req.drop count ≠ [] := by
  rw [Ne, List.drop_eq_nil_iff]
  omega

/-- A write goes on where the last one stopped. -/
theorem Begun.wrote (begun : Begun l req session (req.take count) [] w) {n : Nat}
    (log : w'.log = w.log ++ [.sent ((req.drop count).take n)]) :
    Begun l req session (req.take (count + n)) [] w' := by
  have noted := begun.note (.sent ((req.drop count).take n)) rfl log
  rw [List.take_add]
  simpa [Io.handshake?, Io.sentBytes, Io.receivedBytes] using noted

theorem Begun.read (begun : Begun l req session req out w) {bytes : Bytes}
    (log : w'.log = w.log ++ [.received bytes]) : Begun l req session req (out ++ bytes) w' := by
  have noted := begun.note (.received bytes) rfl log
  simpa [Io.handshake?, Io.sentBytes, Io.receivedBytes] using noted

/-- The whole of it was sent. -/
theorem Begun.whole (begun : Begun l req session (req.take count) [] w)
    (all : ¬ count < req.length) : Begun l req session req [] w := by
  rw [List.take_of_length_le (by omega)] at begun
  exact begun

/-- Nothing counts as received before the whole request was sent. -/
theorem Begun.stopped (begun : Begun l req session (req.take count) [] w)
    (short : count < req.length)
    (finishes : ∀ uuid current sent received, Progress l uuid req session sent received current →
      Finished env l uuid current (replyBody (Progress.raw req sent received))) :
    Ends env l (some []) w := by
  refine begun.ends fun uuid current progress => ?_
  have finished := finishes uuid current _ _ progress
  rw [raw_short short] at finished
  exact finished

theorem Begun.answered (begun : Begun l req session req out w)
    (finishes : ∀ uuid current sent received, Progress l uuid req session sent received current →
      Finished env l uuid current (replyBody (Progress.raw req sent received))) :
    Ends env l (replyBody (some out)) w := by
  refine begun.ends fun uuid current progress => ?_
  have finished := finishes uuid current _ _ progress
  rw [Progress.raw, if_pos rfl] at finished
  exact finished

theorem sendAll_round (entry : Entry env (.sendAll l req sock count) w) :
    Safely env (.sendAll l req sock count) ((outline env).ends (.sendAll l req sock count))
      (body (.sendAll l req sock count)) w := by
  obtain ⟨bare, held, begun⟩ := entry
  have there : .socket sock ∈ w.held := by
    rw [held]
    rfl
  refine alone_ite (fun short => ?_) fun all => alone_done ⟨⟨bare, held, begun.whole all⟩, rfl⟩
  have permit : Permit env (.sendAll l req sock count) (.send sock (req.drop count)) w :=
    ⟨l, req, count, rfl, bare, rfl, begun⟩
  refine alone_call ⟨⟨there, drop_nonempty short⟩, permit⟩ fun n w₁ wrote => ?_
  refine alone_ite (fun failed => ?_) fun some => alone_done ?_
  · rw [effect, Writes, if_pos failed] at wrote
    subst wrote
    refine alone_bind (safely_closeSocket held) fun _ w₂ ⟨free, log⟩ => alone_done ?_
    have ends : Ends env l (some []) w₁ :=
      begun.stopped short fun _ _ _ _ progress => progress.plain bare
    exact reply_nothing free rfl (ends.still log)
  · rw [effect, Writes, if_neg some] at wrote
    obtain ⟨-, rfl⟩ := wrote
    exact ⟨⟨bare, held, begun.wrote rfl⟩, rfl⟩

theorem recvAllPlain_round (entry : Entry env (.recvAllPlain l req sock out) w) :
    Safely env (.recvAllPlain l req sock out) ((outline env).ends (.recvAllPlain l req sock out))
      (body (.recvAllPlain l req sock out)) w := by
  obtain ⟨bare, held, begun⟩ := entry
  have there : .socket sock ∈ w.held := by
    rw [held]
    rfl
  refine alone_call ⟨there, trivial⟩ fun bytes w₁ read => ?_
  cases bytes with
  | none =>
    obtain rfl : w₁ = w := read
    refine alone_bind (safely_closeSocket held) fun _ w₂ ⟨free, log⟩ => alone_done ?_
    have ends : Ends env l (replyBody (some out)) w₁ :=
      begun.answered fun _ _ _ _ progress => progress.plain bare
    exact reply_ends free rfl (ends.still log)
  | some bytes =>
    obtain ⟨-, -, rfl⟩ := read
    exact alone_done ⟨⟨bare, held, begun.read rfl⟩, rfl⟩

namespace Pinned

theorem there (pinned : Pinned env l sock ctx ssl peer w) :
    .ssl ssl ∈ w.held ∧ Connected ssl w ∧ w.session ssl ≠ none := by
  refine ⟨?_, ⟨sock, pinned.socketOf, ?_⟩, by simp [pinned.session]⟩
  · rw [pinned.held]
    exact Set.mem_insert ..
  · rw [pinned.held]
    exact mem_withHandle (mem_withHandle rfl)

theorem note (pinned : Pinned env l sock ctx ssl peer w) (io : Io X509) :
    Pinned env l sock ctx ssl peer (w.note io) :=
  ⟨pinned.tls, pinned.held, pinned.socketOf, pinned.session, pinned.pin⟩

theorem closes (pinned : Pinned env l sock ctx ssl peer w) :
    Safely env m (fun _ w' => w'.held = ∅ ∧ w'.log = w.log)
      (closeTls (some ssl) (some ctx) sock) w := by
  refine safely_closeTls pinned.held ?_
  rintro _ ⟨⟩
  exact pinned.socketOf

theorem finishes (pinned : Pinned env l sock ctx ssl peer w) (uuid : Option Bytes)
    (current : List (Io X509)) (sent received : Bytes)
    (progress : Progress l uuid req (some (some (some peer))) sent received current) :
    Finished env l uuid current (replyBody (Progress.raw req sent received)) :=
  progress.pinned pinned.tls pinned.pin

end Pinned

theorem sendAllSsl_round (entry : Entry env (.sendAllSsl l req sock ctx ssl count) w) :
    Safely env (.sendAllSsl l req sock ctx ssl count)
      ((outline env).ends (.sendAllSsl l req sock ctx ssl count))
      (body (.sendAllSsl l req sock ctx ssl count)) w := by
  obtain ⟨peer, pinned, begun⟩ := entry
  obtain ⟨there, connected, shaken⟩ := pinned.there
  refine alone_ite (fun short => ?_) fun all => alone_done ⟨⟨peer, pinned, begun.whole all⟩, rfl⟩
  have permit : Permit env (.sendAllSsl l req sock ctx ssl count) (.sslWrite ssl (req.drop count)) w :=
    ⟨l, req, sock, ctx, count, peer, rfl, rfl, begun, pinned.session, pinned.pin⟩
  refine alone_call ⟨⟨there, connected, shaken, drop_nonempty short⟩, permit⟩ fun n w₁ wrote => ?_
  refine alone_ite (fun failed => ?_) fun some => alone_done ?_
  · rw [effect, Writes, if_pos failed] at wrote
    subst wrote
    refine alone_bind pinned.closes fun _ w₂ ⟨free, log⟩ => alone_done ?_
    exact reply_nothing free rfl ((begun.stopped short pinned.finishes).still log)
  · rw [effect, Writes, if_neg some] at wrote
    obtain ⟨-, rfl⟩ := wrote
    exact ⟨⟨peer, pinned.note _, begun.wrote rfl⟩, rfl⟩

theorem recvAllSsl_round (entry : Entry env (.recvAllSsl l req sock ctx ssl out) w) :
    Safely env (.recvAllSsl l req sock ctx ssl out)
      ((outline env).ends (.recvAllSsl l req sock ctx ssl out))
      (body (.recvAllSsl l req sock ctx ssl out)) w := by
  obtain ⟨peer, pinned, begun⟩ := entry
  refine alone_call ⟨pinned.there, trivial⟩ fun bytes w₁ read => ?_
  cases bytes with
  | none =>
    obtain rfl : w₁ = w := read
    refine alone_bind pinned.closes fun _ w₂ ⟨free, log⟩ => alone_done ?_
    exact reply_ends free rfl ((begun.answered pinned.finishes).still log)
  | some bytes =>
    obtain ⟨-, -, rfl⟩ := read
    exact alone_done ⟨⟨peer, pinned.note _, begun.read rfl⟩, rfl⟩

theorem verified : (outline env).Verified where
  enters m w rests ready := by
    cases m with
    | request => exact rests
    | _ => exact ready.elim
  rounds m w entry := by
    refine (outline env).round_alone (fun _ => id) ?_
    cases m with
    | request l => exact request_round entry
    | sendAll => exact sendAll_round entry
    | recvAllPlain => exact recvAllPlain_round entry
    | sendAllSsl => exact sendAllSsl_round entry
    | recvAllSsl => exact recvAllSsl_round entry
    | dechunking l => exact alone_done ⟨entry, rfl⟩
  follows _ _ _ := ⟨rfl, fun _ => id⟩
  keeps _ _ _ _ _ _ _ := trivial
  stable _ _ other := absurd rfl other

/-! ### Whole runs -/

def World.fresh : World X509 := ⟨∅, fun _ => [], fun _ => none, fun _ => none, fun _ => none, []⟩

@[simp] theorem World.fresh_held : (World.fresh : World X509).held = ∅ := rfl

abbrev State (X509 : Type) := System Unit (World X509) Call Call.Answer Method Bytes
abbrev Move := Label Unit Call Call.Answer Method Bytes

/-- One request after another, from the start of the engine. -/
abbrev RunsTo (env : Environment X509) (labels : List Move) (s : State X509) : Prop :=
  Run (Threads.Step (requester env)) (System.fresh World.fresh) labels s

variable {labels : List Move} {s : State X509}

theorem rests_fresh (t : Unit) : (outline env).rests t World.fresh := World.fresh_held

theorem runs_sound (run : RunsTo env labels s) : (outline env).Sound s :=
  Outline.Sound.run verified rests_fresh run

/-- What is about to be written is the rest of the request, after what was written since it began. -/
def Continues (l : Locals) (data : Bytes) (w : World X509) : Prop :=
  ∃ uuid current, Since uuid current w ∧ current.flatMap Io.sentBytes ++ data =
    Engine.requestText l.client l.port l.command (uuidHex uuid) l.args

theorem Begun.continues (begun : Begun l req session (req.take count) [] w) :
    Continues l (req.drop count) w := by
  obtain ⟨uuid, current, since, progress⟩ := begun
  refine ⟨uuid, current, since, ?_⟩
  rw [progress.sent, List.take_append_drop]
  exact progress.made

/-- A request over TLS, with a client certificate and a pinned one. -/
def appList : Locals where
  client := ⟨[49], 47989, 47984, ⟨[120], [121]⟩, [122], [99]⟩
  https := true
  port := 47984
  command := ascii "applist"
  args := []
  timeoutMs := 5000

/-- Every call succeeds, and the peer shows the pinned certificate. -/
theorem appList_established : ∃ w req, req ≠ [] ∧
    Evaluates (effect idleHost) (request appList) World.fresh
      (.again (.sendAllSsl appList req 0 0 0 0)) w := by
  apply Exists.intro
  apply Exists.intro
  constructor
  rotate_left
  · apply answers (some ⟨List.replicate 16 7, rfl⟩) rfl
    apply answers (some (0, [0])) ⟨by simp, rfl⟩
    apply answers (some 0) ⟨by simp, rfl⟩
    apply answers true rfl
    apply answers () rfl
    apply answers () rfl
    apply answers () rfl
    apply answers (some 0) ⟨by simp, rfl⟩
    apply answers (some 0) ⟨by simp, rfl⟩
    apply answers (some 0) ⟨fun _ => rfl, by simp, rfl⟩
    apply answers () rfl
    apply answers (some 0) ⟨by simp, rfl⟩
    apply answers (some 0) ⟨by simp, rfl⟩
    apply answers () rfl
    apply answers () rfl
    apply answers () rfl
    apply answers () rfl
    apply answers (some 0) ⟨by simp, rfl⟩
    apply answers () rfl
    apply answers true ⟨some (), rfl⟩
    apply answers (some 1) ⟨rfl, by simp, rfl⟩
    apply answers (some 0) ⟨by simp, rfl⟩
    apply answers (some 2) ⟨fun _ => rfl, by simp, rfl⟩
    apply answers () rfl
    apply answers true ⟨by simp; rfl, rfl⟩
    apply answers () rfl
    apply answers () rfl
    apply answers () rfl
    apply answers () rfl
    apply Evaluates.done
  · simp +decide

theorem body_sendAllSsl (short : count < req.length) : ∃ next,
    body (.sendAllSsl l req sock ctx ssl count) = .call (.sslWrite ssl (req.drop count)) next := by
  rw [body, if_pos short]
  exact ⟨_, rfl⟩

/-- The whole request is written at once. -/
theorem writes_whole (some : req ≠ []) :
    Evaluates (effect env) (body (.sendAllSsl l req sock ctx ssl 0)) w
      (.again (.sendAllSsl l req sock ctx ssl (0 + req.length))) (w.note (.sent req)) := by
  have short : 0 < req.length := List.length_pos_iff.mpr some
  have positive : ¬ (req.length : Int) ≤ 0 := by omega
  rw [body, if_pos short]
  have wrote : effect env (.sslWrite ssl (req.drop 0)) w (req.length : Int) (w.note (.sent req)) := by
    rw [effect, Writes, if_neg positive]
    simp
  apply answers (req.length : Int) wrote
  rw [Program.bind, if_neg positive]
  exact .done

theorem reads_next (all : ¬ count < req.length) :
    Evaluates (effect env) (body (.sendAllSsl l req sock ctx ssl count)) w
      (.again (.recvAllSsl l req sock ctx ssl [])) w := by
  rw [body, if_neg all]
  exact .done

theorem appList_completes : ∃ w,
    Completes (requester idleHost) () (.request appList) World.fresh [104, 105] w := by
  obtain ⟨w₁, req, some, requests⟩ := appList_established
  apply Exists.intro
  apply Completes.again requests
  apply Completes.again (writes_whole some)
  apply Completes.again (reads_next (by omega))
  apply Completes.again
  · apply answers (Option.some (ascii "HTTP/1.1 200 OK\r\n\r\nhi")) ⟨by decide, by decide, rfl⟩
    apply Evaluates.done
  apply Completes.result
  apply answers none rfl
  apply answers () rfl
  apply answers () rfl
  apply answers () rfl
  apply answers () rfl
  apply Evaluates.done

/-- The request is at its first write. -/
theorem appList_writing : ∃ labels s req next, RunsTo idleHost labels s ∧ req ≠ [] ∧
    s.activity () = .inside (.sendAllSsl appList req 0 0 0 0) (.call (.sslWrite 0 req) next) := by
  obtain ⟨w, req, some, requests⟩ := appList_established
  have writes : ∃ next,
      body (.sendAllSsl appList req 0 0 0 0) = .call (.sslWrite 0 (req.drop 0)) next :=
    body_sendAllSsl (List.length_pos_iff.mpr some)
  have round : ∃ labels, Run (Threads.Step (requester idleHost)) _ labels _ :=
    advances_run (s := .fresh World.fresh) (t := ()) (m := .request appList)
      (evaluates_advances requests)
  obtain ⟨next, writes⟩ := writes
  obtain ⟨labels, round⟩ := round
  have invoked : RunsTo idleHost _ _ := .next .start (.invoke (.request appList) rfl nofun trivial)
  have again := Run.next (Run.append invoked round) (.again System.turn_self)
  rw [System.turn_turn] at again
  exact ⟨_, _, req, next, again, some, System.turn_self.trans (congrArg _ writes)⟩

/-- Whatever the resolver, the socket and OpenSSL answer, a call is made only where it may be, and
when a request has returned nothing is left of it: no socket, no session and nothing that was read
from a PEM. -/
theorem every_request_call_legal (run : RunsTo env labels s) :
    (∀ m c next, s.activity () = .inside m (.call c next) → Legal c s.world) ∧
      (s.activity () = .idle → s.world.held = ∅) := by
  have sound := runs_sound run
  exact ⟨fun _ _ _ here => (sound.allowed here).1, sound.idle ()⟩

/-- Where the request is written. -/
theorem every_request_call_legal_writing : ∃ labels s req next, RunsTo idleHost labels s ∧ req ≠ [] ∧
    s.activity () = .inside (.sendAllSsl appList req 0 0 0 0) (.call (.sslWrite 0 req) next) ∧
      Legal (.sslWrite 0 req) s.world := by
  obtain ⟨labels, s, req, next, run, some, here⟩ := appList_writing
  exact ⟨labels, s, req, next, run, some, here, (every_request_call_legal run).1 _ _ _ here⟩

/-- A request is written in order and once, to a TLS session only when its peer has shown the
certificate that is pinned, and to the bare socket only when TLS was not asked for. -/
theorem request_written_to_pinned (run : RunsTo env labels s) :
    (∀ m ssl data next, s.activity () = .inside m (.call (.sslWrite ssl data) next) →
      ∃ peer, s.world.session ssl = some (some peer) ∧
        Engine.readPemCert env m.locals.client.pinnedServerCert = some peer ∧
        Continues m.locals data s.world) ∧
    (∀ m sock data next, s.activity () = .inside m (.call (.send sock data) next) →
      m.locals.https = false ∧ Continues m.locals data s.world) := by
  have sound := runs_sound run
  constructor
  · intro m ssl data next here
    obtain ⟨l, req, sock, ctx, count, peer, rfl, rfl, begun, session, pin⟩ := (sound.allowed here).2
    exact ⟨peer, session, pin, begun.continues⟩
  · intro m sock data next here
    obtain ⟨l, req, count, rfl, bare, rfl, begun⟩ := (sound.allowed here).2
    exact ⟨bare, begun.continues⟩

theorem request_written_to_pinned_one : ∃ labels s req next, RunsTo idleHost labels s ∧ req ≠ [] ∧
    s.activity () = .inside (.sendAllSsl appList req 0 0 0 0) (.call (.sslWrite 0 req) next) ∧
      s.world.session 0 = some (some ()) ∧ Continues appList req s.world := by
  obtain ⟨labels, s, req, next, run, some, here⟩ := appList_writing
  obtain ⟨_, session, -, continues⟩ := (request_written_to_pinned run).1 _ _ _ _ here
  exact ⟨labels, s, req, next, run, some, here, session, continues⟩

/-- A request that returns has done for the engine what its account of a request allows, with the
result that it has there. One that goes on with its chunks for ever has none there. -/
theorem requests_refine (run : RunsTo env labels s) :
    (∀ m r s', Threads.Step (requester env) s (.returned m r) s' →
      Ends env m.locals (some r) s'.world) ∧
    (∀ l s', Threads.Step (requester env) s (.again (.dechunking l)) s' →
      Ends env l none s'.world) := by
  have sound := runs_sound run
  constructor
  · intro m r s' step
    cases step with
    | returned here => exact sound.post here
  · intro l s' step
    cases step with
    | again here =>
      obtain ⟨entry, -⟩ := (sound.inside _ _ _ here).2 s.world .refl
      exact entry.2

/-- The request returns the body of its reply. -/
theorem requests_refine_one : ∃ labels m s s', RunsTo idleHost labels s ∧
    Threads.Step (requester idleHost) s (.returned m [104, 105]) s' ∧
      Ends idleHost m.locals (some [104, 105]) s'.world := by
  obtain ⟨w, completes⟩ := appList_completes
  obtain ⟨labels, m, s, s', run, -, step⟩ :=
    completing_run (Method.request appList) (.start : RunsTo idleHost _ _) trivial completes
  exact ⟨labels, m, s, s', run, step, (requests_refine run).1 _ _ _ step⟩

end HttpRequest
end StreamEngine.Client
