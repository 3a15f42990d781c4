import StreamEngine.Client.HttpRequest
import StreamEngine.Client.EngineProofs

/-! What the parts of a request hold, in the order of the source: each takes what it needs and gives
it back on every path but the one that hands it on. -/
namespace StreamEngine.Client
namespace HttpRequest
open ByteString Decimal Net Interaction Threads

variable {X509 : Type} {env : Environment X509} {m : Method} {w w' w'' : World X509}

/-- The socket of a TLS session is open. -/
def Connected (ssl : Ptr) (w : World X509) : Prop :=
  ∃ fd, w.socketOf ssl = some fd ∧ .socket fd ∈ w.held

/-- Where a call may be made: what it is given is held, a session is used while its socket is open
and, to read and write, after its handshake, and nothing is written that is empty. -/
def Legal : Call → World X509 → Prop
  | .randBytes, _ | .getaddrinfo .., _ | .socket _, _ | .sslCtxNew, _ => True
  | .bioNew text, _ => text ≠ []
  | .connect fd _, w | .recv fd, w => .socket fd ∈ w.held
  | .closeSocket fd, w => .socket fd ∈ w.held ∧ ∀ s, .ssl s ∈ w.held → w.socketOf s ≠ some fd
  | .freeaddrinfo res, w => .addrinfo res ∈ w.held
  | .setTimeout fd _ seconds microseconds, w =>
    .socket fd ∈ w.held ∧ 0 ≤ seconds ∧ 0 ≤ microseconds ∧ microseconds < 1000000
  | .send fd data, w => .socket fd ∈ w.held ∧ data ≠ []
  | .pemReadX509 bio, w | .pemReadPrivateKey bio, w | .bioFree bio, w => .bio bio ∈ w.held
  | .useCertificate ctx cert, w => .ctx ctx ∈ w.held ∧ .x509 cert ∈ w.held
  | .usePrivateKey ctx key, w => .ctx ctx ∈ w.held ∧ .key key ∈ w.held
  | .setVerifyNone ctx, w | .sslNew ctx, w | .ctxFree ctx, w => .ctx ctx ∈ w.held
  | .setFd ssl fd, w => .ssl ssl ∈ w.held ∧ .socket fd ∈ w.held
  | .sslConnect ssl, w | .sslShutdown ssl, w => .ssl ssl ∈ w.held ∧ Connected ssl w
  | .getPeerCertificate ssl, w => .ssl ssl ∈ w.held ∧ w.session ssl ≠ none
  | .x509Cmp a b, w => .x509 a ∈ w.held ∧ .x509 b ∈ w.held
  | .x509Free cert, w => .x509 cert ∈ w.held
  | .keyFree key, w => .key key ∈ w.held
  | .sslWrite ssl data, w =>
    .ssl ssl ∈ w.held ∧ Connected ssl w ∧ w.session ssl ≠ none ∧ data ≠ []
  | .sslRead ssl, w => .ssl ssl ∈ w.held ∧ Connected ssl w ∧ w.session ssl ≠ none
  | .sslFree ssl, w => .ssl ssl ∈ w.held

/-! ### What a request is for the engine -/

namespace Io

def isDraw : Io X509 → Bool
  | .random _ => true
  | _ => false

def isConnected : Io X509 → Bool
  | .connect connected => connected
  | _ => false

def handshake? : Io X509 → Option (Option (Option X509))
  | .handshake peer => some peer
  | _ => none

def sentBytes : Io X509 → Bytes
  | .sent bytes => bytes
  | _ => []

def receivedBytes : Io X509 → Bytes
  | .received bytes => bytes
  | _ => []

end Io

/-- The hexadecimal digits of the drawn bytes, zeros if there are none. -/
def uuidHex (uuid : Option Bytes) : Bytes :=
  match uuid with
  | none => ascii "00000000000000000000000000000000"
  | some bytes => toHex bytes

/-- The events of a request over a connection: a session that nothing was written to is one that was
refused, and a reply is what was received after the whole request was sent. -/
def exchanged (l : Locals) (uuid : Option Bytes) (current : List (Io X509)) : List (Event X509) :=
  let req := Engine.requestText l.client l.port l.command (uuidHex uuid) l.args
  let sent := current.flatMap Io.sentBytes
  let raw := if sent = req then some (current.flatMap Io.receivedBytes) else none
  if l.https = false then [.plain l.client.host l.port l.command l.args req raw]
  else
    let session := (current.findSome? Io.handshake?).join
    match session.join with
    | none => [.handshake l.client.host l.port session]
    | some peer =>
      if sent = [] then [.handshake l.client.host l.port session]
      else [.handshake l.client.host l.port session,
        .tlsWrite l.client.host l.port l.command l.args req peer, .tlsReply raw]

/-- The events of a request, of all that it did after it drew its bytes. -/
def summary (l : Locals) (uuid : Option Bytes) (current : List (Io X509)) : List (Event X509) :=
  .random 16 uuid ::
    if current.any Io.isConnected then
      .connect l.client.host l.port true :: exchanged l uuid current
    else [.connect l.client.host l.port false]

/-- The request does for the engine what one may. -/
def Finished (env : Environment X509) (l : Locals) (uuid : Option Bytes) (current : List (Io X509))
    (result : Option Bytes) : Prop :=
  Requested env l.client l.port l.command l.args l.https (summary l uuid current) result

/-- What was done since bytes were last drawn, which is the first thing that a request does. -/
def Since (uuid : Option Bytes) (current : List (Io X509)) (w : World X509) : Prop :=
  (∃ earlier, w.log = earlier ++ .random uuid :: current) ∧ ∀ io ∈ current, io.isDraw = false

/-- The last request has this result, or none if it will never return. -/
def Ends (env : Environment X509) (l : Locals) (result : Option Bytes) (w : World X509) : Prop :=
  ∃ uuid current, Since uuid current w ∧ Finished env l uuid current result

/-- A request is connected, and has come so far. -/
structure Progress (l : Locals) (uuid : Option Bytes) (req : Bytes)
    (session : Option (Option (Option X509))) (sent received : Bytes)
    (current : List (Io X509)) : Prop where
  made : req = Engine.requestText l.client l.port l.command (uuidHex uuid) l.args
  connected : current.any Io.isConnected = true
  session : current.findSome? Io.handshake? = session
  sent : current.flatMap Io.sentBytes = sent
  received : current.flatMap Io.receivedBytes = received

def Begun (l : Locals) (req : Bytes) (session : Option (Option (Option X509)))
    (sent received : Bytes) (w : World X509) : Prop :=
  ∃ uuid current, Since uuid current w ∧ Progress l uuid req session sent received current

/-- Where the request may be written, the rest of it after what was sent: to the bare socket only when
TLS was not asked for, and to a session only when its peer has shown the pinned certificate. -/
def Permit (env : Environment X509) (m : Method) : Call → World X509 → Prop
  | .send sock data, w => ∃ l req sent, m = .sendAll l req sock sent ∧ l.https = false ∧
      data = req.drop sent ∧ Begun l req none (req.take sent) [] w
  | .sslWrite ssl data, w => ∃ l req sock ctx sent peer, m = .sendAllSsl l req sock ctx ssl sent ∧
      data = req.drop sent ∧ Begun l req (some (some (some peer))) (req.take sent) [] w ∧
      w.session ssl = some (some peer) ∧
      Engine.readPemCert env l.client.pinnedServerCert = some peer
  | _, _ => True

def Allowed (env : Environment X509) (m : Method) (c : Call) (w : World X509) : Prop :=
  Legal c w ∧ Permit env m c w

abbrev Safely {α : Type} (env : Environment X509) (m : Method) (post : α → World X509 → Prop)
    (p : Code α) (w : World X509) : Prop := Alone (effect env) (Allowed env m) post p w

/-! ### What is held -/

/-- One handle more, unless it is null. -/
def withHandle (r : Ptr → Resource) (handle : Option Ptr) (held : Set Resource) : Set Resource :=
  match handle with
  | none => held
  | some p => insert (r p) held

def withoutHandle (r : Ptr → Resource) (handle : Option Ptr) (held : Set Resource) : Set Resource :=
  match handle with
  | none => held
  | some p => held \ {r p}

theorem mem_withHandle {r : Ptr → Resource} {handle : Option Ptr} {held : Set Resource}
    {x : Resource} (there : x ∈ held) : x ∈ withHandle r handle held := by
  cases handle with
  | none => exact there
  | some p => exact Set.mem_insert_of_mem _ there

theorem withoutHandle_withHandle {r : Ptr → Resource} {handle : Option Ptr} {held : Set Resource}
    (fresh : ∀ p, handle = some p → r p ∉ held) :
    withoutHandle r handle (withHandle r handle held) = held := by
  cases handle with
  | none => rfl
  | some p => exact Set.insert_sdiff_self_of_notMem (fresh p rfl)

theorem withoutHandle_comm {r r' : Ptr → Resource} {handle handle' : Option Ptr} {held : Set Resource}
    (apart : ∀ p q, handle = some p → handle' = some q → r p ≠ r' q) :
    withoutHandle r handle (withHandle r' handle' held) =
      withHandle r' handle' (withoutHandle r handle held) := by
  cases handle with
  | none => rfl
  | some p =>
    cases handle' with
    | none => rfl
    | some q =>
      have other : r' q ∉ ({r p} : Set Resource) := fun same => apart p q rfl rfl same.symm
      exact Set.insert_sdiff_of_notMem _ other

/-- Handles of different kinds. -/
theorem withoutHandle_other (r r' : Ptr → Resource) {handle handle' : Option Ptr}
    {held : Set Resource} (apart : ∀ p q, r p = r' q → False) :
    withoutHandle r handle (withHandle r' handle' held) =
      withHandle r' handle' (withoutHandle r handle held) :=
  withoutHandle_comm fun p q _ _ => apart p q

/-- What a part of the request does to nothing that it was not given. -/
structure Same (w w' : World X509) : Prop where
  log : w'.log = w.log
  cert : ∀ p, .x509 p ∈ w.held → w'.cert p = w.cert p
  socketOf : ∀ s, .ssl s ∈ w.held → w'.socketOf s = w.socketOf s
  session : ∀ s, .ssl s ∈ w.held → w'.session s = w.session s

theorem Same.refl (w : World X509) : Same w w := ⟨rfl, fun _ _ => rfl, fun _ _ => rfl, fun _ _ => rfl⟩

theorem Same.trans (first : Same w w') (kept : w.held ⊆ w'.held) (second : Same w' w'') :
    Same w w'' where
  log := second.log.trans first.log
  cert p there := (second.cert p (kept there)).trans (first.cert p there)
  socketOf s there := (second.socketOf s (kept there)).trans (first.socketOf s there)
  session s there := (second.session s (kept there)).trans (first.session s there)

theorem Same.drop (same : Same w w') (r : Resource) : Same w (w'.drop r) :=
  ⟨same.log, same.cert, same.socketOf, same.session⟩

/-- A handle was made, or null. -/
structure Got (r : Ptr → Resource) (known : Option X509 → Prop) (w : World X509)
    (handle : Option Ptr) (w' : World X509) : Prop where
  same : Same w w'
  fresh : ∀ p, handle = some p → r p ∉ w.held
  held : w'.held = withHandle r handle w.held
  known : ∀ p, handle = some p → known (w'.cert p)

namespace Got
variable {r : Ptr → Resource} {known : Option X509 → Prop} {handle : Option Ptr}

theorem kept (got : Got r known w handle w') : w.held ⊆ w'.held := by
  rw [got.held]
  exact fun _ there => mem_withHandle there

theorem there (got : Got r known w handle w') {p : Ptr} (some : handle = .some p) : r p ∈ w'.held := by
  rw [got.held, some]
  exact Set.mem_insert ..

theorem of_allocates {made : Ptr → World X509} (allocated : Allocates r w handle made w')
    (same : ∀ p, r p ∉ w.held → Same w (made p)) (held : ∀ p, (made p).held = w.held)
    (knows : ∀ p, handle = some p → known ((made p).cert p)) : Got r known w handle w' := by
  cases handle with
  | none =>
    obtain rfl : w' = w := allocated
    exact ⟨.refl _, nofun, rfl, nofun⟩
  | some p =>
    obtain ⟨fresh, rfl⟩ := allocated
    have before := same p fresh
    refine ⟨⟨before.log, before.cert, before.socketOf, before.session⟩, ?_, ?_, ?_⟩
    · rintro q ⟨⟩
      exact fresh
    · rw [World.hold_held, held]
      rfl
    · rintro q ⟨⟩
      exact knows p rfl

end Got

/-! ### Certificates -/

/-- What a reader makes of a memory BIO. -/
def Reader (env : Environment X509) (m : Method) (reader : Ptr → Code (Option Ptr))
    (r : Ptr → Resource) (known : Bytes → Option X509 → Prop) : Prop :=
  ∀ bio (w : World X509), .bio bio ∈ w.held →
    Safely env m (Got r (known (w.text bio)) w) (reader bio) w

theorem reader_x509 : Reader env m (fun bio => access (.pemReadX509 bio)) .x509
    (fun text cert => cert = env.pemReadX509 text ∧ cert.isSome) := by
  intro bio w there
  refine alone_request ⟨there, trivial⟩ fun answer w' ⟨read, allocated⟩ => ?_
  refine Got.of_allocates allocated (fun p fresh => ⟨rfl, ?_, fun _ _ => rfl, fun _ _ => rfl⟩)
    (fun _ => rfl) ?_
  · intro q held
    have other : q ≠ p := by
      rintro rfl
      exact fresh held
    exact Function.update_of_ne other ..
  · rintro p rfl
    dsimp only
    rw [Function.update_self]
    exact ⟨rfl, read rfl⟩

theorem reader_key : Reader env m (fun bio => access (.pemReadPrivateKey bio)) .key
    (fun _ (_ : Option X509) => True) := by
  intro bio w there
  refine alone_request ⟨there, trivial⟩ fun answer w' allocated => ?_
  exact Got.of_allocates allocated (fun _ _ => .refl w) (fun _ => rfl) fun _ _ => trivial

/-- The BIO is gone again when the handle is there. -/
theorem safely_readPem {reader : Ptr → Code (Option Ptr)} {r : Ptr → Resource}
    {known : Bytes → Option X509 → Prop} (reads : Reader env m reader r known)
    (apart : ∀ p q, r p ≠ .bio q) (pem : Bytes) (w : World X509) :
    Safely env m (Got r (fun cert => pem ≠ [] ∧ known pem cert) w) (readPem reader pem) w := by
  refine alone_ite (fun _ => alone_done ⟨.refl w, nofun, rfl, nofun⟩) fun some => ?_
  refine alone_call ⟨some, trivial⟩ fun bio w₁ allocated => ?_
  have made : Got .bio (fun _ => True) w bio w₁ :=
    Got.of_allocates allocated (fun _ _ => ⟨rfl, fun _ _ => rfl, fun _ _ => rfl, fun _ _ => rfl⟩)
      (fun _ => rfl) fun _ _ => trivial
  cases bio with
  | none => exact alone_done ⟨made.same, nofun, made.held, nofun⟩
  | some bio =>
    have text : w₁.text bio = pem := by
      obtain ⟨-, rfl⟩ := allocated
      exact Function.update_self ..
    refine alone_bind (reads bio w₁ (made.there rfl)) fun handle w₂ got => ?_
    have still : .bio bio ∈ w₂.held := got.kept (made.there rfl)
    refine alone_call ⟨still, trivial⟩ fun _ w₃ dropped => alone_done ?_
    obtain rfl : w₃ = w₂.drop (.bio bio) := dropped
    refine ⟨(made.same.trans made.kept got.same).drop _, ?_, ?_, ?_⟩
    · intro p there before
      exact got.fresh p there (made.kept before)
    · have freed : w₂.held \ {.bio bio} = withHandle r handle w.held := by
        rw [got.held, made.held]
        have back : withoutHandle .bio (Option.some bio)
            (withHandle r handle (withHandle .bio (Option.some bio) w.held)) =
            withHandle r handle w.held := by
          rw [withoutHandle_comm fun p q _ _ => (apart q p).symm, withoutHandle_withHandle made.fresh]
        exact back
      exact freed
    · intro p there
      have value := got.known p there
      rw [text] at value
      exact ⟨some, value⟩

theorem safely_readPemCert (pem : Bytes) (w : World X509) :
    Safely env m (Got .x509 (fun cert => cert = Engine.readPemCert env pem ∧ cert.isSome) w)
      (readPemCert pem) w := by
  refine safe_weaken ?_ (safely_readPem reader_x509 (fun _ _ => nofun) pem w)
  intro handle w' got
  refine ⟨got.same, got.fresh, got.held, fun p there => ?_⟩
  obtain ⟨some, value, valid⟩ := got.known p there
  rw [Engine.readPemCert, if_neg some]
  exact ⟨value, valid⟩

theorem safely_readPemKey (pem : Bytes) (w : World X509) :
    Safely env m (Got .key (fun _ => True) w) (readPemKey pem) w := by
  refine safe_weaken ?_ (safely_readPem reader_key (fun _ _ => nofun) pem w)
  exact fun handle w' got => ⟨got.same, got.fresh, got.held, fun _ _ => trivial⟩

/-- A handle is given back, unless it is null. -/
theorem safely_free {r : Ptr → Resource} {handle : Option Ptr} {free : Ptr → Code Unit}
    (frees : ∀ p, handle = some p → Safely env m (fun _ w' => w' = w.drop (r p)) (free p) w) :
    Safely env m (fun _ w' => Same w w' ∧ w'.held = withoutHandle r handle w.held)
      (ifThere handle free) w := by
  cases handle with
  | none => exact alone_done ⟨.refl w, rfl⟩
  | some p =>
    refine safe_weaken ?_ (frees p rfl)
    rintro _ w' rfl
    exact ⟨(Same.refl w).drop _, rfl⟩

theorem safely_freeCert {handle : Option Ptr} (there : ∀ p, handle = some p → .x509 p ∈ w.held) :
    Safely env m (fun _ w' => Same w w' ∧ w'.held = withoutHandle .x509 handle w.held)
      (ifThere handle fun p => access (.x509Free p)) w :=
  safely_free fun p some => alone_request ⟨there p some, trivial⟩ fun _ _ dropped => dropped

theorem safely_freeKey {handle : Option Ptr} (there : ∀ p, handle = some p → .key p ∈ w.held) :
    Safely env m (fun _ w' => Same w w' ∧ w'.held = withoutHandle .key handle w.held)
      (ifThere handle fun p => access (.keyFree p)) w :=
  safely_free fun p some => alone_request ⟨there p some, trivial⟩ fun _ _ dropped => dropped

theorem safely_sameCert {a b : Option Ptr} (there : ∀ p, a = some p → .x509 p ∈ w.held)
    (there' : ∀ p, b = some p → .x509 p ∈ w.held) :
    Safely env m (fun same w' => w' = w ∧
      (same = true → ∃ p q, a = some p ∧ b = some q ∧ w.cert p = w.cert q)) (sameCert a b) w := by
  cases a with
  | none => exact alone_done ⟨rfl, nofun⟩
  | some p =>
    cases b with
    | none => exact alone_done ⟨rfl, nofun⟩
    | some q =>
      refine alone_request ⟨⟨there p rfl, there' q rfl⟩, trivial⟩ ?_
      rintro same w' ⟨equal, rfl⟩
      exact ⟨rfl, fun holds => ⟨p, q, rfl, rfl, equal.mp holds⟩⟩

/-! ### The session -/

/-- The check holds only for a peer that has shown the pinned certificate, and it leaves nothing. -/
theorem safely_checkPin {ssl : Ptr} {pem : Bytes} (there : .ssl ssl ∈ w.held)
    (established : w.session ssl ≠ none) :
    Safely env m (fun ok w' => Same w w' ∧ w'.held = w.held ∧ (ok = true → ∃ peer,
        w.session ssl = some (some peer) ∧ Engine.readPemCert env pem = some peer))
      (checkPin ssl pem) w := by
  refine alone_call ⟨⟨there, established⟩, trivial⟩ fun peer w₁ ⟨shown, allocated⟩ => ?_
  have first : Got .x509 (· = (w.session ssl).join) w peer w₁ := by
    refine Got.of_allocates allocated
      (fun p fresh => ⟨rfl, fun q held => ?_, fun _ _ => rfl, fun _ _ => rfl⟩) (fun _ => rfl) ?_
    · have other : q ≠ p := by
        rintro rfl
        exact fresh held
      exact Function.update_of_ne other ..
    · intro p _
      exact Function.update_self ..
  refine alone_bind (safely_readPemCert pem w₁) fun pinned w₂ second => ?_
  have peer_there : ∀ p, peer = some p → .x509 p ∈ w₂.held :=
    fun p some => second.kept (first.there some)
  refine alone_bind (safely_sameCert peer_there fun p => second.there) fun ok w₂' ⟨same, equal⟩ => ?_
  subst same
  refine alone_bind (safely_freeCert peer_there) fun _ w₃ ⟨third, held₃⟩ => ?_
  have apart : ∀ p q, peer = some p → pinned = some q → (Resource.x509 p) ≠ .x509 q := by
    intro p q here other same
    exact second.fresh q other (same ▸ first.there here)
  have left : w₃.held = withHandle .x509 pinned w.held := by
    rw [held₃, second.held, first.held, withoutHandle_comm apart, withoutHandle_withHandle first.fresh]
  have pinned_there : ∀ p, pinned = some p → .x509 p ∈ w₃.held := by
    rintro p rfl
    rw [left]
    exact Set.mem_insert ..
  have sub : w.held ⊆ w₃.held := by
    rw [left]
    exact fun _ held => mem_withHandle held
  refine alone_bind (safely_freeCert pinned_there) fun _ w₄ ⟨fourth, held₄⟩ => alone_done ?_
  have upTo : Same w w₂' := first.same.trans first.kept second.same
  refine ⟨(upTo.trans (first.kept.trans second.kept) third).trans sub fourth, ?_, fun holds => ?_⟩
  · rw [held₄, left, withoutHandle_withHandle]
    exact fun p some before => second.fresh p some (first.kept before)
  · obtain ⟨p, q, rfl, rfl, equals⟩ := equal holds
    obtain ⟨value, valid⟩ := second.known q rfl
    rw [← equals, second.same.cert p (first.there rfl), first.known p rfl] at value valid
    obtain ⟨x, shows⟩ := Option.isSome_iff_exists.mp valid
    exact ⟨x, Option.join_eq_some_iff.mp shows, value.symm.trans shows⟩

/-- What a handshake leaves: whether the session may be written to, and what was seen of it. -/
structure Shaken (env : Environment X509) (client : NvHttpClient) (sock : Ptr) (ssl : Option Ptr)
    (w : World X509) (ok : Bool) (w' : World X509) : Prop where
  held : w'.held = w.held
  socketOf : ∀ s, ssl = some s → w'.socketOf s = some sock
  log : w'.log = w.log ∨ ∃ peer, w'.log = w.log ++ [.handshake peer]
  pinned : ok = true → ∃ s peer, ssl = some s ∧ w'.session s = some (some peer) ∧
    Engine.readPemCert env client.pinnedServerCert = some peer ∧
    w'.log = w.log ++ [.handshake (some (some peer))]

theorem safely_handshake {client : NvHttpClient} {sock : Ptr} {ssl : Option Ptr}
    (there : ∀ s, ssl = some s → .ssl s ∈ w.held) (opened : .socket sock ∈ w.held) :
    Safely env m (Shaken env client sock ssl w) (handshake client sock ssl) w := by
  cases ssl with
  | none => exact alone_done ⟨rfl, nofun, .inl rfl, nofun⟩
  | some s =>
    refine alone_call ⟨⟨there s rfl, opened⟩, trivial⟩ fun _ w₁ set => ?_
    subst set
    have connected : Function.update w.socketOf s (some sock) s = some sock := Function.update_self ..
    refine alone_call ⟨⟨there s rfl, sock, connected, opened⟩, trivial⟩ fun ok w₂ effected => ?_
    cases ok with
    | false =>
      obtain rfl := effected
      refine alone_done ⟨rfl, ?_, .inr ⟨none, rfl⟩, nofun⟩
      rintro _ ⟨⟩
      exact connected
    | true =>
      obtain ⟨peer, rfl⟩ := effected
      have session : Function.update w.session s (some peer) s = some peer := Function.update_self ..
      refine safe_weaken ?_ (safely_checkPin (there s rfl) (by simp [World.note]))
      rintro ok w₃ ⟨same, held, pinned⟩
      refine ⟨held, ?_, .inr ⟨some peer, same.log⟩, fun holds => ?_⟩
      · rintro _ ⟨⟩
        exact (same.socketOf s (there s rfl)).trans connected
      · obtain ⟨x, shown, read⟩ := pinned holds
        obtain rfl := Option.some.inj (session.symm.trans shown)
        exact ⟨s, x, rfl, (same.session s (there s rfl)).trans session, read, same.log⟩

/-- A call that changes nothing, unless the handle is null. -/
theorem safely_use {handle : Option Ptr} {use : Ptr → Code Unit}
    (uses : ∀ p, handle = some p → Safely env m (fun _ w' => w' = w) (use p) w) :
    Safely env m (fun _ w' => w' = w) (ifThere handle use) w := by
  cases handle with
  | none => exact alone_done rfl
  | some p => exact uses p rfl

/-- What is left when a session was set up: the session, unless it is null, and nothing that was
read for it. -/
structure Established (env : Environment X509) (client : NvHttpClient) (sock : Ptr) (w : World X509)
    (result : Option Ptr × Bool) (w' : World X509) : Prop where
  fresh : ∀ s, result.1 = some s → .ssl s ∉ w.held
  held : w'.held = withHandle .ssl result.1 w.held
  socketOf : ∀ s, result.1 = some s → w'.socketOf s = some sock
  log : w'.log = w.log ∨ ∃ peer, w'.log = w.log ++ [.handshake peer]
  pinned : result.2 = true → ∃ s peer, result.1 = some s ∧ w'.session s = some (some peer) ∧
    Engine.readPemCert env client.pinnedServerCert = some peer ∧
    w'.log = w.log ++ [.handshake (some (some peer))]

theorem safely_establish {client : NvHttpClient} {sock ctx : Ptr} (there : .ctx ctx ∈ w.held)
    (opened : .socket sock ∈ w.held) :
    Safely env m (Established env client sock w) (establish client sock ctx) w := by
  refine alone_bind (safely_readPemCert _ w) fun cert w₁ first => ?_
  refine alone_bind (safely_readPemKey _ w₁) fun key w₂ second => ?_
  have keeps : w.held ⊆ w₂.held := first.kept.trans second.kept
  have cert_there : ∀ p, cert = some p → .x509 p ∈ w₂.held :=
    fun p some => second.kept (first.there some)
  have uses_cert : Safely env m (fun _ w' => w' = w₂)
      (ifThere cert fun cert => access (.useCertificate ctx cert)) w₂ :=
    safely_use fun p some =>
      alone_request ⟨⟨keeps there, cert_there p some⟩, trivial⟩ fun _ _ unchanged => unchanged
  refine alone_bind uses_cert fun _ w₂' same => ?_
  subst same
  have uses_key : Safely env m (fun _ w' => w' = w₂')
      (ifThere key fun key => access (.usePrivateKey ctx key)) w₂' :=
    safely_use fun p some =>
      alone_request ⟨⟨keeps there, second.there some⟩, trivial⟩ fun _ _ unchanged => unchanged
  refine alone_bind uses_key fun _ w₂ same => ?_
  subst same
  refine alone_call ⟨keeps there, trivial⟩ fun _ w₂' same => ?_
  obtain rfl : w₂' = w₂ := same
  refine alone_call ⟨keeps there, trivial⟩ fun ssl w₃ allocated => ?_
  have third : Got .ssl (fun _ => True) w₂' ssl w₃ := by
    refine Got.of_allocates allocated (fun p fresh => ⟨rfl, fun _ _ => rfl, ?_, ?_⟩) (fun _ => rfl)
      fun _ _ => trivial
    all_goals
      intro s held
      have other : s ≠ p := by
        rintro rfl
        exact fresh held
      exact Function.update_of_ne other ..
  have shakes : Safely env m (Shaken env client sock ssl w₃) (handshake client sock ssl) w₃ :=
    safely_handshake (fun s => third.there) (third.kept (keeps opened))
  refine alone_bind shakes fun ok w₄ shaken => ?_
  have cert_left : ∀ p, cert = some p → .x509 p ∈ w₄.held := by
    intro p some
    rw [shaken.held]
    exact third.kept (cert_there p some)
  refine alone_bind (safely_freeCert cert_left) fun _ w₅ ⟨fifth, held₅⟩ => ?_
  have left : w₅.held = withHandle .ssl ssl (withHandle .key key w.held) := by
    rw [held₅, shaken.held, third.held, second.held, first.held,
      withoutHandle_other .x509 .ssl nofun, withoutHandle_other .x509 .key nofun,
      withoutHandle_withHandle first.fresh]
  have key_there : ∀ p, key = some p → .key p ∈ w₅.held := by
    rintro p rfl
    rw [left]
    exact mem_withHandle (Set.mem_insert ..)
  refine alone_bind (safely_freeKey key_there) fun _ w₆ ⟨sixth, held₆⟩ => alone_done ?_
  have log : w₃.log = w.log := third.same.log.trans (second.same.log.trans first.same.log)
  have ssl_there : ∀ s, ssl = some s → .ssl s ∈ w₄.held ∧ .ssl s ∈ w₅.held := by
    rintro s rfl
    rw [shaken.held, left]
    exact ⟨third.there rfl, Set.mem_insert ..⟩
  refine ⟨fun s some before => third.fresh s some (keeps before), ?_, ?_, ?_, ?_⟩
  · rw [held₆, left, withoutHandle_other .key .ssl nofun, withoutHandle_withHandle]
    exact fun p some before => second.fresh p some (first.kept before)
  · intro s some
    obtain ⟨in₄, in₅⟩ := ssl_there s some
    exact (sixth.socketOf s in₅).trans ((fifth.socketOf s in₄).trans (shaken.socketOf s some))
  · rw [sixth.log, fifth.log, ← log]
    exact shaken.log
  · intro holds
    obtain ⟨s, peer, some, session, read, noted⟩ := shaken.pinned holds
    obtain ⟨in₄, in₅⟩ := ssl_there s some
    refine ⟨s, peer, some, ?_, read, ?_⟩
    · exact (sixth.session s in₅).trans ((fifth.session s in₄).trans session)
    · rw [sixth.log, fifth.log, noted, log]

/-- The session, the context and the socket, and nothing else. -/
def tlsHeld (ssl ctx : Option Ptr) (sock : Ptr) : Set Resource :=
  withHandle .ssl ssl (withHandle .ctx ctx {.socket sock})

/-- Everything is given back. -/
theorem safely_closeTls {ssl ctx : Option Ptr} {sock : Ptr} (held : w.held = tlsHeld ssl ctx sock)
    (connected : ∀ s, ssl = some s → w.socketOf s = some sock) :
    Safely env m (fun _ w' => w'.held = ∅ ∧ w'.log = w.log) (closeTls ssl ctx sock) w := by
  have opened : .socket sock ∈ w.held := by
    rw [held]
    exact mem_withHandle (mem_withHandle rfl)
  have ssl_freed : Safely env m (fun _ w' => Same w w' ∧ w'.held = withoutHandle .ssl ssl w.held)
      (ifThere ssl fun ssl => do
        access (.sslShutdown ssl)
        access (.sslFree ssl)) w := by
    refine safely_free fun p some => ?_
    have there : .ssl p ∈ w.held := by
      rw [held, tlsHeld, some]
      exact Set.mem_insert ..
    refine alone_call ⟨⟨there, sock, connected p some, opened⟩, trivial⟩ fun _ w₁ same => ?_
    obtain rfl : w₁ = w := same
    exact alone_request ⟨there, trivial⟩ fun _ _ dropped => dropped
  refine alone_bind ssl_freed fun _ w₁ ⟨first, held₁⟩ => ?_
  have left : w₁.held = withHandle .ctx ctx {.socket sock} := by
    rw [held₁, held, tlsHeld, withoutHandle_withHandle]
    intro p _ there
    cases ctx <;> simp [withHandle] at there
  have ctx_freed : Safely env m (fun _ w' => Same w₁ w' ∧ w'.held = withoutHandle .ctx ctx w₁.held)
      (ifThere ctx fun ctx => access (.ctxFree ctx)) w₁ := by
    refine safely_free fun p some => ?_
    have there : .ctx p ∈ w₁.held := by
      rw [left, some]
      exact Set.mem_insert ..
    exact alone_request ⟨there, trivial⟩ fun _ _ dropped => dropped
  refine alone_bind ctx_freed fun _ w₂ ⟨second, held₂⟩ => ?_
  have last : w₂.held = {.socket sock} := by
    rw [held₂, left, withoutHandle_withHandle]
    exact fun p _ => nofun
  have legal : Legal (.closeSocket sock) w₂ := by
    rw [Legal, last]
    exact ⟨rfl, fun s there => nomatch there⟩
  refine alone_request ⟨legal, trivial⟩ fun _ w₃ dropped => ?_
  obtain rfl : w₃ = w₂.drop (.socket sock) := dropped
  refine ⟨?_, second.log.trans first.log⟩
  rw [World.drop_held, last]
  exact Set.sdiff_self ..

/-! ### The socket -/

/-- Addresses that refuse. -/
def Refusals (log : List (Io X509)) : Prop := ∀ io ∈ log, io = .connect false

/-- A socket that is connected after some refusals, or none. -/
structure Tried (held : Set Resource) (w : World X509) (sock : Option Ptr) (w' : World X509) :
    Prop where
  held : w'.held = withHandle .socket sock held
  log : ∃ refusals, Refusals refusals ∧
    w'.log = w.log ++ refusals ++ (sock.elim [] fun _ => [.connect true])

theorem safely_connectFirst {res : Ptr} (addresses : List Nat) (held : w.held = {.addrinfo res}) :
    Safely env m (Tried {.addrinfo res} w) (connectFirst addresses) w := by
  induction addresses generalizing w with
  | nil => exact alone_done ⟨held, [], nofun, by simp⟩
  | cons address rest ih =>
    refine alone_call ⟨trivial, trivial⟩ fun sock w₁ allocated => ?_
    cases sock with
    | none =>
      obtain rfl : w₁ = w := allocated
      exact ih held
    | some sock =>
      obtain ⟨fresh, rfl⟩ := allocated
      have there : .socket sock ∈ (w.hold (.socket sock)).held := Set.mem_insert ..
      refine alone_call ⟨there, trivial⟩ fun connected w₂ noted => ?_
      obtain rfl : w₂ = (w.hold (.socket sock)).note (.connect connected) := noted
      have both : ((w.hold (.socket sock)).note (.connect connected)).held =
          insert (.socket sock) {.addrinfo res} := by
        rw [← held]
        rfl
      cases connected with
      | true => exact alone_done ⟨both, [], nofun, by simp⟩
      | false =>
        have legal : Legal (.closeSocket sock) ((w.hold (.socket sock)).note (.connect false)) := by
          refine ⟨there, fun s inside => ?_⟩
          rw [both] at inside
          simp at inside
        refine alone_call ⟨legal, trivial⟩ fun _ w₃ dropped => ?_
        obtain rfl : w₃ = ((w.hold (.socket sock)).note (.connect false)).drop (.socket sock) := dropped
        have back : (((w.hold (.socket sock)).note (.connect false)).drop (.socket sock)).held =
            {.addrinfo res} := by
          rw [World.drop_held, both]
          exact Set.insert_sdiff_self_of_notMem (by simp)
        refine safe_weaken ?_ (ih back)
        rintro sock' w' ⟨held', refusals, refuse, log⟩
        refine ⟨held', .connect false :: refusals, ?_, ?_⟩
        · rintro io (_ | ⟨_, later⟩)
          · rfl
          · exact refuse io later
        · rw [log]
          simp

/-- The timeouts are a `timeval`. -/
theorem safely_setTimeouts {sock : Ptr} {timeoutMs : Int} (there : .socket sock ∈ w.held) :
    Safely env m (fun _ w' => w' = w) (setTimeouts sock timeoutMs) w := by
  refine alone_ite (fun positive => ?_) fun _ => alone_done rfl
  have seconds : 0 ≤ timeoutMs.tdiv 1000 := Int.tdiv_nonneg (by omega) (by decide)
  have rest : 0 ≤ timeoutMs.tmod 1000 := Int.tmod_nonneg 1000 (by omega)
  have small : timeoutMs.tmod 1000 < 1000 := Int.tmod_lt_of_pos timeoutMs (by decide)
  refine alone_call ⟨⟨there, seconds, by omega, by omega⟩, trivial⟩ fun _ w₁ same => ?_
  obtain rfl : w₁ = w := same
  exact alone_request ⟨⟨there, seconds, by omega, by omega⟩, trivial⟩ fun _ _ same => same

theorem safely_tcpConnect {host : Bytes} {port timeoutMs : Int} (held : w.held = ∅) :
    Safely env m (Tried ∅ w) (tcpConnect host port timeoutMs) w := by
  refine alone_call ⟨trivial, trivial⟩ fun answer w₁ effected => ?_
  cases answer with
  | none =>
    obtain rfl : w₁ = w := effected
    exact alone_done ⟨held, [], nofun, by simp⟩
  | some answer =>
    obtain ⟨res, addresses⟩ := answer
    obtain ⟨fresh, rfl⟩ := effected
    have only : (w.hold (.addrinfo res)).held = {.addrinfo res} := by
      rw [World.hold_held, held]
      exact insert_empty_eq ..
    refine alone_bind (safely_connectFirst addresses only) fun sock w₂ tried => ?_
    have there : .addrinfo res ∈ w₂.held := by
      rw [tried.held]
      exact mem_withHandle rfl
    refine alone_call ⟨there, trivial⟩ fun _ w₃ dropped => ?_
    obtain rfl : w₃ = w₂.drop (.addrinfo res) := dropped
    have freed : (w₂.drop (.addrinfo res)).held = withHandle .socket sock ∅ := by
      have back : withoutHandle .addrinfo (some res)
            (withHandle .socket sock (withHandle .addrinfo (some res) ∅)) =
          withHandle .socket sock
            (withoutHandle .addrinfo (some res) (withHandle .addrinfo (some res) ∅)) :=
        withoutHandle_other .addrinfo .socket nofun
      rw [withoutHandle_withHandle fun _ _ => Set.notMem_empty _] at back
      rw [World.drop_held, tried.held, ← back]
      simp [withoutHandle, withHandle]
    have after : Tried ∅ w sock (w₂.drop (.addrinfo res)) := ⟨freed, tried.log⟩
    cases sock with
    | none => exact alone_done after
    | some sock =>
      refine alone_bind (safely_setTimeouts ?_) fun _ w₃ same => alone_done (same ▸ after)
      rw [freed]
      exact Set.mem_insert ..

theorem safely_randomUuidHex : Safely env m
    (fun hex w' => ∃ uuid, hex = uuidHex uuid ∧ w' = w.note (.random uuid)) randomUuidHex w := by
  refine alone_call ⟨trivial, trivial⟩ fun answer w₁ noted => ?_
  cases answer with
  | none => exact alone_done ⟨none, rfl, noted⟩
  | some bytes => exact alone_done ⟨some bytes.val, rfl, noted⟩

end HttpRequest
end StreamEngine.Client
