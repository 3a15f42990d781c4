import StreamEngine.Ipc.Server
import StreamEngine.Json.RoundTrip

/-! Sessions over a pipe that carries frames and whose writes succeed. A session is
compared with its transcript, which is read off the frames alone: one answer for every
request, in order, and nothing for any other frame. -/
namespace StreamEngine.Ipc
open ByteString Binary64 Json

/-- A payload that a frame can carry. -/
structure Frame where
  payload : Bytes
  fits : payload.length ≤ kMaxFrame

def encodeFrame (payload : Bytes) : Bytes := frameHeader payload.length ++ payload

/-- The connection as the engine sees it, the handler calls made so far, and the state
that the handlers share. -/
structure Pipe (σ : Type) where
  input : Bytes
  output : Bytes
  calls : List (Bytes × Value)
  app : σ

/-- Handlers as functions of their parameters and their state. -/
abbrev Table (σ : Type) := Bytes → Option (Value → σ → Outcome × σ)

variable {σ : Type}

namespace Pipe

def transport : Transport (StateM (Pipe σ)) where
  readExact n := do
    let pipe ← get
    if n ≤ pipe.input.length then
      set { pipe with input := pipe.input.drop n }
      return some (pipe.input.take n)
    else return none
  writeAll data := do
    modify fun pipe => { pipe with output := pipe.output ++ data }
    return true

def handlers (table : Table σ) : Handlers (StateM (Pipe σ)) := fun method =>
  (table method).map fun handler params => do
    let pipe ← get
    let (outcome, app) := handler params pipe.app
    set { pipe with app := app, calls := pipe.calls ++ [(method, params)] }
    return outcome

end Pipe

/-! ### Frames -/

/-- A statement whose run is known may be replaced by its value. -/
theorem run_bind_of {x : StateM τ α} {f : α → StateM τ β} {s s' : τ} {a : α}
    (run : x.run s = (a, s')) : (x >>= f).run s = (f a).run s' := by
  rw [StateT.run_bind, run]
  rfl

@[simp] theorem length_frameHeader (n : Nat) : (frameHeader n).length = 4 := rfl

theorem frameLength_frameHeader {n : Nat} (small : n < 2 ^ 32) : frameLength (frameHeader n) = n := by
  simp only [frameLength, frameHeader, List.foldr_cons, List.foldr_nil, UInt8.toNat_ofNat']
  omega

theorem readExact_run {pipe : Pipe σ} {data rest : Bytes} (input : pipe.input = data ++ rest) :
    (Pipe.transport.readExact data.length).run pipe = (some data, { pipe with input := rest }) := by
  have within : data.length ≤ pipe.input.length := by simp [input]
  have run : (Pipe.transport.readExact data.length).run pipe =
      (if data.length ≤ pipe.input.length then do
        set { pipe with input := pipe.input.drop data.length }
        return some (pipe.input.take data.length)
      else return none : StateM (Pipe σ) (Option Bytes)).run pipe := rfl
  rw [run, if_pos within, input, List.drop_left, List.take_left]
  rfl

theorem writeAll_run (pipe : Pipe σ) (data : Bytes) :
    (Pipe.transport.writeAll data).run pipe =
      (true, { pipe with output := pipe.output ++ data }) := rfl

theorem readFrame_run {pipe : Pipe σ} {frame : Frame} {rest : Bytes}
    (input : pipe.input = encodeFrame frame.payload ++ rest) :
    (readFrame Pipe.transport).run pipe = (.ok frame.payload, { pipe with input := rest }) := by
  have fits := frame.fits
  rw [kMaxFrame] at fits
  have length := frameLength_frameHeader (n := frame.payload.length) (by omega)
  rw [encodeFrame, List.append_assoc] at input
  have header : (Pipe.transport.readExact 4).run pipe = (some (frameHeader frame.payload.length),
      { pipe with input := frame.payload ++ rest }) := readExact_run input
  rw [readFrame, run_bind_of header]
  simp only [length]
  rw [if_neg (by rw [kMaxFrame]; omega)]
  split
  · rename_i empty
    rw [List.length_eq_zero_iff.mp empty]
    rfl
  · rw [run_bind_of (readExact_run rfl)]
    rfl

theorem readExact_short {pipe : Pipe σ} {n : Nat} (short : pipe.input.length < n) :
    (Pipe.transport.readExact n).run pipe = (none, pipe) := by
  have run : (Pipe.transport.readExact n).run pipe =
      (if n ≤ pipe.input.length then do
        set { pipe with input := pipe.input.drop n }
        return some (pipe.input.take n)
      else return none : StateM (Pipe σ) (Option Bytes)).run pipe := rfl
  rw [run, if_neg (by omega)]
  rfl

/-- The end of the input is a clean close. -/
theorem readFrame_closed {pipe : Pipe σ} (input : pipe.input = []) :
    (readFrame Pipe.transport).run pipe = (.error [], pipe) := by
  rw [readFrame, run_bind_of (readExact_short (by simp [input]))]
  rfl

theorem writeFrame_run (pipe : Pipe σ) {payload : Bytes} (fits : payload.length ≤ kMaxFrame) :
    (writeFrame Pipe.transport payload).run pipe =
      (.ok (), { pipe with output := pipe.output ++ encodeFrame payload }) := by
  rw [writeFrame, if_neg (by omega), run_bind_of (writeAll_run pipe _), if_neg (by decide)]
  split
  · rename_i empty
    rw [encodeFrame, List.length_eq_zero_iff.mp empty, List.append_nil]
    rfl
  · rw [run_bind_of (writeAll_run _ _), if_neg (by decide), encodeFrame]
    simp only [List.append_assoc]
    rfl

/-- A message above the cap leaves the pipe as it was. -/
theorem writeFrame_refused (pipe : Pipe σ) {payload : Bytes} (large : payload.length > kMaxFrame) :
    (writeFrame Pipe.transport payload).run pipe = (.error oversizeOut, pipe) := by
  rw [writeFrame, if_pos large]
  rfl

/-! ### Transcripts -/

/-- The requests are the objects of kind `req`. -/
theorem request?_eq_some_iff {raw : Bytes} {msg : Value} : request? raw = some msg ↔
    parse raw = some msg ∧ msg.isObject = true ∧ kind msg = ascii "req" := by
  unfold request?
  cases parse raw with
  | none => simp
  | some v =>
    dsimp only
    split
    · rename_i request
      constructor
      · rintro ⟨⟩
        exact ⟨rfl, request⟩
      · exact And.left
    · rename_i other
      refine iff_of_false nofun ?_
      rintro ⟨⟨⟩, request⟩
      exact other request

/-- A request's id as a number. -/
def requestId (msg : Value) : Double := (msg.getNum (ascii "id") (ofInt 0)).unsignedZero

/-- The message that answers a request. -/
def resMessage (id : Double) (outcome : Outcome) : Value :=
  if outcome.errCode = [] then
    .obj [(ascii "id", .num id), (ascii "kind", .str (ascii "res")), (ascii "ok", .bool true),
      (ascii "result", outcome.result)]
  else
    .obj [(ascii "error", .obj [(ascii "code", .str outcome.errCode),
        (ascii "message", .str outcome.errMsg)]),
      (ascii "id", .num id), (ascii "kind", .str (ascii "res")), (ascii "ok", .bool false)]

theorem response_eq (id : Double) (outcome : Outcome) :
    response id outcome = resMessage id outcome := by
  unfold response resMessage
  split <;> rfl

/-- The outcome of a request, the handler calls it makes, and the state it leaves. -/
def answer (table : Table σ) (msg : Value) (app : σ) : Outcome × List (Bytes × Value) × σ :=
  match table (method msg) with
  | none => (unsupported msg, [], app)
  | some handler =>
    let (outcome, app) := handler (params msg) app
    (outcome, [(method msg, params msg)], app)

/-- What a session over these frames answers, calls and leaves behind. -/
structure Transcript (σ : Type) where
  responses : List Bytes
  calls : List (Bytes × Value)
  app : σ

def transcript (table : Table σ) : List Frame → σ → Transcript σ
  | [], app => ⟨[], [], app⟩
  | frame :: frames, app =>
    match request? frame.payload with
    | none => transcript table frames app
    | some msg =>
      let (outcome, calls, app) := answer table msg app
      let later := transcript table frames app
      ⟨dump (resMessage (requestId msg) outcome) :: later.responses, calls ++ later.calls, later.app⟩

theorem dispatch_run (table : Table σ) (msg : Value) (pipe : Pipe σ) :
    (dispatch (Pipe.handlers table) msg).run pipe =
      ((answer table msg pipe.app).1,
        { pipe with
          calls := pipe.calls ++ (answer table msg pipe.app).2.1
          app := (answer table msg pipe.app).2.2 }) := by
  unfold dispatch answer Pipe.handlers
  cases table (method msg) with
  | none =>
    simp only [Option.map_none, List.append_nil]
    rfl
  | some handler => rfl

/-! ### Sessions -/

/-- The connection after a request was answered. -/
def Pipe.answered (table : Table σ) (msg : Value) (rest : Bytes) (pipe : Pipe σ) : Pipe σ where
  input := rest
  output := pipe.output ++
    encodeFrame (dump (response (echoedId msg) (answer table msg pipe.app).1))
  calls := pipe.calls ++ (answer table msg pipe.app).2.1
  app := (answer table msg pipe.app).2.2

section Steps
variable {table : Table σ} {pipe : Pipe σ} {frame : Frame} {rest : Bytes}

/-- A frame that is no request is passed over. -/
theorem run_ignored (input : pipe.input = encodeFrame frame.payload ++ rest)
    (request : request? frame.payload = none) (fuel : Nat) :
    (run Pipe.transport (Pipe.handlers table) (fuel + 1)).run pipe =
      (run Pipe.transport (Pipe.handlers table) fuel).run { pipe with input := rest } := by
  rw [run, run_bind_of (readFrame_run input)]
  simp only [request]

/-- A request is answered when a frame can carry the answer. -/
theorem run_answered {msg : Value} (input : pipe.input = encodeFrame frame.payload ++ rest)
    (request : request? frame.payload = some msg)
    (fits : (dump (response (echoedId msg) (answer table msg pipe.app).1)).length ≤ kMaxFrame)
    (fuel : Nat) :
    (run Pipe.transport (Pipe.handlers table) (fuel + 1)).run pipe =
      (run Pipe.transport (Pipe.handlers table) fuel).run (pipe.answered table msg rest) := by
  rw [run, run_bind_of (readFrame_run input)]
  simp only [request]
  rw [run_bind_of (dispatch_run table msg _), run_bind_of (writeFrame_run _ fits)]
  rfl

/-- An answer that no frame can carry ends the loop and nothing is written. -/
theorem run_refused {msg : Value} (input : pipe.input = encodeFrame frame.payload ++ rest)
    (request : request? frame.payload = some msg)
    (large : (dump (response (echoedId msg) (answer table msg pipe.app).1)).length > kMaxFrame)
    (fuel : Nat) :
    (run Pipe.transport (Pipe.handlers table) (fuel + 1)).run pipe =
      (some (.error oversizeOut), { pipe.answered table msg rest with output := pipe.output }) := by
  rw [run, run_bind_of (readFrame_run input)]
  simp only [request]
  rw [run_bind_of (dispatch_run table msg _), run_bind_of (writeFrame_refused _ large)]
  rfl

/-- The end of the input ends the loop. -/
theorem run_closed (input : pipe.input = []) (fuel : Nat) :
    (run Pipe.transport (Pipe.handlers table) (fuel + 1)).run pipe = (some (.ok ()), pipe) := by
  rw [run, run_bind_of (readFrame_closed input)]
  simp only [if_true]
  rfl

end Steps

/-- What the claim about sessions takes for granted of a table and its frames: request
ids are integers up to `2^53` and every answer fits a frame. -/
structure Admissible (table : Table σ) (frames : List Frame) (app : σ) : Prop where
  ids : ∀ frame ∈ frames, ∀ msg, request? frame.payload = some msg →
    (msg.getNum (ascii "id") (ofInt 0)).IsIntegerIn 0 (2 ^ 53)
  fit : ∀ payload ∈ (transcript table frames app).responses, payload.length ≤ kMaxFrame

/-- The request loop serves every frame and ends with the clean close. -/
theorem run_transcript (table : Table σ) {frames : List Frame} (pipe : Pipe σ)
    (admissible : Admissible table frames pipe.app)
    (input : pipe.input = frames.flatMap fun frame => encodeFrame frame.payload) {fuel : Nat}
    (enough : frames.length < fuel) :
    (run Pipe.transport (Pipe.handlers table) fuel).run pipe =
      (some (.ok ()),
        { input := []
          output := pipe.output ++ (transcript table frames pipe.app).responses.flatMap encodeFrame
          calls := pipe.calls ++ (transcript table frames pipe.app).calls
          app := (transcript table frames pipe.app).app }) := by
  induction frames generalizing pipe fuel with
  | nil =>
    obtain ⟨fuel, rfl⟩ : ∃ n, fuel = n + 1 := ⟨fuel - 1, by simp at enough; omega⟩
    obtain ⟨left, output, calls, app⟩ := pipe
    have closed : left = [] := input
    subst closed
    rw [run_closed rfl]
    simp only [transcript, List.flatMap_nil, List.append_nil]
  | cons frame frames ih =>
    obtain ⟨fuel, rfl⟩ : ∃ n, fuel = n + 1 := ⟨fuel - 1, by simp at enough; omega⟩
    rw [List.length_cons, Nat.add_lt_add_iff_right] at enough
    rw [List.flatMap_cons] at input
    have ids := fun f member => admissible.ids f (List.mem_cons_of_mem frame member)
    cases request : request? frame.payload with
    | none =>
      have fit := admissible.fit
      rw [run_ignored input request]
      simp only [transcript, request] at fit ⊢
      exact ih { pipe with input := frames.flatMap fun frame => encodeFrame frame.payload }
        ⟨ids, fit⟩ rfl enough
    | some msg =>
      have fit := admissible.fit
      simp only [transcript, request, List.mem_cons, forall_eq_or_imp] at fit ⊢
      have id : echoedId msg = requestId msg :=
        ofInt_toUnsigned64 (admissible.ids frame List.mem_cons_self msg request)
      rw [← id, ← response_eq] at fit ⊢
      rw [run_answered input request fit.1]
      have later := ih (pipe.answered table msg (frames.flatMap fun frame => encodeFrame frame.payload))
        ⟨ids, fit.2⟩ rfl enough
      rw [later]
      simp only [Pipe.answered, List.flatMap_cons, List.append_assoc]

/-- A hello of the engine's protocol version. -/
def IsHello (raw : Bytes) : Prop :=
  ∃ peer, parse raw = some peer ∧ peer.isObject = true ∧ kind peer = ascii "hello" ∧
    (peer.getNum (ascii "protocolVersion") (ofInt (-1))).eq (ofInt kProtocolVersion) = true

theorem getNum_isInteger {v : Value} {k : Bytes} {z : Int} (small : z.natAbs < 2 ^ 53)
    (integer : ∀ d, v.find k = some (.num d) → d.IsInteger) :
    (v.getNum k (ofInt z)).IsInteger := by
  unfold Value.getNum
  split
  · rename_i d found
    exact integer d found
  · obtain ⟨x, value, exact, -⟩ := exists_ofInt small
    exact ⟨x, value, exact⟩

/-- The handshake accepts exactly the hello messages of its version. -/
theorem checkHello_ok_iff {raw : Bytes}
    (version : ∀ v d, parse raw = some v → v.find (ascii "protocolVersion") = some (.num d) →
      d.IsInteger) : checkHello raw = .ok () ↔ IsHello raw := by
  unfold checkHello IsHello
  cases parsed : parse raw with
  | none => simp
  | some peer =>
    obtain ⟨x, value, integer⟩ := getNum_isInteger (v := peer) (z := -1) (by decide)
      (version peer · parsed)
    have same := toSigned32_eq_iff integer (z := kProtocolVersion) (by decide) (by decide)
    simp only [Option.some.injEq, exists_eq_left', value, ← same]
    split
    · rename_i other
      simp [other]
    · rename_i object
      split
      · rename_i other
        simp [other]
      · rename_i hello
        rw [not_not] at hello
        split
        · rename_i other
          simp [other]
        · rename_i equal
          rw [not_not] at equal
          simpa [hello, equal] using object

/-- The bytes of these frames. -/
def wire (frames : List Frame) : Bytes := frames.flatMap fun frame => encodeFrame frame.payload

theorem handshake_run (engineVersion : Bytes) (first : Frame) (frames : List Frame) (app : σ)
    (hello : (dump (helloMessage engineVersion)).length ≤ kMaxFrame) :
    (handshake Pipe.transport engineVersion).run ⟨wire (first :: frames), [], [], app⟩ =
      (checkHello first.payload,
        ⟨wire frames, encodeFrame (dump (helloMessage engineVersion)), [], app⟩) := by
  have input : wire (first :: frames) = encodeFrame first.payload ++ wire frames := rfl
  rw [handshake, run_bind_of (writeFrame_run _ hello), run_bind_of (readFrame_run input)]
  rfl

/-- A whole connection. After a hello of its version the engine writes its own hello and
the transcript of the other frames, and returns true; after anything else it has
written its hello only and has called no handler. -/
theorem serve_session (table : Table σ) (engineVersion : Bytes) (first : Frame)
    (frames : List Frame) (app : σ)
    (hello : (dump (helloMessage engineVersion)).length ≤ kMaxFrame)
    (version : ∀ v d, parse first.payload = some v →
      v.find (ascii "protocolVersion") = some (.num d) → d.IsInteger)
    (admissible : Admissible table frames app) :
    (IsHello first.payload → ∀ fuel > frames.length,
      (serve Pipe.transport (Pipe.handlers table) engineVersion fuel).run
          ⟨wire (first :: frames), [], [], app⟩ =
        (.ran (.ok ()),
          { input := []
            output := encodeFrame (dump (helloMessage engineVersion)) ++
              (transcript table frames app).responses.flatMap encodeFrame
            calls := (transcript table frames app).calls
            app := (transcript table frames app).app })) ∧
    (¬ IsHello first.payload → ∀ fuel, ∃ err,
      (serve Pipe.transport (Pipe.handlers table) engineVersion fuel).run
          ⟨wire (first :: frames), [], [], app⟩ =
        (.handshakeFailed err,
          ⟨wire frames, encodeFrame (dump (helloMessage engineVersion)), [], app⟩)) := by
  have greeting := handshake_run engineVersion first frames app hello
  constructor
  · intro accepted fuel enough
    rw [(checkHello_ok_iff version).mpr accepted] at greeting
    have served := run_transcript table
      ⟨wire frames, encodeFrame (dump (helloMessage engineVersion)), [], app⟩ admissible rfl enough
    rw [serve, run_bind_of greeting, run_bind_of served]
    rfl
  · intro refused fuel
    cases check : checkHello first.payload with
    | ok u => exact absurd ((checkHello_ok_iff version).mp check) refused
    | error err =>
      rw [check] at greeting
      exact ⟨err, by rw [serve, run_bind_of greeting]; rfl⟩

/-- A request that nobody handles, in a connection of its own. -/
theorem run_unhandled {frame : Frame} {msg : Value} (request : request? frame.payload = some msg)
    (fits : (dump (response (echoedId msg) (unsupported msg))).length ≤ kMaxFrame) :
    ((run Pipe.transport (Pipe.handlers fun _ => none) 2).run
      ⟨wire [frame], [], [], ()⟩).2.output =
        encodeFrame (dump (response (echoedId msg) (unsupported msg))) := by
  have input : wire [frame] = encodeFrame frame.payload ++ [] := by simp [wire]
  have fits : (dump (response (echoedId msg) (answer (fun _ => none) msg ()).1)).length ≤ kMaxFrame :=
    fits
  rw [run_answered input request fits, run_closed rfl]
  rfl

/-- One request to a counter that answers with the number of calls before. -/
def countingTable : Table Nat := fun method =>
  if method = ascii "count" then some fun _ n => (⟨.num (ofInt n), [], []⟩, n + 1) else none

def countRequest : Value :=
  .obj [(ascii "id", .num (ofInt 5)), (ascii "kind", .str (ascii "req")),
    (ascii "method", .str (ascii "count"))]

def helloFrame : Frame := ⟨dump (helloMessage (ascii "dev")), by decide +kernel⟩

def countFrame : Frame := ⟨dump countRequest, by decide +kernel⟩

theorem ofInt_isFinite {z : Int} (small : z.natAbs < 2 ^ 53) : (ofInt z).isFinite = true := by
  obtain ⟨x, value, -⟩ := exists_ofInt small
  rw [value]
  rfl

theorem parse_helloFrame :
    parse helloFrame.payload = some (helloMessage (ascii "dev")).unsignZeros := by
  have keys : [ascii "engineVersion", ascii "kind", ascii "protocolVersion"].Pairwise (· < ·) := by
    decide
  exact parse_dump ⟨keys, trivial, trivial, trivial, trivial⟩
    ⟨trivial, trivial, ofInt_isFinite (by decide), trivial⟩

theorem parse_countFrame : parse countFrame.payload = some countRequest.unsignZeros := by
  have keys : [ascii "id", ascii "kind", ascii "method"].Pairwise (· < ·) := by decide
  exact parse_dump ⟨keys, trivial, trivial, trivial, trivial⟩
    ⟨ofInt_isFinite (by decide), trivial, trivial, trivial⟩

theorem request_countFrame : request? countFrame.payload = some countRequest.unsignZeros :=
  request?_eq_some_iff.mpr ⟨parse_countFrame, rfl, rfl⟩

def countReply : Bytes := ascii "\x7b\"id\":5,\"kind\":\"res\",\"ok\":true,\"result\":7\x7d"

theorem transcript_countFrame :
    transcript countingTable [countFrame] 7 = ⟨[countReply], [(ascii "count", .obj [])], 8⟩ := by
  have written : dump (resMessage (requestId countRequest.unsignZeros)
      (answer countingTable countRequest.unsignZeros 7).1) = countReply := by decide +kernel
  simp only [transcript, request_countFrame]
  exact congrArg (fun payload => Transcript.mk [payload] [(ascii "count", .obj [])] 8) written

/-- The request is answered with the count. -/
theorem serve_session_count :
    (serve Pipe.transport (Pipe.handlers countingTable) (ascii "dev") 2).run
        ⟨wire [helloFrame, countFrame], [], [], 7⟩ =
      (.ran (.ok ()),
        { input := []
          output := encodeFrame (dump (helloMessage (ascii "dev"))) ++ encodeFrame countReply
          calls := [(ascii "count", .obj [])]
          app := 8 }) := by
  have helloVersion : (helloMessage (ascii "dev")).unsignZeros.find (ascii "protocolVersion") =
      some (.num (ofInt kProtocolVersion).unsignedZero) := rfl
  have version : ∀ v d, parse helloFrame.payload = some v →
      v.find (ascii "protocolVersion") = some (.num d) → d.IsInteger := by
    intro v d parsed found
    rw [parse_helloFrame, Option.some.injEq] at parsed
    rw [← parsed, helloVersion, Option.some.injEq, Value.num.injEq] at found
    obtain ⟨x, value, integer, -⟩ :=
      unsignedZero_ofInt (z := kProtocolVersion) (by decide) (le_refl _) (le_refl _)
    exact found ▸ ⟨x, value, integer⟩
  have admissible : Admissible countingTable [countFrame] 7 := by
    constructor
    · intro frame member msg found
      obtain rfl := List.mem_singleton.mp member
      rw [request_countFrame, Option.some.injEq] at found
      subst found
      exact unsignedZero_ofInt (z := 5) (by decide) (by decide) (by decide)
    · rw [transcript_countFrame]
      decide
  have hello : IsHello helloFrame.payload := by
    refine ⟨_, parse_helloFrame, rfl, rfl, ?_⟩
    rw [Value.getNum, helloVersion]
    exact unsignedZero_eq (ofInt_isFinite (by decide))
  have served := (serve_session countingTable (ascii "dev") helloFrame [countFrame] 7
    (by decide +kernel) version admissible).1 hello 2 (by decide)
  rwa [transcript_countFrame, List.flatMap_singleton] at served

end StreamEngine.Ipc
