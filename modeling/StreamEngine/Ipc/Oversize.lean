import StreamEngine.Ipc.CloseProofs

/-! A session whose handlers return results of any size. Answers are written as long as a frame
can carry them. The first one that none can carry ends the session like a dead transport. -/
namespace StreamEngine.Ipc
open ByteString Binary64 Json Refinement

variable {σ : Type}

/-- The serialized answer of a request. -/
def reply (table : Table σ) (msg : Value) (app : σ) : Bytes :=
  dump (response (echoedId msg) (answer table msg app).1)

/-- What the loop does over a sequence of frames: the answers it writes, the state that the
handlers leave, and whether it met an answer that no frame can carry. -/
structure Served (σ : Type) where
  replies : List Bytes
  app : σ
  oversize : Bool

def served (table : Table σ) : List Frame → σ → Served σ
  | [], app => ⟨[], app, false⟩
  | frame :: frames, app =>
    match request? frame.payload with
    | none => served table frames app
    | some msg =>
      if (reply table msg app).length ≤ kMaxFrame then
        let later := served table frames (answer table msg app).2.2
        { later with replies := reply table msg app :: later.replies }
      else ⟨[], (answer table msg app).2.2, true⟩

/-- An error response for an id. -/
def ErrorRes (id : Double) (payload : Bytes) : Prop :=
  ∃ code message, code ≠ [] ∧ payload = dump (response id ⟨.null, code, message⟩)

/-- Every request has its answer: the handler's own, or an error response when it is too large. -/
inductive Answers (table : Table σ) : List Frame → σ → List Bytes → Prop where
  | closed {app : σ} : Answers table [] app []
  | ignored {frame : Frame} {frames : List Frame} {app : σ} {payloads : List Bytes}
      (request : request? frame.payload = none) (later : Answers table frames app payloads) :
      Answers table (frame :: frames) app payloads
  | answered {frame : Frame} {frames : List Frame} {app : σ} {payloads : List Bytes} {msg : Value}
      (request : request? frame.payload = some msg) (fits : (reply table msg app).length ≤ kMaxFrame)
      (later : Answers table frames (answer table msg app).2.2 payloads) :
      Answers table (frame :: frames) app (reply table msg app :: payloads)
  | refused {frame : Frame} {frames : List Frame} {app : σ} {payloads : List Bytes} {msg : Value}
      {payload : Bytes} (request : request? frame.payload = some msg)
      (large : kMaxFrame < (reply table msg app).length) (error : ErrorRes (echoedId msg) payload)
      (later : Answers table frames (answer table msg app).2.2 payloads) :
      Answers table (frame :: frames) app (payload :: payloads)

/-- The session goes on to the close of the peer, and every request has its answer. -/
def KeepsServing (table : Table σ) (frames : List Frame) (socket : Socket σ) : Prop :=
  ∀ fuel > frames.length,
    ((run Socket.transport (Socket.handlers table) fuel).run socket).1 = some (.ok ()) ∧
    ∃ payloads, Answers table frames socket.app payloads ∧
      ((run Socket.transport (Socket.handlers table) fuel).run socket).2.sent =
        socket.sent ++ payloads.flatMap encodeFrame

/-- How the loop ends over a sequence of frames that the peer closes. -/
def Served.result (s : Served σ) : Except Bytes Unit :=
  if s.oversize then .error oversizeOut else .ok ()

theorem run_served (table : Table σ) (frames : List Frame) (pipe : Pipe σ)
    (input : pipe.input = wire frames) {fuel : Nat} (enough : frames.length < fuel) :
    ∃ pipe', (run Pipe.transport (Pipe.handlers table) fuel).run pipe =
        (some (served table frames pipe.app).result, pipe') ∧
      pipe'.output = pipe.output ++ (served table frames pipe.app).replies.flatMap encodeFrame ∧
      pipe'.app = (served table frames pipe.app).app := by
  induction frames generalizing pipe fuel with
  | nil =>
    obtain ⟨fuel, rfl⟩ : ∃ n, fuel = n + 1 := ⟨fuel - 1, by simp at enough; omega⟩
    rw [run_closed input]
    exact ⟨pipe, rfl, (List.append_nil _).symm, rfl⟩
  | cons frame frames ih =>
    obtain ⟨fuel, rfl⟩ : ∃ n, fuel = n + 1 := ⟨fuel - 1, by simp at enough; omega⟩
    rw [List.length_cons, Nat.add_lt_add_iff_right] at enough
    have input : pipe.input = encodeFrame frame.payload ++ wire frames := input
    cases request : request? frame.payload with
    | none =>
      rw [run_ignored input request]
      simpa only [served, request] using ih { pipe with input := wire frames } rfl enough
    | some msg =>
      simp only [served, request]
      split
      · rename_i fits
        obtain ⟨pipe', finished, output, app⟩ := ih (pipe.answered table msg (wire frames)) rfl enough
        rw [run_answered input request fits]
        refine ⟨pipe', finished, ?_, app⟩
        rw [output, Pipe.answered, List.flatMap_cons, List.append_assoc]
        rfl
      · rename_i large
        rw [run_refused input request (not_le.mp large)]
        exact ⟨_, rfl, (List.append_nil _).symm, rfl⟩

/-- The same over a socket, however its reads and writes are divided. -/
theorem run_served_delivered (table : Table σ) (frames : List Frame) {socket : Socket σ}
    (delivers : Delivers socket.arrivals (wire frames)) (sends : .failed ∉ socket.acceptances)
    {fuel : Nat} (enough : frames.length < fuel) :
    ∃ socket', (run Socket.transport (Socket.handlers table) fuel).run socket =
        (some (served table frames socket.app).result, socket') ∧
      socket'.sent = socket.sent ++ (served table frames socket.app).replies.flatMap encodeFrame ∧
      socket'.app = (served table frames socket.app).app := by
  have represents : Represents True (.failed ∉ ·) socket (socket.pipe (wire frames)) :=
    ⟨rfl, rfl, fun _ => delivers.arrived, sends⟩
  obtain ⟨pipe', finished, output, app⟩ := run_served table frames (socket.pipe (wire frames)) rfl enough
  obtain ⟨socket', same, after⟩ := (run_refines table fuel).returns represents finished
  exact ⟨socket', same, after.sent.trans output, after.app.trans app⟩

theorem served_oversize {table : Table σ} {frame : Frame} {msg : Value} {app : σ}
    (request : request? frame.payload = some msg) (large : kMaxFrame < (reply table msg app).length)
    (frames : List Frame) :
    served table (frame :: frames) app = ⟨[], (answer table msg app).2.2, true⟩ := by
  simp only [served, request]
  exact if_neg (not_le.mpr large)

/-- Answers that all fit are the handlers' own. -/
theorem answers_served (table : Table σ) (frames : List Frame) (app : σ)
    (fit : (served table frames app).oversize = false) :
    Answers table frames app (served table frames app).replies := by
  induction frames generalizing app with
  | nil => exact .closed
  | cons frame frames ih =>
    cases request : request? frame.payload with
    | none =>
      simp only [served, request] at fit ⊢
      exact .ignored request (ih app fit)
    | some msg =>
      simp only [served, request] at fit ⊢
      split at fit
      · rename_i fits
        rw [if_pos fits]
        exact .answered request fits (ih _ fit)
      · contradiction

/-- The loop serves on exactly as long as its answers fit a frame. The first one that does not fit
ends it with an error after its handler has run: no byte of the answer and no error response is
written, and no later frame is handled. -/
theorem run_serves_until_oversize (table : Table σ) (frames : List Frame) {socket : Socket σ}
    (delivers : Delivers socket.arrivals (wire frames)) (sends : .failed ∉ socket.acceptances) :
    ((served table frames socket.app).oversize = false → KeepsServing table frames socket) ∧
    ((served table frames socket.app).oversize = true → ∀ fuel > frames.length,
      ∃ socket', (run Socket.transport (Socket.handlers table) fuel).run socket =
          (some (.error oversizeOut), socket') ∧
        socket'.sent = socket.sent ++ (served table frames socket.app).replies.flatMap encodeFrame ∧
        socket'.app = (served table frames socket.app).app) := by
  constructor
  · intro fit fuel enough
    obtain ⟨socket', finished, sent, -⟩ := run_served_delivered table frames delivers sends enough
    rw [finished, Served.result, fit]
    exact ⟨rfl, _, answers_served table frames socket.app fit, sent⟩
  · intro oversize fuel enough
    obtain ⟨socket', finished, sent, app⟩ := run_served_delivered table frames delivers sends enough
    rw [Served.result, oversize] at finished
    exact ⟨socket', finished, sent, app⟩

/-- One request, which arrives in one piece. -/
def countSocket {σ : Type} (app : σ) : Socket σ :=
  ⟨[.piece (encodeFrame countFrame.payload) (by simp [encodeFrame, frameHeader])], [], [], app⟩

theorem countSocket_delivers (app : σ) : Delivers (countSocket app).arrivals (wire [countFrame]) :=
  ⟨by simp [countSocket], rfl⟩

theorem countSocket_sends (app : σ) : .failed ∉ (countSocket app).acceptances := by simp [countSocket]

theorem run_serves_until_oversize_count :
    ((served countingTable [countFrame] (countSocket 7).app).oversize = false →
      KeepsServing countingTable [countFrame] (countSocket 7)) ∧
    ((served countingTable [countFrame] (countSocket 7).app).oversize = true →
      ∀ fuel > [countFrame].length,
        ∃ socket', (run Socket.transport (Socket.handlers countingTable) fuel).run (countSocket 7) =
            (some (.error oversizeOut), socket') ∧
          socket'.sent = (countSocket 7).sent ++
            (served countingTable [countFrame] (countSocket 7).app).replies.flatMap encodeFrame ∧
          socket'.app = (served countingTable [countFrame] (countSocket 7).app).app) :=
  run_serves_until_oversize countingTable [countFrame] (countSocket_delivers 7) (countSocket_sends 7)

/-- A handler whose result alone is as large as a frame may be. -/
def largeTable : Table Unit := fun _ =>
  some fun _ _ => (⟨.str (List.replicate kMaxFrame 97), [], []⟩, ())

theorem length_escapeTo (s : Bytes) : s.length + 2 ≤ (escapeTo s).length := by
  have bytes : s.length ≤ (s.flatMap escapeByte).length := by
    induction s with
    | nil => simp
    | cons c s ih =>
      have one : 1 ≤ (escapeByte c).length := by
        unfold escapeByte
        repeat' split
        all_goals simp
      rw [List.flatMap_cons, List.length_append, List.length_cons]
      omega
  rw [escapeTo, List.length_cons, List.length_append, List.length_singleton]
  omega

theorem length_response_text (id : Double) (text : Bytes) :
    text.length < (dump (response id ⟨.str text, [], []⟩)).length := by
  have written := length_escapeTo text
  rw [response_eq, resMessage, if_pos rfl, dump]
  simp only [dumpTo, dumpMembers, List.length_append, List.length_cons]
  omega

theorem reply_large (msg : Value) : kMaxFrame < (reply largeTable msg ()).length := by
  have outcome : (answer largeTable msg ()).1 = ⟨.str (List.replicate kMaxFrame 97), [], []⟩ := rfl
  have longer := length_response_text (echoedId msg) (List.replicate kMaxFrame 97)
  rw [List.length_replicate, ← outcome] at longer
  exact longer

/-- The result of the handler is lost, and with it the session. -/
theorem large_ends_session : ¬ KeepsServing largeTable [countFrame] (countSocket ()) ∧
    ∃ socket', (run Socket.transport (Socket.handlers largeTable) 2).run (countSocket ()) =
      (some (.error oversizeOut), socket') ∧ socket'.sent = [] := by
  have large := reply_large countRequest.unsignZeros
  have met : served largeTable [countFrame] () = ⟨[], (), true⟩ :=
    served_oversize request_countFrame large []
  obtain ⟨socket', finished, sent, -⟩ := run_served_delivered largeTable [countFrame]
    (countSocket_delivers ()) (countSocket_sends ()) (show [countFrame].length < 2 by decide)
  have start : (countSocket ()).app = () := rfl
  rw [start, met] at finished sent
  refine ⟨fun serves => ?_, socket', finished, sent⟩
  obtain ⟨closed, -⟩ := serves 2 (by decide)
  rw [finished] at closed
  cases closed

end StreamEngine.Ipc
