import StreamEngine.Ipc.ServerProofs
import StreamEngine.Ipc.Socket
import StreamEngine.Library.Refinement

/-! The socket carries frames as the pipe does. However `recv` and `send` divide the
streams, `read_exact` and `write_all` do what they do on a pipe that holds the stream in
one piece, until a read meets the end. -/
namespace StreamEngine.Ipc
open ByteString Binary64 Json Refinement

variable {σ : Type}

def Arrival.bytes : Arrival → Bytes
  | .piece data _ => data
  | .interrupted | .failed => []

/-- These arrivals are the stream, after which the peer has closed. -/
structure Delivers (arrivals : List Arrival) (stream : Bytes) : Prop where
  sound : .failed ∉ arrivals
  bytes : arrivals.flatMap Arrival.bytes = stream

/-! ### The loops -/

/-- The bytes that are there to read before the peer closes or `recv` fails. -/
def arrived : List Arrival → Bytes
  | [] | .failed :: _ => []
  | .interrupted :: arrivals => arrived arrivals
  | .piece data _ :: arrivals => data ++ arrived arrivals

theorem Delivers.arrived {arrivals : List Arrival} {stream : Bytes}
    (delivers : Delivers arrivals stream) : arrived arrivals = stream := by
  obtain ⟨sound, rfl⟩ := delivers
  induction arrivals with
  | nil => rfl
  | cons arrival arrivals ih =>
    have others : .failed ∉ arrivals := fun member => sound (List.mem_cons_of_mem _ member)
    cases arrival with
    | failed => exact absurd List.mem_cons_self sound
    | interrupted => exact ih others
    | piece data nonempty => rw [Ipc.arrived, ih others, List.flatMap_cons, Arrival.bytes]

/-- What `recv` makes of them. -/
theorem recv_arrived (n : Nat) (arrivals : List Arrival) :
    match recv n arrivals with
    | (.closed, _) | (.failed, _) => arrived arrivals = []
    | (.interrupted, rest) => arrived rest = arrived arrivals
    | (.data bytes, rest) => bytes.length ≤ n ∧ arrived arrivals = bytes ++ arrived rest := by
  match arrivals with
  | [] | .interrupted :: _ | .failed :: _ => rfl
  | .piece data nonempty :: arrivals =>
    rw [recv]
    by_cases longer : n < data.length
    · rw [dif_pos longer]
      refine ⟨List.length_take_le n data, ?_⟩
      rw [arrived, arrived, ← List.append_assoc, List.take_append_drop]
    · rw [dif_neg longer]
      exact ⟨not_lt.mp longer, rfl⟩

/-- `read_exact` reads on to the number of bytes, or fails at the end of what arrives. -/
theorem readExact_arrived (n : Nat) (got : Bytes) {arrivals : List Arrival} {stream : Bytes}
    (within : got.length ≤ n) (arrives : arrived arrivals = stream) :
    if n - got.length ≤ stream.length then
      ∃ rest, readExact n got arrivals = (some (got ++ stream.take (n - got.length)), rest) ∧
        arrived rest = stream.drop (n - got.length)
    else ∃ rest, readExact n got arrivals = (none, rest) := by
  fun_induction readExact n got arrivals generalizing stream with
  | case1 got arrivals less rest ended | case3 got arrivals less rest ended =>
    have next := recv_arrived (n - got.length) arrivals
    rw [ended] at next
    obtain rfl : stream = [] := arrives.symm.trans next
    rw [List.length_nil, if_neg (not_le.mpr (Nat.sub_pos_of_lt less))]
    exact ⟨rest, rfl⟩
  | case2 got arrivals less rest interrupted ih =>
    have next := recv_arrived (n - got.length) arrivals
    rw [interrupted] at next
    exact ih within (next.trans arrives)
  | case4 got arrivals less bytes rest received ih =>
    have next := recv_arrived (n - got.length) arrivals
    rw [received, arrives] at next
    obtain ⟨short, rfl⟩ := next
    have within' : (got ++ bytes).length ≤ n := by
      rw [List.length_append]
      omega
    have left : n - (got ++ bytes).length = n - got.length - bytes.length := by
      rw [List.length_append]
      omega
    have others := ih within' rfl
    rw [left] at others
    have same : n - got.length ≤ (bytes ++ arrived rest).length ↔
        n - got.length - bytes.length ≤ (arrived rest).length := by
      rw [List.length_append]
      omega
    rw [List.take_append, List.drop_append, List.take_of_length_le short,
      List.drop_of_length_le short, List.nil_append, ← List.append_assoc]
    simpa only [same] using others
  | case5 got arrivals enough =>
    have full : n - got.length = 0 := by omega
    rw [full, if_pos (Nat.zero_le _), List.take_zero, List.append_nil]
    exact ⟨arrivals, rfl, arrives⟩

/-- What is left for later buffers when one of `n` bytes is sent, `none` when `send` fails before
that. -/
def accepted : Nat → List Acceptance → Option (List Acceptance)
  | 0, acceptances => some acceptances
  | _ + 1, [] => some []
  | n + 1, .interrupted :: acceptances => accepted (n + 1) acceptances
  | _ + 1, .failed :: _ => none
  | n + 1, .room k _ :: acceptances => accepted (n + 1 - k) acceptances

theorem accepted_sound (n : Nat) {acceptances : List Acceptance} (sound : .failed ∉ acceptances) :
    ∃ rest, accepted n acceptances = some rest ∧ .failed ∉ rest := by
  fun_induction accepted n acceptances with
  | case1 acceptances => exact ⟨acceptances, rfl, sound⟩
  | case2 => exact ⟨[], rfl, sound⟩
  | case4 => exact absurd List.mem_cons_self sound
  | case3 n acceptances ih | case5 n k positive acceptances ih =>
    exact ih fun member => sound (List.mem_cons_of_mem _ member)

/-- What `send` makes of them. -/
theorem send_accepted {data : Bytes} (nonempty : 0 < data.length) (acceptances : List Acceptance) :
    accepted data.length acceptances =
      match send data acceptances with
      | (.interrupted, rest) => accepted data.length rest
      | (.failed, _) => none
      | (.bytes n, rest) => accepted (data.length - n) rest := by
  obtain ⟨n, size⟩ : ∃ n, data.length = n + 1 := ⟨data.length - 1, by omega⟩
  match acceptances with
  | [] =>
    simp only [send, size, Nat.sub_self]
    rfl
  | .interrupted :: _ | .failed :: _ =>
    rw [size]
    rfl
  | .room k positive :: acceptances =>
    have rest : n + 1 - min k (n + 1) = n + 1 - k := by omega
    simp only [send, size, rest]
    rfl

/-- `write_all` puts the rest of its buffer on the wire, or fails with `send`. -/
theorem writeAll_accepted (data : Bytes) (sent : Nat) (acceptances : List Acceptance) (wire : Bytes) :
    match accepted (data.length - sent) acceptances with
    | some rest => writeAll data sent acceptances wire = (true, rest, wire ++ data.drop sent)
    | none => (writeAll data sent acceptances wire).1 = false := by
  have left : (data.drop sent).length = data.length - sent := List.length_drop
  fun_induction writeAll data sent acceptances wire with
  | case1 sent acceptances wire less rest interrupted ih =>
    have next := send_accepted (left ▸ Nat.sub_pos_of_lt less) acceptances
    rw [interrupted, left] at next
    rw [next]
    exact ih left
  | case2 sent acceptances wire less rest failed =>
    have next := send_accepted (left ▸ Nat.sub_pos_of_lt less) acceptances
    rw [failed, left] at next
    rw [next]
  | case3 sent acceptances wire less n rest taken ih =>
    have next := send_accepted (left ▸ Nat.sub_pos_of_lt less) acceptances
    rw [taken, left] at next
    dsimp only at next
    rw [Nat.sub_sub] at next
    have others := ih List.length_drop
    rw [List.append_assoc, ← List.drop_drop, List.take_append_drop] at others
    rw [next]
    exact others
  | case4 sent acceptances wire enough =>
    rw [List.drop_of_length_le (not_lt.mp enough), List.append_nil,
      Nat.sub_eq_zero_of_le (not_lt.mp enough), accepted]

/-! ### The socket and the pipe -/

/-- The pipe has sent what the socket has and is in the same process. It holds what the socket
has to read, as long as it reads. How the sends of the socket end is left to `accepts`. -/
structure Represents (reads : Prop) (accepts : List Acceptance → Prop) (socket : Socket σ)
    (pipe : Pipe σ) : Prop where
  sent : socket.sent = pipe.output
  app : socket.app = pipe.app
  arrivals : reads → arrived socket.arrivals = pipe.input
  accepts : accepts socket.acceptances

variable {reads : Prop} {accepts : List Acceptance → Prop}

theorem Represents.while {reads' : Prop} {socket : Socket σ} {pipe : Pipe σ}
    (represents : Represents reads accepts socket pipe) (still : reads' → reads) :
    Represents reads' accepts socket pipe where
  sent := represents.sent
  app := represents.app
  arrivals := fun reading => represents.arrivals (still reading)
  accepts := represents.accepts

/-- Computations that start by reading, where reads are known to go on. -/
theorem refines_reading {x : StateM (Socket σ) α} {y : StateM (Pipe σ) α}
    {post : α → Socket σ → Pipe σ → Prop} (reading : reads)
    (refines : Refines (Represents True accepts) x y post) :
    Refines (Represents reads accepts) x y post :=
  refines_strengthen (fun _ _ start => start.while fun _ => reading) refines

/-- A read that fails has used up the socket's stream and not the pipe's. -/
theorem readExact_refines (n : Nat) :
    Refines (Represents True accepts) ((Socket.transport (σ := σ)).readExact n)
      (Pipe.transport.readExact n) fun data => Represents (data ≠ none) accepts := by
  intro socket pipe represents
  obtain ⟨sent, app, arrivals, accepts⟩ := represents
  have read := readExact_arrived n [] (Nat.zero_le _) (arrivals trivial)
  rw [List.length_nil, Nat.sub_zero, List.nil_append] at read
  have onSocket : (Socket.transport.readExact n).run socket =
      ((readExact n [] socket.arrivals).1,
        { socket with arrivals := (readExact n [] socket.arrivals).2 }) := rfl
  rw [onSocket]
  split at read
  · rename_i enough
    obtain ⟨rest, read, later⟩ := read
    have onPipe := readExact_run (List.take_append_drop n pipe.input).symm
    rw [List.length_take, min_eq_left enough] at onPipe
    rw [onPipe, read]
    exact ⟨_, _, _, rfl, rfl, sent, app, fun _ => later, accepts⟩
  · rename_i few
    obtain ⟨rest, read⟩ := read
    rw [readExact_short (not_le.mp few), read]
    exact ⟨_, _, _, rfl, rfl, sent, app, fun more => absurd rfl more, accepts⟩

theorem Socket.writeAll_run (data : Bytes) (socket : Socket σ) :
    match accepted data.length socket.acceptances with
    | some rest => ((Socket.transport (σ := σ)).writeAll data).run socket =
        (true, { socket with acceptances := rest, sent := socket.sent ++ data })
    | none => ∃ socket', ((Socket.transport (σ := σ)).writeAll data).run socket = (false, socket') := by
  have onSocket : (Socket.transport.writeAll data).run socket =
      ((writeAll data 0 socket.acceptances socket.sent).1,
        { socket with
          acceptances := (writeAll data 0 socket.acceptances socket.sent).2.1
          sent := (writeAll data 0 socket.acceptances socket.sent).2.2 }) := rfl
  have written := writeAll_accepted data 0 socket.acceptances socket.sent
  rw [Nat.sub_zero, List.drop_zero] at written
  rw [onSocket]
  split at written
  · rw [written]
  · rw [written]
    exact ⟨_, rfl⟩

theorem writeAll_refines (data : Bytes) :
    Refines (Represents reads (.failed ∉ ·)) ((Socket.transport (σ := σ)).writeAll data)
      (Pipe.transport.writeAll data) fun ok socket pipe =>
        ok = true ∧ Represents reads (.failed ∉ ·) socket pipe := by
  intro socket pipe represents
  obtain ⟨sent, app, arrivals, accepts⟩ := represents
  obtain ⟨rest, left, sound⟩ := accepted_sound data.length accepts
  have written := Socket.writeAll_run data socket
  rw [left] at written
  dsimp only at written
  rw [written, Ipc.writeAll_run]
  refine ⟨_, _, _, rfl, rfl, rfl, ?_, app, arrivals, sound⟩
  rw [sent]

theorem readFrame_refines :
    Refines (Represents True accepts) (readFrame (Socket.transport (σ := σ)))
      (readFrame Pipe.transport)
      fun result => Represents (∃ payload, result = .ok payload) accepts := by
  refine refines_bind (readExact_refines 4) ?_
  rintro (_ | header)
  · exact refines_pure fun _ _ start => start.while nofun
  · refine refines_ite (fun _ => refines_pure fun _ _ start => start.while nofun) fun _ => ?_
    refine refines_ite (fun _ => refines_pure fun _ _ start => start.while fun _ => nofun) fun _ => ?_
    refine refines_reading nofun (refines_bind (readExact_refines _) ?_)
    rintro (_ | payload)
    · exact refines_pure fun _ _ start => start.while nofun
    · exact refines_pure fun _ _ start => start.while fun _ => nofun

theorem writeFrame_refines (payload : Bytes) :
    Refines (Represents reads (.failed ∉ ·)) (writeFrame (Socket.transport (σ := σ)) payload)
      (writeFrame Pipe.transport payload) fun _ => Represents reads (.failed ∉ ·) := by
  refine refines_ite (fun _ => refines_pure fun _ _ start => start) fun _ => ?_
  refine refines_bind (writeAll_refines _) fun ok => ?_
  refine refines_ite (fun _ => refines_pure fun _ _ start => start.2) fun _ => ?_
  refine refines_ite (fun _ => refines_pure fun _ _ start => start.2) fun _ => ?_
  refine refines_strengthen (fun _ _ start => start.2) (refines_bind (writeAll_refines _) fun ok => ?_)
  exact refines_ite (fun _ => refines_pure fun _ _ start => start.2)
    fun _ => refines_pure fun _ _ start => start.2

def Socket.handlers (table : Table σ) : Handlers (StateM (Socket σ)) := fun method =>
  (table method).map fun handler params => do
    let socket ← get
    let (outcome, app) := handler params socket.app
    set { socket with app := app }
    return outcome

theorem Socket.dispatch_run (table : Table σ) (msg : Value) (socket : Socket σ) :
    (dispatch (Socket.handlers table) msg).run socket =
      ((answer table msg socket.app).1, { socket with app := (answer table msg socket.app).2.2 }) := by
  unfold dispatch answer Socket.handlers
  cases table (method msg) with
  | none => rfl
  | some handler => rfl

theorem dispatch_refines (table : Table σ) (msg : Value) :
    Refines (Represents reads accepts) (dispatch (Socket.handlers table) msg)
      (dispatch (Pipe.handlers table) msg) fun _ => Represents reads accepts := by
  intro socket pipe represents
  obtain ⟨sent, app, arrivals, accepts⟩ := represents
  rw [Socket.dispatch_run, Ipc.dispatch_run, app]
  exact ⟨_, _, _, rfl, rfl, sent, rfl, arrivals, accepts⟩

/-- The request loop over the socket does what it does over the pipe. -/
theorem run_refines (table : Table σ) (fuel : Nat) :
    Refines (Represents True (.failed ∉ ·)) (run Socket.transport (Socket.handlers table) fuel)
      (run Pipe.transport (Pipe.handlers table) fuel) fun _ => Represents False (.failed ∉ ·) := by
  induction fuel with
  | zero => exact refines_pure fun _ _ start => start.while nofun
  | succ fuel ih =>
    refine refines_bind readFrame_refines ?_
    rintro (err | raw)
    · exact refines_pure fun _ _ start => start.while nofun
    · refine refines_reading ⟨raw, rfl⟩ ?_
      dsimp only
      cases request? raw with
      | none => exact ih
      | some msg =>
        refine refines_bind (dispatch_refines table msg) fun outcome => ?_
        refine refines_bind (writeFrame_refines _) ?_
        rintro (err | ⟨⟩)
        · exact refines_pure fun _ _ start => start.while nofun
        · exact ih

/-! ### Frames over the socket -/

section Repeated
variable {m : Type → Type} [Monad m] (t : Transport m)

/-- One `write_frame` after the other. -/
def writeFrames : List Bytes → m (List (Except Bytes Unit))
  | [] => return []
  | payload :: payloads => do
    let result ← writeFrame t payload
    return result :: (← writeFrames payloads)

/-- `read_frame` until it returns false, for a number of calls: the payloads, and the message of
the call that returned false. -/
def readFrames : Nat → m (List Bytes × Option Bytes)
  | 0 => return ([], none)
  | calls + 1 => do
    match ← readFrame t with
    | .error err => return ([], some err)
    | .ok payload =>
      let (payloads, err) ← readFrames calls
      return (payload :: payloads, err)

end Repeated

theorem writeFrames_refines (payloads : List Bytes) :
    Refines (Represents reads (.failed ∉ ·)) (writeFrames (Socket.transport (σ := σ)) payloads)
      (writeFrames Pipe.transport payloads) fun _ => Represents reads (.failed ∉ ·) := by
  induction payloads with
  | nil => exact refines_pure fun _ _ start => start
  | cons payload payloads ih =>
    refine refines_bind (writeFrame_refines payload) fun _ => ?_
    exact refines_bind ih fun _ => refines_pure fun _ _ start => start

theorem readFrames_refines (calls : Nat) :
    Refines (Represents True accepts) (readFrames (Socket.transport (σ := σ)) calls)
      (readFrames Pipe.transport calls) fun _ => Represents False accepts := by
  induction calls with
  | zero => exact refines_pure fun _ _ start => start.while nofun
  | succ calls ih =>
    refine refines_bind readFrame_refines ?_
    rintro (err | payload)
    · exact refines_pure fun _ _ start => start.while nofun
    · refine refines_reading ⟨payload, rfl⟩ (refines_bind ih fun _ => ?_)
      exact refines_pure fun _ _ start => start

theorem writeFrames_run (frames : List Frame) (pipe : Pipe σ) :
    (writeFrames Pipe.transport (frames.map Frame.payload)).run pipe =
      (frames.map fun _ => .ok (), { pipe with output := pipe.output ++ wire frames }) := by
  induction frames generalizing pipe with
  | nil =>
    simp only [List.map_nil, writeFrames, wire, List.flatMap_nil, List.append_nil]
    rfl
  | cons frame frames ih =>
    rw [List.map_cons, writeFrames, run_bind_of (writeFrame_run pipe frame.fits), run_bind_of (ih _)]
    simp only [wire, List.flatMap_cons, List.append_assoc]
    rfl

/-- What is left of a stream when no whole frame can be read from it. -/
structure Stuck (tail : Bytes) : Prop where
  short : 4 ≤ tail.length → frameLength (tail.take 4) ≤ kMaxFrame →
    tail.length < 4 + frameLength (tail.take 4)

/-- The message of the call that meets it. -/
def ending (tail : Bytes) : Bytes :=
  if tail.length < 4 then []
  else if frameLength (tail.take 4) > kMaxFrame then oversizeIn
  else ascii "truncated frame body"

theorem readFrame_stuck {pipe : Pipe σ} (stuck : Stuck pipe.input) :
    ∃ pipe', (readFrame Pipe.transport).run pipe = (.error (ending pipe.input), pipe') := by
  unfold ending readFrame
  split
  · rename_i few
    rw [run_bind_of (readExact_short few)]
    exact ⟨pipe, rfl⟩
  · rename_i header
    rw [not_lt] at header
    have four : (pipe.input.take 4).length = 4 := by
      rw [List.length_take]
      omega
    have read := readExact_run (List.take_append_drop 4 pipe.input).symm
    rw [four] at read
    rw [run_bind_of read]
    dsimp only
    split
    · exact ⟨_, rfl⟩
    · rename_i fits
      have short := stuck.short header (not_lt.mp fits)
      have some : frameLength (pipe.input.take 4) ≠ 0 := by omega
      have left : (pipe.input.drop 4).length < frameLength (pipe.input.take 4) := by
        rw [List.length_drop]
        omega
      rw [if_neg some, run_bind_of (readExact_short left)]
      exact ⟨_, rfl⟩

/-- Repeated reads find the frames, and then what is left. -/
theorem readFrames_run (frames : List Frame) {tail : Bytes} (stuck : Stuck tail) (pipe : Pipe σ)
    (input : pipe.input = wire frames ++ tail) {calls : Nat} (enough : frames.length < calls) :
    ∃ pipe', (readFrames Pipe.transport calls).run pipe =
      ((frames.map Frame.payload, some (ending tail)), pipe') := by
  induction frames generalizing pipe calls with
  | nil =>
    obtain ⟨calls, rfl⟩ : ∃ n, calls = n + 1 := ⟨calls - 1, by simp at enough; omega⟩
    obtain rfl : pipe.input = tail := input
    obtain ⟨pipe', read⟩ := readFrame_stuck stuck
    rw [readFrames, run_bind_of read]
    exact ⟨pipe', rfl⟩
  | cons frame frames ih =>
    obtain ⟨calls, rfl⟩ : ∃ n, calls = n + 1 := ⟨calls - 1, by simp at enough; omega⟩
    rw [List.length_cons, Nat.add_lt_add_iff_right] at enough
    have first : pipe.input = encodeFrame frame.payload ++ (wire frames ++ tail) := by
      rw [input, wire, List.flatMap_cons, List.append_assoc]
      rfl
    obtain ⟨pipe', others⟩ := ih { pipe with input := wire frames ++ tail } rfl enough
    rw [readFrames, run_bind_of (readFrame_run first)]
    dsimp only
    rw [run_bind_of others]
    exact ⟨pipe', rfl⟩

/-- The pipe of a socket with this stream. -/
def Socket.pipe (socket : Socket σ) (stream : Bytes) : Pipe σ :=
  ⟨stream, socket.sent, [], socket.app⟩

/-- Repeated reads from a socket, however its stream arrives. -/
theorem readFrames_delivered (frames : List Frame) {tail : Bytes} (stuck : Stuck tail)
    {socket : Socket σ} (delivers : Delivers socket.arrivals (wire frames ++ tail)) {calls : Nat}
    (enough : frames.length < calls) :
    ((readFrames Socket.transport calls).run socket).1 =
      (frames.map Frame.payload, some (ending tail)) := by
  obtain ⟨pipe', read⟩ := readFrames_run frames stuck (socket.pipe (wire frames ++ tail)) rfl enough
  have represents : Represents True (fun _ => True) socket (socket.pipe (wire frames ++ tail)) :=
    ⟨rfl, rfl, fun _ => delivers.arrived, trivial⟩
  obtain ⟨socket', same, -⟩ := (readFrames_refines calls).returns represents read
  rw [same]

theorem writeFrames_delivered (frames : List Frame) {socket : Socket σ}
    (sends : .failed ∉ socket.acceptances) :
    ((writeFrames Socket.transport (frames.map Frame.payload)).run socket).1 =
        frames.map (fun _ => .ok ()) ∧
      ((writeFrames Socket.transport (frames.map Frame.payload)).run socket).2.sent =
        socket.sent ++ wire frames := by
  have represents : Represents False (.failed ∉ ·) socket (socket.pipe []) :=
    ⟨rfl, rfl, nofun, sends⟩
  obtain ⟨socket', same, after⟩ := (writeFrames_refines _).returns represents (writeFrames_run frames _)
  rw [same]
  exact ⟨rfl, after.sent⟩

theorem stuck_nil : Stuck [] := ⟨fun header => absurd header (by simp)⟩

/-- What was written as frames is read back frame by frame and then closed, however the sends
took it and however it arrives. A payload above the cap is refused and no byte of it is sent. -/
theorem frames_roundTrip {writer : Socket σ} (sends : .failed ∉ writer.acceptances)
    (fresh : writer.sent = []) (frames : List Frame) {reader : Socket τ}
    (delivers : Delivers reader.arrivals
      ((writeFrames Socket.transport (frames.map Frame.payload)).run writer).2.sent) :
    ((writeFrames Socket.transport (frames.map Frame.payload)).run writer).1 =
        frames.map (fun _ => .ok ()) ∧
      (∀ calls > frames.length, ((readFrames Socket.transport calls).run reader).1 =
        (frames.map Frame.payload, some [])) ∧
      ∀ payload, payload.length > kMaxFrame →
        (writeFrame Socket.transport payload).run writer = (.error oversizeOut, writer) := by
  obtain ⟨accepted, sent⟩ := writeFrames_delivered frames sends
  rw [sent, fresh, List.nil_append] at delivers
  refine ⟨accepted, ?_, ?_⟩
  · intro calls enough
    exact readFrames_delivered frames stuck_nil (by rwa [List.append_nil]) enough
  · intro payload large
    rw [writeFrame, if_pos large]
    rfl

def helloWriter : Socket Unit := ⟨[], [.room 3 (by decide), .interrupted], [], ()⟩

def helloReader : Socket Unit :=
  ⟨[.interrupted, .piece (encodeFrame (ascii "hello world") ++ [0]) (by simp), .interrupted,
    .piece [0, 0, 0] (by simp)], [], [], ()⟩

/-- Two messages, one of them empty, over a socket that takes three bytes and is interrupted. -/
theorem frames_roundTrip_hello :
    ((writeFrames Socket.transport [ascii "hello world", []]).run helloWriter).1 =
        [.ok (), .ok ()] ∧
      (∀ calls > 2, ((readFrames Socket.transport calls).run helloReader).1 =
        ([ascii "hello world", []], some [])) ∧
      ∀ payload, payload.length > kMaxFrame →
        (writeFrame Socket.transport payload).run helloWriter = (.error oversizeOut, helloWriter) := by
  have sends : .failed ∉ helloWriter.acceptances := by simp [helloWriter]
  have sent := (writeFrames_delivered [⟨ascii "hello world", by decide⟩, ⟨[], by decide⟩] sends).2
  refine frames_roundTrip sends rfl [⟨ascii "hello world", by decide⟩, ⟨[], by decide⟩] ?_
  rw [sent]
  exact ⟨by simp [helloReader], rfl⟩

end StreamEngine.Ipc
