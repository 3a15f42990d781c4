import StreamEngine.Ipc.SocketProofs

/-! The end of a stream. A frame can be cut in its body, which is reported, and in its
header, which looks like a clean close. -/
namespace StreamEngine.Ipc
open ByteString Binary64 Json Refinement

variable {σ : Type}

/-- Complete frames and nothing else. -/
def AtBoundary (stream : Bytes) : Prop := ∃ frames, stream = wire frames

/-- Complete frames, and then one to three bytes. -/
def CutInHeader (stream : Bytes) : Prop :=
  ∃ frames part, stream = wire frames ++ part ∧ 0 < part.length ∧ part.length < 4

/-! ### Streams as frames -/

theorem frameHeader_frameLength (a b c d : UInt8) :
    frameHeader (frameLength [a, b, c, d]) = [a, b, c, d] := by
  have bounds := And.intro a.toNat_lt (And.intro b.toNat_lt (And.intro c.toNat_lt d.toNat_lt))
  simp only [frameHeader, frameLength, List.foldr_cons, List.foldr_nil, List.cons.injEq,
    ← UInt8.toNat_inj, UInt8.toNat_ofNat', and_true]
  omega

theorem wire_cons (frame : Frame) (frames : List Frame) (tail : Bytes) :
    wire (frame :: frames) ++ tail = encodeFrame frame.payload ++ (wire frames ++ tail) := by
  rw [wire, List.flatMap_cons, List.append_assoc]
  rfl

/-- A stream that is not stuck starts with a frame. -/
theorem exists_frame {stream : Bytes} (moves : ¬ Stuck stream) :
    ∃ (frame : Frame) (rest : Bytes), stream = encodeFrame frame.payload ++ rest := by
  obtain ⟨header, fits, whole⟩ : 4 ≤ stream.length ∧ frameLength (stream.take 4) ≤ kMaxFrame ∧
      4 + frameLength (stream.take 4) ≤ stream.length := by
    by_contra short
    apply moves
    constructor
    intro header fits
    by_contra whole
    exact short ⟨header, fits, not_lt.mp whole⟩
  match stream, header with
  | a :: b :: c :: d :: body, _ =>
    have four : (a :: b :: c :: d :: body).take 4 = [a, b, c, d] := rfl
    rw [four] at fits whole
    obtain ⟨payload, rest, rfl, size⟩ : ∃ payload rest, body = payload ++ rest ∧
        payload.length = frameLength [a, b, c, d] := by
      refine ⟨_, _, (List.take_append_drop (frameLength [a, b, c, d]) body).symm, ?_⟩
      rw [List.length_take]
      simp only [List.length_cons] at whole
      omega
    refine ⟨⟨payload, size.trans_le fits⟩, rest, ?_⟩
    simp only [encodeFrame, size, frameHeader_frameLength]
    rfl

/-- Every stream is some frames and something that no frame can be read from. -/
theorem exists_frames (stream : Bytes) : ∃ frames tail, stream = wire frames ++ tail ∧ Stuck tail := by
  induction size : stream.length using Nat.strong_induction_on generalizing stream with
  | _ n ih =>
    by_cases stuck : Stuck stream
    · exact ⟨[], stream, rfl, stuck⟩
    · obtain ⟨frame, rest, rfl⟩ := exists_frame stuck
      clear stuck
      have shorter : rest.length < n := by
        rw [← size, encodeFrame, frameHeader]
        simp only [List.length_append, List.length_cons]
        omega
      obtain ⟨frames, tail, rfl, stuck⟩ := ih rest.length shorter rest rfl
      exact ⟨frame :: frames, tail, (wire_cons frame frames tail).symm, stuck⟩

/-- In one way only. -/
theorem tail_unique {frames frames' : List Frame} {tail tail' : Bytes} (stuck : Stuck tail)
    (stuck' : Stuck tail') (same : wire frames ++ tail = wire frames' ++ tail') : tail = tail' := by
  have enough : frames.length < frames.length + frames'.length + 1 := by omega
  have enough' : frames'.length < frames.length + frames'.length + 1 := by omega
  have left := readFrames_run frames stuck ⟨wire frames ++ tail, [], [], ()⟩ rfl enough
  have right := readFrames_run frames' stuck' ⟨wire frames ++ tail, [], [], ()⟩ same enough'
  obtain ⟨_, left⟩ := left
  obtain ⟨_, right⟩ := right
  have results := (Prod.mk.inj (left.symm.trans right)).1
  have payloads := (Prod.mk.inj results).1
  have wires : wire frames = wire frames' := by
    have folded : ∀ frames, wire frames = (frames.map Frame.payload).flatMap encodeFrame := by
      intro frames
      rw [List.flatMap_map]
      rfl
    rw [folded, folded, payloads]
  rwa [wires, List.append_cancel_left_eq] at same

theorem stuck_short {tail : Bytes} (short : tail.length < 4) : Stuck tail :=
  ⟨fun header => absurd header (by omega)⟩

/-- Where a stream ends, by what is left of it. -/
theorem atBoundary_iff (frames : List Frame) {tail : Bytes} (stuck : Stuck tail) :
    AtBoundary (wire frames ++ tail) ↔ tail = [] := by
  constructor
  · rintro ⟨frames', same⟩
    rw [← List.append_nil (wire frames')] at same
    exact tail_unique stuck stuck_nil same
  · rintro rfl
    exact ⟨frames, List.append_nil _⟩

theorem cutInHeader_iff {frames : List Frame} {tail : Bytes} (stuck : Stuck tail) :
    CutInHeader (wire frames ++ tail) ↔ 0 < tail.length ∧ tail.length < 4 := by
  constructor
  · rintro ⟨frames', part, same, some, short⟩
    obtain rfl := tail_unique stuck (stuck_short short) same
    exact ⟨some, short⟩
  · rintro ⟨some, short⟩
    exact ⟨frames, tail, rfl, some, short⟩

theorem ending_eq_nil {tail : Bytes} : ending tail = [] ↔ tail.length < 4 := by
  unfold ending
  split
  · simp [*]
  · split
    · exact iff_of_false (by decide) (by assumption)
    · exact iff_of_false (by decide) (by assumption)

/-! ### The loop at the end of its stream -/

/-- `run` returns true for a clean close and the message of a failed read otherwise. -/
def finish (err : Bytes) : Except Bytes Unit := if err = [] then .ok () else .error err

theorem run_stuck (table : Table σ) (pipe : Pipe σ) (stuck : Stuck pipe.input) (fuel : Nat) :
    ∃ pipe', (run Pipe.transport (Pipe.handlers table) (fuel + 1)).run pipe =
      (some (finish (ending pipe.input)), pipe') := by
  obtain ⟨pipe', read⟩ := readFrame_stuck stuck
  rw [run, run_bind_of read]
  exact ⟨pipe', rfl⟩

/-- Over a stream the loop ends by the read that meets its end, or by an answer that no
frame can carry. -/
theorem run_finishes (table : Table σ) (frames : List Frame) {tail : Bytes} (stuck : Stuck tail)
    (pipe : Pipe σ) (input : pipe.input = wire frames ++ tail) {fuel : Nat}
    (enough : frames.length < fuel) :
    ∃ pipe', (run Pipe.transport (Pipe.handlers table) fuel).run pipe =
        (some (.error oversizeOut), pipe') ∨
      (run Pipe.transport (Pipe.handlers table) fuel).run pipe =
        (some (finish (ending tail)), pipe') := by
  induction frames generalizing pipe fuel with
  | nil =>
    obtain ⟨fuel, rfl⟩ : ∃ n, fuel = n + 1 := ⟨fuel - 1, by simp at enough; omega⟩
    obtain rfl : pipe.input = tail := input
    obtain ⟨pipe', finished⟩ := run_stuck table pipe stuck fuel
    exact ⟨pipe', Or.inr finished⟩
  | cons frame frames ih =>
    obtain ⟨fuel, rfl⟩ : ∃ n, fuel = n + 1 := ⟨fuel - 1, by simp at enough; omega⟩
    rw [List.length_cons, Nat.add_lt_add_iff_right] at enough
    rw [wire_cons] at input
    cases request : request? frame.payload with
    | none =>
      rw [run_ignored input request]
      exact ih _ rfl enough
    | some msg =>
      by_cases fits : (dump (response (echoedId msg) (answer table msg pipe.app).1)).length ≤ kMaxFrame
      · rw [run_answered input request fits]
        exact ih _ rfl enough
      · exact ⟨_, Or.inl (run_refused input request (not_le.mp fits) fuel)⟩

theorem run_finishes_delivered (table : Table σ) (frames : List Frame) {tail : Bytes}
    (stuck : Stuck tail) {socket : Socket σ}
    (delivers : Delivers socket.arrivals (wire frames ++ tail))
    (sends : .failed ∉ socket.acceptances) {fuel : Nat} (enough : frames.length < fuel) :
    ((run Socket.transport (Socket.handlers table) fuel).run socket).1 = some (.error oversizeOut) ∨
      ((run Socket.transport (Socket.handlers table) fuel).run socket).1 =
        some (finish (ending tail)) := by
  have represents : Represents True (.failed ∉ ·) socket (socket.pipe (wire frames ++ tail)) :=
    ⟨rfl, rfl, fun _ => delivers.arrived, sends⟩
  obtain ⟨pipe', refused | finished⟩ := run_finishes table frames stuck
    (socket.pipe (wire frames ++ tail)) rfl enough
  · obtain ⟨socket', same, -⟩ := (run_refines table fuel).returns represents refused
    exact Or.inl (by rw [same])
  · obtain ⟨socket', same, -⟩ := (run_refines table fuel).returns represents finished
    exact Or.inr (by rw [same])

/-- Repeated reads of a stream end with one message, which the request loop goes by, and it is
empty exactly for the streams that end at a boundary, unless the stream is cut in a header. -/
theorem close_iff {stream : Bytes} {arrivals : List Arrival} (delivers : Delivers arrivals stream) :
    ∃ payloads err,
      (∀ socket : Socket σ, socket.arrivals = arrivals → ∀ calls > payloads.length,
        ((readFrames Socket.transport calls).run socket).1 = (payloads, some err)) ∧
      (∀ (table : Table σ) (socket : Socket σ), socket.arrivals = arrivals →
        .failed ∉ socket.acceptances → ∀ fuel > payloads.length,
          ((run Socket.transport (Socket.handlers table) fuel).run socket).1 =
              some (.error oversizeOut) ∨
            ((run Socket.transport (Socket.handlers table) fuel).run socket).1 =
              some (finish err)) ∧
      ((err = [] ↔ AtBoundary stream) ↔ ¬ CutInHeader stream) := by
  obtain ⟨frames, tail, rfl, stuck⟩ := exists_frames stream
  refine ⟨frames.map Frame.payload, ending tail, ?_, ?_, ?_⟩
  · rintro socket rfl calls enough
    exact readFrames_delivered frames stuck delivers (by simpa using enough)
  · rintro table socket rfl sends fuel enough
    exact run_finishes_delivered table frames stuck delivers sends (by simpa using enough)
  · rw [atBoundary_iff frames stuck, cutInHeader_iff stuck, ending_eq_nil, ← List.length_eq_zero_iff]
    omega

/-- A frame whose body is cut after its first byte. -/
def bodyArrivals : List Arrival := [.piece [5, 0, 0] (by simp), .interrupted, .piece [0, 104] (by simp)]

theorem close_iff_body :
    ∃ payloads err,
      (∀ socket : Socket Unit, socket.arrivals = bodyArrivals → ∀ calls > payloads.length,
        ((readFrames Socket.transport calls).run socket).1 = (payloads, some err)) ∧
      (∀ (table : Table Unit) (socket : Socket Unit), socket.arrivals = bodyArrivals →
        .failed ∉ socket.acceptances → ∀ fuel > payloads.length,
          ((run Socket.transport (Socket.handlers table) fuel).run socket).1 =
              some (.error oversizeOut) ∨
            ((run Socket.transport (Socket.handlers table) fuel).run socket).1 =
              some (finish err)) ∧
      ((err = [] ↔ AtBoundary [5, 0, 0, 0, 104]) ↔ ¬ CutInHeader [5, 0, 0, 0, 104]) :=
  close_iff ⟨by simp [bodyArrivals], rfl⟩

/-- A connection that ends after two bytes of a header. -/
def cutSocket : Socket Unit := ⟨[.piece [5, 0] (by simp)], [], [], ()⟩

/-- It is taken for a clean close. -/
theorem close_in_header :
    Delivers cutSocket.arrivals [5, 0] ∧ ¬ AtBoundary [5, 0] ∧
      ((readFrames Socket.transport 1).run cutSocket).1 = ([], some []) ∧
      ((run Socket.transport (Socket.handlers fun _ => none) 1).run cutSocket).1 =
        some (.ok ()) := by
  have delivers : Delivers cutSocket.arrivals [5, 0] := ⟨by simp [cutSocket], rfl⟩
  have stuck : Stuck [5, 0] := stuck_short (by decide)
  refine ⟨delivers, ?_, ?_, ?_⟩
  · have bare := atBoundary_iff [] stuck
    rw [wire, List.flatMap_nil, List.nil_append] at bare
    rw [bare]
    decide
  · exact readFrames_delivered [] stuck delivers (by decide)
  · obtain ⟨pipe', finished⟩ := run_stuck (fun _ => none) (cutSocket.pipe [5, 0]) stuck 0
    have represents : Represents True (.failed ∉ ·) cutSocket (cutSocket.pipe [5, 0]) :=
      ⟨rfl, rfl, fun _ => delivers.arrived, by simp [cutSocket]⟩
    obtain ⟨socket', same, -⟩ := (run_refines _ 1).returns represents finished
    rw [same]
    rfl

end StreamEngine.Ipc
