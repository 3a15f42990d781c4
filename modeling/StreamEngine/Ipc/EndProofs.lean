import StreamEngine.Ipc.Oversize

/-! How a connection ends, also when its calls fail. Whatever arrives and however the sends end,
the engine comes to its end, and the outcome tells whether it was greeted, whether every answer
was sent, and whether what arrived ended between frames. -/
namespace StreamEngine.Ipc
open ByteString Json Refinement

variable {σ : Type} {table : Table σ} {socket : Socket σ} {engineVersion : Bytes}

/-- What is left for later sends when a frame with this payload is sent, `none` when it is not. -/
def acceptedFrame (payload : Bytes) (acceptances : List Acceptance) : Option (List Acceptance) :=
  if payload.length > kMaxFrame then none
  else (accepted 4 acceptances).bind (accepted payload.length)

/-- Every one of these payloads is sent. -/
def Sends : List Bytes → List Acceptance → Prop
  | [], _ => True
  | payload :: payloads, acceptances =>
    ∃ rest ∈ acceptedFrame payload acceptances, Sends payloads rest

/-- The answers to these frames, when every one is sent. -/
def replies (table : Table σ) : List Frame → σ → List Bytes
  | [], _ => []
  | frame :: frames, app =>
    match request? frame.payload with
    | none => replies table frames app
    | some msg => reply table msg app :: replies table frames (answer table msg app).2.2

/-- A greeting and frames that are answered, and then the end of what arrives, by a close or by a
`recv` that fails. That it may come in the header of another frame is not noticed. -/
def Clean (engineVersion : Bytes) (table : Table σ) (socket : Socket σ) : Prop :=
  ∃ first frames tail, arrived socket.arrivals = wire (first :: frames) ++ tail ∧ tail.length < 4 ∧
    checkHello first.payload = .ok () ∧
    Sends (dump (helloMessage engineVersion) :: replies table frames socket.app) socket.acceptances

/-! ### Frames over a socket whose calls may fail -/

/-- A frame that has arrived is read, and nothing else changes. -/
theorem readFrame_arrived (socket : Socket σ) {frame : Frame} {rest : Bytes}
    (input : arrived socket.arrivals = encodeFrame frame.payload ++ rest) :
    ∃ arrivals, arrived arrivals = rest ∧ (readFrame Socket.transport).run socket =
      (.ok frame.payload, { socket with arrivals := arrivals }) := by
  have represents : Represents True (· = socket.acceptances) socket
      (socket.pipe (encodeFrame frame.payload ++ rest)) := ⟨rfl, rfl, fun _ => input, rfl⟩
  obtain ⟨socket', read, sent, app, arrivals, accepts⟩ :=
    readFrame_refines.returns represents (readFrame_run rfl)
  obtain ⟨arrivals', acceptances', sent', app'⟩ := socket'
  cases sent
  cases app
  cases accepts
  exact ⟨arrivals', arrivals ⟨_, rfl⟩, read⟩

theorem readFrame_ended (socket : Socket σ) (stuck : Stuck (arrived socket.arrivals)) :
    ∃ socket', (readFrame Socket.transport).run socket =
      (.error (ending (arrived socket.arrivals)), socket') := by
  have represents : Represents True (fun _ => True) socket (socket.pipe (arrived socket.arrivals)) :=
    ⟨rfl, rfl, fun _ => rfl, trivial⟩
  have still : Stuck (socket.pipe (arrived socket.arrivals)).input := stuck
  obtain ⟨pipe', ended⟩ := readFrame_stuck still
  obtain ⟨socket', read, -⟩ := readFrame_refines.returns represents ended
  exact ⟨socket', read⟩

/-- A frame is sent just if the sends take it, and then nothing else changes. -/
theorem writeFrame_accepted (payload : Bytes) (socket : Socket σ) :
    match acceptedFrame payload socket.acceptances with
    | some rest => (writeFrame Socket.transport payload).run socket =
        (.ok (), { socket with acceptances := rest, sent := socket.sent ++ encodeFrame payload })
    | none => ∃ err socket', (writeFrame Socket.transport payload).run socket =
        (.error err, socket') := by
  unfold acceptedFrame writeFrame
  by_cases large : payload.length > kMaxFrame
  · rw [if_pos large, if_pos large]
    exact ⟨_, socket, rfl⟩
  rw [if_neg large, if_neg large]
  have header := Socket.writeAll_run (frameHeader payload.length) socket
  rw [length_frameHeader] at header
  cases first : accepted 4 socket.acceptances with
  | none =>
    rw [first] at header
    obtain ⟨socket', failed⟩ := header
    dsimp only [Option.bind]
    rw [run_bind_of failed]
    exact ⟨_, socket', rfl⟩
  | some rest =>
    rw [first] at header
    dsimp only at header
    dsimp only [Option.bind]
    rw [run_bind_of header, if_neg (by decide)]
    by_cases empty : payload.length = 0
    · rw [if_pos empty, empty, accepted, encodeFrame, List.length_eq_zero_iff.mp empty, List.append_nil]
      rfl
    rw [if_neg empty]
    have body := Socket.writeAll_run payload
      { socket with acceptances := rest, sent := socket.sent ++ frameHeader payload.length }
    cases second : accepted payload.length rest with
    | none =>
      rw [second] at body
      obtain ⟨socket', failed⟩ := body
      rw [run_bind_of failed]
      exact ⟨_, socket', rfl⟩
    | some rest' =>
      rw [second] at body
      dsimp only at body
      rw [run_bind_of body, if_neg (by decide), List.append_assoc]
      rfl

/-! ### A stream is made of frames in one way only -/

theorem payload_injective : Function.Injective Frame.payload := by
  rintro ⟨payload, fits⟩ ⟨payload', fits'⟩ same
  obtain rfl : payload = payload' := same
  rfl

theorem frames_unique {frames frames' : List Frame} {tail tail' : Bytes} (stuck : Stuck tail)
    (stuck' : Stuck tail') (same : wire frames ++ tail = wire frames' ++ tail') :
    frames = frames' ∧ tail = tail' := by
  have enough : frames.length < frames.length + frames'.length + 1 := by omega
  have enough' : frames'.length < frames.length + frames'.length + 1 := by omega
  obtain ⟨_, left⟩ := readFrames_run frames stuck ⟨wire frames ++ tail, [], [], ()⟩ rfl enough
  obtain ⟨_, right⟩ := readFrames_run frames' stuck' ⟨wire frames ++ tail, [], [], ()⟩ same enough'
  have results := (Prod.mk.inj (left.symm.trans right)).1
  exact ⟨List.map_injective_iff.mpr payload_injective (Prod.mk.inj results).1,
    tail_unique stuck stuck' same⟩

theorem wire_length (frames : List Frame) : frames.length ≤ (wire frames).length := by
  induction frames with
  | nil => exact Nat.zero_le _
  | cons frame frames ih =>
    rw [wire, List.flatMap_cons, List.length_append, List.length_cons, encodeFrame, List.length_append,
      length_frameHeader]
    have rest : frames.length ≤ (frames.flatMap fun frame => encodeFrame frame.payload).length := ih
    omega

/-! ### The end -/

/-- The loop comes to its end, and returns true just if every answer was sent and what arrived
ended between frames or in a header. -/
theorem run_exits (table : Table σ) (frames : List Frame) {tail : Bytes} (stuck : Stuck tail)
    (socket : Socket σ) (input : arrived socket.arrivals = wire frames ++ tail) {fuel : Nat}
    (enough : frames.length < fuel) :
    ∃ result socket', (run Socket.transport (Socket.handlers table) fuel).run socket =
        (some result, socket') ∧
      (result = .ok () ↔
        tail.length < 4 ∧ Sends (replies table frames socket.app) socket.acceptances) := by
  induction frames generalizing socket fuel with
  | nil =>
    obtain ⟨fuel, rfl⟩ : ∃ n, fuel = n + 1 := ⟨fuel - 1, by simp at enough; omega⟩
    obtain rfl : arrived socket.arrivals = tail := input
    obtain ⟨socket', read⟩ := readFrame_ended socket stuck
    rw [run, run_bind_of read]
    refine ⟨_, socket', rfl, ?_⟩
    rw [replies, Sends, and_true, ← ending_eq_nil]
    split
    · exact iff_of_true rfl ‹_›
    · exact iff_of_false (by simp) ‹_›
  | cons frame frames ih =>
    obtain ⟨fuel, rfl⟩ : ∃ n, fuel = n + 1 := ⟨fuel - 1, by simp at enough; omega⟩
    rw [List.length_cons, Nat.add_lt_add_iff_right] at enough
    rw [wire_cons] at input
    obtain ⟨arrivals, later, read⟩ := readFrame_arrived socket input
    rw [run, run_bind_of read]
    simp only [replies]
    cases request : request? frame.payload with
    | none => exact ih { socket with arrivals := arrivals } later enough
    | some msg =>
      dsimp only
      rw [run_bind_of (Socket.dispatch_run table msg _), Sends]
      have written := writeFrame_accepted (reply table msg socket.app)
        { socket with arrivals := arrivals, app := (answer table msg socket.app).2.2 }
      cases left : acceptedFrame (reply table msg socket.app) socket.acceptances with
      | none =>
        rw [left] at written
        obtain ⟨err, socket', failed⟩ := written
        have ended : (writeFrame Socket.transport (dump (response (echoedId msg)
            (answer table msg socket.app).1))).run _ = (.error err, socket') := failed
        rw [run_bind_of ended]
        exact ⟨.error err, socket', rfl, iff_of_false (by simp) (by simp)⟩
      | some rest =>
        rw [left] at written
        have sent : (writeFrame Socket.transport (dump (response (echoedId msg)
            (answer table msg socket.app).1))).run _ = (.ok (), _) := written
        rw [run_bind_of sent]
        simpa using ih ⟨arrivals, rest, _, _⟩ later enough

/-! ### The greeting -/

/-- Nothing is read when the engine's own greeting is not sent. -/
theorem handshake_unsent
    (unsent : acceptedFrame (dump (helloMessage engineVersion)) socket.acceptances = none) :
    ∃ err socket', (handshake Socket.transport engineVersion).run socket = (.error err, socket') := by
  have written := writeFrame_accepted (dump (helloMessage engineVersion)) socket
  rw [unsent] at written
  obtain ⟨err, socket', failed⟩ := written
  rw [handshake, run_bind_of failed]
  exact ⟨err, socket', rfl⟩

section Sent
variable {acceptances : List Acceptance}
  (sent : acceptedFrame (dump (helloMessage engineVersion)) socket.acceptances = some acceptances)
include sent

theorem handshake_ended (stuck : Stuck (arrived socket.arrivals)) :
    ∃ err socket', (handshake Socket.transport engineVersion).run socket = (.error err, socket') := by
  have written := writeFrame_accepted (dump (helloMessage engineVersion)) socket
  rw [sent] at written
  obtain ⟨socket', read⟩ := readFrame_ended
    ⟨socket.arrivals, acceptances, socket.sent ++ encodeFrame _, socket.app⟩ stuck
  rw [handshake, run_bind_of written, run_bind_of read]
  exact ⟨_, socket', rfl⟩

theorem handshake_greeted {first : Frame} {rest : Bytes}
    (input : arrived socket.arrivals = encodeFrame first.payload ++ rest) :
    ∃ arrivals output, arrived arrivals = rest ∧
      (handshake Socket.transport engineVersion).run socket =
        (checkHello first.payload, ⟨arrivals, acceptances, output, socket.app⟩) := by
  have written := writeFrame_accepted (dump (helloMessage engineVersion)) socket
  rw [sent] at written
  obtain ⟨arrivals, later, read⟩ := readFrame_arrived
    ⟨socket.arrivals, acceptances, socket.sent ++ encodeFrame _, socket.app⟩ input
  rw [handshake, run_bind_of written, run_bind_of read]
  exact ⟨arrivals, _, later, rfl⟩

end Sent

theorem sends_cons {payload : Bytes} {payloads : List Bytes} {acceptances rest : List Acceptance}
    (sent : acceptedFrame payload acceptances = some rest) :
    Sends (payload :: payloads) acceptances ↔ Sends payloads rest := by
  simp [Sends, sent]

theorem not_sends_failed (payload : Bytes) (payloads : List Bytes) (acceptances : List Acceptance) :
    ¬ Sends (payload :: payloads) (.failed :: acceptances) := by
  have unsent : acceptedFrame payload (.failed :: acceptances) = none := by
    unfold acceptedFrame
    split <;> rfl
  simp [Sends, unsent]

/-- A connection is clean by its first frame and by what is left when no frame is. -/
theorem clean_iff {first : Frame} {frames : List Frame} {tail : Bytes} (stuck : Stuck tail)
    (input : arrived socket.arrivals = wire (first :: frames) ++ tail) :
    Clean engineVersion table socket ↔ tail.length < 4 ∧ checkHello first.payload = .ok () ∧
      Sends (dump (helloMessage engineVersion) :: replies table frames socket.app)
        socket.acceptances := by
  constructor
  · rintro ⟨first', frames', tail', same, short, held⟩
    obtain ⟨both, rfl⟩ := frames_unique stuck (stuck_short short) (input.symm.trans same)
    obtain ⟨rfl, rfl⟩ := List.cons.inj both
    exact ⟨short, held⟩
  · rintro ⟨short, held⟩
    exact ⟨first, frames, tail, input, short, held⟩

/-! ### The connection -/

theorem serve_refused {err : Bytes} {socket' : Socket σ} (table : Table σ) (fuel : Nat)
    (failed : (handshake Socket.transport engineVersion).run socket = (.error err, socket')) :
    (serve Socket.transport (Socket.handlers table) engineVersion fuel).run socket =
      (.handshakeFailed err, socket') := by
  rw [serve, run_bind_of failed]
  rfl

/-- A connection comes to its end, and was served to it just if it was clean. -/
theorem serve_ends (engineVersion : Bytes) (table : Table σ) {fuel : Nat}
    (enough : (arrived socket.arrivals).length < fuel) :
    ∃ exit socket', (serve Socket.transport (Socket.handlers table) engineVersion fuel).run socket =
        (exit, socket') ∧ exit ≠ .serving ∧
      (exit = .ran (.ok ()) ↔ Clean engineVersion table socket) := by
  have refused : ¬ Clean engineVersion table socket →
      (∃ err socket', (handshake Socket.transport engineVersion).run socket = (.error err, socket')) →
      ∃ exit socket', (serve Socket.transport (Socket.handlers table) engineVersion fuel).run socket =
          (exit, socket') ∧ exit ≠ .serving ∧
        (exit = .ran (.ok ()) ↔ Clean engineVersion table socket) := by
    rintro unclean ⟨err, socket', failed⟩
    exact ⟨_, socket', serve_refused table fuel failed, nofun, iff_of_false nofun unclean⟩
  obtain ⟨frames, tail, input, stuck⟩ := exists_frames (arrived socket.arrivals)
  cases greeting : acceptedFrame (dump (helloMessage engineVersion)) socket.acceptances with
  | none =>
    refine refused ?_ (handshake_unsent greeting)
    rintro ⟨-, -, -, -, -, -, acceptances, sent, -⟩
    rw [greeting] at sent
    contradiction
  | some acceptances =>
    cases frames with
    | nil =>
      have ended : Stuck (arrived socket.arrivals) := by
        rw [input]
        exact stuck
      refine refused ?_ (handshake_ended greeting ended)
      rintro ⟨first, frames, tail', same, short, -⟩
      have none := (frames_unique stuck (stuck_short short) (input.symm.trans same)).1
      simp at none
    | cons first frames =>
      have few : frames.length < fuel := by
        have least := wire_length (first :: frames)
        rw [input, List.length_append] at enough
        rw [List.length_cons] at least
        omega
      obtain ⟨arrivals, output, later, shaken⟩ :=
        handshake_greeted greeting (input.trans (wire_cons first frames tail))
      have clean : Clean engineVersion table socket ↔ _ := clean_iff stuck input
      rw [sends_cons greeting] at clean
      cases checked : checkHello first.payload with
      | error err =>
        rw [checked] at shaken clean
        exact refused (by simp [clean]) ⟨err, _, shaken⟩
      | ok =>
        rw [checked] at shaken clean
        obtain ⟨result, socket', ran, ok_iff⟩ := run_exits table frames stuck
          ⟨arrivals, acceptances, output, socket.app⟩ later few
        refine ⟨.ran result, socket', ?_, nofun, ?_⟩
        · rw [serve, run_bind_of shaken]
          dsimp only
          rw [run_bind_of ran]
          rfl
        · rw [clean]
          simpa using ok_iff

end StreamEngine.Ipc
