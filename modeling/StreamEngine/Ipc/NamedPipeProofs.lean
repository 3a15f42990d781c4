import StreamEngine.Ipc.NamedPipe
import StreamEngine.Ipc.SocketProofs

/-! The engine does on Windows what it does elsewhere. A named pipe is a socket that is never
interrupted and fails where a transfer moves nothing; over both, the same stream is answered with
the same bytes. -/
namespace StreamEngine.Ipc
open ByteString Json Refinement

/-! ### Transports that do the same -/

section Carried
variable {τ τ' : Type}

/-- From related states both transports do the same with what is no longer than a frame. -/
structure Carries (related : τ → τ' → Prop) (t : Transport (StateM τ)) (t' : Transport (StateM τ')) :
    Prop where
  readExact : ∀ n, n ≤ kMaxFrame → Refines related (t.readExact n) (t'.readExact n) fun _ => related
  writeAll : ∀ data, data.length ≤ kMaxFrame →
    Refines related (t.writeAll data) (t'.writeAll data) fun _ => related

variable {related : τ → τ' → Prop} {t : Transport (StateM τ)} {t' : Transport (StateM τ')}

namespace Carries

theorem readFrame (carries : Carries related t t') :
    Refines related (readFrame t) (readFrame t') fun _ => related := by
  refine refines_bind (carries.readExact 4 (by decide)) ?_
  rintro (_ | header)
  · exact refines_pure fun _ _ start => start
  · refine refines_ite (fun _ => refines_pure fun _ _ start => start) fun fits => ?_
    refine refines_ite (fun _ => refines_pure fun _ _ start => start) fun _ => ?_
    refine refines_bind (carries.readExact _ (not_lt.mp fits)) ?_
    rintro (_ | payload)
    · exact refines_pure fun _ _ start => start
    · exact refines_pure fun _ _ start => start

theorem writeFrame (carries : Carries related t t') (payload : Bytes) :
    Refines related (writeFrame t payload) (writeFrame t' payload) fun _ => related := by
  refine refines_ite (fun _ => refines_pure fun _ _ start => start) fun fits => ?_
  have header : (frameHeader payload.length).length ≤ kMaxFrame := by
    rw [length_frameHeader]
    decide
  refine refines_bind (carries.writeAll _ header) fun ok => ?_
  refine refines_ite (fun _ => refines_pure fun _ _ start => start) fun _ => ?_
  refine refines_ite (fun _ => refines_pure fun _ _ start => start) fun _ => ?_
  refine refines_bind (carries.writeAll _ (not_lt.mp fits)) fun ok => ?_
  exact refines_ite (fun _ => refines_pure fun _ _ start => start)
    fun _ => refines_pure fun _ _ start => start

theorem handshake (carries : Carries related t t') (engineVersion : Bytes) :
    Refines related (handshake t engineVersion) (handshake t' engineVersion) fun _ => related := by
  refine refines_bind (carries.writeFrame _) ?_
  rintro (err | ⟨⟩)
  · exact refines_pure fun _ _ start => start
  · refine refines_bind carries.readFrame ?_
    rintro (err | raw)
    · exact refines_pure fun _ _ start => start
    · exact refines_pure fun _ _ start => start

variable {handlers : Handlers (StateM τ)} {handlers' : Handlers (StateM τ')}

theorem run (carries : Carries related t t')
    (dispatches : ∀ msg, Refines related (dispatch handlers msg) (dispatch handlers' msg) fun _ => related)
    (fuel : Nat) : Refines related (run t handlers fuel) (run t' handlers' fuel) fun _ => related := by
  induction fuel with
  | zero => exact refines_pure fun _ _ start => start
  | succ fuel ih =>
    refine refines_bind carries.readFrame ?_
    rintro (err | raw)
    · exact refines_pure fun _ _ start => start
    · dsimp only
      cases request? raw with
      | none => exact ih
      | some msg =>
        refine refines_bind (dispatches msg) fun outcome => ?_
        refine refines_bind (carries.writeFrame _) ?_
        rintro (err | ⟨⟩)
        · exact refines_pure fun _ _ start => start
        · exact ih

theorem serve (carries : Carries related t t')
    (dispatches : ∀ msg, Refines related (dispatch handlers msg) (dispatch handlers' msg) fun _ => related)
    (engineVersion : Bytes) (fuel : Nat) :
    Refines related (serve t handlers engineVersion fuel) (serve t' handlers' engineVersion fuel)
      fun _ => related := by
  refine refines_bind (carries.handshake engineVersion) ?_
  rintro (err | ⟨⟩)
  · exact refines_pure fun _ _ start => start
  · refine refines_bind (carries.run dispatches fuel) ?_
    rintro (_ | result)
    · exact refines_pure fun _ _ start => start
    · exact refines_pure fun _ _ start => start

end Carries
end Carried

/-! ### The pipe as a socket -/

/-- What `recv` would meet. -/
def PipeRead.arrival : PipeRead → Arrival
  | .piece data nonempty => .piece data nonempty
  | .empty | .failed => .failed

def PipeWrite.acceptance : PipeWrite → Acceptance
  | .room (k + 1) => .room (k + 1) k.succ_pos
  | .room 0 | .failed => .failed

namespace NamedPipe
variable {σ : Type}

def socket (pipe : NamedPipe σ) : Socket σ :=
  ⟨pipe.reads.map PipeRead.arrival, pipe.writes.map PipeWrite.acceptance, pipe.sent, pipe.app⟩

def handlers (table : Table σ) : Handlers (StateM (NamedPipe σ)) := fun method =>
  (table method).map fun handler params => do
    let pipe ← get
    let (outcome, app) := handler params pipe.app
    set { pipe with app := app }
    return outcome

end NamedPipe

theorem dword_of_lt {n : Nat} (small : n < 4294967296) : dword n = n := Nat.mod_eq_of_lt small

theorem readExact_data {n : Nat} {got bytes : Bytes} {arrivals rest : List Arrival}
    (less : got.length < n) (received : recv (n - got.length) arrivals = (.data bytes, rest)) :
    readExact n got arrivals = readExact n (got ++ bytes) rest := by
  rw [readExact, if_pos less]
  split <;> simp_all

theorem readExact_ends {n : Nat} {got : Bytes} {arrivals rest : List Arrival} (less : got.length < n)
    (received : recv (n - got.length) arrivals = (.closed, rest) ∨
      recv (n - got.length) arrivals = (.failed, rest)) : readExact n got arrivals = (none, rest) := by
  rw [readExact, if_pos less]
  split <;> simp_all

theorem readExact_enough {n : Nat} {got : Bytes} {arrivals : List Arrival} (enough : ¬ got.length < n) :
    readExact n got arrivals = (some got, arrivals) := by
  rw [readExact, if_neg enough]

/-- What `ReadFile` gets `recv` gets. -/
theorem recv_bytes {n : Nat} {reads rest : List PipeRead} {bytes : Bytes} (some : bytes ≠ [])
    (read : PipeTransport.readFile n reads = (.some bytes, rest)) :
    recv n (reads.map PipeRead.arrival) = (.data bytes, rest.map PipeRead.arrival) := by
  cases reads with
  | nil => cases read
  | cons outcome reads =>
    cases outcome with
    | failed => cases read
    | empty =>
      cases read
      contradiction
    | piece data nonempty =>
      rw [PipeTransport.readFile] at read
      rw [List.map_cons, PipeRead.arrival, recv]
      split at read
      · cases read
        rw [dif_pos ‹_›]
        rfl
      · cases read
        rw [dif_neg ‹_›]

/-- Where `ReadFile` gets nothing `recv` ends or fails. -/
theorem recv_ends {n : Nat} {reads rest : List PipeRead} {result : Option Bytes} (positive : 0 < n)
    (nothing : result = none ∨ result = some [])
    (read : PipeTransport.readFile n reads = (result, rest)) :
    recv n (reads.map PipeRead.arrival) = (.closed, rest.map PipeRead.arrival) ∨
      recv n (reads.map PipeRead.arrival) = (.failed, rest.map PipeRead.arrival) := by
  cases reads with
  | nil =>
    cases read
    exact .inl rfl
  | cons outcome reads =>
    cases outcome with
    | failed | empty =>
      cases read
      exact .inr rfl
    | piece data nonempty =>
      have got : result = some (data.take n) := by
        rw [PipeTransport.readFile] at read
        split at read
        · cases read
          rfl
        · cases read
          rw [List.take_of_length_le (by omega)]
      simp [got, nonempty, positive.ne'] at nothing

/-- `read_exact` of no more than a `DWORD` counts. -/
theorem readExact_arrivals (n : Nat) (got : Bytes) (reads : List PipeRead) (small : n < 4294967296) :
    readExact n got (reads.map PipeRead.arrival) =
      ((PipeTransport.readExact n got reads).1,
        (PipeTransport.readExact n got reads).2.map PipeRead.arrival) := by
  fun_induction PipeTransport.readExact n got reads with
  | case1 got reads less rest failed =>
    rw [dword_of_lt (by omega)] at failed
    exact readExact_ends less (recv_ends (Nat.sub_pos_of_lt less) (.inl rfl) failed)
  | case2 got reads less bytes rest read none =>
    rw [dword_of_lt (by omega)] at read
    obtain rfl := List.length_eq_zero_iff.mp none
    exact readExact_ends less (recv_ends (Nat.sub_pos_of_lt less) (.inr rfl) read)
  | case3 got reads less bytes rest read some ih =>
    rw [dword_of_lt (by omega)] at read
    rw [readExact_data less (recv_bytes (List.ne_nil_of_length_pos (Nat.pos_of_ne_zero some)) read)]
    exact ih
  | case4 got reads enough => exact readExact_enough enough

theorem writeAll_bytes {data : Bytes} {sent n : Nat} {acceptances rest : List Acceptance}
    {wire : Bytes} (less : sent < data.length)
    (taken : send (data.drop sent) acceptances = (.bytes n, rest)) :
    writeAll data sent acceptances wire =
      writeAll data (sent + n) rest (wire ++ (data.drop sent).take n) := by
  rw [writeAll, if_pos less]
  split <;> simp_all

theorem writeAll_failed {data : Bytes} {sent : Nat} {acceptances rest : List Acceptance}
    {wire : Bytes} (less : sent < data.length)
    (taken : send (data.drop sent) acceptances = (.failed, rest)) :
    writeAll data sent acceptances wire = (false, rest, wire) := by
  rw [writeAll, if_pos less]
  split <;> simp_all

theorem writeAll_enough {data : Bytes} {sent : Nat} {acceptances : List Acceptance} {wire : Bytes}
    (enough : ¬ sent < data.length) : writeAll data sent acceptances wire = (true, acceptances, wire) := by
  rw [writeAll, if_neg enough]

/-- `WriteFile` of a buffer that is not empty. -/
theorem send_acceptances {data : Bytes} {writes rest : List PipeWrite} {result : Option Nat}
    (some : 0 < data.length) (written : PipeTransport.writeFile data writes = (result, rest)) :
    (∀ n, result = .some n → 0 < n →
      send data (writes.map PipeWrite.acceptance) = (.bytes n, rest.map PipeWrite.acceptance)) ∧
    (result = none ∨ result = .some 0 →
      send data (writes.map PipeWrite.acceptance) = (.failed, rest.map PipeWrite.acceptance)) := by
  cases writes with
  | nil =>
    cases written
    simp [send, some.ne']
  | cons outcome writes =>
    cases outcome with
    | failed =>
      cases written
      simp [PipeWrite.acceptance, send]
    | room k =>
      cases written
      cases k with
      | zero => simp [PipeWrite.acceptance, send]
      | succ k => simp [PipeWrite.acceptance, send, some.ne']

theorem writeAll_acceptances (data : Bytes) (sent : Nat) (writes : List PipeWrite) (wire : Bytes)
    (small : data.length < 4294967296) :
    writeAll data sent (writes.map PipeWrite.acceptance) wire =
      ((PipeTransport.writeAll data sent writes wire).1,
        (PipeTransport.writeAll data sent writes wire).2.1.map PipeWrite.acceptance,
        (PipeTransport.writeAll data sent writes wire).2.2) := by
  have whole : ∀ sent, (data.drop sent).take (dword (data.length - sent)) = data.drop sent := by
    intro sent
    rw [dword_of_lt (by omega), ← List.length_drop, List.take_length]
  have left : ∀ sent, sent < data.length → 0 < (data.drop sent).length := by
    intro sent less
    rw [List.length_drop]
    omega
  fun_induction PipeTransport.writeAll data sent writes wire with
  | case1 sent writes wire less buffer rest failed =>
    rw [show buffer = data.drop sent from whole sent] at failed
    exact writeAll_failed less ((send_acceptances (left sent less) failed).2 (.inl rfl))
  | case2 sent writes wire less buffer rest written =>
    rw [show buffer = data.drop sent from whole sent] at written
    exact writeAll_failed less ((send_acceptances (left sent less) written).2 (.inr rfl))
  | case3 sent writes wire less buffer n rest written some ih =>
    rw [show buffer = data.drop sent from whole sent] at written ih ⊢
    have taken := (send_acceptances (left sent less) written).1 n rfl (Nat.pos_of_ne_zero some)
    rw [writeAll_bytes less taken]
    exact ih
  | case4 sent writes wire enough => exact writeAll_enough enough

section Served
variable {σ : Type}

theorem namedPipe_carries : Carries (fun (pipe : NamedPipe σ) (socket : Socket σ) => pipe.socket = socket)
    NamedPipe.transport Socket.transport where
  readExact n fits := by
    rintro pipe socket rfl
    have small : n < 4294967296 := by
      rw [kMaxFrame] at fits
      omega
    refine ⟨_, _, _, rfl, ?_, rfl⟩
    have onSocket : (Socket.transport.readExact n).run pipe.socket =
        ((readExact n [] (pipe.reads.map PipeRead.arrival)).1, { pipe.socket with
          arrivals := (readExact n [] (pipe.reads.map PipeRead.arrival)).2 }) := rfl
    rw [onSocket, readExact_arrivals n [] pipe.reads small]
    rfl
  writeAll data fits := by
    rintro pipe socket rfl
    have small : data.length < 4294967296 := by
      rw [kMaxFrame] at fits
      omega
    refine ⟨_, _, _, rfl, ?_, rfl⟩
    have onSocket : (Socket.transport.writeAll data).run pipe.socket =
        ((writeAll data 0 (pipe.writes.map PipeWrite.acceptance) pipe.sent).1, { pipe.socket with
          acceptances := (writeAll data 0 (pipe.writes.map PipeWrite.acceptance) pipe.sent).2.1
          sent := (writeAll data 0 (pipe.writes.map PipeWrite.acceptance) pipe.sent).2.2 }) := rfl
    rw [onSocket, writeAll_acceptances data 0 pipe.writes pipe.sent small]
    rfl

theorem namedPipe_dispatches (table : Table σ) (msg : Value) :
    Refines (fun (pipe : NamedPipe σ) (socket : Socket σ) => pipe.socket = socket)
      (dispatch (NamedPipe.handlers table) msg) (dispatch (Socket.handlers table) msg)
      fun _ pipe socket => pipe.socket = socket := by
  unfold dispatch NamedPipe.handlers Socket.handlers
  cases table (method msg) with
  | none => exact refines_pure fun _ _ start => start
  | some handler =>
    rintro pipe socket rfl
    exact ⟨_, _, _, rfl, rfl, rfl⟩

/-- Whatever `ReadFile` and `WriteFile` do, failures included, the engine does over the pipe what it
does over a socket: no length that it passes is cut by the cast to `DWORD`. -/
theorem serve_namedPipe (table : Table σ) (engineVersion : Bytes) (fuel : Nat) (pipe : NamedPipe σ) :
    (serve Socket.transport (Socket.handlers table) engineVersion fuel).run pipe.socket =
      (((serve NamedPipe.transport (NamedPipe.handlers table) engineVersion fuel).run pipe).1,
        ((serve NamedPipe.transport (NamedPipe.handlers table) engineVersion fuel).run pipe).2.socket) := by
  have same := namedPipe_carries.serve (namedPipe_dispatches table) engineVersion fuel
  obtain ⟨result, pipe', socket, onPipe, onSocket, rfl⟩ := same pipe pipe.socket rfl
  rw [onPipe, onSocket]

/-! ### One stream over both -/

theorem handshake_refines (engineVersion : Bytes) :
    Refines (Represents True (.failed ∉ ·)) (handshake (Socket.transport (σ := σ)) engineVersion)
      (handshake Pipe.transport engineVersion)
      fun result => Represents (result = .ok ()) (.failed ∉ ·) := by
  refine refines_bind (writeFrame_refines _) ?_
  rintro (err | ⟨⟩)
  · exact refines_pure fun _ _ start => start.while nofun
  · refine refines_bind readFrame_refines ?_
    rintro (err | raw)
    · exact refines_pure fun _ _ start => start.while nofun
    · exact refines_pure fun _ _ start => start.while fun _ => ⟨raw, rfl⟩

/-- The engine over a socket does what it does over the pipe that holds the stream. -/
theorem serve_refines (table : Table σ) (engineVersion : Bytes) (fuel : Nat) :
    Refines (Represents True (.failed ∉ ·))
      (serve Socket.transport (Socket.handlers table) engineVersion fuel)
      (serve Pipe.transport (Pipe.handlers table) engineVersion fuel)
      fun _ => Represents False (.failed ∉ ·) := by
  refine refines_bind (handshake_refines engineVersion) ?_
  rintro (err | ⟨⟩)
  · exact refines_pure fun _ _ start => start.while nofun
  · refine refines_reading rfl (refines_bind (run_refines table fuel) ?_)
    rintro (_ | result)
    · exact refines_pure fun _ _ start => start
    · exact refines_pure fun _ _ start => start

/-- On Windows and elsewhere a launcher that sends the same gets the same, in whatever pieces it
arrives and is taken, as long as no read and no write fails. -/
theorem platforms_agree (table : Table σ) (engineVersion : Bytes) (fuel : Nat) {pipe : NamedPipe σ}
    {socket : Socket σ} {stream : Bytes} (pipeReads : Delivers pipe.socket.arrivals stream)
    (socketReads : Delivers socket.arrivals stream) (pipeTakes : .failed ∉ pipe.socket.acceptances)
    (socketTakes : .failed ∉ socket.acceptances) (sent : pipe.sent = socket.sent)
    (app : pipe.app = socket.app) :
    let onPipe := (serve NamedPipe.transport (NamedPipe.handlers table) engineVersion fuel).run pipe
    let onSocket := (serve Socket.transport (Socket.handlers table) engineVersion fuel).run socket
    onPipe.1 = onSocket.1 ∧ onPipe.2.sent = onSocket.2.sent ∧ onPipe.2.app = onSocket.2.app := by
  have same := namedPipe_carries.serve (namedPipe_dispatches table) engineVersion fuel
  obtain ⟨result, pipe', _, onPipe, onSocket, rfl⟩ := same pipe pipe.socket rfl
  have first : Represents True (.failed ∉ ·) pipe.socket (socket.pipe stream) :=
    ⟨sent, app, fun _ => pipeReads.arrived, pipeTakes⟩
  have second : Represents True (.failed ∉ ·) socket (socket.pipe stream) :=
    ⟨rfl, rfl, fun _ => socketReads.arrived, socketTakes⟩
  have abstract := serve_refines table engineVersion fuel
  obtain ⟨left, socket', common, ran, ranCommon, ends⟩ := abstract _ _ first
  obtain ⟨right, socket'', common', ran', ranCommon', ends'⟩ := abstract _ _ second
  obtain ⟨rfl, rfl⟩ := Prod.mk.inj (onSocket.symm.trans ran)
  obtain ⟨rfl, rfl⟩ := Prod.mk.inj (ranCommon.symm.trans ranCommon')
  dsimp only
  rw [onPipe, ran']
  exact ⟨rfl, ends.sent.trans ends'.sent.symm, ends.app.trans ends'.app.symm⟩

/-- A greeting and a request, in one piece to the pipe and interrupted on the socket. -/
theorem platforms_agree_count : ∃ (pipe : NamedPipe Nat) (socket : Socket Nat),
    pipe.reads.length = 1 ∧ socket.arrivals.length = 4 ∧
      let onPipe := (serve NamedPipe.transport (NamedPipe.handlers countingTable) (ascii "dev") 3).run pipe
      let onSocket := (serve Socket.transport (Socket.handlers countingTable) (ascii "dev") 3).run socket
      onPipe.1 = onSocket.1 ∧ onPipe.2.sent = onSocket.2.sent ∧ onPipe.2.app = onSocket.2.app := by
  have hello : encodeFrame helloFrame.payload ≠ [] := by simp [encodeFrame, frameHeader]
  have count : encodeFrame countFrame.payload ≠ [] := by simp [encodeFrame, frameHeader]
  have both : wire [helloFrame, countFrame] ≠ [] := by simp [wire, encodeFrame, frameHeader]
  let pipe : NamedPipe Nat := ⟨[.piece _ both], [.room 5], [], 7⟩
  let socket : Socket Nat :=
    ⟨[.interrupted, .piece _ hello, .interrupted, .piece _ count], [.room 3 (by decide)], [], 7⟩
  have pipeReads : Delivers pipe.socket.arrivals (wire [helloFrame, countFrame]) :=
    ⟨by simp [pipe, NamedPipe.socket, PipeRead.arrival],
      by simp [pipe, NamedPipe.socket, PipeRead.arrival, Arrival.bytes]⟩
  have socketReads : Delivers socket.arrivals (wire [helloFrame, countFrame]) :=
    ⟨by simp [socket], by simp [socket, Arrival.bytes, wire]⟩
  have pipeTakes : .failed ∉ pipe.socket.acceptances := by
    simp [pipe, NamedPipe.socket, PipeWrite.acceptance]
  have socketTakes : .failed ∉ socket.acceptances := by simp [socket]
  refine ⟨pipe, socket, rfl, rfl, ?_⟩
  exact platforms_agree countingTable (ascii "dev") 3 pipeReads socketReads pipeTakes socketTakes rfl rfl

end Served

end StreamEngine.Ipc
