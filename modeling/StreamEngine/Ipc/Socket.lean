import StreamEngine.Ipc.Frame

/-! The Unix socket under the frames. The kernel decides in what pieces `recv` delivers a
stream and how much of a buffer `send` takes, and may interrupt either call. -/
namespace StreamEngine.Ipc
open ByteString

/-- What `recv` meets next. After the last arrival the peer has closed. -/
inductive Arrival where
  | piece (data : Bytes) (nonempty : data ≠ [])
  | interrupted
  | failed

/-- How `send` ends next. After the last of these it takes whole buffers. -/
inductive Acceptance where
  | room (bytes : Nat) (positive : 0 < bytes)
  | interrupted
  | failed

inductive Received where
  | data (bytes : Bytes)
  | closed
  | interrupted
  | failed

inductive Taken where
  | bytes (n : Nat)
  | interrupted
  | failed

/-- `recv` for at most `n` bytes. The rest of a longer piece stays. -/
def recv (n : Nat) : List Arrival → Received × List Arrival
  | [] => (.closed, [])
  | .interrupted :: arrivals => (.interrupted, arrivals)
  | .failed :: arrivals => (.failed, arrivals)
  | .piece data nonempty :: arrivals =>
    if longer : n < data.length then
      (.data (data.take n), .piece (data.drop n) (by simpa [List.drop_eq_nil_iff] using longer) :: arrivals)
    else (.data data, arrivals)

/-- `send` of a buffer. -/
def send (data : Bytes) : List Acceptance → Taken × List Acceptance
  | [] => (.bytes data.length, [])
  | .interrupted :: acceptances => (.interrupted, acceptances)
  | .failed :: acceptances => (.failed, acceptances)
  | .room k _ :: acceptances => (.bytes (min k data.length), acceptances)

theorem recv_interrupted {n : Nat} {arrivals rest : List Arrival}
    (received : recv n arrivals = (.interrupted, rest)) : rest.length < arrivals.length := by
  cases arrivals with
  | nil => simp [recv] at received
  | cons arrival arrivals =>
    cases arrival with
    | piece data nonempty =>
      simp only [recv] at received
      split at received <;> simp at received
    | interrupted =>
      obtain rfl : arrivals = rest := by simpa [recv] using received
      simp
    | failed => simp [recv] at received

theorem recv_data {n : Nat} {arrivals rest : List Arrival} {data : Bytes} (positive : 0 < n)
    (received : recv n arrivals = (.data data, rest)) : 0 < data.length ∧ data.length ≤ n := by
  cases arrivals with
  | nil => simp [recv] at received
  | cons arrival arrivals =>
    cases arrival with
    | piece all nonempty =>
      have some := List.length_pos_iff.mpr nonempty
      simp only [recv] at received
      split at received
      · obtain ⟨rfl, -⟩ : all.take n = data ∧ _ := by simpa using received
        rw [List.length_take]
        omega
      · obtain ⟨rfl, -⟩ : all = data ∧ _ := by simpa using received
        omega
    | interrupted => simp [recv] at received
    | failed => simp [recv] at received

theorem send_interrupted {data : Bytes} {acceptances rest : List Acceptance}
    (taken : send data acceptances = (.interrupted, rest)) : rest.length < acceptances.length := by
  cases acceptances with
  | nil => simp [send] at taken
  | cons acceptance acceptances =>
    cases acceptance with
    | interrupted =>
      obtain rfl : acceptances = rest := by simpa [send] using taken
      simp
    | room | failed => simp [send] at taken

theorem send_bytes {data : Bytes} {acceptances rest : List Acceptance} {n : Nat}
    (nonempty : 0 < data.length) (taken : send data acceptances = (.bytes n, rest)) :
    0 < n ∧ n ≤ data.length := by
  cases acceptances with
  | nil =>
    obtain ⟨rfl, -⟩ : data.length = n ∧ _ := by simpa [send] using taken
    omega
  | cons acceptance acceptances =>
    cases acceptance with
    | room k positive =>
      obtain ⟨rfl, -⟩ : min k data.length = n ∧ _ := by simpa [send] using taken
      omega
    | interrupted | failed => simp [send] at taken

/-- The loop of `read_exact` with what it has got. -/
def readExact (n : Nat) (got : Bytes) (arrivals : List Arrival) : Option Bytes × List Arrival :=
  if got.length < n then
    match _received : recv (n - got.length) arrivals with
    | (.closed, rest) => (none, rest)
    | (.interrupted, rest) => readExact n got rest
    | (.failed, rest) => (none, rest)
    | (.data bytes, rest) => readExact n (got ++ bytes) rest
  else (some got, arrivals)
termination_by (n - got.length, arrivals.length)
decreasing_by
  · exact Prod.Lex.right _ (recv_interrupted ‹_›)
  · apply Prod.Lex.left
    have less : got.length < n := ‹_›
    have := recv_data (Nat.sub_pos_of_lt less) ‹_›
    rw [List.length_append]
    omega

/-- The loop of `write_all` with the number of bytes sent. The bytes go to the wire. -/
def writeAll (data : Bytes) (sent : Nat) (acceptances : List Acceptance) (wire : Bytes) :
    Bool × List Acceptance × Bytes :=
  if sent < data.length then
    match _taken : send (data.drop sent) acceptances with
    | (.interrupted, rest) => writeAll data sent rest wire
    | (.failed, rest) => (false, rest, wire)
    | (.bytes n, rest) => writeAll data (sent + n) rest (wire ++ (data.drop sent).take n)
  else (true, acceptances, wire)
termination_by (data.length - sent, acceptances.length)
decreasing_by
  · exact Prod.Lex.right _ (send_interrupted ‹_›)
  · apply Prod.Lex.left
    have := send_bytes (by rw [List.length_drop]; omega) ‹send (data.drop sent) _ = _›
    omega

/-- A connected socket, the bytes it has sent, and the state of the process around it. -/
structure Socket (σ : Type) where
  arrivals : List Arrival
  acceptances : List Acceptance
  sent : Bytes
  app : σ

namespace Socket
variable {σ : Type}

def transport : Transport (StateM (Socket σ)) where
  readExact n := do
    let socket ← get
    let (result, arrivals) := readExact n [] socket.arrivals
    set { socket with arrivals := arrivals }
    return result
  writeAll data := do
    let socket ← get
    let (ok, acceptances, sent) := writeAll data 0 socket.acceptances socket.sent
    set { socket with acceptances := acceptances, sent := sent }
    return ok

end Socket

end StreamEngine.Ipc
