import StreamEngine.Ipc.SocketProofs
import StreamEngine.Ipc.Writers

/-! Every interleaving of the writers is a sequence of whole frames and the part of one frame
that the holder of the mutex has written. The sequence is the order in which frames were
finished, and each thread's messages come in it as the thread sent them. -/
namespace StreamEngine.Ipc
open ByteString Binary64 Json Transition

variable {θ : Type} [DecidableEq θ]

namespace Writer

/-- The threads that hold the mutex. -/
def Holds : Writer → Prop
  | .idle | .lock _ => False
  | .header _ _ | .body _ _ | .unlock => True

/-- A message that is still to be sent, or that is being sent. -/
def pending : Writer → List Bytes
  | .idle | .unlock => []
  | .lock payload => if payload.length ≤ kMaxFrame then [payload] else []
  | .header payload _ | .body payload _ => [payload]

/-- What is on the wire of the frame that is being sent. -/
def part : Writer → Bytes
  | .idle | .lock _ | .unlock => []
  | .header payload sent => (frameHeader payload.length).take sent
  | .body payload sent => frameHeader payload.length ++ payload.take sent

/-- A frame that is being sent fits, and some of it is left. -/
def Sound : Writer → Prop
  | .idle | .lock _ | .unlock => True
  | .header payload sent => payload.length ≤ kMaxFrame ∧ sent < 4
  | .body payload sent => payload.length ≤ kMaxFrame ∧ sent < payload.length

/-- After some bytes of a frame its writer goes on with it, or it has finished. -/
inductive Sends (payload written : Bytes) : Writer → Prop where
  | on {w} (sound : w.Sound) (holds : w.Holds) (pending : w.pending = [payload])
      (part : w.part = written) : Sends payload written w
  | finished (whole : written = encodeFrame payload) : Sends payload written .unlock

theorem sends_header {payload : Bytes} (fits : payload.length ≤ kMaxFrame) (sent n : Nat) :
    Sends payload ((header payload sent).part ++ ((frameHeader payload.length).drop sent).take n)
      (afterHeader payload (sent + n)) := by
  rw [part, ← List.take_add, afterHeader]
  split
  · rename_i less
    exact .on ⟨fits, less⟩ trivial rfl rfl
  · rename_i full
    have four : (frameHeader payload.length).take (sent + n) = frameHeader payload.length :=
      List.take_of_length_le (not_lt.mp full)
    rw [four]
    split
    · rename_i empty
      refine .finished ?_
      rw [encodeFrame, List.length_eq_zero_iff.mp empty, List.append_nil]
    · rename_i some
      exact .on ⟨fits, by omega⟩ trivial rfl (List.append_nil _)

theorem sends_body {payload : Bytes} (fits : payload.length ≤ kMaxFrame) (sent n : Nat) :
    Sends payload ((body payload sent).part ++ (payload.drop sent).take n)
      (afterBody payload (sent + n)) := by
  rw [part, List.append_assoc, ← List.take_add, afterBody]
  split
  · rename_i less
    exact .on ⟨fits, less⟩ trivial rfl rfl
  · rename_i full
    refine .finished ?_
    rw [List.take_of_length_le (not_lt.mp full), encodeFrame]

end Writer

def Action.thread : Action θ → θ
  | .call thread _ | .lock thread | .send thread _ | .unlock thread => thread

/-- The message of a call that a frame can carry. -/
def Action.message : Action θ → Option Bytes
  | .call _ c => if c.payload.length ≤ kMaxFrame then some c.payload else none
  | .lock _ | .send _ _ | .unlock _ => none

/-- The messages of a thread, in the order of its calls. -/
def messages (thread : θ) (actions : List (Action θ)) : List Bytes :=
  (actions.filter fun a => a.thread = thread).filterMap Action.message

/-- Those that were sent, in the order of the wire. -/
def sentBy (thread : θ) (order : List (θ × Frame)) : List Bytes :=
  (order.filter fun m => m.1 = thread).map fun m => m.2.payload

/-- The part of a frame at the end of the wire. -/
def Connection.part (c : Connection θ) : Bytes := (c.holder.map fun t => (c.writer t).part).getD []

structure Invariant (actions : List (Action θ)) (order : List (θ × Frame)) (c : Connection θ) :
    Prop where
  sound : ∀ t, (c.writer t).Sound
  mutex : ∀ t, (c.writer t).Holds ↔ c.holder = some t
  calls : ∀ t, messages t actions = sentBy t order ++ (c.writer t).pending
  bytes : c.wire = wire (order.map Prod.snd) ++ c.part

theorem sentBy_snoc {t : θ} {order : List (θ × Frame)} {frame : Frame} :
    sentBy t (order ++ [(t, frame)]) = sentBy t order ++ [frame.payload] := by
  simp [sentBy]

theorem sentBy_other {t u : θ} {order : List (θ × Frame)} {frame : Frame} (other : u ≠ t) :
    sentBy u (order ++ [(t, frame)]) = sentBy u order := by
  simp [sentBy, Ne.symm other]

theorem messages_other {t : θ} {actions : List (Action θ)} {a : Action θ} (other : a.thread ≠ t) :
    messages t (actions ++ [a]) = messages t actions := by
  simp [messages, other]

theorem messages_silent {t : θ} {actions : List (Action θ)} {a : Action θ} (silent : a.message = none) :
    messages t (actions ++ [a]) = messages t actions := by
  by_cases same : a.thread = t <;> simp [messages, same, silent]

theorem messages_call {t : θ} {actions : List (Action θ)} {call : Call} :
    messages t (actions ++ [.call t call]) =
      messages t actions ++ (Writer.lock call.payload).pending := by
  by_cases fits : call.payload.length ≤ kMaxFrame <;>
    simp [messages, Action.thread, Action.message, Writer.pending, fits]

/-! ### What one step preserves -/

section Steps
variable {actions : List (Action θ)} {order order' : List (θ × Frame)} {c : Connection θ} {t : θ}
  {a : Action θ} {w : Writer} {bytes : Bytes}

omit [DecidableEq θ] in
theorem part_held (held : c.holder = some t) : c.part = (c.writer t).part := by
  rw [Connection.part, held]
  rfl

theorem part_to_held : (c.to t w (some t) bytes).part = w.part := by
  simp [Connection.part, Connection.to]

theorem part_to_other (other : c.holder ≠ some t) : (c.to t w c.holder bytes).part = c.part := by
  cases holder : c.holder with
  | none => simp [Connection.part, Connection.to, holder]
  | some u =>
    have different : u ≠ t := by
      rintro rfl
      exact other holder
    simp [Connection.part, Connection.to, holder, different]

/-- A step of one thread, by what it changes. -/
theorem Invariant.step (invariant : Invariant actions order c) (t : θ) (mine : a.thread = t)
    {holder : Option θ} (sound : w.Sound) (here : w.Holds ↔ holder = some t)
    (others : ∀ u, u ≠ t → (c.holder = some u ↔ holder = some u))
    (sent : messages t (actions ++ [a]) = sentBy t order' ++ w.pending)
    (kept : ∀ u, u ≠ t → sentBy u order' = sentBy u order)
    (wires : bytes = wire (order'.map Prod.snd) ++ (c.to t w holder bytes).part) :
    Invariant (actions ++ [a]) order' (c.to t w holder bytes) where
  sound u := by
    by_cases same : u = t
    · subst same
      simpa [Connection.to] using sound
    · simpa [Connection.to, same] using invariant.sound u
  mutex u := by
    by_cases same : u = t
    · subst same
      simpa [Connection.to] using here
    · simpa [Connection.to, same, ← others u same] using invariant.mutex u
  calls u := by
    by_cases same : u = t
    · subst same
      simpa [Connection.to] using sent
    · rw [messages_other (by rw [mine]; exact Ne.symm same), kept u same]
      simpa [Connection.to, same] using invariant.calls u
  bytes := wires

/-- The holder sends some bytes of its frame, which is in order after the last of them. -/
theorem Invariant.send (invariant : Invariant actions order c) {payload chunk : Bytes}
    (fits : payload.length ≤ kMaxFrame) (holds : (c.writer t).Holds)
    (sending : (c.writer t).pending = [payload])
    (sends : Writer.Sends payload ((c.writer t).part ++ chunk) w) (n : Nat) :
    ∃ order', Invariant (actions ++ [.send t n]) order' (c.to t w c.holder (c.wire ++ chunk)) := by
  have held := (invariant.mutex t).mp holds
  have calls : messages t (actions ++ [.send t n]) = sentBy t order ++ [payload] := by
    rw [messages_silent rfl, invariant.calls t, sending]
  have bytes : c.wire ++ chunk = wire (order.map Prod.snd) ++ ((c.writer t).part ++ chunk) := by
    rw [invariant.bytes, part_held held, List.append_assoc]
  cases sends with
  | on sound holds pending part =>
    refine ⟨order, invariant.step t rfl sound (iff_of_true holds held) (fun _ _ => Iff.rfl) ?_
      (fun _ _ => rfl) ?_⟩
    · rw [pending]
      exact calls
    · rw [held, part_to_held, part]
      exact bytes
  | finished whole =>
    refine ⟨order ++ [(t, ⟨payload, fits⟩)], invariant.step t rfl trivial (iff_of_true trivial held)
      (fun _ _ => Iff.rfl) ?_ (fun _ other => sentBy_other other) ?_⟩
    · rw [sentBy_snoc, Writer.pending, List.append_nil]
      exact calls
    · rw [held, part_to_held, Writer.part, List.append_nil, bytes, whole, List.map_append, wire, wire,
        List.flatMap_append]
      simp

/-- What one step preserves. -/
theorem Invariant.next (invariant : Invariant actions order c) {c' : Connection θ}
    (step : Step c a c') : ∃ order', Invariant (actions ++ [a]) order' c' := by
  cases step with
  | @call t call idle =>
    have outside : c.holder ≠ some t := by
      intro held
      have holds := (invariant.mutex t).mpr held
      rwa [idle] at holds
    have calls := invariant.calls t
    rw [idle, Writer.pending, List.append_nil] at calls
    refine ⟨order, invariant.step t rfl trivial (iff_of_false nofun outside) (fun _ _ => Iff.rfl) ?_
      (fun _ _ => rfl) ?_⟩
    · rw [messages_call, calls]
    · rw [part_to_other outside]
      exact invariant.bytes
  | @lock t payload waits free =>
    have calls := invariant.calls t
    have bytes := invariant.bytes
    rw [waits] at calls
    rw [Connection.part, free, Option.map_none, Option.getD_none, List.append_nil] at bytes
    have locked : (Writer.locked payload).Sound ∧ (Writer.locked payload).Holds ∧
        (Writer.locked payload).pending = (Writer.lock payload).pending ∧
        (Writer.locked payload).part = [] := by
      unfold Writer.locked
      split
      · rename_i large
        exact ⟨trivial, trivial, (if_neg (not_le.mpr large)).symm, rfl⟩
      · rename_i fits
        exact ⟨⟨not_lt.mp fits, by decide⟩, trivial, (if_pos (not_lt.mp fits)).symm, rfl⟩
    obtain ⟨sound, holds, pending, part⟩ := locked
    refine ⟨order, invariant.step t rfl sound (iff_of_true holds rfl) ?_ ?_ (fun _ _ => rfl) ?_⟩
    · intro u other
      rw [free]
      simp [Ne.symm other]
    · rw [messages_silent rfl, calls, pending]
    · rw [part_to_held, part, List.append_nil]
      exact bytes
  | @header t payload sent n writes some within =>
    have sound := invariant.sound t
    rw [writes] at sound
    refine invariant.send sound.1 (by rw [writes]; trivial) (by rw [writes]; rfl) ?_ n
    rw [writes]
    exact Writer.sends_header sound.1 sent n
  | @body t payload sent n writes some within =>
    have sound := invariant.sound t
    rw [writes] at sound
    refine invariant.send sound.1 (by rw [writes]; trivial) (by rw [writes]; rfl) ?_ n
    rw [writes]
    exact Writer.sends_body sound.1 sent n
  | @unlock t done =>
    have held : c.holder = some t := (invariant.mutex t).mp (by rw [done]; trivial)
    have calls := invariant.calls t
    have bytes := invariant.bytes
    rw [done] at calls
    rw [part_held held, done] at bytes
    refine ⟨order, invariant.step t rfl trivial (iff_of_false nofun nofun) ?_ ?_ (fun _ _ => rfl) ?_⟩
    · intro u other
      rw [held]
      simp [Ne.symm other]
    · rw [messages_silent rfl]
      exact calls
    · exact bytes

end Steps

/-! ### A call on its own -/

@[simp] theorem to_writer (c : Connection θ) (t : θ) (w : Writer) (holder : Option θ) (bytes : Bytes) :
    (c.to t w holder bytes).writer t = w := by
  simp [Connection.to]

@[simp] theorem to_to (c : Connection θ) (t : θ) (w w' : Writer) (holder holder' : Option θ)
    (bytes bytes' : Bytes) :
    (c.to t w holder bytes).to t w' holder' bytes' = c.to t w' holder' bytes' := by
  simp [Connection.to]

/-- A call that nobody disturbs does to the wire what `write_frame` does to a pipe. -/
theorem write_alone {c : Connection θ} {t : θ} {payload : Bytes} (waits : c.writer t = .lock payload)
    (free : c.holder = none) :
    ∃ actions, Run Step c actions (c.to t .idle none
      ((writeFrame Pipe.transport payload).run ⟨[], c.wire, [], ()⟩).2.output) := by
  have locked : Run Step c [.lock t] (c.to t (.locked payload) (some t) c.wire) :=
    .next .start (.lock waits free)
  by_cases fits : payload.length ≤ kMaxFrame
  · rw [writeFrame_run _ fits]
    rw [Writer.locked, if_neg (not_lt.mpr fits)] at locked
    have header := locked.next (.header (to_writer ..) (by decide) (le_refl (0 + 4)))
    have whole : ((frameHeader payload.length).drop 0).take 4 = frameHeader payload.length := rfl
    rw [to_to, whole, Writer.afterHeader, if_neg (by decide)] at header
    split at header
    · rename_i empty
      have done := header.next (.unlock (to_writer ..))
      rw [to_to] at done
      rw [encodeFrame, List.length_eq_zero_iff.mp empty, List.append_nil]
      rw [List.length_eq_zero_iff.mp empty] at done
      exact ⟨_, done⟩
    · rename_i some
      have body := header.next (.body (to_writer ..) (Nat.pos_of_ne_zero some) (Nat.zero_add _).le)
      rw [to_to, List.drop_zero, List.take_length, Writer.afterBody, if_neg (by omega)] at body
      have done := body.next (.unlock (to_writer ..))
      rw [to_to] at done
      rw [encodeFrame, ← List.append_assoc]
      exact ⟨_, done⟩
  · rw [writeFrame_refused _ (not_le.mp fits)]
    rw [Writer.locked, if_pos (not_le.mp fits)] at locked
    have done := locked.next (.unlock (to_writer ..))
    rw [to_to] at done
    exact ⟨_, done⟩

/-! ### What every run leaves on the wire -/

theorem invariant_fresh : Invariant ([] : List (Action θ)) [] .fresh where
  sound _ := trivial
  mutex _ := iff_of_false nofun nofun
  calls _ := rfl
  bytes := rfl

theorem Run.invariant_writers {actions : List (Action θ)} {c : Connection θ}
    (run : Run Step .fresh actions c) : ∃ order, Invariant actions order c := by
  refine run.history (fun actions c => ∃ order, Invariant actions order c) ⟨[], invariant_fresh⟩ ?_
  rintro actions c a c' ⟨order, invariant⟩ step
  exact invariant.next step

/-- A part of a frame is no frame. -/
theorem Writer.Sound.stuck {w : Writer} (sound : w.Sound) : Stuck w.part := by
  cases w with
  | idle | lock | unlock => exact stuck_nil
  | header payload sent =>
    refine ⟨fun four => ?_⟩
    have short := sound.2
    rw [Writer.part, List.length_take] at four
    omega
  | body payload sent =>
    obtain ⟨fits, short⟩ := sound
    rw [kMaxFrame] at fits
    have header : (Writer.part (.body payload sent)).take 4 = frameHeader payload.length := rfl
    refine ⟨fun _ _ => ?_⟩
    rw [header, frameLength_frameHeader (by omega), Writer.part, List.length_append, List.length_take,
      length_frameHeader]
    omega

theorem Invariant.stuck {actions : List (Action θ)} {order : List (θ × Frame)} {c : Connection θ}
    (invariant : Invariant actions order c) : Stuck c.part := by
  cases holder : c.holder with
  | none =>
    rw [Connection.part, holder]
    exact stuck_nil
  | some t =>
    rw [part_held holder]
    exact (invariant.sound t).stuck

/-- After every run of the writers the wire holds whole frames and a part of one more, and reads
as the messages of those frames, however it is delivered. Each thread's messages are among them
in its order, but for the one it has not finished. When no thread is writing they are all. -/
theorem run_decodes {actions : List (Action θ)} {c : Connection θ} (run : Run Step .fresh actions c) :
    ∃ order : List (θ × Frame),
      c.wire = wire (order.map Prod.snd) ++ c.part ∧
      (∀ t, messages t actions = sentBy t order ++ (c.writer t).pending) ∧
      (∀ reader : Socket σ, Delivers reader.arrivals c.wire → ∀ calls > order.length,
        ((readFrames Socket.transport calls).run reader).1 =
          (order.map fun m => m.2.payload, some (ending c.part))) ∧
      ((∀ t, c.writer t = .idle) → (∀ t, messages t actions = sentBy t order) ∧ c.part = []) := by
  obtain ⟨order, invariant⟩ := Run.invariant_writers run
  refine ⟨order, invariant.bytes, invariant.calls, ?_, ?_⟩
  · intro reader delivers calls enough
    rw [invariant.bytes] at delivers
    have read := readFrames_delivered (order.map Prod.snd) invariant.stuck delivers
      (by simpa using enough)
    rw [read, List.map_map]
    rfl
  · intro idle
    constructor
    · intro t
      rw [invariant.calls t, idle t, Writer.pending, List.append_nil]
    · cases holder : c.holder with
      | none => rw [Connection.part, holder]; rfl
      | some t =>
        rw [part_held holder, idle t]
        rfl

/-- What the launcher reads of a call. -/
def Call.message : Call → Value
  | .emit event data =>
    .obj [(ascii "data", data), (ascii "event", .str event), (ascii "kind", .str (ascii "event"))]
  | .respond id outcome => resMessage id outcome

/-- A payload is its event or its response, with all that the call was given. -/
theorem Call.parse_payload {call : Call} (ordered : call.message.Ordered) (finite : call.message.Finite) :
    parse call.payload = some call.message.unsignZeros := by
  have written : call.payload = dump call.message := by
    cases call with
    | emit event data => rfl
    | respond id outcome => rw [payload, response_eq, message]
  rw [written]
  exact parse_dump ordered finite

/-- An event whose frame is on its way in three pieces while a response waits. -/
def progress : Call := .emit (ascii "progress") .null

def answerZero : Call := .respond (ofInt 0) ⟨.null, [], []⟩

theorem run_decodes_progress :
    parse progress.payload = some (.obj [(ascii "data", .null), (ascii "event", .str (ascii "progress")),
      (ascii "kind", .str (ascii "event"))]) ∧
    ∃ c : Connection Bool, Run Step .fresh [.call true progress, .lock true, .send true 3,
        .call false answerZero, .send true 1, .send true 20] c ∧
      ∃ order : List (Bool × Frame),
        c.wire = wire (order.map Prod.snd) ++ c.part ∧
        (∀ t, messages t [.call true progress, .lock true, .send true 3, .call false answerZero,
          .send true 1, .send true 20] = sentBy t order ++ (c.writer t).pending) ∧
        (∀ reader : Socket Unit, Delivers reader.arrivals c.wire → ∀ calls > order.length,
          ((readFrames Socket.transport calls).run reader).1 =
            (order.map fun m => m.2.payload, some (ending c.part))) ∧
        ((∀ t, c.writer t = .idle) →
          (∀ t, messages t [.call true progress, .lock true, .send true 3, .call false answerZero,
            .send true 1, .send true 20] = sentBy t order) ∧ c.part = []) := by
  have waiting : Run Step (.fresh : Connection Bool) [.call true progress] _ :=
    .next .start (.call rfl)
  have locked : Run Step _ [.call true progress, .lock true] _ := .next waiting (.lock rfl rfl)
  have split : Run Step _ [.call true progress, .lock true, .send true 3] _ :=
    .next locked (.header rfl (by decide) (by decide))
  have blocked : Run Step _ [.call true progress, .lock true, .send true 3,
      .call false answerZero] _ := .next split (.call rfl)
  have header : Run Step _ [.call true progress, .lock true, .send true 3,
      .call false answerZero, .send true 1] _ := .next blocked (.header rfl (by decide) (by decide))
  have body : Run Step _ [.call true progress, .lock true, .send true 3,
      .call false answerZero, .send true 1, .send true 20] _ :=
    .next header (.body rfl (by decide) (by decide))
  have keys : [ascii "data", ascii "event", ascii "kind"].Pairwise (· < ·) := by decide
  have reads : parse progress.payload = some progress.message.unsignZeros :=
    Call.parse_payload ⟨keys, trivial, trivial, trivial, trivial⟩ ⟨trivial, trivial, trivial, trivial⟩
  exact ⟨reads, _, body, run_decodes body⟩

end StreamEngine.Ipc
