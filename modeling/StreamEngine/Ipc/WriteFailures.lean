import StreamEngine.Ipc.WritersProofs

/-! Writes that may fail after any part of their bytes. The loop of `run` ends with its own failed
write, but `emit` ignores its own, and neither asks about the other's: the connection goes on in the
middle of a frame. What keeps the wire in order is a transport that takes nothing more. -/
namespace StreamEngine.Ipc
open ByteString Binary64 Json Transition

variable {θ : Type} [DecidableEq θ]

/-- The writers of a connection with the loop of `run`: whether the loop's call is a response, whether
it has not returned, and what was on the wire when a write failed for the first time. -/
structure Service (θ : Type) where
  connection : Connection θ
  responding : Bool
  running : Bool
  failure : Option Bytes

def Service.fresh {θ : Type} : Service θ := ⟨.fresh, false, true, none⟩

/-- What a writer does, or a `write_all` that fails after some more bytes. -/
inductive Attempt (θ : Type) where
  | act (action : Action θ)
  | fail (thread : θ) (bytes : Nat)

/-- `write_frame` returns false. The loop ends if the frame was its response. -/
def Service.failed (s : Service θ) (main thread : θ) (taken : Bytes) : Service θ where
  connection := s.connection.to thread .unlock s.connection.holder (s.connection.wire ++ taken)
  responding := s.responding
  running := s.running && !(decide (thread = main) && s.responding)
  failure := some (s.failure.getD (s.connection.wire ++ taken))

/-- One step, where `main` is the thread of the loop. -/
inductive Attempted (main : θ) : Service θ → Attempt θ → Service θ → Prop where
  | emit {s t event data c} (step : Step s.connection (.call t (.emit event data)) c) :
      Attempted main s (.act (.call t (.emit event data)))
        { s with connection := c, responding := s.responding && decide (t ≠ main) }
  | respond {s id outcome c} (running : s.running = true)
      (step : Step s.connection (.call main (.respond id outcome)) c) :
      Attempted main s (.act (.call main (.respond id outcome)))
        { s with connection := c, responding := true }
  -- A response above the cap is a failed write too, of no bytes.
  | lock {s t payload c} (waits : s.connection.writer t = .lock payload)
      (step : Step s.connection (.lock t) c) :
      Attempted main s (.act (.lock t))
        { s with
          connection := c
          running := s.running &&
            !(decide (kMaxFrame < payload.length) && decide (t = main) && s.responding) }
  | send {s t n c} (step : Step s.connection (.send t n) c) :
      Attempted main s (.act (.send t n)) { s with connection := c }
  | unlock {s t c} (step : Step s.connection (.unlock t) c) :
      Attempted main s (.act (.unlock t)) { s with connection := c }
  | header {s t payload sent n} (writes : s.connection.writer t = .header payload sent)
      (within : sent + n ≤ 4) :
      Attempted main s (.fail t n) (s.failed main t (((frameHeader payload.length).drop sent).take n))
  | body {s t payload sent n} (writes : s.connection.writer t = .body payload sent)
      (within : sent + n ≤ payload.length) :
      Attempted main s (.fail t n) (s.failed main t ((payload.drop sent).take n))

/-- Nothing is taken of a frame that is begun after a failed write. -/
def TakesNoMore (s : Service θ) : Attempt θ → Prop
  | .act (.send t _) => s.failure.isSome = true → ∀ payload, s.connection.writer t ≠ .header payload 0
  | .fail t n => s.failure.isSome = true → ∀ payload, s.connection.writer t = .header payload 0 → n = 0
  | .act (.call _ _) | .act (.lock _) | .act (.unlock _) => True

/-- What the writers did without the failures. -/
def acts (attempts : List (Attempt θ)) : List (Action θ) :=
  attempts.filterMap fun
    | .act a => some a
    | .fail _ _ => none

/-- Nothing is written after the first failed write, and what was written reads as whole frames that
were sent, in order, and at most one more that is incomplete. -/
structure Confined (attempts : List (Attempt θ)) (s : Service θ) : Prop where
  stopped : ∀ bytes, s.failure = some bytes → s.connection.wire = bytes
  decodes : ∃ (order : List (θ × Frame)) (rest : Bytes),
    s.connection.wire = wire (order.map Prod.snd) ++ rest ∧ Stuck rest ∧
    (∀ t, sentBy t order <+: messages t (acts attempts)) ∧
    ∀ reader : Socket Unit, Delivers reader.arrivals s.connection.wire → ∀ calls > order.length,
      ((readFrames Socket.transport calls).run reader).1 =
        (order.map fun m => m.2.payload, some (ending rest))

/-! ### What one step preserves -/

/-- A thread that has written nothing of its frame. -/
def Writer.Unsent : Writer → Prop
  | .idle | .lock _ | .unlock => True
  | .header _ sent => sent = 0
  | .body _ _ => False

/-- Before the first failure the writers are in order, and after it none has begun its frame. -/
inductive Orderly (attempts : List (Attempt θ)) (s : Service θ) : Prop where
  | intact {order} (unfailed : s.failure = none)
      (invariant : Invariant (acts attempts) order s.connection)
  | broken {order : List (θ × Frame)} {rest} (stopped : s.failure = some s.connection.wire)
      (bytes : s.connection.wire = wire (order.map Prod.snd) ++ rest) (stuck : Stuck rest)
      (sent : ∀ t, sentBy t order <+: messages t (acts attempts))
      (unsent : ∀ t, (s.connection.writer t).Unsent)

section Steps
variable {main : θ} {attempts : List (Attempt θ)} {s s' : Service θ} {a : Action θ} {a' : Attempt θ}
  {t : θ} {n : Nat}

omit [DecidableEq θ] in
theorem acts_act : acts (attempts ++ [.act a]) = acts attempts ++ [a] := by simp [acts]

omit [DecidableEq θ] in
theorem acts_fail : acts (attempts ++ [.fail t n]) = acts attempts := by simp [acts]

theorem messages_grow (actions : List (Action θ)) (t : θ) :
    messages t actions <+: messages t (actions ++ [a]) := by
  rw [messages, messages, List.filter_append, List.filterMap_append]
  exact List.prefix_append _ _

/-- Without a failure the writers do what they do on a transport that never fails. -/
theorem Attempted.step (attempted : Attempted main s (.act a) s') :
    Step s.connection a s'.connection ∧ s'.failure = s.failure := by
  cases attempted with
  | emit step => exact ⟨step, rfl⟩
  | respond _ step => exact ⟨step, rfl⟩
  | lock _ step => exact ⟨step, rfl⟩
  | send step => exact ⟨step, rfl⟩
  | unlock step => exact ⟨step, rfl⟩

/-- The first failure leaves a part of the frame of the thread that holds the mutex, or all of it. -/
theorem Invariant.broken {order : List (θ × Frame)}
    (invariant : Invariant (acts attempts) order s.connection) (unfailed : s.failure = none)
    {payload taken : Bytes} {w : Writer} (holds : (s.connection.writer t).Holds)
    (fits : payload.length ≤ kMaxFrame) (pending : (s.connection.writer t).pending = [payload])
    (sends : Writer.Sends payload ((s.connection.writer t).part ++ taken) w) :
    Orderly (attempts ++ [.fail t n]) (s.failed main t taken) := by
  have held := (invariant.mutex t).mp holds
  have calls := invariant.calls
  have wires : s.connection.wire ++ taken =
      wire (order.map Prod.snd) ++ ((s.connection.writer t).part ++ taken) := by
    rw [invariant.bytes, part_held held, List.append_assoc]
  have unsent : ∀ u, ((s.failed main t taken).connection.writer u).Unsent := by
    intro u
    by_cases same : u = t
    · subst same
      simp [Service.failed, Connection.to, Writer.Unsent]
    · have outside : ¬ (s.connection.writer u).Holds := by
        rw [invariant.mutex u, held]
        exact fun other => same (Option.some.inj other).symm
      simp only [Service.failed, Connection.to, Function.update_of_ne same]
      cases writer : s.connection.writer u with
      | idle | lock => trivial
      | header | body | unlock => exact absurd (by rw [writer]; trivial) outside
  have stopped : (s.failed main t taken).failure = some (s.failed main t taken).connection.wire := by
    simp [Service.failed, unfailed, Connection.to]
  cases sends with
  | on sound _ _ part =>
    have bytes : (s.failed main t taken).connection.wire =
        wire (order.map Prod.snd) ++ w.part := by
      rw [part]
      exact wires
    refine .broken stopped bytes sound.stuck (fun u => ?_) unsent
    rw [acts_fail, calls u]
    exact List.prefix_append _ _
  | finished whole =>
    let frame : Frame := ⟨payload, fits⟩
    have bytes : (s.failed main t taken).connection.wire =
        wire ((order ++ [(t, frame)]).map Prod.snd) ++ [] := by
      refine wires.trans ?_
      rw [whole, List.append_nil, List.map_append, wire, wire, List.flatMap_append]
      simp [frame]
    refine .broken stopped bytes stuck_nil (fun u => ?_) unsent
    rw [acts_fail]
    by_cases same : u = t
    · subst same
      rw [sentBy_snoc, calls u, pending]
    · rw [sentBy_other same, calls u]
      exact List.prefix_append _ _

theorem unsent_to {c : Connection θ} {w : Writer} {holder : Option θ} {bytes : Bytes}
    (unsent : ∀ u, (c.writer u).Unsent) (here : w.Unsent) (u : θ) :
    ((c.to t w holder bytes).writer u).Unsent := by
  by_cases same : u = t
  · subst same
    simpa [Connection.to] using here
  · simpa [Connection.to, same] using unsent u

/-- Threads that have written nothing of their frames, of which none is begun. -/
theorem Step.quiet {c c' : Connection θ} (step : Step c a c') (unsent : ∀ u, (c.writer u).Unsent)
    (refuses : ∀ t n, a = .send t n → ∀ payload, c.writer t ≠ .header payload 0) :
    c'.wire = c.wire ∧ ∀ u, (c'.writer u).Unsent := by
  cases step with
  | call idle => exact ⟨rfl, unsent_to unsent trivial⟩
  | lock waits free =>
    refine ⟨rfl, unsent_to unsent ?_⟩
    unfold Writer.locked
    split
    · trivial
    · rfl
  | @header t payload sent n writes some within =>
    have none := unsent t
    rw [writes] at none
    cases none
    exact absurd writes (refuses t n rfl payload)
  | @body t payload sent n writes some within =>
    have none := unsent t
    rw [writes] at none
    exact none.elim
  | unlock done => exact ⟨rfl, unsent_to unsent trivial⟩

/-- The first failure. -/
theorem Invariant.fail {order : List (θ × Frame)}
    (invariant : Invariant (acts attempts) order s.connection) (unfailed : s.failure = none)
    (attempted : Attempted main s (.fail t n) s') : Orderly (attempts ++ [.fail t n]) s' := by
  cases attempted with
  | @header t payload sent n writes within =>
    have sound := invariant.sound t
    rw [writes] at sound
    have sends := Writer.sends_header sound.1 sent n
    rw [← writes] at sends
    exact invariant.broken unfailed (by rw [writes]; trivial) sound.1 (by rw [writes]; rfl) sends
  | @body t payload sent n writes within =>
    have sound := invariant.sound t
    rw [writes] at sound
    have sends := Writer.sends_body sound.1 sent n
    rw [← writes] at sends
    exact invariant.broken unfailed (by rw [writes]; trivial) sound.1 (by rw [writes]; rfl) sends

/-- A later failure takes no bytes. -/
theorem Attempted.refused (attempted : Attempted main s (.fail t n) s')
    (stopped : s.failure = some s.connection.wire) (unsent : ∀ u, (s.connection.writer u).Unsent)
    (refuses : TakesNoMore s (.fail t n)) :
    s'.failure = some s.connection.wire ∧ s'.connection.wire = s.connection.wire ∧
      ∀ u, (s'.connection.writer u).Unsent := by
  have failed : s.failure.isSome = true := by rw [stopped]; rfl
  cases attempted with
  | @header t payload sent n writes within =>
    have none := unsent t
    rw [writes] at none
    cases none
    cases refuses failed payload writes
    have empty : s.connection.wire ++ ((frameHeader payload.length).drop 0).take 0 =
        s.connection.wire := by simp
    rw [Service.failed, empty, stopped, Option.getD_some]
    exact ⟨rfl, rfl, unsent_to unsent trivial⟩
  | @body t payload sent n writes within =>
    have none := unsent t
    rw [writes] at none
    exact none.elim

/-- What one step preserves, if nothing is taken of a frame begun after a failed write. -/
theorem Orderly.next (orderly : Orderly attempts s) (attempted : Attempted main s a' s')
    (refuses : TakesNoMore s a') : Orderly (attempts ++ [a']) s' := by
  cases orderly with
  | intact unfailed invariant =>
    cases a' with
    | act a =>
      obtain ⟨step, same⟩ := attempted.step
      obtain ⟨order', next⟩ := invariant.next step
      rw [← acts_act] at next
      exact .intact (same.trans unfailed) next
    | fail t n => exact invariant.fail unfailed attempted
  | @broken order rest stopped bytes stuck sent unsent =>
    cases a' with
    | act a =>
      obtain ⟨step, same⟩ := attempted.step
      have failed : s.failure.isSome = true := by rw [stopped]; rfl
      have begun : ∀ t n, a = .send t n → ∀ payload, s.connection.writer t ≠ .header payload 0 := by
        rintro t n rfl
        exact refuses failed
      obtain ⟨wires, threads⟩ := step.quiet unsent begun
      refine .broken (by rw [same, wires, stopped]) (wires.trans bytes) stuck (fun t => ?_) threads
      rw [acts_act]
      exact (sent t).trans (messages_grow _ t)
    | fail t n =>
      obtain ⟨failure, wires, threads⟩ := attempted.refused stopped unsent refuses
      refine .broken (by rw [failure, wires]) (wires.trans bytes) stuck (fun u => ?_) threads
      rw [acts_fail]
      exact sent u

/-- The other steps after a failure put more on the wire. -/
theorem Attempted.longer (attempted : Attempted main s a' s') (takes : ¬ TakesNoMore s a') :
    ∃ bytes, s.failure = some bytes ∧ s'.failure = some bytes ∧
      s.connection.wire.length < s'.connection.wire.length := by
  cases attempted with
  | emit | respond | lock | unlock => exact absurd trivial takes
  | @send t n c step =>
    simp only [TakesNoMore, not_forall] at takes
    obtain ⟨failed, _⟩ := takes
    obtain ⟨bytes, failure⟩ := Option.isSome_iff_exists.mp failed
    refine ⟨bytes, failure, failure, ?_⟩
    cases step with
    | header writes some within =>
      rw [Connection.to, List.length_append, List.length_take, List.length_drop, length_frameHeader]
      omega
    | body writes some within =>
      rw [Connection.to, List.length_append, List.length_take, List.length_drop]
      omega
  | @header t payload sent n writes within =>
    simp only [TakesNoMore, not_forall] at takes
    obtain ⟨failed, _, _, some⟩ := takes
    obtain ⟨bytes, failure⟩ := Option.isSome_iff_exists.mp failed
    refine ⟨bytes, failure, by rw [Service.failed, failure, Option.getD_some], ?_⟩
    rw [Service.failed, Connection.to, List.length_append, List.length_take, List.length_drop,
      length_frameHeader]
    omega
  | @body t payload sent n writes within =>
    refine absurd (fun _ other begins => ?_) takes
    rw [writes] at begins
    contradiction

end Steps

/-! ### Runs -/

theorem Orderly.confined {attempts : List (Attempt θ)} {s : Service θ}
    (orderly : Orderly attempts s) : Confined attempts s := by
  have reads : ∀ (order : List (θ × Frame)) (rest : Bytes),
      s.connection.wire = wire (order.map Prod.snd) ++ rest → Stuck rest →
      ∀ reader : Socket Unit, Delivers reader.arrivals s.connection.wire → ∀ calls > order.length,
        ((readFrames Socket.transport calls).run reader).1 =
          (order.map fun m => m.2.payload, some (ending rest)) := by
    intro order rest bytes stuck reader delivers calls enough
    rw [bytes] at delivers
    rw [readFrames_delivered (order.map Prod.snd) stuck delivers (by simpa using enough),
      List.map_map]
    rfl
  cases orderly with
  | @intact order unfailed invariant =>
    refine ⟨fun bytes failed => ?_, order, s.connection.part, invariant.bytes, invariant.stuck,
      fun t => ?_, reads _ _ invariant.bytes invariant.stuck⟩
    · rw [unfailed] at failed
      contradiction
    · rw [invariant.calls t]
      exact List.prefix_append _ _
  | @broken order rest stopped bytes stuck sent unsent =>
    refine ⟨fun taken failed => ?_, order, rest, bytes, stuck, sent, reads _ _ bytes stuck⟩
    exact Option.some.inj (stopped.symm.trans failed)

/-- A connection keeps what was on it when a write failed, and what it holds can be read, in every state
that it reaches, as long as nothing is taken of a frame that is begun later. The first step that
takes some of one breaks this. -/
theorem run_confined {main : θ} {attempts : List (Attempt θ)} {s : Service θ}
    (run : Run (Restricted (Attempted main) TakesNoMore) .fresh attempts s) :
    Confined attempts s ∧ ∀ a s', Attempted main s a s' →
      (Confined (attempts ++ [a]) s' ↔ TakesNoMore s a) := by
  have orderly : Orderly attempts s := by
    refine run.history Orderly (.intact rfl invariant_fresh) ?_
    exact fun attempts s a s' orderly step => orderly.next step.1 step.2
  refine ⟨orderly.confined, fun a s' attempted => ⟨fun confined => ?_, fun refuses => ?_⟩⟩
  · by_contra takes
    obtain ⟨bytes, failed, failed', longer⟩ := attempted.longer takes
    rw [orderly.confined.stopped bytes failed, confined.stopped bytes failed'] at longer
    exact lt_irrefl _ longer
  · exact (orderly.next attempted refuses).confined

/-- The header of an event breaks off. -/
def brokenOff : List (Attempt Bool) :=
  [.act (.call true progress), .act (.lock true), .act (.send true 3), .fail true 0,
    .act (.unlock true)]

/-- The transport refuses the next event. -/
def refusedNext : List (Attempt Bool) :=
  brokenOff ++ [.act (.call true progress), .act (.lock true), .fail true 0]

theorem run_confined_refused :
    ∃ s : Service Bool, s.connection.wire.length = 3 ∧
      Run (Restricted (Attempted false) TakesNoMore) .fresh refusedNext s ∧
      Confined refusedNext s ∧
      ∀ a s', Attempted false s a s' →
        (Confined (refusedNext ++ [a]) s' ↔ TakesNoMore s a) := by
  have waiting : Run (Restricted (Attempted false) TakesNoMore) (.fresh : Service Bool)
      [.act (.call true progress)] _ := .next .start ⟨.emit (.call rfl), trivial⟩
  have locked : Run (Restricted (Attempted false) TakesNoMore) _
      [.act (.call true progress), .act (.lock true)] _ :=
    .next waiting ⟨.lock rfl (.lock rfl rfl), trivial⟩
  have begun : Run (Restricted (Attempted false) TakesNoMore) _
      [.act (.call true progress), .act (.lock true), .act (.send true 3)] _ :=
    .next locked ⟨.send (.header rfl (by decide) (by decide)), nofun⟩
  have broken : Run (Restricted (Attempted false) TakesNoMore) _
      [.act (.call true progress), .act (.lock true), .act (.send true 3), .fail true 0] _ :=
    .next begun ⟨.header rfl (by decide), nofun⟩
  have released : Run (Restricted (Attempted false) TakesNoMore) _ brokenOff _ :=
    .next broken ⟨.unlock (.unlock rfl), trivial⟩
  have again : Run (Restricted (Attempted false) TakesNoMore) _
      (brokenOff ++ [.act (.call true progress)]) _ := .next released ⟨.emit (.call rfl), trivial⟩
  have relocked : Run (Restricted (Attempted false) TakesNoMore) _
      (brokenOff ++ [.act (.call true progress), .act (.lock true)]) _ :=
    .next again ⟨.lock rfl (.lock rfl rfl), trivial⟩
  have refused : Run (Restricted (Attempted false) TakesNoMore) _ refusedNext _ :=
    .next relocked ⟨.header rfl (by decide), fun _ _ _ => rfl⟩
  exact ⟨_, by decide +kernel, refused, run_confined refused⟩

/-- The loop responds where an event has broken off. -/
theorem responds_after_failure {id : Double} {outcome : Outcome}
    (fits : (Call.respond id outcome).payload.length ≤ kMaxFrame) :
    ∃ (attempts : List (Attempt Bool)) (s : Service Bool),
      Run (Attempted false) .fresh attempts s ∧ ¬ Confined attempts s := by
  have waiting : Run (Attempted false) (.fresh : Service Bool) [.act (.call true progress)] _ :=
    .next .start (.emit (.call rfl))
  have locked : Run (Attempted false) _ [.act (.call true progress), .act (.lock true)] _ :=
    .next waiting (.lock rfl (.lock rfl rfl))
  have begun : Run (Attempted false) _
      [.act (.call true progress), .act (.lock true), .act (.send true 3)] _ :=
    .next locked (.send (.header rfl (by decide) (by decide)))
  have broken : Run (Attempted false) _
      [.act (.call true progress), .act (.lock true), .act (.send true 3), .fail true 0] _ :=
    .next begun (.header rfl (by decide))
  have released : Run (Attempted false) _ brokenOff _ := .next broken (.unlock (.unlock rfl))
  have called : Run (Attempted false) _ (brokenOff ++ [.act (.call false (.respond id outcome))]) _ :=
    .next released (.respond rfl (.call rfl))
  have relocked : Run (Attempted false) _
      (brokenOff ++ [.act (.call false (.respond id outcome))] ++ [.act (.lock false)]) _ :=
    .next called (.lock (to_writer ..) (.lock (to_writer ..) rfl))
  have begins : Writer.locked (Call.respond id outcome).payload = .header _ 0 :=
    if_neg (not_lt.mpr fits)
  have responds : Run (Attempted false) _
      (brokenOff ++ [.act (.call false (.respond id outcome))] ++ [.act (.lock false)] ++
        [.act (.send false 4)]) _ :=
    .next relocked (.send (.header ((to_writer ..).trans begins) (by decide) (le_refl (0 + 4))))
  refine ⟨_, _, responds, fun confined => ?_⟩
  have longer := congrArg List.length (confined.stopped _ rfl)
  rw [Connection.to, List.length_append, List.length_take, List.length_drop,
    length_frameHeader] at longer
  exact absurd (Nat.add_eq_left.mp longer) (by decide)

theorem response_after_failure :
    ¬ ∀ (main : Bool) (attempts : List (Attempt Bool)) (s : Service Bool),
      Run (Attempted main) .fresh attempts s → Confined attempts s := by
  intro confined
  have fits : answerZero.payload.length ≤ kMaxFrame := by decide +kernel
  obtain ⟨attempts, s, run, broken⟩ := responds_after_failure fits
  exact broken (confined false attempts s run)

end StreamEngine.Ipc
