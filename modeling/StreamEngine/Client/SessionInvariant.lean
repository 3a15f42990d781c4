import StreamEngine.Client.SessionProofs

/-! What holds of a session after any steps, those of a start that is doomed included: where
the worker is says how far the calls to moonlight have come, who may touch `running_`, and
that a sink is there. -/
namespace StreamEngine.Client
open ByteString Transition

/-- How far the calls of `LiStartConnection` and `LiStopConnection` have come, one connection
at a time. -/
inductive Calls where
  | closed
  | pending
  | opened
deriving DecidableEq

/-- What the connection may be by then. -/
def Calls.Fits : Calls → Link → Prop
  | .closed, link => link = .down
  | .pending, link => link ≠ .down
  | .opened, link => link = .up ∨ link = .dropped

def Worker.calls : Worker → Calls
  | .setup _ => .pending
  | .loop _ | .disconnect _ | .finished false => .opened
  | _ => .closed

/-- `stop` has joined the worker and has its connection to close. -/
def Session.leftOpen (s : Session) : Prop :=
  s.control = .stopConnection ∨ s.control = .checkRunning ∧ s.running = true

instance Session.instDecidableLeftOpen (s : Session) : Decidable s.leftOpen :=
  inferInstanceAs
    (Decidable (s.control = .stopConnection ∨ s.control = .checkRunning ∧ s.running = true))

def Session.calls (s : Session) : Calls :=
  if s.worker = .absent then if s.leftOpen then .opened else .closed else s.worker.calls

/-- The parts of a session agree. -/
structure Coherent (build : Build) (s : Session) : Prop where
  fits : s.calls.Fits s.link
  starting : s.control.starting = true → s.worker = .absent ∨ s.worker.endedByItself = true
  joined : s.control.joined = true → s.worker = .absent
  marked : s.control.marked = true → s.running = true
  running : s.worker ≠ .absent → s.worker.endedByItself = false → s.running = true
  ended : s.worker.endedByItself = true → s.running = true → s.control.marked = true
  absent : s.worker = .absent → s.running = true →
    s.control.marked = true ∨ s.control = .checkRunning ∨ s.control = .stopConnection ∨
      s.control = .clearRunning
  headless : s.worker = .finished false ∨ s.leftOpen → build.renderer = false
  sink : s.worker ≠ .absent ∨ s.leftOpen ∨ s.control.marked = true ∨ s.control = .setRunning →
    s.sink = true

variable {build : Build} {s s' : Session} {action : Action}

theorem Session.calls_of_worker (there : s.worker ≠ .absent) : s.calls = s.worker.calls :=
  if_neg there

theorem Coherent.fresh : Coherent build .fresh := by
  constructor <;> simp [Session.fresh, Session.calls, Session.leftOpen, Calls.Fits,
    Control.starting, Control.joined, Control.marked, Worker.endedByItself]

/-- A worker that has not ended by itself keeps the other thread from starting or releasing one. -/
theorem Coherent.busy (coherent : Coherent build s) (there : s.worker ≠ .absent)
    (active : s.worker.endedByItself = false) :
    s.control.starting = false ∧ s.control.joined = false ∧ s.running = true := by
  refine ⟨?_, ?_, coherent.running there active⟩
  · by_contra starting
    rcases coherent.starting (by simpa using starting) with absent | ended
    · exact there absent
    · simp [active] at ended
  · by_contra joined
    exact there (coherent.joined (by simpa using joined))

theorem Control.marked_starting {c : Control} (starting : c.starting = false) :
    c.marked = false := by
  cases c <;> simp_all [Control.starting, Control.marked]

/-- A worker that is there has not been joined. -/
theorem Coherent.unjoined (coherent : Coherent build s) (there : s.worker ≠ .absent) :
    s.control.joined = false ∧ ¬ s.leftOpen := by
  have joined : s.control.joined = false := by
    by_contra joined
    exact there (coherent.joined (by simpa using joined))
  refine ⟨joined, ?_⟩
  rintro (here | ⟨here, -⟩) <;> simp [here, Control.joined] at joined

/-- A step of the worker, which clears `running_` only when it ends by itself. -/
theorem Coherent.worker (coherent : Coherent build s) {worker : Worker} {running : Bool}
    {link : Link} (there : s.worker ≠ .absent) (stays : worker ≠ .absent)
    (fits : worker.calls.Fits link)
    (headless : worker = .finished false → build.renderer = false)
    (cleared : worker.endedByItself = s.worker.endedByItself ∧ running = s.running ∨
      worker.endedByItself = true ∧ s.worker.endedByItself = false ∧ running = false) :
    Coherent build { s with worker, running, link } := by
  obtain ⟨unjoined, closed⟩ := coherent.unjoined there
  have left : ¬ Session.leftOpen { s with worker, running, link } := by
    rintro (here | ⟨here, -⟩)
    · exact closed (.inl here)
    · have here : s.control = .checkRunning := here
      simp [here, Control.joined] at unjoined
  have notMarked : s.worker.endedByItself = false → s.control.marked = false :=
    fun active => Control.marked_starting (coherent.busy there active).1
  constructor
  case fits => rwa [Session.calls_of_worker stays]
  case starting =>
    intro starting
    rcases coherent.starting starting with absent | ended
    · exact absurd absent there
    · rcases cleared with ⟨same, -⟩ | ⟨ended', -⟩
      · exact .inr (same.trans ended)
      · exact .inr ended'
  case joined => exact fun joined => absurd joined (by simp [unjoined])
  case marked =>
    intro marked
    rcases cleared with ⟨-, same⟩ | ⟨-, active, -⟩
    · exact same.trans (coherent.marked marked)
    · rw [notMarked active] at marked
      contradiction
  case running =>
    intro _ active
    rcases cleared with ⟨same, kept⟩ | ⟨ended, -⟩
    · exact kept.trans (coherent.running there (same.symm.trans active))
    · rw [ended] at active
      contradiction
  case ended =>
    intro ended running
    rcases cleared with ⟨same, kept⟩ | ⟨-, -, off⟩
    · exact coherent.ended (same.symm.trans ended) (kept.symm.trans running)
    · rw [off] at running
      contradiction
  case absent => exact fun absent => absurd absent stays
  case headless =>
    rintro (finished | opened)
    · exact headless finished
    · exact absurd opened left
  case sink => exact fun _ => coherent.sink (.inl there)

/-- The connection is as the worker's position says. -/
theorem Coherent.linked (coherent : Coherent build s) {worker : Worker} (here : s.worker = worker)
    (there : worker ≠ .absent) : worker.calls.Fits s.link := by
  have fits := coherent.fits
  rwa [Session.calls_of_worker (here ▸ there), here] at fits

/-- The worker goes on within the same call state. -/
theorem Coherent.moves (coherent : Coherent build s) {worker worker' : Worker}
    (here : s.worker = worker) (there : worker ≠ .absent) (stays : worker' ≠ .absent)
    (same : worker'.calls = worker.calls)
    (kept : worker'.endedByItself = worker.endedByItself) (cleared : worker' ≠ .finished false) :
    Coherent build { s with worker := worker' } :=
  coherent.worker (here ▸ there) stays (same ▸ coherent.linked here there) (absurd · cleared)
    (.inl ⟨here ▸ kept, rfl⟩)

theorem Coherent.ends (coherent : Coherent build s) {worker worker' : Worker}
    (here : s.worker = worker) (there : worker ≠ .absent) (stays : worker' ≠ .absent)
    (same : worker'.calls = worker.calls)
    (active : worker.endedByItself = false) (ended : worker'.endedByItself = true)
    (cleared : worker' ≠ .finished false) :
    Coherent build { s with running := false, worker := worker' } :=
  coherent.worker (here ▸ there) stays (same ▸ coherent.linked here there) (absurd · cleared)
    (.inr ⟨ended, here ▸ active, rfl⟩)

/-- moonlight moves the connection on within the same calls. -/
theorem Coherent.relink (coherent : Coherent build s) {link : Link} (fits : s.calls.Fits link) :
    Coherent build { s with link } :=
  ⟨fits, coherent.starting, coherent.joined, coherent.marked, coherent.running, coherent.ended,
    coherent.absent, coherent.headless, coherent.sink⟩

/-! ### The thread that calls `start` and `stop`

While `start` is under way the worker is free or has ended by itself; from the join of `stop` on it
is free; elsewhere `running_` says whether there is one that has not ended by itself. -/

theorem Session.leftOpen.joined (opened : s.leftOpen) : s.control.joined = true := by
  rcases opened with here | ⟨here, -⟩
  · rw [here]
    rfl
  · rw [here]
    rfl

theorem Session.calls_of_unjoined (unjoined : s.control.joined = false) :
    s.calls = s.worker.calls := by
  have closed : ¬ s.leftOpen := fun opened => by simp [opened.joined] at unjoined
  by_cases absent : s.worker = .absent
  · rw [Session.calls, if_pos absent, if_neg closed, absent]
    rfl
  · exact Session.calls_of_worker absent

theorem Control.joined_of_starting {c : Control} (starting : c.starting = true) :
    c.joined = false := by
  cases c <;> simp_all [Control.starting, Control.joined]

theorem Coherent.of_starting (starting : s.control.starting = true)
    (free : s.worker = .absent ∨ s.worker.endedByItself = true)
    (fits : s.worker.calls.Fits s.link) (running : s.running = s.control.marked)
    (sink : s.worker ≠ .absent ∨ s.control.marked = true ∨ s.control = .setRunning →
      s.sink = true) : Coherent build s := by
  have unjoined := Control.joined_of_starting starting
  have closed : ¬ s.leftOpen := fun opened => by simp [opened.joined] at unjoined
  constructor
  case fits => rwa [Session.calls_of_unjoined unjoined]
  case starting => exact fun _ => free
  case joined => exact fun joined => by simp [unjoined] at joined
  case marked => exact running.trans
  case running =>
    intro there active
    rcases free with absent | ended
    · exact absurd absent there
    · rw [active] at ended
      contradiction
  case ended => exact fun _ on => running.symm.trans on
  case absent => exact fun _ on => .inl (running.symm.trans on)
  case headless =>
    rintro (finished | opened)
    · rw [finished] at free
      rcases free with absent | ended <;> contradiction
    · exact absurd opened closed
  case sink =>
    rintro (there | opened | marked)
    · exact sink (.inl there)
    · exact absurd opened closed
    · exact sink (.inr marked)

theorem Coherent.running_starting (coherent : Coherent build s)
    (starting : s.control.starting = true) : s.running = s.control.marked := by
  cases running : s.running with
  | false =>
    cases marked : s.control.marked with
    | false => rfl
    | true =>
      rw [coherent.marked marked] at running
      contradiction
  | true =>
    rcases coherent.starting starting with absent | ended
    · rcases coherent.absent absent running with marked | here | here | here
      · exact marked.symm
      all_goals
        rw [here] at starting
        contradiction
    · exact (coherent.ended ended running).symm

theorem Coherent.fits_unjoined (coherent : Coherent build s) (unjoined : s.control.joined = false) :
    s.worker.calls.Fits s.link :=
  Session.calls_of_unjoined unjoined ▸ coherent.fits

/-- `start` goes on within the same part. -/
theorem Coherent.starts (coherent : Coherent build s) {control : Control} {stopRequested : Bool}
    (here : s.control.starting = true) (there : control.starting = true)
    (same : control.marked = s.control.marked) (sunk : control ≠ .setRunning) :
    Coherent build { s with stopRequested, control } := by
  refine .of_starting there (coherent.starting here)
    (coherent.fits_unjoined (Control.joined_of_starting here))
    ((coherent.running_starting here).trans same.symm) ?_
  rintro (joinable | marked | setRunning)
  · exact coherent.sink (.inl joinable)
  · exact coherent.sink (.inr (.inr (.inl (same.symm.trans marked))))
  · exact absurd setRunning sunk

theorem Coherent.of_joined (joined : s.control.joined = true) (absent : s.worker = .absent)
    (fits : s.calls.Fits s.link) (cleared : s.control = .clearSink → s.running = false)
    (left : s.leftOpen → build.renderer = false ∧ s.sink = true) : Coherent build s := by
  have notStarting : s.control.starting = false := by
    by_contra starting
    rw [Control.joined_of_starting (by simpa using starting)] at joined
    contradiction
  have notMarked := Control.marked_starting notStarting
  constructor
  case fits => exact fits
  case starting => exact fun starting => by simp [notStarting] at starting
  case joined => exact fun _ => absent
  case marked => exact fun marked => by simp [notMarked] at marked
  case running => exact fun there => absurd absent there
  case ended =>
    intro ended
    rw [absent] at ended
    contradiction
  case absent =>
    intro _ on
    cases control : s.control <;> simp_all [Control.joined]
  case headless =>
    rintro (finished | opened)
    · rw [finished] at absent
      contradiction
    · exact (left opened).1
  case sink =>
    rintro (there | opened | marked | here)
    · exact absurd absent there
    · exact (left opened).2
    · simp [notMarked] at marked
    · rw [here] at joined
      contradiction

theorem Coherent.of_elsewhere (notStarting : s.control.starting = false)
    (unjoined : s.control.joined = false) (fits : s.worker.calls.Fits s.link)
    (running : s.running = true ↔ s.worker ≠ .absent ∧ s.worker.endedByItself = false)
    (headless : s.worker = .finished false → build.renderer = false)
    (sink : s.worker ≠ .absent → s.sink = true) : Coherent build s := by
  have notMarked := Control.marked_starting notStarting
  have closed : ¬ s.leftOpen := fun opened => by simp [opened.joined] at unjoined
  constructor
  case fits => rwa [Session.calls_of_unjoined unjoined]
  case starting => exact fun starting => by simp [notStarting] at starting
  case joined => exact fun joined => by simp [unjoined] at joined
  case marked => exact fun marked => by simp [notMarked] at marked
  case running => exact fun there active => running.mpr ⟨there, active⟩
  case ended =>
    intro ended on
    rw [(running.mp on).2] at ended
    contradiction
  case absent => exact fun absent on => absurd absent (running.mp on).1
  case headless =>
    rintro (finished | opened)
    · exact headless finished
    · exact absurd opened closed
  case sink =>
    rintro (there | opened | marked | here)
    · exact sink there
    · exact absurd opened closed
    · simp [notMarked] at marked
    · rw [here] at notStarting
      contradiction

theorem Coherent.running_elsewhere (coherent : Coherent build s)
    (notStarting : s.control.starting = false) (unjoined : s.control.joined = false) :
    s.running = true ↔ s.worker ≠ .absent ∧ s.worker.endedByItself = false := by
  have notMarked := Control.marked_starting notStarting
  constructor
  · intro on
    refine ⟨fun absent => ?_, ?_⟩
    · rcases coherent.absent absent on with marked | here | here | here
      · simp [notMarked] at marked
      all_goals
        rw [here] at unjoined
        contradiction
    · by_contra ended
      have marked := coherent.ended (by simpa using ended) on
      simp [notMarked] at marked
  · rintro ⟨there, active⟩
    exact coherent.running there active

/-- The thread goes on without the worker. -/
theorem Coherent.waits (coherent : Coherent build s) {control : Control} {stopRequested : Bool}
    (notStarting : s.control.starting = false) (unjoined : s.control.joined = false)
    (waits : control.starting = false) (waits' : control.joined = false) :
    Coherent build { s with stopRequested, control } :=
  .of_elsewhere waits waits' (coherent.fits_unjoined unjoined)
    (coherent.running_elsewhere notStarting unjoined) (fun finished => coherent.headless (.inl finished))
    (fun there => coherent.sink (.inl there))

theorem Coherent.accept (coherent : Coherent build s) {info : StartInfo} (idle : s.control = .idle)
    (usable : startError s.running info = none) :
    Coherent build { s with control := .setSink } := by
  have off := startError_running usable
  have unjoined : s.control.joined = false := by rw [idle]; rfl
  refine .of_starting rfl ?_ (coherent.fits_unjoined unjoined) off ?_
  · by_contra free
    obtain ⟨there, active⟩ := not_or.mp free
    rw [coherent.running there (by simpa using active)] at off
    contradiction
  · rintro (there | marked | here)
    · exact coherent.sink (.inl there)
    · contradiction
    · contradiction

theorem Coherent.setSink (coherent : Coherent build s) (here : s.control = .setSink) :
    Coherent build { s with sink := true, control := .setRunning } := by
  have starting : s.control.starting = true := by rw [here]; rfl
  have unmarked : s.running = false := by rw [coherent.running_starting starting, here]; rfl
  exact .of_starting rfl (coherent.starting starting)
    (coherent.fits_unjoined (Control.joined_of_starting starting)) unmarked fun _ => rfl

theorem Coherent.setRunning (coherent : Coherent build s) (here : s.control = .setRunning) :
    Coherent build { s with running := true, control := .clearStopRequested } := by
  have starting : s.control.starting = true := by rw [here]; rfl
  exact .of_starting rfl (coherent.starting starting)
    (coherent.fits_unjoined (Control.joined_of_starting starting)) rfl
    fun _ => coherent.sink (.inr (.inr (.inr here)))

theorem Coherent.assignWorker (coherent : Coherent build s) (here : s.control = .assignWorker)
    (free : s.worker = .absent) : Coherent build { s with
      worker := if build.renderer then .window else .connect false, control := .idle } := by
  have starting : s.control.starting = true := by rw [here]; rfl
  have marked : s.control.marked = true := by rw [here]; rfl
  have on : s.running = true := coherent.marked marked
  have sunk : s.sink = true := coherent.sink (.inr (.inr (.inl marked)))
  have down : s.link = .down := by
    have fits := coherent.fits_unjoined (Control.joined_of_starting starting)
    rwa [free] at fits
  cases build.renderer with
  | true => exact .of_elsewhere rfl rfl down (by simp [on, Worker.endedByItself]) nofun fun _ => sunk
  | false => exact .of_elsewhere rfl rfl down (by simp [on, Worker.endedByItself]) nofun fun _ => sunk

theorem Coherent.notJoinable (coherent : Coherent build s) (here : s.control = .checkJoinable)
    (free : s.worker = .absent) : Coherent build { s with control := .checkRunning } := by
  have unjoined : s.control.joined = false := by rw [here]; rfl
  have off : s.running ≠ true := fun on =>
    ((coherent.running_elsewhere (by rw [here]; rfl) unjoined).mp on).1 free
  have closed : ¬ Session.leftOpen { s with control := .checkRunning } := by
    rintro (stopping | ⟨-, on⟩)
    · contradiction
    · exact off on
  refine .of_joined rfl free ?_ nofun fun opened => absurd opened closed
  have fits := coherent.fits_unjoined unjoined
  rw [free] at fits
  rwa [Session.calls, if_pos free, if_neg closed]

/-- What the worker leaves behind is closed by `stop` exactly if the worker has not. -/
theorem Coherent.join (coherent : Coherent build s) {cleared : Bool} (here : s.control = .join)
    (done : s.worker = .finished cleared) :
    Coherent build { s with worker := .absent, control := .checkRunning } := by
  have fits := coherent.linked done nofun
  have running := coherent.running_elsewhere (by rw [here]; rfl) (by rw [here]; rfl)
  have sunk : s.sink = true := coherent.sink (.inl (by simp [done]))
  cases cleared with
  | true =>
    have off : s.running = false := by simpa [done, Worker.endedByItself] using running
    have closed : ¬ Session.leftOpen { s with worker := .absent, control := .checkRunning } := by
      simp [Session.leftOpen, off]
    refine .of_joined rfl rfl ?_ nofun fun opened => absurd opened closed
    rwa [Session.calls, if_pos rfl, if_neg closed]
  | false =>
    have on : s.running = true := by simpa [done, Worker.endedByItself] using running
    have opened : Session.leftOpen { s with worker := .absent, control := .checkRunning } :=
      .inr ⟨rfl, on⟩
    refine .of_joined rfl rfl ?_ nofun fun _ => ⟨coherent.headless (.inl done), sunk⟩
    rwa [Session.calls, if_pos rfl, if_pos opened]

theorem Coherent.stillRunning (coherent : Coherent build s) (here : s.control = .checkRunning)
    (on : s.running = true) : Coherent build { s with
      control := if build.renderer then .clearRunning else .stopConnection } := by
  have absent := coherent.joined (by rw [here]; rfl)
  have opened : s.leftOpen := .inr ⟨here, on⟩
  have fits := coherent.fits
  rw [Session.calls, if_pos absent, if_pos opened] at fits
  have headless := coherent.headless (.inr opened)
  rw [headless]
  have opened' : Session.leftOpen { s with control := .stopConnection } := .inl rfl
  refine .of_joined rfl absent ?_ nofun fun _ => ⟨headless, coherent.sink (.inr (.inl opened))⟩
  simpa only [Session.calls, if_pos absent, Bool.false_eq_true, if_false, if_pos opened'] using fits

/-- The rest of `stop` has no connection to close. -/
theorem Coherent.of_released {control : Control} (joined : control.joined = true)
    (absent : s.worker = .absent) (down : s.link = .down)
    (here : control = .clearRunning ∨ control = .clearSink ∧ s.running = false) :
    Coherent build { s with control } := by
  have closed : ¬ Session.leftOpen { s with control } := by
    rintro (same | ⟨same, -⟩)
    all_goals
      have same : control = _ := same
      rw [same] at here
      rcases here with other | ⟨other, -⟩ <;> contradiction
  refine .of_joined joined absent ?_ ?_ fun opened => absurd opened closed
  · rwa [Session.calls, if_pos absent, if_neg closed]
  · rintro rfl
    rcases here with other | ⟨-, off⟩
    · contradiction
    · exact off

theorem Coherent.down_of_closed (coherent : Coherent build s) (absent : s.worker = .absent)
    (closed : ¬ s.leftOpen) : s.link = .down := by
  have fits := coherent.fits
  rwa [Session.calls, if_pos absent, if_neg closed] at fits

theorem Coherent.step (coherent : Coherent build s) (step : Step build s action (.alive s')) :
    Coherent build s' := by
  cases step with
  | window here => exact coherent.moves here nofun nofun rfl rfl nofun
  | headless here => exact coherent.moves here nofun nofun rfl rfl nofun
  | liStart here =>
    exact coherent.worker (by simp [here]) nofun nofun nofun (.inl ⟨by rw [here]; rfl, rfl⟩)
  | connected here =>
    have fits : s.link ≠ .down := coherent.linked here nofun
    have settled : Calls.opened.Fits (if s.link = .setup then .up else s.link) := by
      cases link : s.link <;> simp_all [Calls.Fits]
    cases renderer : build.renderer with
    | true =>
      exact coherent.worker (by simp [here]) nofun settled nofun (.inl ⟨by rw [here]; rfl, rfl⟩)
    | false =>
      exact coherent.worker (by simp [here]) nofun settled (fun _ => renderer)
        (.inl ⟨by rw [here]; rfl, rfl⟩)
  | failed here =>
    exact coherent.worker (by simp [here]) nofun rfl nofun (.inl ⟨by rw [here]; rfl, rfl⟩)
  | clearFailed here => exact coherent.ends here nofun nofun rfl rfl rfl nofun
  | reportFailure here => exact coherent.moves here nofun nofun rfl rfl nofun
  | leave here => exact coherent.moves here nofun nofun rfl rfl nofun
  | close here => exact coherent.moves here nofun nofun rfl rfl nofun
  | liStop here =>
    exact coherent.worker (by simp [here]) nofun rfl nofun (.inl ⟨by rw [here]; rfl, rfl⟩)
  | clear here => exact coherent.ends here nofun nofun rfl rfl rfl nofun
  | reportClosed here => exact coherent.moves here nofun nofun rfl rfl nofun
  | unreported here => exact coherent.moves here nofun nofun rfl rfl nofun
  | refuse | present | presentStats | stageStarting | stageFailed => exact coherent
  | connectionStarted here =>
    refine coherent.relink ?_
    have fits := coherent.fits
    cases calls : s.calls <;> simp_all [Calls.Fits]
  | connectionTerminated errorCode here =>
    refine coherent.relink ?_
    have fits := coherent.fits
    cases calls : s.calls <;> simp_all [Calls.Fits]
  | accept idle usable => exact coherent.accept idle usable
  | setSink here => exact coherent.setSink here
  | setRunning here => exact coherent.setRunning here
  | clearStopRequested here =>
    exact coherent.starts (by rw [here]; rfl) rfl (by rw [here]; rfl) nofun
  | assignWorker here free => exact coherent.assignWorker here free
  | stop idle => exact coherent.waits (by rw [idle]; rfl) (by rw [idle]; rfl) rfl rfl
  | interrupt here => exact coherent.waits (by rw [here]; rfl) (by rw [here]; rfl) rfl rfl
  | notJoinable here free => exact coherent.notJoinable here free
  | join here done => exact coherent.join here done
  | stillRunning here on => exact coherent.stillRunning here on
  | notRunning here off =>
    have absent := coherent.joined (by rw [here]; rfl)
    have closed : ¬ s.leftOpen := by simp [Session.leftOpen, here, off]
    exact .of_released rfl absent (coherent.down_of_closed absent closed) (.inr ⟨rfl, off⟩)
  | stopConnection here =>
    have absent := coherent.joined (by rw [here]; rfl)
    exact .of_released (s := { s with link := .down }) rfl absent rfl (.inl rfl)
  | clearRunning here =>
    have absent := coherent.joined (by rw [here]; rfl)
    have closed : ¬ s.leftOpen := by simp [Session.leftOpen, here]
    have down := coherent.down_of_closed absent closed
    exact .of_released (s := { s with running := false }) rfl absent down (.inr ⟨rfl, rfl⟩)
  | clearSink here =>
    have absent := coherent.joined (by rw [here]; rfl)
    have closed : ¬ s.leftOpen := by simp [Session.leftOpen, here]
    have off : s.running ≠ true := fun on => by
      have later := coherent.absent absent on
      simp [here, Control.marked] at later
    refine .of_elsewhere rfl rfl ?_ ?_ ?_ ?_
    · rw [absent]
      exact coherent.down_of_closed absent closed
    · simp [absent, off]
    · simp [absent]
    · simp [absent]

/-- Whoever uses the connection has a sink to report to. -/
theorem Coherent.sink_of_link (coherent : Coherent build s) (there : s.link ≠ .down) :
    s.sink = true := by
  by_cases absent : s.worker = .absent
  · by_cases opened : s.leftOpen
    · exact coherent.sink (.inr (.inl opened))
    · have fits := coherent.fits
      rw [Session.calls, if_pos absent, if_neg opened] at fits
      exact absurd fits there
  · exact coherent.sink (.inl absent)

/-- Every session that can be reached is coherent. -/
theorem coherent_of_run {actions : List Action}
    (run : Run (ProcessStep build) (.alive .fresh) actions (.alive s)) : Coherent build s := by
  refine run.invariant (fun p => ∀ s, p = .alive s → Coherent build s) ?_ ?_ s rfl
  · rintro _ ⟨⟩
    exact .fresh
  · rintro _ action _ coherent ⟨step⟩ s' rfl
    exact (coherent _ rfl).step step

/-- What a session keeps about the steps behind it. -/
theorem session_history {actions : List Action} (kept : List Action → Session → Prop)
    (run : Run (ProcessStep build) (.alive .fresh) actions (.alive s)) (start : kept [] .fresh)
    (preserved : ∀ actions s action s', Coherent build s → kept actions s →
      Step build s action (.alive s') → kept (actions ++ [action]) s') : kept actions s := by
  have both := run.history (fun actions p => ∀ s, p = .alive s → Coherent build s ∧ kept actions s)
    (by rintro _ ⟨⟩; exact ⟨.fresh, start⟩) ?_ s rfl
  · exact both.2
  · rintro actions _ action _ earlier ⟨step⟩ s' rfl
    obtain ⟨coherent, held⟩ := earlier _ rfl
    exact ⟨coherent.step step, preserved _ _ _ _ coherent held step⟩

/-! ### A session that gets to its worker -/

def Build.firstWorker (build : Build) : Worker := if build.renderer then .window else .connect false

/-- What `start` does when it is not refused. -/
def startActions (info : StartInfo) : List Action := [.start info, .silent, .silent, .silent, .started]

theorem run_started {info : StartInfo} (idle : s.control = .idle) (free : s.worker = .absent)
    (usable : startError s.running info = none) :
    Run (ProcessStep build) (.alive s) (startActions info)
      (.alive ⟨true, false, true, build.firstWorker, .idle, s.link⟩) := by
  have accepted : Run (ProcessStep build) (.alive s) ([] ++ [.start info])
      (.alive { s with control := .setSink }) := .next .start ⟨.accept idle usable⟩
  have marked := Run.next (.next (.next accepted ⟨.setSink rfl⟩) ⟨.setRunning rfl⟩)
    ⟨.clearStopRequested rfl⟩
  exact .next marked ⟨.assignWorker rfl free⟩

end StreamEngine.Client
