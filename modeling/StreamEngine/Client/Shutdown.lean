import StreamEngine.Client.SessionInvariant

/-! The two lifetimes of client mode. The server lives on the stack of `stream_main` and ends
with it, when the launcher closes the connection; the session is a static object, whose
destructor stops it when the process exits. What a session emits in between goes to a server
that is gone. -/
namespace StreamEngine.Client
open ByteString Transition

/-- Where the process is: `stream_main` serves, has returned, or the session is destroyed. -/
inductive Life where
  | serving
  | returned
  | destroying
deriving DecidableEq

/-- The calls that handlers make. -/
def Action.isRequest : Action → Bool
  | .start _ | .startRefused _ _ | .stop => true
  | _ => false

/-- The session calls one of its sinks, and the sink the server. -/
def Action.emits : Action → Bool
  | .state (some _) | .stats => true
  | _ => false

structure ClientProcess where
  life : Life
  process : Process

def ClientProcess.fresh : ClientProcess := ⟨.serving, .alive .fresh⟩

/-- A step of the session, or the return of `stream_main`. -/
inductive ClientAction where
  | session (action : Action)
  | returned

inductive ClientStep (build : Build) : ClientProcess → ClientAction → ClientProcess → Prop where
  | serve {p action p'} (step : ProcessStep build p action p') :
      ClientStep build ⟨.serving, p⟩ (.session action) ⟨.serving, p'⟩
  -- `run` returns between two requests.
  | returns {s} (idle : s.control = .idle) :
      ClientStep build ⟨.serving, .alive s⟩ .returned ⟨.returned, .alive s⟩
  | linger {life p action p'} (gone : life ≠ .serving) (own : action.isRequest = false)
      (step : ProcessStep build p action p') :
      ClientStep build ⟨life, p⟩ (.session action) ⟨life, p'⟩
  | destroy {p p'} (step : ProcessStep build p .stop p') :
      ClientStep build ⟨.returned, p⟩ (.session .stop) ⟨.destroying, p'⟩

/-- The worker has nothing more to report. -/
def Worker.isDone : Worker → Bool
  | .absent | .clear false | .report false | .finished _ => true
  | _ => false

/-- No connection, and no worker on its way to one or to a report. -/
structure Inactive (s : Session) : Prop where
  worker : s.worker.isDone = true
  link : s.link = .down

/-- `stream_main` returns only when the session is inactive. -/
def ReturnsInactive : ClientProcess → ClientAction → Prop
  | ⟨_, .alive s⟩, .returned => Inactive s
  | _, _ => True

variable {build : Build} {s s' : Session} {p : Process} {action : Action} {c c' : ClientProcess}
  {labels : List ClientAction}

theorem Inactive.step (inactive : Inactive s) (rests : s.control.starting = false)
    (step : Step build s action (.alive s')) (own : action.isRequest = false ∨ action = .stop) :
    action.emits = false ∧ Inactive s' ∧ s'.control.starting = false := by
  obtain ⟨done, down⟩ := inactive
  have elsewhere : ∀ {w : Worker}, w.isDone = false → s.worker ≠ w := by
    rintro w notDone rfl
    rw [done] at notDone
    contradiction
  cases step with
  | refuse | accept => simp [Action.isRequest] at own
  | setSink here | setRunning here | clearStopRequested here | assignWorker here =>
    rw [here] at rests
    contradiction
  | stop | interrupt | notJoinable | notRunning | clearRunning | clearSink =>
    exact ⟨rfl, ⟨done, down⟩, rfl⟩
  | stillRunning =>
    refine ⟨rfl, ⟨done, down⟩, ?_⟩
    cases build.renderer <;> rfl
  | join => exact ⟨rfl, ⟨rfl, down⟩, rfl⟩
  | stopConnection => exact ⟨rfl, ⟨done, rfl⟩, rfl⟩
  | window here | headless here | liStart here | connected here | failed here | clearFailed here
  | reportFailure here | leave here | close here | present here | presentStats here | liStop here
  | reportClosed here => exact absurd here (elsewhere rfl)
  | @clear userClosed here =>
    cases userClosed with
    | true => exact absurd here (elsewhere rfl)
    | false => exact ⟨rfl, ⟨rfl, down⟩, rests⟩
  | unreported => exact ⟨rfl, ⟨rfl, down⟩, rests⟩
  | stageStarting _ here | stageFailed _ _ here | connectionStarted here =>
    rw [down] at here
    contradiction
  | connectionTerminated _ here => simp [down] at here

/-- What such a return leaves: a session that stays inactive while it is destroyed. -/
def AfterReturn (c : ClientProcess) : Prop :=
  c.life ≠ .serving → ∀ s, c.process = .alive s → Inactive s ∧ s.control.starting = false

theorem AfterReturn.step (after : AfterReturn c) {label : ClientAction}
    (step : ClientStep build c label c') (inactive : ReturnsInactive c label) : AfterReturn c' := by
  intro gone s' alive
  cases step with
  | serve => exact absurd rfl gone
  | returns idle =>
    cases alive
    refine ⟨inactive, ?_⟩
    rw [idle]
    rfl
  | linger gone own step =>
    obtain ⟨step⟩ := step
    subst alive
    obtain ⟨inactive, rests⟩ := after gone _ rfl
    exact (inactive.step rests step (.inl own)).2
  | destroy step =>
    obtain ⟨step⟩ := step
    subst alive
    obtain ⟨inactive, rests⟩ := after nofun _ rfl
    exact (inactive.step rests step (.inr rfl)).2

theorem Inactive.silent (inactive : Inactive s) (rests : s.control.starting = false)
    (step : Step build s action p) (own : action.isRequest = false ∨ action = .stop) :
    action.emits = false := by
  cases p with
  | alive s' => exact (inactive.step rests step own).1
  | terminated =>
    cases step
    rfl

/-- Nothing is emitted after a return that finds the session inactive. -/
theorem silent_after_return
    (run : Run (Restricted (ClientStep build) ReturnsInactive) .fresh labels c)
    (gone : c.life ≠ .serving) (step : ClientStep build c (.session action) c') :
    action.emits = false := by
  have after : AfterReturn c := run.invariant AfterReturn (absurd rfl)
    fun _ _ _ after ⟨step, inactive⟩ => after.step step inactive
  cases step with
  | serve => exact absurd rfl gone
  | linger _ own step =>
    obtain ⟨step⟩ := step
    obtain ⟨inactive, rests⟩ := after gone _ rfl
    exact inactive.silent rests step (.inl own)
  | destroy => rfl

/-! ### A session that is still active -/

/-- Some step calls a sink at once. -/
def Emits (build : Build) (s : Session) : Prop :=
  ∃ action s', Step build s action (.alive s') ∧ action.emits = true

theorem Action.own_of_emits (emits : action.emits = true) : action.isRequest = false := by
  cases action <;> first | rfl | contradiction

/-- moonlight reports through the session for as long as it has a connection. -/
theorem emits_of_link (coherent : Coherent build s) (there : s.link ≠ .down) : Emits build s := by
  have sink := coherent.sink_of_link there
  have reported : ∀ e, (Action.state (s.emit e)).emits = true := by
    intro e
    simp [Session.emit, sink, Action.emits]
  cases link : s.link with
  | down => exact absurd link there
  | setup => exact ⟨_, _, .stageStarting 0 link, reported _⟩
  | up => exact ⟨_, _, .connectionTerminated 0 (.inl link), reported _⟩
  | dropped => exact ⟨_, _, .connectionTerminated 0 (.inr link), reported _⟩

/-- A session calls a sink by its second step. -/
def EmitsSoon (build : Build) (s : Session) : Prop :=
  Emits build s ∨
    ∃ action s', action.isRequest = false ∧ Step build s action (.alive s') ∧ Emits build s'

/-- Between its calls a worker has a connection. -/
theorem Coherent.link_of_calls (coherent : Coherent build s) {worker : Worker}
    (here : s.worker = worker) (opened : worker.calls ≠ .closed) : s.link ≠ .down := by
  have fits := coherent.linked here (by rintro rfl; exact opened rfl)
  intro down
  rw [down] at fits
  cases calls : worker.calls with
  | closed => exact opened calls
  | pending | opened => simp [calls, Calls.Fits] at fits

theorem emitsSoon_of_active (coherent : Coherent build s) (active : ¬ Inactive s) :
    EmitsSoon build s := by
  have reported : ∀ (s' : Session) e, s.worker ≠ .absent → s'.sink = s.sink →
      (Action.state (s'.emit e)).emits = true := by
    intro s' e there kept
    simp [Session.emit, kept, coherent.sink (.inl there), Action.emits]
  have connected : s.link ≠ .down → EmitsSoon build s :=
    fun there => .inl (emits_of_link coherent there)
  have linked : s.worker.isDone = true → s.link ≠ .down := fun done down => active ⟨done, down⟩
  cases here : s.worker with
  | window => exact .inl ⟨.state (some ⟨.window, [], []⟩), _, .window here, rfl⟩
  | connect haveWindow =>
    exact .inr ⟨_, _, rfl, .liStart here, emits_of_link (coherent.step (.liStart here)) nofun⟩
  | setup | loop | disconnect => exact connected (coherent.link_of_calls here nofun)
  | failed rc =>
    have there : s.worker ≠ .absent := by simp [here]
    exact .inr ⟨_, _, rfl, .clearFailed here, _, _, .reportFailure rfl, reported _ _ there rfl⟩
  | reportFailure rc => exact .inl ⟨_, _, .reportFailure here, reported _ _ (by simp [here]) rfl⟩
  | clear userClosed =>
    cases userClosed with
    | true =>
      have there : s.worker ≠ .absent := by simp [here]
      exact .inr ⟨_, _, rfl, .clear here, _, _, .reportClosed rfl, reported _ _ there rfl⟩
    | false => exact connected (linked (by rw [here]; rfl))
  | report userClosed =>
    cases userClosed with
    | true => exact .inl ⟨_, _, .reportClosed here, reported _ _ (by simp [here]) rfl⟩
    | false => exact connected (linked (by rw [here]; rfl))
  | absent | finished => exact connected (linked (by rw [here]; rfl))

theorem client_coherent (run : Run (ClientStep build) .fresh labels c) (alive : c.process = .alive s) :
    Coherent build s := by
  refine run.invariant (fun c => ∀ s, c.process = .alive s → Coherent build s) ?_ ?_ s alive
  · rintro _ ⟨⟩
    exact .fresh
  · rintro c label c' coherent step s' rfl'
    cases step with
    | returns => exact coherent _ rfl'
    | serve step | linger _ _ step | destroy step =>
      obtain ⟨step⟩ := step
      subst rfl'
      exact (coherent _ rfl).step step

/-- After `stream_main` has returned the process goes on with the steps of its other threads. -/
theorem emitsSoon_lingers (soon : EmitsSoon build s) :
    ∃ more c action c', Run (ClientStep build) ⟨.returned, .alive s⟩ more c ∧ c.life = .returned ∧
      ClientStep build c (.session action) c' ∧ action.emits = true := by
  have own : ∀ {s action s'}, Step build s action (.alive s') → action.isRequest = false →
      ClientStep build ⟨.returned, .alive s⟩ (.session action) ⟨.returned, .alive s'⟩ :=
    fun step own => .linger nofun own ⟨step⟩
  obtain ⟨action, s', step, emits⟩ | ⟨quiet, s', silent, first, action, s'', step, emits⟩ := soon
  · exact ⟨[], _, action, _, .start, rfl, own step (Action.own_of_emits emits), emits⟩
  · exact ⟨[.session quiet], _, action, _, .next .start (own first silent), rfl,
      own step (Action.own_of_emits emits), emits⟩

/-- Nothing is emitted once the server is gone, as long as `stream_main` returns only when no
session is active; a return at any other moment leaves a session that can still emit. -/
theorem emits_after_return_iff (build : Build) :
    (∀ labels c action c', Run (Restricted (ClientStep build) ReturnsInactive) .fresh labels c →
      c.life ≠ .serving → ClientStep build c (.session action) c' → action.emits = false) ∧
    ∀ labels s, Run (ClientStep build) .fresh labels ⟨.serving, .alive s⟩ → s.control = .idle →
      ¬ Inactive s →
      ∃ more c action c', Run (ClientStep build) .fresh (labels ++ [.returned] ++ more) c ∧
        c.life = .returned ∧ ClientStep build c (.session action) c' ∧ action.emits = true := by
  constructor
  · intro labels c action c' run gone step
    exact silent_after_return run gone step
  · intro labels s run idle active
    obtain ⟨more, c, action, c', lingering, returned, step, emits⟩ :=
      emitsSoon_lingers (emitsSoon_of_active (client_coherent run rfl) active)
    exact ⟨more, c, action, c', (Run.next run (.returns idle)).append lingering, returned, step,
      emits⟩

/-- What the session does while the server runs. -/
theorem run_serving {actions : List Action} {p' : Process}
    (run : Run (ProcessStep build) p actions p') :
    Run (ClientStep build) ⟨.serving, p⟩ (actions.map .session) ⟨.serving, p'⟩ := by
  induction run with
  | start => exact .start
  | next _ last ih =>
    rw [List.map_append]
    exact .next ih (.serve last)

/-- The launcher closes the connection while a stream is up. -/
theorem stats_after_return : ∃ labels c action c',
    Run (ClientStep rendererBuild) .fresh labels c ∧ c.life = .returned ∧
      ClientStep rendererBuild c (.session action) c' ∧ action.emits = true := by
  have started : Run (ProcessStep rendererBuild) (.alive .fresh) _ _ :=
    run_started rfl rfl (by decide : startError false usableInfo = none)
  have connecting := Run.next (.next started ⟨.headless rfl⟩) ⟨.liStart rfl⟩
  have streaming := Run.next (.next connecting ⟨.connectionStarted rfl⟩) ⟨.connected rfl⟩
  have returned := Run.next (run_serving streaming) (.returns rfl)
  exact ⟨_, _, .stats, _, returned, rfl, .linger nofun rfl ⟨.presentStats rfl rfl⟩, rfl⟩

end StreamEngine.Client
