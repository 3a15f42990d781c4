import StreamEngine.Client.SessionInvariant

/-! The phases that a session reports. Four places report a terminal phase, on two threads, and
none of them knows of the others, so what keeps them apart is what makes a session end: as long
as it is given one reason to, it reports one. -/
namespace StreamEngine.Client
open ByteString Transition

def StateEvent.isTerminal (e : StateEvent) : Bool := e.phase = .ended || e.phase = .error

/-- The events of the session whose worker was started last. -/
def addEvent (events : List StateEvent) : Action → List StateEvent
  | .started => []
  | .state (some e) => events ++ [e]
  | _ => events

def sessionEvents (actions : List Action) : List StateEvent := actions.foldl addEvent []

/-- A terminal phase is the last one. -/
def EndsLast (events : List StateEvent) : Prop :=
  ∀ before e after, events = before ++ e :: after → e.isTerminal = true → after = []

/-- A stage that moonlight reports as failed, while it sets the connection up. -/
def StageFails (s : Session) : Action → Prop
  | .state (some e) => s.link = .setup ∧ e.phase = .error
  | _ => False

/-- A reason to end: the connection is refused or terminated, or the user closes the window. -/
inductive Reason : Session → Action → Session → Prop where
  | refused {s s' rc} (code : rc ≠ 0) : Reason s (.liStarted rc) s'
  | terminated {s s' e} (established : s.link = .up ∨ s.link = .dropped) : Reason s (.state e) s'
  | closed {s action s'} (looping : s.worker = .loop true) (left : s'.worker = .disconnect true) :
      Reason s action s'

/-- The user has closed the window. -/
def Worker.userClosed : Worker → Bool
  | .disconnect userClosed | .clear userClosed | .report userClosed => userClosed
  | _ => false

/-- There has been a reason to end. -/
def Session.ending (s : Session) : Prop := s.link = .dropped ∨ s.worker.userClosed = true

/-- No stage fails, and a session is given one reason to end. -/
def EndsOnce : Process → Action → Process → Prop
  | .alive s, action, .alive s' => ¬ StageFails s action ∧ (Reason s action s' → ¬ s.ending)
  | _, _, _ => True

variable {build : Build} {s s' : Session} {p : Process} {action : Action} {actions : List Action}
  {events : List StateEvent} {e : StateEvent}

theorem sessionEvents_snoc :
    sessionEvents (actions ++ [action]) = addEvent (sessionEvents actions) action := by
  simp [sessionEvents]

theorem mem_addEvent (member : e ∈ events) (goesOn : action ≠ .started) : e ∈ addEvent events action := by
  cases action with
  | started => exact absurd rfl goesOn
  | state reported => cases reported <;> simp [addEvent, member]
  | _ => exact member

theorem endsLast_of_running (running : ∀ e ∈ events, e.isTerminal = false) : EndsLast events := by
  rintro before e after rfl terminal
  rw [running e (by simp)] at terminal
  contradiction

theorem endsLast_snoc (running : ∀ e ∈ events, e.isTerminal = false) : EndsLast (events ++ [e]) := by
  intro before e' after split terminal
  rcases History.snoc_split.mp split with ⟨-, -, last⟩ | ⟨rest, inside, -⟩
  · exact last
  · have member : e' ∈ events := by simp [inside]
    rw [running e' member] at terminal
    contradiction

theorem not_down_of_up (up : s.link = .up ∨ s.link = .dropped) : s.link ≠ .down := by
  rcases up with link | link <;> simp [link]

/-- Places of the worker from which it comes to a report of its own. -/
def Worker.reports : Worker → Bool
  | .window | .connect _ | .failed _ | .reportFailure _ => true
  | .disconnect userClosed | .clear userClosed | .report userClosed => userClosed
  | _ => false

/-- Nothing more is reported unless there is another reason to end. -/
structure Quiet (s : Session) : Prop where
  worker : s.worker.reports = false
  link : s.link = .dropped ∨ s.link = .down

/-- The invariant: no terminal phase yet, or one at the end and nothing more to report. -/
def Reported (events : List StateEvent) (s : Session) : Prop :=
  (∀ e ∈ events, e.isTerminal = false) ∨ EndsLast events ∧ Quiet s

theorem Quiet.reports (quiet : Quiet s) {worker : Worker} (here : s.worker = worker) :
    worker.reports = false :=
  here ▸ quiet.worker

theorem Quiet.elsewhere (quiet : Quiet s) {worker : Worker} (reports : worker.reports = true) :
    s.worker ≠ worker := by
  intro here
  rw [quiet.reports here] at reports
  contradiction

theorem Quiet.settled (quiet : Quiet s) : s.link ≠ .setup ∧ s.link ≠ .up := by
  rcases quiet.link with link | link <;> simp [link]

/-- A second reason to end would have to come while the connection is up. -/
theorem Quiet.no_reason (quiet : Quiet s) (once : EndsOnce (.alive s) action (.alive s'))
    (there : s.link ≠ .down) : ¬ Reason s action s' := by
  intro reason
  rcases quiet.link with dropped | down
  · exact once.2 reason (.inl dropped)
  · exact there down

theorem Quiet.step (quiet : Quiet s) (coherent : Coherent build s)
    (step : Step build s action (.alive s')) (once : EndsOnce (.alive s) action (.alive s'))
    (goesOn : action ≠ .started) : addEvent events action = events ∧ Quiet s' := by
  cases step with
  | assignWorker => exact absurd rfl goesOn
  | refuse | accept | setSink | setRunning | clearStopRequested | stop | interrupt | notJoinable |
      stillRunning | notRunning | clearRunning | clearSink | present | presentStats =>
    exact ⟨rfl, quiet.worker, quiet.link⟩
  | join | leave => exact ⟨rfl, rfl, quiet.link⟩
  | stopConnection => exact ⟨rfl, quiet.worker, .inr rfl⟩
  | window here | headless here | liStart here | clearFailed here | reportFailure here
  | reportClosed here => exact absurd here (quiet.elsewhere rfl)
  | connected here =>
    refine ⟨rfl, ?_, ?_⟩
    · cases build.renderer <;> rfl
    · simpa only [if_neg quiet.settled.1] using quiet.link
  | failed here code =>
    exact absurd (.refused code) (quiet.no_reason once (coherent.linked here nofun))
  | close here continues =>
    have there := not_down_of_up (coherent.linked here nofun)
    exact absurd (.closed here rfl) (quiet.no_reason once there)
  | liStop here =>
    have silent := quiet.reports here
    exact ⟨rfl, silent, .inr rfl⟩
  | clear here =>
    have silent := quiet.reports here
    exact ⟨rfl, silent, quiet.link⟩
  | unreported => exact ⟨rfl, rfl, quiet.link⟩
  | stageStarting _ here | stageFailed _ _ here | connectionStarted here =>
    exact absurd here quiet.settled.1
  | connectionTerminated errorCode here =>
    exact absurd (.terminated here) (quiet.no_reason once (not_down_of_up here))

/-- A session that reports without a sink reports nothing. -/
theorem addEvent_emit (e : StateEvent) :
    addEvent events (.state (s.emit e)) = events ∨
      s.sink = true ∧ addEvent events (.state (s.emit e)) = events ++ [e] := by
  cases sink : s.sink <;> simp [Session.emit, sink, addEvent]

theorem reported_progress (running : ∀ e ∈ events, e.isTerminal = false)
    (progress : e.isTerminal = false) : Reported (addEvent events (.state (s.emit e))) s' := by
  left
  rcases addEvent_emit e with same | ⟨-, same⟩
  · rwa [same]
  · rw [same]
    intro e' member
    rcases List.mem_append.mp member with earlier | last
    · exact running e' earlier
    · rwa [List.mem_singleton.mp last]

theorem reported_last (running : ∀ e ∈ events, e.isTerminal = false) (quiet : Quiet s') :
    Reported (addEvent events (.state (s.emit e))) s' := by
  rcases addEvent_emit e with same | ⟨-, same⟩
  · rw [same]
    exact .inl running
  · rw [same]
    exact .inr ⟨endsLast_snoc running, quiet⟩

/-- While the connection is up, only a worker whose window was closed has a report to make. -/
theorem Coherent.up_quiet (coherent : Coherent build s) (up : s.link = .up ∨ s.link = .dropped)
    (open_ : s.worker.userClosed = false) : s.worker.reports = false := by
  have notDown := not_down_of_up up
  cases worker : s.worker with
  | window | connect | failed | reportFailure => exact absurd (coherent.linked worker nofun) notDown
  | disconnect userClosed | clear userClosed | report userClosed =>
    rw [worker] at open_
    exact open_
  | _ => rfl

/-- While no terminal phase was reported, the one that is reported first is the last. -/
theorem Coherent.reported_step (coherent : Coherent build s)
    (running : ∀ e ∈ events, e.isTerminal = false) (step : Step build s action (.alive s'))
    (once : EndsOnce (.alive s) action (.alive s')) (goesOn : action ≠ .started) :
    Reported (addEvent events action) s' := by
  cases step with
  | assignWorker => exact absurd rfl goesOn
  | window =>
    left
    intro e member
    rcases List.mem_append.mp member with earlier | last
    · exact running e earlier
    · rw [List.mem_singleton.mp last]
      rfl
  | reportFailure here => exact reported_last running ⟨rfl, .inr (coherent.linked here nofun)⟩
  | reportClosed here => exact reported_last running ⟨rfl, .inr (coherent.linked here nofun)⟩
  | stageStarting | connectionStarted => exact reported_progress running rfl
  | stageFailed stage errorCode here =>
    rcases addEvent_emit (build.stageFailed stage errorCode) with same | ⟨sink, -⟩
    · exact .inl (same ▸ running)
    · refine absurd ?_ once.1
      rw [Session.emit, if_pos sink]
      exact ⟨here, rfl⟩
  | connectionTerminated errorCode here =>
    have first := once.2 (.terminated here)
    have open_ : s.worker.userClosed = false := by
      by_contra closed
      exact first (.inr (by simpa using closed))
    exact reported_last running ⟨coherent.up_quiet here open_, .inl rfl⟩
  | _ => exact .inl running

/-- A step under the condition. -/
abbrev OnceStep (build : Build) (p : Process) (action : Action) (p' : Process) : Prop :=
  ProcessStep build p action p' ∧ EndsOnce p action p'

def Process.Reported (build : Build) (events : List StateEvent) : Process → Prop
  | .alive s => Coherent build s ∧ Client.Reported events s
  | .terminated => events = []

theorem reported_of_run (run : Run (OnceStep build) (.alive .fresh) actions p) :
    p.Reported build (sessionEvents actions) := by
  refine run.history (fun actions p => p.Reported build (sessionEvents actions))
    ⟨.fresh, .inl nofun⟩ ?_
  rintro actions _ action p' reported ⟨⟨step⟩, once⟩
  obtain ⟨coherent, reported⟩ := reported
  rw [sessionEvents_snoc]
  cases p' with
  | terminated =>
    cases step with
    | terminate => rfl
  | alive s' =>
    refine ⟨coherent.step step, ?_⟩
    by_cases started : action = .started
    · rw [started]
      exact .inl nofun
    · rcases reported with running | ⟨last, quiet⟩
      · exact coherent.reported_step running step once started
      · obtain ⟨same, quiet'⟩ := quiet.step coherent step once started
        rw [same]
        exact .inr ⟨last, quiet'⟩

theorem endsLast_of_once (run : Run (OnceStep build) (.alive .fresh) actions p) :
    EndsLast (sessionEvents actions) := by
  have reported := reported_of_run run
  cases p with
  | terminated =>
    rw [show sessionEvents actions = [] from reported]
    exact endsLast_of_running nofun
  | alive s =>
    rcases reported.2 with running | ⟨last, -⟩
    · exact endsLast_of_running running
    · exact last

/-! ### A second reason -/

theorem not_endsLast (member : e ∈ events) (terminal : e.isTerminal = true) (e' : StateEvent) :
    ¬ EndsLast (events ++ [e']) := by
  obtain ⟨before, after, rfl⟩ := List.append_of_mem member
  intro last
  have empty := last before e (after ++ [e']) (by simp) terminal
  simp at empty

theorem connectionTerminated_isTerminal (errorCode : Int) :
    (build.connectionTerminated errorCode).isTerminal = true := by
  unfold Build.connectionTerminated
  split <;> rfl

/-- A connection that was terminated has been reported. -/
theorem terminal_of_dropped (run : Run (ProcessStep build) (.alive .fresh) actions (.alive s))
    (dropped : s.link = .dropped) : ∃ e ∈ sessionEvents actions, e.isTerminal = true := by
  revert dropped
  refine session_history (fun actions s => s.link = .dropped →
    ∃ e ∈ sessionEvents actions, e.isTerminal = true) run nofun ?_
  intro actions s action s' coherent earlier step dropped
  rw [sessionEvents_snoc]
  cases step with
  | connectionTerminated errorCode here =>
    have sink := coherent.sink_of_link (not_down_of_up here)
    refine ⟨build.connectionTerminated errorCode, by simp [Session.emit, sink, addEvent], ?_⟩
    exact connectionTerminated_isTerminal errorCode
  | assignWorker here free =>
    have fits := coherent.fits
    have closed : s.calls = .closed := by simp [Session.calls, Session.leftOpen, free, here]
    rw [closed] at fits
    have down : s.link = .down := fits
    have same : s.link = .dropped := dropped
    rw [down] at same
    contradiction
  | connected here =>
    refine earlier ?_
    by_contra other
    split_ifs at dropped
    · contradiction
    · exact other dropped
  | liStart | failed | liStop | stopConnection | connectionStarted => contradiction
  | _ =>
    obtain ⟨e, member, terminal⟩ := earlier dropped
    exact ⟨e, mem_addEvent member (by simp), terminal⟩

/-- A refused connection is reported. -/
theorem refusal_reported {rc : Int} (run : Run (ProcessStep build) (.alive .fresh) actions (.alive s))
    (here : s.worker = .failed rc) (sink : s.sink = true) :
    ∃ p, Run (ProcessStep build) (.alive .fresh)
      (actions ++ [.silent, .state (some (Build.startFailed rc))]) p := by
  have cleared := Run.next run ⟨.clearFailed here⟩
  have reported := Run.next cleared ⟨.reportFailure rfl⟩
  rw [Session.emit, if_pos sink, List.append_assoc] at reported
  exact ⟨_, reported⟩

/-- A closed window is reported. -/
theorem closing_reported (run : Run (ProcessStep build) (.alive .fresh) actions (.alive s))
    (here : s.worker = .disconnect true) (sink : s.sink = true) :
    ∃ p, Run (ProcessStep build) (.alive .fresh)
      (actions ++ [.liStop, .silent, .state (some Build.windowClosed)]) p := by
  have cleared := Run.next (.next run ⟨.liStop here⟩) ⟨.clear rfl⟩
  have reported := Run.next cleared ⟨.reportClosed rfl⟩
  rw [Session.emit, if_pos sink, List.append_assoc, List.append_assoc] at reported
  exact ⟨_, reported⟩

/-- A run that goes on to a phase after a terminal one. -/
def Overruns (build : Build) (actions : List Action) : Prop :=
  ∃ more p, Run (ProcessStep build) (.alive .fresh) (actions ++ more) p ∧
    ¬ EndsLast (sessionEvents (actions ++ more))

theorem overruns_of_refused {rc : Int}
    (run : Run (ProcessStep build) (.alive .fresh) actions (.alive s)) (here : s.worker = .failed rc)
    (member : e ∈ sessionEvents actions) (terminal : e.isTerminal = true) :
    Overruns build actions := by
  have sink := (coherent_of_run run).sink (.inl (by simp [here]))
  obtain ⟨p, reported⟩ := refusal_reported run here sink
  refine ⟨_, p, reported, ?_⟩
  have events : sessionEvents (actions ++ [.silent, .state (some (Build.startFailed rc))]) =
      sessionEvents actions ++ [Build.startFailed rc] := by
    simp [sessionEvents, addEvent]
  rw [events]
  exact not_endsLast member terminal _

theorem overruns_of_closed
    (run : Run (ProcessStep build) (.alive .fresh) actions (.alive s))
    (here : s.worker = .disconnect true) (member : e ∈ sessionEvents actions)
    (terminal : e.isTerminal = true) : Overruns build actions := by
  have sink := (coherent_of_run run).sink (.inl (by simp [here]))
  obtain ⟨p, reported⟩ := closing_reported run here sink
  refine ⟨_, p, reported, ?_⟩
  have events : sessionEvents (actions ++ [.liStop, .silent, .state (some Build.windowClosed)]) =
      sessionEvents actions ++ [Build.windowClosed] := by
    simp [sessionEvents, addEvent]
  rw [events]
  exact not_endsLast member terminal _

theorem Coherent.setup_of_link (coherent : Coherent build s) (setup : s.link = .setup) :
    ∃ haveWindow, s.worker = .setup haveWindow := by
  have fits := coherent.fits
  have pending : s.calls = .pending := by
    cases calls : s.calls <;> simp_all [Calls.Fits]
  cases worker : s.worker with
  | setup haveWindow => exact ⟨haveWindow, rfl⟩
  | absent =>
    rw [Session.calls, if_pos worker] at pending
    split at pending <;> contradiction
  | finished cleared =>
    rw [Session.calls_of_worker (by simp [worker]), worker] at pending
    cases cleared <;> contradiction
  | _ =>
    rw [Session.calls_of_worker (by simp [worker]), worker] at pending
    contradiction

theorem Overruns.earlier {more : List Action} (overruns : Overruns build (actions ++ more)) :
    Overruns build actions := by
  obtain ⟨rest, p, run, overrun⟩ := overruns
  rw [List.append_assoc] at run overrun
  exact ⟨more ++ rest, p, run, overrun⟩

theorem sessionEvents_emit (sink : s.sink = true) (e : StateEvent) :
    sessionEvents (actions ++ [.state (s.emit e)]) = sessionEvents actions ++ [e] := by
  rw [sessionEvents_snoc, Session.emit, if_pos sink]
  rfl

theorem stageFails_emit (fails : StageFails s (.state (s.emit e))) :
    s.link = .setup ∧ e.phase = .error := by
  unfold Session.emit at fails
  split at fails
  · exact fails
  · exact fails.elim

/-- A failed stage is followed by a refused connection, which is reported too. -/
theorem overruns_of_stageFails (run : Run (ProcessStep build) (.alive .fresh) actions (.alive s))
    (step : Step build s action (.alive s')) (fails : StageFails s action) :
    Overruns build (actions ++ [action]) := by
  have coherent := coherent_of_run run
  cases step with
  | stageFailed stage errorCode here =>
    obtain ⟨haveWindow, worker⟩ := coherent.setup_of_link here
    have sink := coherent.sink_of_link (by simp [here])
    have failed := Run.next (.next run ⟨.stageFailed stage errorCode here⟩)
      ⟨.failed worker (by decide : (-1 : Int) ≠ 0)⟩
    have member : build.stageFailed stage errorCode ∈ sessionEvents
        (actions ++ [.state (s.emit (build.stageFailed stage errorCode))] ++ [.liStarted (-1)]) := by
      rw [sessionEvents_snoc, sessionEvents_emit sink]
      exact mem_addEvent (by simp) nofun
    exact (overruns_of_refused failed rfl member rfl).earlier
  | window => exact absurd fails.2 nofun
  | reportFailure here | reportClosed here =>
    have setup := (stageFails_emit fails).1
    rw [coherent.linked here nofun] at setup
    contradiction
  | stageStarting | connectionStarted => exact absurd (stageFails_emit fails).2 nofun
  | connectionTerminated errorCode here =>
    have setup := (stageFails_emit fails).1
    simp [setup] at here
  | _ => exact fails.elim

/-- A second reason to end is reported after the first. -/
theorem overruns_of_reason (run : Run (ProcessStep build) (.alive .fresh) actions (.alive s))
    (step : Step build s action (.alive s')) (reason : Reason s action s') (ending : s.ending) :
    Overruns build (actions ++ [action]) := by
  have coherent := coherent_of_run run
  cases reason with
  | refused code =>
    cases step with
    | connected => exact absurd rfl code
    | failed here code =>
      rcases ending with dropped | closed
      · obtain ⟨e, member, terminal⟩ := terminal_of_dropped run dropped
        refine overruns_of_refused (.next run ⟨.failed here code⟩) rfl ?_ terminal
        rw [sessionEvents_snoc]
        exact mem_addEvent member nofun
      · simp [here, Worker.userClosed] at closed
  | closed looping left =>
    rcases ending with dropped | closed
    · obtain ⟨e, member, terminal⟩ := terminal_of_dropped run dropped
      refine overruns_of_closed (.next run ⟨step⟩) left ?_ terminal
      rw [sessionEvents_snoc]
      refine mem_addEvent member ?_
      rintro rfl
      cases step with
      | assignWorker here free => simp [looping] at free
    · simp [looping, Worker.userClosed] at closed
  | terminated established =>
    have there := not_down_of_up established
    cases step with
    | window here | reportFailure here | reportClosed here =>
      exact absurd (coherent.linked here nofun) there
    | stageStarting _ here | stageFailed _ _ here | connectionStarted here =>
      simp [here] at established
    | connectionTerminated errorCode here =>
      have terminated := Run.next run ⟨.connectionTerminated errorCode here⟩
      have reported : sessionEvents
          (actions ++ [.state (s.emit (build.connectionTerminated errorCode))]) =
            sessionEvents actions ++ [build.connectionTerminated errorCode] :=
        sessionEvents_emit (coherent.sink_of_link there) _
      rcases ending with dropped | closed
      · obtain ⟨e, member, terminal⟩ := terminal_of_dropped run dropped
        refine ⟨[], _, by simpa using terminated, ?_⟩
        rw [List.append_nil, reported]
        exact not_endsLast member terminal _
      · have leaving : s.worker = .disconnect true := by
          cases worker : s.worker with
          | clear | report => exact absurd (coherent.linked worker nofun) there
          | _ => simp_all [Worker.userClosed]
        have member : build.connectionTerminated errorCode ∈ sessionEvents
            (actions ++ [.state (s.emit (build.connectionTerminated errorCode))]) := by
          simp [reported]
        exact overruns_of_closed terminated leaving member (connectionTerminated_isTerminal _)

/-- A session reports at most one terminal phase, with nothing after it, as long as no stage
fails and it is given one reason to end; a step that breaks this leads to a second report. -/
theorem terminal_phase_last_iff (build : Build) :
    (∀ actions p, Run (OnceStep build) (.alive .fresh) actions p →
      EndsLast (sessionEvents actions)) ∧
    ∀ actions s action s', Run (ProcessStep build) (.alive .fresh) actions (.alive s) →
      Step build s action (.alive s') → ¬ EndsOnce (.alive s) action (.alive s') →
      Overruns build (actions ++ [action]) := by
  constructor
  · intro actions p run
    exact endsLast_of_once run
  · intro actions s action s' run step twice
    by_cases fails : StageFails s action
    · exact overruns_of_stageFails run step fails
    · have again : ¬ (Reason s action s' → ¬ s.ending) := fun first => twice ⟨fails, first⟩
      rw [Classical.not_imp, not_not] at again
      exact overruns_of_reason run step again.1 again.2

/-- A stage fails, and `LiStartConnection` returns its error. -/
theorem failed_stage_overruns : ∃ actions p,
    Run (ProcessStep headlessBuild) (.alive .fresh) actions p ∧
      ¬ EndsLast (sessionEvents actions) := by
  have started : Run (ProcessStep headlessBuild) (.alive .fresh) _ _ :=
    run_started rfl rfl (by decide : startError false usableInfo = none)
  have failed := Run.next (.next (.next started ⟨.liStart rfl⟩) ⟨.stageFailed 1 (-1) rfl⟩)
    ⟨.failed rfl (by decide : (-1 : Int) ≠ 0)⟩
  have reported := Run.next (.next failed ⟨.clearFailed rfl⟩) ⟨.reportFailure rfl⟩
  refine ⟨_, _, reported, ?_⟩
  change ¬ EndsLast ([headlessBuild.stageFailed 1 (-1)] ++ [Build.startFailed (-1)])
  exact not_endsLast (List.mem_singleton_self _) rfl _

end StreamEngine.Client
