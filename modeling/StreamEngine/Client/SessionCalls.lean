import StreamEngine.Client.SessionInvariant

/-! The calls to moonlight's single connection. What the library asks of its user is a small
system of its own: a connection is asked for only while there is none, and closed once. Every
step of a session is a step of it. -/
namespace StreamEngine.Client
open ByteString Transition

def Action.isCall : Action → Bool
  | .liStart | .liStarted _ | .liStop => true
  | _ => false

/-- The use of one connection at a time. -/
inductive Calls.Step : Calls → Action → Calls → Prop where
  | liStart : Step .closed .liStart .pending
  | accepted : Step .pending (.liStarted 0) .opened
  | refused {rc} (code : rc ≠ 0) : Step .pending (.liStarted rc) .closed
  | liStop : Step .opened .liStop .closed
  | other {calls action} (other : action.isCall = false) : Step calls action calls

/-- A call of `LiStartConnection` that returned 0. -/
def Action.isAccepted : Action → Bool
  | .liStarted rc => rc = 0
  | _ => false

def Action.isLiStop : Action → Bool
  | .liStop => true
  | _ => false

variable {build : Build} {s s' : Session} {p : Process} {action : Action} {actions : List Action}
  {calls : Calls}

theorem neither_of_other (other : action.isCall = false) :
    action.isAccepted = false ∧ action.isLiStop = false := by
  cases action <;> simp_all [Action.isCall, Action.isAccepted, Action.isLiStop]

/-- As many connections were closed as came up, but for the one that is up. -/
theorem accepted_eq (run : Run Calls.Step .closed actions calls) :
    actions.countP Action.isAccepted =
      actions.countP Action.isLiStop + if calls = .opened then 1 else 0 := by
  induction run with
  | start => rfl
  | next _ last ih =>
    rw [List.countP_append, List.countP_append, List.countP_singleton, List.countP_singleton]
    cases last with
    | liStart => simpa [Action.isAccepted, Action.isLiStop] using ih
    | accepted => simpa [Action.isAccepted, Action.isLiStop] using ih
    | refused code => simpa [Action.isAccepted, Action.isLiStop, code] using ih
    | liStop => simpa [Action.isAccepted, Action.isLiStop] using ih
    | other other =>
      obtain ⟨notAccepted, notStop⟩ := neither_of_other other
      simpa [notAccepted, notStop] using ih

theorem calls_of_here {worker : Worker} (here : s.worker = worker) (there : worker ≠ .absent) :
    s.calls = worker.calls := by
  rw [Session.calls_of_worker (here ▸ there), here]

theorem calls_of_moves {worker worker' : Worker} (here : s.worker = worker)
    (there : s'.worker = worker') (before : worker ≠ .absent) (after : worker' ≠ .absent)
    (same : worker'.calls = worker.calls) : s'.calls = s.calls := by
  rw [calls_of_here there after, same, calls_of_here here before]

theorem calls_of_unjoined (before : s.control.joined = false)
    (after : s'.control.joined = false) (same : s'.worker.calls = s.worker.calls) :
    s'.calls = s.calls := by
  rw [Session.calls_of_unjoined after, same, Session.calls_of_unjoined before]

theorem calls_of_released (absent : s.worker = .absent) (closed : ¬ s.leftOpen) :
    s.calls = .closed := by
  rw [Session.calls, if_pos absent, if_neg closed]

theorem calls_of_leftOpen (absent : s.worker = .absent) (opened : s.leftOpen) :
    s.calls = .opened := by
  rw [Session.calls, if_pos absent, if_pos opened]

/-- Between the calls the other thread may only release a worker, whose connection it then has
to close. -/
theorem Coherent.step_other (coherent : Coherent build s)
    (step : Step build s action (.alive s')) (other : action.isCall = false) :
    s'.calls = s.calls := by
  cases step with
  | liStart | connected | failed | stopConnection | liStop => contradiction
  | refuse | present | presentStats | stageStarting | stageFailed | connectionStarted |
      connectionTerminated => rfl
  | window here | headless here | clearFailed here | reportFailure here | leave here | close here
  | clear here | reportClosed here | unreported here =>
    exact calls_of_moves here rfl (by simp) (by simp) rfl
  | accept here | setSink here | setRunning here | clearStopRequested here | stop here
  | interrupt here => exact calls_of_unjoined (by rw [here]; rfl) rfl rfl
  | assignWorker here free =>
    refine calls_of_unjoined (by rw [here]; rfl) rfl ?_
    rw [free]
    cases build.renderer <;> rfl
  | notJoinable here free =>
    have off : s.running ≠ true := fun on =>
      ((coherent.running_elsewhere (by rw [here]; rfl) (by rw [here]; rfl)).mp on).1 free
    have before : s.calls = .closed := calls_of_released free (by simp [Session.leftOpen, here])
    rw [before]
    exact calls_of_released free (by simp [Session.leftOpen, off])
  | join here done =>
    rename_i cleared
    have running := coherent.running_elsewhere (by rw [here]; rfl) (by rw [here]; rfl)
    rw [calls_of_here done (by simp)]
    cases cleared with
    | true =>
      have off : s.running = false := by simpa [done, Worker.endedByItself] using running
      exact calls_of_released rfl (by simp [Session.leftOpen, off])
    | false =>
      have on : s.running = true := by simpa [done, Worker.endedByItself] using running
      exact calls_of_leftOpen rfl (.inr ⟨rfl, on⟩)
  | stillRunning here on =>
    have absent := coherent.joined (by rw [here]; rfl)
    have opened : s.leftOpen := .inr ⟨here, on⟩
    rw [coherent.headless (.inr opened), calls_of_leftOpen absent opened]
    exact calls_of_leftOpen absent (.inl rfl)
  | notRunning here off =>
    have absent := coherent.joined (by rw [here]; rfl)
    have before : s.calls = .closed := calls_of_released absent (by simp [Session.leftOpen, here, off])
    rw [before]
    exact calls_of_released absent (by simp [Session.leftOpen])
  | clearRunning here | clearSink here =>
    have absent := coherent.joined (by rw [here]; rfl)
    have before : s.calls = .closed := calls_of_released absent (by simp [Session.leftOpen, here])
    rw [before]
    exact calls_of_released absent (by simp [Session.leftOpen])

/-- A session uses moonlight as it asks to be used. -/
theorem Coherent.step_calls (coherent : Coherent build s)
    (step : Step build s action (.alive s')) : Calls.Step s.calls action s'.calls := by
  by_cases other : action.isCall = false
  · rw [coherent.step_other step other]
    exact .other other
  cases step with
  | liStart here =>
    rw [calls_of_here here (by simp)]
    exact .liStart
  | connected here =>
    rw [calls_of_here here (by simp)]
    cases build.renderer <;> exact .accepted
  | failed here code =>
    rw [calls_of_here here (by simp)]
    exact .refused code
  | stopConnection here =>
    have free : s.worker = .absent := coherent.joined (by rw [here]; rfl)
    have before : s.calls = .opened := by simp [Session.calls, Session.leftOpen, free, here]
    have after : Session.calls { s with link := .down, control := .clearRunning } = .closed := by
      simp [Session.calls, Session.leftOpen, free]
    rw [before, after]
    exact .liStop
  | liStop here =>
    rw [calls_of_here here (by simp)]
    exact .liStop
  | _ => exact absurd rfl other

/-- A process that was terminated makes no calls, and none is made by terminating it. -/
def Process.Uses (build : Build) : Process → Calls → Prop
  | .alive s, calls => Coherent build s ∧ calls = s.calls
  | .terminated, _ => True

theorem uses_of_run (run : Run (ProcessStep build) (.alive .fresh) actions p) :
    ∃ calls, Run Calls.Step .closed actions calls ∧ p.Uses build calls := by
  refine run.simulation (Process.Uses build) ⟨.fresh, rfl⟩ ?_
  rintro _ action p' _ used ⟨step⟩
  obtain ⟨coherent, rfl⟩ := used
  cases p' with
  | alive s' => exact ⟨s'.calls, coherent.step_calls step, coherent.step step, rfl⟩
  | terminated =>
    cases step with
    | terminate => exact ⟨_, .other rfl, trivial⟩

theorem calls_of_run (run : Run (ProcessStep build) (.alive .fresh) actions (.alive s)) :
    Run Calls.Step .closed actions s.calls := by
  obtain ⟨_, used, -, rfl⟩ := uses_of_run run
  exact used

theorem Coherent.calls_stopped (coherent : Coherent build s) (step : Step build s .stopped p) :
    s.calls = .closed := by
  cases step with
  | clearSink here =>
    have free : s.worker = .absent := coherent.joined (by rw [here]; rfl)
    simp [Session.calls, Session.leftOpen, free, here]

theorem Coherent.calls_finished (coherent : Coherent build s) {cleared : Bool}
    (renderer : build.renderer = true) (done : s.worker = .finished cleared) :
    s.calls = .closed := by
  cases cleared with
  | true => exact calls_of_here done nofun
  | false =>
    rw [coherent.headless (.inl done)] at renderer
    contradiction

/-- Every connection that came up has been closed, and nothing else was. -/
structure AllClosed (actions : List Action) : Prop where
  run : Run Calls.Step .closed actions .closed
  once : actions.countP Action.isLiStop = actions.countP Action.isAccepted

theorem allClosed_of_run (run : Run Calls.Step .closed actions .closed) : AllClosed actions :=
  ⟨run, (accepted_eq run).symm⟩

/-- moonlight is asked for one connection at a time, and each one that came up is closed once,
before `stop` returns and before the worker of the renderer build ends. -/
theorem session_calls (run : Run (ProcessStep build) (.alive .fresh) actions p) :
    (∃ calls, Run Calls.Step .closed actions calls) ∧
      (∀ before after, actions = before ++ .stopped :: after → AllClosed before) ∧
      (∀ s cleared, p = .alive s → build.renderer = true → s.worker = .finished cleared →
        AllClosed actions) := by
  refine ⟨?_, ?_, ?_⟩
  · obtain ⟨calls, used, -⟩ := uses_of_run run
    exact ⟨calls, used⟩
  · rintro before after rfl
    obtain ⟨_, _, reached, ⟨step⟩⟩ := run.taken
    have used := calls_of_run reached
    rw [(coherent_of_run reached).calls_stopped step] at used
    exact allClosed_of_run used
  · rintro s cleared rfl renderer done
    have used := calls_of_run run
    rw [(coherent_of_run run).calls_finished renderer done] at used
    exact allClosed_of_run used

/-- A connection without a window that is stopped. -/
theorem session_calls_headless :
    AllClosed (startActions usableInfo ++
      [.liStart, .liStarted 0, .stop, .interrupt, .silent, .silent, .liStop, .silent]) := by
  have started : Run (ProcessStep headlessBuild) (.alive .fresh) _ _ :=
    run_started rfl rfl (by decide : startError false usableInfo = none)
  have connected := Run.next (.next started ⟨.liStart rfl⟩) ⟨.connected rfl⟩
  have joined := Run.next (.next (.next connected ⟨.stop rfl⟩) ⟨.interrupt rfl nofun⟩)
    ⟨.join rfl rfl⟩
  have stopped := Run.next (.next (.next (.next joined ⟨.stillRunning rfl rfl⟩)
    ⟨.stopConnection rfl⟩) ⟨.clearRunning rfl⟩) ⟨.clearSink rfl⟩
  exact (session_calls stopped).2.1 _ [] rfl

end StreamEngine.Client
