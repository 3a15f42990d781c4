import StreamEngine.Client.SessionInvariant

/-! A connection that the host ends. The callback only reports it: the worker's loop looks at
`stopRequested_`, which the callback does not set, so the worker goes on presenting and
`running_` stays set until somebody else ends the session. -/
namespace StreamEngine.Client
open ByteString Transition

/-- The worker is in its loop, or on its way to it. -/
def Worker.presents : Worker → Bool
  | .setup _ | .loop _ => true
  | _ => false

/-- The guard of the loop lets the worker start an iteration. -/
def Session.Iterates (s : Session) : Prop :=
  (∃ haveWindow, s.worker = .loop haveWindow) ∧ s.stopRequested = false

/-- The connection is terminated only once the worker has left its loop or was asked to. -/
def DropsLate : Process → Action → Prop
  | .alive s, .state _ => s.link = .up ∨ s.link = .dropped →
      s.stopRequested = true ∨ s.worker.presents = false
  | _, _ => True

/-- Nobody calls `stop`, and the user leaves the window open. -/
def Unattended : Process → Action → Process → Prop
  | _, .stop, _ => False
  | .alive s, _, .alive s' => s'.worker = .disconnect true → s.worker = .disconnect true
  | _, _, _ => True

variable {build : Build} {s s' : Session} {p : Process} {action : Action} {actions : List Action}

/-- A dropped connection finds no worker that would go on presenting. -/
def Heeded (s : Session) : Prop :=
  s.link = .dropped → s.stopRequested = true ∨ s.worker.presents = false

theorem Heeded.step (heeded : Heeded s) (coherent : Coherent build s)
    (step : Step build s action (.alive s')) (late : DropsLate (.alive s) action) : Heeded s' := by
  intro dropped
  cases step with
  | connectionTerminated errorCode here => exact late here
  | assignWorker =>
    right
    cases build.renderer <;> rfl
  | clearStopRequested here =>
    right
    rcases coherent.starting (by rw [here]; rfl) with absent | ended
    · simp [absent, Worker.presents]
    · cases worker : s.worker <;> simp_all [Worker.endedByItself, Worker.presents]
  | stop => exact .inl rfl
  | connected here =>
    left
    have before : s.link = .dropped := by
      by_contra other
      split_ifs at dropped
      · contradiction
      · exact other dropped
    rcases heeded before with requested | absent
    · exact requested
    · simp [here, Worker.presents] at absent
  | liStart | failed | liStop | stopConnection | connectionStarted => contradiction
  | join | window | headless | clearFailed | reportFailure | leave | close | clear | reportClosed |
      unreported => exact .inr rfl
  | _ => exact heeded dropped

theorem heeded_of_run
    (run : Run (Restricted (ProcessStep build) DropsLate) (.alive .fresh) actions (.alive s)) :
    Heeded s := by
  have both := run.invariant (fun p => ∀ s, p = .alive s → Coherent build s ∧ Heeded s)
    (by rintro _ ⟨⟩; exact ⟨.fresh, nofun⟩) ?_ s rfl
  · exact both.2
  · rintro _ action _ earlier ⟨⟨step⟩, late⟩ s' rfl
    obtain ⟨coherent, heeded⟩ := earlier _ rfl
    exact ⟨coherent.step step, heeded.step coherent step late⟩

theorem Heeded.not_iterates (heeded : Heeded s) (dropped : s.link = .dropped) :
    ¬ s.Iterates := by
  rintro ⟨⟨haveWindow, looping⟩, continues⟩
  rcases heeded dropped with requested | absent
  · rw [requested] at continues
    contradiction
  · simp [looping, Worker.presents] at absent

/-! ### A callback that comes earlier -/

/-- The connection is gone and the worker presents. -/
def Session.Lingers (s : Session) : Prop := s.link = .dropped ∧ s.Iterates

def UnattendedStep (build : Build) (p : Process) (action : Action) (p' : Process) : Prop :=
  ProcessStep build p action p' ∧ Unattended p action p'

theorem lingers_step (lingers : s.Lingers) (coherent : Coherent build s)
    (step : Step build s action (.alive s'))
    (unattended : Unattended (.alive s) action (.alive s')) : s'.Lingers := by
  obtain ⟨dropped, ⟨haveWindow, looping⟩, continues⟩ := lingers
  have there : s.worker ≠ .absent := by simp [looping]
  obtain ⟨notStarting, notJoined, running⟩ := coherent.busy there (by rw [looping]; rfl)
  have elsewhere : ∀ {c : Control}, c.starting = true ∨ c.joined = true → s.control ≠ c := by
    rintro c (starting | joined) rfl
    · rw [notStarting] at starting
      contradiction
    · rw [notJoined] at joined
      contradiction
  cases step with
  | refuse | interrupt | present | presentStats => exact ⟨dropped, ⟨haveWindow, looping⟩, continues⟩
  | connectionTerminated => exact ⟨rfl, ⟨haveWindow, looping⟩, continues⟩
  | accept idle usable =>
    rw [startError_running usable] at running
    contradiction
  | stop => exact unattended.elim
  | close =>
    have leaving : s.worker = .disconnect true := unattended rfl
    simp [looping] at leaving
  | leave _ requested =>
    rw [requested] at continues
    contradiction
  | setSink here | setRunning here | clearStopRequested here | assignWorker here =>
    exact absurd here (elsewhere (.inl rfl))
  | stillRunning here | notRunning here | stopConnection here | clearRunning here
  | clearSink here => exact absurd here (elsewhere (.inr rfl))
  | _ => simp_all

/-- Left to itself, such a session stays, and refuses every start. -/
theorem lingers_of_run {s₀ : Session} (coherent : Coherent build s₀) (lingers : s₀.Lingers)
    (run : Run (UnattendedStep build) (.alive s₀) actions (.alive s)) :
    s.Lingers ∧ ∀ info, startError s.running info = some (ascii "a stream is already running") := by
  have both := run.invariant (fun p => ∀ s, p = .alive s → Coherent build s ∧ s.Lingers)
    (by rintro _ ⟨⟩; exact ⟨coherent, lingers⟩) ?_ s rfl
  · obtain ⟨coherent, dropped, ⟨haveWindow, looping⟩, continues⟩ := both
    refine ⟨⟨dropped, ⟨haveWindow, looping⟩, continues⟩, fun info => ?_⟩
    have running := coherent.running (by simp [looping]) (by rw [looping]; rfl)
    simp [startError, running]
  · rintro _ action _ earlier ⟨⟨step⟩, unattended⟩ s' rfl
    obtain ⟨coherent, lingers⟩ := earlier _ rfl
    exact ⟨coherent.step step, lingers_step lingers coherent step unattended⟩

/-- A callback that comes while the worker presents or is about to leaves it presenting. -/
theorem early_drop_lingers (renderer : build.renderer = true)
    (run : Run (ProcessStep build) (.alive .fresh) actions (.alive s))
    (step : Step build s action (.alive s')) (early : ¬ DropsLate (.alive s) action) :
    ∃ more s'', Run (ProcessStep build) (.alive .fresh) (actions ++ [action] ++ more) (.alive s'') ∧
      s''.Lingers := by
  have coherent := coherent_of_run run
  cases step with
  | connectionTerminated errorCode here =>
    have dropped := Run.next run ⟨.connectionTerminated errorCode here⟩
    have unheeded : ¬ (s.stopRequested = true ∨ s.worker.presents = false) :=
      fun heeded => early fun _ => heeded
    rw [not_or, Bool.not_eq_true, Bool.not_eq_false] at unheeded
    obtain ⟨continues, presents⟩ := unheeded
    cases worker : s.worker with
    | loop haveWindow =>
      exact ⟨[], { s with link := .dropped }, by simpa using dropped, rfl, ⟨haveWindow, worker⟩,
        continues⟩
    | setup haveWindow =>
      have connected := Run.next dropped ⟨.connected worker⟩
      refine ⟨[.liStarted 0], _, connected, rfl, ⟨haveWindow, ?_⟩, continues⟩
      exact if_pos renderer
    | _ => simp [worker, Worker.presents] at presents
  | window here | reportFailure here | reportClosed here =>
    exact absurd (fun _ => .inr (by rw [here]; rfl)) early
  | stageStarting _ here | stageFailed _ _ here | connectionStarted here =>
    exact absurd (fun established => by simp_all) early
  | _ => exact absurd trivial early

/-- After the host has ended the connection the worker starts no further iteration, as long as
this happens only when it was asked to stop or its window was closed; a callback that comes
earlier leaves a session that, left to itself, presents for ever and is busy. -/
theorem dropped_iterates_iff (build : Build) :
    (∀ actions s, Run (Restricted (ProcessStep build) DropsLate) (.alive .fresh) actions (.alive s) →
      s.link = .dropped → ¬ s.Iterates) ∧
    ∀ actions s action s', build.renderer = true →
      Run (ProcessStep build) (.alive .fresh) actions (.alive s) →
      Step build s action (.alive s') → ¬ DropsLate (.alive s) action →
      ∃ more s'', Run (ProcessStep build) (.alive .fresh) (actions ++ [action] ++ more) (.alive s'') ∧
        ∀ rest s₃, Run (UnattendedStep build) (.alive s'') rest (.alive s₃) →
          s₃.link = .dropped ∧ s₃.Iterates ∧
            ∀ info, startError s₃.running info = some (ascii "a stream is already running") := by
  constructor
  · intro actions s run dropped
    exact (heeded_of_run run).not_iterates dropped
  · intro actions s action s' renderer run step early
    obtain ⟨more, s'', lingering, lingers⟩ := early_drop_lingers renderer run step early
    refine ⟨more, s'', lingering, fun rest s₃ left => ?_⟩
    obtain ⟨⟨dropped, iterates⟩, busy⟩ :=
      lingers_of_run (coherent_of_run lingering) lingers left
    exact ⟨dropped, iterates, busy⟩

/-- The host ends a session that is presenting. -/
theorem dropped_session_iterates : ∃ actions s,
    Run (ProcessStep rendererBuild) (.alive .fresh) actions (.alive s) ∧
      s.link = .dropped ∧ s.Iterates := by
  have started : Run (ProcessStep rendererBuild) (.alive .fresh) _ _ :=
    run_started rfl rfl (by decide : startError false usableInfo = none)
  have connecting := Run.next (.next started ⟨.headless rfl⟩) ⟨.liStart rfl⟩
  have connected := Run.next (.next connecting ⟨.connectionStarted rfl⟩) ⟨.connected rfl⟩
  have dropped := Run.next connected ⟨.connectionTerminated 0 (.inl rfl)⟩
  exact ⟨_, _, dropped, rfl, ⟨false, rfl⟩, rfl⟩

end StreamEngine.Client
