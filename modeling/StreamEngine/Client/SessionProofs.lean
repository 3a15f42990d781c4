import StreamEngine.Client.Session
import StreamEngine.Library.Transition

/-! When `start` assigns to a free worker. `running_` and the joinability of the worker
part ways when a worker clears `running_` by itself: until the next `stop` the flag no
longer says that there is a worker to join. -/
namespace StreamEngine.Client
open ByteString Transition

/-- The worker has cleared `running_`. -/
def Worker.endedByItself : Worker → Bool
  | .reportFailure _ | .report _ => true
  | .finished cleared => cleared
  | _ => false

/-- The part of `start` after its checks. -/
def Control.starting : Control → Bool
  | .setSink | .setRunning | .clearStopRequested | .assignWorker => true
  | _ => false

/-- The part of `start` after `running_` was set. -/
def Control.marked : Control → Bool
  | .clearStopRequested | .assignWorker => true
  | _ => false

/-- The part of `stop` after the join. -/
def Control.joined : Control → Bool
  | .checkRunning | .stopConnection | .clearRunning | .clearSink => true
  | _ => false

/-- A worker is only there while `running_` is set or has been cleared by the worker. -/
structure Owned (s : Session) : Prop where
  starting : s.control.starting = true → s.worker = .absent
  joined : s.control.joined = true → s.worker = .absent
  marked : s.control.marked = true → s.running = true
  flagged : s.worker ≠ .absent → s.running = true ∨ s.worker.endedByItself = true

/-- A start request that passes the checks finds no worker that has ended by itself. -/
def Considerate : Process → Action → Prop
  | .alive s, .start _ => s.worker.endedByItself = false
  | _, _ => True

variable {build : Build} {s s' : Session} {action : Action}

theorem startError_running {running : Bool} {info : StartInfo}
    (usable : startError running info = none) : running = false := by
  cases running with
  | false => rfl
  | true => simp [startError] at usable

theorem Owned.fresh : Owned Session.fresh where
  starting := nofun
  joined := nofun
  marked := nofun
  flagged := absurd rfl

/-- While there is a worker, the thread that would start or release one is elsewhere. -/
theorem Owned.elsewhere (owned : Owned s) (there : s.worker ≠ .absent) :
    s.control.starting = false ∧ s.control.joined = false ∧ s.control.marked = false := by
  have notStarting : s.control.starting = false := by
    by_contra starting
    exact there (owned.starting (by simpa using starting))
  have notJoined : s.control.joined = false := by
    by_contra joined
    exact there (owned.joined (by simpa using joined))
  refine ⟨notStarting, notJoined, ?_⟩
  cases control : s.control <;> simp_all [Control.starting, Control.marked]

/-- A step of the worker, which clears `running_` only when it ends by itself. -/
theorem Owned.worker (owned : Owned s) {worker : Worker} {running : Bool} (link : Link)
    (there : s.worker ≠ .absent) (cleared : worker.endedByItself = true ∨
      running = s.running ∧ s.worker.endedByItself = false) :
    Owned { s with worker, running, link } := by
  obtain ⟨notStarting, notJoined, notMarked⟩ := owned.elsewhere there
  refine ⟨?_, ?_, ?_, fun _ => ?_⟩
  · simp [notStarting]
  · simp [notJoined]
  · simp [notMarked]
  · rcases cleared with ended | ⟨same, notEnded⟩
    · exact .inr ended
    · have flagged := owned.flagged there
      rw [notEnded] at flagged
      exact .inl (by simpa [same] using flagged)

theorem Owned.step (owned : Owned s) (step : Step build s action (.alive s'))
    (considerate : Considerate (.alive s) action) : Owned s' := by
  have ⟨starting, joined, marked, flagged⟩ := owned
  cases step with
  | refuse => exact owned
  | accept idle usable =>
    have free : s.worker = .absent := by
      by_contra joinable
      rcases flagged joinable with running | ended
      · rw [startError_running usable] at running
        contradiction
      · rw [Considerate, ended] at considerate
        contradiction
    exact ⟨fun _ => free, nofun, nofun, fun joinable => absurd free joinable⟩
  | setSink here =>
    have free := starting (by rw [here]; rfl)
    exact ⟨fun _ => free, nofun, nofun, fun joinable => absurd free joinable⟩
  | setRunning here =>
    have free := starting (by rw [here]; rfl)
    exact ⟨fun _ => free, nofun, fun _ => rfl, fun joinable => absurd free joinable⟩
  | clearStopRequested here =>
    have free := starting (by rw [here]; rfl)
    exact ⟨fun _ => free, nofun, fun _ => marked (by rw [here]; rfl),
      fun joinable => absurd free joinable⟩
  | assignWorker here free =>
    exact ⟨nofun, nofun, nofun, fun _ => .inl (marked (by rw [here]; rfl))⟩
  | stop idle => exact ⟨nofun, nofun, nofun, flagged⟩
  | interrupt here joinable => exact ⟨nofun, nofun, nofun, flagged⟩
  | notJoinable here free => exact ⟨nofun, fun _ => free, nofun, flagged⟩
  | join here done => exact ⟨nofun, fun _ => rfl, nofun, absurd rfl⟩
  | stillRunning here running =>
    have free := joined (by rw [here]; rfl)
    refine ⟨fun _ => free, fun _ => free, ?_, fun joinable => absurd free joinable⟩
    cases build.renderer <;> exact nofun
  | notRunning here ended =>
    have free := joined (by rw [here]; rfl)
    exact ⟨nofun, fun _ => free, nofun, fun joinable => absurd free joinable⟩
  | stopConnection here =>
    have free := joined (by rw [here]; rfl)
    exact ⟨nofun, fun _ => free, nofun, fun joinable => absurd free joinable⟩
  | clearRunning here =>
    have free := joined (by rw [here]; rfl)
    exact ⟨nofun, fun _ => free, nofun, fun joinable => absurd free joinable⟩
  | clearSink here =>
    have free := joined (by rw [here]; rfl)
    exact ⟨nofun, nofun, nofun, fun joinable => absurd free joinable⟩
  | window here => exact owned.worker _ (by simp [here]) (.inr ⟨rfl, by rw [here]; rfl⟩)
  | headless here => exact owned.worker _ (by simp [here]) (.inr ⟨rfl, by rw [here]; rfl⟩)
  | liStart here => exact owned.worker _ (by simp [here]) (.inr ⟨rfl, by rw [here]; rfl⟩)
  | connected here => exact owned.worker _ (by simp [here]) (.inr ⟨rfl, by rw [here]; rfl⟩)
  | failed here code => exact owned.worker _ (by simp [here]) (.inr ⟨rfl, by rw [here]; rfl⟩)
  | clearFailed here => exact owned.worker _ (by simp [here]) (.inl rfl)
  | reportFailure here => exact owned.worker _ (by simp [here]) (.inl rfl)
  | leave here => exact owned.worker _ (by simp [here]) (.inr ⟨rfl, by rw [here]; rfl⟩)
  | close here => exact owned.worker _ (by simp [here]) (.inr ⟨rfl, by rw [here]; rfl⟩)
  | present => exact owned
  | presentStats => exact owned
  | liStop here => exact owned.worker _ (by simp [here]) (.inr ⟨rfl, by rw [here]; rfl⟩)
  | clear here => exact owned.worker _ (by simp [here]) (.inl rfl)
  | reportClosed here => exact owned.worker _ (by simp [here]) (.inl rfl)
  | unreported here => exact owned.worker _ (by simp [here]) (.inl rfl)
  | stageStarting => exact owned
  | stageFailed => exact owned
  | connectionStarted => exact ⟨starting, joined, marked, flagged⟩
  | connectionTerminated => exact ⟨starting, joined, marked, flagged⟩

/-- A start that is under way finds its worker free. -/
theorem Owned.not_terminate (owned : Owned s) : ¬ Step build s action .terminated := by
  intro step
  cases step with
  | terminate here joinable => exact joinable (owned.starting (by rw [here]; rfl))

/-- A run in which every start is considerate never assigns to a joinable worker. -/
theorem considerate_never_terminates {actions : List Action} {p : Process}
    (run : Run (Restricted (ProcessStep build) Considerate) (.alive .fresh) actions p) :
    ∃ s, p = .alive s ∧ Owned s := by
  refine run.invariant (fun p => ∃ s, p = .alive s ∧ Owned s) ⟨_, rfl, .fresh⟩ ?_
  rintro _ action p' ⟨s, rfl, owned⟩ ⟨⟨step⟩, considerate⟩
  cases p' with
  | alive s' => exact ⟨s', rfl, owned.step step considerate⟩
  | terminated => exact absurd step owned.not_terminate

/-- A start that is under way and has a worker in its place. -/
def Doomed (s : Session) : Prop := s.control.starting = true ∧ s.worker ≠ .absent

/-- Only `stop` could release the worker, and only the starting thread calls it. -/
theorem Doomed.step (doomed : Doomed s) (step : Step build s action (.alive s')) : Doomed s' := by
  obtain ⟨starting, joinable⟩ := doomed
  cases step with
  | connected here =>
    refine ⟨starting, ?_⟩
    cases build.renderer <;> exact nofun
  | _ => simp_all [Doomed, Control.starting]

theorem Doomed.terminates {actions : List Action} {p : Process} (doomed : Doomed s)
    (run : Run (ProcessStep build) p actions (.alive s)) :
    ∃ more, Run (ProcessStep build) p more .terminated := by
  obtain ⟨starting, joinable⟩ := doomed
  cases control : s.control with
  | setSink =>
    exact ⟨_, .next (.next (.next (.next run ⟨.setSink control⟩) ⟨.setRunning rfl⟩)
      ⟨.clearStopRequested rfl⟩) ⟨.terminate rfl joinable⟩⟩
  | setRunning =>
    exact ⟨_, .next (.next (.next run ⟨.setRunning control⟩) ⟨.clearStopRequested rfl⟩)
      ⟨.terminate rfl joinable⟩⟩
  | clearStopRequested =>
    exact ⟨_, .next (.next run ⟨.clearStopRequested control⟩) ⟨.terminate rfl joinable⟩⟩
  | assignWorker => exact ⟨_, .next run ⟨.terminate control joinable⟩⟩
  | _ =>
    rw [control] at starting
    contradiction

theorem Doomed.run {actions : List Action} {p : Process} (doomed : Doomed s)
    (run : Run (ProcessStep build) (.alive s) actions p) :
    p = .terminated ∨ ∃ s', p = .alive s' ∧ Doomed s' := by
  refine run.invariant (fun p => p = .terminated ∨ ∃ s', p = .alive s' ∧ Doomed s')
    (.inr ⟨s, rfl, doomed⟩) ?_
  rintro _ action p' (rfl | ⟨s, rfl, doomed⟩) step
  · cases step
  · cases step with
    | alive step =>
      cases p' with
      | alive s' => exact .inr ⟨s', rfl, doomed.step step⟩
      | terminated => exact .inl rfl

/-- A start that passes its checks while a worker that has ended by itself is still to be
joined is the only way to terminate: without one no run terminates, and after one the call
never returns and the process can only end. -/
theorem start_terminates_iff (build : Build) :
    (∀ actions p, Run (Restricted (ProcessStep build) Considerate) (.alive .fresh) actions p →
      p ≠ .terminated) ∧
    ∀ actions s info s', Run (ProcessStep build) (.alive .fresh) actions (.alive s) →
      Step build s (.start info) (.alive s') → s.worker.endedByItself = true →
      (∃ more, Run (ProcessStep build) (.alive s') more .terminated) ∧
        ∀ more s'', Run (ProcessStep build) (.alive s') more (.alive s'') →
          s''.control.starting = true := by
  constructor
  · rintro actions p run rfl
    obtain ⟨s, alive, -⟩ := considerate_never_terminates run
    contradiction
  · intro actions s info s' _ step ended
    have doomed : Doomed s' := by
      cases step with
      | accept idle usable =>
        refine ⟨rfl, fun free => ?_⟩
        have absent : s.worker = .absent := free
        rw [absent] at ended
        contradiction
    refine ⟨doomed.terminates .start, fun more s'' run => ?_⟩
    obtain terminated | ⟨_, same, doomed'⟩ := doomed.run run
    · contradiction
    · cases same
      exact doomed'.1

/-- What is needed to start a session. -/
def usableInfo : StartInfo where
  host := ascii "pc"
  serverAppVersion := []
  gfeVersion := []
  rtspSessionUrl := ascii "rtsp"
  serverCodecModeSupport := 0
  settings := .default
  riKey := List.replicate 16 7
  riKeyId := 0
  embedWindow := false

def headlessBuild : Build := ⟨false, fun _ => [], 0⟩

def rendererBuild : Build := ⟨true, fun _ => [], 0⟩

/-- The first connection fails, and the launcher starts again. -/
theorem restart_terminates :
    ∃ actions, Run (ProcessStep headlessBuild) (.alive .fresh) actions .terminated := by
  have usable : startError false usableInfo = none := by decide
  have started : ∃ actions, Run (ProcessStep headlessBuild) (.alive .fresh) actions
      (.alive ⟨true, false, true, .connect false, .idle, .down⟩) :=
    ⟨_, .next (.next (.next (.next (.next .start ⟨.accept rfl usable⟩) ⟨.setSink rfl⟩)
      ⟨.setRunning rfl⟩) ⟨.clearStopRequested rfl⟩) ⟨.assignWorker rfl rfl⟩⟩
  obtain ⟨_, started⟩ := started
  have failed : ∃ actions, Run (ProcessStep headlessBuild) (.alive .fresh) actions
      (.alive ⟨false, false, true, .finished true, .idle, .down⟩) :=
    ⟨_, .next (.next (.next (.next started ⟨.liStart rfl⟩)
      ⟨.failed rfl (by decide : (-1 : Int) ≠ 0)⟩) ⟨.clearFailed rfl⟩) ⟨.reportFailure rfl⟩⟩
  obtain ⟨_, failed⟩ := failed
  exact ⟨_, .next (.next (.next (.next (.next failed ⟨.accept rfl usable⟩) ⟨.setSink rfl⟩)
    ⟨.setRunning rfl⟩) ⟨.clearStopRequested rfl⟩) ⟨.terminate rfl (by decide)⟩⟩

end StreamEngine.Client
