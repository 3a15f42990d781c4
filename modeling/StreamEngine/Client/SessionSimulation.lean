import StreamEngine.Client.EngineProofs
import StreamEngine.Client.Handlers
import StreamEngine.Client.SessionProofs

/-! The engine's view of the session and the session's own steps. Between two requests the
engine keeps two flags and asks whether the worker has ended; each of its answers is one
that the session's steps give. -/
namespace StreamEngine.Client
open ByteString Hoare Json Engine Transition

variable {X509 : Type} {env : Environment X509} {build : Build} {s : Session} {p : Process}
  {actions : List Action}

/-- The flags agree with a session that no request is working on. -/
structure Sees (seen : SessionState) (ended : Bool) (s : Session) : Prop where
  idle : s.control = .idle
  running : s.running = (seen.running && !ended)
  joinable : seen.joinable = decide (s.worker ≠ .absent)

/-! ### A worker that was asked to stop -/

/-- Steps that a worker still needs at most. -/
def Worker.rank : Worker → Nat
  | .window => 5
  | .connect _ | .loop _ => 4
  | .setup _ | .disconnect _ => 3
  | .failed _ | .clear _ => 2
  | .reportFailure _ | .report _ => 1
  | .absent | .finished _ => 0

theorem worker_advances (build : Build) (unfinished : 0 < s.worker.rank)
    (requested : s.stopRequested = true) :
    ∃ action s', Step build s action (.alive s') ∧ s'.control = s.control ∧
      s'.stopRequested = true ∧ s'.worker ≠ .absent ∧ s'.worker.rank < s.worker.rank := by
  cases worker : s.worker with
  | absent => simp [worker, Worker.rank] at unfinished
  | window => exact ⟨_, _, .headless worker, rfl, requested, nofun, by simp [Worker.rank]⟩
  | connect haveWindow =>
    exact ⟨_, _, .liStart worker, rfl, requested, nofun, by simp [Worker.rank]⟩
  | setup haveWindow =>
    exact ⟨_, _, .failed worker (by decide : (-1 : Int) ≠ 0), rfl, requested, nofun,
      by simp [Worker.rank]⟩
  | failed rc => exact ⟨_, _, .clearFailed worker, rfl, requested, nofun, by simp [Worker.rank]⟩
  | reportFailure rc =>
    exact ⟨_, _, .reportFailure worker, rfl, requested, nofun, by simp [Worker.rank]⟩
  | loop haveWindow =>
    exact ⟨_, _, .leave worker requested, rfl, requested, nofun, by simp [Worker.rank]⟩
  | disconnect userClosed =>
    exact ⟨_, _, .liStop worker, rfl, requested, nofun, by simp [Worker.rank]⟩
  | clear userClosed => exact ⟨_, _, .clear worker, rfl, requested, nofun, by simp [Worker.rank]⟩
  | report userClosed =>
    cases userClosed with
    | false => exact ⟨_, _, .unreported worker, rfl, requested, nofun, by simp [Worker.rank]⟩
    | true => exact ⟨_, _, .reportClosed worker, rfl, requested, nofun, by simp [Worker.rank]⟩
  | finished cleared => simp [worker, Worker.rank] at unfinished

/-- A worker that was asked to stop can be waited for. -/
theorem worker_finishes (run : Run (ProcessStep build) p actions (.alive s))
    (there : s.worker ≠ .absent) (requested : s.stopRequested = true) :
    ∃ more s' cleared, Run (ProcessStep build) p more (.alive s') ∧ s'.control = s.control ∧
      s'.worker = .finished cleared := by
  induction rank : s.worker.rank using Nat.strong_induction_on generalizing s actions with
  | h n ih =>
    by_cases unfinished : 0 < s.worker.rank
    · obtain ⟨action, s', step, control, requested', there', lower⟩ :=
        worker_advances build unfinished requested
      obtain ⟨more, s'', cleared, run', control', finished⟩ :=
        ih _ (rank ▸ lower) (.next run ⟨step⟩) there' requested' rfl
      exact ⟨more, s'', cleared, run', control'.trans control, finished⟩
    · cases worker : s.worker with
      | finished cleared => exact ⟨actions, s, cleared, run, rfl, worker⟩
      | absent => exact absurd worker there
      | _ => simp [worker, Worker.rank] at unfinished

/-- The part of `stop` after the join. -/
theorem stop_ends (run : Run (ProcessStep build) p actions (.alive s))
    (here : s.control = .checkRunning) (free : s.worker = .absent) :
    ∃ more s', Run (ProcessStep build) p more (.alive s') ∧ Sees ⟨false, false⟩ false s' := by
  cases running : s.running with
  | false =>
    refine ⟨_, _, .next (.next run ⟨.notRunning here running⟩) ⟨.clearSink rfl⟩, rfl, running, ?_⟩
    simp [free]
  | true =>
    have check := Run.next run ⟨.stillRunning here running⟩
    cases renderer : build.renderer with
    | false =>
      rw [renderer] at check
      exact ⟨_, _, .next (.next (.next check ⟨.stopConnection rfl⟩) ⟨.clearRunning rfl⟩)
        ⟨.clearSink rfl⟩, rfl, rfl, by simp [free]⟩
    | true =>
      rw [renderer] at check
      exact ⟨_, _, .next (.next check ⟨.clearRunning rfl⟩) ⟨.clearSink rfl⟩, rfl, rfl,
        by simp [free]⟩

/-- `stop` can always come to its end, and then there is no worker and nothing runs. -/
theorem stop_completes (idle : s.control = .idle) :
    ∃ actions s', Run (ProcessStep build) (.alive s) actions (.alive s') ∧
      Sees ⟨false, false⟩ false s' := by
  have stopping : Run (ProcessStep build) (.alive s) ([] ++ [.stop])
      (.alive { s with stopRequested := true, control := .checkJoinable }) :=
    .next .start ⟨.stop idle⟩
  by_cases free : s.worker = .absent
  · exact stop_ends (.next stopping ⟨.notJoinable rfl free⟩) rfl free
  · obtain ⟨more, s', cleared, run, control, finished⟩ :=
      worker_finishes (.next stopping ⟨.interrupt rfl free⟩) free rfl
    exact stop_ends (.next run ⟨.join control finished⟩) rfl rfl

/-! ### The engine's answers -/

/-- The session can follow the engine's `client.stop` from wherever its worker is. -/
theorem clientStop_simulated (build : Build) {w : World X509}
    (sees : Sees w.session (env.workerEnded w.log) s) :
    ∃ actions s', Run (ProcessStep build) (.alive s) actions (.alive s') ∧
      Sees (exec clientStop w).2.session false s' := by
  have stopped : (exec clientStop w).2.session = ⟨false, false⟩ := rfl
  rw [stopped]
  exact stop_completes sees.idle

theorem exec_sessionStart (info : StartInfo) (w : World X509) :
    exec (sessionStart env info) w =
      match startError (w.session.running && !env.workerEnded w.log) info with
      | some err => (some (.error err), w.noted [.sessionAsked (env.workerEnded w.log)])
      | none =>
        if w.session.joinable then (none, w.noted [.sessionAsked (env.workerEnded w.log)])
        else (some (.ok ()), { w.noted [.sessionAsked (env.workerEnded w.log)] with
          session := ⟨true, true⟩ }) := by
  rw [sessionStart, exec_bind_returned (exec_get _), exec_bind_returned (exec_record _ _),
    exec_bind_returned (exec_get _)]
  have same : (w.noted [.sessionAsked (env.workerEnded w.log)]).session = w.session := rfl
  simp only [same]
  cases startError (w.session.running && !env.workerEnded w.log) info with
  | some err => rfl
  | none =>
    by_cases joinable : w.session.joinable = true
    · simp only [joinable, if_true]
      rfl
    · simp only [joinable]
      rfl

/-- What the session's steps make of an answer of `start`. -/
def Simulated (build : Build) (s : Session) (info : StartInfo) (seen : SessionState) :
    Option (Except Bytes Unit) → Prop
  | some (.error err) => Step build s (.startRefused info err) (.alive s)
  | some (.ok ()) => ∃ actions s', Run (ProcessStep build) (.alive s) actions (.alive s') ∧
      Sees seen false s'
  | none => ∃ actions, Run (ProcessStep build) (.alive s) actions .terminated

/-- The engine's `client.start` answers as the session does: with the same refusal, with a
session that runs, or not at all where the session ends the process. -/
theorem sessionStart_simulated (build : Build) (info : StartInfo) {w : World X509}
    (sees : Sees w.session (env.workerEnded w.log) s) :
    Simulated build s info (exec (sessionStart env info) w).2.session
      (exec (sessionStart env info) w).1 := by
  rw [exec_sessionStart, ← sees.running]
  cases checked : startError s.running info with
  | some err => exact .refuse sees.idle checked
  | none =>
    have accepted : Run (ProcessStep build) (.alive s) ([] ++ [.start info])
        (.alive { s with control := .setSink }) := .next .start ⟨.accept sees.idle checked⟩
    by_cases joinable : w.session.joinable = true
    · have there : s.worker ≠ .absent := by simpa [sees.joinable] using joinable
      have doomed : Doomed { s with control := .setSink } := ⟨rfl, there⟩
      simp only [joinable, if_true]
      exact doomed.terminates accepted
    · have free : s.worker = .absent := by simpa [sees.joinable] using joinable
      simp only [joinable]
      have started := Run.next (.next (.next (.next accepted ⟨.setSink rfl⟩) ⟨.setRunning rfl⟩)
        ⟨.clearStopRequested rfl⟩) ⟨.assignWorker rfl free⟩
      refine ⟨_, _, started, rfl, rfl, ?_⟩
      cases build.renderer <;> simp

end StreamEngine.Client
