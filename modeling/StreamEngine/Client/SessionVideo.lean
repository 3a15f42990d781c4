import StreamEngine.Client.SessionInvariant
import StreamEngine.Client.VideoRuns

/-! The session and the video renderer of its worker. `run` makes the renderer, publishes it for
moonlight's callbacks while the window is there, and destroys it before the worker can be
joined. moonlight sets its decoder up once for each connection, submits only to a decoder that was
set up, and has stopped its threads when a connection has failed or is stopped. -/
namespace StreamEngine.Client
namespace Video
open Interaction Threads Transition

/-- The build with the renderer. -/
def linked (build : Build) : Build := { build with renderer := true }

/-- The renderer of `run`: `cleanup` is called, and called again by the destructor. -/
inductive Life where
  | built
  | cleaned
  | destroying
  | gone
deriving DecidableEq

/-- How far moonlight is with `vr_setup`. -/
inductive Decoder where
  | closed
  | opening
  | opened
  | refused
deriving DecidableEq

/-- `shared` says that `g_video` points to the renderer. -/
structure Stream where
  session : Session
  video : State
  life : Life
  shared : Bool
  decoder : Decoder

def Stream.fresh : Stream := ⟨.fresh, .fresh .fresh, .gone, false, .closed⟩

namespace Stream
variable (t : Stream)

/-- Where the session's steps wait for the renderer and moonlight's threads. -/
def MayFollow (s' : Session) : Prop :=
  match t.session.worker, s'.worker with
  | .setup _, .loop _ => t.decoder = .opened ∧ t.video.activity .worker = .idle
  | .setup _, .failed _ => t.video.activity .worker = .idle ∧ t.video.activity .submit = .idle
  | .loop _, .disconnect _ => t.video.activity .worker = .idle
  | .disconnect _, .clear _ => t.video.activity .submit = .idle
  | .clear _, .report _ => t.life = .cleaned ∧ t.video.activity .worker = .idle
  | .finished _, .absent => t.life = .gone
  | _, _ => True

/-- What the session's steps do to the renderer: `run` starts with a new one. -/
def follow (s' : Session) : Stream :=
  match t.session.worker, s'.worker with
  | .absent, .window => ⟨s', .fresh .fresh, .built, false, .closed⟩
  | .window, .connect haveWindow => { t with session := s', shared := haveWindow }
  | .setup _, .failed _ | .disconnect _, .clear _ => { t with session := s', decoder := .closed }
  | .failed _, .reportFailure _ => { t with session := s', shared := false }
  | _, _ => { t with session := s' }

/-- A method of the renderer is called. -/
def invoke (kHwPixFmt : Int) (m : Method) : Stream :=
  { t with video := t.video.turn m.side (.inside m (body kHwPixFmt m)) t.video.world }

/-- The renderer goes on. -/
def after (video : State) : Move → Stream
  | .returned (.setup _ _) (.code rc) =>
    { t with video, decoder := if rc = 0 then .opened else .refused }
  | .returned .cleanup _ =>
    { t with video, life := if t.life = .destroying then .gone else t.life }
  | _ => { t with video }

end Stream

inductive StreamAction where
  | session (action : Action)
  | renderer (l : Move)
  | noRenderer

/-- The steps of the process, in the build with the renderer. -/
inductive StreamStep (build : Build) (kHwPixFmt : Int) : Stream → StreamAction → Stream → Prop where
  | session {t action s'} (step : Client.Step (linked build) t.session action (.alive s'))
      (waits : t.MayFollow s') : StreamStep build kHwPixFmt t (.session action) (t.follow s')
  | renderer {t l video} (step : Threads.Step (renderer kHwPixFmt) t.video l video)
      (inner : ∀ m, l ≠ .invoke m) :
      StreamStep build kHwPixFmt t (.renderer l) (t.after video l)
  -- moonlight's callbacks
  | setup {t haveWindow width height} (here : t.session.worker = .setup haveWindow)
      (unset : t.decoder = .closed) (there : t.shared = true) :
      StreamStep build kHwPixFmt t (.renderer (.invoke (.setup width height)))
        { t.invoke kHwPixFmt (.setup width height) with decoder := .opening }
  | noRenderer {t haveWindow} (here : t.session.worker = .setup haveWindow)
      (unset : t.decoder = .closed) (missing : t.shared = false) :
      StreamStep build kHwPixFmt t .noRenderer { t with decoder := .refused }
  | submit {t du} (opened : t.decoder = .opened) (idle : t.video.activity .submit = .idle)
      (whole : du.fullLength = (du.bufferList.flatten.length : Int)) (there : t.shared = true) :
      StreamStep build kHwPixFmt t (.renderer (.invoke (.submit du))) (t.invoke kHwPixFmt (.submit du))
  -- `run`
  | present {t} (here : t.session.worker = .loop true) (idle : t.video.activity .worker = .idle) :
      StreamStep build kHwPixFmt t (.renderer (.invoke (.present true)))
        (t.invoke kHwPixFmt (.present true))
  | stats {t haveWindow} (here : t.session.worker = .loop haveWindow)
      (idle : t.video.activity .worker = .idle) :
      StreamStep build kHwPixFmt t (.renderer (.invoke .stats)) (t.invoke kHwPixFmt .stats)
  | cleanup {t userClosed} (here : t.session.worker = .clear userClosed) (built : t.life = .built) :
      StreamStep build kHwPixFmt t (.renderer (.invoke .cleanup))
        { t.invoke kHwPixFmt .cleanup with shared := false, life := .cleaned }
  | destroy {t cleared} (here : t.session.worker = .finished cleared)
      (there : t.life = .built ∨ t.life = .cleaned) :
      StreamStep build kHwPixFmt t (.renderer (.invoke .cleanup))
        { t.invoke kHwPixFmt .cleanup with life := .destroying }

/-- The worker does something else next. -/
inductive Moves : Worker → Worker → Prop where
  | start : Moves .absent .window
  | window {haveWindow} : Moves .window (.connect haveWindow)
  | connect {haveWindow} : Moves (.connect haveWindow) (.setup haveWindow)
  | connected {haveWindow} : Moves (.setup haveWindow) (.loop haveWindow)
  | failed {haveWindow rc} : Moves (.setup haveWindow) (.failed rc)
  | clearFailed {rc} : Moves (.failed rc) (.reportFailure rc)
  | reportFailure {rc cleared} : Moves (.reportFailure rc) (.finished cleared)
  | leave {haveWindow userClosed} : Moves (.loop haveWindow) (.disconnect userClosed)
  | liStop {userClosed} : Moves (.disconnect userClosed) (.clear userClosed)
  | clear {userClosed} : Moves (.clear userClosed) (.report userClosed)
  | report {userClosed cleared} : Moves (.report userClosed) (.finished cleared)
  | join {cleared} : Moves (.finished cleared) .absent

variable {build : Build} {kHwPixFmt : Int} {s s' : Session} {action : Action}

theorem session_moves (step : Client.Step (linked build) s action (.alive s')) :
    s'.worker = s.worker ∨ Moves s.worker s'.worker := by
  cases step with
  | assignWorker here free => exact .inr (free ▸ .start)
  | join here done => exact .inr (done ▸ .join)
  | window here | headless here => exact .inr (here ▸ .window)
  | liStart here => exact .inr (here ▸ .connect)
  | connected here => exact .inr (here ▸ .connected)
  | failed here => exact .inr (here ▸ .failed)
  | clearFailed here => exact .inr (here ▸ .clearFailed)
  | reportFailure here => exact .inr (here ▸ .reportFailure)
  | leave here | close here => exact .inr (here ▸ .leave)
  | liStop here => exact .inr (here ▸ .liStop)
  | clear here => exact .inr (here ▸ .clear)
  | reportClosed here | unreported here => exact .inr (here ▸ .report)
  | _ => exact .inl rfl

/-! ### What holds throughout -/

/-- The thread is in none of the other methods. -/
def Within (video : State) (side : Side) (methods : Method → Prop) : Prop :=
  ∀ m rest, video.activity side = .inside m rest → methods m

def Quiet (video : State) : Prop := ∀ side, video.activity side = .idle

/-- Where the renderer and moonlight are, by where the worker is. -/
def Stream.At (t : Stream) : Worker → Prop
  | .absent => t.life = .gone ∧ t.shared = false ∧ t.decoder = .closed ∧ Quiet t.video ∧ t.video.world.Empty
  | .window => t.life = .built ∧ t.shared = false ∧ t.decoder = .closed ∧ t.video = .fresh .fresh
  | .connect haveWindow =>
    t.life = .built ∧ t.shared = haveWindow ∧ t.decoder = .closed ∧ t.video = .fresh .fresh
  | .setup haveWindow => t.life = .built ∧ t.shared = haveWindow ∧ match t.decoder with
    | .closed => t.video = .fresh .fresh
    | .opening => haveWindow = true ∧ t.video.activity .submit = .idle ∧
        ∃ width height rest, t.video.activity .worker = .inside (.setup width height) rest
    | .opened => haveWindow = true ∧ t.video.activity .worker = .idle
    | .refused => Quiet t.video
  | .failed _ => t.life = .built ∧ t.decoder = .closed ∧ Quiet t.video
  | .reportFailure _ => t.life = .built ∧ t.shared = false ∧ t.decoder = .closed ∧ Quiet t.video
  | .loop haveWindow => haveWindow = true ∧ t.life = .built ∧ t.shared = true ∧ t.decoder = .opened ∧
      Within t.video .worker Method.shared
  | .disconnect _ => t.life = .built ∧ t.shared = true ∧ t.decoder = .opened ∧
      t.video.activity .worker = .idle
  | .clear _ => t.decoder = .closed ∧ t.video.activity .submit = .idle ∧
      (t.life = .built ∧ t.video.activity .worker = .idle ∨
        t.life = .cleaned ∧ t.shared = false ∧ Within t.video .worker (· = .cleanup))
  | .report _ => t.life = .cleaned ∧ t.shared = false ∧ t.decoder = .closed ∧ Quiet t.video
  | .finished _ => t.shared = false ∧ t.decoder = .closed ∧ match t.life with
    | .built | .cleaned => Quiet t.video
    | .destroying => t.video.activity .submit = .idle ∧
        ∃ rest, t.video.activity .worker = .inside .cleanup rest
    | .gone => Quiet t.video ∧ t.video.world.Empty

/-- The renderer is used as it asks to be. -/
structure Together (kHwPixFmt : Int) (t : Stream) : Prop where
  runs : ∃ labels, RunsTo kHwPixFmt labels t.video
  place : t.At t.session.worker

variable {t t' : Stream} {m : Method} {side : Side}

theorem Together.fresh : Together kHwPixFmt .fresh where
  runs := ⟨[], .start⟩
  place := by
    refine ⟨rfl, rfl, rfl, fun _ => rfl, ?_⟩
    constructor <;> exact fun _ => rfl

theorem quiet_of {video : State} (submit : video.activity .submit = .idle)
    (worker : video.activity .worker = .idle) : Quiet video := by
  intro side
  cases side with
  | submit => exact submit
  | worker => exact worker

theorem follow_session : (t.follow s').session = s' := by
  unfold Stream.follow
  split <;> rfl

theorem follow_same (same : s'.worker = t.session.worker) : t.follow s' = { t with session := s' } := by
  rw [Stream.follow, same]
  cases t.session.worker <;> rfl

theorem together_moves {worker worker' : Worker} (together : Together kHwPixFmt t)
    (moves : Moves worker worker') (here : t.session.worker = worker) (next : s'.worker = worker')
    (waits : t.MayFollow s') : Together kHwPixFmt (t.follow s') := by
  obtain ⟨runs, place⟩ := together
  rw [here] at place
  rw [Stream.MayFollow, here, next] at waits
  have session : (t.follow s').session.worker = worker' := by rw [follow_session, next]
  refine ⟨?_, session ▸ ?_⟩
  · rw [Stream.follow, here, next]
    cases moves with
    | start => exact ⟨[], .start⟩
    | _ => exact runs
  · rw [Stream.follow, here, next]
    cases moves with
    | start => exact ⟨rfl, rfl, rfl, rfl⟩
    | window => exact ⟨place.1, rfl, place.2.2⟩
    | connect =>
      obtain ⟨built, shared, closed, fresh⟩ := place
      exact ⟨built, shared, by simpa only [closed] using fresh⟩
    | connected =>
      obtain ⟨built, shared, there⟩ := place
      rw [waits.1] at there
      obtain ⟨rfl, idle⟩ := there
      refine ⟨rfl, built, shared, waits.1, fun m rest inside => ?_⟩
      exact absurd (idle.symm.trans inside) nofun
    | failed => exact ⟨place.1, rfl, quiet_of waits.2 waits.1⟩
    | clearFailed => exact ⟨place.1, rfl, place.2.1, place.2.2⟩
    | reportFailure =>
      obtain ⟨built, shared, closed, quiet⟩ := place
      exact ⟨shared, closed, by simpa only [built] using quiet⟩
    | leave => exact ⟨place.2.1, place.2.2.1, place.2.2.2.1, waits⟩
    | liStop => exact ⟨rfl, waits, .inl ⟨place.1, place.2.2.2⟩⟩
    | clear =>
      obtain ⟨closed, idle, here | ⟨cleaned, shared, -⟩⟩ := place
      · exact absurd (here.1.symm.trans waits.1) nofun
      · exact ⟨cleaned, shared, closed, quiet_of idle waits.2⟩
    | report =>
      obtain ⟨cleaned, shared, closed, quiet⟩ := place
      exact ⟨shared, closed, by simpa only [cleaned] using quiet⟩
    | join =>
      obtain ⟨shared, closed, there⟩ := place
      rw [waits] at there
      exact ⟨waits, shared, closed, there⟩

theorem together_session (together : Together kHwPixFmt t)
    (step : Client.Step (linked build) t.session action (.alive s')) (waits : t.MayFollow s') :
    Together kHwPixFmt (t.follow s') := by
  rcases session_moves step with same | moves
  · rw [follow_same same]
    refine ⟨together.runs, ?_⟩
    rw [same]
    exact together.place
  · exact together_moves together moves rfl rfl waits

/-- A method is called by a thread that is idle, beside nothing that it may not overlap with. -/
theorem runs_invoke (runs : ∃ labels, RunsTo kHwPixFmt labels t.video)
    (idle : t.video.activity m.side = .idle) (ready : m.ready t.video.world)
    (apart : ∀ side n rest, t.video.activity side = .inside n rest → m.shared ∧ n.shared) :
    ∃ labels, RunsTo kHwPixFmt labels (t.invoke kHwPixFmt m).video := by
  obtain ⟨labels, run⟩ := runs
  have step : Threads.Step (renderer kHwPixFmt) t.video (.invoke m) _ := .invoke m idle apart ready
  exact ⟨_, .next run step⟩

theorem apart_quiet {video : State} (quiet : Quiet video) (side : Side) (n : Method) (rest)
    (inside : video.activity side = .inside n rest) : m.shared ∧ n.shared :=
  absurd ((quiet side).symm.trans inside) nofun

/-- What a step of the renderer does to the thread that takes it: it stays in its method, goes
round in `submit`, or returns. -/
inductive Inner (video video' : State) (side : Side) (m : Method) : Move → Prop where
  | call {c answer rest} (after : video'.activity side = .inside m rest) :
      Inner video video' side m (.call side c answer)
  | again {n rest} (submits : side = .submit) (after : video'.activity side = .inside n rest) :
      Inner video video' side m (.again n)
  | returned {r} (after : video'.activity side = .idle) : Inner video video' side m (.returned m r)

theorem inner_step {labels : List Move} {video video' : State} {l : Move}
    (run : RunsTo kHwPixFmt labels video) (step : Threads.Step (renderer kHwPixFmt) video l video')
    (inner : ∀ m, l ≠ .invoke m) : ∃ side m rest, video.activity side = .inside m rest ∧
      m.side = side ∧ (∀ other, other ≠ side → video'.activity other = video.activity other) ∧
      Inner video video' side m l := by
  have sound := runs_sound run
  cases step with
  | invoke m => exact absurd rfl (inner m)
  | call here answered =>
    exact ⟨_, _, _, here, (sound.inside _ _ _ here).1, fun _ => System.turn_other,
      .call System.turn_self⟩
  | again here =>
    have mine := (sound.inside _ _ _ here).1
    exact ⟨_, _, _, here, mine, fun _ => System.turn_other,
      .again (mine.symm.trans (sound.again here).1) System.turn_self⟩
  | returned here =>
    exact ⟨_, _, _, here, (sound.inside _ _ _ here).1, fun _ => System.turn_other,
      .returned System.turn_self⟩

theorem after_video (l : Move) (video : State) :
    (t.after video l).video = video ∧ (t.after video l).session = t.session := by
  unfold Stream.after
  split <;> exact ⟨rfl, rfl⟩

theorem after_shared {video video' : State} {side : Side} {l : Move}
    (inner : Inner video video' side m l) (shared : m.shared) :
    t.after video' l = { t with video := video' } := by
  cases inner with
  | call | again => rfl
  | returned =>
    cases m with
    | setup | cleanup => exact shared.elim
    | submit | receive | present | stats => rfl

theorem submit_shared (mine : m.side = .submit) : m.shared := by
  cases m with
  | submit | receive => trivial
  | setup | present | stats | cleanup => exact nomatch mine

/-- A step of the renderer in the place where the worker is. -/
theorem at_after {labels : List Move} {video : State} {l : Move} {worker : Worker}
    (run : RunsTo kHwPixFmt labels t.video) (step : Threads.Step (renderer kHwPixFmt) t.video l video)
    (inner : ∀ m, l ≠ .invoke m) (place : t.At worker) : (t.after video l).At worker := by
  obtain ⟨side, m, rest, here, mine, others, inner⟩ := inner_step run step inner
  have running : ¬ Quiet t.video := fun quiet => nomatch (quiet side).symm.trans here
  -- While the worker is idle it is the submit thread that goes on.
  have submits : t.video.activity .worker = .idle → side = .submit := by
    intro idle
    cases side with
    | submit => rfl
    | worker => exact nomatch idle.symm.trans here
  have works : t.video.activity .submit = .idle → side = .worker := by
    intro idle
    cases side with
    | submit => exact nomatch idle.symm.trans here
    | worker => rfl
  cases worker with
  | absent => exact absurd place.2.2.2.1 running
  | window => exact absurd (by rw [place.2.2.2]; exact fun _ => rfl) running
  | connect haveWindow => exact absurd (by rw [place.2.2.2]; exact fun _ => rfl) running
  | failed rc => exact absurd place.2.2 running
  | reportFailure rc => exact absurd place.2.2.2 running
  | report userClosed => exact absurd place.2.2.2 running
  | setup haveWindow =>
    obtain ⟨built, shared, there⟩ := place
    cases decoder : t.decoder with
    | closed =>
      rw [decoder] at there
      exact absurd (by rw [there]; exact fun _ => rfl) running
    | refused =>
      rw [decoder] at there
      exact absurd there running
    | opened =>
      rw [decoder] at there
      obtain ⟨window, idle⟩ := there
      obtain rfl := submits idle
      rw [after_shared inner (submit_shared mine)]
      have still := (others .worker nofun).trans idle
      exact ⟨built, shared, by simpa only [decoder] using ⟨window, still⟩⟩
    | opening =>
      rw [decoder] at there
      obtain ⟨window, idle, width, height, rest', inside⟩ := there
      obtain rfl := works idle
      obtain ⟨rfl, -⟩ := Activity.inside.inj (here.symm.trans inside)
      have still := (others .submit nofun).trans idle
      cases inner with
      | call after =>
        exact ⟨built, shared, by
          simpa only [Stream.after, decoder] using ⟨window, still, width, height, _, after⟩⟩
      | again submits => exact nomatch submits
      | @returned r after =>
        have post := (returns run step).2.1
        cases r with
        | code rc =>
          refine ⟨built, shared, ?_⟩
          by_cases zero : rc = 0
          · simpa only [Stream.after, zero, if_true] using ⟨window, after⟩
          · simpa only [Stream.after, zero, if_false] using quiet_of still after
        | status | stats | void => exact post.elim
  | loop haveWindow =>
    obtain ⟨window, built, shared, opened, within⟩ := place
    cases side with
    | submit =>
      rw [after_shared inner (submit_shared mine)]
      refine ⟨window, built, shared, opened, fun n rest' inside => ?_⟩
      exact within n rest' ((others .worker nofun).symm.trans inside)
    | worker =>
      have still := within m rest here
      rw [after_shared inner still]
      refine ⟨window, built, shared, opened, fun n rest' inside => ?_⟩
      cases inner with
      | call after => exact (Activity.inside.inj (after.symm.trans inside)).1 ▸ still
      | again submits => exact nomatch submits
      | returned after => exact nomatch after.symm.trans inside
  | disconnect userClosed =>
    obtain ⟨built, shared, opened, idle⟩ := place
    obtain rfl := submits idle
    rw [after_shared inner (submit_shared mine)]
    exact ⟨built, shared, opened, (others .worker nofun).trans idle⟩
  | clear userClosed =>
    obtain ⟨closed, idle, ⟨-, free⟩ | ⟨cleaned, shared, within⟩⟩ := place
    · exact absurd (quiet_of idle free) running
    · obtain rfl := works idle
      obtain rfl := within m rest here
      have still := (others .submit nofun).trans idle
      cases inner with
      | call after =>
        refine ⟨closed, still, .inr ⟨cleaned, shared, fun n rest' inside => ?_⟩⟩
        exact (Activity.inside.inj (after.symm.trans inside)).1.symm
      | again submits => exact nomatch submits
      | returned after =>
        refine ⟨closed, still, .inr ⟨?_, shared, fun n rest' inside => ?_⟩⟩
        · simp [Stream.after, cleaned]
        · exact nomatch after.symm.trans inside
  | finished cleared =>
    obtain ⟨shared, closed, there⟩ := place
    cases life : t.life with
    | built | cleaned =>
      rw [life] at there
      exact absurd there running
    | gone =>
      rw [life] at there
      exact absurd there.1 running
    | destroying =>
      rw [life] at there
      obtain ⟨idle, rest', inside⟩ := there
      obtain rfl := works idle
      obtain ⟨rfl, -⟩ := Activity.inside.inj (here.symm.trans inside)
      have still := (others .submit nofun).trans idle
      cases inner with
      | call after =>
        exact ⟨shared, closed, by simpa only [Stream.after, life] using ⟨still, _, after⟩⟩
      | again submits => exact nomatch submits
      | returned after =>
        obtain ⟨same, post, -⟩ := returns run step
        have empty := (cleanup_returns post).empty (idle_submit run idle)
        rw [← same] at empty
        exact ⟨shared, closed, by simpa only [Stream.after, life, if_true] using
          ⟨quiet_of still after, empty⟩⟩

theorem together_renderer {video : State} {l : Move} (together : Together kHwPixFmt t)
    (step : Threads.Step (renderer kHwPixFmt) t.video l video) (inner : ∀ m, l ≠ .invoke m) :
    Together kHwPixFmt (t.after video l) := by
  obtain ⟨⟨labels, run⟩, place⟩ := together
  obtain ⟨same, session⟩ := after_video (t := t) l video
  refine ⟨⟨_, same ▸ run.next step⟩, ?_⟩
  rw [session]
  exact at_after run step inner place

/-- Where a decode unit arrives the worker is in nothing that `submit` may not overlap with. -/
theorem within_opened {worker : Worker} (place : t.At worker) (opened : t.decoder = .opened) :
    Within t.video .worker Method.shared := by
  have never : t.decoder = .closed → Within t.video .worker Method.shared :=
    fun closed => nomatch opened.symm.trans closed
  have resting : t.video.activity .worker = .idle → Within t.video .worker Method.shared :=
    fun idle m rest inside => nomatch idle.symm.trans inside
  cases worker with
  | setup haveWindow =>
    obtain ⟨-, -, there⟩ := place
    rw [opened] at there
    exact resting there.2
  | loop haveWindow => exact place.2.2.2.2
  | disconnect userClosed => exact resting place.2.2.2
  | absent | window | connect => exact never place.2.2.1
  | failed | finished => exact never place.2.1
  | reportFailure | report => exact never place.2.2.1
  | clear => exact never place.1

theorem at_submit {worker : Worker} {du : DecodeUnit} (opened : t.decoder = .opened)
    (place : t.At worker) : (t.invoke kHwPixFmt (.submit du)).At worker := by
  have never {post : Prop} : t.decoder = .closed → post := fun closed => nomatch opened.symm.trans closed
  have still : (t.invoke kHwPixFmt (.submit du)).video.activity .worker = t.video.activity .worker :=
    System.turn_other nofun
  cases worker with
  | setup haveWindow =>
    obtain ⟨built, shared, there⟩ := place
    rw [opened] at there
    refine ⟨built, shared, ?_⟩
    show match t.decoder with | .closed => _ | .opening => _ | .opened => _ | .refused => _
    rw [opened]
    exact ⟨there.1, still.trans there.2⟩
  | loop haveWindow =>
    obtain ⟨window, built, shared, -, within⟩ := place
    exact ⟨window, built, shared, opened, fun m rest inside => within m rest (still.symm.trans inside)⟩
  | disconnect userClosed =>
    obtain ⟨built, shared, -, idle⟩ := place
    exact ⟨built, shared, opened, still.trans idle⟩
  | absent | window | connect => exact never place.2.2.1
  | failed | finished => exact never place.2.1
  | reportFailure | report => exact never place.2.2.1
  | clear => exact never place.1

theorem at_loop {haveWindow : Bool} (here : t.session.worker = .loop haveWindow) (shared : m.shared)
    (mine : m.side = .worker) (place : t.At t.session.worker) :
    (t.invoke kHwPixFmt m).At t.session.worker := by
  rw [here] at place ⊢
  obtain ⟨window, built, published, opened, -⟩ := place
  refine ⟨window, built, published, opened, fun n rest inside => ?_⟩
  rw [← mine] at inside
  exact (Activity.inside.inj (System.turn_self.symm.trans inside)).1 ▸ shared

theorem apart_submit {video : State} (idle : video.activity .submit = .idle)
    (within : Within video .worker Method.shared) (side : Side) (n : Method) (rest)
    (inside : video.activity side = .inside n rest) : True ∧ n.shared := by
  cases side with
  | submit => exact nomatch idle.symm.trans inside
  | worker => exact ⟨trivial, within n rest inside⟩

theorem apart_worker (runs : ∃ labels, RunsTo kHwPixFmt labels t.video)
    (idle : t.video.activity .worker = .idle) (shared : m.shared) (side : Side) (n : Method) (rest)
    (inside : t.video.activity side = .inside n rest) : m.shared ∧ n.shared := by
  cases side with
  | submit =>
    obtain ⟨labels, run⟩ := runs
    exact ⟨shared, submit_shared ((runs_sound run).inside _ _ _ inside).1⟩
  | worker => exact nomatch idle.symm.trans inside

theorem other_turned {next} {world : World} :
    (t.video.turn .worker next world).activity .submit = t.video.activity .submit :=
  System.turn_other nofun

theorem together_step {a : StreamAction} (together : Together kHwPixFmt t)
    (step : StreamStep build kHwPixFmt t a t') : Together kHwPixFmt t' := by
  cases step with
  | session step waits => exact together_session together step waits
  | renderer step inner => exact together_renderer together step inner
  | @setup haveWindow width height here unset there =>
    obtain ⟨runs, place⟩ := together
    rw [here] at place
    obtain ⟨built, shared, fresh⟩ := place
    rw [unset] at fresh
    have quiet : Quiet t.video := fresh ▸ fun _ => rfl
    refine ⟨runs_invoke runs (quiet .worker) ?_ (apart_quiet quiet), ?_⟩
    · rw [fresh]
      exact ⟨rfl, rfl⟩
    · show Stream.At _ t.session.worker
      rw [here]
      refine ⟨built, shared, shared.symm.trans there, ?_, width, height, _, System.turn_self⟩
      exact other_turned.trans (quiet .submit)
  | noRenderer here unset missing =>
    obtain ⟨runs, place⟩ := together
    rw [here] at place
    obtain ⟨built, shared, fresh⟩ := place
    rw [unset] at fresh
    refine ⟨runs, ?_⟩
    show Stream.At _ t.session.worker
    rw [here]
    have quiet : Quiet t.video := fresh ▸ fun _ => rfl
    exact ⟨built, shared, quiet⟩
  | @submit du opened idle whole there =>
    obtain ⟨runs, place⟩ := together
    refine ⟨runs_invoke runs idle whole (apart_submit idle (within_opened place opened)), ?_⟩
    exact at_submit opened place
  | @present here idle =>
    obtain ⟨runs, place⟩ := together
    refine ⟨runs_invoke runs idle trivial (apart_worker runs idle trivial), ?_⟩
    exact at_loop here trivial rfl place
  | @stats haveWindow here idle =>
    obtain ⟨runs, place⟩ := together
    refine ⟨runs_invoke runs idle trivial (apart_worker runs idle trivial), ?_⟩
    exact at_loop here trivial rfl place
  | @cleanup userClosed here built =>
    obtain ⟨runs, place⟩ := together
    rw [here] at place
    obtain ⟨closed, idle, ⟨-, free⟩ | ⟨cleaned, -⟩⟩ := place
    · have quiet := quiet_of idle free
      refine ⟨runs_invoke (m := .cleanup) runs free trivial (apart_quiet quiet), ?_⟩
      show Stream.At _ t.session.worker
      rw [here]
      refine ⟨closed, other_turned.trans idle, .inr ⟨rfl, rfl, fun n rest inside => ?_⟩⟩
      exact (Activity.inside.inj (System.turn_self.symm.trans inside)).1.symm
    · exact nomatch built.symm.trans cleaned
  | @destroy cleared here there =>
    obtain ⟨runs, place⟩ := together
    rw [here] at place
    obtain ⟨shared, closed, left⟩ := place
    have quiet : Quiet t.video := by
      rcases there with life | life <;> simpa only [life] using left
    refine ⟨runs_invoke (m := .cleanup) runs (quiet .worker) trivial (apart_quiet quiet), ?_⟩
    show Stream.At _ t.session.worker
    rw [here]
    exact ⟨shared, closed, other_turned.trans (quiet .submit), _, System.turn_self⟩

/-! ### Whole runs -/

abbrev StreamRun (build : Build) (kHwPixFmt : Int) (actions : List StreamAction) (t : Stream) : Prop :=
  Run (StreamStep build kHwPixFmt) .fresh actions t

variable {actions : List StreamAction}

theorem run_together (run : StreamRun build kHwPixFmt actions t) : Together kHwPixFmt t :=
  run.invariant (Together kHwPixFmt) .fresh fun _ _ _ => together_step

/-- A round of the renderer that is left to itself. -/
theorem run_evaluates {v : State} {p : Code (Ending Method Result)} {w w' : World}
    {ending : Ending Method Result} (evaluates : Evaluates (effect side) p w ending w') :
    ∃ actions, Run (StreamStep build kHwPixFmt) { t with video := v.turn side (.inside m p) w } actions
      { t with video := v.turn side (.inside m (.done ending)) w' } := by
  induction evaluates with
  | done => exact ⟨[], .start⟩
  | @call c next before answer between ending after answered _ ih =>
    obtain ⟨actions, rest⟩ := ih
    have step : Threads.Step (renderer kHwPixFmt) (v.turn side (.inside m (.call c next)) before)
        (.call side c answer)
        ((v.turn side (.inside m (.call c next)) before).turn side (.inside m (next answer)) between) :=
      .call System.turn_self answered
    rw [System.turn_turn] at step
    have first : StreamStep build kHwPixFmt
        { t with video := v.turn side (.inside m (.call c next)) before }
        (.renderer (.call side c answer))
        { t with video := v.turn side (.inside m (next answer)) between } := .renderer step nofun
    exact ⟨_, Run.append (.next .start first) rest⟩

/-- All the rounds of a method. -/
theorem run_completes {v : State} {w w' : World} {r : Result}
    (completes : Completes (renderer kHwPixFmt) side m w r w') : ∃ actions n,
    Run (StreamStep build kHwPixFmt) { t with video := v.turn side (.inside m (body kHwPixFmt m)) w }
      actions { t with video := v.turn side (.inside n (.done (.result r))) w' } := by
  induction completes with
  | result evaluates =>
    obtain ⟨actions, round⟩ := run_evaluates evaluates
    exact ⟨actions, _, round⟩
  | @again m before n between r after evaluates _ ih =>
    obtain ⟨first, round⟩ := run_evaluates (t := t) (v := v) (m := m) evaluates
    obtain ⟨actions, k, rest⟩ := ih
    have step : Threads.Step (renderer kHwPixFmt) (v.turn side (.inside m (.done (.again n))) between)
        (.again n) ((v.turn side (.inside m (.done (.again n))) between).turn side
          (.inside n (body kHwPixFmt n)) between) := .again System.turn_self
    rw [System.turn_turn] at step
    have again : StreamStep build kHwPixFmt
        { t with video := v.turn side (.inside m (.done (.again n))) between } (.renderer (.again n))
        { t with video := v.turn side (.inside n (body kHwPixFmt n)) between } := .renderer step nofun
    exact ⟨_, k, Run.append (.next round again) rest⟩

theorem after_turned {v video : State} {l : Move} :
    ({ t with video := v } : Stream).after video l = t.after video l := by
  unfold Stream.after
  split <;> rfl

/-- A method of one round that is called while the renderer rests, up to its return. -/
theorem run_returned {w w' : World} {r : Result} (run : StreamRun build kHwPixFmt actions
      { t with video := (System.fresh w).turn side (.inside m (body kHwPixFmt m)) w })
    (evaluates : Evaluates (effect side) (body kHwPixFmt m) w (.result r) w') :
    ∃ actions', StreamRun build kHwPixFmt actions' (t.after (.fresh w') (.returned m r)) := by
  obtain ⟨_, round⟩ := run_evaluates evaluates
  have returned := Run.next (Run.append run round) (.renderer (.returned System.turn_self) nofun)
  rw [System.turn_turn, System.fresh_idle, after_turned] at returned
  exact ⟨_, returned⟩

/-- A decode unit that is submitted while the renderer rests. -/
theorem run_submitted {w w' : World} {r : Result} {du : DecodeUnit} (run : StreamRun build kHwPixFmt
      actions { t with video :=
        (System.fresh w).turn .submit (.inside (.submit du) (body kHwPixFmt (.submit du))) w })
    (completes : Completes (renderer kHwPixFmt) .submit (.submit du) w r w') :
    ∃ actions', StreamRun build kHwPixFmt actions' { t with video := .fresh w' } := by
  obtain ⟨_, n, rounds⟩ := run_completes completes
  have whole := Run.append run rounds
  obtain ⟨_, video⟩ := (run_together whole).runs
  have mine := ((runs_sound video).inside .submit n _ System.turn_self).1
  have returned := Run.next whole (.renderer (.returned System.turn_self) nofun)
  rw [System.turn_turn, System.fresh_idle, after_turned] at returned
  have inner : Inner t.video (.fresh w') .submit n (.returned n r) := .returned rfl
  have kept := after_shared (t := t) inner (submit_shared mine)
  exact ⟨_, kept.subst (motive := StreamRun build kHwPixFmt _) returned⟩

/-- The session in `LiStartConnection`. -/
def connecting (haveWindow : Bool) (decoder : Decoder) (video : State) : Stream :=
  ⟨⟨true, false, true, .setup haveWindow, .idle, .setup⟩, video, .built, haveWindow, decoder⟩

theorem run_connecting (haveWindow : Bool) :
    ∃ actions, StreamRun build kHwPixFmt actions (connecting haveWindow .closed (.fresh .fresh)) := by
  have usable : startError false usableInfo = none := by decide
  have accepted : StreamRun build kHwPixFmt _ _ := .next .start (.session (.accept rfl usable) trivial)
  have sink := Run.next accepted (.session (.setSink rfl) trivial)
  have running := Run.next sink (.session (.setRunning rfl) trivial)
  have cleared := Run.next running (.session (.clearStopRequested rfl) trivial)
  have started := Run.next cleared (.session (.assignWorker rfl rfl) trivial)
  cases haveWindow with
  | true =>
    have window := Run.next started (.session (@Client.Step.window _ _ [] rfl) trivial)
    exact ⟨_, Run.next window (.session (.liStart rfl) trivial)⟩
  | false =>
    have headless := Run.next started (.session (.headless rfl) trivial)
    exact ⟨_, Run.next headless (.session (.liStart rfl) trivial)⟩

/-- The decoder is set up. -/
theorem run_opened {opened : World}
    (sets : Evaluates (effect .worker) (body 44 (.setup 2 2)) World.fresh (.result (.code 0)) opened) :
    ∃ actions, StreamRun build 44 actions (connecting true .opened (.fresh opened)) := by
  obtain ⟨_, connected⟩ : ∃ actions, StreamRun build 44 actions _ := run_connecting true
  have setup := Run.next connected (@StreamStep.setup build 44 _ true 2 2 rfl rfl rfl)
  exact run_returned (t := connecting true .opening (.fresh .fresh)) setup sets

/-- A decode unit has arrived in a session that is being set up. -/
theorem run_submitting : ∃ actions t rest, StreamRun build 44 actions t ∧
    t.video.activity .submit = .inside (.submit ⟨0, []⟩) rest := by
  obtain ⟨opened, _, _, _, _, sets, -⟩ := one_picture
  obtain ⟨_, connected⟩ : ∃ actions, StreamRun build 44 actions _ := run_opened sets
  have submitted := Run.next connected (@StreamStep.submit build 44 _ ⟨0, []⟩ rfl rfl rfl rfl)
  exact ⟨_, _, _, submitted, System.turn_self⟩

/-- A session that shows one picture, is asked to stop and is joined. -/
theorem run_shown : ∃ actions t, StreamRun build 44 actions t ∧ t.session.worker = .absent ∧
    t.video.world.shown = [⟨sdlIyuv, 2, 2, []⟩] := by
  obtain ⟨opened, decoded, presented, cleaned, destroyed, sets, submits, presents, -, cleans, destroys,
    shown⟩ := one_picture
  obtain ⟨_, connected⟩ : ∃ actions, StreamRun build 44 actions _ := run_opened sets
  have looping := Run.next connected (.session (.connected rfl) ⟨rfl, rfl⟩)
  have submitted := Run.next looping (@StreamStep.submit build 44 _ ⟨0, []⟩ rfl rfl rfl rfl)
  obtain ⟨_, waiting⟩ := run_submitted (t := ⟨⟨true, false, true, .loop true, .idle, .up⟩,
    .fresh opened, .built, true, .opened⟩) submitted submits
  have presenting := Run.next waiting (.present rfl rfl)
  obtain ⟨_, idle⟩ := run_returned (t := ⟨⟨true, false, true, .loop true, .idle, .up⟩,
    .fresh decoded, .built, true, .opened⟩) presenting presents
  have stopping := Run.next idle (.session (.stop rfl) trivial)
  have interrupted := Run.next stopping (.session (.interrupt rfl nofun) trivial)
  have left := Run.next interrupted (.session (.leave rfl rfl) rfl)
  have disconnected := Run.next left (.session (.liStop rfl) rfl)
  have cleaning := Run.next disconnected (.cleanup rfl rfl)
  obtain ⟨_, released⟩ := run_returned (t := ⟨⟨true, true, true, .clear false, .join, .down⟩,
    .fresh presented, .cleaned, false, .closed⟩) cleaning cleans
  have cleared := Run.next released (.session (.clear rfl) ⟨rfl, rfl⟩)
  have finished := Run.next cleared (.session (.unreported rfl) trivial)
  have destroying := Run.next finished (.destroy rfl (.inr rfl))
  obtain ⟨_, gone⟩ := run_returned (t := ⟨⟨false, true, true, .finished true, .join, .down⟩,
    .fresh cleaned, .destroying, false, .closed⟩) destroying destroys
  have joined := Run.next gone (.session (.join rfl rfl) rfl)
  exact ⟨_, _, joined, rfl, shown⟩

/-- A session that finds no window is refused by moonlight, and joined by `stop`. -/
theorem run_refused : ∃ actions t, StreamRun build 44 actions t ∧ t.session.worker = .absent ∧
    t.session.control = .checkRunning := by
  obtain ⟨_, connected⟩ : ∃ actions, StreamRun build 44 actions _ := run_connecting false
  have refused := Run.next connected (.noRenderer rfl rfl rfl)
  have failed := Run.next refused (.session (.failed rfl (by decide : (-1 : Int) ≠ 0)) ⟨rfl, rfl⟩)
  have cleared := Run.next failed (.session (.clearFailed rfl) trivial)
  have reported := Run.next cleared (.session (.reportFailure rfl) trivial)
  have destroying := Run.next reported (.destroy rfl (.inl rfl))
  have cleans : Evaluates (effect .worker) (body 44 .cleanup) World.fresh (.result .void) World.fresh := by
    apply answers () ⟨rfl, rfl⟩
    apply answers _ ⟨rfl, rfl⟩
    apply answers () rfl
    apply answers _ ⟨rfl, rfl⟩
    apply answers _ ⟨rfl, rfl⟩
    apply answers _ ⟨rfl, rfl⟩
    apply answers () rfl
    apply Evaluates.done
  obtain ⟨_, gone⟩ := run_returned (t := ⟨⟨false, false, true, .finished true, .idle, .down⟩,
    .fresh .fresh, .destroying, false, .closed⟩) destroying cleans
  have stopping := Run.next gone (.session (.stop rfl) trivial)
  have interrupted := Run.next stopping (.session (.interrupt rfl nofun) trivial)
  have joined := Run.next interrupted (.session (.join rfl rfl) rfl)
  exact ⟨_, _, joined, rfl, rfl⟩

/-- The session takes its own steps only. -/
theorem run_session (run : StreamRun build kHwPixFmt actions t) : ∃ actions',
    Run (ProcessStep (linked build)) (.alive .fresh) actions' (.alive t.session) := by
  refine run.invariant (fun t => ∃ actions', Run (ProcessStep (linked build)) (.alive .fresh) actions'
    (.alive t.session)) ⟨[], .start⟩ ?_
  rintro t a t' ⟨actions', earlier⟩ step
  cases step with
  | session step waits =>
    rw [follow_session]
    exact ⟨_, earlier.next (.alive step)⟩
  | renderer step inner =>
    rw [(after_video _ _).2]
    exact ⟨actions', earlier⟩
  | _ => exact ⟨actions', earlier⟩

/-- The session and its renderer are in states that each reaches alone, so that what is proved
of one holds here: `run` and moonlight call the renderer only where it may be called. -/
theorem renderer_used_as_promised (run : StreamRun build kHwPixFmt actions t) :
    (∃ actions', Run (ProcessStep (linked build)) (.alive .fresh) actions' (.alive t.session)) ∧
      ∃ labels, RunsTo kHwPixFmt labels t.video :=
  ⟨run_session run, (run_together run).runs⟩

theorem renderer_used_as_promised_submit : ∃ actions t rest,
    StreamRun ⟨true, fun _ => [], 0⟩ 44 actions t ∧
    t.video.activity .submit = .inside (.submit ⟨0, []⟩) rest ∧
      (∃ actions', Run (ProcessStep (linked ⟨true, fun _ => [], 0⟩)) (.alive .fresh) actions'
        (.alive t.session)) ∧ ∃ labels, RunsTo 44 labels t.video := by
  obtain ⟨actions, t, rest, run, inside⟩ := run_submitting
  exact ⟨actions, t, rest, run, inside, renderer_used_as_promised run⟩

/-- A decode unit is only ever in a renderer that exists, that `g_video` points to and that was
not cleaned up, and nothing is in a renderer that was destroyed. -/
theorem callback_finds_renderer {rest} (run : StreamRun build kHwPixFmt actions t)
    (inside : t.video.activity side = .inside m rest) :
    t.life ≠ .gone ∧ (side = .submit → t.life = .built ∧ t.shared = true) := by
  have place := (run_together run).place
  have running : ¬ Quiet t.video := fun quiet => nomatch (quiet side).symm.trans inside
  have never {post : Prop} (quiet : Quiet t.video) : post := absurd quiet running
  generalize t.session.worker = worker at place
  cases worker with
  | absent => exact never place.2.2.2.1
  | window => exact never (by rw [place.2.2.2]; exact fun _ => rfl)
  | connect haveWindow => exact never (by rw [place.2.2.2]; exact fun _ => rfl)
  | failed rc => exact never place.2.2
  | reportFailure rc => exact never place.2.2.2
  | report userClosed => exact never place.2.2.2
  | setup haveWindow =>
    obtain ⟨built, shared, there⟩ := place
    refine ⟨by simp [built], ?_⟩
    rintro rfl
    cases decoder : t.decoder with
    | closed =>
      rw [decoder] at there
      exact never (there ▸ fun _ => rfl)
    | refused =>
      rw [decoder] at there
      exact never there
    | opening =>
      rw [decoder] at there
      exact nomatch there.2.1.symm.trans inside
    | opened =>
      rw [decoder] at there
      exact ⟨built, shared.trans there.1⟩
  | loop haveWindow =>
    obtain ⟨-, built, shared, -⟩ := place
    exact ⟨by simp [built], fun _ => ⟨built, shared⟩⟩
  | disconnect userClosed =>
    obtain ⟨built, shared, -⟩ := place
    exact ⟨by simp [built], fun _ => ⟨built, shared⟩⟩
  | clear userClosed =>
    obtain ⟨-, idle, there⟩ := place
    refine ⟨?_, ?_⟩
    · rcases there with ⟨built, -⟩ | ⟨cleaned, -⟩
      · simp [built]
      · simp [cleaned]
    · rintro rfl
      exact nomatch idle.symm.trans inside
  | finished cleared =>
    obtain ⟨-, -, there⟩ := place
    cases life : t.life with
    | built | cleaned =>
      rw [life] at there
      exact never there
    | gone =>
      rw [life] at there
      exact never there.1
    | destroying =>
      rw [life] at there
      refine ⟨nofun, ?_⟩
      rintro rfl
      exact nomatch there.1.symm.trans inside

theorem callback_finds_renderer_submit : ∃ actions t rest, StreamRun ⟨true, fun _ => [], 0⟩ 44 actions t ∧
    t.video.activity .submit = .inside (.submit ⟨0, []⟩) rest ∧ t.life ≠ .gone ∧
      (Side.submit = .submit → t.life = .built ∧ t.shared = true) := by
  obtain ⟨actions, t, rest, run, inside⟩ := run_submitting
  exact ⟨actions, t, rest, run, inside, callback_finds_renderer run inside⟩

/-- When no worker is left nothing of its renderer is: no call, no pointer to it, and nothing
allocated. -/
theorem nothing_outlives_worker (run : StreamRun build kHwPixFmt actions t)
    (absent : t.session.worker = .absent) :
    Quiet t.video ∧ t.shared = false ∧ t.video.world.Empty := by
  have place := (run_together run).place
  rw [absent] at place
  obtain ⟨-, shared, -, quiet, empty⟩ := place
  exact ⟨quiet, shared, empty⟩

theorem nothing_outlives_worker_shown : ∃ actions t, StreamRun ⟨true, fun _ => [], 0⟩ 44 actions t ∧
    t.video.world.shown = [⟨sdlIyuv, 2, 2, []⟩] ∧
      Quiet t.video ∧ t.shared = false ∧ t.video.world.Empty := by
  obtain ⟨actions, t, run, absent, shown⟩ := run_shown
  exact ⟨actions, t, run, shown, nothing_outlives_worker run absent⟩

/-- Without a window `vr_setup` fails, so that no connection is established: `run` never gets to
its loop headless. -/
theorem never_headless (run : StreamRun build kHwPixFmt actions t) :
    t.session.worker ≠ .loop false := by
  intro headless
  have place := (run_together run).place
  rw [headless] at place
  exact nomatch place.1

theorem never_headless_refused : ∃ actions t, StreamRun ⟨true, fun _ => [], 0⟩ 44 actions t ∧
    t.session.control = .checkRunning ∧ t.session.worker ≠ .loop false := by
  obtain ⟨actions, t, run, -, joined⟩ := run_refused
  exact ⟨actions, t, run, joined, never_headless run⟩

end Video
end StreamEngine.Client
