import StreamEngine.Client.StreamConfig
import StreamEngine.Library.Decimal

/-! The stream session: the thread that calls `start` and `stop`, the worker it starts and
joins, and the callbacks of moonlight's threads, one shared access at a time. Assigning to
a joinable worker ends the process. -/
namespace StreamEngine.Client
open ByteString Decimal

/-- What a session is started with. -/
structure StartInfo where
  host : Bytes
  serverAppVersion : Bytes
  gfeVersion : Bytes
  rtspSessionUrl : Bytes
  serverCodecModeSupport : Int
  settings : StreamSettings
  riKey : Bytes
  riKeyId : Int
  embedWindow : Bool

/-- The checks of `start`, with `running_` as it is read there. -/
def startError (running : Bool) (info : StartInfo) : Option Bytes :=
  if running = true then some (ascii "a stream is already running")
  else if info.riKey.length ≠ 16 then some (ascii "remote-input AES key must be 16 bytes")
  else if info.rtspSessionUrl = [] then
    some (ascii "missing RTSP session URL (launch/resume did not complete)")
  else none

inductive Phase where
  | connecting
  | window
  | streaming
  | ended
  | error
deriving DecidableEq

structure StateEvent where
  phase : Phase
  reason : Bytes
  nativeWindow : Bytes
deriving DecidableEq

/-- What the build and moonlight fix: whether the renderer is linked, the names of the
stages and the code of a graceful end. -/
structure Build where
  renderer : Bool
  stageName : Int → Bytes
  gracefulTermination : Int

namespace Build
variable (build : Build)

def stageStarting (stage : Int) : StateEvent := ⟨.connecting, build.stageName stage, []⟩

def stageFailed (stage errorCode : Int) : StateEvent :=
  ⟨.error, ascii "stage '" ++ build.stageName stage ++ ascii "' failed (code " ++
    printInt errorCode ++ ascii ")", []⟩

def connectionStarted : StateEvent := ⟨.streaming, [], []⟩

def connectionTerminated (errorCode : Int) : StateEvent :=
  if errorCode = build.gracefulTermination then ⟨.ended, ascii "host ended the session", []⟩
  else ⟨.error, ascii "connection terminated (code " ++ printInt errorCode ++ ascii ")", []⟩

def startFailed (rc : Int) : StateEvent :=
  ⟨.error, ascii "LiStartConnection failed (code " ++ printInt rc ++ ascii ")", []⟩

def windowClosed : StateEvent := ⟨.ended, ascii "window closed", []⟩

end Build

/-- The worker thread, by what it does next. A finished worker is still joinable; it
remembers whether it has cleared `running_`. -/
inductive Worker where
  | absent
  | window
  | connect (haveWindow : Bool)
  | setup (haveWindow : Bool)
  | failed (rc : Int)
  | reportFailure (rc : Int)
  | loop (haveWindow : Bool)
  | disconnect (userClosed : Bool)
  | clear (userClosed : Bool)
  | report (userClosed : Bool)
  | finished (cleared : Bool)
deriving DecidableEq

/-- The thread that calls `start` and `stop`, by what it does next. -/
inductive Control where
  | idle
  | setSink
  | setRunning
  | clearStopRequested
  | assignWorker
  | checkJoinable
  | join
  | checkRunning
  | stopConnection
  | clearRunning
  | clearSink
deriving DecidableEq

/-- moonlight's single connection. -/
inductive Link where
  | down
  | setup
  | up
  | dropped
deriving DecidableEq

structure Session where
  running : Bool
  stopRequested : Bool
  sink : Bool
  worker : Worker
  control : Control
  link : Link
deriving DecidableEq

/-- The process, which ends when a joinable worker is assigned to. -/
inductive Process where
  | alive (s : Session)
  | terminated
deriving DecidableEq

def Session.fresh : Session := ⟨false, false, false, .absent, .idle, .down⟩

/-- `emit`, which needs a sink. -/
def Session.emit (s : Session) (e : StateEvent) : Option StateEvent := if s.sink then some e else none

/-- What can be seen of a step. -/
inductive Action where
  | start (info : StartInfo)
  | startRefused (info : StartInfo) (err : Bytes)
  | started
  | stop
  | interrupt
  | stopped
  | state (e : Option StateEvent)
  | stats
  | liStart
  | liStarted (rc : Int)
  | liStop
  | silent

/-- The steps of one process. -/
inductive Step (build : Build) : Session → Action → Process → Prop where
  -- `start`
  | refuse {s info err} (idle : s.control = .idle) (refused : startError s.running info = some err) :
      Step build s (.startRefused info err) (.alive s)
  | accept {s info} (idle : s.control = .idle) (usable : startError s.running info = none) :
      Step build s (.start info) (.alive { s with control := .setSink })
  | setSink {s} (here : s.control = .setSink) :
      Step build s .silent (.alive { s with sink := true, control := .setRunning })
  | setRunning {s} (here : s.control = .setRunning) :
      Step build s .silent (.alive { s with running := true, control := .clearStopRequested })
  | clearStopRequested {s} (here : s.control = .clearStopRequested) :
      Step build s .silent (.alive { s with stopRequested := false, control := .assignWorker })
  | assignWorker {s} (here : s.control = .assignWorker) (free : s.worker = .absent) :
      Step build s .started (.alive { s with
        worker := if build.renderer then .window else .connect false, control := .idle })
  | terminate {s} (here : s.control = .assignWorker) (joinable : s.worker ≠ .absent) :
      Step build s .started .terminated
  -- `stop`
  | stop {s} (idle : s.control = .idle) :
      Step build s .stop (.alive { s with stopRequested := true, control := .checkJoinable })
  | interrupt {s} (here : s.control = .checkJoinable) (joinable : s.worker ≠ .absent) :
      Step build s .interrupt (.alive { s with control := .join })
  | notJoinable {s} (here : s.control = .checkJoinable) (free : s.worker = .absent) :
      Step build s .silent (.alive { s with control := .checkRunning })
  | join {s cleared} (here : s.control = .join) (done : s.worker = .finished cleared) :
      Step build s .silent (.alive { s with worker := .absent, control := .checkRunning })
  | stillRunning {s} (here : s.control = .checkRunning) (running : s.running = true) :
      Step build s .silent (.alive { s with
        control := if build.renderer then .clearRunning else .stopConnection })
  | notRunning {s} (here : s.control = .checkRunning) (ended : s.running = false) :
      Step build s .silent (.alive { s with control := .clearSink })
  | stopConnection {s} (here : s.control = .stopConnection) :
      Step build s .liStop (.alive { s with link := .down, control := .clearRunning })
  | clearRunning {s} (here : s.control = .clearRunning) :
      Step build s .silent (.alive { s with running := false, control := .clearSink })
  | clearSink {s} (here : s.control = .clearSink) :
      Step build s .stopped (.alive { s with sink := false, control := .idle })
  -- The worker up to the result of `LiStartConnection`. The window is announced to the
  -- session's own sink, not through `emit`.
  | window {s handle} (here : s.worker = .window) :
      Step build s (.state (some ⟨.window, [], handle⟩)) (.alive { s with worker := .connect true })
  | headless {s} (here : s.worker = .window) :
      Step build s .silent (.alive { s with worker := .connect false })
  | liStart {s haveWindow} (here : s.worker = .connect haveWindow) :
      Step build s .liStart (.alive { s with worker := .setup haveWindow, link := .setup })
  | connected {s haveWindow} (here : s.worker = .setup haveWindow) :
      Step build s (.liStarted 0) (.alive { s with
        worker := if build.renderer then .loop haveWindow else .finished false,
        link := if s.link = .setup then .up else s.link })
  | failed {s haveWindow rc} (here : s.worker = .setup haveWindow) (code : rc ≠ 0) :
      Step build s (.liStarted rc) (.alive { s with worker := .failed rc, link := .down })
  | clearFailed {s rc} (here : s.worker = .failed rc) :
      Step build s .silent (.alive { s with running := false, worker := .reportFailure rc })
  | reportFailure {s rc} (here : s.worker = .reportFailure rc) :
      Step build s (.state (s.emit (Build.startFailed rc)))
        (.alive { s with worker := .finished true })
  -- The worker of the renderer build.
  | leave {s haveWindow} (here : s.worker = .loop haveWindow) (requested : s.stopRequested = true) :
      Step build s .silent (.alive { s with worker := .disconnect false })
  | close {s} (here : s.worker = .loop true) (continues : s.stopRequested = false) :
      Step build s .silent (.alive { s with worker := .disconnect true })
  | present {s haveWindow} (here : s.worker = .loop haveWindow)
      (continues : s.stopRequested = false) : Step build s .silent (.alive s)
  | presentStats {s haveWindow} (here : s.worker = .loop haveWindow)
      (continues : s.stopRequested = false) : Step build s .stats (.alive s)
  | liStop {s userClosed} (here : s.worker = .disconnect userClosed) :
      Step build s .liStop (.alive { s with worker := .clear userClosed, link := .down })
  | clear {s userClosed} (here : s.worker = .clear userClosed) :
      Step build s .silent (.alive { s with running := false, worker := .report userClosed })
  | reportClosed {s} (here : s.worker = .report true) :
      Step build s (.state (s.emit Build.windowClosed)) (.alive { s with worker := .finished true })
  | unreported {s} (here : s.worker = .report false) :
      Step build s .silent (.alive { s with worker := .finished true })
  -- moonlight's callbacks
  | stageStarting {s} (stage) (here : s.link = .setup) :
      Step build s (.state (s.emit (build.stageStarting stage))) (.alive s)
  | stageFailed {s} (stage errorCode) (here : s.link = .setup) :
      Step build s (.state (s.emit (build.stageFailed stage errorCode))) (.alive s)
  | connectionStarted {s} (here : s.link = .setup) :
      Step build s (.state (s.emit Build.connectionStarted)) (.alive { s with link := .up })
  | connectionTerminated {s} (errorCode) (here : s.link = .up ∨ s.link = .dropped) :
      Step build s (.state (s.emit (build.connectionTerminated errorCode)))
        (.alive { s with link := .dropped })

/-- Nothing runs in a process that was terminated. -/
inductive ProcessStep (build : Build) : Process → Action → Process → Prop where
  | alive {s action p} (step : Step build s action p) : ProcessStep build (.alive s) action p

end StreamEngine.Client
