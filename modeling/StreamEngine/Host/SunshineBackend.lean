import StreamEngine.Host.Handlers
import StreamEngine.Library.FileSystem
import StreamEngine.Library.Interaction
import Mathlib.Logic.Function.Basic

/-! The managed Sunshine: a child process that the backend forks, asks after and signals. The
backend's methods and the handlers above them are programs over single system calls, between which
the child may exit. What Sunshine itself does is not modelled, but that it reads the state file once,
when it starts. -/
namespace StreamEngine.Host
open ByteString Json PosixPath FileSystem Client Interaction

/-! ### How the child is launched -/

/-- The two operations of `std::filesystem::path` that differ between the platforms. -/
structure PathStyle where
  parent : Path → Path
  join : Path → Path → Path

def posixPaths : PathStyle := ⟨PosixPath.parent, PosixPath.join⟩

/-- A file in the directory of the catalog. -/
def besideApps (paths : PathStyle) (appsPath name : Path) : Path :=
  if appsPath = [] then [] else paths.join (paths.parent appsPath) name

def buildLaunchArgs (paths : PathStyle) (appsPath : Path) : List Bytes :=
  if appsPath = [] then []
  else
    [ascii "file_apps=" ++ appsPath,
      ascii "log_path=" ++ paths.join (paths.parent appsPath) (ascii "sunshine.log"),
      ascii "min_log_level=1",
      ascii "file_state=" ++ besideApps paths appsPath (ascii "sunshine_state.json"),
      ascii "cert=" ++ besideApps paths appsPath (ascii "cert.pem"),
      ascii "pkey=" ++ besideApps paths appsPath (ascii "pkey.pem")]

/-- The arguments of the child, its own name first. -/
def launchArgv (paths : PathStyle) (binary appsPath : Path) : List Bytes :=
  binary :: buildLaunchArgs paths appsPath

/-- What the forked child becomes. An empty directory leaves the current one. -/
structure Image where
  workDir : Path
  path : Path
  argv : List Bytes
deriving DecidableEq

def launchImage (binary appsPath : Path) : Image :=
  ⟨PosixPath.parent binary, binary, launchArgv posixPaths binary appsPath⟩

/-! ### The methods -/

inductive Signal where
  | sigterm
  | sigkill
deriving DecidableEq

/-- What a method does in one step: an access to `pid_`, a system call, or a whole file. -/
inductive Access where
  | readPid
  | writePid (pid : Int)
  | fork (image : Image)
  | waitpid (pid : Int) (nohang : Bool)
  | kill (pid : Int) (signal : Signal)
  | usleep (microseconds : Nat)
  | readText (path : Path)
  | writeText (path : Path) (data : Bytes)

@[reducible]
def Access.Answer : Access → Type
  | .readPid | .fork _ | .waitpid _ _ => Int
  | .writePid _ | .kill _ _ | .usleep _ => Unit
  | .readText _ => Option Bytes
  | .writeText _ _ => Bool

/-- A method, or a handler that calls methods. -/
abbrev Method := Program Access Access.Answer

def access (a : Access) : Method a.Answer := request a

namespace SunshineBackend

def running : Method Bool := do
  let pid ← access .readPid
  if pid ≤ 0 then return false
  else
    let r ← access (.waitpid pid true)
    if r = 0 then return true
    else
      access (.writePid 0)
      return false

def hostActive : Method Bool := running

/-- An error is the message of a call that returns false. -/
def start (binary appsPath : Path) : Method (Except Bytes Unit) := do
  if ← running then return .ok ()
  else if binary = [] then
    return .error (ascii "no engine-managed Sunshine found (set ARCADE_SUNSHINE to the fetched " ++
      ascii "sidecar, or ship sunshine beside the engine)")
  else
    let pid ← access (.fork (launchImage binary appsPath))
    if pid < 0 then return .error (ascii "fork failed")
    else
      access (.writePid pid)
      return .ok ()

/-- The loop that waits for the child, with the iterations that are left. -/
def awaitExit : Nat → Method Unit
  | 0 => return
  | n + 1 => do
    if ← running then
      access (.usleep (100 * 1000))
      awaitExit n
    else return

/-- It always returns true. -/
def stop : Method (Except Bytes Unit) := do
  if ← running then
    access (.kill (← access .readPid) .sigterm)
    awaitExit 50
    if 0 < (← access .readPid) then
      access (.kill (← access .readPid) .sigkill)
      let _ ← access (.waitpid (← access .readPid) false)
      access (.writePid 0)
      return .ok ()
    else return .ok ()
  else return .ok ()

end SunshineBackend

/-! ### The handlers -/

open SunshineBackend

def Backend.bundled (backend : Backend) : Bool := backend.binary ≠ []

/-- The operations of the handlers, with the backend's own `running`. -/
def managedHost : HostOps Method :=
  ⟨fun path => access (.readText path), fun path data => access (.writeText path data), running⟩

variable (backend : Backend)

def hostStatus : Method (Except IpcError Value) := do
  let apps ← readApps managedHost backend.appsPath
  let managed ← running
  let active ← hostActive
  return .ok (((((((Value.obj []).set (ascii "installed") (.bool backend.bundled)).set
    (ascii "running") (.bool active)).set (ascii "managed") (.bool managed)).set
    (ascii "configured") (.bool (apps ≠ []))).set (ascii "gpuCapable") (.bool true)).set
    (ascii "appsCount") (count apps.length))

def switchHosting (on : Bool) : Method (Except Bytes Unit) :=
  if on then start backend.binary backend.appsPath else stop

def hostEnable (params : Value) : Method (Except IpcError Value) := do
  match ← switchHosting backend (params.getBool (ascii "on") false) with
  | .error msg =>
    return .error (if backend.bundled then ascii "internal" else ascii "not_installed", msg)
  | .ok () => return .ok ((Value.obj []).set (ascii "running") (.bool (← hostActive)))

/-! ### The process and its child -/

/-- A child that has not been reaped, with the state file it read if it is alive. -/
inductive Child where
  | alive (state : Option Bytes)
  | exited
deriving DecidableEq

/-- The object, the children of the process, its files and what children were waited for, as they
stood then, newest first. -/
structure World where
  pid : Int
  children : Int → Option Child
  files : Files Path UInt8
  waited : List (Int × Option Child)

def World.fresh (files : Files Path UInt8) : World := ⟨0, fun _ => none, files, []⟩

namespace World
variable (w : World)

def setChild (pid : Int) (child : Option Child) : World :=
  { w with children := Function.update w.children pid child }

def noteWait (pid : Int) : World := { w with waited := (pid, w.children pid) :: w.waited }

/-- `waitpid` for one child. One that is alive is not waited for under `WNOHANG`, and blocks
otherwise. -/
def waits (pid : Int) (nohang : Bool) (answer : Int) (w' : World) : Prop :=
  match w.children pid with
  | some (.alive _) => nohang = true ∧ answer = 0 ∧ w' = w.noteWait pid
  | some .exited => answer = pid ∧ w' = (w.noteWait pid).setChild pid none
  | none => answer = -1 ∧ w' = w.noteWait pid

end World

/-- What an access does. A signal ends a child, if it does, later on. A pid that is not positive
names other processes, and waiting for those may do anything. A new child has a pid that no child
has which is still to be reaped. -/
def effect (statePath : Path) : (a : Access) → World → a.Answer → World → Prop
  | .readPid, w, answer, w' => answer = w.pid ∧ w' = w
  | .writePid pid, w, _, w' => w' = { w with pid := pid }
  | .fork _, w, answer, w' => answer = -1 ∧ w' = w ∨ 0 < answer ∧ w.children answer = none ∧
      w' = w.setChild answer (some (.alive (w.files statePath)))
  | .waitpid pid nohang, w, answer, w' => 0 < pid → w.waits pid nohang answer w'
  | .kill _ _, w, _, w' | .usleep _, w, _, w' => w' = w
  | .readText path, w, answer, w' => answer = w.files path ∧ w' = w
  | .writeText path data, w, answer, w' =>
    answer = true ∧ w' = { w with files := Function.update w.files path (some data) }

/-- A child exits. -/
def Exits (w w' : World) : Prop :=
  ∃ pid state, w.children pid = some (.alive state) ∧ w' = w.setChild pid (some .exited)

/-! ### The object -/

inductive BackendCall where
  | start
  | stop
  | running
  | hostActive
deriving DecidableEq

@[reducible]
def BackendCall.Result : BackendCall → Type
  | .start | .stop => Except Bytes Unit
  | .running | .hostActive => Bool

def BackendCall.body (binary appsPath : Path) : (m : BackendCall) → Method m.Result
  | .start => SunshineBackend.start binary appsPath
  | .stop => SunshineBackend.stop
  | .running => SunshineBackend.running
  | .hostActive => SunshineBackend.hostActive

/-- The thread that calls the methods, one after another, and the children. -/
abbrev BackendStep (statePath binary appsPath : Path) :=
  Step (effect statePath) (fun _ => Exits) (BackendCall.body binary appsPath)

end StreamEngine.Host
