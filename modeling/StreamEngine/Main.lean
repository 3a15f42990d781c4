import StreamEngine.Ipc.Connect
import StreamEngine.Ipc.SocketProofs

/-! The process from its command line to its exit status: `main`, with `host_main` and `stream_main`
under it. The handlers of both modes are tables over the same state. -/
namespace StreamEngine
open ByteString Ipc

namespace Process

/-- `--ipc <token>`, empty when there is none. -/
def ipcTokenFromArgs : List Bytes → Bytes
  | flag :: value :: rest => if flag = ascii "--ipc" then value else ipcTokenFromArgs (value :: rest)
  | _ => []

/-- The process and its surroundings. The socket tells what a connection brings, once there is one. -/
structure World (σ : Type) where
  kernel : Posix.Kernel
  descriptors : Posix.Descriptors
  socket : Socket σ
  stdout : Bytes

variable {σ : Type}

def onDescriptors {α : Type} (x : StateM Posix.Descriptors α) : StateM (World σ) α := do
  let w ← get
  let (a, descriptors) := x.run w.descriptors
  set { w with descriptors := descriptors }
  return a

def onSocket {α : Type} (x : StateM (Socket σ) α) : StateM (World σ) α := do
  let w ← get
  let (a, socket) := x.run w.socket
  set { w with socket := socket }
  return a

def print (text : Bytes) : StateM (World σ) Unit :=
  modify fun w => { w with stdout := w.stdout ++ text }

/-- What the modes return once a connection has ended, `none` while they serve it. -/
def status : Exit → Option Int
  | .handshakeFailed _ => some 70
  | .ran (.error _) => some 70
  | .ran (.ok ()) => some 0
  | .serving => none

section Modes
variable (engineVersion : Bytes) (fuel : Nat)

/-- `host_main` and `stream_main` differ in their handlers. The transport closes its descriptor when
they return. -/
def modeMain (table : Table σ) (argv : List Bytes) : StateM (World σ) (Option Int) := do
  let token := ipcTokenFromArgs argv
  if token = [] then return some 64
  let w ← get
  match ← onDescriptors (Posix.connectLocal w.kernel token) with
  | .error _ => return some 69
  | .ok fd =>
    match status (← onSocket (serve Socket.transport (Socket.handlers table) engineVersion fuel)) with
    | none => return none
    | some code =>
      onDescriptors (Posix.close fd)
      return some code

/-- The handlers that each mode registers. -/
structure Modes (σ : Type) where
  host : Table σ
  stream : Table σ

variable (modes : Modes σ)

def hostMain (argv : List Bytes) : StateM (World σ) (Option Int) :=
  modeMain engineVersion fuel modes.host argv

def streamMain (argv : List Bytes) : StateM (World σ) (Option Int) :=
  modeMain engineVersion fuel modes.stream argv

def main : List Bytes → StateM (World σ) (Option Int)
  | _ :: cmd :: rest => do
    if cmd = ascii "--version" ∨ cmd = ascii "version" then
      print (engineVersion ++ [10])
      return some 0
    else if cmd = ascii "--help" ∨ cmd = ascii "-h" ∨ cmd = ascii "help" then return some 0
    else if cmd = ascii "host" then hostMain engineVersion fuel modes (cmd :: rest)
    else if cmd = ascii "stream" then streamMain engineVersion fuel modes (cmd :: rest)
    else return some 2
  | _ => return some 2

end Modes
end Process
end StreamEngine
