import StreamEngine.Ipc.NamedPipe
import StreamEngine.Library.Decimal

/-! `connect_local`: the engine connects to what the launcher has created under a token, a Unix
socket or a named pipe. -/
namespace StreamEngine.Ipc
open ByteString Decimal

namespace Posix

/-- What the process finds and what the kernel answers; errors are as `strerror` spells them. -/
structure Kernel where
  xdgRuntimeDir : Option Bytes
  socket : Except Bytes Nat
  connect : Except Bytes Unit

/-- The descriptors that are open, and the addresses they were connected to. -/
structure Descriptors where
  opened : List Nat
  dialled : List (Nat × Bytes)

/-- The size of `sun_path`. -/
def sunPathSize : Nat := 108

def socketPath (kernel : Kernel) (token : Bytes) : Bytes :=
  let runtime := kernel.xdgRuntimeDir.getD []
  let dir := if runtime = [] then ascii "/tmp" else runtime
  dir ++ ascii "/arcade-stream-engine-" ++ token ++ ascii ".sock"

/-- What `strncpy` leaves in the zeroed `sun_path`, read as a C string. -/
def sunPath (path : Bytes) : Bytes := (path.take (sunPathSize - 1)).takeWhile (· ≠ 0)

def openSocket (fd : Nat) : StateM Descriptors Unit :=
  modify fun d => { d with opened := d.opened ++ [fd] }

def close (fd : Nat) : StateM Descriptors Unit :=
  modify fun d => { d with opened := d.opened.erase fd }

def dial (fd : Nat) (address : Bytes) : StateM Descriptors Unit :=
  modify fun d => { d with dialled := d.dialled ++ [(fd, address)] }

def connectLocal (kernel : Kernel) (token : Bytes) : StateM Descriptors (Except Bytes Nat) := do
  let path := socketPath kernel token
  match kernel.socket with
  | .error reason => return .error (ascii "socket() failed: " ++ reason)
  | .ok fd =>
    openSocket fd
    if path.length ≥ sunPathSize then
      close fd
      return .error (ascii "socket path too long: " ++ path)
    match kernel.connect with
    | .error reason =>
      close fd
      return .error (ascii "failed to connect to " ++ path ++ ascii ": " ++ reason)
    | .ok () =>
      dial fd (sunPath path)
      return .ok fd

end Posix

namespace Windows

def errorPipeBusy : Nat := 231

/-- How the launcher's pipe meets the attempts: what `CreateFileA` answers, and `WaitNamedPipeA`
where it is asked. A call that fails leaves its error to `GetLastError`. -/
structure PipeServer where
  create : Nat → Except Nat Nat
  wait : Nat → Except Nat Unit

def pipeName (token : Bytes) : Bytes := ascii "\\\\.\\pipe\\arcade-stream-engine-" ++ token

/-- The loop over the attempts that are left. The error is what `GetLastError` says then. -/
def attempts (server : PipeServer) : Nat → Nat → Nat → Except Nat Nat
  | 0, _, lastError => .error lastError
  | left + 1, attempt, _ =>
    match server.create attempt with
    | .ok handle => .ok handle
    | .error reason =>
      if reason ≠ errorPipeBusy then .error reason
      else
        match server.wait attempt with
        | .error reason => .error reason
        | .ok () => attempts server left (attempt + 1) errorPipeBusy

def connectLocal (server : PipeServer) (token : Bytes) : Except Bytes Nat :=
  match attempts server 50 0 0 with
  | .ok handle => .ok handle
  | .error reason => .error (ascii "failed to connect to pipe " ++ pipeName token ++
      ascii " (GetLastError=" ++ decimal reason ++ ascii ")")

end Windows

end StreamEngine.Ipc
