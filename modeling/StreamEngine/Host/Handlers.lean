import StreamEngine.Client.StreamConfig
import StreamEngine.Host.Apps
import StreamEngine.Host.ClientTrust
import StreamEngine.Library.PosixPath

/-! The `host.*` methods that keep the catalog and the trusted clients. Files are read and
replaced through operations of an arbitrary monad, and so is the state of the managed child. -/
namespace StreamEngine.Host
open ByteString Binary64 Json PosixPath Client

/-- Reading a whole file, `none` if it does not open, replacing its content in place, and
`SunshineBackend::running`. -/
structure HostOps (m : Type → Type) where
  readText : Path → m (Option Bytes)
  writeText : Path → Bytes → m Bool
  running : m Bool

/-- What the backend resolves once, and the standard library's hash of strings. -/
structure Backend where
  os : HostOs
  appsPath : Path
  binary : Path
  hash : Bytes → BitVec 64

def hostStatePath (appsPath : Path) : Path :=
  if appsPath = [] then [] else join (parent appsPath) (ascii "sunshine_state.json")

def hostCertPath (appsPath : Path) : Path :=
  if appsPath = [] then [] else join (parent appsPath) (ascii "cert.pem")

/-- An id that is the same for the same certificate. -/
def stableUuid (hash : Bytes → BitVec 64) (seed : Bytes) : Bytes :=
  hex64 (hash seed) ++ hex64 (hash (ascii "ase-trust:" ++ seed))

variable {m : Type → Type} [Monad m] (ops : HostOps m) (backend : Backend)

/-- Empty for a file that cannot be read. -/
def readTextFile (path : Path) : m Bytes := do
  if path = [] then return []
  else return (← ops.readText path).getD []

def writeTextFile (path : Path) (data : Bytes) : m Bool := do
  if path = [] then return false
  else ops.writeText path data

def readApps (path : Path) : m (List HostApp) := do
  match ← ops.readText path with
  | none => return []
  | some text => return parseAppsJson text

def writeApps (path : Path) (apps : List HostApp) : m Bool :=
  ops.writeText path (serializeAppsJson apps)

def count (n : Nat) : Value := .num (ofInt n)

def syncReport (d : SyncDiff) (total : Nat) : Value :=
  ((((Value.obj []).set (ascii "added") (count d.added)).set (ascii "removed")
    (count d.removed)).set (ascii "updated") (count d.updated)).set (ascii "total") (count total)

def hostSyncApps (params : Value) : m (Except IpcError Value) := do
  let prev ← readApps ops backend.appsPath
  let next := gamesFromParams backend.os params
  let d := diffApps prev next
  if (← writeApps ops backend.appsPath next) = false then
    return .error (ascii "internal", ascii "could not write apps catalog at " ++ backend.appsPath)
  else return .ok (syncReport d next.length)

def appToJson (a : HostApp) : Value :=
  (((Value.obj []).set (ascii "name") (.str a.name)).set (ascii "cmd") (.str a.cmd)).set
    (ascii "imagePath") (.str a.imagePath)

def hostListApps : m (Except IpcError Value) := do
  let apps ← readApps ops backend.appsPath
  return .ok ((Value.obj []).set (ascii "apps") (.arr (apps.map appToJson)))

/-- The certificate that `params` ask to trust, and the name they give it. -/
def clientCert (params : Value) : Bytes := params.getStr (ascii "certPem") []

def clientName (params : Value) : Bytes :=
  params.getStr (ascii "name") (ascii "ArcadeLauncher client")

def hostTrustClient (params : Value) : m (Except IpcError Value) := do
  let certPem := clientCert params
  if certPem = [] then
    return .error (ascii "bad_request", ascii "host.trustClient requires a non-empty certPem")
  else
    let statePath := hostStatePath backend.appsPath
    if statePath = [] then
      return .error (ascii "internal", ascii "no Sunshine state path (apps path unset)")
    else
      let current ← readTextFile ops statePath
      let answer (already restartRequired : Bool) : Value :=
        (((Value.obj []).set (ascii "trusted") (.bool true)).set (ascii "alreadyTrusted")
          (.bool already)).set (ascii "restartRequired") (.bool restartRequired)
      if hasTrustedClient current certPem then return .ok (answer true false)
      else
        let next := addTrustedClient current (clientName params) certPem
          (stableUuid backend.hash certPem)
        if (← writeTextFile ops statePath next) = false then
          return .error (ascii "internal", ascii "could not write Sunshine state at " ++ statePath)
        else return .ok (answer false (← ops.running))

/-- The older name of the method. It does not ask whether there is a state path. -/
def hostPairAccept (params : Value) : m (Except IpcError Value) := do
  let certPem := clientCert params
  if certPem = [] then
    -- The dash of the message is three bytes of UTF-8.
    return .error (ascii "unsupported", ascii "host.pairAccept now authorizes by cert " ++
      [0xe2, 0x80, 0x94] ++ ascii " pass \x7bname, certPem\x7d (PIN pairing is unused)")
  else
    let statePath := hostStatePath backend.appsPath
    let current ← readTextFile ops statePath
    let answer := (Value.obj []).set (ascii "trusted") (.bool true)
    if hasTrustedClient current certPem then return .ok answer
    else
      let next := addTrustedClient current (clientName params) certPem
        (stableUuid backend.hash certPem)
      if (← writeTextFile ops statePath next) = false then
        return .error (ascii "internal", ascii "could not write Sunshine state at " ++ statePath)
      else return .ok answer

def hostDeviceInfo : m (Except IpcError Value) := do
  let serverCertPem ← readTextFile ops (hostCertPath backend.appsPath)
  return .ok ((((((Value.obj []).set (ascii "deviceId") (.str [])).set (ascii "lanAddr")
    (.str [])).set (ascii "meshAddr") (.str [])).set (ascii "certFingerprint") (.str [])).set
    (ascii "serverCertPem") (.str serverCertPem))

end StreamEngine.Host
