import StreamEngine.Host.FileFaults
import StreamEngine.Host.SunshineBackend
import Mathlib.Data.Set.Insert

/-! Host mode as its callers see it: a catalog of games, and the certificates of the clients that may
stream them. The registry says what each method answers and what it changes. -/
namespace StreamEngine.Host
open ByteString Json PosixPath FileSystem Client Interaction

/-- `data_dir`, with the values of `XDG_DATA_HOME` and `HOME`. -/
def dataDir : Option Bytes → Option Bytes → Path
  | some xdg, _ => xdg ++ ascii "/arcade-stream-engine"
  | none, some home => home ++ ascii "/.local/share/arcade-stream-engine"
  | none, none => ascii "."

/-- The catalog of a backend that is not given another. -/
def defaultAppsPath (xdg home : Option Bytes) : Path :=
  dataDir xdg home ++ ascii "/sunshine_apps.json"

/-- The methods of `register_host_methods`, with the parameters that they read. -/
inductive HostMethod where
  | status
  | enable (params : Value)
  | syncApps (params : Value)
  | listApps
  | trustClient (params : Value)
  | pairAccept (params : Value)
  | deviceInfo

@[reducible]
def HostMethod.Result (_ : HostMethod) : Type := Except IpcError Value

def HostMethod.body (backend : Backend) : (m : HostMethod) → Method m.Result
  | .status => hostStatus backend
  | .enable params => hostEnable backend params
  | .syncApps params => hostSyncApps managedHost backend params
  | .listApps => hostListApps managedHost backend
  | .trustClient params => hostTrustClient managedHost backend params
  | .pairAccept params => hostPairAccept managedHost backend params
  | .deviceInfo => hostDeviceInfo managedHost backend

/-- The thread that serves the requests one after another. The child may exit at any time. -/
abbrev HostModeStep (backend : Backend) :=
  Step (effect (hostStatePath backend.appsPath)) (fun _ => Exits) (HostMethod.body backend)

/-! ### The registry -/

structure Registry where
  catalog : List HostApp
  trusted : Set Bytes
  serverCert : Bytes

/-- The registry that the files hold. -/
def registryOf (backend : Backend) (files : HostFiles) : Registry where
  catalog := ((files backend.appsPath).map parseAppsJson).getD []
  trusted := {cert |
    hasTrustedClient (textOf (files (hostStatePath backend.appsPath))) cert = true}
  serverCert := textOf (files (hostCertPath backend.appsPath))

namespace Registry
variable (backend : Backend) (h : Registry)

def trust (cert : Bytes) : Registry := { h with trusted := insert cert h.trusted }

def next : HostMethod → Registry
  | .syncApps params => { h with catalog := gamesFromParams backend.os params }
  | .trustClient params | .pairAccept params =>
    if clientCert params = [] then h else h.trust (clientCert params)
  | .status | .enable _ | .listApps | .deviceInfo => h

def statusReport (active managed : Bool) : Value :=
  ((((((Value.obj []).set (ascii "installed") (.bool backend.bundled)).set
    (ascii "running") (.bool active)).set (ascii "managed") (.bool managed)).set
    (ascii "configured") (.bool (h.catalog ≠ []))).set (ascii "gpuCapable") (.bool true)).set
    (ascii "appsCount") (count h.catalog.length)

def trustReport (already restartRequired : Bool) : Value :=
  (((Value.obj []).set (ascii "trusted") (.bool true)).set (ascii "alreadyTrusted")
    (.bool already)).set (ascii "restartRequired") (.bool restartRequired)

/-- What a method may answer. Whether the child is running is not for the registry to say, and it
may exit while hosting is switched on. -/
def Replies : HostMethod → Except IpcError Value → Prop
  | .status, r => ∃ active managed, r = .ok (h.statusReport backend active managed)
  | .enable params, r => (∃ running, r = .ok ((Value.obj []).set (ascii "running") (.bool running))) ∨
      params.getBool (ascii "on") false = true ∧ ∃ msg,
        r = .error (if backend.bundled then ascii "internal" else ascii "not_installed", msg)
  | .syncApps params, r => r = .ok (syncReport (diffApps h.catalog (gamesFromParams backend.os params))
      (gamesFromParams backend.os params).length)
  | .listApps, r => r = .ok ((Value.obj []).set (ascii "apps") (.arr (h.catalog.map appToJson)))
  | .trustClient params, r =>
    if clientCert params = [] then
      r = .error (ascii "bad_request", ascii "host.trustClient requires a non-empty certPem")
    else ∃ already restartRequired, r = .ok (trustReport already restartRequired) ∧
      (already = true ↔ clientCert params ∈ h.trusted) ∧ (already = true → restartRequired = false)
  | .pairAccept params, r =>
    if clientCert params = [] then
      ∃ msg, r = .error (ascii "unsupported", msg)
    else r = .ok ((Value.obj []).set (ascii "trusted") (.bool true))
  | .deviceInfo, r => ∃ report, r = .ok report ∧
      report.find (ascii "serverCertPem") = some (.str h.serverCert)

/-- A call that has returned. -/
def Step (outcome : Σ m : HostMethod, m.Result) (h' : Registry) : Prop :=
  h.Replies backend outcome.1 outcome.2 ∧ h' = h.next backend outcome.1

end Registry

end StreamEngine.Host
