import StreamEngine.Client.Engine
import StreamEngine.Client.Session

/-! The `client.*` methods of the full build. A handler returns its value or the code and
message of its error. -/
namespace StreamEngine.Client
open ByteString Binary64 Decimal Json Net Engine

def kDefaultHttpPort : Int := 47989

def kDefaultHttpsPort : Int := 47984

/-- Number before the first dot of a version. -/
def majorVersion (appversion : Bytes) : Int := if appversion = [] then 0 else atoi appversion

/-- `SURROUNDAUDIOINFO_FROM_AUDIO_CONFIGURATION` of a stereo stream. -/
def kStereoSurroundInfo : Int := 3 * 65536 + 2

/-- A positive 32-bit key id from four bytes, the first being the most significant. -/
def makeRiKeyId (four : Bytes) : Int :=
  match four with
  | a :: b :: c :: d :: _ =>
    ((a.toNat * 16777216 + b.toNat * 65536 + c.toNat * 256 + d.toNat) % 2 ^ 31 : Nat)
  | _ => 0

/-- A usable reply of the host. -/
def statusOk (info : Bytes) : Bool :=
  info != [] && xmlAttr info (ascii "root") (ascii "status_code") == ascii "200"

variable {X509 : Type} [DecidableEq X509] (env : Environment X509)

/-- The pinned client of a recorded host, left in the world as its client object. -/
def connectPairedHost (host : Bytes) : Engine X509 (Except IpcError Unit) := do
  match ← findHost files host with
  | none =>
    return .error (ascii "not_paired",
      ascii "host '" ++ host ++ ascii "' is not paired; run client.pair first")
  | some paired =>
    match ← loadOrCreateIdentity env with
    | none =>
      return .error (ascii "internal", ascii "could not load the persistent client identity")
    | some (identity, uniqueId) =>
      newClient ⟨host, kDefaultHttpPort, kDefaultHttpsPort, identity, uniqueId, []⟩
      setPinnedServerCert paired.serverCertPem
      let infoHttp ← getHttp env (ascii "serverinfo") []
      if statusOk infoHttp = false then
        return .error (ascii "host_unreachable", ascii "no serverinfo from " ++ host ++
          ascii " (is the host awake and GameStream/Sunshine running?)")
      else
        let httpsPort := atoi (xmlText infoHttp (ascii "HttpsPort"))
        if httpsPort > 0 then setHttpsPort httpsPort
        return .ok ()

def clientHosts : Engine X509 (Except IpcError Value) := do
  let entry (h : PairedHost) : Value :=
    ((((Value.obj []).set (ascii "name") (.str h.name)).set (ascii "address")
      (.str h.address)).set (ascii "paired") (.bool true)).set (ascii "state") (.str (ascii "idle"))
  return .ok ((Value.obj []).set (ascii "hosts") (.arr ((← listHosts files).map entry)))

def clientApps (params : Value) : Engine X509 (Except IpcError Value) := do
  let host := params.getStr (ascii "host") []
  if host = [] then
    return .error (badParams (ascii "client.apps requires a non-empty string 'host'"))
  else
    match ← connectPairedHost env host with
    | .error e => return .error e
    | .ok () =>
      match ← fetchAppList (getHttps env (ascii "applist") []) with
      | .error err =>
        return .error (ascii "host_unreachable",
          ascii "could not fetch the app list from " ++ host ++ ascii " (" ++ err ++ ascii ")")
      | .ok apps =>
        let entry (a : AppInfo) : Value :=
          (((Value.obj []).set (ascii "id") (.num (ofInt a.id))).set (ascii "name")
            (.str a.title)).set (ascii "hdrSupported") (.bool a.hdrSupported)
        return .ok ((Value.obj []).set (ascii "apps") (.arr (apps.map entry)))

/-- The answer of `client.pair` to each ending of the handshake. Recording the host is
best-effort. -/
def pairAnswer (host name : Bytes) (res : PairResult) : Engine X509 (Except IpcError Value) := do
  match res.state with
  | .paired =>
    let _ ← upsert ⟨host, name, res.serverCertPem⟩
    return .ok (((Value.obj []).set (ascii "paired") (.bool true)).set (ascii "serverCert")
      (.str (toHex res.serverCertPem)))
  | .pinWrong => return .error (ascii "pin_wrong", ascii "the PIN entered did not match")
  | .alreadyInProgress =>
    return .error (ascii "already_pairing",
      ascii "the host is already pairing with another client")
  | .failed => return .error (ascii "pairing_failed", ascii "pairing handshake failed")

def clientPair (params : Value) : Engine X509 (Except IpcError Value) := do
  let host := params.getStr (ascii "host") []
  let pin := params.getStr (ascii "pin") []
  if host = [] ∨ pin = [] then
    return .error (badParams (ascii "client.pair requires non-empty string 'host' and 'pin'"))
  else
    match ← loadOrCreateIdentity env with
    | none =>
      return .error (ascii "pairing_failed",
        ascii "could not load or generate the persistent client identity")
    | some (identity, uniqueId) =>
      newClient ⟨host, kDefaultHttpPort, kDefaultHttpsPort, identity, uniqueId, []⟩
      let info ← getHttp env (ascii "serverinfo") []
      if statusOk info = false then
        return .error (ascii "host_unreachable", ascii "no serverinfo response from " ++ host ++
          ascii " (is GameStream/Sunshine running?)")
      else
        let gen := majorVersion (xmlText info (ascii "appversion"))
        let httpsPort := atoi (xmlText info (ascii "HttpsPort"))
        if httpsPort > 0 then setHttpsPort httpsPort
        let res ← pairWithClient env identity pin gen
        pairAnswer host (params.getStr (ascii "name") []) res

def clientIdentity : Engine X509 (Except IpcError Value) := do
  match ← loadOrCreateIdentity env with
  | none =>
    return .error (ascii "internal",
      ascii "could not load or generate the persistent client identity")
  | some (identity, uniqueId) =>
    return .ok (((Value.obj []).set (ascii "clientCertPem") (.str identity.certPem)).set
      (ascii "uniqueId") (.str uniqueId))

def clientTrustHost (params : Value) : Engine X509 (Except IpcError Value) := do
  let host := params.getStr (ascii "host") []
  let serverCertPem := params.getStr (ascii "serverCertPem") []
  if host = [] ∨ serverCertPem = [] then
    return .error (badParams
      (ascii "client.trustHost requires non-empty 'host' and 'serverCertPem'"))
  else if (← upsert ⟨host, params.getStr (ascii "name") [], serverCertPem⟩) = false then
    return .error (ascii "internal", ascii "could not persist the pinned host cert")
  else return .ok ((Value.obj []).set (ascii "trusted") (.bool true))

/-! ### client.start -/

/-- The appid of a reference: a positive leading number, or a title of the app list. -/
def resolveStartApp {m : Type → Type} [Monad m] (fetch : m (Except Bytes (List AppInfo)))
    (host appRef : Bytes) : m (Except IpcError Int) := do
  let appId := atoi appRef
  if appId ≤ 0 then
    match ← fetch with
    | .error err =>
      return .error (ascii "host_unreachable",
        ascii "could not fetch the app list to resolve '" ++ appRef ++ ascii "' (" ++ err ++
          ascii ")")
    | .ok apps =>
      let appId := resolveAppId apps appRef
      if appId ≤ 0 then
        return .error (ascii "app_not_found",
          ascii "no app named '" ++ appRef ++ ascii "' on host '" ++ host ++ ascii "'")
      else return .ok appId
  else return .ok appId

/-- `StreamSession::start`. Assigning to a joinable worker terminates the process. -/
def sessionStart (info : StartInfo) : Engine X509 (Except Bytes Unit) := do
  let ended := env.workerEnded (← get).log
  record (.sessionAsked ended)
  let session := (← get).session
  match startError (session.running && !ended) info with
  | some err => return .error err
  | none =>
    if session.joinable then hang
    else
      modify fun w => { w with session := ⟨true, true⟩ }
      return .ok ()

def launchConfig (settings : StreamSettings) (appId : Int) (gfeVersion riKey : Bytes)
    (riKeyId : Int) : LaunchConfig where
  appId := appId
  width := settings.width
  height := settings.height
  fps := settings.fps
  sops := true
  localAudio := false
  hdr := settings.hdr
  gamepadMask := 1
  persistControllers := false
  isGfe := gfeVersion != []
  riKeyHex := toHex riKey
  riKeyId := riKeyId
  surroundAudioInfo := kStereoSurroundInfo
  extraQuery := env.launchQuery

/-- The handler from the launch or resume request on. -/
def launchSession (lc : LaunchConfig) (currentGame : Int) (startInfo : Bytes → StartInfo) :
    Engine X509 (Except IpcError Value) := do
  match ← launchOrResume (getHttps env) lc currentGame with
  | .error err => return .error (ascii "internal", err)
  | .ok rtspSessionUrl =>
    match ← sessionStart env (startInfo rtspSessionUrl) with
    | .error err => return .error (ascii "engine_busy", err)
    | .ok () => return .ok ((Value.obj []).set (ascii "started") (.bool true))

/-- The handler from the resolved appid on, which first negotiates the remote-input key. -/
def launchAndStart (params : Value) (settings : StreamSettings) (host info : Bytes)
    (appId : Int) : Engine X509 (Except IpcError Value) := do
  let appVersion := xmlText info (ascii "appversion")
  let gfeVersion := xmlText info (ascii "GfeVersion")
  let codecSupport := atoi (xmlText info (ascii "ServerCodecModeSupport"))
  let currentGame := atoi (xmlText info (ascii "currentgame"))
  let riKey ← randomBytes env 16
  let riKeyId := makeRiKeyId (← randomBytes env 4)
  if riKey.length ≠ 16 then
    return .error (ascii "internal", ascii "could not generate the remote-input key")
  else
    launchSession env (launchConfig env settings appId gfeVersion riKey riKeyId) currentGame
      fun rtspSessionUrl =>
        { host, serverAppVersion := appVersion, gfeVersion, rtspSessionUrl,
          serverCodecModeSupport := codecSupport, settings, riKey, riKeyId,
          embedWindow := params.getBool (ascii "embedWindow") false }

def clientStart (params : Value) : Engine X509 (Except IpcError Value) := do
  match validateStreamSettings ((params.find (ascii "settings")).getD .null) with
  | .error e => return .error e
  | .ok settings =>
    let host := params.getStr (ascii "host") []
    let appRef := params.getStr (ascii "app") []
    if host = [] then
      return .error (badParams (ascii "client.start requires a non-empty string 'host'"))
    else if appRef = [] then
      return .error (badParams
        (ascii "client.start requires 'app' (a GameStream appid or app name)"))
    else
      match ← connectPairedHost env host with
      | .error e => return .error e
      | .ok () =>
        let info ← getHttps env (ascii "serverinfo") []
        if statusOk info = false then
          return .error (ascii "host_unreachable",
            ascii "serverinfo over HTTPS failed — the pairing may be stale; re-pair the host")
        else
          match ← resolveStartApp (fetchAppList (getHttps env (ascii "applist") [])) host appRef with
          | .error e => return .error e
          | .ok appId => launchAndStart env params settings host info appId

/-- `StreamSession::stop` joins the worker and clears the session. -/
def clientStop : Engine X509 (Except IpcError Value) := do
  modify fun w => { w with session := ⟨false, false⟩ }
  return .ok ((Value.obj []).set (ascii "stopped") (.bool true))

inductive Method where
  | hosts
  | apps
  | pair
  | identity
  | trustHost
  | start
  | stop
deriving DecidableEq

def handle : Method → Value → Engine X509 (Except IpcError Value)
  | .hosts, _ => clientHosts
  | .apps, params => clientApps env params
  | .pair, params => clientPair env params
  | .identity, _ => clientIdentity env
  | .trustHost, params => clientTrustHost params
  | .start, params => clientStart env params
  | .stop, _ => clientStop

/-- Requests are handled one after the other. -/
def handleAll : List (Method × Value) → Engine X509 Unit
  | [] => pure ()
  | (method, params) :: requests => do
    let _ ← handle env method params
    handleAll requests

end StreamEngine.Client
