import StreamEngine.Library.Decimal
import StreamEngine.Net.Xml

/-! The launch and resume requests. Both hand the host the remote-input key. -/
namespace StreamEngine.Net
open ByteString Decimal

structure LaunchConfig where
  appId : Int
  width : Int
  height : Int
  fps : Int
  sops : Bool
  localAudio : Bool
  hdr : Bool
  gamepadMask : Int
  persistControllers : Bool
  isGfe : Bool
  riKeyHex : Bytes
  riKeyId : Int
  surroundAudioInfo : Int
  extraQuery : Bytes

def kHdrQuery : Bytes :=
  ascii "&hdrMode=1&clientHdrCapVersion=0&clientHdrCapSupportedFlagsInUint32=0" ++
    ascii "&clientHdrCapMetaDataId=NV_STATIC_METADATA_TYPE_1&clientHdrCapDisplayData=0x0x0x0x0x0x0x0x0x0x0"

def flag (b : Bool) : Bytes := if b then ascii "1" else ascii "0"

def buildLaunchArgs (cfg : LaunchConfig) : Bytes :=
  let modeFps := if cfg.fps > 60 ∧ cfg.isGfe then 0 else cfg.fps
  ascii "appid=" ++ printInt cfg.appId ++ ascii "&mode=" ++ printInt cfg.width ++ ascii "x" ++
    printInt cfg.height ++ ascii "x" ++ printInt modeFps ++ ascii "&additionalStates=1&sops=" ++
    flag cfg.sops ++ ascii "&rikey=" ++ cfg.riKeyHex ++ ascii "&rikeyid=" ++ printInt cfg.riKeyId ++
    (if cfg.hdr then kHdrQuery else []) ++ ascii "&localAudioPlayMode=" ++ flag cfg.localAudio ++
    ascii "&surroundAudioInfo=" ++ printInt cfg.surroundAudioInfo ++
    ascii "&remoteControllersBitmap=" ++ printInt cfg.gamepadMask ++ ascii "&gcmap=" ++
    printInt cfg.gamepadMask ++ ascii "&gcpersist=" ++ flag cfg.persistControllers ++
    cfg.extraQuery

def buildResumeArgs (cfg : LaunchConfig) : Bytes :=
  ascii "rikey=" ++ cfg.riKeyHex ++ ascii "&rikeyid=" ++ printInt cfg.riKeyId ++
    ascii "&surroundAudioInfo=" ++ printInt cfg.surroundAudioInfo ++ cfg.extraQuery

/-- The query of a verb. -/
def launchArgs (verb : Bytes) (cfg : LaunchConfig) : Bytes :=
  if verb = ascii "resume" then buildResumeArgs cfg else buildLaunchArgs cfg

/-- `run_launch`: the session URL, or the reason there is none. -/
def runLaunch {m : Type → Type} [Monad m] (transport : Bytes → Bytes → m Bytes) (verb : Bytes)
    (cfg : LaunchConfig) : m (Except Bytes Bytes) := do
  let resp ← transport verb (launchArgs verb cfg)
  if resp = [] ∨ xmlAttr resp (ascii "root") (ascii "status_code") ≠ ascii "200" then
    return .error (ascii "host rejected " ++ verb ++ ascii " (no status-200 response)")
  else
    let url := xmlText resp (ascii "sessionUrl0")
    if url = [] then return .error (verb ++ ascii " succeeded but returned no sessionUrl0")
    else return .ok url

/-- A host that runs an application is asked to resume it. -/
def launchVerb (currentGame : Int) : Bytes :=
  if currentGame ≠ 0 then ascii "resume" else ascii "launch"

def launchOrResume {m : Type → Type} [Monad m] (transport : Bytes → Bytes → m Bytes)
    (cfg : LaunchConfig) (currentGame : Int) : m (Except Bytes Bytes) :=
  runLaunch transport (launchVerb currentGame) cfg

end StreamEngine.Net
