import StreamEngine.Json.Value

/-! Validation of the settings object of a stream request. -/
namespace StreamEngine.Client
open ByteString Binary64 Json

structure StreamSettings where
  width : Int
  height : Int
  fps : Int
  bitrateKbps : Int
  displayMode : Bytes
  hdr : Bool
deriving DecidableEq

def StreamSettings.default : StreamSettings :=
  ⟨1920, 1080, 60, 20000, ascii "fullscreen", false⟩

/-- The error code and message of a failed request. -/
abbrev IpcError := Bytes × Bytes

def badParams (msg : Bytes) : IpcError := (ascii "bad_params", msg)

def isKnownMode (m : Bytes) : Bool :=
  m == ascii "windowed" || m == ascii "fullscreen" || m == ascii "borderless"

/-- A number converted to `int`, with a default that is an integer itself. The double
made of the default is exact, so it converts back to it. -/
def getInt (v : Value) (k : Bytes) (default : Int) : Int :=
  (v.getNum k (ofInt default)).toSigned 32

def validateStreamSettings (settings : Value) : Except IpcError StreamSettings :=
  if settings.isNull then .ok .default
  else if settings.isObject = false then .error (badParams (ascii "settings must be an object"))
  else
    let d := StreamSettings.default
    let s : StreamSettings :=
      { width := getInt settings (ascii "width") d.width
        height := getInt settings (ascii "height") d.height
        fps := getInt settings (ascii "fps") d.fps
        bitrateKbps := getInt settings (ascii "bitrateKbps") d.bitrateKbps
        displayMode := settings.getStr (ascii "displayMode") d.displayMode
        hdr := settings.getBool (ascii "hdr") d.hdr }
    if s.width < 256 ∨ s.width > 7680 then
      .error (badParams (ascii "width out of range [256,7680]"))
    else if s.height < 144 ∨ s.height > 4320 then
      .error (badParams (ascii "height out of range [144,4320]"))
    else if s.fps < 10 ∨ s.fps > 240 then .error (badParams (ascii "fps out of range [10,240]"))
    else if s.bitrateKbps < 500 ∨ s.bitrateKbps > 500000 then
      .error (badParams (ascii "bitrateKbps out of range [500,500000]"))
    else if isKnownMode s.displayMode = false then
      .error (badParams (ascii "displayMode must be windowed|fullscreen|borderless"))
    else .ok s

/-- Every complaint about the settings is about the parameters. -/
theorem validateStreamSettings_error {settings : Value} {e : IpcError}
    (rejected : validateStreamSettings settings = .error e) : e.1 = ascii "bad_params" := by
  simp only [validateStreamSettings] at rejected
  repeat' split at rejected
  all_goals
    cases rejected
    try rfl

end StreamEngine.Client
