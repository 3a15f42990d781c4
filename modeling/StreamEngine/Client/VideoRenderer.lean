import StreamEngine.Library.ByteString
import StreamEngine.Library.Threads

/-! The video renderer. moonlight's submit thread decodes, the worker presents, and one decoded
frame is handed across under a mutex. A call is one access to a member or one call of FFmpeg or
SDL, which may answer as it likes. What the pointers point to is part of the world. -/
namespace StreamEngine.Client
open ByteString

namespace Video
open Interaction Threads

abbrev Ptr := Nat

/-- What an `AVFrame` holds: its planes are `data` and `linesize`. -/
structure Picture where
  format : Int
  width : Int
  height : Int
  planes : List (Bytes × Int)

/-- `AV_PIX_FMT_NONE`, `AV_PIX_FMT_YUV420P` and `AV_PIX_FMT_NV12`. -/
def formatNone : Int := -1
def formatYuv420p : Int := 0
def formatNv12 : Int := 23

/-- `SDL_PIXELFORMAT_NV12` and `SDL_PIXELFORMAT_IYUV`. -/
def sdlNv12 : Int := 0x3231564E
def sdlIyuv : Int := 0x56555949

def Picture.blank : Picture := ⟨formatNone, 0, 0, []⟩

/-- What a texture was made for, and what was last put in it. -/
structure Image where
  format : Int
  width : Int
  height : Int
  planes : List (Bytes × Int)

/-- A codec context. `picks` says that its `get_format` is `pick_format`. -/
structure Context where
  width : Int
  height : Int
  device : Option Ptr
  picks : Bool
  opened : Bool

structure DecodeUnit where
  fullLength : Int
  bufferList : List Bytes

structure Packet where
  data : Bytes
  size : Int

/-- `AV_INPUT_BUFFER_PADDING_SIZE`. -/
def padding : Nat := 64

def packet (du : DecodeUnit) : Packet :=
  ⟨du.bufferList.flatten ++ List.replicate padding 0, du.fullLength⟩

/-- `pick_format`, for the format in `ctx->opaque` and the list up to `AV_PIX_FMT_NONE`. -/
def pickFormat (want : Option Int) (offered : List Int) : Int :=
  match offered.find? (fun f => f = want.getD (-1)) with
  | some f => f
  | none => offered.headD formatNone

inductive Side where
  | submit
  | worker
deriving DecidableEq

/-- Who may touch a frame: a thread that has it to itself, or who holds the mutex. -/
inductive Holder where
  | thread (side : Side)
  | slot
deriving DecidableEq

/-- How `avcodec_receive_frame` ends. -/
inductive Received where
  | again
  | endOfStream
  | failed
  | frame (picture : Picture)

/-- `DR_OK` and `DR_NEED_IDR`. -/
inductive DecodeStatus where
  | ok
  | needIdr
deriving DecidableEq

structure VideoStats where
  framesDecoded : UInt64
  framesPresented : UInt64
  decodeErrors : UInt64
  usingHardware : Bool
  width : Int
  height : Int

/-- The members that only the worker assigns, the textures, codec contexts and references to
devices that are allocated, and the images shown, oldest first. -/
structure Own where
  codecCtx : Option Ptr
  hwDeviceCtx : Option Ptr
  hwPixFmt : Int
  texture : Option Ptr
  texFmt : Int
  texW : Int
  texH : Int
  framesPresented : UInt64
  usingHardware : Bool
  width : Int
  height : Int
  textures : Ptr → Option Image
  contexts : Ptr → Option Context
  devices : Ptr → Bool
  shown : List Image

/-- The other members, the frames that are allocated and who may touch each, the pictures that the
decoder delivered and those handed over, oldest first, and whether `av_frame_alloc` has returned
null. -/
structure World extends Own where
  frameMu : Option Side
  pendingFrame : Option Ptr
  framesDecoded : UInt64
  decodeErrors : UInt64
  frames : Ptr → Option (Holder × Picture)
  delivered : List Picture
  handed : List Picture
  exhausted : Bool

/-- A renderer that was just constructed. -/
def World.fresh : World where
  codecCtx := none
  hwDeviceCtx := none
  hwPixFmt := -1
  frameMu := none
  pendingFrame := none
  texture := none
  texFmt := 0
  texW := 0
  texH := 0
  framesDecoded := 0
  framesPresented := 0
  decodeErrors := 0
  usingHardware := false
  width := 0
  height := 0
  frames := fun _ => none
  textures := fun _ => none
  contexts := fun _ => none
  devices := fun _ => false
  delivered := []
  handed := []
  shown := []
  exhausted := false

/-- The calls. Those that free or replace what a member points to also assign the member, as
`av_frame_free(&pendingFrame_)` does. -/
inductive Call where
  | lock
  | unlock
  | pendingFrame
  | storePending (p : Ptr)
  | clearPending
  | freePending
  | codecCtx
  | hwDeviceCtx
  | hwPixFmt
  | texture
  | setSize (width height : Int)
  | setHwPixFmt (format : Int)
  | setUsingHardware (hardware : Bool)
  | setTextureSpec (format width height : Int)
  | countDecoded
  | countPresented
  | countError
  | framesDecoded
  | framesPresented
  | decodeErrors
  | usingHardware
  | size
  | findDecoder
  | createDevice
  | unrefDevice
  | allocContext
  | configure (width height : Int)
  | attachDevice
  | pickFormat
  | openCodec
  | freeContext
  | allocPacket
  | sendPacket (context : Option Ptr) (packet : Packet)
  | allocFrame
  | receiveFrame (context : Option Ptr) (frame : Ptr)
  | readFrame (frame : Ptr)
  | transfer (cpu frame : Ptr)
  | refFrame (cpu frame : Ptr)
  | unrefFrame (frame : Ptr)
  | freeFrame (frame : Ptr)
  | nullFrame
  | destroyTexture
  | createTexture (format width height : Int)
  | updateTexture (planes : List (Bytes × Int))
  | render

abbrev Answer : Call → Type
  | .pendingFrame | .codecCtx | .hwDeviceCtx => Option Ptr
  | .hwPixFmt => Int
  | .texture => Option Ptr × Int × Int × Int
  | .framesDecoded | .framesPresented | .decodeErrors => UInt64
  | .usingHardware => Bool
  | .size => Int × Int
  | .findDecoder | .openCodec | .allocPacket | .sendPacket .. | .updateTexture _ => Bool
  | .createDevice | .allocContext | .attachDevice | .allocFrame | .createTexture .. => Option Ptr
  | .receiveFrame .. => Received
  | .readFrame _ => Picture
  | .transfer .. => Option Picture
  | .refFrame .. => Bool
  | _ => Unit

/-- `submit` goes round in its loop with the frame it receives into. -/
inductive Method where
  | setup (width height : Int)
  | submit (du : DecodeUnit)
  | receive (frame : Ptr)
  | present (renderer : Bool)
  | stats
  | cleanup

inductive Result where
  | code (rc : Int)
  | status (s : DecodeStatus)
  | stats (s : VideoStats)
  | void

abbrev Code := Program Call Answer

abbrev access (c : Call) : Code (Answer c) := request c

section Methods

/-- The context of the first attempt of `setup`, with a device. -/
def openHardware (kHwPixFmt width height : Int) : Code Bool := do
  if (← access .allocContext) = none then return false
  access (.configure width height)
  let _ ← access .attachDevice
  access (.setHwPixFmt kHwPixFmt)
  access .pickFormat
  if (← access .openCodec) = true then
    access (.setUsingHardware true)
    return true
  access .freeContext
  return false

/-- The first attempt of `setup`. -/
def setupHardware (kHwPixFmt width height : Int) : Code Bool := do
  if (← access .createDevice) = none then return false
  if (← openHardware kHwPixFmt width height) = true then return true
  access .unrefDevice
  access (.setHwPixFmt (-1))
  return false

/-- The second attempt of `setup`. -/
def setupSoftware (width height : Int) : Code Int := do
  if (← access .allocContext) = none then return -1
  access (.configure width height)
  if (← access .openCodec) = false then
    access .freeContext
    return -1
  access (.setUsingHardware false)
  return 0

def setup (kHwPixFmt width height : Int) : Code Int := do
  access (.setSize width height)
  if (← access .findDecoder) = false then return -1
  if (← setupHardware kHwPixFmt width height) = true then return 0
  setupSoftware width height

def submit (du : DecodeUnit) : Code (Ending Method Result) := do
  if (← access .codecCtx) = none then return .result (.status .needIdr)
  if (← access .allocPacket) = false then return .result (.status .needIdr)
  if (← access (.sendPacket (← access .codecCtx) (packet du))) = false then
    access .countError
    return .result (.status .needIdr)
  match ← access .allocFrame with
  | none =>
    -- `avcodec_receive_frame` is called with a null frame.
    access .nullFrame
    return .result (.status .ok)
  | some frame => return .again (.receive frame)

/-- The frame is handed across and counted. -/
def handOver (frame cpu : Ptr) : Code (Ending Method Result) := do
  access .lock
  onlyIf ((← access .pendingFrame) ≠ none) (access .freePending)
  access (.storePending cpu)
  access .unlock
  access .countDecoded
  access (.unrefFrame frame)
  return .again (.receive frame)

/-- One round of the loop of `submit`. -/
def receive (frame : Ptr) : Code (Ending Method Result) := do
  match ← access (.receiveFrame (← access .codecCtx) frame) with
  | .again | .endOfStream =>
    access (.freeFrame frame)
    return .result (.status .ok)
  | .failed =>
    access .countError
    access (.freeFrame frame)
    return .result (.status .ok)
  | .frame _ =>
    match ← access .allocFrame with
    | none =>
      access .nullFrame
      return .result (.status .ok)
    | some cpu =>
      let hwPixFmt ← access .hwPixFmt
      let picture ← access (.readFrame frame)
      if hwPixFmt ≥ 0 ∧ picture.format = hwPixFmt then
        if (← access (.transfer cpu frame)).isNone = true then
          access (.freeFrame cpu)
          access .countError
          access (.unrefFrame frame)
          return .again (.receive frame)
        else handOver frame cpu
      else
        -- Whether `av_frame_ref` succeeded is not looked at.
        let _ ← access (.refFrame cpu frame)
        handOver frame cpu

def ensureTexture (format width height : Int) : Code Bool := do
  let (texture, texFmt, texW, texH) ← access .texture
  if texture ≠ none ∧ texFmt = format ∧ texW = width ∧ texH = height then return true
  onlyIf (texture ≠ none) (access .destroyTexture)
  if (← access (.createTexture format width height)) = none then return false
  access (.setTextureSpec format width height)
  return true

/-- What a picture is shown as: the formats that `present` knows and the planes it uploads. -/
def Picture.image (picture : Picture) : Option Image :=
  if picture.format = formatNv12 then
    some ⟨sdlNv12, picture.width, picture.height, picture.planes.take 2⟩
  else if picture.format = formatYuv420p then
    some ⟨sdlIyuv, picture.width, picture.height, picture.planes.take 3⟩
  else none

/-- Whether the picture is in the texture. -/
def upload (picture : Picture) : Code Bool :=
  match picture.image with
  | none => return false
  | some image => do
    if (← ensureTexture image.format image.width image.height) = false then return false
    access (.updateTexture image.planes)

def showTexture : Code Unit := do
  access .render
  access .countPresented

def present (renderer : Bool) : Code Unit := do
  if renderer = false then return
  access .lock
  let pending ← access .pendingFrame
  access .clearPending
  access .unlock
  match pending with
  | none => return
  | some frame =>
    let picture ← access (.readFrame frame)
    onlyIf ((← upload picture) = true) showTexture
    access (.freeFrame frame)

def stats : Code VideoStats := do
  let framesDecoded ← access .framesDecoded
  let framesPresented ← access .framesPresented
  let decodeErrors ← access .decodeErrors
  let usingHardware ← access .usingHardware
  let (width, height) ← access .size
  return { framesDecoded, framesPresented, decodeErrors, usingHardware, width, height }

/-- `cleanup` after the slot. -/
def releaseOwn : Code Unit := do
  onlyIf ((← access .texture).1 ≠ none) (access .destroyTexture)
  onlyIf ((← access .codecCtx) ≠ none) (access .freeContext)
  onlyIf ((← access .hwDeviceCtx) ≠ none) (access .unrefDevice)
  access (.setHwPixFmt (-1))

def cleanup : Code Unit := do
  access .lock
  onlyIf ((← access .pendingFrame) ≠ none) (access .freePending)
  access .unlock
  releaseOwn

def body (kHwPixFmt : Int) : Method → Code (Ending Method Result)
  | .setup width height => do return .result (.code (← setup kHwPixFmt width height))
  | .submit du => submit du
  | .receive frame => receive frame
  | .present renderer => do
    present renderer
    return .result .void
  | .stats => do return .result (.stats (← stats))
  | .cleanup => do
    cleanup
    return .result .void

end Methods

section Effects
variable (w : World)

/-- The slot is empty, and the frame that was in it is what is given here. -/
def World.release (next : Ptr → Option (Holder × Picture)) : World :=
  { w with
    pendingFrame := none
    frames := fun p => if w.pendingFrame = some p then next p else w.frames p }

/-- The decoder puts a picture in the frame. -/
def World.deliver (side : Side) (p : Ptr) (picture : Picture) : World :=
  { w with
    frames := Function.update w.frames p (some (.thread side, picture))
    delivered := w.delivered ++ [picture] }

def World.setFrame (p : Ptr) (frame : Option (Holder × Picture)) : World :=
  { w with frames := Function.update w.frames p frame }

/-- The context that `codecCtx_` points to changes. -/
def World.setContext (change : Context → Context) : World :=
  { w with
    contexts := fun c => if w.codecCtx = some c then (w.contexts c).map change else w.contexts c }

def World.picture (p : Ptr) : Picture := ((w.frames p).map Prod.snd).getD .blank

/-- What a call does for a thread. A new object is not one that is allocated already. Freeing a
context also drops its reference to the device. -/
def effect (side : Side) : (c : Call) → World → Answer c → World → Prop
  | .lock, w, _, w' => w.frameMu = none ∧ w' = { w with frameMu := some side }
  | .unlock, w, _, w' => w' = { w with frameMu := none }
  | .pendingFrame, w, answer, w' => answer = w.pendingFrame ∧ w' = w
  | .storePending p, w, _, w' => w' =
    { w.setFrame p (some (.slot, w.picture p)) with
      pendingFrame := some p, handed := w.handed ++ [w.picture p] }
  | .clearPending, w, _, w' => w' = w.release fun p => some (.thread side, w.picture p)
  | .freePending, w, _, w' => w' = w.release fun _ => none
  | .codecCtx, w, answer, w' => answer = w.codecCtx ∧ w' = w
  | .hwDeviceCtx, w, answer, w' => answer = w.hwDeviceCtx ∧ w' = w
  | .hwPixFmt, w, answer, w' => answer = w.hwPixFmt ∧ w' = w
  | .texture, w, answer, w' => answer = (w.texture, w.texFmt, w.texW, w.texH) ∧ w' = w
  | .setSize width height, w, _, w' => w' = { w with width, height }
  | .setHwPixFmt format, w, _, w' => w' = { w with hwPixFmt := format }
  | .setUsingHardware hardware, w, _, w' => w' = { w with usingHardware := hardware }
  | .setTextureSpec format width height, w, _, w' =>
    w' = { w with texFmt := format, texW := width, texH := height }
  | .countDecoded, w, _, w' => w' = { w with framesDecoded := w.framesDecoded + 1 }
  | .countPresented, w, _, w' => w' = { w with framesPresented := w.framesPresented + 1 }
  | .countError, w, _, w' => w' = { w with decodeErrors := w.decodeErrors + 1 }
  | .framesDecoded, w, answer, w' => answer = w.framesDecoded ∧ w' = w
  | .framesPresented, w, answer, w' => answer = w.framesPresented ∧ w' = w
  | .decodeErrors, w, answer, w' => answer = w.decodeErrors ∧ w' = w
  | .usingHardware, w, answer, w' => answer = w.usingHardware ∧ w' = w
  | .size, w, answer, w' => answer = (w.width, w.height) ∧ w' = w
  | .findDecoder, w, _, w' | .allocPacket, w, _, w' | .sendPacket _ _, w, _, w' => w' = w
  | .createDevice, w, none, w' => w' = { w with hwDeviceCtx := none }
  | .createDevice, w, some d, w' => w.devices d = false ∧
    w' = { w with hwDeviceCtx := some d, devices := Function.update w.devices d true }
  | .unrefDevice, w, _, w' => ∃ d, w.hwDeviceCtx = some d ∧
    w' = { w with hwDeviceCtx := none, devices := Function.update w.devices d false }
  | .allocContext, w, none, w' => w' = { w with codecCtx := none }
  | .allocContext, w, some c, w' => w.contexts c = none ∧ w' = { w with
      codecCtx := some c
      contexts := Function.update w.contexts c (some ⟨0, 0, none, false, false⟩) }
  | .configure width height, w, _, w' => w' = w.setContext fun c => { c with width, height }
  | .attachDevice, w, none, w' => w' = w.setContext fun c => { c with device := none }
  | .attachDevice, w, some d, w' => w.devices d = false ∧
    w' = { w.setContext fun c => { c with device := some d } with
      devices := Function.update w.devices d true }
  | .pickFormat, w, _, w' => w' = w.setContext fun c => { c with picks := true }
  | .openCodec, w, answer, w' => w' = w.setContext fun c => { c with opened := answer }
  | .freeContext, w, _, w' => ∃ c context, w.codecCtx = some c ∧ w.contexts c = some context ∧
    w' = { w with
      codecCtx := none
      contexts := Function.update w.contexts c none
      devices := fun d => w.devices d && decide (context.device ≠ some d) }
  | .allocFrame, w, none, w' => w' = { w with exhausted := true }
  | .allocFrame, w, some p, w' =>
    w.frames p = none ∧ w' = w.setFrame p (some (.thread side, .blank))
  | .receiveFrame _ frame, w, .frame picture, w' => w' = w.deliver side frame picture
  | .receiveFrame _ frame, w, _, w' => w' = w.setFrame frame (some (.thread side, .blank))
  | .readFrame frame, w, answer, w' => answer = w.picture frame ∧ w' = w
  | .transfer cpu _, w, some picture, w' =>
    w' = w.deliver side cpu { picture with format := formatNv12 }
  | .transfer _ _, w, none, w' => w' = w
  | .refFrame cpu frame, w, true, w' => w' = w.setFrame cpu (some (.thread side, w.picture frame))
  | .refFrame _ _, w, false, w' => w' = w
  | .unrefFrame frame, w, _, w' => w' = w.setFrame frame (some (.thread side, .blank))
  | .freeFrame frame, w, _, w' => w' = w.setFrame frame none
  | .nullFrame, _, _, _ => False
  | .destroyTexture, w, _, w' => ∃ t, w.texture = some t ∧
    w' = { w with texture := none, textures := Function.update w.textures t none }
  | .createTexture _ _ _, w, none, w' => w' = { w with texture := none }
  | .createTexture format width height, w, some t, w' => w.textures t = none ∧ w' = { w with
      texture := some t
      textures := Function.update w.textures t (some ⟨format, width, height, []⟩) }
  | .updateTexture planes, w, true, w' => ∃ t, w.texture = some t ∧ w' = { w with
      textures := Function.update w.textures t
        ((w.textures t).map fun image => { image with planes }) }
  | .updateTexture _, w, false, w' => w' = w
  | .render, w, _, w' => ∃ t image, w.texture = some t ∧ w.textures t = some image ∧
    w' = { w with shown := w.shown ++ [image] }

end Effects

def Method.side : Method → Side
  | .submit _ | .receive _ => .submit
  | .setup _ _ | .present _ | .stats | .cleanup => .worker

/-- The methods that may run beside one of the other thread. -/
def Method.shared : Method → Prop
  | .submit _ | .receive _ | .present _ | .stats => True
  | .setup _ _ | .cleanup => False

/-- What moonlight and the worker promise: `setup` is for a renderer that is not set up, and a
decode unit is as long as it says. Nobody calls into the middle of `submit`. -/
def Method.ready : Method → World → Prop
  | .setup _ _, w => w.codecCtx = none ∧ w.hwDeviceCtx = none
  | .submit du, _ => du.fullLength = (du.bufferList.flatten.length : Int)
  | .receive _, _ => False
  | .present _, _ | .stats, _ | .cleanup, _ => True

/-- The renderer as its two threads use it. -/
def renderer (kHwPixFmt : Int) : Object Side World Call Answer Method Result where
  effect := effect
  body := body kHwPixFmt
  thread := Method.side
  overlaps m n := m.shared ∧ n.shared
  overlaps_symm _ _ both := And.symm both
  ready := Method.ready

end Video
end StreamEngine.Client
