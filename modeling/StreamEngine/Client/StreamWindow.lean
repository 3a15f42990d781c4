import Mathlib.Data.Fin.Basic
import Mathlib.Data.List.FinRange
import Mathlib.Logic.Function.Basic

/-! The event pump of the stream window, and the capture of game controllers in a build with
moonlight. SDL is a parameter, with its own state: what it delivers may change that state first,
and nothing is assumed of what its calls return. -/
namespace StreamEngine.Client

/-- `SDL_GameControllerButton`. The buttons that the source does not name are numbered. -/
inductive ControllerButton where
  | a
  | b
  | x
  | y
  | back
  | guide
  | start
  | leftStick
  | rightStick
  | leftShoulder
  | rightShoulder
  | dpadUp
  | dpadDown
  | dpadLeft
  | dpadRight
  | other (number : Nat)

/-- The button flags of moonlight. -/
structure ButtonFlags where
  a : BitVec 32
  b : BitVec 32
  x : BitVec 32
  y : BitVec 32
  up : BitVec 32
  down : BitVec 32
  left : BitVec 32
  right : BitVec 32
  lb : BitVec 32
  rb : BitVec 32
  play : BitVec 32
  back : BitVec 32
  lsClk : BitVec 32
  rsClk : BitVec 32
  special : BitVec 32

def sdlButtonFlag (flags : ButtonFlags) : ControllerButton → BitVec 32
  | .a => flags.a
  | .b => flags.b
  | .x => flags.x
  | .y => flags.y
  | .dpadUp => flags.up
  | .dpadDown => flags.down
  | .dpadLeft => flags.left
  | .dpadRight => flags.right
  | .leftShoulder => flags.lb
  | .rightShoulder => flags.rb
  | .start => flags.play
  | .back => flags.back
  | .leftStick => flags.lsClk
  | .rightStick => flags.rsClk
  | .guide => flags.special
  | .other _ => 0

inductive ControllerAxis where
  | leftX
  | leftY
  | rightX
  | rightY
  | triggerLeft
  | triggerRight

/-- The calls of the pump, with the state of SDL last. `buttons` are those below
`SDL_CONTROLLER_BUTTON_MAX`, in order. -/
structure Sdl (World Pad Joystick : Type) where
  buttons : List ControllerButton
  gameControllerOpen : Int → World → Option Pad × World
  gameControllerClose : Pad → World → World
  gameControllerGetJoystick : Pad → World → Option Joystick
  joystickFromInstanceID : Int → World → Option Joystick
  gameControllerGetButton : Pad → ControllerButton → World → Bool
  gameControllerGetAxis : Pad → ControllerAxis → World → BitVec 16

inductive SdlEvent where
  | quit
  | controllerDeviceAdded (which : Int)
  | controllerDeviceRemoved (which : Int)
  | other

/-- The arguments of `LiSendMultiControllerEvent`. -/
structure MultiControllerEvent where
  controllerNumber : BitVec 16
  activeGamepadMask : BitVec 16
  buttonFlags : BitVec 32
  leftTrigger : BitVec 8
  rightTrigger : BitVec 8
  leftStickX : BitVec 16
  leftStickY : BitVec 16
  rightStickX : BitVec 16
  rightStickY : BitVec 16
deriving DecidableEq

/-- The window, the state of SDL, and what was sent to the host, oldest first. -/
structure StreamWindow (World Pad : Type) where
  pads : Fin 4 → Option Pad
  quit : Bool
  world : World
  sends : List MultiControllerEvent

/-- One `pump`: what each `SDL_PollEvent` does to SDL and delivers, and what the last one does,
which delivers nothing. -/
structure PumpCall (World : Type) where
  polls : List (World → SdlEvent × World)
  empty : World → World

variable {World Pad Joystick : Type}

/-- A window before its first `pump`. -/
def StreamWindow.opened (world : World) : StreamWindow World Pad := ⟨fun _ => none, false, world, []⟩

def activeMask (pads : Fin 4 → Option Pad) : BitVec 16 :=
  (List.finRange 4).foldl (fun mask i => if (pads i).isSome then mask ||| 1#16 <<< i.val else mask) 0

namespace Sdl
variable (sdl : Sdl World Pad Joystick) (flags : ButtonFlags)

/-- A trigger as an unsigned byte. The shift of a signed number rounds down. -/
def trigger (gc : Pad) (axis : ControllerAxis) (w : World) : BitVec 8 :=
  BitVec.ofInt 8 ((sdl.gameControllerGetAxis gc axis w).toInt >>> (7 : Nat))

/-- A vertical axis, turned over without leaving the range of `short`. -/
def flipped (gc : Pad) (axis : ControllerAxis) (w : World) : BitVec 16 :=
  BitVec.ofInt 16 (-(sdl.gameControllerGetAxis gc axis w).toInt - 1)

theorem trigger_toNat {gc : Pad} {axis : ControllerAxis} {w : World}
    (pulled : 0 ≤ (sdl.gameControllerGetAxis gc axis w).toInt) :
    (sdl.trigger gc axis w).toNat = (sdl.gameControllerGetAxis gc axis w).toInt / 128 := by
  have high := BitVec.toInt_lt (x := sdl.gameControllerGetAxis gc axis w)
  rw [trigger, Int.shiftRight_eq_div_pow, BitVec.toNat_ofInt]
  omega

theorem flipped_toInt (gc : Pad) (axis : ControllerAxis) (w : World) :
    (sdl.flipped gc axis w).toInt = -(sdl.gameControllerGetAxis gc axis w).toInt - 1 := by
  have low := BitVec.le_toInt (sdl.gameControllerGetAxis gc axis w)
  have high := BitVec.toInt_lt (x := sdl.gameControllerGetAxis gc axis w)
  rw [flipped, BitVec.toInt_ofInt]
  apply Int.bmod_eq_of_le <;> omega

def heldButtons (gc : Pad) (w : World) : BitVec 32 :=
  sdl.buttons.foldl (fun held button =>
    if sdl.gameControllerGetButton gc button w then held ||| sdlButtonFlag flags button else held) 0

def controllerEvent (i : Fin 4) (mask : BitVec 16) (gc : Pad) (w : World) : MultiControllerEvent where
  controllerNumber := BitVec.ofNat 16 i
  activeGamepadMask := mask
  buttonFlags := sdl.heldButtons flags gc w
  leftTrigger := sdl.trigger gc .triggerLeft w
  rightTrigger := sdl.trigger gc .triggerRight w
  leftStickX := sdl.gameControllerGetAxis gc .leftX w
  leftStickY := sdl.flipped gc .leftY w
  rightStickX := sdl.gameControllerGetAxis gc .rightX w
  rightStickY := sdl.flipped gc .rightY w

/-- An event for each slot that holds a controller. -/
def controllerEvents (s : StreamWindow World Pad) : List MultiControllerEvent :=
  (List.finRange 4).filterMap fun i =>
    (s.pads i).map fun gc => sdl.controllerEvent flags i (activeMask s.pads) gc s.world

def pollAndSendGamepads (s : StreamWindow World Pad) : StreamWindow World Pad :=
  { s with sends := s.sends ++ sdl.controllerEvents flags s }

variable [DecidableEq Joystick]

/-- One turn of the loop over the slots when a device is removed. -/
def closeRemoved (which : Int) (s : StreamWindow World Pad) (i : Fin 4) : StreamWindow World Pad :=
  match s.pads i with
  | none => s
  | some gc =>
    if sdl.gameControllerGetJoystick gc s.world = sdl.joystickFromInstanceID which s.world then
      { s with pads := Function.update s.pads i none, world := sdl.gameControllerClose gc s.world }
    else s

def handle (s : StreamWindow World Pad) : SdlEvent → StreamWindow World Pad
  | .quit => { s with quit := true }
  | .controllerDeviceAdded idx =>
    if range : 0 ≤ idx ∧ idx < 4 then
      let slot : Fin 4 := ⟨idx.toNat, by omega⟩
      if (s.pads slot).isNone then
        let opened := sdl.gameControllerOpen idx s.world
        { s with pads := Function.update s.pads slot opened.1, world := opened.2 }
      else s
    else s
  | .controllerDeviceRemoved which => (List.finRange 4).foldl (sdl.closeRemoved which) s
  | .other => s

/-- One turn of the event loop. -/
def turn (s : StreamWindow World Pad) (poll : World → SdlEvent × World) : StreamWindow World Pad :=
  sdl.handle { s with world := (poll s.world).2 } (poll s.world).1

/-- The event loop, up to the poll that delivers nothing. -/
def events (s : StreamWindow World Pad) (call : PumpCall World) : StreamWindow World Pad :=
  let s := call.polls.foldl sdl.turn s
  { s with world := call.empty s.world }

/-- The window after the call, and whether to go on. -/
def pump (s : StreamWindow World Pad) (call : PumpCall World) : StreamWindow World Pad × Bool :=
  let s := sdl.pollAndSendGamepads flags (sdl.events s call)
  (s, !s.quit)

/-- The window after several calls. -/
def pumps (s : StreamWindow World Pad) (calls : List (PumpCall World)) : StreamWindow World Pad :=
  calls.foldl (fun s call => (sdl.pump flags s call).1) s

end Sdl
end StreamEngine.Client
