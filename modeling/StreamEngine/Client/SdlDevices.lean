import StreamEngine.Library.DenseIndex
import StreamEngine.Client.StreamWindow

/-! What SDL documents of game controllers, and a small SDL that does so. Device indices number
the attached controllers. An instance id is given to one controller only, and a controller that
was opened can be used until it is closed as often, attached or not. -/
namespace StreamEngine.Client
open DenseIndex

/-- The instance ids of the attached controllers by device index, the next id, and how often the
controller of an id was opened without being closed. -/
structure Devices where
  attached : List Nat
  issued : Nat
  references : Nat → Nat

namespace Devices

def attach (d : Devices) : Devices :=
  { d with attached := d.attached ++ [d.issued], issued := d.issued + 1 }

def detach (k : Nat) (d : Devices) : Devices := { d with attached := d.attached.eraseIdx k }

def opened (id : Nat) (d : Devices) : Devices :=
  { d with references := Function.update d.references id (d.references id + 1) }

def closed (id : Nat) (d : Devices) : Devices :=
  { d with references := Function.update d.references id (d.references id - 1) }

end Devices

variable {World Pad Joystick : Type}

/-- The controller of the id is open, and the handle is for it. -/
def Sdl.Refers (sdl : Sdl World Pad Joystick) (view : World → Devices) (w : World) (pad : Pad)
    (id : Nat) : Prop :=
  0 < (view w).references id ∧ sdl.gameControllerGetJoystick pad w = sdl.joystickFromInstanceID id w

/-- Handles are good for as long as the controller is open. -/
def Sdl.Keeps (sdl : Sdl World Pad Joystick) (view : World → Devices) (w w' : World) : Prop :=
  ∀ pad id, sdl.Refers view w pad id → 0 < (view w').references id → sdl.Refers view w' pad id

/-- What SDL documents, with the changes that attach a controller and detach the one of a device
index. -/
structure Documented (sdl : Sdl World Pad Joystick) where
  view : World → Devices
  attach : World → World
  detach : Nat → World → World
  attach_view : ∀ w, view (attach w) = (view w).attach
  attach_keeps : ∀ w, sdl.Keeps view w (attach w)
  detach_view : ∀ k w, view (detach k w) = (view w).detach k
  detach_keeps : ∀ k w, sdl.Keeps view w (detach k w)
  /-- Opening an attached controller succeeds. -/
  open_pad : ∀ (k id : Nat) (w : World), (view w).attached[k]? = some id →
    ∃ pad, (sdl.gameControllerOpen k w).1 = some pad ∧
      sdl.Refers view (sdl.gameControllerOpen k w).2 pad id
  open_view : ∀ (k id : Nat) (w : World), (view w).attached[k]? = some id →
    view (sdl.gameControllerOpen k w).2 = (view w).opened id
  open_keeps : ∀ (k id : Nat) (w : World), (view w).attached[k]? = some id →
    sdl.Keeps view w (sdl.gameControllerOpen k w).2
  close_view : ∀ pad id w, sdl.Refers view w pad id →
    view (sdl.gameControllerClose pad w) = (view w).closed id
  close_keeps : ∀ pad id w, sdl.Refers view w pad id →
    sdl.Keeps view w (sdl.gameControllerClose pad w)
  joystick_open : ∀ (id : Nat) (w : World), 0 < (view w).references id →
    ∃ joystick, sdl.joystickFromInstanceID id w = some joystick
  joystick_id : ∀ (id id' : Nat) (w : World) (joystick : Joystick),
    sdl.joystickFromInstanceID id w = some joystick →
      sdl.joystickFromInstanceID id' w = some joystick → id = id'

namespace Documented
variable {sdl : Sdl World Pad Joystick} (doc : Documented sdl)

/-- The event of a change, delivered right after it. It has the device index of a new controller,
and the instance id of one that is gone. -/
def poll (change : Change) (w : World) : SdlEvent × World :=
  match change with
  | .attach => (.controllerDeviceAdded (doc.view w).attached.length, doc.attach w)
  | .detach k =>
    match (doc.view w).attached[k]? with
    | some id => (.controllerDeviceRemoved id, doc.detach k w)
    | none => (.other, w)

/-- A call of `pump` during which these changes happen, each event being handled before the next
change. -/
def handling (changes : List Change) : PumpCall World := ⟨changes.map doc.poll, id⟩

/-- Controllers are told apart by the joysticks of their handles. -/
theorem refers_iff {w : World} {pad : Pad} {id : Nat} (refers : sdl.Refers doc.view w pad id)
    (id' : Nat) :
    sdl.gameControllerGetJoystick pad w = sdl.joystickFromInstanceID id' w ↔ id = id' := by
  obtain ⟨joystick, found⟩ := doc.joystick_open id w refers.1
  rw [refers.2]
  constructor
  · intro same
    exact doc.joystick_id id id' w joystick found (same ▸ found)
  · rintro rfl
    rfl

end Documented

/-! ### A small SDL -/

/-- Handles and joysticks are instance ids, and a button is held on every controller. -/
def tableSdl : Sdl Devices Nat Nat where
  buttons := [.a, .b]
  gameControllerOpen idx w :=
    match if 0 ≤ idx then w.attached[idx.toNat]? else none with
    | some id => (some id, w.opened id)
    | none => (none, w)
  gameControllerClose := Devices.closed
  gameControllerGetJoystick pad _ := some pad
  joystickFromInstanceID id w :=
    if 0 ≤ id ∧ 0 < w.references id.toNat then some id.toNat else none
  gameControllerGetButton _ button _ := button matches .a
  gameControllerGetAxis _ _ _ := 0

def noDevices : Devices := ⟨[], 0, fun _ => 0⟩

/-- The flags as moonlight numbers them. -/
def limelightFlags : ButtonFlags where
  a := 0x1000
  b := 0x2000
  x := 0x4000
  y := 0x8000
  up := 0x1
  down := 0x2
  left := 0x4
  right := 0x8
  lb := 0x100
  rb := 0x200
  play := 0x10
  back := 0x20
  lsClk := 0x40
  rsClk := 0x80
  special := 0x400

theorem tableSdl_refers {w : Devices} {pad id : Nat} :
    tableSdl.Refers (fun w => w) w pad id ↔ 0 < w.references id ∧ pad = id := by
  refine and_congr_right fun used => ?_
  simp [tableSdl, used]

theorem tableSdl_keeps (w w' : Devices) : tableSdl.Keeps (fun w => w) w w' :=
  fun _ _ refers used => tableSdl_refers.mpr ⟨used, (tableSdl_refers.mp refers).2⟩

theorem tableSdl_open {w : Devices} {k id : Nat} (found : w.attached[k]? = some id) :
    tableSdl.gameControllerOpen k w = (some id, w.opened id) := by
  simp [tableSdl, found]

def tableDocumented : Documented tableSdl where
  view w := w
  attach := Devices.attach
  detach := Devices.detach
  attach_view _ := rfl
  attach_keeps _ := tableSdl_keeps _ _
  detach_view _ _ := rfl
  detach_keeps _ _ := tableSdl_keeps _ _
  open_pad k id w found := by
    rw [tableSdl_open found]
    exact ⟨id, rfl, tableSdl_refers.mpr ⟨by simp [Devices.opened], rfl⟩⟩
  open_view k id w found := by rw [tableSdl_open found]
  open_keeps _ _ _ _ := tableSdl_keeps _ _
  close_view pad id w refers := by rw [(tableSdl_refers.mp refers).2]; rfl
  close_keeps _ _ _ _ := tableSdl_keeps _ _
  joystick_open id w used := ⟨id, by simp [tableSdl, used]⟩
  joystick_id id id' w joystick found found' := by
    simp only [tableSdl, Option.ite_none_right_eq_some, Option.some.injEq, Int.toNat_natCast] at found found'
    exact found.2.trans found'.2.symm

end StreamEngine.Client
