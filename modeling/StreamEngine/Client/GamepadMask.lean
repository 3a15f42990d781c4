import StreamEngine.Library.History
import StreamEngine.Client.SdlDevices

/-! What the host was last told of the active controllers, against the slots, over whole runs of
the pump. A controller event is sent for each slot that holds one, so nothing is sent when none
does. -/
namespace StreamEngine.Client
open DenseIndex

variable {World Pad Joystick : Type}

/-- The mask that the host was told last, zero before anything was sent. -/
def StreamWindow.hostMask (s : StreamWindow World Pad) : BitVec 16 :=
  match s.sends.getLast? with
  | some sent => sent.activeGamepadMask
  | none => 0

/-- The mask of the host is the set of the slots that hold a controller. -/
def HostAgrees (s : StreamWindow World Pad) : Prop :=
  ∀ i : Nat, s.hostMask.getLsbD i = true ↔ ∃ slot : Fin 4, slot.val = i ∧ (s.pads slot).isSome

/-- Some slot holds a controller. -/
def StreamWindow.Held (s : StreamWindow World Pad) : Prop := ∃ slot, (s.pads slot).isSome

namespace Sdl
variable (sdl : Sdl World Pad Joystick) [DecidableEq Joystick]

/-- A device is removed, and it is the one that each slot still holds when the loop gets there. -/
def ClosesAll (s : StreamWindow World Pad) (poll : World → SdlEvent × World) : Prop :=
  ∃ which, (poll s.world).1 = .controllerDeviceRemoved which ∧
    ∀ (i : Fin 4) (gc : Pad), s.pads i = some gc →
      let reached := ((List.finRange 4).take i).foldl (sdl.closeRemoved which)
        { s with world := (poll s.world).2 }
      sdl.gameControllerGetJoystick gc reached.world =
        sdl.joystickFromInstanceID which reached.world

/-- A device with an index below four is added, and SDL opens it. -/
def Opens (s : StreamWindow World Pad) (poll : World → SdlEvent × World) : Prop :=
  ∃ idx, (poll s.world).1 = .controllerDeviceAdded idx ∧ 0 ≤ idx ∧ idx < 4 ∧
    (sdl.gameControllerOpen idx (poll s.world).2).1.isSome

/-- A call that begins with a slot in use, and in which all that the slots hold is closed without
a controller being opened after that. -/
def DropsLast (s : StreamWindow World Pad) (call : PumpCall World) : Prop :=
  s.Held ∧ History.Lost sdl.turn StreamWindow.Held sdl.ClosesAll sdl.Opens s call.polls

end Sdl

/-! ### The mask of the slots -/

theorem foldl_mask (pads : Fin 4 → Option Pad) (visited : List (Fin 4)) (mask : BitVec 16) (i : Nat) :
    (visited.foldl (fun mask slot =>
      if (pads slot).isSome then mask ||| 1#16 <<< slot.val else mask) mask).getLsbD i = true ↔
    mask.getLsbD i = true ∨ ∃ slot ∈ visited, slot.val = i ∧ (pads slot).isSome := by
  induction visited generalizing mask with
  | nil => simp
  | cons slot visited ih =>
    rw [List.foldl_cons, ih, List.exists_mem_cons_iff, ← or_assoc]
    apply or_congr_left
    split
    · rename_i held
      have small : slot.val < 16 := by omega
      rw [BitVec.getLsbD_or, ← BitVec.twoPow_eq, BitVec.getLsbD_twoPow]
      simp [small, held]
    · rename_i free
      simp [free]

theorem activeMask_getLsbD (pads : Fin 4 → Option Pad) (i : Nat) :
    (activeMask pads).getLsbD i = true ↔ ∃ slot : Fin 4, slot.val = i ∧ (pads slot).isSome := by
  rw [activeMask, foldl_mask]
  simp

variable {s : StreamWindow World Pad}

theorem hostAgrees_iff : HostAgrees s ↔ s.hostMask = activeMask s.pads := by
  unfold HostAgrees
  simp only [← activeMask_getLsbD]
  constructor
  · intro same
    apply BitVec.eq_of_getLsbD_eq
    intro i _
    exact Bool.eq_iff_iff.mpr (same i)
  · intro same i
    rw [same]

theorem activeMask_eq_zero_iff : activeMask s.pads = 0 ↔ ¬ s.Held := by
  constructor
  · rintro zero ⟨slot, held⟩
    have bit := (activeMask_getLsbD s.pads slot.val).mpr ⟨slot, rfl, held⟩
    rw [zero] at bit
    simp at bit
  · intro free
    apply BitVec.eq_of_getLsbD_eq
    intro i _
    rw [Bool.eq_iff_iff, activeMask_getLsbD]
    simp only [BitVec.ofNat_eq_ofNat, BitVec.getLsbD_zero, Bool.false_eq_true, iff_false]
    rintro ⟨slot, -, held⟩
    exact free ⟨slot, held⟩

/-! ### The sends of one call -/

section Sends
variable (sdl : Sdl World Pad Joystick) (flags : ButtonFlags)

theorem mem_controllerEvents_mask {sent : MultiControllerEvent}
    (member : sent ∈ sdl.controllerEvents flags s) : sent.activeGamepadMask = activeMask s.pads := by
  obtain ⟨i, -, here⟩ := List.mem_filterMap.mp member
  obtain ⟨gc, -, rfl⟩ := Option.map_eq_some_iff.mp here
  rfl

theorem controllerEvents_eq_nil_iff : sdl.controllerEvents flags s = [] ↔ ¬ s.Held := by
  rw [Sdl.controllerEvents, List.filterMap_eq_nil_iff]
  simp [StreamWindow.Held]

/-- A round tells the host the mask of the slots, unless no slot holds a controller. -/
theorem pollAndSendGamepads_hostMask : (sdl.pollAndSendGamepads flags s).hostMask =
    (sdl.controllerEvents flags s).getLast?.elim s.hostMask fun _ => activeMask s.pads := by
  unfold StreamWindow.hostMask Sdl.pollAndSendGamepads
  rw [List.getLast?_append]
  cases last : (sdl.controllerEvents flags s).getLast? with
  | none => rfl
  | some sent => exact mem_controllerEvents_mask sdl flags (List.mem_of_getLast? last)

theorem pollAndSendGamepads_free (free : ¬ s.Held) :
    (sdl.pollAndSendGamepads flags s).hostMask = s.hostMask := by
  rw [pollAndSendGamepads_hostMask, (controllerEvents_eq_nil_iff sdl flags).mpr free]
  rfl

theorem pollAndSendGamepads_held (held : s.Held) :
    (sdl.pollAndSendGamepads flags s).hostMask = activeMask s.pads := by
  have some : sdl.controllerEvents flags s ≠ [] :=
    fun none => (controllerEvents_eq_nil_iff sdl flags).mp none held
  rw [pollAndSendGamepads_hostMask, List.getLast?_eq_some_getLast some]
  rfl

end Sends

/-! ### The events of one call -/

section Events
variable {sdl : Sdl World Pad Joystick} [DecidableEq Joystick]

theorem closeRemoved_other {which : Int} {i j : Fin 4} (other : j ≠ i) :
    (sdl.closeRemoved which s i).pads j = s.pads j := by
  unfold Sdl.closeRemoved
  split
  · rfl
  · split
    · exact Function.update_of_ne other ..
    · rfl

theorem closeRemoved_isSome {which : Int} {i : Fin 4} :
    ((sdl.closeRemoved which s i).pads i).isSome ↔ ∃ gc, s.pads i = some gc ∧
      sdl.gameControllerGetJoystick gc s.world ≠ sdl.joystickFromInstanceID which s.world := by
  unfold Sdl.closeRemoved
  cases held : s.pads i with
  | none => simp [held]
  | some gc =>
    by_cases same :
        sdl.gameControllerGetJoystick gc s.world = sdl.joystickFromInstanceID which s.world
    · simp [same]
    · simp [same, held]

theorem foldl_closeRemoved_other {which : Int} {visited : List (Fin 4)} {j : Fin 4}
    (other : j ∉ visited) : (visited.foldl (sdl.closeRemoved which) s).pads j = s.pads j := by
  induction visited generalizing s with
  | nil => rfl
  | cons i visited ih =>
    rw [List.mem_cons, not_or] at other
    rw [List.foldl_cons, ih other.2, closeRemoved_other other.1]

/-- A slot holds a controller after the loop if it is another one than the loop looks for. -/
theorem removed_isSome {which : Int} (i : Fin 4) :
    ((sdl.handle s (.controllerDeviceRemoved which)).pads i).isSome ↔ ∃ gc, s.pads i = some gc ∧
      let reached := ((List.finRange 4).take i).foldl (sdl.closeRemoved which) s
      sdl.gameControllerGetJoystick gc reached.world ≠
        sdl.joystickFromInstanceID which reached.world := by
  have split : List.finRange 4 = (List.finRange 4).take i ++ i :: (List.finRange 4).drop (i + 1) ∧
      i ∉ (List.finRange 4).take i ∧ i ∉ (List.finRange 4).drop (i + 1) := by
    revert i
    decide
  obtain ⟨split, before, after⟩ := split
  rw [Sdl.handle]
  nth_rewrite 1 [split]
  rw [List.foldl_append, List.foldl_cons, foldl_closeRemoved_other after, closeRemoved_isSome,
    foldl_closeRemoved_other before]

/-- A device that is added takes a free slot only. -/
theorem added_isSome {idx : Int} {i : Fin 4} (held : (s.pads i).isSome) :
    ((sdl.handle s (.controllerDeviceAdded idx)).pads i).isSome := by
  simp only [Sdl.handle]
  split
  · rename_i range
    split
    · rename_i free
      have other : i ≠ ⟨idx.toNat, by omega⟩ := by
        rintro rfl
        simp [Option.isNone_iff_eq_none.mp free] at held
      simpa only [Function.update_of_ne other] using held
    · exact held
  · exact held

theorem added_held_iff {idx : Int} (free : ¬ s.Held) :
    (sdl.handle s (.controllerDeviceAdded idx)).Held ↔
      0 ≤ idx ∧ idx < 4 ∧ (sdl.gameControllerOpen idx s.world).1.isSome := by
  have empty : ∀ slot, s.pads slot = none := by
    intro slot
    by_contra held
    exact free ⟨slot, Option.isSome_iff_ne_none.mpr held⟩
  simp only [Sdl.handle, empty, Option.isNone_none, if_true]
  split
  · rename_i range
    simp only [range, true_and, StreamWindow.Held]
    constructor
    · rintro ⟨slot, isSome⟩
      by_cases here : slot = ⟨idx.toNat, by omega⟩
      · subst here
        simpa only [Function.update_self] using isSome
      · simp [Function.update_of_ne here, empty] at isSome
    · intro opens
      exact ⟨⟨idx.toNat, by omega⟩, by simpa only [Function.update_self] using opens⟩
  · rename_i outside
    refine iff_of_false free fun opens => outside ⟨opens.1, opens.2.1⟩

/-- What a turn of the event loop takes away. -/
theorem turn_drops {poll : World → SdlEvent × World} (held : s.Held) :
    ¬ (sdl.turn s poll).Held ↔ sdl.ClosesAll s poll := by
  obtain ⟨slot, isSome⟩ := held
  unfold Sdl.turn Sdl.ClosesAll
  cases event : (poll s.world).1 with
  | quit => simpa [Sdl.handle] using ⟨slot, isSome⟩
  | other => simpa [Sdl.handle] using ⟨slot, isSome⟩
  | controllerDeviceAdded idx =>
    simp only [reduceCtorEq, false_and, exists_false, iff_false, not_not]
    exact ⟨slot, added_isSome isSome⟩
  | controllerDeviceRemoved which =>
    simp only [SdlEvent.controllerDeviceRemoved.injEq, exists_eq_left', StreamWindow.Held,
      removed_isSome, not_exists, not_and, not_not, ne_eq]

/-- What a turn brings back. -/
theorem turn_gains {poll : World → SdlEvent × World} (free : ¬ s.Held) :
    (sdl.turn s poll).Held ↔ sdl.Opens s poll := by
  unfold Sdl.turn Sdl.Opens
  cases event : (poll s.world).1 with
  | quit => simpa [Sdl.handle, StreamWindow.Held] using free
  | other => simpa [Sdl.handle, StreamWindow.Held] using free
  | controllerDeviceAdded idx =>
    simp only [SdlEvent.controllerDeviceAdded.injEq, exists_eq_left']
    exact added_held_iff free
  | controllerDeviceRemoved which =>
    simp only [reduceCtorEq, false_and, exists_false, iff_false]
    rintro ⟨slot, isSome⟩
    obtain ⟨gc, held, -⟩ := (removed_isSome slot).mp isSome
    exact free ⟨slot, Option.isSome_iff_exists.mpr ⟨gc, held⟩⟩

theorem closeRemoved_sends {which : Int} {i : Fin 4} :
    (sdl.closeRemoved which s i).sends = s.sends := by
  unfold Sdl.closeRemoved
  split
  · rfl
  · split <;> rfl

theorem handle_sends (event : SdlEvent) : (sdl.handle s event).sends = s.sends := by
  cases event with
  | quit => rfl
  | other => rfl
  | controllerDeviceAdded idx =>
    simp only [Sdl.handle]
    split
    · split <;> rfl
    · rfl
  | controllerDeviceRemoved which =>
    exact List.foldlRecOn (motive := fun s' : StreamWindow World Pad => s'.sends = s.sends) _ _ rfl
      fun _ before _ _ => closeRemoved_sends.trans before

/-- Nothing is sent before the events are handled. -/
theorem events_sends (call : PumpCall World) : (sdl.events s call).sends = s.sends :=
  List.foldlRecOn (motive := fun s' : StreamWindow World Pad => s'.sends = s.sends) call.polls _ rfl
    fun _ before _ _ => (handle_sends _).trans before

/-- A call that begins with a slot in use ends without one exactly when it drops the last. -/
theorem dropsLast_iff {call : PumpCall World} :
    sdl.DropsLast s call ↔ s.Held ∧ ¬ (sdl.events s call).Held :=
  and_congr_right fun held =>
    (History.not_held_iff (fun _ _ => turn_drops) (fun _ _ => turn_gains) held).symm

/-- A call after which the host agrees leaves it in agreement unless it drops the last controller
without taking up another. -/
theorem pump_hostAgrees_iff (flags : ButtonFlags) (call : PumpCall World) (agrees : HostAgrees s) :
    HostAgrees (sdl.pump flags s call).1 ↔ ¬ sdl.DropsLast s call := by
  have before := hostAgrees_iff.mp agrees
  have same : (sdl.events s call).hostMask = s.hostMask := by
    rw [StreamWindow.hostMask, events_sends]
    rfl
  rw [dropsLast_iff, hostAgrees_iff]
  show (sdl.pollAndSendGamepads flags (sdl.events s call)).hostMask =
    activeMask (sdl.events s call).pads ↔ _
  by_cases held : (sdl.events s call).Held
  · rw [pollAndSendGamepads_held sdl flags held]
    simp [held]
  · rw [pollAndSendGamepads_free sdl flags held, activeMask_eq_zero_iff.mpr held, same, before,
      activeMask_eq_zero_iff]
    simp [held]

end Events

/-- The host agrees after every call exactly when no call drops the last controller. -/
theorem hostAgrees_iff_keeps [DecidableEq Joystick] (sdl : Sdl World Pad Joystick)
    (flags : ButtonFlags) (w : World) (calls : List (PumpCall World)) :
    (∀ before, before <+: calls → HostAgrees (sdl.pumps flags (.opened w) before)) ↔
    ∀ before call after, calls = before ++ call :: after →
      ¬ sdl.DropsLast (sdl.pumps flags (.opened w) before) call := by
  have start : HostAgrees (sdl.pumps flags (.opened w) []) := by
    intro i
    simp [Sdl.pumps, StreamWindow.opened, StreamWindow.hostMask]
  refine (History.justified_iff start fun before call _ agrees => ?_).symm
  rw [Sdl.pumps, List.foldl_append]
  exact pump_hostAgrees_iff flags call agrees

/-- The only controller is attached before one call and detached before the next, so the host goes
on holding the buttons that it was last told. -/
theorem unplugged_stays_active :
    ¬ HostAgrees (tableSdl.pumps limelightFlags (.opened noDevices)
      ([[.attach], [.detach 0]].map tableDocumented.handling)) := by
  have ended : ∀ s, tableSdl.pumps limelightFlags (.opened noDevices)
      ([[Change.attach], [.detach 0]].map tableDocumented.handling) = s →
      s.hostMask.getLsbD 0 = true ∧ ∀ slot, s.pads slot = none := by
    rintro s rfl
    decide
  intro agrees
  obtain ⟨bit, free⟩ := ended _ rfl
  obtain ⟨slot, -, held⟩ := (agrees 0).mp bit
  rw [free slot] at held
  cases held

end StreamEngine.Client
