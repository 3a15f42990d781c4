import Mathlib.Data.Finset.Card
import StreamEngine.Client.SdlDevices

/-! The controllers that the slots of the window hold, over whole histories of changes. The pump
opens a new controller into the slot of its device index, and device indices move down when a
controller is detached, so a later one may find its slot in use. -/
namespace StreamEngine.Client
open DenseIndex

variable {World Pad Joystick : Type} {sdl : Sdl World Pad Joystick}

/-- Each attached controller is held by one slot, and no slot holds a detached one. -/
def EachHeldOnce (doc : Documented sdl) (s : StreamWindow World Pad) : Prop :=
  (∀ id ∈ (doc.view s.world).attached,
    ∃! i, ∃ pad, s.pads i = some pad ∧ sdl.Refers doc.view s.world pad id) ∧
  ∀ i pad, s.pads i = some pad →
    ∃ id ∈ (doc.view s.world).attached, sdl.Refers doc.view s.world pad id

/-- The slots hold handles for these controllers, and nothing else is open. -/
structure Tracks (doc : Documented sdl) (s : StreamWindow World Pad) (slots : Fin 4 → Option Nat) :
    Prop where
  pad : ∀ i, Option.Rel (sdl.Refers doc.view s.world) (s.pads i) (slots i)
  references : ∀ id, (doc.view s.world).references id = (holders slots id).card

structure Simulates (doc : Documented sdl) (s : StreamWindow World Pad) (t : Table 4) : Prop
    extends Tracks doc s t.slots where
  attached : (doc.view s.world).attached = t.members
  issued : (doc.view s.world).issued = t.issued

variable {doc : Documented sdl} {s : StreamWindow World Pad} {slots : Fin 4 → Option Nat}
  {t : Table 4}

namespace Tracks

theorem used (tracks : Tracks doc s slots) {i : Fin 4} {id : Nat} (held : slots i = some id) :
    0 < (doc.view s.world).references id := by
  rw [tracks.references]
  exact Finset.card_pos.mpr ⟨i, by simp [holders, held]⟩

/-- A slot is free on both sides, or it has a handle for its controller. -/
theorem slot_cases (tracks : Tracks doc s slots) (i : Fin 4) :
    (s.pads i = none ∧ slots i = none) ∨
      ∃ pad id, s.pads i = some pad ∧ slots i = some id ∧ sdl.Refers doc.view s.world pad id := by
  have related := tracks.pad i
  generalize s.pads i = pad at related
  generalize slots i = id at related
  cases related with
  | none => exact .inl ⟨rfl, rfl⟩
  | some refers => exact .inr ⟨_, _, rfl, rfl, refers⟩

theorem exists_pad (tracks : Tracks doc s slots) {i : Fin 4} {id : Nat} (held : slots i = some id) :
    ∃ pad, s.pads i = some pad ∧ sdl.Refers doc.view s.world pad id := by
  obtain ⟨-, free⟩ | ⟨pad, id', here, there, refers⟩ := tracks.slot_cases i
  · simp [held] at free
  · obtain rfl := Option.some.inj (held.symm.trans there)
    exact ⟨pad, here, refers⟩

theorem exists_id (tracks : Tracks doc s slots) {i : Fin 4} {pad : Pad} (held : s.pads i = some pad) :
    ∃ id, slots i = some id ∧ sdl.Refers doc.view s.world pad id := by
  obtain ⟨free, -⟩ | ⟨pad', id, here, there, refers⟩ := tracks.slot_cases i
  · simp [held] at free
  · obtain rfl := Option.some.inj (held.symm.trans here)
    exact ⟨id, there, refers⟩

theorem isNone (tracks : Tracks doc s slots) (i : Fin 4) : s.pads i = none ↔ slots i = none := by
  obtain ⟨here, there⟩ | ⟨pad, id, here, there, -⟩ := tracks.slot_cases i
  · exact iff_of_true here there
  · simp [here, there]

/-- A handle that is good stays good while its controller is open. -/
theorem kept (tracks : Tracks doc s slots) {w : World} (keeps : sdl.Keeps doc.view s.world w)
    {i : Fin 4} (used : ∀ id, slots i = some id → 0 < (doc.view w).references id) :
    Option.Rel (sdl.Refers doc.view w) (s.pads i) (slots i) := by
  obtain ⟨here, free⟩ | ⟨pad, id, here, held, refers⟩ := tracks.slot_cases i
  · rw [here, free]
    exact .none
  · rw [here, held]
    exact .some (keeps pad id refers (used id held))

/-- SDL moves on without a controller being opened or closed. -/
theorem moved (tracks : Tracks doc s slots) {w : World} (keeps : sdl.Keeps doc.view s.world w)
    (same : (doc.view w).references = (doc.view s.world).references) :
    Tracks doc { s with world := w } slots where
  pad i := tracks.kept keeps fun id held => same ▸ tracks.used held
  references id := by rw [same, tracks.references]

/-- One slot gets another handle, or none. -/
theorem replaced (tracks : Tracks doc s slots) {w : World} (keeps : sdl.Keeps doc.view s.world w)
    {i : Fin 4} {pad : Option Pad} {id : Option Nat} (handle : Option.Rel (sdl.Refers doc.view w) pad id)
    (references : ∀ y, (doc.view w).references y = (holders (Function.update slots i id) y).card) :
    Tracks doc { s with pads := Function.update s.pads i pad, world := w }
      (Function.update slots i id) where
  pad j := by
    by_cases here : j = i
    · subst here
      simpa only [Function.update_self] using handle
    · simp only [Function.update_of_ne here]
      refine tracks.kept keeps fun y held => ?_
      rw [references]
      exact Finset.card_pos.mpr ⟨j, by simp [holders, here, held]⟩
  references := references

end Tracks

namespace Simulates

/-- An attached controller is opened into a free slot. -/
theorem opened (sim : Simulates doc s t) {i : Fin 4} {id : Nat} (free : t.slots i = none)
    (found : t.members[i.val]? = some id) :
    Simulates doc { s with
        pads := Function.update s.pads i (sdl.gameControllerOpen i.val s.world).1
        world := (sdl.gameControllerOpen i.val s.world).2 }
      { t with slots := Function.update t.slots i (some id) } := by
  rw [← sim.attached] at found
  have view := doc.open_view i id s.world found
  obtain ⟨pad, succeeds, refers⟩ := doc.open_pad i id s.world found
  refine ⟨?_, view ▸ sim.attached, view ▸ sim.issued⟩
  apply sim.replaced (doc.open_keeps i id s.world found)
  · rw [succeeds]
    exact .some refers
  · intro y
    rw [view, holders_update_some free]
    split
    · rename_i same
      subst same
      rw [Finset.card_insert_of_notMem (by simp [holders, free]), ← sim.references]
      exact Function.update_self ..
    · rename_i other
      rw [← sim.references]
      exact Function.update_of_ne (Ne.symm other) ..

/-- What the slots hold is what the table holds. -/
theorem eachHeldOnce_iff (sim : Simulates doc s t) : EachHeldOnce doc s ↔ t.HeldOnce := by
  have same : ∀ i id, (∃ pad, s.pads i = some pad ∧ sdl.Refers doc.view s.world pad id) ↔
      t.slots i = some id := by
    intro i id
    refine ⟨?_, sim.exists_pad⟩
    rintro ⟨pad, held, refers⟩
    obtain ⟨id', here, refers'⟩ := sim.exists_id held
    rw [here, (doc.refers_iff refers' id).mp refers.2]
  unfold EachHeldOnce Table.HeldOnce
  simp only [sim.attached, same]
  refine and_congr_right fun _ => ?_
  constructor
  · intro attached i id held
    obtain ⟨pad, here, refers⟩ := sim.exists_pad held
    obtain ⟨id', member, refers'⟩ := attached i pad here
    rwa [← (doc.refers_iff refers' id).mp refers.2]
  · intro members i pad held
    obtain ⟨id, here, refers⟩ := sim.exists_id held
    exact ⟨id, members i id here, refers⟩

variable [DecidableEq Joystick]

/-- One turn of the loop over the slots closes the controller of the id, if it is in that slot. -/
theorem closeRemoved (sim : Simulates doc s t) (id : Nat) (i : Fin 4) :
    Simulates doc (sdl.closeRemoved id s i) { t with slots := clearAt id t.slots i } := by
  unfold Sdl.closeRemoved clearAt
  cases held : s.pads i with
  | none =>
    rw [(sim.isNone i).mp held]
    exact sim
  | some pad =>
    obtain ⟨id', here, refers⟩ := sim.exists_id held
    simp only [doc.refers_iff refers id, here, Option.some.injEq]
    split
    · rename_i same
      subst same
      have view := doc.close_view pad id' s.world refers
      refine ⟨?_, view ▸ sim.attached, view ▸ sim.issued⟩
      apply sim.replaced (doc.close_keeps pad id' s.world refers) .none
      intro y
      rw [view, holders_update_none]
      by_cases same : y = id'
      · subst same
        rw [Finset.card_erase_of_mem (by simp [holders, here]), ← sim.references]
        exact Function.update_self ..
      · have absent : i ∉ holders t.slots y := by simp [holders, here, Ne.symm same]
        rw [Finset.erase_eq_of_notMem absent, ← sim.references]
        exact Function.update_of_ne same ..
    · exact sim

/-- The loop over the slots. -/
theorem removed (sim : Simulates doc s t) (id : Nat) :
    Simulates doc (sdl.handle s (.controllerDeviceRemoved id))
      { t with slots := clear id t.slots } := by
  rw [← foldl_clearAt_all]
  refine List.foldl_rel (r := fun s slots => Simulates doc s { t with slots := slots }) sim ?_
  exact fun i _ _ _ before => before.closeRemoved id i

/-- A new controller is opened into the slot of its index, if that is free. -/
theorem added (sim : Simulates doc s t) {k id : Nat} (found : t.members[k]? = some id) :
    Simulates doc (sdl.handle s (.controllerDeviceAdded k))
      { t with slots := place k id t.slots } := by
  by_cases inside : k < 4
  · have range : (0 : Int) ≤ k ∧ (k : Int) < 4 := by omega
    simp only [Sdl.handle, dif_pos range, Int.toNat_natCast, Option.isNone_iff_eq_none, sim.isNone]
    split
    · rename_i free
      rw [place_free inside free]
      exact sim.opened free found
    · rename_i taken
      rw [place_taken fun _ => taken]
      exact sim
  · have range : ¬ ((0 : Int) ≤ k ∧ (k : Int) < 4) := by omega
    rw [Sdl.handle, dif_neg range, place_taken fun h => absurd h inside]
    exact sim

/-- The pump handles the event of a change. -/
theorem turn (sim : Simulates doc s t) (c : Change) :
    Simulates doc (sdl.turn s (doc.poll c)) (t.change c) := by
  cases c with
  | attach =>
    have view := doc.attach_view s.world
    have moved : Simulates doc { s with world := doc.attach s.world }
        { t with members := t.members ++ [t.issued], issued := t.issued + 1 } := by
      refine ⟨sim.moved (doc.attach_keeps s.world) (by rw [view]; rfl), ?_, ?_⟩
      · rw [view, ← sim.attached, ← sim.issued]
        rfl
      · rw [view, ← sim.issued]
        rfl
    have last : (t.members ++ [t.issued])[t.members.length]? = some t.issued := by simp
    simp only [Sdl.turn, Documented.poll, Table.change, sim.attached]
    exact moved.added last
  | detach k =>
    simp only [Sdl.turn, Documented.poll, sim.attached, Table.change]
    cases found : t.members[k]? with
    | none => exact sim
    | some id =>
      have view := doc.detach_view k s.world
      have moved : Simulates doc { s with world := doc.detach k s.world }
          { t with members := t.members.eraseIdx k } := by
        refine ⟨sim.moved (doc.detach_keeps k s.world) (by rw [view]; rfl), ?_, ?_⟩
        · rw [view, ← sim.attached]
          rfl
        · rw [view, ← sim.issued]
          rfl
      exact moved.removed id

/-! ### Whole runs -/

theorem pumps (sim : Simulates doc s t) (flags : ButtonFlags) (calls : List (List Change)) :
    Simulates doc (sdl.pumps flags s (calls.map doc.handling))
      (calls.flatten.foldl Table.change t) := by
  unfold Sdl.pumps
  rw [List.foldl_map, List.foldl_flatten]
  refine List.foldl_rel (r := Simulates doc) sim fun changes _ s t before => ?_
  have handled : Simulates doc ((changes.map doc.poll).foldl sdl.turn s)
      (changes.foldl Table.change t) := by
    rw [List.foldl_map]
    exact List.foldl_rel before fun c _ _ _ earlier => earlier.turn c
  exact { handled with }

end Simulates

/-- Nothing is attached or open before the first event. -/
theorem simulates_opened {w : World} (unplugged : (doc.view w).attached = [])
    (unopened : ∀ id, (doc.view w).references id = 0) :
    Simulates doc (.opened w) (Table.start 4 (doc.view w).issued) where
  pad _ := .none
  references id := by simp [StreamWindow.opened, unopened, holders, Table.start]
  attached := unplugged
  issued := rfl

/-- The number of controllers that are attached never exceeds that of the slots. -/
def AtMostFour (changes : List Change) : Prop :=
  ∀ before, before <+: changes → (places before).length ≤ 4

theorem AtMostFour.inside {changes before after : List Change} (four : AtMostFour changes)
    (split : changes = before ++ .attach :: after) : (places before).length < 4 := by
  have grown := four (before ++ [.attach]) ⟨after, by simp [split]⟩
  rw [places, List.foldl_append, ← places] at grown
  simpa [movePlaces, Nat.succ_le_iff] using grown

variable [DecidableEq Joystick]

/-- However the events are divided among calls, the slots do what the table does. -/
theorem eachHeldOnce_stages_iff (flags : ButtonFlags) (sim : Simulates doc s t)
    (changes : List Change) :
    (∀ calls : List (List Change), calls.flatten <+: changes →
      EachHeldOnce doc (sdl.pumps flags s (calls.map doc.handling))) ↔
    ∀ before, before <+: changes → (before.foldl Table.change t).HeldOnce := by
  constructor
  · intro held before inside
    have single : [before].flatten = before := by simp
    rw [← single, ← (sim.pumps flags [before]).eachHeldOnce_iff]
    exact held [before] (single.symm ▸ inside)
  · intro held calls inside
    exact (sim.pumps flags calls).eachHeldOnce_iff.mpr (held _ inside)

/-- The slots hold the attached controllers at every stage exactly when no controller is attached
at a device index at which one of those still attached was. -/
theorem eachHeldOnce_iff_fresh (doc : Documented sdl) (flags : ButtonFlags) (w : World)
    (changes : List Change) (four : AtMostFour changes) (unplugged : (doc.view w).attached = [])
    (unopened : ∀ id, (doc.view w).references id = 0) :
    (∀ calls : List (List Change), calls.flatten <+: changes →
      EachHeldOnce doc (sdl.pumps flags (.opened w) (calls.map doc.handling))) ↔
    ∀ before after, changes = before ++ .attach :: after →
      (places before).length ∉ places before := by
  rw [eachHeldOnce_stages_iff flags (simulates_opened unplugged unopened), heldOnce_iff]
  constructor
  · intro fresh before after split
    exact (fresh before .attach after split rfl).2
  · rintro free before c after split rfl
    exact ⟨four.inside split, free before after split⟩

/-- The controller that was attached last is detached, and another one attached. -/
theorem eachHeldOnce_last_replaced :
    EachHeldOnce tableDocumented (tableSdl.pumps limelightFlags (.opened noDevices)
      ([[.attach], [.attach], [.detach 1, .attach]].map tableDocumented.handling)) := by
  have stages : ∀ before ∈ [Change.attach, .attach, .detach 1, .attach].inits,
      (places before).length ≤ 4 ∧ (places before).length ∉ places before := by decide
  refine (eachHeldOnce_iff_fresh tableDocumented limelightFlags noDevices _ ?_ rfl fun _ => rfl).mpr
    ?_ _ (List.prefix_refl _)
  · exact fun before inside => (stages before ((List.mem_inits _ _).mpr inside)).1
  · intro before after split
    exact (stages before ((List.mem_inits _ _).mpr ⟨_, split.symm⟩)).2

/-- Of two controllers the first is detached. The next one gets the index of the slot that the
second is in, and no slot holds it. -/
theorem first_replaced_not_held :
    AtMostFour [.attach, .attach, .detach 0, .attach] ∧
    ¬ EachHeldOnce tableDocumented (tableSdl.pumps limelightFlags (.opened noDevices)
      ([[.attach], [.attach], [.detach 0], [.attach]].map tableDocumented.handling)) := by
  constructor
  · intro before inside
    have stages : ∀ before ∈ [Change.attach, .attach, .detach 0, .attach].inits,
        (places before).length ≤ 4 := by decide
    exact stages before ((List.mem_inits _ _).mpr inside)
  · have ended : ∀ s, tableSdl.pumps limelightFlags (.opened noDevices)
        ([[Change.attach], [.attach], [.detach 0], [.attach]].map tableDocumented.handling) = s →
        2 ∈ s.world.attached ∧ ∀ i, s.pads i ≠ some 2 := by
      rintro s rfl
      decide
    intro held
    obtain ⟨attached, absent⟩ := ended _ rfl
    obtain ⟨i, ⟨pad, here, refers⟩, -⟩ := held.1 2 attached
    rw [(tableSdl_refers.mp refers).2] at here
    exact absent i here

end StreamEngine.Client
