import StreamEngine.Client.VideoRenderer

/-! The two threads of the video renderer, each verified against what the other guarantees. A
frame is touched by the thread that has it, the slot by who holds the mutex, and what points to
nothing is not used. -/
namespace StreamEngine.Client
namespace Video
open Interaction Threads

def Side.other : Side → Side
  | .submit => .worker
  | .worker => .submit

/-- The thread has the frame. -/
def World.Has (w : World) (side : Side) (p : Ptr) : Prop :=
  ∃ picture, w.frames p = some (.thread side, picture)

/-- These are the frames that the holder has. -/
def World.Holds (w : World) (h : Holder) (ps : List Ptr) : Prop :=
  ∀ p, (∃ picture, w.frames p = some (h, picture)) ↔ p ∈ ps

/-- The context has a reference to the device. -/
def Attached (contexts : Ptr → Option Context) (c d : Ptr) : Prop :=
  ∃ context, contexts c = some context ∧ context.device = some d

def World.Live (w : World) (context : Option Ptr) : Prop :=
  ∃ c, context = some c ∧ w.contexts c ≠ none

/-- The packet ends where its data does, but for the zeros that the decoder may read beyond it. -/
def Packet.Padded (packet : Packet) : Prop :=
  ∃ bytes, packet.data = bytes ++ List.replicate padding 0 ∧ packet.size = (bytes.length : Int)

/-- Where a thread may make a call: no race on the slot, no frame of the other thread or one that
was freed, nothing that is overwritten while it points to something, and no null pointer but the
one that follows a failed `av_frame_alloc`. -/
def Legal (side : Side) : Call → World → Prop
  | .lock, w => w.frameMu ≠ some side
  | .unlock, w | .pendingFrame, w | .clearPending, w => w.frameMu = some side
  | .freePending, w => w.frameMu = some side ∧ w.pendingFrame ≠ none
  | .storePending p, w => w.frameMu = some side ∧ w.Has side p ∧ w.pendingFrame = none
  | .createDevice, w => w.hwDeviceCtx = none
  | .unrefDevice, w => w.hwDeviceCtx ≠ none
  | .allocContext, w => w.codecCtx = none
  | .configure .., w | .pickFormat, w | .openCodec, w | .freeContext, w => w.Live w.codecCtx
  | .attachDevice, w => w.Live w.codecCtx ∧ w.hwDeviceCtx ≠ none ∧
    ∀ c d, ¬ Attached w.contexts c d
  | .sendPacket context packet, w => w.Live context ∧ packet.Padded
  | .receiveFrame context frame, w => w.Live context ∧ w.Has side frame
  | .readFrame frame, w | .unrefFrame frame, w | .freeFrame frame, w => w.Has side frame
  | .transfer cpu frame, w | .refFrame cpu frame, w =>
    w.Has side cpu ∧ w.Has side frame ∧ cpu ≠ frame
  | .nullFrame, w => w.exhausted = true
  | .createTexture .., w => w.texture = none
  | .destroyTexture, w | .updateTexture _, w | .render, w =>
    ∃ t, w.texture = some t ∧ w.textures t ≠ none
  | _, _ => True

/-- What is in the slot, as it would be shown. -/
def World.waiting (w : World) : List Image :=
  (w.pendingFrame.toList.map w.picture).filterMap Picture.image

/-- The picture was delivered after what was handed over. -/
def World.Next (w : World) (picture : Picture) : Prop :=
  ((w.handed ++ [picture]).filterMap Picture.image).Sublist (w.delivered.filterMap Picture.image)

/-- A counter and what it counts, which may be one ahead. -/
def Counts (counter : UInt64) (n : Nat) : Prop :=
  ∃ k, counter = .ofNat k ∧ k ≤ n ∧ n ≤ k + 1

def CountsTo (counter : UInt64) (n ahead : Nat) : Prop :=
  ∃ k, counter = .ofNat k ∧ n = k + ahead

/-- What every call keeps. What is allocated is what the members point to, but for the frames
that a thread has. -/
structure Global (w : World) : Prop where
  slot : w.Holds .slot w.pendingFrame.toList
  contexts : ∀ c, w.contexts c ≠ none ↔ w.codecCtx = some c
  devices : ∀ d, w.devices d = true ↔ w.hwDeviceCtx = some d ∨ ∃ c, Attached w.contexts c d
  apart : ∀ c d, Attached w.contexts c d → w.hwDeviceCtx ≠ some d
  textures : ∀ t, w.textures t ≠ none ↔ w.texture = some t
  decoded : Counts w.framesDecoded w.handed.length
  presented : Counts w.framesPresented w.shown.length
  latest : ∀ p, w.pendingFrame = some p → w.handed.getLast? = some (w.picture p)
  delivered : (w.handed.filterMap Picture.image).Sublist (w.delivered.filterMap Picture.image)
  order : (w.shown ++ w.waiting).Sublist (w.handed.filterMap Picture.image)

/-! ### What a call changes -/

variable {w w' : World} {side : Side} {p q : Ptr}

@[simp] theorem World.setFrame_self {frame : Option (Holder × Picture)} :
    (w.setFrame p frame).frames p = frame := Function.update_self ..

theorem World.setFrame_other {frame : Option (Holder × Picture)} (other : q ≠ p) :
    (w.setFrame p frame).frames q = w.frames q := Function.update_of_ne other ..

@[simp] theorem World.setFrame_pending {frame : Option (Holder × Picture)} :
    (w.setFrame p frame).pendingFrame = w.pendingFrame := rfl

theorem World.picture_congr (same : w'.frames p = w.frames p) : w'.picture p = w.picture p := by
  rw [World.picture, World.picture, same]

/-- The slot shows the same while it holds the same frame. -/
theorem World.waiting_congr (pending : w'.pendingFrame = w.pendingFrame)
    (same : ∀ p, w.pendingFrame = some p → w'.frames p = w.frames p) : w'.waiting = w.waiting := by
  rw [World.waiting, World.waiting, pending]
  cases here : w.pendingFrame with
  | none => rfl
  | some p => simp [World.picture_congr (same p here)]

theorem Global.pending_slot (global : Global w) (here : w.pendingFrame = some p) :
    w.frames p = some (.slot, w.picture p) := by
  obtain ⟨picture, held⟩ := (global.slot p).mpr (by simp [here])
  rw [World.picture, held]
  rfl

theorem Global.shown_handed (global : Global w) : w.shown.length ≤ w.handed.length := by
  have fewer := global.order.length_le.trans (List.length_filterMap_le ..)
  rw [List.length_append] at fewer
  omega

theorem World.Has.not_slot (has : w.Has side p) (picture : Picture) :
    w.frames p ≠ some (.slot, picture) := by
  obtain ⟨own, here⟩ := has
  simp [here]

/-- What a call of one thread guarantees to the other. -/
structure Guarantee (side : Side) (w w' : World) : Prop where
  frames : ∀ p picture, w'.frames p = some (.thread side.other, picture) ↔
    w.frames p = some (.thread side.other, picture)
  excluded : w.frameMu = some side.other →
    w'.frameMu = some side.other ∧ w'.pendingFrame = w.pendingFrame
  taken : w'.frameMu = some side.other → w.frameMu = some side.other
  global : Global w → Global w'

/-- The submit thread leaves what is the worker's alone, and what is handed over comes after what
was shown. -/
structure SubmitGuarantee (w w' : World) : Prop extends Guarantee .submit w w' where
  own : w'.toOwn = w.toOwn
  handed : w.handed <+: w'.handed
  order : Global w → ∀ images, (images ++ w.waiting).Sublist (w.handed.filterMap Picture.image) →
    (images ++ w'.waiting).Sublist (w'.handed.filterMap Picture.image)

/-- The worker hands nothing over. -/
structure WorkerGuarantee (w w' : World) : Prop extends Guarantee .worker w w' where
  decoded : w'.framesDecoded = w.framesDecoded
  delivered : w'.delivered = w.delivered
  handed : w'.handed = w.handed
  exhausted : w'.exhausted = w.exhausted

/-- The slot and the frames stay as they are. -/
theorem Guarantee.quiet (frames : w'.frames = w.frames) (mutex : w'.frameMu = w.frameMu)
    (pending : w'.pendingFrame = w.pendingFrame) (global : Global w → Global w') :
    Guarantee side w w' where
  frames p picture := by rw [frames]
  excluded held := ⟨mutex.trans held, pending⟩
  taken held := mutex ▸ held
  global := global

theorem Global.setFrame (global : Global w) {frame : Option (Holder × Picture)}
    (before : ∀ picture, w.frames p ≠ some (.slot, picture))
    (after : ∀ picture, frame ≠ some (.slot, picture)) : Global (w.setFrame p frame) := by
  have other : ∀ q, w.pendingFrame = some q → (w.setFrame p frame).frames q = w.frames q := by
    intro q here
    apply World.setFrame_other
    rintro rfl
    exact before _ (global.pending_slot here)
  refine { global with slot := ?_, latest := ?_, order := ?_ }
  · intro q
    by_cases same : q = p
    · subst same
      have empty := global.slot q
      simp only [before, exists_false, false_iff] at empty
      simp only [World.setFrame_self, after, exists_false, false_iff]
      exact empty
    · rw [World.setFrame_other same]
      exact global.slot q
  · intro q here
    rw [World.picture_congr (other q here)]
    exact global.latest q here
  · rw [World.waiting_congr World.setFrame_pending other]
    exact global.order

/-- A frame that is the thread's, or free, stays the thread's or becomes free. -/
theorem guarantee_setFrame {frame : Option (Holder × Picture)}
    (before : w.frames p = none ∨ w.Has side p)
    (after : frame = none ∨ ∃ picture, frame = some (.thread side, picture)) :
    Guarantee side w (w.setFrame p frame) where
  frames q picture := by
    by_cases same : q = p
    · subst same
      rw [World.setFrame_self]
      have different : Holder.thread side ≠ .thread side.other := by cases side <;> simp [Side.other]
      rcases before with free | ⟨own, here⟩ <;> rcases after with rfl | ⟨next, rfl⟩ <;>
        simp_all
    · rw [World.setFrame_other same]
  excluded held := ⟨held, rfl⟩
  taken held := held
  global := by
    intro global
    apply global.setFrame
    · intro picture here
      rcases before with free | has
      · simp [free] at here
      · exact has.not_slot picture here
    · rintro picture rfl
      simp at after

theorem waiting_setFrame (global : Global w) {frame : Option (Holder × Picture)}
    (before : ∀ picture, w.frames p ≠ some (.slot, picture)) :
    (w.setFrame p frame).waiting = w.waiting := by
  apply World.waiting_congr World.setFrame_pending
  intro q here
  apply World.setFrame_other
  rintro rfl
  exact before _ (global.pending_slot here)

theorem submit_setFrame {frame : Option (Holder × Picture)}
    (before : w.frames p = none ∨ w.Has .submit p)
    (after : frame = none ∨ ∃ picture, frame = some (.thread .submit, picture)) :
    SubmitGuarantee w (w.setFrame p frame) where
  toGuarantee := guarantee_setFrame before after
  own := rfl
  handed := List.prefix_rfl
  order := by
    intro global images held
    rw [waiting_setFrame global]
    · exact held
    · intro picture here
      rcases before with free | has
      · simp [free] at here
      · exact has.not_slot picture here

theorem submit_deliver {picture : Picture} (has : w.Has .submit p) :
    SubmitGuarantee w (w.deliver .submit p picture) := by
  have kept : SubmitGuarantee w (w.setFrame p (some (.thread .submit, picture))) :=
    submit_setFrame (.inr has) (.inr ⟨_, rfl⟩)
  refine ⟨⟨kept.frames, kept.excluded, kept.taken, fun global => ?_⟩, rfl, List.prefix_rfl, kept.order⟩
  refine { kept.global global with delivered := global.delivered.trans ?_ }
  exact (List.sublist_append_left w.delivered [picture]).filterMap _

theorem guarantee_lock (free : w.frameMu = none) :
    Guarantee side w { w with frameMu := some side } where
  frames p picture := Iff.rfl
  excluded held := by simp [free] at held
  taken held := by cases side <;> simp [Side.other] at held
  global global := { global with }

theorem guarantee_unlock (mine : w.frameMu = some side) : Guarantee side w { w with frameMu := none } where
  frames p picture := Iff.rfl
  excluded held := by cases side <;> simp [mine, Side.other] at held
  taken held := by simp at held
  global global := { global with }

theorem waiting_none (here : w.pendingFrame = none) : w.waiting = [] := by
  simp [World.waiting, here]

theorem waiting_some (here : w.pendingFrame = some p) : w.waiting = (w.picture p).image.toList := by
  cases image : (w.picture p).image <;> simp [World.waiting, here, image]

/-- The slot is emptied by who holds the mutex. -/
theorem Global.release (global : Global w) {next : Ptr → Option (Holder × Picture)}
    (after : ∀ p picture, next p ≠ some (.slot, picture)) : Global (w.release next) := by
  refine { global with slot := ?_, latest := nofun, order := ?_ }
  · intro p
    by_cases here : w.pendingFrame = some p
    · simp [World.release, here, after]
    · have others := global.slot p
      rw [Option.mem_toList] at others
      simpa [World.release, here] using others
  · rw [waiting_none rfl, List.append_nil]
    exact (List.sublist_append_left w.shown w.waiting).trans global.order

theorem guarantee_release (mine : w.frameMu = some side) {next : Ptr → Option (Holder × Picture)}
    (after : ∀ p, next p = none ∨ ∃ picture, next p = some (.thread side, picture))
    (global : Global w) : Guarantee side w (w.release next) := by
  have notSlot : ∀ p picture, next p ≠ some (.slot, picture) := by
    intro p picture here
    have := after p
    simp [here] at this
  have different : Holder.thread side ≠ .thread side.other := by cases side <;> simp [Side.other]
  constructor
  · intro p picture
    by_cases here : w.pendingFrame = some p
    · have slot := global.pending_slot here
      rcases after p with none | ⟨own, some⟩ <;> simp_all [World.release]
    · simp [World.release, here]
  · intro held
    rw [mine] at held
    cases side <;> simp [Side.other] at held
  · exact id
  · exact fun _ => global.release notSlot

/-! ### The calls of the submit thread -/

/-- The calls of `submit`, and where it hands over and counts. -/
def SubmitCall : Call → World → Prop
  | .storePending p, w => CountsTo w.framesDecoded w.handed.length 0 ∧ w.Next (w.picture p)
  | .countDecoded, w => CountsTo w.framesDecoded w.handed.length 1
  | .lock, _ | .unlock, _ | .pendingFrame, _ | .freePending, _ | .codecCtx, _ | .hwPixFmt, _
  | .countError, _ | .allocPacket, _ | .sendPacket _ _, _ | .allocFrame, _ | .receiveFrame _ _, _
  | .readFrame _, _ | .transfer _ _, _ | .refFrame _ _, _ | .unrefFrame _, _ | .freeFrame _, _
  | .nullFrame, _ => True
  | _, _ => False

theorem SubmitGuarantee.same : SubmitGuarantee w w where
  toGuarantee := .quiet rfl rfl rfl id
  own := rfl
  handed := List.prefix_rfl
  order _ _ held := held

theorem CountsTo.counts {counter : UInt64} {n ahead : Nat} (counts : CountsTo counter n ahead)
    (close : ahead ≤ 1) : Counts counter n := by
  obtain ⟨k, value, rfl⟩ := counts
  exact ⟨k, value, by omega, by omega⟩

theorem CountsTo.next {counter : UInt64} {n ahead : Nat} (counts : CountsTo counter n (ahead + 1)) :
    CountsTo (counter + 1) n ahead := by
  obtain ⟨k, rfl, rfl⟩ := counts
  exact ⟨k + 1, (UInt64.ofNat_add k 1).symm, by omega⟩

theorem CountsTo.more {counter : UInt64} {n ahead : Nat} (counts : CountsTo counter n ahead) :
    CountsTo counter (n + 1) (ahead + 1) := by
  obtain ⟨k, value, rfl⟩ := counts
  exact ⟨k, value, by omega⟩

/-- A frame that the thread has goes into the empty slot. -/
theorem submit_storePending (mine : w.frameMu = some .submit) (has : w.Has .submit p)
    (empty : w.pendingFrame = none) (counts : CountsTo w.framesDecoded w.handed.length 0)
    (next : w.Next (w.picture p)) : SubmitGuarantee w { w.setFrame p (some (.slot, w.picture p)) with
      pendingFrame := some p, handed := w.handed ++ [w.picture p] } := by
  obtain ⟨picture, here⟩ := has
  have same : w.picture p = picture := by simp [World.picture, here]
  have stored : ({ w.setFrame p (some (.slot, w.picture p)) with
      pendingFrame := some p, handed := w.handed ++ [w.picture p] } : World).picture p = picture := by
    simp [World.picture, here]
  have order : ∀ images, (images ++ w.waiting).Sublist (w.handed.filterMap Picture.image) →
      (images ++ picture.image.toList).Sublist
        ((w.handed ++ [w.picture p]).filterMap Picture.image) := by
    intro images held
    rw [waiting_none empty, List.append_nil] at held
    rw [List.filterMap_append, same]
    apply held.append
    cases image : picture.image <;> simp [image]
  constructor
  · constructor
    · intro q other
      by_cases one : q = p
      · subst one
        simp [here, Side.other]
      · simp [World.setFrame_other one]
    · intro held
      simp [mine, Side.other] at held
    · intro held
      exact held
    · intro global
      refine { global with slot := ?_, decoded := ?_, latest := ?_, delivered := next, order := ?_ }
      · intro q
        by_cases one : q = p
        · subst one
          simp
        · have others := global.slot q
          rw [empty] at others
          simpa [World.setFrame_other one, one, eq_comm] using others
      · rw [List.length_append]
        exact counts.more.counts (by omega)
      · rintro q ⟨⟩
        rw [stored, List.getLast?_append, same]
        rfl
      · rw [waiting_some rfl, stored]
        exact order _ global.order
  · rfl
  · exact List.prefix_append ..
  · intro global images held
    rw [waiting_some rfl, stored]
    exact order images held

theorem submit_keeps {c : Call} {answer : Answer c} (global : Global w) (legal : Legal .submit c w)
    (permitted : SubmitCall c w) (effected : effect .submit c w answer w') : SubmitGuarantee w w' := by
  cases c with
  | lock =>
    obtain ⟨free, rfl⟩ := effected
    exact ⟨guarantee_lock free, rfl, List.prefix_rfl, fun _ _ held => held⟩
  | unlock =>
    obtain rfl := effected
    exact ⟨guarantee_unlock legal, rfl, List.prefix_rfl, fun _ _ held => held⟩
  | pendingFrame | codecCtx | hwPixFmt | readFrame =>
    obtain ⟨-, rfl⟩ := effected
    exact .same
  | allocPacket | sendPacket =>
    obtain rfl := effected
    exact .same
  | storePending p =>
    obtain rfl := effected
    exact submit_storePending legal.1 legal.2.1 legal.2.2 permitted.1 permitted.2
  | freePending =>
    obtain rfl := effected
    refine ⟨guarantee_release legal.1 (fun _ => .inl rfl) global, rfl, List.prefix_rfl, ?_⟩
    intro _ images held
    rw [waiting_none rfl, List.append_nil]
    exact (List.sublist_append_left images w.waiting).trans held
  | countDecoded =>
    obtain rfl := effected
    refine ⟨.quiet rfl rfl rfl fun global => { global with decoded := ?_ }, rfl, List.prefix_rfl,
      fun _ _ held => held⟩
    exact permitted.next.counts (by omega)
  | countError =>
    obtain rfl := effected
    exact ⟨.quiet rfl rfl rfl fun global => { global with }, rfl, List.prefix_rfl, fun _ _ => id⟩
  | allocFrame =>
    cases answer with
    | none =>
      obtain rfl := effected
      exact ⟨.quiet rfl rfl rfl fun global => { global with }, rfl, List.prefix_rfl, fun _ _ => id⟩
    | some p =>
      obtain ⟨free, rfl⟩ := effected
      exact submit_setFrame (.inl free) (.inr ⟨_, rfl⟩)
  | receiveFrame context frame =>
    cases answer with
    | again | endOfStream | failed =>
      obtain rfl := effected
      exact submit_setFrame (.inr legal.2) (.inr ⟨_, rfl⟩)
    | frame picture =>
      obtain rfl := effected
      exact submit_deliver legal.2
  | transfer cpu frame =>
    cases answer with
    | none =>
      obtain rfl := effected
      exact .same
    | some picture =>
      obtain rfl := effected
      exact submit_deliver legal.1
  | refFrame cpu frame =>
    cases answer with
    | false =>
      obtain rfl := effected
      exact .same
    | true =>
      obtain rfl := effected
      exact submit_setFrame (.inr legal.1) (.inr ⟨_, rfl⟩)
  | unrefFrame frame =>
    obtain rfl := effected
    exact submit_setFrame (.inr legal) (.inr ⟨_, rfl⟩)
  | freeFrame frame =>
    obtain rfl := effected
    exact submit_setFrame (.inr legal) (.inl rfl)
  | nullFrame => exact effected.elim
  | _ => exact permitted.elim

/-! ### The calls of the worker -/

/-- The calls of `present` and `stats`, and where they show and count. -/
def PresentCall : Call → World → Prop
  | .render, w => CountsTo w.framesPresented w.shown.length 0 ∧
    ∀ t image, w.texture = some t → w.textures t = some image →
      (w.shown ++ image :: w.waiting).Sublist (w.handed.filterMap Picture.image)
  | .countPresented, w => CountsTo w.framesPresented w.shown.length 1
  | .lock, _ | .unlock, _ | .pendingFrame, _ | .clearPending, _ | .texture, _
  | .setTextureSpec .., _ | .framesDecoded, _ | .framesPresented, _ | .decodeErrors, _
  | .usingHardware, _ | .size, _ | .readFrame _, _ | .freeFrame _, _ | .destroyTexture, _
  | .createTexture .., _ | .updateTexture _, _ => True
  | _, _ => False

/-- The calls of `setup` and `cleanup`. -/
def SetupCall : Call → Prop
  | .lock | .unlock | .pendingFrame | .freePending | .codecCtx | .hwDeviceCtx | .texture
  | .setSize .. | .setHwPixFmt _ | .setUsingHardware _ | .findDecoder | .createDevice | .unrefDevice
  | .allocContext | .configure .. | .attachDevice | .pickFormat | .openCodec | .freeContext
  | .destroyTexture => True
  | _ => False

/-- Only what is the worker's own changes. -/
theorem WorkerGuarantee.own {own : Own} (global : Global w → Global { w with toOwn := own }) :
    WorkerGuarantee w { w with toOwn := own } where
  toGuarantee := .quiet rfl rfl rfl global
  decoded := rfl
  delivered := rfl
  handed := rfl
  exhausted := rfl

theorem Global.contexts_one (global : Global w) {c d : Ptr} (here : w.codecCtx = some c)
    (other : d ≠ c) : w.contexts d = none := by
  by_contra some
  exact other (Option.some.inj (((global.contexts d).mp some).symm.trans here))

/-- The contexts are as many as before, and attached to what they were. -/
theorem Global.ofContexts (global : Global w) {contexts : Ptr → Option Context}
    (same : ∀ c, contexts c ≠ none ↔ w.contexts c ≠ none)
    (attached : ∀ c d, Attached contexts c d ↔ Attached w.contexts c d) :
    Global { w with contexts } := by
  refine { global with contexts := ?_, devices := ?_, apart := ?_ }
  · intro c
    exact (same c).trans (global.contexts c)
  · intro d
    simp only [attached]
    exact global.devices d
  · intro c d there
    exact global.apart c d ((attached c d).mp there)

/-- The context changes but for its device. -/
theorem Global.setContext (global : Global w) {change : Context → Context}
    (device : ∀ context, (change context).device = context.device) : Global (w.setContext change) := by
  apply global.ofContexts
  · intro c
    split <;> simp
  · intro c d
    by_cases here : w.codecCtx = some c <;> simp [Attached, here, device]

theorem Global.createDevice (global : Global w) {d : Ptr} (empty : w.hwDeviceCtx = none)
    (fresh : w.devices d = false) : Global
      { w with hwDeviceCtx := some d, devices := Function.update w.devices d true } := by
  refine { global with devices := ?_, apart := ?_ }
  · intro q
    by_cases same : q = d
    · subst same
      simp
    · have others := global.devices q
      rw [empty] at others
      simpa [Function.update_of_ne same, Ne.symm same] using others
  · rintro c q there ⟨⟩
    simp [(global.devices d).mpr (.inr ⟨c, there⟩)] at fresh

theorem Global.unrefDevice (global : Global w) {d : Ptr} (here : w.hwDeviceCtx = some d) : Global
    { w with hwDeviceCtx := none, devices := Function.update w.devices d false } := by
  refine { global with devices := ?_, apart := fun _ _ _ => nofun }
  intro q
  by_cases same : q = d
  · subst same
    simp only [Function.update_self, Bool.false_eq_true, reduceCtorEq, false_or, false_iff]
    rintro ⟨c, there⟩
    exact global.apart c q there here
  · have others := global.devices q
    rw [here, Option.some_inj] at others
    simpa [Function.update_of_ne same, Ne.symm same] using others

theorem Global.attachDevice (global : Global w) {c d : Ptr} (here : w.codecCtx = some c)
    (fresh : w.devices d = false) (unattached : ∀ c d, ¬ Attached w.contexts c d) : Global
      { w.setContext fun context => { context with device := some d } with
        devices := Function.update w.devices d true } := by
  obtain ⟨context, found⟩ := Option.ne_none_iff_exists'.mp ((global.contexts c).mpr here)
  have attached : ∀ q e,
      Attached (w.setContext fun context => { context with device := some d }).contexts q e ↔
        q = c ∧ e = d := by
    intro q e
    by_cases same : q = c
    · subst same
      simp [Attached, World.setContext, here, found, eq_comm]
    · simp [Attached, World.setContext, here, Ne.symm same, same, global.contexts_one here same]
  refine { global with contexts := ?_, devices := ?_, apart := ?_ }
  · intro q
    refine Iff.trans ?_ (global.contexts q)
    simp only [World.setContext]
    split <;> simp
  · intro e
    by_cases same : e = d
    · subst same
      simp only [Function.update_self, true_iff]
      exact .inr ⟨c, (attached c e).mpr ⟨rfl, rfl⟩⟩
    · have others := global.devices e
      simp only [unattached, exists_false, or_false] at others
      simp only [attached, same, and_false, exists_false, or_false, Function.update_of_ne same]
      exact others
  · intro q e there at_e
    obtain ⟨-, rfl⟩ := (attached q e).mp there
    simp [(global.devices e).mpr (.inl at_e)] at fresh

theorem Global.allocContext (global : Global w) {c : Ptr} (empty : w.codecCtx = none) (context : Context)
    (bare : context.device = none) : Global
      { w with codecCtx := some c, contexts := Function.update w.contexts c (some context) } := by
  have none : ∀ q, w.contexts q = none := by
    intro q
    by_contra some
    simpa [empty] using (global.contexts q).mp some
  have attached : ∀ q d, ¬ Attached (Function.update w.contexts c (some context)) q d := by
    rintro q d ⟨found, there, device⟩
    by_cases same : q = c
    · subst same
      rw [Function.update_self, Option.some_inj] at there
      subst there
      simp [bare] at device
    · simp [Function.update_of_ne same, none] at there
  refine { global with contexts := ?_, devices := ?_, apart := ?_ }
  · intro q
    by_cases same : q = c
    · subst same
      simp
    · simp [Function.update_of_ne same, none, Ne.symm same]
  · intro d
    have unattached : ∀ q, ¬ Attached w.contexts q d := by simp [Attached, none]
    have devices := global.devices d
    simp only [unattached, exists_false, or_false] at devices
    simp only [attached, exists_false, or_false]
    exact devices
  · intro q d there
    exact absurd there (attached q d)

theorem Global.freeContext (global : Global w) {c : Ptr} {context : Context} (here : w.codecCtx = some c)
    (found : w.contexts c = some context) : Global
      { w with
        codecCtx := none
        contexts := Function.update w.contexts c none
        devices := fun d => w.devices d && decide (context.device ≠ some d) } := by
  have none : ∀ q, Function.update w.contexts c none q = none := by
    intro q
    by_cases same : q = c
    · subst same
      simp
    · rw [Function.update_of_ne same, global.contexts_one here same]
  have attached : ∀ d, (∃ q, Attached w.contexts q d) ↔ context.device = some d := by
    intro d
    constructor
    · rintro ⟨q, found', there, device⟩
      obtain rfl : q = c := by
        by_contra same
        simp [global.contexts_one here same] at there
      rw [found, Option.some_inj] at there
      subst there
      exact device
    · intro device
      exact ⟨c, context, found, device⟩
  refine { global with contexts := ?_, devices := ?_, apart := ?_ }
  · intro q
    simp [none]
  · intro d
    have others := global.devices d
    rw [attached] at others
    have different : context.device = some d → w.hwDeviceCtx ≠ some d :=
      fun device => global.apart c d ⟨context, found, device⟩
    simp only [Attached, none, Bool.and_eq_true, decide_eq_true_eq, reduceCtorEq, false_and,
      exists_false, or_false, others]
    tauto
  · rintro q d ⟨found', there, -⟩
    simp [none] at there

theorem Global.destroyTexture (global : Global w) {t : Ptr} (here : w.texture = some t) : Global
    { w with texture := none, textures := Function.update w.textures t none } := by
  refine { global with textures := ?_ }
  intro q
  by_cases same : q = t
  · subst same
    simp
  · have others := global.textures q
    rw [here, Option.some_inj] at others
    simpa [Function.update_of_ne same, Ne.symm same] using others

theorem Global.createTexture (global : Global w) {t : Ptr} (empty : w.texture = none) (image : Image) :
    Global { w with texture := some t, textures := Function.update w.textures t (some image) } := by
  refine { global with textures := ?_ }
  intro q
  by_cases same : q = t
  · subst same
    simp
  · have others := global.textures q
    rw [empty] at others
    simpa [Function.update_of_ne same, Ne.symm same] using others

theorem Global.updateTexture (global : Global w) {t : Ptr} (change : Image → Image) :
    Global { w with textures := Function.update w.textures t ((w.textures t).map change) } := by
  refine { global with textures := ?_ }
  intro q
  by_cases same : q = t
  · subst same
    simp [global.textures]
  · simp only [Function.update_of_ne same]
    exact global.textures q

theorem WorkerGuarantee.same : WorkerGuarantee w w where
  toGuarantee := .quiet rfl rfl rfl id
  decoded := rfl
  delivered := rfl
  handed := rfl
  exhausted := rfl

theorem worker_release (mine : w.frameMu = some .worker) {next : Ptr → Option (Holder × Picture)}
    (after : ∀ p, next p = none ∨ ∃ picture, next p = some (.thread .worker, picture))
    (global : Global w) : WorkerGuarantee w (w.release next) :=
  ⟨guarantee_release mine after global, rfl, rfl, rfl, rfl⟩

theorem present_keeps {c : Call} {answer : Answer c} (global : Global w) (legal : Legal .worker c w)
    (permitted : PresentCall c w) (effected : effect .worker c w answer w') :
    WorkerGuarantee w w' ∧ w'.codecCtx = w.codecCtx := by
  cases c with
  | lock =>
    obtain ⟨free, rfl⟩ := effected
    exact ⟨⟨guarantee_lock free, rfl, rfl, rfl, rfl⟩, rfl⟩
  | unlock =>
    obtain rfl := effected
    exact ⟨⟨guarantee_unlock legal, rfl, rfl, rfl, rfl⟩, rfl⟩
  | pendingFrame | texture | framesDecoded | framesPresented | decodeErrors | usingHardware | size
  | readFrame =>
    obtain ⟨-, rfl⟩ := effected
    exact ⟨.same, rfl⟩
  | clearPending =>
    obtain rfl := effected
    exact ⟨worker_release legal (fun _ => .inr ⟨_, rfl⟩) global, rfl⟩
  | setTextureSpec =>
    obtain rfl := effected
    exact ⟨.own fun global => { global with }, rfl⟩
  | freeFrame frame =>
    obtain rfl := effected
    exact ⟨⟨guarantee_setFrame (.inr legal) (.inl rfl), rfl, rfl, rfl, rfl⟩, rfl⟩
  | countPresented =>
    obtain rfl := effected
    exact ⟨.own fun global => { global with presented := permitted.next.counts (by omega) }, rfl⟩
  | destroyTexture =>
    obtain ⟨t, here, rfl⟩ := effected
    exact ⟨.own fun global => global.destroyTexture here, rfl⟩
  | createTexture format width height =>
    cases answer with
    | none =>
      obtain rfl := effected
      refine ⟨.own fun global => { global with textures := ?_ }, rfl⟩
      intro t
      rw [global.textures t, show w.texture = none from legal]
    | some t =>
      obtain ⟨-, rfl⟩ := effected
      exact ⟨.own fun global => global.createTexture legal _, rfl⟩
  | updateTexture planes =>
    cases answer with
    | false =>
      obtain rfl := effected
      exact ⟨.same, rfl⟩
    | true =>
      obtain ⟨t, -, rfl⟩ := effected
      exact ⟨.own fun global => global.updateTexture _, rfl⟩
  | render =>
    obtain ⟨t, image, here, found, rfl⟩ := effected
    obtain ⟨counts, order⟩ := permitted
    refine ⟨.own fun global => { global with presented := ?_, order := ?_ }, rfl⟩
    · rw [List.length_append]
      exact counts.more.counts (by omega)
    · have ordered := order t image here found
      rwa [List.append_cons] at ordered
  | _ => exact permitted.elim

theorem setup_keeps {c : Call} {answer : Answer c} (global : Global w) (legal : Legal .worker c w)
    (permitted : SetupCall c) (effected : effect .worker c w answer w') : WorkerGuarantee w w' := by
  cases c with
  | lock =>
    obtain ⟨free, rfl⟩ := effected
    exact ⟨guarantee_lock free, rfl, rfl, rfl, rfl⟩
  | unlock =>
    obtain rfl := effected
    exact ⟨guarantee_unlock legal, rfl, rfl, rfl, rfl⟩
  | pendingFrame | codecCtx | hwDeviceCtx | texture =>
    obtain ⟨-, rfl⟩ := effected
    exact .same
  | findDecoder =>
    obtain rfl := effected
    exact .same
  | freePending =>
    obtain rfl := effected
    exact worker_release legal.1 (fun _ => .inl rfl) global
  | setSize | setHwPixFmt | setUsingHardware =>
    obtain rfl := effected
    exact .own fun global => { global with }
  | createDevice =>
    cases answer with
    | none =>
      obtain rfl := effected
      have empty : w.hwDeviceCtx = none := legal
      refine .own fun global => { global with devices := ?_, apart := fun _ _ _ => nofun }
      intro d
      rw [global.devices d, empty]
    | some d =>
      obtain ⟨fresh, rfl⟩ := effected
      exact .own fun global => global.createDevice legal fresh
  | unrefDevice =>
    obtain ⟨d, here, rfl⟩ := effected
    exact .own fun global => global.unrefDevice here
  | allocContext =>
    cases answer with
    | none =>
      obtain rfl := effected
      have empty : w.codecCtx = none := legal
      refine .own fun global => { global with contexts := ?_ }
      intro c
      rw [global.contexts c, empty]
    | some c =>
      obtain ⟨-, rfl⟩ := effected
      exact .own fun global => global.allocContext legal _ rfl
  | configure | pickFormat | openCodec =>
    obtain rfl := effected
    exact .own fun global => global.setContext fun _ => rfl
  | attachDevice =>
    obtain ⟨⟨c, here, live⟩, -, unattached⟩ := legal
    cases answer with
    | none =>
      obtain rfl := effected
      refine .own fun global => global.ofContexts ?_ ?_
      · intro q
        split <;> simp
      · intro q d
        have before := unattached q d
        by_cases at_q : w.codecCtx = some q
        · simpa [Attached, at_q] using before
        · simp [Attached, at_q]
    | some d =>
      obtain ⟨fresh, rfl⟩ := effected
      exact .own fun global => global.attachDevice here fresh unattached
  | freeContext =>
    obtain ⟨c, context, here, found, rfl⟩ := effected
    exact .own fun global => global.freeContext here found
  | destroyTexture =>
    obtain ⟨t, here, rfl⟩ := effected
    exact .own fun global => global.destroyTexture here
  | _ => exact permitted.elim

end Video
end StreamEngine.Client
