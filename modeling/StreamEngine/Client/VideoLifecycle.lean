import StreamEngine.Client.VideoWorker

/-! `setup` and `cleanup` of the video renderer, which have it to themselves. Whatever fails on
the way, `setup` leaves an open decoder and returns 0, or it leaves nothing and returns -1, and
`cleanup` leaves nothing. -/
namespace StreamEngine.Client
namespace Video
open Interaction Threads

abbrev SetsUp {α : Type} : (World → Prop) → Code α → (α → World → Prop) → Prop :=
  WorkerMeets (fun _ _ => False) fun c _ => SetupCall c

variable {w w' : World} {mine : Option (Ptr × Picture)} {lock : Locking} {taken : List Image}
  {ahead : Nat} {knows knows' : Own → Prop} {kHwPixFmt width height : Int}

theorem setup_beside (w w' : World) (never : False) : SubmitGuarantee w w' := never.elim

theorem setup_calls (c : Call) (w : World) (answer : Answer c) (w' : World) (global : Global w)
    (legal : Legal .worker c w) (permitted : SetupCall c) (effected : effect .worker c w answer w') :
    WorkerGuarantee w w' := setup_keeps global legal permitted effected

theorem alone {pre : World → Prop} : Stable (fun _ _ => False) pre := fun _ _ _ => False.elim

theorem sets_done {α : Type} {a : α} {pre : World → Prop} {post : α → World → Prop}
    (holds : ∀ w, pre w → post a w) : SetsUp pre (pure a) post := meets_done alone holds

/-- What the worker's members say while the decoder is being opened. -/
structure Opening (context : Option Context) (device : Bool) (format width height : Int) (own : Own) :
    Prop where
  textured : Textured own
  context : match context with
    | none => own.codecCtx = none
    | some context => ∃ c, own.codecCtx = some c ∧ own.contexts c = some context
  device : own.hwDeviceCtx.isSome = device
  format : own.hwPixFmt = format
  size : own.width = width ∧ own.height = height

abbrev OpeningAt (context : Option Context) (device : Bool) (format width height : Int) : World → Prop :=
  WorkerAt none .out [] 0 (Opening context device format width height)

variable {context : Context} {codec : Option Context} {device : Bool} {format : Int}

theorem Opening.live (here : OpeningAt (some context) device format width height w) :
    w.Live w.codecCtx := by
  obtain ⟨c, there, found⟩ := here.own.context
  exact ⟨c, there, by simp [found]⟩

/-- A call on the context that changes nothing but it. -/
theorem sets_context (c : Call) (change : Answer c → Context → Context)
    (permitted : SetupCall c) (legal : ∀ w : World, w.Live w.codecCtx → Legal .worker c w)
    (answered : ∀ w answer w', effect .worker c w answer w' → w' = w.setContext (change answer)) :
    SetsUp (OpeningAt (some context) device format width height) (access c)
      fun answer => OpeningAt (some (change answer context)) device format width height := by
  refine works_own setup_beside setup_calls (fun w here => ⟨legal w (Opening.live here), permitted⟩) ?_
  intro w answer w' here effected
  obtain rfl := answered w answer w' effected
  obtain ⟨c, there, found⟩ := here.own.context
  refine ⟨_, rfl, rfl, rfl, { here.own with context := ⟨c, there, ?_⟩ }⟩
  simp [there, found]

theorem sets_configure : SetsUp (OpeningAt (some context) device format width height)
    (access (.configure width height)) fun _ =>
      OpeningAt (some { context with width, height }) device format width height :=
  sets_context (.configure width height) (fun _ context => { context with width, height }) trivial
    (fun _ live => live) fun _ _ _ effected => effected

theorem sets_pickFormat : SetsUp (OpeningAt (some context) device format width height)
    (access .pickFormat) fun _ =>
      OpeningAt (some { context with picks := true }) device format width height :=
  sets_context .pickFormat (fun _ context => { context with picks := true }) trivial
    (fun _ live => live) fun _ _ _ effected => effected

theorem sets_openCodec : SetsUp (OpeningAt (some context) device format width height)
    (access .openCodec) fun opened =>
      OpeningAt (some { context with opened }) device format width height :=
  sets_context .openCodec (fun opened context => { context with opened }) trivial
    (fun _ live => live) fun _ _ _ effected => effected

theorem sets_attachDevice (bare : context.device = none) :
    SetsUp (OpeningAt (some context) true format width height) (access .attachDevice) fun device =>
      OpeningAt (some { context with device }) true format width height := by
  refine works_own setup_beside setup_calls (fun w here => ⟨⟨Opening.live here, ?_, ?_⟩, trivial⟩) ?_
  · intro empty
    have device := here.own.device
    simp [empty] at device
  · rintro q d ⟨found, there, attached⟩
    obtain ⟨c, at_c, context_c⟩ := here.own.context
    obtain rfl : q = c := by
      by_contra other
      simp [here.global.contexts_one at_c other] at there
    obtain rfl := Option.some.inj (there.symm.trans context_c)
    simp [bare] at attached
  · intro w answer w' here effected
    obtain ⟨c, there, found⟩ := here.own.context
    cases answer with
    | none =>
      obtain rfl := effected
      refine ⟨_, rfl, rfl, rfl, { here.own with context := ⟨c, there, ?_⟩ }⟩
      simp [there, found]
    | some d =>
      obtain ⟨-, rfl⟩ := effected
      refine ⟨_, rfl, rfl, rfl, { here.own with context := ⟨c, there, ?_⟩ }⟩
      simp [World.setContext, there, found]

theorem sets_allocContext : SetsUp (OpeningAt none device format width height) (access .allocContext)
    fun answer => OpeningAt (answer.map fun _ => ⟨0, 0, none, false, false⟩) device format width height := by
  refine works_own setup_beside setup_calls (fun w here => ⟨here.own.context, trivial⟩) ?_
  intro w answer w' here effected
  cases answer with
  | none =>
    obtain rfl := effected
    exact ⟨_, rfl, rfl, rfl, { here.own with context := rfl }⟩
  | some c =>
    obtain ⟨-, rfl⟩ := effected
    exact ⟨_, rfl, rfl, rfl, { here.own with context := ⟨c, rfl, Function.update_self ..⟩ }⟩

theorem sets_freeContext : SetsUp (OpeningAt (some context) device format width height)
    (access .freeContext) fun _ => OpeningAt none device format width height := by
  refine works_own setup_beside setup_calls (fun w here => ⟨Opening.live here, trivial⟩) ?_
  intro w answer w' here effected
  obtain ⟨c, found, -, -, rfl⟩ := effected
  exact ⟨_, rfl, rfl, rfl, { here.own with context := rfl }⟩

theorem sets_createDevice : SetsUp (OpeningAt codec false format width height) (access .createDevice)
    fun answer => OpeningAt codec answer.isSome format width height := by
  refine works_own setup_beside setup_calls (fun w here => ⟨?_, trivial⟩) ?_
  · show w.hwDeviceCtx = none
    simpa using here.own.device
  · intro w answer w' here effected
    cases answer with
    | none =>
      obtain rfl := effected
      exact ⟨_, rfl, rfl, rfl, { here.own with device := rfl }⟩
    | some d =>
      obtain ⟨-, rfl⟩ := effected
      exact ⟨_, rfl, rfl, rfl, { here.own with device := rfl }⟩

theorem sets_unrefDevice : SetsUp (OpeningAt codec true format width height) (access .unrefDevice)
    fun _ => OpeningAt codec false format width height := by
  refine works_own setup_beside setup_calls (fun w here => ⟨?_, trivial⟩) ?_
  · intro empty
    have device := here.own.device
    simp [empty] at device
  · intro w answer w' here effected
    obtain ⟨d, -, rfl⟩ := effected
    exact ⟨_, rfl, rfl, rfl, { here.own with device := rfl }⟩

theorem sets_setHwPixFmt {format' : Int} : SetsUp (OpeningAt codec device format width height)
    (access (.setHwPixFmt format')) fun _ => OpeningAt codec device format' width height := by
  refine works_own setup_beside setup_calls (fun w here => ⟨trivial, trivial⟩) ?_
  intro w answer w' here effected
  obtain rfl := effected
  exact ⟨_, rfl, rfl, rfl, { here.own with format := rfl }⟩

/-- The decoder is open, and the worker remembers how. -/
theorem sets_setUsingHardware (kHwPixFmt : Int) {hardware : Bool} (opened : context.opened = true)
    (size : context.width = width ∧ context.height = height) (picks : context.picks = hardware)
    (settled : hardware = true ∧ device = true ∧ format = kHwPixFmt ∨
      hardware = false ∧ device = false ∧ format = -1 ∧ context.device = none) :
    SetsUp (OpeningAt (some context) device format width height) (access (.setUsingHardware hardware))
      fun _ => WorkerAt none .out [] 0 fun own =>
        Textured own ∧ Decoding kHwPixFmt own ∧ own.width = width ∧ own.height = height := by
  refine works_own setup_beside setup_calls (fun w here => ⟨trivial, trivial⟩) ?_
  intro w answer w' here effected
  obtain rfl := effected
  obtain ⟨c, there, found⟩ := here.own.context
  obtain ⟨atWidth, atHeight⟩ := here.own.size
  have attached := here.own.device
  have formatted := here.own.format
  refine ⟨_, rfl, rfl, rfl, here.own.textured, ⟨c, context, there, found, opened,
    size.1.trans atWidth.symm, size.2.trans atHeight.symm, picks, ?_⟩, atWidth, atHeight⟩
  rcases settled with ⟨rfl, rfl, rfl⟩ | ⟨rfl, rfl, rfl, bare⟩
  · exact .inl ⟨rfl, by simpa [Option.isSome_iff_ne_none] using attached, formatted⟩
  · exact .inr ⟨rfl, by simpa using attached, formatted, bare⟩

/-! ### `setup` -/

/-- The decoder is open for this size. -/
def OpenedAt (kHwPixFmt width height : Int) : World → Prop :=
  WorkerAt none .out [] 0 fun own =>
    Textured own ∧ Decoding kHwPixFmt own ∧ own.width = width ∧ own.height = height

theorem sets_openHardware :
    SetsUp (OpeningAt none true (-1) width height) (openHardware kHwPixFmt width height) fun ok w =>
      if ok = true then OpenedAt kHwPixFmt width height w
      else ∃ format, OpeningAt none true format width height w := by
  refine meets_bind sets_allocContext fun answer => ?_
  cases answer with
  | none => exact sets_done fun w here => ⟨_, here⟩
  | some c =>
    refine meets_bind sets_configure fun _ => ?_
    refine meets_bind (sets_attachDevice rfl) fun device => ?_
    refine meets_bind sets_setHwPixFmt fun _ => ?_
    refine meets_bind sets_pickFormat fun _ => ?_
    refine meets_bind sets_openCodec fun opened => ?_
    refine meets_ite (fun held => ?_) fun _ => ?_
    · refine meets_bind
        (sets_setUsingHardware kHwPixFmt held ⟨rfl, rfl⟩ rfl (.inl ⟨rfl, rfl, rfl⟩)) fun _ => ?_
      exact sets_done fun w here => here
    · exact meets_bind sets_freeContext fun _ => sets_done fun w here => ⟨_, here⟩

theorem sets_setupHardware :
    SetsUp (OpeningAt none false (-1) width height) (setupHardware kHwPixFmt width height) fun ok w =>
      if ok = true then OpenedAt kHwPixFmt width height w
      else OpeningAt none false (-1) width height w := by
  refine meets_bind sets_createDevice fun answer => ?_
  cases answer with
  | none => exact sets_done fun w here => here
  | some d =>
    refine meets_bind sets_openHardware fun ok => ?_
    cases ok with
    | true => exact sets_done fun w here => here
    | false =>
      refine meets_exists fun format => ?_
      refine meets_bind sets_unrefDevice fun _ => ?_
      exact meets_bind sets_setHwPixFmt fun _ => sets_done fun w here => here

/-- What `setup` returns says what it leaves. -/
def SetUp (kHwPixFmt width height rc : Int) (w : World) : Prop :=
  rc = 0 ∧ OpenedAt kHwPixFmt width height w ∨
    rc = -1 ∧ OpeningAt none false (-1) width height w

theorem sets_setupSoftware :
    SetsUp (OpeningAt none false (-1) width height) (setupSoftware width height)
      (SetUp kHwPixFmt width height) := by
  refine meets_bind sets_allocContext fun answer => ?_
  cases answer with
  | none => exact sets_done fun w here => .inr ⟨rfl, here⟩
  | some c =>
    refine meets_bind sets_configure fun _ => ?_
    refine meets_bind sets_openCodec fun opened => ?_
    refine meets_ite (fun _ => ?_) fun held => ?_
    · exact meets_bind sets_freeContext fun _ => sets_done fun w here => .inr ⟨rfl, here⟩
    · have held : opened = true := by simpa using held
      refine meets_bind (sets_setUsingHardware kHwPixFmt held ⟨rfl, rfl⟩ rfl
        (.inr ⟨rfl, rfl, rfl, rfl⟩)) fun _ => ?_
      exact sets_done fun w here => .inl ⟨rfl, here⟩

theorem sets_setSize : SetsUp (WorkerAt none .out [] 0 fun own => Textured own ∧ Closed own)
    (access (.setSize width height)) fun _ => OpeningAt none false (-1) width height := by
  refine works_own setup_beside setup_calls (fun w here => ⟨trivial, trivial⟩) ?_
  intro w answer w' here effected
  obtain rfl := effected
  obtain ⟨textured, codec, device, format⟩ := here.own
  exact ⟨_, rfl, rfl, rfl, textured, codec, by simp [device], format, rfl, rfl⟩

theorem sets_findDecoder : SetsUp (OpeningAt none false (-1) width height) (access .findDecoder)
    fun _ => OpeningAt none false (-1) width height := by
  refine works_own setup_beside setup_calls (fun w here => ⟨trivial, trivial⟩) ?_
  intro w answer w' here effected
  obtain rfl := effected
  exact ⟨_, rfl, rfl, rfl, here.own⟩

theorem sets_setup : SetsUp (WorkerAt none .out [] 0 fun own => Textured own ∧ Closed own)
    (setup kHwPixFmt width height) (SetUp kHwPixFmt width height) := by
  refine meets_bind sets_setSize fun _ => ?_
  refine meets_bind sets_findDecoder fun found => ?_
  refine meets_ite (fun _ => sets_done fun w here => .inr ⟨rfl, here⟩) fun _ => ?_
  refine meets_bind sets_setupHardware fun ok => ?_
  cases ok with
  | true => exact sets_done fun w here => .inl ⟨rfl, here⟩
  | false => exact sets_setupSoftware

/-! ### `cleanup` -/

theorem sets_freePending {pending : Option Ptr} (full : pending ≠ none) :
    SetsUp (WorkerAt none (.knows pending) [] 0 knows) (access .freePending)
      fun _ => WorkerAt none (.knows none) [] 0 knows := by
  refine works_step setup_beside setup_calls
    (fun w here => ⟨⟨here.lock.1, here.lock.2 ▸ full⟩, trivial⟩) ?_
  intro w answer w' here effected
  obtain rfl := effected
  refine ⟨?_, ⟨here.lock.1, rfl⟩, ?_, here.counted, here.own⟩
  · intro q picture
    by_cases slot : w.pendingFrame = some q
    · simp [World.release, slot]
    · simpa [World.release, slot] using here.holds q picture
  · rw [waiting_none rfl, List.append_nil, List.append_nil]
    exact (List.sublist_append_left w.shown _).trans here.order

theorem sets_dropPending {pending : Option Ptr} :
    SetsUp (WorkerAt none (.knows pending) [] 0 knows) (onlyIf (pending ≠ none) (access .freePending))
      fun _ => WorkerAt none (.knows none) [] 0 knows := by
  refine meets_ite sets_freePending fun empty => ?_
  rw [not_not] at empty
  subst empty
  exact sets_done fun _ here => here

/-- With nobody beside it the slot stays empty when the mutex is released. -/
theorem sets_unlock : SetsUp (WorkerAt none (.knows none) [] 0 knows) (access .unlock)
    fun _ w => WorkerAt none .out [] 0 knows w ∧ w.pendingFrame = none := by
  refine meets_request alone (fun w here => ⟨here.global, here.lock.1, trivial⟩) ?_ fun _ => alone
  intro w answer w' here effected
  have kept := setup_calls .unlock w answer w' here.global here.lock.1 trivial effected
  obtain rfl := effected
  exact ⟨⟨kept.global here.global, here.holds, nofun, here.order, here.counted, here.own⟩, here.lock.2⟩

theorem setup_pending {c : Call} {answer : Answer c} (permitted : SetupCall c)
    (effected : effect .worker c w answer w') (empty : w.pendingFrame = none) :
    w'.pendingFrame = none := by
  cases c with
  | lock | pendingFrame | codecCtx | hwDeviceCtx | texture =>
    obtain ⟨-, rfl⟩ := effected
    exact empty
  | unlock | freePending | setSize | setHwPixFmt | setUsingHardware | findDecoder | configure
  | pickFormat | openCodec =>
    obtain rfl := effected
    first | exact empty | rfl
  | createDevice | allocContext | attachDevice =>
    cases answer with
    | none =>
      obtain rfl := effected
      exact empty
    | some =>
      obtain ⟨-, rfl⟩ := effected
      exact empty
  | unrefDevice | destroyTexture =>
    obtain ⟨_, -, rfl⟩ := effected
    exact empty
  | freeContext =>
    obtain ⟨_, _, -, -, rfl⟩ := effected
    exact empty
  | _ => exact permitted.elim

/-- A member is read, and what it points to is released if it points to something. -/
theorem sets_read (c : Call) (member : Own → Answer c)
    (permitted : ∀ w, Legal .worker c w ∧ SetupCall c)
    (reads : ∀ w answer w', effect .worker c w answer w' → answer = member w.toOwn ∧ w' = w) :
    SetsUp (WorkerAt none .out [] 0 knows) (access c) fun answer =>
      WorkerAt none .out [] 0 fun own => member own = answer ∧ knows own := by
  refine works_own setup_beside setup_calls (fun w _ => permitted w) ?_
  intro w answer w' here effected
  obtain ⟨rfl, rfl⟩ := reads w answer w' effected
  exact ⟨_, rfl, rfl, rfl, rfl, here.own⟩

theorem sets_dropTexture {texture : Option Ptr × Int × Int × Int} :
    SetsUp (WorkerAt none .out [] 0 fun own =>
        (own.texture, own.texFmt, own.texW, own.texH) = texture ∧ True)
      (onlyIf (texture.1 ≠ none) (access .destroyTexture)) fun _ =>
        WorkerAt none .out [] 0 fun own => own.texture = none ∧ True := by
  refine meets_ite (fun full => ?_) fun empty => ?_
  · refine meets_weaken (works_destroyTexture setup_beside setup_calls (fun _ => trivial) full
      fun _ _ _ => id) ?_ fun _ _ => id
    exact fun w here => here.weaken fun own known => ⟨(Prod.ext_iff.mp known.1).1, trivial⟩
  · refine sets_done fun w here => here.weaken fun own known => ?_
    exact ⟨(Prod.ext_iff.mp known.1).1.trans (not_not.mp empty), trivial⟩

theorem sets_dropContext {codec : Option Ptr} :
    SetsUp (WorkerAt none .out [] 0 fun own => own.codecCtx = codec ∧ own.texture = none)
      (onlyIf (codec ≠ none) (access .freeContext)) fun _ =>
        WorkerAt none .out [] 0 fun own => own.codecCtx = none ∧ own.texture = none := by
  refine meets_ite (fun full => ?_) fun empty => ?_
  · obtain ⟨c, rfl⟩ := Option.ne_none_iff_exists'.mp full
    refine works_own setup_beside setup_calls (fun w here => ⟨?_, trivial⟩) ?_
    · exact ⟨c, here.own.1, (here.global.contexts c).mpr here.own.1⟩
    · intro w answer w' here effected
      obtain ⟨c', found, -, -, rfl⟩ := effected
      exact ⟨_, rfl, rfl, rfl, rfl, here.own.2⟩
  · exact sets_done fun w here => here.weaken fun own known =>
      ⟨known.1.trans (not_not.mp empty), known.2⟩

theorem sets_dropDevice {device : Option Ptr} :
    SetsUp (WorkerAt none .out [] 0 fun own =>
        own.hwDeviceCtx = device ∧ own.codecCtx = none ∧ own.texture = none)
      (onlyIf (device ≠ none) (access .unrefDevice)) fun _ => WorkerAt none .out [] 0 fun own =>
        own.hwDeviceCtx = none ∧ own.codecCtx = none ∧ own.texture = none := by
  refine meets_ite (fun full => ?_) fun empty => ?_
  · refine works_own setup_beside setup_calls (fun w here => ⟨?_, trivial⟩) ?_
    · exact fun none => full (here.own.1.symm.trans none)
    · intro w answer w' here effected
      obtain ⟨d, -, rfl⟩ := effected
      exact ⟨_, rfl, rfl, rfl, rfl, here.own.2⟩
  · exact sets_done fun w here => here.weaken fun own known =>
      ⟨known.1.trans (not_not.mp empty), known.2⟩

/-- Nothing is left. -/
def Cleaned (w : World) : Prop :=
  WorkerAt none .out [] 0 (fun own => Closed own ∧ own.texture = none) w ∧ w.pendingFrame = none

theorem sets_releaseOwn : SetsUp (WorkerAt none .out [] 0 knows) releaseOwn
    fun _ => WorkerAt none .out [] 0 fun own => Closed own ∧ own.texture = none := by
  have texture : SetsUp (WorkerAt none .out [] 0 knows) (access .texture) fun answer =>
      WorkerAt none .out [] 0 fun own =>
        (own.texture, own.texFmt, own.texW, own.texH) = answer ∧ True :=
    meets_weaken (sets_read .texture (fun own => (own.texture, own.texFmt, own.texW, own.texH))
        (fun _ => ⟨trivial, trivial⟩) fun _ _ _ effected => effected)
      (fun w here => here.weaken fun _ _ => trivial) fun _ _ => id
  have codec : SetsUp (WorkerAt none .out [] 0 fun own => own.texture = none ∧ True) (access .codecCtx)
      fun answer => WorkerAt none .out [] 0 fun own => own.codecCtx = answer ∧ own.texture = none :=
    meets_weaken (sets_read .codecCtx (fun own => own.codecCtx) (fun _ => ⟨trivial, trivial⟩)
        fun _ _ _ effected => effected)
      (fun w here => here) fun _ w here => here.weaken fun _ known => ⟨known.1, known.2.1⟩
  have device : SetsUp (WorkerAt none .out [] 0 fun own => own.codecCtx = none ∧ own.texture = none)
      (access .hwDeviceCtx) fun answer => WorkerAt none .out [] 0 fun own =>
        own.hwDeviceCtx = answer ∧ own.codecCtx = none ∧ own.texture = none :=
    sets_read .hwDeviceCtx (fun own => own.hwDeviceCtx) (fun _ => ⟨trivial, trivial⟩)
      fun _ _ _ effected => effected
  refine meets_bind texture fun _ => meets_bind sets_dropTexture fun _ => ?_
  refine meets_bind codec fun _ => meets_bind sets_dropContext fun _ => ?_
  refine meets_bind device fun _ => meets_bind sets_dropDevice fun _ => ?_
  refine works_own setup_beside setup_calls (fun w here => ⟨trivial, trivial⟩) ?_
  intro w answer w' here effected
  obtain rfl := effected
  obtain ⟨device, codec, texture⟩ := here.own
  exact ⟨_, rfl, rfl, rfl, ⟨codec, device, rfl⟩, texture⟩

theorem sets_cleanup : SetsUp (WorkerAt none .out [] 0 knows) cleanup fun _ => Cleaned := by
  refine meets_bind (works_lock setup_beside setup_calls fun _ => trivial) fun _ => ?_
  refine meets_bind (works_pendingFrame setup_beside setup_calls fun _ => trivial) fun pending => ?_
  refine meets_bind sets_dropPending fun _ => ?_
  refine meets_bind sets_unlock fun _ => ?_
  refine meets_frame alone ?_ sets_releaseOwn
  exact fun c w answer w' allowed effected empty => setup_pending allowed.2.2 effected empty

end Video
end StreamEngine.Client
