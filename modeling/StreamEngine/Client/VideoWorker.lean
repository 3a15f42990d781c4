import StreamEngine.Client.VideoSubmit

/-! The worker's side of the video renderer: `setup`, `present`, `stats` and `cleanup`. What the
worker shows is the latest frame that was handed over when it looked, in the order in which the
frames were handed over. -/
namespace StreamEngine.Client
namespace Video
open Interaction Threads

/-- The frame of the worker, what it knows of the slot, what it has taken and not shown, how many
images it has shown and not counted, and what it knows of its own members. -/
structure WorkerAt (mine : Option (Ptr × Picture)) (lock : Locking) (taken : List Image) (ahead : Nat)
    (knows : Own → Prop) (w : World) : Prop where
  global : Global w
  holds : ∀ p picture, w.frames p = some (.thread .worker, picture) ↔ mine = some (p, picture)
  lock : lock.At .worker w
  order : (w.shown ++ (taken ++ w.waiting)).Sublist (w.handed.filterMap Picture.image)
  counted : CountsTo w.framesPresented w.shown.length ahead
  own : knows w.toOwn

def workerAllowed (permit : Call → World → Prop) (c : Call) (w : World) : Prop :=
  Global w ∧ Legal .worker c w ∧ permit c w

abbrev WorkerMeets {α : Type} (drift : World → World → Prop) (permit : Call → World → Prop)
    (pre : World → Prop) (program : Code α) (post : α → World → Prop) : Prop :=
  Interaction.Meets (effect .worker) drift (workerAllowed permit) pre program post

variable {w w' : World} {mine : Option (Ptr × Picture)} {lock : Locking} {taken : List Image}
  {ahead : Nat} {knows knows' : Own → Prop} {p : Ptr} {picture : Picture}

theorem WorkerAt.drift (before : WorkerAt mine lock taken ahead knows w)
    (drift : SubmitGuarantee w w') : WorkerAt mine lock taken ahead knows w' where
  global := drift.global before.global
  holds q other := (drift.frames q other).trans (before.holds q other)
  lock := by
    have locked := before.lock
    cases lock with
    | out => exact fun held => locked (drift.taken held)
    | inside => exact (drift.excluded locked).1
    | knows pending => exact ⟨(drift.excluded locked.1).1, (drift.excluded locked.1).2.trans locked.2⟩
  order := by
    have ordered := before.order
    rw [← List.append_assoc] at ordered ⊢
    rw [drift.own]
    exact drift.order before.global _ ordered
  counted := by
    rw [drift.own]
    exact before.counted
  own := by
    rw [drift.own]
    exact before.own

theorem WorkerAt.weaken (here : WorkerAt mine lock taken ahead knows w)
    (weaker : ∀ own, knows own → knows' own) : WorkerAt mine lock taken ahead knows' w :=
  { here with own := weaker _ here.own }

theorem WorkerAt.has (here : WorkerAt (some (p, picture)) lock taken ahead knows w) :
    w.Has .worker p := ⟨picture, (here.holds p picture).mpr rfl⟩

section Calls
variable {drift : World → World → Prop} {permit : Call → World → Prop}
  (beside : ∀ w w', drift w w' → SubmitGuarantee w w')
  (keeps : ∀ c w (answer : Answer c) w', Global w → Legal .worker c w → permit c w →
    effect .worker c w answer w' → WorkerGuarantee w w')

include beside in
theorem worker_stable : Stable drift (WorkerAt mine lock taken ahead knows) :=
  fun _ _ before drifted => before.drift (beside _ _ drifted)

include beside keeps in
/-- A call, by what it makes of the worker's frame, the slot and what the worker knows. -/
theorem works_step {c : Call} {mine' : Answer c → Option (Ptr × Picture)}
    {lock' : Answer c → Locking} {taken' : List Image} {ahead' : Nat} {knows' : Answer c → Own → Prop}
    (permitted : ∀ w, WorkerAt mine lock taken ahead knows w → Legal .worker c w ∧ permit c w)
    (answered : ∀ w answer w', WorkerAt mine lock taken ahead knows w → effect .worker c w answer w' →
      (∀ p picture, w'.frames p = some (.thread .worker, picture) ↔
        mine' answer = some (p, picture)) ∧
      (lock' answer).At .worker w' ∧
      (w'.shown ++ (taken' ++ w'.waiting)).Sublist (w'.handed.filterMap Picture.image) ∧
      CountsTo w'.framesPresented w'.shown.length ahead' ∧ knows' answer w'.toOwn) :
    WorkerMeets drift permit (WorkerAt mine lock taken ahead knows) (access c)
      fun answer => WorkerAt (mine' answer) (lock' answer) taken' ahead' (knows' answer) := by
  refine meets_request (worker_stable beside) (fun w here => ⟨here.global, permitted w here⟩) ?_
    fun _ => worker_stable beside
  intro w answer w' here effected
  obtain ⟨legal, call⟩ := permitted w here
  have kept := keeps c w answer w' here.global legal call effected
  obtain ⟨holds, locked, order, counted, own⟩ := answered w answer w' here effected
  exact ⟨kept.global here.global, holds, locked, order, counted, own⟩

include beside keeps in
/-- A call that changes only the worker's own members, but not what was shown. -/
theorem works_own {c : Call} {knows' : Answer c → Own → Prop}
    (permitted : ∀ w, WorkerAt mine lock taken ahead knows w → Legal .worker c w ∧ permit c w)
    (answered : ∀ w answer w', WorkerAt mine lock taken ahead knows w → effect .worker c w answer w' →
      ∃ own, w' = { w with toOwn := own } ∧ own.shown = w.shown ∧
        own.framesPresented = w.framesPresented ∧ knows' answer own) :
    WorkerMeets drift permit (WorkerAt mine lock taken ahead knows) (access c)
      fun answer => WorkerAt mine lock taken ahead (knows' answer) := by
  refine works_step beside keeps permitted ?_
  intro w answer w' here effected
  obtain ⟨own, rfl, shown, presented, known⟩ := answered w answer w' here effected
  have order := here.order
  have counted := here.counted
  rw [← shown] at order counted
  rw [← presented] at counted
  exact ⟨here.holds, here.lock.congr rfl rfl, order, counted, known⟩

include beside keeps in
theorem works_lock (permitted : ∀ w, permit .lock w) :
    WorkerMeets drift permit (WorkerAt mine .out taken ahead knows) (access .lock)
      fun _ => WorkerAt mine .inside taken ahead knows := by
  refine works_step beside keeps (fun w here => ⟨here.lock, permitted w⟩) ?_
  intro w answer w' here effected
  obtain ⟨-, rfl⟩ := effected
  exact ⟨here.holds, rfl, here.order, here.counted, here.own⟩

include beside keeps in
theorem works_unlock (permitted : ∀ w, permit .unlock w) :
    WorkerMeets drift permit (WorkerAt mine .inside taken ahead knows) (access .unlock)
      fun _ => WorkerAt mine .out taken ahead knows := by
  refine works_step beside keeps (fun w here => ⟨here.lock, permitted w⟩) ?_
  intro w answer w' here effected
  obtain rfl := effected
  exact ⟨here.holds, nofun, here.order, here.counted, here.own⟩

include beside keeps in
theorem works_pendingFrame (permitted : ∀ w, permit .pendingFrame w) :
    WorkerMeets drift permit (WorkerAt mine .inside taken ahead knows) (access .pendingFrame)
      fun pending => WorkerAt mine (.knows pending) taken ahead knows := by
  refine works_step beside keeps (fun w here => ⟨here.lock, permitted w⟩) ?_
  intro w answer w' here effected
  obtain ⟨rfl, rfl⟩ := effected
  exact ⟨here.holds, ⟨here.lock, rfl⟩, here.order, here.counted, here.own⟩

include beside keeps in
theorem works_destroyTexture (permitted : ∀ w, permit .destroyTexture w) (full : texture ≠ none)
    (forget : ∀ own textures, own.texture = texture → knows own →
      knows' { own with texture := none, textures := textures }) :
    WorkerMeets drift permit
      (WorkerAt mine lock taken ahead fun own => own.texture = texture ∧ knows own)
      (access .destroyTexture)
      fun _ => WorkerAt mine lock taken ahead fun own => own.texture = none ∧ knows' own := by
  refine works_own beside keeps (fun w here => ⟨?_, permitted w⟩) ?_
  · obtain ⟨t, rfl⟩ := Option.ne_none_iff_exists'.mp full
    exact ⟨t, here.own.1, (here.global.textures t).mpr here.own.1⟩
  · intro w answer w' here effected
    obtain ⟨t, -, rfl⟩ := effected
    exact ⟨_, rfl, rfl, rfl, rfl, forget _ _ here.own.1 here.own.2⟩

end Calls

/-! ### What the worker leaves behind -/

/-- The texture is what `texFmt_`, `texW_` and `texH_` say. -/
def Textured (own : Own) : Prop :=
  ∀ t, own.texture = some t →
    ∃ planes, own.textures t = some ⟨own.texFmt, own.texW, own.texH, planes⟩

def Closed (own : Own) : Prop :=
  own.codecCtx = none ∧ own.hwDeviceCtx = none ∧ own.hwPixFmt = -1

/-- An open decoder of the size asked for. With a device it picks the format of the device. -/
def Decoding (kHwPixFmt : Int) (own : Own) : Prop :=
  ∃ c context, own.codecCtx = some c ∧ own.contexts c = some context ∧ context.opened = true ∧
    context.width = own.width ∧ context.height = own.height ∧ context.picks = own.usingHardware ∧
      ((own.usingHardware = true ∧ own.hwDeviceCtx ≠ none ∧ own.hwPixFmt = kHwPixFmt) ∨
        (own.usingHardware = false ∧ own.hwDeviceCtx = none ∧ own.hwPixFmt = -1 ∧
          context.device = none))

/-- Between methods the renderer is closed or decoding. -/
def Resting (kHwPixFmt : Int) (own : Own) : Prop :=
  Textured own ∧ (Closed own ∨ Decoding kHwPixFmt own)

/-! ### `present` and `stats` -/

/-- What the submit thread may do beside `present` and `stats`. -/
abbrev Presents {α : Type} : (World → Prop) → Code α → (α → World → Prop) → Prop :=
  WorkerMeets SubmitGuarantee PresentCall

variable {kHwPixFmt : Int} {image : Image}

theorem presents_beside (w w' : World) (guarantee : SubmitGuarantee w w') : SubmitGuarantee w w' :=
  guarantee

theorem presents_keeps (c : Call) (w : World) (answer : Answer c) (w' : World) (global : Global w)
    (legal : Legal .worker c w) (permitted : PresentCall c w)
    (effected : effect .worker c w answer w') : WorkerGuarantee w w' :=
  (present_keeps global legal permitted effected).1

theorem presents_stable : Stable SubmitGuarantee (WorkerAt mine lock taken ahead knows) :=
  worker_stable presents_beside

theorem presents_weaken {α : Type} {program : Code α} {post : α → World → Prop}
    (presents : Presents (WorkerAt mine lock taken ahead knows') program post)
    (stronger : ∀ own, knows own → knows' own) :
    Presents (WorkerAt mine lock taken ahead knows) program post :=
  meets_weaken presents (fun _ here => here.weaken stronger) fun _ _ => id

/-- What is in the slot becomes the worker's, and is what it may show next. -/
theorem presents_clearPending {pending : Option Ptr} :
    Presents (WorkerAt none (.knows pending) [] 0 knows) (access .clearPending) fun _ w =>
      match pending with
      | none => WorkerAt none .inside [] 0 knows w
      | some p => ∃ picture, WorkerAt (some (p, picture)) .inside picture.image.toList 0 knows w := by
  refine meets_request presents_stable (fun w here => ⟨here.global, here.lock.1, trivial⟩) ?_ ?_
  · intro w answer w' here effected
    obtain ⟨mutex, rfl⟩ := here.lock
    have kept := presents_keeps .clearPending w answer w' here.global mutex trivial effected
    obtain rfl := effected
    have global := kept.global here.global
    cases slot : w.pendingFrame with
    | none =>
      have order := here.order
      rw [waiting_none slot] at order
      refine ⟨global, ?_, mutex, ?_, here.counted, here.own⟩
      · simpa [World.release, slot] using here.holds
      · rwa [waiting_none rfl]
    | some p =>
      have order := here.order
      rw [waiting_some slot, List.nil_append] at order
      refine ⟨w.picture p, global, ?_, mutex, ?_, here.counted, here.own⟩
      · intro q picture
        by_cases same : p = q
        · subst same
          simp [World.release, slot]
        · have others := here.holds q picture
          simpa [World.release, slot, same] using others
      · rwa [waiting_none rfl, List.append_nil]
  · intro answer
    cases pending with
    | none => exact presents_stable
    | some p =>
      rintro w w' ⟨picture, before⟩ drift
      exact ⟨picture, before.drift drift⟩

theorem presents_readFrame :
    Presents (WorkerAt (some (p, picture)) lock taken ahead knows) (access (.readFrame p))
      fun answer w => answer = picture ∧ WorkerAt (some (p, picture)) lock taken ahead knows w := by
  refine meets_request presents_stable (fun w here => ⟨here.global, here.has, trivial⟩) ?_ ?_
  · intro w answer w' here effected
    obtain ⟨rfl, rfl⟩ := effected
    refine ⟨?_, here⟩
    rw [World.picture, (here.holds p picture).mpr rfl]
    rfl
  · exact fun answer w w' before drift => ⟨before.1, before.2.drift drift⟩

theorem presents_freeFrame :
    Presents (WorkerAt (some (p, picture)) lock taken ahead knows) (access (.freeFrame p))
      fun _ => WorkerAt none lock taken ahead knows := by
  refine works_step presents_beside presents_keeps (fun w here => ⟨here.has, trivial⟩) ?_
  intro w answer w' here effected
  obtain rfl := effected
  refine ⟨?_, here.lock.congr rfl rfl, ?_, here.counted, here.own⟩
  · intro q other
    by_cases same : q = p
    · subst same
      simp
    · have others := here.holds q other
      simpa [World.setFrame_other same, Ne.symm same] using others
  · rw [waiting_setFrame here.global here.has.not_slot]
    exact here.order

/-- The texture is one of this format and size. -/
def Fits (format width height : Int) (own : Own) : Prop :=
  ∃ t planes, own.texture = some t ∧ own.textures t = some ⟨format, width, height, planes⟩

theorem presents_createTexture {format width height : Int} :
    Presents (WorkerAt mine lock taken ahead fun own =>
        own.texture = none ∧ (Closed own ∨ Decoding kHwPixFmt own))
      (access (.createTexture format width height)) fun answer => WorkerAt mine lock taken ahead fun own =>
        own.texture = answer ∧ (answer ≠ none → Fits format width height own) ∧
          (Closed own ∨ Decoding kHwPixFmt own) := by
  refine works_own presents_beside presents_keeps (fun w here => ⟨here.own.1, trivial⟩) ?_
  intro w answer w' here effected
  cases answer with
  | none =>
    obtain rfl := effected
    exact ⟨_, rfl, rfl, rfl, rfl, nofun, here.own.2⟩
  | some t =>
    obtain ⟨-, rfl⟩ := effected
    exact ⟨_, rfl, rfl, rfl, rfl, fun _ => ⟨t, [], rfl, Function.update_self ..⟩, here.own.2⟩

theorem presents_setTextureSpec (kHwPixFmt : Int) {format width height : Int} :
    Presents (WorkerAt mine lock taken ahead fun own => Fits format width height own ∧
        (Closed own ∨ Decoding kHwPixFmt own))
      (access (.setTextureSpec format width height)) fun _ => WorkerAt mine lock taken ahead fun own =>
        Fits format width height own ∧ Resting kHwPixFmt own := by
  refine works_own presents_beside presents_keeps (fun w here => ⟨trivial, trivial⟩) ?_
  intro w answer w' here effected
  obtain rfl := effected
  obtain ⟨⟨t, planes, there, found⟩, settled⟩ := here.own
  refine ⟨_, rfl, rfl, rfl, ⟨t, planes, there, found⟩, ?_, settled⟩
  intro u at_u
  obtain rfl : t = u := Option.some.inj (there.symm.trans at_u)
  exact ⟨planes, found⟩

theorem presents_ensureTexture {format width height : Int} :
    Presents (WorkerAt mine lock taken ahead (Resting kHwPixFmt)) (ensureTexture format width height)
      fun ok => WorkerAt mine lock taken ahead fun own =>
        (ok = true → Fits format width height own) ∧ Resting kHwPixFmt own := by
  -- What was read of the members stays so, and the texture is kept or replaced.
  have read : Presents (WorkerAt mine lock taken ahead (Resting kHwPixFmt)) (access .texture)
      fun answer => WorkerAt mine lock taken ahead fun own =>
        (own.texture, own.texFmt, own.texW, own.texH) = answer ∧ Resting kHwPixFmt own := by
    refine works_own presents_beside presents_keeps (fun w here => ⟨trivial, trivial⟩) ?_
    intro w answer w' here effected
    obtain ⟨rfl, rfl⟩ := effected
    exact ⟨_, rfl, rfl, rfl, rfl, here.own⟩
  refine meets_bind read fun ⟨texture, texFmt, texW, texH⟩ => ?_
  refine meets_ite (fun same => ?_) fun different => ?_
  · obtain ⟨full, rfl, rfl, rfl⟩ := same
    refine meets_done presents_stable fun w here => here.weaken fun own known => ?_
    obtain ⟨members, resting⟩ := known
    obtain ⟨rfl, rfl, rfl, rfl⟩ : own.texture = texture ∧ own.texFmt = texFmt ∧ own.texW = texW ∧
        own.texH = texH := by simpa using members
    obtain ⟨t, there⟩ := Option.ne_none_iff_exists'.mp full
    obtain ⟨planes, found⟩ := resting.1 t there
    exact ⟨fun _ => ⟨t, planes, there, found⟩, resting⟩
  · have dropped : Presents (WorkerAt mine lock taken ahead fun own =>
          (own.texture, own.texFmt, own.texW, own.texH) = (texture, texFmt, texW, texH) ∧
            Resting kHwPixFmt own)
        (onlyIf (texture ≠ none) (access .destroyTexture)) fun _ => WorkerAt mine lock taken ahead
          fun own => own.texture = none ∧ (Closed own ∨ Decoding kHwPixFmt own) := by
      refine meets_ite (fun full => ?_) fun empty => ?_
      · have destroyed : Presents (WorkerAt mine lock taken ahead fun own => own.texture = texture ∧
            (Closed own ∨ Decoding kHwPixFmt own)) (access .destroyTexture) fun _ =>
              WorkerAt mine lock taken ahead fun own => own.texture = none ∧
                (Closed own ∨ Decoding kHwPixFmt own) :=
          works_destroyTexture presents_beside presents_keeps (fun _ => trivial) full
            fun _ _ _ settled => settled
        exact presents_weaken destroyed fun own known => ⟨(Prod.mk.inj known.1).1, known.2.2⟩
      · refine meets_done presents_stable fun w here => here.weaken fun own known => ?_
        exact ⟨(Prod.mk.inj known.1).1.trans (not_not.mp empty), known.2.2⟩
    refine meets_bind dropped fun _ => meets_bind presents_createTexture fun created => ?_
    refine meets_ite (fun failed => ?_) fun some => ?_
    · subst failed
      refine meets_done presents_stable fun w here => here.weaken fun own known => ?_
      refine ⟨nofun, ?_, known.2.2⟩
      intro t there
      simp [known.1] at there
    · refine meets_bind (presents_weaken (presents_setTextureSpec kHwPixFmt) ?_) fun _ => ?_
      · exact fun own known => ⟨known.2.1 some, known.2.2⟩
      · exact meets_done presents_stable fun w here =>
          here.weaken fun own known => ⟨fun _ => known.1, known.2⟩

/-- The texture is this image. -/
def Loaded (image : Image) (own : Own) : Prop :=
  ∃ t, own.texture = some t ∧ own.textures t = some image

theorem presents_updateTexture (image : Image) :
    Presents (WorkerAt mine lock taken ahead fun own =>
        Fits image.format image.width image.height own ∧ Resting kHwPixFmt own)
      (access (.updateTexture image.planes)) fun ok => WorkerAt mine lock taken ahead fun own =>
        (ok = true → Loaded image own) ∧ Resting kHwPixFmt own := by
  refine works_own presents_beside presents_keeps (fun w here => ⟨?_, trivial⟩) ?_
  · obtain ⟨t, planes, there, found⟩ := here.own.1
    exact ⟨t, there, by simp [found]⟩
  · intro w answer w' here effected
    obtain ⟨⟨t, planes, there, found⟩, textured, settled⟩ := here.own
    cases answer with
    | false =>
      obtain rfl := effected
      exact ⟨_, rfl, rfl, rfl, nofun, textured, settled⟩
    | true =>
      obtain ⟨u, at_u, rfl⟩ := effected
      obtain rfl : t = u := Option.some.inj (there.symm.trans at_u)
      refine ⟨_, rfl, rfl, rfl, fun _ => ⟨t, there, ?_⟩, ?_, settled⟩
      · simp [found]
      · intro v at_v
        obtain rfl : t = v := Option.some.inj (there.symm.trans at_v)
        obtain ⟨was, spec⟩ := textured t there
        rw [found, Option.some_inj, Image.mk.injEq] at spec
        obtain ⟨format, width, height, -⟩ := spec
        exact ⟨image.planes, by simp [found, format, width, height]⟩

theorem presents_upload :
    Presents (WorkerAt mine lock taken ahead (Resting kHwPixFmt)) (upload picture)
      fun ok => WorkerAt mine lock taken ahead fun own =>
        (ok = true → ∃ image, picture.image = some image ∧ Loaded image own) ∧ Resting kHwPixFmt own := by
  unfold upload
  cases shape : picture.image with
  | none =>
    exact meets_done presents_stable fun w here => here.weaken fun own known => ⟨nofun, known⟩
  | some image =>
    refine meets_bind presents_ensureTexture fun ok => ?_
    refine meets_ite (fun _ => ?_) fun fits => ?_
    · exact meets_done presents_stable fun w here =>
        here.weaken fun own known => ⟨nofun, known.2⟩
    · have there : ok = true := by simpa using fits
      refine meets_weaken (presents_updateTexture image)
        (fun w here => here.weaken fun own known => ⟨known.1 there, known.2⟩) ?_
      exact fun ok w here => here.weaken fun own known => ⟨fun held => ⟨image, rfl, known.1 held⟩, known.2⟩

/-- The image that was taken is shown. -/
theorem presents_render : Presents (WorkerAt mine lock [image] 0 fun own => Loaded image own ∧
      Resting kHwPixFmt own) (access .render)
    fun _ => WorkerAt mine lock [] 1 (Resting kHwPixFmt) := by
  refine works_step presents_beside presents_keeps (fun w here => ⟨?_, here.counted, ?_⟩) ?_
  · obtain ⟨t, there, found⟩ := here.own.1
    exact ⟨t, there, by simp [found]⟩
  · obtain ⟨t, there, found⟩ := here.own.1
    intro u image' at_u found'
    obtain rfl : t = u := Option.some.inj (there.symm.trans at_u)
    obtain rfl : image = image' := Option.some.inj (found.symm.trans found')
    exact here.order
  · intro w answer w' here effected
    obtain ⟨u, image', at_u, found', rfl⟩ := effected
    obtain ⟨⟨t, there, found⟩, resting⟩ := here.own
    obtain rfl : t = u := Option.some.inj (there.symm.trans at_u)
    obtain rfl : image = image' := Option.some.inj (found.symm.trans found')
    refine ⟨here.holds, here.lock.congr rfl rfl, ?_, ?_, resting⟩
    · rw [List.nil_append, ← List.append_cons]
      exact here.order
    · rw [List.length_append]
      exact here.counted.more

theorem presents_countPresented : Presents (WorkerAt mine lock [] 1 (Resting kHwPixFmt))
    (access .countPresented) fun _ => WorkerAt mine lock [] 0 (Resting kHwPixFmt) := by
  refine works_step presents_beside presents_keeps (fun w here => ⟨trivial, here.counted⟩) ?_
  intro w answer w' here effected
  obtain rfl := effected
  exact ⟨here.holds, here.lock.congr rfl rfl, here.order, here.counted.next, here.own⟩

/-- What was taken and is not shown is dropped. -/
theorem WorkerAt.dropped (here : WorkerAt mine lock taken ahead knows w) :
    WorkerAt mine lock [] ahead knows w := by
  refine { here with order := List.Sublist.trans ?_ here.order }
  exact (List.sublist_append_right taken _).append_left _

theorem presents_showTexture {ok : Bool} :
    Presents (WorkerAt mine lock picture.image.toList 0 fun own =>
        (ok = true → ∃ image, picture.image = some image ∧ Loaded image own) ∧ Resting kHwPixFmt own)
      (onlyIf (ok = true) showTexture) fun _ => WorkerAt mine lock [] 0 (Resting kHwPixFmt) := by
  refine meets_ite (fun held => ?_) fun _ => ?_
  · cases shape : picture.image with
    | none =>
      intro w here
      obtain ⟨image, there, -⟩ := here.own.1 held
      simp at there
    | some image =>
      refine meets_bind (presents_weaken presents_render ?_) fun _ => presents_countPresented
      intro own known
      obtain ⟨image', same, loaded⟩ := known.1 held
      obtain rfl := Option.some.inj same
      exact ⟨loaded, known.2⟩
  · exact meets_done presents_stable fun w here => here.dropped.weaken fun own known => known.2

theorem presents_present (renderer : Bool) :
    Presents (WorkerAt none .out [] 0 (Resting kHwPixFmt)) (present renderer)
      fun _ => WorkerAt none .out [] 0 (Resting kHwPixFmt) := by
  have done : ∀ u : Unit, Presents (WorkerAt none .out [] 0 (Resting kHwPixFmt)) (pure u)
      fun _ => WorkerAt none .out [] 0 (Resting kHwPixFmt) :=
    fun _ => meets_done presents_stable fun _ => id
  refine meets_ite (fun _ => done ()) fun _ => ?_
  refine meets_bind (works_lock presents_beside presents_keeps fun _ => trivial) fun _ => ?_
  refine meets_bind (works_pendingFrame presents_beside presents_keeps fun _ => trivial) fun pending => ?_
  refine meets_bind presents_clearPending fun _ => ?_
  cases pending with
  | none =>
    exact meets_bind (works_unlock presents_beside presents_keeps fun _ => trivial) fun _ => done ()
  | some p =>
    refine meets_exists fun picture => ?_
    refine meets_bind (works_unlock presents_beside presents_keeps fun _ => trivial) fun _ => ?_
    refine meets_bind presents_readFrame fun answer => meets_assume ?_
    rintro rfl
    refine meets_bind presents_upload fun ok => ?_
    refine meets_bind presents_showTexture fun _ => ?_
    exact presents_freeFrame

/-- What `stats` may return: all that was shown, and as many decoded as were handed over when it
looked, or one less. -/
def VideoStats.Ordered (stats : VideoStats) (w : World) : Prop :=
  stats.framesPresented = .ofNat w.shown.length ∧ ∃ decoded, stats.framesDecoded = .ofNat decoded ∧
    decoded ≤ w.handed.length ∧ w.shown.length ≤ decoded + 1

theorem VideoStats.Ordered.drift {stats : VideoStats} (ordered : stats.Ordered w)
    (drift : SubmitGuarantee w w') : stats.Ordered w' := by
  obtain ⟨presented, decoded, value, few, close⟩ := ordered
  rw [VideoStats.Ordered, drift.own]
  exact ⟨presented, decoded, value, few.trans drift.handed.length_le, close⟩

/-- What is read of the members that count nothing. -/
theorem presents_read {c : Call} (permitted : ∀ w, Legal .worker c w ∧ PresentCall c w)
    (reads : ∀ w answer w', effect .worker c w answer w' → w' = w) :
    Presents (WorkerAt mine lock taken ahead knows) (access c)
      fun _ => WorkerAt mine lock taken ahead knows := by
  refine works_own presents_beside presents_keeps (fun w _ => permitted w) ?_
  intro w answer w' here effected
  obtain rfl := reads w answer w' effected
  exact ⟨_, rfl, rfl, rfl, here.own⟩

/-- So many were handed over, which does not become less. -/
theorem presents_handed {α : Type} {n : Nat} {pre : World → Prop} {program : Code α}
    {post : α → World → Prop} (presents : Presents pre program post) :
    Presents (fun w => pre w ∧ n ≤ w.handed.length) program fun a w => post a w ∧ n ≤ w.handed.length := by
  refine meets_frame ?_ ?_ presents
  · exact fun w w' held drift => held.trans drift.handed.length_le
  · intro c w answer w' allowed effected held
    obtain ⟨global, legal, permitted⟩ := allowed
    rw [(presents_keeps c w answer w' global legal permitted effected).handed]
    exact held

/-- No more images were shown than frames were handed over, which are at most one ahead of what was
counted. -/
theorem presents_framesDecoded :
    Presents (WorkerAt none .out [] 0 knows) (access .framesDecoded) fun answer w =>
      ∃ decoded, answer = .ofNat decoded ∧
        WorkerAt none .out [] 0 (fun own => knows own ∧ own.shown.length ≤ decoded + 1) w ∧
        decoded ≤ w.handed.length := by
  refine meets_request presents_stable (fun w here => ⟨here.global, trivial, trivial⟩) ?_ ?_
  · intro w answer w' here effected
    obtain ⟨rfl, rfl⟩ := effected
    obtain ⟨decoded, value, few, close⟩ := here.global.decoded
    have shown := here.global.shown_handed
    exact ⟨decoded, value, { here with own := ⟨here.own, by omega⟩ }, few⟩
  · rintro answer w w' ⟨decoded, value, here, few⟩ drift
    exact ⟨decoded, value, here.drift drift, few.trans drift.handed.length_le⟩

theorem presents_framesPresented :
    Presents (WorkerAt none .out [] 0 knows) (access .framesPresented) fun answer =>
      WorkerAt none .out [] 0 fun own => knows own ∧ answer = .ofNat own.shown.length := by
  refine works_own presents_beside presents_keeps (fun w here => ⟨trivial, trivial⟩) ?_
  intro w answer w' here effected
  obtain ⟨rfl, rfl⟩ := effected
  obtain ⟨presented, value, exact⟩ := here.counted
  exact ⟨_, rfl, rfl, rfl, here.own, by rw [value, exact, Nat.add_zero]⟩

theorem presents_stats :
    Presents (WorkerAt none .out [] 0 (Resting kHwPixFmt)) stats fun s w =>
      s.Ordered w ∧ WorkerAt none .out [] 0 (Resting kHwPixFmt) w := by
  refine meets_bind presents_framesDecoded fun framesDecoded => ?_
  refine meets_exists fun decoded => meets_assume fun value => ?_
  refine meets_bind (presents_handed presents_framesPresented) fun framesPresented => ?_
  refine meets_bind (presents_handed (presents_read (fun _ => ⟨trivial, trivial⟩) fun _ _ _ h => h.2))
    fun decodeErrors => ?_
  refine meets_bind (presents_handed (presents_read (fun _ => ⟨trivial, trivial⟩) fun _ _ _ h => h.2))
    fun usingHardware => ?_
  refine meets_bind (presents_handed (presents_read (fun _ => ⟨trivial, trivial⟩) fun _ _ _ h => h.2))
    fun size => ?_
  have stable : Stable SubmitGuarantee fun w => WorkerAt none .out [] 0 (fun own =>
      (Resting kHwPixFmt own ∧ own.shown.length ≤ decoded + 1) ∧
        framesPresented = .ofNat own.shown.length) w ∧ decoded ≤ w.handed.length :=
    fun w w' ⟨here, few⟩ drift => ⟨here.drift drift, few.trans drift.handed.length_le⟩
  refine meets_done stable fun w ⟨here, few⟩ => ?_
  obtain ⟨⟨resting, close⟩, presented⟩ := here.own
  exact ⟨⟨presented, decoded, value, few, close⟩, here.weaken fun own known => known.1.1⟩

end Video
end StreamEngine.Client
