import StreamEngine.Client.VideoThreads

/-! The submit thread of the video renderer: what holds between its calls, one lemma for each
call, and the rounds of `submit` put together from them. -/
namespace StreamEngine.Client
namespace Video
open Interaction Threads

/-- What a thread knows of the mutex, and of the slot while it holds the mutex. -/
inductive Locking where
  | out
  | inside
  | knows (pending : Option Ptr)

def Locking.At (side : Side) : Locking → World → Prop
  | .out, w => w.frameMu ≠ some side
  | .inside, w => w.frameMu = some side
  | .knows pending, w => w.frameMu = some side ∧ w.pendingFrame = pending

/-- How far the thread is with handing over a frame. -/
inductive Stage where
  | ready
  | stored
  | counted

/-- How many frames are handed over and not counted. -/
def Stage.ahead : Stage → Nat
  | .ready | .counted => 0
  | .stored => 1

/-- The thread may hand over any frame that it has. -/
def World.Ready (w : World) : Prop :=
  ∀ p picture, w.frames p = some (.thread .submit, picture) → w.Next picture

/-- The frames of the submit thread, what it knows of the slot, and how far it is. -/
structure SubmitAt (frames : List Ptr) (lock : Locking) (stage : Stage) (w : World) : Prop where
  global : Global w
  distinct : frames.Nodup
  holds : w.Holds (.thread .submit) frames
  lock : lock.At .submit w
  counted : CountsTo w.framesDecoded w.handed.length stage.ahead
  ready : stage = .ready → w.Ready

/-- The same, with the codec context that `submit` found. -/
structure SubmitWith (codec : Option Ptr) (frames : List Ptr) (lock : Locking) (stage : Stage)
    (w : World) : Prop extends SubmitAt frames lock stage w where
  codec : w.codecCtx = codec

/-- What the worker may do beside `submit`. -/
def submitDrift (w w' : World) : Prop := WorkerGuarantee w w' ∧ w'.codecCtx = w.codecCtx

def submitAllowed (c : Call) (w : World) : Prop := Global w ∧ Legal .submit c w ∧ SubmitCall c w

variable {w w' : World} {codec : Option Ptr} {frames : List Ptr} {lock : Locking} {stage : Stage}
  {p : Ptr} {α : Type}

abbrev SubmitMeets (pre : World → Prop) (program : Code α) (post : α → World → Prop) : Prop :=
  Interaction.Meets (effect .submit) submitDrift submitAllowed pre program post

theorem SubmitAt.drift (before : SubmitAt frames lock stage w) (drift : WorkerGuarantee w w') :
    SubmitAt frames lock stage w' where
  global := drift.global before.global
  distinct := before.distinct
  holds q := by
    have mine : ∀ picture, w'.frames q = some (.thread .submit, picture) ↔
        w.frames q = some (.thread .submit, picture) := drift.frames q
    simpa only [mine] using before.holds q
  lock := by
    have locked := before.lock
    cases lock with
    | out => exact fun held => locked (drift.taken held)
    | inside => exact (drift.excluded locked).1
    | knows pending => exact ⟨(drift.excluded locked.1).1, (drift.excluded locked.1).2.trans locked.2⟩
  counted := by
    rw [drift.decoded, drift.handed]
    exact before.counted
  ready now q picture there := by
    have next := before.ready now q picture ((drift.frames q picture).mp there)
    rwa [World.Next, drift.handed, drift.delivered]

theorem SubmitWith.stable : Stable submitDrift (SubmitWith codec frames lock stage) :=
  fun _ _ before drift => ⟨before.toSubmitAt.drift drift.1, drift.2.trans before.codec⟩

theorem SubmitWith.stable_and {fact : Prop} :
    Stable submitDrift fun w => fact ∧ SubmitWith codec frames lock stage w :=
  fun w w' before drift => ⟨before.1, SubmitWith.stable w w' before.2 drift⟩

theorem SubmitWith.live (here : SubmitWith codec frames lock stage w) (some : codec ≠ none) :
    w.Live codec := by
  obtain ⟨c, rfl⟩ := Option.ne_none_iff_exists'.mp some
  exact ⟨c, rfl, (here.global.contexts c).mpr here.codec⟩

theorem SubmitAt.has (here : SubmitAt frames lock stage w) (mine : p ∈ frames) : w.Has .submit p :=
  (here.holds p).mpr mine

/-! ### One lemma for each call -/

/-- A call that changes nothing. -/
theorem submits_same {c : Call} {fact : Answer c → Prop}
    (permitted : ∀ w, SubmitWith codec frames lock stage w → Legal .submit c w ∧ SubmitCall c w)
    (same : ∀ w answer w', SubmitWith codec frames lock stage w → effect .submit c w answer w' →
      w' = w ∧ fact answer) :
    SubmitMeets (SubmitWith codec frames lock stage) (access c)
      fun answer w => fact answer ∧ SubmitWith codec frames lock stage w := by
  refine meets_request .stable (fun w here => ⟨here.global, permitted w here⟩) ?_
    fun _ => SubmitWith.stable_and
  intro w answer w' here effected
  obtain ⟨rfl, holds⟩ := same w answer w' here effected
  exact ⟨holds, here⟩

theorem submits_codecCtx : SubmitMeets (SubmitWith codec frames lock stage) (access .codecCtx)
    fun answer w => answer = codec ∧ SubmitWith codec frames lock stage w :=
  submits_same (fun _ _ => ⟨trivial, trivial⟩)
    fun _ _ _ here effected => ⟨effected.2, effected.1.trans here.codec⟩

theorem submits_hwPixFmt : SubmitMeets (SubmitWith codec frames lock stage) (access .hwPixFmt)
    fun _ w => True ∧ SubmitWith codec frames lock stage w :=
  submits_same (fun _ _ => ⟨trivial, trivial⟩) fun _ _ _ _ effected => ⟨effected.2, trivial⟩

theorem submits_allocPacket : SubmitMeets (SubmitWith codec frames lock stage) (access .allocPacket)
    fun _ w => True ∧ SubmitWith codec frames lock stage w :=
  submits_same (fun _ _ => ⟨trivial, trivial⟩) fun _ _ _ _ effected => ⟨effected, trivial⟩

theorem submits_sendPacket {packet : Packet} (some : codec ≠ none) (padded : packet.Padded) :
    SubmitMeets (SubmitWith codec frames lock stage) (access (.sendPacket codec packet))
      fun _ w => True ∧ SubmitWith codec frames lock stage w :=
  submits_same (fun _ here => ⟨⟨here.live some, padded⟩, trivial⟩)
    fun _ _ _ _ effected => ⟨effected, trivial⟩

theorem submits_readFrame (mine : p ∈ frames) :
    SubmitMeets (SubmitWith codec frames lock stage) (access (.readFrame p))
      fun _ w => True ∧ SubmitWith codec frames lock stage w :=
  submits_same (fun _ here => ⟨here.has mine, trivial⟩) fun _ _ _ _ effected => ⟨effected.2, trivial⟩

/-- A call that changes only the frames of the thread, the mutex, the slot or the counter. -/
theorem submits_step {c : Call} {frames' : Answer c → List Ptr} {lock' : Answer c → Locking}
    {stage' : Stage}
    (permitted : ∀ w, SubmitWith codec frames lock stage w → Legal .submit c w ∧ SubmitCall c w)
    (answered : ∀ w answer w', SubmitWith codec frames lock stage w → effect .submit c w answer w' →
      (frames' answer).Nodup ∧ w'.Holds (.thread .submit) (frames' answer) ∧
        (lock' answer).At .submit w' ∧ CountsTo w'.framesDecoded w'.handed.length stage'.ahead ∧
          (stage' = .ready → w'.Ready)) :
    SubmitMeets (SubmitWith codec frames lock stage) (access c)
      fun answer => SubmitWith codec (frames' answer) (lock' answer) stage' := by
  refine meets_request .stable (fun w here => ⟨here.global, permitted w here⟩) ?_ fun _ => .stable
  intro w answer w' here effected
  obtain ⟨legal, call⟩ := permitted w here
  have kept := submit_keeps here.global legal call effected
  obtain ⟨distinct, holds, locked, counted, ready⟩ := answered w answer w' here effected
  refine ⟨⟨kept.global here.global, distinct, holds, locked, counted, ready⟩, ?_⟩
  rw [show w'.codecCtx = w.codecCtx from congrArg Own.codecCtx kept.own, here.codec]

/-- The mutex and the slot are the same in a world where other things change. -/
theorem Locking.At.congr {side : Side} (here : lock.At side w) (mutex : w'.frameMu = w.frameMu)
    (pending : w'.pendingFrame = w.pendingFrame) : lock.At side w' := by
  cases lock with
  | out => exact fun held => here (mutex.symm.trans held)
  | inside => exact mutex.trans here
  | knows => exact ⟨mutex.trans here.1, pending.trans here.2⟩

theorem submits_countError : SubmitMeets (SubmitWith codec frames lock stage) (access .countError)
    fun _ => SubmitWith codec frames lock stage := by
  refine submits_step (fun _ _ => ⟨trivial, trivial⟩) ?_
  intro w answer w' here effected
  obtain rfl := effected
  exact ⟨here.distinct, here.holds, here.lock.congr rfl rfl, here.counted, here.ready⟩

/-- A frame of the holder's has another picture. -/
theorem World.Holds.set {h : Holder} {picture : Picture} (holds : w.Holds h frames)
    (mine : p ∈ frames) : (w.setFrame p (some (h, picture))).Holds h frames := by
  intro q
  by_cases same : q = p
  · subst same
    simp [mine]
  · rw [World.setFrame_other same]
    exact holds q

theorem World.Holds.add {h : Holder} {picture : Picture} (holds : w.Holds h frames) :
    (w.setFrame p (some (h, picture))).Holds h (p :: frames) := by
  intro q
  by_cases same : q = p
  · subst same
    simp
  · rw [World.setFrame_other same, List.mem_cons, or_iff_right same]
    exact holds q

theorem World.Holds.drop {h : Holder} {frame : Option (Holder × Picture)}
    (holds : w.Holds h (p :: frames)) (distinct : (p :: frames).Nodup)
    (gone : ∀ picture, frame ≠ some (h, picture)) : (w.setFrame p frame).Holds h frames := by
  intro q
  by_cases same : q = p
  · subst same
    simp [gone, List.nodup_cons.mp distinct]
  · rw [World.setFrame_other same, holds q, List.mem_cons, or_iff_right same]

theorem Global.next_blank (global : Global w) : w.Next .blank := by
  rw [World.Next, List.filterMap_append]
  exact (List.append_nil _).symm ▸ global.delivered

theorem World.Ready.set (ready : w.Ready) {frame : Option (Holder × Picture)}
    (next : ∀ picture, frame = some (.thread .submit, picture) → w.Next picture) :
    (w.setFrame p frame).Ready := by
  intro q picture there
  by_cases same : q = p
  · subst same
    exact next picture (by simpa using there)
  · rw [World.setFrame_other same] at there
    exact ready q picture there

/-- What was just delivered comes next, and so does what came next before. -/
theorem World.Ready.deliver (ready : w.Ready) (global : Global w) {picture : Picture} :
    (w.deliver .submit p picture).Ready := by
  intro q other there
  rw [World.Next]
  by_cases same : q = p
  · subst same
    obtain rfl : picture = other := by simpa [World.deliver] using there
    rw [World.deliver, List.filterMap_append, List.filterMap_append]
    exact global.delivered.append_right _
  · have next := ready q other (by simpa [World.deliver, same] using there)
    exact next.trans ((List.sublist_append_left w.delivered [picture]).filterMap _)

theorem SubmitAt.next (here : SubmitAt frames lock .ready w) (mine : p ∈ frames) :
    w.Next (w.picture p) := by
  obtain ⟨picture, there⟩ := here.has mine
  rw [World.picture, there]
  exact here.ready rfl p picture there

/-- A call that puts another picture in a frame of the thread. -/
theorem submits_fill {c : Call} {frame : Ptr} (mine : frame ∈ frames)
    (permitted : ∀ w, SubmitWith codec frames lock .ready w → Legal .submit c w ∧ SubmitCall c w)
    (answered : ∀ w answer w', SubmitWith codec frames lock .ready w →
      effect .submit c w answer w' →
      w' = w ∨ (∃ picture, w.Next picture ∧ w' = w.setFrame frame (some (.thread .submit, picture))) ∨
        ∃ picture, w' = w.deliver .submit frame picture) :
    SubmitMeets (SubmitWith codec frames lock .ready) (access c)
      fun _ => SubmitWith codec frames lock .ready := by
  refine submits_step permitted ?_
  intro w answer w' here effected
  have ready := here.ready rfl
  rcases answered w answer w' here effected with rfl | ⟨picture, next, rfl⟩ | ⟨picture, rfl⟩
  · exact ⟨here.distinct, here.holds, here.lock, here.counted, here.ready⟩
  · refine ⟨here.distinct, here.holds.set mine, here.lock.congr rfl rfl, here.counted, fun _ => ?_⟩
    exact ready.set (by rintro _ ⟨⟩; exact next)
  · exact ⟨here.distinct, here.holds.set mine, here.lock.congr rfl rfl, here.counted,
      fun _ => ready.deliver here.global⟩

theorem submits_receiveFrame (some : codec ≠ none) (mine : p ∈ frames) :
    SubmitMeets (SubmitWith codec frames lock .ready) (access (.receiveFrame codec p))
      fun _ => SubmitWith codec frames lock .ready := by
  refine submits_fill mine (fun _ here => ⟨⟨here.live some, here.has mine⟩, trivial⟩) ?_
  intro w answer w' here effected
  cases answer with
  | again | endOfStream | failed => exact .inr (.inl ⟨_, here.global.next_blank, effected⟩)
  | frame picture => exact .inr (.inr ⟨_, effected⟩)

theorem submits_transfer {cpu : Ptr} (mine : cpu ∈ frames) (source : p ∈ frames) (apart : cpu ≠ p) :
    SubmitMeets (SubmitWith codec frames lock .ready) (access (.transfer cpu p))
      fun _ => SubmitWith codec frames lock .ready := by
  refine submits_fill mine (fun _ here => ⟨⟨here.has mine, here.has source, apart⟩, trivial⟩) ?_
  intro w answer w' here effected
  cases answer with
  | none => exact .inl effected
  | some picture => exact .inr (.inr ⟨_, effected⟩)

theorem submits_refFrame {cpu : Ptr} (mine : cpu ∈ frames) (source : p ∈ frames) (apart : cpu ≠ p) :
    SubmitMeets (SubmitWith codec frames lock .ready) (access (.refFrame cpu p))
      fun _ => SubmitWith codec frames lock .ready := by
  refine submits_fill mine (fun _ here => ⟨⟨here.has mine, here.has source, apart⟩, trivial⟩) ?_
  intro w answer w' here effected
  cases answer with
  | false => exact .inl effected
  | true => exact .inr (.inl ⟨_, here.next source, effected⟩)

/-- The only frame of the thread is blank again. -/
theorem submits_unrefFrame (settled : stage.ahead = 0) :
    SubmitMeets (SubmitWith codec [p] lock stage) (access (.unrefFrame p))
      fun _ => SubmitWith codec [p] lock .ready := by
  refine submits_step (fun _ here => ⟨here.has List.mem_cons_self, trivial⟩) ?_
  intro w answer w' here effected
  obtain rfl := effected
  have counted := here.counted
  rw [settled] at counted
  refine ⟨here.distinct, here.holds.set List.mem_cons_self, here.lock.congr rfl rfl, counted,
    fun _ q picture there => ?_⟩
  by_cases same : q = p
  · subst same
    obtain rfl : Picture.blank = picture := by simpa using there
    exact here.global.next_blank
  · rw [World.setFrame_other same] at there
    exact absurd ((here.holds q).mp ⟨picture, there⟩) (by simpa using same)

theorem submits_freeFrame : SubmitMeets (SubmitWith codec (p :: frames) lock stage)
    (access (.freeFrame p)) fun _ => SubmitWith codec frames lock stage := by
  refine submits_step (fun _ here => ⟨here.has List.mem_cons_self, trivial⟩) ?_
  intro w answer w' here effected
  obtain rfl := effected
  exact ⟨(List.nodup_cons.mp here.distinct).2, here.holds.drop here.distinct nofun,
    here.lock.congr rfl rfl, here.counted, fun now => (here.ready now).set nofun⟩

theorem submits_lock : SubmitMeets (SubmitWith codec frames .out stage) (access .lock)
    fun _ => SubmitWith codec frames .inside stage := by
  refine submits_step (fun _ here => ⟨here.lock, trivial⟩) ?_
  intro w answer w' here effected
  obtain ⟨-, rfl⟩ := effected
  exact ⟨here.distinct, here.holds, rfl, here.counted, here.ready⟩

theorem submits_pendingFrame : SubmitMeets (SubmitWith codec frames .inside stage)
    (access .pendingFrame) fun pending => SubmitWith codec frames (.knows pending) stage := by
  refine submits_step (fun _ here => ⟨here.lock, trivial⟩) ?_
  intro w answer w' here effected
  obtain ⟨rfl, rfl⟩ := effected
  exact ⟨here.distinct, here.holds, ⟨here.lock, rfl⟩, here.counted, here.ready⟩

theorem submits_freePending (full : pending ≠ none) :
    SubmitMeets (SubmitWith codec frames (.knows pending) stage) (access .freePending)
      fun _ => SubmitWith codec frames (.knows none) stage := by
  refine submits_step (fun _ here => ⟨⟨here.lock.1, here.lock.2 ▸ full⟩, trivial⟩) ?_
  intro w answer w' here effected
  obtain rfl := effected
  refine ⟨here.distinct, ?_, ⟨here.lock.1, rfl⟩, here.counted, fun now q picture there => ?_⟩
  · intro q
    by_cases slot : w.pendingFrame = some q
    · have others := here.holds q
      simp only [here.global.pending_slot slot] at others
      simpa [World.release, slot] using others
    · simpa [World.release, slot] using here.holds q
  · by_cases slot : w.pendingFrame = some q
    · simp [World.release, slot] at there
    · exact here.ready now q picture (by simpa [World.release, slot] using there)

theorem submits_storePending : SubmitMeets (SubmitWith codec (p :: frames) (.knows none) .ready)
    (access (.storePending p)) fun _ => SubmitWith codec frames .inside .stored := by
  refine submits_step (fun _ here =>
    ⟨⟨here.lock.1, here.has List.mem_cons_self, here.lock.2⟩, here.counted, here.next List.mem_cons_self⟩) ?_
  intro w answer w' here effected
  obtain rfl := effected
  refine ⟨(List.nodup_cons.mp here.distinct).2, here.holds.drop here.distinct nofun, here.lock.1, ?_,
    nofun⟩
  rw [List.length_append]
  exact here.counted.more

theorem submits_unlock : SubmitMeets (SubmitWith codec frames .inside stage) (access .unlock)
    fun _ => SubmitWith codec frames .out stage := by
  refine submits_step (fun _ here => ⟨here.lock, trivial⟩) ?_
  intro w answer w' here effected
  obtain rfl := effected
  exact ⟨here.distinct, here.holds, nofun, here.counted, here.ready⟩

theorem submits_countDecoded : SubmitMeets (SubmitWith codec frames .out .stored) (access .countDecoded)
    fun _ => SubmitWith codec frames .out .counted := by
  refine submits_step (fun _ here => ⟨trivial, here.counted⟩) ?_
  intro w answer w' here effected
  obtain rfl := effected
  exact ⟨here.distinct, here.holds, here.lock, here.counted.next, nofun⟩

/-- A new frame is none of those the thread has. -/
theorem submits_allocFrame : SubmitMeets (SubmitWith codec frames lock stage) (access .allocFrame)
    fun answer w => match answer with
      | none => w.exhausted = true ∧ SubmitWith codec frames lock stage w
      | some p => SubmitWith codec (p :: frames) lock stage w := by
  refine meets_request .stable (fun w here => ⟨here.global, trivial, trivial⟩) ?_ ?_
  · intro w answer w' here effected
    have kept := submit_keeps (c := .allocFrame) here.global trivial trivial effected
    have codec : w'.codecCtx = w.codecCtx := congrArg Own.codecCtx kept.own
    cases answer with
    | none =>
      obtain rfl := effected
      exact ⟨rfl, ⟨⟨kept.global here.global, here.distinct, here.holds, here.lock.congr rfl rfl,
        here.counted, here.ready⟩, here.codec⟩⟩
    | some p =>
      obtain ⟨free, rfl⟩ := effected
      have new : p ∉ frames := by
        intro mine
        obtain ⟨picture, there⟩ := here.has mine
        simp [free] at there
      refine ⟨⟨kept.global here.global, List.nodup_cons.mpr ⟨new, here.distinct⟩, here.holds.add,
        here.lock.congr rfl rfl, here.counted, fun now => ?_⟩, here.codec⟩
      exact (here.ready now).set (by rintro _ ⟨⟩; exact here.global.next_blank)
  · intro answer
    cases answer with
    | none => exact fun w w' before drift =>
        ⟨drift.1.exhausted.trans before.1, SubmitWith.stable w w' before.2 drift⟩
    | some p => exact .stable

/-- Nothing follows a null frame. -/
theorem submits_nullFrame {post : World → Prop} (stable : Stable submitDrift post) :
    SubmitMeets (fun w => w.exhausted = true ∧ SubmitWith codec frames lock stage w)
      (access .nullFrame) fun _ => post := by
  refine meets_request ?_ (fun w here => ⟨here.2.global, here.1, trivial⟩)
    (fun w answer w' here effected => effected.elim) fun _ => stable
  exact fun w w' before drift =>
    ⟨drift.1.exhausted.trans before.1, SubmitWith.stable w w' before.2 drift⟩

/-! ### The rounds -/

/-- Where a round of the loop starts. -/
def ReceiveEntry (frame : Ptr) (w : World) : Prop :=
  ∃ codec, codec ≠ none ∧ SubmitWith codec [frame] .out .ready w

def SubmitEnds : Ending Method Result → World → Prop
  | .again (.receive frame), w => ReceiveEntry frame w
  | .again _, _ => False
  | .result _, w => SubmitAt [] .out .ready w

theorem submits_again {frame : Ptr} (some : codec ≠ none) :
    SubmitMeets (SubmitWith codec [frame] .out .ready) (pure (.again (.receive frame))) SubmitEnds :=
  meets_done .stable fun _ here => ⟨codec, some, here⟩

theorem submits_result {r : Result} : SubmitMeets (SubmitWith codec [] .out .ready) (pure (.result r))
    SubmitEnds :=
  meets_done .stable fun _ here => here.toSubmitAt

theorem submits_nothing {post : World → Prop} {program : Code (Ending Method Result)}
    (never : ∀ w, ¬ post w) : SubmitMeets post program SubmitEnds :=
  fun w here => absurd here (never w)

theorem packet_padded {du : DecodeUnit} (whole : du.fullLength = (du.bufferList.flatten.length : Int)) :
    (packet du).Padded := ⟨du.bufferList.flatten, rfl, whole⟩

theorem submit_round {du : DecodeUnit} (whole : du.fullLength = (du.bufferList.flatten.length : Int)) :
    SubmitMeets (SubmitAt [] .out .ready) (submit du) SubmitEnds := by
  have known : ∀ codec, SubmitMeets (SubmitWith codec [] .out .ready) (submit du) SubmitEnds := by
    intro codec
    refine meets_bind submits_codecCtx fun answer => meets_assume ?_
    rintro rfl
    refine meets_ite (fun _ => submits_result) fun some => ?_
    refine meets_bind submits_allocPacket fun allocated => meets_assume fun _ => ?_
    refine meets_ite (fun _ => submits_result) fun _ => ?_
    refine meets_bind submits_codecCtx fun again => meets_assume ?_
    rintro rfl
    refine meets_bind (submits_sendPacket some (packet_padded whole)) fun sent => meets_assume fun _ => ?_
    refine meets_ite (fun _ => meets_bind submits_countError fun _ => submits_result) fun _ => ?_
    refine meets_bind submits_allocFrame fun frame => ?_
    cases frame with
    | none =>
      exact meets_bind (submits_nullFrame (fun _ _ => False.elim)) fun _ => submits_nothing fun _ => id
    | some frame => exact submits_again some
  exact fun w here => known w.codecCtx w ⟨here, rfl⟩

theorem submits_dropPending {pending : Option Ptr} :
    SubmitMeets (SubmitWith codec frames (.knows pending) stage)
      (onlyIf (pending ≠ none) (access .freePending))
      fun _ => SubmitWith codec frames (.knows none) stage := by
  refine meets_ite submits_freePending fun empty => ?_
  rw [not_not] at empty
  subst empty
  exact meets_done .stable fun _ here => here

theorem submits_handOver {frame cpu : Ptr} (some : codec ≠ none) :
    SubmitMeets (SubmitWith codec [cpu, frame] .out .ready) (handOver frame cpu) SubmitEnds := by
  refine meets_bind submits_lock fun _ => ?_
  refine meets_bind submits_pendingFrame fun pending => ?_
  refine meets_bind submits_dropPending fun _ => ?_
  refine meets_bind submits_storePending fun _ => ?_
  refine meets_bind submits_unlock fun _ => ?_
  refine meets_bind submits_countDecoded fun _ => ?_
  exact meets_bind (submits_unrefFrame rfl) fun _ => submits_again some

theorem receive_round (frame : Ptr) :
    SubmitMeets (ReceiveEntry frame) (receive frame) SubmitEnds := by
  refine meets_exists fun codec => meets_assume fun some => ?_
  refine meets_bind submits_codecCtx fun answer => meets_assume ?_
  rintro rfl
  refine meets_bind (submits_receiveFrame some List.mem_cons_self) fun received => ?_
  cases received with
  | again | endOfStream => exact meets_bind submits_freeFrame fun _ => submits_result
  | failed =>
    exact meets_bind submits_countError fun _ => meets_bind submits_freeFrame fun _ => submits_result
  | frame picture =>
    refine meets_bind submits_allocFrame fun cpu => ?_
    cases cpu with
    | none =>
      exact meets_bind (submits_nullFrame (fun _ _ => False.elim)) fun _ => submits_nothing fun _ => id
    | some cpu =>
      refine meets_bind submits_hwPixFmt fun hwPixFmt => meets_assume fun _ => ?_
      refine meets_bind (submits_readFrame (by simp)) fun picture => meets_assume fun _ => ?_
      -- The new frame is not the one received into.
      intro w here
      have apart : cpu ≠ frame := by simpa using here.distinct
      revert w
      refine meets_ite (fun _ => ?_) fun _ => ?_
      · refine meets_bind (submits_transfer (by simp) (by simp) apart) fun moved => ?_
        refine meets_ite (fun _ => ?_) fun _ => submits_handOver some
        refine meets_bind submits_freeFrame fun _ => ?_
        refine meets_bind submits_countError fun _ => ?_
        exact meets_bind (submits_unrefFrame rfl) fun _ => submits_again some
      · exact meets_bind (submits_refFrame (by simp) (by simp) apart) fun _ => submits_handOver some

end Video
end StreamEngine.Client
