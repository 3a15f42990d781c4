import StreamEngine.Client.VideoLifecycle

/-! The video renderer in use: any number of decode units and presents, in any interleaving, and
any answers of FFmpeg and SDL. -/
namespace StreamEngine.Client
namespace Video
open Interaction Threads Transition

variable {kHwPixFmt : Int}

def Permit : Method → Call → World → Prop
  | .submit _, c, w | .receive _, c, w => SubmitCall c w
  | .present _, c, w | .stats, c, w => PresentCall c w
  | .setup .., c, _ | .cleanup, c, _ => SetupCall c

def RestsAt (kHwPixFmt : Int) : Side → World → Prop
  | .submit => SubmitAt [] .out .ready
  | .worker => WorkerAt none .out [] 0 (Resting kHwPixFmt)

/-- How the methods are verified. -/
def outline (kHwPixFmt : Int) : Outline (renderer kHwPixFmt) where
  allowed m c w := Global w ∧ Legal m.side c w ∧ Permit m c w
  guarantee m w w' := match m.side with
    | .submit => SubmitGuarantee w w'
    | .worker => WorkerGuarantee w w' ∧ (m.shared → w'.codecCtx = w.codecCtx)
  entry
    | .setup _ _, w => WorkerAt none .out [] 0 (fun own => Textured own ∧ Closed own) w
    | .submit du, w => du.fullLength = (du.bufferList.flatten.length : Int) ∧ SubmitAt [] .out .ready w
    | .receive frame, w => ReceiveEntry frame w
    | .present _, w | .stats, w | .cleanup, w => RestsAt kHwPixFmt .worker w
  follows m n := m.side = .submit ∧ ∃ frame, n = .receive frame
  rests := RestsAt kHwPixFmt
  post
    | .setup width height, .code rc, w => SetUp kHwPixFmt width height rc w
    | .stats, .stats s, w => s.Ordered w
    | .cleanup, .void, w => Cleaned w
    | .setup _ _, _, _ | .stats, _, _ | .cleanup, _, _ => False
    | _, _, _ => True

theorem OpenedAt.rests {width height : Int} {w : World} (here : OpenedAt kHwPixFmt width height w) :
    RestsAt kHwPixFmt .worker w :=
  WorkerAt.weaken here fun _ known => ⟨known.1, .inr known.2.1⟩

theorem SetUp.rests {width height rc : Int} {w : World} (here : SetUp kHwPixFmt width height rc w) :
    RestsAt kHwPixFmt .worker w := by
  rcases here with ⟨-, opened⟩ | ⟨-, closed⟩
  · exact opened.rests
  · refine closed.weaken fun own known => ⟨known.textured, .inl ⟨known.context, ?_, known.format⟩⟩
    simpa using known.device

theorem Cleaned.rests {w : World} (here : Cleaned w) : RestsAt kHwPixFmt .worker w := by
  refine here.1.weaken fun own known => ⟨?_, .inl known.1⟩
  intro t there
  simp [known.2] at there

/-- A method of the submit thread, beside what the worker's methods may do. -/
theorem submit_rounds {m : Method} {pre : World → Prop} (mine : m.side = .submit)
    (meets : SubmitMeets pre (body kHwPixFmt m) SubmitEnds) {w : World} (here : pre w) :
    (outline kHwPixFmt).Round m (body kHwPixFmt m) w := by
  have safe := meets w here
  show Safe (effect m.side) _ _ _ _ w
  rw [mine]
  refine safe_mono ?_ ?_ (safe_weaken ?_ safe)
  · rintro w w' ⟨n, other, ⟨-, shared⟩, guarantee⟩
    have worker : n.side = .worker := by
      cases side : n.side with
      | submit => exact absurd (side.trans mine.symm) other
      | worker => rfl
    simp only [outline, worker] at guarantee
    exact ⟨guarantee.1, guarantee.2 shared⟩
  · intro c w ⟨global, legal, call⟩
    refine ⟨global, mine ▸ legal, ?_⟩
    cases m with
    | submit | receive => exact call
    | setup | present | stats | cleanup => simp [Method.side] at mine
  · intro ending w held
    cases ending with
    | result r =>
      refine ⟨?_, ?_⟩
      · show RestsAt kHwPixFmt m.side w
        rw [mine]
        exact held
      · cases m with
        | submit | receive => trivial
        | setup | present | stats | cleanup => simp [Method.side] at mine
    | again n =>
      cases n with
      | receive frame => exact ⟨held, mine, frame, rfl⟩
      | setup | submit | present | stats | cleanup => exact held.elim

/-- A method of the worker ends after its program. -/
theorem worker_ends {m : Method} {α : Type} {result : α → Result} {drift : World → World → Prop}
    {permit : Call → World → Prop} {post : α → World → Prop} (mine : m.side = .worker)
    (stable : ∀ a, Stable drift (post a))
    (ends : ∀ a w, post a w → RestsAt kHwPixFmt .worker w ∧ (outline kHwPixFmt).post m (result a) w)
    (a : α) : WorkerMeets drift permit (post a) (pure (.result (result a)))
      ((outline kHwPixFmt).ends m) := by
  refine meets_done (stable a) fun w held => ?_
  obtain ⟨rests, returned⟩ := ends a w held
  refine ⟨?_, returned⟩
  show RestsAt kHwPixFmt m.side w
  rwa [mine]

/-- A method of the worker, beside what the submit thread may do. -/
theorem worker_rounds {m : Method} {α : Type} {program : Code α} {result : α → Result}
    {drift : World → World → Prop} {permit : Call → World → Prop} {pre : World → Prop}
    {post : α → World → Prop} (mine : m.side = .worker)
    (permits : ∀ c w, permit c w → Permit m c w)
    (beside : m.shared → ∀ w w', SubmitGuarantee w w' → drift w w')
    (stable : ∀ a, Stable drift (post a))
    (ends : ∀ a w, post a w → RestsAt kHwPixFmt .worker w ∧ (outline kHwPixFmt).post m (result a) w)
    (meets : WorkerMeets drift permit pre program post) {w : World} (here : pre w) :
    (outline kHwPixFmt).Round m (program >>= fun a => pure (.result (result a))) w := by
  have safe := meets_bind meets (worker_ends mine stable ends) w here
  show Safe (effect m.side) _ _ _ _ w
  rw [mine]
  refine safe_mono ?_ ?_ safe
  · rintro w w' ⟨n, other, ⟨shared, -⟩, guarantee⟩
    have submit : n.side = .submit := by
      cases side : n.side with
      | submit => rfl
      | worker => exact absurd (side.trans mine.symm) other
    simp only [outline, submit] at guarantee
    exact beside shared w w' guarantee
  · intro c w ⟨global, legal, call⟩
    exact ⟨global, mine ▸ legal, permits c w call⟩

theorem rounds (m : Method) (w : World) (entry : (outline kHwPixFmt).entry m w) :
    (outline kHwPixFmt).Round m (body kHwPixFmt m) w := by
  cases m with
  | setup width height =>
    have ends : ∀ rc w, SetUp kHwPixFmt width height rc w → RestsAt kHwPixFmt .worker w ∧
        (outline kHwPixFmt).post (.setup width height) (.code rc) w :=
      fun rc w held => ⟨held.rests, held⟩
    exact worker_rounds rfl (fun _ _ => id) False.elim (fun _ => alone) ends sets_setup entry
  | submit du => exact submit_rounds rfl (submit_round entry.1) entry.2
  | receive frame => exact submit_rounds rfl (receive_round frame) entry
  | present renderer =>
    have ends : ∀ (_ : Unit) w, RestsAt kHwPixFmt .worker w → RestsAt kHwPixFmt .worker w ∧
        (outline kHwPixFmt).post (.present renderer) .void w := fun _ w held => ⟨held, trivial⟩
    exact worker_rounds rfl (fun _ _ => id) (fun _ _ _ => id) (fun _ => presents_stable) ends
      (presents_present renderer) entry
  | stats =>
    have ends : ∀ (s : VideoStats) w, s.Ordered w ∧ RestsAt kHwPixFmt .worker w →
        RestsAt kHwPixFmt .worker w ∧ (outline kHwPixFmt).post .stats (.stats s) w :=
      fun s w held => ⟨held.2, held.1⟩
    exact worker_rounds rfl (fun _ _ permitted => permitted) (fun _ _ _ => id)
      (fun _ w w' held drift => ⟨held.1.drift drift, held.2.drift drift⟩) ends presents_stats entry
  | cleanup =>
    have ends : ∀ (_ : Unit) w, Cleaned w → RestsAt kHwPixFmt .worker w ∧
        (outline kHwPixFmt).post .cleanup .void w := fun _ w held => ⟨held.rests, held⟩
    exact worker_rounds rfl (fun _ _ => id) False.elim (fun _ => alone) ends sets_cleanup entry

theorem enters (m : Method) (w : World) (rests : RestsAt kHwPixFmt m.side w)
    (ready : m.ready w) : (outline kHwPixFmt).entry m w := by
  cases m with
  | setup width height =>
    refine { (show RestsAt kHwPixFmt .worker w from rests) with own := ?_ }
    obtain ⟨textured, closed | ⟨c, context, there, -⟩⟩ := WorkerAt.own rests
    · exact ⟨textured, closed⟩
    · exact absurd (ready.1.symm.trans there) nofun
  | submit du => exact ⟨ready, rests⟩
  | receive frame => exact ready.elim
  | present renderer => exact rests
  | stats => exact rests
  | cleanup => exact rests

theorem verified : (outline kHwPixFmt).Verified where
  enters := enters
  rounds := rounds
  follows m n := by
    rintro ⟨mine, frame, rfl⟩
    exact ⟨mine.symm, fun k both => ⟨trivial, both.2⟩⟩
  keeps m c w answer w' allowed effected := by
    obtain ⟨global, legal, permitted⟩ := allowed
    cases m with
    | submit | receive => exact submit_keeps global legal permitted effected
    | present | stats =>
      obtain ⟨kept, codec⟩ := present_keeps global legal permitted effected
      exact ⟨kept, fun _ => codec⟩
    | setup | cleanup => exact ⟨setup_keeps global legal permitted effected, False.elim⟩
  stable t n other w w' rests guarantee := by
    cases t with
    | submit => 
      have worker : n.side = .worker := by
        cases side : n.side with
        | submit => exact absurd side other
        | worker => rfl
      simp only [outline, worker] at guarantee
      exact SubmitAt.drift rests guarantee.1
    | worker =>
      have submit : n.side = .submit := by
        cases side : n.side with
        | submit => rfl
        | worker => exact absurd side other
      simp only [outline, submit] at guarantee
      exact WorkerAt.drift rests guarantee

theorem global_fresh : Global World.fresh := by
  constructor <;> simp [World.fresh, World.Holds, Attached, World.waiting, Counts]

theorem rests_fresh (side : Side) : RestsAt kHwPixFmt side World.fresh := by
  cases side with
  | submit =>
    exact ⟨global_fresh, .nil, by simp [World.Holds, World.fresh], nofun, ⟨0, rfl, rfl⟩, fun _ => nofun⟩
  | worker =>
    refine ⟨global_fresh, by simp [World.fresh], nofun, by simp [World.waiting, World.fresh],
      ⟨0, rfl, rfl⟩, ?_, .inl ⟨rfl, rfl, rfl⟩⟩
    intro t there
    simp [World.fresh] at there

/-! ### Whole runs -/

abbrev State := System Side World Call Answer Method Result
abbrev Move := Label Side Call Answer Method Result

/-- The renderer from its construction. -/
abbrev RunsTo (kHwPixFmt : Int) (labels : List Move) (s : State) : Prop :=
  Run (Threads.Step (renderer kHwPixFmt)) (System.fresh World.fresh) labels s

variable {labels : List Move} {s s' : State} {side : Side} {m : Method} {r : Result}

/-- One picture is decoded without a device and shown, everything is released, and the destructor
finds nothing more. -/
theorem one_picture : ∃ opened decoded presented cleaned destroyed,
    Evaluates (effect .worker) (body 44 (.setup 2 2)) World.fresh (.result (.code 0)) opened ∧
      Completes (renderer 44) .submit (.submit ⟨0, []⟩) opened (.status .ok) decoded ∧
      Evaluates (effect .worker) (body 44 (.present true)) decoded (.result .void) presented ∧
      presented.shown = [⟨sdlIyuv, 2, 2, []⟩] ∧
      Evaluates (effect .worker) (body 44 .cleanup) presented (.result .void) cleaned ∧
      Evaluates (effect .worker) (body 44 .cleanup) cleaned (.result .void) destroyed ∧
      destroyed.shown = [⟨sdlIyuv, 2, 2, []⟩] := by
  apply Exists.intro
  apply Exists.intro
  apply Exists.intro
  apply Exists.intro
  apply Exists.intro
  constructor
  · apply answers () rfl
    apply answers true rfl
    apply answers none rfl
    apply answers (some 0) ⟨rfl, rfl⟩
    apply answers () rfl
    apply answers true rfl
    apply answers () rfl
    apply Evaluates.done
  constructor
  · apply Completes.again
    · apply answers _ ⟨rfl, rfl⟩
      apply answers true rfl
      apply answers _ ⟨rfl, rfl⟩
      apply answers true rfl
      apply answers (some 0) ⟨rfl, rfl⟩
      apply Evaluates.done
    apply Completes.again
    · apply answers _ ⟨rfl, rfl⟩
      apply answers (.frame ⟨formatYuv420p, 2, 2, []⟩) rfl
      apply answers (some 1) ⟨rfl, rfl⟩
      apply answers _ ⟨rfl, rfl⟩
      apply answers _ ⟨rfl, rfl⟩
      apply answers true rfl
      apply answers () ⟨rfl, rfl⟩
      apply answers _ ⟨rfl, rfl⟩
      apply answers () rfl
      apply answers () rfl
      apply answers () rfl
      apply answers () rfl
      apply Evaluates.done
    · apply Completes.result
      apply answers _ ⟨rfl, rfl⟩
      apply answers .again rfl
      apply answers () rfl
      apply Evaluates.done
  constructor
  · apply answers () ⟨rfl, rfl⟩
    apply answers _ ⟨rfl, rfl⟩
    apply answers () rfl
    apply answers () rfl
    apply answers _ ⟨rfl, rfl⟩
    apply answers _ ⟨rfl, rfl⟩
    apply answers (some 0) ⟨rfl, rfl⟩
    apply answers () rfl
    apply answers true ⟨0, rfl, rfl⟩
    apply answers () ⟨0, ⟨sdlIyuv, 2, 2, []⟩, rfl, rfl, rfl⟩
    apply answers () rfl
    apply answers () rfl
    apply Evaluates.done
  constructor
  · rfl
  constructor
  · apply answers () ⟨rfl, rfl⟩
    apply answers _ ⟨rfl, rfl⟩
    apply answers () rfl
    apply answers _ ⟨rfl, rfl⟩
    apply answers () ⟨0, rfl, rfl⟩
    apply answers _ ⟨rfl, rfl⟩
    apply answers () ⟨0, _, rfl, rfl, rfl⟩
    apply answers _ ⟨rfl, rfl⟩
    apply answers () rfl
    apply Evaluates.done
  constructor
  · apply answers () ⟨rfl, rfl⟩
    apply answers _ ⟨rfl, rfl⟩
    apply answers () rfl
    apply answers _ ⟨rfl, rfl⟩
    apply answers _ ⟨rfl, rfl⟩
    apply answers _ ⟨rfl, rfl⟩
    apply answers () rfl
    apply Evaluates.done
  · rfl

/-- The renderer after one picture. -/
theorem one_picture_shown : ∃ labels w cleaned, RunsTo 44 labels (System.fresh w) ∧
    w.shown = [⟨sdlIyuv, 2, 2, []⟩] ∧
      Evaluates (effect .worker) (body 44 .cleanup) w (.result .void) cleaned := by
  obtain ⟨opened, decoded, presented, cleaned, _, sets, submits, presents, shown, cleans, -⟩ := one_picture
  have built : RunsTo 44 _ _ := .start
  obtain ⟨_, first⟩ := returned_run (Method.setup 2 2) built ⟨rfl, rfl⟩ (.result sets)
  obtain ⟨_, second⟩ := returned_run (Method.submit ⟨0, []⟩) first rfl submits
  obtain ⟨labels, third⟩ := returned_run (Method.present true) second trivial (.result presents)
  exact ⟨labels, presented, cleaned, third, shown, cleans⟩

theorem runs_sound (run : RunsTo kHwPixFmt labels s) : (outline kHwPixFmt).Sound s :=
  Outline.Sound.run verified rests_fresh run

theorem runs_global (run : RunsTo kHwPixFmt labels s) : Global s.world := by
  refine Outline.keeps_run verified rests_fresh Global global_fresh ?_ run
  intro m c w answer w' allowed effected global
  have kept := verified.keeps m c w answer w' allowed effected
  cases side : m.side with
  | submit =>
    simp only [outline, side] at kept
    exact kept.global global
  | worker =>
    simp only [outline, side] at kept
    exact kept.1.global global

theorem runs_allowed (run : RunsTo kHwPixFmt labels s) {c : Call} {next}
    (here : s.activity side = .inside m (.call c next)) :
    m.side = side ∧ (outline kHwPixFmt).allowed m c s.world := by
  have sound := runs_sound run
  obtain ⟨rfl, -⟩ := sound.inside side m _ here
  exact ⟨rfl, sound.allowed here⟩

/-- What is shown was delivered by the decoder, in this order and each picture at most once, and
what waits is the last that was handed over. -/
theorem shown_in_order (run : RunsTo kHwPixFmt labels s) :
    (s.world.shown ++ s.world.waiting).Sublist (s.world.delivered.filterMap Picture.image) ∧
      ∀ p, s.world.pendingFrame = some p → s.world.handed.getLast? = some (s.world.picture p) := by
  have global := runs_global run
  exact ⟨global.order.trans global.delivered, global.latest⟩

theorem shown_in_order_one : ∃ labels s, RunsTo 44 labels s ∧
    s.world.shown = [⟨sdlIyuv, 2, 2, []⟩] ∧
      (s.world.shown ++ s.world.waiting).Sublist (s.world.delivered.filterMap Picture.image) ∧
      ∀ p, s.world.pendingFrame = some p → s.world.handed.getLast? = some (s.world.picture p) := by
  obtain ⟨labels, w, -, run, shown, -⟩ := one_picture_shown
  exact ⟨labels, _, run, shown, shown_in_order run⟩

theorem idle_submit (run : RunsTo kHwPixFmt labels s) (idle : s.activity .submit = .idle) :
    SubmitAt [] .out .ready s.world := (runs_sound run).idle .submit idle

theorem idle_worker (run : RunsTo kHwPixFmt labels s) (idle : s.activity .worker = .idle) :
    WorkerAt none .out [] 0 (Resting kHwPixFmt) s.world := (runs_sound run).idle .worker idle

/-- With no frame of a thread, what is allocated is the frame in the slot. -/
theorem frames_in_slot {w : World} {knows : Own → Prop} (submit : SubmitAt [] .out .ready w)
    (worker : WorkerAt none .out [] 0 knows w) (p : Ptr) :
    w.frames p ≠ none ↔ w.pendingFrame = some p := by
  have slot := submit.global.slot p
  rw [Option.mem_toList] at slot
  rw [← slot]
  constructor
  · intro allocated
    obtain ⟨⟨holder, picture⟩, there⟩ := Option.ne_none_iff_exists'.mp allocated
    match holder with
    | .slot => exact ⟨picture, there⟩
    | .thread .submit => exact absurd ((submit.holds p).mp ⟨picture, there⟩) List.not_mem_nil
    | .thread .worker => exact absurd ((worker.holds p picture).mp there) nofun
  · rintro ⟨picture, there⟩
    simp [there]

/-- Between methods no frame, texture, context or device is allocated but what a member points to,
and the device that the context is attached to. -/
theorem nothing_leaks (run : RunsTo kHwPixFmt labels s) (submit : s.activity .submit = .idle)
    (worker : s.activity .worker = .idle) :
    (∀ p, s.world.frames p ≠ none ↔ s.world.pendingFrame = some p) ∧
      (∀ t, s.world.textures t ≠ none ↔ s.world.texture = some t) ∧
      (∀ c, s.world.contexts c ≠ none ↔ s.world.codecCtx = some c) ∧
      ∀ d, s.world.devices d = true ↔
        s.world.hwDeviceCtx = some d ∨ ∃ c, Attached s.world.contexts c d := by
  have global := runs_global run
  have frames := frames_in_slot (idle_submit run submit) (idle_worker run worker)
  exact ⟨frames, global.textures, global.contexts, global.devices⟩

theorem nothing_leaks_one : ∃ labels s, RunsTo 44 labels s ∧
    s.world.shown = [⟨sdlIyuv, 2, 2, []⟩] ∧
      (∀ p, s.world.frames p ≠ none ↔ s.world.pendingFrame = some p) ∧
      (∀ t, s.world.textures t ≠ none ↔ s.world.texture = some t) ∧
      (∀ c, s.world.contexts c ≠ none ↔ s.world.codecCtx = some c) ∧
      ∀ d, s.world.devices d = true ↔
        s.world.hwDeviceCtx = some d ∨ ∃ c, Attached s.world.contexts c d := by
  obtain ⟨labels, w, -, run, shown, -⟩ := one_picture_shown
  exact ⟨labels, _, run, shown, nothing_leaks run rfl rfl⟩

/-- Nothing is allocated. -/
structure World.Empty (w : World) : Prop where
  frames : ∀ p, w.frames p = none
  textures : ∀ t, w.textures t = none
  contexts : ∀ c, w.contexts c = none
  devices : ∀ d, w.devices d = false

theorem Global.no_context {w : World} (global : Global w) (closed : w.codecCtx = none) (c : Ptr) :
    w.contexts c = none := by
  by_contra there
  simpa [closed] using (global.contexts c).mp there

theorem Global.no_device {w : World} (global : Global w) (closed : w.codecCtx = none)
    (device : w.hwDeviceCtx = none) (d : Ptr) : w.devices d = false := by
  by_contra there
  rcases (global.devices d).mp (by simpa using there) with here | ⟨c, context, here, -⟩
  · simp [device] at here
  · simp [global.no_context closed c] at here

/-- With no frame of the submit thread nothing is left at all. -/
theorem Cleaned.empty {w : World} (cleaned : Cleaned w) (submit : SubmitAt [] .out .ready w) : w.Empty := by
  obtain ⟨worker, slot⟩ := cleaned
  obtain ⟨⟨codec, device, -⟩, texture⟩ := worker.own
  have global := worker.global
  refine ⟨fun p => ?_, fun t => ?_, global.no_context codec, global.no_device codec device⟩
  · by_contra there
    simpa [slot] using (frames_in_slot submit worker p).mp there
  · by_contra there
    simpa [texture] using (global.textures t).mp there

/-- While `setup` or `cleanup` runs, `submit` does not. -/
theorem alone_inside (run : RunsTo kHwPixFmt labels s) {rest} (unshared : ¬ m.shared)
    (here : s.activity .worker = .inside m rest) : s.activity .submit = .idle := by
  cases there : s.activity .submit with
  | idle => rfl
  | inside n rest' =>
    exact absurd ((runs_sound run).apart _ _ _ _ _ _ (by decide) here there).1 unshared

/-- What is established where a method returns. -/
theorem returns (run : RunsTo kHwPixFmt labels s)
    (step : Threads.Step (renderer kHwPixFmt) s (.returned m r) s') :
    s'.world = s.world ∧ (outline kHwPixFmt).post m r s.world ∧
      ∃ rest, s.activity m.side = .inside m rest := by
  cases step with
  | @returned t _ _ here =>
    obtain ⟨rfl, -⟩ := (runs_sound run).inside t m _ here
    exact ⟨rfl, (runs_sound run).post here, _, here⟩

theorem cleanup_returns {w : World} (post : (outline kHwPixFmt).post .cleanup r w) : Cleaned w := by
  cases r with
  | void => exact post
  | code | status | stats => exact post.elim

/-- When `cleanup` returns nothing is allocated. -/
theorem cleanup_frees_all (run : RunsTo kHwPixFmt labels s)
    (step : Threads.Step (renderer kHwPixFmt) s (.returned .cleanup r) s') : s'.world.Empty := by
  obtain ⟨same, post, rest, here⟩ := returns run step
  have cleaned := cleanup_returns post
  rw [same]
  exact Cleaned.empty cleaned (idle_submit run (alone_inside run id here))

theorem cleanup_frees_all_one : ∃ labels s s', RunsTo 44 labels s ∧
    Threads.Step (renderer 44) s (.returned .cleanup .void) s' ∧ s'.world.Empty := by
  obtain ⟨_, w, _, run, -, cleans⟩ := one_picture_shown
  obtain ⟨labels, s, s', run, -, step⟩ := returning_run Method.cleanup run trivial cleans
  exact ⟨labels, s, s', run, step, cleanup_frees_all run step⟩

/-- Whatever fails in `setup`, it returns 0 with an open decoder of the size asked for, which
picks the format of the device if there is one, or it returns -1 with no context and no device. -/
theorem setup_outcome {width height rc : Int} (run : RunsTo kHwPixFmt labels s)
    (step : Threads.Step (renderer kHwPixFmt) s (.returned (.setup width height) (.code rc)) s') :
    (rc = 0 ∧ Decoding kHwPixFmt s'.world.toOwn ∧ s'.world.width = width ∧
        s'.world.height = height) ∨
      (rc = -1 ∧ Closed s'.world.toOwn ∧ (∀ c, s'.world.contexts c = none) ∧
        ∀ d, s'.world.devices d = false) := by
  obtain ⟨same, outcome, -⟩ := returns run step
  rw [same]
  rcases outcome with ⟨rfl, opened⟩ | ⟨rfl, closed⟩
  · exact .inl ⟨rfl, opened.own.2⟩
  · have codec : s.world.codecCtx = none := closed.own.context
    have device : s.world.hwDeviceCtx = none := by simpa using closed.own.device
    exact .inr ⟨rfl, ⟨codec, device, closed.own.format⟩, closed.global.no_context codec,
      closed.global.no_device codec device⟩

theorem setup_outcome_software : ∃ labels s s', RunsTo 44 labels s ∧
    Threads.Step (renderer 44) s (.returned (.setup 2 2) (.code 0)) s' ∧
      ((0 : Int) = 0 ∧ Decoding 44 s'.world.toOwn ∧ s'.world.width = 2 ∧ s'.world.height = 2 ∨
        (0 : Int) = -1 ∧ Closed s'.world.toOwn ∧ (∀ c, s'.world.contexts c = none) ∧
          ∀ d, s'.world.devices d = false) := by
  obtain ⟨opened, _, _, _, _, sets, -⟩ := one_picture
  have built : RunsTo 44 _ _ := .start
  obtain ⟨labels, s, s', run, -, step⟩ := returning_run (Method.setup 2 2) built ⟨rfl, rfl⟩ sets
  exact ⟨labels, s, s', run, step, setup_outcome run step⟩

/-- The counters are those of the frames handed over and shown modulo 2^64, and while a frame is
being counted they are one behind. -/
theorem counters_count (run : RunsTo kHwPixFmt labels s) :
    Counts s.world.framesDecoded s.world.handed.length ∧
      Counts s.world.framesPresented s.world.shown.length ∧
      s.world.shown.length ≤ s.world.handed.length ∧
      (s.activity .submit = .idle → s.world.framesDecoded = .ofNat s.world.handed.length) ∧
      (s.activity .worker = .idle → s.world.framesPresented = .ofNat s.world.shown.length) := by
  have global := runs_global run
  refine ⟨global.decoded, global.presented, global.shown_handed, fun idle => ?_, fun idle => ?_⟩
  · obtain ⟨n, value, same⟩ := (idle_submit run idle).counted
    exact value.trans (congrArg _ same.symm)
  · obtain ⟨n, value, same⟩ := (idle_worker run idle).counted
    exact value.trans (congrArg _ same.symm)

theorem counters_count_one : ∃ labels s, RunsTo 44 labels s ∧
    s.world.shown = [⟨sdlIyuv, 2, 2, []⟩] ∧ Counts s.world.framesDecoded s.world.handed.length ∧
      Counts s.world.framesPresented s.world.shown.length ∧
      s.world.shown.length ≤ s.world.handed.length ∧
      (s.activity .submit = .idle → s.world.framesDecoded = .ofNat s.world.handed.length) ∧
      (s.activity .worker = .idle → s.world.framesPresented = .ofNat s.world.shown.length) := by
  obtain ⟨labels, w, -, run, shown, -⟩ := one_picture_shown
  exact ⟨labels, _, run, shown, counters_count run⟩

end Video
end StreamEngine.Client
