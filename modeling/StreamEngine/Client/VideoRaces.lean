import StreamEngine.Client.VideoRuns

/-! The threads of the video renderer beside each other: nothing but the mutex and the counters is
touched by both at one time, and neither waits for ever for the other. -/
namespace StreamEngine.Client
namespace Video
open Interaction Threads Transition

/-- What a call reads or writes, but for the mutex and the atomic members. -/
inductive Place where
  | pendingFrame
  | codecCtx
  | hwDeviceCtx
  | hwPixFmt
  | texture
  | size
  | decoder
  | frame (p : Ptr)

def Call.touches : Call → World → List Place
  | .pendingFrame, _ | .storePending _, _ | .clearPending, _ => [.pendingFrame]
  | .freePending, w => .pendingFrame :: w.pendingFrame.toList.map .frame
  | .codecCtx, _ | .allocContext, _ => [.codecCtx]
  | .hwDeviceCtx, _ | .createDevice, _ | .unrefDevice, _ => [.hwDeviceCtx]
  | .hwPixFmt, _ | .setHwPixFmt _, _ => [.hwPixFmt]
  | .texture, _ | .setTextureSpec .., _ | .destroyTexture, _ | .createTexture .., _
  | .updateTexture _, _ | .render, _ => [.texture]
  | .setSize .., _ | .size, _ => [.size]
  | .configure .., _ | .pickFormat, _ | .openCodec, _ | .freeContext, _ => [.codecCtx, .decoder]
  | .attachDevice, _ => [.codecCtx, .decoder, .hwDeviceCtx]
  | .sendPacket .., _ => [.decoder]
  | .receiveFrame _ frame, _ => [.decoder, .frame frame]
  | .readFrame frame, _ | .unrefFrame frame, _ | .freeFrame frame, _ => [.frame frame]
  | .transfer cpu frame, _ | .refFrame cpu frame, _ => [.frame cpu, .frame frame]
  | .lock, _ | .unlock, _ | .setUsingHardware _, _ | .countDecoded, _ | .countPresented, _
  | .countError, _ | .framesDecoded, _ | .framesPresented, _ | .decodeErrors, _
  | .usingHardware, _ | .findDecoder, _ | .allocPacket, _ | .allocFrame, _ | .nullFrame, _ => []

/-- Whose a place is while both threads run: the slot is with the mutex. -/
def World.Mine (w : World) (side : Side) : Place → Prop
  | .pendingFrame => w.frameMu = some side
  | .frame p => w.Has side p ∨ w.frameMu = some side ∧ w.pendingFrame = some p
  | .codecCtx | .hwPixFmt | .decoder => side = .submit
  | .hwDeviceCtx | .texture | .size => side = .worker

variable {w : World} {side : Side} {c : Call} {place : Place}

theorem mine_exclusive (global : Global w) (submit : w.Mine .submit place)
    (worker : w.Mine .worker place) : False := by
  cases place with
  | pendingFrame => simp [World.Mine] at submit worker; simp [submit] at worker
  | frame p =>
    rcases submit with ⟨picture, mine⟩ | ⟨mutex, slot⟩
    · rcases worker with ⟨_, its⟩ | ⟨-, slot⟩
      · simp [mine] at its
      · simp [global.pending_slot slot] at mine
    · rcases worker with ⟨_, its⟩ | ⟨mutex', -⟩
      · simp [global.pending_slot slot] at its
      · simp [mutex] at mutex'
  | codecCtx | hwPixFmt | decoder => exact absurd worker (by simp [World.Mine])
  | hwDeviceCtx | texture | size => exact absurd submit (by simp [World.Mine])

/-- A frame that the thread has, by the calls on frames. -/
theorem mine_frame {p : Ptr} (has : w.Has side p) (touched : place ∈ [Place.frame p]) :
    w.Mine side place := by
  obtain rfl := List.mem_singleton.mp touched
  exact .inl has

theorem submit_touches (legal : Legal .submit c w) (permitted : SubmitCall c w)
    (touched : place ∈ c.touches w) : w.Mine .submit place := by
  cases c with
  | pendingFrame =>
    obtain rfl := List.mem_singleton.mp touched
    exact legal
  | storePending p =>
    obtain rfl := List.mem_singleton.mp touched
    exact legal.1
  | freePending =>
    rcases List.mem_cons.mp touched with rfl | inside
    · exact legal.1
    · obtain ⟨p, slot, rfl⟩ := List.mem_map.mp inside
      exact .inr ⟨legal.1, Option.mem_toList.mp slot⟩
  | codecCtx | hwPixFmt | sendPacket =>
    obtain rfl := List.mem_singleton.mp touched
    rfl
  | receiveFrame context frame =>
    rcases List.mem_cons.mp touched with rfl | inside
    · rfl
    · exact mine_frame legal.2 inside
  | readFrame frame | unrefFrame frame | freeFrame frame => exact mine_frame legal touched
  | transfer cpu frame | refFrame cpu frame =>
    rcases List.mem_cons.mp touched with rfl | inside
    · exact .inl legal.1
    · exact mine_frame legal.2.1 inside
  | lock | unlock | countDecoded | countError | allocPacket | allocFrame | nullFrame =>
    exact absurd touched List.not_mem_nil
  | _ => exact permitted.elim

theorem present_touches (legal : Legal .worker c w) (permitted : PresentCall c w)
    (touched : place ∈ c.touches w) : w.Mine .worker place := by
  cases c with
  | pendingFrame | clearPending =>
    obtain rfl := List.mem_singleton.mp touched
    exact legal
  | texture | setTextureSpec | destroyTexture | createTexture | updateTexture | render | size =>
    obtain rfl := List.mem_singleton.mp touched
    rfl
  | readFrame frame | freeFrame frame => exact mine_frame legal touched
  | lock | unlock | countPresented | framesDecoded | framesPresented | decodeErrors
  | usingHardware => exact absurd touched List.not_mem_nil
  | _ => exact permitted.elim

variable {kHwPixFmt : Int} {labels : List Move} {s : State} {m n : Method} {c' : Call}

/-- Both threads are never about to touch one place. -/
theorem threads_never_race (run : RunsTo kHwPixFmt labels s) {next next'}
    (submit : s.activity .submit = .inside m (.call c next))
    (worker : s.activity .worker = .inside n (.call c' next')) :
    ∀ place ∈ c.touches s.world, place ∉ c'.touches s.world := by
  intro place here there
  have sound := runs_sound run
  obtain ⟨ofSubmit, -⟩ := sound.inside _ _ _ submit
  obtain ⟨ofWorker, -⟩ := sound.inside _ _ _ worker
  obtain ⟨-, legal, permitted⟩ := sound.allowed submit
  obtain ⟨-, legal', permitted'⟩ := sound.allowed worker
  have shared := (sound.apart _ _ _ _ _ _ (by decide) submit worker).2
  have first : s.world.Mine .submit place := by
    cases m with
    | submit | receive => exact submit_touches legal permitted here
    | setup | present | stats | cleanup => exact absurd ofSubmit nofun
  have second : s.world.Mine .worker place := by
    cases n with
    | present | stats => exact present_touches legal' permitted' there
    | setup | cleanup => exact shared.elim
    | submit | receive => exact absurd ofWorker nofun
  exact mine_exclusive (runs_global run) first second

/-- A decode unit arrives while a picture is presented. -/
theorem threads_never_race_both : ∃ labels s m c next n c' next', RunsTo 44 labels s ∧
    s.activity .submit = .inside m (.call c next) ∧ s.activity .worker = .inside n (.call c' next') ∧
      ∀ place ∈ c.touches s.world, place ∉ c'.touches s.world := by
  have submitted : RunsTo 44 _ _ := .next .start (.invoke (.submit ⟨0, []⟩) rfl nofun rfl)
  have both : RunsTo 44 _ _ := .next submitted (@Threads.Step.invoke _ _ _ _ _ _ _ (renderer 44) _
    (.present true) rfl (fun _ _ _ here => System.fresh_turn here ▸ ⟨trivial, trivial⟩) trivial)
  exact ⟨_, _, _, _, _, _, _, _, both, rfl, rfl, threads_never_race both rfl rfl⟩

/-! ### Waiting -/

/-- A call is answered, but for one that waits for the mutex. -/
theorem answered (legal : Legal side c w) (memory : w.exhausted = false)
    (free : c = .lock → w.frameMu = none) : ∃ answer w', effect side c w answer w' := by
  cases c with
  | lock => exact ⟨(), _, free rfl, rfl⟩
  | pendingFrame | codecCtx | hwDeviceCtx | hwPixFmt | texture | framesDecoded | framesPresented
  | decodeErrors | usingHardware | size | readFrame => exact ⟨_, w, rfl, rfl⟩
  | findDecoder | allocPacket | sendPacket | updateTexture | refFrame | openCodec =>
    exact ⟨false, _, rfl⟩
  | createDevice | allocContext | attachDevice | allocFrame | createTexture | transfer =>
    exact ⟨none, _, rfl⟩
  | receiveFrame => exact ⟨.again, _, rfl⟩
  | unrefDevice =>
    obtain ⟨d, there⟩ := Option.ne_none_iff_exists'.mp legal
    exact ⟨(), _, d, there, rfl⟩
  | freeContext =>
    obtain ⟨c, there, live⟩ := legal
    obtain ⟨context, found⟩ := Option.ne_none_iff_exists'.mp live
    exact ⟨(), _, c, context, there, found, rfl⟩
  | destroyTexture =>
    obtain ⟨t, there, -⟩ := legal
    exact ⟨(), _, t, there, rfl⟩
  | render =>
    obtain ⟨t, there, live⟩ := legal
    obtain ⟨image, found⟩ := Option.ne_none_iff_exists'.mp live
    exact ⟨(), _, t, image, there, found, rfl⟩
  | nullFrame => exact absurd (memory.symm.trans legal) nofun
  | _ => exact ⟨(), _, rfl⟩

/-- A thread inside a method that does not wait for the mutex goes on. -/
theorem goes_on (run : RunsTo kHwPixFmt labels s) (memory : s.world.exhausted = false) {rest}
    (inside : s.activity side = .inside m rest)
    (free : ∀ next, rest = .call .lock next → s.world.frameMu = none) :
    ∃ l s', Threads.Step (renderer kHwPixFmt) s l s' ∧ ∀ n, l ≠ .invoke n := by
  cases rest with
  | done ending =>
    cases ending with
    | again n => exact ⟨_, _, .again inside, nofun⟩
    | result r => exact ⟨_, _, .returned inside, nofun⟩
  | call c next =>
    obtain ⟨rfl, -, legal, -⟩ := runs_allowed run inside
    obtain ⟨answer, w', effected⟩ := answered legal memory (by rintro rfl; exact free next rfl)
    exact ⟨_, _, .call inside effected, nofun⟩

theorem holder_inside (run : RunsTo kHwPixFmt labels s) (held : s.world.frameMu = some side) :
    ∃ m rest, s.activity side = .inside m rest := by
  cases here : s.activity side with
  | inside m rest => exact ⟨m, rest, rfl⟩
  | idle =>
    have rests := (runs_sound run).idle side here
    cases side with
    | submit => exact absurd held rests.lock
    | worker => exact absurd held rests.lock

/-- While a thread is inside a method one of them goes on, as long as there is memory for frames:
who holds the mutex does not wait for it. -/
theorem never_deadlocks (run : RunsTo kHwPixFmt labels s) (memory : s.world.exhausted = false) {rest}
    (inside : s.activity side = .inside m rest) :
    ∃ l s', Threads.Step (renderer kHwPixFmt) s l s' ∧ ∀ n, l ≠ .invoke n := by
  cases mutex : s.world.frameMu with
  | none => exact goes_on run memory inside fun _ _ => mutex
  | some holder =>
    obtain ⟨n, held, there⟩ := holder_inside run mutex
    refine goes_on run memory there ?_
    rintro next rfl
    obtain ⟨rfl, -, legal, -⟩ := runs_allowed run there
    exact absurd mutex legal

theorem never_deadlocks_present : ∃ labels s, RunsTo 44 labels s ∧
    ∃ l s', Threads.Step (renderer 44) s l s' ∧ ∀ n, l ≠ .invoke n := by
  have invoked : RunsTo 44 _ _ := .next .start (.invoke (.present true) rfl nofun trivial)
  exact ⟨_, _, invoked, never_deadlocks invoked rfl System.turn_self⟩

end Video
end StreamEngine.Client
