import StreamEngine.Client.HandlersProofs

/-! `client.start` asks the session whether it is free only after the host has been
handed a new remote-input key. -/
namespace StreamEngine.Client
open ByteString Decimal Hoare History Json Net Engine

variable {X509 : Type} {env : Environment X509} {initial : List PairedHost}
  {content : Option Bytes} {past : List (Event X509)} {host : Bytes}

/-- Since some point in the past a new remote-input key was drawn and sent to a host. -/
def Rekeyed (past log : List (Event X509)) : Prop :=
  ∃ key cfg verb before between host port req peer after,
    key.length = 16 ∧ cfg.riKeyHex = toHex key ∧ verb ∈ [ascii "launch", ascii "resume"] ∧
      log = past ++ before ++ .random 16 (some key) :: between ++
        .tlsWrite host port verb (launchArgs verb cfg) req peer :: after

theorem launchVerb_mem (currentGame : Int) :
    launchVerb currentGame ∈ [ascii "launch", ascii "resume"] := by
  unfold launchVerb
  split <;> simp

theorem isQuiet_sessionStart (info : StartInfo) : IsQuiet (sessionStart env info) := by
  refine isQuiet_bind isQuiet_get fun asked => isQuiet_bind (isQuiet_record rfl) fun _ =>
    isQuiet_bind isQuiet_get fun w => ?_
  dsimp only
  cases startError (w.session.running && !env.workerEnded asked.log) info with
  | some err => exact isQuiet_pure _
  | none =>
    refine isQuiet_ite Quietly.refl (isQuiet_bind ?_ fun _ => isQuiet_pure _)
    exact fun w => ⟨rfl, rfl, [], (List.append_nil _).symm, by simp⟩

/-- A full key is a new draw. -/
theorem randomKey_spec {hung : World X509 → Prop} :
    Triple (Ready env initial content past host) (randomBytes env 16)
      (fun key w => Ready env initial content past host w ∧ (key.length = 16 →
        ∃ before, past ++ before ++ [.random 16 (some key)] <+: w.log)) hung := by
  intro w ready
  obtain ⟨before, since⟩ := ready.sound.since
  have quiet : Quietly w (exec (randomBytes env 16) w).2 := isQuiet_randomBytes 16 w
  have later := ready.quietly quiet
  have run : exec (randomBytes env 16) w = (some (((env.rand w.log 16).map Subtype.val).getD []),
    w.noted [.random 16 ((env.rand w.log 16).map Subtype.val)]) := rfl
  rw [run] at later ⊢
  refine .inl ⟨_, rfl, later, fun full => ⟨before, ?_⟩⟩
  cases drawn : env.rand w.log 16 with
  | none => simp [drawn] at full
  | some key => simp [since, World.noted]

variable [DecidableEq X509]

theorem fetchAppList_spec :
    Triple (Ready env initial content past host)
      (fetchAppList (getHttps env (ascii "applist") []))
      (fun _ => Ready env initial content past host) (Sound env initial content past) := by
  refine triple_bind (getHttps_spec [] (by decide)) fun xml => triple_ite (fun _ => ?_) fun _ => ?_
  · exact triple_pure fun w ready => ready.1
  · exact triple_pure fun w ready => ready.1

theorem resolveStartApp_spec (appRef : Bytes) :
    Triple (Ready env initial content past host)
      (resolveStartApp (fetchAppList (getHttps env (ascii "applist") [])) host appRef)
      (Continues env initial content past host) (Sound env initial content past) := by
  have unreachable : ascii "host_unreachable" ≠ ascii "engine_busy" := by decide
  have unknown : ascii "app_not_found" ≠ ascii "engine_busy" := by decide
  refine triple_ite (fun _ => ?_) fun _ => triple_pure fun w ready => ready
  refine triple_bind fetchAppList_spec fun apps => ?_
  cases apps with
  | error err => exact triple_pure fun w ready => ⟨ready.sound, unreachable⟩
  | ok apps =>
    refine triple_ite (fun _ => ?_) fun _ => triple_pure fun w ready => ready
    exact triple_pure fun w ready => ⟨ready.sound, unknown⟩

theorem launchOrResume_spec (cfg : LaunchConfig) (currentGame : Int) :
    Triple (Ready env initial content past host) (launchOrResume (getHttps env) cfg currentGame)
      (fun r w => Ready env initial content past host w ∧ ∀ url, r = .ok url →
        Written past (launchVerb currentGame) (launchArgs (launchVerb currentGame) cfg) w)
      (Sound env initial content past) := by
  have pinned : launchVerb currentGame ∈ pinnedCommands :=
    List.mem_cons_of_mem _ (List.mem_cons_of_mem _ (launchVerb_mem currentGame))
  refine triple_bind (getHttps_spec _ pinned) fun resp => triple_ite (fun _ => ?_) fun accepted => ?_
  · exact triple_pure fun w ready => ⟨ready.1, by simp⟩
  refine triple_ite (fun _ => ?_) fun _ => ?_
  · exact triple_pure fun w ready => ⟨ready.1, by simp⟩
  · exact triple_pure fun w ready => ⟨ready.1, fun _ _ => ready.2 fun empty => accepted (.inl empty)⟩

/-- The session is asked only after the host accepted the request. -/
theorem launchSession_spec (lc : LaunchConfig) (currentGame : Int) (startInfo : Bytes → StartInfo) :
    Triple (Ready env initial content past host) (launchSession env lc currentGame startInfo)
      (fun answer w => Sound env initial content past w ∧
        ∀ msg, answer = .error (ascii "engine_busy", msg) →
          Written past (launchVerb currentGame) (launchArgs (launchVerb currentGame) lc) w)
      (Sound env initial content past) := by
  have internal : ascii "internal" ≠ ascii "engine_busy" := by decide
  refine triple_bind (launchOrResume_spec lc currentGame) fun launched => ?_
  cases launched with
  | error err => exact triple_pure fun w held => ⟨held.1.sound, by simp [internal]⟩
  | ok url =>
    refine triple_bind (triple_quiet (isQuiet_sessionStart (startInfo url))
      (fun step held => ⟨held.1.quietly step, fun _ same => (held.2 _ same).quietly step⟩)
      fun w held => held.1.sound) fun started => ?_
    cases started with
    | error err => exact triple_pure fun w held => ⟨held.1.sound, fun _ _ => held.2 url rfl⟩
    | ok _ => exact triple_pure fun w held => ⟨held.1.sound, by simp⟩

/-- The same since before the key was drawn. -/
theorem launchSession_rekeyed {key : Bytes} {lc : LaunchConfig} (full : key.length = 16)
    (named : lc.riKeyHex = toHex key) (host : Bytes) (before : List (Event X509))
    (currentGame : Int) (startInfo : Bytes → StartInfo) :
    Triple (Ready env initial content (past ++ before ++ [.random 16 (some key)]) host)
      (launchSession env lc currentGame startInfo)
      (fun answer w => Sound env initial content past w ∧
        ∀ msg, answer = .error (ascii "engine_busy", msg) → Rekeyed past w.log)
      (Sound env initial content past) := by
  have earlier : ∀ w, Sound env initial content (past ++ before ++ [.random 16 (some key)]) w →
      Sound env initial content past w := by
    intro w sound
    refine sound.at_ (List.IsPrefix.trans ?_ sound.since)
    simp [List.append_assoc]
  refine triple_weaken (triple_stopped (launchSession_spec lc currentGame startInfo) earlier)
    (fun _ ready => ready) ?_
  rintro answer w ⟨sound, busy⟩
  refine ⟨earlier w sound, fun msg answered => ?_⟩
  obtain ⟨between, host, port, req, peer, after, log⟩ := busy msg answered
  exact ⟨key, lc, _, before, between, host, port, req, peer, after, full, named,
    launchVerb_mem currentGame, by rw [log]; simp⟩

/-- Whatever `launchAndStart` answers, a busy session is only found out after the host
was sent a new key. -/
theorem launchAndStart_spec (params : Value) (settings : StreamSettings) (info : Bytes)
    (appId : Int) :
    Triple (Ready env initial content past host)
      (launchAndStart env params settings host info appId)
      (fun answer w => Sound env initial content past w ∧
        ∀ msg, answer = .error (ascii "engine_busy", msg) → Rekeyed past w.log)
      (Sound env initial content past) := by
  have internal : ascii "internal" ≠ ascii "engine_busy" := by decide
  refine triple_bind randomKey_spec fun riKey => ?_
  refine triple_bind (triple_quiet (isQuiet_randomBytes 4) (fun step held => ?_)
    fun w held => held.1.sound) fun four => ?_
  · obtain ⟨events, extended, -⟩ := step.events
    refine ⟨held.1.quietly step, fun full => ?_⟩
    obtain ⟨before, since⟩ := held.2 full
    exact ⟨before, since.trans ⟨events, extended.symm⟩⟩
  refine triple_ite (fun _ => ?_) fun full => ?_
  · exact triple_pure fun w held => ⟨held.1.sound, by simp [internal]⟩
  rw [not_not] at full
  refine triple_weaken
    (triple_exists fun before => launchSession_rekeyed full rfl host before _ _) ?_ fun _ _ held => held
  rintro w ⟨ready, drawn⟩
  obtain ⟨before, since⟩ := drawn full
  exact ⟨before, ready.sound.at_ since, ready.client, ready.pinned⟩

theorem clientStart_spec (params : Value) :
    Triple (Sound env initial content past) (clientStart env params)
      (fun answer w => Sound env initial content past w ∧
        ∀ msg, answer = .error (ascii "engine_busy", msg) → Rekeyed past w.log)
      (Sound env initial content past) := by
  have invalid : ascii "bad_params" ≠ ascii "engine_busy" := by decide
  have unreachable : ascii "host_unreachable" ≠ ascii "engine_busy" := by decide
  unfold clientStart
  cases validated : validateStreamSettings ((params.find (ascii "settings")).getD .null) with
  | error e =>
    refine triple_pure fun w sound => ⟨sound, ?_⟩
    intro msg busy
    obtain rfl := Except.error.inj busy
    exact absurd (validateStreamSettings_error validated) invalid.symm
  | ok settings =>
    refine triple_ite (fun _ => ?_) fun _ => triple_ite (fun _ => ?_) fun _ => ?_
    · exact triple_pure fun w sound => ⟨sound, by simp [badParams, invalid]⟩
    · exact triple_pure fun w sound => ⟨sound, by simp [badParams, invalid]⟩
    refine triple_bind (connectPairedHost_spec _) fun connected => ?_
    cases connected with
    | error e =>
      refine triple_pure fun w held => ⟨held.1, fun msg busy => ?_⟩
      obtain rfl := Except.error.inj busy
      exact absurd rfl held.2
    | ok _ =>
      refine triple_bind (getHttps_spec [] (by decide)) fun info => triple_ite (fun _ => ?_) fun _ => ?_
      · exact triple_pure fun w ready => ⟨ready.1.sound, by simp [unreachable]⟩
      refine triple_weaken (triple_bind (resolveStartApp_spec _) fun resolved => ?_)
        (fun w ready => ready.1) fun _ _ held => held
      cases resolved with
      | error e =>
        refine triple_pure fun w held => ⟨held.1, fun msg busy => ?_⟩
        obtain rfl := Except.error.inj busy
        exact absurd rfl held.2
      | ok appId => exact launchAndStart_spec params settings info appId

end StreamEngine.Client
