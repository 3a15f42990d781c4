import StreamEngine.Client.RunProofs

/-! Which application a stream is for. The exchanges of a `client.start` with its host
are read off the history; the last one is the launch or resume request. A resume request
names no application: it re-attaches to whatever the host runs, and the handler does not
compare that with the appid it resolved. -/
namespace StreamEngine.Client
open ByteString Decimal Hoare Json Net Engine

variable {X509 : Type} {env : Environment X509} {w w' : World X509}
  {past events later : List (Event X509)}

/-- Command, query and body of the reply. -/
abbrev Exchange := Bytes × Bytes × Bytes

variable {list : List Exchange}

/-! ### Exchanges of a history -/

/-- The requests that were answered over TLS, with the bodies of the replies. -/
def exchanges : List (Event X509) → List Exchange
  | .tlsWrite _ _ command args _ _ :: .tlsReply raw :: later =>
    (command, args, (replyBody raw).getD []) :: exchanges later
  | _ :: later => exchanges later
  | [] => []

def Event.isWrite : Event X509 → Bool
  | .tlsWrite .. => true
  | _ => false

/-- No request waits for its reply. -/
def Settled (events : List (Event X509)) : Prop :=
  ∀ e ∈ events.getLast?, e.isWrite = false

theorem exchanges_skip {e : Event X509} (quiet : e.isWrite = false) :
    exchanges (e :: later) = exchanges later := by
  cases e with
  | tlsWrite => contradiction
  | _ => rw [exchanges]; simp

theorem exchanges_silent (silent : ∀ e ∈ events, e.isWrite = false) : exchanges events = [] := by
  induction events with
  | nil => rfl
  | cons e events ih =>
    rw [exchanges_skip (silent e List.mem_cons_self)]
    exact ih fun e' member => silent e' (List.mem_cons_of_mem _ member)

theorem settled_of_silent (silent : ∀ e ∈ events, e.isWrite = false) : Settled events :=
  fun e last => silent e (List.mem_of_getLast? last)

theorem Settled.append (first : Settled events) (second : Settled later) :
    Settled (events ++ later) := by
  intro e last
  rw [List.getLast?_append] at last
  cases final : later.getLast? with
  | none => exact first e (by simpa [final] using last)
  | some e' => exact second e (by simpa [final] using last)

theorem Settled.tail {e : Event X509} (settled : Settled (e :: events)) : Settled events := by
  intro e' last
  refine settled e' ?_
  rw [List.getLast?_cons]
  simp [Option.mem_def.mp last]

theorem exchanges_append (settled : Settled events) :
    exchanges (events ++ later) = exchanges events ++ exchanges later := by
  fun_induction exchanges events with
  | case1 host port command args req peer raw rest ih =>
    simp [exchanges, ih settled.tail.tail]
  | case2 e rest unanswered ih =>
    rw [← ih settled.tail]
    cases written : e.isWrite with
    | false => exact exchanges_skip written
    | true =>
      cases e with
      | tlsWrite host port command args req peer =>
        -- at the end it would wait for a reply in `later`
        cases rest with
        | nil => exact absurd (settled _ rfl) (by simp [Event.isWrite])
        | cons e' rest =>
          cases e' with
          | tlsReply raw => exact absurd rfl (unanswered _ _ _ _ _ _ raw rest rfl)
          | _ => simp [exchanges]
      | _ => contradiction
  | case3 => rfl

/-! ### Exchanges since some point in the past -/

/-- Since some point in the past exactly these exchanges took place. -/
def Exchanged (past : List (Event X509)) (list : List Exchange) (w : World X509) : Prop :=
  ∃ events, w.log = past ++ events ∧ exchanges events = list ∧ Settled events

namespace Exchanged

theorem start (w : World X509) : Exchanged w.log [] w :=
  ⟨[], (List.append_nil _).symm, rfl, nofun⟩

theorem extend (held : Exchanged past list w) {more : List Exchange} (settled : Settled later)
    (these : exchanges later = more) (log : w'.log = w.log ++ later) :
    Exchanged past (list ++ more) w' := by
  obtain ⟨events, logged, rfl, before⟩ := held
  refine ⟨events ++ later, ?_, ?_, before.append settled⟩
  · rw [log, logged, List.append_assoc]
  · rw [exchanges_append before, these]

theorem silent (held : Exchanged past list w) (silent : ∀ e ∈ later, e.isWrite = false)
    (log : w'.log = w.log ++ later) : Exchanged past list w' := by
  have extended := held.extend (settled_of_silent silent) (exchanges_silent silent) log
  rwa [List.append_nil] at extended

theorem harmless (held : Exchanged past list w) (harmless : ∀ e ∈ later, e.harmless = true)
    (log : w'.log = w.log ++ later) : Exchanged past list w' := by
  refine held.silent (fun e member => ?_) log
  have here := harmless e member
  cases e with
  | tlsWrite => contradiction
  | _ => rfl

theorem quietly : KeptQuietly (Exchanged past list) := by
  intro w w' step held
  obtain ⟨events, log, quiet⟩ := step.events
  exact held.harmless (fun e member => Event.harmless_of_quiet (quiet e member)) log

end Exchanged

/-- A reply with a body is the last exchange. -/
theorem Requested.exchanged {client : NvHttpClient} {port : Int} {command args reply : Bytes}
    (requested : Requested env client port command args true events (some reply))
    (held : Exchanged past list w) (replied : reply ≠ []) :
    Exchanged past (list ++ [(command, args, reply)]) (w.noted events) := by
  obtain ⟨uuid, req, raw, peer, body, rfl⟩ := requested.answered replied
  refine held.extend ?_ ?_ rfl
  · intro e last
    cases last
    rfl
  · simp [exchanges, body]

/-- What a step of a handler leaves when it succeeds. -/
def OnOk {ε α : Type} (post : α → World X509 → Prop) : Except ε α → World X509 → Prop
  | .ok a, w => post a w
  | .error _, _ => True

theorem triple_failed {ε α : Type} {pre : World X509 → Prop} {e : ε}
    {post : α → World X509 → Prop} :
    Triple pre (pure (.error e) : Engine X509 (Except ε α)) (OnOk post) fun _ => True :=
  triple_pure fun _ _ => trivial

/-- The appid that a reference stands for, with the exchanges it took to find out. -/
inductive Resolves (appRef : Bytes) : List Exchange → Int → Prop where
  | number (positive : 0 < atoi appRef) : Resolves appRef [] (atoi appRef)
  | title {xml} (other : atoi appRef ≤ 0) (found : 0 < resolveAppId (parseAppList xml) appRef) :
      Resolves appRef [(ascii "applist", [], xml)] (resolveAppId (parseAppList xml) appRef)

/-! ### The application of a stream -/

/-- The application that the host says it runs, zero when there is none. -/
def runningGame (info : Bytes) : Int := atoi (xmlText info (ascii "currentgame"))

/-- What a host that answered `serverinfo` with `info` streams after a request: the
application that a launch names, and after a resume the one that was running. -/
inductive StreamFor (info : Bytes) : Bytes → Bytes → Int → Prop where
  | launched {appId rest} :
      StreamFor info (ascii "launch") (ascii "appid=" ++ printInt appId ++ ascii "&" ++ rest) appId
  | resumed {args} : StreamFor info (ascii "resume") args (runningGame info)

theorem buildLaunchArgs_appid (cfg : LaunchConfig) :
    ∃ rest, buildLaunchArgs cfg = ascii "appid=" ++ printInt cfg.appId ++ ascii "&" ++ rest := by
  have separator : ascii "&mode=" = ascii "&" ++ ascii "mode=" := by decide
  unfold buildLaunchArgs
  rw [separator]
  simp only [List.append_assoc, List.append_cancel_left_eq, exists_eq']

theorem StreamFor.running {info verb args : Bytes} {appId : Int}
    (streamed : StreamFor info verb args appId) (resume : verb = ascii "resume") :
    runningGame info = appId := by
  cases streamed with
  | launched => exact absurd resume (by decide)
  | resumed => rfl

theorem streamFor_launchVerb_iff {info : Bytes} (cfg : LaunchConfig) :
    StreamFor info (launchVerb (runningGame info)) (launchArgs (launchVerb (runningGame info)) cfg)
      cfg.appId ↔ runningGame info = 0 ∨ runningGame info = cfg.appId := by
  have distinct : ascii "launch" ≠ ascii "resume" := by decide
  by_cases idle : runningGame info = 0
  · obtain ⟨rest, named⟩ := buildLaunchArgs_appid cfg
    have verb : launchVerb (runningGame info) = ascii "launch" := if_neg (not_not.mpr idle)
    rw [verb, launchArgs, if_neg distinct, named]
    exact iff_of_true .launched (.inl idle)
  · have verb : launchVerb (runningGame info) = ascii "resume" := if_pos idle
    rw [verb]
    constructor
    · exact fun streamed => .inr (streamed.running rfl)
    · rintro (none | same)
      · exact absurd none idle
      · rw [← same]
        exact .resumed

/-- A started stream: the application that was asked for, and the last exchange. -/
def Launched (past : List (Event X509)) (list : List Exchange) (info : Bytes) (appId : Int)
    (w : World X509) : Prop :=
  ∃ cfg reply, cfg.appId = appId ∧ Exchanged past (list ++ [(launchVerb (runningGame info),
    launchArgs (launchVerb (runningGame info)) cfg, reply)]) w

theorem launched_quietly {info : Bytes} {appId : Int} :
    KeptQuietly (Launched past list info appId) := by
  rintro w w' step ⟨cfg, reply, asked, held⟩
  exact ⟨cfg, reply, asked, Exchanged.quietly step held⟩

/-- What a request that started a stream exchanged with the host: its answer to
`serverinfo`, the appid that the reference resolves to, and the last request. -/
def Started (appRef : Bytes) (events : List (Event X509)) (info : Bytes) (appId : Int)
    (verb args : Bytes) : Prop :=
  ∃ lists reply, Resolves appRef lists appId ∧
    exchanges events = (ascii "serverinfo", [], info) :: lists ++ [(verb, args, reply)]

/-! ### The handler -/

variable [DecidableEq X509]

theorem getHttps_exchanged (command args : Bytes) :
    Triple (Exchanged past list) (getHttps env command args)
      (fun reply w => reply ≠ [] → Exchanged past (list ++ [(command, args, reply)]) w)
      fun _ => True := by
  refine triple_get fun w₀ => triple_request fun w events result start requested => ⟨?_, ?_⟩
  · rintro reply rfl
    exact requested.exchanged start.2
  · exact fun _ => trivial

/-- A plain request is not one of the exchanges. -/
theorem getHttp_exchanged (command args : Bytes) :
    Triple (Exchanged past list) (getHttp env command args) (fun _ => Exchanged past list)
      fun _ => True := by
  refine triple_get fun w₀ => triple_request fun w events result start requested => ⟨?_, ?_⟩
  · rintro reply rfl
    exact start.2.harmless requested.harmless rfl
  · exact fun _ => trivial

theorem connectPairedHost_exchanged (host : Bytes) :
    Triple (Exchanged past list) (connectPairedHost env host)
      (OnOk fun _ => Exchanged past list) fun _ => True := by
  have found : IsQuiet (findHost files host : Engine X509 _) :=
    isQuiet_bind (isQuiet_bind (isQuiet_readFile _) fun _ => isQuiet_pure _) fun _ => isQuiet_pure _
  refine triple_bind (triple_quiet found Exchanged.quietly fun _ _ => trivial) fun found => ?_
  cases found with
  | none => exact triple_failed
  | some paired =>
    refine triple_bind (triple_quiet isQuiet_loadOrCreateIdentity Exchanged.quietly
      fun _ _ => trivial) fun loaded => ?_
    cases loaded with
    | none => exact triple_failed
    | some loaded =>
      -- The client object is not part of the history.
      have changed : ∀ change : World X509 → NvHttpClient,
          Triple (Exchanged past list) (modify fun w => { w with client := change w })
            (fun _ => Exchanged past list) fun _ => True :=
        fun change => triple_modify fun w held => held
      refine triple_bind (changed _) fun _ => triple_bind (changed _) fun _ => ?_
      refine triple_bind (getHttp_exchanged _ _) fun infoHttp => ?_
      refine triple_ite (fun _ => triple_failed) fun _ => triple_ite (fun _ => ?_) fun _ => ?_
      · exact triple_bind (changed _) fun _ => triple_pure fun w held => held
      · exact triple_pure fun w held => held

theorem fetchAppList_exchanged :
    Triple (Exchanged past list) (fetchAppList (getHttps env (ascii "applist") []))
      (OnOk fun apps w => ∃ xml, apps = parseAppList xml ∧
        Exchanged past (list ++ [(ascii "applist", [], xml)]) w) fun _ => True := by
  refine triple_bind (getHttps_exchanged _ _) fun xml =>
    triple_ite (fun _ => triple_failed) fun accepted => ?_
  rw [not_or] at accepted
  exact triple_pure fun w replied => ⟨xml, rfl, replied accepted.1⟩

theorem resolveStartApp_exchanged (host appRef : Bytes) :
    Triple (Exchanged past list)
      (resolveStartApp (fetchAppList (getHttps env (ascii "applist") [])) host appRef)
      (OnOk fun appId w => ∃ lists, Resolves appRef lists appId ∧ Exchanged past (list ++ lists) w)
      fun _ => True := by
  refine triple_ite (fun other => ?_) fun positive => ?_
  · refine triple_bind fetchAppList_exchanged fun apps => ?_
    cases apps with
    | error err => exact triple_failed
    | ok apps =>
      refine triple_ite (fun _ => triple_failed) fun found => triple_pure fun w fetched => ?_
      obtain ⟨xml, rfl, held⟩ := fetched
      exact ⟨_, .title other (not_le.mp found), held⟩
  · refine triple_pure fun w held => ⟨[], .number (not_le.mp positive), ?_⟩
    rwa [List.append_nil]

theorem launchOrResume_exchanged (cfg : LaunchConfig) (info : Bytes) :
    Triple (Exchanged past list) (launchOrResume (getHttps env) cfg (runningGame info))
      (OnOk fun _ => Launched past list info cfg.appId) fun _ => True := by
  refine triple_bind (getHttps_exchanged _ _) fun reply =>
    triple_ite (fun _ => triple_failed) fun accepted => triple_ite (fun _ => triple_failed) fun _ => ?_
  rw [not_or] at accepted
  exact triple_pure fun w replied => ⟨cfg, reply, rfl, replied accepted.1⟩

theorem launchSession_exchanged (cfg : LaunchConfig) (info : Bytes)
    (startInfo : Bytes → StartInfo) :
    Triple (Exchanged past list) (launchSession env cfg (runningGame info) startInfo)
      (OnOk fun _ => Launched past list info cfg.appId) fun _ => True := by
  refine triple_bind (launchOrResume_exchanged cfg info) fun launched => ?_
  cases launched with
  | error err => exact triple_failed
  | ok url =>
    refine triple_bind (triple_quiet (isQuiet_sessionStart (startInfo url)) launched_quietly
      fun _ _ => trivial) fun started => ?_
    cases started with
    | error err => exact triple_failed
    | ok _ => exact triple_pure fun w held => held

theorem launchAndStart_exchanged (params : Value) (settings : StreamSettings) (host info : Bytes)
    (appId : Int) :
    Triple (Exchanged past list) (launchAndStart env params settings host info appId)
      (OnOk fun _ => Launched past list info appId) fun _ => True := by
  have drawn : ∀ n, Triple (Exchanged past list) (randomBytes env n)
      (fun _ => Exchanged past list) fun _ => True :=
    fun n => triple_quiet (isQuiet_randomBytes n) Exchanged.quietly fun _ _ => trivial
  refine triple_bind (drawn 16) fun riKey => triple_bind (drawn 4) fun four => ?_
  refine triple_ite (fun _ => triple_failed) fun _ => ?_
  exact launchSession_exchanged (launchConfig env settings appId _ riKey (makeRiKeyId four)) info _

theorem clientStart_exchanged (params : Value) :
    Triple (Exchanged past []) (clientStart env params)
      (OnOk fun _ w => ∃ info lists appId, Resolves (params.getStr (ascii "app") []) lists appId ∧
        Launched past ((ascii "serverinfo", [], info) :: lists) info appId w) fun _ => True := by
  unfold clientStart
  cases validateStreamSettings ((params.find (ascii "settings")).getD .null) with
  | error e => exact triple_failed
  | ok settings =>
    refine triple_ite (fun _ => triple_failed) fun _ => triple_ite (fun _ => triple_failed) fun _ => ?_
    refine triple_bind (connectPairedHost_exchanged _) fun connected => ?_
    cases connected with
    | error e => exact triple_failed
    | ok _ =>
      refine triple_bind (getHttps_exchanged _ _) fun info => triple_ite (fun _ => triple_failed)
        fun usable => ?_
      have answered : info ≠ [] := by
        rintro rfl
        exact usable rfl
      refine triple_weaken (triple_bind (resolveStartApp_exchanged _ _) fun resolved => ?_)
        (fun w replied => replied answered) fun _ _ held => held
      cases resolved with
      | error e => exact triple_failed
      | ok appId =>
        refine triple_weaken (triple_exists fun lists => triple_assume fun resolved =>
          triple_weaken (launchAndStart_exchanged params settings _ info appId) (fun _ held => held)
            ?_) (fun _ held => held) fun _ _ held => held
        intro answer w launched
        cases answer with
        | error e => trivial
        | ok _ => exact ⟨info, lists, appId, resolved, launched⟩

/-- A started stream is for the requested application exactly when the host ran nothing
or that application. -/
theorem start_streamFor_iff {params answer : Value}
    (started : exec (clientStart env params) w = (some (.ok answer), w')) :
    ∃ events info appId verb args, w'.log = w.log ++ events ∧
      Started (params.getStr (ascii "app") []) events info appId verb args ∧
      (StreamFor info verb args appId ↔ runningGame info = 0 ∨ runningGame info = appId) := by
  obtain ⟨info, lists, appId, resolved, cfg, reply, asked, events, log, listed, -⟩ :=
    (clientStart_exchanged params).returned (Exchanged.start w) started
  refine ⟨events, info, appId, _, _, log, ⟨lists, reply, resolved, listed⟩, ?_⟩
  rw [← asked]
  exact streamFor_launchVerb_iff cfg

/-- A host that accepts everything and runs an application. -/
def runningHost (game : Bytes) : Environment Unit :=
  { idleHost with tlsReply := fun _ => some (ascii "HTTP/1.1 200 OK\r\n\r\n" ++ gameInfo game) }
where
  gameInfo (game : Bytes) : Bytes := ascii "<root status_code=\"200\"><currentgame>" ++ game ++
    ascii "</currentgame><sessionUrl0>rtsp</sessionUrl0></root>"

/-- `startRequest`, to a host that runs an application. -/
def startWhile (game : Bytes) : Option (Except IpcError Value) × World Unit :=
  exec (clientStart (runningHost game) startRequest) (World.start pairedStore)

def started? : Option (Except IpcError Value) → Option Value
  | some (.ok answer) => some answer
  | _ => none

theorem started?_eq_some {result : Option (Except IpcError Value)} {answer : Value}
    (started : started? result = some answer) : result = some (.ok answer) := by
  rcases result with _ | ⟨e⟩ | value
  · contradiction
  · contradiction
  · cases started
    rfl

theorem startWhile_started {game : Bytes} (started : (started? (startWhile game).1).isSome = true) :
    ∃ answer, startWhile game = (some (.ok answer), (startWhile game).2) := by
  obtain ⟨answer, value⟩ := Option.isSome_iff_exists.mp started
  exact ⟨answer, eq_of_fst (started?_eq_some value)⟩

theorem start_streamFor_iff_running :
    ∃ events info appId verb args, (startWhile (ascii "1")).2.log = [] ++ events ∧
      Started (startRequest.getStr (ascii "app") []) events info appId verb args ∧
      (StreamFor info verb args appId ↔ runningGame info = 0 ∨ runningGame info = appId) := by
  have accepted : (started? (startWhile (ascii "1")).1).isSome = true := by decide +kernel
  obtain ⟨answer, started⟩ := startWhile_started accepted
  exact start_streamFor_iff started

/-- The query of a resume request with the key of `idleHost`. -/
def resumeQuery : Bytes :=
  ascii "rikey=07070707070707070707070707070707&rikeyid=117901063&surroundAudioInfo=196610"

/-- A request for application 1 is answered with the stream of application 5. -/
theorem start_resumes_other :
    (∃ answer, startWhile (ascii "5") = (some (.ok answer), (startWhile (ascii "5")).2)) ∧
    Started (ascii "1") (startWhile (ascii "5")).2.log (runningHost.gameInfo (ascii "5")) 1
      (ascii "resume") resumeQuery ∧
    ¬ StreamFor (runningHost.gameInfo (ascii "5")) (ascii "resume") resumeQuery 1 := by
  have run : (started? (startWhile (ascii "5")).1).isSome = true ∧
      exchanges (startWhile (ascii "5")).2.log =
        [(ascii "serverinfo", [], runningHost.gameInfo (ascii "5")),
          (ascii "resume", resumeQuery, runningHost.gameInfo (ascii "5"))] := by decide +kernel
  have one : atoi (ascii "1") = 1 := by decide +kernel
  have running : runningGame (runningHost.gameInfo (ascii "5")) = 5 := by decide +kernel
  refine ⟨startWhile_started run.1, ⟨[], runningHost.gameInfo (ascii "5"), ?_, run.2⟩, ?_⟩
  · rw [← one]
    exact .number (by rw [one]; decide)
  · intro streamed
    have same := streamed.running rfl
    omega

end StreamEngine.Client
