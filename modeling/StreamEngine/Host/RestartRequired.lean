import StreamEngine.Host.FileFaults
import StreamEngine.Host.SunshineBackendProofs

/-! Runs of host mode: `host.enable`, `host.trustClient` and exits of the child, with files that can
be read and written. A client that is trusted while the child runs is told whether the child has to
be restarted, judged by the state file as it is now; the child judges by what it read at its
start. -/
namespace StreamEngine.Host
open ByteString Json PosixPath FileSystem Client Interaction Transition

inductive HostCall where
  | enable (params : Value)
  | trustClient (params : Value)

@[reducible]
def HostCall.Result (_ : HostCall) : Type := Except IpcError Value

def HostCall.body (backend : Backend) : (m : HostCall) → Method m.Result
  | .enable params => hostEnable backend params
  | .trustClient params => hostTrustClient managedHost backend params

/-- The child may exit while hosting is switched on or off. Its exit and trusting a client are two
events. -/
def hostDrift : Option HostCall → World → World → Prop
  | some (.trustClient _) => fun _ _ => False
  | _ => Exits

abbrev HostStep (backend : Backend) :=
  Step (effect (hostStatePath backend.appsPath)) hostDrift (HostCall.body backend)

/-- The managed child runs, and did not read that the client is trusted. -/
def Unloaded (w : World) (certPem : Bytes) : Prop :=
  ∃ state, w.children w.pid = some (.alive state) ∧
    ¬ hasTrustedClient (textOf state) certPem = true

/-- If the managed child runs, the client is trusted now just if it was when the child started. -/
def LoadedAsIs (statePath : Path) (w : World) (certPem : Bytes) : Prop :=
  ∀ state, w.children w.pid = some (.alive state) →
    (hasTrustedClient (textOf (w.files statePath)) certPem = true ↔
      hasTrustedClient (textOf state) certPem = true)

def restartRequired (answer : Value) : Bool := answer.getBool (ascii "restartRequired") false

variable {backend : Backend} {w : World}

/-! ### Trusting a client, with nothing in between -/

abbrev Undisturbed (statePath : Path) {α : Type} (post : α → World → Prop) (p : Method α)
    (w : World) : Prop := Safe (effect statePath) (fun _ _ => False) Permitted post p w

theorem undisturbed_done {statePath : Path} {α : Type} {post : α → World → Prop} {a : α}
    (holds : post a w) : Undisturbed statePath post (.done a) w := by
  intro w' drifted
  rw [(Relation.reflTransGen_iff_eq (fun _ => id)).mp drifted]
  exact holds

theorem undisturbed_access {statePath : Path} {a : Access} {post : a.Answer → World → Prop}
    (permitted : Permitted a w)
    (answered : ∀ answer w', effect statePath a w answer w' → post answer w') :
    Undisturbed statePath post (access a) w := by
  intro w' drifted
  rw [(Relation.reflTransGen_iff_eq (fun _ => id)).mp drifted]
  exact ⟨permitted, fun answer w'' effected => undisturbed_done (answered answer w'' effected)⟩

/-- What `running` finds: whether the managed child is alive. -/
theorem running_undisturbed {statePath : Path} (managed : Managed w) :
    Undisturbed statePath (fun r w' => Managed w' ∧
      (r = true ↔ ∃ state, w.children w.pid = some (.alive state))) SunshineBackend.running w := by
  refine safe_bind (undisturbed_access trivial ?_)
  rintro pid w' ⟨rfl, rfl⟩
  obtain ⟨waited, zero | ⟨p, positive, one⟩⟩ := managed
  · rw [if_pos (le_of_eq zero.pid)]
    exact undisturbed_done ⟨⟨_, Or.inl zero⟩, by simp [zero.childless]⟩
  · obtain rfl := one.pid
    rw [if_neg (not_le_of_gt positive)]
    have there : w'.children w'.pid ≠ none := (one.children _).mpr rfl
    refine safe_bind (undisturbed_access ⟨positive, there⟩ fun answer w₁ effected => ?_)
    have waits := effected positive
    rw [World.waits] at waits
    split at waits
    · rename_i state alive
      obtain ⟨-, zero, rfl⟩ := waits
      rw [if_pos zero]
      have still : Managed (w'.noteWait w'.pid) :=
        ⟨_, Or.inr ⟨w'.pid, positive, one.noteWait w'.pid⟩⟩
      exact undisturbed_done ⟨still, by simp [alive]⟩
    · rename_i exited
      obtain ⟨same, rfl⟩ := waits
      have nonzero : answer ≠ 0 := by
        rw [same]
        exact ne_of_gt positive
      rw [if_neg nonzero]
      refine safe_bind (undisturbed_access trivial ?_)
      rintro _ w₂ rfl
      have reaped := ((one.noteWait w'.pid).reap).setPid 0
      exact undisturbed_done ⟨⟨_, Or.inl reaped⟩, by simp [exited]⟩
    · rename_i gone
      exact absurd gone there

theorem Managed.writeText {path : Path} {data : Bytes} (managed : Managed w) :
    Managed { w with files := Function.update w.files path (some data) } := by
  obtain ⟨waited, zero | ⟨p, positive, one⟩⟩ := managed
  · exact ⟨_, Or.inl ⟨zero.pid, zero.children, zero.waited⟩⟩
  · exact ⟨_, Or.inr ⟨p, positive, one.pid, one.children, one.waited⟩⟩

theorem restartRequired_answer (already restart : Bool) :
    restartRequired ((((Value.obj []).set (ascii "trusted") (.bool true)).set
      (ascii "alreadyTrusted") (.bool already)).set (ascii "restartRequired") (.bool restart)) =
        restart := by
  simp [restartRequired, Value.getBool]

/-- The answer to `host.trustClient` is right exactly when the file shows what the child read. -/
def HostPost (backend : Backend) :
    HostCall → World → Except IpcError Value → World → Prop
  | .enable _, _, _, _ => True
  | .trustClient params, entered, r, _ => ∀ answer, r = .ok answer →
    ((restartRequired answer = true ↔ Unloaded entered (clientCert params)) ↔
      LoadedAsIs (hostStatePath backend.appsPath) entered (clientCert params))

/-- The file shows that the client is trusted, or it does not and the child is asked after. -/
theorem answer_iff {statePath : Path} {certPem : Bytes} {already alive : Bool}
    (trusted : hasTrustedClient (textOf (w.files statePath)) certPem = already)
    (runs : alive = true ↔ ∃ state, w.children w.pid = some (.alive state)) :
    ((!already && alive) = true ↔ Unloaded w certPem) ↔ LoadedAsIs statePath w certPem := by
  rw [LoadedAsIs, trusted, Unloaded]
  cases child : w.children w.pid with
  | none =>
    have dead : alive = false := by simpa [child] using runs
    simp [dead]
  | some c =>
    cases c with
    | exited =>
      have dead : alive = false := by simpa [child] using runs
      simp [dead]
    | alive state =>
      have live : alive = true := by simpa [child] using runs
      cases already <;> simp [live]

theorem trust_answers (params : Value) (managed : Managed w) :
    Undisturbed (hostStatePath backend.appsPath)
      (fun r w' => Managed w' ∧ HostPost backend (.trustClient params) w r w')
      (hostTrustClient managedHost backend params) w := by
  unfold hostTrustClient
  by_cases named : clientCert params = []
  · rw [if_pos named]
    exact undisturbed_done ⟨managed, by simp [HostPost]⟩
  rw [if_neg named]
  by_cases there : hostStatePath backend.appsPath = []
  · rw [if_pos there]
    exact undisturbed_done ⟨managed, by simp [HostPost]⟩
  rw [if_neg there, readTextFile, if_neg there]
  refine safe_bind (safe_bind (undisturbed_access trivial ?_))
  rintro content w' ⟨rfl, rfl⟩
  refine undisturbed_done ?_
  cases trusted : hasTrustedClient (textOf (w'.files (hostStatePath backend.appsPath)))
      (clientCert params) with
  | true =>
    -- the child is not asked after, whether it is alive or not
    obtain ⟨alive, runs⟩ : ∃ alive : Bool,
        alive = true ↔ ∃ state, w'.children w'.pid = some (.alive state) :=
      ⟨_, @decide_eq_true_iff _ (Classical.dec _)⟩
    have right := answer_iff trusted runs
    rw [textOf] at trusted
    simp only [trusted, if_true]
    refine undisturbed_done ⟨managed, fun answer same => ?_⟩
    obtain rfl := Except.ok.inj same
    rw [restartRequired_answer]
    exact right
  | false =>
    have right : ∀ alive : Bool,
        (alive = true ↔ ∃ state, w'.children w'.pid = some (.alive state)) → _ :=
      fun _ => answer_iff trusted
    rw [textOf] at trusted
    simp only [trusted, Bool.false_eq_true, if_false]
    rw [writeTextFile, if_neg there]
    refine safe_bind (undisturbed_access trivial ?_)
    rintro written w₁ ⟨rfl, rfl⟩
    simp only [Bool.true_eq_false, if_false]
    refine safe_bind (safe_weaken ?_ (running_undisturbed managed.writeText))
    rintro alive w₂ ⟨managed', runs⟩
    refine undisturbed_done ⟨managed', fun answer same => ?_⟩
    obtain rfl := Except.ok.inj same
    rw [restartRequired_answer]
    exact right alive runs

theorem hostEnable_managed (statePath : Path) (params : Value) :
    Spec statePath Managed (hostEnable backend params) (fun _ => Managed) := by
  have childless : ∀ w, (∃ waited, At 0 none waited w) → Managed w :=
    fun w ⟨waited, held⟩ => ⟨waited, Or.inl held⟩
  have asked : Spec statePath Managed SunshineBackend.hostActive (fun _ => Managed) := by
    refine meets_weaken running_managed (fun _ held => held) ?_
    rintro r w (⟨-, p, positive, waited, held⟩ | ⟨-, none⟩)
    · exact ⟨waited, Or.inr ⟨p, positive, held⟩⟩
    · exact childless w none
  have switched : ∀ on, Spec statePath Managed (switchHosting backend on) (fun _ => Managed) := by
    intro on
    refine meets_ite (fun _ => start_managed backend.binary backend.appsPath) fun _ => ?_
    exact meets_weaken stop_managed (fun _ held => held) fun _ => childless
  unfold hostEnable
  refine meets_bind (switched _) fun outcome => ?_
  cases outcome with
  | error msg => exact meets_done managed_stable fun _ held => held
  | ok => exact meets_bind asked fun r => meets_done managed_stable fun _ held => held

/-! ### Runs -/

theorem host_answers (backend : Backend) (m : HostCall) (managed : Managed w) :
    Safe (effect (hostStatePath backend.appsPath)) (hostDrift (some m)) Permitted
      (fun r w' => Managed w' ∧ HostPost backend m w r w') (m.body backend) w := by
  cases m with
  | enable params =>
    exact safe_weaken (fun r w' held => ⟨held, trivial⟩) (hostEnable_managed _ params w managed)
  | trustClient params => exact trust_answers params managed

/-- In every run, what a successful `host.trustClient` says of a restart is right exactly when the
state file, as it is at the call, shows of the client what a running child has read. -/
theorem restartRequired_iff (backend : Backend) (files : Files Path UInt8)
    {labels : List (Label Access HostCall HostCall.Result)}
    {t : Thread World Access Access.Answer HostCall HostCall.Result × World}
    (run : Run (HostStep backend) (.idle, .fresh files) labels t) {params answer : Value}
    {entered : World} (returns : t.1 = .inside (.trustClient params) entered (.done (.ok answer))) :
    (restartRequired answer = true ↔ Unloaded entered (clientCert params)) ↔
      LoadedAsIs (hostStatePath backend.appsPath) entered (clientCert params) := by
  have fresh : Managed (.fresh files) := ⟨[], Or.inl ⟨rfl, by simp [World.fresh], rfl⟩⟩
  have idle : Stable (hostDrift none) Managed := managed_stable
  have sound := sound_run idle (fun m _ => host_answers backend m) fresh run
  obtain ⟨thread, w⟩ := t
  cases returns
  exact (sound.2 _ .refl).2 answer rfl

/-! ### A client that is trusted twice -/

/-- A client that is new is added, and the child is found to be alive. -/
theorem trust_new {params : Value} (named : clientCert params ≠ [])
    (there : hostStatePath backend.appsPath ≠ [])
    (unknown : hasTrustedClient (textOf (w.files (hostStatePath backend.appsPath)))
      (clientCert params) = false) {state : Option Bytes} (positive : 0 < w.pid)
    (alive : w.children w.pid = some (.alive state)) : ∃ answer w',
    Evaluates (effect (hostStatePath backend.appsPath))
      (hostTrustClient managedHost backend params) w (.ok answer) w' ∧
    restartRequired answer = true ∧ w'.children = w.children ∧ w'.pid = w.pid ∧
    w'.files (hostStatePath backend.appsPath) = some (addTrustedClient
      (textOf (w.files (hostStatePath backend.appsPath))) (clientName params) (clientCert params)
      (stableUuid backend.hash (clientCert params))) := by
  rw [textOf] at unknown
  refine ⟨_, World.noteWait { w with
    files := Function.update w.files (hostStatePath backend.appsPath) (some (addTrustedClient
      (textOf (w.files (hostStatePath backend.appsPath))) (clientName params) (clientCert params)
      (stableUuid backend.hash (clientCert params)))) } w.pid, ?_,
    restartRequired_answer false true, rfl, rfl, Function.update_self ..⟩
  unfold hostTrustClient
  rw [if_neg named, if_neg there, readTextFile, if_neg there]
  refine .bind (.bind (.request ⟨rfl, rfl⟩) .done) ?_
  simp only [unknown, Bool.false_eq_true, if_false]
  rw [writeTextFile, if_neg there]
  refine .bind (.request ⟨rfl, rfl⟩) ?_
  simp only [Bool.true_eq_false, if_false]
  exact .bind (running_evaluates positive alive) .done

theorem trust_known {params : Value} (named : clientCert params ≠ [])
    (there : hostStatePath backend.appsPath ≠ [])
    (known : hasTrustedClient (textOf (w.files (hostStatePath backend.appsPath)))
      (clientCert params) = true) : ∃ answer,
    Evaluates (effect (hostStatePath backend.appsPath))
      (hostTrustClient managedHost backend params) w (.ok answer) w ∧
    restartRequired answer = false := by
  rw [textOf] at known
  refine ⟨_, ?_, restartRequired_answer true false⟩
  unfold hostTrustClient
  rw [if_neg named, if_neg there, readTextFile, if_neg there]
  refine .bind (.bind (.request ⟨rfl, rfl⟩) .done) ?_
  simp only [known, if_true]
  exact .done

theorem hostEnable_on (backend : Backend) (w : World) (params : Value) (pid : Int)
    (on : params.getBool (ascii "on") false = true) (there : backend.binary ≠ [])
    (zero : w.pid = 0) (positive : 0 < pid) (free : w.children pid = none) : ∃ answer w',
    Evaluates (effect (hostStatePath backend.appsPath)) (hostEnable backend params) w (.ok answer) w' ∧
      w'.pid = pid ∧ w'.files = w.files ∧
      w'.children pid = some (.alive (w.files (hostStatePath backend.appsPath))) := by
  have born : (w.forked (hostStatePath backend.appsPath) pid).children pid =
      some (.alive (w.files (hostStatePath backend.appsPath))) := Function.update_self ..
  refine ⟨(Value.obj []).set (ascii "running") (.bool true),
    (w.forked (hostStatePath backend.appsPath) pid).noteWait pid, ?_, rfl, rfl, born⟩
  unfold hostEnable
  rw [on]
  refine .bind (start_evaluates zero there positive free) ?_
  exact .bind (running_evaluates positive born) .done

theorem host_run {files : Files Path UInt8} {labels : List (Label Access HostCall HostCall.Result)}
    {m : HostCall} {r : m.Result} {w' : World}
    (run : Run (HostStep backend) (.idle, .fresh files) labels (.idle, w))
    (evaluates : Evaluates (effect (hostStatePath backend.appsPath)) (m.body backend) w r w') :
    ∃ labels', Run (HostStep backend) (.idle, .fresh files) labels' (.inside m w (.done r), w') :=
  evaluates.run run

def hostingOn : Value := .obj [(ascii "on", .bool true)]

def laptop : Value := .obj [(ascii "certPem", .str (ascii "cert1"))]

/-- Hosting is switched on with no state file, and a client is trusted: first when it is new, then
again. -/
theorem laptop_twice : ∃ (labels : List (Label Access HostCall HostCall.Result)) (w : World)
    (labels' : List (Label Access HostCall HostCall.Result)) (w₁ w₂ : World) (answer answer' : Value),
    Run (HostStep exampleBackend) (.idle, .fresh fun _ => none) labels
      (.inside (.trustClient laptop) w (.done (.ok answer)), w₁) ∧
    restartRequired answer = true ∧ Unloaded w (clientCert laptop) ∧
    Run (HostStep exampleBackend) (.idle, .fresh fun _ => none) labels'
      (.inside (.trustClient laptop) w₁ (.done (.ok answer')), w₂) ∧
    restartRequired answer' = false ∧ Unloaded w₁ (clientCert laptop) := by
  have named : clientCert laptop ≠ [] := by decide
  have there : hostStatePath exampleBackend.appsPath ≠ [] := by decide
  obtain ⟨_, w, enables, pid, files, child⟩ :=
    hostEnable_on exampleBackend (World.fresh fun _ => none) hostingOn 7 rfl (by decide) rfl
      (by decide) rfl
  have alive : w.children w.pid = some (.alive none) := by
    rw [pid, child]
    rfl
  have unread : ¬ hasTrustedClient (textOf none) (clientCert laptop) = true := by
    simp [textOf, hasTrustedClient_empty]
  have unknown : hasTrustedClient (textOf (w.files (hostStatePath exampleBackend.appsPath)))
      (clientCert laptop) = false := by
    rw [files]
    exact hasTrustedClient_empty _
  have positive : 0 < w.pid := by
    rw [pid]
    decide
  obtain ⟨answer, w₁, trusts, restarts, children, pid', written⟩ :=
    trust_new named there unknown positive alive
  have known : hasTrustedClient (textOf (w₁.files (hostStatePath exampleBackend.appsPath)))
      (clientCert laptop) = true := by
    rw [written, files]
    exact (hasTrustedClient_first named).trans (by decide)
  obtain ⟨answer', again, silent⟩ := trust_known named there known
  obtain ⟨_, enabled⟩ := host_run (m := .enable hostingOn) .start enables
  obtain ⟨labels, first⟩ := host_run (m := .trustClient laptop) (enabled.next .returned) trusts
  obtain ⟨labels', second⟩ := host_run (m := .trustClient laptop) (first.next .returned) again
  refine ⟨labels, w, labels', w₁, w₁, answer, answer', first, restarts, ⟨none, alive, unread⟩,
    second, silent, none, ?_, unread⟩
  rw [children, pid', alive]

/-- The second answer is that no restart is required, and the child still has not read that the
client is trusted. -/
theorem restart_unreported : ∃ (labels : List (Label Access HostCall HostCall.Result))
    (entered w : World) (answer : Value),
    Run (HostStep exampleBackend) (.idle, .fresh fun _ => none) labels
      (.inside (.trustClient laptop) entered (.done (.ok answer)), w) ∧
    restartRequired answer = false ∧ Unloaded entered (clientCert laptop) := by
  obtain ⟨_, _, labels, entered, w, _, answer, -, -, -, run, silent, unloaded⟩ := laptop_twice
  exact ⟨labels, entered, w, answer, run, silent, unloaded⟩

theorem restartRequired_iff_laptop : ∃ (entered : World) (answer : Value),
    restartRequired answer = true ∧ Unloaded entered (clientCert laptop) ∧
    ((restartRequired answer = true ↔ Unloaded entered (clientCert laptop)) ↔
      LoadedAsIs (hostStatePath exampleBackend.appsPath) entered (clientCert laptop)) := by
  obtain ⟨_, entered, _, w, _, answer, _, run, restarts, unloaded, -⟩ := laptop_twice
  exact ⟨entered, answer, restarts, unloaded, restartRequired_iff exampleBackend _ run rfl⟩

end StreamEngine.Host
