import StreamEngine.Host.Registry
import StreamEngine.Host.RestartRequired
import StreamEngine.Host.SyncProofs
import StreamEngine.Library.ObjectRefinement

/-! Host mode refines its registry: over any requests, with a child that may exit at any moment, what
the methods answer is what the registry says. The text of the state file keeps numbers that can be
read again, so a client that was trusted is found by every later request. -/
namespace StreamEngine.Host
open ByteString Json PosixPath FileSystem Client Interaction Transition

/-- Between calls of methods, with these files. -/
def Holds (files : HostFiles) (w : World) : Prop := Managed w ∧ w.files = files

variable {statePath : Path} {files : HostFiles} {backend : Backend} {w w' : World}

theorem files_stable : Stable Exits fun w => w.files = files := by
  rintro w w' held ⟨pid, state, -, rfl⟩
  exact held

theorem holds_stable : Stable Exits (Holds files) := managed_stable.and files_stable

/-! ### Programs that write no file -/

def KeepsFiles : Access → Prop
  | .writeText _ _ => False
  | _ => True

theorem keepsFiles_effect {a : Access} {answer : a.Answer} (keeps : KeepsFiles a)
    (permitted : Permitted a w) (effected : effect statePath a w answer w') : w'.files = w.files := by
  cases a with
  | readPid | readText =>
    obtain ⟨-, rfl⟩ := effected
    rfl
  | writePid | kill | usleep =>
    obtain rfl := effected
    rfl
  | fork =>
    rcases effected with ⟨-, rfl⟩ | ⟨-, -, rfl⟩ <;> rfl
  | waitpid pid nohang =>
    have waits := effected permitted.1
    unfold World.waits at waits
    split at waits
    · obtain ⟨-, -, rfl⟩ := waits
      rfl
    · obtain ⟨-, rfl⟩ := waits
      rfl
    · obtain ⟨-, rfl⟩ := waits
      rfl
  | writeText => exact keeps.elim

/-- A method of the backend leaves the files alone. -/
theorem spec_backend {α : Type} {ends : α → Prop} {post : α → World → Prop} {p : Method α}
    (only : Only KeepsFiles ends p) (managed : Spec statePath Managed p post)
    (again : ∀ r w, post r w → Managed w) :
    Spec statePath (Holds files) p fun r w => ends r ∧ Holds files w := by
  have kept : ∀ (a : Access) (w : World) (answer : a.Answer) (w' : World), KeepsFiles a →
      Permitted a w → effect statePath a w answer w' → w.files = files → w'.files = files :=
    fun a w answer w' keeps permitted effected held =>
      (keepsFiles_effect keeps permitted effected).trans held
  exact meets_weaken (only.frame files_stable kept managed) (fun _ held => held)
    fun r w held => ⟨held.1, again r w held.2.1, held.2.2⟩

theorem only_running : Only KeepsFiles (fun _ => True) SunshineBackend.running := by
  refine only_bind (only_request trivial fun _ => trivial) fun pid _ => ?_
  refine only_ite (fun _ => trivial) fun _ => ?_
  refine only_bind (only_request trivial fun _ => trivial) fun r _ => ?_
  refine only_ite (fun _ => trivial) fun _ => ?_
  exact only_bind (only_request trivial fun _ => trivial) fun _ _ => trivial

theorem only_awaitExit (n : Nat) : Only KeepsFiles (fun _ => True) (SunshineBackend.awaitExit n) := by
  induction n with
  | zero => trivial
  | succ n ih =>
    refine only_bind only_running fun alive _ => only_ite (fun _ => ?_) fun _ => trivial
    exact only_bind (only_request trivial fun _ => trivial) fun _ _ => ih

theorem only_stop : Only KeepsFiles (fun r => r = .ok ()) SunshineBackend.stop := by
  have asks : ∀ {a : Access}, KeepsFiles a → Only KeepsFiles (fun _ => True) (access a) :=
    fun keeps => only_request keeps fun _ => trivial
  refine only_bind only_running fun alive _ => only_ite (fun _ => ?_) fun _ => rfl
  refine only_bind (asks trivial) fun pid _ => only_bind (asks trivial) fun _ _ => ?_
  refine only_bind (only_awaitExit 50) fun _ _ => only_bind (asks trivial) fun left _ => ?_
  refine only_ite (fun _ => ?_) fun _ => rfl
  refine only_bind (asks trivial) fun pid _ => only_bind (asks trivial) fun _ _ => ?_
  refine only_bind (asks trivial) fun pid _ => only_bind (asks trivial) fun _ _ => ?_
  exact only_bind (asks trivial) fun _ _ => rfl

theorem only_start (binary appsPath : Path) :
    Only KeepsFiles (fun _ => True) (SunshineBackend.start binary appsPath) := by
  refine only_bind only_running fun alive _ => only_ite (fun _ => trivial) fun _ => ?_
  refine only_ite (fun _ => trivial) fun _ => ?_
  refine only_bind (only_request trivial fun _ => trivial) fun pid _ => ?_
  refine only_ite (fun _ => trivial) fun _ => ?_
  exact only_bind (only_request trivial fun _ => trivial) fun _ _ => trivial

theorem spec_running : Spec statePath (Holds files) SunshineBackend.running
    (fun _ => Holds files) := by
  refine meets_weaken (spec_backend only_running running_managed ?_) (fun _ held => held)
    fun _ _ held => held.2
  rintro r w (⟨-, p, positive, waited, held⟩ | ⟨-, waited, held⟩)
  · exact ⟨waited, .inr ⟨p, positive, held⟩⟩
  · exact ⟨waited, .inl held⟩

theorem spec_switchHosting (on : Bool) : Spec statePath (Holds files) (switchHosting backend on)
    (fun r w => (on = false → r = .ok ()) ∧ Holds files w) := by
  cases on with
  | true =>
    have started : Spec statePath (Holds files) (SunshineBackend.start backend.binary backend.appsPath)
        (fun _ w => True ∧ Holds files w) :=
      spec_backend (only_start _ _) (start_managed _ _) fun _ _ held => held
    exact meets_weaken started (fun _ held => held) fun _ _ held => ⟨by simp, held.2⟩
  | false =>
    refine meets_weaken (spec_backend only_stop stop_managed ?_)
      (fun _ held => held) fun _ _ held => ⟨fun _ => held.1, held.2⟩
    exact fun r w ⟨waited, held⟩ => ⟨waited, .inl held⟩

/-! ### Files -/

theorem spec_readText (path : Path) : Spec statePath (Holds files) (access (.readText path))
    (fun answer w => answer = files path ∧ Holds files w) := by
  refine meets_request holds_stable (fun _ _ => trivial) ?_ ?_
  · rintro w answer w' held ⟨rfl, rfl⟩
    exact ⟨by rw [held.2], held⟩
  · intro answer w w' held exits
    exact ⟨held.1, holds_stable w w' held.2 exits⟩

theorem spec_writeText (path : Path) (data : Bytes) :
    Spec statePath (Holds files) (access (.writeText path data))
      (fun ok w => ok = true ∧ Holds (Function.update files path (some data)) w) := by
  refine meets_request holds_stable (fun _ _ => trivial) ?_ ?_
  · rintro w answer w' ⟨managed, rfl⟩ ⟨rfl, rfl⟩
    exact ⟨rfl, managed.writeText, rfl⟩
  · intro ok w w' held exits
    exact ⟨held.1, holds_stable w w' held.2 exits⟩

theorem spec_done {α : Type} (a : α) :
    Spec statePath (Holds files) (.done a) (fun r w => r = a ∧ Holds files w) :=
  meets_done holds_stable fun _ held => ⟨rfl, held⟩

theorem spec_readApps (path : Path) : Spec statePath (Holds files) (readApps managedHost path)
    (fun apps w => apps = ((files path).map parseAppsJson).getD [] ∧ Holds files w) := by
  refine meets_bind (spec_readText path) fun answer => meets_assume fun same => ?_
  subst same
  cases files path <;> exact spec_done _

theorem spec_readTextFile {path : Path} (there : path ≠ []) :
    Spec statePath (Holds files) (readTextFile managedHost path)
      (fun text w => text = textOf (files path) ∧ Holds files w) := by
  rw [readTextFile, if_neg there]
  refine meets_bind (spec_readText path) fun answer => meets_assume fun same => ?_
  subst same
  exact spec_done _

theorem spec_writeTextFile {path : Path} (there : path ≠ []) (data : Bytes) :
    Spec statePath (Holds files) (writeTextFile managedHost path data)
      (fun ok w => ok = true ∧ Holds (Function.update files path (some data)) w) := by
  rw [writeTextFile, if_neg there]
  exact spec_writeText path data

/-! ### The methods -/

/-- The files of the registry are three, and a number in the state file can be written again. -/
structure Kept (backend : Backend) (files : HostFiles) : Prop where
  state : hostStatePath backend.appsPath ≠ backend.appsPath
  cert : hostCertPath backend.appsPath ≠ backend.appsPath
  finite : ∀ v, parse (textOf (files (hostStatePath backend.appsPath))) = some v → v.Finite

theorem join_nonempty {base name : Path} (named : name ≠ []) : join base name ≠ [] := by
  rw [join]
  split <;> simp [named]

namespace Kept

theorem apps (kept : Kept backend files) : backend.appsPath ≠ [] := by
  intro none
  exact kept.state (by rw [hostStatePath, if_pos none, none])

theorem state_there (kept : Kept backend files) : hostStatePath backend.appsPath ≠ [] := by
  rw [hostStatePath, if_neg kept.apps]
  exact join_nonempty (by decide)

theorem cert_there (kept : Kept backend files) : hostCertPath backend.appsPath ≠ [] := by
  rw [hostCertPath, if_neg kept.apps]
  exact join_nonempty (by decide)

theorem state_cert (kept : Kept backend files) :
    hostCertPath backend.appsPath ≠ hostStatePath backend.appsPath := by
  rw [hostCertPath, hostStatePath, if_neg kept.apps, if_neg kept.apps]
  exact fun same => absurd (join_injective _ same) (by decide)

end Kept

theorem suffix_join (base name : Path) : name <:+ join base name := by
  rw [join]
  split
  · exact List.suffix_append ..
  · exact List.suffix_append ..

/-- The default catalog is neither of the other files. -/
theorem Kept.default {xdg home : Option Bytes} (path : backend.appsPath = defaultAppsPath xdg home)
    (finite : ∀ v, parse (textOf (files (hostStatePath backend.appsPath))) = some v → v.Finite) :
    Kept backend files := by
  have ends : ascii "/sunshine_apps.json" <:+ backend.appsPath := path ▸ List.suffix_append ..
  have there : backend.appsPath ≠ [] := fun none => absurd (none ▸ ends) (by decide)
  have other : ∀ {name : Path}, ¬ name <:+ ascii "/sunshine_apps.json" → name.length ≤ 19 →
      join (parent backend.appsPath) name ≠ backend.appsPath := by
    intro name differs short same
    exact differs (List.suffix_of_suffix_length_le (same ▸ suffix_join _ name) ends short)
  refine ⟨?_, ?_, finite⟩
  · rw [hostStatePath, if_neg there]
    exact other (by decide) (by decide)
  · rw [hostCertPath, if_neg there]
    exact other (by decide) (by decide)

/-- A call that returns leaves the files of the registry that comes next. -/
def Served (backend : Backend) (files : HostFiles) (m : HostMethod) (r : Except IpcError Value)
    (w : World) : Prop :=
  ∃ files', Holds files' w ∧ Kept backend files' ∧
    (registryOf backend files).Step backend ⟨m, r⟩ (registryOf backend files')

/-- A call that leaves the files alone. -/
theorem served_same (kept : Kept backend files) {m : HostMethod} {r : Except IpcError Value}
    (replies : (registryOf backend files).Replies backend m r)
    (same : (registryOf backend files).next backend m = registryOf backend files)
    (holds : Holds files w) : Served backend files m r w :=
  ⟨files, holds, kept, replies, same.symm⟩

theorem status_served (kept : Kept backend files) :
    Spec statePath (Holds files) (hostStatus backend) (Served backend files .status) := by
  refine meets_bind (spec_readApps _) fun apps => meets_assume fun same => ?_
  subst same
  refine meets_bind spec_running fun managed => meets_bind spec_running fun active => ?_
  exact meets_done holds_stable fun w held => served_same kept ⟨active, managed, rfl⟩ rfl held

theorem enable_served (kept : Kept backend files) (params : Value) :
    Spec statePath (Holds files) (hostEnable backend params)
      (Served backend files (.enable params)) := by
  refine meets_bind (spec_switchHosting _) fun outcome => meets_assume fun stops => ?_
  cases outcome with
  | error msg =>
    have on : params.getBool (ascii "on") false = true := by
      by_contra off
      exact nomatch stops (Bool.eq_false_iff.mpr off)
    exact meets_done holds_stable fun w held => served_same kept (.inr ⟨on, msg, rfl⟩) rfl held
  | ok =>
    refine meets_bind spec_running fun running => ?_
    exact meets_done holds_stable fun w held => served_same kept (.inl ⟨running, rfl⟩) rfl held

theorem listApps_served (kept : Kept backend files) :
    Spec statePath (Holds files) (hostListApps managedHost backend)
      (Served backend files .listApps) := by
  refine meets_bind (spec_readApps _) fun apps => meets_assume fun same => ?_
  subst same
  exact meets_done holds_stable fun w held => served_same kept rfl rfl held

theorem deviceInfo_served (kept : Kept backend files) :
    Spec statePath (Holds files) (hostDeviceInfo managedHost backend)
      (Served backend files .deviceInfo) := by
  refine meets_bind (spec_readTextFile kept.cert_there) fun text => meets_assume fun same => ?_
  subst same
  refine meets_done holds_stable fun w held => served_same kept ⟨_, rfl, ?_⟩ rfl held
  rw [Value.find_set, if_pos rfl]
  rfl

/-- The catalog that is published is the one that is read. -/
theorem registryOf_published (kept : Kept backend files) (games : List HostApp)
    (named : games.filter (fun a => a.name ≠ []) = games) :
    registryOf backend (Function.update files backend.appsPath (some (serializeAppsJson games))) =
      { registryOf backend files with catalog := games } := by
  rw [registryOf, Function.update_self, Function.update_of_ne kept.state,
    Function.update_of_ne kept.cert, Option.map_some, Option.getD_some, parse_serialize_apps, named]
  rfl

theorem syncApps_served (kept : Kept backend files) (params : Value) :
    Spec statePath (Holds files) (hostSyncApps managedHost backend params)
      (Served backend files (.syncApps params)) := by
  refine meets_bind (spec_readApps _) fun prev => meets_assume fun same => ?_
  subst same
  refine meets_bind (spec_writeText _ _) fun ok => meets_assume fun written => ?_
  subst written
  refine meets_done holds_stable fun w held => ⟨_, held, ⟨kept.state, kept.cert, ?_⟩, rfl, ?_⟩
  · rw [Function.update_of_ne kept.state]
    exact kept.finite
  · exact registryOf_published kept _ (gamesFromParams_named ..)

/-- A client that is added is trusted from then on, with the others. -/
theorem registryOf_trusted (kept : Kept backend files) {certPem : Bytes} (named : certPem ≠ [])
    (name uuid : Bytes) :
    registryOf backend (Function.update files (hostStatePath backend.appsPath)
        (some (addTrustedClient (textOf (files (hostStatePath backend.appsPath))) name certPem uuid))) =
      (registryOf backend files).trust certPem := by
  rw [registryOf, Function.update_of_ne kept.state.symm, Function.update_self,
    Function.update_of_ne kept.state_cert]
  have trusted : {cert | hasTrustedClient (addTrustedClient
      (textOf (files (hostStatePath backend.appsPath))) name certPem uuid) cert = true} =
      insert certPem (registryOf backend files).trusted := by
    ext cert
    rw [Set.mem_insert_iff, Set.mem_ofPred_eq]
    by_cases none : cert = []
    · subst none
      simp [hasTrustedClient, registryOf, named.symm]
    · exact hasTrustedClient_add kept.finite name certPem uuid none
  rw [textOf, Option.getD_some, trusted]
  rfl

theorem kept_trusted (kept : Kept backend files) (name certPem uuid : Bytes) :
    Kept backend (Function.update files (hostStatePath backend.appsPath)
      (some (addTrustedClient (textOf (files (hostStatePath backend.appsPath))) name certPem uuid))) := by
  refine ⟨kept.state, kept.cert, fun v accepted => ?_⟩
  rw [Function.update_self, textOf, Option.getD_some, parse_addTrustedClient kept.finite,
    Option.some_inj] at accepted
  have bounded := parseState_finite kept.finite
  have devices := childArray_finite (childObject_finite bounded (ascii "root")) (ascii "named_devices")
  rw [← accepted]
  exact Value.finite_unsignZeros (setDevices_finite bounded (withDevice_finite devices ..))

/-- What both methods do with a client that is named: it is found in the state file or added. -/
theorem registryOf_known (backend : Backend) (files : HostFiles) {certPem : Bytes}
    (known : hasTrustedClient (textOf (files (hostStatePath backend.appsPath))) certPem = true) :
    (registryOf backend files).trust certPem = registryOf backend files := by
  rw [Registry.trust, Set.insert_eq_of_mem (show certPem ∈ (registryOf backend files).trusted from known)]

theorem next_trusted (backend : Backend) (params : Value) (named : clientCert params ≠ []) (h : Registry) :
    h.next backend (.trustClient params) = h.trust (clientCert params) ∧
      h.next backend (.pairAccept params) = h.trust (clientCert params) := by
  rw [Registry.next, Registry.next, if_neg named]
  exact ⟨rfl, rfl⟩

theorem trustClient_served (kept : Kept backend files) (params : Value) :
    Spec statePath (Holds files) (hostTrustClient managedHost backend params)
      (Served backend files (.trustClient params)) := by
  unfold hostTrustClient
  refine meets_ite (fun nameless => ?_) fun named => ?_
  · refine meets_done holds_stable fun w held => served_same kept ?_ (if_pos nameless) held
    rw [Registry.Replies, if_pos nameless]
  have next := (next_trusted backend params named (registryOf backend files)).1
  rw [if_neg kept.state_there]
  refine meets_bind (spec_readTextFile kept.state_there) fun text => meets_assume fun same => ?_
  subst same
  refine meets_ite (fun known => ?_) fun unknown => ?_
  · refine meets_done holds_stable fun w held => served_same kept ?_ ?_ held
    · rw [Registry.Replies, if_neg named]
      exact ⟨true, false, rfl, iff_of_true rfl known, fun _ => rfl⟩
    · rw [next, registryOf_known backend files known]
  · refine meets_bind (spec_writeTextFile kept.state_there _) fun ok => meets_assume fun written => ?_
    subst written
    refine meets_bind spec_running fun running => meets_done holds_stable fun w held => ?_
    refine ⟨_, held, kept_trusted kept .., ?_, ?_⟩
    · rw [Registry.Replies, if_neg named]
      exact ⟨false, running, rfl, iff_of_false (by simp) unknown, by simp⟩
    · rw [next, registryOf_trusted kept named]

theorem pairAccept_served (kept : Kept backend files) (params : Value) :
    Spec statePath (Holds files) (hostPairAccept managedHost backend params)
      (Served backend files (.pairAccept params)) := by
  unfold hostPairAccept
  refine meets_ite (fun nameless => ?_) fun named => ?_
  · refine meets_done holds_stable fun w held => served_same kept ?_ (if_pos nameless) held
    rw [Registry.Replies, if_pos nameless]
    exact ⟨_, rfl⟩
  have next := (next_trusted backend params named (registryOf backend files)).2
  refine meets_bind (spec_readTextFile kept.state_there) fun text => meets_assume fun same => ?_
  subst same
  refine meets_ite (fun known => ?_) fun unknown => ?_
  · refine meets_done holds_stable fun w held => served_same kept ?_ ?_ held
    · rw [Registry.Replies, if_neg named]
    · rw [next, registryOf_known backend files known]
  · refine meets_bind (spec_writeTextFile kept.state_there _) fun ok => meets_assume fun written => ?_
    subst written
    refine meets_done holds_stable fun w held => ⟨_, held, kept_trusted kept .., ?_, ?_⟩
    · rw [Registry.Replies, if_neg named]
    · rw [next, registryOf_trusted kept named]

theorem method_served (kept : Kept backend files) (m : HostMethod) :
    Spec statePath (Holds files) (m.body backend) (Served backend files m) := by
  cases m with
  | status => exact status_served kept
  | enable params => exact enable_served kept params
  | syncApps params => exact syncApps_served kept params
  | listApps => exact listApps_served kept
  | trustClient params => exact trustClient_served kept params
  | pairAccept params => exact pairAccept_served kept params
  | deviceInfo => exact deviceInfo_served kept

/-! ### Runs -/

/-- The registry stands for the files of the world. -/
def Keeps (backend : Backend) (w : World) (h : Registry) : Prop :=
  ∃ files, Holds files w ∧ Kept backend files ∧ h = registryOf backend files

theorem keeps_stable (h : Registry) : Stable Exits fun w => Keeps backend w h := by
  rintro w w' ⟨files, held, kept, same⟩ exits
  exact ⟨files, holds_stable w w' held exits, kept, same⟩

theorem keeps_fresh (kept : Kept backend files) :
    Keeps backend (.fresh files) (registryOf backend files) :=
  ⟨files, ⟨⟨[], Or.inl ⟨rfl, by simp [World.fresh], rfl⟩⟩, rfl⟩, kept, rfl⟩

/-- Called where the files hold a registry, a method answers as the registry does. -/
theorem method_answers (m : HostMethod) (w : World) (h : Registry) (keeps : Keeps backend w h) :
    Safe (effect (hostStatePath backend.appsPath)) Exits Permitted
      (Answers (Keeps backend) (Registry.Step backend) h m) (m.body backend) w := by
  obtain ⟨files, held, kept, rfl⟩ := keeps
  refine safe_weaken ?_ (method_served kept m w held)
  rintro r w' ⟨files', held', kept', stepped⟩
  exact ⟨_, stepped, files', held', kept', rfl⟩

/-- In every run of host mode whose files can be read and written and are kept as `Kept` says, what the
calls that have returned answered is a run of the registry that the files held at first, and between
calls the files hold the one that it leads to. -/
theorem host_refines (backend : Backend) (files : HostFiles) (kept : Kept backend files)
    {labels : List (Label Access HostMethod HostMethod.Result)}
    {t : Thread World Access Access.Answer HostMethod HostMethod.Result × World}
    (run : Run (HostModeStep backend) (.idle, .fresh files) labels t) :
    ∃ h, Run (Registry.Step backend) (registryOf backend files) (outcomes labels) h ∧
      (t.1 = .idle → registryOf backend t.2.files = h) := by
  obtain ⟨h, answered, stands⟩ := outcomes_run keeps_stable method_answers (keeps_fresh kept) run
  refine ⟨h, answered, fun waits => ?_⟩
  obtain ⟨thread, w⟩ := t
  obtain rfl : thread = .idle := waits
  obtain ⟨files', held, -, rfl⟩ := stands
  rw [held.2]

/-- Nothing is there at first. -/
theorem kept_empty : Kept exampleBackend fun _ => none := by
  refine ⟨by decide, by decide, fun v accepted => ?_⟩
  have empty : parse (textOf none) = none := by decide
  exact nomatch empty.symm.trans accepted

/-- A library is published, and listed. -/
theorem published_run : ∃ (labels labels' : List (Label Access HostMethod HostMethod.Result))
    (w w' : World) (r r' : Except IpcError Value),
    Run (HostModeStep exampleBackend) (.idle, .fresh fun _ => none) labels (.idle, w) ∧
    outcomes labels = [⟨.syncApps twoGames, r⟩] ∧
    Run (HostModeStep exampleBackend) (.idle, .fresh fun _ => none) labels' (.idle, w') ∧
    outcomes labels' = [⟨.syncApps twoGames, r⟩] ++ [⟨.listApps, r'⟩] := by
  have publishes : ∃ answer w, Evaluates (effect (hostStatePath exampleBackend.appsPath))
      (HostMethod.body exampleBackend (.syncApps twoGames)) (.fresh fun _ => none) answer w :=
    ⟨_, _, .bind (.bind (.request ⟨rfl, rfl⟩) .done) (.bind (.request ⟨rfl, rfl⟩) .done)⟩
  obtain ⟨answer, w, publishes⟩ := publishes
  have lists : ∃ answer w', Evaluates (effect (hostStatePath exampleBackend.appsPath))
      (HostMethod.body exampleBackend .listApps) w answer w' := by
    have reads : ∃ apps, Evaluates (effect (hostStatePath exampleBackend.appsPath))
        (readApps managedHost exampleBackend.appsPath) w apps w := by
      cases there : w.files exampleBackend.appsPath with
      | none => exact ⟨_, .bind (.request ⟨there.symm, rfl⟩) .done⟩
      | some text => exact ⟨_, .bind (.request ⟨there.symm, rfl⟩) .done⟩
    obtain ⟨apps, reads⟩ := reads
    exact ⟨_, w, .bind reads .done⟩
  obtain ⟨answer', w', lists⟩ := lists
  obtain ⟨labels, run, first⟩ := Evaluates.outcome (m := .syncApps twoGames) publishes
    (.start : Run (HostModeStep exampleBackend) (.idle, .fresh fun _ => none) [] _)
  obtain ⟨labels', run', second⟩ := Evaluates.outcome (m := .listApps) lists run
  exact ⟨labels, labels', w, w', answer, answer', run, first, run', by rw [second, first]; rfl⟩

/-- A library is published where there was none. -/
theorem host_refines_published : ∃ (labels : List (Label Access HostMethod HostMethod.Result))
    (w : World) (h : Registry),
    Run (HostModeStep exampleBackend) (.idle, .fresh fun _ => none) labels (.idle, w) ∧
    outcomes labels ≠ [] ∧
    Run (Registry.Step exampleBackend) (registryOf exampleBackend fun _ => none) (outcomes labels) h ∧
    registryOf exampleBackend w.files = h := by
  obtain ⟨labels, -, w, -, r, -, run, outcomes, -⟩ := published_run
  obtain ⟨h, answered, held⟩ := host_refines exampleBackend _ kept_empty run
  exact ⟨labels, w, h, run, by simp [outcomes], answered, held rfl⟩

/-! ### What requests leave behind -/

/-- The games that a request publishes. -/
def published? (backend : Backend) : (Σ m : HostMethod, m.Result) → Option (List HostApp)
  | ⟨.syncApps params, _⟩ => some (gamesFromParams backend.os params)
  | _ => none

/-- The certificate that a request asks to trust. -/
def asked? : (Σ m : HostMethod, m.Result) → Option Bytes
  | ⟨.trustClient params, _⟩ | ⟨.pairAccept params, _⟩ =>
    if clientCert params = [] then none else some (clientCert params)
  | _ => none

/-- The registry after some requests: the last catalog that was published, and every client that was
trusted at first or asked for. -/
structure Remembers (backend : Backend) (initial : Registry) (log : List (Σ m : HostMethod, m.Result))
    (h : Registry) : Prop where
  catalog : h.catalog = (History.latest (published? backend) log).getD initial.catalog
  trusted : ∀ cert, cert ∈ h.trusted ↔ cert ∈ initial.trusted ∨ ∃ o ∈ log, asked? o = some cert

theorem next_catalog (h : Registry) (o : Σ m : HostMethod, m.Result) :
    (h.next backend o.1).catalog = (published? backend o).getD h.catalog := by
  obtain ⟨m, r⟩ := o
  cases m with
  | trustClient | pairAccept =>
    rw [Registry.next]
    split <;> rfl
  | _ => rfl

theorem next_trusts (h : Registry) (o : Σ m : HostMethod, m.Result) (cert : Bytes) :
    cert ∈ (h.next backend o.1).trusted ↔ cert ∈ h.trusted ∨ asked? o = some cert := by
  obtain ⟨m, r⟩ := o
  cases m with
  | trustClient params | pairAccept params =>
    rw [Registry.next, asked?]
    split
    · simp
    · rw [Registry.trust, Set.mem_insert_iff, Option.some_inj, eq_comm, or_comm]
  | _ => exact (or_iff_left nofun).symm

theorem remembers_step {initial h h' : Registry} {log : List (Σ m : HostMethod, m.Result)}
    {outcome : Σ m : HostMethod, m.Result} (remembers : Remembers backend initial log h)
    (step : h.Step backend outcome h') : Remembers backend initial (log ++ [outcome]) h' := by
  obtain ⟨-, rfl⟩ := step
  constructor
  · rw [next_catalog, remembers.catalog, History.latest_append]
    cases published : published? backend outcome <;> simp [History.latest, published]
  · intro cert
    rw [next_trusts, remembers.trusted, or_assoc]
    simp [or_and_right, exists_or]

theorem remembers_run {initial h : Registry} {log : List (Σ m : HostMethod, m.Result)}
    (run : Run (Registry.Step backend) initial log h) : Remembers backend initial log h :=
  run.history (Remembers backend initial) ⟨rfl, fun _ => by simp⟩ fun _ _ _ _ => remembers_step

/-- In every run of host mode whose files can be read and written and are kept as `Kept` says, each list
of games is the last one that was published, and a client is found to be trusted just if it was at
first or a request before asked for it. -/
theorem requests_remembered (backend : Backend) (files : HostFiles) (kept : Kept backend files)
    {labels : List (Label Access HostMethod HostMethod.Result)}
    {t : Thread World Access Access.Answer HostMethod HostMethod.Result × World}
    (run : Run (HostModeStep backend) (.idle, .fresh files) labels t)
    {before after : List (Σ m : HostMethod, m.Result)} {m : HostMethod} {r : m.Result}
    (split : outcomes labels = before ++ ⟨m, r⟩ :: after) :
    (m = .listApps → r = .ok ((Value.obj []).set (ascii "apps") (.arr
      (((History.latest (published? backend) before).getD (registryOf backend files).catalog).map
        appToJson)))) ∧
    ∀ params answer, m = .trustClient params → r = .ok answer →
      (answer.getBool (ascii "alreadyTrusted") false = true ↔
        clientCert params ∈ (registryOf backend files).trusted ∨
          ∃ o ∈ before, asked? o = some (clientCert params)) := by
  obtain ⟨_, answered, -⟩ := outcomes_run keeps_stable method_answers (keeps_fresh kept) run
  rw [split] at answered
  obtain ⟨h, h', earlier, replies, -⟩ := answered.taken
  have remembers := remembers_run earlier
  constructor
  · rintro rfl
    rw [← remembers.catalog]
    exact replies
  · rintro params answer rfl rfl
    by_cases named : clientCert params = []
    · rw [Registry.Replies, if_pos named] at replies
      exact nomatch replies
    · rw [Registry.Replies, if_neg named] at replies
      obtain ⟨already, restartRequired, same, known, -⟩ := replies
      obtain rfl := Except.ok.inj same
      rw [← remembers.trusted, ← known]
      simp +decide [Registry.trustReport, Value.getBool]

theorem requests_remembered_published :
    ∃ (labels : List (Label Access HostMethod HostMethod.Result)) (w : World)
      (published listed : Except IpcError Value),
      Run (HostModeStep exampleBackend) (.idle, .fresh fun _ => none) labels (.idle, w) ∧
      outcomes labels = [⟨.syncApps twoGames, published⟩] ++ [⟨.listApps, listed⟩] ∧
      listed = .ok ((Value.obj []).set (ascii "apps") (.arr
        ((gamesFromParams exampleBackend.os twoGames).map appToJson))) := by
  obtain ⟨-, labels, -, w, r, r', -, -, run, split⟩ := published_run
  exact ⟨labels, w, r, r', run, split,
    (requests_remembered exampleBackend _ kept_empty run split).1 rfl⟩

end StreamEngine.Host
