import StreamEngine.Host.AppsProofs
import StreamEngine.Host.ClientTrustProofs
import StreamEngine.Host.Handlers
import StreamEngine.Library.FileSystem
import StreamEngine.Library.Refinement

/-! The files of host mode under any failures. Every request that changes a file reads it, edits
what it has read and truncates it in place: a file that cannot be read counts as empty, and the
stream is asked whether it is good before it is flushed. -/
namespace StreamEngine.Host
open ByteString Json PosixPath FileSystem Client Refinement

abbrev HostFiles := Files Path UInt8

/-- The operations of one request. No request reads or writes a file twice. -/
def faultyHost (i : Input) (o : Output) (running : Bool) : HostOps (StateM HostFiles) where
  readText p := readStream p i
  writeText p data := writeStream p data o
  running := pure running

/-- An answer that is an error leaves the file as it was, and any other one leaves it with its new
content. -/
def FileContract (path : Path) (content : Option Bytes) (files : HostFiles)
    (outcome : Except IpcError Value × HostFiles) : Prop :=
  match outcome.1 with
  | .error _ => outcome.2 path = files path
  | .ok _ => outcome.2 path = content

/-- How replacing a file in place turns out well: it does not open; all of the data arrives and is what
the file should hold; some is lost and the rest happens to be that; or the stream is not good and
what has arrived happens to be what the file held before. -/
inductive Replaces (o : Output) (data : Bytes) (old new : Option Bytes) : Prop where
  | unopened (shut : o.opens = false)
  | complete (good : o.good = true) (whole : cutTo o.cut data = data) (due : some data = new)
  | cutShort (good : o.good = true) (part : cutTo o.cut data ≠ data)
      (due : some (cutTo o.cut data) = new)
  | failed (opens : o.opens = true) (bad : o.good = false) (same : some (cutTo o.cut data) = old)

theorem replaces_iff {o : Output} {data : Bytes} {old new : Option Bytes} : Replaces o data old new ↔
    (o.opens = true → some (cutTo o.cut data) = if o.good then new else old) := by
  constructor
  · rintro (shut | ⟨good, whole, due⟩ | ⟨good, part, due⟩ | ⟨opens, bad, same⟩) opened
    · exact absurd opened (by simp [shut])
    · simpa [good, whole] using due
    · simpa [good] using due
    · simpa [bad] using same
  · intro held
    cases opens : o.opens with
    | false => exact .unopened opens
    | true =>
      have due := held opens
      cases good : o.good with
      | false => exact .failed opens good (by simpa [good] using due)
      | true =>
        rw [good, if_pos rfl] at due
        by_cases whole : cutTo o.cut data = data
        · exact .complete good whole (whole ▸ due)
        · exact .cutShort good whole due

section Requests
variable (i : Input) (o : Output) (running : Bool) (backend : Backend) (params : Value)
  (files : HostFiles)

theorem hostSyncApps_run : (hostSyncApps (faultyHost i o running) backend params).run files =
    (if o.reports then .ok (syncReport (diffApps
        (((i.gets (files backend.appsPath)).map parseAppsJson).getD [])
        (gamesFromParams backend.os params)) (gamesFromParams backend.os params).length)
      else .error (ascii "internal", ascii "could not write apps catalog at " ++ backend.appsPath),
      Function.update files backend.appsPath
        (o.leaves (serializeAppsJson (gamesFromParams backend.os params))
          (files backend.appsPath))) := by
  have read : (readApps (faultyHost i o running) backend.appsPath).run files =
      (((i.gets (files backend.appsPath)).map parseAppsJson).getD [], files) := by
    have input : (readStream backend.appsPath i).run files =
        (i.gets (files backend.appsPath), files) := rfl
    refine (run_bind_of input).trans ?_
    cases i.gets (files backend.appsPath) <;> rfl
  have write : (writeApps (faultyHost i o running) backend.appsPath
      (gamesFromParams backend.os params)).run files = (o.reports,
        Function.update files backend.appsPath (o.leaves
          (serializeAppsJson (gamesFromParams backend.os params)) (files backend.appsPath))) := rfl
  refine (run_bind_of read).trans ((run_bind_of write).trans ?_)
  cases o.reports <;> rfl

/-- A replacement in place meets the contract exactly when it turns out well. -/
theorem fileContract_replace {path : Path} {data : Bytes} {new : Option Bytes}
    {outcome : Except IpcError Value × HostFiles}
    (left : outcome.2 path = o.leaves data (files path))
    (reported : outcome.1.isOk = o.reports) :
    FileContract path new files outcome ↔ Replaces o data (files path) new := by
  obtain ⟨answer, files'⟩ := outcome
  obtain ⟨opens, good, cut⟩ := o
  cases answer <;> cases opens <;> cases good <;>
    simp_all [FileContract, replaces_iff, Output.leaves, Output.reports, Except.isOk, Except.toBool]

/-- Publishing a catalog meets the contract exactly when replacing the file turns out well. -/
theorem syncApps_contract : FileContract backend.appsPath
      (some (serializeAppsJson (gamesFromParams backend.os params))) files
      ((hostSyncApps (faultyHost i o running) backend params).run files) ↔
    Replaces o (serializeAppsJson (gamesFromParams backend.os params)) (files backend.appsPath)
      (some (serializeAppsJson (gamesFromParams backend.os params))) := by
  have run := hostSyncApps_run i o running backend params files
  refine fileContract_replace o files ?_ ?_
  · rw [run]
    exact Function.update_self ..
  · rw [run]
    cases o.reports <;> rfl

variable (name certPem uuid : Bytes)

def textOf (content : Option Bytes) : Bytes := content.getD []

/-- The state file with a client trusted in it. -/
def withClient (content : Option Bytes) : Option Bytes :=
  if hasTrustedClient (textOf content) certPem then content
  else some (addTrustedClient (textOf content) name certPem uuid)

/-- How a request to trust a client turns out well. The state file is read whole, and shows the client
or is replaced. Or what is read is not what it holds, and happens to lead to the content that the
file should have. -/
inductive TrustSound (content : Option Bytes) : Prop where
  | known (read : i.gets content = content)
      (trusted : hasTrustedClient (textOf content) certPem = true)
  | replaced (read : i.gets content = content)
      (replaces : Replaces o (addTrustedClient (textOf content) name certPem uuid) content
        (some (addTrustedClient (textOf content) name certPem uuid)))
  | misknown (misread : i.gets content ≠ content)
      (seen : hasTrustedClient (textOf (i.gets content)) certPem = true)
      (same : content = withClient name certPem uuid content)
  | misreplaced (misread : i.gets content ≠ content)
      (unseen : ¬ hasTrustedClient (textOf (i.gets content)) certPem = true)
      (replaces : Replaces o (addTrustedClient (textOf (i.gets content)) name certPem uuid) content
        (withClient name certPem uuid content))

theorem trustSound_iff (content : Option Bytes) : TrustSound i o name certPem uuid content ↔
    if hasTrustedClient (textOf (i.gets content)) certPem then
      content = withClient name certPem uuid content
    else
      Replaces o (addTrustedClient (textOf (i.gets content)) name certPem uuid) content
        (withClient name certPem uuid content) := by
  constructor
  · rintro (⟨read, trusted⟩ | ⟨read, replaces⟩ | ⟨-, seen, same⟩ | ⟨-, unseen, replaces⟩)
    · simp [withClient, read, trusted]
    · cases trusted : hasTrustedClient (textOf content) certPem with
      | true => simp [withClient, read, trusted]
      | false => simpa [withClient, read, trusted] using replaces
    · rwa [if_pos seen]
    · rwa [if_neg unseen]
  · intro held
    by_cases read : i.gets content = content
    · cases trusted : hasTrustedClient (textOf content) certPem with
      | true => exact .known read trusted
      | false => exact .replaced read (by simpa [withClient, read, trusted] using held)
    · split at held
      · exact .misknown read ‹_› held
      · exact .misreplaced read ‹_› held

theorem hasTrustedClient_empty (certPem : Bytes) : hasTrustedClient [] certPem = false := by
  unfold hasTrustedClient
  split <;> rfl

theorem readTextFile_run {path : Path} (there : path ≠ []) :
    (readTextFile (faultyHost i o running) path).run files = (textOf (i.gets (files path)), files) := by
  have input : (readStream path i).run files = (i.gets (files path), files) := rfl
  rw [readTextFile, if_neg there]
  exact run_bind_of input

theorem writeTextFile_run {path : Path} (there : path ≠ []) (data : Bytes) :
    (writeTextFile (faultyHost i o running) path data).run files =
      (o.reports, Function.update files path (o.leaves data (files path))) := by
  rw [writeTextFile, if_neg there]
  rfl

/-- The request names no client, or there is no state file. -/
def Refused (backend : Backend) (params : Value) : Prop :=
  clientCert params = [] ∨ hostStatePath backend.appsPath = []

/-- A request to trust a client, up to the values it answers with. -/
theorem fileContract_trust {outcome : Except IpcError Value × HostFiles}
    (nameless : clientCert params = [] → ∃ e, outcome = (.error e, files))
    (pathless : clientCert params ≠ [] → hostStatePath backend.appsPath = [] →
      ∃ e, outcome = (.error e, files))
    (trusted : clientCert params ≠ [] → hostStatePath backend.appsPath ≠ [] →
      hasTrustedClient (textOf (i.gets (files (hostStatePath backend.appsPath))))
        (clientCert params) = true → ∃ known, outcome = (.ok known, files))
    (replaced : clientCert params ≠ [] → hostStatePath backend.appsPath ≠ [] →
      ¬ hasTrustedClient (textOf (i.gets (files (hostStatePath backend.appsPath))))
        (clientCert params) = true →
      outcome.1.isOk = o.reports ∧ outcome.2 (hostStatePath backend.appsPath) =
        o.leaves (addTrustedClient (textOf (i.gets (files (hostStatePath backend.appsPath))))
            (clientName params) (clientCert params) (stableUuid backend.hash (clientCert params)))
          (files (hostStatePath backend.appsPath))) :
    FileContract (hostStatePath backend.appsPath)
        (withClient (clientName params) (clientCert params)
          (stableUuid backend.hash (clientCert params)) (files (hostStatePath backend.appsPath)))
        files outcome ↔
      Refused backend params ∨ TrustSound i o (clientName params) (clientCert params)
        (stableUuid backend.hash (clientCert params)) (files (hostStatePath backend.appsPath)) := by
  by_cases named : clientCert params = []
  · obtain ⟨e, rfl⟩ := nameless named
    simp [FileContract, Refused, named]
  by_cases there : hostStatePath backend.appsPath = []
  · obtain ⟨e, rfl⟩ := pathless named there
    simp [FileContract, Refused, there]
  have usable : ¬ Refused backend params := not_or.mpr ⟨named, there⟩
  rw [or_iff_right usable, trustSound_iff]
  by_cases seen : hasTrustedClient (textOf (i.gets (files (hostStatePath backend.appsPath))))
      (clientCert params) = true
  · obtain ⟨known, rfl⟩ := trusted named there seen
    rw [if_pos seen]
    rfl
  · obtain ⟨reported, left⟩ := replaced named there seen
    rw [if_neg seen]
    exact fileContract_replace o files left reported

theorem hostTrustClient_contract : FileContract (hostStatePath backend.appsPath)
      (withClient (clientName params) (clientCert params)
        (stableUuid backend.hash (clientCert params)) (files (hostStatePath backend.appsPath))) files
      ((hostTrustClient (faultyHost i o running) backend params).run files) ↔
    Refused backend params ∨ TrustSound i o (clientName params) (clientCert params)
      (stableUuid backend.hash (clientCert params)) (files (hostStatePath backend.appsPath)) := by
  apply fileContract_trust
  case nameless =>
    intro nameless
    simp only [hostTrustClient, if_pos nameless]
    exact ⟨_, rfl⟩
  case pathless =>
    intro named pathless
    simp only [hostTrustClient, if_neg named, if_pos pathless]
    exact ⟨_, rfl⟩
  case trusted =>
    intro named there trusted
    have read := readTextFile_run i o running files there
    simp only [hostTrustClient, if_neg named, if_neg there, run_bind_of read]
    rw [if_pos trusted]
    exact ⟨_, rfl⟩
  case replaced =>
    intro named there untrusted
    have read := readTextFile_run i o running files there
    have write := writeTextFile_run i o running files there
    simp only [hostTrustClient, if_neg named, if_neg there, run_bind_of read]
    rw [if_neg untrusted, run_bind_of (write _)]
    cases o.reports <;> exact ⟨rfl, Function.update_self ..⟩

theorem hostPairAccept_contract : FileContract (hostStatePath backend.appsPath)
      (withClient (clientName params) (clientCert params)
        (stableUuid backend.hash (clientCert params)) (files (hostStatePath backend.appsPath))) files
      ((hostPairAccept (faultyHost i o running) backend params).run files) ↔
    Refused backend params ∨ TrustSound i o (clientName params) (clientCert params)
      (stableUuid backend.hash (clientCert params)) (files (hostStatePath backend.appsPath)) := by
  apply fileContract_trust
  case nameless =>
    intro nameless
    simp only [hostPairAccept, if_pos nameless]
    exact ⟨_, rfl⟩
  case pathless =>
    -- The missing path is noticed when the state is written.
    intro named pathless
    have read : (readTextFile (faultyHost i o running) []).run files = ([], files) := rfl
    have write : ∀ data, (writeTextFile (faultyHost i o running) [] data).run files =
      (false, files) := fun _ => rfl
    have unknown : ¬ hasTrustedClient [] (clientCert params) = true := by
      simp [hasTrustedClient_empty]
    simp only [hostPairAccept, if_neg named, pathless, run_bind_of read]
    rw [if_neg unknown, run_bind_of (write _)]
    exact ⟨_, rfl⟩
  case trusted =>
    intro named there trusted
    have read := readTextFile_run i o running files there
    simp only [hostPairAccept, if_neg named, run_bind_of read]
    rw [if_pos trusted]
    exact ⟨_, rfl⟩
  case replaced =>
    intro named there untrusted
    have read := readTextFile_run i o running files there
    have write := writeTextFile_run i o running files there
    simp only [hostPairAccept, if_neg named, run_bind_of read]
    rw [if_neg untrusted, run_bind_of (write _)]
    cases o.reports <;> exact ⟨rfl, Function.update_self ..⟩

end Requests

/-- A file that either does not open or takes all of the data. -/
def TakesAll (o : Output) : Prop := o.opens = true → o.good = true ∧ o.cut = none

theorem replaces_of_takesAll {o : Output} (all : TakesAll o) (data : Bytes) (old : Option Bytes) :
    Replaces o data old (some data) := by
  cases opens : o.opens with
  | false => exact .unopened opens
  | true =>
    obtain ⟨good, uncut⟩ := all opens
    exact .complete good (by rw [uncut, cutTo]) rfl

theorem trustSound_of_takesAll {i : Input} {o : Output} {content : Option Bytes}
    (read : i.gets content = content) (all : TakesAll o) (name certPem uuid : Bytes) :
    TrustSound i o name certPem uuid content :=
  .replaced read (replaces_of_takesAll all _ content)

/-- No request breaks the contract where the files are read whole and the output takes all of the data
or does not open. -/
theorem host_files_sound (backend : Backend) (params : Value) {i : Input} {o : Output} (running : Bool)
    {files : HostFiles} (read : ∀ path, i.gets (files path) = files path) (all : TakesAll o) :
    FileContract backend.appsPath
        (some (serializeAppsJson (gamesFromParams backend.os params))) files
        ((hostSyncApps (faultyHost i o running) backend params).run files) ∧
    ∀ request ∈ [hostTrustClient, hostPairAccept],
      FileContract (hostStatePath backend.appsPath)
        (withClient (clientName params) (clientCert params)
          (stableUuid backend.hash (clientCert params)) (files (hostStatePath backend.appsPath))) files
        ((request (faultyHost i o running) backend params).run files) := by
  have trusts := trustSound_of_takesAll (read (hostStatePath backend.appsPath)) all (clientName params)
    (clientCert params) (stableUuid backend.hash (clientCert params))
  refine ⟨(syncApps_contract ..).mpr (replaces_of_takesAll all _ _), ?_⟩
  intro request member
  rcases List.mem_pair.mp member with rfl | rfl
  · exact (hostTrustClient_contract ..).mpr (.inr trusts)
  · exact (hostPairAccept_contract ..).mpr (.inr trusts)

/-- Each of the three requests meets the contract exactly when its replacement in place turns out
well; the two that trust a client also have to read the state file for what it is. -/
theorem host_files_iff (backend : Backend) (params : Value) (i : Input) (o : Output) (running : Bool)
    (files : HostFiles) :
    (FileContract backend.appsPath
        (some (serializeAppsJson (gamesFromParams backend.os params))) files
        ((hostSyncApps (faultyHost i o running) backend params).run files) ↔
      Replaces o (serializeAppsJson (gamesFromParams backend.os params)) (files backend.appsPath)
        (some (serializeAppsJson (gamesFromParams backend.os params)))) ∧
    ∀ request ∈ [hostTrustClient, hostPairAccept],
      FileContract (hostStatePath backend.appsPath)
        (withClient (clientName params) (clientCert params)
          (stableUuid backend.hash (clientCert params)) (files (hostStatePath backend.appsPath))) files
        ((request (faultyHost i o running) backend params).run files) ↔
      Refused backend params ∨ TrustSound i o (clientName params) (clientCert params)
        (stableUuid backend.hash (clientCert params)) (files (hostStatePath backend.appsPath)) := by
  refine ⟨syncApps_contract i o running backend params files, ?_⟩
  intro request member
  rcases List.mem_pair.mp member with rfl | rfl
  · exact hostTrustClient_contract i o running backend params files
  · exact hostPairAccept_contract i o running backend params files

/-- A file that is not there trusts the client that is added to it, and no other. -/
theorem hasTrustedClient_first {name certPem uuid other : Bytes} (named : other ≠ []) :
    hasTrustedClient (addTrustedClient [] name certPem uuid) other = decide (certPem = other) := by
  have nothing : parse [] = none := rfl
  have finite : ∀ v, parse [] = some v → v.Finite := by simp [nothing]
  rw [Bool.eq_iff_iff, hasTrustedClient_add finite name certPem uuid named, hasTrustedClient_empty,
    decide_eq_true_eq]
  simp [eq_comm]

def exampleBackend : Backend := ⟨.posix, ascii "d/apps.json", ascii "sunshine", fun _ => 0⟩

/-- The state file when one client has been trusted. -/
def laptopTrusted (p : Path) : Option Bytes :=
  if p = ascii "d/sunshine_state.json" then
    some (addTrustedClient [] (ascii "laptop") (ascii "cert1") (ascii "1"))
  else none

/-- The state file cannot be opened for reading, and the request reports success. -/
theorem trusted_client_lost : ∃ answer files,
    (hostTrustClient (faultyHost ⟨false, none⟩ .whole false) exampleBackend
      (.obj [(ascii "certPem", .str (ascii "cert2"))])).run laptopTrusted = (.ok answer, files) ∧
    hasTrustedClient (textOf (laptopTrusted (hostStatePath exampleBackend.appsPath)))
      (ascii "cert1") = true ∧
    hasTrustedClient (textOf (files (hostStatePath exampleBackend.appsPath))) (ascii "cert1") =
      false := by
  refine ⟨_, _, rfl, ?_, ?_⟩
  · exact (hasTrustedClient_first (by decide)).trans (by decide)
  · exact (hasTrustedClient_first (by decide)).trans (by decide)

end StreamEngine.Host
