import StreamEngine.Library.Refinement
import StreamEngine.Library.Transition
import StreamEngine.Net.Identity
import StreamEngine.Net.StoreFilesProofs

/-! Calls of `load_or_create_identity` over one directory, each with file steps that may fail. The
calls are followed on the store's own files, where a call either returns what it has read or
generates an identity and replaces the files one by one. -/
namespace StreamEngine.Net
open ByteString FileSystem PosixPath Refinement Transition

/-- A certificate with its key, and a uniqueid. -/
abbrev Identity := ClientIdentity × Bytes

/-- The part of an identity that a file holds. -/
def identityPart (identity : Identity) : StoreFile → Bytes
  | .clientCrt => identity.1.certPem
  | .clientKey => identity.1.keyPem
  | .uniqueid => identity.2
  | .hostsJson => []

/-- One call: how its file steps go, and what OpenSSL makes and draws for it. -/
structure LoadCall where
  faults : StoreFaults
  made : Option ClientIdentity
  drawn : Option (BitVec 64)

/-- The store's files alone, with the same failures. -/
def StoreFaults.disk (faults : StoreFaults) : FileOps (StateM Disk) where
  readFile file := fun disk => ((faults.inputs file).gets (disk file), disk)
  writeFile file data := fun disk => ((faults.writes file).succeeds,
    Function.update disk file ((faults.writes file).leaves data (disk file)))

def storeDisk (dir : Path) (files : StoreFiles) : Disk := fun file => files (storePath dir file)

theorem storePath_injective (dir : Path) : Function.Injective (storePath dir) := by
  intro file file' same
  have names := join_injective dir same
  revert names
  cases file <;> cases file' <;> decide

theorem storePath_ne_tmpPath (dir : Path) (file file' : StoreFile) :
    storePath dir file ≠ tmpPath (storePath dir file') := by
  intro same
  have names : file.name = file'.name ++ ascii ".tmp" := by
    apply join_injective dir
    rw [← join_append]
    exact same
  revert names
  cases file <;> cases file' <;> decide

section Files
variable (dir : Path) (faults : StoreFaults)

/-- The store's files are those of the disk. -/
def OnDisk {α : Type} (_ : α) (files : StoreFiles) (disk : Disk) : Prop := storeDisk dir files = disk

theorem readFile_onDisk (file : StoreFile) : Refines (OnDisk dir ())
    ((faults.files dir).readFile file) (faults.disk.readFile file) (OnDisk dir) := by
  rintro files _ rfl
  exact ⟨_, _, _, rfl, rfl, rfl⟩

theorem writeFile_onDisk (file : StoreFile) (data : Bytes) : Refines (OnDisk dir ())
    ((faults.files dir).writeFile file data) (faults.disk.writeFile file data) (OnDisk dir) := by
  rintro files _ rfl
  obtain ⟨result, target, others⟩ :=
    writeFile_spec (faults.writes file) data (storePath dir file) files
  refine ⟨_, _, _, Prod.ext result rfl, rfl, ?_⟩
  funext other
  by_cases same : other = file
  · subst same
    rw [Function.update_self]
    exact target
  · rw [Function.update_of_ne same]
    exact others _ ((storePath_injective dir).ne same) (storePath_ne_tmpPath dir _ _)

/-- `load_or_create_identity` does to the store's files what it does to the disk. -/
theorem loadOrCreateIdentity_onDisk (identity : Option ClientIdentity) (uid : Bytes) :
    Refines (OnDisk dir ())
      (loadOrCreateIdentity (faults.files dir) (pure identity) (pure uid))
      (loadOrCreateIdentity faults.disk (pure identity) (pure uid)) (OnDisk dir) := by
  have done : ∀ {α β : Type} (a : α) (b : β), Refines (OnDisk dir a) (pure b) (pure b) (OnDisk dir) :=
    fun _ _ => refines_pure fun _ _ same => same
  refine refines_bind (readFile_onDisk dir faults _) fun cert => ?_
  refine refines_bind (readFile_onDisk dir faults _) fun key => ?_
  refine refines_bind (readFile_onDisk dir faults _) fun read => ?_
  refine refines_ite (fun _ => done _ _) fun _ => ?_
  refine refines_bind (done _ _) fun made => ?_
  cases made with
  | none => exact done _ _
  | some fresh =>
    refine refines_bind (done _ _) fun freshUid => ?_
    refine refines_ite (fun _ => done _ _) fun _ => ?_
    refine refines_bind (writeFile_onDisk dir faults _ _) fun certOk => ?_
    refine refines_ite (fun _ => done _ _) fun _ => ?_
    refine refines_bind (writeFile_onDisk dir faults _ _) fun keyOk => ?_
    refine refines_ite (fun _ => done _ _) fun _ => ?_
    refine refines_bind (writeFile_onDisk dir faults _ _) fun uidOk => ?_
    exact refines_ite (fun _ => done _ _) fun _ => done _ _

end Files

/-! ### What one call can do -/

/-- The identity that a set of contents is, if none of them is missing or empty. -/
def assembled (contents : StoreFile → Bytes) : Identity :=
  (⟨contents .clientCrt, contents .clientKey⟩, contents .uniqueid)

def Complete (contents : StoreFile → Bytes) : Prop :=
  contents .clientCrt ≠ [] ∧ contents .clientKey ≠ [] ∧ contents .uniqueid ≠ []

instance (contents : StoreFile → Bytes) : Decidable (Complete contents) :=
  inferInstanceAs (Decidable (_ ∧ _ ∧ _))

def contents (disk : Disk) (file : StoreFile) : Bytes := (disk file).getD []

namespace LoadCall
variable (call : LoadCall) (dir : Path) (disk : Disk)

def run : StateM StoreFiles (Option Identity) :=
  loadOrCreateIdentity (call.faults.files dir) (pure (generateIdentity call.made))
    (pure (generateUniqueId call.drawn))

def reads (file : StoreFile) : Bytes := ((call.faults.inputs file).gets (disk file)).getD []

/-- The identity that the call would generate. -/
def fresh : Option Identity :=
  match generateIdentity call.made with
  | none => none
  | some identity =>
    if generateUniqueId call.drawn = [] then none else some (identity, generateUniqueId call.drawn)

/-- The identity that the call generates. -/
def generates : Option Identity := if Complete (call.reads disk) then none else call.fresh

def writes (identity : Identity) (file : StoreFile) : Disk :=
  Function.update disk file
    ((call.faults.writes file).leaves (identityPart identity file) (disk file))

def succeeds (file : StoreFile) : Bool := (call.faults.writes file).succeeds

end LoadCall

/-- A call as it is seen: what it generated and what it returned. -/
structure LoadEvent where
  call : LoadCall
  generated : Option Identity
  result : Option Identity

inductive LoadStep (dir : Path) : StoreFiles → LoadEvent → StoreFiles → Prop where
  | call (call : LoadCall) (files : StoreFiles) : LoadStep dir files
      ⟨call, call.generates (storeDisk dir files), ((call.run dir).run files).1⟩
      ((call.run dir).run files).2

/-- The steps on the store's files. -/
inductive DiskStep : Disk → LoadEvent → Disk → Prop where
  | reused {disk call} (complete : Complete (call.reads disk)) :
      DiskStep disk ⟨call, none, some (assembled (call.reads disk))⟩ disk
  | refused {disk call} (incomplete : ¬ Complete (call.reads disk)) (failed : call.fresh = none) :
      DiskStep disk ⟨call, none, none⟩ disk
  | certFails {disk call g} (incomplete : ¬ Complete (call.reads disk)) (fresh : call.fresh = some g)
      (cert : call.succeeds .clientCrt = false) :
      DiskStep disk ⟨call, some g, none⟩ (call.writes disk g .clientCrt)
  | keyFails {disk call g} (incomplete : ¬ Complete (call.reads disk)) (fresh : call.fresh = some g)
      (cert : call.succeeds .clientCrt = true) (key : call.succeeds .clientKey = false) :
      DiskStep disk ⟨call, some g, none⟩ (call.writes (call.writes disk g .clientCrt) g .clientKey)
  | uidFails {disk call g} (incomplete : ¬ Complete (call.reads disk)) (fresh : call.fresh = some g)
      (cert : call.succeeds .clientCrt = true) (key : call.succeeds .clientKey = true)
      (uid : call.succeeds .uniqueid = false) :
      DiskStep disk ⟨call, some g, none⟩
        (call.writes (call.writes (call.writes disk g .clientCrt) g .clientKey) g .uniqueid)
  | created {disk call g} (incomplete : ¬ Complete (call.reads disk)) (fresh : call.fresh = some g)
      (cert : call.succeeds .clientCrt = true) (key : call.succeeds .clientKey = true)
      (uid : call.succeeds .uniqueid = true) :
      DiskStep disk ⟨call, some g, some g⟩
        (call.writes (call.writes (call.writes disk g .clientCrt) g .clientKey) g .uniqueid)

namespace LoadCall
variable (call : LoadCall) (disk : Disk)

def onDisk : StateM Disk (Option Identity) :=
  loadOrCreateIdentity call.faults.disk (pure (generateIdentity call.made))
    (pure (generateUniqueId call.drawn))

/-- The files are replaced one by one. -/
def replaces (g : Identity) : Option Identity × Disk :=
  if call.succeeds .clientCrt = false then (none, call.writes disk g .clientCrt)
  else if call.succeeds .clientKey = false then
    (none, call.writes (call.writes disk g .clientCrt) g .clientKey)
  else
    (if call.succeeds .uniqueid then some g else none,
      call.writes (call.writes (call.writes disk g .clientCrt) g .clientKey) g .uniqueid)

theorem onDisk_reused (complete : Complete (call.reads disk)) :
    call.onDisk.run disk = (some (assembled (call.reads disk)), disk) := by
  simp only [onDisk, loadOrCreateIdentity, StoreFaults.disk, StateT.run, bind, StateT.bind]
  exact congrFun (if_pos complete) disk

theorem onDisk_fresh (incomplete : ¬ Complete (call.reads disk)) :
    call.onDisk.run disk =
      match call.fresh with
      | none => (none, disk)
      | some g => call.replaces disk g := by
  simp only [onDisk, loadOrCreateIdentity, StoreFaults.disk, StateT.run, bind, StateT.bind]
  refine (congrFun (if_neg incomplete) disk).trans ?_
  simp only [fresh]
  cases generateIdentity call.made with
  | none => rfl
  | some identity =>
    by_cases empty : generateUniqueId call.drawn = []
    · refine (congrFun (if_pos empty) disk).trans ?_
      simp [empty]
      rfl
    · refine (congrFun (if_neg empty) disk).trans ?_
      have written : ∀ file, call.succeeds file = true →
          ¬ (call.faults.writes file).succeeds = false := by
        simp [succeeds]
      simp only [empty, if_false, replaces]
      cases cert : call.succeeds .clientCrt with
      | false => exact congrFun (if_pos cert) _
      | true =>
        refine (congrFun (if_neg (written _ cert)) _).trans ?_
        cases key : call.succeeds .clientKey with
        | false => exact congrFun (if_pos key) _
        | true =>
          refine (congrFun (if_neg (written _ key)) _).trans ?_
          cases uid : call.succeeds .uniqueid with
          | false => exact congrFun (if_pos uid) _
          | true => exact congrFun (if_neg (written _ uid)) _

end LoadCall

theorem diskStep_run (call : LoadCall) (disk : Disk) :
    DiskStep disk ⟨call, call.generates disk, (call.onDisk.run disk).1⟩ (call.onDisk.run disk).2 := by
  by_cases complete : Complete (call.reads disk)
  · rw [call.onDisk_reused disk complete, LoadCall.generates, if_pos complete]
    exact .reused complete
  · rw [call.onDisk_fresh disk complete, LoadCall.generates, if_neg complete]
    cases fresh : call.fresh with
    | none => exact .refused complete fresh
    | some g =>
      simp only [LoadCall.replaces]
      cases cert : call.succeeds .clientCrt with
      | false => exact .certFails complete fresh cert
      | true =>
        cases key : call.succeeds .clientKey with
        | false => exact .keyFails complete fresh cert key
        | true =>
          cases uid : call.succeeds .uniqueid with
          | false => exact .uidFails complete fresh cert key uid
          | true => exact .created complete fresh cert key uid

theorem LoadStep.onDisk {dir : Path} {files files' : StoreFiles} {e : LoadEvent}
    (step : LoadStep dir files e files') : DiskStep (storeDisk dir files) e (storeDisk dir files') := by
  obtain ⟨call⟩ := step
  obtain ⟨result, files', disk', left, right, rfl⟩ :=
    loadOrCreateIdentity_onDisk dir call.faults (generateIdentity call.made)
      (generateUniqueId call.drawn) files _ rfl
  have step := diskStep_run call (storeDisk dir files)
  have abstract : call.onDisk.run (storeDisk dir files) = (result, storeDisk dir files') := right
  have concrete : (call.run dir).run files = (result, files') := left
  rw [abstract] at step
  rwa [concrete]

/-- Runs of calls are runs on the store's files. -/
theorem loadRun_onDisk {dir : Path} {files files' : StoreFiles} {events : List LoadEvent}
    {allowed : Disk → LoadEvent → Prop}
    (run : Run (Restricted (LoadStep dir) fun files => allowed (storeDisk dir files)) files events
      files') :
    Run (Restricted DiskStep allowed) (storeDisk dir files) events (storeDisk dir files') := by
  have follows : ∃ disk, Run (Restricted DiskStep allowed) (storeDisk dir files) events disk ∧
      storeDisk dir files' = disk := by
    refine run.simulation (fun files disk => storeDisk dir files = disk) rfl ?_
    rintro files e files' _ rfl ⟨step, permitted⟩
    exact ⟨_, ⟨step.onDisk, permitted⟩, rfl⟩
  obtain ⟨_, run, rfl⟩ := follows
  exact run

end StreamEngine.Net
