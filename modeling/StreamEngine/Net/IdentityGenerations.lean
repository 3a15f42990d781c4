import StreamEngine.Net.IdentityRuns

/-! The generations that an identity is put together from. A call that cannot replace all three
files leaves some of its own beside older ones, and the next call takes any three that are there
for an identity. -/
namespace StreamEngine.Net
open ByteString FileSystem PosixPath Transition

/-- Only writes fail, and a failed write leaves its target as it was. -/
structure WritesFail (disk : Disk) (call : LoadCall) : Prop where
  reads : ∀ file, file ≠ .hostsJson → (call.faults.inputs file).gets (disk file) = disk file
  writes : ∀ g file, call.generates disk = some g → file ≠ .hostsJson →
    ¬ (call.faults.writes file).loses (identityPart g file) ∧
      ¬ (call.faults.writes file).destroys (disk file)

/-- A call that replaces some of the files leaves a set that is still incomplete. -/
def Unmixed (disk : Disk) (call : LoadCall) : Prop :=
  call.generates disk ≠ none → call.succeeds .clientCrt = true →
    (call.succeeds .clientKey = false →
      contents disk .clientKey = [] ∨ contents disk .uniqueid = []) ∧
    (call.succeeds .clientKey = true → call.succeeds .uniqueid = false →
      contents disk .uniqueid = [])

/-- The identity of the directory, and those that the calls have generated. -/
def Generation (first : Identity) (events : List LoadEvent) (identity : Identity) : Prop :=
  identity = first ∨ ∃ e ∈ events, e.generated = some identity

variable {first g identity : Identity} {events : List LoadEvent} {e : LoadEvent}
  {disk disk' : Disk} {call : LoadCall} {file : StoreFile}

theorem Generation.later (generation : Generation first events identity) :
    Generation first (events ++ [e]) identity := by
  rcases generation with rfl | ⟨e', member, generated⟩
  · exact .inl rfl
  · exact .inr ⟨e', List.mem_append_left _ member, generated⟩

theorem generation_snoc (generated : e.generated = some identity) :
    Generation first (events ++ [e]) identity :=
  .inr ⟨e, by simp, generated⟩

/-- What is complete is of one generation. -/
def OneGeneration (first : Identity) (events : List LoadEvent) (disk : Disk) : Prop :=
  Complete (contents disk) → Generation first events (assembled (contents disk))

namespace LoadCall

theorem writes_of_succeeds (succeeds : call.succeeds file = true)
    (kept : ¬ (call.faults.writes file).loses (identityPart g file)) :
    call.writes disk g file = Function.update disk file (some (identityPart g file)) := by
  rw [writes, (WriteFaults.leaves_of_succeeds succeeds).mpr kept]

theorem writes_of_fails (fails : call.succeeds file = false)
    (kept : ¬ (call.faults.writes file).destroys (disk file)) : call.writes disk g file = disk := by
  rw [writes, (WriteFaults.leaves_of_fails fails).mpr kept, Function.update_eq_self]

theorem generates_fresh (incomplete : ¬ Complete (call.reads disk)) (fresh : call.fresh = some g) :
    call.generates disk = some g :=
  (if_neg incomplete).trans fresh

/-- No part of what is generated is empty. -/
theorem fresh_nonempty (fresh : call.fresh = some g) :
    g.1.certPem ≠ [] ∧ g.1.keyPem ≠ [] ∧ g.2 ≠ [] := by
  unfold LoadCall.fresh at fresh
  split at fresh
  · contradiction
  · rename_i generated
    split at fresh
    · contradiction
    · rename_i drawn
      cases fresh
      obtain ⟨cert, key⟩ := generateIdentity_nonempty generated
      exact ⟨cert, key, drawn⟩

theorem reads_eq (whole : WritesFail disk call) (used : file ≠ .hostsJson) :
    call.reads disk file = contents disk file := by
  rw [reads, whole.reads file used, contents]

end LoadCall

theorem contents_update (file : StoreFile) (data : Bytes) :
    contents (Function.update disk file (some data)) = Function.update (contents disk) file data := by
  funext other
  by_cases same : other = file
  · subst same
    simp [contents]
  · simp [contents, same]

theorem assembled_congr {c c' : StoreFile → Bytes} (same : ∀ file, file ≠ .hostsJson → c file = c' file) :
    (Complete c ↔ Complete c') ∧ assembled c = assembled c' := by
  simp [Complete, assembled, same .clientCrt, same .clientKey, same .uniqueid]

/-- All three writes succeed. -/
def LoadCall.WritesAll (call : LoadCall) : Prop :=
  call.succeeds .clientCrt = true ∧ call.succeeds .clientKey = true ∧ call.succeeds .uniqueid = true

theorem assembled_inj {c c' : StoreFile → Bytes} (same : assembled c = assembled c') :
    ∀ file, file ≠ .hostsJson → c file = c' file := by
  simp only [assembled, Prod.mk.injEq, ClientIdentity.mk.injEq] at same
  rintro (_ | _ | _ | _) used
  exacts [same.1.1, same.1.2, same.2, absurd rfl used]

theorem LoadCall.not_loses_iff (succeeds : call.succeeds file = true) (data : Bytes) :
    ¬ (call.faults.writes file).loses data ↔
      cutTo (call.faults.writes file).output.cut data = data := by
  simp only [LoadCall.succeeds, WriteFaults.succeeds, Bool.and_eq_true, decide_eq_true_eq] at succeeds
  simp [WriteFaults.loses, succeeds]

theorem LoadCall.writes_cut (succeeds : call.succeeds file = true) : call.writes disk g file =
    Function.update disk file
      (some (cutTo (call.faults.writes file).output.cut (identityPart g file))) := by
  simp only [LoadCall.succeeds, WriteFaults.succeeds, Bool.and_eq_true, decide_eq_true_eq] at succeeds
  simp [LoadCall.writes, WriteFaults.leaves, succeeds]

theorem contents_written (succeeds : call.WritesAll) (used : file ≠ .hostsJson) (disk : Disk) :
    contents (call.writes (call.writes (call.writes disk g .clientCrt) g .clientKey) g .uniqueid)
      file = cutTo (call.faults.writes file).output.cut (identityPart g file) := by
  obtain ⟨cert, key, uid⟩ := succeeds
  rw [LoadCall.writes_cut cert, LoadCall.writes_cut key, LoadCall.writes_cut uid]
  cases file <;> simp [contents_update] at used ⊢

theorem LoadCall.WritesAll.succeeds (all : call.WritesAll) (used : file ≠ .hostsJson) :
    call.succeeds file = true := by
  cases file <;> simp_all [LoadCall.WritesAll]

theorem contents_created (succeeds : call.WritesAll) (stored : ∀ file, file ≠ .hostsJson →
      ¬ (call.faults.writes file).loses (identityPart g file)) (disk : Disk) :
    assembled (contents
      (call.writes (call.writes (call.writes disk g .clientCrt) g .clientKey) g .uniqueid)) = g := by
  have parts : ∀ file, file ≠ .hostsJson → _ = identityPart g file := fun file used =>
    (contents_written succeeds used disk).trans
      ((LoadCall.not_loses_iff (succeeds.succeeds used) _).mp (stored file used))
  exact (assembled_congr parts).2

theorem OneGeneration.step (one : OneGeneration first events disk) (step : DiskStep disk e disk')
    (fails : WritesFail disk e.call) (unmixed : Unmixed disk e.call) :
    OneGeneration first (events ++ [e]) disk' ∧
      ∀ identity, e.result = some identity → Generation first (events ++ [e]) identity := by
  cases step with
  | @reused call complete =>
    obtain ⟨same, identity⟩ := assembled_congr fun _ => LoadCall.reads_eq fails
    refine ⟨fun complete => (one complete).later, ?_⟩
    rintro _ ⟨⟩
    rw [identity]
    exact (one (same.mp complete)).later
  | refused => exact ⟨fun complete => (one complete).later, nofun⟩
  | certFails incomplete fresh cert =>
    have generates := LoadCall.generates_fresh incomplete fresh
    have kept := (fails.writes _ .clientCrt generates nofun).2
    rw [LoadCall.writes_of_fails cert kept]
    exact ⟨fun complete => (one complete).later, nofun⟩
  | keyFails incomplete fresh cert key =>
    have generates := LoadCall.generates_fresh incomplete fresh
    have lacks := (unmixed (by simp [generates]) cert).1 key
    have stored := (fails.writes _ .clientCrt generates nofun).1
    have kept := (fails.writes _ .clientKey generates nofun).2
    rw [LoadCall.writes_of_succeeds cert stored, LoadCall.writes_of_fails key (by simpa using kept)]
    refine ⟨fun complete => ?_, nofun⟩
    simp only [Complete, contents_update] at complete
    rcases lacks with empty | empty <;> simp [empty] at complete
  | uidFails incomplete fresh cert key uid =>
    have generates := LoadCall.generates_fresh incomplete fresh
    have lacks := (unmixed (by simp [generates]) cert).2 key uid
    have storedCert := (fails.writes _ .clientCrt generates nofun).1
    have storedKey := (fails.writes _ .clientKey generates nofun).1
    have kept := (fails.writes _ .uniqueid generates nofun).2
    rw [LoadCall.writes_of_succeeds cert storedCert, LoadCall.writes_of_succeeds key storedKey,
      LoadCall.writes_of_fails uid (by simpa using kept)]
    refine ⟨fun complete => ?_, nofun⟩
    simp [Complete, contents_update, lacks] at complete
  | created incomplete fresh cert key uid =>
    have generates := LoadCall.generates_fresh incomplete fresh
    have stored := contents_created ⟨cert, key, uid⟩
      (fun file used => (fails.writes _ file generates used).1) disk
    refine ⟨fun _ => ?_, ?_⟩
    · rw [stored]
      exact generation_snoc rfl
    · rintro _ ⟨⟩
      exact generation_snoc rfl

/-- The directory holds an identity, or what is left of it. -/
def StartsFrom (first : Identity) (disk : Disk) : Prop :=
  ∀ file, file ≠ .hostsJson → contents disk file = [] ∨ contents disk file = identityPart first file

theorem StartsFrom.oneGeneration (starts : StartsFrom first disk) : OneGeneration first [] disk := by
  rintro ⟨cert, key, uid⟩
  refine .inl ?_
  simp [assembled, (starts .clientCrt nofun).resolve_left cert,
    (starts .clientKey nofun).resolve_left key, (starts .uniqueid nofun).resolve_left uid,
    identityPart]

theorem oneGeneration_of_run {disk₀ : Disk} (starts : StartsFrom first disk₀)
    (run : Run (Restricted DiskStep fun disk e => WritesFail disk e.call ∧ Unmixed disk e.call)
      disk₀ events disk) : OneGeneration first events disk :=
  run.history (OneGeneration first) starts.oneGeneration
    fun _ _ _ _ one ⟨step, fails, unmixed⟩ => (one.step step fails unmixed).1

/-! ### A call that mixes -/

/-- What is there is part of some generation. -/
def Parts (first : Identity) (events : List LoadEvent) (disk : Disk) : Prop :=
  ∀ file, file ≠ .hostsJson → contents disk file ≠ [] →
    ∃ identity, Generation first events identity ∧ contents disk file = identityPart identity file

/-- Some files are as they were, the others have their part of an identity. -/
def Partly (g : Identity) (disk disk' : Disk) : Prop :=
  ∀ file, disk' file = disk file ∨ disk' file = some (identityPart g file)

theorem Partly.writes (partly : Partly g disk disk')
    (stored : ¬ (call.faults.writes file).loses (identityPart g file))
    (kept : ¬ (call.faults.writes file).destroys (disk' file)) :
    Partly g disk (call.writes disk' g file) := by
  intro other
  cases succeeds : call.succeeds file with
  | true =>
    rw [LoadCall.writes_of_succeeds succeeds stored]
    by_cases same : other = file
    · subst same
      exact .inr (Function.update_self ..)
    · rw [Function.update_of_ne same]
      exact partly other
  | false =>
    rw [LoadCall.writes_of_fails succeeds kept]
    exact partly other

/-- A call leaves the directory as it was, or partly with what it has generated. -/
theorem DiskStep.partly (step : DiskStep disk e disk') (fails : WritesFail disk e.call) :
    disk' = disk ∨ ∃ g, e.generated = some g ∧ Partly g disk disk' := by
  have contract : ∀ {call : LoadCall} {g}, WritesFail disk call → ¬ Complete (call.reads disk) →
      call.fresh = some g → ∀ file disk', file ≠ .hostsJson → disk' file = disk file →
      Partly g disk disk' → Partly g disk (call.writes disk' g file) := by
    intro call g fails incomplete fresh file disk' used same partly
    obtain ⟨stored, kept⟩ := fails.writes g file (LoadCall.generates_fresh incomplete fresh) used
    exact partly.writes stored (same ▸ kept)
  cases step with
  | reused | refused => exact .inl rfl
  | certFails incomplete fresh =>
    exact .inr ⟨_, rfl, contract fails incomplete fresh _ _ nofun rfl fun _ => .inl rfl⟩
  | keyFails incomplete fresh =>
    have cert := contract fails incomplete fresh .clientCrt disk nofun rfl fun _ => .inl rfl
    exact .inr ⟨_, rfl,
      contract fails incomplete fresh .clientKey _ nofun (by simp [LoadCall.writes]) cert⟩
  | uidFails incomplete fresh | created incomplete fresh =>
    have cert := contract fails incomplete fresh .clientCrt disk nofun rfl fun _ => .inl rfl
    have key := contract fails incomplete fresh .clientKey _ nofun (by simp [LoadCall.writes]) cert
    exact .inr ⟨_, rfl,
      contract fails incomplete fresh .uniqueid _ nofun (by simp [LoadCall.writes]) key⟩

theorem Parts.step (parts : Parts first events disk) (step : DiskStep disk e disk')
    (fails : WritesFail disk e.call) : Parts first (events ++ [e]) disk' := by
  intro file used present
  have earlier : contents disk' file = contents disk file → ∃ identity,
      Generation first (events ++ [e]) identity ∧ contents disk' file = identityPart identity file := by
    intro same
    rw [same] at present ⊢
    obtain ⟨identity, generation, part⟩ := parts file used present
    exact ⟨identity, generation.later, part⟩
  rcases step.partly fails with rfl | ⟨g, generated, partly⟩
  · exact earlier rfl
  · rcases partly file with kept | replaced
    · exact earlier (congrArg (Option.getD · []) kept)
    · exact ⟨g, generation_snoc generated, congrArg (Option.getD · []) replaced⟩

/-- The first identity that is generated with none of the others' certificates and uniqueids. -/
def New (first : Identity) (events : List LoadEvent) (g : Identity) : Prop :=
  ∀ identity, Generation first events identity →
    identity.1.certPem ≠ g.1.certPem ∧ identity.2 ≠ g.2

/-- What a mixing call leaves is complete, with its own certificate and an older uniqueid. -/
theorem mixes (step : DiskStep disk e disk') (fails : WritesFail disk e.call)
    (mixed : ¬ Unmixed disk e.call) : ∃ g, e.generated = some g ∧ Complete (contents disk') ∧
      contents disk' .clientCrt = g.1.certPem ∧ contents disk' .uniqueid = contents disk .uniqueid := by
  simp only [Unmixed, not_forall] at mixed
  obtain ⟨generates, cert, mixed⟩ := mixed
  cases step with
  | reused complete => exact absurd (if_pos complete) generates
  | refused incomplete failed => exact absurd ((if_neg incomplete).trans failed) generates
  | certFails incomplete fresh failed =>
    rw [cert] at failed
    contradiction
  | @keyFails call g incomplete fresh _ key =>
    have generates := LoadCall.generates_fresh incomplete fresh
    have stored := (fails.writes _ .clientCrt generates nofun).1
    have kept := (fails.writes _ .clientKey generates nofun).2
    have there : contents disk .clientKey ≠ [] ∧ contents disk .uniqueid ≠ [] := by
      simpa [key] using mixed
    rw [LoadCall.writes_of_succeeds cert stored, LoadCall.writes_of_fails key (by simpa using kept)]
    have new := LoadCall.fresh_nonempty fresh
    refine ⟨g, rfl, ?_⟩
    simp [Complete, contents_update, there, new, identityPart]
  | @uidFails call g incomplete fresh _ key uid =>
    have generates := LoadCall.generates_fresh incomplete fresh
    have storedCert := (fails.writes _ .clientCrt generates nofun).1
    have storedKey := (fails.writes _ .clientKey generates nofun).1
    have kept := (fails.writes _ .uniqueid generates nofun).2
    have there : contents disk .uniqueid ≠ [] := by
      simpa [key, uid] using mixed
    rw [LoadCall.writes_of_succeeds cert storedCert, LoadCall.writes_of_succeeds key storedKey,
      LoadCall.writes_of_fails uid (by simpa using kept)]
    have new := LoadCall.fresh_nonempty fresh
    refine ⟨g, rfl, ?_⟩
    simp [Complete, contents_update, there, new, identityPart]
  | created _ _ _ key uid => simp [key, uid] at mixed

theorem parts_of_run {disk₀ : Disk} (starts : StartsFrom first disk₀)
    (run : Run (Restricted DiskStep fun disk e => WritesFail disk e.call) disk₀ events disk) :
    Parts first events disk := by
  refine run.history (Parts first) ?_ fun _ _ _ _ parts ⟨step, fails⟩ => parts.step step fails
  intro file used present
  exact ⟨first, .inl rfl, (starts file used).resolve_left present⟩

/-- A call without failures finds everything that is there. -/
theorem faultless_reads (made : Option ClientIdentity) (drawn : Option (BitVec 64)) (disk : Disk) :
    LoadCall.reads ⟨.faultless, made, drawn⟩ disk = contents disk := by
  funext file
  simp [LoadCall.reads, StoreFaults.faultless, contents]

theorem LoadCall.run_reused (call : LoadCall) {dir : Path} {files : StoreFiles}
    (complete : Complete (call.reads (storeDisk dir files))) :
    (call.run dir).run files = (some (assembled (call.reads (storeDisk dir files))), files) := by
  simp only [run, loadOrCreateIdentity, StoreFaults.files, StateT.run, bind, StateT.bind]
  exact congrFun (if_pos complete) files

/-- Over a complete directory a call without failures returns what is there. -/
theorem faultless_reuses {dir : Path} {files : StoreFiles}
    (complete : Complete (contents (storeDisk dir files))) : ∃ e, LoadStep dir files e files ∧
      e.call.faults = .faultless ∧ e.generated = none ∧
      e.result = some (assembled (contents (storeDisk dir files))) := by
  have reads := faultless_reads none none (storeDisk dir files)
  have step : LoadStep dir files _ _ := .call ⟨.faultless, none, none⟩ files
  have run := LoadCall.run_reused ⟨.faultless, none, none⟩ (by rwa [reads])
  rw [run, reads] at step
  exact ⟨_, step, rfl, if_pos (by rwa [reads]), rfl⟩

/-- After a call that mixes, the next one returns an identity of no generation. -/
theorem mixed_returned {dir : Path} {files files' : StoreFiles}
    (parts : Parts first events (storeDisk dir files)) (step : LoadStep dir files e files')
    (fails : WritesFail (storeDisk dir files) e.call)
    (mixed : ¬ Unmixed (storeDisk dir files) e.call)
    (new : ∀ g, e.generated = some g → New first events g) :
    ∃ e' files'' identity, LoadStep dir files' e' files'' ∧ e'.call.faults = .faultless ∧
      e'.result = some identity ∧ ¬ Generation first (events ++ [e] ++ [e']) identity := by
  obtain ⟨g, generated, complete, cert, uid⟩ := mixes step.onDisk fails mixed
  obtain ⟨e', next, faultless, reused, result⟩ := faultless_reuses complete
  refine ⟨e', _, _, next, faultless, result, ?_⟩
  have present : contents (storeDisk dir files) .uniqueid ≠ [] := uid ▸ complete.2.2
  obtain ⟨older, generation, part⟩ := parts .uniqueid nofun present
  have aged : ¬ Generation first events (assembled (contents (storeDisk dir files'))) :=
    fun known => (new g generated _ known).1 cert
  rintro (same | ⟨e'', member, made⟩)
  · exact aged (.inl same)
  · simp only [List.append_assoc, List.mem_append, List.cons_append,
      List.nil_append, List.mem_cons] at member
    rcases member with earlier | rfl | rfl | none
    · exact aged (.inr ⟨e'', earlier, made⟩)
    · have same := Option.some.inj (generated.symm.trans made)
      apply (new g generated older generation).2
      rw [same]
      exact (part.symm.trans uid.symm)
    · rw [reused] at made
      contradiction
    · contradiction

/-- Whatever a call returns is of one generation, as long as every call that fails after it has
replaced files leaves a set that is still incomplete. A call that does not leaves a mixed set, which
the next call returns. -/
theorem loads_one_generation_iff (dir : Path) (first : Identity) :
    (∀ files₀ events e files, StartsFrom first (storeDisk dir files₀) →
      Run (Restricted (LoadStep dir) fun files e => WritesFail (storeDisk dir files) e.call ∧
        Unmixed (storeDisk dir files) e.call) files₀ (events ++ [e]) files →
      ∀ identity, e.result = some identity → Generation first (events ++ [e]) identity) ∧
    ∀ files₀ events files e files', StartsFrom first (storeDisk dir files₀) →
      Run (Restricted (LoadStep dir) fun files e => WritesFail (storeDisk dir files) e.call) files₀
        events files →
      LoadStep dir files e files' → WritesFail (storeDisk dir files) e.call →
      ¬ Unmixed (storeDisk dir files) e.call → (∀ g, e.generated = some g → New first events g) →
      ∃ e' files'' identity, LoadStep dir files' e' files'' ∧ e'.call.faults = .faultless ∧
        e'.result = some identity ∧ ¬ Generation first (events ++ [e] ++ [e']) identity := by
  constructor
  · intro files₀ events e files starts run identity result
    obtain ⟨before, after, earlier, ⟨step, fails, unmixed⟩⟩ := run.taken
    have one := oneGeneration_of_run starts (loadRun_onDisk earlier)
    exact (one.step step.onDisk fails unmixed).2 identity result
  · intro files₀ events files e files' starts run step fails mixed new
    exact mixed_returned (parts_of_run starts (loadRun_onDisk run)) step fails mixed new

/-- An identity whose key is missing. -/
def halfIdentity : Identity := (⟨ascii "cert0", ascii "key0"⟩, ascii "uid0")

def halfFiles (p : Path) : Option Bytes :=
  if p = ascii "d/client.crt" then some (ascii "cert0")
  else if p = ascii "d/uniqueid" then some (ascii "uid0")
  else none

/-- The write of the uniqueid does not get through. -/
def uidFails : LoadCall where
  faults := ⟨fun _ => .whole,
    fun file => if file = .uniqueid then ⟨⟨false, false, none⟩, true, true, true⟩ else .faultless⟩
  made := some ⟨ascii "cert1", ascii "key1"⟩
  drawn := some 1

theorem mixed_identity_returned : ∃ g files files' identity,
    StartsFrom halfIdentity (storeDisk (ascii "d") halfFiles) ∧
      WritesFail (storeDisk (ascii "d") halfFiles) uidFails ∧
      LoadStep (ascii "d") halfFiles ⟨uidFails, some g, none⟩ files ∧
      LoadStep (ascii "d") files ⟨⟨.faultless, none, none⟩, none, some identity⟩ files' ∧
      identity.1 = g.1 ∧ identity.2 = halfIdentity.2 ∧
      ¬ Generation halfIdentity [⟨uidFails, some g, none⟩,
        ⟨⟨.faultless, none, none⟩, none, some identity⟩] identity := by
  refine ⟨(⟨ascii "cert1", ascii "key1"⟩, generateUniqueId (some 1)), _, _,
    (⟨ascii "cert1", ascii "key1"⟩, ascii "uid0"), ?_, ?_, .call uidFails halfFiles,
    .call ⟨.faultless, none, none⟩ _, rfl, rfl, ?_⟩
  · intro file used
    revert used
    cases file <;> decide
  · refine ⟨fun file _ => Input.gets_whole _, fun g file _ _ => ?_⟩
    have kept : ∀ faults : WriteFaults, faults.renames = true → faults.output.cut = none →
        ¬ faults.loses (identityPart g file) ∧
          ¬ faults.destroys (storeDisk (ascii "d") halfFiles file) := by
      intro faults renames uncut
      simp [WriteFaults.loses, WriteFaults.destroys, WriteFaults.replaces, renames, uncut, cutTo]
    by_cases uid : file = .uniqueid
    · exact kept _ (by simp [uidFails, uid]) (by simp [uidFails, uid])
    · exact kept _ (by simp [uidFails, uid, WriteFaults.faultless])
        (by simp [uidFails, uid, WriteFaults.faultless, Output.whole])
  · rintro (same | ⟨e, member, generated⟩)
    · exact absurd same (by decide)
    · simp only [List.mem_cons, List.not_mem_nil, or_false] at member
      rcases member with rfl | rfl
      · exact absurd generated (by decide)
      · contradiction

end StreamEngine.Net
