import StreamEngine.Net.IdentityGenerations

/-! An identity stays the same over all calls as long as no failure is taken for an absent file. A
read that fails and a file that is not there are the same to the code, so a call that cannot read
what is there generates another identity and writes it over the first. -/
namespace StreamEngine.Net
open ByteString FileSystem PosixPath Transition

/-- What is read is what is there, a call that cannot read a complete directory does not get to
replace a file, and a call that creates an identity stores all of it. -/
structure Steady (disk : Disk) (call : LoadCall) : Prop where
  whole : Complete (call.reads disk) →
    ∀ file, file ≠ .hostsJson → call.reads disk file = contents disk file
  stuck : ¬ Complete (call.reads disk) → Complete (contents disk) → call.fresh = none ∨
    call.succeeds .clientCrt = false ∧ ¬ (call.faults.writes .clientCrt).destroys (disk .clientCrt)
  stored : ¬ Complete (call.reads disk) → ¬ Complete (contents disk) →
    call.WritesAll → ∀ g, call.fresh = some g →
    ∀ file, file ≠ .hostsJson → ¬ (call.faults.writes file).loses (identityPart g file)

variable {g identity : Identity} {events : List LoadEvent} {e : LoadEvent} {disk disk' : Disk}
  {call : LoadCall} {file : StoreFile}

/-- Every call that has returned an identity returned the one that is there. -/
def Persisted (events : List LoadEvent) (disk : Disk) : Prop :=
  ∀ e ∈ events, ∀ identity, e.result = some identity →
    Complete (contents disk) ∧ assembled (contents disk) = identity

/-- Over a complete directory nothing changes, and a call returns what is there or fails. -/
theorem Steady.keeps (step : DiskStep disk e disk') (steady : Steady disk e.call)
    (complete : Complete (contents disk)) :
    disk' = disk ∧ ∀ identity, e.result = some identity → identity = assembled (contents disk) := by
  cases step with
  | reused read =>
    obtain ⟨-, same⟩ := assembled_congr (steady.whole read)
    refine ⟨rfl, ?_⟩
    rintro _ ⟨⟩
    exact same
  | refused => exact ⟨rfl, nofun⟩
  | certFails incomplete fresh cert =>
    rcases steady.stuck incomplete complete with failed | ⟨-, kept⟩
    · rw [fresh] at failed
      contradiction
    · exact ⟨LoadCall.writes_of_fails cert kept, nofun⟩
  | keyFails incomplete fresh cert | uidFails incomplete fresh cert
  | created incomplete fresh cert =>
    rcases steady.stuck incomplete complete with failed | ⟨failed, -⟩
    · rw [fresh] at failed
      contradiction
    · rw [cert] at failed
      contradiction

theorem complete_of_assembled {c : StoreFile → Bytes} (fresh : call.fresh = some g)
    (same : assembled c = g) : Complete c := by
  subst same
  exact call.fresh_nonempty fresh

theorem Persisted.step (persisted : Persisted events disk) (step : DiskStep disk e disk')
    (steady : Steady disk e.call) : Persisted (events ++ [e]) disk' := by
  intro e' member identity result
  by_cases complete : Complete (contents disk)
  · obtain ⟨rfl, same⟩ := steady.keeps step complete
    rcases List.mem_append.mp member with earlier | last
    · exact persisted e' earlier identity result
    · rw [List.mem_singleton.mp last] at result
      exact ⟨complete, (same identity result).symm⟩
  · -- No call has returned anything yet.
    rcases List.mem_append.mp member with earlier | last
    · exact absurd (persisted e' earlier identity result).1 complete
    · rw [List.mem_singleton.mp last] at result
      cases step with
      | reused read =>
        obtain ⟨same, -⟩ := assembled_congr (steady.whole read)
        exact absurd (same.mp read) complete
      | created incomplete fresh cert key uid =>
        cases result
        have stored := contents_created ⟨cert, key, uid⟩
          (steady.stored incomplete complete ⟨cert, key, uid⟩ _ fresh) disk
        exact ⟨complete_of_assembled fresh stored, stored⟩
      | _ => contradiction

theorem persisted_of_run {disk₀ : Disk}
    (run : Run (Restricted DiskStep fun disk e => Steady disk e.call) disk₀ events disk) :
    Persisted events disk :=
  run.history Persisted nofun fun _ _ _ _ persisted ⟨step, steady⟩ => persisted.step step steady

/-! ### A call that takes a failure for an absent file -/

/-- Two calls have returned different identities. -/
def Disagree (events : List LoadEvent) : Prop :=
  ∃ e ∈ events, ∃ e' ∈ events, ∃ identity identity', e.result = some identity ∧
    e'.result = some identity' ∧ identity ≠ identity'

theorem DiskStep.creates (step : DiskStep disk e disk') (incomplete : ¬ Complete (e.call.reads disk))
    (fresh : e.call.fresh = some g) (all : e.call.WritesAll) : e.result = some g ∧
      disk' = e.call.writes (e.call.writes (e.call.writes disk g .clientCrt) g .clientKey) g
        .uniqueid := by
  obtain ⟨cert, key, uid⟩ := all
  cases step with
  | reused complete => exact absurd complete incomplete
  | refused _ failed =>
    rw [fresh] at failed
    contradiction
  | certFails _ _ failed =>
    rw [cert] at failed
    contradiction
  | keyFails _ _ _ failed =>
    rw [key] at failed
    contradiction
  | uidFails _ _ _ _ failed =>
    rw [uid] at failed
    contradiction
  | created _ same =>
    cases fresh.symm.trans same
    exact ⟨rfl, rfl⟩

/-- What the next call without failures returns: the identity that is there, or another one. -/
theorem faultless_returns (dir : Path) (files : StoreFiles) (other : Identity) :
    ∃ e files' identity, LoadStep dir files e files' ∧ e.call.faults = .faultless ∧
      e.result = some identity ∧
      (identity = assembled (contents (storeDisk dir files)) ∨ identity ≠ other) := by
  by_cases complete : Complete (contents (storeDisk dir files))
  · obtain ⟨e, step, faultless, -, result⟩ := faultless_reuses complete
    exact ⟨e, files, _, step, faultless, result, .inl rfl⟩
  · have step : LoadStep dir files _ _ :=
      .call ⟨.faultless, some ⟨other.1.certPem ++ [0], [0]⟩, some 0⟩ files
    have fresh : LoadCall.fresh ⟨.faultless, some ⟨other.1.certPem ++ [0], [0]⟩, some 0⟩ =
        some (⟨other.1.certPem ++ [0], [0]⟩, generateUniqueId (some 0)) := by
      have made : generateIdentity (some ⟨other.1.certPem ++ [0], [0]⟩) =
          some ⟨other.1.certPem ++ [0], [0]⟩ := by simp [generateIdentity]
      simp only [LoadCall.fresh, made]
      exact if_neg (by decide)
    obtain ⟨result, -⟩ := step.onDisk.creates (by rwa [faultless_reads]) fresh ⟨rfl, rfl, rfl⟩
    refine ⟨_, _, _, step, rfl, result, .inr fun same => ?_⟩
    have longer := congrArg (fun identity : Identity => identity.1.certPem.length) same
    simp at longer

/-- Over a complete directory, an unsteady call returns or leaves something else. -/
theorem unsteady_replaces (step : DiskStep disk e disk') (unsteady : ¬ Steady disk e.call)
    (complete : Complete (contents disk))
    (new : ∀ g, e.generated = some g → ¬ contents disk .clientCrt <+: g.1.certPem) :
    (∃ identity, e.result = some identity ∧ identity ≠ assembled (contents disk)) ∨
      assembled (contents disk') ≠ assembled (contents disk) := by
  have renewed : ∀ g, e.generated = some g → ∀ cut,
      cutTo cut g.1.certPem ≠ contents disk .clientCrt :=
    fun g generated cut same => new g generated (same ▸ cutTo_prefix cut _)
  cases step with
  | @reused call read =>
    exact .inl ⟨_, rfl, fun same => unsteady ⟨fun _ => assembled_inj same, absurd read, absurd read⟩⟩
  | refused incomplete failed =>
    exact absurd ⟨fun read => absurd read incomplete, fun _ _ => .inl failed,
      fun _ absent => absurd complete absent⟩ unsteady
  | @certFails call g incomplete fresh cert =>
    -- The target has been removed.
    refine .inr fun same => unsteady ⟨fun read => absurd read incomplete, fun _ _ => .inr ⟨cert, ?_⟩,
      fun _ absent => absurd complete absent⟩
    rintro ⟨reports, stays, removes, -⟩
    have gone : contents (call.writes disk g .clientCrt) .clientCrt = [] := by
      have removes : (call.faults.writes .clientCrt).removes = true := removes
      simp [contents, LoadCall.writes, WriteFaults.leaves, reports, stays, removes]
    exact complete.1 (gone ▸ (assembled_inj same .clientCrt (by decide)).symm)
  | @keyFails call g incomplete fresh cert | @uidFails call g incomplete fresh cert =>
    refine .inr fun same => renewed g rfl (call.faults.writes .clientCrt).output.cut ?_
    rw [← assembled_inj same .clientCrt (by decide), LoadCall.writes_cut cert]
    simp [contents, LoadCall.writes, identityPart]
  | @created call g =>
    refine .inl ⟨g, rfl, fun same => renewed g rfl none ?_⟩
    exact congrArg (fun identity : Identity => identity.1.certPem) same

theorem LoadCall.reads_absent (absent : contents disk file = []) : call.reads disk file = [] := by
  cases opens : (call.faults.inputs file).opens <;> cases there : disk file with
  | none => simp [LoadCall.reads, Input.gets, opens, there]
  | some data =>
    have empty : data = [] := by simpa [contents, there] using absent
    cases cut : (call.faults.inputs file).cut <;>
      simp [LoadCall.reads, Input.gets, opens, there, empty, cut, cutTo]

/-- While a directory lacks a file, an unsteady call leaves something else than it returns. -/
theorem unsteady_loses (step : DiskStep disk e disk') (unsteady : ¬ Steady disk e.call)
    (lacks : ¬ Complete (contents disk)) :
    ∃ identity, e.result = some identity ∧ assembled (contents disk') ≠ identity := by
  have read : ¬ Complete (e.call.reads disk) := fun ⟨cert, key, uid⟩ => lacks
    ⟨mt LoadCall.reads_absent cert, mt LoadCall.reads_absent key, mt LoadCall.reads_absent uid⟩
  have stored : ¬ (e.call.WritesAll → ∀ g, e.call.fresh = some g → ∀ file, file ≠ .hostsJson →
      ¬ (e.call.faults.writes file).loses (identityPart g file)) :=
    fun stored => unsteady ⟨(absurd · read), fun _ complete => absurd complete lacks,
      fun _ _ => stored⟩
  simp only [not_forall] at stored
  obtain ⟨all, g, fresh, file, used, lost⟩ := stored
  obtain ⟨result, rfl⟩ := step.creates read fresh all
  refine ⟨g, result, fun same => ?_⟩
  have same : assembled _ = assembled (identityPart g) := same
  have part := assembled_inj same file used
  rw [contents_written all used] at part
  exact lost ((LoadCall.not_loses_iff (all.succeeds used) _).mpr part)

/-- An unsteady call comes to a disagreement between calls that see no failures. -/
theorem unsteady_disagrees {dir : Path} {files files' : StoreFiles} (step : LoadStep dir files e files')
    (unsteady : ¬ Steady (storeDisk dir files) e.call)
    (new : Complete (contents (storeDisk dir files)) → ∀ g, e.generated = some g →
      ¬ contents (storeDisk dir files) .clientCrt <+: g.1.certPem) :
    ∃ before after files'', Run (LoadStep dir) files (before ++ [e] ++ after) files'' ∧
      (∀ e' ∈ before ++ after, e'.call.faults = .faultless) ∧ Disagree (before ++ [e] ++ after) := by
  by_cases complete : Complete (contents (storeDisk dir files))
  · obtain ⟨e₀, first, faultless₀, -, result₀⟩ := faultless_reuses complete
    obtain ⟨e₁, files₁, last, next, faultless₁, result₁, left⟩ :=
      faultless_returns dir files' (assembled (contents (storeDisk dir files)))
    have run : Run (LoadStep dir) files ([] ++ [e₀] ++ [e] ++ [e₁]) files₁ :=
      .next (.next (.next .start first) step) next
    refine ⟨[e₀], [e₁], files₁, run, by simp [faultless₀, faultless₁], ?_⟩
    rcases unsteady_replaces step.onDisk unsteady complete (new complete) with
      ⟨identity, result, different⟩ | replaced
    · exact ⟨e, by simp, e₀, by simp, identity, _, result, result₀, different⟩
    · have different : last ≠ assembled (contents (storeDisk dir files)) := by
        rcases left with rfl | different
        · exact replaced
        · exact different
      exact ⟨e₁, by simp, e₀, by simp, last, _, result₁, result₀, different⟩
  · obtain ⟨identity, result, lost⟩ := unsteady_loses step.onDisk unsteady complete
    obtain ⟨e₁, files₁, last, next, faultless₁, result₁, left⟩ :=
      faultless_returns dir files' identity
    have run : Run (LoadStep dir) files ([] ++ [e] ++ [e₁]) files₁ :=
      .next (.next .start step) next
    refine ⟨[], [e₁], files₁, run, by simp [faultless₁], e₁, by simp, e, by simp, last, identity,
      result₁, result, ?_⟩
    rcases left with rfl | different
    · exact lost
    · exact different

/-- All calls that return an identity return the same one, and none replaces the one that is there,
as long as each is steady. A call that is not comes to two calls that return different ones, unless
what it generates begins with the certificate it replaces. -/
theorem loads_agree_iff (dir : Path) :
    (∀ files₀ events files,
      Run (Restricted (LoadStep dir) fun files e => Steady (storeDisk dir files) e.call) files₀ events
        files →
      ∀ e ∈ events, ∀ e' ∈ events, ∀ identity identity', e.result = some identity →
        e'.result = some identity' → identity' = identity) ∧
    (∀ files e files', LoadStep dir files e files' → Steady (storeDisk dir files) e.call →
      Complete (contents (storeDisk dir files)) →
      storeDisk dir files' = storeDisk dir files ∧ ∀ identity, e.result = some identity →
        identity = assembled (contents (storeDisk dir files))) ∧
    ∀ files e files', LoadStep dir files e files' → ¬ Steady (storeDisk dir files) e.call →
      (Complete (contents (storeDisk dir files)) → ∀ g, e.generated = some g →
        ¬ contents (storeDisk dir files) .clientCrt <+: g.1.certPem) →
      ∃ before after files'', Run (LoadStep dir) files (before ++ [e] ++ after) files'' ∧
        (∀ e' ∈ before ++ after, e'.call.faults = .faultless) ∧
        Disagree (before ++ [e] ++ after) := by
  refine ⟨?_, ?_, ?_⟩
  · intro files₀ events files run e member e' member' identity identity' result result'
    have persisted := persisted_of_run (loadRun_onDisk run)
    exact (persisted e' member' identity' result').2.symm.trans (persisted e member identity result).2
  · intro files e files' step steady complete
    exact steady.keeps step.onDisk complete
  · intro files e files' step unsteady new
    exact unsteady_disagrees step unsteady new

/-- The certificate is there and cannot be opened. -/
def certUnreadable : LoadCall where
  faults := ⟨fun file => if file = .clientCrt then ⟨false, none⟩ else .whole, fun _ => .faultless⟩
  made := some ⟨ascii "cert2", ascii "key2"⟩
  drawn := some 2

/-- An identity is created, and the next call replaces it. -/
theorem unreadable_replaced : ∃ events files,
    Run (LoadStep (ascii "d")) (fun _ => none) events files ∧ Disagree events := by
  have created : LoadStep (ascii "d") (fun _ => none) _ _ :=
    .call ⟨.faultless, some ⟨ascii "cert1", ascii "key1"⟩, some 1⟩ _
  have replaced := Run.next (.next .start created) (.call certUnreadable _)
  refine ⟨_, _, replaced, _, List.mem_cons_self, _, List.mem_cons_of_mem _ List.mem_cons_self,
    (⟨ascii "cert1", ascii "key1"⟩, generateUniqueId (some 1)),
    (⟨ascii "cert2", ascii "key2"⟩, generateUniqueId (some 2)), rfl, rfl, by decide⟩

end StreamEngine.Net
