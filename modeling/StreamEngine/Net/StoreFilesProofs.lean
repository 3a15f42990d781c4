import StreamEngine.Library.Refinement
import StreamEngine.Net.IdentityStoreProofs
import StreamEngine.Net.StoreFiles

/-! What `write_file` does to its target under any failures. Its success does not cover the
flush when the temporary file is closed, and the fallback has no target to go back to. -/
namespace StreamEngine.Net
open ByteString FileSystem PosixPath Refinement

namespace WriteFaults
variable (faults : WriteFaults) (data : Bytes) (previous : Option Bytes)

/-- A rename gets the temporary file to the target. -/
def replaces : Prop := faults.renames = true ∨ faults.renamesAgain = true

instance : Decidable faults.replaces :=
  inferInstanceAs (Decidable (faults.renames = true ∨ faults.renamesAgain = true))

/-- The result of `write_file`. -/
def succeeds : Bool := faults.output.reports && decide faults.replaces

/-- What `write_file` leaves in its target. -/
def leaves : Option Bytes :=
  if faults.output.reports = false then previous
  else if faults.replaces then some (cutTo faults.output.cut data)
  else if faults.removes then none else previous

/-- The temporary file that is renamed has lost data at its flush. -/
def loses : Prop :=
  faults.output.reports = true ∧ faults.replaces ∧ cutTo faults.output.cut data ≠ data

/-- The target is removed, and the second rename fails too. -/
def destroys : Prop :=
  faults.output.reports = true ∧ ¬ faults.replaces ∧ faults.removes = true ∧ previous ≠ none

end WriteFaults

variable (faults : WriteFaults) (data : Bytes) (previous : Option Bytes)

theorem tmpPath_ne (p : Path) : p ≠ tmpPath p := by
  intro same
  have longer := congrArg List.length same
  simp [tmpPath, ascii] at longer

/-- The temporary file replaces the target if a rename goes through; otherwise the target may have
been removed. -/
theorem run_replaceBy {p : Path} {files : StoreFiles} {written : Bytes}
    (there : files (tmpPath p) = some written) :
    ∃ left, (do
        if ← rename (tmpPath p) p faults.renames then return true
        else
          let _ ← remove p faults.removes
          rename (tmpPath p) p faults.renamesAgain : StateM StoreFiles Bool).run files =
            (decide faults.replaces, left) ∧
      left p = (if faults.replaces then some written
        else if faults.removes then none else files p) ∧
      ∀ q, q ≠ p → q ≠ tmpPath p → left q = files q := by
  have other := tmpPath_ne p
  have present : files (tmpPath p) ≠ none := by simp [there]
  have first := run_rename (tmpPath p) p faults.renames present
  rw [run_bind_of first]
  cases renames : faults.renames with
  | true =>
    refine ⟨_, by simp [WriteFaults.replaces, renames]; rfl, ?_⟩
    simp +contextual [WriteFaults.replaces, renames, there, other]
  | false =>
    generalize removed : (if faults.removes = true then Function.update files p none else files) = files'
    have gone : (remove p faults.removes).run files = (faults.removes, files') := by
      rw [run_remove, removed]
    have target : files' p = if faults.removes = true then none else files p := by
      rw [← removed]
      split <;> simp
    have kept : ∀ q, q ≠ p → files' q = files q := by
      intro q distinct
      rw [← removed]
      split <;> simp [distinct]
    have there' : files' (tmpPath p) = some written := (kept _ other.symm).trans there
    have present' : files' (tmpPath p) ≠ none := by simp [there']
    have second := run_rename (tmpPath p) p faults.renamesAgain present'
    refine ⟨_, by simp [WriteFaults.replaces, renames, run_bind_of gone, second]; rfl, ?_⟩
    cases again : faults.renamesAgain with
    | true => simp +contextual [WriteFaults.replaces, again, there', other, kept]
    | false => simpa +contextual [WriteFaults.replaces, renames, again, kept] using target

/-- `write_file` decides by its steps alone, and touches its target and the temporary file. -/
theorem writeFile_spec (p : Path) (files : StoreFiles) :
    ((writeFile faults p data).run files).1 = faults.succeeds ∧
      ((writeFile faults p data).run files).2 p = faults.leaves data (files p) ∧
      ∀ q, q ≠ p → q ≠ tmpPath p → ((writeFile faults p data).run files).2 q = files q := by
  have other := tmpPath_ne p
  generalize written :
    Function.update files (tmpPath p) (faults.output.leaves data (files (tmpPath p))) = files'
  have kept : ∀ q, q ≠ tmpPath p → files' q = files q := by
    intro q distinct
    rw [← written, Function.update_of_ne distinct]
  have stream : (writeStream (tmpPath p) data faults.output).run files =
      (faults.output.reports, files') := by rw [run_writeStream, written]
  cases reports : faults.output.reports with
  | false =>
    have run : (writeFile faults p data).run files = (false, files') := by
      rw [writeFile, run_bind_of stream, if_pos reports]
      rfl
    rw [run, WriteFaults.succeeds, WriteFaults.leaves, reports]
    exact ⟨rfl, by simpa using kept p other, fun q _ distinct => kept q distinct⟩
  | true =>
    obtain ⟨opens, -⟩ : faults.output.opens = true ∧ faults.output.good = true := by
      simpa [Output.reports] using reports
    have there : files' (tmpPath p) = some (cutTo faults.output.cut data) := by
      rw [← written, Function.update_self, Output.leaves, if_pos opens]
    obtain ⟨left, run, target, others⟩ := run_replaceBy faults there
    have good : ¬ faults.output.reports = false := by simp [reports]
    rw [writeFile, run_bind_of stream, if_neg (by simp [reports]), run]
    refine ⟨?_, target.trans ?_, fun q distinct distinct' => ?_⟩
    · simp [WriteFaults.succeeds, reports]
    · rw [WriteFaults.leaves, if_neg good, kept p other]
    · exact (others q distinct distinct').trans (kept q distinct')

/-- The contract of `write_file`, for one pattern of failures. -/
def WriteContract (p : Path) (files : StoreFiles) : Prop :=
  (((writeFile faults p data).run files).1 = true →
    ((writeFile faults p data).run files).2 p = some data) ∧
  (((writeFile faults p data).run files).1 = false →
    ((writeFile faults p data).run files).2 p = files p)

theorem WriteFaults.leaves_of_succeeds {faults : WriteFaults} {data : Bytes}
    {previous : Option Bytes} (succeeds : faults.succeeds = true) :
    faults.leaves data previous = some data ↔ ¬ faults.loses data := by
  simp only [WriteFaults.succeeds, Bool.and_eq_true, decide_eq_true_eq] at succeeds
  simp [WriteFaults.leaves, WriteFaults.loses, succeeds]

theorem WriteFaults.leaves_of_fails {faults : WriteFaults} {data : Bytes}
    {previous : Option Bytes} (fails : faults.succeeds = false) :
    faults.leaves data previous = previous ↔ ¬ faults.destroys previous := by
  simp only [WriteFaults.succeeds, Bool.and_eq_false_iff, decide_eq_false_iff_not] at fails
  rcases fails with unreported | stuck
  · simp [WriteFaults.leaves, WriteFaults.destroys, unreported]
  · cases reports : faults.output.reports <;> cases removes : faults.removes <;>
      simp [WriteFaults.leaves, WriteFaults.destroys, stuck, reports, removes, eq_comm]

theorem writeContract_iff (p : Path) (files : StoreFiles) :
    WriteContract faults data p files ↔ ¬ faults.loses data ∧ ¬ faults.destroys (files p) := by
  obtain ⟨result, target, -⟩ := writeFile_spec faults data p files
  rw [WriteContract, result, target]
  cases succeeds : faults.succeeds with
  | true =>
    have replaced : ¬ faults.destroys (files p) := by
      rintro ⟨-, stuck, -⟩
      simp [WriteFaults.succeeds, stuck] at succeeds
    simp [WriteFaults.leaves_of_succeeds succeeds, replaced]
  | false =>
    have unreported : ¬ faults.loses data := by
      rintro ⟨reports, replaces, -⟩
      simp [WriteFaults.succeeds, reports, replaces] at succeeds
    simp [WriteFaults.leaves_of_fails succeeds, unreported]

/-! ### The registry -/

/-- The records as a call reads them. -/
def StoreFaults.hosts (faults : StoreFaults) (dir : Path) (files : StoreFiles) : List PairedHost :=
  decodeHosts ((faults.inputs .hostsJson).gets (files (storePath dir .hostsJson)))

/-- A failed call leaves the registry's file as it was. -/
def KeepsRegistry (call : StateM StoreFiles Bool) (dir : Path) (files : StoreFiles) : Prop :=
  (call.run files).1 = false →
    (call.run files).2 (storePath dir .hostsJson) = files (storePath dir .hostsJson)

theorem keepsRegistry_write (faults : StoreFaults) (dir : Path) (hosts : List PairedHost)
    (files : StoreFiles) : KeepsRegistry (writeHosts (faults.files dir) hosts) dir files ↔
      ¬ (faults.writes .hostsJson).destroys (files (storePath dir .hostsJson)) := by
  have contract := writeFile_spec (faults.writes .hostsJson) (encodeHosts hosts)
    (storePath dir .hostsJson) files
  have write : writeHosts (faults.files dir) hosts = writeFile (faults.writes .hostsJson)
    (storePath dir .hostsJson) (encodeHosts hosts) := rfl
  rw [KeepsRegistry, write, contract.1, contract.2.1]
  cases succeeds : (faults.writes .hostsJson).succeeds with
  | true =>
    have replaced : (faults.writes .hostsJson).replaces := by
      simp only [WriteFaults.succeeds, Bool.and_eq_true, decide_eq_true_eq] at succeeds
      exact succeeds.2
    simp [WriteFaults.destroys, replaced]
  | false => simp [WriteFaults.leaves_of_fails succeeds]

theorem keepsRegistry_upsert (faults : StoreFaults) (dir : Path) (host : PairedHost)
    (files : StoreFiles) : KeepsRegistry (upsertHost (faults.files dir) host) dir files ↔
      host.address = [] ∨
        ¬ (faults.writes .hostsJson).destroys (files (storePath dir .hostsJson)) := by
  by_cases empty : host.address = []
  · have refused : (upsertHost (faults.files dir) host).run files = (false, files) := by
      rw [upsertHost, if_pos empty]
      rfl
    simp [KeepsRegistry, refused, empty]
  · have written : (upsertHost (faults.files dir) host).run files =
        (writeHosts (faults.files dir)
          (KeyedList.put PairedHost.address host (faults.hosts dir files))).run files := by
      rw [upsertHost, if_neg empty]
      rfl
    simp only [KeepsRegistry, written]
    simpa [empty, KeepsRegistry] using keepsRegistry_write faults dir _ files

theorem keepsRegistry_remove (faults : StoreFaults) (dir : Path) (address : Bytes)
    (files : StoreFiles) : KeepsRegistry (removeHost (faults.files dir) address) dir files ↔
      KeyedList.drop PairedHost.address address (faults.hosts dir files) = faults.hosts dir files ∨
        ¬ (faults.writes .hostsJson).destroys (files (storePath dir .hostsJson)) := by
  have run : (removeHost (faults.files dir) address).run files =
      (if (KeyedList.drop PairedHost.address address (faults.hosts dir files)).length =
          (faults.hosts dir files).length then (pure false : StateM StoreFiles Bool)
        else writeHosts (faults.files dir)
          (KeyedList.drop PairedHost.address address (faults.hosts dir files))).run files := rfl
  by_cases same : (KeyedList.drop PairedHost.address address (faults.hosts dir files)).length =
      (faults.hosts dir files).length
  · rw [if_pos same] at run
    have kept := List.filter_sublist.eq_of_length same
    simp only [KeepsRegistry, run]
    exact iff_of_true (fun _ => rfl) (.inl kept)
  · rw [if_neg same] at run
    simp only [KeepsRegistry, run]
    have changed : KeyedList.drop PairedHost.address address (faults.hosts dir files) ≠
        faults.hosts dir files := fun kept => same (congrArg List.length kept)
    simpa [changed, KeepsRegistry] using keepsRegistry_write faults dir _ files

/-- `write_file` keeps its word except when a renamed file has lost data at its flush, or when
the fallback has removed the target and cannot rename. A failed call of the store changes the
registry in the second case alone, once it gets to the write. -/
theorem write_file_iff (p : Path) (files : StoreFiles) (calls : StoreFaults) (dir : Path) :
    (WriteContract faults data p files ↔ ¬ faults.loses data ∧ ¬ faults.destroys (files p)) ∧
      (∀ host, KeepsRegistry (upsertHost (calls.files dir) host) dir files ↔ host.address = [] ∨
        ¬ (calls.writes .hostsJson).destroys (files (storePath dir .hostsJson))) ∧
      ∀ address, KeepsRegistry (removeHost (calls.files dir) address) dir files ↔
        KeyedList.drop PairedHost.address address (calls.hosts dir files) = calls.hosts dir files ∨
          ¬ (calls.writes .hostsJson).destroys (files (storePath dir .hostsJson)) :=
  ⟨writeContract_iff faults data p files, fun host => keepsRegistry_upsert calls dir host files,
    fun address => keepsRegistry_remove calls dir address files⟩

/-- The disk is full when the temporary file is flushed, and the rename goes through. -/
def lostFlush : WriteFaults := ⟨⟨true, true, some 0⟩, true, true, true⟩

/-- Neither rename goes through. -/
def lostTarget : WriteFaults := ⟨.whole, false, true, false⟩

/-- A file that is reported as written stays empty, and a failed upsert removes the registry. -/
theorem write_file_breaks :
    ¬ WriteContract lostFlush (ascii "[]") (ascii "hosts.json") (fun _ => none) ∧
      ¬ KeepsRegistry
        (upsertHost (StoreFaults.files ⟨fun _ => .whole, fun _ => lostTarget⟩ (ascii "store"))
          ⟨ascii "host", [], []⟩) (ascii "store") fun _ => some (ascii "[]") := by
  constructor
  · rintro ⟨reported, -⟩
    exact absurd (reported (by decide)) (by decide)
  · have removed : lostTarget.destroys (some (ascii "[]")) :=
      ⟨rfl, by decide, rfl, nofun⟩
    rw [keepsRegistry_upsert]
    rintro (empty | kept)
    · exact absurd empty (by decide)
    · exact kept removed

end StreamEngine.Net
