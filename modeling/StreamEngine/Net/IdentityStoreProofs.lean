import StreamEngine.Json.Build
import StreamEngine.Library.Hoare
import StreamEngine.Net.IdentityStore

/-! The paired-host registry is a map from addresses. Every operation reads the whole
file, edits the records and writes them back, so the map laws rest on the codec
returning exactly the records that were written. -/
namespace StreamEngine.Net
open ByteString Json Hoare

/-! ### The registry codec -/

theorem encodeHost_codable (h : PairedHost) : (encodeHost h).Codable :=
  ((Value.codable_obj.set _ (Value.codable_str _)).set _ (Value.codable_str _)).set _
    (Value.codable_str _)

theorem decodeHost_encodeHost {h : PairedHost} (addressed : h.address ≠ []) :
    decodeHost (encodeHost h) = some h := by
  have address : (encodeHost h).getStr (ascii "address") [] = h.address := rfl
  have name : (encodeHost h).getStr (ascii "name") [] = h.name := rfl
  have cert : (encodeHost h).getStr (ascii "serverCert") [] = h.serverCertPem := rfl
  have object : (encodeHost h).isObject = true := rfl
  simp [decodeHost, address, name, cert, object, addressed]

theorem parse_encodeHosts (hosts : List PairedHost) :
    parse (encodeHosts hosts) = some (.arr (hosts.map encodeHost)) := by
  refine (Value.codable_arr fun v member => ?_).parse_dump
  obtain ⟨h, -, rfl⟩ := List.mem_map.mp member
  exact encodeHost_codable h

def Addressed (hosts : List PairedHost) : Prop := ∀ h ∈ hosts, h.address ≠ []

theorem filterMap_decodeHost {hosts : List PairedHost} (addressed : Addressed hosts) :
    (hosts.map encodeHost).filterMap decodeHost = hosts := by
  induction hosts with
  | nil => rfl
  | cons h hosts ih =>
    rw [List.map_cons, List.filterMap_cons,
      decodeHost_encodeHost (addressed h List.mem_cons_self),
      ih fun h' member => addressed h' (List.mem_cons_of_mem _ member)]

/-- What is read back is what was written. -/
theorem decodeHosts_encodeHosts {hosts : List PairedHost} (addressed : Addressed hosts) :
    decodeHosts (some (encodeHosts hosts)) = hosts := by
  simp only [decodeHosts, Option.bind_some, parse_encodeHosts, filterMap_decodeHost addressed]

theorem decodeHosts_addressed (content : Option Bytes) : Addressed (decodeHosts content) := by
  intro h member
  unfold decodeHosts at member
  split at member
  · obtain ⟨v, -, decoded⟩ := List.mem_filterMap.mp member
    simp only [decodeHost] at decoded
    split at decoded
    · split at decoded
      · contradiction
      · rename_i addressed
        cases decoded
        exact addressed
    · contradiction
  · simp at member

theorem Addressed.put {hosts : List PairedHost} (addressed : Addressed hosts) {h : PairedHost}
    (here : h.address ≠ []) : Addressed (KeyedList.put PairedHost.address h hosts) := by
  intro h' member empty
  rcases KeyedList.mem_put_keys (List.mem_map_of_mem member) with same | earlier
  · exact here (same ▸ empty)
  · obtain ⟨h'', member'', same⟩ := List.mem_map.mp earlier
    exact addressed h'' member'' (same.trans empty)

theorem Addressed.drop {hosts : List PairedHost} (addressed : Addressed hosts) (address : Bytes) :
    Addressed (KeyedList.drop PairedHost.address address hosts) :=
  fun h member => addressed h (List.mem_of_mem_filter member)

/-! ### Contents of the file after an operation -/

def upserted (host : PairedHost) (content : Option Bytes) : Option Bytes :=
  if host.address = [] then content
  else some (encodeHosts (KeyedList.put PairedHost.address host (decodeHosts content)))

def removed (address : Bytes) (content : Option Bytes) : Option Bytes :=
  let kept := KeyedList.drop PairedHost.address address (decodeHosts content)
  if kept.length = (decodeHosts content).length then content else some (encodeHosts kept)

theorem decodeHosts_upserted {host : PairedHost} (addressed : host.address ≠ [])
    (content : Option Bytes) :
    decodeHosts (upserted host content) =
      KeyedList.put PairedHost.address host (decodeHosts content) := by
  rw [upserted, if_neg addressed]
  exact decodeHosts_encodeHosts ((decodeHosts_addressed content).put addressed)

theorem decodeHosts_removed (address : Bytes) (content : Option Bytes) :
    decodeHosts (removed address content) =
      KeyedList.drop PairedHost.address address (decodeHosts content) := by
  simp only [removed]
  split
  · rename_i same
    exact (List.filter_sublist.eq_of_length same).symm
  · exact decodeHosts_encodeHosts ((decodeHosts_addressed content).drop address)

section Store
variable {σ : Type} {Holds : Option Bytes → σ → Prop} {hung : σ → Prop}
  {files : FileOps (OptionT (StateM σ))}
  (reads : ∀ content, Triple (Holds content) (files.readFile .hostsJson)
    (fun read s => read = content ∧ Holds content s) hung)
  (writes : ∀ content data, Triple (Holds content) (files.writeFile .hostsJson data)
    (fun ok s => ok = true ∧ Holds (some data) s) hung)

include reads in
theorem readHosts_spec (content : Option Bytes) :
    Triple (Holds content) (readHosts files)
      (fun hosts s => hosts = decodeHosts content ∧ Holds content s) hung :=
  triple_bind (reads content) fun _ => triple_pure fun _ held => ⟨held.1 ▸ rfl, held.2⟩

include reads in
theorem findHost_spec (content : Option Bytes) (address : Bytes) :
    Triple (Holds content) (findHost files address)
      (fun found s => found = KeyedList.lookup PairedHost.address address (decodeHosts content) ∧
        Holds content s) hung :=
  triple_bind (readHosts_spec reads content) fun _ =>
    triple_pure fun _ held => ⟨held.1 ▸ rfl, held.2⟩

include reads writes in
theorem upsertHost_spec (content : Option Bytes) (host : PairedHost) :
    Triple (Holds content) (upsertHost files host)
      (fun ok s => ok = decide (host.address ≠ []) ∧ Holds (upserted host content) s) hung := by
  refine triple_ite (fun empty => ?_) fun addressed => ?_
  · exact triple_pure fun s held => ⟨by simp [empty], by rwa [upserted, if_pos empty]⟩
  · refine triple_bind (readHosts_spec reads content) fun hosts => triple_assume fun same => ?_
    refine triple_weaken (writes content _) (fun _ held => held) fun ok s held => ?_
    rw [upserted, if_neg addressed, ← same]
    exact ⟨by simp [held.1, addressed], held.2⟩

include reads writes in
theorem removeHost_spec (content : Option Bytes) (address : Bytes) :
    Triple (Holds content) (removeHost files address)
      (fun _ s => Holds (removed address content) s) hung := by
  refine triple_bind (readHosts_spec reads content) fun hosts => triple_assume fun same => ?_
  subst same
  refine triple_ite (fun unchanged => ?_) fun changed => ?_
  · exact triple_pure fun s held => by simpa only [removed, if_pos unchanged] using held
  · refine triple_weaken (writes content _) (fun _ held => held) fun ok s held => ?_
    simpa only [removed, if_neg changed] using held.2

end Store

/-! ### Sequences of operations -/

/-- The store directory when no file operation fails. -/
abbrev Disk := StoreFile → Option Bytes

def diskFiles : FileOps (OptionT (StateM Disk)) where
  readFile file := do return (← get) file
  writeFile file data := do
    modify fun disk => Function.update disk file (some data)
    return true

inductive HostOp where
  | upsert (host : PairedHost)
  | remove (address : Bytes)
  | find (address : Bytes)
  | list

namespace HostOp

def perform : HostOp → OptionT (StateM Disk) Unit
  | .upsert host => do let _ ← upsertHost diskFiles host
  | .remove address => do let _ ← removeHost diskFiles address
  | .find address => do let _ ← findHost diskFiles address
  | .list => do let _ ← listHosts diskFiles

/-- The edit of the registry that an operation stands for. -/
def edit? : HostOp → Option (KeyedList.Edit PairedHost Bytes)
  | .upsert host => if host.address = [] then none else some (.put host)
  | .remove address => some (.drop address)
  | .find _ | .list => none

def touches (address : Bytes) : HostOp → Prop
  | .upsert host => host.address = address
  | .remove address' => address' = address
  | .find _ | .list => False

end HostOp

def performAll : List HostOp → OptionT (StateM Disk) Unit
  | [] => pure ()
  | op :: ops => do
    op.perform
    performAll ops

/-- The disk holds this registry file. -/
def HoldsHosts (content : Option Bytes) (disk : Disk) : Prop := disk .hostsJson = content

theorem diskFiles_read (content : Option Bytes) : Triple (HoldsHosts content)
    (diskFiles.readFile .hostsJson) (fun read disk => read = content ∧ HoldsHosts content disk)
    fun _ => False :=
  fun disk held => Or.inl ⟨disk .hostsJson, rfl, held, held⟩

theorem diskFiles_write (content : Option Bytes) (data : Bytes) : Triple (HoldsHosts content)
    (diskFiles.writeFile .hostsJson data) (fun ok disk => ok = true ∧ HoldsHosts (some data) disk)
    fun _ => False :=
  fun _ _ => Or.inl ⟨true, rfl, rfl, by rfl⟩

theorem perform_spec (content : Option Bytes) (op : HostOp) :
    Triple (HoldsHosts content) op.perform (fun _ disk =>
      decodeHosts (disk .hostsJson) =
        op.edit?.toList.foldl (KeyedList.Edit.apply PairedHost.address) (decodeHosts content))
      fun _ => False := by
  cases op with
  | upsert host =>
    refine triple_bind (upsertHost_spec diskFiles_read diskFiles_write content host) fun _ =>
      triple_pure fun disk held => ?_
    rw [held.2]
    by_cases empty : host.address = []
    · simp [HostOp.edit?, upserted, empty]
    · simp [HostOp.edit?, empty, decodeHosts_upserted, KeyedList.Edit.apply]
  | remove address =>
    refine triple_bind (removeHost_spec diskFiles_read diskFiles_write content address) fun _ =>
      triple_pure fun disk held => ?_
    rw [held]
    exact decodeHosts_removed address content
  | find address =>
    refine triple_bind (findHost_spec diskFiles_read content address) fun _ =>
      triple_pure fun disk held => ?_
    rw [held.2]
    rfl
  | list =>
    refine triple_bind (readHosts_spec diskFiles_read content) fun _ =>
      triple_pure fun disk held => ?_
    rw [held.2]
    rfl

/-- A sequence of operations edits the registry by their edits, in order. -/
theorem performAll_spec (ops : List HostOp) (disk : Disk) :
    ∃ disk', exec (performAll ops) disk = (some (), disk') ∧
      decodeHosts (disk' .hostsJson) =
        (ops.filterMap HostOp.edit?).foldl (KeyedList.Edit.apply PairedHost.address)
          (decodeHosts (disk .hostsJson)) := by
  induction ops generalizing disk with
  | nil => exact ⟨disk, rfl, rfl⟩
  | cons op ops ih =>
    obtain ⟨_, value, edited⟩ | ⟨-, impossible⟩ := perform_spec (disk .hostsJson) op disk rfl
    · obtain ⟨disk', run, final⟩ := ih (exec op.perform disk).2
      refine ⟨disk', ?_, ?_⟩
      · have first : exec op.perform disk = (some (), (exec op.perform disk).2) :=
          Prod.ext value rfl
        rw [performAll, exec_bind, first]
        exact run
      · rw [final, edited, ← List.foldl_append]
        cases edit : op.edit? with
        | none => rw [List.filterMap_cons_none edit]; rfl
        | some e => rw [List.filterMap_cons_some edit]; rfl
    · exact impossible.elim

/-- `find_host` returns this and changes nothing. -/
def Finds (disk : Disk) (address : Bytes) (found : Option PairedHost) : Prop :=
  exec (findHost diskFiles address) disk = (some found, disk)

def Lists (disk : Disk) (hosts : List PairedHost) : Prop :=
  exec (listHosts diskFiles) disk = (some hosts, disk)

theorem finds_iff {disk : Disk} {address : Bytes} {found : Option PairedHost} :
    Finds disk address found ↔
      KeyedList.lookup PairedHost.address address (decodeHosts (disk .hostsJson)) = found := by
  have run : exec (findHost diskFiles address) disk =
      (some (KeyedList.lookup PairedHost.address address (decodeHosts (disk .hostsJson))), disk) :=
    rfl
  simp [Finds, run]

theorem lists_iff {disk : Disk} {hosts : List PairedHost} :
    Lists disk hosts ↔ decodeHosts (disk .hostsJson) = hosts := by
  have run : exec (listHosts diskFiles) disk = (some (decodeHosts (disk .hostsJson)), disk) := rfl
  simp [Lists, run]

/-- What the operations in between make of the registry on the first disk. -/
structure MapLaw (disk disk' : Disk) (ops : List HostOp) : Prop where
  last_upsert : ∀ before host after, ops = before ++ .upsert host :: after → host.address ≠ [] →
    (∀ op ∈ after, ¬ op.touches host.address) → Finds disk' host.address (some host)
  last_remove : ∀ before address after, ops = before ++ .remove address :: after →
    address ≠ [] → (∀ op ∈ after, ¬ op.touches address) → Finds disk' address none
  untouched : ∀ address hosts, address ≠ [] → (∀ op ∈ ops, ¬ op.touches address) →
    Lists disk hosts → Finds disk' address (hosts.find? fun host => host.address = address)
  frame : ∀ address found, (∀ op ∈ ops, ¬ op.touches address) → Finds disk address found →
    Finds disk' address found
  distinct : ∀ hosts hosts', Lists disk hosts → Lists disk' hosts' →
    (hosts.map PairedHost.address).Nodup → (hosts'.map PairedHost.address).Nodup

theorem edits_untouched {ops : List HostOp} {address : Bytes}
    (untouched : ∀ op ∈ ops, ¬ op.touches address) :
    ∀ e ∈ ops.filterMap HostOp.edit?, e.touches PairedHost.address ≠ address := by
  intro e member same
  obtain ⟨op, inOps, edit⟩ := List.mem_filterMap.mp member
  apply untouched op inOps
  cases op with
  | upsert host =>
    simp only [HostOp.edit?] at edit
    split at edit
    · contradiction
    · cases edit
      exact same
  | remove address' =>
    cases edit
    exact same
  | find _ => contradiction
  | list => contradiction

theorem performAll_mapLaw (ops : List HostOp) (disk : Disk) :
    ∃ disk', exec (performAll ops) disk = (some (), disk') ∧ MapLaw disk disk' ops := by
  obtain ⟨disk', run, final⟩ := performAll_spec ops disk
  have frame : ∀ address found, (∀ op ∈ ops, ¬ op.touches address) → Finds disk address found →
      Finds disk' address found := by
    intro address found untouched initial
    rw [finds_iff] at initial ⊢
    rw [final, KeyedList.lookup_edits_of_ne (edits_untouched untouched), initial]
  refine ⟨disk', run, ?_, ?_, ?_, frame, ?_⟩
  · rintro before host after rfl addressed untouched
    rw [finds_iff, final]
    have edit : (HostOp.upsert host).edit? = some (.put host) := if_neg addressed
    rw [List.filterMap_append, List.filterMap_cons_some edit]
    exact KeyedList.lookup_edits_last (.put host) (edits_untouched untouched) _
  · rintro before address after rfl _ untouched
    rw [finds_iff, final]
    have edit : (HostOp.remove address).edit? = some (.drop address) := rfl
    rw [List.filterMap_append, List.filterMap_cons_some edit]
    exact KeyedList.lookup_edits_last (.drop address) (edits_untouched untouched) _
  · intro address hosts _ untouched initial
    exact frame address _ untouched (finds_iff.mpr (lists_iff.mp initial ▸ rfl))
  · intro hosts hosts' initial later distinct
    rw [lists_iff] at initial later
    rw [← later, final, initial]
    exact KeyedList.distinct_edits distinct _

end StreamEngine.Net
