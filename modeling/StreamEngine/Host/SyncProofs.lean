import StreamEngine.Host.FileFaults

/-! Publishing the same library twice. The catalog that the second request reads is the one that
the first has written, and it is compared with itself by the first app of each name. -/
namespace StreamEngine.Host
open ByteString Binary64 Json FileSystem Client

theorem gamesFromParams_named (os : HostOs) (params : Value) :
    (gamesFromParams os params).filter (fun a => a.name ≠ []) = gamesFromParams os params := by
  rw [List.filter_eq_self]
  intro a member
  unfold gamesFromParams at member
  split at member
  · obtain ⟨g, -, decoded⟩ := List.mem_filterMap.mp member
    simp only [decodeGame] at decoded
    split at decoded
    · split at decoded
      · contradiction
      · rename_i named
        cases decoded
        simpa using named
    · contradiction
  · contradiction

/-- What a request without failures answers, and what it leaves. -/
theorem hostSyncApps_faultless (backend : Backend) (params : Value) (running : Bool)
    (files : HostFiles) :
    (hostSyncApps (faultyHost .whole .whole running) backend params).run files =
      (.ok (syncReport
          (diffApps (((files backend.appsPath).map parseAppsJson).getD [])
            (gamesFromParams backend.os params)) (gamesFromParams backend.os params).length),
        Function.update files backend.appsPath
          (some (serializeAppsJson (gamesFromParams backend.os params)))) := by
  rw [hostSyncApps_run, Input.gets_whole, Output.leaves_whole]
  rfl

/-- The catalog of the second request is the library of the first. -/
theorem hostSyncApps_again (backend : Backend) (params : Value) (running : Bool)
    (files : HostFiles) (written : files backend.appsPath =
      some (serializeAppsJson (gamesFromParams backend.os params))) :
    (hostSyncApps (faultyHost .whole .whole running) backend params).run files =
      (.ok (syncReport
          (diffApps (gamesFromParams backend.os params) (gamesFromParams backend.os params))
          (gamesFromParams backend.os params).length), files) := by
  rw [hostSyncApps_faultless, written, Option.map_some, Option.getD_some, parse_serialize_apps,
    gamesFromParams_named, ← written, Function.update_eq_self]

/-- A report of no change, with the total of another report. -/
def Unchanged (first second : Value) : Prop :=
  second.find (ascii "added") = some (count 0) ∧ second.find (ascii "removed") = some (count 0) ∧
    second.find (ascii "updated") = some (count 0) ∧
    second.find (ascii "total") = first.find (ascii "total")

/-- Two requests with the same parameters succeed, and the second reports no change. -/
def Republishes (backend : Backend) (params : Value) (running : Bool) (files : HostFiles) : Prop :=
  ∃ first second files₁ files₂,
    (hostSyncApps (faultyHost .whole .whole running) backend params).run files =
      (.ok first, files₁) ∧
    (hostSyncApps (faultyHost .whole .whole running) backend params).run files₁ =
      (.ok second, files₂) ∧
    Unchanged first second

theorem count_eq_zero_iff {n : Nat} : count n = count 0 ↔ n = 0 := by
  simp [count, ofInt_eq_zero_iff]

theorem unchanged_syncReport {d d' : SyncDiff} {total : Nat} :
    Unchanged (syncReport d total) (syncReport d' total) ↔ d' = ⟨0, 0, 0⟩ := by
  cases d'
  simp +decide [Unchanged, syncReport, count_eq_zero_iff]

/-- The second of two equal requests reports no change exactly when the games that share a name
are published with the same fields. -/
theorem sync_twice_iff (backend : Backend) (params : Value) (running : Bool) (files : HostFiles) :
    Republishes backend params running files ↔
      Consistent (gamesFromParams backend.os params) := by
  have first := hostSyncApps_faultless backend params running files
  have second := hostSyncApps_again backend params running _
    (Function.update_self backend.appsPath _ files)
  obtain ⟨updated, same, none⟩ := diffApps_self (gamesFromParams backend.os params)
  rw [same] at second
  rw [← none]
  constructor
  · rintro ⟨_, _, _, _, run₁, run₂, unchanged⟩
    cases first.symm.trans run₁
    cases second.symm.trans run₂
    simpa using unchanged_syncReport.mp unchanged
  · rintro rfl
    exact ⟨_, _, _, _, first, second, unchanged_syncReport.mpr rfl⟩

/-- One game, registered twice with different commands. -/
def twoGames : Value := .obj [(ascii "games", .arr [
  .obj [(ascii "cmd", .str (ascii "x")), (ascii "name", .str (ascii "A"))],
  .obj [(ascii "cmd", .str (ascii "y")), (ascii "name", .str (ascii "A"))]])]

theorem twoGames_updated : ∃ first second files₁ files₂,
    (hostSyncApps (faultyHost .whole .whole false) exampleBackend twoGames).run (fun _ => none) =
      (.ok first, files₁) ∧
    (hostSyncApps (faultyHost .whole .whole false) exampleBackend twoGames).run files₁ =
      (.ok second, files₂) ∧
    ¬ Unchanged first second := by
  have first := hostSyncApps_faultless exampleBackend twoGames false fun _ => none
  have second := hostSyncApps_again exampleBackend twoGames false _
    (Function.update_self exampleBackend.appsPath _ fun _ => none)
  have games : ∃ a b, gamesFromParams exampleBackend.os twoGames = [a, b] ∧ a.name = b.name ∧
      a.cmd ≠ b.cmd := ⟨_, _, rfl, rfl, by decide⟩
  obtain ⟨a, b, games, named, different⟩ := games
  obtain ⟨updated, same, none⟩ := diffApps_self (gamesFromParams exampleBackend.os twoGames)
  refine ⟨_, _, _, _, first, second, ?_⟩
  rw [unchanged_syncReport, same]
  intro unchanged
  have consistent := none.mp (congrArg SyncDiff.updated unchanged)
  rw [games] at consistent
  exact different (congrArg HostApp.cmd (consistent a (by simp) b (by simp) named))

end StreamEngine.Host
