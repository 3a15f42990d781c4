import StreamEngine.Library.KeyedDifference
import StreamEngine.Host.AppsProofs

/-! What `host.syncApps` reports, against the sets of names of the two catalogs. The nested scans
count names as soon as no catalog lists a name twice. -/
namespace StreamEngine.Host
open ByteString Binary64 Json KeyedList

/-- The names of a catalog. -/
def names (apps : List HostApp) : Finset Bytes := keys HostApp.name apps

/-- No two apps of a catalog have one name. -/
abbrev DistinctNames (apps : List HostApp) : Prop := Distinct HostApp.name apps

/-- Both catalogs have an app of that name, and the two differ in another field. -/
def Updates (prev next : List HostApp) (name : Bytes) : Prop :=
  ∃ p ∈ prev, ∃ n ∈ next, p.name = name ∧ n.name = name ∧ p ≠ n

instance (prev next : List HostApp) : DecidablePred (Updates prev next) := fun name =>
  inferInstanceAs (Decidable (∃ p ∈ prev, ∃ n ∈ next, p.name = name ∧ n.name = name ∧ p ≠ n))

variable {prev next : List HostApp}

theorem Updates.swap {name : Bytes} (updates : Updates prev next name) : Updates next prev name := by
  obtain ⟨p, inPrev, n, inNext, namedP, namedN, differ⟩ := updates
  exact ⟨n, inNext, p, inPrev, namedN, namedP, differ.symm⟩

theorem Updates.mem_names {name : Bytes} (updates : Updates prev next name) : name ∈ names next := by
  obtain ⟨-, -, n, inNext, -, namedN, -⟩ := updates
  exact mem_keys.mpr ⟨n, inNext, namedN⟩

theorem findByName_eq_none_iff {apps : List HostApp} {name : Bytes} :
    findByName apps name = none ↔ name ∉ names apps := lookup_eq_none_iff

/-- The names missing in the other catalog, counted. -/
theorem countP_missing (distinct : DistinctNames next) (prev : List HostApp) :
    (next.countP fun n => findByName prev n.name = none) = (names next \ names prev).card := by
  simp only [findByName_eq_none_iff, Finset.sdiff_eq_filter, names]
  exact Distinct.countP distinct fun name => name ∉ keys HostApp.name prev

theorem changed_iff (distinct : DistinctNames prev) (nextDistinct : DistinctNames next)
    {n : HostApp} (member : n ∈ next) : changed prev n = true ↔ Updates prev next n.name := by
  unfold changed
  cases found : findByName prev n.name with
  | none =>
    have missing := findByName_eq_none_iff.mp found
    simp only [Bool.false_eq_true, false_iff]
    exact fun updates => missing updates.swap.mem_names
  | some p =>
    obtain ⟨inPrev, named⟩ := mem_of_lookup found
    have same := sameApp_iff named
    constructor
    · intro differ
      have different : p ≠ n := fun equal => by simp [same.mpr equal] at differ
      exact ⟨p, inPrev, n, member, named, rfl, different⟩
    · rintro ⟨p', inPrev', n', inNext', named', namedN', differ⟩
      have first : p' = p :=
        Option.some.inj ((distinct.lookup_eq_some_iff.mpr ⟨inPrev', named'⟩).symm.trans found)
      have second : n' = n := List.inj_on_of_nodup_map nextDistinct inNext' member namedN'
      subst first second
      have unlike : sameApp p' n' = false := Bool.eq_false_iff.mpr fun equal => differ (same.mp equal)
      simp [unlike]

theorem countP_changed (distinct : DistinctNames prev) (nextDistinct : DistinctNames next) :
    next.countP (changed prev) = ((names next).filter (Updates prev next)).card := by
  rw [names, ← nextDistinct.countP]
  apply List.countP_congr
  intro n member
  simpa using changed_iff distinct nextDistinct member

/-- The three counters as sizes of sets of names. -/
theorem diffApps_card (distinct : DistinctNames prev) (nextDistinct : DistinctNames next) :
    diffApps prev next = ⟨(names next \ names prev).card, (names prev \ names next).card,
      ((names next).filter (Updates prev next)).card⟩ := by
  rw [diffApps_eq, countP_missing nextDistinct, countP_missing distinct,
    countP_changed distinct nextDistinct]

theorem filter_updates_swap (prev next : List HostApp) :
    (names next).filter (Updates prev next) = (names prev).filter (Updates next prev) := by
  ext name
  simp only [Finset.mem_filter]
  constructor
  · rintro ⟨-, updates⟩
    exact ⟨updates.swap.mem_names, updates.swap⟩
  · rintro ⟨-, updates⟩
    exact ⟨updates.swap.mem_names, updates.swap⟩

/-- Nothing is reported exactly when the catalogs have the same apps. -/
theorem diffApps_zero_iff (distinct : DistinctNames prev) (nextDistinct : DistinctNames next) :
    diffApps prev next = ⟨0, 0, 0⟩ ↔ next.Perm prev := by
  rw [diffApps_card distinct nextDistinct, nextDistinct.perm_iff distinct]
  simp only [SyncDiff.mk.injEq, Finset.card_eq_zero, Finset.sdiff_eq_empty_iff_subset,
    Finset.filter_eq_empty_iff]
  constructor
  · rintro ⟨added, removed, updated⟩ name
    cases found : lookup HostApp.name name next with
    | none =>
      have missing := lookup_eq_none_iff.mp found
      exact (lookup_eq_none_iff.mpr fun there => missing (removed there)).symm
    | some n =>
      obtain ⟨inNext, named⟩ := mem_of_lookup found
      have known : name ∈ names next := mem_keys.mpr ⟨n, inNext, named⟩
      obtain ⟨p, inPrev, namedP⟩ := mem_keys.mp (added known)
      have equal : p = n := by
        by_contra differ
        exact updated known ⟨p, inPrev, n, inNext, namedP, named, differ⟩
      exact (distinct.lookup_eq_some_iff.mpr ⟨equal ▸ inPrev, named⟩).symm
  · intro agree
    refine ⟨?_, ?_, ?_⟩
    · intro name known
      by_contra missing
      exact lookup_eq_none_iff.mp ((agree name).trans (lookup_eq_none_iff.mpr missing)) known
    · intro name known
      by_contra missing
      exact lookup_eq_none_iff.mp ((agree name).symm.trans (lookup_eq_none_iff.mpr missing)) known
    · rintro name - ⟨p, inPrev, n, inNext, namedP, namedN, differ⟩
      have old := distinct.lookup_eq_some_iff.mpr ⟨inPrev, namedP⟩
      have new := nextDistinct.lookup_eq_some_iff.mpr ⟨inNext, namedN⟩
      exact differ (Option.some.inj (old.symm.trans ((agree name).symm.trans new)))

/-- A publish reports the names added, removed and updated. -/
theorem diffApps_counts_names (distinct : DistinctNames prev) (nextDistinct : DistinctNames next) :
    diffApps prev next = ⟨(names next \ names prev).card, (names prev \ names next).card,
      ((names prev ∩ names next).filter (Updates prev next)).card⟩ ∧
    prev.length + (diffApps prev next).added = next.length + (diffApps prev next).removed ∧
    diffApps next prev = ⟨(diffApps prev next).removed, (diffApps prev next).added,
      (diffApps prev next).updated⟩ ∧
    (diffApps prev next = ⟨0, 0, 0⟩ ↔ next.Perm prev) := by
  have shared : (names prev ∩ names next).filter (Updates prev next) =
      (names next).filter (Updates prev next) := by
    ext name
    simp only [Finset.mem_filter, Finset.mem_inter]
    exact ⟨fun ⟨⟨_, inNext⟩, updates⟩ => ⟨inNext, updates⟩,
      fun ⟨inNext, updates⟩ => ⟨⟨updates.swap.mem_names, inNext⟩, updates⟩⟩
  have counted := diffApps_card distinct nextDistinct
  refine ⟨shared ▸ counted, ?_, ?_, diffApps_zero_iff distinct nextDistinct⟩
  · have prevSize : (names prev).card = prev.length := Distinct.card_keys distinct
    have nextSize : (names next).card = next.length := Distinct.card_keys nextDistinct
    have balance := Finset.card_sdiff_add_card (names next) (names prev)
    have balance' := Finset.card_sdiff_add_card (names prev) (names next)
    rw [Finset.union_comm] at balance'
    simp only [counted]
    omega
  · rw [counted, diffApps_card nextDistinct distinct, filter_updates_swap]

/-- The desktop, listed without a command and then with one. -/
theorem diffApps_counts_desktop :
    let desktop : HostApp := ⟨ascii "Desktop", [], [], [], [], false, true, true, ⟨5, by decide⟩⟩
    let steam : HostApp := { desktop with name := ascii "Steam" }
    diffApps [desktop, steam] [{ desktop with cmd := ascii "explorer" }] = ⟨0, 1, 1⟩ ∧
    ¬ [{ desktop with cmd := ascii "explorer" }].Perm [desktop, steam] := by
  intro desktop steam
  have distinct : DistinctNames [desktop, steam] := by decide
  have nextDistinct : DistinctNames [{ desktop with cmd := ascii "explorer" }] := by decide
  have counted := diffApps_counts_names distinct nextDistinct
  have reported : diffApps [desktop, steam] [{ desktop with cmd := ascii "explorer" }] = ⟨0, 1, 1⟩ := by
    decide
  refine ⟨reported, fun same => ?_⟩
  have silent := counted.2.2.2.mpr same
  rw [reported] at silent
  exact absurd silent (by decide)

end StreamEngine.Host
