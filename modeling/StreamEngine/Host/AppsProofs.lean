import StreamEngine.Host.Apps
import StreamEngine.Json.Build

/-! The catalog is read back as it was written, except for apps without a name. Every field is
either always written or left out at its default, and an `int` is a double that is printed as an
integer. -/
namespace StreamEngine.Host
open ByteString Binary64 Json

variable {o : Value} {k : Bytes}

theorem codable_setStr (codable : o.Codable) (k v : Bytes) : (setStr o k v).Codable := by
  unfold setStr
  split
  · exact codable
  · exact codable.set k (Value.codable_str v)

theorem find_setStr (o : Value) (k k' v : Bytes) : (setStr o k v).find k' =
    if k' = k ∧ v ≠ [] then some (.str v) else o.find k' := by
  unfold setStr
  split <;> simp_all

theorem natAbs_lt_of_range (z : CInt) : (z : Int).natAbs < 2 ^ 53 := by
  have range := z.property
  omega

/-- An `int` that was written is read back. -/
theorem toSigned_ofInt (z : CInt) : (ofInt z).toSigned 32 = z := by
  obtain ⟨x, value, -, trunc⟩ := exists_ofInt (natAbs_lt_of_range z)
  rw [value, Double.toSigned, trunc]
  exact if_pos z.property

theorem codable_encodeApp (a : HostApp) : (encodeApp a).Codable := by
  unfold encodeApp
  have named := Value.codable_obj.set (ascii "name") (Value.codable_str a.name)
  have cmd := codable_setStr named (ascii "cmd") a.cmd
  have texts := codable_setStr (codable_setStr (codable_setStr cmd (ascii "image-path") a.imagePath)
    (ascii "working-dir") a.workingDir) (ascii "output") a.output
  have elevated := texts.set (ascii "elevated") (Value.codable_bool a.elevated)
  have detach := elevated.set (ascii "auto-detach") (Value.codable_bool a.autoDetach)
  have wait := detach.set (ascii "wait-all") (Value.codable_bool a.waitAll)
  exact wait.set (ascii "exit-timeout") (Value.codable_int (natAbs_lt_of_range a.exitTimeout))

theorem codable_catalog (apps : List HostApp) : (catalog apps).Codable := by
  refine (Value.codable_obj.set _ Value.codable_obj).set _ (Value.codable_arr ?_)
  intro v member
  obtain ⟨a, -, rfl⟩ := List.mem_map.mp member
  exact codable_encodeApp a

theorem find_encodeApp (a : HostApp) (k : Bytes) : (encodeApp a).find k =
    if k = ascii "exit-timeout" then some (.num (ofInt a.exitTimeout))
    else if k = ascii "wait-all" then some (.bool a.waitAll)
    else if k = ascii "auto-detach" then some (.bool a.autoDetach)
    else if k = ascii "elevated" then some (.bool a.elevated)
    else if k = ascii "output" ∧ a.output ≠ [] then some (.str a.output)
    else if k = ascii "working-dir" ∧ a.workingDir ≠ [] then some (.str a.workingDir)
    else if k = ascii "image-path" ∧ a.imagePath ≠ [] then some (.str a.imagePath)
    else if k = ascii "cmd" ∧ a.cmd ≠ [] then some (.str a.cmd)
    else if k = ascii "name" then some (.str a.name)
    else none := by
  simp only [encodeApp, Value.find_set, find_setStr]
  rfl

/-- An empty text is left out, and is the default. -/
theorem getStr_optional {v : Value} {k text : Bytes}
    (found : v.find k = if text ≠ [] then some (.str text) else none) : v.getStr k [] = text := by
  rw [Value.getStr, found]
  by_cases empty : text = [] <;> simp [empty]

theorem decodeApp_encodeApp (a : HostApp) :
    decodeApp (encodeApp a) = if a.name = [] then none else some a := by
  have object : (encodeApp a).isObject = true := Value.isObject_set ..
  have name : (encodeApp a).getStr (ascii "name") [] = a.name := by
    simp +decide [Value.getStr, find_encodeApp]
  have cmd : (encodeApp a).getStr (ascii "cmd") [] = a.cmd :=
    getStr_optional (by simp +decide [find_encodeApp])
  have image : (encodeApp a).getStr (ascii "image-path") [] = a.imagePath :=
    getStr_optional (by simp +decide [find_encodeApp])
  have working : (encodeApp a).getStr (ascii "working-dir") [] = a.workingDir :=
    getStr_optional (by simp +decide [find_encodeApp])
  have output : (encodeApp a).getStr (ascii "output") [] = a.output :=
    getStr_optional (by simp +decide [find_encodeApp])
  have elevated : (encodeApp a).getBool (ascii "elevated") false = a.elevated := by
    simp +decide [Value.getBool, find_encodeApp]
  have detach : (encodeApp a).getBool (ascii "auto-detach") true = a.autoDetach := by
    simp +decide [Value.getBool, find_encodeApp]
  have wait : (encodeApp a).getBool (ascii "wait-all") true = a.waitAll := by
    simp +decide [Value.getBool, find_encodeApp]
  have timeout : getInt (encodeApp a) (ascii "exit-timeout") 5 = a.exitTimeout := by
    apply Subtype.ext
    simp [getInt, Value.getNum, find_encodeApp, toSigned_ofInt]
  simp only [decodeApp, object, if_true, name, cmd, image, working, output, elevated, detach, wait,
    timeout]

theorem filterMap_decodeApp (apps : List HostApp) :
    (apps.map encodeApp).filterMap decodeApp = apps.filter fun a => a.name ≠ [] := by
  induction apps with
  | nil => rfl
  | cons a apps ih =>
    rw [List.map_cons, List.filterMap_cons, decodeApp_encodeApp, ih, List.filter_cons]
    by_cases nameless : a.name = [] <;> simp [nameless]

/-- The catalog that is read back is the one that was written, without its nameless apps. -/
theorem parse_serialize_apps (apps : List HostApp) :
    parseAppsJson (serializeAppsJson apps) = apps.filter fun a => a.name ≠ [] := by
  have parsed : parse (serializeAppsJson apps) = some (catalog apps) := (codable_catalog apps).parse_dump
  have items : (catalog apps).find (ascii "apps") = some (.arr (apps.map encodeApp)) := by
    simp [catalog]
  simp only [parseAppsJson, parsed, Option.bind_some, items, filterMap_decodeApp]

/-! ### The difference of two catalogs -/

/-- The app is registered under its name with other fields. -/
def changed (prev : List HostApp) (n : HostApp) : Bool :=
  match findByName prev n.name with
  | none => false
  | some p => !sameApp p n

theorem foldl_publish (prev next : List HostApp) (d : SyncDiff) :
    next.foldl (SyncDiff.publish prev) d =
      ⟨d.added + next.countP fun n => findByName prev n.name = none, d.removed,
        d.updated + next.countP (changed prev)⟩ := by
  induction next generalizing d with
  | nil => rfl
  | cons n next ih =>
    rw [List.foldl_cons, ih]
    cases found : findByName prev n.name with
    | none => simp [SyncDiff.publish, changed, found, Nat.add_assoc, Nat.add_comm 1]
    | some p =>
      cases same : sameApp p n <;>
        simp [SyncDiff.publish, changed, found, same, Nat.add_assoc, Nat.add_comm 1]

theorem foldl_retire (prev next : List HostApp) (d : SyncDiff) :
    prev.foldl (SyncDiff.retire next) d =
      ⟨d.added, d.removed + prev.countP fun p => findByName next p.name = none, d.updated⟩ := by
  induction prev generalizing d with
  | nil => rfl
  | cons p prev ih =>
    rw [List.foldl_cons, ih]
    cases found : findByName next p.name <;>
      simp [SyncDiff.retire, found, Nat.add_assoc, Nat.add_comm 1]

/-- The three counters, by the names of the other catalog. -/
theorem diffApps_eq (prev next : List HostApp) : diffApps prev next =
    ⟨next.countP fun n => findByName prev n.name = none,
      prev.countP fun p => findByName next p.name = none, next.countP (changed prev)⟩ := by
  simp [diffApps, foldl_publish, foldl_retire]

theorem sameApp_iff {a b : HostApp} (named : a.name = b.name) : sameApp a b = true ↔ a = b := by
  cases a
  cases b
  simp_all [sameApp, and_assoc, Subtype.ext_iff]

theorem findByName_some {apps : List HostApp} {a : HostApp} (member : a ∈ apps) :
    ∃ p ∈ apps, findByName apps a.name = some p ∧ p.name = a.name := by
  cases found : findByName apps a.name with
  | none => simpa using List.find?_eq_none.mp found a member
  | some p => exact ⟨p, List.mem_of_find?_eq_some found, rfl, by simpa using List.find?_some found⟩

/-- Apps of one name are one app. -/
def Consistent (apps : List HostApp) : Prop := ∀ a ∈ apps, ∀ b ∈ apps, a.name = b.name → a = b

/-- A catalog differs from itself in its apps that are not the first of their name. -/
theorem diffApps_self (apps : List HostApp) :
    ∃ updated, diffApps apps apps = ⟨0, 0, updated⟩ ∧ (updated = 0 ↔ Consistent apps) := by
  have there : (apps.countP fun n => findByName apps n.name = none) = 0 := by
    rw [List.countP_eq_zero]
    intro a member
    obtain ⟨p, -, found, -⟩ := findByName_some member
    simp [found]
  refine ⟨apps.countP (changed apps), by rw [diffApps_eq, there], ?_⟩
  rw [List.countP_eq_zero]
  have first : ∀ a ∈ apps, ¬ changed apps a = true ↔ findByName apps a.name = some a := by
    intro a member
    obtain ⟨p, -, found, named⟩ := findByName_some member
    simp [changed, found, sameApp_iff named]
  constructor
  · intro unchanged a memberA b memberB named
    have firstA := (first a memberA).mp (unchanged a memberA)
    have firstB := (first b memberB).mp (unchanged b memberB)
    rw [named] at firstA
    exact Option.some.inj (firstA.symm.trans firstB)
  · intro consistent a member
    obtain ⟨p, inApps, found, named⟩ := findByName_some member
    rw [first a member, found, consistent p inApps a member named]

end StreamEngine.Host
