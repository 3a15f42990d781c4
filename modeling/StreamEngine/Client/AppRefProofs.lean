import StreamEngine.Client.Handlers

/-! The two numeric tests of an app reference. The handler of `client.start` takes any
positive leading number for an appid and only then asks the resolver, which takes a number
only when the whole reference is digits. -/
namespace StreamEngine.Client
open ByteString Decimal Json Net

/-- Every entry that is kept has an appid that can be launched. -/
theorem parseAppList_positive (xml : Bytes) : ∀ a ∈ parseAppList xml, 0 < a.id := by
  obtain ⟨apps, parsed⟩ := parseAppList_terminates xml
  have kept : ∀ a ∈ apps, 0 < a.id := by
    apply Loop.run_invariant (fun s : Nat × List AppInfo => ∀ a ∈ s.2, 0 < a.id) ?_ ?_ ?_ parsed
    · rintro ⟨pos, earlier⟩ s' positive continues
      cases start : findAppBody xml pos with
      | none => simp [parseAppStep, start] at continues
      | some body =>
        simp only [parseAppStep, start, Sum.inl.injEq] at continues
        subst continues
        intro a member
        split at member
        · rename_i launchable
          rcases List.mem_append.mp member with old | new
          · exact positive a old
          · rw [List.mem_singleton.mp new]
            exact launchable.1
        · exact positive a member
    · rintro ⟨pos, earlier⟩ result positive leaves
      cases start : findAppBody xml pos with
      | none =>
        simp only [parseAppStep, start, Sum.inr.injEq] at leaves
        exact leaves ▸ positive
      | some body => simp [parseAppStep, start] at leaves
    · intro a member
      contradiction
  rw [parseAppList, parsed, Option.getD_some]
  exact kept

theorem matchTitle_nonneg {apps : List AppInfo} (positive : ∀ a ∈ apps, 0 < a.id) (ref : Bytes) :
    0 ≤ matchTitle apps ref := by
  unfold matchTitle
  cases first : apps.find? fun a => iequals a.title ref with
  | none => exact le_refl 0
  | some a => exact (positive a (List.mem_of_find?_eq_some first)).le

/-- Only the first app of the title counts, and its appid is not zero. -/
theorem matchTitle_eq_iff {apps : List AppInfo} {id : Int} (positive : 0 < id) (ref : Bytes) :
    matchTitle apps ref = id ↔
      ∃ a, apps.find? (fun a => iequals a.title ref) = some a ∧ a.id = id := by
  unfold matchTitle
  cases first : apps.find? fun a => iequals a.title ref with
  | none =>
    constructor
    · rintro rfl
      exact absurd positive (lt_irrefl 0)
    · rintro ⟨a, missing, -⟩
      contradiction
  | some a => simp

theorem resolveAppId_nonneg {apps : List AppInfo} (positive : ∀ a ∈ apps, 0 < a.id)
    (ref : Bytes) : 0 ≤ resolveAppId apps ref := by
  unfold resolveAppId
  split
  · rename_i number
    exact number.2.le
  · exact matchTitle_nonneg positive ref

/-- The appid a resolved reference launches, with zero for `app_not_found`. -/
def launchedAppId : Except IpcError Int → Option Int
  | .ok id => some id
  | .error (code, _) => if code = ascii "app_not_found" then some 0 else none

/-- The handler's answer on the app list of an accepted reply. -/
theorem resolveStartApp_answer {apps : List AppInfo} (positive : ∀ a ∈ apps, 0 < a.id)
    (host ref : Bytes) :
    launchedAppId (Id.run (resolveStartApp (pure (.ok apps)) host ref)) =
      some (if 0 < atoi ref then atoi ref else resolveAppId apps ref) := by
  have nonneg := resolveAppId_nonneg positive ref
  by_cases number : 0 < atoi ref
  · have passed : ¬ atoi ref ≤ 0 := by omega
    simp [resolveStartApp, passed, launchedAppId, number]
  · have resolved : atoi ref ≤ 0 := by omega
    by_cases unknown : resolveAppId apps ref ≤ 0
    · have zero : resolveAppId apps ref = 0 := by omega
      simp [resolveStartApp, resolved, zero, launchedAppId, number]
    · simp [resolveStartApp, resolved, unknown, launchedAppId, number]

theorem fetchAppList_accepted {xml : Bytes} (replied : xml ≠ [])
    (status : xmlAttr xml (ascii "root") (ascii "status_code") = ascii "200") :
    fetchAppList (pure xml : Id Bytes) = pure (.ok (parseAppList xml)) := by
  simp [fetchAppList, replied, status]

/-- The handler launches what the resolver resolves exactly when the reference is all
digits, has no positive leading number, or is the title of an app of that very number. -/
theorem resolveStartApp_agrees_iff (xml host ref : Bytes) (replied : xml ≠ [])
    (status : xmlAttr xml (ascii "root") (ascii "status_code") = ascii "200") :
    launchedAppId (Id.run (resolveStartApp (fetchAppList (pure xml)) host ref)) =
        some (resolveAppId (parseAppList xml) ref) ↔
      allDigits ref = true ∨ atoi ref ≤ 0 ∨
        ∃ a, (parseAppList xml).find? (fun a => iequals a.title ref) = some a ∧
          a.id = atoi ref := by
  rw [fetchAppList_accepted replied status,
    resolveStartApp_answer (parseAppList_positive xml), Option.some.injEq]
  by_cases number : 0 < atoi ref
  · rw [if_pos number]
    by_cases digits : allDigits ref = true
    · simp [resolveAppId, digits, number]
    · have title : resolveAppId (parseAppList xml) ref = matchTitle (parseAppList xml) ref := by
        simp [resolveAppId, digits]
      rw [title, eq_comm, matchTitle_eq_iff number]
      constructor
      · exact fun found => .inr (.inr found)
      · rintro (all | negative | found)
        · contradiction
        · omega
        · exact found
  · rw [if_neg number]
    simp only [true_iff]
    exact .inr (.inl (by omega))

/-- An app whose title starts with a number. -/
def sevenDaysList : Bytes :=
  ascii "<root status_code=\"200\"><App><AppTitle>7 Days to Die</AppTitle><ID>42</ID></App></root>"

theorem resolveStartApp_agrees_iff_sevenDays :
    launchedAppId (Id.run (resolveStartApp (fetchAppList (pure sevenDaysList)) []
        (ascii "7 days to die"))) = some (resolveAppId (parseAppList sevenDaysList)
        (ascii "7 days to die")) ↔
      allDigits (ascii "7 days to die") = true ∨ atoi (ascii "7 days to die") ≤ 0 ∨
        ∃ a, (parseAppList sevenDaysList).find?
          (fun a => iequals a.title (ascii "7 days to die")) = some a ∧
          a.id = atoi (ascii "7 days to die") :=
  resolveStartApp_agrees_iff sevenDaysList [] (ascii "7 days to die") (by decide)
    (by decide)

/-- The title of app 42 launches app 7. -/
theorem sevenDays_disagrees :
    launchedAppId (Id.run (resolveStartApp (fetchAppList (pure sevenDaysList)) []
        (ascii "7 Days to Die"))) = some 7 ∧
      resolveAppId (parseAppList sevenDaysList) (ascii "7 Days to Die") = 42 := by
  decide

end StreamEngine.Client
