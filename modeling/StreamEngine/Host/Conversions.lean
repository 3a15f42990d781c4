import StreamEngine.Host.ClientTrustProofs
import StreamEngine.Host.Handlers
import StreamEngine.Json.Conversions

/-! The conversions of the `host.*` methods as partial functions. The catalog and the state file
are converted too, when a method reads the one or writes the other. -/
namespace StreamEngine.Host
open ByteString Binary64 Json PosixPath Client Definedness

def convertInt? (v : Value) (k : Bytes) (default : Int) : Option CInt := do
  let z ← getInt? v k default
  if range : -2 ^ 31 ≤ z ∧ z < 2 ^ 31 then some ⟨z, range⟩ else none

theorem defines_convertInt? (v : Value) (k : Bytes) {default : Int}
    (small : default.natAbs < 2 ^ 31) :
    Defines (convertInt? v k default) (IntField v k) (getInt v k default) := by
  have inRange := toSigned_range (v.getNum k (ofInt default))
  refine ((defines_getInt? v k small).bind ?_).congr (and_iff_left trivial)
  rw [dif_pos inRange]
  exact defines_some trivial _

/-! ### Catalogs -/

/-- Only an object with a name has its timeout converted, the number under the key `k`. -/
def convertApp? (k : Bytes) (decode : Value → Option HostApp) (a : Value) :
    Option (Option HostApp) :=
  match decode a with
  | none => some none
  | some h => do
    let exitTimeout ← convertInt? a k 5
    return some { h with exitTimeout }

/-- The apps that are not skipped. -/
def convertApps? (k : Bytes) (decode : Value → Option HostApp) (items : List Value) :
    Option (List HostApp) := do
  return (← items.mapM (convertApp? k decode)).filterMap id

def parseAppsJson? (text : Bytes) : Option (List HostApp) :=
  match (parse text).bind fun parsed => parsed.find (ascii "apps") with
  | some (.arr items) => convertApps? (ascii "exit-timeout") decodeApp items
  | _ => some []

def gamesFromParams? (os : HostOs) (params : Value) : Option (List HostApp) :=
  match params.find (ascii "games") with
  | some (.arr items) => convertApps? (ascii "exitTimeout") (decodeGame os) items
  | _ => some []

/-- Objects with a name, the ones that are converted. -/
def Named (a : Value) : Prop := a.isObject = true ∧ a.getStr (ascii "name") [] ≠ []

def TimeoutsFit (k : Bytes) (items : List Value) : Prop := ∀ a ∈ items, Named a → IntField a k

def CatalogFits (text : Bytes) : Prop :=
  ∀ parsed items, parse text = some parsed → parsed.find (ascii "apps") = some (.arr items) →
    TimeoutsFit (ascii "exit-timeout") items

def GamesFit (params : Value) : Prop :=
  ∀ items, params.find (ascii "games") = some (.arr items) →
    TimeoutsFit (ascii "exitTimeout") items

/-- A decoder that skips what has no name and reads the timeout under `k`. -/
structure ReadsTimeout (k : Bytes) (decode : Value → Option HostApp) : Prop where
  skips : ∀ a, ¬ Named a → decode a = none
  reads : ∀ a, Named a → ∃ h, decode a = some h ∧ h.exitTimeout = getInt a k 5

/-- A decoder that tests for an object and its name and then builds an app. -/
theorem ReadsTimeout.of_build {k : Bytes} {decode : Value → Option HostApp} (build : Value → HostApp)
    (shape : ∀ a, decode a =
      if a.isObject then (if a.getStr (ascii "name") [] = [] then none else some (build a)) else none)
    (timeout : ∀ a, (build a).exitTimeout = getInt a k 5) : ReadsTimeout k decode where
  skips a unnamed := by
    rw [shape a]
    split
    · rename_i object
      have nameless : a.getStr (ascii "name") [] = [] := by
        by_contra named
        exact unnamed ⟨object, named⟩
      exact if_pos nameless
    · rfl
  reads a named := by
    rw [shape a, if_pos named.1, if_neg named.2]
    exact ⟨build a, rfl, timeout a⟩

theorem decodeApp_readsTimeout : ReadsTimeout (ascii "exit-timeout") decodeApp :=
  .of_build _ (fun _ => rfl) fun _ => rfl

theorem decodeGame_readsTimeout (os : HostOs) :
    ReadsTimeout (ascii "exitTimeout") (decodeGame os) :=
  .of_build _ (fun _ => rfl) fun _ => rfl

theorem defines_convertApp? {k : Bytes} {decode : Value → Option HostApp}
    (reads : ReadsTimeout k decode) (a : Value) :
    Defines (convertApp? k decode a) (Named a → IntField a k) (decode a) := by
  rw [convertApp?]
  by_cases named : Named a
  · obtain ⟨h, decoded, timeout⟩ := reads.reads a named
    have same : some { h with exitTimeout := getInt a k 5 } = some h := by rw [← timeout]
    rw [decoded, ← same]
    exact (defines_convertInt? a k (by decide)).map.congr
      ⟨fun fits _ => fits, fun fits => fits named⟩
  · rw [reads.skips a named]
    exact defines_some (fun held => absurd held named) none

theorem defines_convertApps? {k : Bytes} {decode : Value → Option HostApp}
    (reads : ReadsTimeout k decode) (items : List Value) :
    Defines (convertApps? k decode items) (TimeoutsFit k items) (items.filterMap decode) := by
  have all := Defines.mapM (l := items) fun a _ => defines_convertApp? reads a
  have same : (items.map decode).filterMap id = items.filterMap decode := by
    rw [List.filterMap_map, Function.id_comp]
  rw [← same]
  exact all.map

/-- The apps of what is under a key, none when that is no array. -/
theorem defines_arrayApps? {k : Bytes} {decode : Value → Option HostApp}
    (reads : ReadsTimeout k decode) (child : Option Value) :
    Defines
      (match child with
        | some (.arr items) => convertApps? k decode items
        | _ => some [])
      (∀ items, child = some (.arr items) → TimeoutsFit k items)
      (match child with
        | some (.arr items) => items.filterMap decode
        | _ => []) := by
  cases child with
  | none => exact defines_some nofun []
  | some v =>
    cases v with
    | arr items =>
      simp only [Option.some.injEq, Value.arr.injEq, forall_eq']
      exact defines_convertApps? reads items
    | _ => exact defines_some nofun []

theorem defines_parseAppsJson? (text : Bytes) :
    Defines (parseAppsJson? text) (CatalogFits text) (parseAppsJson text) := by
  refine (defines_arrayApps? decodeApp_readsTimeout
    ((parse text).bind fun parsed => parsed.find (ascii "apps"))).congr ?_
  simp only [CatalogFits, Option.bind_eq_some_iff, forall_exists_index, and_imp]
  exact ⟨fun fits parsed items => fits items parsed, fun fits items parsed => fits parsed items⟩

theorem defines_gamesFromParams? (os : HostOs) (params : Value) :
    Defines (gamesFromParams? os params) (GamesFit params) (gamesFromParams os params) :=
  defines_arrayApps? (decodeGame_readsTimeout os) (params.find (ascii "games"))

theorem allDumpable_setStr {o : Value} (all : o.AllDumpable) (k v : Bytes) :
    (setStr o k v).AllDumpable := by
  rw [setStr]
  split
  · exact all
  · exact AllDumpable.set all k (allDumpable_str v)

/-- A converted timeout is written without reaching the end of a range. -/
theorem allDumpable_encodeApp (a : HostApp) : (encodeApp a).AllDumpable := by
  have timeout : (Value.num (ofInt a.exitTimeout)).AllDumpable := by
    obtain ⟨z, low, high⟩ := a.exitTimeout
    exact allDumpable_num.mpr (dumpable_ofInt (by simp only; omega))
  have named : ((Value.obj []).set (ascii "name") (.str a.name)).AllDumpable :=
    AllDumpable.set allDumpable_empty _ (allDumpable_str _)
  have texts := allDumpable_setStr (allDumpable_setStr (allDumpable_setStr (allDumpable_setStr named
    (ascii "cmd") a.cmd) (ascii "image-path") a.imagePath) (ascii "working-dir") a.workingDir)
    (ascii "output") a.output
  exact AllDumpable.set (AllDumpable.set (AllDumpable.set (AllDumpable.set texts _
    (allDumpable_bool _)) _ (allDumpable_bool _)) _ (allDumpable_bool _)) _ timeout

theorem allDumpable_catalog (apps : List HostApp) : (catalog apps).AllDumpable := by
  have encoded : (Value.arr (apps.map encodeApp)).AllDumpable :=
    allDumpable_arr.mpr (List.forall_mem_map.mpr fun a _ => allDumpable_encodeApp a)
  exact AllDumpable.set (AllDumpable.set allDumpable_empty _ allDumpable_empty) _ encoded

/-! ### The state file -/

def addTrustedClient? (currentJson name certPem uuid : Bytes) : Option Bytes :=
  let doc := parseState currentJson
  let root := childObject doc (ascii "root")
  let devices := childArray root (ascii "named_devices")
  let devices :=
    if devices.any (holdsCert certPem) then devices else devices ++ [trustEntry name certPem uuid]
  dumpTo? (doc.set (ascii "root") (root.set (ascii "named_devices") (.arr devices)))

/-- The numbers of a state that are written back: those beside the root, beside the devices, and in
the devices. -/
structure StateFits (s : Bytes) : Prop where
  document : OthersDumpable (parseState s) (ascii "root")
  root : OthersDumpable (childObject (parseState s) (ascii "root")) (ascii "named_devices")
  devices : ∀ device ∈ namedDevices (parseState s), device.AllDumpable

theorem allDumpable_trustEntry (name certPem uuid : Bytes) :
    (trustEntry name certPem uuid).AllDumpable :=
  AllDumpable.set (AllDumpable.set (AllDumpable.set (AllDumpable.set allDumpable_empty _
    (allDumpable_str _)) _ (allDumpable_str _)) _ (allDumpable_str _)) _ (allDumpable_str _)

theorem allDumpable_withDevice {name certPem uuid : Bytes} {devices : List Value} :
    (Value.arr (withDevice name certPem uuid devices)).AllDumpable ↔
      ∀ device ∈ devices, device.AllDumpable := by
  rw [allDumpable_arr, withDevice]
  split
  · rfl
  · rw [List.forall_mem_append, List.forall_mem_singleton]
    exact and_iff_left (allDumpable_trustEntry name certPem uuid)

theorem defines_addTrustedClient? (s name certPem uuid : Bytes) :
    Defines (addTrustedClient? s name certPem uuid) (StateFits s)
      (addTrustedClient s name certPem uuid) := by
  have ordered := parseState_ordered s
  refine Defines.congr (defines_dumpTo? _) ?_
  rw [allDumpable_set ordered, allDumpable_set (childObject_ordered ordered _)]
  constructor
  · rintro ⟨document, root, devices⟩
    exact ⟨document, root, allDumpable_withDevice.mp devices⟩
  · rintro ⟨document, root, devices⟩
    exact ⟨document, root, allDumpable_withDevice.mpr devices⟩

/-! ### Requests -/

/-- What `readTextFile` reads of the files. -/
def fileText (files : Path → Option Bytes) (path : Path) : Bytes :=
  if path = [] then [] else (files path).getD []

def readApps? (files : Path → Option Bytes) (path : Path) : Option (List HostApp) :=
  match files path with
  | none => some []
  | some text => parseAppsJson? text

/-- The state that a request to trust a client writes, if it writes one. -/
def rewriteState? (backend : Backend) (files : Path → Option Bytes) (params : Value) :
    Option (Option Bytes) :=
  let certPem := clientCert params
  let current := fileText files (hostStatePath backend.appsPath)
  if hasTrustedClient current certPem then some none
  else do
    let next ← addTrustedClient? current (clientName params) certPem
      (stableUuid backend.hash certPem)
    return some next

/-- What a method of the host converts, in the order of its handler. -/
def hostConversions? (backend : Backend) (files : Path → Option Bytes) (method : Bytes)
    (params : Value) : Option Unit :=
  if method = ascii "host.syncApps" then do
    let _prev ← readApps? files backend.appsPath
    let next ← gamesFromParams? backend.os params
    let _text ← dumpTo? (catalog next)
    some ()
  else if method = ascii "host.listApps" ∨ method = ascii "host.status" then do
    let _apps ← readApps? files backend.appsPath
    some ()
  else if method = ascii "host.trustClient" then
    if clientCert params = [] then some ()
    else if hostStatePath backend.appsPath = [] then some ()
    else do
      let _next ← rewriteState? backend files params
      some ()
  else if method = ascii "host.pairAccept" then
    if clientCert params = [] then some ()
    else do
      let _next ← rewriteState? backend files params
      some ()
  else some ()

/-- The methods that read the catalog. -/
def ReadsCatalog (method : Bytes) : Prop :=
  method = ascii "host.syncApps" ∨ method = ascii "host.listApps" ∨ method = ascii "host.status"

/-- A request to trust a client that is not trusted yet. -/
def Trusts (backend : Backend) (files : Path → Option Bytes) (method : Bytes) (params : Value) :
    Prop :=
  (method = ascii "host.trustClient" ∧ hostStatePath backend.appsPath ≠ [] ∨
      method = ascii "host.pairAccept") ∧ clientCert params ≠ [] ∧
    hasTrustedClient (fileText files (hostStatePath backend.appsPath)) (clientCert params) = false

/-- The numbers that a method of the host converts. -/
structure HostFits (backend : Backend) (files : Path → Option Bytes) (method : Bytes)
    (params : Value) : Prop where
  catalog : ReadsCatalog method → ∀ text, files backend.appsPath = some text → CatalogFits text
  games : method = ascii "host.syncApps" → GamesFit params
  state : Trusts backend files method params →
    StateFits (fileText files (hostStatePath backend.appsPath))

theorem defines_readApps? (files : Path → Option Bytes) (path : Path) :
    Defines (readApps? files path) (∀ text, files path = some text → CatalogFits text)
      (((files path).map parseAppsJson).getD []) := by
  rw [readApps?]
  cases files path with
  | none => exact defines_some nofun []
  | some text =>
    simp only [Option.some.injEq, forall_eq']
    exact defines_parseAppsJson? text

theorem rewriteState?_isSome (backend : Backend) (files : Path → Option Bytes) (params : Value) :
    (rewriteState? backend files params).isSome = true ↔
      (hasTrustedClient (fileText files (hostStatePath backend.appsPath)) (clientCert params) =
          false → StateFits (fileText files (hostStatePath backend.appsPath))) := by
  rw [rewriteState?]
  split
  · rename_i trusted
    exact iff_of_true rfl fun unknown => Bool.noConfusion (trusted.symm.trans unknown)
  · rename_i unknown
    rw [forall_prop_of_true (Bool.not_eq_true _ ▸ unknown)]
    exact (defines_addTrustedClient? _ _ _ _).map.isSome

theorem methods_distinct : ¬ ReadsCatalog (ascii "host.trustClient") ∧
    ¬ ReadsCatalog (ascii "host.pairAccept") ∧
    ascii "host.trustClient" ≠ ascii "host.pairAccept" := by
  unfold ReadsCatalog
  decide

/-- A method that reads the catalog trusts nobody. -/
theorem not_trusts_of_readsCatalog {backend : Backend} {files : Path → Option Bytes}
    {method : Bytes} (reads : ReadsCatalog method) (params : Value) :
    ¬ Trusts backend files method params := by
  obtain ⟨trust, pair, -⟩ := methods_distinct
  rintro ⟨⟨rfl, -⟩ | rfl, -⟩
  · exact trust reads
  · exact pair reads

theorem hostConversions?_isSome (backend : Backend) (files : Path → Option Bytes) (method : Bytes)
    (params : Value) : (hostConversions? backend files method params).isSome = true ↔
      HostFits backend files method params := by
  obtain ⟨-, -, other⟩ := methods_distinct
  have catalogDefined := defines_readApps? files backend.appsPath
  have rewritten : (rewriteState? backend files params >>= fun _ => some ()).isSome = true ↔
      (hasTrustedClient (fileText files (hostStatePath backend.appsPath)) (clientCert params) =
          false → StateFits (fileText files (hostStatePath backend.appsPath))) := by
    rw [← rewriteState?_isSome]
    cases rewriteState? backend files params <;> rfl
  rw [hostConversions?]
  by_cases sync : method = ascii "host.syncApps"
  · rw [if_pos sync]
    have reads : ReadsCatalog method := Or.inl sync
    have games := defines_gamesFromParams? backend.os params
    have text := (defines_dumpTo? (catalog (gamesFromParams backend.os params))).map (f := fun _ => ())
    rw [(catalogDefined.bind (games.bind text)).isSome]
    constructor
    · rintro ⟨catalog, games, -⟩
      exact ⟨fun _ => catalog, fun _ => games, fun trusts =>
        absurd trusts (not_trusts_of_readsCatalog reads params)⟩
    · intro fits
      exact ⟨fits.catalog reads, fits.games sync, allDumpable_catalog _⟩
  · rw [if_neg sync]
    by_cases catalog : method = ascii "host.listApps" ∨ method = ascii "host.status"
    · rw [if_pos catalog, (catalogDefined.map (f := fun _ => ())).isSome]
      have reads : ReadsCatalog method := Or.inr catalog
      exact ⟨fun catalog => ⟨fun _ => catalog, fun same => absurd same sync, fun trusts =>
        absurd trusts (not_trusts_of_readsCatalog reads params)⟩, fun fits => fits.catalog reads⟩
    · rw [if_neg catalog]
      have unread : ¬ ReadsCatalog method := not_or.mpr ⟨sync, catalog⟩
      have state : HostFits backend files method params ↔ (Trusts backend files method params →
          StateFits (fileText files (hostStatePath backend.appsPath))) :=
        ⟨HostFits.state, fun state => ⟨fun reads => absurd reads unread,
          fun same => absurd same sync, state⟩⟩
      rw [state, Trusts]
      by_cases trust : method = ascii "host.trustClient"
      · have notPair : method ≠ ascii "host.pairAccept" := trust ▸ other
        rw [if_pos trust]
        by_cases named : clientCert params = []
        · simp [named]
        · rw [if_neg named]
          by_cases there : hostStatePath backend.appsPath = []
          · simp [there, notPair]
          · rw [if_neg there]
            simpa [trust, named, there] using rewritten
      · rw [if_neg trust]
        by_cases pair : method = ascii "host.pairAccept"
        · rw [if_pos pair]
          by_cases named : clientCert params = []
          · simp [named]
          · rw [if_neg named]
            simpa [pair, named] using rewritten
        · simp [trust, pair]

end StreamEngine.Host
