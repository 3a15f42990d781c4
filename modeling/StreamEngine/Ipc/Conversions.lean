import StreamEngine.Client.StreamConfig
import StreamEngine.Host.Conversions
import StreamEngine.Ipc.Server

/-! The conversions to integers that a message can reach, as partial functions: what C leaves
undefined is `none`. Where they are defined the functions give what their total versions give. -/
namespace StreamEngine.Ipc
open ByteString Binary64 Json PosixPath Client Host Definedness

/-! ### The handshake -/

/-- `handshake`, as `checkHello`. -/
def checkHello? (raw : Bytes) : Option (Except Bytes Unit) :=
  match parse raw with
  | none => some (.error (ascii "malformed handshake frame"))
  | some peer =>
    if peer.isObject = false then some (.error (ascii "malformed handshake frame"))
    else if kind peer ≠ ascii "hello" then
      some (.error (ascii "expected hello, got '" ++ kind peer ++ ascii "'"))
    else do
      let peerVer ← getInt? peer (ascii "protocolVersion") (-1)
      return if peerVer ≠ kProtocolVersion then
          .error (ascii "protocol version mismatch (engine " ++ Decimal.printInt kProtocolVersion ++
            ascii ", launcher " ++ Decimal.printInt peerVer ++ ascii ")")
        else .ok ()

/-- The version of a hello. -/
def HelloFits (raw : Bytes) : Prop :=
  ∀ peer, parse raw = some peer → peer.isObject = true → kind peer = ascii "hello" →
    IntField peer (ascii "protocolVersion")

theorem defines_checkHello? (raw : Bytes) :
    Defines (checkHello? raw) (HelloFits raw) (checkHello raw) := by
  rw [checkHello?, checkHello, HelloFits]
  cases parse raw with
  | none => exact defines_some nofun _
  | some peer =>
    simp only [Option.some.injEq, forall_eq']
    by_cases object : peer.isObject = false
    · rw [if_pos object, if_pos object]
      exact defines_some (fun isObject => absurd (object.symm.trans isObject) Bool.false_ne_true) _
    · rw [if_neg object, if_neg object]
      by_cases hello : kind peer ≠ ascii "hello"
      · rw [if_pos hello, if_pos hello]
        exact defines_some (fun _ same => absurd same hello) _
      · rw [if_neg hello, if_neg hello]
        refine Defines.congr (defines_getInt? peer (ascii "protocolVersion") (by decide)).map ?_
        exact ⟨fun fits _ _ => fits,
          fun fits => fits (by simpa using object) (not_not.mp hello)⟩

/-! ### Settings -/

def validateStreamSettings? (settings : Value) : Option (Except IpcError StreamSettings) :=
  if settings.isNull then some (.ok .default)
  else if settings.isObject = false then
    some (.error (badParams (ascii "settings must be an object")))
  else do
    let d := StreamSettings.default
    let width ← getInt? settings (ascii "width") d.width
    let height ← getInt? settings (ascii "height") d.height
    let fps ← getInt? settings (ascii "fps") d.fps
    let bitrateKbps ← getInt? settings (ascii "bitrateKbps") d.bitrateKbps
    let s : StreamSettings :=
      { width, height, fps, bitrateKbps
        displayMode := settings.getStr (ascii "displayMode") d.displayMode
        hdr := settings.getBool (ascii "hdr") d.hdr }
    return if s.width < 256 ∨ s.width > 7680 then
        .error (badParams (ascii "width out of range [256,7680]"))
      else if s.height < 144 ∨ s.height > 4320 then
        .error (badParams (ascii "height out of range [144,4320]"))
      else if s.fps < 10 ∨ s.fps > 240 then .error (badParams (ascii "fps out of range [10,240]"))
      else if s.bitrateKbps < 500 ∨ s.bitrateKbps > 500000 then
        .error (badParams (ascii "bitrateKbps out of range [500,500000]"))
      else if isKnownMode s.displayMode = false then
        .error (badParams (ascii "displayMode must be windowed|fullscreen|borderless"))
      else .ok s

/-- The four numbers of the settings. -/
def SettingsFit (settings : Value) : Prop :=
  IntField settings (ascii "width") ∧ IntField settings (ascii "height") ∧
    IntField settings (ascii "fps") ∧ IntField settings (ascii "bitrateKbps")

theorem intField_of_not_object {v : Value} (other : v.isObject = false) (k : Bytes) :
    IntField v k := by
  cases v with
  | obj members => cases other
  | _ => nofun

theorem defines_validateStreamSettings? (settings : Value) :
    Defines (validateStreamSettings? settings) (SettingsFit settings)
      (validateStreamSettings settings) := by
  have number := fun k (default : Int) (small : default.natAbs < 2 ^ 31) =>
    defines_getInt? settings k small
  by_cases object : settings.isObject = false
  · have fits : SettingsFit settings := by
      have field := intField_of_not_object object
      exact ⟨field _, field _, field _, field _⟩
    rw [validateStreamSettings?, validateStreamSettings, if_pos object, if_pos object]
    split <;> exact defines_some fits _
  · have notNull : ¬ settings.isNull = true := by
      cases settings <;> simp_all [Value.isNull, Value.isObject]
    rw [validateStreamSettings?, validateStreamSettings, if_neg notNull, if_neg notNull,
      if_neg object, if_neg object]
    exact (number _ _ (by decide)).bind ((number _ _ (by decide)).bind
      ((number _ _ (by decide)).bind (number _ _ (by decide)).map))

/-! ### Requests -/

/-- The two engines, by the methods that they register. -/
inductive Mode where
  | client
  | host (backend : Backend) (files : Path → Option Bytes)

def handlerConversions? (mode : Mode) (method : Bytes) (params : Value) : Option Unit :=
  match mode with
  | .client =>
    if method = ascii "client.start" then do
      let _settings ← validateStreamSettings? ((params.find (ascii "settings")).getD .null)
      some ()
    else some ()
  | .host backend files => hostConversions? backend files method params

/-- The numbers that the handler of a method converts. -/
def HandlerFits (mode : Mode) (method : Bytes) (params : Value) : Prop :=
  match mode with
  | .client => method = ascii "client.start" →
      SettingsFit ((params.find (ascii "settings")).getD .null)
  | .host backend files => HostFits backend files method params

theorem handlerConversions?_isSome (mode : Mode) (method : Bytes) (params : Value) :
    (handlerConversions? mode method params).isSome = true ↔ HandlerFits mode method params := by
  cases mode with
  | client =>
    simp only [handlerConversions?, HandlerFits]
    by_cases start : method = ascii "client.start"
    · rw [if_pos start, forall_prop_of_true start]
      exact ((defines_validateStreamSettings? _).map (f := fun _ => ())).isSome
    · rw [if_neg start]
      exact iff_of_true rfl fun same => absurd same start
  | host backend files => exact hostConversions?_isSome backend files method params

def echoedId? (msg : Value) : Option Double := do
  let id ← (msg.getNum (ascii "id") (ofInt 0)).toUnsigned64?
  return ofInt id

/-- What `run` converts for one frame. The id is converted again when the response is written; the
other numbers of a response are no parsed ones. -/
def serveRequest? (mode : Mode) (raw : Bytes) : Option Unit :=
  match request? raw with
  | none => some ()
  | some msg => do
    let id ← echoedId? msg
    handlerConversions? mode (method msg) (params msg)
    let _text ← dumpNum? id
    some ()

/-- The numbers of a request. The id has to fit into `uint64_t` and into `long long`. -/
structure RequestFits (mode : Mode) (msg : Value) : Prop where
  id : ∀ d, msg.find (ascii "id") = some (.num d) → d.TruncatesIn 0 (2 ^ 63)
  handler : HandlerFits mode (method msg) (params msg)

theorem defines_echoedId? (msg : Value) : Defines (echoedId? msg)
    ((msg.getNum (ascii "id") (ofInt 0)).TruncatesIn 0 (2 ^ 64)) (echoedId msg) := by
  have converts : Defines (msg.getNum (ascii "id") (ofInt 0)).toUnsigned64?
      ((msg.getNum (ascii "id") (ofInt 0)).TruncatesIn 0 (2 ^ 64)) _ := fun _ => toUnsigned64?_eq_some
  exact converts.map

/-- Half of the ids that can be read can be written. -/
theorem dumpable_echoedId {msg : Value} :
    (msg.getNum (ascii "id") (ofInt 0)).TruncatesIn 0 (2 ^ 64) ∧ Dumpable (echoedId msg) ↔
      (msg.getNum (ascii "id") (ofInt 0)).TruncatesIn 0 (2 ^ 63) := by
  rw [echoedId]
  generalize msg.getNum (ascii "id") (ofInt 0) = d
  have written : ∀ x : Binary64.Finite, d = .finite x → 0 ≤ x.trunc → x.trunc < 2 ^ 64 →
      (Dumpable (ofInt (d.toUnsigned64 : Int)) ↔ x.trunc < 2 ^ 63) := by
    rintro x rfl low high
    have whole : ((Double.finite x).toUnsigned64 : Int) = x.trunc := by
      rw [Double.toUnsigned64, if_pos low, if_pos high]
      exact Int.toNat_of_nonneg low
    have finite : (ofInt x.trunc).isFinite = true := by
      obtain ⟨y, value, -⟩ := (truncatesIn_ofInt_trunc x).mpr ⟨low, high⟩
      rw [value]
      rfl
    rw [whole, Dumpable, forall_prop_of_true finite, truncatesIn_ofInt_trunc]
    omega
  constructor
  · rintro ⟨⟨x, value, low, high⟩, dumpable⟩
    exact ⟨x, value, low, (written x value low high).mp dumpable⟩
  · rintro ⟨x, value, low, high⟩
    have wide : x.trunc < 2 ^ 64 := by omega
    exact ⟨⟨x, value, low, wide⟩, (written x value low wide).mpr high⟩

theorem serveRequest?_isSome (mode : Mode) (raw : Bytes) :
    (serveRequest? mode raw).isSome = true ↔
      ∀ msg, request? raw = some msg → RequestFits mode msg := by
  rw [serveRequest?]
  cases request? raw with
  | none => exact iff_of_true rfl nofun
  | some msg =>
    have handled : Defines (handlerConversions? mode (method msg) (params msg))
        (HandlerFits mode (method msg) (params msg)) () := by
      intro b
      rw [← handlerConversions?_isSome, Option.isSome_iff_exists]
      exact ⟨fun value => ⟨⟨b, value⟩, rfl⟩, fun ⟨⟨_, value⟩, _⟩ => value⟩
    have written := (defines_dumpNum? (echoedId msg)).map (f := fun _ => ())
    have served := (Defines.bind (f := fun id => handlerConversions? mode (method msg) (params msg) >>=
      fun _ => dumpNum? id >>= fun _ => some ()) (defines_echoedId? msg) (handled.bind written)).isSome
    simp only [Option.some.injEq, forall_eq']
    refine served.trans ?_
    rw [and_left_comm, dumpable_echoedId, getNum_truncatesIn (by decide) (by decide), and_comm]
    exact ⟨fun ⟨id, handler⟩ => ⟨id, handler⟩, fun fits => ⟨fits.id, fits.handler⟩⟩

/-- A message stays clear of undefined conversions exactly when its own numbers, and the numbers of
the files that its method reads, truncate into the ranges that they are converted to. -/
theorem conversions_iff (mode : Mode) (raw : Bytes) :
    ((checkHello? raw).isSome = true ↔ HelloFits raw) ∧
      ((serveRequest? mode raw).isSome = true ↔
        ∀ msg, request? raw = some msg → RequestFits mode msg) :=
  ⟨(defines_checkHello? raw).isSome, serveRequest?_isSome mode raw⟩

/-- A request whose id is below zero. -/
def negativeRequest : Value :=
  ((Value.obj []).set (ascii "kind") (.str (ascii "req"))).set (ascii "id") (.num (ofInt (-1)))

theorem parse_negative : parse (dump negativeRequest) = some negativeRequest :=
  Value.Codable.parse_dump ((Value.codable_obj.set _ (Value.codable_str _)).set _
    (Value.codable_int (by decide)))

theorem request_negative : request? (dump negativeRequest) = some negativeRequest := by
  rw [request?, parse_negative]
  exact if_pos ⟨rfl, by decide⟩

theorem negative_id_undefined : ¬ ∀ (mode : Mode) (raw : Bytes) (v : Value), parse raw = some v →
    (checkHello? raw).isSome = true ∧ (serveRequest? mode raw).isSome = true := by
  intro always
  have defined := (always .client _ _ parse_negative).2
  have fits := (serveRequest?_isSome _ _).mp defined negativeRequest request_negative
  have found : negativeRequest.find (ascii "id") = some (.num (ofInt (-1))) := by
    rw [negativeRequest, Value.find_set, if_pos rfl]
  exact absurd ((truncatesIn_ofInt (by decide)).mp (fits.id _ found)).1 (by decide)

end StreamEngine.Ipc
