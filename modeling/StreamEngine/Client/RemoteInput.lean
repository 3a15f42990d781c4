import StreamEngine.Library.Digits
import StreamEngine.Library.Query
import StreamEngine.Client.Handlers
import StreamEngine.Net.XmlProofs

/-! The remote-input key and its id go two ways: as text in the launch or resume query, and as
bytes in the stream configuration. The host only accepts input when both arrive the same. -/
namespace StreamEngine.Client
open ByteString Decimal Json Net Engine Query

/-- The remote-input fields of `STREAM_CONFIGURATION`. -/
structure RemoteInput where
  aesKey : Bytes
  aesIv : Bytes

/-- One byte of the key id, `(id >> shift) & 0xff`. The shift of a signed number rounds down. -/
def ivByte (id : Int) (shift : Nat) : UInt8 := ((id / 2 ^ shift) % 256).toNat.toUInt8

/-- What `run` puts in the stream configuration. `start` has checked that the key has 16 bytes. -/
def remoteInput (info : StartInfo) : RemoteInput where
  aesKey := info.riKey.take 16
  aesIv := [ivByte info.riKeyId 24, ivByte info.riKeyId 16, ivByte info.riKeyId 8,
    ivByte info.riKeyId 0] ++ List.replicate 12 0

/-- The number that the bytes spell, the first being the most significant. -/
def bigEndian (bytes : Bytes) : Nat := bytes.foldl (fun n c => 256 * n + c.toNat) 0

/-- What the host reads from the query is what the stream is encrypted with. -/
structure Agrees (query : Bytes) (input : RemoteInput) : Prop where
  key : ∃ hex, parameter (ascii "rikey") query = some hex ∧ fromHex hex = input.aesKey
  id : ∃ text, parameter (ascii "rikeyid") query = some text ∧ text ≠ [] ∧
    (∀ c ∈ text, isDigit c = true) ∧ digitsValue text = bigEndian (input.aesIv.take 4)
  zeros : input.aesIv.drop 4 = List.replicate 12 0

theorem makeRiKeyId_range (four : Bytes) : ∃ id : Nat, makeRiKeyId four = id ∧ id < 2 ^ 31 := by
  unfold makeRiKeyId
  split
  · exact ⟨_, rfl, Nat.mod_lt _ (by decide)⟩
  · exact ⟨0, rfl, by decide⟩

theorem ivByte_toNat (id shift : Nat) : (ivByte id shift).toNat = id / 2 ^ shift % 256 := by
  have cast : ((id : Int) / 2 ^ shift % 256).toNat = id / 2 ^ shift % 256 := by norm_cast
  rw [ivByte, cast, Nat.toUInt8, UInt8.toNat_ofNat_of_lt']
  exact Nat.mod_lt _ (by decide)

/-- The four bytes of the IV spell the id. -/
theorem bigEndian_ivBytes {id : Nat} (small : id < 2 ^ 31) :
    bigEndian [ivByte id 24, ivByte id 16, ivByte id 8, ivByte id 0] = id := by
  simp only [bigEndian, List.foldl_cons, List.foldl_nil, ivByte_toNat]
  omega

/-- The two parameters of the key as both queries hold them, up to the next ampersand. -/
def keyParameters (cfg : LaunchConfig) (rest : Bytes) : Bytes :=
  assign (ascii "rikey") cfg.riKeyHex ++ 38 :: (assign (ascii "rikeyid") (printInt cfg.riKeyId) ++ 38 :: rest)

theorem buildResumeArgs_keyed (cfg : LaunchConfig) :
    ∃ rest, buildResumeArgs cfg = keyParameters cfg rest := by
  have key : ascii "rikey=" = ascii "rikey" ++ [61] := by decide
  have id : ascii "&rikeyid=" = 38 :: (ascii "rikeyid" ++ [61]) := by decide
  have next : ascii "&surroundAudioInfo=" = 38 :: ascii "surroundAudioInfo=" := by decide
  refine ⟨ascii "surroundAudioInfo=" ++ (printInt cfg.surroundAudioInfo ++ cfg.extraQuery), ?_⟩
  simp only [buildResumeArgs, keyParameters, assign, key, id, next, List.append_assoc,
    List.cons_append, List.nil_append]

/-- The mode of a launch request. Host software of the GFE kind is given no frame rate above 60. -/
def modeText (cfg : LaunchConfig) : Bytes :=
  printInt cfg.width ++ (ascii "x" ++ (printInt cfg.height ++ (ascii "x" ++
    printInt (if cfg.fps > 60 ∧ cfg.isGfe then 0 else cfg.fps))))

/-- The launch query after the parameters of the key. -/
def afterKey (cfg : LaunchConfig) : Bytes :=
  (if cfg.hdr then kHdrQuery else []) ++ (ascii "&localAudioPlayMode=" ++ (flag cfg.localAudio ++
    (ascii "&surroundAudioInfo=" ++ (printInt cfg.surroundAudioInfo ++
      (ascii "&remoteControllersBitmap=" ++ (printInt cfg.gamepadMask ++ (ascii "&gcmap=" ++
        (printInt cfg.gamepadMask ++ (ascii "&gcpersist=" ++ (flag cfg.persistControllers ++
          cfg.extraQuery))))))))))

theorem afterKey_starts (cfg : LaunchConfig) : ∃ rest, afterKey cfg = 38 :: rest := by
  have hdr : ∃ t, kHdrQuery = 38 :: t := ⟨kHdrQuery.tail, by decide +kernel⟩
  have audio : ascii "&localAudioPlayMode=" = 38 :: ascii "localAudioPlayMode=" := by decide
  unfold afterKey
  split
  · obtain ⟨t, hdr⟩ := hdr
    exact ⟨_, by rw [hdr, List.cons_append]⟩
  · exact ⟨_, by rw [audio, List.nil_append, List.cons_append]⟩

theorem buildLaunchArgs_keyed (cfg : LaunchConfig) : ∃ rest, buildLaunchArgs cfg =
    assign (ascii "appid") (printInt cfg.appId) ++ 38 :: (assign (ascii "mode") (modeText cfg) ++
      38 :: (assign (ascii "additionalStates") (ascii "1") ++
        38 :: (assign (ascii "sops") (flag cfg.sops) ++ 38 :: keyParameters cfg rest))) := by
  have app : ascii "appid=" = ascii "appid" ++ [61] := by decide
  have mode : ascii "&mode=" = 38 :: (ascii "mode" ++ [61]) := by decide
  have states : ascii "&additionalStates=1&sops=" = 38 :: (ascii "additionalStates" ++
      61 :: (ascii "1" ++ 38 :: (ascii "sops" ++ [61]))) := by decide
  have key : ascii "&rikey=" = 38 :: (ascii "rikey" ++ [61]) := by decide
  have id : ascii "&rikeyid=" = 38 :: (ascii "rikeyid" ++ [61]) := by decide
  have split : buildLaunchArgs cfg = ascii "appid=" ++ (printInt cfg.appId ++ (ascii "&mode=" ++
      (modeText cfg ++ (ascii "&additionalStates=1&sops=" ++ (flag cfg.sops ++ (ascii "&rikey=" ++
        (cfg.riKeyHex ++ (ascii "&rikeyid=" ++ (printInt cfg.riKeyId ++ afterKey cfg))))))))) := by
    unfold buildLaunchArgs modeText afterKey
    simp only [List.append_assoc]
  obtain ⟨rest, tail⟩ := afterKey_starts cfg
  refine ⟨rest, ?_⟩
  rw [split, tail, app, mode, states, key, id]
  simp only [keyParameters, assign, List.append_assoc, List.cons_append, List.nil_append]

theorem digits_free {text : Bytes} (digits : ∀ c ∈ text, isDigit c = true) : 38 ∉ text :=
  fun member => absurd (digits 38 member) (by decide)

theorem printInt_free (z : Int) : 38 ∉ printInt z := by
  have free := digits_free (decimal_digits z.natAbs)
  unfold printInt
  split
  · simpa using free
  · exact free

theorem toHex_free (key : Bytes) : 38 ∉ toHex key := by
  intro member
  rcases toHex_isHexText key 38 member with digit | letter
  · exact absurd digit (by decide)
  · exact absurd letter (by decide)

theorem modeText_free (cfg : LaunchConfig) : 38 ∉ modeText cfg := by
  simp only [modeText, List.mem_append, not_or]
  exact ⟨printInt_free _, by decide, printInt_free _, by decide, printInt_free _⟩

variable {cfg : LaunchConfig} {key : Bytes} {id : Nat}

/-- The parameters of the key are read back from where they stand. -/
theorem agrees_keyParameters {info : StartInfo} (full : info.riKey.length = 16)
    (hex : cfg.riKeyHex = toHex info.riKey) (value : cfg.riKeyId = id) (sent : info.riKeyId = id)
    (small : id < 2 ^ 31) (rest : Bytes) :
    Agrees (keyParameters cfg rest) (remoteInput info) := by
  have text : printInt cfg.riKeyId = decimal id := by simp [value, printInt]
  have hexFree : 38 ∉ cfg.riKeyHex := hex ▸ toHex_free info.riKey
  refine ⟨⟨toHex info.riKey, ?_, ?_⟩, ⟨decimal id, ?_, decimal_ne_nil id, decimal_digits id, ?_⟩, ?_⟩
  · rw [keyParameters, hex]
    exact parameter_here (by decide) (toHex_free info.riKey) _
  · rw [fromHex_toHex, remoteInput, List.take_of_length_le full.le]
  · rw [keyParameters, parameter_skip (by decide) hexFree (by decide), text]
    exact parameter_here (by decide) (digits_free (decimal_digits id)) rest
  · rw [digitsValue_decimal, remoteInput, sent]
    exact (bigEndian_ivBytes small).symm
  · rfl

/-- Parameters of other names before those of the key do not matter. -/
theorem Agrees.skip {name value query : Bytes} {input : RemoteInput} (agrees : Agrees query input)
    (isName : IsName name) (free : 38 ∉ value) (notKey : name ≠ ascii "rikey")
    (notId : name ≠ ascii "rikeyid") : Agrees (assign name value ++ 38 :: query) input where
  key := by rw [parameter_skip isName free notKey]; exact agrees.key
  id := by rw [parameter_skip isName free notId]; exact agrees.id
  zeros := agrees.zeros

theorem agrees_launchArgs {info : StartInfo} (full : info.riKey.length = 16)
    (hex : cfg.riKeyHex = toHex info.riKey) (value : cfg.riKeyId = id) (sent : info.riKeyId = id)
    (small : id < 2 ^ 31) (verb : Bytes) : Agrees (launchArgs verb cfg) (remoteInput info) := by
  unfold launchArgs
  split
  · obtain ⟨rest, same⟩ := buildResumeArgs_keyed cfg
    rw [same]
    exact agrees_keyParameters full hex value sent small rest
  · obtain ⟨rest, same⟩ := buildLaunchArgs_keyed cfg
    have flagFree : 38 ∉ flag cfg.sops := by cases cfg.sops <;> decide
    rw [same]
    apply Agrees.skip _ (by decide) (printInt_free _) (by decide) (by decide)
    apply Agrees.skip _ (by decide) (modeText_free cfg) (by decide) (by decide)
    apply Agrees.skip _ (by decide) (by decide) (by decide) (by decide)
    apply Agrees.skip _ (by decide) flagFree (by decide) (by decide)
    exact agrees_keyParameters full hex value sent small rest

/-! ### The handler -/

/-- What `client.start` starts the session with once the host has accepted its request. -/
def startInfo (params : Value) (settings : StreamSettings) (host info riKey : Bytes) (riKeyId : Int)
    (rtspSessionUrl : Bytes) : StartInfo where
  host := host
  serverAppVersion := xmlText info (ascii "appversion")
  gfeVersion := xmlText info (ascii "GfeVersion")
  rtspSessionUrl := rtspSessionUrl
  serverCodecModeSupport := atoi (xmlText info (ascii "ServerCodecModeSupport"))
  settings := settings
  riKey := riKey
  riKeyId := riKeyId
  embedWindow := params.getBool (ascii "embedWindow") false

/-- From the two draws on, `client.start` sends one query and starts the session with one
configuration, and whatever was drawn, each of the two queries agrees with it. -/
theorem launchAndStart_agrees {X509 : Type} [DecidableEq X509] (env : Environment X509)
    (params : Value) (settings : StreamSettings) (host info : Bytes) (appId : Int) :
    launchAndStart env params settings host info appId = (do
      let riKey ← randomBytes env 16
      let riKeyId := makeRiKeyId (← randomBytes env 4)
      if riKey.length ≠ 16 then
        return .error (ascii "internal", ascii "could not generate the remote-input key")
      else
        launchSession env
          (launchConfig env settings appId (xmlText info (ascii "GfeVersion")) riKey riKeyId)
          (atoi (xmlText info (ascii "currentgame")))
          (startInfo params settings host info riKey riKeyId)) ∧
    ∀ (riKey : { key : Bytes // key.length = 16 }) (four url : Bytes),
      ∀ verb ∈ [ascii "launch", ascii "resume"],
        Agrees (launchArgs verb (launchConfig env settings appId (xmlText info (ascii "GfeVersion"))
            riKey (makeRiKeyId four)))
          (remoteInput (startInfo params settings host info riKey (makeRiKeyId four) url)) := by
  refine ⟨rfl, fun riKey four url verb _ => ?_⟩
  obtain ⟨id, value, small⟩ := makeRiKeyId_range four
  exact agrees_launchArgs riKey.property rfl value value small verb

end StreamEngine.Client
