import StreamEngine.Client.StreamConfig

/-! The settings that `client.start` accepts, against the documented ones. Members are read
through accessors that give the default for a value of another type, and a number is truncated
before it is compared with its bounds. -/
namespace StreamEngine.Client
open ByteString Binary64 Json

/-- The results of `validate_stream_settings`: its return value and its three out-parameters. -/
structure Validation where
  accepted : Bool
  out : StreamSettings
  code : Bytes
  msg : Bytes

/-- `validate_stream_settings` on what its out-parameters hold before the call. -/
def validateInto (settings : Value) (out : StreamSettings) (code msg : Bytes) : Validation :=
  match validateStreamSettings settings with
  | .ok s => ⟨true, s, code, msg⟩
  | .error (code, msg) => ⟨false, out, code, msg⟩

/-! ### The documented settings -/

/-- A member that may be absent, and is read otherwise. -/
def Member {β : Type} (v : Value) (k : Bytes) (default : β) (reads : Value → β → Prop) (b : β) :
    Prop :=
  match v.find k with
  | none => b = default
  | some child => reads child b

/-- A number within its bounds as it is given, truncated afterwards. -/
def NumberIn (low high : Nat) (child : Value) (z : Int) : Prop :=
  ∃ x, child = .num (.finite x) ∧ (low : ℚ) ≤ x.value ∧ x.value ≤ high ∧ z = x.trunc

def displayModes : List Bytes := [ascii "windowed", ascii "fullscreen", ascii "borderless"]

def ModeText (child : Value) (mode : Bytes) : Prop := child = .str mode ∧ mode ∈ displayModes

def Flag (child : Value) (b : Bool) : Prop := child = .bool b

/-- The settings that an object documents. -/
structure Documents (v : Value) (s : StreamSettings) : Prop where
  width : Member v (ascii "width") 1920 (NumberIn 256 7680) s.width
  height : Member v (ascii "height") 1080 (NumberIn 144 4320) s.height
  fps : Member v (ascii "fps") 60 (NumberIn 10 240) s.fps
  bitrateKbps : Member v (ascii "bitrateKbps") 20000 (NumberIn 500 500000) s.bitrateKbps
  displayMode : Member v (ascii "displayMode") (ascii "fullscreen") ModeText s.displayMode
  hdr : Member v (ascii "hdr") false Flag s.hdr

/-- What valid settings stand for. -/
inductive Normalizes : Value → StreamSettings → Prop where
  | null : Normalizes .null .default
  | object {members : List (Bytes × Value)} {s : StreamSettings}
      (documents : Documents (.obj members) s) : Normalizes (.obj members) s

/-- The validator accepts exactly the valid settings and puts out what they stand for. Other
settings leave the out-parameter alone. -/
def Meets (v : Value) : Prop :=
  ∀ out code msg,
    ((validateInto v out code msg).accepted = true ↔ ∃ s, Normalizes v s) ∧
    ((validateInto v out code msg).accepted = true →
      Normalizes v (validateInto v out code msg).out) ∧
    ((validateInto v out code msg).accepted = false →
      (validateInto v out code msg).out = out ∧
        (validateInto v out code msg).code = ascii "bad_params")

/-! ### Where the validator differs -/

/-- The member is there, with such a value. -/
def Present (v : Value) (k : Bytes) (p : Value → Prop) : Prop := ∃ child, v.find k = some child ∧ p child

/-- A number that does not truncate to one within the bounds. -/
def NumberOutside (low high : Nat) (child : Value) : Prop :=
  ∃ d, child = .num d ∧ ∀ x, d = .finite x → ¬ ((low : ℚ) ≤ x.value ∧ x.value < high + 1)

/-- Not a number, or one above its bound by less than one. -/
def NumberMissed (high : Nat) (child : Value) : Prop :=
  (∀ d, child ≠ .num d) ∨
    ∃ x, child = .num (.finite x) ∧ (high : ℚ) < x.value ∧ x.value < high + 1

/-- Some member is of its type, and out of bounds even after truncation. -/
def Outside (v : Value) : Prop :=
  Present v (ascii "width") (NumberOutside 256 7680) ∨
  Present v (ascii "height") (NumberOutside 144 4320) ∨
  Present v (ascii "fps") (NumberOutside 10 240) ∨
  Present v (ascii "bitrateKbps") (NumberOutside 500 500000) ∨
  Present v (ascii "displayMode") (fun child => ∃ mode, child = .str mode ∧ mode ∉ displayModes)

/-- Some member is of another type, or a number above its bound by less than one. -/
def Missed (v : Value) : Prop :=
  Present v (ascii "width") (NumberMissed 7680) ∨
  Present v (ascii "height") (NumberMissed 4320) ∨
  Present v (ascii "fps") (NumberMissed 240) ∨
  Present v (ascii "bitrateKbps") (NumberMissed 500000) ∨
  Present v (ascii "displayMode") (fun child => ∀ mode, child ≠ .str mode) ∨
  Present v (ascii "hdr") (fun child => ∀ b, child ≠ .bool b)

variable {v : Value} {k : Bytes} {low high : Nat} {default : Int}

theorem toSigned_bounds_iff (positive : 0 < low) (small : high < 2 ^ 31 - 1) (x : Finite) :
    ((low : Int) ≤ (Double.finite x).toSigned 32 ∧ (Double.finite x).toSigned 32 ≤ high) ↔
      (low : ℚ) ≤ x.value ∧ x.value < high + 1 := by
  have lower := le_trunc_iff (x := x) positive
  have upper := le_trunc_iff (x := x) (Nat.succ_pos high)
  rw [← lower, ← not_le]
  push_cast at upper
  rw [← upper, Double.toSigned]
  split <;> omega

theorem toSigned_of_default (positive : 0 < low) (small : high < 2 ^ 31 - 1)
    (inside : (low : Int) ≤ default ∧ default ≤ high) : (ofInt default).toSigned 32 = default := by
  obtain ⟨x, value, -, trunc⟩ := exists_ofInt (z := default) (by omega)
  rw [value, Double.toSigned, trunc]
  exact if_pos (by omega)

/-- The test of a number's bounds, by what is found under its key. -/
theorem getInt_bounds_iff (positive : 0 < low) (small : high < 2 ^ 31 - 1)
    (inside : (low : Int) ≤ default ∧ default ≤ high) :
    ((low : Int) ≤ getInt v k default ∧ getInt v k default ≤ high) ↔
      ¬ Present v k (NumberOutside low high) := by
  have absent := toSigned_of_default positive small inside
  rw [getInt, Value.getNum, Present]
  split
  · rename_i d found
    simp only [found, Option.some.injEq, NumberOutside, exists_eq_left', Value.num.injEq]
    cases d with
    | finite x => simpa using toSigned_bounds_iff positive small x
    | infinite | nan =>
      simp only [Double.toSigned, reduceCtorEq, false_implies, implies_true, not_true_eq_false,
        iff_false]
      omega
  · rename_i other
    rw [absent]
    refine iff_of_true inside ?_
    rintro ⟨child, found, d, rfl, -⟩
    exact other d found

theorem NumberIn.not_outside {child : Value} {z : Int} (number : NumberIn low high child z) :
    ¬ NumberOutside low high child := by
  obtain ⟨x, rfl, lower, upper, -⟩ := number
  rintro ⟨d, same, outside⟩
  cases same
  exact outside x rfl ⟨lower, upper.trans_lt (lt_add_one _)⟩

theorem NumberIn.not_missed {child : Value} {z : Int} (number : NumberIn low high child z) :
    ¬ NumberMissed high child := by
  obtain ⟨x, rfl, -, upper, -⟩ := number
  rintro (other | ⟨y, same, above, -⟩)
  · exact other _ rfl
  · cases same
    exact absurd upper (not_le.mpr above)

/-- A member that is read is none of the values that the reading excludes. -/
theorem Member.not_present {β : Type} {default b : β} {reads : Value → β → Prop} {p : Value → Prop}
    (member : Member v k default reads b) (excludes : ∀ child, reads child b → ¬ p child) :
    ¬ Present v k p := by
  rintro ⟨child, found, held⟩
  rw [Member, found] at member
  exact excludes child member held

/-- A number that is neither out of bounds nor missed is read as documented. -/
theorem member_getInt (positive : 0 < low) (small : high < 2 ^ 31 - 1)
    (inside : (low : Int) ≤ default ∧ default ≤ high)
    (fits : ¬ Present v k (NumberOutside low high)) (right : ¬ Present v k (NumberMissed high)) :
    Member v k default (NumberIn low high) (getInt v k default) := by
  rw [Member, getInt, Value.getNum]
  cases found : v.find k with
  | none => exact toSigned_of_default positive small inside
  | some child =>
    have number : ∃ d, child = .num d := by
      by_contra other
      exact right ⟨child, found, .inl (not_exists.mp other)⟩
    obtain ⟨d, rfl⟩ := number
    have bounded : ∃ x, d = .finite x ∧ (low : ℚ) ≤ x.value ∧ x.value < high + 1 := by
      by_contra outside
      exact fits ⟨_, found, d, rfl, fun x same bounds => outside ⟨x, same, bounds⟩⟩
    obtain ⟨x, rfl, lower, upper⟩ := bounded
    have below : x.value ≤ high := by
      by_contra above
      exact right ⟨_, found, .inr ⟨x, rfl, not_le.mp above, upper⟩⟩
    have first := (le_trunc_iff positive).mpr lower
    have last : ¬ ((high + 1 : Nat) : Int) ≤ x.trunc := fun reaches =>
      absurd ((le_trunc_iff (Nat.succ_pos high)).mp reaches) (not_le.mpr (by exact_mod_cast upper))
    refine ⟨x, rfl, lower, below, ?_⟩
    rw [Double.toSigned]
    exact if_pos (by push_cast at last; omega)

theorem member_getStr (known : ¬ Present v k fun child => ∃ mode, child = .str mode ∧ mode ∉ displayModes)
    (right : ¬ Present v k fun child => ∀ mode, child ≠ .str mode) (default : Bytes) :
    Member v k default ModeText (v.getStr k default) := by
  rw [Member, Value.getStr]
  cases found : v.find k with
  | none => rfl
  | some child =>
    have text : ∃ mode, child = .str mode := by
      by_contra other
      exact right ⟨child, found, not_exists.mp other⟩
    obtain ⟨mode, rfl⟩ := text
    refine ⟨rfl, ?_⟩
    by_contra unknown
    exact known ⟨_, found, mode, rfl, unknown⟩

theorem member_getBool (right : ¬ Present v k fun child => ∀ b, child ≠ .bool b) (default : Bool) :
    Member v k default Flag (v.getBool k default) := by
  rw [Member, Value.getBool]
  cases found : v.find k with
  | none => rfl
  | some child =>
    have flag : ∃ b, child = .bool b := by
      by_contra other
      exact right ⟨child, found, not_exists.mp other⟩
    obtain ⟨b, rfl⟩ := flag
    rfl

theorem isKnownMode_iff {mode : Bytes} : isKnownMode mode = true ↔ mode ∈ displayModes := by
  simp [isKnownMode, displayModes, or_assoc]

theorem isKnownMode_getStr_iff {default : Bytes} (known : default ∈ displayModes) :
    isKnownMode (v.getStr k default) = true ↔
      ¬ Present v k fun child => ∃ mode, child = .str mode ∧ mode ∉ displayModes := by
  rw [isKnownMode_iff, Value.getStr, Present]
  split
  · rename_i mode found
    simp [found]
  · rename_i other
    refine iff_of_true known ?_
    rintro ⟨child, found, mode, rfl, -⟩
    exact other mode found

/-! ### The validator -/

/-- The members of an object as the validator reads them. -/
def readSettings (v : Value) : StreamSettings where
  width := getInt v (ascii "width") 1920
  height := getInt v (ascii "height") 1080
  fps := getInt v (ascii "fps") 60
  bitrateKbps := getInt v (ascii "bitrateKbps") 20000
  displayMode := v.getStr (ascii "displayMode") (ascii "fullscreen")
  hdr := v.getBool (ascii "hdr") false

/-- The checks of the validator, in its order. -/
structure InRange (s : StreamSettings) : Prop where
  width : 256 ≤ s.width ∧ s.width ≤ 7680
  height : 144 ≤ s.height ∧ s.height ≤ 4320
  fps : 10 ≤ s.fps ∧ s.fps ≤ 240
  bitrateKbps : 500 ≤ s.bitrateKbps ∧ s.bitrateKbps ≤ 500000
  displayMode : isKnownMode s.displayMode = true

theorem inRange_readSettings_iff (v : Value) : InRange (readSettings v) ↔ ¬ Outside v := by
  have width : (256 ≤ getInt v (ascii "width") 1920 ∧ getInt v (ascii "width") 1920 ≤ 7680) ↔
      ¬ Present v (ascii "width") (NumberOutside 256 7680) :=
    getInt_bounds_iff (by decide) (by decide) (by decide)
  have height : (144 ≤ getInt v (ascii "height") 1080 ∧ getInt v (ascii "height") 1080 ≤ 4320) ↔
      ¬ Present v (ascii "height") (NumberOutside 144 4320) :=
    getInt_bounds_iff (by decide) (by decide) (by decide)
  have fps : (10 ≤ getInt v (ascii "fps") 60 ∧ getInt v (ascii "fps") 60 ≤ 240) ↔
      ¬ Present v (ascii "fps") (NumberOutside 10 240) :=
    getInt_bounds_iff (by decide) (by decide) (by decide)
  have bitrate : (500 ≤ getInt v (ascii "bitrateKbps") 20000 ∧
        getInt v (ascii "bitrateKbps") 20000 ≤ 500000) ↔
      ¬ Present v (ascii "bitrateKbps") (NumberOutside 500 500000) :=
    getInt_bounds_iff (by decide) (by decide) (by decide)
  have mode : isKnownMode (v.getStr (ascii "displayMode") (ascii "fullscreen")) = true ↔ _ :=
    isKnownMode_getStr_iff (by decide)
  simp only [Outside, not_or, ← width, ← height, ← fps, ← bitrate, ← mode]
  exact ⟨fun range => ⟨range.width, range.height, range.fps, range.bitrateKbps, range.displayMode⟩,
    fun ⟨width, height, fps, bitrate, mode⟩ => ⟨width, height, fps, bitrate, mode⟩⟩

/-- The settings of an object are accepted as they are read, or not at all. -/
theorem validate_object (members : List (Bytes × Value)) :
    (InRange (readSettings (.obj members)) ∧
      validateStreamSettings (.obj members) = .ok (readSettings (.obj members))) ∨
    (¬ InRange (readSettings (.obj members)) ∧
      ∃ msg, validateStreamSettings (.obj members) = .error (badParams msg)) := by
  have checks : validateStreamSettings (.obj members) =
      let s := readSettings (.obj members)
      if s.width < 256 ∨ s.width > 7680 then
        .error (badParams (ascii "width out of range [256,7680]"))
      else if s.height < 144 ∨ s.height > 4320 then
        .error (badParams (ascii "height out of range [144,4320]"))
      else if s.fps < 10 ∨ s.fps > 240 then .error (badParams (ascii "fps out of range [10,240]"))
      else if s.bitrateKbps < 500 ∨ s.bitrateKbps > 500000 then
        .error (badParams (ascii "bitrateKbps out of range [500,500000]"))
      else if isKnownMode s.displayMode = false then
        .error (badParams (ascii "displayMode must be windowed|fullscreen|borderless"))
      else .ok s := rfl
  rw [checks]
  generalize readSettings (.obj members) = s
  dsimp only
  split
  · rename_i out
    exact .inr ⟨fun range => by have bounds := range.width; omega, _, rfl⟩
  split
  · rename_i out
    exact .inr ⟨fun range => by have bounds := range.height; omega, _, rfl⟩
  split
  · rename_i out
    exact .inr ⟨fun range => by have bounds := range.fps; omega, _, rfl⟩
  split
  · rename_i out
    exact .inr ⟨fun range => by have bounds := range.bitrateKbps; omega, _, rfl⟩
  split
  · rename_i unknown
    exact .inr ⟨fun range => by simp [range.displayMode] at unknown, _, rfl⟩
  · rename_i width height fps bitrate mode
    exact .inl ⟨⟨by omega, by omega, by omega, by omega, Bool.eq_true_of_not_eq_false mode⟩, rfl⟩

theorem Documents.inside {s : StreamSettings} (documents : Documents v s) : ¬ Outside v := by
  rintro (out | out | out | out | out)
  · exact documents.width.not_present (fun _ number => number.not_outside) out
  · exact documents.height.not_present (fun _ number => number.not_outside) out
  · exact documents.fps.not_present (fun _ number => number.not_outside) out
  · exact documents.bitrateKbps.not_present (fun _ number => number.not_outside) out
  · refine documents.displayMode.not_present ?_ out
    rintro _ ⟨rfl, known⟩ ⟨mode, same, unknown⟩
    cases same
    exact unknown known

theorem Documents.right {s : StreamSettings} (documents : Documents v s) : ¬ Missed v := by
  rintro (missed | missed | missed | missed | missed | missed)
  · exact documents.width.not_present (fun _ number => number.not_missed) missed
  · exact documents.height.not_present (fun _ number => number.not_missed) missed
  · exact documents.fps.not_present (fun _ number => number.not_missed) missed
  · exact documents.bitrateKbps.not_present (fun _ number => number.not_missed) missed
  · refine documents.displayMode.not_present ?_ missed
    rintro _ ⟨rfl, -⟩ other
    exact other _ rfl
  · refine documents.hdr.not_present ?_ missed
    rintro _ rfl other
    exact other _ rfl

/-- Members that are neither out of bounds nor missed are read as documented. -/
theorem documents_readSettings (inside : ¬ Outside v) (right : ¬ Missed v) :
    Documents v (readSettings v) := by
  simp only [Outside, Missed, not_or] at inside right
  obtain ⟨width, height, fps, bitrate, mode⟩ := inside
  obtain ⟨width', height', fps', bitrate', mode', hdr'⟩ := right
  exact
    { width := member_getInt (by decide) (by decide) (by decide) width width'
      height := member_getInt (by decide) (by decide) (by decide) height height'
      fps := member_getInt (by decide) (by decide) (by decide) fps fps'
      bitrateKbps := member_getInt (by decide) (by decide) (by decide) bitrate bitrate'
      displayMode := member_getStr mode mode' (ascii "fullscreen")
      hdr := member_getBool hdr' false }

theorem normalizes_obj_iff {members : List (Bytes × Value)} {s : StreamSettings} :
    Normalizes (.obj members) s ↔ Documents (.obj members) s := by
  constructor
  · rintro ⟨⟩
    assumption
  · exact .object

theorem meets_obj_iff (members : List (Bytes × Value)) :
    Meets (.obj members) ↔ Outside (.obj members) ∨ ¬ Missed (.obj members) := by
  simp only [Meets, validateInto, normalizes_obj_iff]
  rcases validate_object members with ⟨range, validated⟩ | ⟨range, msg, validated⟩
  · have inside := (inRange_readSettings_iff _).mp range
    simp only [validated]
    constructor
    · intro meets
      obtain ⟨-, out, -⟩ := meets .default [] []
      exact .inr (out trivial).right
    · rintro (outside | right)
      · exact absurd outside inside
      · intro out code msg
        have documents := documents_readSettings inside right
        exact ⟨iff_of_true trivial ⟨_, documents⟩, fun _ => documents, nofun⟩
  · have outside : Outside (.obj members) := by
      by_contra inside
      exact range ((inRange_readSettings_iff _).mpr inside)
    simp only [validated]
    refine iff_of_true (fun out code _ => ⟨iff_of_false nofun ?_, nofun, fun _ => ⟨trivial, rfl⟩⟩)
      (.inl outside)
    rintro ⟨s, documents⟩
    exact documents.inside outside

theorem present_of_not_object (other : v.isObject = false) (k : Bytes) (p : Value → Prop) :
    ¬ Present v k p := by
  rintro ⟨child, found, -⟩
  cases v with
  | obj => contradiction
  | _ => contradiction

/-- The validator does what is documented exactly when some member is out of bounds after all, or
no member is missed: none is of another type, and no number is above its bound by less than one. -/
theorem validateStreamSettings_meets_iff (v : Value) : Meets v ↔ Outside v ∨ ¬ Missed v := by
  by_cases object : v.isObject = true
  · cases v with
    | obj members => exact meets_obj_iff members
    | _ => contradiction
  · have other : v.isObject = false := Bool.eq_false_iff.mpr object
    have unread : ¬ Missed v := by simp [Missed, present_of_not_object other]
    refine iff_of_true ?_ (.inr unread)
    intro out code msg
    cases v with
    | null => exact ⟨iff_of_true rfl ⟨_, .null⟩, fun _ => .null, nofun⟩
    | obj => contradiction
    | bool | num | str | arr =>
      refine ⟨iff_of_false nofun ?_, nofun, fun _ => ⟨rfl, rfl⟩⟩
      rintro ⟨s, ⟨⟩⟩

/-- An accepted object with a missed member. -/
theorem not_meets_of_accepted {members : List (Bytes × Value)}
    (accepted : (validateInto (.obj members) .default [] []).accepted = true)
    (missed : Missed (.obj members)) : ¬ Meets (.obj members) := by
  rw [meets_obj_iff]
  rintro (outside | right)
  · rcases validate_object members with ⟨range, -⟩ | ⟨-, msg, validated⟩
    · exact (inRange_readSettings_iff _).mp range outside
    · simp [validateInto, validated] at accepted
  · exact right missed

/-- The number `7680.5`. -/
def halfAbove : Finite :=
  ⟨false, 15361 * 2 ^ 39, 1034, by decide, by decide, Or.inr (by decide)⟩

theorem halfAbove_value : halfAbove.value = 15361 / 2 := by
  have one : (0 : ℚ) < unitsPerOne := by exact_mod_cast unitsPerOne_pos
  have units : halfAbove.units * 2 = 15361 * unitsPerOne := by
    decide +kernel
  have scaled : (halfAbove.units : ℚ) * 2 = 15361 * unitsPerOne := by exact_mod_cast units
  have positive : halfAbove.neg = false := rfl
  rw [Finite.value, positive]
  simp only [Bool.false_eq_true, if_false, one_mul]
  rw [div_eq_div_iff one.ne' two_ne_zero, scaled]

/-- A width of another type is ignored, and one above its bound is taken for the bound. -/
theorem validateStreamSettings_misses :
    ((validateInto (.obj [(ascii "width", .str (ascii "9000"))]) .default [] []).accepted = true ∧
      ¬ Meets (.obj [(ascii "width", .str (ascii "9000"))])) ∧
    ((validateInto (.obj [(ascii "width", .num (.finite halfAbove))]) .default [] []).accepted =
        true ∧
      ¬ Meets (.obj [(ascii "width", .num (.finite halfAbove))])) := by
  have text : (validateInto (.obj [(ascii "width", .str (ascii "9000"))]) .default [] []).accepted =
      true := by decide +kernel
  have half : (validateInto (.obj [(ascii "width", .num (.finite halfAbove))]) .default
      [] []).accepted = true := by decide +kernel
  refine ⟨⟨text, not_meets_of_accepted text ?_⟩, half, not_meets_of_accepted half ?_⟩
  · exact .inl ⟨.str (ascii "9000"), by simp [Value.find, OrderedMap.lookup], .inl nofun⟩
  · refine .inl ⟨.num (.finite halfAbove), by simp [Value.find, OrderedMap.lookup], .inr ⟨halfAbove, rfl, ?_⟩⟩
    rw [halfAbove_value]
    norm_num

end StreamEngine.Client
