import StreamEngine.Ipc.ServerProofs
import StreamEngine.Json.Language
import StreamEngine.Library.IntegerDigits

/-! The echo of a request's id. Its text is read as a double, goes through `uint64_t` and
back, and is printed with 17 digits from `9e15` on. -/
namespace StreamEngine.Ipc
open ByteString Binary64 Decimal Json JsonText

variable {σ : Type}

/-- The text of a response whose id is this token. -/
def resText (token : Bytes) (outcome : Outcome) : Bytes :=
  if outcome.errCode = [] then
    ascii "\x7b\"id\":" ++ (token ++ (ascii ",\"kind\":\"res\",\"ok\":true,\"result\":" ++
      (dump outcome.result ++ ascii "\x7d")))
  else
    ascii "\x7b\"error\":\x7b\"code\":" ++ (escapeTo outcome.errCode ++ (ascii ",\"message\":" ++
      (escapeTo outcome.errMsg ++ (ascii "\x7d,\"id\":" ++
        (token ++ ascii ",\"kind\":\"res\",\"ok\":false\x7d")))))

theorem dump_response (id : Double) (outcome : Outcome) :
    dump (response id outcome) = resText (dumpNum id) outcome := by
  rw [response_eq, resMessage, resText]
  split
  · simp only [dump, dumpTo, dumpMembers, if_true, Bool.false_eq_true, if_false, List.nil_append,
      List.append_nil, List.append_assoc, List.cons_append]
    rfl
  · simp only [dump, dumpTo, dumpMembers, if_true, Bool.false_eq_true, if_false, List.nil_append,
      List.append_nil, List.append_assoc, List.cons_append]
    rfl

/-! ### The printed double -/

/-- A printed double that is a natural number denotes its 17 digits. -/
theorem dumpNum_integer {x : Finite} {n : Nat} (integer : x.IsInteger) (trunc : x.trunc = n) :
    Denotes (dumpNum (.finite x)) (toDigits n : Nat) := by
  have whole := whole_of_trunc trunc
  unfold dumpNum
  rcases Nat.lt_or_ge n (9 * 10 ^ 15) with few | many
  · have signed : (Double.finite x).toSigned 64 = n := by
      rw [Double.toSigned, if_pos (by omega), trunc]
    have back : (Double.finite x).eq (ofInt n) = true := by
      have equal := unsignedZero_eq (d := .finite x) rfl
      rw [← trunc, ofInt_trunc integer]
      cases same : (Double.finite x).unsignedZero with
      | finite y => rwa [same, eq_comm_of_finite] at equal
      | infinite neg => simp [Double.unsignedZero] at same
      | nan => simp [Double.unsignedZero] at same
    have below : (Double.finite x).absLt (9 * 10 ^ 15) = true := by
      simpa [Double.absLt, whole] using few
    rw [signed, back, below, toDigits_of_small (by omega)]
    refine ⟨_, printInt_spells n, ?_⟩
    simp [Numeral.value]
  · have above : (Double.finite x).absLt (9 * 10 ^ 15) = false := by
      simpa [Double.absLt, whole] using many
    rw [above, Bool.and_false]
    exact printG17_integer (by omega) integer trunc

/-- The largest ids round to `2^64`, whose digits are another number. -/
theorem not_survives_of_overflow {n : Nat} (small : n < 2 ^ 64) (large : 2 ^ 64 ≤ nearest n) :
    ¬ Survives n := by
  have log : Nat.log2 n < 64 := by
    rcases Nat.eq_zero_or_pos n with rfl | positive
    · decide
    · exact (Nat.log2_lt (by omega)).mpr small
  have power : gap n ∣ 2 ^ 64 := pow_dvd_pow 2 (by omega)
  have top : nearest n = 2 ^ 64 := Nat.le_antisymm (nearest_le_of_dvd small.le power) large
  rw [← toDigits_nearest_iff small, top]
  have digits : toDigits (2 ^ 64) = 18446744073709552000 := by
    have log : Nat.log 10 (2 ^ 64) = 19 := by
      apply Nat.log_eq_of_pow_le_of_lt_pow <;> norm_num
    rw [toDigits, place, log]
    decide
  omega

/-- The printed echo of an id denotes the id exactly when the id survives. -/
theorem echo_denotes_iff {msg : Value} {n : Nat} (small : n < 2 ^ 64)
    (id : msg.getNum (ascii "id") (ofInt 0) = ofInt n) :
    Denotes (dumpNum (echoedId msg)) n ↔ Survives n := by
  obtain ⟨x, value, integer, trunc⟩ := ofInt_nearest small
  have converted : (ofInt n).toUnsigned64 = if nearest n < 2 ^ 64 then nearest n else 0 := by
    rw [value, Double.toUnsigned64, trunc, if_pos (Int.natCast_nonneg _), Int.toNat_natCast]
    norm_cast
  -- what comes back from `uint64_t`
  obtain ⟨y, echo, integer', trunc'⟩ : ∃ y, echoedId msg = .finite y ∧ y.IsInteger ∧
      y.trunc = (if nearest n < 2 ^ 64 then nearest n else 0 : Nat) := by
    rw [echoedId, id, converted]
    split
    · rw [← trunc]
      exact exists_ofInt_trunc integer
    · exact exists_ofInt (by decide)
  rw [echo]
  have printed := dumpNum_integer integer' trunc'
  split at printed
  · rw [← toDigits_nearest_iff small]
    constructor
    · intro denotes
      exact_mod_cast printed.unique denotes
    · intro same
      rwa [same] at printed
  · rename_i overflow
    have lost := not_survives_of_overflow small (not_lt.mp overflow)
    refine iff_of_false ?_ lost
    intro denotes
    have zero : toDigits 0 = n := by exact_mod_cast printed.unique denotes
    rw [toDigits_of_small (by decide)] at zero
    subst zero
    exact overflow (by rw [nearest_of_small (by decide)]; decide)

/-! ### Requests -/

/-- A message whose `id`, by its last binding, is written as a row of digits of this value. -/
def WritesId (raw : Bytes) (n : Nat) : Prop :=
  ∃ ms t, Text relaxed raw (.obj ms) ∧
    (ms.reverse.find? fun m => decode m.1 = ascii "id").map Prod.snd = some (.num t) ∧
    t.neg = false ∧ t.fraction = none ∧ t.exponent = none ∧ digitsValue t.whole = n

/-- A row of digits is read as the double nearest to its value. -/
theorem toDouble_digits {t : NumberText} (plain : t.neg = false) (integer : t.fraction = none)
    (unscaled : t.exponent = none) : t.numeral.toDouble = ofInt (digitsValue t.whole) := by
  rw [NumberText.numeral, NumberText.exponentValue, NumberText.fractionDigits, plain, integer,
    unscaled, Numeral.toDouble, ofDecimal, ofInt]
  have positive : decide ((digitsValue t.whole : Int) < 0) = false := by simp
  rw [positive]
  simp

/-- What the engine takes for the id is the double nearest to it. -/
theorem getNum_writesId {raw : Bytes} {msg : Value} {n : Nat} (written : WritesId raw n)
    (request : request? raw = some msg) : msg.getNum (ascii "id") (ofInt 0) = ofInt n := by
  obtain ⟨ms, t, text, last, plain, integer, unscaled, rfl⟩ := written
  have parsed := parse_of_text relaxed_readable text
  obtain rfl : valueOf decode (fun t => t.numeral.toDouble) (.obj ms) = msg := by
    unfold request? at request
    rw [parsed] at request
    simp only at request
    split at request
    · exact Option.some.inj request
    · contradiction
  obtain ⟨⟨key, d⟩, found, rfl⟩ := Option.map_eq_some_iff.mp last
  have lookup := lookup_membersOf decode (fun t => t.numeral.toDouble) (ascii "id") ms []
  rw [found, Option.map_some, Option.some_or] at lookup
  rw [valueOf, Value.getNum, Value.find, lookup]
  simp only [valueOf]
  exact toDouble_digits plain integer unscaled

/-- The response to a request carries a token that depends on the request alone, and it
denotes the request's id exactly when the id survives. -/
theorem run_echoes_iff {n : Nat} (small : n < 2 ^ 64) {frame : Frame} {msg : Value}
    (request : request? frame.payload = some msg) (written : WritesId frame.payload n) :
    ∃ token, (Denotes token n ↔ Survives n) ∧
      ∀ (table : Table σ) (pipe : Pipe σ) (rest : Bytes),
        pipe.input = encodeFrame frame.payload ++ rest →
        (resText token (answer table msg pipe.app).1).length ≤ kMaxFrame → ∀ fuel,
          (run Pipe.transport (Pipe.handlers table) (fuel + 1)).run pipe =
            (run Pipe.transport (Pipe.handlers table) fuel).run
              { input := rest
                output := pipe.output ++ encodeFrame (resText token (answer table msg pipe.app).1)
                calls := pipe.calls ++ (answer table msg pipe.app).2.1
                app := (answer table msg pipe.app).2.2 } := by
  refine ⟨dumpNum (echoedId msg), echo_denotes_iff small (getNum_writesId written request), ?_⟩
  intro table pipe rest input fits fuel
  rw [← dump_response] at fits ⊢
  exact run_answered input request fits fuel

/-- The first id that no double is equal to. -/
def oddFrame : Frame := ⟨ascii "\x7b\"id\":9007199254740993,\"kind\":\"req\"\x7d", by decide⟩

def oddId : NumberText := ⟨false, ascii "9007199254740993", none, none⟩

def oddRequest : Value :=
  .obj [(ascii "id", .num oddId.numeral.toDouble), (ascii "kind", .str (ascii "req"))]

theorem text_oddFrame : Text relaxed oddFrame.payload
    (.obj [((ascii "id").map .raw, .num oddId),
      ((ascii "kind").map .raw, .str ((ascii "req").map .raw))]) := by
  have blank : Blank [] := by simp [Blank]
  have valid : oddId.Valid := ⟨by decide, by decide, by simp [oddId], by decide⟩
  have number : relaxed.number oddId.text oddId := ⟨valid, by decide, rfl⟩
  have last := Derives.lastMember blank (relaxed_raw (s := ascii "kind") (by decide)) blank blank
    (.text (relaxed_raw (s := ascii "req") (by decide))) blank
  have members := Derives.member blank (relaxed_raw (s := ascii "id") (by decide)) blank blank
    (.number number) blank last
  exact ⟨[], _, [], blank, .object members, blank, rfl⟩

theorem request_oddFrame : request? oddFrame.payload = some oddRequest := by
  rw [request?, parse_of_text relaxed_readable text_oddFrame]
  rfl

theorem writesId_oddFrame : WritesId oddFrame.payload (2 ^ 53 + 1) :=
  ⟨_, oddId, text_oddFrame, rfl, rfl, rfl, rfl, by decide⟩

theorem run_echoes_iff_odd :
    ∃ token, (Denotes token (2 ^ 53 + 1 : Nat) ↔ Survives (2 ^ 53 + 1)) ∧
      ∀ (table : Table Unit) (pipe : Pipe Unit) (rest : Bytes),
        pipe.input = encodeFrame oddFrame.payload ++ rest →
        (resText token (answer table oddRequest pipe.app).1).length ≤ kMaxFrame → ∀ fuel,
          (run Pipe.transport (Pipe.handlers table) (fuel + 1)).run pipe =
            (run Pipe.transport (Pipe.handlers table) fuel).run
              { input := rest
                output := pipe.output ++
                  encodeFrame (resText token (answer table oddRequest pipe.app).1)
                calls := pipe.calls ++ (answer table oddRequest pipe.app).2.1
                app := (answer table oddRequest pipe.app).2.2 } :=
  run_echoes_iff (by decide) request_oddFrame writesId_oddFrame

theorem not_survives_odd : ¬ Survives (2 ^ 53 + 1) := by
  rintro ⟨-, m, above, below⟩
  have digits : Nat.log 10 (2 ^ 53 + 1) = 15 := by
    apply Nat.log_eq_of_pow_le_of_lt_pow <;> norm_num
  have last : place (2 ^ 53 + 1) = 1 := by rw [place, digits]; rfl
  have even : gap (2 ^ 53 + 1) = 2 := by decide +kernel
  rw [last, even] at above below
  omega

/-- Its response carries the id below. -/
theorem run_loses_id :
    request? oddFrame.payload = some oddRequest ∧ WritesId oddFrame.payload (2 ^ 53 + 1) ∧
      ¬ Denotes (ascii "9007199254740992") (2 ^ 53 + 1 : Nat) ∧
      ((run Pipe.transport (Pipe.handlers fun _ => none) 2).run
        ⟨wire [oddFrame], [], [], ()⟩).2.output =
          encodeFrame (resText (ascii "9007199254740992") (unsupported oddRequest)) := by
  have token : dumpNum (echoedId oddRequest) = ascii "9007199254740992" := by decide +kernel
  refine ⟨request_oddFrame, writesId_oddFrame, ?_, ?_⟩
  · rw [← token, echo_denotes_iff (by decide) (getNum_writesId writesId_oddFrame request_oddFrame)]
    exact not_survives_odd
  · rw [← token, ← dump_response]
    apply run_unhandled request_oddFrame
    decide +kernel

end StreamEngine.Ipc
