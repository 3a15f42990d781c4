import StreamEngine.Json.Rewrite
import StreamEngine.Json.Rfc

/-! UTF-8 in and out of the codec. Every string of a UTF-8 text is decoded to UTF-8 except
those with an escape for a low surrogate alone, which the decoder takes for a character
of three bytes. The writer keeps UTF-8. -/
namespace StreamEngine.Json
open ByteString Binary64 Decimal JsonText

/-! ### Strings -/

/-- No low surrogate is escaped without a high one before it. -/
def Paired (s : List (Piece UInt8)) : Prop := ∀ h, .escape (.unit h) ∈ s → ¬ h.Low

theorem paired_nil : Paired [] := by simp [Paired]

theorem paired_raw {b : UInt8} {s : List (Piece UInt8)} : Paired (.raw b :: s) ↔ Paired s := by
  simp [Paired]

theorem paired_escape {e : Escape} {s : List (Piece UInt8)} :
    Paired (.escape e :: s) ↔ (∀ h, e = .unit h → ¬ h.Low) ∧ Paired s := by
  simp only [Paired, List.mem_cons, Piece.escape.injEq]
  constructor
  · intro paired
    exact ⟨fun h same => paired h (Or.inl same.symm), fun h member => paired h (Or.inr member)⟩
  · rintro ⟨here, others⟩ h (same | member)
    · exact here h same.symm
    · exact others h member

theorem toUInt8_cons_inj {a b : Nat} {s t : Bytes} (same : a.toUInt8 :: s = b.toUInt8 :: t) :
    a % 256 = b % 256 ∧ s = t := by
  obtain ⟨lead, tails⟩ := List.cons.inj same
  have values := congrArg UInt8.toNat lead
  simp only [Nat.toUInt8_eq, UInt8.toNat_ofNat'] at values
  exact ⟨values, tails⟩

/-- The three bytes of a low surrogate start no character. -/
theorem surrogate_invalid {n : Nat} (low : 0xdc00 ≤ n) (high : n ≤ 0xdfff) (s : Bytes) :
    ¬ Utf8.Valid (encodeUtf8 n ++ s) := by
  rintro ⟨cs, same⟩
  have bytes : encodeUtf8 n = [(0xe0 + n / 4096).toUInt8, (0x80 + n / 64 % 64).toUInt8,
      (0x80 + n % 64).toUInt8] := by
    rw [encodeUtf8, if_neg (by omega), if_neg (by omega), if_pos (by omega)]
  rw [bytes] at same
  cases cs with
  | nil => simp at same
  | cons c cs =>
    have scalar := c.valid
    rw [Utf8.encode_cons, String.utf8EncodeChar] at same
    have value : c.val.toNat < 0xd800 ∨ 0xdfff < c.val.toNat ∧ c.val.toNat < 0x110000 := scalar
    generalize c.val.toNat = v at *
    -- the leading byte makes the character three bytes long, the next one a surrogate
    split at same
    · obtain ⟨lead, -⟩ := toUInt8_cons_inj same
      omega
    split at same
    · obtain ⟨lead, -⟩ := toUInt8_cons_inj same
      omega
    split at same
    · obtain ⟨lead, tails⟩ := toUInt8_cons_inj same
      obtain ⟨next, -⟩ := toUInt8_cons_inj tails
      omega
    · obtain ⟨lead, -⟩ := toUInt8_cons_inj same
      omega

theorem unescape_valid {e : Escape} (taken : Taken e) (alone : ∀ h, e = .unit h → ¬ h.Low) :
    Utf8.Valid (unescape e) := by
  have scalar : e.Scalar := by
    cases e with
    | short e => trivial
    | unit h => exact ⟨taken, alone h rfl⟩
    | pair high low => exact taken
  rw [unescape_char scalar]
  exact Utf8.valid_char e.char

theorem unescape_invalid {h : Hex} (low : h.Low) (s : Bytes) :
    ¬ Utf8.Valid (unescape (.unit h) ++ s) :=
  surrogate_invalid low.1 low.2 s

/-- A string of a UTF-8 text, after bytes that stand for themselves. -/
theorem decode_valid_iff {s : List (Piece UInt8)} (admitted : ∀ p ∈ s, Admitted p) (before : Bytes)
    (valid : Utf8.Valid (before ++ written s)) :
    Utf8.Valid (before ++ decode s) ↔ Paired s := by
  induction s generalizing before with
  | nil =>
    rw [written_nil] at valid
    rw [decode_nil]
    exact iff_of_true valid paired_nil
  | cons p s ih =>
    have others := fun q member => admitted q (List.mem_cons_of_mem p member)
    rw [written_cons] at valid
    rw [decode_cons]
    cases p with
    | raw b =>
      rw [paired_raw, ← ih others (before ++ [b]) (by simpa [Piece.text] using valid)]
      simp [decoded]
    | escape e =>
      obtain ⟨tail, text⟩ := e.opens
      have ascii := e.ascii
      rw [text] at ascii
      simp only [Piece.text, text] at valid
      obtain ⟨left, right⟩ := Utf8.Valid.split (by decide) valid
      have rest : Utf8.Valid (written s) := right.of_append
        (Utf8.valid_ascii fun b member => (ascii b (List.mem_cons_of_mem _ member)).2)
      have tails := ih others [] (by simpa using rest)
      rw [List.nil_append] at tails
      rw [paired_escape, decoded]
      by_cases alone : ∀ h, e = .unit h → ¬ h.Low
      · have here := unescape_valid (admitted (.escape e) (by simp)) alone
        rw [← tails]
        constructor
        · intro whole
          exact ⟨alone, (whole.of_append left).of_append here⟩
        · rintro ⟨-, later⟩
          exact left.append (here.append later)
      · push Not at alone
        obtain ⟨h, rfl, low⟩ := alone
        constructor
        · intro whole
          exact absurd (whole.of_append left) (unescape_invalid low _)
        · rintro ⟨alone, -⟩
          exact absurd low (alone h rfl)

/-! ### Values -/

mutual
/-- What is kept of a document by two tests that agree on its strings. -/
theorem kept_congr {S N : Type} {f : S → Bytes} {P P' R : S → Prop} {Q : N → Prop}
    (agree : ∀ s, R s → (P s ↔ P' s)) :
    ∀ {d : Document S N}, d.All R (fun _ => True) → (Kept f P Q d ↔ Kept f P' Q d)
  | .null, _ | .bool _, _ | .num _, _ => by simp only [Kept]
  | .str s, all => by
    rw [Document.All] at all
    simpa only [Kept] using agree s all
  | .arr items, all => by
    rw [Document.All] at all
    simpa only [Kept] using keptItems_congr agree all
  | .obj members, all => by
    rw [Document.All] at all
    simpa only [Kept] using keptMembers_congr agree all

theorem keptItems_congr {S N : Type} {f : S → Bytes} {P P' R : S → Prop} {Q : N → Prop}
    (agree : ∀ s, R s → (P s ↔ P' s)) :
    ∀ {ds : List (Document S N)}, JsonText.AllItems R (fun _ => True) ds →
      (KeptItems f P Q ds ↔ KeptItems f P' Q ds)
  | [], _ => by simp only [KeptItems]
  | d :: ds, all => by
    rw [JsonText.AllItems] at all
    rw [KeptItems, KeptItems, kept_congr agree all.1, keptItems_congr agree all.2]

theorem keptMembers_congr {S N : Type} {f : S → Bytes} {P P' R : S → Prop} {Q : N → Prop}
    (agree : ∀ s, R s → (P s ↔ P' s)) :
    ∀ {ms : List (S × Document S N)}, JsonText.AllMembers R (fun _ => True) ms →
      (KeptMembers f P Q ms ↔ KeptMembers f P' Q ms)
  | [], _ => by simp only [KeptMembers]
  | (k, d) :: ms, all => by
    rw [JsonText.AllMembers] at all
    rw [KeptMembers, KeptMembers, agree k all.1, kept_congr agree all.2.1,
      keptMembers_congr agree all.2.2]
end

/-- Every string and key of a value is UTF-8. -/
def Value.IsUtf8 (v : Value) : Prop := v.All Utf8.Valid (fun _ => True)

/-- No string or key that the value keeps escapes a low surrogate alone. -/
def PairedText (t : Bytes) : Prop :=
  ∀ d, Text relaxed t d → Kept decode Paired (fun _ => True) d

/-- The strings decoded from a UTF-8 text are UTF-8 exactly when their surrogates are paired. -/
theorem parse_utf8_iff {t : Bytes} {v : Value} (utf8 : Utf8.Valid t) (accepted : parse t = some v) :
    v.IsUtf8 ↔ PairedText t := by
  have keeps : ∀ d, Text relaxed t d → (v.IsUtf8 ↔ Kept decode Paired (fun _ => True) d) := by
    intro d text
    have value := parse_of_text relaxed_readable text
    rw [accepted, Option.some.injEq] at value
    have strings : d.All (fun s => (∀ p ∈ s, Admitted p) ∧ Utf8.Valid (written s)) fun _ => True := by
      apply text.utf8 _ utf8
      rintro t s ⟨admitted, rfl⟩ valid
      exact ⟨admitted, valid⟩
    rw [value, Value.IsUtf8, all_valueOf]
    apply kept_congr _ strings
    rintro s ⟨admitted, valid⟩
    simpa using decode_valid_iff admitted [] (by simpa using valid)
  constructor
  · intro valid d text
    exact (keeps d text).mp valid
  · intro paired
    obtain ⟨d, text, -⟩ := parse_iff_relaxed.mp accepted
    exact (keeps d text).mpr (paired d text)

/-! ### The writer -/

theorem hexDigit_ascii : ∀ n < 16, hexDigit n < 128 := by decide

theorem escapeByte_ascii {b : UInt8} (ascii : b < 128) : ∀ c ∈ escapeByte b, c < 128 := by
  intro c member
  rcases escapeByte_cases b with ⟨e, written, -, -, letter, -⟩ | ⟨control, written⟩ |
    ⟨-, -, written⟩
  · rw [written, List.mem_cons, List.mem_singleton] at member
    rcases member with rfl | rfl
    · decide
    · exact letter
  · have small : b.toNat < 32 := control
    simp only [written, List.mem_cons, List.not_mem_nil, or_false] at member
    rcases member with rfl | rfl | rfl | rfl | rfl | rfl
    · decide
    · decide
    · decide
    · decide
    · exact hexDigit_ascii _ (by omega)
    · exact hexDigit_ascii _ (by omega)
  · rw [written, List.mem_singleton] at member
    rw [member]
    exact ascii

/-- Bytes from 128 on pass through the writer. -/
theorem escapeByte_high {b : UInt8} (high : 128 ≤ b) : escapeByte b = [b] := by
  rcases escapeByte_cases b with ⟨_, -, -, -, -, low⟩ | ⟨control, -⟩ | ⟨-, -, written⟩
  · exact absurd low (UInt8.not_lt.mpr high)
  · exact absurd (UInt8.lt_trans control (by decide)) (UInt8.not_lt.mpr high)
  · exact written

theorem valid_escaped (cs : List Char) : Utf8.Valid ((Utf8.encode cs).flatMap escapeByte) := by
  induction cs with
  | nil => exact Utf8.valid_nil
  | cons c cs ih =>
    rw [Utf8.encode_cons, List.flatMap_append]
    refine Utf8.Valid.append ?_ ih
    rcases Utf8.encodeChar_cases c with ⟨b, ascii, -, single⟩ | ⟨-, high⟩
    · rw [single]
      simpa using Utf8.valid_ascii (escapeByte_ascii ascii)
    · have same : (String.utf8EncodeChar c).flatMap escapeByte = String.utf8EncodeChar c := by
        rw [List.flatMap_congr fun b member => escapeByte_high (high b member)]
        simp
      rw [same]
      exact Utf8.valid_char c

theorem valid_escapeTo {s : Bytes} (valid : Utf8.Valid s) : Utf8.Valid (escapeTo s) := by
  obtain ⟨cs, rfl⟩ := valid
  have quote : Utf8.Valid [34] := Utf8.valid_ascii (by decide)
  exact quote.append ((valid_escaped cs).append quote)

theorem isNumberChar_ascii {c : UInt8} (char : isNumberChar c = true) : c < 128 := by
  simp only [isNumberChar, Bool.or_eq_true, beq_iff_eq] at char
  rcases char with ((((digit | rfl) | rfl) | rfl) | rfl) | rfl
  · have range := isDigit_toNat digit
    rw [UInt8.lt_iff_toNat_lt]
    exact lt_of_le_of_lt range.2 (by decide)
  all_goals decide

theorem valid_dumpNum (d : Double) : Utf8.Valid (dumpNum d) := by
  apply Utf8.valid_ascii
  by_cases finite : d.isFinite = true
  · intro c member
    exact isNumberChar_ascii (dumpNum_chars finite c member)
  · rw [dumpNum_of_not_finite finite]
    cases d with
    | finite x => exact absurd rfl finite
    | nan => decide
    | infinite neg => cases neg <;> decide

mutual
/-- The writer keeps UTF-8. -/
theorem valid_dumpTo : ∀ {v : Value}, v.IsUtf8 → Utf8.Valid (dumpTo v)
  | .null, _ | .bool true, _ | .bool false, _ => Utf8.valid_ascii (by decide)
  | .num d, _ => by
    rw [dumpTo]
    exact valid_dumpNum d
  | .str s, valid => by
    rw [Value.IsUtf8, Value.All] at valid
    rw [dumpTo]
    exact valid_escapeTo valid
  | .arr items, valid => by
    rw [Value.IsUtf8, Value.All] at valid
    have inner := (valid_dumpItems true valid).append (Utf8.valid_ascii (s := [93]) (by decide))
    rw [dumpTo]
    exact (Utf8.valid_ascii (s := [91]) (by decide)).append inner
  | .obj members, valid => by
    rw [Value.IsUtf8, Value.All] at valid
    have inner := (valid_dumpMembers true valid).append (Utf8.valid_ascii (s := [125]) (by decide))
    rw [dumpTo]
    exact (Utf8.valid_ascii (s := [123]) (by decide)).append inner

theorem valid_dumpItems : ∀ (first : Bool) {items : List Value},
    Value.AllItems Utf8.Valid (fun _ => True) items → Utf8.Valid (dumpItems first items)
  | _, [], _ => Utf8.valid_nil
  | first, v :: items, valid => by
    rw [Value.AllItems] at valid
    have separator : Utf8.Valid (if first then [] else [44]) := by
      apply Utf8.valid_ascii
      cases first <;> decide
    rw [dumpItems]
    exact separator.append ((valid_dumpTo valid.1).append (valid_dumpItems false valid.2))

theorem valid_dumpMembers : ∀ (first : Bool) {members : List (Bytes × Value)},
    Value.AllMembers Utf8.Valid (fun _ => True) members → Utf8.Valid (dumpMembers first members)
  | _, [], _ => Utf8.valid_nil
  | first, (k, v) :: members, valid => by
    rw [Value.AllMembers] at valid
    have separator : Utf8.Valid (if first then [] else [44]) := by
      apply Utf8.valid_ascii
      cases first <;> decide
    have colon := (Utf8.valid_ascii (s := [58]) (by decide)).append
      ((valid_dumpTo valid.2.1).append (valid_dumpMembers false valid.2.2))
    rw [dumpMembers]
    exact separator.append ((valid_escapeTo valid.1).append colon)
end

end StreamEngine.Json
