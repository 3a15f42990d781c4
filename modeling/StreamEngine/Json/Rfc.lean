import StreamEngine.Json.Language

/-! The parser against RFC 8259. Every text without lone surrogates is accepted with the
value it denotes. The relaxed texts that are no texts of the RFC are those with a
number or a string that only the relaxed grammar has. -/
namespace StreamEngine.Json
open ByteString Binary64 Decimal JsonText

/-! ### Characters -/

/-- The encoder is UTF-8 on the code points that are characters. -/
theorem encodeUtf8_char {n : Nat} (scalar : n.isValidChar) :
    encodeUtf8 n = String.utf8EncodeChar (Char.ofNat n) := by
  have bound : n < 0x110000 := by
    rcases scalar with low | high
    · omega
    · exact high.2
  simp only [encodeUtf8, String.utf8EncodeChar, Utf8.toNat_ofNat scalar, Nat.toUInt8_eq]
  split
  · rfl
  split
  · simp only [List.cons.injEq, and_true]
    exact ⟨by congr 1; omega, by congr 1; omega⟩
  split
  · simp only [List.cons.injEq, and_true]
    exact ⟨by congr 1; omega, by congr 1; omega, by congr 1; omega⟩
  · simp only [List.cons.injEq, and_true]
    exact ⟨by congr 1; omega, by congr 1; omega, by congr 1; omega, by congr 1; omega⟩

theorem hexVal_lt {c : UInt8} {n : Nat} (value : hexVal c = some n) : n < 16 := by
  unfold hexVal at value
  split at value
  · rename_i range
    have low : (48 : UInt8).toNat ≤ c.toNat := range.1
    have high : c.toNat ≤ (57 : UInt8).toNat := range.2
    simp at low high value
    omega
  split at value
  · rename_i range
    have low : (97 : UInt8).toNat ≤ c.toNat := range.1
    have high : c.toNat ≤ (102 : UInt8).toNat := range.2
    simp at low high value
    omega
  split at value
  · rename_i range
    have low : (65 : UInt8).toNat ≤ c.toNat := range.1
    have high : c.toNat ≤ (70 : UInt8).toNat := range.2
    simp at low high value
    omega
  · contradiction

theorem code_lt (h : Hex) : h.code < 0x10000 := by
  have digit : ∀ {c : UInt8} (hex : (hexVal c).isSome), (hexVal c).get hex < 16 :=
    fun hex => hexVal_lt (Option.some_get hex).symm
  have ha := digit h.isHex.1
  have hb := digit h.isHex.2.1
  have hc := digit h.isHex.2.2.1
  have hd := digit h.isHex.2.2.2
  unfold Hex.code
  omega

/-- A code unit outside the surrogates is a character. -/
theorem unit_isChar {h : Hex} (notHigh : ¬ h.High) (notLow : ¬ h.Low) : h.code.isValidChar := by
  have bound := code_lt h
  unfold Hex.High at notHigh
  unfold Hex.Low at notLow
  unfold Nat.isValidChar
  omega

theorem pair_isChar {high low : Hex} (isHigh : high.High) (isLow : low.Low) :
    (Hex.pairCode high low).isValidChar := by
  unfold Hex.High at isHigh
  unfold Hex.Low at isLow
  unfold Nat.isValidChar Hex.pairCode
  omega

/-- An escape without a lone surrogate is decoded to its character. -/
theorem unescape_char {e : Escape} (scalar : e.Scalar) :
    unescape e = String.utf8EncodeChar e.char := by
  cases e with
  | short e => exact (Utf8.encodeChar_ascii e.byte_ascii).symm
  | unit h => exact encodeUtf8_char (unit_isChar scalar.1 scalar.2)
  | pair high low => exact encodeUtf8_char (pair_isChar scalar.1 scalar.2)

/-! ### Completeness -/

theorem strBody_raw {bytes : Bytes} (plain : ∀ b ∈ bytes, b ≠ 34 ∧ b ≠ 92) (s : Bytes) :
    strBody (bytes ++ s) = prepend bytes (strBody s) := by
  induction bytes with
  | nil => simp [prepend]
  | cons b bytes ih =>
    obtain ⟨quote, slash⟩ := plain b (by simp)
    rw [List.cons_append, strBody_plain quote slash,
      ih fun c member => plain c (List.mem_cons_of_mem _ member)]
    simp [prepend, Function.comp_def]

theorem strBody_scalar {e : Escape} (scalar : e.Scalar) (s : Bytes) :
    strBody (e.text ++ s) = prepend (String.utf8EncodeChar e.char) (strBody s) := by
  rw [← unescape_char scalar]
  apply strBody_escape
  cases e with
  | short e => trivial
  | unit h => exact scalar.1
  | pair high low => exact scalar

theorem strBody_characters {s : List (Piece Char)} (unescaped : ∀ c, .raw c ∈ s → Unescaped c)
    (scalar : ∀ e, .escape e ∈ s → e.Scalar) (rest : Bytes) :
    strBody (piecesText String.utf8EncodeChar s ++ 34 :: rest) =
      some (Utf8.encode (s.map Piece.char), rest) := by
  induction s with
  | nil => exact strBody_quote rest
  | cons p s ih =>
    have others := ih (fun c member => unescaped c (List.mem_cons_of_mem _ member))
      (fun e member => scalar e (List.mem_cons_of_mem _ member))
    rw [piecesText_cons, List.append_assoc, List.map_cons, Utf8.encode_cons]
    cases p with
    | raw c =>
      have plain : ∀ b ∈ String.utf8EncodeChar c, b ≠ 34 ∧ b ≠ 92 := by
        intro b member
        obtain ⟨quote, slash, -⟩ := unescaped_plain (unescaped c (by simp)) b member
        exact ⟨quote, slash⟩
      rw [Piece.text, strBody_raw plain, others, prepend_some, Piece.char]
    | escape e =>
      rw [Piece.text, strBody_scalar (scalar e (by simp)), others, prepend_some, Piece.char]

theorem unicode_readable : Readable unicode Utf8.encode Numeral.toDouble where
  string := by
    rintro t cs ⟨s, ⟨unescaped, rfl⟩, scalar, rfl⟩ rest
    exact strBody_characters unescaped scalar rest
  number := by
    rintro t n ⟨x, ⟨number, rfl⟩, rfl⟩
    exact ⟨number.valid.chars, number.starts, strtod_numberText number.valid⟩

/-- Every text of the RFC without lone surrogates is accepted with the value it denotes:
its strings in UTF-8, its numbers as the nearest doubles, and of the bindings of a
repeated key the last. -/
theorem parse_unicode {t : Bytes} {d : Document (List Char) Numeral} (text : Text unicode t d) :
    parse t = some (valueOf Utf8.encode Numeral.toDouble d) :=
  parse_of_text unicode_readable text

/-- Two bindings of one key, the second to a surrogate pair in hex digits of both cases. -/
theorem parse_unicode_pair :
    parse (ascii "\x7b\"k\":0, \"k\":\"\\ud83D\\uDe00\"\x7d") =
      some (.obj [(ascii "k", .str [240, 159, 152, 128])]) := by
  have blank : Blank [] := by simp [Blank]
  have space : Blank [32] := by simp [Blank, isBlank]
  have key : unicode.string [107] ['k'] := by
    refine ⟨[.raw 'k'], ⟨?_, rfl⟩, by simp, rfl⟩
    intro c member
    cases List.mem_singleton.mp member
    exact ⟨by decide, by decide, by decide⟩
  have zero : unicode.number [48] ⟨false, 0, 0⟩ :=
    ⟨⟨false, [48], none, none⟩, ⟨⟨⟨by decide, by decide, by simp, by decide⟩, Or.inl rfl, by simp⟩,
      rfl⟩, rfl⟩
  have face : unicode.string (ascii "\\ud83D\\uDe00") ['😀'] := by
    refine ⟨[.escape (.pair ⟨100, 56, 51, 68, by decide⟩ ⟨68, 101, 48, 48, by decide⟩)],
      ⟨by simp, by decide⟩, ?_, by decide⟩
    intro e member
    cases List.mem_singleton.mp member
    exact ⟨by decide, by decide⟩
  have last := Derives.lastMember (w := [32]) space key blank blank
    (.text face) blank
  have members := Derives.member blank key blank blank (.number zero) blank last
  exact parse_unicode ⟨[], _, [], blank, .object members, blank, rfl⟩

/-! ### What is accepted beyond the RFC -/

/-- A string in UTF-8 without control characters. -/
def StrictString (s : List (Piece UInt8)) : Prop :=
  Utf8.Valid (written s) ∧ ∀ b, .raw b ∈ s → 32 ≤ b

/-- A number without a leading zero and with digits on both sides of its point. -/
def StrictNumber (n : NumberText) : Prop :=
  (n.whole = [48] ∨ ∃ c cs, n.whole = c :: cs ∧ c ≠ 48) ∧ n.fraction ≠ some []

/-- Text around the escapes of a string is what stands for itself there. -/
theorem raw_of_valid {bytes : Bytes} (valid : Utf8.Valid bytes)
    (plain : ∀ b ∈ bytes, b ≠ 34 ∧ b ≠ 92 ∧ 32 ≤ b) :
    ∃ s : List (Piece Char), (∀ c, .raw c ∈ s → Unescaped c) ∧
      bytes = piecesText String.utf8EncodeChar s := by
  obtain ⟨cs, rfl⟩ := valid
  refine ⟨cs.map .raw, ?_, ?_⟩
  · intro c member
    obtain ⟨d, inside, same⟩ := List.mem_map.mp member
    cases same
    rcases Utf8.encodeChar_cases c with ⟨b, -, code, single⟩ | ⟨high, -⟩
    · obtain ⟨quote, slash, printable⟩ := plain b
        (List.mem_flatMap.mpr ⟨c, inside, by simp [single]⟩)
      refine ⟨code ▸ UInt8.le_iff_toNat_le.mp printable, ?_, ?_⟩
      · rintro rfl
        exact quote (UInt8.toNat_inj.mp code)
      · rintro rfl
        exact slash (UInt8.toNat_inj.mp code)
    · refine ⟨by omega, ?_, ?_⟩
      · rintro rfl
        exact absurd high (by decide)
      · rintro rfl
        exact absurd high (by decide)
  · simp [piecesText, Utf8.encode, List.flatMap_map, Piece.text]

/-- A strict string after text that stands for itself is a string of the RFC. -/
theorem exists_rfcString {s : List (Piece UInt8)} (admitted : ∀ p ∈ s, Admitted p)
    (printable : ∀ b, .raw b ∈ s → 32 ≤ b) (before : Bytes)
    (plain : ∀ b ∈ before, b ≠ 34 ∧ b ≠ 92 ∧ 32 ≤ b) (valid : Utf8.Valid (before ++ written s)) :
    ∃ s', rfc.string (before ++ written s) s' := by
  induction s generalizing before with
  | nil =>
    rw [written_nil, List.append_nil] at valid ⊢
    exact raw_of_valid valid plain
  | cons p s ih =>
    have others := fun q member => admitted q (List.mem_cons_of_mem p member)
    have rest := fun b member => printable b (List.mem_cons_of_mem p member)
    rw [written_cons] at valid ⊢
    cases p with
    | raw b =>
      have here : ∀ c ∈ before ++ [b], c ≠ 34 ∧ c ≠ 92 ∧ 32 ≤ c := by
        intro c member
        rcases List.mem_append.mp member with member | member
        · exact plain c member
        · obtain rfl := List.mem_singleton.mp member
          obtain ⟨quote, slash⟩ := admitted (.raw c) (by simp)
          exact ⟨quote, slash, printable c (by simp)⟩
      have joined := ih others rest _ here (by simpa [Piece.text] using valid)
      simpa [Piece.text] using joined
    | escape e =>
      obtain ⟨tail, text⟩ := e.opens
      have ascii := e.ascii
      simp only [Piece.text] at valid ⊢
      rw [text] at ascii valid
      obtain ⟨left, right⟩ := Utf8.Valid.split (by decide) valid
      have tailValid : Utf8.Valid tail :=
        Utf8.valid_ascii fun b member => (ascii b (List.mem_cons_of_mem _ member)).2
      obtain ⟨s₁, unescaped₁, rfl⟩ := raw_of_valid left plain
      obtain ⟨s₂, unescaped₂, text₂⟩ := ih others rest [] (by simp)
        (right.of_append tailValid)
      rw [List.nil_append] at text₂
      refine ⟨s₁ ++ .escape e :: s₂, ?_, ?_⟩
      · intro c member
        simp only [List.mem_append, List.mem_cons, reduceCtorEq, false_or] at member
        exact member.elim (unescaped₁ c) (unescaped₂ c)
      · simp [piecesText, text₂, Piece.text]

/-- A string of the relaxed grammar is one of the RFC exactly when it is strict. -/
theorem rfcString_iff {s : List (Piece UInt8)} (admitted : ∀ p ∈ s, Admitted p) :
    (∃ s', rfc.string (written s) s') ↔ StrictString s := by
  constructor
  · rintro ⟨s', unescaped, text⟩
    refine ⟨text ▸ valid_rfcString s', fun b member => ?_⟩
    apply rfcString_printable unescaped
    rw [← text]
    exact List.mem_flatMap.mpr ⟨.raw b, member, by simp [Piece.text]⟩
  · rintro ⟨valid, printable⟩
    exact exists_rfcString admitted printable [] (by simp) valid

theorem rfcNumber_iff {n : NumberText} (valid : n.Valid) :
    (∃ n', rfc.number n.text n') ↔ StrictNumber n := by
  constructor
  · rintro ⟨n', number, text⟩
    obtain rfl := numberText_injective valid number.valid text
    exact ⟨number.whole, number.fraction⟩
  · rintro ⟨whole, fraction⟩
    exact ⟨n, ⟨valid, whole, fraction⟩, rfl⟩

theorem relaxed_tokens {t : Bytes} {d : Document (List (Piece UInt8)) NumberText}
    (text : Text relaxed t d) : Text tokens t (d.map written NumberText.text) := by
  apply text.map
  · rintro t s ⟨admitted, rfl⟩
    refine ⟨closed_pieces fun b member c inside => ?_, rfl⟩
    obtain rfl := List.mem_singleton.mp inside
    exact admitted _ member
  · rintro t n ⟨valid, whole, rfl⟩
    exact ⟨valid.chars, n.starts valid whole, rfl⟩

/-- A relaxed text is a text of the RFC exactly when its strings and numbers are strict. -/
theorem rfcText_iff {t : Bytes} {d : Document (List (Piece UInt8)) NumberText}
    (text : Text relaxed t d) : RfcText t ↔ d.All StrictString StrictNumber := by
  constructor
  · rintro ⟨d', text'⟩
    -- both readings divide the text into the same tokens
    have same := (relaxed_tokens text).unique (rfc_tokens text')
    have spelled : (d'.map (piecesText String.utf8EncodeChar) NumberText.text).All
        (fun t => ∃ s, rfc.string t s) (fun t => ∃ n, rfc.number t n) := by
      refine (Document.all_map d').mpr (text'.all.imp₂ ?_ ?_ text'.all)
      · rintro s ⟨t, unescaped, rfl⟩ -
        exact ⟨s, unescaped, rfl⟩
      · rintro n ⟨t, number, rfl⟩ -
        exact ⟨n, number, rfl⟩
    rw [← same] at spelled
    refine text.all.imp₂ ?_ ?_ ((Document.all_map d).mp spelled)
    · rintro s ⟨t, admitted, -⟩ rfcString
      exact (rfcString_iff admitted).mp rfcString
    · rintro n ⟨t, valid, -⟩ rfcNumber
      exact (rfcNumber_iff valid).mp rfcNumber
  · apply text.respell
    · rintro t s ⟨admitted, rfl⟩ strict
      exact (rfcString_iff admitted).mpr strict
    · rintro t n ⟨valid, -, rfl⟩ strict
      exact (rfcNumber_iff valid).mpr strict

/-- Everything outside the RFC is rejected exactly when the text has no relaxed reading with
a token that is not strict. -/
theorem parse_rejects_iff (t : Bytes) :
    (¬ RfcText t → parse t = none) ↔
      ∀ d, Text relaxed t d → d.All StrictString StrictNumber := by
  constructor
  · intro rejects d text
    apply (rfcText_iff text).mp
    by_contra malformed
    have accepted := parse_iff_relaxed.mpr ⟨d, text, rfl⟩
    rw [rejects malformed] at accepted
    contradiction
  · intro strict malformed
    cases accepted : parse t with
    | none => rfl
    | some v =>
      obtain ⟨d, text, -⟩ := parse_iff_relaxed.mp accepted
      exact absurd ((rfcText_iff text).mpr (strict d text)) malformed

/-- A number with a leading zero is outside the RFC and accepted. -/
theorem parse_accepts_leadingZero :
    ¬ (¬ RfcText (ascii "01") → parse (ascii "01") = none) := by
  have blank : Blank [] := by simp [Blank]
  have text : Text relaxed (ascii "01") (.num ⟨false, [48, 49], none, none⟩) :=
    ⟨[], _, [], blank, .number ⟨⟨by decide, by decide, by simp, by decide⟩, by simp, rfl⟩, blank, rfl⟩
  intro rejects
  have strict : StrictNumber ⟨false, [48, 49], none, none⟩ := (rfcText_iff text).mp <| by
    by_contra malformed
    have accepted := parse_iff_relaxed.mpr ⟨_, text, rfl⟩
    rw [rejects malformed] at accepted
    contradiction
  rcases strict.1 with zero | ⟨c, cs, whole, first⟩
  · simp at zero
  · exact first (List.cons.inj whole).1.symm

end StreamEngine.Json
