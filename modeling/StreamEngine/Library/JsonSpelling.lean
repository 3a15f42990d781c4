import StreamEngine.Library.JsonTokens

/-! The spellings of RFC 8259: a character of a string stands for itself, or is written
with one of eight short escapes, with four hexadecimal digits, or as a surrogate pair
of two such escapes. `rfc` is the syntax; `unicode` keeps the texts without lone
surrogates and says which characters and which numbers they denote. -/
namespace JsonText
open ByteString Decimal

/-- Four hexadecimal digits. -/
structure Hex where
  a : UInt8
  b : UInt8
  c : UInt8
  d : UInt8
  isHex : (hexVal a).isSome ∧ (hexVal b).isSome ∧ (hexVal c).isSome ∧ (hexVal d).isSome

namespace Hex

def text (h : Hex) : Bytes := [92, 117, h.a, h.b, h.c, h.d]

/-- The UTF-16 code unit. -/
def code (h : Hex) : Nat :=
  (((hexVal h.a).get h.isHex.1 * 16 + (hexVal h.b).get h.isHex.2.1) * 16 +
    (hexVal h.c).get h.isHex.2.2.1) * 16 + (hexVal h.d).get h.isHex.2.2.2

def High (h : Hex) : Prop := 0xd800 ≤ h.code ∧ h.code ≤ 0xdbff

def Low (h : Hex) : Prop := 0xdc00 ≤ h.code ∧ h.code ≤ 0xdfff

instance instDecidableHigh (h : Hex) : Decidable h.High :=
  inferInstanceAs (Decidable (0xd800 ≤ h.code ∧ h.code ≤ 0xdbff))

instance instDecidableLow (h : Hex) : Decidable h.Low :=
  inferInstanceAs (Decidable (0xdc00 ≤ h.code ∧ h.code ≤ 0xdfff))

/-- The code point of a surrogate pair. -/
def pairCode (high low : Hex) : Nat :=
  0x10000 + (high.code - 0xd800) * 1024 + (low.code - 0xdc00)

end Hex

/-- The two-character escapes. -/
inductive Short where
  | quote
  | backslash
  | solidus
  | backspace
  | formFeed
  | newline
  | carriageReturn
  | tab
deriving DecidableEq

namespace Short

/-- What follows the backslash. -/
def letter : Short → UInt8
  | quote => 34
  | backslash => 92
  | solidus => 47
  | backspace => 98
  | formFeed => 102
  | newline => 110
  | carriageReturn => 114
  | tab => 116

/-- The ASCII character it stands for. -/
def byte : Short → UInt8
  | quote => 34
  | backslash => 92
  | solidus => 47
  | backspace => 8
  | formFeed => 12
  | newline => 10
  | carriageReturn => 13
  | tab => 9

theorem byte_ascii (e : Short) : e.byte < 128 := by cases e <;> decide

end Short

/-- What may be written with a backslash. -/
inductive Escape where
  | short (e : Short)
  | unit (h : Hex)
  | pair (high low : Hex)

namespace Escape

def text : Escape → Bytes
  | short e => [92, e.letter]
  | unit h => h.text
  | pair high low => high.text ++ low.text

/-- No surrogate stands alone. -/
def Scalar : Escape → Prop
  | short _ => True
  | unit h => ¬ h.High ∧ ¬ h.Low
  | pair high low => high.High ∧ low.Low

def char : Escape → Char
  | short e => Char.ofNat e.byte.toNat
  | unit h => Char.ofNat h.code
  | pair high low => Char.ofNat (Hex.pairCode high low)

end Escape

/-- A piece of a string; `R` is what stands for itself. -/
inductive Piece (R : Type) where
  | raw (r : R)
  | escape (e : Escape)

namespace Piece

def text {R : Type} (encode : R → Bytes) : Piece R → Bytes
  | raw r => encode r
  | escape e => e.text

def char : Piece Char → Char
  | raw c => c
  | escape e => e.char

end Piece

variable {R : Type}

def piecesText (encode : R → Bytes) (s : List (Piece R)) : Bytes := s.flatMap (Piece.text encode)

@[simp] theorem piecesText_nil (encode : R → Bytes) : piecesText encode [] = [] := rfl

@[simp] theorem piecesText_cons (encode : R → Bytes) (p : Piece R) (s : List (Piece R)) :
    piecesText encode (p :: s) = p.text encode ++ piecesText encode s := by
  simp [piecesText]

/-- A character that may stand for itself. -/
def Unescaped (c : Char) : Prop := 0x20 ≤ c.toNat ∧ c ≠ '"' ∧ c ≠ '\\'

/-- No leading zero, and digits after a decimal point. -/
structure RfcNumber (n : NumberText) : Prop where
  valid : n.Valid
  whole : n.whole = [48] ∨ ∃ c cs, n.whole = c :: cs ∧ c ≠ 48
  fraction : n.fraction ≠ some []

def rfc : Spelling (List (Piece Char)) NumberText where
  string t s := (∀ c, .raw c ∈ s → Unescaped c) ∧ t = piecesText String.utf8EncodeChar s
  number t n := RfcNumber n ∧ t = n.text

/-- The JSON texts of RFC 8259. -/
def RfcText (t : Bytes) : Prop := ∃ d, Text rfc t d

def unicode : Spelling (List Char) Numeral where
  string t cs := ∃ s, rfc.string t s ∧ (∀ e, .escape e ∈ s → e.Scalar) ∧ cs = s.map Piece.char
  number t n := ∃ x, rfc.number t x ∧ n = x.numeral

/-! ### Escapes -/

theorem hexVal_ascii {c : UInt8} (hex : (hexVal c).isSome) : 32 ≤ c ∧ c < 128 := by
  have within : ∀ {low high : UInt8}, low ≤ c ∧ c ≤ high → 32 ≤ low → high < 128 →
      32 ≤ c ∧ c < 128 :=
    fun range low high => ⟨UInt8.le_trans low range.1, UInt8.lt_of_le_of_lt range.2 high⟩
  unfold hexVal at hex
  split at hex
  · rename_i range
    exact within range (by decide) (by decide)
  split at hex
  · rename_i range
    exact within range (by decide) (by decide)
  split at hex
  · rename_i range
    exact within range (by decide) (by decide)
  · contradiction

theorem Hex.ascii (h : Hex) : ∀ b ∈ h.text, 32 ≤ b ∧ b < 128 := by
  obtain ⟨a, b, c, d, ha, hb, hc, hd⟩ := h
  simp only [Hex.text, List.mem_cons, List.not_mem_nil, or_false, forall_eq_or_imp, forall_eq]
  exact ⟨by decide, by decide, hexVal_ascii ha, hexVal_ascii hb, hexVal_ascii hc, hexVal_ascii hd⟩

theorem Escape.ascii (e : Escape) : ∀ b ∈ e.text, 32 ≤ b ∧ b < 128 := by
  intro b member
  cases e with
  | short e =>
    simp only [Escape.text, List.mem_cons, List.not_mem_nil, or_false] at member
    rcases member with rfl | rfl
    · decide
    · cases e <;> decide
  | unit h => exact h.ascii b member
  | pair high low => exact (List.mem_append.mp member).elim (high.ascii b) (low.ascii b)

theorem Escape.opens (e : Escape) : ∃ tail, e.text = 92 :: tail := by
  cases e with
  | short | unit | pair => exact ⟨_, rfl⟩

/-! ### Tokens -/

theorem hexVal_plain {c : UInt8} (hex : (hexVal c).isSome) : c ≠ 34 ∧ c ≠ 92 := by
  constructor <;> rintro rfl <;> revert hex <;> decide

theorem closed_append {s t : Bytes} (left : Closed s) (right : Closed t) : Closed (s ++ t) := by
  induction left with
  | nil => exact right
  | plain quote backslash _ ih => exact .plain quote backslash ih
  | escape _ ih => exact .escape ih

theorem closed_plain {s : Bytes} (plain : ∀ c ∈ s, c ≠ 34 ∧ c ≠ 92) : Closed s := by
  induction s with
  | nil => exact .nil
  | cons c s ih =>
    obtain ⟨quote, backslash⟩ := plain c (by simp)
    exact .plain quote backslash (ih fun d member => plain d (List.mem_cons_of_mem _ member))

theorem Hex.closed (h : Hex) : Closed h.text := by
  obtain ⟨a, b, c, d, ha, hb, hc, hd⟩ := h
  apply Closed.escape
  apply closed_plain
  simp only [List.mem_cons, List.not_mem_nil, or_false, forall_eq_or_imp, forall_eq]
  exact ⟨hexVal_plain ha, hexVal_plain hb, hexVal_plain hc, hexVal_plain hd⟩

theorem Escape.closed (e : Escape) : Closed e.text := by
  cases e with
  | short e => exact .escape .nil
  | unit h => exact h.closed
  | pair high low => exact closed_append high.closed low.closed

/-- Pieces close when whatever stands for itself does. -/
theorem closed_pieces {encode : R → Bytes} {s : List (Piece R)}
    (raw : ∀ r, .raw r ∈ s → ∀ c ∈ encode r, c ≠ 34 ∧ c ≠ 92) : Closed (piecesText encode s) := by
  induction s with
  | nil => exact .nil
  | cons p s ih =>
    rw [piecesText_cons]
    apply closed_append
    · cases p with
      | raw r => exact closed_plain (raw r (by simp))
      | escape e => exact e.closed
    · exact ih fun r member => raw r (List.mem_cons_of_mem _ member)

theorem unescaped_plain {c : Char} (unescaped : Unescaped c) :
    ∀ b ∈ String.utf8EncodeChar c, b ≠ 34 ∧ b ≠ 92 ∧ 32 ≤ b := by
  obtain ⟨printable, quote, backslash⟩ := unescaped
  intro b member
  rcases Utf8.encodeChar_cases c with ⟨d, -, code, single⟩ | ⟨-, high⟩
  · rw [single, List.mem_singleton] at member
    subst member
    refine ⟨?_, ?_, ?_⟩
    · rintro rfl
      exact quote (Char.toNat_inj.mp code.symm)
    · rintro rfl
      exact backslash (Char.toNat_inj.mp code.symm)
    · rw [UInt8.le_iff_toNat_le, code]
      exact printable
  · have above := high b member
    refine ⟨?_, ?_, ?_⟩
    · rintro rfl; exact absurd above (by decide)
    · rintro rfl; exact absurd above (by decide)
    · exact UInt8.le_trans (by decide) above

/-- A string of the RFC is UTF-8. -/
theorem valid_rfcString (s : List (Piece Char)) :
    Utf8.Valid (piecesText String.utf8EncodeChar s) := by
  induction s with
  | nil => exact Utf8.valid_nil
  | cons p s ih =>
    rw [piecesText_cons]
    refine Utf8.Valid.append ?_ ih
    cases p with
    | raw c => exact Utf8.valid_char c
    | escape e => exact Utf8.valid_ascii fun b member => (e.ascii b member).2

theorem rfcString_printable {s : List (Piece Char)} (unescaped : ∀ c, .raw c ∈ s → Unescaped c) :
    ∀ b ∈ piecesText String.utf8EncodeChar s, 32 ≤ b := by
  intro b member
  obtain ⟨p, inside, here⟩ := List.mem_flatMap.mp member
  cases p with
  | raw c => exact (unescaped_plain (unescaped c inside) b here).2.2
  | escape e => exact (e.ascii b here).1

theorem RfcNumber.starts {n : NumberText} (number : RfcNumber n) : StartsNumber n.text := by
  apply n.starts number.valid
  intro _ empty
  rcases number.whole with zero | ⟨c, cs, whole, -⟩
  · simp [empty] at zero
  · simp [empty] at whole

/-- A text of the syntax divided into tokens. -/
theorem rfc_tokens {t : Bytes} {d : Document (List (Piece Char)) NumberText}
    (text : Text rfc t d) :
    Text tokens t (d.map (piecesText String.utf8EncodeChar) NumberText.text) := by
  apply text.map
  · rintro t s ⟨unescaped, rfl⟩
    refine ⟨closed_pieces fun c member b inside => ?_, rfl⟩
    obtain ⟨quote, backslash, -⟩ := unescaped_plain (unescaped c member) b inside
    exact ⟨quote, backslash⟩
  · rintro t n ⟨number, rfl⟩
    exact ⟨number.valid.chars, number.starts, rfl⟩

/-! ### UTF-8 -/

theorem isBlank_ascii {c : UInt8} (blank : isBlank c = true) : c < 128 := by
  simp only [isBlank, Bool.or_eq_true, beq_iff_eq] at blank
  rcases blank with ((rfl | rfl) | rfl) | rfl <;> decide

theorem Blank.skip {w s : Bytes} (blank : Blank w) (valid : Utf8.Valid (w ++ s)) : Utf8.Valid s :=
  valid.of_append (Utf8.valid_ascii fun b member => isBlank_ascii (blank b member))

/-- A value ends before blanks and before any ASCII character. -/
theorem Blank.upTo {t w s : Bytes} (blank : Blank w) (ascii : ∀ b ∈ s.head?, b < 128)
    (valid : Utf8.Valid (t ++ (w ++ s))) : Utf8.Valid t := by
  refine valid.before fun b member => ?_
  cases w with
  | nil => exact ascii b member
  | cons c w =>
    obtain rfl : c = b := by simpa using member
    exact isBlank_ascii (blank c (by simp))

/-- The strings of a UTF-8 text are UTF-8. -/
theorem Derives.utf8 {S N : Type} {sp : Spelling S N} {P : S → Prop}
    (strings : ∀ t s, sp.string t s → Utf8.Valid t → P s) {part : Part S N} {t : Bytes}
    (derives : Derives sp part t) (valid : Utf8.Valid t) : part.All P (fun _ => True) := by
  induction derives with
  | null | wordTrue | wordFalse | number => rw [Part.All, Document.All]; trivial
  | text spelled =>
    rw [Part.All, Document.All]
    exact strings _ _ spelled ((valid.tail (by decide)).before (by simp))
  | emptyArray => rw [Part.All, Document.All, AllItems]; trivial
  | array _ ih =>
    rw [Part.All, Document.All]
    exact ih ((valid.tail (by decide)).before (by simp))
  | emptyObject => rw [Part.All, Document.All, AllMembers]; trivial
  | object _ ih =>
    rw [Part.All, Document.All]
    exact ih ((valid.tail (by decide)).before (by simp))
  | lastItem before _ after ih =>
    rw [Part.All, AllItems, AllItems]
    rw [← List.append_nil (_ ++ _), List.append_assoc, List.append_assoc] at valid
    exact ⟨ih (after.upTo (by simp) (before.skip valid)), trivial⟩
  | item before _ after _ first others =>
    rw [Part.All, AllItems]
    have here := before.skip valid
    have rest := here.of_append (after.upTo (by simp) here)
    exact ⟨first (after.upTo (by simp) here), others ((after.skip rest).tail (by decide))⟩
  | lastMember before spelled colon value _ after ih =>
    rw [Part.All, AllMembers, AllMembers]
    obtain ⟨key, rest⟩ := Utf8.Valid.split (by decide) ((before.skip valid).tail (by decide))
    have here := value.skip ((colon.skip rest).tail (by decide))
    rw [← List.append_nil (_ ++ _), List.append_assoc] at here
    exact ⟨strings _ _ spelled key, ih (after.upTo (by simp) here), trivial⟩
  | member before spelled colon value _ after _ first others =>
    rw [Part.All, AllMembers]
    obtain ⟨key, rest⟩ := Utf8.Valid.split (by decide) ((before.skip valid).tail (by decide))
    have here := value.skip ((colon.skip rest).tail (by decide))
    have later := here.of_append (after.upTo (by simp) here)
    exact ⟨strings _ _ spelled key, first (after.upTo (by simp) here),
      others ((after.skip later).tail (by decide))⟩

theorem Text.utf8 {S N : Type} {sp : Spelling S N} {P : S → Prop}
    (strings : ∀ t s, sp.string t s → Utf8.Valid t → P s) {t : Bytes} {d : Document S N}
    (text : Text sp t d) (valid : Utf8.Valid t) : d.All P (fun _ => True) := by
  obtain ⟨w, s, w', before, here, after, rfl⟩ := text
  rw [← List.append_nil (_ ++ _), List.append_assoc, List.append_assoc] at valid
  exact here.utf8 strings (after.upTo (by simp) (before.skip valid))

end JsonText
