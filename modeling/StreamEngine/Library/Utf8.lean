import StreamEngine.Library.ByteString

/-! UTF-8 as the encoding of lists of characters. An encoded character is a single
byte below 128 or consists of bytes from 128 on, so a text splits at its ASCII
bytes, and no encoding is a prefix of another. -/
namespace Utf8
open ByteString

def encode (cs : List Char) : Bytes := cs.flatMap String.utf8EncodeChar

/-- Byte strings that are the encoding of some characters. -/
def Valid (s : Bytes) : Prop := ∃ cs, s = encode cs

@[simp] theorem encode_nil : encode [] = [] := rfl

@[simp] theorem encode_cons (c : Char) (cs : List Char) :
    encode (c :: cs) = String.utf8EncodeChar c ++ encode cs := by
  simp [encode]

theorem encode_append (cs ds : List Char) : encode (cs ++ ds) = encode cs ++ encode ds := by
  simp [encode]

theorem valid_nil : Valid [] := ⟨[], rfl⟩

theorem valid_char (c : Char) : Valid (String.utf8EncodeChar c) := ⟨[c], by simp⟩

theorem Valid.append {s t : Bytes} (left : Valid s) (right : Valid t) : Valid (s ++ t) := by
  obtain ⟨cs, rfl⟩ := left
  obtain ⟨ds, rfl⟩ := right
  exact ⟨cs ++ ds, (encode_append cs ds).symm⟩

theorem toNat_ofNat {n : Nat} (scalar : n.isValidChar) : (Char.ofNat n).val.toNat = n := by
  rw [Char.ofNat, dif_pos scalar]
  rfl

/-- The character of an ASCII byte. -/
theorem encodeChar_ascii {b : UInt8} (ascii : b < 128) :
    String.utf8EncodeChar (Char.ofNat b.toNat) = [b] := by
  have small : b.toNat < 128 := ascii
  have value := toNat_ofNat (n := b.toNat) (Or.inl (by omega))
  rw [String.utf8EncodeChar]
  simp only [value]
  rw [if_pos (by omega)]
  simp

theorem valid_ascii {s : Bytes} (ascii : ∀ b ∈ s, b < 128) : Valid s := by
  induction s with
  | nil => exact valid_nil
  | cons b s ih =>
    have here := valid_char (Char.ofNat b.toNat)
    rw [encodeChar_ascii (ascii b (by simp))] at here
    exact here.append (ih fun c member => ascii c (List.mem_cons_of_mem _ member))

/-- Either one ASCII byte or only bytes from 128 on. -/
theorem encodeChar_cases (c : Char) :
    (∃ b : UInt8, b < 128 ∧ b.toNat = c.toNat ∧ String.utf8EncodeChar c = [b]) ∨
      (128 ≤ c.toNat ∧ ∀ b ∈ String.utf8EncodeChar c, 128 ≤ b) := by
  have value : c.toNat = c.val.toNat := rfl
  rw [value]
  have high : ∀ n, 128 ≤ n % 256 → 128 ≤ UInt8.ofNat n := by
    intro n large
    rw [UInt8.le_iff_toNat_le, UInt8.toNat_ofNat']
    exact large
  by_cases small : c.val.toNat ≤ 0x7f
  · left
    refine ⟨UInt8.ofNat c.val.toNat, ?_, ?_, ?_⟩
    · rw [UInt8.lt_iff_toNat_lt, UInt8.toNat_ofNat']
      have : (128 : UInt8).toNat = 128 := rfl
      omega
    · rw [UInt8.toNat_ofNat']
      omega
    · rw [String.utf8EncodeChar]
      simp only [small, if_true]
  · right
    refine ⟨by omega, ?_⟩
    have bound : c.val.toNat < 0x110000 := by
      rcases c.valid with low | high
      · have : c.val.toNat < 0xd800 := low
        omega
      · exact high.2
    rw [String.utf8EncodeChar]
    simp only [small, if_false]
    split
    · simp only [List.mem_cons, List.not_mem_nil, or_false, forall_eq_or_imp, forall_eq]
      exact ⟨high _ (by omega), high _ (by omega)⟩
    split
    · simp only [List.mem_cons, List.not_mem_nil, or_false, forall_eq_or_imp, forall_eq]
      exact ⟨high _ (by omega), high _ (by omega), high _ (by omega)⟩
    · simp only [List.mem_cons, List.not_mem_nil, or_false, forall_eq_or_imp, forall_eq]
      exact ⟨high _ (by omega), high _ (by omega), high _ (by omega), high _ (by omega)⟩

/-- No encoding of a character is a prefix of another. -/
theorem encodeChar_prefix {c d : Char} {s t : Bytes}
    (same : String.utf8EncodeChar c ++ s = String.utf8EncodeChar d ++ t) : c = d ∧ s = t := by
  have decoded : ∀ (c : Char) (s : Bytes),
      (String.utf8EncodeChar c ++ s).toByteArray.utf8DecodeChar? 0 = some c := by
    intro c s
    rw [List.toByteArray_append]
    exact ByteArray.utf8DecodeChar?_utf8EncodeChar_append
  have first := decoded c s
  rw [same, decoded, Option.some.injEq] at first
  subst first
  exact ⟨rfl, List.append_cancel_left same⟩

/-- Text after a valid prefix is valid when the whole is. -/
theorem Valid.of_append {s t : Bytes} (whole : Valid (s ++ t)) (left : Valid s) : Valid t := by
  obtain ⟨cs, rfl⟩ := left
  obtain ⟨ds, same⟩ := whole
  induction cs generalizing ds with
  | nil => exact ⟨ds, same⟩
  | cons c cs ih =>
    cases ds with
    | nil =>
      have empty := congrArg List.length same
      have positive := List.length_pos_of_ne_nil (String.utf8EncodeChar_ne_nil (c := c))
      simp only [encode_cons, encode_nil, List.length_append, List.length_nil] at empty
      omega
    | cons d ds =>
      rw [encode_cons, encode_cons, List.append_assoc] at same
      exact ih ds ( encodeChar_prefix same).2

/-- A valid text splits at an ASCII byte. -/
theorem Valid.split {s t : Bytes} {b : UInt8} (ascii : b < 128) (whole : Valid (s ++ b :: t)) :
    Valid s ∧ Valid t := by
  obtain ⟨cs, same⟩ := whole
  induction cs generalizing s with
  | nil => simp at same
  | cons c cs ih =>
    rw [encode_cons] at same
    rcases List.append_eq_append_iff.mp same with ⟨u, encoded, rest⟩ | ⟨u, rfl, rest⟩
    · -- the byte lies in the encoding of `c`, whose only byte it is
      cases u with
      | nil =>
        simp only [List.append_nil, List.nil_append] at encoded rest
        subst encoded
        obtain ⟨-, right⟩ := ih (s := []) rest
        exact ⟨valid_char c, right⟩
      | cons a u =>
        rw [List.cons_append, List.cons.injEq] at rest
        obtain ⟨rfl, rest⟩ := rest
        rcases encodeChar_cases c with ⟨d, -, -, single⟩ | ⟨-, high⟩
        · rw [single] at encoded
          obtain ⟨rfl, rfl⟩ : s = [] ∧ u = [] := by
            have length := congrArg List.length encoded
            simp only [List.length_cons, List.length_nil, List.length_append] at length
            exact ⟨List.length_eq_zero_iff.mp (by omega), List.length_eq_zero_iff.mp (by omega)⟩
          exact ⟨valid_nil, cs, rest⟩
        · have inside := high b (encoded ▸ by simp)
          exact absurd ascii (UInt8.not_lt.mpr inside)
    · obtain ⟨left, right⟩ := ih rest.symm
      exact ⟨(valid_char c).append left, right⟩

theorem Valid.before {s t : Bytes} (whole : Valid (s ++ t)) (ascii : ∀ b ∈ t.head?, b < 128) :
    Valid s := by
  cases t with
  | nil => simpa using whole
  | cons b t => exact (Valid.split (ascii b (by simp)) whole).1

theorem Valid.tail {s : Bytes} {b : UInt8} (ascii : b < 128) (whole : Valid (b :: s)) : Valid s :=
  (Valid.split (s := []) ascii whole).2

end Utf8
