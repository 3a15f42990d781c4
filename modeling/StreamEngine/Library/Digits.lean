import StreamEngine.Library.Decimal

/-! Strings of decimal digits: their characters and their values. -/
namespace Decimal
open ByteString

theorem digit_toNat {n : Nat} (small : n < 10) : (digit n).toNat = 48 + n := by
  simp only [digit, Nat.toUInt8_eq, UInt8.toNat_ofNat']
  omega

theorem digit_isDigit {n : Nat} (small : n < 10) : isDigit (digit n) = true := by
  have h := digit_toNat small
  simp only [isDigit, Bool.and_eq_true, decide_eq_true_eq, UInt8.le_iff_toNat_le]
  refine ⟨?_, ?_⟩
  · rw [h]; simp
  · rw [h]; change 48 + n ≤ 57; omega

theorem isDigit_toNat {c : UInt8} (h : isDigit c = true) : 48 ≤ c.toNat ∧ c.toNat ≤ 57 := by
  simpa [isDigit, UInt8.le_iff_toNat_le] using h

theorem digitsValue_concat (s : Bytes) (c : UInt8) :
    digitsValue (s ++ [c]) = 10 * digitsValue s + (c.toNat - 48) := by
  simp [digitsValue]

theorem digitsValue_append (s t : Bytes) :
    digitsValue (s ++ t) = digitsValue s * 10 ^ t.length + digitsValue t := by
  induction t using List.reverseRecOn with
  | nil => simp [digitsValue]
  | append_singleton t c ih =>
    rw [← List.append_assoc, digitsValue_concat, digitsValue_concat, ih, List.length_append,
      List.length_singleton, pow_succ]
    ring

theorem digitsValue_zeros (k : Nat) : digitsValue (List.replicate k 48) = 0 := by
  induction k with
  | zero => rfl
  | succ k ih => rw [List.replicate_succ', digitsValue_concat, ih]; rfl

theorem digitsValue_reverse (ds : List Nat) (small : ∀ k ∈ ds, k < 10) :
    digitsValue (ds.map digit).reverse = Nat.ofDigits 10 ds := by
  induction ds with
  | nil => rfl
  | cons k ds ih =>
    rw [List.map_cons, List.reverse_cons, digitsValue_concat,
      ih (fun j hj => small j (List.mem_cons_of_mem _ hj)), digit_toNat (small k (by simp)),
      Nat.ofDigits_cons]
    omega

theorem digitsValue_decimal (n : Nat) : digitsValue (decimal n) = n := by
  unfold decimal
  split
  · rename_i h
    rw [h]; rfl
  · rw [digitsValue_reverse _ (fun k hk => Nat.digits_lt_base (by decide) hk), Nat.ofDigits_digits]

theorem decimal_digits (n : Nat) : ∀ c ∈ decimal n, isDigit c = true := by
  unfold decimal
  split
  · simp [isDigit]
  · intro c hc
    obtain ⟨k, hk, rfl⟩ := List.mem_map.mp (List.mem_reverse.mp hc)
    exact digit_isDigit (Nat.digits_lt_base (by decide) hk)

theorem decimal_ne_nil (n : Nat) : decimal n ≠ [] := by
  unfold decimal
  split
  · simp
  · simpa [Nat.digits_eq_nil_iff_eq_zero] using ‹¬n = 0›

theorem decimal_length {n k : Nat} (low : 10 ^ k ≤ n) (high : n < 10 ^ (k + 1)) :
    (decimal n).length = k + 1 := by
  have positive : n ≠ 0 := by have := Nat.pow_pos (n := k) (show 0 < 10 by decide); omega
  rw [decimal, if_neg positive, List.length_reverse, List.length_map,
    Nat.length_digits _ _ (by decide) positive,
    Nat.log_eq_of_pow_le_of_lt_pow low high]

theorem takeWhile_digits {s : Bytes} (rest : Bytes) (digits : ∀ c ∈ s, isDigit c = true)
    (stop : ∀ c ∈ rest.head?, isDigit c = false) :
    (s ++ rest).takeWhile isDigit = s ∧ (s ++ rest).dropWhile isDigit = rest := by
  rw [List.takeWhile_append_of_pos digits, List.dropWhile_append_of_pos digits]
  cases rest with
  | nil => simp
  | cons c rest =>
    have h := stop c (by simp)
    simp [h]

theorem takeWhile_digits_all {s : Bytes} (digits : ∀ c ∈ s, isDigit c = true) :
    s.takeWhile isDigit = s ∧ s.dropWhile isDigit = [] := by
  simpa using takeWhile_digits [] digits (by simp)

theorem isDigit_notSpace {c : UInt8} (digit : isDigit c = true) : isSpace c = false := by
  have range := isDigit_toNat digit
  simp only [isSpace, Bool.or_eq_false_iff, beq_eq_false_iff_ne, Bool.and_eq_false_iff,
    decide_eq_false_iff_not, UInt8.le_iff_toNat_le]
  refine ⟨?_, Or.inr ?_⟩
  · rintro rfl; simp at range
  · change ¬ c.toNat ≤ 13; omega

/-! ### Characters of numbers -/

/-- Characters of a printed number. -/
def isNumberChar (c : UInt8) : Bool :=
  isDigit c || c == 46 || c == 101 || c == 69 || c == 43 || c == 45

theorem isDigit.isNumberChar {c : UInt8} (h : isDigit c = true) : isNumberChar c = true := by
  simp [Decimal.isNumberChar, h]

/-- A printed number starts with a digit or a minus sign. -/
def StartsNumber (s : Bytes) : Prop := ∃ c rest, s = c :: rest ∧ (c = 45 ∨ isDigit c = true)

theorem isSpace_of_isDigit {c : UInt8} (digit : isDigit c = true) : isSpace c = false := by
  have all : ∀ n : Fin 256, isDigit (UInt8.ofNat n) = true → isSpace (UInt8.ofNat n) = false := by
    decide +kernel
  have here := all ⟨c.toNat, c.toNat_lt⟩
  rw [UInt8.ofNat_toNat] at here
  exact here digit

/-- A string of digits has no sign and ends the number. -/
theorem strtol_digits {s : Bytes} (digits : ∀ c ∈ s, isDigit c = true) :
    strtol s = min (2 ^ 63 - 1) (digitsValue s : Int) := by
  have trimmed : s.dropWhile isSpace = s := by
    cases s with
    | nil => rfl
    | cons c s =>
      rw [List.dropWhile_cons_of_neg]
      rw [isSpace_of_isDigit (digits c List.mem_cons_self)]
      decide
  have unsigned : ∀ c, isDigit c = false → s.head? ≠ some c := by
    intro c other head
    rw [digits c (List.mem_of_mem_head? head)] at other
    contradiction
  have whole : s.takeWhile isDigit = s := List.takeWhile_eq_self_iff.mpr digits
  simp only [strtol, trimmed, unsigned 45 rfl, unsigned 43 rfl, or_self, if_false, whole]

theorem atoi_digits {s : Bytes} (digits : ∀ c ∈ s, isDigit c = true) (small : digitsValue s < 2 ^ 31) :
    atoi s = digitsValue s := by
  rw [atoi, strtol_digits digits, toInt32]
  omega

end Decimal
