import StreamEngine.Library.Digits
import Mathlib.Tactic.Push

/-! Spellings of decimal numbers and the exact number that each denotes. `strtod` reads
every spelling whole, to the double nearest to its number, and what it reads whole is a
spelling. -/
namespace Decimal
open ByteString Binary64

/-- The number `± digits * 10^exp10`. -/
structure Numeral where
  neg : Bool
  digits : Nat
  exp10 : Int
deriving DecidableEq

namespace Numeral

/-- The nearest double. -/
def toDouble (n : Numeral) : Double := ofDecimal n.neg n.digits n.exp10

def value (n : Numeral) : ℚ := (if n.neg then -1 else 1) * n.digits * 10 ^ n.exp10

end Numeral

/-- The exponent part of a spelling. -/
structure ExponentText where
  marker : UInt8
  sign : Option UInt8
  digits : Bytes

namespace ExponentText
variable (e : ExponentText)

def text : Bytes := e.marker :: (e.sign.toList ++ e.digits)

def value : Int := if e.sign = some 45 then -(digitsValue e.digits : Int) else digitsValue e.digits

/-- `e` or `E`, perhaps a sign, and at least one digit. -/
structure Valid : Prop where
  marker : e.marker = 101 ∨ e.marker = 69
  sign : ∀ c ∈ e.sign, c = 45 ∨ c = 43
  digits : ∀ c ∈ e.digits, isDigit c = true
  nonempty : e.digits ≠ []

end ExponentText

/-- The parts of a spelling. -/
structure NumberText where
  neg : Bool
  whole : Bytes
  fraction : Option Bytes
  exponent : Option ExponentText

/-- A decimal point and the digits after it. -/
def fractionText : Option Bytes → Bytes
  | none => []
  | some digits => 46 :: digits

def exponentText : Option ExponentText → Bytes
  | none => []
  | some e => e.text

namespace NumberText
variable (t : NumberText)

def text : Bytes :=
  (if t.neg then [45] else []) ++ (t.whole ++ (fractionText t.fraction ++ exponentText t.exponent))

def fractionDigits : Bytes := t.fraction.getD []

def exponentValue : Int := (t.exponent.map ExponentText.value).getD 0

def numeral : Numeral where
  neg := t.neg
  digits := digitsValue (t.whole ++ t.fractionDigits)
  exp10 := t.exponentValue - t.fractionDigits.length

/-- Digits where digits belong, and at least one of them. -/
structure Valid : Prop where
  whole : ∀ c ∈ t.whole, isDigit c = true
  fraction : ∀ c ∈ t.fractionDigits, isDigit c = true
  exponent : ∀ e ∈ t.exponent, e.Valid
  nonempty : t.whole ++ t.fractionDigits ≠ []

end NumberText

theorem readExponent_text {e : ExponentText} (valid : e.Valid) :
    readExponent e.text = (e.value, []) := by
  obtain ⟨marker, sign, digits⟩ := e
  obtain ⟨markers, signs, areDigits, nonempty⟩ := valid
  simp only at markers signs areDigits nonempty
  obtain ⟨before, after⟩ := takeWhile_digits_all areDigits
  obtain ⟨c, cs, rfl⟩ := List.exists_cons_of_ne_nil nonempty
  have range := isDigit_toNat (areDigits c (by simp))
  have notMinus : c ≠ 45 := by rintro rfl; simp at range
  have notPlus : c ≠ 43 := by rintro rfl; simp at range
  simp only [ExponentText.text, ExponentText.value, readExponent, markers, if_true]
  cases sign with
  | none =>
    simp only [Option.toList_none, List.nil_append, List.head?_cons, Option.some.injEq, notMinus,
      notPlus, or_self, if_false, before, after, List.cons_ne_nil, reduceCtorEq]
  | some s =>
    have sign := signs s rfl
    simp only [Option.toList_some, List.cons_append, List.nil_append, List.head?_cons,
      Option.some.injEq, sign, if_true, List.drop_succ_cons, List.drop_zero, before, after,
      List.cons_ne_nil, if_false]

theorem exponentText_head {e : Option ExponentText} (valid : ∀ x ∈ e, x.Valid) :
    ∀ c ∈ (exponentText e).head?, c = 101 ∨ c = 69 := by
  cases e with
  | none => simp [exponentText]
  | some x =>
    intro c member
    simp only [exponentText, ExponentText.text, List.head?_cons, Option.mem_def,
      Option.some.injEq] at member
    exact member ▸ (valid x rfl).marker

theorem readExponent_exponentText {e : Option ExponentText} (valid : ∀ x ∈ e, x.Valid) :
    readExponent (exponentText e) = ((e.map ExponentText.value).getD 0, []) := by
  cases e with
  | none => rfl
  | some x => simpa [exponentText] using readExponent_text (valid x rfl)

theorem readFraction_text {fraction : Option Bytes} {tail : Bytes}
    (digits : ∀ c ∈ fraction.getD [], isDigit c = true) (stop : ∀ c ∈ tail.head?, c = 101 ∨ c = 69) :
    readFraction (fractionText fraction ++ tail) = (fraction.getD [], tail) := by
  cases fraction with
  | none =>
    cases tail with
    | nil => rfl
    | cons c tail =>
      have marker := stop c (by simp)
      have notPoint : c ≠ 46 := by rintro rfl; simp at marker
      simp only [fractionText, List.nil_append, Option.getD_none]
      unfold readFraction
      split
      · rename_i same
        exact absurd (List.cons.inj same).1 notPoint
      · rfl
  | some f =>
    have notDigit : ∀ c ∈ tail.head?, isDigit c = false := by
      intro c member
      rcases stop c member with rfl | rfl <;> rfl
    obtain ⟨before, after⟩ := takeWhile_digits tail digits notDigit
    simp only [Option.getD_some] at before after
    simp only [fractionText, List.cons_append, readFraction, before, after, Option.getD_some]

/-- What a spelling starts with after its sign. -/
theorem NumberText.Valid.head {t : NumberText} (valid : t.Valid) :
    ∃ c rest, t.whole ++ (fractionText t.fraction ++ exponentText t.exponent) = c :: rest ∧
      (c = 46 ∨ isDigit c = true) := by
  cases whole : t.whole with
  | cons c cs =>
    exact ⟨c, _, rfl, Or.inr (valid.whole c (by simp [whole]))⟩
  | nil =>
    cases fraction : t.fraction with
    | some f => exact ⟨46, _, rfl, Or.inl rfl⟩
    | none =>
      apply absurd valid.nonempty
      simp [whole, NumberText.fractionDigits, fraction]

theorem NumberText.Valid.stop {t : NumberText} (valid : t.Valid) :
    ∀ c ∈ (fractionText t.fraction ++ exponentText t.exponent).head?, isDigit c = false := by
  intro c member
  cases fraction : t.fraction with
  | some f =>
    simp only [fraction, fractionText, List.cons_append, List.head?_cons, Option.mem_def,
      Option.some.injEq] at member
    rw [← member]; rfl
  | none =>
    simp only [fraction, fractionText, List.nil_append] at member
    rcases exponentText_head valid.exponent c member with rfl | rfl <;> rfl

/-- A spelling is read whole, to the double nearest to its number. -/
theorem strtod_numberText {t : NumberText} (valid : t.Valid) :
    strtod t.text = (t.numeral.toDouble, []) := by
  obtain ⟨before, after⟩ := takeWhile_digits _ valid.whole valid.stop
  have read := readFraction_text valid.fraction
    (exponentText_head valid.exponent)
  have exponent := readExponent_exponentText valid.exponent
  have some : ¬ (t.whole = [] ∧ t.fraction.getD [] = []) := by
    rintro ⟨noWhole, noFraction⟩
    exact valid.nonempty (by simp [NumberText.fractionDigits, noWhole, noFraction])
  obtain ⟨c, rest, head, start⟩ := valid.head
  have notSpace : isSpace c = false := by
    rcases start with rfl | digit
    · rfl
    · exact isDigit_notSpace digit
  have notSign : c ≠ 45 ∧ c ≠ 43 := by
    rcases start with rfl | digit
    · decide
    · have range := isDigit_toNat digit
      constructor <;> rintro rfl <;> simp at range
  unfold strtod NumberText.text
  cases sign : t.neg
  · have unsigned : (c :: rest).dropWhile isSpace = c :: rest := by
      simp only [List.dropWhile_cons, notSpace, Bool.false_eq_true, if_false]
    have plain : ¬ ((c :: rest).head? = Option.some 45 ∨ (c :: rest).head? = Option.some 43) := by
      simp [notSign]
    simp only [Bool.false_eq_true, if_false, List.nil_append]
    simp only [head, unsigned, plain, if_false]
    rw [← head]
    simp only [before, after, read, exponent, some, if_false]
    simp only [head, List.head?_cons, Option.some.injEq, notSign.1, decide_false, Numeral.toDouble,
      NumberText.numeral, sign, NumberText.exponentValue, NumberText.fractionDigits]
  · have minusNotSpace : isSpace 45 = false := rfl
    simp only [if_true, List.cons_append, List.nil_append, List.dropWhile_cons, minusNotSpace,
      Bool.false_eq_true, if_false, List.head?_cons, true_or, List.drop_succ_cons, List.drop_zero,
      before, after, read, exponent, some, decide_true, Numeral.toDouble, NumberText.numeral, sign,
      NumberText.exponentValue, NumberText.fractionDigits]

/-! ### What is read whole is a spelling -/

theorem takeWhile_isDigit (s : Bytes) : ∀ c ∈ s.takeWhile isDigit, isDigit c = true :=
  fun _ member => List.mem_takeWhile_imp member

theorem exists_fractionText (s : Bytes) :
    ∃ fraction, s = fractionText fraction ++ (readFraction s).2 ∧
      fraction.getD [] = (readFraction s).1 ∧ ∀ c ∈ fraction.getD [], isDigit c = true := by
  unfold readFraction
  split
  · rename_i s
    refine ⟨some (s.takeWhile isDigit), ?_, rfl, takeWhile_isDigit s⟩
    simp only [fractionText, List.cons_append, List.takeWhile_append_dropWhile]
  · exact ⟨none, rfl, rfl, by simp⟩

theorem exists_exponentText {s : Bytes} (whole : (readExponent s).2 = []) :
    ∃ e, s = exponentText e ∧ (∀ x ∈ e, x.Valid) ∧
      (e.map ExponentText.value).getD 0 = (readExponent s).1 := by
  cases s with
  | nil => exact ⟨none, rfl, by simp, rfl⟩
  | cons c s =>
    by_cases marker : c = 101 ∨ c = 69
    · simp only [readExponent, marker, if_true] at whole ⊢
      generalize sameBody : (if s.head? = some 45 ∨ s.head? = some 43 then s.drop 1 else s) = body
        at whole ⊢
      by_cases none : body.takeWhile isDigit = []
      · simp [none] at whole
      rw [if_neg none] at whole ⊢
      simp only at whole ⊢
      have digits := takeWhile_isDigit body
      have parts := List.takeWhile_append_dropWhile (p := isDigit) (l := body)
      rw [whole, List.append_nil] at parts
      rw [parts] at digits none ⊢
      by_cases signed : s.head? = some 45 ∨ s.head? = some 43
      · rw [if_pos signed] at sameBody
        obtain ⟨sign, rest, rfl⟩ : ∃ x rest, s = x :: rest := by
          cases s with
          | nil => simp at signed
          | cons x rest => exact ⟨x, rest, rfl⟩
        simp only [List.head?_cons, Option.some.injEq, List.drop_succ_cons, List.drop_zero]
          at signed sameBody ⊢
        subst sameBody
        refine ⟨some ⟨c, some sign, rest⟩, rfl, ?_, ?_⟩
        · intro x member
          cases member
          exact ⟨marker, by simpa using signed, digits, none⟩
        · simp [ExponentText.value]
      · rw [if_neg signed] at sameBody
        rw [not_or] at signed
        subst sameBody
        refine ⟨some ⟨c, Option.none, s⟩, rfl, ?_, ?_⟩
        · intro x member
          cases member
          exact ⟨marker, by simp, digits, none⟩
        · simp [ExponentText.value, signed.1]
    · simp [readExponent, marker] at whole

/-- A token that starts like a number and is read whole is a spelling, with an integer
part unless there is a minus sign. -/
theorem exists_numberText {tok : Bytes} {d : Double} (starts : StartsNumber tok)
    (read : strtod tok = (d, [])) :
    ∃ t : NumberText, t.Valid ∧ t.text = tok ∧ t.numeral.toDouble = d ∧
      (t.neg = false → t.whole ≠ []) := by
  obtain ⟨c, rest, rfl, start⟩ := starts
  have notSpace : isSpace c = false := by
    rcases start with rfl | digit
    · rfl
    · exact isDigit_notSpace digit
  have unspaced : (c :: rest).dropWhile isSpace = c :: rest := by
    simp only [List.dropWhile_cons, notSpace, Bool.false_eq_true, if_false]
  have notPlus : c ≠ 43 := by
    rcases start with rfl | digit
    · decide
    · have range := isDigit_toNat digit
      rintro rfl; simp at range
  obtain ⟨body, bodyText⟩ : ∃ body, body = if c = 45 then rest else c :: rest := ⟨_, rfl⟩
  have sameBody : (if (c :: rest).head? = some 45 ∨ (c :: rest).head? = some 43 then
      (c :: rest).drop 1 else c :: rest) = body := by
    simp [bodyText, notPlus]
  unfold strtod at read
  simp only [unspaced, sameBody] at read
  obtain ⟨fraction, fractionSplit, fractionDigits, areDigits⟩ :=
    exists_fractionText (body.dropWhile isDigit)
  split at read
  · simp at read
  · rename_i nonempty
    simp only [Prod.mk.injEq] at read
    obtain ⟨value, whole⟩ := read
    obtain ⟨exponent, exponentSplit, valid, exponentValue⟩ := exists_exponentText whole
    rw [exponentSplit] at fractionSplit
    have parts : body.takeWhile isDigit ++ (fractionText fraction ++ exponentText exponent) =
        body := by
      rw [← fractionSplit, List.takeWhile_append_dropWhile]
    refine ⟨⟨c = 45, body.takeWhile isDigit, fraction, exponent⟩,
      ⟨takeWhile_isDigit body, areDigits, valid, ?_⟩, ?_, ?_, ?_⟩
    · intro empty
      obtain ⟨noWhole, noFraction⟩ := List.append_eq_nil_iff.mp empty
      exact nonempty ⟨noWhole, fractionDigits ▸ noFraction⟩
    · simp only [NumberText.text, parts, decide_eq_true_eq]
      by_cases minus : c = 45 <;> simp [bodyText, minus]
    · rw [← value, ← exponentValue, ← fractionDigits]
      simp [Numeral.toDouble, NumberText.numeral, NumberText.exponentValue,
        NumberText.fractionDigits]
    · intro plain
      have notMinus : c ≠ 45 := by simpa using plain
      have digit := start.resolve_left notMinus
      rw [if_neg notMinus] at bodyText
      simp [bodyText, digit]

/-! ### Tokens -/

theorem NumberText.Valid.chars {t : NumberText} (valid : t.Valid) :
    ∀ c ∈ t.text, isNumberChar c = true := by
  intro c member
  simp only [NumberText.text, List.mem_append] at member
  rcases member with sign | whole | fraction | exponent
  · split at sign
    · rw [List.mem_singleton.mp sign]; rfl
    · simp at sign
  · exact isDigit.isNumberChar (valid.whole c whole)
  · have digits := valid.fraction
    cases parts : t.fraction with
    | none => simp [parts, fractionText] at fraction
    | some f =>
      rw [NumberText.fractionDigits, parts, Option.getD_some] at digits
      rw [parts, fractionText, List.mem_cons] at fraction
      rcases fraction with rfl | digit
      · rfl
      · exact isDigit.isNumberChar (digits c digit)
  · cases parts : t.exponent with
    | none => simp [parts, exponentText] at exponent
    | some e =>
      obtain ⟨marker, sign, digits, -⟩ := valid.exponent e parts
      simp only [parts, exponentText, ExponentText.text, List.mem_cons, List.mem_append,
        Option.mem_toList] at exponent
      rcases exponent with rfl | signed | digit
      · rcases marker with marker | marker <;> rw [marker] <;> rfl
      · rcases sign c signed with rfl | rfl <;> rfl
      · exact isDigit.isNumberChar (digits c digit)

theorem NumberText.starts {t : NumberText} (valid : t.Valid)
    (whole : t.neg = false → t.whole ≠ []) : StartsNumber t.text := by
  cases sign : t.neg with
  | true => exact ⟨45, _, by rw [NumberText.text, sign]; rfl, Or.inl rfl⟩
  | false =>
    obtain ⟨c, cs, first⟩ := List.exists_cons_of_ne_nil (whole sign)
    exact ⟨c, _, by rw [NumberText.text, sign, first]; rfl,
      Or.inr (valid.whole c (by simp [first]))⟩

theorem exponentText_injective {e e' : Option ExponentText} (valid : ∀ x ∈ e, x.Valid)
    (valid' : ∀ x ∈ e', x.Valid) (same : exponentText e = exponentText e') : e = e' := by
  have notSign : ∀ {s : UInt8}, s = 45 ∨ s = 43 → isDigit s = false := by
    rintro s (rfl | rfl) <;> rfl
  cases e with
  | none =>
    cases e' with
    | none => rfl
    | some x' => simp [exponentText, ExponentText.text] at same
  | some x =>
    cases e' with
    | none => simp [exponentText, ExponentText.text] at same
    | some x' =>
      obtain ⟨-, signs, digits, -⟩ := valid x rfl
      obtain ⟨-, signs', digits', -⟩ := valid' x' rfl
      obtain ⟨marker, sign, ds⟩ := x
      obtain ⟨marker', sign', ds'⟩ := x'
      simp only [exponentText, ExponentText.text, List.cons.injEq] at same
      obtain ⟨rfl, tails⟩ := same
      -- a sign is no digit, so both have one or neither has
      cases sign with
      | none =>
        cases sign' with
        | none =>
          obtain rfl : ds = ds' := tails
          rfl
        | some s' =>
          have digit := digits s' (by rw [show ds = s' :: ds' from tails]; simp)
          rw [notSign (signs' s' rfl)] at digit
          cases digit
      | some s =>
        cases sign' with
        | none =>
          have digit := digits' s (by rw [show ds' = s :: ds from tails.symm]; simp)
          rw [notSign (signs s rfl)] at digit
          cases digit
        | some s' =>
          obtain ⟨rfl, rfl⟩ := List.cons.inj tails
          rfl

theorem fractionText_injective {f f' : Option Bytes} (same : fractionText f = fractionText f') :
    f = f' := by
  cases f with
  | none =>
    cases f' with
    | none => rfl
    | some ds' => simp [fractionText] at same
  | some ds =>
    cases f' with
    | none => simp [fractionText] at same
    | some ds' =>
      obtain rfl := (List.cons.inj same).2
      rfl

/-- A number text has one division into its parts. -/
theorem numberText_injective {t t' : NumberText} (valid : t.Valid) (valid' : t'.Valid)
    (same : t.text = t'.text) : t = t' := by
  have unsigned : ∀ {t : NumberText}, t.Valid →
      (t.whole ++ (fractionText t.fraction ++ exponentText t.exponent)).head? ≠ some 45 := by
    intro t valid
    obtain ⟨c, rest, head, start⟩ := valid.head
    rw [head, List.head?_cons, ne_eq, Option.some.injEq]
    rcases start with rfl | digit
    · decide
    · rintro rfl
      contradiction
  obtain ⟨sameNeg, sameBody⟩ : t.neg = t'.neg ∧
      t.whole ++ (fractionText t.fraction ++ exponentText t.exponent) =
        t'.whole ++ (fractionText t'.fraction ++ exponentText t'.exponent) := by
    have here := unsigned valid
    have there := unsigned valid'
    unfold NumberText.text at same
    cases neg : t.neg <;> cases neg' : t'.neg <;> simp only [neg, neg', if_true,
      Bool.false_eq_true, if_false, List.nil_append, List.cons_append] at same
    · exact ⟨rfl, same⟩
    · rw [same] at here; simp at here
    · rw [← same] at there; simp at there
    · exact ⟨rfl, (List.cons.inj same).2⟩
  obtain ⟨before, after⟩ := takeWhile_digits _ valid.whole valid.stop
  obtain ⟨before', after'⟩ := takeWhile_digits _ valid'.whole valid'.stop
  have sameWhole : t.whole = t'.whole := by rw [← before, sameBody, before']
  have sameTail : fractionText t.fraction ++ exponentText t.exponent =
      fractionText t'.fraction ++ exponentText t'.exponent := by rw [← after, sameBody, after']
  have read := readFraction_text valid.fraction (exponentText_head valid.exponent)
  have read' := readFraction_text valid'.fraction (exponentText_head valid'.exponent)
  rw [sameTail, read', Prod.mk.injEq] at read
  have sameExponent := exponentText_injective valid'.exponent valid.exponent read.2
  rw [sameExponent, List.append_left_inj] at sameTail
  have sameFraction := fractionText_injective sameTail
  obtain ⟨neg, whole, fraction, exponent⟩ := t
  obtain ⟨neg', whole', fraction', exponent'⟩ := t'
  simp only at sameNeg sameWhole sameFraction sameExponent
  rw [sameNeg, sameWhole, sameFraction, sameExponent]

/-- A token of this numeral, which starts as a number does. -/
def Spells (tok : Bytes) (n : Numeral) : Prop :=
  ∃ t : NumberText, t.Valid ∧ (t.neg = false → t.whole ≠ []) ∧ t.text = tok ∧ t.numeral = n

namespace Spells
variable {tok : Bytes} {n : Numeral}

theorem strtod (spells : Spells tok n) : strtod tok = (n.toDouble, []) := by
  obtain ⟨t, valid, -, rfl, rfl⟩ := spells
  exact strtod_numberText valid

theorem chars (spells : Spells tok n) : ∀ c ∈ tok, isNumberChar c = true := by
  obtain ⟨t, valid, -, rfl, -⟩ := spells
  exact valid.chars

theorem starts (spells : Spells tok n) : StartsNumber tok := by
  obtain ⟨t, valid, whole, rfl, -⟩ := spells
  exact t.starts valid whole

theorem unique {n' : Numeral} (spells : Spells tok n) (spells' : Spells tok n') : n = n' := by
  obtain ⟨t, valid, -, text, rfl⟩ := spells
  obtain ⟨t', valid', -, text', rfl⟩ := spells'
  rw [numberText_injective valid valid' (text.trans text'.symm)]

end Spells

/-- A token of a number. -/
def Denotes (tok : Bytes) (q : ℚ) : Prop := ∃ n, Spells tok n ∧ n.value = q

theorem Denotes.unique {tok : Bytes} {q q' : ℚ} (denotes : Denotes tok q)
    (denotes' : Denotes tok q') : q = q' := by
  obtain ⟨n, spells, rfl⟩ := denotes
  obtain ⟨n', spells', rfl⟩ := denotes'
  rw [spells.unique spells']

/-! ### Overflow -/

/-- The magnitude of a numeral, half a unit above the greatest double or more. -/
def Numeral.Overflows (n : Numeral) : Prop := 2 ^ 1024 - 2 ^ 970 ≤ |n.value|

theorem Numeral.abs_value (n : Numeral) : |n.value| = n.digits * 10 ^ n.exp10 := by
  have magnitude : (0 : ℚ) ≤ n.digits * 10 ^ n.exp10 :=
    mul_nonneg (Nat.cast_nonneg _) (zpow_pos (by norm_num) _).le
  have sign : |(if n.neg then -1 else 1 : ℚ)| = 1 := by split <;> simp
  rw [Numeral.value, mul_assoc, abs_mul, sign, one_mul, abs_of_nonneg magnitude]

/-- The nearest double is finite unless the numeral overflows. -/
theorem Numeral.toDouble_isFinite (n : Numeral) : n.toDouble.isFinite = true ↔ ¬ n.Overflows := by
  have scale : ((2 : ℚ) ^ 1024 - 2 ^ 970) * unitsPerOne = overflow := by
    have upper : (2 : ℚ) ^ 1024 = 2 ^ 54 * 2 ^ 970 := by rw [← pow_add]
    have units : (2 : ℚ) ^ 2044 = 2 ^ 970 * 2 ^ 1074 := by rw [← pow_add]
    have top : ((2 ^ 54 - 1 : Nat) : ℚ) = 2 ^ 54 - 1 := by norm_num
    rw [unitsPerOne, overflow, Nat.cast_mul, top, Nat.cast_pow, Nat.cast_pow, Nat.cast_ofNat, upper,
      units, ← sub_one_mul, mul_assoc]
  have positive : (0 : ℚ) < unitsPerOne := by exact_mod_cast unitsPerOne_pos
  rw [Numeral.Overflows, Numeral.abs_value, not_le, Numeral.toDouble, ofDecimal,
    ← mul_lt_mul_iff_of_pos_right positive, scale]
  split
  · rename_i nonneg
    obtain ⟨e, exponent⟩ := Int.eq_ofNat_of_zero_le nonneg
    rw [round_isFinite Nat.one_pos, Nat.mul_one, exponent]
    simp only [Int.toNat_natCast, zpow_natCast]
    exact_mod_cast Iff.rfl
  · rename_i negative
    obtain ⟨e, exponent⟩ := Int.eq_ofNat_of_zero_le (Int.le_of_lt (Int.neg_pos.mpr (not_le.mp negative)))
    have flipped : n.exp10 = -(e : Int) := by omega
    rw [round_isFinite (by positivity), exponent, flipped, zpow_neg, zpow_natCast]
    have ten : (0 : ℚ) < 10 ^ e := by positivity
    rw [Int.toNat_natCast, mul_right_comm, ← div_eq_mul_inv, div_lt_iff₀ ten]
    exact_mod_cast Iff.rfl

end Decimal
