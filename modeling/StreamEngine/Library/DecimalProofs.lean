import StreamEngine.Library.NumberText

/-! Printing with 17 significant digits followed by correctly rounded reading
gives the same double, and printing an integer followed by reading gives the
double nearest to it. The text argument follows the spelling; the numeric one
only uses that the printed decimal is within half a unit of its last place. -/
namespace Decimal
open ByteString Binary64

theorem printInt_spells (z : Int) : Spells (printInt z) ⟨decide (z < 0), z.natAbs, 0⟩ := by
  refine ⟨⟨decide (z < 0), decimal z.natAbs, none, none⟩,
    ⟨decimal_digits _, by simp [NumberText.fractionDigits], by simp, ?_⟩,
    fun _ => decimal_ne_nil _, ?_, ?_⟩
  · simpa [NumberText.fractionDigits] using decimal_ne_nil z.natAbs
  · unfold printInt
    by_cases negative : z < 0 <;> simp [negative, NumberText.text, fractionText, exponentText]
  · simp [NumberText.numeral, NumberText.fractionDigits, NumberText.exponentValue,
      digitsValue_decimal]

theorem strtod_printInt (z : Int) : strtod (printInt z) = (ofInt z, []) := by
  rw [(printInt_spells z).strtod]
  simp [Numeral.toDouble, ofDecimal, ofInt]

/-! ### Seventeen digits -/

theorem divRound_error {n d : Nat} (positive : 0 < d) :
    |(divRound n d : ℚ) - n / d| ≤ 1 / 2 := by
  have split : (n : ℚ) = d * (n / d : Nat) + (n % d : Nat) := by
    exact_mod_cast (Nat.div_add_mod n d).symm
  have small : ((n % d : Nat) : ℚ) < d := by exact_mod_cast Nat.mod_lt n positive
  have dp : (0 : ℚ) < d := by exact_mod_cast positive
  have quotient : (n : ℚ) / d = (n / d : Nat) + (n % d : Nat) / d := by
    rw [split]; field_simp
  have nonneg : (0 : ℚ) ≤ (n % d : Nat) / d := by positivity
  rw [quotient, abs_le]
  unfold divRound
  dsimp only
  split
  · rename_i h
    have : ((n % d : Nat) : ℚ) / d ≤ 1 / 2 := by
      rw [div_le_iff₀ dp]
      have : (2 * (n % d : Nat) : ℚ) < d := by exact_mod_cast h
      linarith
    constructor <;> linarith
  · have half : 1 / 2 ≤ ((n % d : Nat) : ℚ) / d := by
      rw [le_div_iff₀ dp]
      have : (d : ℚ) ≤ 2 * (n % d : Nat) := by exact_mod_cast (by omega : d ≤ 2 * (n % d))
      linarith
    have below : ((n % d : Nat) : ℚ) / d < 1 := by rw [div_lt_one dp]; exact small
    split
    · push_cast
      constructor <;> linarith
    · have tie : ((n % d : Nat) : ℚ) / d = 1 / 2 := by
        rw [div_eq_div_iff dp.ne' (by norm_num)]
        have : d = 2 * (n % d) := by omega
        rw [show (d : ℚ) = 2 * (n % d : Nat) by exact_mod_cast this]
        ring
      have parity : ((n / d % 2 : Nat) : ℚ) ≤ 1 := by
        exact_mod_cast (by omega : n / d % 2 ≤ 1)
      have : (0 : ℚ) ≤ ((n / d % 2 : Nat) : ℚ) := by positivity
      push_cast at *
      constructor <;> linarith

theorem decade_spec {n d : Nat} (numerator : 0 < n) (denominator : 0 < d) :
    (10 : ℚ) ^ decade n d ≤ n / d ∧ (n : ℚ) / d < 10 ^ (decade n d + 1) := by
  have dp : (0 : ℚ) < d := by exact_mod_cast denominator
  unfold decade
  split
  · rename_i large
    have some : n / d ≠ 0 := by
      have := Nat.div_pos large denominator
      omega
    have low := Nat.pow_log_le_self 10 some
    have high := Nat.lt_pow_succ_log_self (by decide : 1 < 10) (n / d)
    constructor
    · rw [zpow_natCast, le_div_iff₀ dp]
      exact_mod_cast (Nat.le_div_iff_mul_le denominator).mp low
    · rw [div_lt_iff₀ dp, ← Nat.cast_succ, zpow_natCast]
      exact_mod_cast (Nat.div_lt_iff_lt_mul denominator).mp high
  · rename_i small
    have above : d ≤ n * ((d + n - 1) / n) := by
      have := Nat.div_add_mod (d + n - 1) n
      have := Nat.mod_lt (d + n - 1) numerator
      omega
    have below : n * ((d + n - 1) / n - 1) < d := by
      have h := Nat.div_mul_le_self (d + n - 1) n
      rw [Nat.mul_sub, Nat.mul_comm n, Nat.mul_one]
      omega
    generalize (d + n - 1) / n = c at *
    have two : 1 < c := by
      by_contra h
      have : n * c ≤ n * 1 := Nat.mul_le_mul_left _ (by omega)
      omega
    have up := Nat.le_pow_clog (by decide : 1 < 10) c
    have down := Nat.pow_pred_clog_lt_self (by decide : 1 < 10) two
    obtain ⟨k, hk⟩ : ∃ k, Nat.clog 10 c = k + 1 :=
      ⟨Nat.clog 10 c - 1, by have := Nat.clog_pos (by decide : 1 < 10) two; omega⟩
    rw [hk] at up down ⊢
    rw [Nat.pred_eq_sub_one, Nat.add_sub_cancel] at down
    have scale : (0 : ℚ) < 10 ^ k := by positivity
    constructor
    · rw [zpow_neg, zpow_natCast, inv_le_iff_one_le_mul₀ (by positivity), div_mul_eq_mul_div,
        le_div_iff₀ dp, one_mul]
      exact_mod_cast above.trans (Nat.mul_le_mul_left n up)
    · rw [show -((k + 1 : Nat) : ℤ) + 1 = -(k : ℤ) by omega, zpow_neg, zpow_natCast,
        div_lt_iff₀ dp, inv_mul_eq_div, lt_div_iff₀ scale]
      have : n * 10 ^ k ≤ n * (c - 1) := Nat.mul_le_mul_left n (by omega)
      exact_mod_cast lt_of_le_of_lt this below

/-- The digits are within half a unit of the last place, a unit that is at most
the value divided by `10^16`. -/
theorem significant_spec {n d : Nat} (numerator : 0 < n) (denominator : 0 < d) :
    10 ^ 16 ≤ (significant n d).1 ∧ (significant n d).1 < 10 ^ 17 ∧
      ∃ unit : ℚ, unit * 10 ^ 16 ≤ n / d ∧
        |((significant n d).1 : ℚ) * 10 ^ ((significant n d).2 - 16) - n / d| ≤ unit / 2 := by
  have dp : (0 : ℚ) < d := by exact_mod_cast denominator
  obtain ⟨low, high⟩ := decade_spec numerator denominator
  unfold significant
  generalize decade n d = X at *
  dsimp only
  have unitPos : (0 : ℚ) < 10 ^ (X - 16) := zpow_pos (by norm_num) _
  have scaled : ∀ D : Nat, D = (if X ≤ 16 then divRound (n * 10 ^ (16 - X).toNat) d
      else divRound n (d * 10 ^ (X - 16).toNat)) →
      |(D : ℚ) - n / d / 10 ^ (X - 16)| ≤ 1 / 2 := by
    intro D hD
    split at hD
    · rename_i h
      have e := divRound_error (n := n * 10 ^ (16 - X).toNat) denominator
      rw [← hD] at e
      have : ((n * 10 ^ (16 - X).toNat : Nat) : ℚ) / d = n / d / 10 ^ (X - 16) := by
        rw [Nat.cast_mul, Nat.cast_pow, ← zpow_natCast, Int.toNat_of_nonneg (by omega),
          show (16 - X) = -(X - 16) by omega, zpow_neg]
        push_cast
        field_simp
      rwa [this] at e
    · rename_i h
      have e := divRound_error (n := n) (d := d * 10 ^ (X - 16).toNat)
        (Nat.mul_pos denominator (Nat.pow_pos (by decide)))
      rw [← hD] at e
      have : (n : ℚ) / ((d * 10 ^ (X - 16).toNat : Nat) : ℚ) = n / d / 10 ^ (X - 16) := by
        rw [Nat.cast_mul, Nat.cast_pow, ← zpow_natCast, Int.toNat_of_nonneg (by omega)]
        push_cast
        field_simp
      rwa [this] at e
  generalize (if X ≤ 16 then divRound (n * 10 ^ (16 - X).toNat) d
    else divRound n (d * 10 ^ (X - 16).toNat)) = D at *
  have error := scaled D rfl
  have lowY : (10 : ℚ) ^ 16 ≤ n / d / 10 ^ (X - 16) := by
    rw [le_div_iff₀ unitPos, ← zpow_natCast, ← zpow_add₀ (by norm_num)]
    simpa using low
  have highY : (n : ℚ) / d / 10 ^ (X - 16) < 10 ^ 17 := by
    rw [div_lt_iff₀ unitPos, ← zpow_natCast, ← zpow_add₀ (by norm_num)]
    rwa [show ((17 : Nat) : ℤ) + (X - 16) = X + 1 by push_cast; ring]
  have error' : |(D : ℚ) * 10 ^ (X - 16) - n / d| ≤ 10 ^ (X - 16) / 2 := by
    have : (D : ℚ) * 10 ^ (X - 16) - n / d = ((D : ℚ) - n / d / 10 ^ (X - 16)) * 10 ^ (X - 16) := by
      field_simp
    rw [this, abs_mul, abs_of_pos unitPos]
    calc _ ≤ 1 / 2 * (10 : ℚ) ^ (X - 16) := mul_le_mul_of_nonneg_right error unitPos.le
      _ = _ := by ring
  have unitLow : (10 : ℚ) ^ (X - 16) * 10 ^ 16 ≤ n / d := by
    rwa [← le_div_iff₀' unitPos]
  rw [abs_le] at error
  have D_low : 10 ^ 16 ≤ D := by
    by_contra h
    have : (D : ℚ) + 1 ≤ 10 ^ 16 := by exact_mod_cast (by omega : D + 1 ≤ 10 ^ 16)
    linarith
  have D_high : D ≤ 10 ^ 17 := by
    by_contra h
    have : (10 : ℚ) ^ 17 + 1 ≤ D := by exact_mod_cast (by omega : 10 ^ 17 + 1 ≤ D)
    linarith
  split
  · rename_i carry
    refine ⟨le_refl _, by norm_num, 10 ^ (X - 16), unitLow, ?_⟩
    have : ((10 ^ 16 : Nat) : ℚ) * 10 ^ (X + 1 - 16) = (D : ℚ) * 10 ^ (X - 16) := by
      rw [carry, show X + 1 - 16 = (X - 16) + 1 by ring, zpow_add₀ (by norm_num)]
      push_cast
      ring
    rwa [this]
  · exact ⟨D_low, by omega, 10 ^ (X - 16), unitLow, error'⟩

/-- A fraction within half of a unit that is at most the value over `10^16` is
near the value, because `2^53 < 10^16` leaves room even under a power of two. -/
theorem near_of_close {x : Finite} {n d : Nat} (positive : 0 < d) {unit : ℚ}
    (small : unit * 10 ^ 16 ≤ x.units) (close : |(n : ℚ) / d - x.units| ≤ unit / 2)
    (nonzero : x.mant ≠ 0) : Near x n d := by
  have dp : (0 : ℚ) < d := by exact_mod_cast positive
  have units : (x.units : ℚ) = x.mant * 2 ^ x.exp := by simp [Finite.units]
  have grid : (0 : ℚ) < 2 ^ x.exp := by positivity
  have mantPos : (1 : ℚ) ≤ x.mant := by exact_mod_cast Nat.one_le_iff_ne_zero.mpr nonzero
  have mantLt : (x.mant : ℚ) < 2 ^ 53 := by exact_mod_cast x.mant_lt
  rw [units] at small close
  obtain ⟨below, above⟩ := abs_le.mp close
  have unitLt : unit < 2 ^ x.exp := by nlinarith
  have upper : (n : ℚ) / d < (x.mant + 1 / 2) * 2 ^ x.exp := by linarith
  rw [div_lt_iff₀ dp] at upper
  refine ⟨?_, ?_⟩
  · have : (2 * n : ℚ) < (2 * x.mant + 1) * (d * 2 ^ x.exp) := by linarith
    exact_mod_cast this
  · split
    · rename_i least
      have unitHalf : unit < 2 ^ x.exp / 2 := by
        have : (x.mant : ℚ) = 2 ^ 52 := by exact_mod_cast least.1
        rw [this] at small
        nlinarith
      have lower : (x.mant - 1 / 4) * 2 ^ x.exp < (n : ℚ) / d := by linarith
      rw [lt_div_iff₀ dp] at lower
      have : (4 * x.mant * (d * 2 ^ x.exp) : ℚ) < 4 * n + d * 2 ^ x.exp := by linarith
      exact_mod_cast this
    · have lower : (x.mant - 1 / 2) * 2 ^ x.exp < (n : ℚ) / d := by linarith
      rw [lt_div_iff₀ dp] at lower
      have : (2 * x.mant * (d * 2 ^ x.exp) : ℚ) < 2 * n + d * 2 ^ x.exp := by linarith
      exact_mod_cast this

/-- Any decimal equal to the printed one is read back as the value. -/
theorem ofDecimal_significant {x : Finite} (nonzero : x.mant ≠ 0) {N k : Nat} {E : ℤ}
    (same : N * 10 ^ k = (significant x.units unitsPerOne).1)
    (exponent : E = (significant x.units unitsPerOne).2 - 16 + k) :
    ofDecimal x.neg N E = .finite x := by
  have unitsPos : 0 < x.units :=
    Nat.mul_pos (Nat.pos_of_ne_zero nonzero) (Nat.pow_pos (by decide))
  have scalePos := unitsPerOne_pos
  obtain ⟨-, -, unit, small, close⟩ := significant_spec unitsPos scalePos
  generalize (significant x.units unitsPerOne).1 = D at *
  generalize (significant x.units unitsPerOne).2 = X at *
  unfold ofDecimal
  generalize unitsPerOne = scale at *
  have sp : (0 : ℚ) < scale := by exact_mod_cast scalePos
  have value : (N : ℚ) * 10 ^ E = D * 10 ^ (X - 16) := by
    rw [← same, exponent, zpow_add₀ (by norm_num), zpow_natCast]
    push_cast
    ring
  have small' : unit * scale * 10 ^ 16 ≤ x.units := by
    rw [le_div_iff₀ sp] at small
    linarith
  have close' : |(N : ℚ) * 10 ^ E * scale - x.units| ≤ unit * scale / 2 := by
    have : (N : ℚ) * 10 ^ E * scale - x.units =
        (D * 10 ^ (X - 16) - x.units / scale) * scale := by
      rw [value]; field_simp
    rw [this, abs_mul, abs_of_pos sp]
    calc _ ≤ unit / 2 * scale := mul_le_mul_of_nonneg_right close sp.le
      _ = _ := by ring
  split
  · rename_i nonneg
    refine round_near (near_of_close Nat.one_pos small' ?_ nonzero)
    convert close' using 3
    rw [Nat.cast_one, div_one, Nat.cast_mul, Nat.cast_mul, Nat.cast_pow,
      ← zpow_natCast _ E.toNat, Int.toNat_of_nonneg nonneg]
    norm_num
  · rename_i negative
    refine round_near (near_of_close (Nat.pow_pos (by decide)) small' ?_ nonzero)
    convert close' using 3
    rw [Nat.cast_mul, Nat.cast_pow, ← zpow_natCast _ (-E).toNat, Int.toNat_of_nonneg (by omega),
      zpow_neg]
    push_cast
    field_simp

theorem stripZeros_spec (s : Bytes) :
    ∃ k, s = stripZeros s ++ List.replicate k 48 := by
  refine ⟨(s.rtakeWhile (· == 48)).length, ?_⟩
  have zeros : s.rtakeWhile (· == 48) = List.replicate (s.rtakeWhile (· == 48)).length 48 := by
    apply List.eq_replicate_of_mem
    intro c hc
    simpa using List.mem_rtakeWhile_imp hc
  rw [← zeros]
  exact List.rdropWhile_append_rtakeWhile.symm

/-! ### The layouts of `%.17g` -/

/-- The fraction digits of a printed number, none when all were zero. -/
def printedFraction (s : Bytes) : Option Bytes := if s = [] then none else some s

theorem fractionText_printed (s : Bytes) : fractionText (printedFraction s) = printFraction s := by
  unfold printedFraction printFraction
  split <;> rfl

theorem printedFraction_getD (s : Bytes) : (printedFraction s).getD [] = s := by
  unfold printedFraction
  split
  · rename_i empty
    rw [empty]; rfl
  · rfl

theorem digitsValue_padded (k : Nat) :
    digitsValue (if k < 10 then 48 :: decimal k else decimal k) = k := by
  split
  · rw [show 48 :: decimal k = [48] ++ decimal k from rfl, digitsValue_append, digitsValue_decimal]
    simp [digitsValue]
  · exact digitsValue_decimal k

theorem padded_digits (k : Nat) :
    ∀ c ∈ (if k < 10 then 48 :: decimal k else decimal k), isDigit c = true := by
  intro c member
  split at member
  · rcases List.mem_cons.mp member with rfl | member
    · rfl
    · exact decimal_digits _ c member
  · exact decimal_digits _ c member

/-- The exponent part with its sign and at least two digits. -/
def printedExponent (X : Int) : ExponentText where
  marker := 101
  sign := some (if X < 0 then 45 else 43)
  digits := if X.natAbs < 10 then 48 :: decimal X.natAbs else decimal X.natAbs

theorem printedExponent_text (X : Int) : (printedExponent X).text = printExponent X := rfl

theorem printedExponent_valid (X : Int) : (printedExponent X).Valid where
  marker := Or.inl rfl
  sign := by
    intro c member
    obtain rfl := Option.some.inj member
    split
    · exact Or.inl rfl
    · exact Or.inr rfl
  digits := padded_digits X.natAbs
  nonempty := by
    simp only [printedExponent]
    split
    · simp
    · exact decimal_ne_nil _

theorem printedExponent_value (X : Int) : (printedExponent X).value = X := by
  simp only [ExponentText.value, printedExponent, digitsValue_padded, Option.some.injEq]
  by_cases negative : X < 0
  · simp only [negative, if_true]
    omega
  · have plus : ¬ (43 : UInt8) = 45 := by decide
    simp only [negative, if_false, plus]
    omega

theorem stripZeros_digits {s : Bytes} (digits : ∀ c ∈ s, isDigit c = true) :
    ∀ c ∈ stripZeros s, isDigit c = true :=
  fun c hc => digits c ((List.rdropWhile_prefix _ _).mem hc)

/-- A whole number, a fraction that may be empty and perhaps an exponent spell the number
that their digits make. -/
theorem printed_spells (neg : Bool) (whole fraction : Bytes) {e : Option ExponentText}
    (wholeDigits : ∀ c ∈ whole, isDigit c = true) (nonempty : whole ≠ [])
    (fractionDigits : ∀ c ∈ fraction, isDigit c = true) (exponent : ∀ x ∈ e, x.Valid) :
    Spells ((if neg then [45] else []) ++ (whole ++ (printFraction fraction ++ exponentText e)))
      ⟨neg, digitsValue (whole ++ fraction),
        (e.map ExponentText.value).getD 0 - fraction.length⟩ := by
  refine ⟨⟨neg, whole, printedFraction fraction, e⟩, ⟨wholeDigits, ?_, exponent, ?_⟩,
    fun _ => nonempty, ?_, ?_⟩
  · rw [NumberText.fractionDigits, printedFraction_getD]
    exact fractionDigits
  · simp [nonempty]
  · rw [NumberText.text, fractionText_printed]
  · rw [NumberText.numeral, NumberText.fractionDigits, printedFraction_getD]
    rfl

/-- Trailing zeros that are cut make up a power of ten. -/
theorem stripZeros_value (whole fraction : Bytes) : ∃ k,
    (stripZeros fraction).length + k = fraction.length ∧
      digitsValue (whole ++ stripZeros fraction) * 10 ^ k = digitsValue (whole ++ fraction) := by
  obtain ⟨k, strip⟩ := stripZeros_spec fraction
  have count := congrArg List.length strip
  rw [List.length_append, List.length_replicate] at count
  refine ⟨k, count.symm, ?_⟩
  have parts : whole ++ fraction = whole ++ stripZeros fraction ++ List.replicate k 48 := by
    rw [List.append_assoc, ← strip]
  rw [parts, digitsValue_append (whole ++ stripZeros fraction), digitsValue_zeros,
    List.length_replicate]
  rfl

/-- The three layouts of `%.17g` spell the same decimal. -/
theorem printSignificant_spells (neg : Bool) {D : Nat} (X : ℤ)
    (low : 10 ^ 16 ≤ D) (high : D < 10 ^ 17) :
    ∃ N k : Nat, N * 10 ^ k = D ∧
      Spells ((if neg then [45] else []) ++ printSignificant D X) ⟨neg, N, X - 16 + k⟩ := by
  have length := decimal_length low high
  have all := decimal_digits D
  have value := digitsValue_decimal D
  unfold printSignificant
  dsimp only
  generalize decimal D = digits at *
  have whole : ∀ n, digits.take (n + 1) ≠ [] := by
    intro n
    apply List.ne_nil_of_length_pos
    rw [List.length_take]
    omega
  have before : ∀ n, ∀ c ∈ digits.take n, isDigit c = true :=
    fun _ c hc => all c (List.mem_of_mem_take hc)
  have after : ∀ n, ∀ c ∈ stripZeros (digits.drop n), isDigit c = true :=
    fun _ => stripZeros_digits fun c hc => all c (List.mem_of_mem_drop hc)
  by_cases range : -4 ≤ X ∧ X < 17
  · rw [if_pos range]
    by_cases nonneg : 0 ≤ X
    · -- digits before and after the point
      rw [if_pos nonneg]
      obtain ⟨k, count, same⟩ :=
        stripZeros_value (digits.take (X.toNat + 1)) (digits.drop (X.toNat + 1))
      rw [List.take_append_drop, value] at same
      rw [List.length_drop] at count
      refine ⟨_, k, same, ?_⟩
      have spells := printed_spells neg _ _ (e := none) (before (X.toNat + 1)) (whole _)
        (after (X.toNat + 1)) (by simp)
      rw [exponentText, List.append_nil] at spells
      convert spells using 2
      simp only [Option.map_none, Option.getD_none]
      omega
    · -- a leading zero and zeros after the point
      rw [if_neg nonneg]
      obtain ⟨k, count, same⟩ := stripZeros_value [] digits
      rw [List.nil_append, List.nil_append, value] at same
      have zeros : ∀ c ∈ List.replicate (-X - 1).toNat (48 : UInt8), isDigit c = true := by
        intro c hc
        rw [(List.mem_replicate.mp hc).2]
        rfl
      refine ⟨_, k, same, ?_⟩
      have spells := printed_spells neg [48]
        (List.replicate (-X - 1).toNat 48 ++ stripZeros digits) (e := none) (by simp [isDigit])
        (by simp) (fun c hc => (List.mem_append.mp hc).elim (zeros c) (stripZeros_digits all c))
        (by simp)
      have leading : digitsValue ([48] ++ (List.replicate (-X - 1).toNat 48 ++ stripZeros digits)) =
          digitsValue (stripZeros digits) := by
        rw [← List.append_assoc, show ([48] : Bytes) ++ List.replicate (-X - 1).toNat 48 =
          List.replicate ((-X - 1).toNat + 1) 48 from rfl, digitsValue_append, digitsValue_zeros]
        simp
      rw [leading, exponentText, List.append_nil, List.singleton_append] at spells
      convert spells using 2
      rw [List.length_append, List.length_replicate]
      simp only [Option.map_none, Option.getD_none]
      omega
  · -- one digit, a fraction and an exponent
    rw [if_neg range]
    obtain ⟨k, count, same⟩ := stripZeros_value (digits.take 1) (digits.drop 1)
    rw [List.take_append_drop, value] at same
    rw [List.length_drop] at count
    refine ⟨_, k, same, ?_⟩
    have spells := printed_spells neg _ _ (e := some (printedExponent X)) (before 1) (whole 0)
      (after 1) (by rintro x ⟨⟩; exact printedExponent_valid X)
    rw [exponentText, printedExponent_text] at spells
    rw [List.append_assoc]
    convert spells using 2
    simp only [Option.map_some, Option.getD_some, printedExponent_value]
    omega

/-- `%.17g` spells a decimal that rounds to the printed double. -/
theorem printG17_spells (x : Finite) :
    ∃ n, Spells (printG17 (.finite x)) n ∧ n.toDouble = .finite x := by
  unfold printG17
  by_cases zeroMant : x.mant = 0
  · have spells := printed_spells x.neg [48] [] (e := none)
      (by simp [isDigit]) (by simp) (by simp) (by simp)
    have isZero : x.isZero = true := by simp [Finite.isZero, zeroMant]
    dsimp only
    rw [isZero, if_pos rfl]
    refine ⟨_, spells, ?_⟩
    have exact := round_exact x (n := 0) Nat.one_pos (by simp [Finite.units, zeroMant])
    have value : digitsValue ([48] ++ []) = 0 := rfl
    simp only [Numeral.toDouble, ofDecimal, value, List.length_nil, Nat.cast_zero, Int.sub_zero,
      Option.map_none, Option.getD_none, le_refl, if_true, Nat.zero_mul, exact]
  · have unitsPos : 0 < x.units :=
      Nat.mul_pos (Nat.pos_of_ne_zero zeroMant) (Nat.pow_pos (by decide))
    obtain ⟨low, high, -⟩ := significant_spec unitsPos unitsPerOne_pos
    obtain ⟨N, k, same, spells⟩ := printSignificant_spells x.neg
      (significant x.units unitsPerOne).2 low high
    have notZero : x.isZero = false := by simp [Finite.isZero, zeroMant]
    simp only [notZero, Bool.false_eq_true, if_false]
    exact ⟨_, spells, ofDecimal_significant zeroMant same rfl⟩

end Decimal
