import StreamEngine.Library.DecimalProofs

/-! Natural numbers through a double and through 17 printed digits. Each step rounds to a
multiple of a power, of two and then of ten, and below `2^64` the number survives both
exactly when it is a multiple of the one and close enough to a multiple of the other. -/
namespace Decimal
open ByteString Binary64

/-- The distance between doubles around a natural number. -/
def gap (n : Nat) : Nat := 2 ^ (Nat.log2 n - 52)

/-- The double nearest to a natural number. -/
def nearest (n : Nat) : Nat := divRound n (gap n) * gap n

/-- The value of the last of 17 digits. -/
def place (n : Nat) : Nat := 10 ^ (Nat.log 10 n - 16)

/-- A natural number to 17 digits. -/
def toDigits (n : Nat) : Nat := divRound n (place n) * place n

theorem divRound_one (n : Nat) : divRound n 1 = n := by simp [divRound, Nat.mod_one]

theorem divRound_scale (n d : Nat) {c : Nat} (positive : 0 < c) :
    divRound (n * c) (d * c) = divRound n d := by
  have less : ∀ {a b : Nat}, 2 * (a * c) < b * c ↔ 2 * a < b := by
    intro a b
    rw [← Nat.mul_assoc]
    exact Nat.mul_lt_mul_right positive
  have more : ∀ {a b : Nat}, b * c < 2 * (a * c) ↔ b < 2 * a := by
    intro a b
    rw [← Nat.mul_assoc]
    exact Nat.mul_lt_mul_right positive
  simp only [divRound, Nat.mul_div_mul_right _ _ positive, Nat.mul_mod_mul_right, less, more]

theorem divRound_mul (m : Nat) {d : Nat} (positive : 0 < d) : divRound (m * d) d = m := by
  have scaled := divRound_scale m 1 positive
  rwa [Nat.one_mul, divRound_one] at scaled

theorem gap_pos (n : Nat) : 0 < gap n := by unfold gap; positivity

theorem gap_of_small {n : Nat} (small : n < 2 ^ 53) : gap n = 1 := by
  have log : Nat.log2 n - 52 = 0 := by
    rcases Nat.eq_zero_or_pos n with rfl | positive
    · rfl
    · have := (Nat.log2_lt (by omega)).mpr small
      omega
  rw [gap, log, pow_zero]

theorem nearest_of_small {n : Nat} (small : n < 2 ^ 53) : nearest n = n := by
  rw [nearest, gap_of_small small, divRound_one, Nat.mul_one]

/-- A positive value that is so many units, with an exponent that makes them integers. -/
theorem integer_of_exp {m k : Nat} (lt : m < 2 ^ 53) (le : k + 1074 ≤ 2045)
    (normal : k + 1074 = 0 ∨ 2 ^ 52 ≤ m) :
    (Finite.mk false m (k + 1074) lt le normal).IsInteger ∧
      (Finite.mk false m (k + 1074) lt le normal).trunc = (m * 2 ^ k : Nat) := by
  have inside : 1074 ≤ k + 1074 := Nat.le_add_left _ _
  have whole : (Finite.mk false m (k + 1074) lt le normal).whole = m * 2 ^ k := by
    rw [Finite.whole, if_pos inside, Nat.add_sub_cancel]
  constructor
  · rw [Finite.IsInteger, whole, Finite.units, unitsPerOne, pow_add, Nat.mul_assoc]
  · rw [Finite.trunc, whole]
    rfl

/-- A natural number is converted to the double nearest to it. -/
theorem ofInt_nearest {n : Nat} (small : n < 2 ^ 64) :
    ∃ x, ofInt (n : Int) = .finite x ∧ x.IsInteger ∧ x.trunc = nearest n := by
  rcases Nat.lt_or_ge n (2 ^ 53) with exact | large
  · rw [nearest_of_small exact]
    exact exists_ofInt (by simpa using exact)
  obtain ⟨k, log⟩ : ∃ k, Nat.log2 n = k + 52 := by
    have := (Nat.le_log2 (n := n) (k := 53) (by omega)).mpr large
    exact ⟨Nat.log2 n - 52, by omega⟩
  have nonzero : n ≠ 0 := by omega
  have low : 2 ^ (k + 52) ≤ n := (Nat.le_log2 nonzero).mp (by omega)
  have high : n < 2 ^ (k + 53) := (Nat.log2_lt nonzero).mp (by omega)
  have bound : k ≤ 11 := by
    have := (Nat.log2_lt nonzero).mpr small
    omega
  have units := unitsPerOne_pos
  have scale : 2 ^ (k + 1074) = 2 ^ k * unitsPerOne := by rw [unitsPerOne, pow_add]
  have bin : binade (n * unitsPerOne) 1 = k + 1074 := by
    apply binade_eq
    · right
      rw [Nat.div_one, pow_add, scale, ← Nat.mul_assoc, ← pow_add, Nat.add_comm]
      exact Nat.mul_le_mul_right _ low
    · rw [Nat.div_one, pow_add, scale, ← Nat.mul_assoc, ← pow_add, Nat.add_comm]
      exact Nat.mul_lt_mul_of_pos_right high units
  have gapEq : gap n = 2 ^ k := by rw [gap, log, Nat.add_sub_cancel]
  have mantissa : divRound (n * unitsPerOne) (1 * 2 ^ (k + 1074)) = divRound n (2 ^ k) := by
    rw [Nat.one_mul, scale, divRound_scale _ _ units]
  have bounds := significand_bounds (n * unitsPerOne) Nat.one_pos
  rw [bin, mantissa] at bounds
  obtain ⟨le, normal⟩ := bounds
  have rounded : ofInt (n : Int) = pack false (divRound n (2 ^ k)) (k + 1074) := by
    have positive : decide ((n : Int) < 0) = false := by simp
    rw [ofInt, Int.natAbs_natCast, positive, Binary64.round, bin, mantissa]
  rw [rounded, nearest, gapEq]
  have fits : k + 1074 ≤ 2045 := by omega
  rcases Nat.lt_or_eq_of_le le with less | carry
  · obtain ⟨integer, trunc⟩ := integer_of_exp less fits normal
    rw [pack, dif_pos ⟨less, fits, normal⟩]
    exact ⟨_, rfl, integer, trunc⟩
  · have next : k + 1 + 1074 ≤ 2045 := by omega
    obtain ⟨integer, trunc⟩ := integer_of_exp (m := 2 ^ 52) (by decide) next (Or.inr (le_refl _))
    rw [carry, pack, dif_neg (by simp), dif_pos ⟨rfl, by omega⟩]
    have exponent : k + 1074 + 1 = k + 1 + 1074 := by omega
    simp only [exponent]
    have same : 2 ^ 52 * 2 ^ (k + 1) = 2 ^ 53 * 2 ^ k := by ring
    exact ⟨_, rfl, integer, trunc.trans (congrArg Nat.cast same)⟩

theorem whole_of_trunc {x : Finite} {n : Nat} (trunc : x.trunc = n) : x.whole = n := by
  unfold Finite.trunc at trunc
  split at trunc <;> omega

/-! ### Seventeen digits of a natural number -/

theorem place_pos (n : Nat) : 0 < place n := by unfold place; positivity

theorem decade_integer {n u : Nat} (positive : 0 < n) (unit : 0 < u) :
    decade (n * u) u = Nat.log 10 n := by
  rw [decade, if_pos (Nat.le_mul_of_pos_left _ positive), Nat.mul_div_cancel _ unit]

/-- The digits of a natural number before their carry. -/
theorem digits_integer (n : Nat) {u X : Nat} (unit : 0 < u) (log : Nat.log 10 n = X) :
    ((if (X : Int) ≤ 16 then divRound (n * u * 10 ^ (16 - (X : Int)).toNat) u
      else divRound (n * u) (u * 10 ^ ((X : Int) - 16).toNat) : Nat) : ℚ) *
        10 ^ ((X : Int) - 16) = toDigits n := by
  split
  · rename_i small
    have exponent : (16 - (X : Int)).toNat = 16 - X := by omega
    have whole : place n = 1 := by rw [place, log, Nat.sub_eq_zero_of_le (by omega), pow_zero]
    have shift : ((X : Int) - 16) = -((16 - X : Nat) : Int) := by omega
    rw [exponent, mul_right_comm, divRound_mul _ unit, toDigits, whole, divRound_one, Nat.mul_one,
      shift, zpow_neg, zpow_natCast]
    have ten : (10 : ℚ) ^ (16 - X) ≠ 0 := by positivity
    push_cast
    field_simp
  · rename_i large
    have exponent : ((X : Int) - 16).toNat = X - 16 := by omega
    have shift : ((X : Int) - 16) = ((X - 16 : Nat) : Int) := by omega
    rw [exponent, Nat.mul_comm u, divRound_scale _ _ unit, toDigits, place, log, shift, zpow_natCast]
    push_cast
    rfl

theorem significant_integer {n u : Nat} (positive : 0 < n) (unit : 0 < u) :
    ((significant (n * u) u).1 : ℚ) * 10 ^ ((significant (n * u) u).2 - 16) = toDigits n := by
  have before := digits_integer n unit rfl
  unfold significant
  rw [decade_integer positive unit]
  dsimp only
  generalize (if (Nat.log 10 n : Int) ≤ 16 then
    divRound (n * u * 10 ^ (16 - (Nat.log 10 n : Int)).toNat) u
    else divRound (n * u) (u * 10 ^ ((Nat.log 10 n : Int) - 16).toNat)) = D at before ⊢
  split
  · rename_i carry
    have next : (Nat.log 10 n : Int) + 1 - 16 = (Nat.log 10 n : Int) - 16 + 1 := by ring
    rw [carry] at before
    rw [← before, next, zpow_add₀ (by norm_num)]
    push_cast
    ring
  · exact before

/-- What `%.17g` prints of a natural number is its 17 digits. -/
theorem printG17_integer {x : Finite} {n : Nat} (positive : 0 < n) (integer : x.IsInteger)
    (trunc : x.trunc = n) : Denotes (printG17 (.finite x)) (toDigits n : Nat) := by
  have whole := whole_of_trunc trunc
  have unsigned : x.neg = false := by
    unfold Finite.trunc at trunc
    cases neg : x.neg <;> simp only [neg, if_true, Bool.false_eq_true, if_false] at trunc
    · rfl
    · omega
  have units : x.units = n * unitsPerOne := by rw [← whole]; exact integer
  have unitsPos : 0 < n * unitsPerOne := Nat.mul_pos positive unitsPerOne_pos
  have notZero : x.isZero = false := by
    by_contra isZero
    rw [Bool.not_eq_false] at isZero
    have := whole_of_isZero isZero
    omega
  obtain ⟨low, high, -⟩ := significant_spec unitsPos unitsPerOne_pos
  obtain ⟨N, k, same, spells⟩ := printSignificant_spells false
    (significant (n * unitsPerOne) unitsPerOne).2 low high
  unfold printG17
  simp only [unsigned, notZero, units, Bool.false_eq_true, if_false]
  refine ⟨_, spells, ?_⟩
  rw [Numeral.value, ← significant_integer positive unitsPerOne_pos, ← same]
  simp only [Bool.false_eq_true, if_false, one_mul]
  rw [zpow_add₀ (by norm_num), zpow_natCast]
  push_cast
  ring

/-! ### Survival -/

theorem nearest_spec (n : Nat) : 2 * nearest n ≤ 2 * n + gap n ∧ 2 * n ≤ 2 * nearest n + gap n := by
  obtain ⟨lower, upper, -⟩ := divRound_spec (n := n) (gap_pos n)
  rw [nearest, ← Nat.mul_assoc]
  exact ⟨lower, by linarith⟩

/-- No multiple of the gap is nearer. -/
theorem nearest_le {n m t : Nat} (above : 2 * n < 2 * (m * gap n) + t)
    (below : 2 * (m * gap n) < 2 * n + t) :
    2 * n < 2 * nearest n + t ∧ 2 * nearest n < 2 * n + t := by
  obtain ⟨lower, upper⟩ := nearest_spec n
  have positive := gap_pos n
  unfold nearest at *
  generalize divRound n (gap n) = q at *
  rcases Nat.lt_trichotomy m q with less | rfl | more
  · have far := Nat.mul_le_mul_right (gap n) less
    rw [Nat.succ_mul] at far
    omega
  · exact ⟨above, below⟩
  · have far := Nat.mul_le_mul_right (gap n) more
    rw [Nat.succ_mul] at far
    omega

/-- Rounding stays on the same side of a multiple of the gap. -/
theorem nearest_le_of_dvd {n c : Nat} (le : n ≤ c) (divides : gap n ∣ c) : nearest n ≤ c := by
  obtain ⟨lower, -⟩ := nearest_spec n
  obtain ⟨m, rfl⟩ := divides
  have positive := gap_pos n
  by_contra beyond
  have more : m < divRound n (gap n) := by
    by_contra within
    have := Nat.mul_le_mul_right (gap n) (not_lt.mp within)
    unfold nearest at beyond
    linarith
  have far := Nat.mul_le_mul_right (gap n) more
  rw [Nat.succ_mul] at far
  unfold nearest at lower
  linarith

theorem le_nearest_of_dvd {n c : Nat} (le : c ≤ n) (divides : gap n ∣ c) : c ≤ nearest n := by
  obtain ⟨-, upper⟩ := nearest_spec n
  obtain ⟨m, rfl⟩ := divides
  have positive := gap_pos n
  by_contra beyond
  have less : divRound n (gap n) < m := by
    by_contra within
    have := Nat.mul_le_mul_right (gap n) (not_lt.mp within)
    unfold nearest at beyond
    linarith
  have far := Nat.mul_le_mul_right (gap n) less
  rw [Nat.succ_mul] at far
  unfold nearest at upper
  linarith

theorem toDigits_of_dvd {n : Nat} (divides : place n ∣ n) : toDigits n = n := by
  obtain ⟨q, multiple⟩ := divides
  have rounded := divRound_mul q (place_pos n)
  rw [Nat.mul_comm, ← multiple] at rounded
  rw [toDigits, rounded, Nat.mul_comm, ← multiple]

theorem toDigits_of_small {n : Nat} (small : n < 10 ^ 17) : toDigits n = n := by
  have log : Nat.log 10 n < 17 := Nat.log_lt_of_lt_pow' (by decide) small
  have last : place n = 1 := by rw [place, Nat.sub_eq_zero_of_le (by omega), pow_zero]
  exact toDigits_of_dvd (last ▸ one_dvd n)

/-- A natural number that comes back from a double and from its 17 digits: it ends in as many
zeros as its digits exceed 17, and less than half of its last place away is a double. -/
def Survives (n : Nat) : Prop :=
  place n ∣ n ∧ ∃ m, 2 * n < 2 * (m * gap n) + place n ∧ 2 * (m * gap n) < 2 * n + place n

/-- With room for 17 digits the number itself is a double. -/
theorem survives_of_small {n : Nat} (small : n < 2 ^ 53) :
    toDigits (nearest n) = n ∧ Survives n := by
  have log : Nat.log 10 n ≤ 15 := by
    have : Nat.log 10 n < 16 := Nat.log_lt_of_lt_pow' (by decide) (by omega)
    omega
  have last : place n = 1 := by rw [place, Nat.sub_eq_zero_of_le (by omega), pow_zero]
  constructor
  · rw [nearest_of_small small]
    exact toDigits_of_dvd (last ▸ one_dvd n)
  · refine ⟨last ▸ one_dvd n, n, ?_⟩
    rw [last, gap_of_small small]
    omega

/-- A multiple of the gap lies half of the last place away from no multiple of it. -/
theorem no_tie {n r : Nat} (large : 2 ^ 53 ≤ n) (small : n < 2 ^ 64) (divides : gap n ∣ r)
    (round : place n ∣ n) : 2 * r ≠ 2 * n + place n ∧ 2 * n ≠ 2 * r + place n := by
  have low : 15 ≤ Nat.log 10 n := Nat.le_log_of_pow_le (by decide) (by omega)
  have high : Nat.log 10 n < 20 := Nat.log_lt_of_lt_pow' (by decide) (by omega)
  rcases Nat.lt_or_ge (Nat.log 10 n) 17 with few | many
  · have last : place n = 1 := by rw [place, Nat.sub_eq_zero_of_le (by omega), pow_zero]
    omega
  · -- the double is a multiple of 16, more often even than half of the last place is
    have size : 10 ^ 17 ≤ n := (Nat.pow_le_pow_right (by decide) many).trans
      (Nat.pow_log_le_self 10 (by omega))
    have bits : 56 ≤ Nat.log2 n := (Nat.le_log2 (by omega)).mpr (by omega)
    have sixteen : 2 ^ 4 ∣ gap n := pow_dvd_pow 2 (by omega)
    obtain ⟨a, double⟩ := sixteen.trans divides
    obtain ⟨q, multiple⟩ := round
    have places : place n = 10 ∨ place n = 100 ∨ place n = 1000 := by
      unfold place
      have cases : Nat.log 10 n = 17 ∨ Nat.log 10 n = 18 ∨ Nat.log 10 n = 19 := by omega
      rcases cases with log | log | log <;> simp [log]
    rcases places with last | last | last <;> rw [last] at multiple ⊢ <;> omega

/-- Below `2^64` these are the numbers that come back. -/
theorem toDigits_nearest_iff {n : Nat} (small : n < 2 ^ 64) :
    toDigits (nearest n) = n ↔ Survives n := by
  rcases Nat.lt_or_ge n (2 ^ 53) with exact | large
  · exact iff_of_true (survives_of_small exact).1 (survives_of_small exact).2
  have nonzero : n ≠ 0 := by omega
  have low : 15 ≤ Nat.log 10 n := Nat.le_log_of_pow_le (by decide) (by omega)
  have bits : Nat.log2 n - 52 ≤ 11 := by
    have := (Nat.log2_lt nonzero).mpr small
    omega
  have divides : ∀ {k}, 11 ≤ k → gap n ∣ 10 ^ k := by
    intro k enough
    have two : (2 : Nat) ∣ 10 := by decide
    exact (pow_dvd_pow 2 (by omega)).trans (pow_dvd_pow_of_dvd two k)
  have below := Nat.pow_log_le_self 10 nonzero
  have above := Nat.lt_pow_succ_log_self (by decide : 1 < 10) n
  have from' := le_nearest_of_dvd below (divides (by omega))
  have upTo := nearest_le_of_dvd above.le (divides (by omega))
  have positive := place_pos n
  rcases Nat.lt_or_eq_of_le upTo with inside | carry
  · have log : Nat.log 10 (nearest n) = Nat.log 10 n := Nat.log_eq_of_pow_le_of_lt_pow from' inside
    have samePlace : place (nearest n) = place n := by rw [place, log, place]
    constructor
    · intro same
      have multiple : place n ∣ n := by
        rw [toDigits, samePlace] at same
        exact Dvd.intro_left _ same
      obtain ⟨lower, upper, -⟩ := divRound_spec (n := nearest n) (place_pos (nearest n))
      have ties := no_tie large small (r := nearest n) (Dvd.intro_left _ rfl) multiple
      rw [Nat.mul_assoc] at lower
      rw [Nat.add_mul, Nat.mul_assoc] at upper
      rw [toDigits] at same
      rw [same, samePlace] at lower upper
      refine ⟨multiple, divRound n (gap n), ?_⟩
      unfold nearest at *
      omega
    · rintro ⟨⟨q, multiple⟩, m, near, near'⟩
      obtain ⟨upper, lower⟩ := nearest_le near near'
      have rounded : divRound (nearest n) (place n) = q := by
        apply divRound_eq
        · linarith
        · linarith
      rw [toDigits, samePlace, rounded, Nat.mul_comm, ← multiple]
  · have log : Nat.log 10 (nearest n) = Nat.log 10 n + 1 := by
      rw [carry, Nat.log_pow (by decide)]
    have printed : toDigits (nearest n) = 10 ^ (Nat.log 10 n + 1) := by
      rw [toDigits_of_dvd, carry]
      rw [place, log, carry]
      exact pow_dvd_pow 10 (by omega)
    refine iff_of_false (by omega) ?_
    rintro ⟨⟨q, multiple⟩, m, near, near'⟩
    obtain ⟨-, lower⟩ := nearest_le near near'
    -- the power of ten is a whole last place above the number
    obtain ⟨p, power⟩ : place n ∣ 10 ^ (Nat.log 10 n + 1) := pow_dvd_pow 10 (by omega)
    have next : q < p := by
      by_contra beyond
      have := Nat.mul_le_mul_left (place n) (not_lt.mp beyond)
      omega
    have far := Nat.mul_le_mul_left (place n) next
    rw [Nat.mul_succ] at far
    omega

end Decimal
