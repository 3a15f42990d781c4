import Mathlib.Data.Nat.Log
import Mathlib.Data.Rat.Floor
import Mathlib.Tactic.Linarith
import Mathlib.Tactic.FieldSimp
import Mathlib.Tactic.Ring
import Mathlib.Tactic.NormNum
import Mathlib.Tactic.Positivity

/-! IEEE binary64 values and correct rounding of a non-negative fraction. A
magnitude is counted in units of `2^-1074`, the smallest subnormal, so every
finite value is the natural number `mant * 2^exp` of units. Rounding is to
nearest, ties to even, with overflow to infinity. The results used elsewhere
say that a fraction close enough to a finite value rounds to it. -/
namespace Binary64

/-- A finite value `± mant * 2^exp` units in its canonical encoding. -/
structure Finite where
  neg : Bool
  mant : Nat
  exp : Nat
  mant_lt : mant < 2 ^ 53
  exp_le : exp ≤ 2045
  normal : exp = 0 ∨ 2 ^ 52 ≤ mant
deriving DecidableEq

inductive Double where
  | finite (value : Finite)
  | infinite (neg : Bool)
  | nan
deriving DecidableEq

/-- The number one, in units. -/
def unitsPerOne : Nat := 2 ^ 1074

theorem unitsPerOne_pos : 0 < unitsPerOne := by
  unfold unitsPerOne
  positivity

/-- Magnitude in units of `2^-1074`. -/
def Finite.units (x : Finite) : Nat := x.mant * 2 ^ x.exp

def Finite.isZero (x : Finite) : Bool := x.mant == 0

/-- The integer part of the magnitude. -/
def Finite.whole (x : Finite) : Nat :=
  if 1074 ≤ x.exp then x.mant * 2 ^ (x.exp - 1074) else x.mant / 2 ^ (1074 - x.exp)

/-- Truncation toward zero. -/
def Finite.trunc (x : Finite) : Int := if x.neg then -(x.whole : Int) else x.whole

def zero (neg : Bool) : Finite := ⟨neg, 0, 0, by decide, by decide, Or.inl rfl⟩

def Double.isFinite : Double → Bool
  | .finite _ => true
  | .infinite _ | .nan => false

/-- The C operator `==`: zeros of both signs are equal and a nan equals nothing. -/
def Double.eq : Double → Double → Bool
  | .finite x, .finite y => (x.isZero && y.isZero) || x == y
  | .infinite s, .infinite t => s == t
  | _, _ => false

/-- Same number, with a positive sign when it is zero. -/
def Double.unsignedZero : Double → Double
  | .finite x => .finite (if x.isZero then zero false else x)
  | d => d

/-- `fabs(d) < bound` for an integer bound. -/
def Double.absLt (d : Double) (bound : Nat) : Bool :=
  match d with
  | .finite x => decide (x.whole < bound)
  | .infinite _ | .nan => false

/-- Conversion to a signed integer of the given width. Outside its range C leaves
the result undefined; here it is what x86-64 computes, the least integer. -/
def Double.toSigned (width : Nat) : Double → Int
  | .finite x =>
    if -(2 ^ (width - 1) : Int) ≤ x.trunc ∧ x.trunc < 2 ^ (width - 1) then x.trunc
    else -(2 ^ (width - 1))
  | .infinite _ | .nan => -(2 ^ (width - 1))

/-- Conversion to `uint64_t`. Outside its range C leaves the result undefined; here
it is what x86-64 computes from its signed conversion. -/
def Double.toUnsigned64 : Double → Nat
  | .finite x =>
    if 0 ≤ x.trunc then if x.trunc < 2 ^ 64 then x.trunc.toNat else 0
    else if -(2 ^ 63) ≤ x.trunc then (x.trunc + 2 ^ 64).toNat else 2 ^ 63
  | .infinite neg => if neg then 2 ^ 63 else 0
  | .nan => 2 ^ 63

/-- Truncation gives an integer from `low` to below `high`. -/
def Double.TruncatesIn (low high : Int) (d : Double) : Prop :=
  ∃ x, d = .finite x ∧ low ≤ x.trunc ∧ x.trunc < high

/-- Conversion to a signed integer, where C defines it. -/
def Double.toSigned? (width : Nat) : Double → Option Int
  | .finite x =>
    if -(2 ^ (width - 1) : Int) ≤ x.trunc ∧ x.trunc < 2 ^ (width - 1) then some x.trunc else none
  | .infinite _ | .nan => none

/-- Conversion to `uint64_t`, where C defines it. -/
def Double.toUnsigned64? : Double → Option Nat
  | .finite x => if 0 ≤ x.trunc ∧ x.trunc < 2 ^ 64 then some x.trunc.toNat else none
  | .infinite _ | .nan => none

/-- Quotient rounded to nearest, ties to even. -/
def divRound (n d : Nat) : Nat :=
  let q := n / d
  let r := n % d
  if 2 * r < d then q else if d < 2 * r then q + 1 else q + q % 2

/-- Exponent of the binade of the fraction `n / d`, zero for subnormals. -/
def binade (n d : Nat) : Nat := Nat.log2 (n / d) - 52

/-- A rounded significand of at most `2^53` with its exponent. -/
def pack (neg : Bool) (mant exp : Nat) : Double :=
  if h : mant < 2 ^ 53 ∧ exp ≤ 2045 ∧ (exp = 0 ∨ 2 ^ 52 ≤ mant) then
    .finite ⟨neg, mant, exp, h.1, h.2.1, h.2.2⟩
  else if h : mant = 2 ^ 53 ∧ exp + 1 ≤ 2045 then
    .finite ⟨neg, 2 ^ 52, exp + 1, by decide, h.2, Or.inr (Nat.le_refl _)⟩
  else .infinite neg

/-- The double nearest to `n / d` units. -/
def round (neg : Bool) (n d : Nat) : Double :=
  pack neg (divRound n (d * 2 ^ binade n d)) (binade n d)

/-- The double nearest to an integer. -/
def ofInt (z : Int) : Double := round (decide (z < 0)) (z.natAbs * unitsPerOne) 1

theorem divRound_eq {n d m : Nat} (upper : 2 * n < (2 * m + 1) * d)
    (lower : 2 * m * d < 2 * n + d) : divRound n d = m := by
  have positive : 0 < d := by
    rcases Nat.eq_zero_or_pos d with rfl | h
    · simp at upper
    · exact h
  have split := Nat.div_add_mod n d
  have small := Nat.mod_lt n positive
  have above : n / d < m + 1 := by
    rw [Nat.div_lt_iff_lt_mul positive]
    nlinarith
  rcases Nat.lt_or_ge (n / d) m with less | same
  · have next : n / d + 1 = m := by
      have : m < n / d + 2 := by
        by_contra far
        have : n / d + 2 ≤ m := by omega
        have : d * (n / d + 2) ≤ d * m := Nat.mul_le_mul_left _ this
        nlinarith
      omega
    have scaled : d * m = d * (n / d) + d := by rw [← next]; ring
    have half : d < 2 * (n % d) := by nlinarith
    simp only [divRound]
    rw [if_neg (by omega), if_pos half, next]
  · have equal : n / d = m := by omega
    rw [equal] at split
    have half : 2 * (n % d) < d := by nlinarith
    simp only [divRound]
    rw [if_pos half, equal]

theorem binade_eq {n d e : Nat} (low : e = 0 ∨ 2 ^ (52 + e) ≤ n / d)
    (high : n / d < 2 ^ (53 + e)) : binade n d = e := by
  unfold binade
  rcases Nat.eq_zero_or_pos (n / d) with none | some
  · rw [none] at low ⊢
    rcases low with rfl | low
    · simp
    · exact absurd low (by simp)
  · have ne : n / d ≠ 0 := by omega
    have upper : Nat.log2 (n / d) < 53 + e := (Nat.log2_lt ne).mpr high
    rcases low with rfl | low
    · omega
    · have lower : 52 + e ≤ Nat.log2 (n / d) := (Nat.le_log2 ne).mpr low
      omega

/-- Below the least significand of a binade the next double is only half as
far away, so the fraction has to be twice as close there. -/
def Near (x : Finite) (n d : Nat) : Prop :=
  2 * n < (2 * x.mant + 1) * (d * 2 ^ x.exp) ∧
    if x.mant = 2 ^ 52 ∧ 0 < x.exp then 4 * x.mant * (d * 2 ^ x.exp) < 4 * n + d * 2 ^ x.exp
    else 2 * x.mant * (d * 2 ^ x.exp) < 2 * n + d * 2 ^ x.exp

theorem Near.positive {x : Finite} (near : Near x n d) : 0 < d := by
  rcases Nat.eq_zero_or_pos d with rfl | h
  · simp [Near] at near
  · exact h

/-- The fraction lies in the binade of the value and rounds to its significand. -/
theorem round_same {x : Finite} {n d : Nat} (near : Near x n d)
    (low : x.exp = 0 ∨ 2 ^ 52 * (d * 2 ^ x.exp) ≤ n) : round x.neg n d = .finite x := by
  have positive := near.positive
  obtain ⟨upper, lower⟩ := near
  have lower : 2 * x.mant * (d * 2 ^ x.exp) < 2 * n + d * 2 ^ x.exp := by
    split at lower
    · have : 0 < d * 2 ^ x.exp := by positivity
      nlinarith
    · exact lower
  have bin : binade n d = x.exp := by
    apply binade_eq
    · refine low.imp_right fun h => ?_
      rw [Nat.le_div_iff_mul_le positive, Nat.pow_add]
      linarith [h, mul_comm (2 ^ 52 * 2 ^ x.exp) d]
    · rw [Nat.div_lt_iff_lt_mul positive, Nat.pow_add]
      have bound : 2 * x.mant + 1 ≤ 2 * 2 ^ 53 := by have := x.mant_lt; omega
      have := Nat.mul_le_mul_right (d * 2 ^ x.exp) bound
      nlinarith
  have sig := divRound_eq upper lower
  have canonical : x.mant < 2 ^ 53 ∧ x.exp ≤ 2045 ∧ (x.exp = 0 ∨ 2 ^ 52 ≤ x.mant) :=
    ⟨x.mant_lt, x.exp_le, x.normal⟩
  rw [round, bin, sig, pack, dif_pos canonical]

/-- The fraction lies just under a power of two and its significand carries. -/
theorem round_carry {x : Finite} {n d : Nat} (near : Near x n d) (normal : 0 < x.exp)
    (low : n < 2 ^ 52 * (d * 2 ^ x.exp)) : round x.neg n d = .finite x := by
  have positive := near.positive
  obtain ⟨-, lower⟩ := near
  have least : x.mant = 2 ^ 52 := by
    rcases Nat.lt_or_ge (2 ^ 52) x.mant with more | less
    · exfalso
      have bound : 2 * 2 ^ 52 + 2 ≤ 2 * x.mant := by omega
      have := Nat.mul_le_mul_right (d * 2 ^ x.exp) bound
      rw [if_neg (fun both => absurd both.1 (by omega))] at lower
      nlinarith
    · have := x.normal
      omega
  rw [if_pos ⟨least, normal⟩] at lower
  obtain ⟨e, he⟩ : ∃ e, x.exp = e + 1 := ⟨x.exp - 1, by omega⟩
  rw [he, pow_succ 2 e] at low lower
  rw [least] at lower
  have bin : binade n d = e := by
    apply binade_eq
    · right
      rw [Nat.le_div_iff_mul_le positive, Nat.pow_add]
      nlinarith
    · rw [Nat.div_lt_iff_lt_mul positive, Nat.pow_add]
      nlinarith
  have sig : divRound n (d * 2 ^ e) = 2 ^ 53 := by
    apply divRound_eq
    · nlinarith
    · nlinarith
  have fits : e + 1 ≤ 2045 := he ▸ x.exp_le
  rw [round, bin, sig, pack, dif_neg (by simp), dif_pos ⟨rfl, fits⟩]
  obtain ⟨neg, mant, exp, _, _, _⟩ := x
  simp only at he least
  subst he least
  rfl

/-- Every fraction near a finite value rounds to that value. -/
theorem round_near {x : Finite} {n d : Nat} (near : Near x n d) : round x.neg n d = .finite x := by
  rcases Nat.eq_zero_or_pos x.exp with subnormal | normal
  · exact round_same near (Or.inl subnormal)
  · rcases Nat.lt_or_ge n (2 ^ 52 * (d * 2 ^ x.exp)) with low | high
    · exact round_carry near normal low
    · exact round_same near (Or.inr high)

/-- A value that is exactly representable is not changed by rounding. -/
theorem round_exact (x : Finite) {n d : Nat} (positive : 0 < d) (exact : n = x.units * d) :
    round x.neg n d = .finite x := by
  apply round_near
  have grid : 0 < d * 2 ^ x.exp := by positivity
  have scaled : n = x.mant * (d * 2 ^ x.exp) := by rw [exact, Finite.units]; ring
  subst scaled
  constructor
  · nlinarith
  · split <;> nlinarith

/-! ### Overflow -/

/-- The quotient is at most half a unit away, and even when it is exactly that far below. -/
theorem divRound_spec {n d : Nat} (positive : 0 < d) :
    2 * divRound n d * d ≤ 2 * n + d ∧ 2 * n ≤ (2 * divRound n d + 1) * d ∧
      (2 * n = (2 * divRound n d + 1) * d → divRound n d % 2 = 0) := by
  have split := Nat.div_add_mod n d
  have small := Nat.mod_lt n positive
  unfold divRound
  dsimp only
  generalize n / d = q at *
  generalize n % d = r at *
  rw [← split]
  split_ifs with below above
  · refine ⟨by linarith, by linarith, fun tie => ?_⟩
    exact absurd tie (by linarith)
  · refine ⟨by linarith, by linarith, fun tie => ?_⟩
    exact absurd tie (by linarith)
  · have half : 2 * r = d := by omega
    rcases Nat.mod_two_eq_zero_or_one q with even | odd
    · rw [even]
      exact ⟨by linarith, by linarith, fun _ => even⟩
    · rw [odd]
      exact ⟨by linarith, by linarith, fun _ => by omega⟩

/-- An even quotient is reached half a unit below it. -/
theorem le_divRound_iff {n d m : Nat} (positive : 0 < d) (even : m % 2 = 0) :
    m ≤ divRound n d ↔ 2 * m * d ≤ 2 * n + d := by
  obtain ⟨lower, upper, tie⟩ := divRound_spec (n := n) positive
  constructor
  · intro reached
    have := Nat.mul_le_mul_right d (Nat.mul_le_mul_left 2 reached)
    omega
  · intro reached
    by_contra short
    have next : 2 * divRound n d + 2 ≤ 2 * m := by omega
    have scaled := Nat.mul_le_mul_right d next
    have equal : 2 * n = (2 * divRound n d + 1) * d := by linarith
    have odd := tie equal
    have room : 2 * divRound n d + 4 ≤ 2 * m := by omega
    have scaled := Nat.mul_le_mul_right d room
    linarith

theorem binade_high (n : Nat) {d : Nat} (positive : 0 < d) :
    n < 2 ^ 53 * (d * 2 ^ binade n d) := by
  have high : n / d < 2 ^ (53 + binade n d) := by
    unfold binade
    rcases Nat.eq_zero_or_pos (n / d) with none | some
    · rw [none]
      positivity
    · exact (Nat.log2_lt (by omega)).mp (by omega)
  rw [Nat.div_lt_iff_lt_mul positive, pow_add] at high
  linarith

theorem binade_low {n d : Nat} (positive : 0 < d) (normal : 0 < binade n d) :
    2 ^ 52 * (d * 2 ^ binade n d) ≤ n := by
  have low : 2 ^ (52 + binade n d) ≤ n / d := by
    unfold binade at normal ⊢
    have some : n / d ≠ 0 := by
      intro none
      simp [none] at normal
    exact (Nat.le_log2 some).mp (by omega)
  rw [Nat.le_div_iff_mul_le positive, pow_add] at low
  linarith

/-- The significand of a rounded fraction. -/
theorem significand_bounds (n : Nat) {d : Nat} (positive : 0 < d) :
    divRound n (d * 2 ^ binade n d) ≤ 2 ^ 53 ∧
      (binade n d = 0 ∨ 2 ^ 52 ≤ divRound n (d * 2 ^ binade n d)) := by
  have grid : 0 < d * 2 ^ binade n d := by positivity
  constructor
  · obtain ⟨lower, -⟩ := divRound_spec (n := n) grid
    have high := binade_high n positive
    by_contra beyond
    have : 2 * (2 ^ 53 + 1) ≤ 2 * divRound n (d * 2 ^ binade n d) := by omega
    have := Nat.mul_le_mul_right (d * 2 ^ binade n d) this
    linarith
  · rcases Nat.eq_zero_or_pos (binade n d) with subnormal | normal
    · exact Or.inl subnormal
    · have low := binade_low positive normal
      exact Or.inr ((le_divRound_iff grid (by decide)).mpr (by linarith))

theorem pack_isFinite {neg : Bool} {mant exp : Nat} (le : mant ≤ 2 ^ 53)
    (normal : exp = 0 ∨ 2 ^ 52 ≤ mant) :
    (pack neg mant exp).isFinite = true ↔ exp ≤ 2044 ∨ exp = 2045 ∧ mant < 2 ^ 53 := by
  unfold pack
  split
  · simp only [Double.isFinite, true_iff]
    omega
  · split
    · simp only [Double.isFinite, true_iff]
      omega
    · simp only [Double.isFinite, Bool.false_eq_true, false_iff]
      omega

/-- The least magnitude that overflows, half a unit above the greatest double. -/
def overflow : Nat := (2 ^ 54 - 1) * 2 ^ 2044

/-- A fraction is below the overflow of exponent `k` when its binade is, or when it is in
the last binade and does not carry out of it. -/
theorem below_overflow_iff {n d b k : Nat} (positive : 0 < d) (high : n < 2 ^ 53 * (d * 2 ^ b))
    (low : 0 < b → 2 ^ 52 * (d * 2 ^ b) ≤ n) :
    b ≤ k ∨ b = k + 1 ∧ 2 * n + d * 2 ^ b < 2 * 2 ^ 53 * (d * 2 ^ b) ↔
      n < (2 ^ 54 - 1) * (d * 2 ^ k) := by
  have scale : 0 < d * 2 ^ k := by positivity
  rcases Nat.lt_trichotomy b (k + 1) with below | rfl | above
  · have fits := Nat.pow_le_pow_right Nat.two_pos (Nat.le_of_lt_succ below)
    have := Nat.mul_le_mul_left d fits
    generalize d * 2 ^ k = u at *
    generalize d * 2 ^ b = v at *
    omega
  · have double : d * 2 ^ (k + 1) = 2 * (d * 2 ^ k) := by rw [pow_succ]; ring
    rw [double] at high ⊢
    generalize d * 2 ^ k = u at *
    omega
  · have fits := Nat.pow_le_pow_right Nat.two_pos above
    have := Nat.mul_le_mul_left d fits
    have := low (by omega)
    have double : d * 2 ^ (k + 1).succ = 4 * (d * 2 ^ k) := by rw [pow_succ, pow_succ]; ring
    generalize d * 2 ^ k = u at *
    generalize d * 2 ^ b = v at *
    omega

theorem round_isFinite {neg : Bool} {n d : Nat} (positive : 0 < d) :
    (round neg n d).isFinite = true ↔ n < overflow * d := by
  obtain ⟨le, normal⟩ := significand_bounds n positive
  have grid : 0 < d * 2 ^ binade n d := by positivity
  have reaches := le_divRound_iff (n := n) (m := 2 ^ 53) grid (by decide)
  have last := below_overflow_iff (k := 2044) positive (binade_high n positive)
    (binade_low positive)
  have unit : overflow * d = (2 ^ 54 - 1) * (d * 2 ^ 2044) := by
    rw [overflow, Nat.mul_assoc, Nat.mul_comm _ d]
  rw [round, pack_isFinite le normal, unit, ← last, ← not_le, reaches, not_le]

/-! ### Integers -/

def Finite.IsInteger (x : Finite) : Prop := x.units = x.whole * unitsPerOne

def Double.IsInteger (d : Double) : Prop := ∃ x, d = .finite x ∧ x.IsInteger

/-- A finite integer from `low` to `high`. -/
def Double.IsIntegerIn (d : Double) (low high : Int) : Prop :=
  ∃ x, d = .finite x ∧ x.IsInteger ∧ low ≤ x.trunc ∧ x.trunc ≤ high

theorem ofInt_zero : ofInt 0 = .finite (zero false) := by
  have exact := round_exact (zero false) (n := 0) Nat.one_pos (by simp [Finite.units, zero])
  rw [ofInt, Int.natAbs_zero, Nat.zero_mul]
  exact exact

theorem whole_of_isZero {x : Finite} (isZero : x.isZero = true) : x.whole = 0 := by
  have mant : x.mant = 0 := by simpa [Finite.isZero] using isZero
  simp [Finite.whole, mant]

theorem trunc_of_isZero {x : Finite} (isZero : x.isZero = true) : x.trunc = 0 := by
  simp [Finite.trunc, whole_of_isZero isZero]

/-- An integer converted to an integer type and back is unchanged. -/
theorem ofInt_trunc {x : Finite} (integer : x.IsInteger) :
    ofInt x.trunc = (Double.finite x).unsignedZero := by
  by_cases isZero : x.isZero = true
  · rw [trunc_of_isZero isZero, ofInt_zero, Double.unsignedZero, if_pos isZero]
  · have mant : 0 < x.mant := by
      simp only [Finite.isZero, beq_iff_eq] at isZero
      omega
    have units : 0 < x.units := Nat.mul_pos mant (by positivity)
    have whole : 0 < x.whole := by
      rw [Finite.IsInteger] at integer
      rcases Nat.eq_zero_or_pos x.whole with none | some
      · rw [none, Nat.zero_mul] at integer
        omega
      · exact some
    have magnitude : x.trunc.natAbs = x.whole := by
      rw [Finite.trunc]
      split <;> omega
    have sign : decide (x.trunc < 0) = x.neg := by
      rw [Finite.trunc]
      cases x.neg <;> simp [whole]
    rw [ofInt, magnitude, sign, ← integer, Double.unsignedZero, if_neg isZero]
    exact round_exact x Nat.one_pos (Nat.mul_one _).symm

/-- Integers below `2^53` in magnitude are doubles. -/
theorem exists_ofInt {z : Int} (small : z.natAbs < 2 ^ 53) :
    ∃ x, ofInt z = .finite x ∧ x.IsInteger ∧ x.trunc = z := by
  rcases Nat.eq_zero_or_pos z.natAbs with none | positive
  · obtain rfl := Int.natAbs_eq_zero.mp none
    have integer : (zero false).IsInteger := by
      rw [Finite.IsInteger, whole_of_isZero rfl, Nat.zero_mul]
      rfl
    exact ⟨zero false, ofInt_zero, integer, trunc_of_isZero rfl⟩
  obtain ⟨n, magnitude⟩ : ∃ n, z.natAbs = n := ⟨_, rfl⟩
  rw [magnitude] at small positive
  have nonzero : n ≠ 0 := by omega
  obtain ⟨k, log⟩ : ∃ k, Nat.log2 n = k := ⟨_, rfl⟩
  have below : n < 2 ^ (k + 1) := (Nat.log2_lt nonzero).mp (by omega)
  have above : 2 ^ k ≤ n := (Nat.le_log2 nonzero).mp (by omega)
  have bound : k ≤ 52 := by
    have : k < 53 := log ▸ (Nat.log2_lt nonzero).mpr small
    omega
  have shifted : 2 ^ (k + 1) * 2 ^ (52 - k) = 2 ^ 53 := by
    rw [← pow_add]
    congr 1
    omega
  have least : 2 ^ k * 2 ^ (52 - k) = 2 ^ 52 := by
    rw [← pow_add]
    congr 1
    omega
  have scale : 0 < 2 ^ (52 - k) := by positivity
  have high : n * 2 ^ (52 - k) < 2 ^ 53 := by
    rw [← shifted]
    exact Nat.mul_lt_mul_of_pos_right below scale
  have low : 2 ^ 52 ≤ n * 2 ^ (52 - k) := by
    rw [← least]
    exact Nat.mul_le_mul_right _ above
  let x : Finite := ⟨decide (z < 0), n * 2 ^ (52 - k), 1022 + k, high, by omega, Or.inr low⟩
  have units : x.units = n * unitsPerOne := by
    have whole : 2 ^ (52 - k) * 2 ^ (1022 + k) = unitsPerOne := by
      rw [← pow_add, unitsPerOne]
      congr 1
      omega
    rw [← whole, ← Nat.mul_assoc]
    rfl
  have whole : x.whole = n := by
    simp only [Finite.whole, x]
    split
    · have top : k = 52 := by omega
      subst top
      simp
    · have exponent : 1074 - (1022 + k) = 52 - k := by omega
      rw [exponent]
      exact Nat.mul_div_cancel _ scale
  have trunc : x.trunc = z := by
    simp only [Finite.trunc, whole, x, decide_eq_true_eq]
    split <;> omega
  have integer : x.IsInteger := by rw [Finite.IsInteger, units, whole]
  refine ⟨x, ?_, integer, trunc⟩
  have isZero : ¬ x.isZero = true := by
    simp only [Finite.isZero, beq_iff_eq, x]
    omega
  rw [← trunc, ofInt_trunc integer, Double.unsignedZero, if_neg isZero]

/-- An integer is still the same integer after a conversion and back. -/
theorem exists_ofInt_trunc {x : Finite} (integer : x.IsInteger) :
    ∃ y, ofInt x.trunc = .finite y ∧ y.IsInteger ∧ y.trunc = x.trunc := by
  by_cases isZero : x.isZero = true
  · rw [trunc_of_isZero isZero]
    exact exists_ofInt (by decide)
  · refine ⟨x, ?_, integer, rfl⟩
    rw [ofInt_trunc integer, Double.unsignedZero, if_neg isZero]

theorem toSigned?_eq_some {width : Nat} {d : Double} {z : Int} : d.toSigned? width = some z ↔
    d.TruncatesIn (-(2 ^ (width - 1))) (2 ^ (width - 1)) ∧ z = d.toSigned width := by
  cases d with
  | finite x =>
    simp only [Double.toSigned?, Double.toSigned, Double.TruncatesIn, Double.finite.injEq,
      exists_eq_left']
    split
    · rename_i range
      rw [Option.some.injEq, eq_comm]
      exact (and_iff_right range).symm
    · rename_i range
      exact iff_of_false (by simp) fun fits => range fits.1
  | infinite neg => simp [Double.toSigned?, Double.TruncatesIn]
  | nan => simp [Double.toSigned?, Double.TruncatesIn]

theorem toUnsigned64?_eq_some {d : Double} {n : Nat} :
    d.toUnsigned64? = some n ↔ d.TruncatesIn 0 (2 ^ 64) ∧ n = d.toUnsigned64 := by
  cases d with
  | finite x =>
    simp only [Double.toUnsigned64?, Double.toUnsigned64, Double.TruncatesIn, Double.finite.injEq,
      exists_eq_left']
    split
    · rename_i range
      rw [Option.some.injEq, if_pos range.1, if_pos range.2, eq_comm]
      exact (and_iff_right range).symm
    · rename_i range
      exact iff_of_false (by simp) fun fits => range fits.1
  | infinite neg => simp [Double.toUnsigned64?, Double.TruncatesIn]
  | nan => simp [Double.toUnsigned64?, Double.TruncatesIn]

/-- Small integers are in every range that holds them. -/
theorem truncatesIn_ofInt {z low high : Int} (small : z.natAbs < 2 ^ 53) :
    (ofInt z).TruncatesIn low high ↔ low ≤ z ∧ z < high := by
  obtain ⟨x, value, -, trunc⟩ := exists_ofInt small
  rw [value, Double.TruncatesIn]
  simp [trunc]

/-- A magnitude that a significand does not reach is an integer. -/
theorem isInteger_of_large {x : Finite} (large : 2 ^ 53 ≤ x.whole) : x.IsInteger := by
  have shifted : 1074 ≤ x.exp := by
    by_contra low
    rw [Finite.whole, if_neg low] at large
    have below := Nat.div_le_self x.mant (2 ^ (1074 - x.exp))
    have significand := x.mant_lt
    omega
  rw [Finite.IsInteger, Finite.whole, if_pos shifted, Finite.units, unitsPerOne, Nat.mul_assoc,
    ← pow_add, Nat.sub_add_cancel shifted]

/-- What a double truncates to is a double again. -/
theorem truncatesIn_ofInt_trunc (x : Finite) {low high : Int} :
    (ofInt x.trunc).TruncatesIn low high ↔ low ≤ x.trunc ∧ x.trunc < high := by
  by_cases small : x.trunc.natAbs < 2 ^ 53
  · exact truncatesIn_ofInt small
  · have whole : x.trunc.natAbs = x.whole := by
      rw [Finite.trunc]
      split <;> omega
    obtain ⟨y, value, -, trunc⟩ := exists_ofInt_trunc (isInteger_of_large (x := x) (by omega))
    rw [value, Double.TruncatesIn]
    simp [trunc]

theorem eq_comm_of_finite {x y : Finite} :
    (Double.finite x).eq (.finite y) = (Double.finite y).eq (.finite x) := by
  simp only [Double.eq, Bool.and_comm x.isZero, Bool.beq_comm (a := x)]

theorem unsignedZero_eq {d : Double} (finite : d.isFinite = true) : d.unsignedZero.eq d = true := by
  cases d with
  | infinite neg => contradiction
  | nan => contradiction
  | finite x =>
    by_cases isZero : x.isZero = true
    · have positive : (zero false).isZero = true := rfl
      simp [Double.unsignedZero, Double.eq, isZero, positive]
    · simp [Double.unsignedZero, Double.eq, isZero]

/-- The double of a small integer, as the codec returns it. -/
theorem unsignedZero_ofInt {z low high : Int} (small : z.natAbs < 2 ^ 53) (above : low ≤ z)
    (below : z ≤ high) : (ofInt z).unsignedZero.IsIntegerIn low high := by
  obtain ⟨x, value, integer, trunc⟩ := exists_ofInt small
  have same : (ofInt z).unsignedZero = ofInt z := by
    rw [value, ← ofInt_trunc integer, trunc, value]
  rw [same]
  exact ⟨x, value, integer, trunc ▸ above, trunc ▸ below⟩

/-- The round trip through `uint64_t`. -/
theorem ofInt_toUnsigned64 {d : Double} (integer : d.IsIntegerIn 0 (2 ^ 53)) :
    ofInt (d.toUnsigned64 : Int) = d.unsignedZero := by
  obtain ⟨x, rfl, exact, low, high⟩ := integer
  have value : (Double.finite x).toUnsigned64 = x.trunc.toNat := by
    simp only [Double.toUnsigned64]
    rw [if_pos low, if_pos (by omega)]
  rw [value, Int.toNat_of_nonneg low, ofInt_trunc exact]

/-- Comparing an integer after its conversion to `int` is comparing it. -/
theorem toSigned32_eq_iff {x : Finite} (integer : x.IsInteger) {z : Int} (low : -2 ^ 31 < z)
    (high : z < 2 ^ 31) : (Double.finite x).toSigned 32 = z ↔ (Double.finite x).eq (ofInt z) = true := by
  obtain ⟨y, value, -, truncY⟩ := exists_ofInt (z := z) (by omega)
  have converts : (Double.finite x).toSigned 32 = z ↔ x.trunc = z := by
    simp only [Double.toSigned]
    split <;> omega
  rw [converts, value]
  constructor
  · intro same
    rw [← same, ofInt_trunc integer] at value
    rw [eq_comm_of_finite, ← value]
    exact unsignedZero_eq rfl
  · intro equal
    simp only [Double.eq, Bool.or_eq_true, Bool.and_eq_true, beq_iff_eq] at equal
    rcases equal with ⟨zeroX, zeroY⟩ | rfl
    · rw [trunc_of_isZero zeroX, ← truncY, trunc_of_isZero zeroY]
    · exact truncY

theorem pack_ne_zero {neg sign : Bool} {mant exp : Nat} (positive : 0 < mant) :
    pack neg mant exp ≠ .finite (zero sign) := by
  unfold pack
  split
  · intro same
    have : mant = 0 := congrArg Finite.mant (Double.finite.inj same)
    omega
  · split
    · intro same
      have : 2 ^ 52 = 0 := congrArg Finite.mant (Double.finite.inj same)
      contradiction
    · nofun

/-- Only zero is converted to zero. -/
theorem ofInt_eq_zero_iff {z : Int} : ofInt z = ofInt 0 ↔ z = 0 := by
  refine ⟨fun same => ?_, fun none => none ▸ rfl⟩
  rw [ofInt_zero] at same
  by_cases small : z.natAbs < 2 ^ 53
  · obtain ⟨x, value, -, trunc⟩ := exists_ofInt small
    rw [value] at same
    rw [← trunc, Double.finite.inj same]
    exact trunc_of_isZero rfl
  · exfalso
    obtain ⟨-, normal⟩ := significand_bounds (z.natAbs * unitsPerOne) Nat.one_pos
    have large : 2 ^ 53 ≤ z.natAbs * unitsPerOne :=
      le_trans (Nat.le_of_not_lt small) (Nat.le_mul_of_pos_right _ unitsPerOne_pos)
    have significant : 2 ^ 52 ≤ divRound (z.natAbs * unitsPerOne)
        (1 * 2 ^ binade (z.natAbs * unitsPerOne) 1) := by
      refine normal.resolve_left fun subnormal => ?_
      have high := binade_high (z.natAbs * unitsPerOne) Nat.one_pos
      rw [subnormal] at high
      omega
    exact pack_ne_zero (by omega) same

/-! ### The number itself -/

def Finite.value (x : Finite) : ℚ := (if x.neg then -1 else 1) * ((x.units : ℚ) / unitsPerOne)

theorem whole_eq_div (x : Finite) : x.whole = x.units / unitsPerOne := by
  rw [Finite.whole, Finite.units, unitsPerOne]
  split
  · rename_i shifted
    rw [← pow_sub_mul_pow 2 shifted, ← Nat.mul_assoc, Nat.mul_div_cancel _ (Nat.two_pow_pos _)]
  · rename_i fraction
    rw [← pow_sub_mul_pow 2 (Nat.le_of_not_le fraction), Nat.mul_div_mul_right _ _ (Nat.two_pow_pos _)]

/-- A positive integer is reached by truncation exactly when it is by the number. -/
theorem le_trunc_iff {x : Finite} {k : Nat} (positive : 0 < k) :
    (k : Int) ≤ x.trunc ↔ (k : ℚ) ≤ x.value := by
  have one : (0 : ℚ) < unitsPerOne := by exact_mod_cast unitsPerOne_pos
  have above : (0 : ℚ) < k := by exact_mod_cast positive
  cases sign : x.neg with
  | true =>
    have nonneg : (0 : ℚ) ≤ (x.units : ℚ) / unitsPerOne := div_nonneg (Nat.cast_nonneg _) one.le
    have below : x.trunc ≤ 0 := by simp [Finite.trunc, sign]
    refine iff_of_false (by omega) ?_
    rw [Finite.value, sign]
    simp only [if_true, neg_one_mul]
    linarith
  | false =>
    rw [Finite.trunc, Finite.value, sign]
    simp only [Bool.false_eq_true, if_false, one_mul]
    rw [le_div_iff₀ one, whole_eq_div, Int.ofNat_le, Nat.le_div_iff_mul_le unitsPerOne_pos]
    exact_mod_cast Iff.rfl

end Binary64
