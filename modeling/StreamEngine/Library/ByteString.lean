import Mathlib.Data.List.Infix
import Mathlib.Data.List.Lex

/-! Byte strings with the operations of a C++ `std::string` that text protocols
rely on: literals, character classes and left-to-right substring search. A
search result is characterized by the occurrence it names and by the absence of
an earlier one, so that callers reason about offsets and never about the loop. -/
namespace ByteString

/-- Bytes compare as unsigned numbers, so byte strings compare as by `memcmp`. -/
instance instLinearOrderByte : LinearOrder UInt8 where
  le_refl := UInt8.le_refl
  le_trans _ _ _ := UInt8.le_trans
  le_antisymm _ _ := UInt8.le_antisymm
  le_total := UInt8.le_total
  lt_iff_le_not_ge a b := by
    rw [UInt8.lt_iff_toNat_lt, UInt8.le_iff_toNat_le, UInt8.le_iff_toNat_le]
    omega
  toDecidableLE := inferInstance
  toDecidableLT := inferInstance
  toDecidableEq := inferInstance

abbrev Bytes := List UInt8

/-- A quantifier over the bytes of a text runs through the text. -/
instance instDecidableForallMem {p : UInt8 → Prop} [DecidablePred p] (s : Bytes) :
    Decidable (∀ c ∈ s, p c) := List.decidableBAll p s

/-- The bytes of a character literal. -/
def ascii (text : String) : Bytes := text.toList.map fun c => c.toNat.toUInt8

/-- `std::isspace` in the C locale. -/
def isSpace (c : UInt8) : Bool := c == 32 || (9 ≤ c && c ≤ 13)

/-- `std::isdigit`. -/
def isDigit (c : UInt8) : Bool := 48 ≤ c && c ≤ 57

/-- `std::tolower` in the C locale. -/
def toLower (c : UInt8) : UInt8 := if 65 ≤ c && c ≤ 90 then c + 32 else c

/-- Value of a hexadecimal digit. -/
def hexVal (c : UInt8) : Option Nat :=
  if 48 ≤ c ∧ c ≤ 57 then some (c.toNat - 48)
  else if 97 ≤ c ∧ c ≤ 102 then some (c.toNat - 97 + 10)
  else if 65 ≤ c ∧ c ≤ 70 then some (c.toNat - 65 + 10)
  else none

/-- Lower-case hexadecimal digit of a number below sixteen. -/
def hexDigit (n : Nat) : UInt8 := if n < 10 then (48 + n).toUInt8 else (87 + n).toUInt8

/-- The sixteen digits of a 64-bit number, most significant first. -/
def hex64 (n : BitVec 64) : Bytes :=
  (List.range 16).map fun i => hexDigit ((n.toNat >>> (60 - 4 * i)) % 16)

/-- `std::string::substr`; the position is at most the length at every use. -/
def substr (s : Bytes) (pos len : Nat) : Bytes := (s.drop pos).take len

/-- Offset of the first occurrence of `needle`. -/
def search (needle : Bytes) : Bytes → Option Nat
  | [] => if needle.isEmpty then some 0 else none
  | c :: s => if needle.isPrefixOf (c :: s) then some 0 else (search needle s).map (· + 1)

/-- `std::string::find`: first occurrence at or after `pos`, `none` for `npos`. -/
def find (s needle : Bytes) (pos : Nat) : Option Nat :=
  if pos ≤ s.length then (search needle (s.drop pos)).map (pos + ·) else none

theorem search_eq_some {needle s : Bytes} {i : Nat} :
    search needle s = some i ↔
      i ≤ s.length ∧ needle <+: s.drop i ∧ ∀ j < i, ¬ needle <+: s.drop j := by
  induction s generalizing i with
  | nil =>
    cases needle <;> cases i <;> simp [search]
  | cons c s ih =>
    by_cases here : needle <+: c :: s
    · have hb : needle.isPrefixOf (c :: s) = true := List.isPrefixOf_iff_prefix.mpr here
      simp only [search, hb, if_true, Option.some.injEq]
      constructor
      · rintro rfl
        exact ⟨Nat.zero_le _, by simpa using here, fun j hj => absurd hj (Nat.not_lt_zero j)⟩
      · rintro ⟨-, -, first⟩
        by_contra hi
        exact first 0 (by omega) (by simpa using here)
    · have hb : needle.isPrefixOf (c :: s) = false := by
        simpa [← List.isPrefixOf_iff_prefix] using here
      simp only [search, hb, Option.map_eq_some_iff, Bool.false_eq_true, if_false]
      constructor
      · rintro ⟨k, found, rfl⟩
        obtain ⟨bound, occurs, first⟩ := ih.mp found
        refine ⟨by simpa using bound, by simpa using occurs, fun j hj => ?_⟩
        cases j with
        | zero => simpa using here
        | succ j => simpa using first j (by omega)
      · rintro ⟨bound, occurs, first⟩
        cases i with
        | zero => exact absurd (by simpa using occurs) here
        | succ i =>
          refine ⟨i, ih.mpr ⟨by simpa using bound, by simpa using occurs, fun j hj => ?_⟩, rfl⟩
          simpa using first (j + 1) (by omega)

theorem find_eq_some {s needle : Bytes} {pos i : Nat} :
    find s needle pos = some i ↔
      pos ≤ i ∧ i ≤ s.length ∧ needle <+: s.drop i ∧
        ∀ j, pos ≤ j → j < i → ¬ needle <+: s.drop j := by
  unfold find
  split
  · rename_i inside
    simp only [Option.map_eq_some_iff, search_eq_some, List.length_drop, List.drop_drop]
    constructor
    · rintro ⟨k, ⟨bound, occurs, first⟩, rfl⟩
      refine ⟨by omega, by omega, occurs, fun j low high => ?_⟩
      have := first (j - pos) (by omega)
      rwa [show pos + (j - pos) = j by omega] at this
    · rintro ⟨low, bound, occurs, first⟩
      refine ⟨i - pos, ⟨by omega, ?_, fun j hj => first (pos + j) (by omega) (by omega)⟩, by omega⟩
      rwa [show pos + (i - pos) = i by omega]
  · rename_i outside
    simp only [reduceCtorEq, false_iff]
    rintro ⟨low, bound, -⟩
    omega

/-- An occurrence lies inside the text. -/
theorem find_bound {s needle : Bytes} {pos i : Nat} (found : find s needle pos = some i) :
    pos ≤ i ∧ i + needle.length ≤ s.length := by
  obtain ⟨low, bound, occurs, -⟩ := find_eq_some.mp found
  have := occurs.length_le
  rw [List.length_drop] at this
  exact ⟨low, by omega⟩

end ByteString
