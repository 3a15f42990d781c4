import StreamEngine.Library.Digits
import StreamEngine.Net.AppList

/-! What an app reference stands for: an appid written in digits, or the first app of a title. The
resolver reads the digits with `atoi`, which keeps the low 32 bits of a number that is too large. -/
namespace StreamEngine.Net
open ByteString Decimal

/-- Equal, or the two cases of one ASCII letter. -/
def SameLetter (c d : UInt8) : Prop :=
  c = d ∨ (65 ≤ c ∧ c ≤ 90 ∧ d = c + 32) ∨ (65 ≤ d ∧ d ≤ 90 ∧ c = d + 32)

/-- Equal up to the case of ASCII letters. -/
def SameTitle (a b : Bytes) : Prop := List.Forall₂ SameLetter a b

/-- The first app of the list that is titled `ref`. -/
def FirstTitled (apps : List AppInfo) (ref : Bytes) (a : AppInfo) : Prop :=
  ∃ before after, apps = before ++ a :: after ∧ SameTitle a.title ref ∧
    ∀ b ∈ before, ¬ SameTitle b.title ref

/-- An appid written in digits that an `int` can hold. -/
def IsAppId (ref : Bytes) (n : Nat) : Prop :=
  ref ≠ [] ∧ (∀ c ∈ ref, isDigit c = true) ∧ digitsValue ref = n ∧ 0 < n ∧ n < 2 ^ 31

/-- The appid that a reference stands for, zero for none. -/
inductive Resolves (apps : List AppInfo) (ref : Bytes) : Int → Prop where
  | number {n : Nat} (given : IsAppId ref n) : Resolves apps ref n
  | title {a : AppInfo} (text : ∀ n, ¬ IsAppId ref n) (first : FirstTitled apps ref a) :
      Resolves apps ref a.id
  | missing (text : ∀ n, ¬ IsAppId ref n) (unknown : ∀ a, ¬ FirstTitled apps ref a) :
      Resolves apps ref 0

theorem toLower_eq_iff {c d : UInt8} : toLower c = toLower d ↔ SameLetter c d := by
  unfold toLower SameLetter
  simp only [Bool.and_eq_true, decide_eq_true_eq, UInt8.le_iff_toNat_le, ← UInt8.toNat_inj]
  have boundC := c.toNat_lt
  have boundD := d.toNat_lt
  split <;> split <;> simp only [UInt8.toNat_add, UInt8.reduceToNat] at * <;> omega

theorem iequals_iff {a b : Bytes} : iequals a b = true ↔ SameTitle a b := by
  rw [iequals, beq_iff_eq, SameTitle, ← List.forall₂_eq_eq_eq, List.forall₂_map_left_iff,
    List.forall₂_map_right_iff]
  simp only [toLower_eq_iff]

theorem find?_titled_iff {apps : List AppInfo} {ref : Bytes} {a : AppInfo} :
    apps.find? (fun a => iequals a.title ref) = some a ↔ FirstTitled apps ref a := by
  rw [List.find?_eq_some_iff_append]
  constructor
  · rintro ⟨titled, before, after, split, earlier⟩
    refine ⟨before, after, split, iequals_iff.mp titled, fun b member same => ?_⟩
    have other := earlier b member
    rw [iequals_iff.mpr same] at other
    contradiction
  · rintro ⟨before, after, split, titled, earlier⟩
    refine ⟨iequals_iff.mpr titled, before, after, split, fun b member => ?_⟩
    have other : iequals b.title ref = false :=
      Bool.eq_false_iff.mpr fun same => earlier b member (iequals_iff.mp same)
    rw [other]
    rfl

theorem FirstTitled.matchTitle {apps : List AppInfo} {ref : Bytes} {a : AppInfo}
    (first : FirstTitled apps ref a) : matchTitle apps ref = a.id := by
  rw [Net.matchTitle, find?_titled_iff.mpr first]

theorem matchTitle_unknown {apps : List AppInfo} {ref : Bytes}
    (unknown : ∀ a, ¬ FirstTitled apps ref a) : matchTitle apps ref = 0 := by
  cases found : apps.find? fun a => iequals a.title ref with
  | none => rw [matchTitle, found]
  | some a => exact absurd (find?_titled_iff.mp found) (unknown a)

/-- A reference that is no appid resolves to what the title search finds. -/
theorem resolves_iff_of_text {apps : List AppInfo} {ref : Bytes} (text : ∀ n, ¬ IsAppId ref n)
    (id : Int) : Resolves apps ref id ↔ id = matchTitle apps ref := by
  constructor
  · intro resolves
    cases resolves with
    | number given => exact absurd given (text _)
    | title _ first => exact first.matchTitle.symm
    | missing _ unknown => exact (matchTitle_unknown unknown).symm
  · rintro rfl
    by_cases known : ∃ a, FirstTitled apps ref a
    · obtain ⟨a, first⟩ := known
      rw [first.matchTitle]
      exact .title text first
    · have unknown := not_exists.mp known
      rw [matchTitle_unknown unknown]
      exact .missing text unknown

theorem resolves_iff_of_number {apps : List AppInfo} {ref : Bytes} {n : Nat} (given : IsAppId ref n)
    (id : Int) : Resolves apps ref id ↔ id = n := by
  constructor
  · intro resolves
    cases resolves with
    | number other => rw [← given.2.2.1, ← other.2.2.1]
    | title text _ => exact absurd given (text n)
    | missing text _ => exact absurd given (text n)
  · rintro rfl
    exact .number given

theorem allDigits_iff {ref : Bytes} :
    allDigits ref = true ↔ ref ≠ [] ∧ ∀ c ∈ ref, isDigit c = true := by
  simp [allDigits]

/-- The digits spell a number that a `long` holds and an `int` does not, and its low 32 bits are a
positive `int`. -/
def Wraps (ref : Bytes) : Prop :=
  allDigits ref = true ∧ 2 ^ 31 ≤ digitsValue ref ∧ digitsValue ref < 2 ^ 63 ∧
    0 < digitsValue ref % 2 ^ 32 ∧ digitsValue ref % 2 ^ 32 < 2 ^ 31

theorem resolveAppId_of_wraps (apps : List AppInfo) {ref : Bytes} (wraps : Wraps ref) :
    resolveAppId apps ref = (digitsValue ref % 2 ^ 32 : Nat) := by
  obtain ⟨digits, large, long, positive, small⟩ := wraps
  have value : atoi ref = (digitsValue ref % 2 ^ 32 : Nat) := by
    rw [atoi, strtol_digits (allDigits_iff.mp digits).2, toInt32]
    omega
  rw [resolveAppId, if_pos ⟨digits, by omega⟩, value]

/-- Without the wrap-around the resolver does what it says. -/
theorem resolves_of_not_wraps (apps : List AppInfo) {ref : Bytes} (kept : ¬ Wraps ref) :
    Resolves apps ref (resolveAppId apps ref) := by
  by_cases digits : allDigits ref = true
  · have value : atoi ref = toInt32 (min (2 ^ 63 - 1) (digitsValue ref : Int)) := by
      rw [atoi, strtol_digits (allDigits_iff.mp digits).2]
    by_cases given : 0 < digitsValue ref ∧ digitsValue ref < 2 ^ 31
    · have number : IsAppId ref (digitsValue ref) :=
        ⟨(allDigits_iff.mp digits).1, (allDigits_iff.mp digits).2, rfl, given⟩
      have read : atoi ref = digitsValue ref := atoi_digits number.2.1 given.2
      rw [resolves_iff_of_number number, resolveAppId, if_pos ⟨digits, by omega⟩, read]
    · have text : ∀ n, ¬ IsAppId ref n := by
        rintro n ⟨-, -, rfl, number⟩
        exact given number
      have negative : ¬ 0 < atoi ref := by
        simp only [Wraps, digits, true_and] at kept
        rw [value, toInt32]
        omega
      rw [resolves_iff_of_text text, resolveAppId, if_neg (fun number => negative number.2)]
  · have text : ∀ n, ¬ IsAppId ref n := fun n given => digits (allDigits_iff.mpr ⟨given.1, given.2.1⟩)
    rw [resolves_iff_of_text text, resolveAppId, if_neg (fun number => digits number.1)]

/-- The resolver gives the appid that the reference stands for, except when it takes the low 32
bits of a number for one, and those are not by chance the appid of the title. -/
theorem resolveAppId_resolves_iff (apps : List AppInfo) (ref : Bytes) :
    Resolves apps ref (resolveAppId apps ref) ↔
      ¬ Wraps ref ∨ ∃ a, FirstTitled apps ref a ∧ a.id = (digitsValue ref % 2 ^ 32 : Nat) := by
  by_cases wraps : Wraps ref
  · have text : ∀ n, ¬ IsAppId ref n := by
      rintro n ⟨-, -, rfl, -, small⟩
      exact absurd wraps.2.1 (by omega)
    rw [resolves_iff_of_text text, resolveAppId_of_wraps apps wraps]
    simp only [wraps, not_true_eq_false, false_or]
    constructor
    · intro same
      by_cases known : ∃ a, FirstTitled apps ref a
      · obtain ⟨a, first⟩ := known
        exact ⟨a, first, first.matchTitle.symm.trans same.symm⟩
      · have positive := wraps.2.2.2.1
        rw [matchTitle_unknown (not_exists.mp known)] at same
        omega
    · rintro ⟨a, first, same⟩
      rw [first.matchTitle, same]
  · exact ⟨fun _ => .inl wraps, fun _ => resolves_of_not_wraps apps wraps⟩

/-- `4294967297` is `2^32 + 1`, and is resolved to appid 1 in any list. -/
theorem resolveAppId_wraps : resolveAppId [] (ascii "4294967297") = 1 ∧
    ¬ Resolves [] (ascii "4294967297") (resolveAppId [] (ascii "4294967297")) := by
  have value : resolveAppId [] (ascii "4294967297") = 1 := by decide
  refine ⟨value, fun resolves => ?_⟩
  rw [value] at resolves
  have text : ∀ n, ¬ IsAppId (ascii "4294967297") n := by
    rintro n ⟨-, -, rfl, -, small⟩
    exact absurd small (by decide)
  have found := (resolves_iff_of_text text 1).mp resolves
  exact absurd found (by decide)

end StreamEngine.Net
