import StreamEngine.Json.Rewrite
import StreamEngine.Library.Definedness

/-! The JSON writer with its conversion to `long long` as a partial function. The writer asks whether
a number is finite before it converts it, and whether it is small only afterwards. -/
namespace StreamEngine.Json
open ByteString Binary64 Decimal Definedness

/-- `none` when an undefined conversion is reached. -/
def dumpNum? (d : Double) : Option Bytes :=
  if d.isFinite then do
    let integer ← d.toSigned? 64
    return if d.eq (ofInt integer) && d.absLt (9 * 10 ^ 15) then printInt integer else printG17 d
  else some (printG17 d)

mutual
def dumpTo? : Value → Option Bytes
  | .null => some (ascii "null")
  | .bool b => some (if b then ascii "true" else ascii "false")
  | .num d => dumpNum? d
  | .str s => some (escapeTo s)
  | .arr items => do
    let text ← dumpItems? true items
    return 91 :: (text ++ [93])
  | .obj members => do
    let text ← dumpMembers? true members
    return 123 :: (text ++ [125])

def dumpItems? (first : Bool) : List Value → Option Bytes
  | [] => some []
  | v :: items => do
    let text ← dumpTo? v
    let others ← dumpItems? false items
    return (if first then [] else [44]) ++ (text ++ others)

def dumpMembers? (first : Bool) : List (Bytes × Value) → Option Bytes
  | [] => some []
  | (k, v) :: members => do
    let text ← dumpTo? v
    let others ← dumpMembers? false members
    return (if first then [] else [44]) ++ (escapeTo k ++ 58 :: (text ++ others))
end

/-- A number that is not converted, or is in the range of `long long`. -/
def Dumpable (d : Double) : Prop := d.isFinite = true → d.TruncatesIn (-2 ^ 63) (2 ^ 63)

theorem defines_toSigned? (d : Double) :
    Defines (d.toSigned? 64) (d.TruncatesIn (-2 ^ 63) (2 ^ 63)) (d.toSigned 64) :=
  fun _ => toSigned?_eq_some

theorem defines_dumpNum? (d : Double) : Defines (dumpNum? d) (Dumpable d) (dumpNum d) := by
  rw [dumpNum?, dumpNum, Dumpable]
  by_cases finite : d.isFinite = true
  · simp only [finite, if_true, Bool.true_and, forall_const]
    exact (defines_toSigned? d).map
  · simp only [finite, Bool.false_and, Bool.false_eq_true, if_false, false_implies]
    exact defines_some trivial _

/-- Numbers are all that matters. -/
abbrev Value.AllDumpable (v : Value) : Prop := v.All (fun _ => True) Dumpable

mutual
/-- The writer that converts where C defines it writes the same, when every number allows it. -/
theorem defines_dumpTo? : ∀ v : Value, Defines (dumpTo? v) v.AllDumpable (dumpTo v)
  | .null | .bool _ | .str _ => by
    simp only [dumpTo?, dumpTo, Value.AllDumpable, Value.All]
    exact defines_some trivial _
  | .num d => by
    simpa only [dumpTo?, dumpTo, Value.AllDumpable, Value.All] using defines_dumpNum? d
  | .arr items => by
    simp only [dumpTo?, dumpTo, Value.AllDumpable, Value.All]
    exact (defines_dumpItems? true items).map
  | .obj members => by
    simp only [dumpTo?, dumpTo, Value.AllDumpable, Value.All]
    exact (defines_dumpMembers? true members).map

theorem defines_dumpItems? : ∀ (first : Bool) (items : List Value),
    Defines (dumpItems? first items) (Value.AllItems (fun _ => True) Dumpable items)
      (dumpItems first items)
  | _, [] => by
    simp only [dumpItems?, dumpItems, Value.AllItems]
    exact defines_some trivial _
  | _, v :: items => by
    simp only [dumpItems?, dumpItems, Value.AllItems]
    exact (defines_dumpTo? v).bind (defines_dumpItems? false items).map

theorem defines_dumpMembers? : ∀ (first : Bool) (members : List (Bytes × Value)),
    Defines (dumpMembers? first members) (Value.AllMembers (fun _ => True) Dumpable members)
      (dumpMembers first members)
  | _, [] => by
    simp only [dumpMembers?, dumpMembers, Value.AllMembers]
    exact defines_some trivial _
  | _, (k, v) :: members => by
    simp only [dumpMembers?, dumpMembers, Value.AllMembers, true_and]
    exact (defines_dumpTo? v).bind (defines_dumpMembers? false members).map
end

/-! ### Fields -/

/-- A number under this key, if there is one, truncates to an `int`. -/
def IntField (v : Value) (k : Bytes) : Prop :=
  ∀ d, v.find k = some (.num d) → d.TruncatesIn (-2 ^ 31) (2 ^ 31)

def getInt? (v : Value) (k : Bytes) (default : Int) : Option Int :=
  (v.getNum k (ofInt default)).toSigned? 32

/-- The default is an `int`. -/
theorem getNum_truncatesIn {v : Value} {k : Bytes} {default low high : Int}
    (small : default.natAbs < 2 ^ 53) (range : low ≤ default ∧ default < high) :
    (v.getNum k (ofInt default)).TruncatesIn low high ↔
      ∀ d, v.find k = some (.num d) → d.TruncatesIn low high := by
  rw [Value.getNum]
  split
  · rename_i d found
    constructor
    · rintro fits d' same
      cases found.symm.trans same
      exact fits
    · exact fun fits => fits d found
  · rename_i other
    exact iff_of_true ((truncatesIn_ofInt small).mpr range) fun d found => absurd found (other d)

theorem defines_getInt? (v : Value) (k : Bytes) {default : Int} (small : default.natAbs < 2 ^ 31) :
    Defines (getInt? v k default) (IntField v k) ((v.getNum k (ofInt default)).toSigned 32) := by
  have converts : Defines (getInt? v k default)
      ((v.getNum k (ofInt default)).TruncatesIn (-2 ^ 31) (2 ^ 31))
      ((v.getNum k (ofInt default)).toSigned 32) := fun _ => toSigned?_eq_some
  exact converts.congr (getNum_truncatesIn (by omega) (by omega))

/-! ### Written values -/

/-- The values under the other keys. -/
def OthersDumpable (v : Value) (k : Bytes) : Prop :=
  ∀ members, v = .obj members → ∀ entry ∈ members, entry.1 ≠ k → entry.2.AllDumpable

theorem allDumpable_obj {members : List (Bytes × Value)} :
    (Value.obj members).AllDumpable ↔ ∀ entry ∈ members, entry.2.AllDumpable := by
  rw [Value.AllDumpable, Value.All, allMembers_iff]
  simp only [true_and]

theorem allDumpable_arr {items : List Value} :
    (Value.arr items).AllDumpable ↔ ∀ v ∈ items, v.AllDumpable := by
  rw [Value.AllDumpable, Value.All]
  induction items with
  | nil => simp [Value.AllItems]
  | cons v items ih => rw [Value.AllItems, ih, List.forall_mem_cons]

/-- A new child stands in the place of the old one. -/
theorem allDumpable_set {v : Value} (ordered : v.Ordered) (k : Bytes) (child : Value) :
    (v.set k child).AllDumpable ↔ OthersDumpable v k ∧ child.AllDumpable := by
  cases v with
  | obj members =>
    simp only [Value.Ordered] at ordered
    simp only [Value.set, allDumpable_obj, OthersDumpable, Value.obj.injEq, forall_eq',
      OrderedMap.mem_insert ordered.1]
    constructor
    · intro all
      exact ⟨fun entry member other => all entry (Or.inr ⟨member, other⟩), all (k, child) (Or.inl rfl)⟩
    · rintro ⟨others, here⟩ entry (rfl | ⟨member, other⟩)
      · exact here
      · exact others entry member other
  | _ => simp [Value.set, allDumpable_obj, OthersDumpable]

theorem AllDumpable.set {v child : Value} (all : v.AllDumpable) (k : Bytes)
    (here : child.AllDumpable) : (v.set k child).AllDumpable := by
  cases v with
  | obj members =>
    refine allDumpable_obj.mpr fun entry member => ?_
    rcases OrderedMap.eq_or_mem_of_mem_insert member with rfl | old
    · exact here
    · exact allDumpable_obj.mp all entry old
  | _ => simpa [Value.set, allDumpable_obj] using here

theorem allDumpable_empty : (Value.obj []).AllDumpable :=
  allDumpable_obj.mpr fun _ member => absurd member List.not_mem_nil

theorem allDumpable_str (s : Bytes) : (Value.str s).AllDumpable := by
  simp only [Value.AllDumpable, Value.All]

theorem allDumpable_bool (b : Bool) : (Value.bool b).AllDumpable := by
  simp only [Value.AllDumpable, Value.All]

theorem allDumpable_num {d : Double} : (Value.num d).AllDumpable ↔ Dumpable d := by
  simp only [Value.AllDumpable, Value.All]

theorem dumpable_ofInt {z : Int} (small : z.natAbs < 2 ^ 53) : Dumpable (ofInt z) :=
  fun _ => (truncatesIn_ofInt small).mpr (by omega)

end StreamEngine.Json
