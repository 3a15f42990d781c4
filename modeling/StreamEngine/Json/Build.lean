import StreamEngine.Json.RoundTrip

/-! What the builders of objects build: values that the codec returns as they were, and from which
every member is read back. -/
namespace StreamEngine.Json.Value
open ByteString Binary64

@[simp]
theorem find_set (v : Value) (k k' : Bytes) (child : Value) :
    (v.set k child).find k' = if k' = k then some child else v.find k' := by
  have inserted : ∀ members : List (Bytes × Value), (v.set k child).find k' =
      OrderedMap.lookup k' (OrderedMap.insert k child members) → v.find k' =
      OrderedMap.lookup k' members → (v.set k child).find k' =
      if k' = k then some child else v.find k' := by
    intro members after before
    rw [after, before, OrderedMap.lookup_insert]
    split <;> rfl
  cases v with
  | obj members => exact inserted members rfl rfl
  | _ => exact inserted [] rfl rfl

@[simp]
theorem isObject_set (v : Value) (k : Bytes) (child : Value) : (v.set k child).isObject = true := by
  cases v <;> rfl

theorem orderedMembers_insert {k : Bytes} {child : Value} (ordered : child.Ordered)
    {members : List (Bytes × Value)} (earlier : OrderedMembers members) :
    OrderedMembers (OrderedMap.insert k child members) := by
  induction members with
  | nil => exact ⟨ordered, trivial⟩
  | cons entry members ih =>
    obtain ⟨first, rest⟩ := earlier
    rw [OrderedMap.insert]
    split
    · exact ⟨ordered, first, rest⟩
    · split
      · exact ⟨ordered, rest⟩
      · exact ⟨first, ih rest⟩

theorem finiteMembers_insert {k : Bytes} {child : Value} (finite : child.Finite)
    {members : List (Bytes × Value)} (earlier : FiniteMembers members) :
    FiniteMembers (OrderedMap.insert k child members) := by
  induction members with
  | nil => exact ⟨finite, trivial⟩
  | cons entry members ih =>
    obtain ⟨first, rest⟩ := earlier
    rw [OrderedMap.insert]
    split
    · exact ⟨finite, first, rest⟩
    · split
      · exact ⟨finite, rest⟩
      · exact ⟨first, ih rest⟩

theorem unsignMembers_insert (k : Bytes) (child : Value) (members : List (Bytes × Value)) :
    unsignMembers (OrderedMap.insert k child members) =
      OrderedMap.insert k child.unsignZeros (unsignMembers members) := by
  induction members with
  | nil => rfl
  | cons entry members ih =>
    obtain ⟨l, w⟩ := entry
    simp only [OrderedMap.insert, unsignMembers]
    split
    · rfl
    · split
      · rfl
      · rw [unsignMembers, ih]

theorem Ordered.set {v child : Value} (ordered : v.Ordered) (k : Bytes) (inner : child.Ordered) :
    (v.set k child).Ordered := by
  cases v with
  | obj members =>
    exact ⟨OrderedMap.insert_ascending k child ordered.1, orderedMembers_insert inner ordered.2⟩
  | _ => exact ⟨List.pairwise_singleton .., inner, trivial⟩

theorem Finite.set {v child : Value} (finite : v.Finite) (k : Bytes) (inner : child.Finite) :
    (v.set k child).Finite := by
  cases v with
  | obj members => exact finiteMembers_insert inner finite
  | _ => exact ⟨inner, trivial⟩

theorem unsignZeros_set (v : Value) (k : Bytes) (child : Value) :
    (v.set k child).unsignZeros = v.unsignZeros.set k child.unsignZeros := by
  cases v with
  | obj members => exact congrArg obj (unsignMembers_insert k child members)
  | _ => rfl

/-! ### What is found in a value -/

theorem Ordered.find {v w : Value} {k : Bytes} (ordered : v.Ordered) (found : v.find k = some w) :
    w.Ordered := by
  cases v with
  | obj members =>
    have inner := ordered.2
    have member : (k, w) ∈ members := OrderedMap.mem_of_lookup found
    clear ordered found
    induction members with
    | nil => cases member
    | cons entry members ih =>
      rcases List.mem_cons.mp member with rfl | later
      · exact inner.1
      · exact ih inner.2 later
  | _ => cases found

theorem Finite.find {v w : Value} {k : Bytes} (finite : v.Finite) (found : v.find k = some w) :
    w.Finite := by
  cases v with
  | obj members =>
    rw [Finite] at finite
    have member : (k, w) ∈ members := OrderedMap.mem_of_lookup found
    clear found
    induction members with
    | nil => cases member
    | cons entry members ih =>
      rcases List.mem_cons.mp member with rfl | later
      · exact finite.1
      · exact ih finite.2 later
  | _ => cases found

theorem find_unsignZeros (v : Value) (k : Bytes) :
    v.unsignZeros.find k = (v.find k).map unsignZeros := by
  cases v with
  | obj members =>
    rw [unsignZeros, Value.find, Value.find]
    induction members with
    | nil => rfl
    | cons entry members ih =>
      rw [unsignMembers, OrderedMap.lookup, OrderedMap.lookup, ih]
      split <;> rfl
  | _ => rfl

/-- Setting a member to what it is changes nothing. -/
theorem set_find {v w : Value} {k : Bytes} (ordered : v.Ordered) (found : v.find k = some w) :
    v.set k w = v := by
  cases v with
  | obj members => exact congrArg obj (OrderedMap.insert_lookup ordered.1 found)
  | _ => cases found

/-- A value that the codec returns as it is. -/
structure Codable (v : Value) : Prop where
  ordered : v.Ordered
  finite : v.Finite
  unsigned : v.unsignZeros = v

theorem Codable.set {v child : Value} (codable : v.Codable) (k : Bytes) (inner : child.Codable) :
    (v.set k child).Codable where
  ordered := codable.ordered.set k inner.ordered
  finite := codable.finite.set k inner.finite
  unsigned := by rw [unsignZeros_set, codable.unsigned, inner.unsigned]

theorem codable_obj : (obj []).Codable := ⟨⟨OrderedMap.ascending_nil, trivial⟩, trivial, rfl⟩

theorem codable_str (s : Bytes) : (str s).Codable := ⟨trivial, trivial, rfl⟩

theorem codable_bool (b : Bool) : (bool b).Codable := ⟨trivial, trivial, rfl⟩

theorem codable_arr {items : List Value} (codable : ∀ v ∈ items, v.Codable) :
    (arr items).Codable := by
  have all : OrderedItems items ∧ FiniteItems items ∧ unsignItems items = items := by
    induction items with
    | nil => exact ⟨trivial, trivial, rfl⟩
    | cons v items ih =>
      obtain ⟨ordered, finite, same⟩ := ih fun w member => codable w (List.mem_cons_of_mem _ member)
      have first := codable v List.mem_cons_self
      refine ⟨⟨first.ordered, ordered⟩, ⟨first.finite, finite⟩, ?_⟩
      rw [unsignItems, first.unsigned, same]
  exact ⟨all.1, all.2.1, congrArg arr all.2.2⟩

theorem codable_int {z : Int} (small : z.natAbs < 2 ^ 53) : (num (ofInt z)).Codable := by
  obtain ⟨x, value, integer, trunc⟩ := exists_ofInt small
  refine ⟨trivial, ?_, ?_⟩
  · rw [value]
    rfl
  · rw [unsignZeros, value, ← ofInt_trunc integer, trunc, value]

theorem Codable.parse_dump {v : Value} (codable : v.Codable) : parse (dump v) = some v :=
  (Json.parse_dump codable.ordered codable.finite).trans (congrArg some codable.unsigned)

mutual
theorem finite_unsignZeros : ∀ {v : Value}, v.Finite → v.unsignZeros.Finite
  | .null, finite | .bool _, finite | .str _, finite => finite
  | .num d, finite => by
    cases d <;> exact finite
  | .arr items, finite => by
    simp only [Value.Finite] at finite
    simpa only [unsignZeros, Value.Finite] using finiteItems_unsignItems finite
  | .obj members, finite => by
    simp only [Value.Finite] at finite
    simpa only [unsignZeros, Value.Finite] using finiteMembers_unsignMembers finite

theorem finiteItems_unsignItems : ∀ {items : List Value}, FiniteItems items →
    FiniteItems (unsignItems items)
  | [], _ => trivial
  | _ :: _, finite => ⟨finite_unsignZeros finite.1, finiteItems_unsignItems finite.2⟩

theorem finiteMembers_unsignMembers : ∀ {members : List (Bytes × Value)}, FiniteMembers members →
    FiniteMembers (unsignMembers members)
  | [], _ => trivial
  | _ :: _, finite => ⟨finite_unsignZeros finite.1, finiteMembers_unsignMembers finite.2⟩
end

end StreamEngine.Json.Value
