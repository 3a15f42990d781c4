import StreamEngine.Json.Parse
import StreamEngine.Library.DecimalProofs

/-! The language of the parser, as derivations. The parser returns a value exactly
when the text has a derivation of it, so its fuel is no restriction, and what the
parser can build is what a derivation can name. -/
namespace StreamEngine.Json
open ByteString Binary64 Decimal

/-- What is to be read: a value, or the other entries of an object or an array. -/
inductive Goal where
  | value
  | members (earlier : List (Bytes × Value))
  | items (earlier : List Value)

/-- The function of the parser that reads it. -/
def Goal.read : Goal → Nat → Bytes → Option (Value × Bytes)
  | .value, fuel, s => Json.value fuel s
  | .members earlier, fuel, s => object fuel s earlier
  | .items earlier, fuel, s => array fuel s earlier

/-- Text, the value read from its front, and the rest. -/
inductive Reads : Goal → Bytes → Value → Bytes → Prop where
  | emptyObject {s t rest} (brace : ws s = 123 :: t) (close : ws t = 125 :: rest) :
      Reads .value s (.obj []) rest
  | object {s t v rest} (brace : ws s = 123 :: t) (members : Reads (.members []) t v rest) :
      Reads .value s v rest
  | emptyArray {s t rest} (bracket : ws s = 91 :: t) (close : ws t = 93 :: rest) :
      Reads .value s (.arr []) rest
  | array {s t v rest} (bracket : ws s = 91 :: t) (items : Reads (.items []) t v rest) :
      Reads .value s v rest
  | text {s t out rest} (quote : ws s = 34 :: t) (body : strBody t = some (out, rest)) :
      Reads .value s (.str out) rest
  | wordTrue {s rest} (word : ws s = ascii "true" ++ rest) : Reads .value s (.bool true) rest
  | wordFalse {s rest} (word : ws s = ascii "false" ++ rest) : Reads .value s (.bool false) rest
  | wordNull {s rest} (word : ws s = ascii "null" ++ rest) : Reads .value s .null rest
  | number {s c t v rest} (opens : ws s = c :: t) (start : c = 45 ∨ isDigit c = true)
      (scanned : number (c :: t) = some (v, rest)) : Reads .value s v rest
  | member {s key t₁ t₂ t₃ t₄ t₅ child v rest} {earlier : List (Bytes × Value)}
      (quote : ws s = 34 :: t₁) (body : strBody t₁ = some (key, t₂)) (colon : ws t₂ = 58 :: t₃)
      (here : Reads .value t₃ child t₄) (comma : ws t₄ = 44 :: t₅)
      (others : Reads (.members (OrderedMap.insert key child earlier)) t₅ v rest) :
      Reads (.members earlier) s v rest
  | lastMember {s key t₁ t₂ t₃ t₄ child rest} {earlier : List (Bytes × Value)}
      (quote : ws s = 34 :: t₁) (body : strBody t₁ = some (key, t₂)) (colon : ws t₂ = 58 :: t₃)
      (here : Reads .value t₃ child t₄) (close : ws t₄ = 125 :: rest) :
      Reads (.members earlier) s (.obj (OrderedMap.insert key child earlier)) rest
  | item {s t₁ t₂ child v rest} {earlier : List Value} (here : Reads .value s child t₁)
      (comma : ws t₁ = 44 :: t₂) (others : Reads (.items (earlier ++ [child])) t₂ v rest) :
      Reads (.items earlier) s v rest
  | lastItem {s t child rest} {earlier : List Value} (here : Reads .value s child t)
      (close : ws t = 93 :: rest) : Reads (.items earlier) s (.arr (earlier ++ [child])) rest

/-! ### Soundness -/

theorem literal_eq_some {lit s rest : Bytes} {v w : Value}
    (read : literal lit v s = some (w, rest)) : w = v ∧ s = lit ++ rest := by
  unfold literal at read
  split at read
  · rename_i here
    obtain ⟨t, rfl⟩ := List.isPrefixOf_iff_prefix.mp here
    simp only [List.drop_left, Option.some.injEq, Prod.mk.injEq] at read
    exact ⟨read.1.symm, by rw [read.2]⟩
  · contradiction

theorem value_reads {fuel : Nat} {s rest : Bytes} {v : Value}
    (ih : ∀ (goal : Goal) {s rest : Bytes} {v : Value},
      goal.read fuel s = some (v, rest) → Reads goal s v rest)
    (read : value (fuel + 1) s = some (v, rest)) : Reads .value s v rest := by
  unfold value at read
  split at read
  · contradiction
  rename_i c t opens
  split at read
  · subst c
    split at read
    · rename_i close
      simp only [Option.some.injEq, Prod.mk.injEq] at read
      obtain ⟨rfl, rfl⟩ := read
      exact .emptyObject opens close
    · exact .object opens (ih (.members []) read)
  split at read
  · subst c
    split at read
    · rename_i close
      simp only [Option.some.injEq, Prod.mk.injEq] at read
      obtain ⟨rfl, rfl⟩ := read
      exact .emptyArray opens close
    · exact .array opens (ih (.items []) read)
  split at read
  · subst c
    obtain ⟨⟨out, t'⟩, body, same⟩ := Option.map_eq_some_iff.mp read
    simp only [Prod.mk.injEq] at same
    obtain ⟨rfl, rfl⟩ := same
    exact .text opens body
  split at read
  · obtain ⟨rfl, word⟩ := literal_eq_some read
    exact .wordTrue (opens.trans word)
  split at read
  · obtain ⟨rfl, word⟩ := literal_eq_some read
    exact .wordFalse (opens.trans word)
  split at read
  · obtain ⟨rfl, word⟩ := literal_eq_some read
    exact .wordNull (opens.trans word)
  split at read
  · rename_i start
    exact .number opens start read
  · contradiction

theorem object_reads {fuel : Nat} {s rest : Bytes} {v : Value} {earlier : List (Bytes × Value)}
    (ih : ∀ (goal : Goal) {s rest : Bytes} {v : Value},
      goal.read fuel s = some (v, rest) → Reads goal s v rest)
    (read : object (fuel + 1) s earlier = some (v, rest)) :
    Reads (.members earlier) s v rest := by
  unfold object at read
  split at read
  · rename_i quote
    split at read
    · contradiction
    rename_i body
    split at read
    · rename_i colon
      split at read
      · contradiction
      rename_i here
      split at read
      · rename_i comma
        exact .member quote body colon (ih .value here) comma (ih (.members _) read)
      · rename_i close
        simp only [Option.some.injEq, Prod.mk.injEq] at read
        obtain ⟨rfl, rfl⟩ := read
        exact .lastMember quote body colon (ih .value here) close
      · contradiction
    · contradiction
  · contradiction

theorem array_reads {fuel : Nat} {s rest : Bytes} {v : Value} {earlier : List Value}
    (ih : ∀ (goal : Goal) {s rest : Bytes} {v : Value},
      goal.read fuel s = some (v, rest) → Reads goal s v rest)
    (read : array (fuel + 1) s earlier = some (v, rest)) : Reads (.items earlier) s v rest := by
  unfold array at read
  split at read
  · contradiction
  rename_i here
  split at read
  · rename_i comma
    exact .item (ih .value here) comma (ih (.items _) read)
  · rename_i close
    simp only [Option.some.injEq, Prod.mk.injEq] at read
    obtain ⟨rfl, rfl⟩ := read
    exact .lastItem (ih .value here) close
  · contradiction

/-- Whatever the parser returns has a derivation. -/
theorem reads_of_read {fuel : Nat} (goal : Goal) {s rest : Bytes} {v : Value}
    (read : goal.read fuel s = some (v, rest)) : Reads goal s v rest := by
  induction fuel generalizing goal s rest v with
  | zero => cases goal <;> simp [Goal.read, value, object, array] at read
  | succ fuel ih =>
    cases goal with
    | value => exact value_reads ih read
    | members earlier => exact object_reads ih read
    | items earlier => exact array_reads ih read

/-! ### Completeness -/

theorem ws_length (s : Bytes) : (ws s).length ≤ s.length := List.length_dropWhile_le isWs s

theorem length_word {s word rest : Bytes} (opens : ws s = word ++ rest) (nonempty : word ≠ []) :
    rest.length < s.length := by
  have le := ws_length s
  rw [opens, List.length_append] at le
  have := List.length_pos_of_ne_nil nonempty
  omega

theorem length_of_ws {s t : Bytes} {c : UInt8} (opens : ws s = c :: t) : t.length < s.length := by
  have le := ws_length s
  rw [opens, List.length_cons] at le
  omega

theorem prepend_eq_some {decoded out rest : Bytes} {result : Option (Bytes × Bytes)}
    (read : prepend decoded result = some (out, rest)) : ∃ tail, result = some (tail, rest) := by
  obtain ⟨⟨tail, rest'⟩, read, same⟩ := Option.map_eq_some_iff.mp read
  simp only [Prod.mk.injEq] at same
  exact ⟨tail, same.2 ▸ read⟩

theorem strBody_length {s out rest : Bytes} (body : strBody s = some (out, rest)) :
    rest.length < s.length := by
  fun_induction strBody s generalizing out with
  | case2 s =>
    simp only [Option.some.injEq, Prod.mk.injEq] at body
    simp [body.2]
  | case6 | case9 | case11 | case13 =>
    rename_i ih
    obtain ⟨tail, read⟩ := prepend_eq_some body
    have less := ih read
    simp only [List.length_cons]
    omega
  | _ => contradiction

theorem number_eq_some {s rest : Bytes} {v : Value} (scanned : number s = some (v, rest)) :
    (∃ d, v = .num d) ∧ s.takeWhile inNumber ≠ [] ∧ rest = s.dropWhile inNumber := by
  simp only [number] at scanned
  split at scanned
  · contradiction
  rename_i nonempty
  split at scanned
  · simp only [Option.some.injEq, Prod.mk.injEq] at scanned
    exact ⟨⟨_, scanned.1.symm⟩, nonempty, scanned.2.symm⟩
  · contradiction

theorem number_length {s rest : Bytes} {v : Value} (scanned : number s = some (v, rest)) :
    rest.length < s.length := by
  obtain ⟨-, nonempty, rfl⟩ := number_eq_some scanned
  have parts := congrArg List.length (List.takeWhile_append_dropWhile (p := inNumber) (l := s))
  rw [List.length_append] at parts
  have := List.length_pos_of_ne_nil nonempty
  omega

/-- Every derivation reads some of the text. -/
theorem Reads.length_lt {goal : Goal} {s rest : Bytes} {v : Value}
    (reads : Reads goal s v rest) : rest.length < s.length := by
  induction reads with
  | emptyObject brace close => exact (length_of_ws close).trans (length_of_ws brace)
  | object brace _ ih => exact ih.trans (length_of_ws brace)
  | emptyArray bracket close => exact (length_of_ws close).trans (length_of_ws bracket)
  | array bracket _ ih => exact ih.trans (length_of_ws bracket)
  | text quote body => exact (strBody_length body).trans (length_of_ws quote)
  | wordTrue word => exact length_word word (by decide)
  | wordFalse word => exact length_word word (by decide)
  | wordNull word => exact length_word word (by decide)
  | number opens _ scanned =>
    have read := number_length scanned
    rw [← opens] at read
    exact lt_of_lt_of_le read (ws_length _)
  | member quote body colon _ comma _ child others =>
    exact others.trans ((length_of_ws comma).trans (child.trans ((length_of_ws colon).trans
      ((strBody_length body).trans (length_of_ws quote)))))
  | lastMember quote body colon _ close child =>
    exact (length_of_ws close).trans (child.trans ((length_of_ws colon).trans
      ((strBody_length body).trans (length_of_ws quote))))
  | item _ comma _ child others => exact others.trans ((length_of_ws comma).trans child)
  | lastItem _ close child => exact (length_of_ws close).trans child

theorem number_start {c : UInt8} (start : c = 45 ∨ isDigit c = true) :
    isWs c = false ∧ c ≠ 93 ∧ c ≠ 125 ∧ c ≠ 123 ∧ c ≠ 91 ∧ c ≠ 34 ∧ c ≠ 116 ∧ c ≠ 102 ∧
      c ≠ 110 := by
  rcases start with rfl | digit
  · decide
  · have range := isDigit_toNat digit
    have other : ∀ {d : UInt8}, (d.toNat < 48 ∨ 57 < d.toNat) → c ≠ d := by
      rintro d away rfl
      omega
    refine ⟨?_, other (by decide), other (by decide), other (by decide), other (by decide),
      other (by decide), other (by decide), other (by decide), other (by decide)⟩
    have h₁ : c ≠ 32 := other (by decide)
    have h₂ : c ≠ 9 := other (by decide)
    have h₃ : c ≠ 10 := other (by decide)
    have h₄ : c ≠ 13 := other (by decide)
    simp [isWs, h₁, h₂, h₃, h₄]

/-- Where a value is read, no array ends. -/
theorem Reads.value_opens {s rest : Bytes} {v : Value} (reads : Reads .value s v rest) :
    ∃ c t, ws s = c :: t ∧ c ≠ 93 := by
  cases reads with
  | emptyObject brace => exact ⟨_, _, brace, by decide⟩
  | object brace => exact ⟨_, _, brace, by decide⟩
  | emptyArray bracket => exact ⟨_, _, bracket, by decide⟩
  | array bracket => exact ⟨_, _, bracket, by decide⟩
  | text quote => exact ⟨_, _, quote, by decide⟩
  | wordTrue word => exact ⟨_, _, word, by decide⟩
  | wordFalse word => exact ⟨_, _, word, by decide⟩
  | wordNull word => exact ⟨_, _, word, by decide⟩
  | number opens start => exact ⟨_, _, opens, (number_start start).2.1⟩

theorem Reads.items_opens {s rest : Bytes} {v : Value} {earlier : List Value}
    (reads : Reads (.items earlier) s v rest) : ∃ c t, ws s = c :: t ∧ c ≠ 93 := by
  cases reads with
  | item here => exact here.value_opens
  | lastItem here => exact here.value_opens

theorem Reads.members_opens {s rest : Bytes} {v : Value} {earlier : List (Bytes × Value)}
    (reads : Reads (.members earlier) s v rest) : ∃ t, ws s = 34 :: t := by
  cases reads with
  | member quote => exact ⟨_, quote⟩
  | lastMember quote => exact ⟨_, quote⟩

theorem value_members {s t t' : Bytes} {c : UInt8} (brace : ws s = 123 :: t) (more : ws t = c :: t')
    (open' : c ≠ 125) (fuel : Nat) : value (fuel + 1) s = object fuel t [] := by
  simp only [value, brace, more, if_true]
  split
  · rename_i close
    exact absurd (List.cons.inj close).1 open'
  · rfl

theorem value_items {s t t' : Bytes} {c : UInt8} (bracket : ws s = 91 :: t) (more : ws t = c :: t')
    (open' : c ≠ 93) (fuel : Nat) : value (fuel + 1) s = array fuel t [] := by
  have brace : ¬ (91 : UInt8) = 123 := by decide
  simp only [value, bracket, more, brace, if_true, if_false]
  split
  · rename_i close
    exact absurd (List.cons.inj close).1 open'
  · rfl

theorem literal_append (lit : Bytes) (v : Value) (rest : Bytes) :
    literal lit v (lit ++ rest) = some (v, rest) := by
  have isPrefix : lit.isPrefixOf (lit ++ rest) = true :=
    List.isPrefixOf_iff_prefix.mpr (List.prefix_append _ _)
  simp [literal, isPrefix]

/-- Fuel that a derivation needs beyond two units for each byte it reads. -/
def Goal.cost : Goal → Nat
  | .value => 0
  | .members _ | .items _ => 1

/-- Whatever has a derivation is what the parser returns. -/
theorem read_of_reads {goal : Goal} {s rest : Bytes} {v : Value} (reads : Reads goal s v rest)
    (fuel : Nat) (enough : 2 * s.length + goal.cost ≤ fuel + 1 + 2 * rest.length) :
    goal.read (fuel + 1) s = some (v, rest) := by
  have h₁ : ¬ (91 : UInt8) = 123 := by decide
  have h₂ : ¬ (34 : UInt8) = 123 := by decide
  have h₃ : ¬ (34 : UInt8) = 91 := by decide
  induction reads generalizing fuel with
  | emptyObject brace close => simp only [Goal.read, value, brace, close, if_true]
  | object brace members ih =>
    obtain ⟨t', more⟩ := members.members_opens
    have spent := length_of_ws brace
    have inner := members.length_lt
    simp only [Goal.cost] at enough ih
    rw [Goal.read, value_members brace more (by decide)]
    obtain ⟨fuel, rfl⟩ : ∃ n, fuel = n + 1 := ⟨fuel - 1, by omega⟩
    exact ih fuel (by omega)
  | emptyArray bracket close => simp only [Goal.read, value, bracket, h₁, close, if_true, if_false]
  | array bracket items ih =>
    obtain ⟨c, t', more, other⟩ := items.items_opens
    have spent := length_of_ws bracket
    have inner := items.length_lt
    simp only [Goal.cost] at enough ih
    rw [Goal.read, value_items bracket more other]
    obtain ⟨fuel, rfl⟩ : ∃ n, fuel = n + 1 := ⟨fuel - 1, by omega⟩
    exact ih fuel (by omega)
  | text quote body =>
    simp only [Goal.read, value, quote, h₂, h₃, if_true, if_false, body, Option.map_some]
  | wordTrue word =>
    simp only [Goal.read, value, word]
    exact literal_append (ascii "true") _ _
  | wordFalse word =>
    simp only [Goal.read, value, word]
    exact literal_append (ascii "false") _ _
  | wordNull word =>
    simp only [Goal.read, value, word]
    exact literal_append (ascii "null") _ _
  | number opens start scanned =>
    obtain ⟨-, -, -, h₄, h₅, h₆, h₇, h₈, h₉⟩ := number_start start
    simp only [Goal.read, value, opens, h₄, h₅, h₆, h₇, h₈, h₉, start, if_true, if_false, scanned]
  | member quote body colon here comma others first more =>
    have inner := here.length_lt
    have outer := others.length_lt
    have key := (length_of_ws colon).trans ((strBody_length body).trans (length_of_ws quote))
    have separator := length_of_ws comma
    simp only [Goal.cost] at enough first more
    obtain ⟨fuel, rfl⟩ : ∃ n, fuel = n + 1 := ⟨fuel - 1, by omega⟩
    have child := first fuel (by omega)
    have tail := more fuel (by omega)
    simp only [Goal.read] at child tail
    rw [Goal.read, object]
    simp only [quote, body, colon, child, comma, tail]
  | lastMember quote body colon here close first =>
    have inner := here.length_lt
    have key := (length_of_ws colon).trans ((strBody_length body).trans (length_of_ws quote))
    have separator := length_of_ws close
    simp only [Goal.cost] at enough first
    obtain ⟨fuel, rfl⟩ : ∃ n, fuel = n + 1 := ⟨fuel - 1, by omega⟩
    have child := first fuel (by omega)
    simp only [Goal.read] at child
    simp only [Goal.read, object, quote, body, colon, child, close]
  | item here comma others first more =>
    have inner := here.length_lt
    have outer := others.length_lt
    have separator := length_of_ws comma
    simp only [Goal.cost] at enough first more
    obtain ⟨fuel, rfl⟩ : ∃ n, fuel = n + 1 := ⟨fuel - 1, by omega⟩
    have child := first fuel (by omega)
    have tail := more fuel (by omega)
    simp only [Goal.read] at child tail
    rw [Goal.read, array]
    simp only [child, comma, tail]
  | lastItem here close first =>
    have inner := here.length_lt
    have separator := length_of_ws close
    simp only [Goal.cost] at enough first
    obtain ⟨fuel, rfl⟩ : ∃ n, fuel = n + 1 := ⟨fuel - 1, by omega⟩
    have child := first fuel (by omega)
    simp only [Goal.read] at child
    simp only [Goal.read, array, child, close]

theorem reads_iff {s rest : Bytes} {v : Value} {fuel : Nat} (enough : depth s ≤ fuel) :
    value fuel s = some (v, rest) ↔ Reads .value s v rest := by
  refine ⟨reads_of_read .value, fun reads => ?_⟩
  unfold depth at enough
  obtain ⟨fuel, rfl⟩ : ∃ n, fuel = n + 1 := ⟨fuel - 1, by omega⟩
  exact read_of_reads reads fuel (by simp only [Goal.cost]; omega)

/-- A text reads as at most one value, with one rest. -/
theorem Reads.unique {s rest rest' : Bytes} {v w : Value} (one : Reads .value s v rest)
    (other : Reads .value s w rest') : v = w ∧ rest = rest' := by
  have first := (reads_iff (le_refl (depth s))).mpr one
  have second := (reads_iff (le_refl (depth s))).mpr other
  rw [first] at second
  simpa using second

/-- The parser accepts a text and returns a value exactly when the text reads as it. -/
theorem parse_iff {text : Bytes} {v : Value} :
    parse text = some v ↔ ∃ rest, Reads .value text v rest ∧ ws rest = [] := by
  simp only [← reads_iff (le_refl (depth text)), parse]
  cases result : value (depth text) text with
  | none => simp
  | some pair =>
    obtain ⟨w, rest⟩ := pair
    simp only [Option.some.injEq, Prod.mk.injEq]
    split
    · rename_i ends
      simp [ends, eq_comm]
    · rename_i continues
      simp [continues]

/-! ### What is accepted is well formed -/

theorem orderedMembers_insert {members : List (Bytes × Value)} {k : Bytes} {v : Value}
    (here : v.Ordered) (others : Value.OrderedMembers members) :
    Value.OrderedMembers (OrderedMap.insert k v members) := by
  induction members with
  | nil => simpa only [OrderedMap.insert, Value.OrderedMembers, and_true] using here
  | cons member members ih =>
    obtain ⟨l, w⟩ := member
    rw [Value.OrderedMembers] at others
    rw [OrderedMap.insert]
    split
    · simp only [Value.OrderedMembers]
      exact ⟨here, others⟩
    · split
      · rw [Value.OrderedMembers]
        exact ⟨here, others.2⟩
      · rw [Value.OrderedMembers]
        exact ⟨others.1, ih others.2⟩

theorem orderedItems_append {items : List Value} {v : Value} (here : v.Ordered)
    (others : Value.OrderedItems items) : Value.OrderedItems (items ++ [v]) := by
  induction items with
  | nil => simpa only [List.nil_append, Value.OrderedItems, and_true] using here
  | cons w items ih =>
    rw [Value.OrderedItems] at others
    rw [List.cons_append, Value.OrderedItems]
    exact ⟨others.1, ih others.2⟩

/-- The entries read so far are ordered. -/
def Goal.Ordered : Goal → Prop
  | .value => True
  | .members earlier => OrderedMap.Ascending earlier ∧ Value.OrderedMembers earlier
  | .items earlier => Value.OrderedItems earlier

theorem Reads.ordered {goal : Goal} {s rest : Bytes} {v : Value} (reads : Reads goal s v rest)
    (start : goal.Ordered) : v.Ordered := by
  induction reads with
  | emptyObject =>
    rw [Value.Ordered, Value.OrderedMembers]
    exact ⟨OrderedMap.ascending_nil, trivial⟩
  | object _ _ ih => exact ih ⟨OrderedMap.ascending_nil, by rw [Value.OrderedMembers]; trivial⟩
  | emptyArray => rw [Value.Ordered, Value.OrderedItems]; trivial
  | array _ _ ih => exact ih (by rw [Goal.Ordered, Value.OrderedItems]; trivial)
  | text | wordTrue | wordFalse | wordNull => simp only [Value.Ordered]
  | number _ _ scanned =>
    obtain ⟨d, rfl⟩ := (number_eq_some scanned).1
    simp only [Value.Ordered]
  | member _ _ _ _ _ _ child others =>
    exact others ⟨OrderedMap.insert_ascending _ _ start.1,
      orderedMembers_insert (child trivial) start.2⟩
  | lastMember _ _ _ _ _ child =>
    rw [Value.Ordered]
    exact ⟨OrderedMap.insert_ascending _ _ start.1, orderedMembers_insert (child trivial) start.2⟩
  | item _ _ _ child others => exact others (orderedItems_append (child trivial) start)
  | lastItem _ _ child =>
    rw [Value.Ordered]
    exact orderedItems_append (child trivial) start

/-- Every object that the parser returns is a `std::map`. -/
theorem parse_ordered {text : Bytes} {v : Value} (accepted : parse text = some v) : v.Ordered := by
  obtain ⟨rest, reads, -⟩ := parse_iff.mp accepted
  exact reads.ordered trivial

end StreamEngine.Json
