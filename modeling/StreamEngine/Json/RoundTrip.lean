import StreamEngine.Json.Dump
import StreamEngine.Json.Grammar

/-! The parser inverts the writer. Each piece of printed text has a derivation in
front of an arbitrary rest, so the pieces compose. A printed number is followed
by a character that cannot continue it, which is all a rest has to promise. -/
namespace StreamEngine.Json
open ByteString Binary64 Decimal

/-! ### Strings -/

theorem hexVal_hexDigit : ∀ n < 16, hexVal (hexDigit n) = some n := by decide

theorem hex4_control (c : UInt8) (control : c < 32) :
    hex4 48 48 (hexDigit (c.toNat / 16)) (hexDigit (c.toNat % 16)) = some c.toNat := by
  have small : c.toNat < 32 := control
  have zero : hexVal 48 = some 0 := rfl
  simp only [hex4, zero, hexVal_hexDigit (c.toNat / 16) (by omega),
    hexVal_hexDigit (c.toNat % 16) (by omega), bind, Option.bind_some, pure, Option.some.injEq]
  omega

theorem encodeUtf8_ascii (c : UInt8) (ascii : c < 128) : encodeUtf8 c.toNat = [c] := by
  have small : c.toNat < 128 := ascii
  rw [encodeUtf8, if_pos (by omega)]
  simp

theorem strBody_quote (s : Bytes) : strBody (34 :: s) = some ([], s) := by
  rw [strBody.eq_def]
  rfl

theorem strBody_short {e decoded : UInt8} (short : shortEscape e = some decoded)
    (notUnicode : e ≠ 117) (s : Bytes) : strBody (92 :: e :: s) = prepend [decoded] (strBody s) := by
  have slash : ¬ (92 : UInt8) = 34 := by decide
  rw [strBody.eq_def]
  simp only [slash, if_false, if_true, notUnicode, short]

theorem strBody_plain {c : UInt8} (quote : c ≠ 34) (slash : c ≠ 92) (s : Bytes) :
    strBody (c :: s) = prepend [c] (strBody s) := by
  rw [strBody.eq_def]
  simp only [quote, slash, if_false]

theorem strBody_unicode {a b c d : UInt8} {cp : Nat} (hex : hex4 a b c d = some cp)
    (low : cp < 0xd800) (s : Bytes) :
    strBody (92 :: 117 :: a :: b :: c :: d :: s) = prepend (encodeUtf8 cp) (strBody s) := by
  have slash : ¬ (92 : UInt8) = 34 := by decide
  have notHigh : ¬ (0xd800 ≤ cp ∧ cp ≤ 0xdbff) := by omega
  rw [strBody.eq_def]
  simp only [slash, if_false, if_true, hex, notHigh]

/-- What the writer makes of a byte: a short escape, the four digits of another control
byte, or the byte itself. -/
theorem escapeByte_cases (c : UInt8) :
    (∃ e, escapeByte c = [92, e] ∧ shortEscape e = some c ∧ e ≠ 117 ∧ e < 128 ∧ c < 128) ∨
    (c < 32 ∧
      escapeByte c = [92, 117, 48, 48, hexDigit (c.toNat / 16), hexDigit (c.toNat % 16)]) ∨
    (c ≠ 34 ∧ c ≠ 92 ∧ escapeByte c = [c]) := by
  by_cases short : c ∈ [34, 92, 8, 12, 10, 13, 9]
  · left
    simp only [List.mem_cons, List.not_mem_nil, or_false] at short
    rcases short with rfl | rfl | rfl | rfl | rfl | rfl | rfl <;>
      exact ⟨_, rfl, rfl, by decide, by decide, by decide⟩
  · right
    simp only [List.mem_cons, List.not_mem_nil, or_false, not_or] at short
    obtain ⟨quote, slash, back, feed, line, carriage, tab⟩ := short
    rw [escapeByte, if_neg quote, if_neg slash, if_neg back, if_neg feed, if_neg line,
      if_neg carriage, if_neg tab]
    by_cases control : c < 32
    · exact Or.inl ⟨control, if_pos control⟩
    · exact Or.inr ⟨quote, slash, if_neg control⟩

theorem strBody_escapeByte (c : UInt8) (s : Bytes) :
    strBody (escapeByte c ++ s) = prepend [c] (strBody s) := by
  rcases escapeByte_cases c with ⟨e, written, short, notUnicode, -⟩ | ⟨control, written⟩ |
    ⟨quote, slash, written⟩
  · rw [written]
    exact strBody_short short notUnicode s
  · have small : c.toNat < 32 := control
    have ascii : c < 128 := UInt8.lt_trans control (by decide)
    rw [written, ← encodeUtf8_ascii c ascii]
    exact strBody_unicode (hex4_control c control) (by omega) s
  · rw [written]
    exact strBody_plain quote slash s

theorem prepend_some (decoded out rest : Bytes) :
    prepend decoded (some (out, rest)) = some (decoded ++ out, rest) := rfl

theorem strBody_escapeTo (s rest : Bytes) :
    strBody (s.flatMap escapeByte ++ 34 :: rest) = some (s, rest) := by
  induction s with
  | nil => exact strBody_quote rest
  | cons c s ih =>
    rw [List.flatMap_cons, List.append_assoc, strBody_escapeByte, ih, prepend_some,
      List.singleton_append]

theorem escapeTo_cons (s rest : Bytes) :
    escapeTo s ++ rest = 34 :: (s.flatMap escapeByte ++ 34 :: rest) := by
  simp [escapeTo]

/-! ### Numbers -/

theorem toSigned_zero {x : Finite} (isZero : x.isZero = true) :
    (Double.finite x).toSigned 64 = 0 := by
  simp [Double.toSigned, trunc_of_isZero isZero]

theorem dumpNum_of_not_finite {d : Double} (infinite : ¬ d.isFinite = true) :
    dumpNum d = printG17 d := by
  simp [dumpNum, infinite]

theorem dumpNum_of_isZero {x : Finite} (isZero : x.isZero = true) :
    dumpNum (.finite x) = printInt 0 := by
  have positive : (zero false).isZero = true := rfl
  rw [dumpNum, toSigned_zero isZero, ofInt_zero]
  simp [Double.isFinite, Double.eq, Double.absLt, isZero, positive, whole_of_isZero isZero]

theorem dumpNum_unsignedZero (d : Double) : dumpNum d.unsignedZero = dumpNum d := by
  cases d with
  | finite x =>
    by_cases isZero : x.isZero = true
    · rw [Double.unsignedZero, if_pos isZero, dumpNum_of_isZero isZero]
      exact dumpNum_of_isZero rfl
    · rw [Double.unsignedZero, if_neg isZero]
  | infinite neg => rfl
  | nan => rfl

/-- A printed finite number is a numeral that rounds to it. -/
theorem dumpNum_spells {d : Double} (finite : d.isFinite = true) :
    ∃ n, Spells (dumpNum d) n ∧ n.toDouble = d.unsignedZero := by
  cases d with
  | infinite neg => contradiction
  | nan => contradiction
  | finite x =>
    by_cases isZero : x.isZero = true
    · have value := (printInt_spells 0).strtod
      rw [strtod_printInt, Prod.mk.injEq] at value
      refine ⟨_, dumpNum_of_isZero isZero ▸ printInt_spells 0, ?_⟩
      rw [← value.1, ofInt_zero, Double.unsignedZero, if_pos isZero]
    rw [Double.unsignedZero, if_neg isZero]
    unfold dumpNum
    split
    · rename_i integral
      simp only [Bool.and_eq_true] at integral
      refine ⟨_, printInt_spells _, ?_⟩
      have value := (printInt_spells ((Double.finite x).toSigned 64)).strtod
      rw [strtod_printInt, Prod.mk.injEq] at value
      rw [← value.1]
      have same := integral.1.2
      cases back : ofInt ((Double.finite x).toSigned 64) with
      | infinite neg => rw [back] at same; contradiction
      | nan => rw [back] at same; contradiction
      | finite y =>
        rw [back] at same
        have equal : x = y := by simpa [Double.eq, isZero] using same
        rw [equal]
    · exact printG17_spells x

/-- What `strtod` makes of a printed finite number. -/
theorem strtod_dumpNum {d : Double} (finite : d.isFinite = true) :
    strtod (dumpNum d) = (d.unsignedZero, []) := by
  obtain ⟨n, spells, value⟩ := dumpNum_spells finite
  rw [spells.strtod, value]

theorem inNumber_eq : inNumber = isNumberChar := rfl

theorem dumpNum_chars {d : Double} (finite : d.isFinite = true) :
    ∀ c ∈ dumpNum d, inNumber c = true := by
  obtain ⟨n, spells, -⟩ := dumpNum_spells finite
  exact spells.chars

theorem dumpNum_starts {d : Double} (finite : d.isFinite = true) : StartsNumber (dumpNum d) := by
  obtain ⟨n, spells, -⟩ := dumpNum_spells finite
  exact spells.starts

/-- A rest that cannot be taken for the continuation of a number. -/
def Stops (rest : Bytes) : Prop := ∀ c ∈ rest.head?, inNumber c = false

theorem number_dumpNum {d : Double} (finite : d.isFinite = true) {rest : Bytes}
    (stops : Stops rest) : number (dumpNum d ++ rest) = some (.num d.unsignedZero, rest) := by
  have chars := dumpNum_chars finite
  have token : (dumpNum d ++ rest).takeWhile inNumber = dumpNum d ∧
      (dumpNum d ++ rest).dropWhile inNumber = rest := by
    rw [List.takeWhile_append_of_pos chars, List.dropWhile_append_of_pos chars]
    cases rest with
    | nil => simp
    | cons c rest =>
      have stop := stops c (by simp)
      simp [stop]
  obtain ⟨c, tail, text, -⟩ := dumpNum_starts finite
  have nonempty : dumpNum d ≠ [] := by simp [text]
  simp only [number, token.1, token.2, if_neg nonempty, strtod_dumpNum finite]

/-! ### Values -/

theorem ws_of_not {c : UInt8} (notWs : isWs c = false) (s : Bytes) : ws (c :: s) = c :: s := by
  simp [ws, notWs]

theorem reads_num {d : Double} (finite : d.isFinite = true) {rest : Bytes} (stops : Stops rest) :
    Reads .value (dumpNum d ++ rest) (.num d.unsignedZero) rest := by
  have scanned := number_dumpNum finite stops
  obtain ⟨c, t, text, start⟩ := dumpNum_starts finite
  rw [text, List.cons_append] at scanned ⊢
  exact .number (ws_of_not (number_start start).1 _) start scanned

theorem reads_str (s rest : Bytes) : Reads .value (escapeTo s ++ rest) (.str s) rest := by
  rw [escapeTo_cons]
  exact .text (ws_of_not rfl _) (strBody_escapeTo s rest)

theorem stops_cons {c : UInt8} (stop : inNumber c = false) (s : Bytes) : Stops (c :: s) := by
  simpa [Stops] using stop

theorem dumpItems_cons (v w : Value) (items : List Value) (rest : Bytes) :
    dumpItems true (v :: w :: items) ++ rest =
      dumpTo v ++ 44 :: (dumpItems true (w :: items) ++ rest) := by
  simp [dumpItems]

theorem dumpMembers_one (k : Bytes) (v : Value) (rest : Bytes) :
    dumpMembers true [(k, v)] ++ rest =
      34 :: (k.flatMap escapeByte ++ 34 :: 58 :: (dumpTo v ++ rest)) := by
  simp [dumpMembers, escapeTo]

theorem dumpMembers_cons (k : Bytes) (v : Value) (member : Bytes × Value)
    (members : List (Bytes × Value)) (rest : Bytes) :
    dumpMembers true ((k, v) :: member :: members) ++ rest =
      34 :: (k.flatMap escapeByte ++
        34 :: 58 :: (dumpTo v ++ 44 :: (dumpMembers true (member :: members) ++ rest))) := by
  simp [dumpMembers, escapeTo]

/-- Keys are printed in ascending order, so each of them is inserted last. -/
theorem insert_dumped {k : Bytes} {v : Value} {earlier members : List (Bytes × Value)}
    (sorted : (earlier.map Prod.fst ++ ((k, v) :: members).map Prod.fst).Pairwise (· < ·)) :
    OrderedMap.insert k v.unsignZeros earlier = earlier ++ [(k, v.unsignZeros)] := by
  apply OrderedMap.insert_last
  intro k' member
  exact (List.pairwise_append.mp sorted).2.2 k' member k (by simp)

mutual
/-- Printed text followed by a rest that stops numbers is read back to that rest. -/
theorem reads_dumpTo : ∀ (v : Value), v.Ordered → v.Finite → ∀ (rest : Bytes), Stops rest →
    Reads .value (dumpTo v ++ rest) v.unsignZeros rest
  | .null, _, _, _, _ => .wordNull rfl
  | .bool true, _, _, _, _ => .wordTrue rfl
  | .bool false, _, _, _, _ => .wordFalse rfl
  | .num d, _, finite, rest, stops => by
    rw [Value.Finite] at finite
    simpa only [dumpTo, Value.unsignZeros] using reads_num finite stops
  | .str s, _, _, rest, _ => by
    simpa only [dumpTo, Value.unsignZeros] using reads_str s rest
  | .arr [], _, _, _, _ => .emptyArray rfl rfl
  | .arr (v :: items), ordered, finite, rest, _ => by
    rw [Value.Ordered] at ordered
    rw [Value.Finite] at finite
    have text : dumpTo (.arr (v :: items)) ++ rest =
        91 :: (dumpItems true (v :: items) ++ 93 :: rest) := by
      simp [dumpTo]
    have inner := reads_dumpItems (v :: items) nofun ordered finite rest []
    rw [text, Value.unsignZeros]
    exact .array (ws_of_not rfl _) inner
  | .obj [], _, _, _, _ => .emptyObject rfl rfl
  | .obj ((k, v) :: members), ordered, finite, rest, _ => by
    rw [Value.Ordered] at ordered
    rw [Value.Finite] at finite
    have text : dumpTo (.obj ((k, v) :: members)) ++ rest =
        123 :: (dumpMembers true ((k, v) :: members) ++ 125 :: rest) := by
      simp [dumpTo]
    have inner := reads_dumpMembers ((k, v) :: members) nofun ordered.2 finite rest []
      (by simpa [OrderedMap.Ascending] using ordered.1)
    rw [text, Value.unsignZeros]
    exact .object (ws_of_not rfl _) inner

theorem reads_dumpItems : ∀ items : List Value, items ≠ [] → Value.OrderedItems items →
    Value.FiniteItems items → ∀ (rest : Bytes) earlier,
    Reads (.items earlier) (dumpItems true items ++ 93 :: rest)
      (.arr (earlier ++ Value.unsignItems items)) rest
  | [v], _, ordered, finite, rest, earlier => by
    rw [Value.OrderedItems] at ordered
    rw [Value.FiniteItems] at finite
    have here := reads_dumpTo v ordered.1 finite.1 (93 :: rest) (stops_cons rfl _)
    simp only [dumpItems, if_true, List.nil_append, List.append_nil, Value.unsignItems]
    exact .lastItem here (ws_of_not rfl _)
  | v :: w :: items, _, ordered, finite, rest, earlier => by
    rw [Value.OrderedItems] at ordered
    rw [Value.FiniteItems] at finite
    have here := reads_dumpTo v ordered.1 finite.1
      (44 :: (dumpItems true (w :: items) ++ 93 :: rest)) (stops_cons rfl _)
    have others := reads_dumpItems (w :: items) nofun ordered.2 finite.2 rest (earlier ++ [v.unsignZeros])
    rw [List.append_assoc, List.singleton_append] at others
    rw [dumpItems_cons, Value.unsignItems]
    exact .item here (ws_of_not rfl _) others

theorem reads_dumpMembers : ∀ members : List (Bytes × Value), members ≠ [] →
    Value.OrderedMembers members → Value.FiniteMembers members → ∀ (rest : Bytes) earlier,
    (earlier.map Prod.fst ++ members.map Prod.fst).Pairwise (· < ·) →
    Reads (.members earlier) (dumpMembers true members ++ 125 :: rest)
      (.obj (earlier ++ Value.unsignMembers members)) rest
  | [(k, v)], _, ordered, finite, rest, earlier, sorted => by
    rw [Value.OrderedMembers] at ordered
    rw [Value.FiniteMembers] at finite
    have here := reads_dumpTo v ordered.1 finite.1 (125 :: rest) (stops_cons rfl _)
    rw [dumpMembers_one, Value.unsignMembers, Value.unsignMembers, ← insert_dumped sorted]
    exact .lastMember (ws_of_not rfl _) (strBody_escapeTo k _) (ws_of_not rfl _) here
      (ws_of_not rfl _)
  | (k, v) :: member :: members, _, ordered, finite, rest, earlier, sorted => by
    rw [Value.OrderedMembers] at ordered
    rw [Value.FiniteMembers] at finite
    have here := reads_dumpTo v ordered.1 finite.1
      (44 :: (dumpMembers true (member :: members) ++ 125 :: rest)) (stops_cons rfl _)
    have others := reads_dumpMembers (member :: members) nofun ordered.2 finite.2 rest
      (earlier ++ [(k, v.unsignZeros)]) (by simpa using sorted)
    rw [List.append_assoc, List.singleton_append, ← insert_dumped sorted] at others
    rw [dumpMembers_cons, Value.unsignMembers]
    exact .member (ws_of_not rfl _) (strBody_escapeTo k _) (ws_of_not rfl _) here
      (ws_of_not rfl _) others
end

mutual
/-- Zeros of both signs are written alike. -/
theorem dumpTo_unsignZeros : ∀ v : Value, dumpTo v.unsignZeros = dumpTo v
  | .null | .bool _ | .str _ => rfl
  | .num d => by simp only [Value.unsignZeros, dumpTo, dumpNum_unsignedZero]
  | .arr items => by simp only [Value.unsignZeros, dumpTo, dumpItems_unsignItems]
  | .obj members => by simp only [Value.unsignZeros, dumpTo, dumpMembers_unsignMembers]

theorem dumpItems_unsignItems : ∀ (first : Bool) (items : List Value),
    dumpItems first (Value.unsignItems items) = dumpItems first items
  | _, [] => rfl
  | _, v :: items => by
    simp only [Value.unsignItems, dumpItems, dumpTo_unsignZeros v,
      dumpItems_unsignItems false items]

theorem dumpMembers_unsignMembers : ∀ (first : Bool) (members : List (Bytes × Value)),
    dumpMembers first (Value.unsignMembers members) = dumpMembers first members
  | _, [] => rfl
  | _, (k, v) :: members => by
    simp only [Value.unsignMembers, dumpMembers, dumpTo_unsignZeros v,
      dumpMembers_unsignMembers false members]
end

/-- The parser returns the written value, with positive zeros. -/
theorem parse_dump {v : Value} (ordered : v.Ordered) (finite : v.Finite) :
    parse (dump v) = some v.unsignZeros := by
  have reads := reads_dumpTo v ordered finite [] (by simp [Stops])
  rw [List.append_nil] at reads
  exact parse_iff.mpr ⟨[], reads, rfl⟩

mutual
theorem unsignZeros_eq : ∀ {v : Value}, v.Finite → v.unsignZeros.eq v = true
  | .null, _ => rfl
  | .bool b, _ => by simp [Value.unsignZeros, Value.eq]
  | .num d, finite => by
    rw [Value.Finite] at finite
    simpa [Value.unsignZeros, Value.eq] using unsignedZero_eq finite
  | .str s, _ => by simp [Value.unsignZeros, Value.eq]
  | .arr items, finite => by
    rw [Value.Finite] at finite
    simpa [Value.unsignZeros, Value.eq] using unsignItems_eq finite
  | .obj members, finite => by
    rw [Value.Finite] at finite
    simpa [Value.unsignZeros, Value.eq] using unsignMembers_eq finite

theorem unsignItems_eq : ∀ {items : List Value}, Value.FiniteItems items →
    Value.eqItems (Value.unsignItems items) items = true
  | [], _ => rfl
  | v :: items, finite => by
    rw [Value.FiniteItems] at finite
    simp [Value.unsignItems, Value.eqItems, unsignZeros_eq finite.1, unsignItems_eq finite.2]

theorem unsignMembers_eq : ∀ {members : List (Bytes × Value)}, Value.FiniteMembers members →
    Value.eqMembers (Value.unsignMembers members) members = true
  | [], _ => rfl
  | (k, v) :: members, finite => by
    rw [Value.FiniteMembers] at finite
    simp [Value.unsignMembers, Value.eqMembers, unsignZeros_eq finite.1,
      unsignMembers_eq finite.2]
end

/-- A value whose numbers are finite comes back from the codec equal to itself. -/
theorem parse_dump_eq {v : Value} (ordered : v.Ordered) (finite : v.Finite) :
    ∃ w, parse (dump v) = some w ∧ w.eq v = true :=
  ⟨v.unsignZeros, parse_dump ordered finite, unsignZeros_eq finite⟩

/-- A control byte in a key, a quote and a byte above `0x7f` in a string, and a
negative zero. -/
theorem parse_dump_eq_mixed :
    ∃ w, parse (dump (.obj [([0, 10], .arr [.num (.finite (zero true)), .null]),
      ([34, 200], .str [92, 34, 255])])) = some w ∧
      w.eq (.obj [([0, 10], .arr [.num (.finite (zero true)), .null]),
        ([34, 200], .str [92, 34, 255])]) = true :=
  parse_dump_eq (by simp [Value.Ordered, Value.OrderedMembers, Value.OrderedItems,
    OrderedMap.Ascending]; decide) (by simp [Value.Finite, Value.FiniteMembers, Value.FiniteItems,
    Double.isFinite])

end StreamEngine.Json
