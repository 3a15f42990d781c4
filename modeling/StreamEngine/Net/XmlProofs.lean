import StreamEngine.Library.Occurrence
import StreamEngine.Net.Xml

/-! Reading back what a host writes. Hexadecimal text holds none of the bytes that end a
value, so an element with such a text is read back whole, and what was read from the
beginning of a document does not depend on the rest. -/
namespace StreamEngine.Net
open ByteString

variable {doc rest tag attr v : Bytes}

/-! ### Hexadecimal text -/

/-- The digits of `to_hex`. -/
def IsHexText (v : Bytes) : Prop := ∀ c ∈ v, isDigit c = true ∨ 97 ≤ c ∧ c ≤ 102

theorem hexVal_hexDigit {n : Nat} (small : n < 16) : hexVal (hexDigit n) = some n := by
  have all : ∀ n : Fin 16, hexVal (hexDigit n) = some n.val := by decide
  exact all ⟨n, small⟩

theorem hexDigit_isHex {n : Nat} (small : n < 16) :
    isDigit (hexDigit n) = true ∨ 97 ≤ hexDigit n ∧ hexDigit n ≤ 102 := by
  have all : ∀ n : Fin 16, isDigit (hexDigit n) = true ∨ 97 ≤ hexDigit n ∧ hexDigit n ≤ 102 := by
    decide
  exact all ⟨n, small⟩

theorem byte_halves (c : UInt8) : (c.toNat / 16 * 16 + c.toNat % 16).toUInt8 = c := by
  rw [Nat.div_add_mod']
  exact UInt8.ofNat_toNat

theorem toHex_cons (c : UInt8) (bytes : Bytes) :
    toHex (c :: bytes) = hexDigit (c.toNat / 16) :: hexDigit (c.toNat % 16) :: toHex bytes := rfl

theorem toHex_isHexText (bytes : Bytes) : IsHexText (toHex bytes) := by
  induction bytes with
  | nil => exact nofun
  | cons c bytes ih =>
    have bound := c.toNat_lt
    intro digit member
    rw [toHex_cons] at member
    cases member with
    | head => exact hexDigit_isHex (by omega)
    | tail _ member =>
      cases member with
      | head => exact hexDigit_isHex (by omega)
      | tail _ member => exact ih digit member

theorem fromHexPairs_toHex (bytes : Bytes) : fromHexPairs (toHex bytes) = some bytes := by
  induction bytes with
  | nil => rfl
  | cons c bytes ih =>
    have bound := c.toNat_lt
    have high : hexVal (hexDigit (c.toNat / 16)) = some (c.toNat / 16) := hexVal_hexDigit (by omega)
    have low : hexVal (hexDigit (c.toNat % 16)) = some (c.toNat % 16) := hexVal_hexDigit (by omega)
    rw [toHex_cons, fromHexPairs, high, low, ih]
    simp only [byte_halves]

theorem fromHex_toHex (bytes : Bytes) : fromHex (toHex bytes) = bytes := by
  rw [fromHex, fromHexPairs_toHex, Option.getD_some]

theorem IsHexText.free (hex : IsHexText v) {c : UInt8} (digit : isDigit c = false)
    (letter : ¬ (97 ≤ c ∧ c ≤ 102)) : c ∉ v := by
  intro member
  rcases hex c member with isDigit | isLetter
  · rw [digit] at isDigit
    contradiction
  · exact letter isLetter

/-! ### Documents that continue -/

/-- A name that starts here and ends inside the text. -/
theorem startTag_append (needle text rest : Bytes) (long : needle.length < text.length) :
    (needle.isPrefixOf (text ++ rest) &&
      ((text ++ rest).drop needle.length).head?.any endsName) =
    (needle.isPrefixOf text && (text.drop needle.length).head?.any endsName) := by
  have same : needle.isPrefixOf (text ++ rest) = needle.isPrefixOf text := by
    rw [Bool.eq_iff_iff, List.isPrefixOf_iff_prefix, List.isPrefixOf_iff_prefix]
    exact prefix_drop_append (i := 0) (by omega)
  have next : ((text ++ rest).drop needle.length).head? = (text.drop needle.length).head? := by
    rw [List.head?_drop, List.head?_drop, List.getElem?_append_left long]
  rw [same, next]

theorem findStartTagFrom_fits {needle : Bytes} {pos start : Nat} {s : Bytes}
    (found : findStartTagFrom needle pos s = some start) :
    pos ≤ start ∧ start + needle.length < pos + s.length := by
  induction s generalizing pos with
  | nil => contradiction
  | cons c s ih =>
    rw [findStartTagFrom] at found
    split at found
    · rename_i here
      cases found
      have ends := (Bool.and_eq_true_iff.mp here).2
      refine ⟨le_refl _, Nat.add_lt_add_left ?_ _⟩
      by_contra short
      rw [List.drop_eq_nil_of_le (not_lt.mp short)] at ends
      contradiction
    · have later := ih found
      rw [List.length_cons]
      omega

theorem findStartTagFrom_append {needle : Bytes} {pos start : Nat} {s : Bytes}
    (found : findStartTagFrom needle pos s = some start) :
    findStartTagFrom needle pos (s ++ rest) = some start := by
  induction s generalizing pos with
  | nil => contradiction
  | cons c s ih =>
    have fits := findStartTagFrom_fits found
    have same := startTag_append needle (c :: s) rest (by omega)
    rw [List.cons_append] at same ⊢
    rw [findStartTagFrom, same]
    rw [findStartTagFrom] at found
    split
    · rename_i here
      rwa [if_pos here] at found
    · rename_i other
      rw [if_neg other] at found
      exact ih found

theorem findStartTag_append {start : Nat} (found : findStartTag doc tag = some start) :
    findStartTag (doc ++ rest) tag = some start := findStartTagFrom_append found

theorem substr_append {pos len : Nat} (inside : pos + len ≤ doc.length) :
    substr (doc ++ rest) pos len = substr doc pos len := by
  rw [substr, List.drop_append_of_le_length (by omega),
    List.take_append_of_le_length (by rw [List.length_drop]; omega), substr]

/-- Where `xml_text` reads: from behind the start tag to the end tag. -/
def xmlSpan (xml tag : Bytes) : Option (Nat × Nat) :=
  match findStartTag xml tag with
  | none => none
  | some start =>
    match find xml [62] start with
    | none => none
    | some gt =>
      if xml[gt - 1]? = some 47 then none
      else (find xml (60 :: 47 :: tag) (gt + 1)).map fun close => (gt + 1, close)

theorem xmlText_eq (xml tag : Bytes) : xmlText xml tag =
    ((xmlSpan xml tag).map fun r => decodeEntities (substr xml r.1 (r.2 - r.1))).getD [] := by
  rw [xmlText, xmlSpan]
  cases startsAt : findStartTag xml tag with
  | none => rfl
  | some start =>
    cases endsAt : find xml [62] start with
    | none => simp only [endsAt, Option.map_none, Option.getD_none]
    | some gt =>
      simp only [endsAt]
      by_cases slash : xml[gt - 1]? = some 47
      · rw [if_pos slash, if_pos slash]
        rfl
      · rw [if_neg slash, if_neg slash]
        cases find xml (60 :: 47 :: tag) (gt + 1) <;> rfl

/-- The parts of a read: start tag, its end, and end tag. -/
theorem xmlSpan_eq_some {a c : Nat} : xmlSpan doc tag = some (a, c) ↔
    ∃ start gt, findStartTag doc tag = some start ∧ find doc [62] start = some gt ∧
      doc[gt - 1]? ≠ some 47 ∧ find doc (60 :: 47 :: tag) a = some c ∧ gt + 1 = a := by
  rw [xmlSpan]
  constructor
  · intro found
    cases startsAt : findStartTag doc tag with
    | none => simp [startsAt] at found
    | some start =>
      cases endsAt : find doc [62] start with
      | none => simp [startsAt, endsAt] at found
      | some gt =>
        simp only [startsAt, endsAt] at found
        split at found
        · contradiction
        · rename_i unclosed
          obtain ⟨close, closesAt, same⟩ := Option.map_eq_some_iff.mp found
          obtain ⟨rfl, rfl⟩ := Prod.mk.inj same
          exact ⟨start, gt, rfl, endsAt, unclosed, closesAt, rfl⟩
  · rintro ⟨start, gt, startsAt, endsAt, unclosed, closesAt, rfl⟩
    simp only [startsAt, endsAt, if_neg unclosed, closesAt, Option.map_some]

theorem xmlSpan_append {r : Nat × Nat} (found : xmlSpan doc tag = some r) :
    xmlSpan (doc ++ rest) tag = some r := by
  obtain ⟨start, gt, startsAt, endsAt, unclosed, closesAt, last⟩ := xmlSpan_eq_some.mp found
  have inside := find_bound endsAt
  rw [List.length_singleton] at inside
  have before : (doc ++ rest)[gt - 1]? = doc[gt - 1]? := List.getElem?_append_left (by omega)
  exact xmlSpan_eq_some.mpr ⟨start, gt, findStartTag_append startsAt, find_append endsAt,
    before ▸ unclosed, find_append closesAt, last⟩

/-- A text that was found does not depend on what follows. -/
theorem xmlText_append (found : xmlText doc tag ≠ []) :
    xmlText (doc ++ rest) tag = xmlText doc tag := by
  rw [xmlText_eq] at found
  cases span : xmlSpan doc tag with
  | none =>
    rw [span] at found
    exact absurd rfl found
  | some r =>
    obtain ⟨start, gt, -, -, -, closesAt, -⟩ := xmlSpan_eq_some.mp span
    have inside := find_bound closesAt
    rw [xmlText_eq, xmlText_eq, xmlSpan_append span, span]
    exact congrArg decodeEntities (substr_append (by omega))

/-- An attribute that was found does not depend on what follows. -/
theorem xmlAttr_append (found : xmlAttr doc tag attr ≠ []) :
    xmlAttr (doc ++ rest) tag attr = xmlAttr doc tag attr := by
  unfold xmlAttr at found ⊢
  cases startsAt : findStartTag doc tag with
  | none => simp [startsAt] at found
  | some start =>
    cases endsAt : find doc [62] start with
    | none => simp [startsAt, endsAt] at found
    | some gt =>
      have inside := find_bound endsAt
      have head : substr (doc ++ rest) start (gt - start) = substr doc start (gt - start) :=
        substr_append (by omega)
      simp only [findStartTag_append startsAt, find_append endsAt, head, endsAt]

/-! ### Elements with a plain text -/

theorem entity_none {c : UInt8} (other : c ≠ 38) (s : Bytes) : entity (c :: s) = none := by
  have differs : ∀ name : Bytes, name.head? = some 38 → name.isPrefixOf (c :: s) = false := by
    intro name head
    obtain ⟨tail, rfl⟩ := List.head?_eq_some_iff.mp head
    simp [List.isPrefixOf, other.symm]
  simp only [entity, differs (ascii "&amp;") rfl, differs (ascii "&lt;") rfl,
    differs (ascii "&gt;") rfl, differs (ascii "&quot;") rfl, differs (ascii "&apos;") rfl,
    Bool.false_eq_true, if_false]

theorem decodeEntities_cons {c : UInt8} (other : c ≠ 38) (s : Bytes) :
    decodeEntities (c :: s) = c :: decodeEntities s := by
  rw [decodeEntities, decodeEntitiesFrom, entity_none other]
  rfl

theorem decodeEntities_plain (plain : 38 ∉ v) : decodeEntities v = v := by
  induction v with
  | nil => rfl
  | cons c v ih =>
    have other : c ≠ 38 := fun same => plain (same ▸ List.mem_cons_self)
    rw [decodeEntities_cons other, ih fun member => plain (List.mem_cons_of_mem _ member)]

/-- The text ends with the start tag of the first element of this name. -/
def OpensAtEnd (doc tag : Bytes) : Prop :=
  ∃ start gt, findStartTag doc tag = some start ∧ find doc [62] start = some gt ∧
    gt + 1 = doc.length ∧ doc[gt - 1]? ≠ some 47

/-- The text between a start tag at the end of `doc` and the next end tag. -/
theorem xmlText_element (opened : OpensAtEnd doc tag) (text : 60 ∉ v) :
    xmlText (doc ++ v ++ (60 :: 47 :: tag) ++ rest) tag = decodeEntities v := by
  obtain ⟨start, gt, startsAt, endsAt, last, unclosed⟩ := opened
  have shape : doc ++ v ++ (60 :: 47 :: tag) ++ rest = doc ++ (v ++ (60 :: 47 :: tag) ++ rest) := by
    simp only [List.append_assoc]
  have close : find (doc ++ v ++ (60 :: 47 :: tag) ++ rest) (60 :: 47 :: tag) (gt + 1) =
      some (doc.length + v.length) := by
    rw [last]
    exact find_end rfl text
  have before : (doc ++ (v ++ (60 :: 47 :: tag) ++ rest))[gt - 1]? = doc[gt - 1]? :=
    List.getElem?_append_left (by omega)
  have value : substr (doc ++ (v ++ (60 :: 47 :: tag) ++ rest)) (gt + 1)
      (doc.length + v.length - (gt + 1)) = v := by
    rw [last, Nat.add_sub_cancel_left, substr, List.drop_left, List.append_assoc, List.take_left]
  rw [shape] at close ⊢
  simp only [xmlText, findStartTag_append startsAt, find_append endsAt, close, before,
    if_neg unclosed, value]

theorem xmlText_value (opened : OpensAtEnd doc tag) (text : 60 ∉ v) (plain : 38 ∉ v) :
    xmlText (doc ++ v ++ (60 :: 47 :: tag) ++ rest) tag = v := by
  rw [xmlText_element opened text, decodeEntities_plain plain]

/-- A hexadecimal text is read back. -/
theorem xmlTextHex_toHex (opened : OpensAtEnd doc tag) (bytes : Bytes) :
    xmlTextHex (doc ++ toHex bytes ++ (60 :: 47 :: tag) ++ rest) tag = bytes := by
  have hex := toHex_isHexText bytes
  rw [xmlTextHex, xmlText_value opened (hex.free (by decide) (by decide))
    (hex.free (by decide) (by decide)), fromHex_toHex]

end StreamEngine.Net
