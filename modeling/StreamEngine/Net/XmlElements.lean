import StreamEngine.Library.Segments
import StreamEngine.Net.XmlProofs

/-! Reading one element among flat siblings. Every tag begins a stretch of text up to the next one,
and a stretch that opens another name is passed over. -/
namespace StreamEngine.Net
open ByteString

variable {tag name pre rest s t : Bytes} {pos : Nat}

/-! ### Start tags -/

/-- A start tag of this name. -/
def StartTag (tag s : Bytes) : Prop := ∃ c u, s = 60 :: (tag ++ c :: u) ∧ endsName c = true

theorem startTag_marked : Marked 60 (StartTag tag) := by
  rintro s ⟨c, u, rfl, -⟩
  rfl

theorem startTag_iff :
    ((60 :: tag).isPrefixOf s && (s.drop (60 :: tag).length).head?.any endsName) = true ↔
      StartTag tag s := by
  rw [Bool.and_eq_true, List.isPrefixOf_iff_prefix]
  constructor
  · rintro ⟨⟨u, rfl⟩, ends⟩
    rw [List.drop_left] at ends
    cases u with
    | nil => contradiction
    | cons c u => exact ⟨c, u, rfl, ends⟩
  · rintro ⟨c, u, rfl, ends⟩
    refine ⟨⟨c :: u, rfl⟩, ?_⟩
    rw [← List.cons_append, List.drop_left]
    exact ends

theorem findStartTagFrom_here (here : StartTag tag s) :
    findStartTagFrom (60 :: tag) pos s = some pos := by
  cases s with
  | nil => exact absurd (startTag_marked _ here) nofun
  | cons c s => rw [findStartTagFrom, if_pos (startTag_iff.mpr here)]

theorem findStartTagFrom_skip (clear : Clear 60 (StartTag tag) s) (next : AtMark 60 rest) :
    findStartTagFrom (60 :: tag) pos (s ++ rest) =
      findStartTagFrom (60 :: tag) (pos + s.length) rest := by
  induction s generalizing pos with
  | nil => rfl
  | cons c s ih =>
    have other := clear rest next (c :: s) List.suffix_rfl (List.cons_ne_nil c s)
    have later : Clear 60 (StartTag tag) s := fun r after v suffix =>
      clear r after v (suffix.trans (List.suffix_cons c s))
    rw [List.cons_append] at other ⊢
    rw [findStartTagFrom, if_neg (mt startTag_iff.mp other), ih later, List.length_cons,
      Nat.add_right_comm, Nat.add_assoc]

theorem findStartTagFrom_clear (clear : Clear 60 (StartTag tag) s) :
    findStartTagFrom (60 :: tag) pos s = none := by
  have skipped : findStartTagFrom (60 :: tag) pos (s ++ []) = none :=
    findStartTagFrom_skip clear atMark_nil
  rwa [List.append_nil] at skipped

/-! ### Names -/

/-- No byte of a name ends it, or begins a tag. -/
def IsName (name : Bytes) : Prop := ∀ c ∈ name, endsName c = false ∧ c ≠ 60

theorem IsName.takeWhile (named : IsName name) {c : UInt8} (ends : endsName c = true) (u : Bytes) :
    (name ++ c :: u).takeWhile (fun d => !endsName d) = name := by
  rw [List.takeWhile_append_of_pos fun d member => by rw [(named d member).1]; rfl,
    List.takeWhile_cons_of_neg (by rw [ends]; decide), List.append_nil]

/-- A name is known by its end. -/
theorem IsName.unique (named : IsName name) (tagNamed : IsName tag) {c d : UInt8} {u v : Bytes}
    (cEnds : endsName c = true) (dEnds : endsName d = true) (same : name ++ c :: u = tag ++ d :: v) :
    name = tag := by
  rw [← named.takeWhile cEnds u, same, tagNamed.takeWhile dEnds]

theorem IsName.free (named : IsName name) {c : UInt8} (ends : endsName c = true) : c ∉ name := by
  intro member
  rw [(named c member).1] at ends
  contradiction

theorem not_startTag_of_name (named : IsName name) (tagNamed : IsName tag) (other : name ≠ tag)
    {c : UInt8} (ends : endsName c = true) (u : Bytes) : ¬ StartTag tag (60 :: (name ++ c :: u)) := by
  rintro ⟨d, v, same, dEnds⟩
  exact other (named.unique tagNamed ends dEnds (List.cons.inj same).2)

/-- A tag that begins with another byte. -/
theorem not_startTag_of_head {c : UInt8} (named : tag ≠ []) (other : tag.head? ≠ some c) (u : Bytes) :
    ¬ StartTag tag (60 :: c :: u) := by
  rintro ⟨d, v, same, -⟩
  cases tag with
  | nil => exact named rfl
  | cons b tag =>
    have first := (List.cons.inj (List.cons.inj same).2).1
    exact other (congrArg some first.symm)

/-- The name in a tag that is looked for. -/
structure IsTag (tag : Bytes) : Prop where
  named : IsName tag
  nonempty : tag ≠ []

theorem IsTag.head (isTag : IsTag tag) {c : UInt8} (ends : endsName c = true) :
    tag.head? ≠ some c := fun head =>
  isTag.named.free ends (List.mem_of_mem_head? head)

/-! ### Elements -/

/-- `<name>content</name>` and the text up to the next tag. -/
structure Element where
  name : Bytes
  content : Bytes
  gap : Bytes
  named : IsName name
  flat : 60 ∉ content
  spaced : 60 ∉ gap

def Element.text (e : Element) : Bytes :=
  60 :: (e.name ++ 62 :: e.content) ++ 60 :: (47 :: (e.name ++ 62 :: e.gap))

theorem Element.atMark (e : Element) : AtMark 60 e.text := by
  rw [Element.text, List.cons_append]
  exact atMark_cons

theorem Element.open_free (e : Element) : 60 ∉ e.name ++ 62 :: e.content := by
  have name : 60 ∉ e.name := fun member => (e.named 60 member).2 rfl
  simp [name, e.flat]

theorem Element.close_free (e : Element) : 60 ∉ 47 :: (e.name ++ 62 :: e.gap) := by
  have name : 60 ∉ e.name := fun member => (e.named 60 member).2 rfl
  simp [name, e.spaced]

/-- An element of another name opens nothing. -/
theorem Element.clear_start (e : Element) (isTag : IsTag tag) (other : e.name ≠ tag) :
    Clear 60 (StartTag tag) e.text := by
  refine Clear.append (clear_segment startTag_marked e.open_free fun rest _ => ?_)
    (clear_segment startTag_marked e.close_free fun rest _ => ?_) atMark_cons
  · rw [List.append_assoc, List.cons_append]
    exact not_startTag_of_name e.named isTag.named other rfl _
  · exact not_startTag_of_head isTag.nonempty (isTag.head rfl) _

/-- The end tag of `tag`, with nothing behind the name. -/
def endTag (tag : Bytes) : Bytes := 60 :: 47 :: (tag ++ [62])

theorem Element.clear_end (e : Element) (isTag : IsTag tag) (other : e.name ≠ tag) :
    Clear 60 (endTag tag <+: ·) e.text := by
  have marked : Marked 60 (endTag tag <+: ·) := marked_needle rfl
  refine Clear.append (clear_segment marked e.open_free fun rest _ => ?_)
    (clear_segment marked e.close_free fun rest _ => ?_) atMark_cons
  · rintro ⟨u, same⟩
    have second := congrArg (fun s => s.drop 1 |>.head?) same
    rw [List.append_assoc, List.cons_append] at second
    cases name : e.name with
    | nil => simp [endTag, name] at second
    | cons c tail =>
      have first : 47 = c := by simpa [endTag, name] using second
      exact e.named.free (c := 47) rfl (name ▸ first ▸ List.mem_cons_self)
  · rintro ⟨u, same⟩
    rw [endTag, List.cons_append, List.cons_append, List.cons_append, List.append_assoc,
      List.append_assoc, List.cons_append] at same
    have names := (List.cons.inj (List.cons.inj same).2).2
    exact other (isTag.named.unique e.named rfl rfl names).symm

/-! ### The text of an element -/

theorem xmlText_clear (clear : Clear 60 (StartTag tag) s) : xmlText s tag = [] := by
  rw [xmlText, findStartTag, findStartTagFrom_clear clear]

/-- A tag up to its end, with what stands between its name and its end. -/
def tagBody (tag inner : Bytes) : Bytes := 60 :: (tag ++ inner)

variable {inner : Bytes}

theorem find_tagEnd (isTag : IsTag tag) (free : 62 ∉ inner) (rest : Bytes) :
    find (pre ++ (tagBody tag inner ++ 62 :: rest)) [62] pre.length =
      some (pre.length + (tagBody tag inner).length) := by
  have unended : 62 ∉ tagBody tag inner := by
    simp [tagBody, isTag.named.free (c := 62) rfl, free]
  have shape : pre ++ (tagBody tag inner ++ 62 :: rest) =
      pre ++ tagBody tag inner ++ [62] ++ rest := by simp
  rw [shape]
  exact find_end rfl unended

theorem getElem?_tagBody (rest : Bytes) :
    (pre ++ (tagBody tag inner ++ rest))[pre.length + (tagBody tag inner).length - 1]? =
      (tagBody tag inner).getLast? := by
  have some_ : 0 < (tagBody tag inner).length := Nat.zero_lt_succ _
  have position : pre.length + (tagBody tag inner).length - 1 - pre.length =
      (tagBody tag inner).length - 1 := by omega
  rw [List.getElem?_append_right (by omega), position, List.getElem?_append_left (by omega),
    List.getLast?_eq_getElem?]

/-- The text ends with a tag that does not close itself. -/
theorem opensAtEnd (isTag : IsTag tag) (clear : Clear 60 (StartTag tag) pre)
    (opens : StartTag tag (tagBody tag inner ++ [62])) (free : 62 ∉ inner)
    (unclosed : (tagBody tag inner).getLast? ≠ some 47) :
    OpensAtEnd (pre ++ (tagBody tag inner ++ [62])) tag := by
  have start : findStartTag (pre ++ (tagBody tag inner ++ [62])) tag = some pre.length := by
    have mark : AtMark 60 (tagBody tag inner ++ [62]) := atMark_cons
    rw [findStartTag, findStartTagFrom_skip clear mark, Nat.zero_add]
    exact findStartTagFrom_here opens
  refine ⟨pre.length, _, start, find_tagEnd isTag free [], ?_, ?_⟩
  · simp only [List.length_append, List.length_singleton, Nat.add_assoc]
  · rwa [getElem?_tagBody]

theorem Element.opensAtEnd (isTag : IsTag tag) (clear : Clear 60 (StartTag tag) pre) :
    OpensAtEnd (pre ++ (tagBody tag [] ++ [62])) tag := by
  refine Net.opensAtEnd isTag clear ⟨62, [], by simp [tagBody], rfl⟩ List.not_mem_nil ?_
  -- The byte before the end of the tag is the last one of its name.
  obtain ⟨name, c, rfl⟩ := (List.eq_nil_or_concat tag).resolve_left isTag.nonempty
  have shape : tagBody (name.concat c) [] = 60 :: name ++ [c] := by simp [tagBody]
  rw [shape, List.getLast?_concat, Ne, Option.some.injEq]
  rintro rfl
  exact isTag.named.free (c := 47) rfl (by simp)

/-- The contents of the children of this name, in order. -/
def childContents (tag : Bytes) (children : List Element) : List Bytes :=
  (children.filter fun e => e.name = tag).map Element.content

/-- The first child of a name is read, whatever stands before it. -/
theorem xmlText_children (isTag : IsTag tag) (clear : Clear 60 (StartTag tag) pre)
    (children : List Element) : xmlText (pre ++ children.flatMap Element.text) tag =
      decodeEntities ((childContents tag children).headD []) := by
  induction children generalizing pre with
  | nil =>
    rw [List.flatMap_nil, List.append_nil, xmlText_clear clear]
    rfl
  | cons e children ih =>
    rw [List.flatMap_cons]
    by_cases same : e.name = tag
    · have shape : pre ++ (e.text ++ children.flatMap Element.text) =
          (pre ++ (tagBody tag [] ++ [62])) ++ e.content ++ (60 :: 47 :: tag) ++
            (62 :: e.gap ++ children.flatMap Element.text) := by
        simp [Element.text, tagBody, same]
      have first : childContents tag (e :: children) = e.content :: childContents tag children := by
        simp [childContents, same]
      rw [shape, xmlText_element (Element.opensAtEnd isTag clear) e.flat, first]
      rfl
    · have rest : childContents tag (e :: children) = childContents tag children := by
        simp [childContents, same]
      rw [← List.append_assoc, ih (clear.append (e.clear_start isTag same) e.atMark), rest]

end StreamEngine.Net
