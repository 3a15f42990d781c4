import StreamEngine.Net.XmlElements

/-! Start tags with attributes, and where an attribute is looked for. The text of a tag is searched up
to its first `>`, without telling names from values. -/
namespace StreamEngine.Net
open ByteString

variable {pre rest s : Bytes} {c : UInt8}

/-! ### Tags -/

/-- A byte of an attribute name. -/
def isAttributeByte (c : UInt8) : Bool :=
  !endsName c && c != 34 && c != 38 && c != 39 && c != 60 && c != 61

/-- ` name="value"`, with the blanks that may stand around the equals sign. -/
structure Attribute where
  space : Bytes
  name : Bytes
  beforeEq : Bytes
  afterEq : Bytes
  quote : UInt8
  value : Bytes
  spaced : space ≠ []
  areBlank : ∀ c ∈ space ++ beforeEq ++ afterEq, isSpace c = true
  nonempty : name ≠ []
  named : ∀ c ∈ name, isAttributeByte c = true
  isQuote : quote = 34 ∨ quote = 39
  inside : quote ∉ value ∧ 60 ∉ value

/-- From the equals sign on. -/
def Attribute.assigned (a : Attribute) : Bytes :=
  61 :: (a.afterEq ++ a.quote :: (a.value ++ [a.quote]))

def Attribute.text (a : Attribute) : Bytes := a.space ++ (a.name ++ (a.beforeEq ++ a.assigned))

/-- `<name attributes>` or `<name attributes/>`. -/
structure OpenTag where
  name : Bytes
  attributes : List Attribute
  blanks : Bytes
  selfClosing : Bool
  isTag : IsTag name
  areBlank : ∀ c ∈ blanks, isSpace c = true

/-- Between the name and the end. -/
def OpenTag.inner (t : OpenTag) : Bytes :=
  t.attributes.flatMap Attribute.text ++ (t.blanks ++ if t.selfClosing then [47] else [])

def OpenTag.text (t : OpenTag) : Bytes := 60 :: (t.name ++ (t.inner ++ [62]))

theorem endsName_of_isSpace (space : isSpace c = true) : endsName c = true := by
  rw [endsName, space, Bool.or_true]

theorem head_ends (blank : ∀ c ∈ s, isSpace c = true)
    (next : ∃ c u, rest = c :: u ∧ endsName c = true) :
    ∃ c u, s ++ rest = c :: u ∧ endsName c = true := by
  cases s with
  | nil => exact next
  | cons c s => exact ⟨c, s ++ rest, rfl, endsName_of_isSpace (blank c List.mem_cons_self)⟩

/-- The name of a tag ends where its attributes begin. -/
theorem OpenTag.inner_starts (t : OpenTag) (rest : Bytes) :
    ∃ c u, t.inner ++ 62 :: rest = c :: u ∧ endsName c = true := by
  cases shape : t.attributes with
  | nil =>
    rw [OpenTag.inner, shape, List.flatMap_nil, List.nil_append, List.append_assoc]
    refine head_ends t.areBlank ?_
    cases t.selfClosing with
    | false => exact ⟨62, rest, rfl, rfl⟩
    | true => exact ⟨47, 62 :: rest, rfl, rfl⟩
  | cons a attributes =>
    obtain ⟨c, space, start⟩ := List.exists_cons_of_ne_nil a.spaced
    have blank : isSpace c = true := a.areBlank c (by simp [start])
    exact ⟨c, _, by rw [OpenTag.inner, shape, List.flatMap_cons, Attribute.text, start]; rfl,
      endsName_of_isSpace blank⟩

theorem OpenTag.startTag (t : OpenTag) (rest : Bytes) : StartTag t.name (t.text ++ rest) := by
  obtain ⟨c, u, shape, ends⟩ := t.inner_starts rest
  refine ⟨c, u, ?_, ends⟩
  rw [← shape, OpenTag.text]
  simp

theorem OpenTag.findStartTag (t : OpenTag) (clear : Clear 60 (StartTag t.name) pre) (rest : Bytes) :
    findStartTag (pre ++ (t.text ++ rest)) t.name = some pre.length := by
  have mark : AtMark 60 (t.text ++ rest) := atMark_cons
  rw [Net.findStartTag, findStartTagFrom_skip clear mark, Nat.zero_add]
  exact findStartTagFrom_here (t.startTag rest)

/-! ### The search -/

/-- The text of a tag that is searched. -/
def OpenTag.seen (t : OpenTag) : Bytes := t.text.takeWhile (· != 62)

/-- The quoted text at the beginning, empty when there is none or it is not closed. -/
def quoted : Bytes → Bytes
  | [] => []
  | q :: s =>
    if (q = 34 ∨ q = 39) ∧ s.contains q = true then s.takeWhile (· != q) else []

theorem quoted_open {q : UInt8} (unclosed : q ∉ s) : quoted (q :: s) = [] :=
  if_neg fun both => unclosed (List.contains_iff_mem.mp both.2)

theorem quoted_close {q : UInt8} (isQuote : q = 34 ∨ q = 39) (inside : q ∉ s) :
    quoted (q :: (s ++ q :: rest)) = s := by
  have others : ∀ d ∈ s, (d != q) = true := fun d member =>
    bne_iff_ne.mpr fun same => inside (same ▸ member)
  have closed : (s ++ q :: rest).contains q = true :=
    List.contains_iff_mem.mpr (List.mem_append_right s List.mem_cons_self)
  rw [quoted, if_pos ⟨isQuote, closed⟩, List.takeWhile_append_of_pos others,
    List.takeWhile_cons_of_neg (by simp), List.append_nil]

theorem quoted_blank (blank : isSpace c = true) : quoted (c :: s) = [] := by
  refine if_neg fun both => ?_
  rcases both.1 with rfl | rfl <;> exact absurd blank (by decide)

/-- `xml_attr` on the text between the start of the tag and its first `>`. -/
def readAttribute (seen attr : Bytes) : Bytes :=
  match find seen (attr ++ [61]) 0 with
  | none => []
  | some place => decodeEntities (quoted (seen.drop (place + (attr.length + 1))))

/-- What `xml_attr` makes of a quote and the text behind it. -/
theorem read_quoted (head : Bytes) (q : Nat) :
    (match head[q]? with
      | none => []
      | some quote =>
        if quote = 34 ∨ quote = 39 then
          match find head [quote] (q + 1) with
          | none => []
          | some close => decodeEntities (substr head (q + 1) (close - (q + 1)))
        else []) = decodeEntities (quoted (head.drop q)) := by
  rw [← List.head?_drop]
  cases shape : head.drop q with
  | nil => rfl
  | cons quote s =>
    have rest : head.drop (q + 1) = s := by rw [← List.drop_drop, shape]; rfl
    by_cases isQuote : quote = 34 ∨ quote = 39
    · simp only [List.head?_cons, if_pos isQuote]
      by_cases closed : quote ∈ s
      · have split : head = head.take (q + 1) ++ (s ++ []) := by
          rw [List.append_nil, ← rest, List.take_append_drop]
        have length : (head.take (q + 1)).length = q + 1 := by
          have inside : head.drop q ≠ [] := shape ▸ List.cons_ne_nil quote s
          rw [Ne, List.drop_eq_nil_iff] at inside
          rw [List.length_take]
          omega
        have found : find head [quote] (q + 1) =
            some (q + 1 + (s.takeWhile (· != quote)).length) := by
          have there : find (head.take (q + 1) ++ (s ++ [])) [quote] (head.take (q + 1)).length =
              some ((head.take (q + 1)).length + (s.takeWhile (· != quote)).length) :=
            find_byte closed
          rwa [← split, length] at there
        have value : substr head (q + 1) (q + 1 + (s.takeWhile (· != quote)).length - (q + 1)) =
            s.takeWhile (· != quote) := by
          rw [Nat.add_sub_cancel_left, substr, rest]
          exact (List.prefix_iff_eq_take.mp (List.takeWhile_prefix _)).symm
        simp only [found, value, quoted,
          if_pos (And.intro isQuote (List.contains_iff_mem.mpr closed))]
      · have none : find head [quote] (q + 1) = none := find_byte_none (rest.symm ▸ closed)
        simp only [none, quoted_open closed]
        rfl
    · have nothing : quoted (quote :: s) = [] := if_neg fun both => isQuote both.1
      simp only [List.head?_cons, if_neg isQuote, nothing]
      rfl

theorem xmlAttr_tag (t : OpenTag) (clear : Clear 60 (StartTag t.name) pre) (rest attr : Bytes) :
    xmlAttr (pre ++ (t.text ++ rest)) t.name attr = readAttribute t.seen attr := by
  have start := t.findStartTag clear rest
  have ends : 62 ∈ t.text := by simp [OpenTag.text]
  have gt : find (pre ++ (t.text ++ rest)) [62] pre.length = some (pre.length + t.seen.length) :=
    find_byte ends
  have head : substr (pre ++ (t.text ++ rest)) pre.length
      (pre.length + t.seen.length - pre.length) = t.seen := by
    obtain ⟨u, shape, -⟩ := split_at_byte ends
    rw [Nat.add_sub_cancel_left, substr, List.drop_left, shape, List.append_assoc]
    exact List.take_left
  rw [xmlAttr, start]
  simp only [gt, head, readAttribute]
  cases find t.seen (attr ++ [61]) 0 with
  | none => rfl
  | some place => exact read_quoted t.seen (place + attr.length + 1)

/-! ### The own attribute -/

/-- The attribute of this name. -/
def OpenTag.own (t : OpenTag) (attr : Bytes) : Option Attribute :=
  t.attributes.find? fun a => a.name = attr

def OpenTag.earlier (t : OpenTag) (attr : Bytes) : List Attribute :=
  t.attributes.takeWhile fun a => a.name ≠ attr

/-- The decoded value of the attribute of this name, empty when there is none. -/
def OpenTag.value (t : OpenTag) (attr : Bytes) : Bytes :=
  ((t.own attr).map fun a => decodeEntities a.value).getD []

/-- The text before the name of an attribute that follows the earlier ones. -/
def OpenTag.before (t : OpenTag) (attr : Bytes) (a : Attribute) : Bytes :=
  60 :: (t.name ++ ((t.earlier attr).flatMap Attribute.text ++ a.space))

def OpenTag.place (t : OpenTag) (attr : Bytes) : Option Nat :=
  (t.own attr).map fun a => (t.before attr a).length

/-- The first text that looks like the attribute is not the attribute. -/
def OpenTag.Stray (t : OpenTag) (attr : Bytes) (place : Nat) : Prop :=
  find t.seen (attr ++ [61]) 0 = some place ∧ t.place attr ≠ some place

/-- The attribute is there without blanks around its equals sign, and no `>` comes before the end
of its value. -/
def OpenTag.Plain (t : OpenTag) (attr : Bytes) : Prop :=
  ∃ a, t.own attr = some a ∧ a.beforeEq = [] ∧ a.afterEq = [] ∧ 62 ∉ a.value ∧
    ∀ b ∈ t.earlier attr, 62 ∉ b.value

variable {t : OpenTag} {attr : Bytes} {a : Attribute}

theorem OpenTag.own_split (own : t.own attr = some a) :
    a.name = attr ∧ ∃ after, t.attributes = t.earlier attr ++ a :: after := by
  obtain ⟨isOwn, before, after, split, others⟩ := List.find?_eq_some_iff_append.mp own
  have name : a.name = attr := of_decide_eq_true isOwn
  have start : t.earlier attr = before := by
    have different : ∀ b ∈ before, decide (b.name ≠ attr) = true := by simpa using others
    rw [OpenTag.earlier, split, List.takeWhile_append_of_pos different,
      List.takeWhile_cons_of_neg (by simp [name]), List.append_nil]
  exact ⟨name, after, by rw [start, split]⟩

theorem OpenTag.text_split (own : t.own attr = some a) :
    ∃ later, t.text = t.before attr a ++ (attr ++ (a.beforeEq ++ (a.assigned ++ later))) := by
  obtain ⟨name, after, split⟩ := OpenTag.own_split own
  refine ⟨after.flatMap Attribute.text ++
    (t.blanks ++ (if t.selfClosing then [47] else [])) ++ [62], ?_⟩
  simp [OpenTag.text, OpenTag.inner, split, OpenTag.before, Attribute.text, name]

/-- A value that is read from behind its equals sign, in a text that is cut at the first `>`. -/
theorem Attribute.quoted_cut (a : Attribute) (later : Bytes) :
    quoted ((a.afterEq ++ a.quote :: (a.value ++ a.quote :: later)).takeWhile (· != 62)) =
      if a.afterEq = [] ∧ 62 ∉ a.value then a.value else [] := by
  have quote : (a.quote != 62) = true := by rcases a.isQuote with same | same <;> rw [same] <;> rfl
  cases shape : a.afterEq with
  | cons c more =>
    have blank : isSpace c = true := a.areBlank c (by simp [shape])
    have other : (c != 62) = true := bne_iff_ne.mpr fun same => absurd (same ▸ blank) (by decide)
    rw [if_neg (by simp), List.cons_append, List.takeWhile_cons_of_pos (p := (· != 62)) other,
      quoted_blank blank]
  | nil =>
    rw [List.nil_append, List.takeWhile_cons_of_pos (p := (· != 62)) quote]
    by_cases cut : 62 ∈ a.value
    · obtain ⟨u, -, free⟩ := split_at_byte cut
      have shorter : (a.value.takeWhile (· != 62)).length ≠ a.value.length := by
        intro same
        rw [(List.takeWhile_prefix _).eq_of_length same] at free
        exact free cut
      rw [if_neg fun both => both.2 cut, List.takeWhile_append, if_neg shorter]
      exact quoted_open fun member => a.inside.1 ((List.takeWhile_prefix _).subset member)
    · have others : ∀ d ∈ a.value, (d != 62) = true := fun d member =>
        bne_iff_ne.mpr fun same => cut (same ▸ member)
      rw [if_pos ⟨rfl, cut⟩, List.takeWhile_append_of_pos others,
        List.takeWhile_cons_of_pos (p := (· != 62)) quote]
      exact quoted_close a.isQuote a.inside.1

/-- The searched text as it is read from behind a name whose equals sign is in it. -/
theorem OpenTag.seen_split {first w : Bytes} (split : t.text = first ++ w) (free : 62 ∉ first) :
    t.seen = first ++ w.takeWhile (· != 62) := by
  have others : ∀ d ∈ first, (d != 62) = true := fun d member =>
    bne_iff_ne.mpr fun same => free (same ▸ member)
  rw [OpenTag.seen, split, List.takeWhile_append_of_pos others]

/-- What is read at the place of the own name. -/
theorem OpenTag.read_own (own : t.own attr = some a)
    (found : find t.seen (attr ++ [61]) 0 = some (t.before attr a).length) :
    a.beforeEq = [] ∧ 62 ∉ t.before attr a ∧ readAttribute t.seen attr =
      decodeEntities (if a.afterEq = [] ∧ 62 ∉ a.value then a.value else []) := by
  obtain ⟨later, split⟩ := OpenTag.text_split own
  have part : t.seen <+: t.text := List.takeWhile_prefix _
  have fits := (find_bound found).2
  obtain ⟨-, -, occurs, -⟩ := find_eq_some.mp found
  have tight : a.beforeEq = [] := by
    have there := occurs.trans (part.drop (t.before attr a).length)
    rw [split, List.drop_left, List.prefix_append_right_inj] at there
    cases shape : a.beforeEq with
    | nil => rfl
    | cons c more =>
      rw [shape] at there
      have blank : isSpace c = true := a.areBlank c (by simp [shape])
      rw [← (List.cons_prefix_cons.mp there).1] at blank
      exact absurd blank (by decide)
  have shape : t.text = (t.before attr a ++ (attr ++ [61])) ++
      (a.afterEq ++ a.quote :: (a.value ++ a.quote :: later)) := by
    simp [split, tight, Attribute.assigned]
  have free : 62 ∉ t.before attr a ++ (attr ++ [61]) := by
    obtain ⟨u, -, unseen⟩ := split_at_byte (by simp [OpenTag.text] : 62 ∈ t.text)
    have start : t.before attr a ++ (attr ++ [61]) <+: t.seen := by
      refine List.prefix_of_prefix_length_le (shape ▸ List.prefix_append _ _) part ?_
      rwa [List.length_append]
    exact fun member => unseen (start.subset member)
  have seen := OpenTag.seen_split shape free
  refine ⟨tight, fun member => free (List.mem_append_left _ member), ?_⟩
  have place : (t.before attr a).length + (attr.length + 1) =
      (t.before attr a ++ (attr ++ [61])).length := by simp
  rw [readAttribute, found]
  simp only [place]
  rw [seen, List.drop_left, a.quoted_cut]

theorem not_mem_blanks (blank : ∀ c ∈ s, isSpace c = true) (other : isSpace c = false) : c ∉ s := by
  intro member
  rw [blank c member] at other
  contradiction

theorem Attribute.name_free (a : Attribute) {c : UInt8} (other : isAttributeByte c = false) :
    c ∉ a.name := by
  intro member
  rw [a.named c member] at other
  contradiction

theorem Attribute.space_free (a : Attribute) {c : UInt8} (other : isSpace c = false) :
    c ∉ a.space :=
  not_mem_blanks (fun d member => a.areBlank d (by simp [member])) other

/-- The only place for a byte of a tag is the value. -/
theorem Attribute.text_free (a : Attribute) {c : UInt8} (isMark : c = 60 ∨ c = 62)
    (uncut : c ∉ a.value) : c ∉ a.text := by
  have space : isSpace c = false := by rcases isMark with rfl | rfl <;> rfl
  have name : isAttributeByte c = false := by rcases isMark with rfl | rfl <;> rfl
  have equals : c ≠ 61 := by rcases isMark with rfl | rfl <;> decide
  have quote : c ≠ a.quote := by
    rcases a.isQuote with same | same <;> rw [same] <;> rcases isMark with rfl | rfl <;> decide
  have before : c ∉ a.beforeEq :=
    not_mem_blanks (fun d member => a.areBlank d (by simp [member])) space
  have after : c ∉ a.afterEq :=
    not_mem_blanks (fun d member => a.areBlank d (by simp [member])) space
  simp [Attribute.text, Attribute.assigned, a.space_free space, a.name_free name, before, after,
    equals, quote, uncut]

/-- Written plainly, the own name and its equals sign are in the searched text. -/
theorem OpenTag.Plain.found (plain : t.Plain attr) :
    (find t.seen (attr ++ [61]) 0).isSome = true := by
  obtain ⟨a, own, before, after, -, uncut⟩ := plain
  obtain ⟨later, split⟩ := OpenTag.text_split own
  obtain ⟨rfl, -⟩ := OpenTag.own_split own
  have earlier : 62 ∉ (t.earlier a.name).flatMap Attribute.text := by
    rw [List.mem_flatMap]
    rintro ⟨b, member, inside⟩
    exact b.text_free (Or.inr rfl) (uncut b member) inside
  have free : 62 ∉ t.before a.name a ++ (a.name ++ [61]) := by
    simp only [OpenTag.before, List.mem_append, List.mem_cons, not_or]
    exact ⟨⟨by decide, t.isTag.named.free rfl, earlier, a.space_free rfl⟩, a.name_free rfl,
      by decide⟩
  have shape : t.text = (t.before a.name a ++ (a.name ++ [61])) ++
      (a.afterEq ++ a.quote :: (a.value ++ a.quote :: later)) := by
    simp [split, before, Attribute.assigned]
  rw [OpenTag.seen_split shape free]
  exact find_isSome (List.infix_append_of_infix_left (List.suffix_append _ _).isInfix)

theorem OpenTag.Plain.of_own (own : t.own attr = some a) (before : a.beforeEq = [])
    (free : 62 ∉ t.before attr a) (after : a.afterEq = []) (uncut : 62 ∉ a.value) :
    t.Plain attr := by
  refine ⟨a, own, before, after, uncut, fun b member inside => free ?_⟩
  have text : 62 ∈ b.text := by simp [Attribute.text, Attribute.assigned, inside]
  have earlier : 62 ∈ (t.earlier attr).flatMap Attribute.text :=
    List.mem_flatMap.mpr ⟨b, member, text⟩
  simp only [OpenTag.before, List.mem_cons, List.mem_append]
  exact Or.inr (Or.inr (Or.inl earlier))

/-- Where nothing is taken for the attribute in its place, only a plain one is read. -/
theorem OpenTag.read_iff (noStray : ¬ ∃ place, t.Stray attr place) :
    readAttribute t.seen attr = t.value attr ↔ t.Plain attr ∨ t.value attr = [] := by
  cases found : find t.seen (attr ++ [61]) 0 with
  | none =>
    have notPlain : ¬ t.Plain attr := by
      intro plain
      have somewhere := plain.found
      rw [found] at somewhere
      contradiction
    rw [readAttribute, found, or_iff_right notPlain]
    exact eq_comm
  | some place =>
    have here : t.place attr = some place := by
      by_contra other
      exact noStray ⟨place, found, other⟩
    obtain ⟨a, own, rfl⟩ := Option.map_eq_some_iff.mp here
    obtain ⟨tight, free, read⟩ := OpenTag.read_own own found
    have value : t.value attr = decodeEntities a.value := by rw [OpenTag.value, own]; rfl
    by_cases plainly : a.afterEq = [] ∧ 62 ∉ a.value
    · rw [if_pos plainly] at read
      exact iff_of_true (read.trans value.symm)
        (Or.inl (OpenTag.Plain.of_own own tight free plainly.1 plainly.2))
    · have notPlain : ¬ t.Plain attr := by
        rintro ⟨b, same, -, after, uncut, -⟩
        cases own.symm.trans same
        exact plainly ⟨after, uncut⟩
      rw [read, if_neg plainly, or_iff_right notPlain]
      exact eq_comm

/-- An attribute is read exactly if one of two things holds. Where the first text that looks like it
is another, what is quoted behind that text happens to decode to the same. Where it is not, the
attribute is written plainly, or is empty or not there at all. -/
theorem xmlAttr_reads_iff (t : OpenTag) (clear : Clear 60 (StartTag t.name) pre)
    (rest attr : Bytes) : xmlAttr (pre ++ (t.text ++ rest)) t.name attr = t.value attr ↔
      (∃ place, t.Stray attr place ∧
        decodeEntities (quoted (t.seen.drop (place + (attr.length + 1)))) = t.value attr) ∨
      (¬ ∃ place, t.Stray attr place) ∧ (t.Plain attr ∨ t.value attr = []) := by
  rw [xmlAttr_tag t clear rest attr]
  by_cases strays : ∃ place, t.Stray attr place
  · obtain ⟨place, stray⟩ := strays
    have read : readAttribute t.seen attr =
        decodeEntities (quoted (t.seen.drop (place + (attr.length + 1)))) := by
      rw [readAttribute, stray.1]
    rw [or_iff_left fun both => both.1 ⟨place, stray⟩, read]
    constructor
    · exact fun same => ⟨place, stray, same⟩
    · rintro ⟨other, stray', same⟩
      cases stray.1.symm.trans stray'.1
      exact same
  · have neither : ¬ ∃ place, t.Stray attr place ∧
        decodeEntities (quoted (t.seen.drop (place + (attr.length + 1)))) = t.value attr :=
      fun ⟨place, stray, _⟩ => strays ⟨place, stray⟩
    rw [or_iff_right neither, and_iff_right strays]
    exact OpenTag.read_iff strays

/-! ### Replies -/

theorem blank_nil : ∀ c ∈ ([] : Bytes), isSpace c = true := fun _ member =>
  absurd member List.not_mem_nil

def rootTag (attributes : List Attribute) : OpenTag where
  name := ascii "root"
  attributes := attributes
  blanks := []
  selfClosing := false
  isTag := ⟨by simp only [IsName]; decide, by decide⟩
  areBlank := blank_nil

/-- An attribute after one space, in double quotes. -/
def doubleQuoted (name value : Bytes) (nonempty : name ≠ [])
    (named : ∀ c ∈ name, isAttributeByte c = true) (inside : 34 ∉ value ∧ 60 ∉ value) :
    Attribute where
  space := [32]
  name := name
  beforeEq := []
  afterEq := []
  quote := 34
  value := value
  spaced := List.cons_ne_nil _ _
  areBlank := by decide
  nonempty := nonempty
  named := named
  isQuote := Or.inl rfl
  inside := inside

def statusCode : Attribute :=
  doubleQuoted (ascii "status_code") (ascii "200") (by decide) (by decide) (by decide)

/-- The name of another attribute ends in the name that is looked for. -/
def suffixed : Attribute :=
  doubleQuoted (ascii "xstatus_code") (ascii "404") (by decide) (by decide) (by decide)

def message : Attribute :=
  doubleQuoted (ascii "status_message") (ascii "a>b") (by decide) (by decide) (by decide)

theorem xmlAttr_reads_statusCode :
    xmlAttr ([] ++ ((rootTag [statusCode, message]).text ++ [])) (ascii "root")
      (ascii "status_code") = ascii "200" := by
  have noStray : ¬ ∃ place, (rootTag [statusCode, message]).Stray (ascii "status_code") place := by
    rintro ⟨place, found, elsewhere⟩
    have here : find (rootTag [statusCode, message]).seen (ascii "status_code" ++ [61]) 0 =
        some 6 := by decide
    have own : (rootTag [statusCode, message]).place (ascii "status_code") = some 6 := by decide
    exact elsewhere (own.trans (here.symm.trans found))
  have first : (rootTag [statusCode, message]).earlier (ascii "status_code") = [] :=
    List.takeWhile_cons_of_neg (by decide)
  have plain : (rootTag [statusCode, message]).Plain (ascii "status_code") :=
    ⟨statusCode, rfl, rfl, rfl, by decide, fun b member => absurd (first ▸ member) List.not_mem_nil⟩
  exact (xmlAttr_reads_iff (rootTag [statusCode, message]) clear_nil [] (ascii "status_code")).mpr
    (Or.inr ⟨noStray, Or.inl plain⟩)

/-- The value of another attribute is read, and none behind a value with a `>`. -/
theorem xmlAttr_misreads :
    (rootTag [suffixed, statusCode]).text =
        ascii "<root xstatus_code=\"404\" status_code=\"200\">" ∧
      xmlAttr (rootTag [suffixed, statusCode]).text (ascii "root") (ascii "status_code") =
        ascii "404" ∧
      (rootTag [suffixed, statusCode]).value (ascii "status_code") = ascii "200" ∧
    (rootTag [message, statusCode]).text =
        ascii "<root status_message=\"a>b\" status_code=\"200\">" ∧
      xmlAttr (rootTag [message, statusCode]).text (ascii "root") (ascii "status_code") = [] ∧
      (rootTag [message, statusCode]).value (ascii "status_code") = ascii "200" := by
  exact ⟨by decide, by decide, by decide, by decide, by decide, by decide⟩

end StreamEngine.Net
