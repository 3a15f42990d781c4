import StreamEngine.Net.AppListProofs
import StreamEngine.Net.XmlAttributes

/-! Flat GameStream documents. Attribute values and texts hold no `<`, so every tag begins a stretch
of text up to the next one, and the first element of a name is read whatever stands around it. -/
namespace StreamEngine.Net
open ByteString

variable {tag pre rest s : Bytes} {t : OpenTag}

/-! ### Documents -/

/-- A text, and one of its encodings. -/
structure Encoded where
  original : Bytes
  text : Bytes
  escapes : Escapes original text

/-- `<name attributes>text</name>`, or `<name attributes/>` without content, and the text up to the
next tag. -/
structure FlatElement where
  tag : OpenTag
  content : Option Encoded
  gap : Bytes
  uncut : ∀ a ∈ tag.attributes, 62 ∉ a.value
  closing : tag.selfClosing = content.isNone
  spaced : 60 ∉ gap

def FlatElement.text (e : FlatElement) : Bytes :=
  e.tag.text ++
    match e.content with
    | none => e.gap
    | some content => content.text ++ (endTag e.tag.name ++ e.gap)

/-- An XML declaration, the root start tag, the elements and the root end tag. -/
structure FlatDocument where
  declaration : Bytes
  prolog : Bytes
  root : OpenTag
  opening : Bytes
  elements : List FlatElement
  epilog : Bytes
  declared : ∃ c u, declaration = c :: u ∧ isSpace c = true
  isRoot : root.name = ascii "root" ∧ root.selfClosing = false
  uncut : ∀ a ∈ root.attributes, 62 ∉ a.value
  flat : 60 ∉ declaration ∧ 60 ∉ prolog ∧ 60 ∉ opening ∧ 60 ∉ epilog

def FlatDocument.declarationText (d : FlatDocument) : Bytes :=
  60 :: (ascii "?xml" ++ (d.declaration ++ (ascii "?>" ++ d.prolog)))

def FlatDocument.head (d : FlatDocument) : Bytes :=
  d.declarationText ++ (d.root.text ++ d.opening)

def FlatDocument.text (d : FlatDocument) : Bytes :=
  d.head ++ (d.elements.flatMap FlatElement.text ++ (endTag (ascii "root") ++ d.epilog))

/-! ### Tags -/

theorem OpenTag.inner_free (t : OpenTag) {c : UInt8} (isMark : c = 60 ∨ c = 62)
    (uncut : ∀ a ∈ t.attributes, c ∉ a.value) : c ∉ t.inner := by
  have space : isSpace c = false := by rcases isMark with rfl | rfl <;> rfl
  have slash : c ≠ 47 := by rcases isMark with rfl | rfl <;> decide
  have attributes : c ∉ t.attributes.flatMap Attribute.text := by
    rw [List.mem_flatMap]
    rintro ⟨a, member, inside⟩
    exact a.text_free isMark (uncut a member) inside
  have blanks : c ∉ t.blanks := not_mem_blanks t.areBlank space
  rw [OpenTag.inner, List.mem_append, List.mem_append, not_or, not_or]
  refine ⟨attributes, blanks, ?_⟩
  cases t.selfClosing <;> simp [slash]

/-- A tag of another name begins nothing. -/
theorem OpenTag.clear (isTag : IsTag tag) (other : t.name ≠ tag) (flat : 60 ∉ s) :
    Clear 60 (StartTag tag) (t.text ++ s) := by
  have name : 60 ∉ t.name := fun member => (t.isTag.named 60 member).2 rfl
  have inner : 60 ∉ t.inner := t.inner_free (Or.inl rfl) fun a _ => a.inside.2
  have free : 60 ∉ t.name ++ (t.inner ++ [62]) ++ s := by
    simp [name, inner, flat]
  rw [OpenTag.text, List.cons_append]
  refine clear_segment startTag_marked free fun rest _ => ?_
  obtain ⟨c, u, starts, ends⟩ := t.inner_starts (s ++ rest)
  have shape : t.name ++ (t.inner ++ [62]) ++ s ++ rest = t.name ++ c :: u := by
    rw [← starts]
    simp
  rw [shape]
  exact not_startTag_of_name t.isTag.named isTag.named other ends u

theorem clear_endTag (isTag : IsTag tag) {name : Bytes} (named : 60 ∉ name) (flat : 60 ∉ s) :
    Clear 60 (StartTag tag) (endTag name ++ s) := by
  refine clear_segment startTag_marked ?_ fun rest _ =>
    not_startTag_of_head isTag.nonempty (isTag.head rfl) _
  simp [named, flat]

theorem Escapes.flat {original text : Bytes} (escapes : Escapes original text) : 60 ∉ text := by
  induction escapes with
  | nil => exact List.not_mem_nil
  | plain _ lt _ ih => exact List.not_mem_cons_of_ne_of_not_mem (Ne.symm lt) ih
  | escaped predefined _ ih =>
    have names : ∀ e ∈ entities, 60 ∉ e.2 := by decide
    rw [List.mem_append, not_or]
    exact ⟨names _ predefined, ih⟩

theorem FlatElement.clear (e : FlatElement) (isTag : IsTag tag) (other : e.tag.name ≠ tag) :
    Clear 60 (StartTag tag) e.text := by
  have name : 60 ∉ e.tag.name := fun member => (e.tag.isTag.named 60 member).2 rfl
  rw [FlatElement.text]
  cases e.content with
  | none => exact OpenTag.clear isTag other e.spaced
  | some content =>
    simp only
    rw [← List.append_assoc]
    exact (OpenTag.clear isTag other content.escapes.flat).append (clear_endTag isTag name e.spaced)
      atMark_cons

theorem FlatElement.atMark (e : FlatElement) : AtMark 60 e.text := atMark_cons

theorem FlatDocument.clear_head (d : FlatDocument) (isTag : IsTag tag)
    (notRoot : tag ≠ ascii "root") (notDeclaration : tag ≠ ascii "?xml") :
    Clear 60 (StartTag tag) d.head := by
  have root : Clear 60 (StartTag tag) (d.root.text ++ d.opening) :=
    OpenTag.clear isTag (d.isRoot.1.trans_ne notRoot.symm) d.flat.2.2.1
  obtain ⟨c, u, starts, blank⟩ := d.declared
  have free : 60 ∉ ascii "?xml" ++ (d.declaration ++ (ascii "?>" ++ d.prolog)) := by
    have names : 60 ∉ ascii "?xml" ∧ 60 ∉ ascii "?>" := by decide
    simp [names, d.flat]
  have isName : IsName (ascii "?xml") := by
    simp only [IsName]
    decide
  refine Clear.append (clear_segment startTag_marked free fun rest _ => ?_) root atMark_cons
  have shape : ascii "?xml" ++ (d.declaration ++ (ascii "?>" ++ d.prolog)) ++ rest =
      ascii "?xml" ++ c :: (u ++ (ascii "?>" ++ d.prolog) ++ rest) := by
    simp [starts]
  rw [shape]
  exact not_startTag_of_name isName isTag.named notDeclaration.symm (endsName_of_isSpace blank) _

/-! ### Reading an element -/

/-- A tag up to its end. -/
def OpenTag.body (t : OpenTag) : Bytes := tagBody t.name t.inner

theorem OpenTag.text_eq (t : OpenTag) : t.text = t.body ++ [62] := by
  simp [OpenTag.text, OpenTag.body, tagBody]

theorem OpenTag.body_last (t : OpenTag) : ∃ start c, t.body = start ++ [c] ∧
    (t.selfClosing = true ∧ c = 47 ∨ t.selfClosing = false ∧ c ≠ 47) := by
  cases closing : t.selfClosing with
  | true => exact ⟨60 :: (t.name ++ (t.attributes.flatMap Attribute.text ++ t.blanks)), 47,
      by simp [OpenTag.body, tagBody, OpenTag.inner, closing], Or.inl ⟨rfl, rfl⟩⟩
  | false =>
    -- The last byte is a blank, a quote or a byte of the name.
    rcases List.eq_nil_or_concat t.blanks with unspaced | ⟨blanks, c, shape⟩
    · rcases List.eq_nil_or_concat t.attributes with bare | ⟨attributes, a, shape⟩
      · rcases List.eq_nil_or_concat t.name with empty | ⟨name, c, shape⟩
        · exact absurd empty t.isTag.nonempty
        · refine ⟨60 :: name, c,
            by simp [OpenTag.body, tagBody, OpenTag.inner, closing, unspaced, bare, shape],
            Or.inr ⟨rfl, fun slash => ?_⟩⟩
          exact t.isTag.named.free (c := 47) rfl (by simp [shape, slash])
      · refine ⟨60 :: (t.name ++ (attributes.flatMap Attribute.text ++
          (a.space ++ (a.name ++ (a.beforeEq ++ 61 :: (a.afterEq ++ a.quote :: a.value)))))),
          a.quote, by simp [OpenTag.body, tagBody, OpenTag.inner, closing, unspaced, shape,
            Attribute.text, Attribute.assigned],
          Or.inr ⟨rfl, ?_⟩⟩
        rcases a.isQuote with same | same <;> rw [same] <;> decide
    · refine ⟨60 :: (t.name ++ (t.attributes.flatMap Attribute.text ++ blanks)), c,
        by simp [OpenTag.body, tagBody, OpenTag.inner, closing, shape], Or.inr ⟨rfl, fun slash => ?_⟩⟩
      have blank : isSpace c = true := t.areBlank c (by simp [shape])
      exact absurd (slash ▸ blank) (by decide)

/-- The byte before the end of a tag is a slash only if the tag closes itself. -/
theorem OpenTag.slash_iff (t : OpenTag) : t.body.getLast? = some 47 ↔ t.selfClosing = true := by
  obtain ⟨start, c, shape, last⟩ := t.body_last
  rw [shape, List.getLast?_concat, Option.some.injEq]
  rcases last with ⟨closing, slash⟩ | ⟨opening, other⟩
  · exact iff_of_true slash closing
  · exact iff_of_false other (by simp [opening])

/-- A tag that closes itself has no text. -/
theorem xmlText_closed (clear : Clear 60 (StartTag t.name) pre)
    (uncut : ∀ a ∈ t.attributes, 62 ∉ a.value) (closed : t.selfClosing = true) (rest : Bytes) :
    xmlText (pre ++ (t.text ++ rest)) t.name = [] := by
  have start := t.findStartTag clear rest
  have shape : pre ++ (t.text ++ rest) = pre ++ (t.body ++ 62 :: rest) := by simp [OpenTag.text_eq]
  have slash : (pre ++ (t.body ++ 62 :: rest))[pre.length + t.body.length - 1]? = some 47 :=
    (getElem?_tagBody _).trans (t.slash_iff.mpr closed)
  have gt : find (pre ++ (t.body ++ 62 :: rest)) [62] pre.length =
      some (pre.length + t.body.length) :=
    find_tagEnd t.isTag (t.inner_free (Or.inr rfl) uncut) rest
  rw [shape] at start ⊢
  rw [xmlText, start]
  simp only [gt, if_pos slash]

theorem opensAtEnd_tag (clear : Clear 60 (StartTag t.name) pre)
    (uncut : ∀ a ∈ t.attributes, 62 ∉ a.value) (opened : t.selfClosing = false) :
    OpensAtEnd (pre ++ t.text) t.name := by
  have opens := t.startTag []
  rw [List.append_nil, OpenTag.text_eq] at opens
  rw [OpenTag.text_eq]
  refine opensAtEnd t.isTag clear opens (t.inner_free (Or.inr rfl) uncut) ?_
  exact mt t.slash_iff.mp (ne_true_of_eq_false opened)

theorem xmlText_content (clear : Clear 60 (StartTag t.name) pre)
    (uncut : ∀ a ∈ t.attributes, 62 ∉ a.value) (opened : t.selfClosing = false) (content : Encoded)
    (rest : Bytes) :
    xmlText (pre ++ (t.text ++ (content.text ++ (endTag t.name ++ rest)))) t.name =
      content.original := by
  have shape : pre ++ (t.text ++ (content.text ++ (endTag t.name ++ rest))) =
      pre ++ t.text ++ content.text ++ (60 :: 47 :: t.name) ++ (62 :: rest) := by
    simp [endTag]
  rw [shape, xmlText_element (opensAtEnd_tag clear uncut opened) content.escapes.flat]
  exact decodeEntities_escapes content.escapes

/-! ### The first element of a name -/

/-- The text of the first element of this name, empty when there is none or it has no content. -/
def textOf (tag : Bytes) (elements : List FlatElement) : Bytes :=
  ((elements.find? fun e => e.tag.name = tag).bind FlatElement.content).elim [] Encoded.original

/-- The first element is read, whatever stands before the elements and after them. -/
theorem xmlText_elements (isTag : IsTag tag) (before : Clear 60 (StartTag tag) pre)
    (after : Clear 60 (StartTag tag) rest) (mark : AtMark 60 rest) (elements : List FlatElement) :
    xmlText (pre ++ (elements.flatMap FlatElement.text ++ rest)) tag = textOf tag elements := by
  induction elements generalizing pre with
  | nil =>
    rw [List.flatMap_nil, List.nil_append, xmlText_clear (before.append after mark)]
    rfl
  | cons e elements ih =>
    rw [List.flatMap_cons]
    by_cases same : e.tag.name = tag
    · subst same
      have first : textOf e.tag.name (e :: elements) = e.content.elim [] Encoded.original := by
        simp [textOf]
      rw [first, FlatElement.text]
      have closing := e.closing
      cases content : e.content with
      | none =>
        rw [content] at closing
        simp only [List.append_assoc]
        exact xmlText_closed before e.uncut closing _
      | some content' =>
        rw [content] at closing
        simp only [List.append_assoc]
        exact xmlText_content before e.uncut closing content' _
    · have later : textOf tag (e :: elements) = textOf tag elements := by simp [textOf, same]
      rw [later, List.append_assoc, ← List.append_assoc pre]
      exact ih (before.append (e.clear isTag same) e.atMark)

/-- Every element of a flat document is found by its name, unless the name is that of the root or of
the declaration. -/
theorem xmlText_document (d : FlatDocument) (isTag : IsTag tag) (notRoot : tag ≠ ascii "root")
    (notDeclaration : tag ≠ ascii "?xml") : xmlText d.text tag = textOf tag d.elements := by
  have root : 60 ∉ ascii "root" := by decide
  exact xmlText_elements isTag (d.clear_head isTag notRoot notDeclaration)
    (clear_endTag isTag root d.flat.2.2.2) atMark_cons d.elements

/-! ### Two documents -/

/-- An element without attributes. -/
def plainElement (name : Bytes) (isTag : IsTag name) (content : Option Encoded) : FlatElement where
  tag := ⟨name, [], [], content.isNone, isTag, blank_nil⟩
  content := content
  gap := []
  uncut := fun _ member => absurd member List.not_mem_nil
  closing := rfl
  spaced := List.not_mem_nil

def plainDocument (elements : List FlatElement) : FlatDocument where
  declaration := ascii " version=\"1.0\""
  prolog := []
  root := rootTag [statusCode]
  opening := []
  elements := elements
  epilog := []
  declared := ⟨32, _, rfl, rfl⟩
  isRoot := ⟨rfl, rfl⟩
  uncut := by simp only [rootTag, List.forall_mem_singleton]; decide
  flat := by decide

theorem isTag_http : IsTag (ascii "Http") := isTag_of_all (by decide) (by decide)

theorem isTag_httpsPort : IsTag (ascii "HttpsPort") := isTag_of_all (by decide) (by decide)

theorem isTag_declaration : IsTag (ascii "?xml") := isTag_of_all (by decide) (by decide)

/-- A text that would be another one if it were decoded twice. -/
def twiceEscaped : Encoded where
  original := ascii "&lt;"
  text := ascii "&amp;" ++ ascii "lt;"
  escapes := .escaped (by decide : (38, ascii "&amp;") ∈ entities) (.plain (by decide) (by decide)
    (.plain (by decide) (by decide) (.plain (by decide) (by decide) .nil)))

def oneLetter : Encoded := ⟨ascii "a", ascii "a", .plain (by decide) (by decide) .nil⟩

theorem xmlText_prefixed :
    xmlText (plainDocument [plainElement (ascii "HttpsPort") isTag_httpsPort (some oneLetter),
      plainElement (ascii "Http") isTag_http (some twiceEscaped)]).text (ascii "Http") =
      ascii "&lt;" :=
  (xmlText_document _ isTag_http (by decide) (by decide)).trans (by decide)

/-- The declaration is taken for the start tag of an element that is named like it. -/
theorem xmlText_declaration :
    (plainDocument [plainElement (ascii "?xml") isTag_declaration (some oneLetter)]).text =
        ascii "<?xml version=\"1.0\"?><root status_code=\"200\"><?xml>a</?xml></root>" ∧
      IsTag (ascii "?xml") ∧ ascii "?xml" ≠ ascii "root" ∧
      textOf (ascii "?xml") [plainElement (ascii "?xml") isTag_declaration (some oneLetter)] =
        ascii "a" ∧
      xmlText (plainDocument [plainElement (ascii "?xml") isTag_declaration (some oneLetter)]).text
        (ascii "?xml") = ascii "<root status_code=\"200\"><?xml>a" :=
  ⟨by decide, isTag_declaration, by decide, by decide, by decide⟩

end StreamEngine.Net
