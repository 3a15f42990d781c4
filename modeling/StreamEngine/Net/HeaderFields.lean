import StreamEngine.Net.HttpMessages

/-! The header fields of a reply, and what the search for the chunked coding makes of them. The
search reads the lines as one text, without telling names from values. -/
namespace StreamEngine.Net
open ByteString Decimal

/-! ### The search -/

/-- The text that is searched for in the lower-cased headers. -/
def kChunked : Bytes := ascii "transfer-encoding: chunked"

def Mentions (text : Bytes) : Prop := kChunked <:+: text.map toLower

instance (text : Bytes) : Decidable (Mentions text) :=
  inferInstanceAs (Decidable (kChunked <:+: text.map toLower))

variable {s t line : Bytes} {lines : List Bytes}

theorem not_mentions_nil : ¬ Mentions [] := by
  rw [Mentions, List.map_nil, List.infix_nil]
  decide

/-- The text has no line end, so it is found on one side of each. -/
theorem mentions_across {c : UInt8} (isEnd : c = 13 ∨ c = 10) :
    Mentions (s ++ c :: t) ↔ Mentions s ∨ Mentions t := by
  have free : toLower c ∉ kChunked := by rcases isEnd with rfl | rfl <;> decide
  rw [Mentions, List.map_append, List.map_cons]
  exact infix_across free

theorem mentions_ended {ending : Bytes} (isEnd : ending = crlf ∨ ending = [10]) :
    Mentions (s ++ (ending ++ t)) ↔ Mentions s ∨ Mentions t := by
  rcases isEnd with rfl | rfl
  · have between : Mentions (10 :: t) ↔ Mentions t := by
      rw [← List.nil_append (10 :: t), mentions_across (Or.inr rfl), or_iff_right not_mentions_nil]
    rw [crlf, List.cons_append, List.cons_append, List.nil_append, mentions_across (Or.inl rfl),
      between]
  · exact mentions_across (Or.inr rfl)

theorem mentions_lines {ending : Bytes} (isEnd : ending = crlf ∨ ending = [10]) (rest : Bytes) :
    Mentions (ended ending lines ++ rest) ↔ (∃ line ∈ lines, Mentions line) ∨ Mentions rest := by
  induction lines with
  | nil => simp [ended]
  | cons line lines ih =>
    rw [ended_cons, List.append_assoc, List.append_assoc, mentions_ended isEnd, ih,
      List.exists_mem_cons_iff, or_assoc]

/-- The lines without the last line end. -/
theorem mentions_block {ending : Bytes} (isEnd : ending = crlf ∨ ending = [10])
    (some_ : lines ≠ []) : ∃ block, ended ending lines = block ++ ending ∧
      (Mentions block ↔ ∃ line ∈ lines, Mentions line) := by
  have split := List.dropLast_concat_getLast some_
  refine ⟨ended ending lines.dropLast ++ lines.getLast some_, ?_, ?_⟩
  · conv_lhs => rw [← split]
    simp [ended]
  · rw [mentions_lines isEnd]
    conv_rhs => rw [← split]
    simp [or_and_right, exists_or]

/-- An accepted reply in the two forms that the search can give it. -/
theorem parseHttpResponse_split {raw : Bytes} {sp : Nat} (start : raw.take 5 = ascii "HTTP/")
    (space : find raw [32] 0 = some sp) : parseHttpResponse raw =
      if Mentions (raw.take (splitHeaders raw).1) then
        (dechunk (raw.drop (splitHeaders raw).2)).map (⟨true, atoi (raw.drop (sp + 1)), ·⟩)
      else some ⟨true, atoi (raw.drop (sp + 1)), raw.drop (splitHeaders raw).2⟩ := by
  rw [parseHttpResponse, if_neg (not_not.mpr start), space]
  exact if_congr find_isSome_iff rfl rfl

theorem Head.parse (h : Head) (body : Bytes) : parseHttpResponse (h.text ++ body) =
    if ∃ line ∈ h.lines, Mentions line then
      (dechunk body).map (⟨true, atoi ((h.text ++ body).drop 9), ·⟩)
    else some ⟨true, atoi ((h.text ++ body).drop 9), body⟩ := by
  obtain ⟨block, split, mentions⟩ :=
    mentions_block (Or.inl rfl) (List.cons_ne_nil h.statusLine h.fields)
  have shape : h.text = block ++ (crlf ++ crlf) := by
    rw [← List.append_assoc, ← split]
    rfl
  have headers : (h.text ++ body).take (h.text.length - 4) = block := by
    have four : h.text.length - 4 = block.length := by simp [shape, crlf]
    rw [four, shape, List.append_assoc, List.take_left]
  rw [parseHttpResponse_split (h.take_five body) (h.space body), h.split body, headers,
    List.drop_left]
  exact if_congr mentions rfl rfl

/-! ### Fields -/

/-- A blank beside a value. -/
def isBlank (c : UInt8) : Bool := c == 32 || c == 9

/-- A byte of a field name. -/
def isNameByte (c : UInt8) : Bool :=
  isDigit c || (97 ≤ toLower c && toLower c ≤ 122) || (ascii "!#$%&'*+-.^_|~").contains c || c == 96

/-- A byte of a field value. -/
def isValueByte (c : UInt8) : Bool := c == 9 || (32 ≤ c && c != 127)

/-- A header field, with the blanks that may stand around its value. -/
structure Field where
  name : Bytes
  before : Bytes
  value : Bytes
  after : Bytes
  nonempty : name ≠ []
  isName : ∀ c ∈ name, isNameByte c = true
  areBlank : ∀ c ∈ before ++ after, isBlank c = true
  isValue : ∀ c ∈ value, isValueByte c = true
  trimmed : ∀ c ∈ value.head?.toList ++ value.getLast?.toList, isBlank c = false

def Field.text (f : Field) : Bytes := f.name ++ 58 :: (f.before ++ (f.value ++ f.after))

/-- A field that declares the chunked coding, its name and its value in any letter case. -/
def Field.IsChunked (f : Field) : Prop :=
  f.name.map toLower = ascii "transfer-encoding" ∧ f.value.map toLower = ascii "chunked"

instance (f : Field) : Decidable f.IsChunked := inferInstanceAs (Decidable (_ ∧ _))

theorem Field.isLine_text (f : Field) : IsLine f.text := by
  refine isLine_of_free ?_
  simp only [Field.text, List.mem_append, List.mem_cons, not_or]
  refine ⟨fun member => ?_, by decide, fun member => ?_, fun member => ?_, fun member => ?_⟩
  · exact absurd (f.isName 13 member) (by decide)
  · exact absurd (f.areBlank 13 (List.mem_append_left _ member)) (by decide)
  · exact absurd (f.isValue 13 member) (by decide)
  · exact absurd (f.areBlank 13 (List.mem_append_right _ member)) (by decide)

theorem map_toLower_blanks {blanks : Bytes} (areBlank : ∀ c ∈ blanks, isBlank c = true) :
    blanks.map toLower = blanks := by
  have same : ∀ c, isBlank c = true → toLower c = c := by
    intro c blank
    rcases (by simpa [isBlank] using blank : c = 32 ∨ c = 9) with rfl | rfl <;> rfl
  have each : blanks.map toLower = blanks.map id :=
    List.map_congr_left fun c member => same c (areBlank c member)
  rw [each, List.map_id]

/-- The field that declares the coding is seen only if exactly one space stands before its value. -/
theorem Field.mentions_text {f : Field} (chunked : f.IsChunked) :
    Mentions f.text ↔ f.before = [32] := by
  obtain ⟨isName, isValue⟩ := chunked
  have before := map_toLower_blanks fun c member => f.areBlank c (List.mem_append_left _ member)
  have after := map_toLower_blanks fun c member => f.areBlank c (List.mem_append_right _ member)
  have lower : f.text.map toLower =
      ascii "transfer-encoding" ++ 58 :: (f.before ++ (ascii "chunked" ++ f.after)) := by
    simp only [Field.text, List.map_append, List.map_cons, isName, isValue, before, after]
    rfl
  have needle : kChunked = ascii "transfer-encoding" ++ 58 :: 32 :: ascii "chunked" := by decide
  have blank : ∀ c ∈ f.before ++ f.after, c ≠ 58 ∧ c ≠ 99 := by
    intro c member
    have isBlank_ := f.areBlank c member
    constructor <;> rintro rfl <;> exact absurd isBlank_ (by decide)
  rw [Mentions, lower, needle]
  constructor
  · rintro ⟨u, v, split⟩
    -- The field has one colon, so both sides are split there.
    have colon : 58 ∉ f.before ++ (ascii "chunked" ++ f.after) := by
      simp only [List.mem_append, not_or]
      exact ⟨fun member => (blank 58 (List.mem_append_left _ member)).1 rfl, by decide,
        fun member => (blank 58 (List.mem_append_right _ member)).1 rfl⟩
    have sides : ascii "transfer-encoding" ++ 58 :: (f.before ++ (ascii "chunked" ++ f.after)) =
        (u ++ ascii "transfer-encoding") ++ 58 :: (32 :: (ascii "chunked" ++ v)) := by
      rw [← split]
      simp
    obtain ⟨-, -, values⟩ := (List.append_cons_inj_of_notMem (by decide) colon).mp sides
    cases shape : f.before with
    | nil =>
      rw [shape] at values
      exact absurd (List.cons.inj values).1 (by decide)
    | cons c more =>
      rw [shape, List.cons_append] at values
      obtain ⟨rfl, later⟩ := List.cons.inj values
      cases more with
      | nil => rfl
      | cons d more =>
        have isC : d = 99 := (List.cons.inj later).1
        exact absurd isC (blank d (by simp [shape])).2
  · intro one
    rw [one]
    exact ⟨[], f.after, by simp⟩

/-! ### Replies with fields -/

/-- The lines of a reply up to its body, the header lines as fields. -/
structure FieldHead where
  minor : UInt8
  status : Bytes
  fields : List Field
  isMinor : isDigit minor = true
  isStatus : IsLine status

def FieldHead.head (h : FieldHead) : Head where
  minor := h.minor
  status := h.status
  fields := h.fields.map Field.text
  isMinor := h.isMinor
  isStatus := h.isStatus
  areFields := by
    intro line member
    obtain ⟨f, -, rfl⟩ := List.mem_map.mp member
    exact ⟨by simp [Field.text], f.isLine_text⟩

/-- Some field declares the chunked coding. -/
def FieldHead.Declares (h : FieldHead) : Prop := ∃ f ∈ h.fields, f.IsChunked

instance (h : FieldHead) : Decidable h.Declares :=
  inferInstanceAs (Decidable (∃ f ∈ h.fields, f.IsChunked))

/-- The lines that do not declare it: the status line and the other fields. -/
def FieldHead.others (h : FieldHead) : List Bytes :=
  h.head.statusLine :: (h.fields.filter fun f => ¬ f.IsChunked).map Field.text

/-- The body is decoded if and only if a field declares the chunked coding. -/
def FieldHead.Honoured (h : FieldHead) : Prop := ∀ body,
  parseHttpResponse (h.head.text ++ body) =
    if h.Declares then (dechunk body).map (⟨true, atoi ((h.head.text ++ body).drop 9), ·⟩)
    else some ⟨true, atoi ((h.head.text ++ body).drop 9), body⟩

variable (h : FieldHead)

/-- A line in which the text is found declares the coding with one space, or does not declare it. -/
theorem FieldHead.mentions_lines : (∃ line ∈ h.head.lines, Mentions line) ↔
    (∃ f ∈ h.fields, f.IsChunked ∧ f.before = [32]) ∨ ∃ line ∈ h.others, Mentions line := by
  have fields : (∃ f ∈ h.fields, Mentions f.text) ↔
      (∃ f ∈ h.fields, f.IsChunked ∧ f.before = [32]) ∨
        ∃ f ∈ h.fields, ¬ f.IsChunked ∧ Mentions f.text := by
    rw [← exists_or]
    refine exists_congr fun f => ?_
    rw [← and_or_left]
    by_cases chunked : f.IsChunked
    · simp [chunked, Field.mentions_text]
    · simp [chunked]
  have lines : (∃ line ∈ h.head.lines, Mentions line) ↔
      Mentions h.head.statusLine ∨ ∃ f ∈ h.fields, Mentions f.text := by
    simp [Head.lines, FieldHead.head]
  have others : (∃ line ∈ h.others, Mentions line) ↔
      Mentions h.head.statusLine ∨ ∃ f ∈ h.fields, ¬ f.IsChunked ∧ Mentions f.text := by
    simp [FieldHead.others, and_assoc]
  rw [lines, others, fields]
  exact or_left_comm

/-- One letter is not a chunk, so decoding shows. -/
theorem dechunk_letter : dechunk [120] = some [] := by decide

theorem FieldHead.honoured_iff_mentions : h.Honoured ↔
    (h.Declares ↔ ∃ line ∈ h.head.lines, Mentions line) := by
  constructor
  · intro honoured
    have one := (h.head.parse [120]).symm.trans (honoured [120])
    rw [dechunk_letter] at one
    by_cases declares : h.Declares <;> by_cases mentions : ∃ line ∈ h.head.lines, Mentions line
    · exact iff_of_true declares mentions
    · rw [if_neg mentions, if_pos declares] at one
      simp at one
    · rw [if_pos mentions, if_neg declares] at one
      simp at one
    · exact iff_of_false declares mentions
  · intro same body
    rw [h.head.parse body]
    exact if_congr same.symm rfl rfl

/-- The coding is honoured where a field declares it with exactly one space before the value. Else
the decision is with the lines that do not declare it. -/
theorem parseHttpResponse_honours_iff : h.Honoured ↔
    (∃ f ∈ h.fields, f.IsChunked ∧ f.before = [32]) ∨
      (h.Declares ↔ ∃ line ∈ h.others, Mentions line) := by
  rw [h.honoured_iff_mentions, h.mentions_lines]
  by_cases proper : ∃ f ∈ h.fields, f.IsChunked ∧ f.before = [32]
  · obtain ⟨f, member, chunked, one⟩ := proper
    have declares : h.Declares := ⟨f, member, chunked⟩
    exact iff_of_true (iff_of_true declares (Or.inl ⟨f, member, chunked, one⟩))
      (Or.inl ⟨f, member, chunked, one⟩)
  · rw [or_iff_right proper, or_iff_right proper]

/-- A field of the value that declares the coding. -/
def chunkedField (name before : Bytes) (nonempty : name ≠ [])
    (isName : ∀ c ∈ name, isNameByte c = true) (areBlank : ∀ c ∈ before ++ [], isBlank c = true) :
    Field where
  name := name
  before := before
  value := ascii "chunked"
  after := []
  nonempty := nonempty
  isName := isName
  areBlank := areBlank
  isValue := by decide
  trimmed := by decide

def oneField (f : Field) : FieldHead := ⟨49, ascii "200 OK", [f], isDigit_one, isLine_ok⟩

/-- Written without a space. -/
def unspaced : FieldHead :=
  oneField (chunkedField (ascii "Transfer-Encoding") [] (by decide) (by decide) (by decide))

/-- A field of another name. -/
def prefixed : FieldHead :=
  oneField (chunkedField (ascii "X-Transfer-Encoding") [32] (by decide) (by decide) (by decide))

/-- A declared body is kept as it was sent, and an undeclared one is lost. -/
theorem chunked_misread :
    (unspaced.head.text = ascii "HTTP/1.1 200 OK\r\nTransfer-Encoding:chunked\r\n\r\n" ∧
      unspaced.Declares ∧ dechunk (ascii "2\r\nhi\r\n0\r\n\r\n") = some (ascii "hi") ∧
      parseHttpResponse (unspaced.head.text ++ ascii "2\r\nhi\r\n0\r\n\r\n") =
        some ⟨true, 200, ascii "2\r\nhi\r\n0\r\n\r\n"⟩) ∧
    prefixed.head.text = ascii "HTTP/1.1 200 OK\r\nX-Transfer-Encoding: chunked\r\n\r\n" ∧
      ¬ prefixed.Declares ∧
      parseHttpResponse (prefixed.head.text ++ ascii "hi") = some ⟨true, 200, []⟩ := by
  have first := unspaced.head.parse (ascii "2\r\nhi\r\n0\r\n\r\n")
  have second := prefixed.head.parse (ascii "hi")
  rw [if_neg (by decide)] at first
  rw [if_pos (by decide)] at second
  exact ⟨⟨by decide, by decide, by decide, first.trans (by decide)⟩, by decide, by decide,
    second.trans (by decide)⟩

end StreamEngine.Net
