import StreamEngine.Net.HeaderFields

/-! Where the body of a reply begins. Line ends of both styles are accepted, but a blank line of the
first style is looked for in the whole reply before one of the second style is looked for at all. -/
namespace StreamEngine.Net
open ByteString Decimal

/-- The two styles of line ends. -/
inductive LineEnd
  | crlf
  | lf
deriving DecidableEq

def LineEnd.text : LineEnd → Bytes
  | .crlf => [13, 10]
  | .lf => [10]

/-- A line of this style. One that ends in a carriage return would end in the other style. -/
def LineEnd.IsLine : LineEnd → Bytes → Prop
  | .crlf, line => Net.IsLine line
  | .lf, line => 10 ∉ line ∧ line.getLast? ≠ some 13

/-- The lines of a reply up to its body, none of which declares the chunked coding. -/
structure PlainHead (style : LineEnd) where
  minor : UInt8
  status : Bytes
  fields : List Bytes
  isMinor : isDigit minor = true
  isStatus : style.IsLine status
  areFields : ∀ line ∈ fields, line ≠ [] ∧ style.IsLine line
  plain : ∀ f : Field, f.IsChunked → f.text ∉ fields

variable {style : LineEnd} (h : PlainHead style) (body : Bytes)

def PlainHead.statusLine : Bytes := ascii "HTTP/1." ++ (h.minor :: 32 :: h.status)

def PlainHead.lines : List Bytes := h.statusLine :: h.fields

def PlainHead.text : Bytes := ended style.text h.lines ++ style.text

/-! ### The two searches -/

/-- A blank line of the first style in the body, where the head has none. -/
def LineEnd.misplaced (style : LineEnd) (body : Bytes) : Option Nat :=
  match style with
  | .crlf => none
  | .lf => find body (LineEnd.crlf.text ++ LineEnd.crlf.text) 0

/-- The part of a body that is read as headers. -/
def LineEnd.swallowed (style : LineEnd) (body : Bytes) : Bytes :=
  match style.misplaced body with
  | none => []
  | some i => body.take i

/-- The part that is left as the body. -/
def LineEnd.remainder (style : LineEnd) (body : Bytes) : Bytes :=
  match style.misplaced body with
  | none => body
  | some i => body.drop (i + 4)

theorem LineEnd.text_eq (style : LineEnd) :
    ∃ first more, style.text = first :: more ∧ first ∉ more := by
  cases style with
  | crlf => exact ⟨13, [10], rfl, by decide⟩
  | lf => exact ⟨10, [], rfl, by decide⟩

theorem LineEnd.not_infix {line : Bytes} (isLine : style.IsLine line) : ¬ style.text <:+: line := by
  cases style with
  | crlf => exact isLine
  | lf => exact fun occurs => isLine.1 ((List.singleton_infix_iff 10 line).mp occurs)

theorem LineEnd.isLine_append {start line : Bytes} (free : ∀ c ∈ start, c ≠ 13 ∧ c ≠ 10)
    (isLine : style.IsLine line) : style.IsLine (start ++ line) := by
  cases style with
  | crlf => exact IsLine.append (fun member => (free 13 member).1 rfl) isLine
  | lf =>
    obtain ⟨noEnd, last⟩ := isLine
    refine ⟨?_, ?_⟩
    · rw [List.mem_append, not_or]
      exact ⟨fun member => (free 10 member).2 rfl, noEnd⟩
    · rw [List.getLast?_append]
      cases shape : line.getLast? with
      | none => exact fun same => (free 13 (List.mem_of_getLast? same)).1 rfl
      | some c =>
        rw [shape] at last
        exact last

theorem PlainHead.areLines : ∀ line ∈ h.lines, line ≠ [] ∧ style.IsLine line := by
  have shape : h.statusLine = (ascii "HTTP/1." ++ [h.minor, 32]) ++ h.status := by
    simp [PlainHead.statusLine]
  have free : ∀ c ∈ ascii "HTTP/1." ++ [h.minor, 32], c ≠ 13 ∧ c ≠ 10 := by
    have version : ∀ c ∈ ascii "HTTP/1.", c ≠ 13 ∧ c ≠ 10 := by decide
    have minor : h.minor ≠ 13 ∧ h.minor ≠ 10 := by
      constructor <;> exact fun same => absurd (same ▸ h.isMinor) (by decide)
    intro c member
    rcases List.mem_append.mp member with inVersion | inRest
    · exact version c inVersion
    · rcases List.mem_pair.mp inRest with rfl | rfl
      · exact minor
      · decide
  have statusLine : h.statusLine ≠ [] ∧ style.IsLine h.statusLine :=
    ⟨by simp [PlainHead.statusLine], shape ▸ LineEnd.isLine_append free h.isStatus⟩
  exact List.forall_mem_cons.mpr ⟨statusLine, h.areFields⟩

/-- The first blank line of the own style is the one that ends the headers. -/
theorem PlainHead.find_own : find (h.text ++ body) (style.text ++ style.text) 0 =
    some ((ended style.text h.lines).length - style.text.length) := by
  obtain ⟨first, more, same, fresh⟩ := style.text_eq
  have areLines : ∀ line ∈ h.lines, line ≠ [] ∧ ¬ first :: more <:+: line := fun line member =>
    ⟨(h.areLines line member).1, same ▸ LineEnd.not_infix (h.areLines line member).2⟩
  have found : find ([] ++ (ended (first :: more) h.lines ++ (first :: more ++ body)))
      (first :: more ++ first :: more) 0 =
      some (0 + (ended (first :: more) h.lines).length - (first :: more).length) :=
    find_closing fresh (List.cons_ne_nil _ _) areLines
  rw [PlainHead.text, same, List.append_assoc]
  simpa only [List.nil_append, Nat.zero_add] using found

/-- No line end of the first style begins here, whatever follows. -/
def Unbroken (s : Bytes) : Prop := ∀ rest, ∀ j < s.length, ¬ crlf <+: (s ++ rest).drop j

theorem Unbroken.append {s t : Bytes} (first : Unbroken s) (second : Unbroken t) :
    Unbroken (s ++ t) := by
  intro rest j before
  rw [List.append_assoc]
  rcases Nat.lt_or_ge j s.length with inside | after
  · exact first (t ++ rest) j inside
  · obtain ⟨k, rfl⟩ := Nat.exists_eq_add_of_le after
    rw [List.drop_length_add_append]
    rw [List.length_append] at before
    exact second rest k (Nat.lt_of_add_lt_add_left before)

theorem unbroken_line {line : Bytes} (isLine : LineEnd.lf.IsLine line) : Unbroken line := by
  obtain ⟨noEnd, last⟩ := isLine
  intro rest j before occurs
  have suffix : line.drop j <:+ line := List.drop_suffix j line
  rw [List.drop_append_of_le_length before.le] at occurs
  cases shape : line.drop j with
  | nil => exact absurd (List.drop_eq_nil_iff.mp shape) (Nat.not_le.mpr before)
  | cons c v =>
    rw [shape] at occurs suffix
    obtain ⟨rfl, next⟩ := List.cons_prefix_cons.mp occurs
    cases v with
    | nil => exact last (List.singleton_suffix_iff_getLast?_eq_some.mp suffix)
    | cons d v =>
      have same := (List.cons_prefix_cons.mp next).1
      exact noEnd (suffix.subset (by simp [same]))

theorem unbroken_lineFeed : Unbroken [10] := by
  intro rest j before occurs
  obtain rfl : j = 0 := Nat.lt_one_iff.mp before
  exact absurd (List.cons_prefix_cons.mp occurs).1 (by decide)

theorem unbroken_ended {lines : List Bytes} (areLines : ∀ line ∈ lines, LineEnd.lf.IsLine line) :
    Unbroken (ended [10] lines) := by
  induction lines with
  | nil => exact fun rest j before => absurd before (Nat.not_lt_zero j)
  | cons line lines ih =>
    rw [ended_cons]
    have rest := ih fun line member => areLines line (List.mem_cons_of_mem _ member)
    exact (unbroken_line (areLines line List.mem_cons_self)).append (unbroken_lineFeed.append rest)

/-! ### The split -/

theorem PlainHead.split : splitHeaders (h.text ++ body) =
    match style.misplaced body with
    | none => ((ended style.text h.lines).length - style.text.length, h.text.length)
    | some i => (h.text.length + i, h.text.length + i + 4) := by
  have own := h.find_own body
  have length : h.text.length = (ended style.text h.lines).length + style.text.length :=
    List.length_append
  have long : style.text.length ≤ (ended style.text h.lines).length := by
    rw [PlainHead.lines, ended_cons, List.length_append, List.length_append]
    omega
  cases style with
  | crlf =>
    have two : LineEnd.crlf.text.length = 2 := rfl
    have found : find (h.text ++ body) (crlf ++ crlf) 0 = _ := own
    rw [splitHeaders, found]
    simp only [LineEnd.misplaced, Prod.mk.injEq, true_and]
    omega
  | lf =>
    have one : LineEnd.lf.text.length = 1 := rfl
    have unbroken : Unbroken h.text := by
      refine Unbroken.append (unbroken_ended fun line member => ?_) unbroken_lineFeed
      exact (h.areLines line member).2
    have later : find ([] ++ h.text ++ body) (crlf ++ crlf) 0 =
        (find body (crlf ++ crlf) 0).map (h.text.length + ·) := by
      have passed : find ([] ++ h.text ++ body) (crlf ++ crlf) 0 =
          find ([] ++ h.text ++ body) (crlf ++ crlf) (0 + h.text.length) :=
        find_pass fun j before occurs =>
          unbroken body j before ((List.prefix_append crlf crlf).trans occurs)
      rw [passed, List.nil_append, Nat.zero_add]
      exact find_after
    have found : find (h.text ++ body) [10, 10] 0 = _ := own
    rw [List.nil_append] at later
    rw [splitHeaders, later, found]
    cases place : find body (crlf ++ crlf) 0 with
    | none =>
      have misplaced : LineEnd.lf.misplaced body = none := place
      rw [misplaced]
      simp only [Option.map_none, Prod.mk.injEq, true_and]
      omega
    | some i =>
      have misplaced : LineEnd.lf.misplaced body = some i := place
      rw [misplaced]
      rfl

theorem PlainHead.begins :
    (h.text ++ body).take 5 = ascii "HTTP/" ∧ find (h.text ++ body) [32] 0 = some 8 := by
  have shape : h.text ++ body = ascii "HTTP/1." ++ [h.minor] ++ [32] ++
      (h.status ++ (style.text ++ (ended style.text h.fields ++ (style.text ++ body)))) := by
    simp [PlainHead.text, PlainHead.lines, ended_cons, PlainHead.statusLine]
  rw [shape]
  exact reply_begins h.isMinor _

/-- A head mentions the coding where one of its lines does. -/
theorem PlainHead.mentions_headers :
    Mentions ((h.text ++ body).take (splitHeaders (h.text ++ body)).1) ↔
      (∃ line ∈ h.lines, Mentions line) ∨ Mentions (style.swallowed body) := by
  have isEnd : style.text = crlf ∨ style.text = [10] := by cases style <;> simp [LineEnd.text, crlf]
  obtain ⟨block, shape, mentions⟩ := mentions_block isEnd (List.cons_ne_nil h.statusLine h.fields)
  have text : h.text = block ++ style.text ++ style.text := congrArg (· ++ style.text) shape
  rw [h.split body, LineEnd.swallowed]
  cases style.misplaced body with
  | none =>
    have own : (ended style.text h.lines).length - style.text.length = block.length := by
      rw [PlainHead.lines, shape, List.length_append, Nat.add_sub_cancel]
    simp only [own]
    rw [text, List.append_assoc, List.append_assoc, List.take_left, or_iff_left not_mentions_nil]
    exact mentions
  | some i =>
    simp only
    have across : Mentions ([] ++ (style.text ++ body.take i)) ↔
        Mentions [] ∨ Mentions (body.take i) := mentions_ended isEnd
    rw [List.take_length_add_append, PlainHead.text, List.append_assoc, mentions_lines isEnd]
    exact or_congr_right (across.trans (or_iff_right not_mentions_nil))

theorem PlainHead.drop_headers :
    (h.text ++ body).drop (splitHeaders (h.text ++ body)).2 = style.remainder body := by
  rw [h.split body, LineEnd.remainder]
  cases style.misplaced body with
  | none => exact List.drop_left
  | some i =>
    simp only
    rw [Nat.add_assoc, List.drop_length_add_append]

/-- What is read as headers decides over what is read as the body. -/
theorem PlainHead.parse : parseHttpResponse (h.text ++ body) =
    if (∃ line ∈ h.lines, Mentions line) ∨ Mentions (style.swallowed body) then
      (dechunk (style.remainder body)).map (⟨true, atoi ((h.text ++ body).drop 9), ·⟩)
    else some ⟨true, atoi ((h.text ++ body).drop 9), style.remainder body⟩ := by
  obtain ⟨start, space⟩ := h.begins body
  rw [parseHttpResponse_split start space, h.drop_headers]
  exact if_congr (h.mentions_headers body) rfl rfl

/-! ### The body -/

/-- The reply is accepted with exactly the bytes after the head as its body. -/
def PlainHead.Keeps : Prop :=
  ∃ r, parseHttpResponse (h.text ++ body) = some r ∧ r.ok = true ∧ r.body = body

/-- The text of the coding stands in what is read as headers, and what is left happens to be chunks
of the whole body. -/
def PlainHead.Coincides : Prop :=
  ((∃ line ∈ h.lines, Mentions line) ∨ Mentions (style.swallowed body)) ∧
    dechunk (style.remainder body) = some body

theorem LineEnd.misplaced_eq_none : style.misplaced body = none ↔
    style = .crlf ∨ ¬ ascii "\r\n\r\n" <:+: body := by
  have blank : LineEnd.crlf.text ++ LineEnd.crlf.text = ascii "\r\n\r\n" := by decide
  cases style with
  | crlf => exact iff_of_true rfl (Or.inl rfl)
  | lf =>
    have never : LineEnd.lf ≠ .crlf := nofun
    rw [or_iff_right never, ← blank, ← find_isSome_iff, LineEnd.misplaced, Bool.not_eq_true,
      Option.isSome_eq_false_iff, Option.isNone_iff_eq_none]

theorem LineEnd.remainder_eq : style.remainder body = body ↔ style.misplaced body = none := by
  rw [LineEnd.remainder]
  cases place : style.misplaced body with
  | none => simp
  | some i =>
    have inside : i + 4 ≤ body.length := by
      cases style with
      | crlf => contradiction
      | lf => exact (find_bound place).2
    refine iff_of_false (fun same => ?_) nofun
    have length := congrArg List.length same
    simp only [List.length_drop] at length
    omega

/-- A reply keeps its body, unless a line mentions the chunked coding or a body after bare line feeds
has a blank line of the other style. -/
theorem parseHttpResponse_keeps_iff : h.Keeps body ↔
    ((∀ line ∈ h.lines, ¬ Mentions line) ∧ (style = .crlf ∨ ¬ ascii "\r\n\r\n" <:+: body)) ∨
      h.Coincides body := by
  rw [PlainHead.Keeps, h.parse body, ← LineEnd.misplaced_eq_none, PlainHead.Coincides]
  by_cases mentions : (∃ line ∈ h.lines, Mentions line) ∨ Mentions (style.swallowed body)
  · have notFirst : ¬ ((∀ line ∈ h.lines, ¬ Mentions line) ∧ style.misplaced body = none) := by
      rintro ⟨unmentioned, none⟩
      rcases mentions with ⟨line, member, mentioned⟩ | swallowed
      · exact unmentioned line member mentioned
      · rw [LineEnd.swallowed, none] at swallowed
        exact not_mentions_nil swallowed
    rw [if_pos mentions, or_iff_right notFirst, and_iff_right mentions]
    cases dechunk (style.remainder body) with
    | none => simp
    | some out => simp
  · have unmentioned : ∀ line ∈ h.lines, ¬ Mentions line := fun line member mentioned =>
      mentions (Or.inl ⟨line, member, mentioned⟩)
    rw [if_neg mentions, or_iff_left fun both => mentions both.1, and_iff_right unmentioned,
      ← LineEnd.remainder_eq]
    simp

/-- A reply without header lines, written with bare line feeds. -/
def bareHead : PlainHead .lf where
  minor := 49
  status := ascii "200 OK"
  fields := []
  isMinor := isDigit_one
  isStatus := by simp only [LineEnd.IsLine]; decide
  areFields := fun _ member => absurd member List.not_mem_nil
  plain := fun _ _ => List.not_mem_nil

theorem bareHead_loses : bareHead.text = ascii "HTTP/1.1 200 OK\n\n" ∧
    parseHttpResponse (bareHead.text ++ ascii "a\r\n\r\nb") = some ⟨true, 200, ascii "b"⟩ ∧
    ¬ bareHead.Keeps (ascii "a\r\n\r\nb") := by
  have parsed : parseHttpResponse (bareHead.text ++ ascii "a\r\n\r\nb") =
      some ⟨true, 200, ascii "b"⟩ := by
    have split := bareHead.parse (ascii "a\r\n\r\nb")
    rw [if_neg (by decide)] at split
    exact split.trans (by decide)
  refine ⟨by decide, parsed, ?_⟩
  rintro ⟨r, same, -, body⟩
  rw [parsed, Option.some.injEq] at same
  rw [← same] at body
  exact absurd body (by decide)

end StreamEngine.Net
