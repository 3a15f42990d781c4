import StreamEngine.Library.Lines
import StreamEngine.Net.DechunkProofs

/-! Complete HTTP replies as their parts. A chunked payload is read back whatever it is cut into: the
position of the loop is always at a size line, and the bytes of a chunk are never searched. -/
namespace StreamEngine.Net
open ByteString Decimal

variable {pre line rest : Bytes}

/-! ### Lines -/

/-- A text without a line end. -/
def IsLine (line : Bytes) : Prop := ¬ crlf <:+: line

/-- The end of a line is its own. -/
theorem IsLine.absent (isLine : IsLine line) (rest : Bytes) :
    ∀ j < line.length, ¬ crlf <+: (line ++ (crlf ++ rest)).drop j :=
  line_absent (by decide) isLine rest

theorem find_line_end (isLine : IsLine line) :
    find (pre ++ line ++ (crlf ++ rest)) crlf pre.length = some (pre.length + line.length) := by
  rw [find_pass (isLine.absent rest), ← List.length_append]
  exact find_here (List.prefix_append _ _)

/-! ### Headers -/

/-- The lines of a reply up to its body. -/
structure Head where
  minor : UInt8
  status : Bytes
  fields : List Bytes
  isMinor : isDigit minor = true
  isStatus : IsLine status
  areFields : ∀ line ∈ fields, line ≠ [] ∧ IsLine line

def Head.statusLine (h : Head) : Bytes := ascii "HTTP/1." ++ (h.minor :: 32 :: h.status)

def Head.lines (h : Head) : List Bytes := h.statusLine :: h.fields

def linesText (lines : List Bytes) : Bytes := lines.flatMap fun line => line ++ crlf

def Head.text (h : Head) : Bytes := linesText h.lines ++ crlf

theorem isLine_nil : IsLine [] := by
  rintro ⟨u, v, shape⟩
  simp [crlf] at shape

theorem IsLine.cons {c : UInt8} (other : c ≠ 13) (isLine : IsLine line) : IsLine (c :: line) := by
  intro occurs
  rcases List.infix_cons_iff.mp occurs with here | later
  · obtain ⟨v, shape⟩ := here
    exact other (List.cons.inj shape).1.symm
  · exact isLine later

theorem IsLine.append {s : Bytes} (free : 13 ∉ s) (isLine : IsLine line) : IsLine (s ++ line) := by
  induction s with
  | nil => exact isLine
  | cons c s ih =>
    rw [List.mem_cons, not_or] at free
    exact (ih free.2).cons (Ne.symm free.1)

theorem isLine_of_free (free : 13 ∉ line) : IsLine line :=
  List.append_nil line ▸ IsLine.append free isLine_nil

theorem Head.areLines (h : Head) : ∀ line ∈ h.lines, line ≠ [] ∧ IsLine line := by
  have statusLine : h.statusLine ≠ [] ∧ IsLine h.statusLine := by
    have minor : h.minor ≠ 13 := fun same => absurd (same ▸ h.isMinor) (by decide)
    refine ⟨by simp [Head.statusLine], IsLine.append (by decide) ?_⟩
    exact (h.isStatus.cons (by decide)).cons minor
  exact List.forall_mem_cons.mpr ⟨statusLine, h.areFields⟩

/-- The first empty line is the one that ends the headers. -/
theorem find_blank {lines : List Bytes} (some_ : lines ≠ [])
    (areLines : ∀ line ∈ lines, line ≠ [] ∧ IsLine line) :
    find (pre ++ (linesText lines ++ (crlf ++ rest))) (crlf ++ crlf) pre.length =
      some (pre.length + (linesText lines).length - 2) :=
  find_closing (by decide) some_ areLines

theorem Head.split (h : Head) (body : Bytes) :
    splitHeaders (h.text ++ body) = (h.text.length - 4, h.text.length) := by
  have blank : find ([] ++ (linesText h.lines ++ (crlf ++ body))) (crlf ++ crlf) 0 =
      some (0 + (linesText h.lines).length - 2) := find_blank (List.cons_ne_nil _ _) h.areLines
  have shape : h.text ++ body = [] ++ (linesText h.lines ++ (crlf ++ body)) := by
    simp [Head.text]
  have length : h.text.length = (linesText h.lines).length + 2 := by simp [Head.text, crlf]
  have long : 2 ≤ (linesText h.lines).length := by
    simp only [linesText, Head.lines, List.flatMap_cons, List.length_append, crlf, List.length_cons]
    omega
  rw [splitHeaders, shape, blank]
  simp only [length, Prod.mk.injEq]
  omega

/-- A field stands in the headers as they are cut off. -/
theorem Head.field_infix (h : Head) {line : Bytes} (member : line ∈ h.fields) (body : Bytes) :
    line <:+: (h.text ++ body).take (h.text.length - 4) := by
  obtain ⟨before, after, split⟩ := List.append_of_mem member
  have shape : h.text ++ body = (linesText (h.statusLine :: before) ++ line) ++
      (crlf ++ (linesText after ++ (crlf ++ body))) := by
    simp [Head.text, Head.lines, linesText, split]
  have length : h.text.length = (linesText (h.statusLine :: before) ++ line).length +
      (2 + ((linesText after).length + 2)) := by
    simp [Head.text, Head.lines, linesText, split, crlf]
    omega
  have inside : linesText (h.statusLine :: before) ++ line <+:
      (h.text ++ body).take (h.text.length - 4) := by
    rw [shape]
    exact List.prefix_take_iff.mpr ⟨List.prefix_append _ _, by omega⟩
  exact (List.suffix_append _ _).isInfix.trans inside.isInfix

/-! ### Chunks -/

/-- Value of a string of hexadecimal digits, from the digits before it. -/
def hexSize (n : Nat) (digits : Bytes) : Nat :=
  digits.foldl (fun n c => n * 16 + (hexVal c).getD 0) n

/-- A size in either case, with any leading zeros. -/
structure SpellsSize (n : Nat) (digits : Bytes) : Prop where
  nonempty : digits ≠ []
  isHex : ∀ c ∈ digits, (hexVal c).isSome = true
  value : hexSize 0 digits = n

/-- An extension of a size line, or none. -/
def IsExtension (ext : Bytes) : Prop := ext = [] ∨ ∃ t, ext = 59 :: t ∧ IsLine t

theorem le_hexSize (n : Nat) (digits : Bytes) : n ≤ hexSize n digits := by
  induction digits generalizing n with
  | nil => exact le_refl n
  | cons c digits ih =>
    have step : n ≤ n * 16 + (hexVal c).getD 0 := by omega
    exact step.trans (ih _)

/-- The digits are read up to the extension, as long as their value is a `size_t`. -/
theorem chunkSize_digits {digits ext : Bytes} {n : Nat} (isHex : ∀ c ∈ digits, (hexVal c).isSome = true)
    (extension : IsExtension ext) (small : hexSize n digits < 2 ^ 64) :
    chunkSize n (digits ++ ext) = hexSize n digits := by
  induction digits generalizing n with
  | nil =>
    rcases extension with rfl | ⟨t, rfl, -⟩
    · rfl
    · rfl
  | cons c digits ih =>
    obtain ⟨v, value⟩ := Option.isSome_iff_exists.mp (isHex c List.mem_cons_self)
    have next : hexSize n (c :: digits) = hexSize (n * 16 + v) digits := by
      rw [hexSize, List.foldl_cons, value]
      rfl
    rw [next] at small ⊢
    have fits := le_hexSize (n * 16 + v) digits
    rw [List.cons_append, chunkSize, value]
    simp only [sizeT_of_lt (lt_of_le_of_lt fits small)]
    exact ih (fun d member => isHex d (List.mem_cons_of_mem c member)) small

theorem isLine_size {n : Nat} {digits ext : Bytes} (spells : SpellsSize n digits)
    (extension : IsExtension ext) : IsLine (digits ++ ext) := by
  refine IsLine.append (fun member => absurd (spells.isHex 13 member) (by decide)) ?_
  rcases extension with rfl | ⟨t, rfl, isLine⟩
  · exact isLine_nil
  · exact isLine.cons (by decide)

/-- A chunk with some data, and the line of its size. -/
structure Chunk where
  data : Bytes
  size : Bytes
  ext : Bytes
  nonempty : data ≠ []
  spells : SpellsSize data.length size
  extension : IsExtension ext

def Chunk.text (c : Chunk) : Bytes := c.size ++ c.ext ++ (crlf ++ (c.data ++ crlf))

/-- A chunked body with the line of its closing chunk, and what follows it. -/
structure ChunkedBody where
  chunks : List Chunk
  size : Bytes
  ext : Bytes
  trailer : Bytes
  spells : SpellsSize 0 size
  extension : IsExtension ext

def ChunkedBody.payload (b : ChunkedBody) : Bytes := b.chunks.flatMap Chunk.data

def ChunkedBody.closing (b : ChunkedBody) : Bytes := b.size ++ b.ext ++ (crlf ++ b.trailer)

def ChunkedBody.text (b : ChunkedBody) : Bytes := b.chunks.flatMap Chunk.text ++ b.closing

/-- What a size line announces, wherever it stands. -/
theorem chunkAt_line {digits ext : Bytes} {n : Nat} (spells : SpellsSize n digits)
    (extension : IsExtension ext)
    (small : (pre ++ (digits ++ ext) ++ (crlf ++ rest)).length < 2 ^ 64) (fits : n < 2 ^ 64) :
    chunkAt (pre ++ (digits ++ ext) ++ (crlf ++ rest)) pre.length =
      if n = 0 then none else some ((pre ++ (digits ++ ext) ++ crlf).length, n) := by
  have eol : find (pre ++ (digits ++ ext) ++ (crlf ++ rest)) crlf pre.length =
      some (pre.length + (digits ++ ext).length) := find_line_end (isLine_size spells extension)
  have line : substr (pre ++ (digits ++ ext) ++ (crlf ++ rest)) pre.length
      (pre.length + (digits ++ ext).length - pre.length) = digits ++ ext := by
    rw [Nat.add_sub_cancel_left, substr, List.append_assoc, List.drop_left, List.take_left]
  have value : chunkSize 0 (digits ++ ext) = n := by
    rw [chunkSize_digits spells.isHex extension (spells.value.symm ▸ fits), spells.value]
  have two : crlf.length = 2 := rfl
  have whole : (pre ++ (digits ++ ext) ++ (crlf ++ rest)).length =
      pre.length + (digits ++ ext).length + (2 + rest.length) := by
    rw [List.length_append, List.length_append]
    exact congrArg _ List.length_append
  have sum : (pre ++ (digits ++ ext) ++ crlf).length = pre.length + (digits ++ ext).length + 2 := by
    rw [List.length_append, two, List.length_append]
  have start : sizeT (pre.length + (digits ++ ext).length + 2) =
      (pre ++ (digits ++ ext) ++ crlf).length := by
    rw [sum, sizeT_of_lt (by omega)]
  rw [chunkAt, if_pos (by omega)]
  simp only [eol, line, value, start]

/-- The loop from the size line of any chunk on. -/
theorem dechunk_run {chunks : List Chunk} {out : Bytes} {fuel : Nat} (b : ChunkedBody)
    (small : (pre ++ (chunks.flatMap Chunk.text ++ b.closing)).length < 2 ^ 64)
    (enough : chunks.length < fuel) :
    Loop.run (dechunkStep (pre ++ (chunks.flatMap Chunk.text ++ b.closing))) fuel (pre.length, out) =
      some (out ++ chunks.flatMap Chunk.data) := by
  induction chunks generalizing pre out fuel with
  | nil =>
    obtain ⟨fuel, rfl⟩ := Nat.exists_eq_add_one_of_ne_zero (Nat.ne_zero_of_lt enough)
    have shape : pre ++ (List.flatMap Chunk.text [] ++ b.closing) =
        pre ++ (b.size ++ b.ext) ++ (crlf ++ b.trailer) := by simp [ChunkedBody.closing]
    rw [shape] at small ⊢
    have last := chunkAt_line b.spells b.extension small (by decide)
    have leaves : dechunkStep (pre ++ (b.size ++ b.ext) ++ (crlf ++ b.trailer)) (pre.length, out) =
        .inr out := by
      simp only [dechunkStep, nextChunk, last, if_true]
    rw [Loop.run_leave leaves, List.flatMap_nil, List.append_nil]
  | cons c chunks ih =>
    obtain ⟨fuel, rfl⟩ := Nat.exists_eq_add_one_of_ne_zero (Nat.ne_zero_of_lt enough)
    let start := pre ++ (c.size ++ c.ext) ++ crlf
    let more := chunks.flatMap Chunk.text ++ b.closing
    have line : pre ++ (List.flatMap Chunk.text (c :: chunks) ++ b.closing) =
        pre ++ (c.size ++ c.ext) ++ (crlf ++ (c.data ++ (crlf ++ more))) := by
      simp [Chunk.text, more]
    have data : pre ++ (c.size ++ c.ext) ++ (crlf ++ (c.data ++ (crlf ++ more))) =
        start ++ (c.data ++ (crlf ++ more)) := by simp [start]
    have later : start ++ (c.data ++ (crlf ++ more)) = start ++ c.data ++ crlf ++ more := by simp
    rw [line] at small ⊢
    have two : crlf.length = 2 := rfl
    have whole : (pre ++ (c.size ++ c.ext) ++ (crlf ++ (c.data ++ (crlf ++ more)))).length =
        (start ++ c.data ++ crlf).length + more.length := by
      rw [data, later]
      exact List.length_append
    have after : (start ++ c.data ++ crlf).length = start.length + c.data.length + 2 := by
      rw [List.length_append, List.length_append, two]
    have announced : chunkAt (pre ++ (c.size ++ c.ext) ++ (crlf ++ (c.data ++ (crlf ++ more))))
        pre.length = some (start.length, c.data.length) := by
      rw [chunkAt_line c.spells c.extension small (by omega),
        if_neg (mt List.length_eq_zero_iff.mp c.nonempty)]
    have taken : substr (start ++ (c.data ++ (crlf ++ more))) start.length c.data.length = c.data := by
      rw [substr, List.drop_left, List.take_left]
    have next : nextChunk (start ++ (c.data ++ (crlf ++ more))) pre.length =
        some (start.length, c.data.length) := by
      rw [← data]
      simp only [nextChunk, announced]
      rw [sizeT_of_lt (by omega), if_neg (by omega)]
    have continues : dechunkStep (start ++ (c.data ++ (crlf ++ more))) (pre.length, out) =
        .inl ((start ++ c.data ++ crlf).length, out ++ c.data) := by
      simp only [dechunkStep, next, taken, afterChunk, after]
      rw [sizeT_of_lt (by omega)]
    rw [data] at small ⊢
    rw [Loop.run_continue continues, later]
    rw [later] at small
    rw [ih small (Nat.lt_of_succ_lt_succ enough), List.flatMap_cons, List.append_assoc]

/-- Decoding undoes every way to cut a payload into chunks. -/
theorem dechunk_text (b : ChunkedBody) (small : b.text.length < 2 ^ 64) :
    dechunk b.text = some b.payload := by
  have count : ∀ chunks : List Chunk, chunks.length ≤ (chunks.flatMap Chunk.text).length := by
    intro chunks
    induction chunks with
    | nil => exact Nat.zero_le _
    | cons c chunks ih =>
      have two : crlf.length = 2 := rfl
      simp only [List.flatMap_cons, List.length_append, List.length_cons, Chunk.text, two]
      omega
  have enough : b.chunks.length < b.text.length + 1 := by
    have fewer := count b.chunks
    simp only [ChunkedBody.text, List.length_append]
    omega
  have run : Loop.run (dechunkStep ([] ++ b.text)) (b.text.length + 1) ([].length, []) =
      some ([] ++ b.payload) := dechunk_run b small enough
  exact run

/-! ### Replies -/

/-- One field declares the chunked coding, in any letter case. -/
def Head.Chunked (h : Head) : Prop :=
  ∃ line ∈ h.fields, line.map toLower = ascii "transfer-encoding: chunked"

/-- The status code begins behind the first space, which is at the same place in all replies. -/
theorem reply_begins {minor : UInt8} (isMinor : isDigit minor = true) (rest : Bytes) :
    (ascii "HTTP/1." ++ [minor] ++ [32] ++ rest).take 5 = ascii "HTTP/" ∧
      find (ascii "HTTP/1." ++ [minor] ++ [32] ++ rest) [32] 0 = some 8 := by
  have notSpace : minor ≠ 32 := fun same => absurd (same ▸ isMinor) (by decide)
  have version : 32 ∉ ascii "HTTP/1." := by decide
  have free : 32 ∉ ascii "HTTP/1." ++ [minor] := by simp [version, Ne.symm notSpace]
  have found : find ([] ++ (ascii "HTTP/1." ++ [minor]) ++ [32] ++ rest) [32] 0 =
      some (0 + (ascii "HTTP/1." ++ [minor]).length) := find_end rfl free
  have seven : (ascii "HTTP/1.").length = 7 := rfl
  exact ⟨rfl, by simpa [seven] using found⟩

theorem Head.text_eq (h : Head) : ∃ rest, h.text = ascii "HTTP/1." ++ [h.minor] ++ [32] ++ rest := by
  refine ⟨h.status ++ (crlf ++ (linesText h.fields ++ crlf)), ?_⟩
  simp [Head.text, linesText, Head.lines, Head.statusLine]

theorem Head.begins (h : Head) (body : Bytes) :
    (h.text ++ body).take 5 = ascii "HTTP/" ∧ find (h.text ++ body) [32] 0 = some 8 := by
  obtain ⟨rest, shape⟩ := h.text_eq
  rw [shape, List.append_assoc]
  exact reply_begins h.isMinor (rest ++ body)

theorem Head.take_five (h : Head) (body : Bytes) : (h.text ++ body).take 5 = ascii "HTTP/" :=
  (h.begins body).1

theorem Head.space (h : Head) (body : Bytes) : find (h.text ++ body) [32] 0 = some 8 :=
  (h.begins body).2

theorem Head.declares (h : Head) (chunked : h.Chunked) (body : Bytes) :
    (find (((h.text ++ body).take (h.text.length - 4)).map toLower)
      (ascii "transfer-encoding: chunked") 0).isSome = true := by
  obtain ⟨line, member, lower⟩ := chunked
  rw [← lower]
  obtain ⟨before, after, split⟩ := h.field_infix member body
  refine find_isSome ⟨before.map toLower, after.map toLower, ?_⟩
  rw [← split, List.map_append, List.map_append]

/-- A chunked reply is accepted with exactly its payload, whatever the payload is and however it is
cut. -/
theorem parseHttpResponse_chunked (h : Head) (b : ChunkedBody) (chunked : h.Chunked)
    (representable : (h.text ++ b.text).length < 2 ^ 64) : parseHttpResponse (h.text ++ b.text) =
      some ⟨true, atoi ((h.text ++ b.text).drop 9), b.payload⟩ := by
  have body : (h.text ++ b.text).drop h.text.length = b.text := List.drop_left
  have small : b.text.length < 2 ^ 64 := by
    rw [List.length_append] at representable
    omega
  rw [parseHttpResponse, if_neg (not_not.mpr (h.take_five b.text)), h.space b.text]
  simp only [h.split b.text, h.declares chunked b.text, if_true, body, dechunk_text b small,
    Option.map_some]

theorem isDigit_one : isDigit 49 = true := by decide

theorem isLine_ok : IsLine (ascii "200 OK") := isLine_of_free (by decide)

def exampleHead : Head where
  minor := 49
  status := ascii "200 OK"
  fields := [ascii "Server: x", ascii "TRANSFER-Encoding: Chunked"]
  isMinor := isDigit_one
  isStatus := isLine_ok
  areFields := by
    intro line member
    have nonempty : ∀ line ∈ [ascii "Server: x", ascii "TRANSFER-Encoding: Chunked"],
        line ≠ [] ∧ 13 ∉ line := by decide
    obtain ⟨some_, free⟩ := nonempty line member
    exact ⟨some_, isLine_of_free free⟩

/-- A line end as the data of a chunk, with a size that has a leading zero and an extension. -/
def exampleBody : ChunkedBody where
  chunks :=
    [{ data := [13, 10], size := ascii "02", ext := ascii ";a=b", nonempty := by decide,
       spells := ⟨by decide, by decide, by decide⟩,
       extension := Or.inr ⟨ascii "a=b", rfl, isLine_of_free (by decide)⟩ }]
  size := ascii "0"
  ext := []
  trailer := crlf
  spells := ⟨by decide, by decide, by decide⟩
  extension := Or.inl rfl

theorem parseHttpResponse_chunked_example :
    parseHttpResponse (exampleHead.text ++ exampleBody.text) = some ⟨true, 200, [13, 10]⟩ := by
  have status : atoi ((exampleHead.text ++ exampleBody.text).drop 9) = 200 := by decide
  rw [parseHttpResponse_chunked exampleHead exampleBody
    ⟨ascii "TRANSFER-Encoding: Chunked", by decide, by decide⟩ (by decide), status]
  rfl

end StreamEngine.Net
