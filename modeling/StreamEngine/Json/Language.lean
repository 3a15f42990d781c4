import StreamEngine.Json.RoundTrip
import StreamEngine.Library.JsonSpelling

/-! The texts that the parser accepts, as a spelling. It is RFC 8259 relaxed at the
tokens: a string may hold any byte but a quote and a backslash, and a number is what
`strtod` reads whole. Only a lone high surrogate is refused. -/
namespace StreamEngine.Json
open ByteString Binary64 Decimal JsonText

variable {S N : Type}

mutual
/-- The value of a document whose strings and numbers have these values. A later binding of
a key replaces the earlier ones. -/
def valueOf (f : S → Bytes) (g : N → Double) : Document S N → Value
  | .null => .null
  | .bool b => .bool b
  | .num n => .num (g n)
  | .str s => .str (f s)
  | .arr items => .arr (itemsOf f g items)
  | .obj members => .obj (membersOf f g members [])

def itemsOf (f : S → Bytes) (g : N → Double) : List (Document S N) → List Value
  | [] => []
  | d :: ds => valueOf f g d :: itemsOf f g ds

def membersOf (f : S → Bytes) (g : N → Double) :
    List (S × Document S N) → List (Bytes × Value) → List (Bytes × Value)
  | [], earlier => earlier
  | (k, d) :: ms, earlier => membersOf f g ms (OrderedMap.insert (f k) (valueOf f g d) earlier)
end

/-- The last binding of a key is the one that counts. -/
theorem lookup_membersOf (f : S → Bytes) (g : N → Double) (k : Bytes)
    (ms : List (S × Document S N)) (earlier : List (Bytes × Value)) :
    OrderedMap.lookup k (membersOf f g ms earlier) =
      (((ms.reverse.find? fun m => f m.1 = k).map fun m => valueOf f g m.2).or
        (OrderedMap.lookup k earlier)) := by
  induction ms generalizing earlier with
  | nil => simp [membersOf]
  | cons m ms ih =>
    obtain ⟨key, d⟩ := m
    rw [membersOf, ih, OrderedMap.lookup_insert, List.reverse_cons, List.find?_append]
    cases ms.reverse.find? fun m => f m.1 = k with
    | some m => simp
    | none =>
      by_cases same : f key = k
      · simp [same]
      · simp [same, Ne.symm same]

/-! ### Every readable text is read -/

/-- What the parser does with the tokens of a spelling. -/
structure Readable (sp : Spelling S N) (f : S → Bytes) (g : N → Double) : Prop where
  string : ∀ {t s}, sp.string t s → ∀ rest, strBody (t ++ 34 :: rest) = some (f s, rest)
  number : ∀ {t n}, sp.number t n →
    (∀ c ∈ t, isNumberChar c = true) ∧ StartsNumber t ∧ strtod t = (g n, [])

theorem ws_blank {w rest : Bytes} {c : UInt8} (blank : Blank w) (other : isBlank c = false) :
    ws (w ++ c :: rest) = c :: rest := by
  have skipped : ws (w ++ c :: rest) = ws (c :: rest) := List.dropWhile_append_of_pos blank
  rw [skipped, ws_of_not other]

theorem ws_blank_nil {w : Bytes} (blank : Blank w) : ws w = [] := by
  have skipped : ws (w ++ []) = ws [] := List.dropWhile_append_of_pos blank
  rwa [List.append_nil] at skipped

theorem number_token {t : Bytes} {d : Double} (chars : ∀ c ∈ t, isNumberChar c = true)
    (starts : StartsNumber t) (read : strtod t = (d, [])) {rest : Bytes} (ends : Ends rest) :
    number (t ++ rest) = some (.num d, rest) := by
  have token : (t ++ rest).takeWhile inNumber = t ∧ (t ++ rest).dropWhile inNumber = rest := by
    rw [inNumber_eq, List.takeWhile_append_of_pos chars, List.dropWhile_append_of_pos chars]
    cases rest with
    | nil => simp
    | cons c rest => simp [ends c (by simp)]
  obtain ⟨c, tail, text, -⟩ := starts
  have nonempty : t ≠ [] := by simp [text]
  simp only [number, token.1, token.2, if_neg nonempty, read]

/-- The text of a part is read in front of any rest that cannot continue it. -/
def Read (f : S → Bytes) (g : N → Double) : Part S N → Bytes → Prop
  | .value d, t => ∀ {w rest}, Blank w → Ends rest →
      Reads .value (w ++ (t ++ rest)) (valueOf f g d) rest
  | .items ds, t => ∀ earlier rest,
      Reads (.items earlier) (t ++ 93 :: rest) (.arr (earlier ++ itemsOf f g ds)) rest
  | .members ms, t => ∀ earlier rest,
      Reads (.members earlier) (t ++ 125 :: rest) (.obj (membersOf f g ms earlier)) rest

theorem read_of_derives {sp : Spelling S N} {f : S → Bytes} {g : N → Double}
    (readable : Readable sp f g) {part : Part S N} {t : Bytes} (derives : Derives sp part t) :
    Read f g part t := by
  induction derives with
  | null =>
    intro w rest blank ends
    exact .wordNull (ws_blank blank rfl)
  | wordTrue =>
    intro w rest blank ends
    exact .wordTrue (ws_blank blank rfl)
  | wordFalse =>
    intro w rest blank ends
    exact .wordFalse (ws_blank blank rfl)
  | number spelled =>
    intro w rest blank ends
    obtain ⟨chars, starts, read⟩ := readable.number spelled
    have scanned := number_token chars starts read ends
    obtain ⟨c, tail, rfl, start⟩ := starts
    exact .number (ws_blank blank (number_start start).1) start scanned
  | text spelled =>
    intro w rest blank ends
    have body := readable.string spelled rest
    simp only [List.cons_append, List.append_assoc, List.nil_append]
    exact .text (ws_blank blank rfl) body
  | emptyArray inside =>
    intro w rest blank ends
    simp only [List.cons_append, List.append_assoc, List.nil_append]
    exact .emptyArray (ws_blank blank rfl) (ws_blank inside rfl)
  | array _ ih =>
    intro w rest blank ends
    simp only [List.cons_append, List.append_assoc, List.nil_append, valueOf]
    exact .array (ws_blank blank rfl) (ih [] rest)
  | emptyObject inside =>
    intro w rest blank ends
    simp only [List.cons_append, List.append_assoc, List.nil_append]
    exact .emptyObject (ws_blank blank rfl) (ws_blank inside rfl)
  | object _ ih =>
    intro w rest blank ends
    simp only [List.cons_append, List.append_assoc, List.nil_append, valueOf]
    exact .object (ws_blank blank rfl) (ih [] rest)
  | lastItem before _ after ih =>
    intro earlier rest
    simp only [List.append_assoc, itemsOf]
    exact .lastItem (ih before (after.ends (ends_cons rfl _))) (ws_blank after rfl)
  | item before _ after _ first others =>
    intro earlier rest
    have tail := fun v => others (earlier ++ [v]) rest
    simp only [List.append_assoc, List.cons_append, List.nil_append, itemsOf] at tail ⊢
    exact .item (first before (after.ends (ends_cons rfl _))) (ws_blank after rfl) (tail _)
  | lastMember before spelled colon value _ after ih =>
    intro earlier rest
    have body := readable.string spelled
    simp only [List.append_assoc, List.cons_append, membersOf]
    exact .lastMember (ws_blank before rfl) (body _) (ws_blank colon rfl)
      (ih value (after.ends (ends_cons rfl _))) (ws_blank after rfl)
  | member before spelled colon value _ after _ first others =>
    intro earlier rest
    have body := readable.string spelled
    simp only [List.append_assoc, List.cons_append, membersOf]
    exact .member (ws_blank before rfl) (body _) (ws_blank colon rfl)
      (first value (after.ends (ends_cons rfl _))) (ws_blank after rfl) (others _ _)

/-- A text of a readable spelling is accepted with the value of its document. -/
theorem parse_of_text {sp : Spelling S N} {f : S → Bytes} {g : N → Double}
    (readable : Readable sp f g) {t : Bytes} {d : Document S N} (text : Text sp t d) :
    parse t = some (valueOf f g d) := by
  obtain ⟨w, s, w', before, here, after, rfl⟩ := text
  have ends : Ends w' := by simpa using after.ends ends_nil
  exact parse_iff.mpr ⟨w', read_of_derives readable here before ends, ws_blank_nil after⟩

/-! ### What is accepted -/

/-- The escapes that the parser takes. -/
def Taken : Escape → Prop
  | .short _ => True
  | .unit h => ¬ h.High
  | .pair high low => high.High ∧ low.Low

/-- The pieces of its strings. -/
def Admitted : Piece UInt8 → Prop
  | .raw b => b ≠ 34 ∧ b ≠ 92
  | .escape e => Taken e

/-- The bytes that it makes of an escape. -/
def unescape : Escape → Bytes
  | .short e => [e.byte]
  | .unit h => encodeUtf8 h.code
  | .pair high low => encodeUtf8 (Hex.pairCode high low)

def decoded : Piece UInt8 → Bytes
  | .raw b => [b]
  | .escape e => unescape e

def decode (s : List (Piece UInt8)) : Bytes := s.flatMap decoded

@[simp] theorem decode_nil : decode [] = [] := rfl

@[simp] theorem decode_cons (p : Piece UInt8) (s : List (Piece UInt8)) :
    decode (p :: s) = decoded p ++ decode s := by
  simp [decode]

/-- The text of a string as it is written. -/
def written (s : List (Piece UInt8)) : Bytes := piecesText (fun b => [b]) s

@[simp] theorem written_nil : written [] = [] := rfl

@[simp] theorem written_cons (p : Piece UInt8) (s : List (Piece UInt8)) :
    written (p :: s) = p.text (fun b => [b]) ++ written s := by
  simp [written]

def relaxed : Spelling (List (Piece UInt8)) NumberText where
  string t s := (∀ p ∈ s, Admitted p) ∧ t = written s
  number t n := n.Valid ∧ (n.neg = false → n.whole ≠ []) ∧ t = n.text

theorem hex4_code (h : Hex) : hex4 h.a h.b h.c h.d = some h.code := by
  obtain ⟨a, b, c, d, ha, hb, hc, hd⟩ := h
  obtain ⟨a', ha'⟩ := Option.isSome_iff_exists.mp ha
  obtain ⟨b', hb'⟩ := Option.isSome_iff_exists.mp hb
  obtain ⟨c', hc'⟩ := Option.isSome_iff_exists.mp hc
  obtain ⟨d', hd'⟩ := Option.isSome_iff_exists.mp hd
  simp [hex4, Hex.code, ha', hb', hc', hd']

theorem exists_hex {a b c d : UInt8} {cp : Nat} (hex : hex4 a b c d = some cp) :
    ∃ h : Hex, h.a = a ∧ h.b = b ∧ h.c = c ∧ h.d = d ∧ h.code = cp := by
  have digits := hex
  simp only [hex4, bind, Option.bind_eq_some_iff] at digits
  obtain ⟨a', ha, b', hb, c', hc, d', hd, -⟩ := digits
  let h : Hex := ⟨a, b, c, d, by simp [ha], by simp [hb], by simp [hc], by simp [hd]⟩
  exact ⟨h, rfl, rfl, rfl, rfl, Option.some.inj ((hex4_code h).symm.trans hex)⟩

theorem shortEscape_letter (e : Short) : shortEscape e.letter = some e.byte := by
  cases e <;> rfl

theorem exists_short {e c : UInt8} (short : shortEscape e = some c) :
    ∃ s : Short, s.letter = e ∧ s.byte = c := by
  unfold shortEscape at short
  split at short
  · rename_i same; cases short; exact ⟨.quote, same.symm, rfl⟩
  split at short
  · rename_i same; cases short; exact ⟨.backslash, same.symm, rfl⟩
  split at short
  · rename_i same; cases short; exact ⟨.solidus, same.symm, rfl⟩
  split at short
  · rename_i same; cases short; exact ⟨.backspace, same.symm, rfl⟩
  split at short
  · rename_i same; cases short; exact ⟨.formFeed, same.symm, rfl⟩
  split at short
  · rename_i same; cases short; exact ⟨.newline, same.symm, rfl⟩
  split at short
  · rename_i same; cases short; exact ⟨.carriageReturn, same.symm, rfl⟩
  split at short
  · rename_i same; cases short; exact ⟨.tab, same.symm, rfl⟩
  · contradiction

theorem strBody_unit {h : Hex} (notHigh : ¬ h.High) (s : Bytes) :
    strBody (h.text ++ s) = prepend (encodeUtf8 h.code) (strBody s) := by
  have slash : ¬ (92 : UInt8) = 34 := by decide
  have notHigh : ¬ (0xd800 ≤ h.code ∧ h.code ≤ 0xdbff) := notHigh
  rw [Hex.text, List.cons_append, List.cons_append, List.cons_append, List.cons_append,
    List.cons_append, List.cons_append, List.nil_append, strBody.eq_def]
  simp only [slash, if_false, if_true, hex4_code, notHigh]

theorem strBody_pair {high low : Hex} (isHigh : high.High) (isLow : low.Low) (s : Bytes) :
    strBody (high.text ++ (low.text ++ s)) =
      prepend (encodeUtf8 (Hex.pairCode high low)) (strBody s) := by
  have slash : ¬ (92 : UInt8) = 34 := by decide
  have isHigh : 0xd800 ≤ high.code ∧ high.code ≤ 0xdbff := isHigh
  have isLow : 0xdc00 ≤ low.code ∧ low.code ≤ 0xdfff := isLow
  simp only [Hex.text, List.cons_append, List.nil_append]
  rw [strBody.eq_def]
  simp only [slash, if_false, if_true, hex4_code, isHigh, isLow, and_self]
  rfl

theorem strBody_escape {e : Escape} (taken : Taken e) (s : Bytes) :
    strBody (e.text ++ s) = prepend (unescape e) (strBody s) := by
  cases e with
  | short e =>
    have notUnicode : e.letter ≠ 117 := by cases e <;> decide
    exact strBody_short (shortEscape_letter e) notUnicode s
  | unit h => exact strBody_unit taken s
  | pair high low =>
    rw [Escape.text, List.append_assoc]
    exact strBody_pair taken.1 taken.2 s

/-- What one piece of a string adds to what is decoded. -/
theorem strBody_piece {p : Piece UInt8} (admitted : Admitted p) (s : Bytes) :
    strBody (p.text (fun b => [b]) ++ s) = prepend (decoded p) (strBody s) := by
  cases p with
  | raw b => exact strBody_plain admitted.1 admitted.2 s
  | escape e => exact strBody_escape admitted s

theorem strBody_written {s : List (Piece UInt8)} (admitted : ∀ p ∈ s, Admitted p) (rest : Bytes) :
    strBody (written s ++ 34 :: rest) = some (decode s, rest) := by
  induction s with
  | nil => exact strBody_quote rest
  | cons p s ih =>
    rw [written_cons, List.append_assoc, strBody_piece (admitted p (by simp)),
      ih fun q member => admitted q (List.mem_cons_of_mem _ member), prepend_some, decode_cons]

/-- The pieces that a decoded string was read from. -/
def Decodes (s out rest : Bytes) : Prop :=
  ∃ pieces, (∀ p ∈ pieces, Admitted p) ∧ s = written pieces ++ 34 :: rest ∧ out = decode pieces

theorem decodes_prepend {p : Piece UInt8} (admitted : Admitted p) {s out rest : Bytes}
    (body : prepend (decoded p) (strBody s) = some (out, rest))
    (others : ∀ {out}, strBody s = some (out, rest) → Decodes s out rest) :
    Decodes (p.text (fun b => [b]) ++ s) out rest := by
  obtain ⟨⟨tail, rest'⟩, read, same⟩ := Option.map_eq_some_iff.mp body
  simp only [Prod.mk.injEq] at same
  obtain ⟨rfl, rfl⟩ := same
  obtain ⟨pieces, all, rfl, rfl⟩ := others read
  refine ⟨p :: pieces, ?_, by simp, by simp⟩
  intro q member
  rcases List.mem_cons.mp member with rfl | member
  · exact admitted
  · exact all q member

theorem strBody_decodes {s out rest : Bytes} (body : strBody s = some (out, rest)) :
    Decodes s out rest := by
  fun_induction strBody s generalizing out with
  | case2 s =>
    simp only [Option.some.injEq, Prod.mk.injEq] at body
    obtain ⟨rfl, rfl⟩ := body
    exact ⟨[], by simp, rfl, rfl⟩
  | case6 h₁ h₂ h₃ h₄ cp hex isHigh l₁ l₂ l₃ l₄ s lo hex' isLow _ ih =>
    obtain ⟨high, rfl, rfl, rfl, rfl, rfl⟩ := exists_hex hex
    obtain ⟨low, rfl, rfl, rfl, rfl, rfl⟩ := exists_hex hex'
    exact decodes_prepend (p := .escape (.pair high low)) ⟨isHigh, isLow⟩ body ih
  | case9 h₁ h₂ h₃ h₄ s cp hex notHigh _ ih =>
    obtain ⟨unit, rfl, rfl, rfl, rfl, rfl⟩ := exists_hex hex
    exact decodes_prepend (p := .escape (.unit unit)) notHigh body ih
  | case11 e s notUnicode c short _ ih =>
    obtain ⟨escape, rfl, rfl⟩ := exists_short short
    exact decodes_prepend (p := .escape (.short escape)) trivial body ih
  | case13 c s quote slash ih =>
    exact decodes_prepend (p := .raw c) ⟨quote, slash⟩ body ih
  | _ => contradiction

/-- A scanned number is a spelling. -/
theorem number_relaxed {c : UInt8} {t rest : Bytes} {v : Value} (start : c = 45 ∨ isDigit c = true)
    (scanned : number (c :: t) = some (v, rest)) :
    ∃ n : NumberText, n.Valid ∧ (n.neg = false → n.whole ≠ []) ∧ c :: t = n.text ++ rest ∧
      v = .num n.numeral.toDouble := by
  have digit : inNumber c = true := by
    rcases start with rfl | digit
    · rfl
    · exact isDigit.isNumberChar digit
  have token : (c :: t).takeWhile inNumber = c :: t.takeWhile inNumber := by
    simp [digit]
  have parts := List.takeWhile_append_dropWhile (p := inNumber) (l := c :: t)
  simp only [number] at scanned
  rw [token] at scanned parts
  simp only [List.cons_ne_nil, if_false] at scanned
  split at scanned
  · rename_i d read
    simp only [Option.some.injEq, Prod.mk.injEq] at scanned
    obtain ⟨rfl, rfl⟩ := scanned
    obtain ⟨n, valid, text, value, whole⟩ := exists_numberText ⟨c, _, rfl, start⟩ read
    exact ⟨n, valid, whole, by rw [text, parts], by rw [value]⟩
  · contradiction

/-- Blanks in front of what is left after them. -/
theorem ws_split (s : Bytes) : ∃ w, Blank w ∧ s = w ++ ws s :=
  ⟨s.takeWhile isWs, fun _ member => List.mem_takeWhile_imp member,
    (List.takeWhile_append_dropWhile).symm⟩

/-- What was read is the value of a document, and the text before the rest is its text. -/
def Goal.Written : Goal → Bytes → Value → Bytes → Prop
  | .value, s, v, rest => ∃ w t d, Blank w ∧ Derives relaxed (.value d) t ∧ s = w ++ (t ++ rest) ∧
      v = valueOf decode (fun n => n.numeral.toDouble) d
  | .members earlier, s, v, rest => ∃ t ms, Derives relaxed (.members ms) t ∧ s = t ++ 125 :: rest ∧
      v = .obj (membersOf decode (fun n => n.numeral.toDouble) ms earlier)
  | .items earlier, s, v, rest => ∃ t ds, Derives relaxed (.items ds) t ∧ s = t ++ 93 :: rest ∧
      v = .arr (earlier ++ itemsOf decode (fun n => n.numeral.toDouble) ds)

/-- A character after the blanks in front of it. -/
theorem ws_opens {s t : Bytes} {c : UInt8} (opens : ws s = c :: t) :
    ∃ w, Blank w ∧ s = w ++ c :: t := by
  obtain ⟨w, blank, split⟩ := ws_split s
  exact ⟨w, blank, split.trans (congrArg (w ++ ·) opens)⟩

theorem Reads.written {goal : Goal} {s rest : Bytes} {v : Value} (reads : Reads goal s v rest) :
    goal.Written s v rest := by
  induction reads with
  | emptyObject brace close =>
    obtain ⟨w, blank, rfl⟩ := ws_opens brace
    obtain ⟨w', blank', rfl⟩ := ws_opens close
    exact ⟨w, _, _, blank, .emptyObject blank', by simp, rfl⟩
  | object brace _ ih =>
    obtain ⟨w, blank, rfl⟩ := ws_opens brace
    obtain ⟨t, ms, members, rfl, rfl⟩ := ih
    exact ⟨w, _, _, blank, .object members, by simp, by rw [valueOf]⟩
  | emptyArray bracket close =>
    obtain ⟨w, blank, rfl⟩ := ws_opens bracket
    obtain ⟨w', blank', rfl⟩ := ws_opens close
    exact ⟨w, _, _, blank, .emptyArray blank', by simp, rfl⟩
  | array bracket _ ih =>
    obtain ⟨w, blank, rfl⟩ := ws_opens bracket
    obtain ⟨t, ds, items, rfl, rfl⟩ := ih
    exact ⟨w, _, _, blank, .array items, by simp, by rw [valueOf, List.nil_append]⟩
  | text quote body =>
    obtain ⟨w, blank, rfl⟩ := ws_opens quote
    obtain ⟨pieces, admitted, rfl, rfl⟩ := strBody_decodes body
    exact ⟨w, _, _, blank, .text ⟨admitted, rfl⟩, by simp, by rw [valueOf]⟩
  | @wordTrue s rest word =>
    obtain ⟨w, blank, split⟩ := ws_split s
    exact ⟨w, _, _, blank, .wordTrue, word ▸ split, by rw [valueOf]⟩
  | @wordFalse s rest word =>
    obtain ⟨w, blank, split⟩ := ws_split s
    exact ⟨w, _, _, blank, .wordFalse, word ▸ split, by rw [valueOf]⟩
  | @wordNull s rest word =>
    obtain ⟨w, blank, split⟩ := ws_split s
    exact ⟨w, _, _, blank, .null, word ▸ split, by rw [valueOf]⟩
  | number opens start scanned =>
    obtain ⟨w, blank, rfl⟩ := ws_opens opens
    obtain ⟨n, valid, whole, text, rfl⟩ := number_relaxed start scanned
    exact ⟨w, _, _, blank, .number ⟨valid, whole, rfl⟩, by rw [text], by rw [valueOf]⟩
  | member quote body colon _ comma _ first others =>
    obtain ⟨w, before, rfl⟩ := ws_opens quote
    obtain ⟨pieces, admitted, rfl, rfl⟩ := strBody_decodes body
    obtain ⟨w₁, blank₁, rfl⟩ := ws_opens colon
    obtain ⟨w₂, t, d, blank₂, here, rfl, rfl⟩ := first
    obtain ⟨w', after, rfl⟩ := ws_opens comma
    obtain ⟨t', ms, members, rfl, rfl⟩ := others
    exact ⟨_, _, .member before ⟨admitted, rfl⟩ blank₁ blank₂ here after members, by simp,
      by rw [membersOf]⟩
  | lastMember quote body colon _ close first =>
    obtain ⟨w, before, rfl⟩ := ws_opens quote
    obtain ⟨pieces, admitted, rfl, rfl⟩ := strBody_decodes body
    obtain ⟨w₁, blank₁, rfl⟩ := ws_opens colon
    obtain ⟨w₂, t, d, blank₂, here, rfl, rfl⟩ := first
    obtain ⟨w', after, rfl⟩ := ws_opens close
    exact ⟨_, _, .lastMember before ⟨admitted, rfl⟩ blank₁ blank₂ here after, by simp,
      by rw [membersOf, membersOf]⟩
  | item _ comma _ first others =>
    obtain ⟨w, t, d, before, here, rfl, rfl⟩ := first
    obtain ⟨w', after, rfl⟩ := ws_opens comma
    obtain ⟨t', ds, items, rfl, rfl⟩ := others
    exact ⟨_, _, .item before here after items, by simp, by simp [itemsOf]⟩
  | lastItem _ close first =>
    obtain ⟨w, t, d, before, here, rfl, rfl⟩ := first
    obtain ⟨w', after, rfl⟩ := ws_opens close
    exact ⟨_, _, .lastItem before here after, by simp, by rw [itemsOf, itemsOf]⟩

/-- A string without escapes. -/
theorem relaxed_raw {s : Bytes} (plain : ∀ b ∈ s, b ≠ 34 ∧ b ≠ 92) :
    relaxed.string s (s.map .raw) := by
  constructor
  · intro p member
    obtain ⟨b, inside, rfl⟩ := List.mem_map.mp member
    exact plain b inside
  · simp [written, piecesText, List.flatMap_map, Piece.text]

theorem relaxed_readable : Readable relaxed decode fun n => n.numeral.toDouble where
  string := by
    rintro t s ⟨admitted, rfl⟩ rest
    exact strBody_written admitted rest
  number := by
    rintro t n ⟨valid, whole, rfl⟩
    exact ⟨valid.chars, n.starts valid whole, strtod_numberText valid⟩

/-- The parser accepts exactly the relaxed texts and returns the values of their documents. -/
theorem parse_iff_relaxed {t : Bytes} {v : Value} :
    parse t = some v ↔
      ∃ d, Text relaxed t d ∧ v = valueOf decode (fun n => n.numeral.toDouble) d := by
  constructor
  · intro accepted
    obtain ⟨rest, reads, ends⟩ := parse_iff.mp accepted
    obtain ⟨w, s, d, before, here, rfl, rfl⟩ := reads.written
    obtain ⟨w', after, split⟩ := ws_split rest
    rw [ends, List.append_nil] at split
    subst split
    exact ⟨d, ⟨w, s, _, before, here, after, rfl⟩, rfl⟩
  · rintro ⟨d, text, rfl⟩
    exact parse_of_text relaxed_readable text

end StreamEngine.Json
