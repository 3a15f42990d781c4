import StreamEngine.Json.Value
import StreamEngine.Library.Decimal

/-! The recursive-descent JSON parser. The position of the source's `Parser` is
the unread suffix of the text, and its `ok` flag, which callers test after every
step, is the `Option`. Each level of nesting and each loop iteration spends one
unit of fuel; two units for each byte of text are always enough. The call stack is
taken to be unbounded: the source recurses on each level, and some tens of thousands of
levels exhaust a stack of 8 MB. -/
namespace StreamEngine.Json
open ByteString Binary64 Decimal

def isWs (c : UInt8) : Bool := c == 32 || c == 9 || c == 10 || c == 13

def ws (s : Bytes) : Bytes := s.dropWhile isWs

def hex4 (a b c d : UInt8) : Option Nat := do
  let a ← hexVal a
  let b ← hexVal b
  let c ← hexVal c
  let d ← hexVal d
  return ((a * 16 + b) * 16 + c) * 16 + d

def encodeUtf8 (cp : Nat) : Bytes :=
  if cp ≤ 0x7f then [cp.toUInt8]
  else if cp ≤ 0x7ff then [(0xc0 + cp / 64).toUInt8, (0x80 + cp % 64).toUInt8]
  else if cp ≤ 0xffff then
    [(0xe0 + cp / 4096).toUInt8, (0x80 + cp / 64 % 64).toUInt8, (0x80 + cp % 64).toUInt8]
  else
    [(0xf0 + cp / 262144).toUInt8, (0x80 + cp / 4096 % 64).toUInt8,
      (0x80 + cp / 64 % 64).toUInt8, (0x80 + cp % 64).toUInt8]

/-- The two-character escapes. -/
def shortEscape (e : UInt8) : Option UInt8 :=
  if e = 34 then some 34
  else if e = 92 then some 92
  else if e = 47 then some 47
  else if e = 98 then some 8
  else if e = 102 then some 12
  else if e = 110 then some 10
  else if e = 114 then some 13
  else if e = 116 then some 9
  else none

def prepend (decoded : Bytes) (result : Option (Bytes × Bytes)) : Option (Bytes × Bytes) :=
  result.map fun (out, rest) => (decoded ++ out, rest)

/-- The loop of `str` after the opening quote: the decoded bytes and what follows
the closing quote. A high surrogate needs an escaped low surrogate right after it. -/
def strBody : Bytes → Option (Bytes × Bytes)
  | [] => none
  | c :: s =>
    if c = 34 then some ([], s)
    else if c = 92 then
      match s with
      | [] => none
      | e :: s =>
        if e = 117 then
          match s with
          | h₁ :: h₂ :: h₃ :: h₄ :: s =>
            match hex4 h₁ h₂ h₃ h₄ with
            | none => none
            | some cp =>
              if 0xd800 ≤ cp ∧ cp ≤ 0xdbff then
                match s with
                | 92 :: 117 :: l₁ :: l₂ :: l₃ :: l₄ :: s =>
                  match hex4 l₁ l₂ l₃ l₄ with
                  | none => none
                  | some lo =>
                    if 0xdc00 ≤ lo ∧ lo ≤ 0xdfff then
                      prepend (encodeUtf8 (0x10000 + (cp - 0xd800) * 1024 + (lo - 0xdc00)))
                        (strBody s)
                    else none
                | _ => none
              else prepend (encodeUtf8 cp) (strBody s)
          | _ => none
        else
          match shortEscape e with
          | some decoded => prepend [decoded] (strBody s)
          | none => none
    else prepend [c] (strBody s)

/-- Characters the number scan runs over; a leading minus sign is one of them. -/
def inNumber (c : UInt8) : Bool :=
  isDigit c || c == 46 || c == 101 || c == 69 || c == 43 || c == 45

/-- The scanned token must be read whole by `strtod`. -/
def number (s : Bytes) : Option (Value × Bytes) :=
  let tok := s.takeWhile inNumber
  if tok = [] then none
  else
    match strtod tok with
    | (d, []) => some (.num d, s.dropWhile inNumber)
    | _ => none

def literal (lit : Bytes) (v : Value) (s : Bytes) : Option (Value × Bytes) :=
  if lit.isPrefixOf s then some (v, s.drop lit.length) else none

mutual
def value : Nat → Bytes → Option (Value × Bytes)
  | 0, _ => none
  | fuel + 1, s =>
    match ws s with
    | [] => none
    | c :: s =>
      if c = 123 then
        match ws s with
        | 125 :: rest => some (.obj [], rest)
        | _ => object fuel s []
      else if c = 91 then
        match ws s with
        | 93 :: rest => some (.arr [], rest)
        | _ => array fuel s []
      else if c = 34 then (strBody s).map fun (text, rest) => (.str text, rest)
      else if c = 116 then literal (ascii "true") (.bool true) (c :: s)
      else if c = 102 then literal (ascii "false") (.bool false) (c :: s)
      else if c = 110 then literal (ascii "null") .null (c :: s)
      else if c = 45 ∨ isDigit c then number (c :: s)
      else none

/-- The member loop of `object`, a later binding of a key replacing the earlier. -/
def object : Nat → Bytes → List (Bytes × Value) → Option (Value × Bytes)
  | 0, _, _ => none
  | fuel + 1, s, members =>
    match ws s with
    | 34 :: s =>
      match strBody s with
      | none => none
      | some (key, s) =>
        match ws s with
        | 58 :: s =>
          match value fuel s with
          | none => none
          | some (child, s) =>
            match ws s with
            | 44 :: s => object fuel s (OrderedMap.insert key child members)
            | 125 :: s => some (.obj (OrderedMap.insert key child members), s)
            | _ => none
        | _ => none
    | _ => none

/-- The element loop of `array`. -/
def array : Nat → Bytes → List Value → Option (Value × Bytes)
  | 0, _, _ => none
  | fuel + 1, s, items =>
    match value fuel s with
    | none => none
    | some (child, s) =>
      match ws s with
      | 44 :: s => array fuel s (items ++ [child])
      | 93 :: s => some (.arr (items ++ [child]), s)
      | _ => none
end

/-- Fuel that no text of this length can exhaust. -/
def depth (s : Bytes) : Nat := 2 * s.length + 1

def parse (text : Bytes) : Option Value :=
  match value (depth text) text with
  | some (v, rest) => if ws rest = [] then some v else none
  | none => none

end StreamEngine.Json
