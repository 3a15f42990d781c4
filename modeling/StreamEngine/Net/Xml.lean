import StreamEngine.Library.ByteString

/-! The GameStream XML reader: first element by name, no nesting. A missing
element, attribute or quote reads as the empty string. -/
namespace StreamEngine.Net
open ByteString

/-- Characters that end a tag name, so `<paired>` matches `paired` and `<pairedx>`
does not. -/
def endsName (c : UInt8) : Bool := c == 62 || c == 47 || isSpace c

/-- The search loop of `find_start_tag` over the unread text, which lies `at_` bytes
into the document. A false prefix match restarts one byte later, so the first
position whose name also ends is the answer. -/
def findStartTagFrom (needle : Bytes) (at_ : Nat) : Bytes → Option Nat
  | [] => none
  | c :: s =>
    if needle.isPrefixOf (c :: s) && ((c :: s).drop needle.length).head?.any endsName then some at_
    else findStartTagFrom needle (at_ + 1) s

def findStartTag (xml tag : Bytes) : Option Nat := findStartTagFrom (60 :: tag) 0 xml

/-- The predefined entities. -/
def entity (s : Bytes) : Option (UInt8 × Nat) :=
  if (ascii "&amp;").isPrefixOf s then some (38, 5)
  else if (ascii "&lt;").isPrefixOf s then some (60, 4)
  else if (ascii "&gt;").isPrefixOf s then some (62, 4)
  else if (ascii "&quot;").isPrefixOf s then some (34, 6)
  else if (ascii "&apos;").isPrefixOf s then some (39, 6)
  else none

/-- The loop of `decode_entities`; `skip` counts the characters of an entity that
was just decoded. -/
def decodeEntitiesFrom : Nat → Bytes → Bytes
  | _, [] => []
  | skip + 1, _ :: s => decodeEntitiesFrom skip s
  | 0, c :: s =>
    match entity (c :: s) with
    | some (decoded, width) => decoded :: decodeEntitiesFrom (width - 1) s
    | none => c :: decodeEntitiesFrom 0 s

def decodeEntities (s : Bytes) : Bytes := decodeEntitiesFrom 0 s

def xmlText (xml tag : Bytes) : Bytes :=
  match findStartTag xml tag with
  | none => []
  | some start =>
    match find xml [62] start with
    | none => []
    | some gt =>
      -- a self-closing tag
      if xml[gt - 1]? = some 47 then []
      else
        match find xml (60 :: 47 :: tag) (gt + 1) with
        | none => []
        | some close => decodeEntities (substr xml (gt + 1) (close - (gt + 1)))

def xmlAttr (xml tag attr : Bytes) : Bytes :=
  match findStartTag xml tag with
  | none => []
  | some start =>
    match find xml [62] start with
    | none => []
    | some gt =>
      let head := substr xml start (gt - start)
      match find head (attr ++ [61]) 0 with
      | none => []
      | some a =>
        let q := a + attr.length + 1
        match head[q]? with
        | none => []
        | some quote =>
          if quote = 34 ∨ quote = 39 then
            match find head [quote] (q + 1) with
            | none => []
            | some close => decodeEntities (substr head (q + 1) (close - (q + 1)))
          else []

def toHex (bytes : Bytes) : Bytes :=
  bytes.flatMap fun c => [hexDigit (c.toNat / 16), hexDigit (c.toNat % 16)]

/-- The pairs of `from_hex`, `none` at a character that is not a digit or at an
unpaired one. -/
def fromHexPairs : Bytes → Option Bytes
  | [] => some []
  | [_] => none
  | hi :: lo :: s =>
    match hexVal hi, hexVal lo, fromHexPairs s with
    | some hi, some lo, some out => some ((hi * 16 + lo).toUInt8 :: out)
    | _, _, _ => none

def fromHex (hex : Bytes) : Bytes := (fromHexPairs hex).getD []

def xmlTextHex (xml tag : Bytes) : Bytes := fromHex (xmlText xml tag)

end StreamEngine.Net
