import StreamEngine.Json.Value
import StreamEngine.Library.Decimal

/-! The JSON writer. Strings are escaped byte by byte, numbers are printed as
integers below `9e15` and with 17 significant digits otherwise. -/
namespace StreamEngine.Json
open ByteString Binary64 Decimal

/-- One byte of `escape_to`. Control bytes take four hex digits (`%04x`), the first
two of which are zero. -/
def escapeByte (c : UInt8) : Bytes :=
  if c = 34 then [92, 34]
  else if c = 92 then [92, 92]
  else if c = 8 then [92, 98]
  else if c = 12 then [92, 102]
  else if c = 10 then [92, 110]
  else if c = 13 then [92, 114]
  else if c = 9 then [92, 116]
  else if c < 32 then [92, 117, 48, 48, hexDigit (c.toNat / 16), hexDigit (c.toNat % 16)]
  else [c]

def escapeTo (s : Bytes) : Bytes := 34 :: (s.flatMap escapeByte ++ [34])

/-- `%lld` for a double equal to its own conversion to `long long` and below `9e15`
in magnitude, `%.17g` otherwise. -/
def dumpNum (d : Double) : Bytes :=
  if d.isFinite && d.eq (ofInt (d.toSigned 64)) && d.absLt (9 * 10 ^ 15) then
    printInt (d.toSigned 64)
  else printG17 d

mutual
def dumpTo : Value → Bytes
  | .null => ascii "null"
  | .bool b => if b then ascii "true" else ascii "false"
  | .num d => dumpNum d
  | .str s => escapeTo s
  | .arr items => 91 :: (dumpItems true items ++ [93])
  | .obj members => 123 :: (dumpMembers true members ++ [125])

def dumpItems (first : Bool) : List Value → Bytes
  | [] => []
  | v :: items => (if first then [] else [44]) ++ (dumpTo v ++ dumpItems false items)

def dumpMembers (first : Bool) : List (Bytes × Value) → Bytes
  | [] => []
  | (k, v) :: members =>
    (if first then [] else [44]) ++ (escapeTo k ++ 58 :: (dumpTo v ++ dumpMembers false members))
end

def dump (v : Value) : Bytes := dumpTo v

end StreamEngine.Json
