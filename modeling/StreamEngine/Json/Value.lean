import StreamEngine.Library.Binary64
import StreamEngine.Library.ByteString
import StreamEngine.Library.OrderedMap

/-! The tagged JSON value of the control protocol. A constructor carries the one
field its tag selects. Objects are `std::map`s from byte strings, so every value
the engine can hold satisfies `Ordered`. -/
namespace StreamEngine.Json
open ByteString Binary64

inductive Value where
  | null
  | bool (b : Bool)
  | num (d : Double)
  | str (s : Bytes)
  | arr (items : List Value)
  | obj (members : List (Bytes × Value))

namespace Value

def isObject : Value → Bool
  | .obj _ => true
  | _ => false

def isNull : Value → Bool
  | .null => true
  | _ => false

/-- `set` coerces its receiver into an object. -/
def set (v : Value) (k : Bytes) (child : Value) : Value :=
  match v with
  | .obj members => .obj (OrderedMap.insert k child members)
  | _ => .obj [(k, child)]

def find (v : Value) (k : Bytes) : Option Value :=
  match v with
  | .obj members => OrderedMap.lookup k members
  | _ => none

def getStr (v : Value) (k : Bytes) (default : Bytes) : Bytes :=
  match v.find k with
  | some (.str s) => s
  | _ => default

def getNum (v : Value) (k : Bytes) (default : Double) : Double :=
  match v.find k with
  | some (.num d) => d
  | _ => default

def getBool (v : Value) (k : Bytes) (default : Bool) : Bool :=
  match v.find k with
  | some (.bool b) => b
  | _ => default

mutual
/-- Every object in the value has ascending keys. -/
def Ordered : Value → Prop
  | .arr items => OrderedItems items
  | .obj members => OrderedMap.Ascending members ∧ OrderedMembers members
  | _ => True

def OrderedItems : List Value → Prop
  | [] => True
  | v :: items => v.Ordered ∧ OrderedItems items

def OrderedMembers : List (Bytes × Value) → Prop
  | [] => True
  | (_, v) :: members => v.Ordered ∧ OrderedMembers members
end

mutual
/-- Every number in the value is finite. -/
def Finite : Value → Prop
  | .num d => d.isFinite = true
  | .arr items => FiniteItems items
  | .obj members => FiniteMembers members
  | _ => True

def FiniteItems : List Value → Prop
  | [] => True
  | v :: items => v.Finite ∧ FiniteItems items

def FiniteMembers : List (Bytes × Value) → Prop
  | [] => True
  | (_, v) :: members => v.Finite ∧ FiniteMembers members
end

mutual
/-- Equality on the fields the tags select, numbers compared by `==`. -/
def eq : Value → Value → Bool
  | .null, .null => true
  | .bool a, .bool b => a == b
  | .num a, .num b => a.eq b
  | .str s, .str t => s == t
  | .arr a, .arr b => eqItems a b
  | .obj a, .obj b => eqMembers a b
  | _, _ => false

def eqItems : List Value → List Value → Bool
  | [], [] => true
  | v :: a, w :: b => v.eq w && eqItems a b
  | _, _ => false

def eqMembers : List (Bytes × Value) → List (Bytes × Value) → Bool
  | [], [] => true
  | (k, v) :: a, (l, w) :: b => k == l && v.eq w && eqMembers a b
  | _, _ => false
end

mutual
/-- The value with every zero made positive, the representative of its class
under `eq` that the codec returns. -/
def unsignZeros : Value → Value
  | .num d => .num d.unsignedZero
  | .arr items => .arr (unsignItems items)
  | .obj members => .obj (unsignMembers members)
  | v => v

def unsignItems : List Value → List Value
  | [] => []
  | v :: items => v.unsignZeros :: unsignItems items

def unsignMembers : List (Bytes × Value) → List (Bytes × Value)
  | [] => []
  | (k, v) :: members => (k, v.unsignZeros) :: unsignMembers members
end

end Value
end StreamEngine.Json
