import StreamEngine.Json.Dump
import StreamEngine.Json.Parse

/-! The trusted clients in Sunshine's state file. -/
namespace StreamEngine.Host
open ByteString Json

/-- The child of an object, an object itself whatever was there. -/
def childObject (parent : Value) (key : Bytes) : Value :=
  match parent.find key with
  | some (.obj members) => .obj members
  | _ => .obj []

/-- The elements of the child, none if it is no array. -/
def childArray (parent : Value) (key : Bytes) : List Value :=
  match parent.find key with
  | some (.arr items) => items
  | _ => []

/-- The state as an object, empty on invalid text. -/
def parseState (currentJson : Bytes) : Value :=
  match parse currentJson with
  | some (.obj members) => .obj members
  | _ => .obj []

def holdsCert (certPem : Bytes) (device : Value) : Bool := device.getStr (ascii "cert") [] = certPem

def hasTrustedClient (currentJson certPem : Bytes) : Bool :=
  if certPem = [] then false
  else
    match (parseState currentJson).find (ascii "root") with
    | none => false
    | some root => (childArray root (ascii "named_devices")).any (holdsCert certPem)

def trustEntry (name certPem uuid : Bytes) : Value :=
  ((((Value.obj []).set (ascii "name") (.str name)).set (ascii "cert") (.str certPem)).set
    (ascii "uuid") (.str uuid)).set (ascii "enabled") (.str (ascii "true"))

def addTrustedClient (currentJson name certPem uuid : Bytes) : Bytes :=
  let doc := parseState currentJson
  let root := childObject doc (ascii "root")
  let devices := childArray root (ascii "named_devices")
  let devices :=
    if devices.any (holdsCert certPem) then devices else devices ++ [trustEntry name certPem uuid]
  dump (doc.set (ascii "root") (root.set (ascii "named_devices") (.arr devices)))

end StreamEngine.Host
