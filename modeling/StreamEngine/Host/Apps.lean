import StreamEngine.Json.Dump
import StreamEngine.Json.Parse

/-! The app catalog of host mode, the `apps.json` that Sunshine reads. -/
namespace StreamEngine.Host
open ByteString Binary64 Json

/-- An `int`. -/
abbrev CInt := { z : Int // -2 ^ 31 ≤ z ∧ z < 2 ^ 31 }

theorem toSigned_range (d : Double) : -2 ^ 31 ≤ d.toSigned 32 ∧ d.toSigned 32 < 2 ^ 31 := by
  cases d with
  | finite x =>
    simp only [Double.toSigned]
    split
    · assumption
    · decide
  | infinite | nan => simp [Double.toSigned]

/-- A number converted to `int`, with a default that is one. -/
def getInt (v : Value) (k : Bytes) (default : Int) : CInt :=
  ⟨(v.getNum k (ofInt default)).toSigned 32, toSigned_range _⟩

structure HostApp where
  name : Bytes
  cmd : Bytes
  imagePath : Bytes
  workingDir : Bytes
  output : Bytes
  elevated : Bool
  autoDetach : Bool
  waitAll : Bool
  exitTimeout : CInt
deriving DecidableEq

/-- The system that the host is built for. -/
inductive HostOs where
  | windows
  | posix
deriving DecidableEq

def setStr (o : Value) (k v : Bytes) : Value := if v = [] then o else o.set k (.str v)

/-- A launch target with a scheme, which is not a runnable file. -/
def isUriTarget (cmd : Bytes) : Bool := (find cmd (ascii "://") 0).isSome

def hostLaunchCommand (os : HostOs) (cmd : Bytes) : Bytes :=
  if cmd = [] ∨ isUriTarget cmd = false then cmd
  else
    match os with
    | .windows => ascii "cmd /C start \"\" \"" ++ cmd ++ ascii "\""
    | .posix => ascii "xdg-open \"" ++ cmd ++ ascii "\""

def encodeApp (a : HostApp) : Value :=
  let o := (Value.obj []).set (ascii "name") (.str a.name)
  let o := setStr o (ascii "cmd") a.cmd
  let o := setStr o (ascii "image-path") a.imagePath
  let o := setStr o (ascii "working-dir") a.workingDir
  let o := setStr o (ascii "output") a.output
  let o := o.set (ascii "elevated") (.bool a.elevated)
  let o := o.set (ascii "auto-detach") (.bool a.autoDetach)
  let o := o.set (ascii "wait-all") (.bool a.waitAll)
  o.set (ascii "exit-timeout") (.num (ofInt a.exitTimeout))

def catalog (apps : List HostApp) : Value :=
  ((Value.obj []).set (ascii "env") (.obj [])).set (ascii "apps") (.arr (apps.map encodeApp))

def serializeAppsJson (apps : List HostApp) : Bytes := dump (catalog apps)

/-- One element of the catalog, skipped when it is no object or has no name. -/
def decodeApp (a : Value) : Option HostApp :=
  if a.isObject then
    let h : HostApp :=
      { name := a.getStr (ascii "name") []
        cmd := a.getStr (ascii "cmd") []
        imagePath := a.getStr (ascii "image-path") []
        workingDir := a.getStr (ascii "working-dir") []
        output := a.getStr (ascii "output") []
        elevated := a.getBool (ascii "elevated") false
        autoDetach := a.getBool (ascii "auto-detach") true
        waitAll := a.getBool (ascii "wait-all") true
        exitTimeout := getInt a (ascii "exit-timeout") 5 }
    if h.name = [] then none else some h
  else none

def parseAppsJson (text : Bytes) : List HostApp :=
  match (parse text).bind fun parsed => parsed.find (ascii "apps") with
  | some (.arr items) => items.filterMap decodeApp
  | _ => []

structure SyncDiff where
  added : Nat
  removed : Nat
  updated : Nat
deriving DecidableEq

/-- All fields but the name. -/
def sameApp (a b : HostApp) : Bool :=
  a.cmd == b.cmd && a.imagePath == b.imagePath && a.workingDir == b.workingDir &&
    a.output == b.output && a.elevated == b.elevated && a.autoDetach == b.autoDetach &&
    a.waitAll == b.waitAll && a.exitTimeout == b.exitTimeout

def findByName (v : List HostApp) (name : Bytes) : Option HostApp := v.find? fun a => a.name = name

/-- One app of the new catalog. -/
def SyncDiff.publish (prev : List HostApp) (d : SyncDiff) (n : HostApp) : SyncDiff :=
  match findByName prev n.name with
  | none => { d with added := d.added + 1 }
  | some p => if sameApp p n then d else { d with updated := d.updated + 1 }

/-- One app of the old catalog. -/
def SyncDiff.retire (next : List HostApp) (d : SyncDiff) (p : HostApp) : SyncDiff :=
  match findByName next p.name with
  | none => { d with removed := d.removed + 1 }
  | some _ => d

def diffApps (prev next : List HostApp) : SyncDiff :=
  prev.foldl (SyncDiff.retire next) (next.foldl (SyncDiff.publish prev) ⟨0, 0, 0⟩)

/-- One game of a launcher's array, skipped when it is no object or has no name. -/
def decodeGame (os : HostOs) (g : Value) : Option HostApp :=
  if g.isObject then
    let a : HostApp :=
      { name := g.getStr (ascii "name") []
        cmd := hostLaunchCommand os (g.getStr (ascii "cmd") [])
        imagePath := g.getStr (ascii "image") (g.getStr (ascii "imagePath") [])
        workingDir := g.getStr (ascii "workingDir") (g.getStr (ascii "working-dir") [])
        output := g.getStr (ascii "output") []
        elevated := g.getBool (ascii "elevated") false
        autoDetach := g.getBool (ascii "autoDetach") true
        waitAll := g.getBool (ascii "waitAll") true
        exitTimeout := getInt g (ascii "exitTimeout") 5 }
    if a.name = [] then none else some a
  else none

def gamesFromParams (os : HostOs) (params : Value) : List HostApp :=
  match params.find (ascii "games") with
  | some (.arr items) => items.filterMap (decodeGame os)
  | _ => []

end StreamEngine.Host
