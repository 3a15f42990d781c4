import StreamEngine.Library.FileSystem
import StreamEngine.Library.PosixPath
import StreamEngine.Net.IdentityStore

/-! The files of the store. `write_file` writes a sibling and renames it over the target, or
removes the target first where a rename does not replace; each of its steps may fail. -/
namespace StreamEngine.Net
open ByteString FileSystem PosixPath

abbrev StoreFiles := Files Path UInt8

def tmpPath (p : Path) : Path := p ++ ascii ".tmp"

/-- How the steps of `write_file` go. -/
structure WriteFaults where
  output : Output
  renames : Bool
  removes : Bool
  renamesAgain : Bool

def readFile (i : Input) (p : Path) : StateM StoreFiles (Option Bytes) := readStream p i

def writeFile (faults : WriteFaults) (p : Path) (data : Bytes) : StateM StoreFiles Bool := do
  if (← writeStream (tmpPath p) data faults.output) = false then return false
  else if ← rename (tmpPath p) p faults.renames then return true
  else
    let _ ← remove p faults.removes
    rename (tmpPath p) p faults.renamesAgain

def StoreFile.name : StoreFile → Bytes
  | .clientCrt => ascii "client.crt"
  | .clientKey => ascii "client.key"
  | .uniqueid => ascii "uniqueid"
  | .hostsJson => ascii "hosts.json"

def storePath (dir : Path) (file : StoreFile) : Path := join dir file.name

/-- How the file operations of one call of the store go. No call reads or writes a file twice. -/
structure StoreFaults where
  inputs : StoreFile → Input
  writes : StoreFile → WriteFaults

/-- Nothing fails. -/
def WriteFaults.faultless : WriteFaults := ⟨.whole, true, true, true⟩

def StoreFaults.faultless : StoreFaults := ⟨fun _ => .whole, fun _ => .faultless⟩

def StoreFaults.files (faults : StoreFaults) (dir : Path) : FileOps (StateM StoreFiles) where
  readFile file := Net.readFile (faults.inputs file) (storePath dir file)
  writeFile file := Net.writeFile (faults.writes file) (storePath dir file)

end StreamEngine.Net
