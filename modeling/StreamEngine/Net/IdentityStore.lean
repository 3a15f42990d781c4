import StreamEngine.Json.Dump
import StreamEngine.Json.Parse
import StreamEngine.Library.KeyedList
import StreamEngine.Net.Pairing

/-! The credential and paired-host store. Files are read and written through
operations of an arbitrary monad, so that runs with and without file errors are
instances of the same definitions. -/
namespace StreamEngine.Net
open ByteString Json

/-- The files of the store directory. -/
inductive StoreFile where
  | clientCrt
  | clientKey
  | uniqueid
  | hostsJson
deriving DecidableEq

/-- `read_file`, `none` for a file that cannot be read, and `write_file`. -/
structure FileOps (m : Type → Type) where
  readFile : StoreFile → m (Option Bytes)
  writeFile : StoreFile → Bytes → m Bool

structure PairedHost where
  address : Bytes
  name : Bytes
  serverCertPem : Bytes
deriving DecidableEq

/-- One element of the registry, skipped when it is no object or has no address. -/
def decodeHost (v : Value) : Option PairedHost :=
  if v.isObject then
    let h : PairedHost :=
      ⟨v.getStr (ascii "address") [], v.getStr (ascii "name") [], v.getStr (ascii "serverCert") []⟩
    if h.address = [] then none else some h
  else none

/-- The records of `hosts.json`. A missing or malformed file is an empty registry. -/
def decodeHosts (content : Option Bytes) : List PairedHost :=
  match content.bind parse with
  | some (.arr items) => items.filterMap decodeHost
  | _ => []

def encodeHost (h : PairedHost) : Value :=
  (((Value.obj []).set (ascii "address") (.str h.address)).set (ascii "name") (.str h.name)).set
    (ascii "serverCert") (.str h.serverCertPem)

def encodeHosts (hosts : List PairedHost) : Bytes := dump (.arr (hosts.map encodeHost))

variable {m : Type → Type} [Monad m] (files : FileOps m)

def readHosts : m (List PairedHost) := do
  return decodeHosts (← files.readFile .hostsJson)

def writeHosts (hosts : List PairedHost) : m Bool :=
  files.writeFile .hostsJson (encodeHosts hosts)

def upsertHost (host : PairedHost) : m Bool := do
  if host.address = [] then return false
  else
    let hosts ← readHosts files
    writeHosts files (KeyedList.put PairedHost.address host hosts)

def findHost (address : Bytes) : m (Option PairedHost) := do
  return KeyedList.lookup PairedHost.address address (← readHosts files)

def listHosts : m (List PairedHost) := readHosts files

/-- Nothing is written when no record was removed. -/
def removeHost (address : Bytes) : m Bool := do
  let hosts ← readHosts files
  let kept := KeyedList.drop PairedHost.address address hosts
  if kept.length = hosts.length then return false
  else writeHosts files kept

/-- The persisted identity if all of its files are present and not empty, otherwise a
fresh one. -/
def loadOrCreateIdentity (generateIdentity : m (Option ClientIdentity)) (generateUniqueId : m Bytes) :
    m (Option (ClientIdentity × Bytes)) := do
  let cert ← files.readFile .clientCrt
  let key ← files.readFile .clientKey
  let uid ← files.readFile .uniqueid
  let persisted := (cert.getD [], key.getD [], uid.getD [])
  if persisted.1 ≠ [] ∧ persisted.2.1 ≠ [] ∧ persisted.2.2 ≠ [] then
    return some (⟨persisted.1, persisted.2.1⟩, persisted.2.2)
  else
    match ← generateIdentity with
    | none => return none
    | some fresh =>
      let freshUid ← generateUniqueId
      if freshUid = [] then return none
      else if (← files.writeFile .clientCrt fresh.certPem) = false then return none
      else if (← files.writeFile .clientKey fresh.keyPem) = false then return none
      else if (← files.writeFile .uniqueid freshUid) = false then return none
      else return some (fresh, freshUid)

end StreamEngine.Net
