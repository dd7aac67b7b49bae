import Rszigbee.Files
import Rszigbee.Names
import Rszigbee.Startup
import Rszigbee.Utf8
import Mathlib.Data.List.Infix

/-! The on-disk store. An operation is what it answers and the steps it takes on the files;
its directories are taken as made. -/
namespace Rszigbee.File

open Files

abbrev Content := Table Path Bytes

/-- An operation's answer and its steps. -/
abbrev Effect (α : Type) := α × List (Step Path Dir)

/-- `serde_json` for one kind of record. -/
structure Serde (R : Type) where
  toVecPretty : R → Except String Bytes
  fromSlice : Bytes → Except String R

/-- The record is written, and read back from what is written. -/
def Serde.RoundTrips {R : Type} (serde : Serde R) (r : R) : Prop :=
  ∃ bytes, serde.toVecPretty r = .ok bytes ∧ serde.fromSlice bytes = .ok r

/-- Where the store is, and what it leaves to others: its records' form, `{:?}` of a text, and
what the platform says of a path that is not there. -/
structure Setup where
  root : String
  network : Serde PersistedNetwork
  device : Serde PersistedDevice
  group : Serde PersistedGroup
  debug : String → String
  notFound : String

/-- What `timestamp` draws: the clock and the process's count of stamps. -/
structure Stamp where
  millis : UInt64
  n : UInt64
  deriving DecidableEq

def timestamp (stamp : Stamp) : String :=
  .ofList (Texts.padded 10 13 stamp.millis.toNat ++ '-'::Texts.padded 10 4 stamp.n.toNat)

/-- Writes to a temporary file, fsyncs it, then renames it over the target. -/
def writeAtomic (path : Path) (bytes : Bytes) : List (Step Path Dir) :=
  replace (path.withExtension "tmp") path path.dir bytes

/-- Deleting what is absent is no error. -/
def removeIfPresent (path : Path) : Effect (Except StoreError Unit) :=
  (.ok (),[.remove path])

section Open

/-- The on-disk format version. -/
def schema : ℕ := 1

def schemaBytes : Bytes := (toString schema).toUTF8.toList

end Open

section Operations
variable (z : Setup)

def Setup.display (path : Path) : String :=
  let sub := match path.dir with
    | .root => "/"
    | .devices => "/devices/"
    | .groups => "/groups/"
    | .backups => "/backups/"
  z.root ++ sub ++ path.name

/-- Opens the store; the marker is written when there is none. -/
def «open» (files : Content) : Effect (Except StoreError Unit) :=
  match files.lookup schemaPath with
  | some bytes =>
    match String.fromUTF8? ⟨bytes.toArray⟩ with
    | none => (.error (.io ("cannot read the schema marker: " ++
        "stream did not contain valid UTF-8")),[])
    | some text =>
      match Texts.fromStrRadix 10 (2 ^ 32) (Texts.trim text.toList) with
      | none => (.error (.corrupt (z.display schemaPath)
          ("expected an integer, found " ++ z.debug (.ofList (Texts.trim text.toList)))),[])
      | some found =>
        if found > schema then
          (.error (.corrupt (z.display schemaPath)
            ("on-disk schema is version " ++ toString found ++ ", this build understands " ++
              toString schema ++ ". Refusing to read a newer format rather than risk " ++
              "mangling it.")),[])
        else (.ok (),[])
  | none => (.ok (),writeAtomic schemaPath schemaBytes)

/-- Reads and deserialises one JSON file. -/
def readJson {R : Type} (serde : Serde R) (files : Content) (path : Path) :
    Except StoreError R :=
  match files.lookup path with
  | none => .error (.io ("cannot read " ++ z.display path ++ ": " ++ z.notFound))
  | some bytes =>
    match serde.fromSlice bytes with
    | .ok r => .ok r
    | .error detail => .error (.corrupt (z.display path) detail)

/-- Serialises and writes one JSON file atomically. -/
def writeJson {R : Type} (serde : Serde R) (path : Path) (r : R) :
    Effect (Except StoreError Unit) :=
  match serde.toVecPretty r with
  | .error e => (.error (.io ("cannot serialise " ++ z.display path ++ ": " ++ e)),[])
  | .ok bytes => (.ok (),writeAtomic path bytes)

/-- The `.json` files of a directory, in the order it is walked. -/
def listing (files : Content) (dir : Dir) : List Path :=
  files.keys.filter fun p => p.dir = dir ∧ p.extension = some "json"

/-- Moves an unreadable file aside. -/
def quarantine (stamp : Stamp) (path : Path) : Step Path Dir :=
  .rename path (path.withExtension ("corrupt-" ++ timestamp stamp))

/-- Reads files in turn; one that does not parse is quarantined and skipped. -/
def readAll {R : Type} (serde : Serde R) (files : Content) (stamps : ℕ → Stamp) :
    List Path → ℕ → Effect (List R)
  | [],_ => ([],[])
  | path::paths,k =>
    match readJson z serde files path with
    | .ok r =>
      let rest := readAll serde files stamps paths k
      (r::rest.1,rest.2)
    | .error _ =>
      let rest := readAll serde files stamps paths (k + 1)
      (rest.1,quarantine (stamps k) path::rest.2)

/-- Reads and parses every `.json` file in a directory. -/
def loadDir {R : Type} (serde : Serde R) (files : Content) (stamps : ℕ → Stamp) (dir : Dir) :
    Effect (Except StoreError (List R)) :=
  let read := readAll z serde files stamps (listing files dir) 0
  (.ok read.1,read.2)

/-- Deliberately not quarantined: without network identity the network is lost. -/
def loadNetwork (files : Content) : Except StoreError (Option PersistedNetwork) :=
  match readJson z z.network files networkPath with
  | .ok network => .ok (some network)
  | .error e =>
    match e,files.lookup networkPath with
    | .io _,none => .ok none
    | _,_ => .error (.corrupt (z.display networkPath) (e.show ++
        ". Network identity cannot be regenerated: without it the network is lost. Restore " ++
        "a backup rather than deleting this file."))

/-- What a start finds of the network. -/
def networkFile (files : Content) : NetworkFile :=
  match files.lookup networkPath with
  | none => .unread z.notFound false
  | some bytes =>
    match z.network.fromSlice bytes with
    | .ok network => .record network
    | .error detail => .unparsed detail

/-- A start on these files loads what the store loads. -/
theorem loadNetwork_start {store : FileStore} {files : Content}
    (hpath : store.networkPath = z.display networkPath)
    (hfile : store.network = networkFile z files) :
    store.loadNetwork = loadNetwork z files := by
  rw [FileStore.loadNetwork,loadNetwork,readJson,hpath,hfile,networkFile]
  cases hlookup : files.lookup networkPath with
  | none => simp [FileStore.readJson,FileStore.present]
  | some bytes =>
    cases hparse : z.network.fromSlice bytes <;>
      simp [hparse,FileStore.readJson]

def saveNetwork (network : PersistedNetwork) : Effect (Except StoreError Unit) :=
  writeJson z z.network networkPath network

def loadDevices (files : Content) (stamps : ℕ → Stamp) :
    Effect (Except StoreError (List PersistedDevice)) :=
  loadDir z z.device files stamps .devices

def upsertDevice (device : PersistedDevice) : Effect (Except StoreError Unit) :=
  writeJson z z.device (devicePath device.ieee) device

def deleteDevice (ieee : Ieee) : Effect (Except StoreError Unit) :=
  removeIfPresent (devicePath ieee)

def loadGroups (files : Content) (stamps : ℕ → Stamp) :
    Effect (Except StoreError (List PersistedGroup)) :=
  loadDir z z.group files stamps .groups

def upsertGroup (group : PersistedGroup) : Effect (Except StoreError Unit) :=
  writeJson z z.group (groupPath group.id) group

def deleteGroup (id : GroupId) : Effect (Except StoreError Unit) :=
  removeIfPresent (groupPath id)

end Operations

section Backups

/-- Text that can stand in a file name. -/
structure NamePart where
  text : String
  valid : '/' ∉ text.toList ∧ '\x00' ∉ text.toList

def backupId (stamp : Stamp) (adapter : NamePart) (coordinator : Ieee) : String :=
  timestamp stamp ++ "-" ++ adapter.text ++ "-" ++ coordinator.show

def backupPath (id : String) : Path := .json .backups id

/-- Timestamped and never overwritten. -/
def saveBackup (stamp : Stamp) (adapter : NamePart) (coordinator : Ieee) (bytes : Bytes) :
    Effect (Except StoreError String) :=
  let id := backupId stamp adapter coordinator
  (.ok id,writeAtomic (backupPath id) bytes)

/-- `str::rsplit_once`. -/
def rsplitOnce (sep : Char) (s : String) : Option (String × String) :=
  (Texts.splitLast sep s.toList).map fun p => (.ofList p.1,.ofList p.2)

/-- Parses a backup filename back into its metadata, from the right. -/
def parseBackupId (id : String) : Option BackupMeta := do
  let (head,coordinator) ← rsplitOnce '-' id
  let coordinatorIeee ← (Ieee.parse coordinator).toOption
  let (stamp,adapter) ← rsplitOnce '-' head
  let (millis,_) ← rsplitOnce '-' stamp
  let takenEpochMs ← Texts.fromStrRadix 10 (2 ^ 64) millis.toList
  some ⟨id,.ofNat takenEpochMs,adapter,coordinatorIeee⟩

/-- Newest first; a name that is not recognised is skipped. -/
def listBackups (files : Content) : List BackupMeta :=
  ((listing files .backups).filterMap fun p => parseBackupId p.fileStem).mergeSort
    fun a b => b.id ≤ a.id

/-- The identifier is untrusted: what could escape the directory is rejected. -/
def loadBackup (files : Content) (id : String) : Except StoreError Bytes :=
  if '/' ∈ id.toList ∨ '\\' ∈ id.toList ∨ ['.','.'] <:+: id.toList then
    .error (.backupNotFound id)
  else
    match files.lookup (backupPath id) with
    | some bytes => .ok bytes
    | none => .error (.backupNotFound id)

end Backups
end Rszigbee.File
