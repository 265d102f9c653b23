import TricPlus.DataBus
import TricPlus.Lib.OrderedScan
import TricPlus.Lib.PosixPath
import TricPlus.Lib.Utf8

/-!
The persistent tier: one SQLite database for each namespace, opened on the first
write and kept open.

The bus is modelled together with the files it works on.  A method that finds the
mutex poisoned panics; so does the one that cannot open a database, and as it
holds the mutex then, it leaves it poisoned.  What SQLite has committed it keeps.
-/

namespace TricPlus

open Std (ExtTreeMap)
open AtomicProgram
open PosixPath (RawPath Name Location)

/-- The rows of the table `data`. -/
abbrev Table := ExtTreeMap Bytes Bytes

abbrev Disk := ExtTreeMap Location Table

/-- What the process is started with, and what it finds there.  `opens` tells for
which paths `Connection::open` and the statements after it succeed; it fails where
the parent directory does not exist, the name holds a NUL or is too long.  A file
that can be opened is taken to be a database. -/
structure Site where
  workingDirectory : Location
  baseDir : RawPath
  instanceName : Bytes
  slot : Nat
  /-- The names of the entries of the base directory, as `to_string_lossy` gives them. -/
  baseEntries : List Bytes
  opens : RawPath → Bool

def colon : UInt8 := 0x3A

def defaultNamespace : Bytes := asBytes "_default"

def parseNamespace (key : Bytes) : Bytes × Bytes :=
  let keyStr := if Utf8.wellFormed key then key else defaultNamespace
  let namespaceStr :=
    match keyStr.findIdx? (fun byte => byte == colon) with
    | some index => keyStr.take index
    | none => defaultNamespace
  (key, namespaceStr)

def namespaceOf (key : Bytes) : Bytes := (parseNamespace key).2

namespace Site

/-- `{instance}_{slot}`. -/
def slotName (site : Site) (slot : Nat) : Bytes :=
  site.instanceName ++ asBytes "_" ++ asBytes (toString slot)

def directory (site : Site) : RawPath :=
  PosixPath.join site.baseDir (site.slotName site.slot)

/-- The path `write_connection` opens for a namespace. -/
def databasePath (site : Site) (space : Bytes) : RawPath :=
  PosixPath.join site.directory (space ++ asBytes ".db")

def locate (site : Site) (path : RawPath) : Location :=
  PosixPath.resolve site.workingDirectory path

def databaseFile (site : Site) (space : Bytes) : Location :=
  site.locate (site.databasePath space)

end Site

structure SqliteBus where
  databases : ExtTreeMap Bytes Location
  poisoned : Bool
  disk : Disk

def nameIn (directory file : Location) : Option Name :=
  file.getLast?.filter (fun name => file = directory ++ [name])

/-- `read_dir`: the names of the files directly inside a directory. -/
def Disk.entries (disk : Disk) (directory : Location) : List Name :=
  disk.toList.filterMap (fun file => nameIn directory file.1)

/-- The namespace of a stem; one that is no UTF-8 counts as the default. -/
def stemNamespace (stem : Name) : Bytes :=
  if Utf8.wellFormed stem then stem else defaultNamespace

/-- The body of the scan: an entry with the extension `db` is opened under its stem.  The source
enters it once `Connection::open` succeeds and ignores what becomes of the initial batch; here
`opens` stands for both, so a file that opens but takes no batch, whose later statements would
panic, is not entered. -/
def openEntry (site : Site) (databases : ExtTreeMap Bytes Location) (name : Name) :
    ExtTreeMap Bytes Location :=
  let path := PosixPath.join site.directory name
  if PosixPath.extension name = some (asBytes "db") then
    let space := stemNamespace (PosixPath.fileStem name)
    if site.opens path then
      -- the path of an entry denotes that entry
      databases.insert space (site.locate site.directory ++ [name])
    else databases
  else databases

/-- The order of the entries is the disk's; it decides only between two files
whose stem is no UTF-8 or `_default`. -/
def createSqliteBus (site : Site) (disk : Disk) : SqliteBus where
  databases := (Disk.entries disk (site.locate site.directory)).foldl (openEntry site) ∅
  poisoned := false
  disk := disk

namespace SqliteBus

/-- `lock().unwrap()` around a body that does not panic. -/
def locked {α : Type} (bus : SqliteBus) (body : SqliteBus → α × SqliteBus) :
    Option α × SqliteBus :=
  if bus.poisoned then (none, bus)
  else ((some (body bus).1), (body bus).2)

def updateTable (bus : SqliteBus) (file : Location) (change : Table → Table) : SqliteBus :=
  match bus.disk[file]? with
  | none => bus
  | some table => { bus with disk := bus.disk.insert file (change table) }

def selectValue (bus : SqliteBus) (file : Location) (key : Bytes) : Option Bytes := do
  let table ← bus.disk[file]?
  table[key]?

def writeConnection (site : Site) (bus : SqliteBus) (space : Bytes) :
    Option Unit × SqliteBus :=
  if bus.poisoned then (none, bus)
  else if bus.databases.contains space then (some (), bus)
  else
    let path := site.databasePath space
    if site.opens path then
      let file := site.locate path
      (some (),
        { bus with
          databases := bus.databases.insert space file
          -- an existing database keeps its rows
          disk := if bus.disk.contains file then bus.disk else bus.disk.insert file ∅ })
    else (none, { bus with poisoned := true })

def readValue (bus : SqliteBus) (key : Bytes) : Option (Option Bytes) × SqliteBus :=
  bus.locked (fun bus =>
    match bus.databases[namespaceOf key]? with
    | none => (none, bus)
    | some file => (bus.selectValue file key, bus))

def writeValue (site : Site) (bus : SqliteBus) (key value : Bytes) :
    Option Unit × SqliteBus :=
  match writeConnection site bus (namespaceOf key) with
  | (none, after) => (none, after)
  | (some (), opened) =>
      opened.locked (fun opened =>
        match opened.databases[namespaceOf key]? with
        | none => ((), opened)
        | some file => ((), opened.updateTable file (fun table => table.insert key value)))

def deleteValue (bus : SqliteBus) (key : Bytes) : Option Unit × SqliteBus :=
  bus.locked (fun bus =>
    match bus.databases[namespaceOf key]? with
    | none => ((), bus)
    | some file => ((), bus.updateTable file (fun table => table.erase key)))

def deleteValueIfMatch (bus : SqliteBus) (key expected : Bytes) : Option Bool × SqliteBus :=
  bus.locked (fun bus =>
    match bus.databases[namespaceOf key]? with
    | none => (false, bus)
    | some file =>
        if bus.selectValue file key = some expected then
          (true, bus.updateTable file (fun table => table.erase key))
        else (false, bus))

def matchingRows (bus : SqliteBus) (stem : Bytes) (file : Location) : List (Bytes × Bytes) :=
  match bus.disk[file]? with
  | none => []
  | some table => table.toList.filter (fun row => stem.isPrefixOf row.1)

/-- Database after database, then sorted; the order among the databases is arbitrary
in the code. -/
def listing (bus : SqliteBus) (stem : Bytes) : List (Bytes × Bytes) :=
  OrderedScan.sortByKey
    (bus.databases.toList.flatMap (fun database => bus.matchingRows stem database.2))

def findByPrefix (bus : SqliteBus) (stem : Bytes) :
    Option (List (Bytes × Bytes)) × SqliteBus :=
  bus.locked (fun bus => (bus.listing stem, bus))

/-- One call on the bus.  It keeps no lifetimes: the calls about these do nothing,
and do not take the lock. -/
def step (site : Site) (request : DataBusCall) (bus : SqliteBus) :
    Option request.Reply × SqliteBus :=
  match request with
  | .readValue key => bus.readValue key
  | .writeValue key value => writeValue site bus key value
  | .deleteValue key => bus.deleteValue key
  | .deleteValueIfMatch key expected => bus.deleteValueIfMatch key expected
  | .writeTtl _ _ => (some (), bus)
  | .writeValueWithTtl key value _ => writeValue site bus key value
  | .readTtlRemaining _ => (some none, bus)
  | .findByPrefix stem => bus.findByPrefix stem

end SqliteBus

def digitValue (byte : UInt8) : Option Nat :=
  if 0x30 ≤ byte ∧ byte ≤ 0x39 then some (byte.toNat - 0x30) else none

/-- `parse::<u32>`: an optional plus sign and at least one digit. -/
def parseU32 (text : Bytes) : Option Nat := do
  let digits := if text.head? = some 0x2B then text.tail else text
  let values ← digits.mapM digitValue
  let value := values.foldl (fun total digit => total * 10 + digit) 0
  if values = [] ∨ 2 ^ 32 ≤ value then none else some value

def findInstanceSlots (site : Site) : List Nat :=
  let stem := site.instanceName ++ asBytes "_"
  let slots := site.baseEntries.filterMap (fun name =>
    if stem.isPrefixOf name then parseU32 (name.drop stem.length) else none)
  slots.insertionSort (fun left right => left ≤ right)

end TricPlus
