import TricPlus.Export

/-!
The diff-import: two archives are compared path by path, and the difference is applied to
the bus.

An archive is read into a hash map, which gives its entries in no particular order; the
order is part of the value here, so that what holds for every value holds for every order.
-/

namespace TricPlus

open AtomicProgram

/-- The entries of an archive in the order the map gives them, each path once. -/
structure EntryMap where
  entries : List ArchiveEntry
  distinct : (entries.map Prod.fst).Nodup

namespace EntryMap

def get (map : EntryMap) (path : Bytes) : Option Bytes :=
  map.entries.lookup path

def Same (left right : EntryMap) : Prop :=
  ∀ path, left.get path = right.get path

def empty : EntryMap where
  entries := []
  distinct := List.nodup_nil

end EntryMap

/-- What is found in a file: its entries when it is decompressed first, and when it is read
as it is. -/
structure Unpacked where
  decompressed : Option EntryMap
  plain : Option EntryMap

abbrev OpenArchive := Bytes → Except Bytes Unpacked

structure DiffResult where
  additions : Nat
  modifications : Nat
  deletions : Nat
  deriving DecidableEq

namespace Import

def whiteSpaces : List Bytes :=
  [[0x09], [0x0A], [0x0B], [0x0C], [0x0D], [0x20], [0xC2, 0x85], [0xC2, 0xA0],
    [0xE1, 0x9A, 0x80], [0xE2, 0x80, 0x80], [0xE2, 0x80, 0x81], [0xE2, 0x80, 0x82],
    [0xE2, 0x80, 0x83], [0xE2, 0x80, 0x84], [0xE2, 0x80, 0x85], [0xE2, 0x80, 0x86],
    [0xE2, 0x80, 0x87], [0xE2, 0x80, 0x88], [0xE2, 0x80, 0x89], [0xE2, 0x80, 0x8A],
    [0xE2, 0x80, 0xA8], [0xE2, 0x80, 0xA9], [0xE2, 0x80, 0xAF], [0xE2, 0x81, 0x9F],
    [0xE3, 0x80, 0x80]]

def trimFront (spaces : List Bytes) : Nat → Bytes → Bytes
  | 0, text => text
  | rounds + 1, text =>
      match spaces.findSome? (fun space => text.dropPrefix? space) with
      | none => text
      | some rest => trimFront spaces rounds rest

/-- `trim`: white space stripped off both ends. -/
def trim (text : Bytes) : Bytes :=
  let front := trimFront whiteSpaces text.length text
  (trimFront (whiteSpaces.map List.reverse) front.length front.reverse).reverse

/-- `parse::<u64>`: an optional plus sign and at least one digit. -/
def parseU64 (text : Bytes) : Option Nat := do
  let digits := if text.head? = some 0x2B then text.tail else text
  let values ← digits.mapM digitValue
  let value := values.foldl (fun total digit => total * 10 + digit) 0
  if values = [] ∨ 2 ^ 64 ≤ value then none else some value

/-- `replacen` of the first slash by a colon. -/
def replaceFirstSlash (path : Bytes) : Bytes :=
  path.replace PosixPath.slash colon

def readTricArchive (openArchive : OpenArchive) (path : Bytes) : Except Bytes EntryMap :=
  match openArchive path with
  | .error error => .error (asBytes "cannot open " ++ path ++ asBytes ": " ++ error)
  | .ok unpacked =>
      match unpacked.decompressed with
      | some parsed => .ok parsed
      | none =>
          match unpacked.plain with
          | some parsed => .ok parsed
          | none => .error (asBytes "cannot parse " ++ path ++ asBytes " as .tric archive")

def parseTarPathToKey (path : Bytes) : Bytes :=
  match path.dropPrefix? Export.schemaPath with
  | some tableName => Export.schemaStem ++ tableName
  | none =>
      match path.dropPrefix? Export.relPath with
      | some relName => Export.relStem ++ relName
      | none =>
          match path.dropPrefix? Export.ttlPath with
          | some ttlPath => asBytes "_ttl:" ++ replaceFirstSlash ttlPath
          | none => replaceFirstSlash path

/-- The milliseconds of an entry about a lifetime. -/
def parseTtl (value : Bytes) : Option Nat :=
  if Utf8.wellFormed value then parseU64 (trim value) else none

def writeDiffEntry (key value path : Bytes) : BusProgram Unit :=
  match path.dropPrefix? Export.ttlPath with
  | some ttlPath =>
      match parseTtl value with
      | none => return ()
      | some ttlMs =>
          if 0 < ttlMs then DataBus.writeTtl (replaceFirstSlash ttlPath) (fromMillis ttlMs)
          else return ()
  | none => DataBus.writeValue key value

def writeChanged (old : EntryMap) : List ArchiveEntry → DiffResult → BusProgram DiffResult
  | [], result => return result
  | (path, newValue) :: rest, result =>
      if path = Export.versionPath then writeChanged old rest result
      else
        let key := parseTarPathToKey path
        match old.get path with
        | some oldValue =>
            if oldValue = newValue then writeChanged old rest result
            else do
              writeDiffEntry key newValue path
              writeChanged old rest { result with modifications := result.modifications + 1 }
        | none => do
            writeDiffEntry key newValue path
            writeChanged old rest { result with additions := result.additions + 1 }

def deleteMissing (new : EntryMap) : List Bytes → DiffResult → BusProgram DiffResult
  | [], result => return result
  | path :: rest, result =>
      if path = Export.versionPath then deleteMissing new rest result
      else if (new.get path).isSome then deleteMissing new rest result
      else do
        DataBus.deleteValue (parseTarPathToKey path)
        deleteMissing new rest { result with deletions := result.deletions + 1 }

def applyDiff (old new : EntryMap) : BusProgram DiffResult := do
  let result ← writeChanged old new.entries ⟨0, 0, 0⟩
  deleteMissing new (old.entries.map Prod.fst) result

def parseDiffImport (openArchive : OpenArchive) (oldPath newPath : Bytes) :
    BusProgram (Except Bytes DiffResult) :=
  match readTricArchive openArchive oldPath with
  | .error error => return .error error
  | .ok old =>
      match readTricArchive openArchive newPath with
      | .error error => return .error error
      | .ok new => do
          let result ← applyDiff old new
          return .ok result

end Import

end TricPlus
