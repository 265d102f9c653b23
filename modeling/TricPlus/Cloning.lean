import TricPlus.Restart
import TricPlus.Lib.WriteAhead

/-!
The life of a slot on the disk, and copies of it.

A database is a `.db` file and a `-wal` file beside it.  What a call commits goes to
the log; a checkpoint, of which the program knows nothing, moves it to the `.db`
file.  The clone of a slot is made of the `.db` files alone.
-/

namespace TricPlus

open Std (ExtTreeMap LawfulEqCmp)
open PosixPath (RawPath Name Location slash dot)
open WriteAhead (Logged)

abbrev Volume := ExtTreeMap Location (Logged Table)

namespace Volume

def disk (volume : Volume) : Disk :=
  volume.map (fun _ files => files.current)

/-- A database after its table has become this one.  A new database is an empty `.db`
file at first. -/
def committed (table : Table) : Option (Logged Table) → Logged Table
  | none => { base := ∅, log := [table] }
  | some files => if files.current = table then files else files.commit table

def commit (volume : Volume) (disk : Disk) : Volume :=
  disk.map (fun file table => committed table volume[file]?)

end Volume

structure Slot where
  bus : SqliteBus
  volume : Volume

inductive SlotEvent where
  | call (request : DataBusCall)
  | checkpoint (file : Location) (count : Nat)
  /-- The process ends, and another one opens the slot. -/
  | restart

namespace Slot

def fresh (site : Site) : Slot where
  bus := createSqliteBus site ∅
  volume := ∅

def next (site : Site) (slot : Slot) : SlotEvent → Slot
  | .call request =>
      let after := (SqliteBus.step site request slot.bus).2
      { bus := after
        volume := slot.volume.commit after.disk }
  | .checkpoint file count =>
      { slot with volume := slot.volume.modify file (Logged.checkpoint count) }
  | .restart => { slot with bus := createSqliteBus site slot.volume.disk }

def run (site : Site) (events : List SlotEvent) : Slot :=
  events.foldl (next site) (fresh site)

end Slot

structure FileSystem where
  directories : List Location
  volume : Volume

/-- `Path::exists`; a directory that holds a file is there. -/
def FileSystem.present (files : FileSystem) (directory : Location) : Bool :=
  files.directories.contains directory ||
    files.volume.toList.any (fun file => (nameIn directory file.1).isSome)

/-- What `std::fs::copy` did: all of the file, or an error, which may leave some of the
rows readable at the destination. -/
inductive Copied where
  | whole (bytes : Nat)
  | failed (left : Option (Bytes → Bool))

/-- What becomes of the calls on the file system: the error of `create_dir_all`, whether
the source can be listed, and each copy. -/
structure Copying where
  createsTarget : Option Bytes
  readsSource : Bool
  copies : Name → Copied

inductive CloneError where
  | alreadyExists (targetSlot : Nat)
  | sourceMissing (sourceSlot : Nat)
  | cannotCreate (target : RawPath) (error : Bytes)
  deriving DecidableEq

/-- The text of an error; `debug` prints a path as `{:?}` does. -/
def CloneError.text (debug : RawPath → Bytes) : CloneError → Bytes
  | .alreadyExists targetSlot =>
      asBytes "slot " ++ asBytes (toString targetSlot) ++ asBytes " already exists"
  | .sourceMissing sourceSlot =>
      asBytes "source slot " ++ asBytes (toString sourceSlot) ++ asBytes " does not exist"
  | .cannotCreate target error =>
      asBytes "cannot create " ++ debug target ++ asBytes ": " ++ error

/-- The `.db` file a copy leaves. -/
def Copied.result (copied : Copied) (base : Table) : Option Table :=
  match copied with
  | .whole _ => some base
  | .failed none => none
  | .failed (some left) => some (base.filter (fun key _ => left key))

def Copied.bytes : Copied → Nat
  | .whole bytes => bytes
  | .failed _ => 0

def copyEntry (source target : Location) (copying : Copying) (volume : Volume)
    (progress : Volume × Nat) (name : Name) : Volume × Nat :=
  if PosixPath.extension name = some (asBytes "db") then
    let copied := copying.copies name
    match volume[source ++ [name]]?.bind (fun files => copied.result files.base) with
    | none => (progress.1, progress.2 + copied.bytes)
    | some table =>
        (progress.1.insert (target ++ [name])
          { base := table, log := [] }, progress.2 + copied.bytes)
  else progress

def createClone (site : Site) (targetSlot : Nat) (copying : Copying) (files : FileSystem) :
    Except CloneError Nat × FileSystem :=
  let target := PosixPath.join site.baseDir (site.slotName targetSlot)
  let sourceDirectory := site.locate site.directory
  let targetDirectory := site.locate target
  if files.present targetDirectory then (.error (.alreadyExists targetSlot), files)
  else if !files.present sourceDirectory then (.error (.sourceMissing site.slot), files)
  else
    match copying.createsTarget with
    | some error => (.error (.cannotCreate target error), files)
    | none =>
        let names :=
          if copying.readsSource then files.volume.disk.entries sourceDirectory else []
        let (volume, bytesCopied) :=
          names.foldl (copyEntry sourceDirectory targetDirectory copying files.volume)
            (files.volume, 0)
        (.ok bytesCopied,
          { directories := targetDirectory :: files.directories
            volume := volume })

end TricPlus
