import TricPlus.SlotLife

/-!
What a clone holds.

The copy of a slot has what its source shows exactly when every database is wholly in
its `.db` file, the copies are made, and the rows lie under names that a scan of the
directory finds.
-/

namespace TricPlus

open Std (ExtTreeMap LawfulEqCmp)
open PosixPath (Location Name slash dot)
open WriteAhead (Logged)

section Copies

variable {source target : Location} {copying : Copying} {volume : Volume}

/-- The copy of one entry. -/
def copiedFiles (source : Location) (copying : Copying) (volume : Volume) (name : Name) :
    Option (Logged Table) :=
  if PosixPath.extension name = some (asBytes "db") then
    (volume[source ++ [name]]?.bind (fun files => (copying.copies name).result files.base)).map
      (fun table => { base := table, log := [] })
  else none

private theorem getElem?_copyEntry (progress : Volume × Nat) (entry name : Name) :
    (copyEntry source target copying volume progress entry).1[target ++ [name]]? =
      if name = entry then
        (copiedFiles source copying volume entry).or progress.1[target ++ [name]]?
      else progress.1[target ++ [name]]? := by
  unfold copyEntry copiedFiles
  by_cases isDatabase : PosixPath.extension entry = some (asBytes "db")
  · simp only [if_pos isDatabase]
    cases (volume[source ++ [entry]]?.bind
        (fun files => (copying.copies entry).result files.base)) with
    | none => simp only [Option.map_none, Option.none_or, ite_self]
    | some table =>
        simp only [Option.map_some, Option.some_or, ExtTreeMap.getElem?_insert,
          LawfulEqCmp.compare_eq_iff_eq]
        by_cases same : name = entry
        · rw [if_pos same, if_pos (by rw [same])]
        · rw [if_neg same, if_neg]
          intro equal
          exact same (List.singleton_inj.mp (List.append_cancel_left equal)).symm
  · simp only [if_neg isDatabase, Option.none_or, ite_self]

private theorem getElem?_copyEntries (names : List Name) (progress : Volume × Nat) (name : Name) :
    (names.foldl (copyEntry source target copying volume) progress).1[target ++ [name]]? =
      if name ∈ names then
        (copiedFiles source copying volume name).or progress.1[target ++ [name]]?
      else progress.1[target ++ [name]]? := by
  induction names generalizing progress with
  | nil => rw [List.foldl_nil, if_neg List.not_mem_nil]
  | cons entry names ih =>
      rw [List.foldl_cons, ih, getElem?_copyEntry]
      by_cases same : name = entry
      · rw [if_pos same, if_pos (List.mem_cons.mpr (Or.inl same)), ← same]
        split
        · cases copiedFiles source copying volume name <;> rfl
        · rfl
      · rw [if_neg same]
        simp only [List.mem_cons, same, false_or]

end Copies

/-! ### What is compared -/

def SqliteBus.recovered (bus : SqliteBus) : SqliteBus :=
  { bus with poisoned := false }

/-- Every read and every scan gives on the clone what it gives on the source, unless a
panic has poisoned the mutex of the source. -/
structure SameContents (source clone : SqliteBus) : Prop where
  read : ∀ key, (clone.readValue key).1 = (source.recovered.readValue key).1
  listed : ∀ stem, (clone.findByPrefix stem).1 = (source.recovered.findByPrefix stem).1

def Site.atSlot (site : Site) (slot : Nat) : Site :=
  { site with slot := slot }

/-- A copy that is made holds what the source holds; one that is refused or fails changes
nothing, and leaves the target absent unless it was refused for being there. -/
def ClonesWhole (site : Site) (targetSlot : Nat) (copying : Copying)
    (directories : List Location) (slot : Slot) : Prop :=
  let files : FileSystem :=
    { directories := directories
      volume := slot.volume }
  let target := site.atSlot targetSlot
  let outcome := createClone site targetSlot copying files
  (∀ bytes, outcome.1 = .ok bytes →
    SameContents slot.bus (createSqliteBus target outcome.2.volume.disk)) ∧
  ∀ error, outcome.1 = .error error →
    outcome.2 = files ∧
      (outcome.2.present (target.locate target.directory) = true ↔
        error = .alreadyExists targetSlot)

structure Cloneable (site : Site) (targetSlot : Nat) (copying : Copying)
    (files : FileSystem) : Prop where
  absent : files.present ((site.atSlot targetSlot).locate (site.atSlot targetSlot).directory) =
    false
  sourceThere : files.present (site.locate site.directory) = true
  created : copying.createsTarget = none

def Copying.found (copying : Copying) (target : Site) (stem : Name) (base : Table) : Table :=
  if copying.readsSource && target.opens (target.databasePath stem) then
    ((copying.copies (stem ++ dbSuffix)).result base).getD ∅
  else ∅

/-- Rows are in databases with a plain name only, and what becomes of each `.db` file
holds what its readers see. -/
structure Complete (site : Site) (targetSlot : Nat) (copying : Copying) (slot : Slot) :
    Prop where
  plain : ∀ (space : Bytes) (file : Location) (key : Bytes),
    slot.bus.databases[space]? = some file → (slot.bus.selectValue file key).isSome = true →
      space ≠ [] ∧ slash ∉ space
  copied : ∀ (stem : Name) (files : Logged Table), stem ≠ [] →
    slot.volume[site.fileAt stem]? = some files →
      copying.found (site.atSlot targetSlot) stem files.base = files.current

private theorem Complete.of_checkpointed {site : Site} {targetSlot : Nat} {copying : Copying}
    {slot : Slot}
    (plain : ∀ (space : Bytes) (file : Location) (key : Bytes),
      slot.bus.databases[space]? = some file → (slot.bus.selectValue file key).isSome = true →
        space ≠ [] ∧ slash ∉ space)
    (checkpointed : ∀ (file : Location) (files : Logged Table),
      slot.volume[file]? = some files → files.log = [])
    (reads : copying.readsSource = true)
    (copied : ∀ name, ∃ bytes, copying.copies name = .whole bytes)
    (opens : ∀ stem, (site.atSlot targetSlot).opens
      ((site.atSlot targetSlot).databasePath stem) = true) :
    Complete site targetSlot copying slot where
  plain := plain
  copied := by
    intro stem files _ found
    rcases copied (stem ++ dbSuffix) with ⟨bytes, whole⟩
    unfold Copying.found Logged.current
    rw [reads, opens, whole, checkpointed _ files found]
    rfl

/-- The row is shown by the database open under this name. -/
def SqliteBus.Shown (bus : SqliteBus) (space key value : Bytes) : Prop :=
  ∃ file : Location, bus.databases[space]? = some file ∧ bus.selectValue file key = some value

namespace SqliteBus

variable {bus : SqliteBus}

theorem row_eq_some {key value : Bytes} :
    bus.row key = some value ↔ bus.Shown (namespaceOf key) key value := by
  cases isOpen : bus.databases[namespaceOf key]? with
  | none =>
      rw [row_of_not_open isOpen]
      constructor
      · intro same
        cases same
      · intro shown
        rcases shown with ⟨file, found, -⟩
        cases isOpen.symm.trans found
  | some file =>
      rw [row_of_open isOpen]
      constructor
      · intro row
        exact ⟨file, isOpen, row⟩
      · intro shown
        rcases shown with ⟨other, found, row⟩
        cases isOpen.symm.trans found
        exact row

private theorem mem_listing_shown {stem key value : Bytes} :
    (key, value) ∈ bus.listing stem ↔ (∃ space, bus.Shown space key value) ∧ stem <+: key :=
  mem_listing

private theorem shown_once {stem : Bytes} (ascending : OrderedScan.Ascending (bus.listing stem))
    {space other key value otherValue : Bytes} (starts : stem <+: key)
    (shown : bus.Shown space key value) (alsoShown : bus.Shown other key otherValue) :
    space = other := by
  rcases shown with ⟨file, found, row⟩
  rcases alsoShown with ⟨otherFile, otherFound, otherRow⟩
  have keysOnce := ascending.keys_nodup
  unfold listing OrderedScan.sortByKey at keysOnce
  have permuted := (List.perm_insertionSort
    (fun left right : Bytes × Bytes => (compare left.1 right.1).isLE = true)
    (bus.databases.toList.flatMap (fun database => bus.matchingRows stem database.2))).map Prod.fst
  rw [permuted.nodup_iff, List.map_flatMap, List.nodup_flatMap] at keysOnce
  have listedIn : ∀ {file : Location} {value : Bytes},
      bus.selectValue file key = some value →
        key ∈ (bus.matchingRows stem file).map Prod.fst := by
    intro file value row
    exact List.mem_map.mpr ⟨(key, value), mem_matchingRows.mpr ⟨row, starts⟩, rfl⟩
  by_contra different
  have symmetric : Std.Symm (Function.onFun List.Disjoint
      (fun database : Bytes × Location => (bus.matchingRows stem database.2).map Prod.fst)) :=
    ⟨fun _ _ apart => apart.symm⟩
  have apart := keysOnce.2.forall (ExtTreeMap.mem_toList_iff_getElem?_eq_some.mpr found)
    (ExtTreeMap.mem_toList_iff_getElem?_eq_some.mpr otherFound)
    (fun same => different (congrArg Prod.fst same))
  exact apart (listedIn row) (listedIn otherRow)

private theorem listing_ascending_of_shown_once {stem : Bytes}
    (once : ∀ space other key value otherValue : Bytes, bus.Shown space key value →
      bus.Shown other key otherValue → space = other) :
    OrderedScan.Ascending (bus.listing stem) := by
  apply listing_ascending_of_once
  intro left leftMember right rightMember key inLeft inRight
  rcases List.mem_map.mp inLeft with ⟨⟨about, value⟩, row, rfl⟩
  rcases List.mem_map.mp inRight with ⟨⟨other, otherValue⟩, otherRow, same⟩
  cases same
  exact once left.1 right.1 about value otherValue
    ⟨left.2, ExtTreeMap.mem_toList_iff_getElem?_eq_some.mp leftMember, (mem_matchingRows.mp row).1⟩
    ⟨right.2, ExtTreeMap.mem_toList_iff_getElem?_eq_some.mp rightMember,
      (mem_matchingRows.mp otherRow).1⟩

private theorem readValue_recovered (key : Bytes) :
    (bus.recovered.readValue key).1 = some (bus.row key) := by
  unfold readValue locked recovered row
  simp only [Bool.false_eq_true, if_false, Option.some_inj]
  cases bus.databases[namespaceOf key]? <;> rfl

private theorem findByPrefix_recovered (stem : Bytes) :
    (bus.recovered.findByPrefix stem).1 = some (bus.listing stem) := rfl

end SqliteBus

/-- The contents are the same when the same rows are shown, by databases that are not
open twice. -/
theorem sameContents_iff {source clone : SqliteBus} (works : clone.poisoned = false) :
    SameContents source clone ↔
      (∀ key, clone.row key = source.row key) ∧ ∀ stem, clone.listing stem = source.listing stem := by
  have inOrder : clone.recovered = clone := by
    unfold SqliteBus.recovered
    rw [← works]
  have read : ∀ key, (clone.readValue key).1 = some (clone.row key) := by
    intro key
    rw [← inOrder, SqliteBus.readValue_recovered, inOrder]
  have listed : ∀ stem, (clone.findByPrefix stem).1 = some (clone.listing stem) := by
    intro stem
    rw [← inOrder, SqliteBus.findByPrefix_recovered, inOrder]
  constructor
  · intro same
    refine ⟨fun key => ?_, fun stem => ?_⟩
    · have replies := same.read key
      rw [read, SqliteBus.readValue_recovered] at replies
      exact Option.some_inj.mp replies
    · have replies := same.listed stem
      rw [listed, SqliteBus.findByPrefix_recovered] at replies
      exact Option.some_inj.mp replies
  · intro both
    rcases both with ⟨rows, listings⟩
    refine ⟨fun key => ?_, fun stem => ?_⟩
    · rw [read, SqliteBus.readValue_recovered, rows]
    · rw [listed, SqliteBus.findByPrefix_recovered, listings]

/-! ### What a clone shows -/

private theorem FileSystem.absent_below {files : FileSystem} {directory : Location}
    (absent : files.present directory = false) (name : Name) :
    files.volume[directory ++ [name]]? = none := by
  unfold FileSystem.present at absent
  rw [Bool.or_eq_false_iff, List.any_eq_false] at absent
  cases found : files.volume[directory ++ [name]]? with
  | none => rfl
  | some held =>
      have member := ExtTreeMap.mem_toList_iff_getElem?_eq_some.mpr found
      have unnamed := absent.2 _ member
      rw [nameIn_eq_some.mpr rfl] at unnamed
      exact absurd rfl unnamed

section Clone

variable {site : Site} {targetSlot : Nat} {copying : Copying} {files : FileSystem}

private theorem createClone_files (cloneable : Cloneable site targetSlot copying files) :
    ∃ (bytes : Nat) (after : FileSystem),
      createClone site targetSlot copying files = (.ok bytes, after) ∧
        ∀ stem : Name, after.volume[(site.atSlot targetSlot).fileAt stem]? =
          if copying.readsSource then
            copiedFiles (site.locate site.directory) copying files.volume (stem ++ dbSuffix)
          else none := by
  have absent : files.present (site.locate
      (PosixPath.join site.baseDir (site.slotName targetSlot))) = false := cloneable.absent
  unfold createClone
  simp only [absent, cloneable.sourceThere, cloneable.created, Bool.false_eq_true, if_false,
    Bool.not_true]
  refine ⟨_, _, rfl, fun stem => ?_⟩
  have untouched : files.volume[(site.atSlot targetSlot).fileAt stem]? = none :=
    FileSystem.absent_below cloneable.absent _
  have looked := @getElem?_copyEntries (site.locate site.directory)
    ((site.atSlot targetSlot).locate (site.atSlot targetSlot).directory) copying files.volume
    (if copying.readsSource then files.volume.disk.entries (site.locate site.directory) else [])
    (files.volume, 0) (stem ++ dbSuffix)
  change _ = if _ then Option.or _ files.volume[(site.atSlot targetSlot).fileAt stem]? else
    files.volume[(site.atSlot targetSlot).fileAt stem]? at looked
  rw [untouched, Option.or_none] at looked
  refine looked.trans ?_
  cases copying.readsSource with
  | false => simp only [Bool.false_eq_true, if_false, List.not_mem_nil]
  | true =>
      simp only [if_true]
      split
      · rfl
      · rename_i notListed
        rw [mem_entries, Volume.getElem?_disk, Option.isSome_map, Bool.not_eq_true,
          Option.isSome_eq_false_iff, Option.isNone_iff_eq_none] at notListed
        unfold copiedFiles
        rw [notListed]
        simp only [Option.bind_none, Option.map_none, ite_self]

end Clone

section Clone

variable {site : Site} {targetSlot : Nat} {copying : Copying} {slot : Slot}
  {directories : List Location} {bytes : Nat} {after : FileSystem}

/-- The rows of the `.db` file of the source that the clone shows under a stem. -/
theorem clone_shown (lived : Lived site slot)
    (copies : ∀ stem : Name, after.volume[(site.atSlot targetSlot).fileAt stem]? =
      if copying.readsSource then
        copiedFiles (site.locate site.directory) copying slot.volume (stem ++ dbSuffix)
      else none) {space key value : Bytes} :
    (createSqliteBus (site.atSlot targetSlot) after.volume.disk).Shown space key value ↔
      space ≠ [] ∧ ∃ files, slot.volume[site.fileAt space]? = some files ∧
        (copying.found (site.atSlot targetSlot) space files.base)[key]? = some value := by
  have onDisk : ∀ stem : Name, stem ≠ [] →
      after.volume.disk[(site.atSlot targetSlot).fileAt stem]? =
        if copying.readsSource then
          slot.volume[site.fileAt stem]?.bind
            (fun files => (copying.copies (stem ++ dbSuffix)).result files.base)
        else none := by
    intro stem nonempty
    rw [Volume.getElem?_disk, copies]
    split
    · have plain : dot ∉ asBytes "db" := by
        decide +kernel
      have proper : asBytes "db" ≠ [] := by
        decide +kernel
      rcases PosixPath.extension_append nonempty plain proper with ⟨extension, -⟩
      rw [← dbSuffix_eq] at extension
      unfold copiedFiles
      rw [if_pos extension, Option.map_map]
      exact congrFun Option.map_id_fun' _
    · rfl
  have tell : StemsTell (site.atSlot targetSlot) after.volume.disk := by
    intro stem scanned
    apply lived.placed.stem_of_there
    have there := scanned.there
    rw [onDisk stem scanned.nonempty] at there
    rw [← lived.shows, Volume.getElem?_disk, Option.isSome_map]
    split at there
    · cases present : slot.volume[site.fileAt stem]? with
      | none =>
          rw [present] at there
          cases there
      | some files => rfl
    · cases there
  unfold SqliteBus.Shown
  simp only [createSqliteBus_databases tell]
  constructor
  · intro shown
    rcases shown with ⟨file, ⟨scanned, rfl⟩, row⟩
    refine ⟨scanned.nonempty, ?_⟩
    have opens : (site.atSlot targetSlot).opens ((site.atSlot targetSlot).databasePath space) =
        true := scanned.opens
    change after.volume.disk[(site.atSlot targetSlot).fileAt space]?.bind
      (fun table => table[key]?) = some value at row
    rw [onDisk space scanned.nonempty] at row
    unfold Copying.found
    rw [opens, Bool.and_true]
    split at row
    · rename_i reads
      rw [Option.bind_assoc, Option.bind_eq_some_iff] at row
      rcases row with ⟨files, present, held⟩
      rw [Option.bind_eq_some_iff] at held
      rcases held with ⟨table, left, held⟩
      refine ⟨files, present, ?_⟩
      rw [if_pos reads, left, Option.getD_some]
      exact held
    · cases row
  · intro shown
    rcases shown with ⟨nonempty, files, present, held⟩
    unfold Copying.found at held
    split at held
    · rename_i both
      rw [Bool.and_eq_true] at both
      rcases both with ⟨reads, opens⟩
      have there := onDisk space nonempty
      rw [if_pos reads, present, Option.bind_some] at there
      cases left : (copying.copies (space ++ dbSuffix)).result files.base with
      | none =>
          rw [left, Option.getD_none, ExtTreeMap.getElem?_empty] at held
          cases held
      | some table =>
          rw [left, Option.getD_some] at held
          rw [left] at there
          refine ⟨_, ⟨⟨nonempty, ?_, opens⟩, rfl⟩, ?_⟩
          · rw [there]
            rfl
          · change after.volume.disk[(site.atSlot targetSlot).fileAt space]?.bind
              (fun table => table[key]?) = some value
            rw [there]
            exact held
    · rw [ExtTreeMap.getElem?_empty] at held
      cases held

private theorem Copying.mem_base_of_found {target : Site} {stem key value : Bytes} {base : Table}
    (held : (copying.found target stem base)[key]? = some value) :
    (base[key]?).isSome = true := by
  have nothing : ∀ {proposition : Prop}, (∅ : Table)[key]? = some value → proposition := by
    intro proposition found
    rw [ExtTreeMap.getElem?_empty] at found
    cases found
  unfold Copying.found at held
  split at held
  · cases copied : copying.copies (stem ++ dbSuffix) with
    | whole bytes =>
        rw [copied] at held
        change base[key]? = some value at held
        rw [held]
        rfl
    | failed left =>
        rw [copied] at held
        cases left with
        | none => exact nothing held
        | some kept =>
            change (base.filter (fun key _ => kept key))[key]? = some value at held
            rw [ExtTreeMap.getElem?_filter', Option.filter_eq_some_iff] at held
            rw [held.1]
            rfl
  · exact nothing held

theorem Lived.selectValue_eq (lived : Lived site slot) {file : Location} {files : Logged Table}
    (present : slot.volume[file]? = some files) (key : Bytes) :
    slot.bus.selectValue file key = files.current[key]? := by
  rw [SqliteBus.selectValue_eq, ← lived.shows, Volume.getElem?_disk, present]
  rfl

private theorem Lived.present_of_row (lived : Lived site slot) {file : Location} {key value : Bytes}
    (row : slot.bus.selectValue file key = some value) :
    ∃ files, slot.volume[file]? = some files ∧ files.current[key]? = some value := by
  have there := Placed.there_of_row (Option.isSome_iff_exists.mpr ⟨value, row⟩)
  rw [← lived.shows, Volume.getElem?_disk, Option.isSome_map] at there
  rcases Option.isSome_iff_exists.mp there with ⟨files, present⟩
  rw [lived.selectValue_eq present] at row
  exact ⟨files, present, row⟩

private theorem fileAt_of_plain {space : Bytes} (plain : slash ∉ space) :
    site.databaseFile space = site.fileAt space :=
  databaseFile_of_plain site plain

/-- A row in a database of the directory is shown on the source, under the stem or under
its own namespace. -/
theorem Lived.shown_of_row (lived : Lived site slot) {stem key value : Bytes}
    (nonempty : stem ≠ []) (row : slot.bus.selectValue (site.fileAt stem) key = some value) :
    slot.bus.Shown stem key value ∨
      (slot.bus.databases[stem]? = none ∧ slot.bus.Shown (namespaceOf key) key value) := by
  have someRow := Option.isSome_iff_exists.mpr ⟨value, row⟩
  have plain := (lived.placed.stem_of_there (Placed.there_of_row someRow)).2
  cases isOpen : slot.bus.databases[stem]? with
  | some file =>
      left
      have same := lived.placed.opened stem file isOpen
      rw [fileAt_of_plain plain] at same
      rw [← same] at row
      exact ⟨file, isOpen, row⟩
  | none =>
      have ownOpen := lived.placed.seen stem key nonempty someRow isOpen
      rcases Option.isSome_iff_exists.mp ownOpen with ⟨file, found⟩
      have same := lived.placed.opened _ file found
      rw [← lived.placed.home _ key someRow] at same
      rw [← same] at row
      exact Or.inr ⟨rfl, file, found, row⟩

private theorem Lived.file_of_shown (lived : Lived site slot) {space key value : Bytes}
    (shown : slot.bus.Shown space key value) :
    slot.bus.selectValue (site.databaseFile space) key = some value ∧
      site.databaseFile space = site.databaseFile (namespaceOf key) := by
  rcases shown with ⟨file, found, row⟩
  have same := lived.placed.opened space file found
  have home := lived.placed.home file key (Option.isSome_iff_exists.mpr ⟨value, row⟩)
  rw [← same]
  exact ⟨row, home⟩

section Whole

variable (lived : Lived site slot)
  (copies : ∀ stem : Name, after.volume[(site.atSlot targetSlot).fileAt stem]? =
    if copying.readsSource then
      copiedFiles (site.locate site.directory) copying slot.volume (stem ++ dbSuffix)
    else none)

include lived copies

private theorem clone_file {space key value : Bytes}
    (shown : (createSqliteBus (site.atSlot targetSlot) after.volume.disk).Shown space key value) :
    space ≠ [] ∧ slash ∉ space ∧ site.fileAt space = site.databaseFile (namespaceOf key) := by
  rcases (clone_shown lived copies).mp shown with ⟨nonempty, files, present, held⟩
  have inBase := Copying.mem_base_of_found held
  have home := lived.kept _ files files.base key present files.base_mem_versions inBase
  refine ⟨nonempty, (lived.placed.stem_of_there ?_).2, home⟩
  rw [← lived.shows, Volume.getElem?_disk, present]
  rfl

private theorem clone_shown_once {space other key value otherValue : Bytes}
    (shown : (createSqliteBus (site.atSlot targetSlot) after.volume.disk).Shown space key value)
    (alsoShown :
      (createSqliteBus (site.atSlot targetSlot) after.volume.disk).Shown other key otherValue) :
    space = other := by
  rcases clone_file lived copies shown with ⟨-, -, file⟩
  rcases clone_file lived copies alsoShown with ⟨-, -, otherFile⟩
  exact fileAt_injective site (file.trans otherFile.symm)

private theorem shown_iff_of_complete (complete : Complete site targetSlot copying slot)
    {space key value : Bytes} :
    (createSqliteBus (site.atSlot targetSlot) after.volume.disk).Shown space key value ↔
      slot.bus.Shown space key value := by
  rw [clone_shown lived copies]
  constructor
  · intro shown
    rcases shown with ⟨nonempty, files, present, held⟩
    rw [complete.copied space files nonempty present,
      ← lived.selectValue_eq present] at held
    rcases lived.shown_of_row nonempty held with shownThere | ⟨closed, ⟨file, found, row⟩⟩
    · exact shownThere
    · have plain := complete.plain (namespaceOf key) file key found
        (Option.isSome_iff_exists.mpr ⟨value, row⟩)
      have home := lived.placed.home _ key (Option.isSome_iff_exists.mpr ⟨value, held⟩)
      rw [fileAt_of_plain plain.2] at home
      rw [fileAt_injective site home, found] at closed
      cases closed
  · intro shown
    rcases lived.file_of_shown shown with ⟨row, -⟩
    rcases shown with ⟨file, found, shownRow⟩
    rcases complete.plain space file key found (Option.isSome_iff_exists.mpr ⟨value, shownRow⟩)
      with ⟨nonempty, plain⟩
    rw [fileAt_of_plain plain] at row
    rcases lived.present_of_row row with ⟨files, present, held⟩
    refine ⟨nonempty, files, present, ?_⟩
    rw [complete.copied space files nonempty present]
    exact held

private theorem sameContents_of_complete (complete : Complete site targetSlot copying slot) :
    SameContents slot.bus (createSqliteBus (site.atSlot targetSlot) after.volume.disk) := by
  have same : ∀ space key value,
      (createSqliteBus (site.atSlot targetSlot) after.volume.disk).Shown space key value ↔
        slot.bus.Shown space key value :=
    fun _ _ _ => shown_iff_of_complete lived copies complete
  rw [sameContents_iff rfl]
  constructor
  · intro key
    apply Option.ext
    intro value
    rw [SqliteBus.row_eq_some, SqliteBus.row_eq_some, same]
  · intro stem
    have cloneAscending : OrderedScan.Ascending
        ((createSqliteBus (site.atSlot targetSlot) after.volume.disk).listing stem) :=
      SqliteBus.listing_ascending_of_shown_once
        (fun _ _ _ _ _ shown alsoShown => clone_shown_once lived copies shown alsoShown)
    have sourceAscending : OrderedScan.Ascending (slot.bus.listing stem) := by
      apply SqliteBus.listing_ascending_of_shown_once
      intro space other key value otherValue shown alsoShown
      rw [← same] at shown alsoShown
      exact clone_shown_once lived copies shown alsoShown
    apply cloneAscending.eq_of_mem_iff sourceAscending
    intro pair
    rcases pair with ⟨key, value⟩
    rw [SqliteBus.mem_listing_shown, SqliteBus.mem_listing_shown]
    simp only [same]

private theorem complete_of_sameContents
    (same : SameContents slot.bus (createSqliteBus (site.atSlot targetSlot) after.volume.disk)) :
    Complete site targetSlot copying slot := by
  rw [sameContents_iff rfl] at same
  rcases same with ⟨rows, listings⟩
  have somewhere : ∀ {key value : Bytes}, (∃ space, slot.bus.Shown space key value) ↔
      ∃ space, (createSqliteBus (site.atSlot targetSlot) after.volume.disk).Shown space key value := by
    intro key value
    have listed : (key, value) ∈ slot.bus.listing [] ↔
        (key, value) ∈ (createSqliteBus (site.atSlot targetSlot) after.volume.disk).listing [] := by
      rw [listings]
    rw [SqliteBus.mem_listing_shown, SqliteBus.mem_listing_shown] at listed
    simpa only [List.nil_prefix, and_true] using listed
  have once : ∀ {space other key value otherValue : Bytes}, slot.bus.Shown space key value →
      slot.bus.Shown other key otherValue → space = other := by
    intro space other key value otherValue
    have ascending : OrderedScan.Ascending (slot.bus.listing []) := by
      rw [← listings]
      exact SqliteBus.listing_ascending_of_shown_once
        (fun _ _ _ _ _ shown alsoShown => clone_shown_once lived copies shown alsoShown)
    exact SqliteBus.shown_once ascending List.nil_prefix
  constructor
  · intro space file key found row
    rcases Option.isSome_iff_exists.mp row with ⟨value, row⟩
    have shown : slot.bus.Shown space key value := ⟨file, found, row⟩
    rcases lived.file_of_shown shown with ⟨rowThere, home⟩
    rcases somewhere.mp ⟨space, shown⟩ with ⟨stem, cloneShown⟩
    rcases clone_file lived copies cloneShown with ⟨nonempty, plain, cloneHome⟩
    rw [home, ← cloneHome] at rowThere
    rcases lived.shown_of_row nonempty rowThere with shownThere | ⟨closed, ownShown⟩
    · rw [once shown shownThere]
      exact ⟨nonempty, plain⟩
    · have row := SqliteBus.row_eq_some.mpr ownShown
      rw [← rows] at row
      rcases clone_file lived copies (SqliteBus.row_eq_some.mp row) with ⟨-, ownPlain, ownHome⟩
      rcases ownShown with ⟨ownFile, ownFound, -⟩
      rw [← fileAt_injective site (cloneHome.trans ownHome.symm)] at ownFound
      cases closed.symm.trans ownFound
  · intro stem files nonempty present
    apply ExtTreeMap.ext_getElem?
    intro key
    apply Option.ext
    intro value
    rw [← lived.selectValue_eq present]
    constructor
    · intro held
      have cloneShown := (clone_shown lived copies).mpr ⟨nonempty, files, present, held⟩
      rcases clone_file lived copies cloneShown with ⟨-, -, cloneHome⟩
      rcases somewhere.mpr ⟨stem, cloneShown⟩ with ⟨space, shown⟩
      rcases lived.file_of_shown shown with ⟨row, home⟩
      rw [cloneHome, ← home]
      exact row
    · intro row
      have home := lived.placed.home _ key (Option.isSome_iff_exists.mpr ⟨value, row⟩)
      have shownSomewhere : ∃ space, slot.bus.Shown space key value := by
        rcases lived.shown_of_row nonempty row with shownThere | ⟨-, ownShown⟩
        · exact ⟨stem, shownThere⟩
        · exact ⟨namespaceOf key, ownShown⟩
      rcases somewhere.mp shownSomewhere with ⟨other, cloneShown⟩
      rcases clone_file lived copies cloneShown with ⟨-, -, cloneHome⟩
      rcases (clone_shown lived copies).mp cloneShown with ⟨-, otherFiles, otherPresent, held⟩
      rw [fileAt_injective site (cloneHome.trans home.symm)] at otherPresent held
      cases present.symm.trans otherPresent
      exact held

end Whole

end Clone

/-! ### When a clone has all its source had -/

private theorem createClone_refused {site : Site} {targetSlot : Nat} {copying : Copying}
    {files : FileSystem} (refused : ¬ Cloneable site targetSlot copying files) :
    ∃ error, createClone site targetSlot copying files = (.error error, files) ∧
      (files.present ((site.atSlot targetSlot).locate (site.atSlot targetSlot).directory) = true ↔
        error = .alreadyExists targetSlot) := by
  have target : site.locate (PosixPath.join site.baseDir (site.slotName targetSlot)) =
      (site.atSlot targetSlot).locate (site.atSlot targetSlot).directory := rfl
  unfold createClone
  simp only [target]
  cases there : files.present
      ((site.atSlot targetSlot).locate (site.atSlot targetSlot).directory) with
  | true => exact ⟨_, rfl, fun _ => rfl, fun _ => rfl⟩
  | false =>
      cases sourceThere : files.present (site.locate site.directory) with
      | false => exact ⟨_, rfl, nofun, nofun⟩
      | true =>
          cases created : copying.createsTarget with
          | some error => exact ⟨_, rfl, nofun, nofun⟩
          | none => exact absurd ⟨there, sourceThere, created⟩ refused

/-- A clone has what its source had exactly when nothing is missing from the `.db` files
of the source, every copy is made and can be opened, and every row lies in a database
with a plain name. -/
theorem clone_is_whole_iff (site : Site) (targetSlot : Nat) (copying : Copying)
    (directories : List Location) (events : List SlotEvent) (opensByStem : site.OpensByStem) :
    let slot := Slot.run site events
    ClonesWhole site targetSlot copying directories slot ↔
      (Cloneable site targetSlot copying
          { directories := directories
            volume := slot.volume } → Complete site targetSlot copying slot) := by
  intro slot
  have lived : Lived site slot := Lived.run opensByStem events
  unfold ClonesWhole
  simp only
  by_cases cloneable : Cloneable site targetSlot copying
      { directories := directories
        volume := slot.volume }
  · rcases createClone_files cloneable with ⟨bytes, after, outcome, copies⟩
    rw [outcome]
    constructor
    · intro whole _
      exact complete_of_sameContents lived copies (whole.1 bytes rfl)
    · intro complete
      exact ⟨fun _ _ => sameContents_of_complete lived copies (complete cloneable), nofun⟩
  · rcases createClone_refused cloneable with ⟨error, outcome, present⟩
    rw [outcome]
    constructor
    · intro _ allowed
      exact absurd allowed cloneable
    · intro _
      refine ⟨nofun, fun other same => ?_⟩
      cases same
      exact ⟨rfl, present⟩

def allCopied : Copying where
  createsTarget := none
  readsSource := true
  copies := fun _ => .whole 4096

def checkpointedEvents : List SlotEvent :=
  [.call (.writeValue (asBytes "users:1") (asBytes "a")),
    .checkpoint (openSite.databaseFile (asBytes "users")) 1]

theorem checkpointed_slot_is_cloned :
    ClonesWhole openSite 1 allCopied [openSite.locate openSite.directory]
      (Slot.run openSite checkpointedEvents) := by
  apply (clone_is_whole_iff openSite 1 allCopied [openSite.locate openSite.directory]
    checkpointedEvents (fun _ _ _ _ => rfl)).mpr
  intro _
  have names : ∀ database ∈ (Slot.run openSite checkpointedEvents).bus.databases.toList,
      database.1 ≠ [] ∧ slash ∉ database.1 := by
    decide +kernel
  have logs : ∀ file ∈ (Slot.run openSite checkpointedEvents).volume.toList,
      file.2.log = [] := by
    decide +kernel
  apply Complete.of_checkpointed
  · intro space file key found _
    exact names (space, file) (ExtTreeMap.mem_toList_iff_getElem?_eq_some.mpr found)
  · intro file files found
    exact logs (file, files) (ExtTreeMap.mem_toList_iff_getElem?_eq_some.mpr found)
  · rfl
  · exact fun name => ⟨4096, rfl⟩
  · exact fun stem => rfl

/-- The written value is in the log beside `users.db` only: the clone is made, and does
not have it. -/
theorem logged_value_is_not_cloned :
    let slot := Slot.run openSite [.call (.writeValue (asBytes "users:1") (asBytes "a"))]
    let outcome := createClone openSite 1 allCopied
      { directories := [openSite.locate openSite.directory]
        volume := slot.volume }
    let clone := createSqliteBus (openSite.atSlot 1) outcome.2.volume.disk
    outcome.1.toOption = some 4096 ∧
      (slot.bus.readValue (asBytes "users:1")).1 = some (some (asBytes "a")) ∧
      (clone.readValue (asBytes "users:1")).1 = some none ∧
      ¬ ClonesWhole openSite 1 allCopied [openSite.locate openSite.directory] slot := by
  intro slot outcome clone
  have made : outcome.1.toOption = some 4096 := by
    decide +kernel
  have onClone : (clone.readValue (asBytes "users:1")).1 = some none := by
    decide +kernel
  have onSource : (slot.bus.recovered.readValue (asBytes "users:1")).1 =
      some (some (asBytes "a")) := by
    decide +kernel
  refine ⟨made, by decide +kernel, onClone, ?_⟩
  intro whole
  have isOk : ∃ bytes, outcome.1 = .ok bytes := by
    cases result : outcome.1 with
    | ok bytes => exact ⟨bytes, rfl⟩
    | error error =>
        rw [result] at made
        cases made
  rcases isOk with ⟨bytes, ok⟩
  have same := (whole.1 bytes ok).read (asBytes "users:1")
  have differ := onClone.symm.trans (same.trans onSource)
  cases differ

end TricPlus
