import TricPlus.Cloning

/-!
What holds all through the life of a slot.

Whatever is called, checkpointed and restarted, a row lies in the file its namespace
denotes, in the log as in the `.db` file, and every file of the directory that was
there when the process started is open under its stem.
-/

namespace TricPlus

open Std (ExtTreeMap LawfulEqCmp)
open PosixPath (Location Name slash)
open WriteAhead (Logged)

/-- A database of the directory that was opened under some path can be opened under its
stem. -/
def Site.OpensByStem (site : Site) : Prop :=
  ∀ space stem : Bytes, site.opens (site.databasePath space) = true →
    site.databaseFile space = site.fileAt stem → site.opens (site.databasePath stem) = true

namespace Volume

@[simp] theorem getElem?_disk (volume : Volume) (file : Location) :
    volume.disk[file]? = volume[file]?.map Logged.current := by
  unfold disk
  rw [ExtTreeMap.getElem?_map]

private theorem getElem?_commit (volume : Volume) (disk : Disk) (file : Location) :
    (volume.commit disk)[file]? =
      disk[file]?.map (fun table => committed table volume[file]?) := by
  unfold commit
  rw [ExtTreeMap.getElem?_map]

private theorem disk_commit (volume : Volume) (disk : Disk) : (volume.commit disk).disk = disk := by
  apply ExtTreeMap.ext_getElem?
  intro file
  rw [getElem?_disk, getElem?_commit]
  cases disk[file]? with
  | none => rfl
  | some table =>
      simp only [Option.map_some, Option.some_inj]
      unfold committed
      cases volume[file]? with
      | none => rfl
      | some files =>
          simp only
          split
          · rename_i same
            exact same
          · exact Logged.current_commit table files

private theorem disk_checkpoint (volume : Volume) (file : Location) (count : Nat) :
    Volume.disk (ExtTreeMap.modify volume file (Logged.checkpoint count)) = volume.disk := by
  apply ExtTreeMap.ext_getElem?
  intro other
  rw [getElem?_disk, getElem?_disk, ExtTreeMap.getElem?_modify]
  split
  · rename_i same
    rw [LawfulEqCmp.eq_of_compare same]
    cases volume[other]? with
    | none => rfl
    | some files => simp only [Option.map_some, Logged.current_checkpoint]
  · rfl

private theorem versions_commit {volume : Volume} {disk : Disk} {file : Location}
    {files : Logged Table} {version : Table} (found : (volume.commit disk)[file]? = some files)
    (kept : version ∈ files.versions) :
    version = ∅ ∨ disk[file]? = some version ∨
      ∃ before, volume[file]? = some before ∧ version ∈ before.versions := by
  rw [getElem?_commit, Option.map_eq_some_iff] at found
  rcases found with ⟨table, there, same⟩
  unfold committed at same
  cases present : volume[file]? with
  | none =>
      rw [present] at same
      simp only at same
      rw [← same] at kept
      rcases List.mem_cons.mp kept with isEmpty | isTable
      · exact Or.inl isEmpty
      · right
        left
        rw [there, List.mem_singleton.mp isTable]
  | some before =>
      right
      rw [present] at same
      simp only at same
      split at same
      · rw [← same] at kept
        exact Or.inr ⟨before, rfl, kept⟩
      · rw [← same, Logged.mem_versions_commit] at kept
        rcases kept with older | isTable
        · exact Or.inr ⟨before, rfl, older⟩
        · left
          rw [there, isTable]

end Volume

structure Placed (site : Site) (bus : SqliteBus) : Prop where
  attached : bus.Attached
  opened : ∀ (space : Bytes) (file : Location), bus.databases[space]? = some file →
    file = site.databaseFile space
  named : ∀ file : Location, (bus.disk[file]?).isSome = true →
    ∃ key, file = site.databaseFile (namespaceOf key) ∧
      site.opens (site.databasePath (namespaceOf key)) = true
  home : ∀ (file : Location) (key : Bytes), (bus.selectValue file key).isSome = true →
    file = site.databaseFile (namespaceOf key)
  /-- A database that is not open under its stem was made by the process itself. -/
  seen : ∀ stem key : Bytes, stem ≠ [] →
    (bus.selectValue (site.fileAt stem) key).isSome = true → bus.databases[stem]? = none →
      (bus.databases[namespaceOf key]?).isSome = true

namespace Placed

variable {site : Site} {bus : SqliteBus}

theorem there_of_row {file : Location} {key : Bytes}
    (row : (bus.selectValue file key).isSome = true) : (bus.disk[file]?).isSome = true := by
  rw [SqliteBus.selectValue_eq] at row
  cases found : bus.disk[file]? with
  | none =>
      rw [found] at row
      cases row
  | some table => rfl

private theorem writeConnection_placed (key : Bytes) (placed : Placed site bus) :
    Placed site (SqliteBus.writeConnection site bus (namespaceOf key)).2 := by
  have attached := SqliteBus.writeConnection_attached site (namespaceOf key) placed.attached
  have rows := SqliteBus.selectValue_writeConnection site bus (namespaceOf key)
  rcases SqliteBus.writeConnection_cases site bus (namespaceOf key) with
    ⟨-, same⟩ | ⟨-, -, same⟩ | ⟨-, -, opens, same⟩ | ⟨-, -, -, same⟩
  · rw [same]
    exact placed
  · rw [same]
    exact placed
  · rw [same] at attached rows ⊢
    refine ⟨attached, ?_, ?_, ?_, ?_⟩
    · intro space file found
      simp only [ExtTreeMap.getElem?_insert, LawfulEqCmp.compare_eq_iff_eq] at found
      split at found
      · rename_i mine
        cases found
        rw [mine]
      · exact placed.opened space file found
    · intro file there
      simp only at there
      split at there
      · exact placed.named file there
      · rw [ExtTreeMap.getElem?_insert] at there
        split at there
        · rename_i mine
          exact ⟨key, (LawfulEqCmp.eq_of_compare mine).symm, opens⟩
        · exact placed.named file there
    · intro file about row
      rw [rows] at row
      exact placed.home file about row
    · intro stem about nonempty row closed
      rw [rows] at row
      simp only [ExtTreeMap.getElem?_insert, LawfulEqCmp.compare_eq_iff_eq] at closed ⊢
      split at closed
      · cases closed
      · have isOpen := placed.seen stem about nonempty row closed
        split
        · rfl
        · exact isOpen
  · rw [same] at attached rows ⊢
    exact ⟨attached, placed.opened, placed.named, placed.home, placed.seen⟩

private theorem updateTable_placed {key : Bytes} {file : Location} {change : Table → Table}
    (found : bus.databases[namespaceOf key]? = some file)
    (changes : SqliteBus.RowChange key change) (placed : Placed site bus) :
    Placed site (bus.updateTable file change) := by
  have rowBefore : ∀ (other : Location) (about : Bytes), key ≠ about →
      (bus.updateTable file change).selectValue other about = bus.selectValue other about :=
    fun other about different => SqliteBus.selectValue_updateTable changes different
  have elsewhere : ∀ other : Location, file ≠ other →
      (bus.updateTable file change).selectValue other key = bus.selectValue other key := by
    intro other different
    rw [SqliteBus.selectValue_eq, SqliteBus.getElem?_updateTable, if_neg different]
    rfl
  refine ⟨SqliteBus.updateTable_attached file change placed.attached, ?_, ?_, ?_, ?_⟩
  · rw [SqliteBus.updateTable_databases]
    exact placed.opened
  · intro other there
    rw [SqliteBus.getElem?_updateTable] at there
    split at there
    · rename_i same
      rw [Option.isSome_map, same] at there
      exact placed.named other there
    · exact placed.named other there
  · intro other about row
    by_cases mine : key = about
    · subst mine
      by_cases here : file = other
      · rw [← here]
        exact placed.opened (namespaceOf key) file found
      · rw [elsewhere other here] at row
        exact placed.home other key row
    · rw [rowBefore other about mine] at row
      exact placed.home other about row
  · intro stem about nonempty row closed
    rw [SqliteBus.updateTable_databases] at closed ⊢
    by_cases mine : key = about
    · rw [← mine, found]
      rfl
    · rw [rowBefore _ about mine] at row
      exact placed.seen stem about nonempty row closed

private theorem step_placed (request : DataBusCall) (placed : Placed site bus) :
    Placed site (SqliteBus.step site request bus).2 :=
  SqliteBus.step_keeps site (Placed site) request placed
    (fun key _ => placed.writeConnection_placed key)
    (fun _ _ _ _ _ found changes placed => placed.updateTable_placed found changes)

theorem stem_of_there (placed : Placed site bus) {stem : Name}
    (there : (bus.disk[site.fileAt stem]?).isSome = true) :
    Utf8.wellFormed stem = true ∧ slash ∉ stem := by
  rcases placed.named _ there with ⟨key, file, -⟩
  rcases databaseFile_last site key with ⟨parent, back, last, wellFormed, plain, -⟩
  rw [← file] at last
  have names := List.append_inj_right' last rfl
  rw [List.append_cancel_right (List.singleton_inj.mp names)]
  exact ⟨wellFormed, plain⟩

theorem tell (placed : Placed site bus) : StemsTell site bus.disk :=
  fun _ scanned => placed.stem_of_there scanned.there

theorem restarted (opensByStem : site.OpensByStem) (placed : Placed site bus) :
    Placed site (createSqliteBus site bus.disk) where
  attached := createSqliteBus_attached site bus.disk
  opened := by
    intro space file found
    rcases (createSqliteBus_databases placed.tell).mp found with ⟨scanned, same⟩
    rw [databaseFile_of_plain site (placed.tell space scanned).2]
    exact same
  named := placed.named
  home := placed.home
  seen := by
    intro stem key nonempty row closed
    have there : (bus.disk[site.fileAt stem]?).isSome = true := there_of_row row
    rcases placed.named _ there with ⟨about, file, opens⟩
    have scanned : Scanned site bus.disk stem :=
      ⟨nonempty, there, opensByStem (namespaceOf about) stem opens file.symm⟩
    have isOpen := (createSqliteBus_databases placed.tell).mpr ⟨scanned, rfl⟩
    cases closed.symm.trans isOpen

theorem empty (site : Site) : Placed site (createSqliteBus site ∅) := by
  rw [createSqliteBus_empty]
  have noFile : ∀ file : Location, (∅ : Disk)[file]? = none := fun _ => ExtTreeMap.getElem?_empty
  have noRow : ∀ (file : Location) (key : Bytes),
      SqliteBus.selectValue ⟨∅, false, ∅⟩ file key = none := by
    intro file key
    rw [SqliteBus.selectValue_eq, noFile]
    rfl
  refine ⟨?_, ?_, ?_, ?_, ?_⟩
  · intro space file found
    rw [ExtTreeMap.getElem?_empty] at found
    cases found
  · intro space file found
    rw [ExtTreeMap.getElem?_empty] at found
    cases found
  · intro file there
    rw [noFile] at there
    cases there
  · intro file key row
    rw [noRow] at row
    cases row
  · intro stem key _ row
    rw [noRow] at row
    cases row

end Placed

structure Lived (site : Site) (slot : Slot) : Prop where
  shows : slot.volume.disk = slot.bus.disk
  placed : Placed site slot.bus
  kept : ∀ (file : Location) (files : Logged Table) (version : Table) (key : Bytes),
    slot.volume[file]? = some files → version ∈ files.versions →
      (version[key]?).isSome = true → file = site.databaseFile (namespaceOf key)

namespace Lived

variable {site : Site} {slot : Slot}

theorem call (request : DataBusCall) (lived : Lived site slot) :
    Lived site (slot.next site (.call request)) where
  shows := Volume.disk_commit slot.volume _
  placed := lived.placed.step_placed request
  kept := by
    intro file files version key found member held
    rcases Volume.versions_commit found member with isEmpty | there | ⟨before, present, older⟩
    · rw [isEmpty, ExtTreeMap.getElem?_empty] at held
      cases held
    · apply (lived.placed.step_placed request).home file key
      rw [SqliteBus.selectValue_eq, there]
      exact held
    · exact lived.kept file before version key present older held

theorem checkpoint (file : Location) (count : Nat) (lived : Lived site slot) :
    Lived site (slot.next site (.checkpoint file count)) where
  shows := (Volume.disk_checkpoint slot.volume file count).trans lived.shows
  placed := lived.placed
  kept := by
    intro other files version key found member held
    change (ExtTreeMap.modify slot.volume file (Logged.checkpoint count))[other]? = _ at found
    rw [ExtTreeMap.getElem?_modify] at found
    split at found
    · rename_i same
      rw [LawfulEqCmp.eq_of_compare same, Option.map_eq_some_iff] at found
      rcases found with ⟨before, present, checkpointed⟩
      rw [← checkpointed] at member
      exact lived.kept other before version key present
        (Logged.mem_versions_of_checkpoint member) held
    · exact lived.kept other files version key found member held

theorem restart (opensByStem : site.OpensByStem) (lived : Lived site slot) :
    Lived site (slot.next site .restart) where
  shows := rfl
  placed := by
    change Placed site (createSqliteBus site slot.volume.disk)
    rw [lived.shows]
    exact lived.placed.restarted opensByStem
  kept := lived.kept

theorem fresh (site : Site) : Lived site (Slot.fresh site) where
  shows := by
    apply ExtTreeMap.ext_getElem?
    intro file
    have noFiles : (Slot.fresh site).volume[file]? = none := ExtTreeMap.getElem?_empty
    rw [Volume.getElem?_disk, noFiles]
    exact ExtTreeMap.getElem?_empty.symm
  placed := Placed.empty site
  kept := by
    intro file files version key found
    have noFiles : (Slot.fresh site).volume[file]? = none := ExtTreeMap.getElem?_empty
    cases noFiles.symm.trans found

theorem next (opensByStem : site.OpensByStem) (event : SlotEvent) (lived : Lived site slot) :
    Lived site (slot.next site event) := by
  cases event with
  | call request => exact lived.call request
  | checkpoint file count => exact lived.checkpoint file count
  | restart => exact lived.restart opensByStem

theorem run (opensByStem : site.OpensByStem) (events : List SlotEvent) :
    Lived site (Slot.run site events) := by
  unfold Slot.run
  suffices folded : ∀ slot, Lived site slot → Lived site (events.foldl (Slot.next site) slot) from
    folded _ (fresh site)
  induction events with
  | nil =>
      intro slot lived
      exact lived
  | cons event events ih =>
      intro slot lived
      exact ih _ (lived.next opensByStem event)

end Lived

end TricPlus
