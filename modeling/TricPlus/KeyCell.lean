import TricPlus.SqliteCalls
import TricPlus.PermutiveBus

/-!
The two-tier bus as one key sees it.

A cell holds the copy of the key in the transient tier and its row in the
persistent one.  Calls about the key work on its cell alone; calls about other
keys leave it as it is, but for what expires.
-/

namespace TricPlus

open Std (ExtTreeMap LawfulEqCmp)
open AtomicProgram
open ExpiringMap (Entry remains)
open PosixPath (Location)

namespace SqliteBus

/-! ### The row of a key -/

def row (bus : SqliteBus) (key : Bytes) : Option Bytes := do
  let file ← bus.databases[namespaceOf key]?
  bus.selectValue file key

def usable (site : Site) (bus : SqliteBus) (key : Bytes) : Bool :=
  bus.databases.contains (namespaceOf key) ||
    site.opens (site.databasePath (namespaceOf key))

/-- The file of a key: the one its namespace has open, else the one it would open. -/
def fileOf (site : Site) (bus : SqliteBus) (key : Bytes) : Location :=
  bus.databases[namespaceOf key]?.getD (site.databaseFile (namespaceOf key))

/-- The row of a key on the disk, whether its database is open or not. -/
def stored (site : Site) (bus : SqliteBus) (key : Bytes) : Option Bytes :=
  bus.selectValue (bus.fileOf site key) key

def Attached (bus : SqliteBus) : Prop :=
  ∀ (space : Bytes) (file : Location), bus.databases[space]? = some file →
    (bus.disk[file]?).isSome = true

/-- No row waits in a database that is not open. -/
def NothingHidden (site : Site) (bus : SqliteBus) : Prop :=
  ∀ key : Bytes, bus.databases[namespaceOf key]? = none → bus.stored site key = none

theorem selectValue_eq (bus : SqliteBus) (file : Location) (key : Bytes) :
    bus.selectValue file key = bus.disk[file]?.bind (fun table => table[key]?) := rfl

theorem row_of_open {bus : SqliteBus} {key : Bytes} {file : Location}
    (found : bus.databases[namespaceOf key]? = some file) :
    bus.row key = bus.selectValue file key := by
  unfold row
  rw [found]
  rfl

theorem row_of_not_open {bus : SqliteBus} {key : Bytes}
    (closed : bus.databases[namespaceOf key]? = none) : bus.row key = none := by
  unfold row
  rw [closed]
  rfl

theorem fileOf_of_open (site : Site) {bus : SqliteBus} {key : Bytes} {file : Location}
    (found : bus.databases[namespaceOf key]? = some file) : bus.fileOf site key = file := by
  unfold fileOf
  rw [found]
  rfl

theorem NothingHidden.row_eq {site : Site} {bus : SqliteBus}
    (nothingHidden : NothingHidden site bus) (key : Bytes) :
    bus.row key = bus.stored site key := by
  cases found : bus.databases[namespaceOf key]? with
  | none => rw [row_of_not_open found, nothingHidden key found]
  | some file =>
      unfold stored
      rw [row_of_open found, fileOf_of_open site found]

theorem selectValue_updateTable {bus : SqliteBus} {file other : Location} {key changed : Bytes}
    {change : Table → Table} (changes : RowChange changed change) (different : changed ≠ key) :
    (bus.updateTable file change).selectValue other key = bus.selectValue other key := by
  rw [selectValue_eq, selectValue_eq, getElem?_updateTable]
  split
  · rename_i same
    subst same
    cases bus.disk[file]? with
    | none => rfl
    | some table =>
        cases changes <;>
          simp only [Option.map_some, Option.bind_some, ExtTreeMap.getElem?_insert,
            ExtTreeMap.getElem?_erase, LawfulEqCmp.compare_eq_iff_eq, if_neg different]
  · rfl

end SqliteBus

namespace SqliteBus

theorem writeConnection_attached (site : Site) {bus : SqliteBus} (space : Bytes)
    (attached : bus.Attached) : (writeConnection site bus space).2.Attached := by
  rcases writeConnection_cases site bus space with
    ⟨-, same⟩ | ⟨-, -, same⟩ | ⟨-, -, -, same⟩ | ⟨-, -, -, same⟩
  · rw [same]
    exact attached
  · rw [same]
    exact attached
  · rw [same]
    intro other file found
    have present : ∀ file : Location, (bus.disk[file]?).isSome = true →
        ((if bus.disk.contains (site.databaseFile space) then bus.disk
          else bus.disk.insert (site.databaseFile space) ∅)[file]?).isSome = true := by
      intro file there
      split
      · exact there
      · rw [ExtTreeMap.getElem?_insert]
        split
        · rfl
        · exact there
    simp only at found ⊢
    rw [ExtTreeMap.getElem?_insert] at found
    split at found
    · cases found
      split
      · rename_i contained
        rw [ExtTreeMap.isSome_getElem?_eq_contains]
        exact contained
      · rw [ExtTreeMap.getElem?_insert_self]
        rfl
    · exact present file (attached other file found)
  · rw [same]
    exact attached

theorem updateTable_attached {bus : SqliteBus} (file : Location) (change : Table → Table)
    (attached : bus.Attached) : (bus.updateTable file change).Attached := by
  intro space other found
  rw [updateTable_databases] at found
  rw [getElem?_updateTable]
  split
  · rename_i same
    subst same
    rw [Option.isSome_map]
    exact attached space file found
  · exact attached space other found

theorem step_attached (site : Site) (request : DataBusCall) (bus : SqliteBus)
    (attached : bus.Attached) : (step site request bus).2.Attached :=
  step_keeps site Attached request attached
    (fun _ _ => writeConnection_attached site _ attached)
    (fun _ _ file change _ _ _ attached => updateTable_attached file change attached)

theorem selectValue_writeConnection (site : Site) (bus : SqliteBus) (space : Bytes)
    (file : Location) (key : Bytes) :
    (writeConnection site bus space).2.selectValue file key = bus.selectValue file key := by
  rcases writeConnection_cases site bus space with
    ⟨-, same⟩ | ⟨-, -, same⟩ | ⟨-, -, -, same⟩ | ⟨-, -, -, same⟩
  · rw [same]
  · rw [same]
  · rw [same, selectValue_eq, selectValue_eq]
    simp only
    split
    · rfl
    · rename_i absent
      rw [ExtTreeMap.getElem?_insert]
      split
      · rename_i here
        have missing : bus.disk[site.databaseFile space]? = none :=
          ExtTreeMap.getElem?_eq_none_of_contains_eq_false (Bool.not_eq_true _ ▸ absent)
        rw [← LawfulEqCmp.eq_of_compare here, missing]
        exact ExtTreeMap.getElem?_empty
      · rfl
  · rw [same]
    rfl

theorem writeConnection_stored (site : Site) (bus : SqliteBus) (space key : Bytes) :
    (writeConnection site bus space).2.stored site key = bus.stored site key ∧
      ((writeConnection site bus space).2.databases[namespaceOf key]? = none →
        bus.databases[namespaceOf key]? = none) := by
  unfold stored
  rw [selectValue_writeConnection]
  rcases writeConnection_cases site bus space with
    ⟨-, same⟩ | ⟨-, -, same⟩ | ⟨-, closed, -, same⟩ | ⟨-, -, -, same⟩
  · rw [same]
    exact ⟨rfl, id⟩
  · rw [same]
    exact ⟨rfl, id⟩
  · have notOpen : bus.databases[space]? = none :=
      ExtTreeMap.getElem?_eq_none_of_contains_eq_false closed
    rw [same]
    unfold fileOf
    simp only [ExtTreeMap.getElem?_insert, LawfulEqCmp.compare_eq_iff_eq]
    split
    · rename_i own
      subst own
      rw [notOpen]
      exact ⟨rfl, fun _ => rfl⟩
    · exact ⟨rfl, id⟩
  · rw [same]
    exact ⟨rfl, id⟩

theorem updateTable_stored (site : Site) {bus : SqliteBus} {file : Location}
    {key changed : Bytes} {change : Table → Table} (changes : RowChange changed change)
    (different : changed ≠ key) :
    (bus.updateTable file change).stored site key = bus.stored site key := by
  unfold stored fileOf
  rw [updateTable_databases]
  exact selectValue_updateTable changes different

theorem step_other (site : Site) {request : DataBusCall} {key : Bytes}
    (other : request.key? ≠ some key) (bus : SqliteBus) :
    (step site request bus).2.stored site key = bus.stored site key ∧
      ((step site request bus).2.databases[namespaceOf key]? = none →
        bus.databases[namespaceOf key]? = none) := by
  apply step_keeps site (fun after => after.stored site key = bus.stored site key ∧
    (after.databases[namespaceOf key]? = none → bus.databases[namespaceOf key]? = none))
    request ⟨rfl, id⟩
  · intro about asked
    exact writeConnection_stored site bus (namespaceOf about) key
  · intro middle about file change asked found changes kept
    have different : about ≠ key := by
      intro same
      exact other (same ▸ asked)
    rw [updateTable_stored site changes different, updateTable_databases]
    exact kept

end SqliteBus

/-! ### Cells -/

structure Cell where
  copy : Option (Entry Bytes Instant)
  row : Option Bytes
  usable : Bool
  poisoned : Bool

namespace Cell

def transientStep (request : DataBusCall) (now : Instant) (cell : Cell) :
    request.Reply × Cell :=
  let current := remains now cell.copy
  match request with
  | .readValue _ => (current.map Entry.value, { cell with copy := current })
  | .writeValue _ value => ((), { cell with copy := some ⟨value, none⟩ })
  | .deleteValue _ => ((), { cell with copy := none })
  | .deleteValueIfMatch _ expected =>
      if current.map Entry.value = some expected then (true, { cell with copy := none })
      else (false, { cell with copy := current })
  | .writeTtl _ duration =>
      ((), { cell with
        copy := current.map (fun entry => ⟨entry.value, some (now + duration)⟩) })
  | .writeValueWithTtl _ value duration =>
      ((), { cell with copy := some ⟨value, some (now + duration)⟩ })
  | .readTtlRemaining _ =>
      ((current.bind Entry.deadline).map (fun deadline => deadline - now),
        { cell with copy := current })
  | .findByPrefix _ => ([], { cell with copy := current })

def locked {α : Type} (cell : Cell) (answer : α) (after : Cell) : Option α × Cell :=
  if cell.poisoned then (none, cell) else (some answer, after)

def writeRow (cell : Cell) (value : Bytes) : Option Unit × Cell :=
  if cell.poisoned then (none, cell)
  else if cell.usable then (some (), { cell with row := some value })
  else (none, { cell with poisoned := true })

def persistentStep (request : DataBusCall) (cell : Cell) : Option request.Reply × Cell :=
  match request with
  | .readValue _ => cell.locked cell.row cell
  | .writeValue _ value => cell.writeRow value
  | .deleteValue _ => cell.locked () { cell with row := none }
  | .deleteValueIfMatch _ expected =>
      if cell.row = some expected then cell.locked true { cell with row := none }
      else cell.locked false cell
  | .writeTtl _ _ => (some (), cell)
  | .writeValueWithTtl _ value _ => cell.writeRow value
  | .readTtlRemaining _ => (some none, cell)
  | .findByPrefix _ => cell.locked [] cell

end Cell

def oneCell : Object tiers Instant Cell where
  step := fun call now cell =>
    match call.tier with
    | .transient =>
        let (reply, after) := Cell.transientStep call.request now cell
        (some reply, after)
    | .persistent => Cell.persistentStep call.request cell

def PermutiveBus.cell (site : Site) (key : Bytes) (bus : PermutiveBus) : Cell where
  copy := bus.transient.contents[key]?
  row := bus.persistent.row key
  usable := bus.persistent.usable site key
  poisoned := bus.persistent.poisoned

namespace Reference

theorem value?_purge (now : Instant) (contents : Reference) (key : Bytes) :
    ExpiringMap.value? key (ExpiringMap.purge now contents) =
      (remains now contents[key]?).map Entry.value := by
  unfold ExpiringMap.value?
  rw [ExpiringMap.getElem?_purge]

theorem step_cell {request : DataBusCall} {key : Bytes} (about : request.key? = some key)
    (now : Instant) (contents : Reference) (cell : Cell) (copy : cell.copy = contents[key]?) :
    (step request now contents).1 = (Cell.transientStep request now cell).1 ∧
      { cell with copy := (step request now contents).2[key]? } =
        (Cell.transientStep request now cell).2 := by
  unfold step apply Cell.transientStep
  cases request with
  | findByPrefix stem => cases about
  | readValue key =>
      cases about
      simp only [value?_purge, copy, ExpiringMap.getElem?_purge, and_self]
  | writeValue key value =>
      cases about
      simp only [ExpiringMap.getElem?_store, if_true, and_self]
  | deleteValue key =>
      cases about
      simp only [ExpiringMap.getElem?_remove, if_true, and_self]
  | deleteValueIfMatch key expected =>
      cases about
      simp only [value?_purge, copy]
      split <;>
        simp only [ExpiringMap.getElem?_remove, ExpiringMap.getElem?_purge, if_true, and_self]
  | writeTtl key duration =>
      cases about
      simp only [ExpiringMap.getElem?_setDeadline, ExpiringMap.getElem?_purge, copy, if_true,
        and_self]
  | writeValueWithTtl key value duration =>
      cases about
      simp only [ExpiringMap.getElem?_storeUntil, if_true, and_self]
  | readTtlRemaining key =>
      cases about
      simp only [ExpiringMap.deadline?, ExpiringMap.getElem?_purge, copy, and_self]

theorem step_other {request : DataBusCall} {key : Bytes} (other : request.key? ≠ some key)
    (now : Instant) (contents : Reference) :
    (step request now contents).2[key]? = remains now contents[key]? := by
  unfold step apply
  have different : ∀ about : Bytes, request.key? = some about → about ≠ key := by
    intro about asked same
    exact other (same ▸ asked)
  cases request with
  | findByPrefix stem => exact ExpiringMap.getElem?_purge now contents key
  | readValue about => exact ExpiringMap.getElem?_purge now contents key
  | readTtlRemaining about => exact ExpiringMap.getElem?_purge now contents key
  | writeValue about value =>
      simp only [ExpiringMap.getElem?_store, ExpiringMap.getElem?_purge,
        if_neg (different about rfl)]
  | deleteValue about =>
      simp only [ExpiringMap.getElem?_remove, ExpiringMap.getElem?_purge,
        if_neg (different about rfl)]
  | deleteValueIfMatch about expected =>
      simp only
      split <;>
        simp only [ExpiringMap.getElem?_remove, ExpiringMap.getElem?_purge,
          if_neg (different about rfl)]
  | writeTtl about duration =>
      simp only [ExpiringMap.getElem?_setDeadline, ExpiringMap.getElem?_purge,
        if_neg (different about rfl)]
  | writeValueWithTtl about value duration =>
      simp only [ExpiringMap.getElem?_storeUntil, ExpiringMap.getElem?_purge,
        if_neg (different about rfl)]

end Reference

namespace SqliteBus

def cellWith (site : Site) (key : Bytes) (copy : Option (Entry Bytes Instant))
    (bus : SqliteBus) : Cell where
  copy := copy
  row := bus.row key
  usable := bus.usable site key
  poisoned := bus.poisoned

private theorem updateTable_cell (site : Site) {bus : SqliteBus} {key : Bytes} {file : Location}
    (attached : bus.Attached) (found : bus.databases[namespaceOf key]? = some file)
    (copy : Option (Entry Bytes Instant)) (change : Table → Table) :
    ∃ table, bus.disk[file]? = some table ∧
      (bus.updateTable file change).cellWith site key copy =
        { bus.cellWith site key copy with row := (change table)[key]? } := by
  rcases Option.isSome_iff_exists.mp (attached _ file found) with ⟨table, there⟩
  refine ⟨table, there, ?_⟩
  have stillFound : (bus.updateTable file change).databases[namespaceOf key]? = some file := by
    rw [updateTable_databases]
    exact found
  unfold cellWith usable
  rw [row_of_open stillFound, selectValue_eq, getElem?_updateTable, if_pos rfl, there,
    updateTable_databases, updateTable_poisoned]
  rfl

private theorem writeOpen_cell (site : Site) {bus : SqliteBus} (attached : bus.Attached)
    {key : Bytes} {file : Location} (found : bus.databases[namespaceOf key]? = some file)
    (value : Bytes) (copy : Option (Entry Bytes Instant)) :
    (bus.updateTable file (fun table => table.insert key value)).cellWith site key copy =
      { bus.cellWith site key copy with row := some value } := by
  rcases updateTable_cell site attached found copy (fun table => table.insert key value) with
    ⟨table, -, same⟩
  rw [same, ExtTreeMap.getElem?_insert_self]

private theorem eraseOpen_cell (site : Site) {bus : SqliteBus} (attached : bus.Attached)
    {key : Bytes} {file : Location} (found : bus.databases[namespaceOf key]? = some file)
    (copy : Option (Entry Bytes Instant)) :
    (bus.updateTable file (fun table => table.erase key)).cellWith site key copy =
      { bus.cellWith site key copy with row := none } := by
  rcases updateTable_cell site attached found copy (fun table => table.erase key) with
    ⟨table, -, same⟩
  rw [same, ExtTreeMap.getElem?_erase_self]

/-- A write finds the mutex poisoned, cannot open the database, or changes the row
in the database that is open then. -/
theorem writeValue_cases (site : Site) (bus : SqliteBus) (key value : Bytes) :
    (bus.poisoned = true ∧ writeValue site bus key value = (none, bus)) ∨
    (bus.poisoned = false ∧ bus.usable site key = false ∧
      writeValue site bus key value = (none, { bus with poisoned := true })) ∨
    (bus.poisoned = false ∧ bus.usable site key = true ∧ ∃ opened file,
      writeConnection site bus (namespaceOf key) = (some (), opened) ∧
      opened.poisoned = false ∧ opened.databases[namespaceOf key]? = some file ∧
      writeValue site bus key value =
        (some (), opened.updateTable file (fun table => table.insert key value))) := by
  unfold writeValue usable
  rcases writeConnection_cases site bus (namespaceOf key) with
    ⟨poisoned, same⟩ | ⟨notPoisoned, isOpen, same⟩ | ⟨notPoisoned, closed, opens, same⟩ |
      ⟨notPoisoned, closed, fails, same⟩
  · rw [same]
    exact Or.inl ⟨poisoned, rfl⟩
  · have present : (bus.databases[namespaceOf key]?).isSome = true := by
      rw [ExtTreeMap.isSome_getElem?_eq_contains]
      exact isOpen
    rcases Option.isSome_iff_exists.mp present with ⟨file, found⟩
    rw [same, isOpen]
    refine Or.inr (Or.inr ⟨notPoisoned, rfl, bus, file, rfl, notPoisoned, found, ?_⟩)
    simp only [locked, notPoisoned, found, Bool.false_eq_true, if_false]
  · have found : (bus.databases.insert (namespaceOf key)
        (site.databaseFile (namespaceOf key)))[namespaceOf key]? =
        some (site.databaseFile (namespaceOf key)) := ExtTreeMap.getElem?_insert_self
    rw [same, opens, Bool.or_true]
    refine Or.inr (Or.inr ⟨notPoisoned, rfl, _, _, rfl, notPoisoned, found, ?_⟩)
    simp only [locked, notPoisoned, found, Bool.false_eq_true, if_false]
  · rw [same, closed, fails]
    exact Or.inr (Or.inl ⟨notPoisoned, rfl, rfl⟩)

theorem usable_of_open (site : Site) {bus : SqliteBus} {key : Bytes} {file : Location}
    (found : bus.databases[namespaceOf key]? = some file) : bus.usable site key = true := by
  unfold usable
  rw [← ExtTreeMap.isSome_getElem?_eq_contains, found]
  rfl

private theorem writeValue_cell (site : Site) {bus : SqliteBus} (attached : bus.Attached)
    (key value : Bytes) (copy : Option (Entry Bytes Instant)) :
    (writeValue site bus key value).1 = ((bus.cellWith site key copy).writeRow value).1 ∧
      (writeValue site bus key value).2.cellWith site key copy =
        ((bus.cellWith site key copy).writeRow value).2 := by
  rcases writeValue_cases site bus key value with
    ⟨poisoned, same⟩ | ⟨notPoisoned, unusable, same⟩ |
      ⟨notPoisoned, usable, opened, file, connected, openedSound, found, same⟩
  · have stuck : (bus.cellWith site key copy).writeRow value =
        (none, bus.cellWith site key copy) := if_pos poisoned
    rw [same, stuck]
    exact ⟨rfl, rfl⟩
  · have failed : (bus.cellWith site key copy).writeRow value =
        (none, { bus.cellWith site key copy with poisoned := true }) := by
      unfold Cell.writeRow cellWith
      simp only [notPoisoned, unusable, Bool.false_eq_true, if_false]
    rw [same, failed]
    exact ⟨rfl, rfl⟩
  · have written : (bus.cellWith site key copy).writeRow value =
        (some (), { bus.cellWith site key copy with row := some value }) := by
      unfold Cell.writeRow cellWith
      simp only [notPoisoned, usable, Bool.false_eq_true, if_false, if_true]
    have openedAttached := writeConnection_attached site (namespaceOf key) attached
    rw [connected] at openedAttached
    rw [same, written]
    refine ⟨rfl, ?_⟩
    rw [writeOpen_cell site openedAttached found]
    unfold cellWith
    rw [openedSound, usable_of_open site found, notPoisoned, usable]

theorem step_cell (site : Site) {request : DataBusCall} {key : Bytes}
    (about : request.key? = some key) {bus : SqliteBus} (attached : bus.Attached)
    (copy : Option (Entry Bytes Instant)) :
    (step site request bus).1 = (Cell.persistentStep request (bus.cellWith site key copy)).1 ∧
      (step site request bus).2.cellWith site key copy =
        (Cell.persistentStep request (bus.cellWith site key copy)).2 := by
  have underLock : ∀ {α : Type} (body : SqliteBus → α × SqliteBus) (answer : α) (after : Cell),
      (body bus).1 = answer → (body bus).2.cellWith site key copy = after →
      (bus.locked body).1 = ((bus.cellWith site key copy).locked answer after).1 ∧
        (bus.locked body).2.cellWith site key copy =
          ((bus.cellWith site key copy).locked answer after).2 := by
    intro α body answer after sameAnswer sameAfter
    unfold locked Cell.locked
    have samePoison : (bus.cellWith site key copy).poisoned = bus.poisoned := rfl
    rw [samePoison]
    split
    · exact ⟨rfl, rfl⟩
    · exact ⟨congrArg some sameAnswer, sameAfter⟩
  have rowIs : (bus.cellWith site key copy).row = bus.row key := rfl
  cases request with
  | findByPrefix stem => cases about
  | readValue key =>
      cases about
      apply underLock
      · cases found : bus.databases[namespaceOf key]? with
        | none => exact (row_of_not_open found).symm
        | some file => exact (row_of_open found).symm
      · cases bus.databases[namespaceOf key]? <;> rfl
  | writeValue key value =>
      cases about
      exact writeValue_cell site attached key value copy
  | writeValueWithTtl key value duration =>
      cases about
      exact writeValue_cell site attached key value copy
  | deleteValue key =>
      cases about
      apply underLock
      · cases bus.databases[namespaceOf key]? <;> rfl
      · cases found : bus.databases[namespaceOf key]? with
        | none =>
            unfold cellWith
            rw [row_of_not_open found]
        | some file => exact eraseOpen_cell site attached found copy
  | deleteValueIfMatch key expected =>
      cases about
      unfold Cell.persistentStep
      rw [rowIs]
      cases found : bus.databases[namespaceOf key]? with
      | none =>
          simp only [row_of_not_open found, reduceCtorEq, if_false]
          apply underLock
          · simp only [found]
          · simp only [found]
      | some file =>
          simp only [row_of_open found]
          by_cases matched : bus.selectValue file key = some expected
          · rw [if_pos matched]
            apply underLock
            · simp only [found, if_pos matched]
            · simp only [found, if_pos matched]
              exact eraseOpen_cell site attached found copy
          · rw [if_neg matched]
            apply underLock
            · simp only [found, if_neg matched]
            · simp only [found, if_neg matched]
  | writeTtl key duration => exact ⟨rfl, rfl⟩
  | readTtlRemaining key => exact ⟨rfl, rfl⟩

end SqliteBus

/-! ### Both tiers -/

theorem cellProjection (site : Site) (key : Bytes) :
    Projection (bothTiers site) oneCell (fun call => call.request.key? = some key)
      (fun bus => bus.persistent.Attached) (PermutiveBus.cell site key) where
  keeps := by
    intro call now bus about attached
    rcases call with ⟨tier, request⟩
    cases tier with
    | transient => exact attached
    | persistent => exact SqliteBus.step_attached site request bus.persistent attached
  commutes := by
    intro call now bus about attached
    rcases call with ⟨tier, request⟩
    cases tier with
    | transient =>
        rcases Reference.step_cell about now bus.transient.contents
          (PermutiveBus.cell site key bus) rfl with ⟨sameReply, sameCell⟩
        change (some (Cell.transientStep request now (PermutiveBus.cell site key bus)).1,
          (Cell.transientStep request now (PermutiveBus.cell site key bus)).2) = _
        rw [← sameReply, ← sameCell, ← SoundTric.step_reply, ← SoundTric.step_contents]
        rfl
    | persistent =>
        rcases SqliteBus.step_cell site about attached bus.transient.contents[key]? with
          ⟨sameReply, sameCell⟩
        change Cell.persistentStep request (PermutiveBus.cell site key bus) = _
        exact Prod.ext sameReply.symm sameCell.symm

end TricPlus
