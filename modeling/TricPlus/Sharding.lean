import TricPlus.BusRefinement

/-!
The persistent tier against one flat map.

As long as the namespaces written to denote openable files, a file each, every row
lies in the one database its namespace has open, so that nothing a caller sees
tells the databases from one table.
-/

namespace TricPlus

open Std (ExtTreeMap LawfulEqCmp)
open PosixPath (Location)

namespace FlatMap

/-! ### One flat map -/

/-- A call on one table of all keys, which keeps no lifetimes. -/
def step (request : DataBusCall) (contents : Table) : request.Reply × Table :=
  match request with
  | .readValue key => (contents[key]?, contents)
  | .writeValue key value => ((), contents.insert key value)
  | .deleteValue key => ((), contents.erase key)
  | .deleteValueIfMatch key expected =>
      if contents[key]? = some expected then (true, contents.erase key) else (false, contents)
  | .writeTtl _ _ => ((), contents)
  | .writeValueWithTtl key value _ => ((), contents.insert key value)
  | .readTtlRemaining _ => (none, contents)
  | .findByPrefix stem =>
      (contents.toList.filter (fun row => stem.isPrefixOf row.1), contents)

def replay : List DataBusCall → Table →
    List ((request : DataBusCall) × Option request.Reply) × Table
  | [], contents => ([], contents)
  | request :: rest, contents =>
      let (reply, after) := step request contents
      let (replies, last) := replay rest after
      (⟨request, some reply⟩ :: replies, last)

theorem mem_scan {stem key value : Bytes} {contents : Table} :
    (key, value) ∈ contents.toList.filter (fun row => stem.isPrefixOf row.1) ↔
      contents[key]? = some value ∧ stem <+: key := by
  rw [List.mem_filter, ExtTreeMap.mem_toList_iff_getElem?_eq_some, List.isPrefixOf_iff_prefix]

theorem scan_ascending (stem : Bytes) (contents : Table) :
    OrderedScan.Ascending (contents.toList.filter (fun row => stem.isPrefixOf row.1)) :=
  (OrderedScan.toList_ascending contents).filter _

theorem step_other {request : DataBusCall} {key : Bytes} (other : request.key? ≠ some key)
    (contents : Table) : (step request contents).2[key]? = contents[key]? := by
  have different : ∀ about : Bytes, request.key? = some about → about ≠ key := by
    intro about asked same
    exact other (same ▸ asked)
  cases request with
  | readValue about => rfl
  | writeValue about value =>
      simp only [step, ExtTreeMap.getElem?_insert, LawfulEqCmp.compare_eq_iff_eq,
        if_neg (different about rfl)]
  | deleteValue about =>
      simp only [step, ExtTreeMap.getElem?_erase, LawfulEqCmp.compare_eq_iff_eq,
        if_neg (different about rfl)]
  | deleteValueIfMatch about expected =>
      simp only [step]
      split
      · simp only [ExtTreeMap.getElem?_erase, LawfulEqCmp.compare_eq_iff_eq,
          if_neg (different about rfl)]
      · rfl
  | writeTtl about duration => rfl
  | writeValueWithTtl about value duration =>
      simp only [step, ExtTreeMap.getElem?_insert, LawfulEqCmp.compare_eq_iff_eq,
        if_neg (different about rfl)]
  | readTtlRemaining about => rfl
  | findByPrefix stem => rfl

end FlatMap

namespace SqliteBus

/-- The keys written to have namespaces that denote openable files, a file each. -/
structure Sharded (site : Site) (keys : Set Bytes) : Prop where
  openable : ∀ key ∈ keys, site.opens (site.databasePath (namespaceOf key)) = true
  distinct : ∀ key ∈ keys, ∀ other ∈ keys,
    site.databaseFile (namespaceOf key) = site.databaseFile (namespaceOf other) →
      namespaceOf key = namespaceOf other

/-- A namespace that is not open yet opens a file no other one has open, and which
holds no rows. -/
def ClosedAreFresh (site : Site) (keys : Set Bytes) (bus : SqliteBus) : Prop :=
  ∀ key ∈ keys, bus.databases[namespaceOf key]? = none →
    bus.freshFile (site.databaseFile (namespaceOf key)) = true

/-- The rows of the open databases, as one map. -/
def contents (bus : SqliteBus) : Table :=
  ExtTreeMap.ofList (bus.listing []) compare

private theorem Layout.getElem?_contents {bus : SqliteBus} (layout : bus.Layout) (key : Bytes) :
    bus.contents[key]? = bus.row key := by
  unfold contents
  have distinct := (layout.listing_ascending []).imp
    (S := fun left right => ¬ compare left.1 right.1 = .eq)
    (fun below same => by rw [same] at below; cases below)
  cases row : bus.row key with
  | some value =>
      have listed := layout.mem_listing.mpr ⟨row, List.nil_prefix⟩
      exact ExtTreeMap.getElem?_ofList_of_mem Std.ReflCmp.compare_self distinct listed
  | none =>
      apply ExtTreeMap.getElem?_ofList_of_contains_eq_false
      rw [List.contains_eq_mem, decide_eq_false_iff_not]
      intro listed
      rcases List.mem_map.mp listed with ⟨⟨about, value⟩, member, same⟩
      cases same
      cases row.symm.trans (layout.mem_listing.mp member).1

theorem freshFile_iff {bus : SqliteBus} {file : Location} :
    bus.freshFile file = true ↔
      (∀ space : Bytes, bus.databases[space]? ≠ some file) ∧
        ∀ key : Bytes, bus.selectValue file key = none := by
  constructor
  · intro fresh
    exact ⟨freshFile_not_open fresh, freshFile_no_row fresh⟩
  · intro both
    rcases both with ⟨notOpen, noRow⟩
    unfold freshFile
    rw [Bool.and_eq_true, List.all_eq_true, decide_eq_true_eq]
    constructor
    · intro database member
      rw [decide_eq_true_eq]
      intro same
      have found := ExtTreeMap.mem_toList_iff_getElem?_eq_some.mp member
      exact notOpen database.1 (same ▸ found)
    · rw [List.eq_nil_iff_forall_not_mem]
      intro row member
      have found := ExtTreeMap.mem_toList_iff_getElem?_eq_some.mp member
      have none_there := noRow row.1
      rw [selectValue_eq] at none_there
      cases there : bus.disk[file]? with
      | none =>
          rw [there, Option.getD_none, ExtTreeMap.getElem?_empty] at found
          cases found
      | some table =>
          rw [there, Option.getD_some] at found
          rw [there, Option.bind_some, found] at none_there
          cases none_there

section Sharded

variable {site : Site} {keys : Set Bytes} {bus : SqliteBus} {request : DataBusCall}

theorem Sharded.ownFile (sharded : Sharded site keys) (fresh : ClosedAreFresh site keys bus)
    {key : Bytes} (member : key ∈ keys) : bus.ownFile site key = true := by
  unfold SqliteBus.ownFile
  rw [Bool.or_eq_true, Bool.and_eq_true]
  cases isOpen : bus.databases.contains (namespaceOf key) with
  | true => exact Or.inl rfl
  | false =>
      have closed : bus.databases[namespaceOf key]? = none :=
        ExtTreeMap.getElem?_eq_none_of_contains_eq_false isOpen
      exact Or.inr ⟨sharded.openable key member, fresh key member closed⟩

private theorem writeConnection_fresh (sharded : Sharded site keys)
    (fresh : ClosedAreFresh site keys bus) {about : Bytes} (member : about ∈ keys) :
    ClosedAreFresh site keys (writeConnection site bus (namespaceOf about)).2 := by
  intro key listed closed
  have noRow : ∀ other : Bytes, bus.databases[namespaceOf key]? = none →
      (writeConnection site bus (namespaceOf about)).2.selectValue
        (site.databaseFile (namespaceOf key)) other = none := by
    intro other closedBefore
    rw [selectValue_writeConnection]
    exact freshFile_no_row (fresh key listed closedBefore) other
  rw [freshFile_iff]
  rcases writeConnection_cases site bus (namespaceOf about) with
    ⟨-, same⟩ | ⟨-, -, same⟩ | ⟨-, -, -, same⟩ | ⟨-, -, -, same⟩
  · rw [same] at closed ⊢
    exact freshFile_iff.mp (fresh key listed closed)
  · rw [same] at closed ⊢
    exact freshFile_iff.mp (fresh key listed closed)
  · rw [same] at closed noRow ⊢
    simp only [ExtTreeMap.getElem?_insert, LawfulEqCmp.compare_eq_iff_eq] at closed
    split at closed
    · cases closed
    · rename_i different
      refine ⟨?_, fun other => noRow other closed⟩
      intro space found
      simp only [ExtTreeMap.getElem?_insert, LawfulEqCmp.compare_eq_iff_eq] at found
      split at found
      · have sameFile := Option.some_inj.mp found
        exact different (sharded.distinct about member key listed sameFile)
      · exact freshFile_not_open (fresh key listed closed) space found
  · rw [same] at closed ⊢
    exact freshFile_iff.mp (fresh key listed closed)

private theorem updateTable_fresh (fresh : ClosedAreFresh site keys bus) {space : Bytes}
    {file : Location} (found : bus.databases[space]? = some file) (change : Table → Table) :
    ClosedAreFresh site keys (bus.updateTable file change) := by
  intro key listed closed
  rw [updateTable_databases] at closed
  have freshBefore := fresh key listed closed
  have apart : file ≠ site.databaseFile (namespaceOf key) := by
    intro same
    exact freshFile_not_open freshBefore space (same ▸ found)
  rw [freshFile_iff] at freshBefore ⊢
  rw [updateTable_databases]
  refine ⟨freshBefore.1, fun other => ?_⟩
  rw [selectValue_eq, getElem?_updateTable, if_neg apart]
  exact freshBefore.2 other

theorem step_fresh (sharded : Sharded site keys) (fresh : ClosedAreFresh site keys bus)
    (inside : ∀ key, request.written? = some key → key ∈ keys) :
    ClosedAreFresh site keys (step site request bus).2 :=
  step_keeps site (ClosedAreFresh site keys) request fresh
    (fun key written => writeConnection_fresh sharded fresh (inside key written))
    (fun _ _ _ change _ found _ fresh => updateTable_fresh fresh found change)

private theorem writeConnection_row {about : Bytes} (own : bus.ownFile site about = true)
    (key : Bytes) :
    (writeConnection site bus (namespaceOf about)).2.row key = bus.row key := by
  have kept := selectValue_writeConnection site bus (namespaceOf about)
  rcases writeConnection_cases site bus (namespaceOf about) with
    ⟨-, same⟩ | ⟨-, -, same⟩ | ⟨-, closed, -, same⟩ | ⟨-, -, -, same⟩
  · rw [same]
  · rw [same]
  · have fresh : bus.freshFile (site.databaseFile (namespaceOf about)) = true := by
      unfold SqliteBus.ownFile at own
      rw [closed, Bool.false_or, Bool.and_eq_true] at own
      exact own.2
    rw [same] at kept ⊢
    by_cases mine : namespaceOf about = namespaceOf key
    · rw [mine] at closed
      rw [row_of_not_open (ExtTreeMap.getElem?_eq_none_of_contains_eq_false closed)]
      have opened : (bus.databases.insert (namespaceOf about)
          (site.databaseFile (namespaceOf about)))[namespaceOf key]? =
          some (site.databaseFile (namespaceOf about)) := by
        rw [mine]
        exact ExtTreeMap.getElem?_insert_self
      rw [row_of_open opened, kept]
      exact freshFile_no_row fresh key
    · have unchanged : (bus.databases.insert (namespaceOf about)
          (site.databaseFile (namespaceOf about)))[namespaceOf key]? =
          bus.databases[namespaceOf key]? := by
        simp only [ExtTreeMap.getElem?_insert, LawfulEqCmp.compare_eq_iff_eq, if_neg mine]
      cases isOpen : bus.databases[namespaceOf key]? with
      | none => rw [row_of_not_open isOpen, row_of_not_open (unchanged.trans isOpen)]
      | some file =>
          rw [row_of_open isOpen, row_of_open (unchanged.trans isOpen)]
          exact kept file key
  · rw [same]
    rfl

private theorem updateTable_row {about key : Bytes} {file : Location} {change : Table → Table}
    (changes : RowChange about change) (different : about ≠ key) :
    (bus.updateTable file change).row key = bus.row key := by
  unfold row
  rw [updateTable_databases]
  cases bus.databases[namespaceOf key]? with
  | none => rfl
  | some other => exact selectValue_updateTable changes different

private theorem step_row_kept
    (own : ∀ key, request.written? = some key → bus.ownFile site key = true)
    {key : Bytes} (other : request.key? ≠ some key) :
    (step site request bus).2.row key = bus.row key := by
  apply step_keeps site (fun after => after.row key = bus.row key) request rfl
  · intro about written
    exact writeConnection_row (own about written) key
  · intro middle about file change asked found changes kept
    have different : about ≠ key := by
      intro same
      exact other (same ▸ asked)
    rw [updateTable_row changes different, kept]

/-- A call on the keys of one namespace leaves every other namespace its database, with
all its rows. -/
theorem step_elsewhere (layout : bus.Layout)
    (own : ∀ key, request.written? = some key → bus.ownFile site key = true) {space : Bytes}
    (elsewhere : ∀ key, request.key? = some key → namespaceOf key ≠ space) :
    (step site request bus).2.databases[space]? = bus.databases[space]? ∧
      ∀ file : Location, bus.databases[space]? = some file →
        ∀ key : Bytes, (step site request bus).2.selectValue file key = bus.selectValue file key := by
  have kept := step_keeps site (fun after => after.Layout ∧
    after.databases[space]? = bus.databases[space]? ∧
      ∀ file : Location, bus.databases[space]? = some file →
        ∀ key : Bytes, after.selectValue file key = bus.selectValue file key)
    request ⟨layout, rfl, fun _ _ _ => rfl⟩ ?_ ?_
  · exact kept.2
  · intro about written
    refine ⟨writeConnection_layout (own about written) layout, ?_,
      fun file _ key => selectValue_writeConnection site bus (namespaceOf about) file key⟩
    have different := elsewhere about (DataBusCall.key?_of_written? written)
    rcases writeConnection_cases site bus (namespaceOf about) with
      ⟨-, same⟩ | ⟨-, -, same⟩ | ⟨-, -, -, same⟩ | ⟨-, -, -, same⟩
    · rw [same]
    · rw [same]
    · rw [same]
      simp only [ExtTreeMap.getElem?_insert, LawfulEqCmp.compare_eq_iff_eq, if_neg different]
    · rw [same]
  · intro middle about file change asked found changes kept
    rcases kept with ⟨layoutThere, sameDatabases, sameRows⟩
    refine ⟨updateTable_layout found changes layoutThere, ?_, ?_⟩
    · rw [updateTable_databases]
      exact sameDatabases
    · intro other isOpen key
      have apart : file ≠ other := by
        intro same
        rw [← sameDatabases, ← same] at isOpen
        exact elsewhere about asked (layoutThere.separate _ _ _ found isOpen)
      rw [selectValue_eq, getElem?_updateTable, if_neg apart]
      exact sameRows other isOpen key

end Sharded

/-! ### One step -/

structure Mirrors (site : Site) (keys : Set Bytes) (bus : SqliteBus) (contents : Table) :
    Prop where
  works : bus.poisoned = false
  attached : bus.Attached
  layout : bus.Layout
  fresh : ClosedAreFresh site keys bus
  rows : ∀ key : Bytes, bus.row key = contents[key]?

private theorem persistentStep_flat {request : DataBusCall} {key : Bytes}
    (about : request.key? = some key) {cell : Cell} {contents : Table}
    (works : cell.poisoned = false)
    (usable : ∀ key, request.written? = some key → cell.usable = true)
    (holds : cell.row = contents[key]?) :
    (Cell.persistentStep request cell).1 = some (FlatMap.step request contents).1 ∧
      (Cell.persistentStep request cell).2.row = (FlatMap.step request contents).2[key]? ∧
      (Cell.persistentStep request cell).2.poisoned = false := by
  have written : ∀ value, cell.usable = true →
      cell.writeRow value = (some (), { cell with row := some value }) := by
    intro value usable
    unfold Cell.writeRow
    simp only [works, usable, Bool.false_eq_true, if_false, if_true]
  have underLock : ∀ {α : Type} (answer : α) (after : Cell),
      cell.locked answer after = (some answer, after) := by
    intro α answer after
    unfold Cell.locked
    simp only [works, Bool.false_eq_true, if_false]
  unfold Cell.persistentStep FlatMap.step
  cases request with
  | findByPrefix stem => cases about
  | readValue key =>
      cases about
      simp only [underLock, holds, works, and_self]
  | writeValue key value =>
      cases about
      simp only [written value (usable key rfl), ExtTreeMap.getElem?_insert_self, works, and_self]
  | deleteValue key =>
      cases about
      simp only [underLock, ExtTreeMap.getElem?_erase_self, works, and_self]
  | deleteValueIfMatch key expected =>
      cases about
      simp only [underLock, holds]
      split
      · simp only [ExtTreeMap.getElem?_erase_self, works, and_self]
      · simp only [holds, works, and_self]
  | writeTtl key duration =>
      cases about
      exact ⟨rfl, holds, works⟩
  | writeValueWithTtl key value duration =>
      cases about
      simp only [written value (usable key rfl), ExtTreeMap.getElem?_insert_self, works, and_self]
  | readTtlRemaining key =>
      cases about
      exact ⟨rfl, holds, works⟩

section Mirrors

variable {site : Site} {keys : Set Bytes} {bus : SqliteBus} {contents : Table}
  {request : DataBusCall}

private theorem Mirrors.listing_eq (mirrors : Mirrors site keys bus contents) (stem : Bytes) :
    bus.listing stem = (FlatMap.step (.findByPrefix stem) contents).1 := by
  apply (mirrors.layout.listing_ascending stem).eq_of_mem_iff (FlatMap.scan_ascending stem contents)
  intro row
  rcases row with ⟨key, value⟩
  rw [mirrors.layout.mem_listing, FlatMap.mem_scan, mirrors.rows]

theorem Mirrors.step (sharded : Sharded site keys) (mirrors : Mirrors site keys bus contents)
    (inside : ∀ key, request.written? = some key → key ∈ keys) :
    (SqliteBus.step site request bus).1 = some (FlatMap.step request contents).1 ∧
      Mirrors site keys (SqliteBus.step site request bus).2 (FlatMap.step request contents).2 := by
  have own : ∀ key, request.written? = some key → bus.ownFile site key = true :=
    fun key written => sharded.ownFile mirrors.fresh (inside key written)
  have attached := step_attached site request bus mirrors.attached
  have layout := step_layout own mirrors.layout
  have fresh := step_fresh sharded mirrors.fresh inside
  have others : ∀ key : Bytes, request.key? ≠ some key →
      (SqliteBus.step site request bus).2.row key = (FlatMap.step request contents).2[key]? := by
    intro key other
    rw [step_row_kept own other, FlatMap.step_other other, mirrors.rows]
  cases asked : request.key? with
  | none =>
      cases request with
      | findByPrefix stem =>
          have scanned : SqliteBus.step site (.findByPrefix stem) bus =
              (some (bus.listing stem), bus) := by
            unfold SqliteBus.step findByPrefix locked
            simp only [mirrors.works, Bool.false_eq_true, if_false]
          rw [scanned, mirrors.listing_eq stem]
          exact ⟨rfl, mirrors⟩
      | readValue key => cases asked
      | writeValue key value => cases asked
      | deleteValue key => cases asked
      | deleteValueIfMatch key expected => cases asked
      | writeTtl key duration => cases asked
      | writeValueWithTtl key value duration => cases asked
      | readTtlRemaining key => cases asked
  | some about =>
      rcases step_cell site asked mirrors.attached none with ⟨sameReply, sameCell⟩
      have usable : ∀ key, request.written? = some key →
          (bus.cellWith site about none).usable = true := by
        intro key written
        cases asked.symm.trans (DataBusCall.key?_of_written? written)
        exact ownFile_usable (own about written)
      rcases persistentStep_flat asked mirrors.works usable (mirrors.rows about) with
        ⟨flatReply, flatRow, flatWorks⟩
      rw [← sameCell] at flatRow flatWorks
      refine ⟨sameReply.trans flatReply, flatWorks, attached, layout, fresh, fun key => ?_⟩
      by_cases same : about = key
      · rw [← same]
        exact flatRow
      · apply others key
        intro other
        exact same (Option.some_inj.mp (asked.symm.trans other))

theorem Mirrors.replay (sharded : Sharded site keys) (requests : List DataBusCall)
    (mirrors : Mirrors site keys bus contents)
    (inside : ∀ request ∈ requests, ∀ key, request.written? = some key → key ∈ keys) :
    (SqliteBus.replay site requests bus).1 = (FlatMap.replay requests contents).1 ∧
      Mirrors site keys (SqliteBus.replay site requests bus).2
        (FlatMap.replay requests contents).2 := by
  induction requests generalizing bus contents with
  | nil => exact ⟨rfl, mirrors⟩
  | cons request rest ih =>
      rcases mirrors.step sharded (inside request (List.mem_cons_self ..)) with
        ⟨sameReply, mirrorsAfter⟩
      rcases ih mirrorsAfter
        (fun other member => inside other (List.mem_cons_of_mem _ member)) with
        ⟨sameReplies, mirrorsLast⟩
      refine ⟨?_, mirrorsLast⟩
      simp only [SqliteBus.replay, FlatMap.replay, sameReply, sameReplies]

end Mirrors

/-- The files found at the start: an open one holds rows of its namespace only, and
one that a namespace would open later on holds none and is open under no other name. -/
structure Filed (site : Site) (keys : Set Bytes) (disk : Disk) : Prop where
  home : ∀ (space : Bytes) (file : Location) (key value : Bytes),
    (createSqliteBus site disk).databases[space]? = some file →
      (createSqliteBus site disk).selectValue file key = some value → namespaceOf key = space
  fresh : ClosedAreFresh site keys (createSqliteBus site disk)

theorem filed_empty (site : Site) (keys : Set Bytes) : Filed site keys ∅ where
  home := (wellFiled_empty site).home
  fresh := by
    intro key _ _
    rw [freshFile_iff, createSqliteBus_empty]
    constructor
    · intro space
      rw [ExtTreeMap.getElem?_empty]
      exact nofun
    · intro other
      rw [selectValue_eq, ExtTreeMap.getElem?_empty]
      rfl

private theorem Filed.mirrors {site : Site} {keys : Set Bytes} {disk : Disk}
    (filed : Filed site keys disk) :
    Mirrors site keys (createSqliteBus site disk) (createSqliteBus site disk).contents := by
  have layout : (createSqliteBus site disk).Layout :=
    ⟨fun _ _ _ => (createSqliteBus_named site disk).injective, filed.home⟩
  exact
    { works := rfl
      attached := createSqliteBus_attached site disk
      layout := layout
      fresh := filed.fresh
      rows := fun key => (layout.getElem?_contents key).symm }

/-- The databases of the bus, seen from outside, are the one map: each pair lies in
the database of its namespace and in no other, a scan lists every pair once and in
order, and a call about keys of one namespace leaves the databases of the others. -/
structure Transparent (site : Site) (keys : Set Bytes) (bus : SqliteBus) (contents : Table) :
    Prop where
  stored : ∀ key value : Bytes, contents[key]? = some value →
    ∃ file, bus.databases[namespaceOf key]? = some file ∧ bus.selectValue file key = some value
  nowhereElse : ∀ (space : Bytes) (file : Location) (key value : Bytes),
    bus.databases[space]? = some file → bus.selectValue file key = some value →
      contents[key]? = some value ∧ space = namespaceOf key
  separate : ∀ (space other : Bytes) (file : Location), bus.databases[space]? = some file →
    bus.databases[other]? = some file → space = other
  ascending : ∀ stem, OrderedScan.Ascending (bus.listing stem)
  listed : ∀ stem key value : Bytes,
    (key, value) ∈ bus.listing stem ↔ contents[key]? = some value ∧ stem <+: key
  apart : ∀ (request : DataBusCall) (space : Bytes),
    (∀ key, request.written? = some key → key ∈ keys) →
    (∀ key, request.key? = some key → namespaceOf key ≠ space) →
      (step site request bus).2.databases[space]? = bus.databases[space]? ∧
        ∀ file : Location, bus.databases[space]? = some file → ∀ key : Bytes,
          (step site request bus).2.selectValue file key = bus.selectValue file key

private theorem Mirrors.transparent {site : Site} {keys : Set Bytes} {bus : SqliteBus}
    {contents : Table} (sharded : Sharded site keys)
    (mirrors : Mirrors site keys bus contents) : Transparent site keys bus contents where
  stored := by
    intro key value held
    rw [← mirrors.rows] at held
    cases isOpen : bus.databases[namespaceOf key]? with
    | none =>
        rw [row_of_not_open isOpen] at held
        cases held
    | some file =>
        rw [row_of_open isOpen] at held
        exact ⟨file, rfl, held⟩
  nowhereElse := by
    intro space file key value isOpen row
    have own := mirrors.layout.home space file key value isOpen row
    rw [← own] at isOpen ⊢
    rw [← mirrors.rows, row_of_open isOpen]
    exact ⟨row, rfl⟩
  separate := mirrors.layout.separate
  ascending := mirrors.layout.listing_ascending
  listed := by
    intro stem key value
    rw [mirrors.layout.mem_listing, mirrors.rows]
  apart := by
    intro request space inside elsewhere
    exact step_elsewhere mirrors.layout
      (fun key written => sharded.ownFile mirrors.fresh (inside key written)) elsewhere

/-- Whatever is called on a new bus, the replies are those of one flat map, and the
databases hold together what the map holds. -/
theorem sharding_is_transparent (site : Site) (disk : Disk) (keys : Set Bytes)
    (requests : List DataBusCall) (sharded : Sharded site keys) (filed : Filed site keys disk)
    (inside : ∀ request ∈ requests, ∀ key, request.written? = some key → key ∈ keys) :
    let created := createSqliteBus site disk
    let ended := SqliteBus.replay site requests created
    let flat := FlatMap.replay requests created.contents
    ended.1 = flat.1 ∧ Transparent site keys ended.2 flat.2 := by
  intro created ended flat
  rcases filed.mirrors.replay sharded requests inside with ⟨sameReplies, mirrors⟩
  exact ⟨sameReplies, mirrors.transparent sharded⟩

def sampleKeys : List Bytes :=
  [asBytes "users:1", asBytes "usher", asBytes "orders:7", [0xFF, 0x3A, 0x01]]

def sampleRequests : List DataBusCall :=
  sampleKeys.map (fun key => .writeValue key (asBytes "a")) ++
    [.findByPrefix (asBytes "us"), .deleteValueIfMatch (asBytes "users:1") (asBytes "a"),
      .readValue [0xFF, 0x3A, 0x01], .findByPrefix []]

theorem sampled_keys_are_one_map :
    let created := createSqliteBus sampleSite ∅
    let ended := SqliteBus.replay sampleSite sampleRequests created
    let flat := FlatMap.replay sampleRequests created.contents
    ended.1 = flat.1 ∧ Transparent sampleSite {key | key ∈ sampleKeys} ended.2 flat.2 :=
  sharding_is_transparent sampleSite ∅ {key | key ∈ sampleKeys} sampleRequests
    { openable := by
        change ∀ key ∈ sampleKeys, _
        decide +kernel
      distinct := by
        change ∀ key ∈ sampleKeys, ∀ other ∈ sampleKeys, _
        decide +kernel }
    (filed_empty sampleSite _)
    (by
      have written : ∀ request ∈ sampleRequests, ∀ key ∈ request.written?, key ∈ sampleKeys := by
        decide +kernel
      exact written)

end SqliteBus

end TricPlus
