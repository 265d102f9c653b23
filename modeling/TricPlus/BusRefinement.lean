import TricPlus.CellRefinement
import TricPlus.CheckedDeadlines
import TricPlus.Containment

/-!
The two-tier bus against one map.

As long as every namespace is written to a file of its own, the rows of a key lie
in one open database, and a scan lists each of them once.  If moreover the clock can
represent every deadline, a sequence of calls returns what it returns on one map.
-/

namespace TricPlus

open Std (ExtTreeMap LawfulEqCmp)
open AtomicProgram
open ExpiringMap (Entry remains)
open PosixPath (Location)

namespace SqliteBus

/-! ### Which file a row lies in -/

/-- No two namespaces have one file open, and a file holds rows of its namespace
only. -/
structure Layout (bus : SqliteBus) : Prop where
  separate : ∀ (space other : Bytes) (file : Location), bus.databases[space]? = some file →
    bus.databases[other]? = some file → space = other
  home : ∀ (space : Bytes) (file : Location) (key value : Bytes),
    bus.databases[space]? = some file → bus.selectValue file key = some value →
      namespaceOf key = space

/-- No namespace has the file open, and it holds no row. -/
def freshFile (bus : SqliteBus) (file : Location) : Bool :=
  bus.databases.toList.all (fun database => decide (database.2 ≠ file)) &&
    decide ((bus.disk[file]?.getD ∅).toList = [])

/-- The namespace of the key is open, or the file it opens can be opened and is its
own. -/
def ownFile (site : Site) (bus : SqliteBus) (key : Bytes) : Bool :=
  bus.databases.contains (namespaceOf key) ||
    (site.opens (site.databasePath (namespaceOf key)) &&
      bus.freshFile (site.databaseFile (namespaceOf key)))

theorem freshFile_not_open {bus : SqliteBus} {file : Location}
    (fresh : bus.freshFile file = true) (space : Bytes) : bus.databases[space]? ≠ some file := by
  intro found
  unfold freshFile at fresh
  rw [Bool.and_eq_true, List.all_eq_true] at fresh
  have apart := fresh.1 _ (ExtTreeMap.mem_toList_iff_getElem?_eq_some.mpr found)
  simp only [ne_eq, not_true_eq_false, decide_false, Bool.false_eq_true] at apart

theorem freshFile_no_row {bus : SqliteBus} {file : Location}
    (fresh : bus.freshFile file = true) (key : Bytes) : bus.selectValue file key = none := by
  unfold freshFile at fresh
  rw [Bool.and_eq_true, decide_eq_true_eq] at fresh
  rw [selectValue_eq]
  cases found : bus.disk[file]? with
  | none => rfl
  | some table =>
      have noRows := fresh.2
      rw [found, Option.getD_some] at noRows
      cases row : table[key]? with
      | none => exact row
      | some value =>
          have member := ExtTreeMap.mem_toList_iff_getElem?_eq_some.mpr row
          rw [noRows] at member
          cases member

theorem ownFile_usable {site : Site} {bus : SqliteBus} {key : Bytes}
    (own : bus.ownFile site key = true) : bus.usable site key = true := by
  unfold ownFile at own
  unfold usable
  rw [Bool.or_eq_true, Bool.and_eq_true] at own
  rcases own with isOpen | ⟨opens, -⟩
  · rw [isOpen, Bool.true_or]
  · rw [opens, Bool.or_true]

theorem writeConnection_layout {site : Site} {bus : SqliteBus} {key : Bytes}
    (own : bus.ownFile site key = true) (layout : bus.Layout) :
    (writeConnection site bus (namespaceOf key)).2.Layout := by
  rcases writeConnection_cases site bus (namespaceOf key) with
    ⟨-, same⟩ | ⟨-, -, same⟩ | ⟨-, closed, -, same⟩ | ⟨-, -, -, same⟩
  · rw [same]
    exact layout
  · rw [same]
    exact layout
  · have fresh : bus.freshFile (site.databaseFile (namespaceOf key)) = true := by
      unfold ownFile at own
      rw [closed, Bool.false_or, Bool.and_eq_true] at own
      exact own.2
    rw [same]
    constructor
    · intro space other file found alsoFound
      simp only [ExtTreeMap.getElem?_insert, LawfulEqCmp.compare_eq_iff_eq] at found alsoFound
      split at found
      · rename_i mine
        cases found
        split at alsoFound
        · rename_i alsoMine
          exact mine.symm.trans alsoMine
        · exact absurd alsoFound (freshFile_not_open fresh other)
      · split at alsoFound
        · cases alsoFound
          exact absurd found (freshFile_not_open fresh space)
        · exact layout.separate space other file found alsoFound
    · intro space file about value found row
      have kept := selectValue_writeConnection site bus (namespaceOf key) file about
      rw [same] at kept
      rw [kept] at row
      simp only [ExtTreeMap.getElem?_insert, LawfulEqCmp.compare_eq_iff_eq] at found
      split at found
      · cases found
        rw [freshFile_no_row fresh about] at row
        cases row
      · exact layout.home space file about value found row
  · rw [same]
    exact ⟨layout.separate, layout.home⟩

theorem updateTable_layout {bus : SqliteBus} {key : Bytes} {file : Location}
    {change : Table → Table} (found : bus.databases[namespaceOf key]? = some file)
    (changes : RowChange key change) (layout : bus.Layout) :
    (bus.updateTable file change).Layout := by
  constructor
  · rw [updateTable_databases]
    exact layout.separate
  · intro space other about value openOther row
    rw [updateTable_databases] at openOther
    by_cases mine : key = about
    · subst mine
      rw [selectValue_eq, getElem?_updateTable] at row
      split at row
      · rename_i same
        subst same
        exact layout.separate _ _ _ found openOther
      · exact layout.home space other key value openOther row
    · rw [selectValue_updateTable changes mine] at row
      exact layout.home space other about value openOther row

theorem step_layout {site : Site} {request : DataBusCall} {bus : SqliteBus}
    (own : ∀ key, request.written? = some key → bus.ownFile site key = true)
    (layout : bus.Layout) : (step site request bus).2.Layout :=
  step_keeps site Layout request layout
    (fun key written => writeConnection_layout (own key written) layout)
    (fun _ _ _ _ _ found changes layout => updateTable_layout found changes layout)

theorem mem_matchingRows {bus : SqliteBus} {stem : Bytes} {file : Location} {key value : Bytes} :
    (key, value) ∈ bus.matchingRows stem file ↔
      bus.selectValue file key = some value ∧ stem <+: key := by
  unfold matchingRows
  rw [selectValue_eq]
  cases bus.disk[file]? with
  | none =>
      constructor
      · intro member
        cases member
      · intro both
        cases both.1
  | some table =>
      rw [List.mem_filter, ExtTreeMap.mem_toList_iff_getElem?_eq_some, List.isPrefixOf_iff_prefix]
      exact Iff.rfl

theorem mem_listing {bus : SqliteBus} {stem key value : Bytes} :
    (key, value) ∈ bus.listing stem ↔
      (∃ (space : Bytes) (file : Location), bus.databases[space]? = some file ∧
        bus.selectValue file key = some value) ∧ stem <+: key := by
  unfold listing
  rw [OrderedScan.mem_sortByKey, List.mem_flatMap]
  constructor
  · intro found
    rcases found with ⟨⟨space, file⟩, member, row⟩
    rw [mem_matchingRows] at row
    exact ⟨⟨space, file, ExtTreeMap.mem_toList_iff_getElem?_eq_some.mp member, row.1⟩, row.2⟩
  · intro found
    rcases found with ⟨⟨space, file, isOpen, row⟩, starts⟩
    exact ⟨(space, file), ExtTreeMap.mem_toList_iff_getElem?_eq_some.mpr isOpen,
      mem_matchingRows.mpr ⟨row, starts⟩⟩

theorem Layout.mem_listing {bus : SqliteBus} (layout : bus.Layout) {stem key value : Bytes} :
    (key, value) ∈ bus.listing stem ↔ bus.row key = some value ∧ stem <+: key := by
  rw [SqliteBus.mem_listing]
  constructor
  · intro found
    rcases found with ⟨⟨space, file, isOpen, row⟩, starts⟩
    refine ⟨?_, starts⟩
    rw [row_of_open (layout.home space file key value isOpen row ▸ isOpen), row]
  · intro found
    rcases found with ⟨row, starts⟩
    cases isOpen : bus.databases[namespaceOf key]? with
    | none =>
        rw [row_of_not_open isOpen] at row
        cases row
    | some file =>
        rw [row_of_open isOpen] at row
        exact ⟨⟨_, file, isOpen, row⟩, starts⟩

private theorem matchingRows_ascending (bus : SqliteBus) (stem : Bytes) (file : Location) :
    OrderedScan.Ascending (bus.matchingRows stem file) := by
  unfold matchingRows
  cases bus.disk[file]? with
  | none => exact List.Pairwise.nil
  | some table => exact (OrderedScan.toList_ascending table).filter _

theorem listing_ascending_of_once {bus : SqliteBus} {stem : Bytes}
    (once : ∀ left ∈ bus.databases.toList, ∀ right ∈ bus.databases.toList, ∀ key,
      key ∈ (bus.matchingRows stem left.2).map Prod.fst →
        key ∈ (bus.matchingRows stem right.2).map Prod.fst → left.1 = right.1) :
    OrderedScan.Ascending (bus.listing stem) := by
  apply OrderedScan.sortByKey_ascending
  rw [List.map_flatMap, List.nodup_flatMap]
  constructor
  · intro database member
    exact (bus.matchingRows_ascending stem database.2).keys_nodup
  · have openOnce := OrderedScan.toList_ascending bus.databases
    apply openOnce.imp_of_mem
    intro left right leftMember rightMember below key inLeft inRight
    rw [once left leftMember right rightMember key inLeft inRight] at below
    exact OrderedScan.compare_lt_irrefl _ below

theorem Layout.listing_ascending {bus : SqliteBus} (layout : bus.Layout) (stem : Bytes) :
    OrderedScan.Ascending (bus.listing stem) := by
  apply listing_ascending_of_once
  intro left leftMember right rightMember key inLeft inRight
  have spaceOf : ∀ database ∈ bus.databases.toList,
      key ∈ (bus.matchingRows stem database.2).map Prod.fst → namespaceOf key = database.1 := by
    intro database member listed
    rcases List.mem_map.mp listed with ⟨⟨about, value⟩, row, same⟩
    cases same
    exact layout.home _ _ _ value (ExtTreeMap.mem_toList_iff_getElem?_eq_some.mp member)
      (mem_matchingRows.mp row).1
  rw [← spaceOf left leftMember inLeft, ← spaceOf right rightMember inRight]

end SqliteBus

/-! ### Scanning both tiers -/

theorem mem_mergeResults {transientResults persistentResults : List (Bytes × Bytes)}
    {key value : Bytes} :
    (key, value) ∈ mergeResults transientResults persistentResults ↔
      (key, value) ∈ transientResults ∨
        ((key, value) ∈ persistentResults ∧ key ∉ transientResults.map Prod.fst) := by
  unfold mergeResults
  rw [OrderedScan.mem_sortByKey, List.mem_append, List.mem_filter, Bool.not_eq_true',
    List.contains_eq_mem, decide_eq_false_iff_not]

private theorem mergeResults_ascending {transientResults persistentResults : List (Bytes × Bytes)}
    (transientAscending : OrderedScan.Ascending transientResults)
    (persistentAscending : OrderedScan.Ascending persistentResults) :
    OrderedScan.Ascending (mergeResults transientResults persistentResults) := by
  apply OrderedScan.sortByKey_ascending
  rw [List.map_append, List.nodup_append]
  refine ⟨transientAscending.keys_nodup, (persistentAscending.filter _).keys_nodup, ?_⟩
  intro key inTransient other inPersistent same
  rcases List.mem_map.mp inPersistent with ⟨pair, member, rfl⟩
  have apart := (List.mem_filter.mp member).2
  rw [Bool.not_eq_true', List.contains_eq_mem, decide_eq_false_iff_not] at apart
  exact apart (same ▸ inTransient)

theorem mem_transient_scan {bus : PermutiveBus} {now : Instant} {stem key value : Bytes} :
    (key, value) ∈ (SoundTric.step (.findByPrefix stem) now bus.transient).1 ↔
      (remains now bus.transient.contents[key]?).map Entry.value = some value ∧ stem <+: key := by
  rw [SoundTric.step_reply]
  change (key, value) ∈ Reference.scan stem (ExpiringMap.purge now bus.transient.contents) ↔ _
  rw [Reference.mem_scan, Reference.value?_purge]

theorem mem_merged_iff (site : Site) {bus : PermutiveBus} {stem : Bytes}
    (rows : ∀ key value, (key, value) ∈ bus.persistent.listing stem ↔
      bus.persistent.row key = some value ∧ stem <+: key)
    {now : Instant} {key value : Bytes} :
    (key, value) ∈ mergeResults (SoundTric.step (.findByPrefix stem) now bus.transient).1
        (bus.persistent.listing stem) ↔
      (bus.cell site key).value now = some value ∧ stem <+: key := by
  rw [mem_mergeResults, rows, mem_transient_scan]
  by_cases starts : stem <+: key
  · have inTransient : key ∈
        ((SoundTric.step (.findByPrefix stem) now bus.transient).1).map Prod.fst ↔
          ∃ value, (remains now bus.transient.contents[key]?).map Entry.value = some value := by
      rw [List.mem_map]
      constructor
      · intro listed
        rcases listed with ⟨⟨about, held⟩, member, same⟩
        cases same
        exact ⟨held, (mem_transient_scan.mp member).1⟩
      · intro held
        rcases held with ⟨held, current⟩
        exact ⟨(key, held), mem_transient_scan.mpr ⟨current, starts⟩, rfl⟩
    have copyIs : (bus.cell site key).copy = bus.transient.contents[key]? := rfl
    have rowIs : (bus.cell site key).row = bus.persistent.row key := rfl
    unfold Cell.value
    rw [inTransient, copyIs, rowIs]
    simp only [starts, and_true]
    cases remains now bus.transient.contents[key]? with
    | none =>
        simp only [Option.map_none, reduceCtorEq, false_or, exists_false, not_false_eq_true,
          and_true]
    | some entry =>
        simp only [Option.map_some, Option.some_inj, exists_eq', not_true_eq_false, and_false,
          or_false]
  · simp only [starts, and_false, false_and, or_self]

private theorem mem_scan_iff (site : Site) {bus : PermutiveBus} (layout : bus.persistent.Layout)
    {now : Instant} {stem key value : Bytes} :
    (key, value) ∈ mergeResults (SoundTric.step (.findByPrefix stem) now bus.transient).1
        (bus.persistent.listing stem) ↔
      (bus.cell site key).value now = some value ∧ stem <+: key :=
  mem_merged_iff site (fun _ _ => layout.mem_listing)

theorem scan_ascending {bus : PermutiveBus} (layout : bus.persistent.Layout) (now : Instant)
    (stem : Bytes) :
    OrderedScan.Ascending (mergeResults
      (SoundTric.step (.findByPrefix stem) now bus.transient).1
      (bus.persistent.listing stem)) := by
  apply mergeResults_ascending _ (layout.listing_ascending stem)
  rw [SoundTric.step_reply]
  exact Reference.scan_ascending stem _

theorem scan_eq_reference {site : Site} {clock : Nat → Instant} {contents : Reference}
    {ticks : Nat} {bus : PermutiveBus} (tracked : Tracked site clock contents ticks bus)
    (layout : bus.persistent.Layout) (stem : Bytes) :
    mergeResults (SoundTric.step (.findByPrefix stem) (clock ticks) bus.transient).1
        (bus.persistent.listing stem) =
      (Reference.step (.findByPrefix stem) (clock ticks) contents).1 := by
  apply Reference.scan_eq (scan_ascending layout (clock ticks) stem)
  intro key value
  rw [mem_scan_iff site layout, (tracked.matched key).value_eq, Reference.value?_purge]

/-- The condition on a call: what it stores without a lifetime goes to a file of its
own. -/
def writesOwnFile (site : Site) (bus : PermutiveBus) : DataBusCall → Bool
  | .writeValue key _ => bus.persistent.ownFile site key
  | _ => true

def StoresNothing (call : TierCall) : Prop :=
  call.tier = .persistent → call.request.written? = none

theorem call_uses_storesNothing {request : DataBusCall}
    (notWrite : ∀ key value, request ≠ .writeValue key value) :
    (PermutiveBus.call request).Uses StoresNothing := by
  have transient : ∀ request, StoresNothing ⟨.transient, request⟩ := by
    intro request isPersistent
    cases isPersistent
  have persistent : ∀ request, request.written? = none → StoresNothing ⟨.persistent, request⟩ :=
    fun request nothing _ => nothing
  cases request with
  | writeValue key value => exact absurd rfl (notWrite key value)
  | findByPrefix stem =>
      exact ⟨transient _, fun _ => ⟨persistent _ rfl, fun _ => trivial⟩⟩
  | readValue key =>
      refine ⟨transient _, fun reply => ?_⟩
      cases reply with
      | some value => trivial
      | none =>
          refine ⟨persistent _ rfl, fun reply => ?_⟩
          cases reply with
          | none => trivial
          | some value => exact ⟨transient _, fun _ => ⟨transient _, fun _ => trivial⟩⟩
  | deleteValue key => exact ⟨transient _, fun _ => ⟨persistent _ rfl, fun _ => trivial⟩⟩
  | deleteValueIfMatch key expected =>
      exact ⟨transient _, fun _ => ⟨persistent _ rfl, fun _ => trivial⟩⟩
  | writeTtl key duration =>
      refine ⟨persistent _ rfl, fun reply => ?_⟩
      cases reply with
      | none => exact ⟨transient _, fun _ => trivial⟩
      | some value =>
          exact ⟨persistent _ rfl, fun _ => ⟨transient _, fun _ => ⟨transient _, fun _ => trivial⟩⟩⟩
  | writeValueWithTtl key value duration =>
      exact ⟨persistent _ rfl, fun _ => ⟨transient _, fun _ => trivial⟩⟩
  | readTtlRemaining key => exact ⟨transient _, fun _ => trivial⟩

private theorem run_writeValue_persistent (site : Site) (clock : Nat → Instant) (key value : Bytes)
    (ticks : Nat) (bus : PermutiveBus) :
    (run (bothTiers site) clock (PermutiveBus.writeValue key value) ticks bus).state.persistent =
      (SqliteBus.step site (.writeValue key value) bus.persistent).2 := by
  unfold PermutiveBus.writeValue onPersistent
  rw [Program.perform_bind, run]
  simp only [bothTiers]
  rcases SqliteBus.step site (.writeValue key value) bus.persistent with ⟨reply, after⟩
  cases reply with
  | none => rfl
  | some reply => rfl

theorem run_layout {site : Site} (clock : Nat → Instant) {request : DataBusCall} (ticks : Nat)
    {bus : PermutiveBus} (own : writesOwnFile site bus request = true)
    (layout : bus.persistent.Layout) :
    (run (bothTiers site) clock (PermutiveBus.call request) ticks bus).state.persistent.Layout := by
  by_cases isWrite : ∃ key value, request = .writeValue key value
  · rcases isWrite with ⟨key, value, rfl⟩
    have after := run_writeValue_persistent site clock key value ticks bus
    change (run _ _ (PermutiveBus.writeValue key value) ticks bus).state.persistent.Layout
    rw [after]
    apply SqliteBus.step_layout _ layout
    intro about written
    cases written
    exact own
  · apply run_uses_invariant (bothTiers site) clock (fun _ bus => bus.persistent.Layout) _
      (call_uses_storesNothing (fun key value same => isWrite ⟨key, value, same⟩)) layout
    intro call ticks bus storesNothing layout
    rcases call with ⟨tier, request⟩
    cases tier with
    | transient => exact layout
    | persistent =>
        apply SqliteBus.step_layout _ layout
        intro key written
        rw [storesNothing rfl] at written
        cases written

/-! ### Whole runs -/

/-- Every call of the sequence, in the state the earlier ones lead to, writes to a
file of its own. -/
def allWriteOwnFile (site : Site) (clock : Nat → Instant) :
    List DataBusCall → Nat → PermutiveBus → Bool
  | [], _, _ => true
  | request :: rest, ticks, bus =>
      let outcome := run (bothTiers site) clock (PermutiveBus.call request) ticks bus
      writesOwnFile site bus request &&
        allWriteOwnFile site clock rest outcome.ticks outcome.state

/-- Every call of the sequence sets a deadline that the clock can represent, if it sets one. -/
def allDeadlinesFit (site : Site) (clock : Nat → Instant) :
    List DataBusCall → Nat → PermutiveBus → Bool
  | [], _, _ => true
  | request :: rest, ticks, bus =>
      let outcome := run (bothTiers site) clock (PermutiveBus.call request) ticks bus
      deadlineFits site clock ticks bus request &&
        allDeadlinesFit site clock rest outcome.ticks outcome.state

/-- Every call of the sequence returns, with the reply of one map. -/
def Refines (site : Site) (clock : Nat → Instant) :
    List DataBusCall → Nat → PermutiveBus → Reference → Prop
  | [], _, _, _ => True
  | request :: rest, ticks, bus, contents =>
      let outcome := run (checkedTiers site) clock (PermutiveBus.call request) ticks bus
      let specified :=
        Reference.step request (clock (effectTick request ticks outcome.ticks)) contents
      (∃ reply ∈ outcome.result, Compared request → reply = specified.1) ∧
        Refines site clock rest outcome.ticks outcome.state specified.2

instance decidableRefines (site : Site) (clock : Nat → Instant) :
    (requests : List DataBusCall) → (ticks : Nat) → (bus : PermutiveBus) →
      (contents : Reference) → Decidable (Refines site clock requests ticks bus contents)
  | [], _, _, _ => isTrue trivial
  | _ :: rest, _, _, _ =>
      @instDecidableAnd _ _ (Option.decidableExistsMem _)
        (decidableRefines site clock rest _ _ _)

private theorem tracked_refines {site : Site} {clock : Nat → Instant} (monotone : Monotone clock)
    (requests : List DataBusCall) {ticks : Nat} {bus : PermutiveBus} {contents : Reference}
    (tracked : Tracked site clock contents ticks bus) (layout : bus.persistent.Layout)
    (own : allWriteOwnFile site clock requests ticks bus = true)
    (fit : allDeadlinesFit site clock requests ticks bus = true) :
    Refines site clock requests ticks bus contents := by
  induction requests generalizing ticks bus contents with
  | nil => trivial
  | cons request rest ih =>
      unfold allWriteOwnFile at own
      unfold allDeadlinesFit at fit
      rw [Bool.and_eq_true] at own fit
      have usable : ∀ key value, request = .writeValue key value →
          bus.persistent.usable site key = true := by
        intro key value same
        subst same
        exact SqliteBus.ownFile_usable own.1
      have layoutAfter := run_layout clock ticks own.1 layout
      rcases tracked.call monotone usable with ⟨reply, later, after, ran, -, same, trackedAfter⟩
      have ownAfter := own.2
      have fitAfter := fit.2
      unfold Refines
      rw [run_checked monotone fit.1]
      rw [ran] at layoutAfter ownAfter fitAfter ⊢
      refine ⟨⟨reply, rfl, fun compared => ?_⟩, ih trackedAfter layoutAfter ownAfter fitAfter⟩
      by_cases keyed : request.key? = none
      · cases request with
        | findByPrefix stem =>
            have scanned := run_findByPrefix site clock ticks tracked.sound stem
            have replyIs : some reply = some _ :=
              (congrArg Outcome.result ran).symm.trans (congrArg Outcome.result scanned)
            rw [Option.some_inj.mp replyIs]
            exact scan_eq_reference tracked layout stem
        | readValue key => cases keyed
        | writeValue key value => cases keyed
        | deleteValue key => cases keyed
        | deleteValueIfMatch key expected => cases keyed
        | writeTtl key duration => cases keyed
        | writeValueWithTtl key value duration => cases keyed
        | readTtlRemaining key => cases keyed
      · exact same compared keyed

/-- How the keys of the registry start. -/
def registryStem : Bytes := asBytes "_instance:"

/-- The files of a slot as the server leaves them: every row lies in the file its
namespace has open, and none belongs to the registry. -/
structure WellFiled (site : Site) (disk : Disk) : Prop where
  home : ∀ (space : Bytes) (file : Location) (key value : Bytes),
    (createSqliteBus site disk).databases[space]? = some file →
      (createSqliteBus site disk).selectValue file key = some value → namespaceOf key = space
  nothingHidden : (createSqliteBus site disk).NothingHidden site
  noRegistry : ∀ key, registryStem <+: key → (createSqliteBus site disk).row key = none

theorem WellFiled.layout {site : Site} {disk : Disk} (filed : WellFiled site disk) :
    (createSqliteBus site disk).Layout where
  separate := fun _ _ _ => (createSqliteBus_named site disk).injective
  home := filed.home

private theorem run_writeRegistry (site : Site) (clock : Nat → Instant) (slots : List Nat)
    (ticks : Nat)
    (bus : PermutiveBus) :
    ∃ transient,
      run (bothTiers site) clock (writeRegistry site slots) ticks bus =
        ⟨some (), ticks + slots.length, { bus with transient := transient }⟩ ∧
      ∀ key, ¬ registryStem <+: key → bus.transient.contents[key]? = none →
        transient.contents[key]? = none := by
  induction slots generalizing ticks bus with
  | nil => exact ⟨bus.transient, rfl, fun _ _ absent => absent⟩
  | cons slot slots ih =>
      let write := DataBusCall.writeValue (registryKey site slot) (registryValue site slot)
      rcases ih (ticks + 1)
        { bus with transient := (SoundTric.step write (clock ticks) bus.transient).2 } with
        ⟨transient, ran, others⟩
      refine ⟨transient, ?_, ?_⟩
      · rw [List.length_cons, Nat.add_comm slots.length, ← Nat.add_assoc, ← ran]
        rfl
      · intro key notRegistry absent
        apply others key notRegistry
        have other : write.key? ≠ some key := by
          intro same
          cases same
          exact notRegistry (List.prefix_append _ _)
        change (SoundTric.step write (clock ticks) bus.transient).2.contents[key]? = none
        rw [SoundTric.step_contents, Reference.step_other other, absent]
        rfl

/-- What a new bus holds: the rows, which have no lifetime, and the registry. -/
def PermutiveBus.contents (bus : PermutiveBus) : Reference :=
  ExpiringMap.storeAll (bus.persistent.listing []) bus.transient.contents

theorem createPermutiveBus_state (site : Site) (disk : Disk) (clock : Nat → Instant)
    (ticks : Nat) :
    (createPermutiveBus site disk clock ticks).state.persistent = createSqliteBus site disk ∧
      ∀ key, ¬ registryStem <+: key →
        (createPermutiveBus site disk clock ticks).state.transient.contents[key]? = none := by
  rcases run_writeRegistry site clock (findInstanceSlots site) ticks
    { transient := .create
      persistent := createSqliteBus site disk } with ⟨transient, ran, others⟩
  unfold createPermutiveBus
  rw [ran]
  refine ⟨rfl, fun key notRegistry => others key notRegistry ?_⟩
  simp only [SoundTric.create_contents]
  exact ExtTreeMap.getElem?_empty

theorem tracked_created (site : Site) (disk : Disk) (clock : Nat → Instant) (ticks : Nat)
    (filed : WellFiled site disk) :
    Tracked site clock (createPermutiveBus site disk clock ticks).state.contents
      (createPermutiveBus site disk clock ticks).ticks
      (createPermutiveBus site disk clock ticks).state := by
  rcases createPermutiveBus_state site disk clock ticks with ⟨persistent, others⟩
  have layout := filed.layout
  have keysDistinct := (layout.listing_ascending []).keys_nodup
  rw [← persistent] at layout keysDistinct
  refine ⟨by rw [persistent]; rfl, ?_, fun key => ?_⟩
  · rw [persistent]
    exact ⟨createSqliteBus_attached site disk, filed.nothingHidden⟩
  · have notRegistry : ∀ value,
        (createPermutiveBus site disk clock ticks).state.persistent.row key = some value →
          ¬ registryStem <+: key := by
      intro value row starts
      rw [persistent, filed.noRegistry key starts] at row
      cases row
    constructor
    · intro value row
      exact ExpiringMap.getElem?_storeAll_of_mem keysDistinct
        (layout.mem_listing.mpr ⟨row, List.nil_prefix⟩) _
    · intro value copy row found
      have absent := others key (notRegistry value row)
      cases found.symm.trans absent
    · intro noRow
      have notListed : key ∉ ((createPermutiveBus site disk clock ticks).state.persistent.listing
          []).map Prod.fst := by
        intro listed
        rcases List.mem_map.mp listed with ⟨⟨about, value⟩, member, same⟩
        cases same
        cases (layout.mem_listing.mp member).1.symm.trans noRow
      exact congrArg (remains (clock _))
        (ExpiringMap.getElem?_storeAll_of_not_mem notListed _).symm

/-! ### One map -/

/-- As long as every write without a lifetime goes to a file of its own and every deadline can
be represented, the calls on a new bus return what they return on one map. -/
theorem calls_refine_one_map (site : Site) (disk : Disk) (clock : Nat → Instant) (ticks : Nat)
    (requests : List DataBusCall) (monotone : Monotone clock) (filed : WellFiled site disk)
    (ownFiles : allWriteOwnFile site clock requests
      (createPermutiveBus site disk clock ticks).ticks
      (createPermutiveBus site disk clock ticks).state = true)
    (deadlines : allDeadlinesFit site clock requests
      (createPermutiveBus site disk clock ticks).ticks
      (createPermutiveBus site disk clock ticks).state = true) :
    Refines site clock requests (createPermutiveBus site disk clock ticks).ticks
      (createPermutiveBus site disk clock ticks).state
      (createPermutiveBus site disk clock ticks).state.contents := by
  apply tracked_refines monotone requests (tracked_created site disk clock ticks filed) _ ownFiles
    deadlines
  rw [(createPermutiveBus_state site disk clock ticks).1]
  exact filed.layout

theorem createSqliteBus_empty (site : Site) :
    createSqliteBus site ∅ = ⟨∅, false, ∅⟩ := by
  have noFiles : (∅ : Disk).toList = [] := rfl
  unfold createSqliteBus Disk.entries
  rw [noFiles]
  rfl

def emptyBus : PermutiveBus where
  transient := .create
  persistent := ⟨∅, false, ∅⟩

private theorem created_emptyBus :
    createPermutiveBus openSite ∅ stillClock 0 = ⟨some (), 0, emptyBus⟩ := by
  have slots : findInstanceSlots openSite = [] := rfl
  unfold createPermutiveBus
  rw [slots, createSqliteBus_empty]
  rfl

theorem emptyBus_reachable : Reachable openSite stillClock ∅ 0 emptyBus := by
  have created := @Reachable.created openSite stillClock ∅ 0
  rw [created_emptyBus] at created
  exact created

theorem emptyBus_attached : emptyBus.persistent.Attached :=
  emptyBus_reachable.attached

theorem emptyBus_cell (site : Site) (key : Bytes) :
    (emptyBus.cell site key).copy = none ∧ (emptyBus.cell site key).row = none ∧
      (emptyBus.cell site key).poisoned = false := by
  refine ⟨?_, ?_, rfl⟩
  · change SoundTric.create.contents[key]? = none
    rw [SoundTric.create_contents, ExtTreeMap.getElem?_empty]
  · exact SqliteBus.row_of_not_open ExtTreeMap.getElem?_empty

theorem wellFiled_empty (site : Site) : WellFiled site ∅ := by
  have noRow : ∀ (file : Location) (key : Bytes),
      (createSqliteBus site ∅).selectValue file key = none := by
    intro file key
    rw [createSqliteBus_empty, SqliteBus.selectValue_eq, ExtTreeMap.getElem?_empty]
    rfl
  have closed : ∀ space : Bytes, (createSqliteBus site ∅).databases[space]? = none := by
    intro space
    rw [createSqliteBus_empty, ExtTreeMap.getElem?_empty]
  constructor
  · intro space file key value found
    rw [closed space] at found
    cases found
  · intro key _
    exact noRow _ key
  · intro key _
    exact SqliteBus.row_of_not_open (closed _)

/-- A value written, read, given a lifetime and listed. -/
theorem lifetime_of_one_key_refines :
    let created := createPermutiveBus sampleSite ∅ stillClock 1
    Refines sampleSite stillClock
      [.writeValue (asBytes "users:1") (asBytes "a"), .readValue (asBytes "users:1"),
        .writeTtl (asBytes "users:1") 5, .findByPrefix (asBytes "users")]
      created.ticks created.state created.state.contents :=
  calls_refine_one_map sampleSite ∅ stillClock 1
    [.writeValue (asBytes "users:1") (asBytes "a"), .readValue (asBytes "users:1"),
      .writeTtl (asBytes "users:1") 5, .findByPrefix (asBytes "users")]
    stillClock_monotone (wellFiled_empty sampleSite) (by decide +kernel) (by decide +kernel)

/-- A lifetime of as many seconds as a number of 64 bits holds. -/
example : (run (checkedTiers sampleSite) stillClock
    (PermutiveBus.call (.writeTtl (asBytes "users:1") (fromSecs (2 ^ 64 - 1)))) 0 emptyBus).result =
      none := by
  decide +kernel

/-- The database of `users` is opened once more as `./users`; a scan lists its rows
twice. -/
theorem aliased_database_is_listed_twice :
    let created := createPermutiveBus sampleSite ∅ stillClock 0
    ¬ Refines sampleSite stillClock
      [.writeValue (asBytes "users:1") (asBytes "a"),
        .writeValue (asBytes "./users:2") (asBytes "b"), .findByPrefix (asBytes "users")]
      created.ticks created.state created.state.contents := by
  decide +kernel

end TricPlus
