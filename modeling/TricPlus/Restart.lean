import TricPlus.BusRefinement

/-!
What a restart keeps.

The scan of the directory opens a file under its stem.  It finds the file of a
namespace exactly when the namespace is neither empty nor has a slash, so the
rows of such a key are there again, and those of any other key are not.
-/

namespace TricPlus

open Std (ExtTreeMap LawfulEqCmp)
open AtomicProgram
open ExpiringMap (Entry remains)
open PosixPath (Name Location slash dot)

/-! ### What the scan finds -/

def Site.fileAt (site : Site) (stem : Name) : Location :=
  site.locate site.directory ++ [stem ++ dbSuffix]

structure Scanned (site : Site) (disk : Disk) (stem : Name) : Prop where
  nonempty : stem ≠ []
  there : (disk[site.fileAt stem]?).isSome = true
  opens : site.opens (PosixPath.join site.directory (stem ++ dbSuffix)) = true

/-- Every stem the scan comes across is a text without a slash, as a file name is on
this system unless it is no UTF-8. -/
def StemsTell (site : Site) (disk : Disk) : Prop :=
  ∀ stem, Scanned site disk stem → Utf8.wellFormed stem = true ∧ slash ∉ stem

theorem fileAt_injective (site : Site) {stem other : Name}
    (same : site.fileAt stem = site.fileAt other) : stem = other :=
  List.append_cancel_right (List.singleton_inj.mp (List.append_cancel_left same))

private theorem openEntry_stem (site : Site) (databases : ExtTreeMap Bytes Location) {stem : Name}
    (nonempty : stem ≠ [])
    (opens : site.opens (PosixPath.join site.directory (stem ++ dbSuffix)) = true) :
    openEntry site databases (stem ++ dbSuffix) =
      databases.insert (stemNamespace stem) (site.fileAt stem) := by
  have plain : dot ∉ asBytes "db" := by
    decide +kernel
  have some_extension : asBytes "db" ≠ [] := by
    decide +kernel
  rcases PosixPath.extension_append nonempty plain some_extension with ⟨extension, stemIs⟩
  rw [← dbSuffix_eq] at extension stemIs
  unfold openEntry
  simp only [extension, if_true, opens, stemIs]
  rfl

theorem Scanned.listed {site : Site} {disk : Disk} {stem : Name}
    (scanned : Scanned site disk stem) :
    stem ++ dbSuffix ∈ disk.entries (site.locate site.directory) :=
  mem_entries.mpr scanned.there

theorem createSqliteBus_databases {site : Site} {disk : Disk} (tell : StemsTell site disk)
    {space : Bytes} {file : Location} :
    (createSqliteBus site disk).databases[space]? = some file ↔
      Scanned site disk space ∧ file = site.fileAt space := by
  have stemIs : ∀ stem, Scanned site disk stem → stemNamespace stem = stem :=
    fun stem scanned => if_pos (tell stem scanned).1
  constructor
  · suffices folded : ∀ names : List Name,
        (∀ name ∈ names, name ∈ disk.entries (site.locate site.directory)) →
        ∀ databases : ExtTreeMap Bytes Location,
        (∀ (space : Bytes) (file : Location), databases[space]? = some file →
          Scanned site disk space ∧ file = site.fileAt space) →
        (names.foldl (openEntry site) databases)[space]? = some file →
          Scanned site disk space ∧ file = site.fileAt space by
      apply folded _ (fun _ member => member) ∅
      intro space file found
      rw [ExtTreeMap.getElem?_empty] at found
      cases found
    intro names
    induction names with
    | nil =>
        intro members databases start found
        exact start space file found
    | cons name names ih =>
        intro members databases start
        apply ih (fun other member => members other (List.mem_cons_of_mem _ member))
        rcases openEntry_cases site databases name with same | ⟨stem, nonempty, named, opens, opened⟩
        · rw [same]
          exact start
        · have scanned : Scanned site disk stem :=
            ⟨nonempty, mem_entries.mp (named ▸ members name (List.mem_cons_self ..)),
              named ▸ opens⟩
          intro space file found
          rw [opened, stemIs stem scanned, ExtTreeMap.getElem?_insert] at found
          split at found
          · rename_i same
            cases found
            rw [← LawfulEqCmp.eq_of_compare same, named]
            exact ⟨scanned, rfl⟩
          · exact start space file found
  · intro both
    rcases both with ⟨scanned, rfl⟩
    suffices folded : ∀ names : List Name,
        (∀ name ∈ names, name ∈ disk.entries (site.locate site.directory)) →
        ∀ databases : ExtTreeMap Bytes Location,
        (space ++ dbSuffix ∈ names ∨ databases[space]? = some (site.fileAt space)) →
        (names.foldl (openEntry site) databases)[space]? = some (site.fileAt space) from
      folded _ (fun _ member => member) ∅ (Or.inl scanned.listed)
    intro names
    induction names with
    | nil =>
        intro members databases start
        rcases start with listed | found
        · cases listed
        · exact found
    | cons name names ih =>
        intro members databases start
        apply ih (fun other member => members other (List.mem_cons_of_mem _ member))
        by_cases here : name = space ++ dbSuffix
        · right
          rw [here, openEntry_stem site databases scanned.nonempty scanned.opens,
            stemIs space scanned, ExtTreeMap.getElem?_insert_self]
        · rcases start with listed | found
          · exact Or.inl ((List.mem_cons.mp listed).resolve_left (Ne.symm here))
          · right
            rcases openEntry_cases site databases name with
              same | ⟨stem, nonempty, named, opens, opened⟩
            · rw [same]
              exact found
            · have other : Scanned site disk stem :=
                ⟨nonempty, mem_entries.mp (named ▸ members name (List.mem_cons_self ..)),
                  named ▸ opens⟩
              rw [opened, stemIs stem other, ExtTreeMap.getElem?_insert, if_neg]
              · exact found
              · intro same
                apply here
                rw [named, LawfulEqCmp.eq_of_compare same]

/-- The files are such that the next scan can tell them apart, and the ones it opens
hold no row but those seen now. -/
structure Restartable (site : Site) (bus : SqliteBus) : Prop where
  tell : StemsTell site bus.disk
  atHome : ∀ (stem key value : Bytes), Scanned site bus.disk stem →
    bus.selectValue (site.fileAt stem) key = some value →
      bus.databases[namespaceOf key]? = some (site.fileAt stem)
  opened : ∀ (key : Bytes) (file : Location), bus.databases[namespaceOf key]? = some file →
    file = site.databaseFile (namespaceOf key) ∧
      site.opens (site.databasePath (namespaceOf key)) = true

namespace Restartable

variable {site : Site} {bus : SqliteBus}

theorem writeConnection_tell (key : Bytes) (tell : StemsTell site bus.disk) :
    StemsTell site (SqliteBus.writeConnection site bus (namespaceOf key)).2.disk := by
  intro stem scanned
  by_cases mine : site.databaseFile (namespaceOf key) = site.fileAt stem
  · rcases databaseFile_last site key with ⟨parent, back, file, wellFormed, plain, -⟩
    rw [mine] at file
    have names := List.append_inj_right' file rfl
    rw [List.append_cancel_right (List.singleton_inj.mp names)]
    exact ⟨wellFormed, plain⟩
  · apply tell stem ⟨scanned.nonempty, ?_, scanned.opens⟩
    have there := scanned.there
    rcases SqliteBus.writeConnection_cases site bus (namespaceOf key) with
      ⟨-, same⟩ | ⟨-, -, same⟩ | ⟨-, -, -, same⟩ | ⟨-, -, -, same⟩
    · rw [same] at there
      exact there
    · rw [same] at there
      exact there
    · rw [same] at there
      simp only at there
      split at there
      · exact there
      · rw [ExtTreeMap.getElem?_insert,
          if_neg (fun equal => mine (LawfulEqCmp.eq_of_compare equal))] at there
        exact there
    · rw [same] at there
      exact there

private theorem row_there {stem key value : Bytes}
    (row : bus.selectValue (site.fileAt stem) key = some value) :
    (bus.disk[site.fileAt stem]?).isSome = true := by
  rw [SqliteBus.selectValue_eq] at row
  cases found : bus.disk[site.fileAt stem]? with
  | none =>
      rw [found] at row
      cases row
  | some table => rfl

theorem writeConnection_restartable (key : Bytes) (restartable : Restartable site bus) :
    Restartable site (SqliteBus.writeConnection site bus (namespaceOf key)).2 := by
  have atHome : ∀ (stem about value : Bytes),
      Scanned site (SqliteBus.writeConnection site bus (namespaceOf key)).2.disk stem →
      (SqliteBus.writeConnection site bus (namespaceOf key)).2.selectValue (site.fileAt stem)
        about = some value → bus.databases[namespaceOf about]? = some (site.fileAt stem) := by
    intro stem about value scanned row
    rw [SqliteBus.selectValue_writeConnection] at row
    exact restartable.atHome stem about value
      ⟨scanned.nonempty, row_there row, scanned.opens⟩ row
  have tell := writeConnection_tell key restartable.tell
  rcases SqliteBus.writeConnection_cases site bus (namespaceOf key) with
    ⟨-, same⟩ | ⟨-, -, same⟩ | ⟨-, closed, opens, same⟩ | ⟨-, -, -, same⟩
  · rw [same]
    exact restartable
  · rw [same]
    exact restartable
  · rw [same] at atHome tell ⊢
    refine ⟨tell, ?_, ?_⟩
    · intro stem about value scanned row
      have found := atHome stem about value scanned row
      simp only [ExtTreeMap.getElem?_insert, LawfulEqCmp.compare_eq_iff_eq]
      rw [if_neg]
      · exact found
      · intro mine
        rw [← mine, ExtTreeMap.getElem?_eq_none_of_contains_eq_false closed] at found
        cases found
    · intro about file found
      simp only [ExtTreeMap.getElem?_insert, LawfulEqCmp.compare_eq_iff_eq] at found
      split at found
      · rename_i mine
        cases found
        rw [← mine]
        exact ⟨rfl, opens⟩
      · exact restartable.opened about file found
  · rw [same] at atHome tell ⊢
    exact ⟨tell, atHome, restartable.opened⟩

theorem updateTable_restartable {key : Bytes} {file : Location} {change : Table → Table}
    (found : bus.databases[namespaceOf key]? = some file)
    (changes : SqliteBus.RowChange key change) (restartable : Restartable site bus) :
    Restartable site (bus.updateTable file change) := by
  have stillScanned : ∀ stem, Scanned site (bus.updateTable file change).disk stem →
      Scanned site bus.disk stem := by
    intro stem scanned
    refine ⟨scanned.nonempty, ?_, scanned.opens⟩
    have there := scanned.there
    rw [SqliteBus.getElem?_updateTable] at there
    split at there
    · rename_i same
      rw [Option.isSome_map, same] at there
      exact there
    · exact there
  refine ⟨fun stem scanned => restartable.tell stem (stillScanned stem scanned), ?_, ?_⟩
  · intro stem about value scanned row
    rw [SqliteBus.updateTable_databases]
    by_cases mine : key = about
    · subst mine
      by_cases here : file = site.fileAt stem
      · rw [← here]
        exact found
      · rw [SqliteBus.selectValue_eq, SqliteBus.getElem?_updateTable, if_neg here] at row
        exact restartable.atHome stem key value (stillScanned stem scanned) row
    · rw [SqliteBus.selectValue_updateTable changes mine] at row
      exact restartable.atHome stem about value (stillScanned stem scanned) row
  · intro about other foundOther
    rw [SqliteBus.updateTable_databases] at foundOther
    exact restartable.opened about other foundOther

theorem step_restartable (request : DataBusCall) (restartable : Restartable site bus) :
    Restartable site (SqliteBus.step site request bus).2 :=
  SqliteBus.step_keeps site (Restartable site) request restartable
    (fun key _ => restartable.writeConnection_restartable key)
    (fun _ _ _ _ _ found changes restartable =>
      restartable.updateTable_restartable found changes)

private theorem run_restartable {α : Type} (clock : Nat → Instant) (program : Program tiers α)
    (ticks : Nat) {bus : PermutiveBus} (restartable : Restartable site bus.persistent) :
    Restartable site (run (bothTiers site) clock program ticks bus).state.persistent := by
  apply run_invariant (bothTiers site) clock (fun bus => Restartable site bus.persistent) _
    program ticks bus restartable
  intro call now bus restartable
  rcases call with ⟨tier, request⟩
  cases tier with
  | transient => exact restartable
  | persistent => exact restartable.step_restartable request

theorem created {disk : Disk} (filed : WellFiled site disk) (tell : StemsTell site disk) :
    Restartable site (createSqliteBus site disk) where
  tell := tell
  atHome := by
    intro stem key value scanned row
    have isOpen := (createSqliteBus_databases tell).mpr ⟨scanned, rfl⟩
    rw [filed.home stem _ key value isOpen row]
    exact isOpen
  opened := by
    intro key file found
    rcases (createSqliteBus_databases tell).mp found with ⟨scanned, same⟩
    refine ⟨?_, scanned.opens⟩
    rw [databaseFile_of_plain site (tell _ scanned).2]
    exact same

/-! ### The rows of a restarted bus -/

private theorem row_of_scanned (restartable : Restartable site bus) {space : Bytes}
    {file : Location}
    (isOpen : (createSqliteBus site bus.disk).databases[space]? = some file)
    {key value : Bytes} (row : bus.selectValue file key = some value) :
    bus.row key = some value := by
  rcases (createSqliteBus_databases restartable.tell).mp isOpen with ⟨scanned, same⟩
  subst same
  rw [SqliteBus.row_of_open (restartable.atHome space key value scanned row), row]

theorem row_kept (restartable : Restartable site bus) {key : Bytes}
    (nonempty : namespaceOf key ≠ []) (plain : slash ∉ namespaceOf key) :
    (createSqliteBus site bus.disk).row key = bus.row key := by
  cases row : bus.row key with
  | none =>
      cases again : (createSqliteBus site bus.disk).row key with
      | none => rfl
      | some value =>
          cases isOpen : (createSqliteBus site bus.disk).databases[namespaceOf key]? with
          | none =>
              rw [SqliteBus.row_of_not_open isOpen] at again
              cases again
          | some file =>
              rw [SqliteBus.row_of_open isOpen] at again
              rw [restartable.row_of_scanned isOpen again] at row
              cases row
  | some value =>
      cases isOpen : bus.databases[namespaceOf key]? with
      | none =>
          rw [SqliteBus.row_of_not_open isOpen] at row
          cases row
      | some file =>
          rw [SqliteBus.row_of_open isOpen] at row
          rcases restartable.opened key file isOpen with ⟨same, opens⟩
          rw [databaseFile_of_plain site plain] at same
          change file = site.fileAt (namespaceOf key) at same
          subst same
          have scanned : Scanned site bus.disk (namespaceOf key) :=
            ⟨nonempty, row_there row, opens⟩
          have again := (createSqliteBus_databases restartable.tell).mpr ⟨scanned, rfl⟩
          rw [SqliteBus.row_of_open again]
          exact row

theorem row_lost (restartable : Restartable site bus) {key : Bytes}
    (unplain : ¬ (namespaceOf key ≠ [] ∧ slash ∉ namespaceOf key)) :
    (createSqliteBus site bus.disk).row key = none := by
  apply SqliteBus.row_of_not_open
  cases isOpen : (createSqliteBus site bus.disk).databases[namespaceOf key]? with
  | none => rfl
  | some file =>
      have scanned := ((createSqliteBus_databases restartable.tell).mp isOpen).1
      exact absurd ⟨scanned.nonempty, (restartable.tell _ scanned).2⟩ unplain

end Restartable

def Reference.lasting (contents : Reference) (key : Bytes) : Option Bytes :=
  contents[key]?.bind (fun entry => if entry.deadline = none then some entry.value else none)

theorem Reference.lasting_eq_some {contents : Reference} {key value : Bytes} :
    contents.lasting key = some value ↔ contents[key]? = some ⟨value, none⟩ := by
  unfold Reference.lasting
  cases contents[key]? with
  | none =>
      constructor
      · intro found
        cases found
      · intro found
        cases found
  | some entry =>
      rcases entry with ⟨held, deadline⟩
      cases deadline with
      | none => simp only [Option.bind_some, if_true, Option.some_inj, ExpiringMap.Entry.mk.injEq,
          and_true]
      | some deadline => simp only [Option.bind_some, reduceCtorEq, if_false, Option.some_inj,
          ExpiringMap.Entry.mk.injEq, and_false]

/-- A read gives the value, and every scan over a prefix of the key lists the key with
this value and with no other. -/
def Shows (site : Site) (clock : Nat → Instant) (ticks : Nat) (bus : PermutiveBus) (key : Bytes)
    (value : Option Bytes) : Prop :=
  (run (bothTiers site) clock (PermutiveBus.readValue key) ticks bus).result = some value ∧
    ∀ stem, stem <+: key → ∀ listed,
      (∃ pairs, (run (bothTiers site) clock (PermutiveBus.findByPrefix stem) ticks bus).result =
        some pairs ∧ (key, listed) ∈ pairs) ↔ value = some listed

section NewBus

variable {site : Site} {clock : Nat → Instant} {ticks : Nat} {bus : PermutiveBus} {key : Bytes}

private theorem read_row (attached : bus.persistent.Attached)
    (sound : bus.persistent.poisoned = false)
    (noCopy : bus.transient.contents[key]? = none) :
    (run (bothTiers site) clock (PermutiveBus.readValue key) ticks bus).result =
      some (bus.persistent.row key) := by
  have missed : remains (clock ticks) (bus.cell site key).copy = none :=
    congrArg (remains (clock ticks)) noCopy
  have about : (DataBusCall.readValue key).key? = some key := rfl
  have onCell := congrArg Outcome.result (run_cell site clock about ticks attached)
  refine onCell.symm.trans ?_
  change (run oneCell clock (PermutiveBus.readValue key) ticks (bus.cell site key)).result =
    some (bus.cell site key).row
  cases row : (bus.cell site key).row with
  | none => rw [run_readValue_miss clock sound key missed row]
  | some value => rw [run_readValue_promote clock sound key missed row]

private theorem listed_row (sound : bus.persistent.poisoned = false)
    (noCopy : bus.transient.contents[key]? = none) {stem value : Bytes} :
    (∃ pairs, (run (bothTiers site) clock (PermutiveBus.findByPrefix stem) ticks bus).result =
        some pairs ∧ (key, value) ∈ pairs) ↔
      (key, value) ∈ bus.persistent.listing stem := by
  have notListed : ∀ held,
      (key, held) ∉ (SoundTric.step (.findByPrefix stem) (clock ticks) bus.transient).1 := by
    intro held member
    rw [mem_transient_scan, noCopy] at member
    cases member.1
  rw [run_findByPrefix site clock ticks sound stem]
  constructor
  · intro found
    rcases found with ⟨pairs, same, member⟩
    cases same
    rcases mem_mergeResults.mp member with inTransient | inPersistent
    · exact absurd inTransient (notListed value)
    · exact inPersistent.1
  · intro member
    refine ⟨_, rfl, mem_mergeResults.mpr (Or.inr ⟨member, ?_⟩)⟩
    intro inTransient
    rcases List.mem_map.mp inTransient with ⟨⟨about, held⟩, found, same⟩
    cases same
    exact notListed held found

end NewBus

private theorem Restartable.shows_iff {site : Site} {bus : SqliteBus}
    (restartable : Restartable site bus)
    (clock : Nat → Instant) (ticks : Nat) {key : Bytes} (notRegistry : ¬ registryStem <+: key) :
    Shows site clock (createPermutiveBus site bus.disk clock ticks).ticks
        (createPermutiveBus site bus.disk clock ticks).state key (bus.row key) ↔
      (createSqliteBus site bus.disk).row key = bus.row key := by
  rcases createPermutiveBus_state site bus.disk clock ticks with ⟨persistent, others⟩
  have noCopy := others key notRegistry
  have sound : (createPermutiveBus site bus.disk clock ticks).state.persistent.poisoned = false := by
    rw [persistent]
    rfl
  have attached : (createPermutiveBus site bus.disk clock ticks).state.persistent.Attached := by
    rw [persistent]
    exact createSqliteBus_attached site bus.disk
  unfold Shows
  rw [read_row attached sound noCopy, persistent, Option.some_inj]
  constructor
  · exact And.left
  · intro same
    refine ⟨same, fun stem starts listed => ?_⟩
    rw [listed_row sound noCopy, persistent, SqliteBus.mem_listing]
    constructor
    · intro found
      rcases found with ⟨⟨space, file, isOpen, row⟩, -⟩
      exact restartable.row_of_scanned isOpen row
    · intro row
      rw [← same] at row
      cases isOpen : (createSqliteBus site bus.disk).databases[namespaceOf key]? with
      | none =>
          rw [SqliteBus.row_of_not_open isOpen] at row
          cases row
      | some file =>
          rw [SqliteBus.row_of_open isOpen] at row
          exact ⟨⟨_, file, isOpen, row⟩, starts⟩

/-! ### Restarting -/

/-- After a run without a panic and a restart, a key shows its lasting value exactly when
it had none, or its namespace is neither empty nor has a slash. -/
theorem restart_keeps_key_iff (site : Site) (disk : Disk) (clock newClock : Nat → Instant)
    (ticks newTicks later : Nat) (requests : List DataBusCall) (last : PermutiveBus)
    (replies : List ((request : DataBusCall) × request.Reply)) (key : Bytes)
    (monotone : Monotone clock) (filed : WellFiled site disk) (tell : StemsTell site disk)
    (notRegistry : ¬ registryStem <+: key)
    (returned : replay site clock requests (createPermutiveBus site disk clock ticks).ticks
      (createPermutiveBus site disk clock ticks).state = some (replies, later, last)) :
    let created := createPermutiveBus site disk clock ticks
    let before := (Reference.replay (effects site clock requests created.ticks created.state)
      created.state.contents).2
    let restarted := createPermutiveBus site last.persistent.disk newClock newTicks
    Shows site newClock restarted.ticks restarted.state key (before.lasting key) ↔
      (before.lasting key = none ∨ (namespaceOf key ≠ [] ∧ slash ∉ namespaceOf key)) := by
  intro created before restarted
  rcases createPermutiveBus_state site disk clock ticks with ⟨persistent, others⟩
  have atEnd : (Tracked site clock before later last ∧ (last.cell site key).Timed) ∧
      Restartable site last.persistent := by
    apply replay_invariant (fun contents ticks bus =>
      (Tracked site clock contents ticks bus ∧ (bus.cell site key).Timed) ∧
        Restartable site bus.persistent) _ returned
    · refine ⟨⟨tracked_created site disk clock ticks filed, ?_⟩, ?_⟩
      · intro held found
        cases found.symm.trans (others key notRegistry)
      · rw [persistent]
        exact Restartable.created filed tell
    · intro request reply contents ticks bus returned start
      rcases start with ⟨⟨tracked, timed⟩, restartable⟩
      have timedAfter := tracked.timed_after returned timed
      have restartableAfter := restartable.run_restartable clock (PermutiveBus.call request) ticks
      rcases tracked.call monotone (tracked.usable_of_returned returned) with
        ⟨reply, later, after, ran, -, -, trackedAfter⟩
      rw [ran] at timedAfter restartableAfter ⊢
      exact ⟨⟨trackedAfter, timedAfter⟩, restartableAfter⟩
  rcases atEnd with ⟨⟨tracked, timed⟩, restartable⟩
  have lastingIs : before.lasting key = last.persistent.row key := by
    apply Option.ext
    intro value
    rw [Reference.lasting_eq_some, tracked.row_iff timed]
  have shown := restartable.shows_iff newClock newTicks notRegistry
  rw [lastingIs]
  apply shown.trans
  by_cases plain : namespaceOf key ≠ [] ∧ slash ∉ namespaceOf key
  · constructor
    · exact fun _ => Or.inr plain
    · exact fun _ => restartable.row_kept plain.1 plain.2
  · rw [restartable.row_lost plain]
    constructor
    · exact fun none_kept => Or.inl none_kept.symm
    · intro condition
      exact (condition.resolve_right plain).symm

theorem stemsTell_empty (site : Site) : StemsTell site ∅ := by
  intro stem scanned
  have there := scanned.there
  rw [ExtTreeMap.getElem?_empty] at there
  cases there

/-- A value written to `users:1` is there after the restart. -/
theorem written_key_is_kept :
    let created := createPermutiveBus sampleSite ∅ stillClock 0
    let requests := [DataBusCall.writeValue (asBytes "users:1") (asBytes "a")]
    let before := (Reference.replay
      (effects sampleSite stillClock requests created.ticks created.state)
      created.state.contents).2
    before.lasting (asBytes "users:1") = some (asBytes "a") ∧
      ∃ replies later last,
        replay sampleSite stillClock requests created.ticks created.state =
          some (replies, later, last) ∧
        let restarted := createPermutiveBus sampleSite last.persistent.disk stillClock 0
        Shows sampleSite stillClock restarted.ticks restarted.state (asBytes "users:1")
          (before.lasting (asBytes "users:1")) := by
  intro created requests before
  have returns : (replay sampleSite stillClock requests created.ticks created.state).isSome =
      true := by
    decide +kernel
  rcases Option.isSome_iff_exists.mp returns with ⟨⟨replies, later, last⟩, returned⟩
  refine ⟨by decide +kernel, replies, later, last, returned, ?_⟩
  exact (restart_keeps_key_iff sampleSite ∅ stillClock stillClock 0 0 later requests last replies
    (asBytes "users:1") stillClock_monotone (wellFiled_empty sampleSite)
    (stemsTell_empty sampleSite) (by decide +kernel) returned).mpr (Or.inr (by decide +kernel))

/-- A value written to `:x` goes to a file called `.db`, which has no extension, so the
scan passes it over. -/
theorem empty_namespace_is_lost :
    let created := createPermutiveBus sampleSite ∅ stillClock 0
    let requests := [DataBusCall.writeValue (asBytes ":x") (asBytes "a")]
    let before := (Reference.replay
      (effects sampleSite stillClock requests created.ticks created.state)
      created.state.contents).2
    before.lasting (asBytes ":x") = some (asBytes "a") ∧
      (replay sampleSite stillClock requests created.ticks created.state).isSome = true ∧
      ∀ replies later last,
        replay sampleSite stillClock requests created.ticks created.state =
          some (replies, later, last) →
        let restarted := createPermutiveBus sampleSite last.persistent.disk stillClock 0
        ¬ Shows sampleSite stillClock restarted.ticks restarted.state (asBytes ":x")
          (before.lasting (asBytes ":x")) := by
  intro created requests before
  have lasting : before.lasting (asBytes ":x") = some (asBytes "a") := by
    decide +kernel
  refine ⟨lasting, by decide +kernel, ?_⟩
  intro replies later last returned restarted shows
  have read : (replay sampleSite stillClock requests created.ticks created.state).map
      (fun ended =>
        let restarted := createPermutiveBus sampleSite ended.2.2.persistent.disk stillClock 0
        (run (bothTiers sampleSite) stillClock (PermutiveBus.readValue (asBytes ":x"))
          restarted.ticks restarted.state).result) = some (some none) := by
    decide +kernel
  rw [returned, Option.map_some, Option.some_inj] at read
  rw [lasting] at shows
  cases shows.1.symm.trans read

end TricPlus
