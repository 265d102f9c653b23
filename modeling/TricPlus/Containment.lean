import TricPlus.Namespaces
import TricPlus.SqliteCalls

/-!
Whether keys stay inside the directory of their slot.

As long as no namespace in use holds a slash, every open database lies directly
inside the directory and is open once, so no call touches or sees a file anywhere
else and no stored row is listed twice.  One slash is enough to lose this.
-/

namespace TricPlus

open Std (ExtTreeMap LawfulEqCmp)
open PosixPath (Name Location slash dot)

/-! ### What the scan opens -/

theorem openEntry_cases (site : Site) (databases : ExtTreeMap Bytes Location) (name : Name) :
    openEntry site databases name = databases ∨
      ∃ stem, stem ≠ [] ∧ name = stem ++ dbSuffix ∧
        site.opens (PosixPath.join site.directory name) = true ∧
        openEntry site databases name =
          databases.insert (stemNamespace stem) (site.locate site.directory ++ [name]) := by
  unfold openEntry
  by_cases isDatabase : PosixPath.extension name = some (asBytes "db")
  · rcases PosixPath.extension_eq_some isDatabase with ⟨same, nonempty⟩
    cases openable : site.opens (PosixPath.join site.directory name) with
    | true =>
        refine Or.inr ⟨PosixPath.fileStem name, nonempty, ?_, rfl, ?_⟩
        · rw [dbSuffix_eq]
          exact same
        · simp only [isDatabase, openable, if_true]
    | false =>
        left
        simp only [isDatabase, openable, if_true, Bool.false_eq_true, if_false]
  · left
    simp only [isDatabase, if_false]

/-- Every database lies directly inside the directory, under a name that tells
its namespace. -/
def Named (site : Site) (databases : ExtTreeMap Bytes Location) : Prop :=
  ∀ (space : Bytes) (file : Location), databases[space]? = some file →
    ∃ stem, file = site.locate site.directory ++ [stem ++ dbSuffix] ∧
      space = stemNamespace stem

theorem Named.insert {site : Site} {databases : ExtTreeMap Bytes Location}
    (named : Named site databases) (stem : Name) :
    Named site (databases.insert (stemNamespace stem)
      (site.locate site.directory ++ [stem ++ dbSuffix])) := by
  intro space file found
  rw [ExtTreeMap.getElem?_insert] at found
  split at found
  · rename_i same
    cases found
    exact ⟨stem, rfl, (LawfulEqCmp.eq_of_compare same).symm⟩
  · exact named space file found

theorem Named.openEntry {site : Site} {databases : ExtTreeMap Bytes Location}
    (named : Named site databases) (name : Name) :
    Named site (openEntry site databases name) := by
  rcases openEntry_cases site databases name with same | ⟨stem, -, rfl, -, opened⟩
  · rw [same]
    exact named
  · rw [opened]
    exact named.insert stem

theorem createSqliteBus_named (site : Site) (disk : Disk) :
    Named site (createSqliteBus site disk).databases := by
  have start : Named site ∅ := by
    intro space file found
    rw [ExtTreeMap.getElem?_empty] at found
    cases found
  unfold createSqliteBus
  generalize disk.entries (site.locate site.directory) = names
  suffices folded : ∀ databases, Named site databases →
      Named site (names.foldl (openEntry site) databases) from folded ∅ start
  induction names with
  | nil =>
      intro databases named
      exact named
  | cons name names ih =>
      intro databases named
      exact ih _ (named.openEntry name)

theorem Named.injective {site : Site} {databases : ExtTreeMap Bytes Location}
    (named : Named site databases) {space other : Bytes} {file : Location}
    (found : databases[space]? = some file) (alsoFound : databases[other]? = some file) :
    space = other := by
  rcases named space file found with ⟨stem, same, rfl⟩
  rcases named other file alsoFound with ⟨otherStem, alsoSame, rfl⟩
  rw [same] at alsoSame
  have names := List.singleton_inj.mp (List.append_cancel_left alsoSame)
  rw [List.append_cancel_right names]

private theorem stemNamespace_namespaceOf (key : Bytes) :
    stemNamespace (namespaceOf key) = namespaceOf key :=
  if_pos (namespaceOf_wellFormed key)

namespace SqliteBus

def replay (site : Site) : List DataBusCall → SqliteBus →
    List ((request : DataBusCall) × Option request.Reply) × SqliteBus
  | [], bus => ([], bus)
  | request :: rest, bus =>
      let (reply, after) := step site request bus
      let (replies, last) := replay site rest after
      (⟨request, reply⟩ :: replies, last)

private theorem replay_keeps (site : Site) (inv : SqliteBus → Prop) (requests : List DataBusCall)
    (kept : ∀ request ∈ requests, ∀ bus, inv bus → inv (step site request bus).2)
    (bus : SqliteBus) (start : inv bus) : inv (replay site requests bus).2 := by
  induction requests generalizing bus with
  | nil => exact start
  | cons request rest ih =>
      exact ih (fun other member => kept other (List.mem_cons_of_mem _ member)) _
        (kept request (List.mem_cons_self ..) bus start)

/-- Every key a request names has a namespace without a slash. -/
def Plain (request : DataBusCall) : Prop :=
  ∀ key, request.key? = some key → slash ∉ namespaceOf key

private theorem writeConnection_named {site : Site} {bus : SqliteBus} {key : Bytes}
    (plain : slash ∉ namespaceOf key) (named : Named site bus.databases) :
    Named site (writeConnection site bus (namespaceOf key)).2.databases := by
  rcases writeConnection_cases site bus (namespaceOf key) with
    ⟨-, same⟩ | ⟨-, -, same⟩ | ⟨-, -, -, same⟩ | ⟨-, -, -, same⟩
  · rw [same]
    exact named
  · rw [same]
    exact named
  · rw [same, databaseFile_of_plain site plain]
    have inserted := named.insert (namespaceOf key)
    rw [stemNamespace_namespaceOf] at inserted
    exact inserted
  · rw [same]
    exact named

private theorem step_named {site : Site} {request : DataBusCall} (plain : Plain request)
    (bus : SqliteBus) (named : Named site bus.databases) :
    Named site (step site request bus).2.databases := by
  apply step_keeps site (fun bus => Named site bus.databases) request named
  · intro key written
    exact writeConnection_named (plain key (DataBusCall.key?_of_written? written)) named
  · intro bus key file change about found changed named
    rw [updateTable_databases]
    exact named

private theorem step_untouched {site : Site} {request : DataBusCall} (plain : Plain request)
    {disk : Disk} {file : Location} (outside : nameIn (site.locate site.directory) file = none)
    (bus : SqliteBus)
    (start : Named site bus.databases ∧ bus.disk[file]? = disk[file]?) :
    Named site (step site request bus).2.databases ∧
      (step site request bus).2.disk[file]? = disk[file]? := by
  have elsewhere : ∀ stem, site.locate site.directory ++ [stem ++ dbSuffix] ≠ file := by
    intro stem same
    rw [nameIn_eq_some.mpr same.symm] at outside
    cases outside
  apply step_keeps site
    (fun bus => Named site bus.databases ∧ bus.disk[file]? = disk[file]?) request start
  · intro key written
    have about := DataBusCall.key?_of_written? written
    refine ⟨writeConnection_named (plain key about) start.1, ?_⟩
    rcases writeConnection_cases site bus (namespaceOf key) with
      ⟨-, same⟩ | ⟨-, -, same⟩ | ⟨-, -, -, same⟩ | ⟨-, -, -, same⟩
    · rw [same]
      exact start.2
    · rw [same]
      exact start.2
    · rw [same]
      simp only
      split
      · exact start.2
      · rw [ExtTreeMap.getElem?_insert, if_neg, start.2]
        intro equal
        apply elsewhere (namespaceOf key)
        rw [← databaseFile_of_plain site (plain key about)]
        exact LawfulEqCmp.eq_of_compare equal
    · rw [same]
      exact start.2
  · intro bus key opened change about found changed both
    rcases both.1 _ _ found with ⟨stem, same, -⟩
    refine ⟨by rw [updateTable_databases]; exact both.1, ?_⟩
    rw [getElem?_updateTable, if_neg (same ▸ elsewhere stem), both.2]

end SqliteBus

/-! ### Files elsewhere are not seen -/

def Disk.within (disk : Disk) (directory : Location) : Disk :=
  disk.filter (fun file _ => (nameIn directory file).isSome)

private theorem getElem?_within (disk : Disk) (directory : Location) (name : Name) :
    (disk.within directory)[directory ++ [name]]? = disk[directory ++ [name]]? := by
  unfold Disk.within
  rw [ExtTreeMap.getElem?_filter', nameIn_eq_some.mpr rfl]
  cases disk[directory ++ [name]]? <;> rfl

private theorem entries_within (disk : Disk) (directory : Location) :
    (disk.within directory).entries directory = disk.entries directory := by
  unfold Disk.entries Disk.within
  rw [ExtTreeMap.toList_filter, List.filterMap_filter]
  apply List.filterMap_congr
  intro file member
  cases nameIn directory file.1 <;> rfl

namespace SqliteBus

structure Alike (site : Site) (left right : SqliteBus) : Prop where
  databases : left.databases = right.databases
  poisoned : left.poisoned = right.poisoned
  named : Named site left.databases
  inside : ∀ name : Name, left.disk[site.locate site.directory ++ [name]]? =
    right.disk[site.locate site.directory ++ [name]]?

section Alike

variable {site : Site} {left right : SqliteBus}

private theorem createSqliteBus_alike (site : Site) (disk : Disk) :
    Alike site (createSqliteBus site disk)
      (createSqliteBus site (disk.within (site.locate site.directory))) where
  databases := by
    unfold createSqliteBus
    rw [entries_within]
  poisoned := rfl
  named := createSqliteBus_named site disk
  inside := fun name => (getElem?_within disk _ name).symm

private theorem Alike.open_eq (alike : Alike site left right) {space : Bytes} {file : Location}
    (found : left.databases[space]? = some file) : left.disk[file]? = right.disk[file]? := by
  rcases alike.named space file found with ⟨stem, rfl, -⟩
  exact alike.inside _

theorem Alike.selectValue (alike : Alike site left right) {space : Bytes} {file : Location}
    (found : left.databases[space]? = some file) (key : Bytes) :
    left.selectValue file key = right.selectValue file key := by
  unfold SqliteBus.selectValue
  rw [alike.open_eq found]

theorem Alike.updateTable (alike : Alike site left right) {space : Bytes} {file : Location}
    (found : left.databases[space]? = some file) (change : Table → Table) :
    Alike site (left.updateTable file change) (right.updateTable file change) where
  databases := by
    rw [updateTable_databases, updateTable_databases]
    exact alike.databases
  poisoned := by
    rw [updateTable_poisoned, updateTable_poisoned]
    exact alike.poisoned
  named := by
    rw [updateTable_databases]
    exact alike.named
  inside := by
    intro name
    rw [getElem?_updateTable, getElem?_updateTable, alike.open_eq found, alike.inside]

theorem Alike.locked {α : Type} {body : SqliteBus → α × SqliteBus}
    (alike : Alike site left right) (answers : (body left).1 = (body right).1)
    (leaves : Alike site (body left).2 (body right).2) :
    (left.locked body).1 = (right.locked body).1 ∧
      Alike site (left.locked body).2 (right.locked body).2 := by
  unfold SqliteBus.locked
  rw [← alike.poisoned]
  split
  · exact ⟨rfl, alike⟩
  · exact ⟨congrArg some answers, leaves⟩

theorem Alike.writeConnection (alike : Alike site left right) {key : Bytes}
    (plain : slash ∉ namespaceOf key) :
    (writeConnection site left (namespaceOf key)).1 =
        (writeConnection site right (namespaceOf key)).1 ∧
      Alike site (writeConnection site left (namespaceOf key)).2
        (writeConnection site right (namespaceOf key)).2 := by
  have named := writeConnection_named plain alike.named
  have file := databaseFile_of_plain site plain
  unfold SqliteBus.writeConnection at named ⊢
  rw [← alike.poisoned, ← alike.databases]
  split
  · exact ⟨rfl, alike⟩
  · split
    · exact ⟨rfl, alike⟩
    · simp only
      split
      · rename_i notPoisoned notOpen openable
        simp only [notPoisoned, notOpen, openable, if_true, Bool.false_eq_true,
          if_false] at named
        refine ⟨rfl, rfl, rfl, named, ?_⟩
        intro name
        have sameThere := alike.inside (namespaceOf key ++ dbSuffix)
        rw [← file] at sameThere
        have contained : left.disk.contains (site.databaseFile (namespaceOf key)) =
            right.disk.contains (site.databaseFile (namespaceOf key)) := by
          rw [← ExtTreeMap.isSome_getElem?_eq_contains, sameThere,
            ExtTreeMap.isSome_getElem?_eq_contains]
        change (if left.disk.contains (site.databaseFile (namespaceOf key)) then left.disk
            else left.disk.insert (site.databaseFile (namespaceOf key)) ∅)[_]? =
          (if right.disk.contains (site.databaseFile (namespaceOf key)) then right.disk
            else right.disk.insert (site.databaseFile (namespaceOf key)) ∅)[_]?
        rw [contained]
        split
        · exact alike.inside name
        · rw [ExtTreeMap.getElem?_insert, ExtTreeMap.getElem?_insert, alike.inside name]
      · exact
          ⟨rfl,
            { databases := rfl
              poisoned := rfl
              named := alike.named
              inside := alike.inside }⟩

theorem Alike.writeValue (alike : Alike site left right) {key : Bytes}
    (plain : slash ∉ namespaceOf key) (value : Bytes) :
    (writeValue site left key value).1 = (writeValue site right key value).1 ∧
      Alike site (writeValue site left key value).2 (writeValue site right key value).2 := by
  rcases alike.writeConnection plain with ⟨sameReply, opened⟩
  unfold SqliteBus.writeValue
  rcases leftConnected : SqliteBus.writeConnection site left (namespaceOf key) with
    ⟨reply, leftOpened⟩
  rcases rightConnected : SqliteBus.writeConnection site right (namespaceOf key) with
    ⟨otherReply, rightOpened⟩
  rw [leftConnected, rightConnected] at sameReply opened
  obtain rfl : reply = otherReply := sameReply
  cases reply with
  | none => exact ⟨rfl, opened⟩
  | some reply =>
      apply Alike.locked opened
      · rw [← opened.databases]
      · rw [← opened.databases]
        cases found : leftOpened.databases[namespaceOf key]? with
        | none => exact opened
        | some file => exact opened.updateTable found _

theorem Alike.rows (alike : Alike site left right) (stem : Bytes) :
    left.databases.toList.flatMap (fun database => left.matchingRows stem database.2) =
      right.databases.toList.flatMap (fun database => right.matchingRows stem database.2) := by
  rw [← alike.databases]
  apply List.flatMap_congr
  rintro ⟨space, file⟩ member
  have found := ExtTreeMap.mem_toList_iff_getElem?_eq_some.mp member
  unfold matchingRows
  rw [alike.open_eq found]

theorem Alike.step (alike : Alike site left right) {request : DataBusCall}
    (plain : Plain request) :
    (step site request left).1 = (step site request right).1 ∧
      Alike site (step site request left).2 (step site request right).2 := by
  cases request with
  | readValue key =>
      apply Alike.locked alike
      · rw [← alike.databases]
        cases found : left.databases[namespaceOf key]? with
        | none => rfl
        | some file => exact alike.selectValue found key
      · rw [← alike.databases]
        split <;> exact alike
  | writeValue key value => exact alike.writeValue (plain key rfl) value
  | deleteValue key =>
      apply Alike.locked alike
      · rw [← alike.databases]
      · rw [← alike.databases]
        cases found : left.databases[namespaceOf key]? with
        | none => exact alike
        | some file => exact alike.updateTable found _
  | deleteValueIfMatch key expected =>
      apply Alike.locked alike
      · rw [← alike.databases]
        cases found : left.databases[namespaceOf key]? with
        | none => rfl
        | some file =>
            simp only [alike.selectValue found key]
            split <;> rfl
      · rw [← alike.databases]
        cases found : left.databases[namespaceOf key]? with
        | none => exact alike
        | some file =>
            simp only [alike.selectValue found key]
            split
            · exact alike.updateTable found _
            · exact alike
  | writeTtl key duration => exact ⟨rfl, alike⟩
  | writeValueWithTtl key value duration => exact alike.writeValue (plain key rfl) value
  | readTtlRemaining key => exact ⟨rfl, alike⟩
  | findByPrefix stem =>
      apply Alike.locked alike
      · exact congrArg OrderedScan.sortByKey (alike.rows stem)
      · exact alike

theorem Alike.replay (requests : List DataBusCall)
    (plain : ∀ request ∈ requests, Plain request) (alike : Alike site left right) :
    (replay site requests left).1 = (replay site requests right).1 := by
  induction requests generalizing left right with
  | nil => rfl
  | cons request rest ih =>
      rcases alike.step (plain request (List.mem_cons_self ..)) with ⟨sameReply, stillAlike⟩
      have sameRest := ih (fun other member => plain other (List.mem_cons_of_mem _ member))
        stillAlike
      simp only [SqliteBus.replay, sameReply, sameRest]

end Alike

end SqliteBus

/-! ### Keys that stay inside -/

/-- What holds when clients use these keys only: each key's file lies directly
inside the directory and tells its namespace; whatever calls are made on a new
bus, files elsewhere stay as they are and might as well not be there, and every
open file, and so every row of it, is listed once. -/
structure Contained (site : Site) (keys : Set Bytes) : Prop where
  inside : ∀ key ∈ keys, ∃ name,
    site.databaseFile (namespaceOf key) = site.locate site.directory ++ [name]
  distinct : ∀ key ∈ keys, ∀ other ∈ keys,
    site.databaseFile (namespaceOf key) = site.databaseFile (namespaceOf other) ↔
      namespaceOf key = namespaceOf other
  untouched : ∀ (disk : Disk) (requests : List DataBusCall),
    (∀ request ∈ requests, ∀ key, request.key? = some key → key ∈ keys) →
    ∀ file : Location, nameIn (site.locate site.directory) file = none →
      (SqliteBus.replay site requests (createSqliteBus site disk)).2.disk[file]? = disk[file]?
  unseen : ∀ (disk : Disk) (requests : List DataBusCall),
    (∀ request ∈ requests, ∀ key, request.key? = some key → key ∈ keys) →
    (SqliteBus.replay site requests (createSqliteBus site disk)).1 =
      (SqliteBus.replay site requests
        (createSqliteBus site (disk.within (site.locate site.directory)))).1
  listedOnce : ∀ (disk : Disk) (requests : List DataBusCall),
    (∀ request ∈ requests, ∀ key, request.key? = some key → key ∈ keys) →
    ((SqliteBus.replay site requests
      (createSqliteBus site disk)).2.databases.toList.map Prod.snd).Nodup

private theorem Named.files_nodup {site : Site} {databases : ExtTreeMap Bytes Location}
    (named : Named site databases) : (databases.toList.map Prod.snd).Nodup := by
  unfold List.Nodup
  rw [List.pairwise_map]
  refine (OrderedScan.toList_ascending databases).imp_of_mem ?_
  intro first second firstListed secondListed below sameFile
  have firstFound := ExtTreeMap.mem_toList_iff_getElem?_eq_some.mp firstListed
  have secondFound := ExtTreeMap.mem_toList_iff_getElem?_eq_some.mp secondListed
  rw [sameFile] at firstFound
  rw [named.injective firstFound secondFound] at below
  exact OrderedScan.compare_lt_irrefl second.1 below

private theorem contained_of_plain (site : Site) {keys : Set Bytes}
    (plain : ∀ key ∈ keys, slash ∉ namespaceOf key) : Contained site keys where
  inside := fun key member => ⟨_, databaseFile_of_plain site (plain key member)⟩
  distinct := by
    intro key member other otherMember
    constructor
    · exact databaseFile_injective site (plain key member) (plain other otherMember)
    · intro same
      rw [same]
  untouched := by
    intro disk requests about file outside
    have kept := SqliteBus.replay_keeps site
      (fun bus => Named site bus.databases ∧ bus.disk[file]? = disk[file]?) requests
      (fun request member bus start => SqliteBus.step_untouched
        (fun key named => plain key (about request member key named)) outside bus start)
      (createSqliteBus site disk) ⟨createSqliteBus_named site disk, rfl⟩
    exact kept.2
  unseen := by
    intro disk requests about
    exact SqliteBus.Alike.replay requests
      (fun request member key named => plain key (about request member key named))
      (SqliteBus.createSqliteBus_alike site disk)
  listedOnce := by
    intro disk requests about
    apply Named.files_nodup
    exact SqliteBus.replay_keeps site (fun bus => Named site bus.databases) requests
      (fun request member bus named => SqliteBus.step_named
        (fun key about' => plain key (about request member key about')) bus named)
      (createSqliteBus site disk) (createSqliteBus_named site disk)

/-- Keys used beside those without a slash in the namespace stay inside their slot
and apart from each other exactly when they have no slash there either. -/
theorem contained_iff_plain (site : Site) (keys : Set Bytes) :
    Contained site (keys ∪ {key | slash ∉ namespaceOf key}) ↔
      ∀ key ∈ keys, slash ∉ namespaceOf key := by
  constructor
  · intro contained key member slashed
    rcases databaseFile_of_slash site key slashed with
      ⟨parent, name, file, outside⟩ | ⟨other, plain, different, same⟩
    · rcases contained.inside key (Or.inl member) with ⟨ownName, inside⟩
      rw [inside] at file
      exact outside (List.append_inj_left' file rfl).symm
    · exact different ((contained.distinct key (Or.inl member) other (Or.inr plain)).mp same)
  · intro plain
    apply contained_of_plain
    intro key member
    rcases member with used | alreadyPlain
    · exact plain key used
    · exact alreadyPlain

/-- One key leads into the slot of another instance, another one to the file of
the namespace `users`. -/
theorem slash_escapes_and_aliases :
    (¬ ∃ name, sampleSite.databaseFile (namespaceOf (asBytes "../other_0/users:1")) =
      sampleSite.locate sampleSite.directory ++ [name]) ∧
    sampleSite.databaseFile (namespaceOf (asBytes "./users:2")) =
      sampleSite.databaseFile (namespaceOf (asBytes "users:1")) ∧
    namespaceOf (asBytes "./users:2") ≠ namespaceOf (asBytes "users:1") ∧
    ¬ Contained sampleSite Set.univ := by
  have escapes : ¬ ∃ name,
      sampleSite.databaseFile (namespaceOf (asBytes "../other_0/users:1")) =
        sampleSite.locate sampleSite.directory ++ [name] := by
    intro inside
    rcases inside with ⟨name, same⟩
    have parents := congrArg List.dropLast same
    rw [List.dropLast_concat] at parents
    revert parents
    decide +kernel
  refine ⟨escapes, by decide +kernel, by decide +kernel, ?_⟩
  intro contained
  exact escapes (contained.inside _ (Set.mem_univ _))

end TricPlus
