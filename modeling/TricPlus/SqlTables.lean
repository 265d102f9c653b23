import TricPlus.AdminQuery
import TricPlus.OneMap

/-!
The SQL subset as a database of tables.

A key is the name of a table, a colon and the key of a row, so that the one map is a
database as long as no name has a colon.  A statement is carried out as at one moment, that
of its first call: its answer and its changes are those of the tables then, although an
insertion makes a call for every row.
-/

namespace TricPlus

open AtomicProgram
open BigEndian
open ExpiringMap (Entry remains purge value? store remove)
open OrderedScan (Ascending)

namespace Sql

/-- The rows of each table by their keys, with what is left of their lifetimes. -/
abbrev Database := Bytes → Bytes → Option (Entry Bytes Instant)

namespace Database

variable (database : Database)

def shown (now : Instant) (table key : Bytes) : Option Bytes :=
  (remains now (database table key)).map Entry.value

/-- The live rows of a table whose keys start with `stem`, in ascending order. -/
structure Lists (now : Instant) (table stem : Bytes) (rows : List (Bytes × Bytes)) : Prop where
  ascending : Ascending rows
  mem_iff : ∀ key value, (key, value) ∈ rows ↔
    database.shown now table key = some value ∧ stem <+: key

def put (table key value : Bytes) : Database :=
  Function.update database table
    (Function.update (database table) key (some ⟨value, none⟩))

def drop (table key : Bytes) : Database :=
  Function.update database table (Function.update (database table) key none)

def putAll (table : Bytes) (rows : List (Bytes × Bytes)) : Database :=
  rows.foldl (fun database row => database.put table row.1 row.2) database

end Database

def schemaTable : Bytes := asBytes "_schema"

/-- What a statement asks of the tables. -/
inductive Command where
  | read (table key : Bytes)
  | list (table stem : Bytes)
  /-- Rows, and the number of values in the first one if there is any. -/
  | insert (table : Bytes) (rows : List (Bytes × Bytes)) (columns : Option Nat)
  /-- A new value for a row, if anything is assigned. -/
  | update (table key : Bytes) (value : Option Bytes)
  | delete (table key : Bytes)
  | refused (message : String)

inductive Answer where
  | done
  | value (value : Option Bytes)
  | rows (table : Bytes) (rows : List (Bytes × Bytes))
  | refused (message : String)

namespace Command

def inserted (now : Instant) (database : Database) (table : Bytes)
    (rows : List (Bytes × Bytes)) (columns : Option Nat) : Database :=
  match database.shown now schemaTable table, columns with
  | none, some columns =>
      (database.putAll table rows).put schemaTable table (Query.schemaText columns)
  | _, _ => database.putAll table rows

/-- Only a row that is there is updated, and it loses its lifetime. -/
def updated (now : Instant) (database : Database) (table key : Bytes) (value : Option Bytes) :
    Database :=
  match database.shown now table key, value with
  | some _, some value => database.put table key value
  | _, _ => database

def Means (now : Instant) (database : Database) : Command → Answer → Database → Prop
  | .read table key, answer, after =>
      answer = .value (database.shown now table key) ∧ after = database
  | .list table stem, answer, after =>
      (∃ rows, database.Lists now table stem rows ∧ answer = .rows table rows) ∧
        after = database
  | .insert table rows columns, answer, after =>
      answer = .done ∧ after = inserted now database table rows columns
  | .update table key value, answer, after =>
      answer = .done ∧ after = updated now database table key value
  | .delete table key, answer, after => answer = .done ∧ after = database.drop table key
  | .refused message, answer, after => answer = .refused message ∧ after = database

/-- The tables that the command looks at or changes. -/
def tables : Command → List Bytes
  | .read table _ => [table]
  | .list table _ => [table]
  | .insert table _ _ => [table, schemaTable]
  | .update table _ _ => [table]
  | .delete table _ => [table]
  | .refused _ => []

end Command

/-- Commands, each at its moment and with its answer, one after the other. -/
def Runs : List (Instant × Command × Answer) → Database → Database → Prop
  | [], database, last => last = database
  | (now, command, answer) :: rest, database, last =>
      ∃ after, command.Means now database answer after ∧ Runs rest after last

namespace Command

variable {now : Instant} {database after : Database} {name : Bytes}

private theorem putAll_apply_of_ne {table : Bytes} (other : table ≠ name)
    (rows : List (Bytes × Bytes)) : database.putAll table rows name = database name := by
  induction rows generalizing database with
  | nil => rfl
  | cons row rows ih => exact ih.trans (Function.update_of_ne (Ne.symm other) _ _)

theorem Means.untouched {command : Command} {answer : Answer}
    (means : command.Means now database answer after) (unnamed : name ∉ command.tables) :
    after name = database name := by
  cases command with
  | read table key => rw [means.2]
  | list table stem => rw [means.2]
  | refused message => rw [means.2]
  | delete table key =>
      rw [means.2]
      exact Function.update_of_ne (fun same => unnamed (List.mem_singleton.mpr same)) _ _
  | update table key value =>
      have other : name ≠ table := fun same => unnamed (List.mem_singleton.mpr same)
      have changed : updated now database table key value = database ∨
          ∃ written, updated now database table key value = database.put table key written := by
        unfold updated
        split
        · exact Or.inr ⟨_, rfl⟩
        · exact Or.inl rfl
      rw [means.2]
      rcases changed with same | ⟨written, put⟩
      · rw [same]
      · rw [put]
        exact Function.update_of_ne other _ _
  | insert table rows columns =>
      have other : table ≠ name := fun same => unnamed (same ▸ List.mem_cons_self ..)
      have notSchema : name ≠ schemaTable := fun same =>
        unnamed (same ▸ List.mem_cons_of_mem _ (List.mem_singleton_self _))
      have changed : inserted now database table rows columns = database.putAll table rows ∨
          ∃ schema, inserted now database table rows columns =
            (database.putAll table rows).put schemaTable table schema := by
        unfold inserted
        split
        · exact Or.inr ⟨_, rfl⟩
        · exact Or.inl rfl
      rw [means.2]
      rcases changed with same | ⟨schema, put⟩
      · rw [same]
        exact putAll_apply_of_ne other rows
      · rw [put]
        exact (Function.update_of_ne notSchema _ _).trans (putAll_apply_of_ne other rows)

end Command

theorem Runs.untouched {steps : List (Instant × Command × Answer)} {database last : Database}
    {name : Bytes} (runs : Runs steps database last)
    (unnamed : ∀ step ∈ steps, name ∉ step.2.1.tables) : last name = database name := by
  induction steps generalizing database with
  | nil => rw [runs]
  | cons step steps ih =>
      rcases runs with ⟨after, means, rest⟩
      rw [ih rest (fun other member => unnamed other (List.mem_cons_of_mem _ member))]
      exact means.untouched (unnamed step (List.mem_cons_self ..))

end Sql

namespace Query

variable (parser : SqlParser)

/-- The rows that are not empty: the key, and the other values in lines. -/
def rowsOf (rows : List (List Sql.Expr)) : List (Bytes × Bytes) :=
  rows.filterMap (fun row =>
    match row with
    | [] => none
    | pk :: columns =>
        some (parseExprValue parser pk, joinLines (columns.map (parseExprValue parser))))

def selectCommand (tables : List Sql.TableFactor) (selection : Option Sql.Expr) : Sql.Command :=
  match parseTableName tables with
  | none => .refused "missing FROM table"
  | some table =>
      match parseWhereCondition parser selection with
      | .keyEquals key => .read table key
      | .keyLikePrefix stem => .list table stem
      | .none => .list table []
      | .unsupported => .refused "unsupported WHERE condition"

def updateCommand (table : Sql.TableFactor) (assignments : List Sql.Expr)
    (selection : Option Sql.Expr) : Sql.Command :=
  match parseSingleTableName table with
  | none => .refused "unsupported UPDATE table"
  | some table =>
      match parseWhereCondition parser selection with
      | .keyEquals key =>
          .update table key
            (if assignments = [] then none
              else some (joinLines (assignments.map (parseExprValue parser))))
      | _ => .refused "UPDATE requires WHERE key = ..."

def deleteCommand (tables : List Sql.TableFactor) (selection : Option Sql.Expr) : Sql.Command :=
  match tables with
  | [] => .refused "DELETE without FROM"
  | .other :: _ => .refused "unsupported DELETE table"
  | .table name :: _ =>
      match parseWhereCondition parser selection with
      | .keyEquals key => .delete (plainName name) key
      | _ => .refused "DELETE requires WHERE key = ..."

def statementCommand : Sql.Statement → Sql.Command
  | .query (.select tables selection) => selectCommand parser tables selection
  | .query _ => .refused "unsupported query form"
  | .insert name (some (.values rows)) =>
      .insert (plainName name) (rowsOf parser rows) (rows.head?.map List.length)
  | .insert _ _ => .refused "INSERT without VALUES"
  | .update table assignments selection => updateCommand parser table assignments selection
  | .delete tables selection => deleteCommand parser tables selection
  | .other => .refused "unsupported SQL statement"

def commandOf (sql : Bytes) : Sql.Command :=
  match parser.parseSql sql with
  | none => .refused "invalid SQL"
  | some [] => .refused "empty SQL"
  | some (statement :: _) => statementCommand parser statement

/-- The responses that carry an answer; a row is listed under its full key. -/
def responses (requestId : Nat) : Sql.Answer → List Response
  | .done => [createOk requestId]
  | .value none => [createOk requestId]
  | .value (some value) => [createPayload requestId (lengthPrefixed value)]
  | .rows table rows =>
      scanResponses requestId (rows.map (fun row => pairEntry (fullKey table row.1, row.2)))
  | .refused message => malformed requestId message

end Query

/-! ### Tables in the one map -/

/-- The entries under the names are the rows of the tables, less what is no longer live. -/
def Reference.Tables (names : Set Bytes) (now : Instant) (contents : Reference)
    (database : Sql.Database) : Prop :=
  ∀ name ∈ names, ∀ key,
    remains now contents[Query.fullKey name key]? = remains now (database name key)

namespace Query

private theorem fullKey_eq (table key : Bytes) : fullKey table key = table ++ colon :: key := by
  have one : asBytes ":" = [colon] := by decide +kernel
  unfold fullKey
  rw [one, List.append_assoc]
  rfl

private theorem fullKey_inj {table other key about : Bytes} (plain : colon ∉ table)
    (otherPlain : colon ∉ other) :
    fullKey table key = fullKey other about ↔ table = other ∧ key = about := by
  rw [fullKey_eq, fullKey_eq]
  constructor
  · intro same
    rcases List.append_eq_append_iff.mp same with ⟨between, longer, rest⟩ | ⟨between, longer, rest⟩
    · cases between with
      | nil =>
          rw [List.append_nil] at longer
          exact ⟨longer.symm, (List.cons.inj rest).2⟩
      | cons byte between =>
          cases (List.cons.inj rest).1
          exact absurd (longer ▸ List.mem_append_right _ (List.mem_cons_self ..)) otherPlain
    · cases between with
      | nil =>
          rw [List.append_nil] at longer
          exact ⟨longer, ((List.cons.inj rest).2).symm⟩
      | cons byte between =>
          cases (List.cons.inj rest).1
          exact absurd (longer ▸ List.mem_append_right _ (List.mem_cons_self ..)) plain
  · rintro ⟨rfl, rfl⟩
    rfl

private theorem compare_fullKey (table key about : Bytes) :
    compare (fullKey table key) (fullKey table about) = compare key about :=
  OrderedScan.compare_append_left (table ++ asBytes ":") key about

private theorem fullKey_prefix_iff {table stem key : Bytes} :
    fullKey table stem <+: key ↔ ∃ about, key = fullKey table about ∧ stem <+: about := by
  simp only [fullKey_eq]
  constructor
  · rintro ⟨rest, rfl⟩
    exact ⟨stem ++ rest, by simp, List.prefix_append _ _⟩
  · rintro ⟨about, rfl, rest, rfl⟩
    exact ⟨rest, by simp⟩

end Query

namespace Sql.Database

variable {database : Database} {table other key about value : Bytes}

private theorem put_apply : database.put table key value other about =
    if table = other ∧ key = about then some ⟨value, none⟩ else database other about := by
  unfold put
  by_cases sameTable : table = other
  · subst sameTable
    rw [Function.update_self]
    by_cases sameKey : key = about
    · subst sameKey
      rw [Function.update_self, if_pos ⟨rfl, rfl⟩]
    · rw [Function.update_of_ne (Ne.symm sameKey), if_neg (fun both => sameKey both.2)]
  · rw [Function.update_of_ne (Ne.symm sameTable), if_neg (fun both => sameTable both.1)]

private theorem drop_apply : database.drop table key other about =
    if table = other ∧ key = about then none else database other about := by
  unfold drop
  by_cases sameTable : table = other
  · subst sameTable
    rw [Function.update_self]
    by_cases sameKey : key = about
    · subst sameKey
      rw [Function.update_self, if_pos ⟨rfl, rfl⟩]
    · rw [Function.update_of_ne (Ne.symm sameKey), if_neg (fun both => sameKey both.2)]
  · rw [Function.update_of_ne (Ne.symm sameTable), if_neg (fun both => sameTable both.1)]

end Sql.Database

namespace Reference.Tables

variable {names : Set Bytes} {earliest time : Instant} {contents : Reference}
  {database : Sql.Database} {name key : Bytes}

theorem later (tables : contents.Tables names earliest database) (ordered : earliest ≤ time) :
    contents.Tables names time database := by
  intro name member key
  rw [← ExpiringMap.remains_remains ordered, tables name member key,
    ExpiringMap.remains_remains ordered]

theorem purged (tables : contents.Tables names earliest database) (ordered : earliest ≤ time) :
    Reference.Tables names time (purge time contents) database := by
  intro name member key
  rw [ExpiringMap.getElem?_purge, ExpiringMap.remains_idem]
  exact tables.later ordered name member key

theorem shown (tables : contents.Tables names earliest database) (ordered : earliest ≤ time)
    (member : name ∈ names) (key : Bytes) :
    value? (Query.fullKey name key) (purge time contents) = database.shown time name key := by
  unfold value? Sql.Database.shown
  rw [ExpiringMap.getElem?_purge, tables.later ordered name member key]

theorem lists (tables : contents.Tables names earliest database) (ordered : earliest ≤ time)
    (member : name ∈ names) (stem : Bytes) :
    ∃ rows, database.Lists time name stem rows ∧
      (Reference.step (.findByPrefix (Query.fullKey name stem)) time contents).1 =
        rows.map (fun row => (Query.fullKey name row.1, row.2)) := by
  let full := fun row : Bytes × Bytes => (Query.fullKey name row.1, row.2)
  have every : Reference.scan (Query.fullKey name stem) (purge time contents) ∈
      Set.range (List.map full) := by
    rw [Set.range_list_map]
    rintro ⟨key, value⟩ listed
    rcases Query.fullKey_prefix_iff.mp (Reference.mem_scan.mp listed).2 with ⟨about, rfl, -⟩
    exact ⟨(about, value), rfl⟩
  rcases every with ⟨rows, same⟩
  have fullInjective : Function.Injective full := by
    rintro ⟨key, value⟩ ⟨about, other⟩ same
    rcases Prod.mk.inj same with ⟨sameKey, rfl⟩
    rw [Query.fullKey_eq, Query.fullKey_eq] at sameKey
    cases List.append_cancel_left sameKey
    rfl
  refine ⟨rows, ⟨?_, ?_⟩, same.symm⟩
  · have ascending : Ascending (rows.map full) := same ▸ Reference.scan_ascending _ _
    unfold Ascending at ascending ⊢
    rw [List.pairwise_map] at ascending
    refine ascending.imp ?_
    intro left right below
    exact (Query.compare_fullKey name left.1 right.1).symm.trans below
  · intro key value
    rw [← List.mem_map_of_injective fullInjective, same, Reference.mem_scan,
      tables.shown ordered member, Query.fullKey_eq, Query.fullKey_eq,
      List.prefix_append_right_inj, List.cons_prefix_cons]
    exact and_congr_right (fun _ => and_iff_right rfl)

variable (plain : ∀ name ∈ names, colon ∉ name)
include plain

theorem write (tables : contents.Tables names earliest database) (ordered : earliest ≤ time)
    (namePlain : colon ∉ name) (key value : Bytes) :
    (Reference.step (.writeValue (Query.fullKey name key) value) time contents).2.Tables names
      time (database.put name key value) := by
  intro other otherMember about
  change remains time (store _ _ (purge time contents))[_]? = _
  have inj := @Query.fullKey_inj name other key about namePlain (plain other otherMember)
  rw [ExpiringMap.getElem?_store, Sql.Database.put_apply]
  by_cases same : name = other ∧ key = about
  · rw [if_pos (inj.mpr same), if_pos same]
  · rw [if_neg (fun equal => same (inj.mp equal)), if_neg same]
    exact tables.purged ordered other otherMember about

theorem delete (tables : contents.Tables names earliest database) (ordered : earliest ≤ time)
    (member : name ∈ names) (key : Bytes) :
    (Reference.step (.deleteValue (Query.fullKey name key)) time contents).2.Tables names
      time (database.drop name key) := by
  intro other otherMember about
  change remains time (remove _ (purge time contents))[_]? = _
  have inj := @Query.fullKey_inj name other key about (plain name member) (plain other otherMember)
  rw [ExpiringMap.getElem?_remove, Sql.Database.drop_apply]
  by_cases same : name = other ∧ key = about
  · rw [if_pos (inj.mpr same), if_pos same]
  · rw [if_neg (fun equal => same (inj.mp equal)), if_neg same]
    exact tables.purged ordered other otherMember about

end Reference.Tables

section Statements

variable {names : Set Bytes} {earliest latest : Instant} {contents after : Reference}
  {database : Sql.Database} {times : List Instant}

theorem next_call {α : Type} {request : DataBusCall} {next : request.Reply → BusProgram α}
    {result : Option α} (within : Within earliest latest times)
    (plays : Plays Reference.object (.call request next) times contents result after) :
    ∃ time later, earliest ≤ time ∧ time ≤ latest ∧ Within time latest later ∧
      Plays Reference.object (next (Reference.step request time contents).1) later
        (Reference.step request time contents).2 result after := by
  rcases plays.call_inv with ⟨time, later, rfl, continues⟩
  rcases within.tail with ⟨begins, ends, rest⟩
  exact ⟨time, later, begins, ends, rest, continues⟩

variable {parser : SqlParser} {requestId : Nat} {found : List Response}

end Statements

/-! ### Streams of queries -/

/-- A query request, and what the worker counts by then. -/
structure QuerySent where
  requestId : Nat
  sql : Bytes
  metrics : Metrics

def QuerySent.received (query : QuerySent) : Metrics × Bytes :=
  (query.metrics, queryDatagram query.requestId query.sql)

/-- What a client of the tables sends: requests that are not cut, about some tables, with
rows to store that have files of their own. -/
structure QuerySent.Fits (parser : SqlParser) (names keys : Set Bytes) (query : QuerySent) :
    Prop where
  identified : query.requestId < 2 ^ 32
  uncut : query.sql.length ≤ 2039
  named : ∀ name ∈ (Query.commandOf parser query.sql).tables, name ∈ names
  stores : ∀ key value, Query.QueryCalls parser query.sql (.writeValue key value) → key ∈ keys

/-- The datagrams that answer a query. -/
def QuerySent.answered (query : QuerySent) (answer : Sql.Answer) : List Bytes :=
  (Query.responses query.requestId answer).map writeLocalToBuffer

section Streams

variable {parser : SqlParser} {names keys : Set Bytes} {queries : List QuerySent}

end Streams

def Reference.database (contents : Reference) : Sql.Database :=
  fun name key => contents[Query.fullKey name key]?

end TricPlus
