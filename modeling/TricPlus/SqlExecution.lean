import TricPlus.ColumnLists

/-!
SQL texts that are refused, and SQL texts that are executed in full.

A statement is executed in full if its reply is what it asks for and the keys show afterwards
what it says, the others what they showed.  Statements that the operations read only in part,
or whose values would have to be computed, are not.
-/

namespace TricPlus

open AtomicProgram
open Answers
open ExpiringMap (remains)

namespace Ast

def plainTable (name : Bytes) : TableWithJoins where
  relation := .table name []
  joins := []

/-- `SELECT * FROM name WHERE …` -/
def plainSelect (name : Bytes) (selection : Option Expr) : Statement :=
  .query
    { body := .select
        { projection := [.wildcard]
          tables := [plainTable name]
          selection := selection
          clauses := [] }
      clauses := [] }

/-- `INSERT INTO name VALUES …` -/
def plainInsert (name : Bytes) (rows : List (List Expr)) : Statement :=
  .insert
    { tableName := name
      source := some { body := .values rows, clauses := [] }
      clauses := [] }

/-- `DELETE FROM name WHERE …` -/
def plainDelete (name : Bytes) (selection : Option Expr) : Statement :=
  .delete
    { tables := [plainTable name]
      selection := selection
      clauses := [] }

/-- `column = value` -/
def equals (column : Bytes) (value : Sql.Value) : Expr :=
  .binaryOp (.identifier column) .eq (.value value)

/-- `column LIKE 'stem%'` -/
def startsWith (column stem : Bytes) (escapeChar : Option Bytes) : Expr :=
  .like false false (.identifier column) (.value (.singleQuotedString (stem ++ [0x25]))) escapeChar

end Ast

namespace SqlLibrary

variable (library : SqlLibrary)

/-! ### What a statement says -/

/-- A literal of a condition, and the text it asks for. -/
inductive LiteralText : Sql.Value → Bytes → Prop where
  | number (text : Bytes) : LiteralText (.number text) text
  | singleQuotedString (text : Bytes) : LiteralText (.singleQuotedString text) text

def constantText : Ast.Expr → Option Bytes
  | .value (.number text) => some text
  | .value (.singleQuotedString text) => some text
  | .value (.doubleQuotedString text) => some text
  | .value .null => some []
  | .value (.boolean true) => some (asBytes "true")
  | .value (.boolean false) => some (asBytes "false")
  | .other text [.value (.number digits)] =>
      if library.display (.other text [.value (.number digits)]) = 0x2D :: digits then
        some (0x2D :: digits)
      else none
  | _ => none

def rowText : List Ast.Expr → Option (Bytes × Bytes)
  | [] => none
  | pk :: columns => do
      let key ← library.constantText pk
      let lines ← columns.mapM library.constantText
      some (key, Separated.joined newline lines)

end SqlLibrary

/-- What is assigned are columns of the schema, and the values need not be computed. -/
def RowUpdate.Resolved (library : SqlLibrary) (update : RowUpdate) (site : Site) (now : Instant)
    (bus : PermutiveBus) : Prop :=
  update.NamesColumns library site now bus ∧
    ∀ assignment ∈ update.first :: update.rest,
      (library.constantText assignment.value).isSome = true

section Executed

variable (library : SqlLibrary) (site : Site) (clock : Nat → Instant) (requestId ticks : Nat)
  (bus : PermutiveBus)

def Ran (statement : Ast.Statement) (responses : List Response) (later : Nat)
    (after : PermutiveBus) : Prop :=
  execute library.parser site clock requestId (library.statement statement) ticks bus =
    ⟨some responses, later, after⟩

/-- The statement is run, the reply is the rows that the bus lists under the stem, all of them,
and what the keys show stays. -/
def Lists (statement : Ast.Statement) (stem : Bytes) : Prop :=
  (bus.listed (clock ticks) stem).length ≤ maxChunks ∧
    ∃ later after, Ran library site clock requestId ticks bus statement
        (scanResponses requestId ((bus.listed (clock ticks) stem).map pairEntry)) later after ∧
      LeavesValues site (clock later) bus after

/-- The key shows this from a reading on. -/
def ShowsFrom (site : Site) (now : Instant) (after : PermutiveBus) (key : Bytes)
    (value : Option Bytes) : Prop :=
  ∀ later, now ≤ later → (after.cell site key).value later = value

/-- The statement is run, with the reply and the changes that it says.

Of several rows with one key the last one stays, and `INSERT` may give the table a schema. -/
inductive ExecutedInFull : Ast.Statement → Prop where
  | selectRow {name column text : Bytes} {value : Sql.Value} {later : Nat} {after : PermutiveBus}
      (key : library.IsKey column) (literal : SqlLibrary.LiteralText value text)
      (ran : Ran library site clock requestId ticks bus
        (Ast.plainSelect name (some (Ast.equals column value)))
        (rowResponses requestId ((bus.cell site
          (Query.fullKey (Query.plainName name) text)).value (clock ticks))) later after)
      (leaves : LeavesValues site (clock later) bus after) :
      ExecutedInFull (Ast.plainSelect name (some (Ast.equals column value)))
  | selectAll {name : Bytes}
      (lists : Lists library site clock requestId ticks bus (Ast.plainSelect name none)
        (Query.fullKey (Query.plainName name) [])) :
      ExecutedInFull (Ast.plainSelect name none)
  | selectLike {name column stem : Bytes} {escapeChar : Option Bytes} (key : library.IsKey column)
      (plain : LikePattern.Plain sqlAlphabet (escapeChar.getD []) stem)
      (lists : Lists library site clock requestId ticks bus
        (Ast.plainSelect name (some (Ast.startsWith column stem escapeChar)))
        (Query.fullKey (Query.plainName name) stem)) :
      ExecutedInFull (Ast.plainSelect name (some (Ast.startsWith column stem escapeChar)))
  | insert {name : Bytes} {rows : List (List Ast.Expr)} {texts : List (Bytes × Bytes)}
      {later : Nat} {after : PermutiveBus} (constants : rows.mapM library.rowText = some texts)
      (ran : Ran library site clock requestId ticks bus (Ast.plainInsert name rows)
        [createOk requestId] later after)
      (stored : ∀ key value, texts.reverse.lookup key = some value →
        ShowsFrom site (clock later) after (Query.fullKey (Query.plainName name) key) (some value))
      (others : ∀ other, (∀ text ∈ texts, other ≠ Query.fullKey (Query.plainName name) text.1) →
        other ≠ Query.schemaKey (Query.plainName name) →
        KeepsShowing site (clock later) bus after other) :
      ExecutedInFull (Ast.plainInsert name rows)
  | update {update : RowUpdate} {text : Bytes} {value : Sql.Value}
      (key : library.IsKey update.column) (literal : update.pk = .value value)
      (asked : SqlLibrary.LiteralText value text)
      (updates : update.UpdatesAssigned library site clock requestId ticks bus)
      (resolved : Shown site (clock ticks) bus (update.key library) →
        update.Resolved library site (clock ticks) bus) :
      ExecutedInFull update.statement
  | delete {name column text : Bytes} {value : Sql.Value} {later : Nat} {after : PermutiveBus}
      (key : library.IsKey column) (literal : SqlLibrary.LiteralText value text)
      (ran : Ran library site clock requestId ticks bus
        (Ast.plainDelete name (some (Ast.equals column value))) [createOk requestId] later after)
      (gone : ShowsFrom site (clock later) after (Query.fullKey (Query.plainName name) text) none)
      (others : ∀ other, other ≠ Query.fullKey (Query.plainName name) text →
        KeepsShowing site (clock later) bus after other) :
      ExecutedInFull (Ast.plainDelete name (some (Ast.equals column value)))

end Executed

section Condition

variable (library : SqlLibrary) (site : Site) (now : Instant) (bus : PermutiveBus)

/-- A database that an `INSERT` opens: that of a row, or that of a missing schema. -/
def InsertOpens (name : Bytes) (texts : List (Bytes × Bytes)) (other : Bytes) : Prop :=
  (∃ text ∈ texts, namespaceOf (Query.fullKey (Query.plainName name) text.1) = namespaceOf other) ∨
    (¬ Shown site now bus (Query.schemaKey (Query.plainName name)) ∧ texts ≠ [] ∧
      namespaceOf (Query.schemaKey (Query.plainName name)) = namespaceOf other)

/-- The statement is of one of the forms that are read as a whole.  A `SELECT` of several rows
finds no more than a reply can tell of; of an `INSERT` no row is replaced by the new schema, and
no row of another key comes to light; and an `UPDATE` assigns, in their order, all columns that
the row has. -/
inductive RunsInFull : Ast.Statement → Prop where
  | selectRow {name column text : Bytes} {value : Sql.Value} (key : library.IsKey column)
      (literal : SqlLibrary.LiteralText value text) :
      RunsInFull (Ast.plainSelect name (some (Ast.equals column value)))
  | selectAll {name : Bytes}
      (few : (bus.listed now (Query.fullKey (Query.plainName name) [])).length ≤ maxChunks) :
      RunsInFull (Ast.plainSelect name none)
  | selectLike {name column stem : Bytes} {escapeChar : Option Bytes} (key : library.IsKey column)
      (plain : LikePattern.Plain sqlAlphabet (escapeChar.getD []) stem)
      (few : (bus.listed now (Query.fullKey (Query.plainName name) stem)).length ≤ maxChunks) :
      RunsInFull (Ast.plainSelect name (some (Ast.startsWith column stem escapeChar)))
  | insert {name : Bytes} {rows : List (List Ast.Expr)} {texts : List (Bytes × Bytes)}
      (constants : rows.mapM library.rowText = some texts)
      (kept : ¬ Shown site now bus (Query.schemaKey (Query.plainName name)) → ∀ key value,
        texts.reverse.lookup key = some value →
        Query.fullKey (Query.plainName name) key = Query.schemaKey (Query.plainName name) →
          value = Query.schemaText (rows.headD []).length)
      (others : ∀ other, (∀ text ∈ texts, other ≠ Query.fullKey (Query.plainName name) text.1) →
        other ≠ Query.schemaKey (Query.plainName name) →
        ¬ (InsertOpens site now bus name texts other ∧ Hidden site bus other)) :
      RunsInFull (Ast.plainInsert name rows)
  | update {update : RowUpdate} {text : Bytes} {value : Sql.Value}
      (key : library.IsKey update.column) (literal : update.pk = .value value)
      (asked : SqlLibrary.LiteralText value text)
      (plain : ∀ assignment ∈ update.first :: update.rest,
        assignment.value.anywhere Ast.isSubquery = false)
      (updatable : update.Updatable library site now bus)
      (resolved : Shown site now bus (update.key library) →
        update.Resolved library site now bus) :
      RunsInFull update.statement
  | delete {name column text : Bytes} {value : Sql.Value} (key : library.IsKey column)
      (literal : SqlLibrary.LiteralText value text) :
      RunsInFull (Ast.plainDelete name (some (Ast.equals column value)))

end Condition

namespace SqlLibrary

variable {library : SqlLibrary} {statement : Ast.Statement}

private theorem stored_constant {expr : Ast.Expr} {text : Bytes}
    (constant : library.constantText expr = some text) :
    Query.parseExprValue library.parser (library.stored expr) = text := by
  unfold constantText at constant
  split at constant
  · exact Option.some_inj.mp constant
  · exact Option.some_inj.mp constant
  · exact Option.some_inj.mp constant
  · exact Option.some_inj.mp constant
  · exact Option.some_inj.mp constant
  · exact Option.some_inj.mp constant
  · split at constant
    · rename_i displayed
      rw [← Option.some_inj.mp constant, ← displayed]
      rfl
    · cases constant
  · cases constant

private theorem not_subquery_of_constant {expr : Ast.Expr} {text : Bytes}
    (constant : library.constantText expr = some text) :
    expr.anywhere Ast.isSubquery = false := by
  have literal : ∀ value : Sql.Value, (Ast.Expr.value value).anywhere Ast.isSubquery = false := by
    intro value
    unfold Ast.Expr.anywhere
    rfl
  unfold constantText at constant
  split at constant
  · exact literal _
  · exact literal _
  · exact literal _
  · exact literal _
  · exact literal _
  · exact literal _
  · unfold Ast.Expr.anywhere Ast.anywhereAmong Ast.anywhereAmong
    rw [literal]
    rfl
  · cases constant

private theorem plain_of_rowText {row : List Ast.Expr} {text : Bytes × Bytes}
    (constant : library.rowText row = some text) :
    Ast.anywhereAmong Ast.isSubquery row = false := by
  have among : ∀ exprs : List Ast.Expr, (∀ expr ∈ exprs, ∃ text,
      library.constantText expr = some text) → Ast.anywhereAmong Ast.isSubquery exprs = false := by
    intro exprs each
    induction exprs with
    | nil =>
        unfold Ast.anywhereAmong
        rfl
    | cons expr exprs ih =>
        obtain ⟨shown, isText⟩ := each expr (List.mem_cons_self ..)
        unfold Ast.anywhereAmong
        rw [not_subquery_of_constant isText, Bool.false_or]
        exact ih (fun other member => each other (List.mem_cons_of_mem _ member))
  cases row with
  | nil => cases constant
  | cons pk columns =>
      unfold rowText at constant
      simp only [Option.bind_eq_bind, Option.bind_eq_some_iff] at constant
      obtain ⟨key, isKey, lines, areLines, -⟩ := constant
      apply among
      intro expr member
      rcases List.mem_cons.mp member with rfl | column
      · exact ⟨key, isKey⟩
      · have found : library.constantText expr ∈ lines.map some := by
          rw [← mapM_eq_some_iff.mp areLines]
          exact List.mem_map_of_mem column
        obtain ⟨shown, -, isText⟩ := List.mem_map.mp found
        exact ⟨shown, isText.symm⟩

private theorem rowCalls_constant {row : List Ast.Expr} {text : Bytes × Bytes}
    (constant : library.rowText row = some text) (tableName : Bytes) :
    Query.rowCalls library.parser tableName (row.map library.stored) =
      [.writeValue (Query.fullKey tableName text.1) text.2] := by
  cases row with
  | nil => cases constant
  | cons pk columns =>
      unfold rowText at constant
      simp only [Option.bind_eq_bind, Option.bind_eq_some_iff] at constant
      obtain ⟨key, isKey, lines, areLines, same⟩ := constant
      cases same
      have texts : columns.map (fun column =>
          Query.parseExprValue library.parser (library.stored column)) = lines := by
        have answers := mapM_eq_some_iff.mp areLines
        apply List.map_injective_iff.mpr (Option.some_injective Bytes)
        rw [← answers, List.map_map]
        apply List.map_congr_left
        intro column member
        have found : library.constantText column ∈ lines.map some := by
          rw [← answers]
          exact List.mem_map_of_mem member
        obtain ⟨text, -, isText⟩ := List.mem_map.mp found
        rw [← isText]
        exact congrArg some (stored_constant isText.symm)
      change [DataBusCall.writeValue (Query.rowKey library.parser tableName (library.stored pk))
        (Query.joinLines ((columns.map library.stored).map
          (Query.parseExprValue library.parser)))] = _
      unfold Query.rowKey
      rw [stored_constant isKey, Query.joinLines_eq, List.map_map]
      exact congrArg (fun parts => [DataBusCall.writeValue _ (Separated.joined newline parts)]) texts

/-- The rows of an `INSERT`, under their keys. -/
def writes (tableName : Bytes) (texts : List (Bytes × Bytes)) : List DataBusCall :=
  texts.map (fun text => .writeValue (Query.fullKey tableName text.1) text.2)

private theorem flatMap_rowCalls {rows : List (List Ast.Expr)} {texts : List (Bytes × Bytes)}
    (constants : rows.mapM library.rowText = some texts) (tableName : Bytes) :
    (rows.map (List.map library.stored)).flatMap (Query.rowCalls library.parser tableName) =
      writes tableName texts := by
  have answers := mapM_eq_some_iff.mp constants
  clear constants
  induction rows generalizing texts with
  | nil =>
      rw [List.map_eq_nil_iff.mp answers.symm]
      rfl
  | cons row rows ih =>
      cases texts with
      | nil => cases answers
      | cons text texts =>
          obtain ⟨first, rest⟩ := List.cons.inj answers
          rw [List.map_cons, List.flatMap_cons, rowCalls_constant first, ih rest]
          rfl

private theorem split_of_lookup {texts : List (Bytes × Bytes)} {key value : Bytes}
    (last : texts.reverse.lookup key = some value) :
    ∃ front back, texts = front ++ (key, value) :: back ∧ ∀ text ∈ back, text.1 ≠ key := by
  obtain ⟨before, behind, split, none⟩ := List.lookup_eq_some_iff.mp last
  refine ⟨behind.reverse, before.reverse, ?_, ?_⟩
  · have turned := congrArg List.reverse split
    rw [List.reverse_reverse, List.reverse_append, List.reverse_cons, List.append_assoc] at turned
    exact turned
  · intro text member same
    have other := none text (List.mem_reverse.mp member)
    exact absurd same.symm (bne_iff_ne.mp other)

end SqlLibrary

section Runs

variable {library : SqlLibrary} {site : Site} {clock : Nat → Instant} {requestId ticks : Nat}
  {bus : PermutiveBus} {name column text : Bytes} {value : Sql.Value}

theorem SqlLibrary.LiteralText.parsed (literal : SqlLibrary.LiteralText value text) :
    Query.parseStringValue (.value value) = some text := by
  cases literal <;> rfl

def askedRow (name column : Bytes) (value : Sql.Value) : RowLiteral where
  tableName := name
  column := column
  pk := .value value
  columns := []
  assigned := .value value
  assignments := []

private theorem askedRow_key (literal : SqlLibrary.LiteralText value text) :
    (askedRow name column value).key library.parser =
      Query.fullKey (Query.plainName name) text :=
  (@RowLiteral.key_literal library.parser (askedRow name column value) text literal.parsed).symm

private theorem condition_equals (key : library.IsKey column)
    (literal : SqlLibrary.LiteralText value text) :
    Query.parseWhereCondition library.parser
      (some (library.condition (Ast.equals column value))) = .keyEquals text :=
  @RowLiteral.where_literal library.parser (askedRow [] column value) key text literal.parsed

private theorem condition_startsWith {stem : Bytes} {escapeChar : Option Bytes}
    (key : library.IsKey column) :
    Query.parseWhereCondition library.parser
      (some (library.condition (Ast.startsWith column stem escapeChar))) =
        .keyLikePrefix stem := by
  have named : Query.checkKeyColumn library.parser (.identifier column) = true :=
    decide_eq_true key
  have stripped : Query.stripPercent (stem ++ [0x25]) = some stem := by
    unfold Query.stripPercent
    rw [List.getLast?_concat, if_pos rfl, List.dropLast_concat]
  change Query.parseWhereCondition library.parser (some (.like (.identifier column)
    (.value (.singleQuotedString (stem ++ [0x25]))))) = _
  unfold Query.parseWhereCondition
  simp only [named, if_true, Query.parseStringValue, Option.bind_some, stripped]

private theorem selectRow_executed (monotone : Monotone clock) (attached : bus.persistent.Attached)
    (key : library.IsKey column) (literal : SqlLibrary.LiteralText value text)
    (answerable : StatementAnswerable library.parser site (clock ticks) bus
      (library.statement (Ast.plainSelect name (some (Ast.equals column value))))) :
    ExecutedInFull library site clock requestId ticks bus
      (Ast.plainSelect name (some (Ast.equals column value))) := by
  change SelectAnswerable library.parser (clock ticks) bus (.select [.table name]
    (some (library.condition (Ast.equals column value)))) at answerable
  unfold SelectAnswerable at answerable
  simp only [RowLiteral.tableName_eq, condition_equals key literal] at answerable
  rw [← @askedRow_key library name column text value literal] at answerable
  rcases @select_run library.parser (askedRow name column value) site clock ticks bus requestId
    monotone attached answerable key text literal.parsed with ⟨later, after, ran, leaves⟩
  rw [askedRow_key literal] at ran
  exact .selectRow key literal ran leaves

private theorem scan_run (monotone : Monotone clock) (works : bus.persistent.Works) (stem : Bytes) :
    ∃ later after, run (bothTiers site) clock (onTiers (Query.scan requestId stem)) ticks bus =
        ⟨some (scanResponses requestId ((bus.listed (clock ticks) stem).map pairEntry)), later,
          after⟩ ∧
      LeavesValues site (clock later) bus after := by
  rcases run_listed site clock ticks works stem with ⟨transient, ran, copies⟩
  refine ⟨ticks + 2, { bus with transient := transient }, ?_, rfl, ?_⟩
  · have translated : onTiers (Query.scan requestId stem) =
        (PermutiveBus.findByPrefix stem).bind
          (fun pairs => .done (scanResponses requestId (pairs.map pairEntry))) := rfl
    rw [translated, run_bind, ran]
    rfl
  · intro key now ordered
    have early : clock ticks ≤ now := (monotone (Nat.le_add_right ticks 2)).trans ordered
    unfold Cell.value PermutiveBus.cell
    rw [copies, ExpiringMap.remains_remains early]

private theorem lists_iff (monotone : Monotone clock) (works : bus.persistent.Works)
    {statement : Ast.Statement} {stem : Bytes}
    (program : Query.runStatement library.parser requestId (library.statement statement) =
      Query.scan requestId stem) :
    Lists library site clock requestId ticks bus statement stem ↔
      (bus.listed (clock ticks) stem).length ≤ maxChunks := by
  refine ⟨And.left, fun few => ⟨few, ?_⟩⟩
  unfold Ran execute
  rw [program]
  exact scan_run monotone works stem

private theorem plainSelect_all (library : SqlLibrary) (requestId : Nat) (name : Bytes) :
    Query.runStatement library.parser requestId (library.statement (Ast.plainSelect name none)) =
      Query.scan requestId (Query.fullKey (Query.plainName name) []) := rfl

private theorem plainSelect_like {stem : Bytes} {escapeChar : Option Bytes}
    (key : library.IsKey column)
    (requestId : Nat) (name : Bytes) :
    Query.runStatement library.parser requestId (library.statement
        (Ast.plainSelect name (some (Ast.startsWith column stem escapeChar)))) =
      Query.scan requestId (Query.fullKey (Query.plainName name) stem) := by
  change Query.parseSelect library.parser requestId (.select [.table name]
    (some (library.condition (Ast.startsWith column stem escapeChar)))) = _
  unfold Query.parseSelect
  simp only [RowLiteral.tableName_eq, condition_startsWith key]

private theorem works_of_selectAll
    (answerable : StatementAnswerable library.parser site (clock ticks) bus
      (library.statement (Ast.plainSelect name none))) : bus.persistent.Works := answerable

private theorem works_of_selectLike {stem : Bytes} {escapeChar : Option Bytes}
    (key : library.IsKey column)
    (answerable : StatementAnswerable library.parser site (clock ticks) bus
      (library.statement (Ast.plainSelect name (some (Ast.startsWith column stem escapeChar))))) :
    bus.persistent.Works := by
  change SelectAnswerable library.parser (clock ticks) bus (.select [.table name]
    (some (library.condition (Ast.startsWith column stem escapeChar)))) at answerable
  unfold SelectAnswerable at answerable
  simp only [RowLiteral.tableName_eq, condition_startsWith key] at answerable
  exact answerable

private theorem delete_executed (monotone : Monotone clock) (attached : bus.persistent.Attached)
    (key : library.IsKey column) (literal : SqlLibrary.LiteralText value text)
    (answerable : StatementAnswerable library.parser site (clock ticks) bus
      (library.statement (Ast.plainDelete name (some (Ast.equals column value))))) :
    ExecutedInFull library site clock requestId ticks bus
      (Ast.plainDelete name (some (Ast.equals column value))) := by
  change DeleteAnswerable library.parser bus [.table name]
    (some (library.condition (Ast.equals column value))) at answerable
  unfold DeleteAnswerable at answerable
  simp only [condition_equals key literal] at answerable
  rcases @delete_run library.parser (askedRow name column value) site clock ticks bus requestId
    monotone attached answerable key text literal.parsed with ⟨later, after, ran, others, -, gone⟩
  rw [askedRow_key literal] at others gone
  exact .delete key literal ran gone others

end Runs

section Insertion

variable {library : SqlLibrary} {site : Site} {clock : Nat → Instant} {requestId ticks : Nat}
  {bus : PermutiveBus} {name : Bytes} {rows : List (List Ast.Expr)} {texts : List (Bytes × Bytes)}

def readRows (library : SqlLibrary) (rows : List (List Ast.Expr)) : List (List Sql.Expr) :=
  rows.map (List.map library.stored)

/-- All calls of an `INSERT` behind the first one, which asks for the schema. -/
def plainCalls (library : SqlLibrary) (name : Bytes) (rows : List (List Ast.Expr))
    (texts : List (Bytes × Bytes)) (schemaData : Option Bytes) : List DataBusCall :=
  SqlLibrary.writes (Query.plainName name) texts ++
    Query.schemaCalls (Query.plainName name) schemaData (readRows library rows)

private theorem plainInsert_eq (constants : rows.mapM library.rowText = some texts)
    (requestId : Nat)
    (name : Bytes) :
    Query.runStatement library.parser requestId (library.statement (Ast.plainInsert name rows)) =
      (DataBus.readValue (Query.schemaKey (Query.plainName name))).bind (fun schemaData =>
        (performAll (plainCalls library name rows texts schemaData)).bind
          (fun _ => .done [createOk requestId])) := by
  have written := SqlLibrary.flatMap_rowCalls constants (Query.plainName name)
  unfold plainCalls readRows
  rw [← written]
  exact Query.parseInsert_eq name _

private theorem schemaCalls_cases (tableName : Bytes) (schemaData : Option Bytes)
    (rows : List (List Sql.Expr)) :
    (Query.schemaCalls tableName schemaData rows = [] ∧ (schemaData = none → rows = [])) ∨
      (schemaData = none ∧ rows ≠ [] ∧ Query.schemaCalls tableName schemaData rows =
        [.writeValue (Query.schemaKey tableName) (Query.schemaText (rows.headD []).length)]) := by
  cases schemaData with
  | some known => exact Or.inl ⟨rfl, fun absent => by cases absent⟩
  | none =>
      cases rows with
      | nil => exact Or.inl ⟨rfl, fun _ => rfl⟩
      | cons first rows => exact Or.inr ⟨rfl, List.cons_ne_nil _ _, rfl⟩

private theorem mem_plainCalls {schemaData : Option Bytes} {request : DataBusCall}
    (member : request ∈ plainCalls library name rows texts schemaData) :
    (∃ text ∈ texts, request =
      .writeValue (Query.fullKey (Query.plainName name) text.1) text.2) ∨
    (schemaData = none ∧ rows ≠ [] ∧ request =
      .writeValue (Query.schemaKey (Query.plainName name))
        (Query.schemaText (rows.headD []).length)) := by
  rcases List.mem_append.mp member with row | schema
  · obtain ⟨text, there, rfl⟩ := List.mem_map.mp row
    exact Or.inl ⟨text, there, rfl⟩
  · rcases schemaCalls_cases (Query.plainName name) schemaData (readRows library rows) with
      ⟨nothing, -⟩ | ⟨absent, some, calls⟩
    · rw [nothing] at schema
      cases schema
    · rw [calls, List.mem_singleton] at schema
      refine Or.inr ⟨absent, fun none => some (by rw [none]; rfl), ?_⟩
      rw [schema]
      cases rows with
      | nil => rfl
      | cons first rows =>
          change DataBusCall.writeValue _ (Query.schemaText (first.map library.stored).length) = _
          rw [List.length_map]
          rfl

private theorem plainCalls_updates (schemaData : Option Bytes) :
    ∀ request ∈ plainCalls library name rows texts schemaData, request.Updates := by
  intro request member
  rcases mem_plainCalls member with ⟨text, -, rfl⟩ | ⟨-, -, rfl⟩
  · trivial
  · trivial

private theorem texts_ne_nil (constants : rows.mapM library.rowText = some texts) :
    texts ≠ [] ↔ rows ≠ [] := by
  rw [← List.length_pos_iff, ← List.length_pos_iff, mapM_length constants]

private theorem plainCalls_opens (constants : rows.mapM library.rowText = some texts)
    (now : Instant)
    (other : Bytes) :
    Opens (plainCalls library name rows texts
        ((bus.cell site (Query.schemaKey (Query.plainName name))).value now)) other ↔
      InsertOpens site now bus name texts other := by
  unfold InsertOpens
  rw [not_shown_iff]
  constructor
  · rintro ⟨request, member, about, written, space⟩
    rcases mem_plainCalls member with ⟨text, there, rfl⟩ | ⟨absent, some, rfl⟩
    · cases written
      exact Or.inl ⟨text, there, space⟩
    · cases written
      exact Or.inr ⟨absent, (texts_ne_nil constants).mpr some, space⟩
  · rintro (⟨text, there, space⟩ | ⟨absent, some, space⟩)
    · refine ⟨.writeValue (Query.fullKey (Query.plainName name) text.1) text.2, ?_, _, rfl, space⟩
      exact List.mem_append_left _ (List.mem_map.mpr ⟨text, there, rfl⟩)
    · rcases schemaCalls_cases (Query.plainName name)
        ((bus.cell site (Query.schemaKey (Query.plainName name))).value now)
        (readRows library rows) with ⟨-, none⟩ | ⟨-, -, calls⟩
      · exact absurd (List.map_eq_nil_iff.mp (none absent)) ((texts_ne_nil constants).mp some)
      · refine ⟨.writeValue (Query.schemaKey (Query.plainName name))
          (Query.schemaText ((readRows library rows).headD []).length), ?_, _, rfl, space⟩
        unfold plainCalls
        rw [calls]
        exact List.mem_append_right _ (List.mem_singleton_self _)

/-- What the key of a row shows in the end: the row, unless the new schema has its key. -/
def insertedValue (name key value : Bytes) (rows : List (List Ast.Expr))
    (schemaData : Option Bytes) : Bytes :=
  if Query.fullKey (Query.plainName name) key = Query.schemaKey (Query.plainName name) ∧
      schemaData = none then
    Query.schemaText (rows.headD []).length
  else value

private theorem plainCalls_last {key value : Bytes} (schemaData : Option Bytes)
    (constants : rows.mapM library.rowText = some texts)
    (last : texts.reverse.lookup key = some value) :
    ∃ front back, plainCalls library name rows texts schemaData =
        front ++ .writeValue (Query.fullKey (Query.plainName name) key)
          (insertedValue name key value rows schemaData) :: back ∧
      ∀ request ∈ back, request.key? ≠ some (Query.fullKey (Query.plainName name) key) := by
  obtain ⟨before, behind, split, others⟩ := SqlLibrary.split_of_lookup last
  have rowsThere : rows ≠ [] := (texts_ne_nil constants).mp (by rw [split]; simp)
  unfold insertedValue
  by_cases replaced : Query.fullKey (Query.plainName name) key =
      Query.schemaKey (Query.plainName name) ∧ schemaData = none
  · rw [if_pos replaced]
    refine ⟨SqlLibrary.writes (Query.plainName name) texts, [], ?_,
      fun request member => by cases member⟩
    rcases schemaCalls_cases (Query.plainName name) schemaData (readRows library rows) with
      ⟨-, none⟩ | ⟨-, -, calls⟩
    · exact absurd (List.map_eq_nil_iff.mp (none replaced.2)) rowsThere
    · unfold plainCalls
      rw [calls, replaced.1]
      obtain ⟨first, rest, rfl⟩ := List.exists_cons_of_ne_nil rowsThere
      change _ ++ [DataBusCall.writeValue _
        (Query.schemaText (first.map library.stored).length)] = _
      rw [List.length_map]
      rfl
  · rw [if_neg replaced]
    refine ⟨SqlLibrary.writes (Query.plainName name) before,
      SqlLibrary.writes (Query.plainName name) behind ++
        Query.schemaCalls (Query.plainName name) schemaData (readRows library rows), ?_, ?_⟩
    · unfold plainCalls SqlLibrary.writes
      rw [split, List.map_append, List.map_cons, List.append_assoc]
      rfl
    · intro request member asked
      rcases List.mem_append.mp member with row | schema
      · obtain ⟨text, there, rfl⟩ := List.mem_map.mp row
        exact others text there (List.append_cancel_left (Option.some.inj asked))
      · rcases schemaCalls_cases (Query.plainName name) schemaData (readRows library rows) with
          ⟨nothing, -⟩ | ⟨absent, -, calls⟩
        · rw [nothing] at schema
          cases schema
        · rw [calls, List.mem_singleton] at schema
          subst schema
          exact replaced ⟨(Option.some.inj asked).symm, absent⟩

private theorem plainCalls_accepted (constants : rows.mapM library.rowText = some texts)
    (answerable : InsertAnswerable library.parser site (clock ticks) bus name
      (some (.values (readRows library rows)))) :
    ∀ request ∈ plainCalls library name rows texts
        ((bus.cell site (Query.schemaKey (Query.plainName name))).value (clock ticks)),
      bus.persistent.Accepts site request := by
  obtain ⟨-, stores, schemaStores⟩ := answerable
  intro request member
  rcases List.mem_append.mp member with row | schema
  · rw [← SqlLibrary.flatMap_rowCalls constants, List.mem_flatMap] at row
    obtain ⟨values, there, call⟩ := row
    cases values with
    | nil => cases call
    | cons pk columns =>
        rw [Query.rowCalls, List.mem_singleton] at call
        subst call
        exact stores pk columns there
  · rcases schemaCalls_cases (Query.plainName name)
      ((bus.cell site (Query.schemaKey (Query.plainName name))).value (clock ticks))
      (readRows library rows) with ⟨nothing, -⟩ | ⟨absent, some, calls⟩
    · rw [nothing] at schema
      cases schema
    · rw [calls, List.mem_singleton] at schema
      subst schema
      exact schemaStores ((not_shown_iff _ _).mpr absent) some

/-- `INSERT` stores its rows; of the other keys it can change those alone that come to light with
a database that it opens. -/
theorem insert_effect (monotone : Monotone clock) (attached : bus.persistent.Attached)
    (constants : rows.mapM library.rowText = some texts)
    (answerable : InsertAnswerable library.parser site (clock ticks) bus name
      (some (.values (readRows library rows)))) :
    ∃ later after, Ran library site clock requestId ticks bus (Ast.plainInsert name rows)
        [createOk requestId] later after ∧
      (∀ key value, texts.reverse.lookup key = some value →
        ShowsFrom site (clock later) after (Query.fullKey (Query.plainName name) key)
          (some (insertedValue name key value rows
            ((bus.cell site (Query.schemaKey (Query.plainName name))).value (clock ticks))))) ∧
      ∀ other, (∀ text ∈ texts, other ≠ Query.fullKey (Query.plainName name) text.1) →
        other ≠ Query.schemaKey (Query.plainName name) →
        (KeepsShowing site (clock later) bus after other ↔
          ¬ (InsertOpens site (clock ticks) bus name texts other ∧ Hidden site bus other)) := by
  have updates := @plainCalls_updates library name rows texts
    ((bus.cell site (Query.schemaKey (Query.plainName name))).value (clock ticks))
  have accepted := plainCalls_accepted constants answerable
  rcases @run_read_then site clock ticks bus (Query.schemaKey (Query.plainName name)) _ monotone
    attached answerable.1 (plainCalls library name rows texts) updates accepted
    [createOk requestId] with ⟨middle, between, later, after, same, copied, wrote, ran, kept⟩
  have keptBetween : Kept site bus.persistent between.persistent := by
    rw [same]
    exact .refl attached
  refine ⟨later, after, ?_, ?_, ?_⟩
  · unfold Ran execute
    rw [plainInsert_eq constants]
    exact ran
  · intro key value last now ordered
    obtain ⟨front, back, calls, others⟩ := @plainCalls_last library name rows texts key value
      ((bus.cell site (Query.schemaKey (Query.plainName name))).value (clock ticks)) constants last
    rw [calls] at updates accepted wrote
    have stored := performAll_write monotone keptBetween updates accepted others wrote
    unfold Cell.value PermutiveBus.cell
    rw [remains_none_later ordered stored.1]
    exact stored.2
  · intro other notRow notSchema
    have mentioned : ∀ request ∈ plainCalls library name rows texts
        ((bus.cell site (Query.schemaKey (Query.plainName name))).value (clock ticks)),
        request.key? ≠ some other := by
      intro request member asked
      rcases mem_plainCalls member with ⟨text, there, rfl⟩ | ⟨-, -, rfl⟩
      · exact notRow text there (Option.some.inj asked).symm
      · exact notSchema (Option.some.inj asked).symm
    rw [performAll_keeps_iff monotone keptBetween updates accepted mentioned same
      (copied other notSchema) wrote, plainCalls_opens constants]

end Insertion

section Statements

variable {library : SqlLibrary} {site : Site} {clock : Nat → Instant} {disk : Disk}
  {requestId ticks : Nat} {bus : PermutiveBus} {statement : Ast.Statement}

private theorem plain_of_supported {update : RowUpdate}
    (supported : ¬ library.Unsupported update.statement) :
    ∀ assignment ∈ update.first :: update.rest,
      assignment.value.anywhere Ast.isSubquery = false := by
  intro assignment member
  cases uses : assignment.value.anywhere Ast.isSubquery with
  | false => rfl
  | true => exact absurd (Or.inr (Or.inr (Or.inl ⟨assignment, member, uses⟩))) supported

private theorem ExecutedInFull.runsInFull (monotone : Monotone clock)
    (reachable : Reachable site clock disk ticks bus)
    (supported : ¬ library.Unsupported statement)
    (answerable : StatementAnswerable library.parser site (clock ticks) bus
      (library.statement statement))
    (executed : ExecutedInFull library site clock requestId ticks bus statement) :
    RunsInFull library site (clock ticks) bus statement := by
  cases executed with
  | selectRow key literal ran leaves => exact .selectRow key literal
  | selectAll lists => exact .selectAll lists.1
  | selectLike key plain lists => exact .selectLike key plain lists.1
  | delete key literal ran gone others => exact .delete key literal
  | update key literal asked updates resolved =>
      have updatable := (update_changes_assigned_iff monotone reachable key requestId).mp updates
      exact .update key literal asked (plain_of_supported supported) updatable resolved
  | @insert name rows texts later after constants ran stored others =>
      rcases @insert_effect library site clock requestId ticks bus name rows texts monotone
        reachable.attached constants answerable with ⟨ended, last, alsoRan, shows, keeps⟩
      have same := ran.symm.trans alsoRan
      simp only [Outcome.mk.injEq, true_and] at same
      obtain ⟨rfl, rfl⟩ := same
      refine .insert constants ?_ ?_
      · intro absent key value found collide
        have first := stored key value found (clock later) (Nat.le_refl _)
        have second := shows key value found (clock later) (Nat.le_refl _)
        unfold insertedValue at second
        rw [if_pos ⟨collide, (not_shown_iff _ _).mp absent⟩] at second
        exact Option.some_inj.mp (first.symm.trans second)
      · intro other notRow notSchema
        exact (keeps other notRow notSchema).mp (others other notRow notSchema)

private theorem RunsInFull.executed (monotone : Monotone clock)
    (reachable : Reachable site clock disk ticks bus)
    (answerable : StatementAnswerable library.parser site (clock ticks) bus
      (library.statement statement))
    (runs : RunsInFull library site (clock ticks) bus statement) :
    ExecutedInFull library site clock requestId ticks bus statement := by
  cases runs with
  | selectRow key literal =>
      exact selectRow_executed monotone reachable.attached key literal answerable
  | @selectAll name few =>
      have program := plainSelect_all library requestId name
      exact .selectAll ((lists_iff monotone (works_of_selectAll answerable) program).mpr few)
  | @selectLike name column stem escapeChar key plain few =>
      have program := @plainSelect_like library column stem escapeChar key requestId name
      exact .selectLike key plain
        ((lists_iff monotone (works_of_selectLike key answerable) program).mpr few)
  | delete key literal => exact delete_executed monotone reachable.attached key literal answerable
  | update key literal asked plain updatable resolved =>
      have updates := (update_changes_assigned_iff monotone reachable key requestId).mpr updatable
      exact .update key literal asked updates resolved
  | @insert name rows texts constants kept others =>
      rcases @insert_effect library site clock requestId ticks bus name rows texts monotone
        reachable.attached constants answerable with ⟨later, after, ran, shows, keeps⟩
      refine .insert constants ran ?_ ?_
      · intro key value found
        have shown := shows key value found
        unfold insertedValue at shown
        split at shown
        · rename_i replaced
          rw [kept ((not_shown_iff _ _).mpr replaced.2) key value found replaced.1]
          exact shown
        · exact shown
      · intro other notRow notSchema
        exact (keeps other notRow notSchema).mpr (others other notRow notSchema)

private theorem RunsInFull.inFull {now : Instant}
    (runs : RunsInFull library site now bus statement) :
    library.InFull statement := by
  cases runs with
  | selectRow key literal =>
      refine .select (.keyed (.equals key ?_))
      cases literal <;> trivial
  | selectAll few => exact .select .all
  | selectLike key plain few => exact .select (.like key plain)
  | delete key literal =>
      refine .delete ⟨_, rfl, .equals key ?_⟩
      cases literal <;> trivial
  | @update update text value key literal asked plain updatable resolved =>
      refine .update plain ⟨_, congrArg some (congrArg _ literal), .equals key ?_⟩
      cases asked <;> trivial
  | @insert name rows texts constants kept others =>
      have each : ∀ row ∈ rows, ∃ text, library.rowText row = some text := by
        intro row member
        have found : library.rowText row ∈ texts.map some := by
          rw [← mapM_eq_some_iff.mp constants]
          exact List.mem_map_of_mem member
        obtain ⟨text, -, isText⟩ := List.mem_map.mp found
        exact ⟨text, isText.symm⟩
      refine .insert ?_ ?_
      · intro row member empty
        obtain ⟨text, isText⟩ := each row member
        rw [empty] at isText
        cases isText
      · intro row member
        obtain ⟨text, isText⟩ := each row member
        exact SqlLibrary.plain_of_rowText isText

end Statements

section Texts

variable {library : SqlLibrary} {site : Site} {clock : Nat → Instant} {disk : Disk} {ticks : Nat}
  {bus : PermutiveBus} {sql : Bytes} {statements : List Ast.Statement}

/-- The text is answered with exactly one error, and no key shows another value. -/
def AnsweredWithError (library : SqlLibrary) (site : Site) (clock : Nat → Instant) (ticks : Nat)
    (bus : PermutiveBus) (sql : Bytes) (requestId : Nat) : Prop :=
  ∃ message later after,
    run (bothTiers site) clock (onTiers (Query.parseQuery library.parser sql requestId)) ticks
      bus = ⟨some [createError requestId errorMalformedOpcode message], later, after⟩ ∧
    LeavesValues site (clock later) bus after

def AnsweredWell (library : SqlLibrary) (site : Site) (clock : Nat → Instant) (ticks : Nat)
    (bus : PermutiveBus) (sql : Bytes) (requestId : Nat) : Prop :=
  ∃ responses,
    (run (bothTiers site) clock (onTiers (Query.parseQuery library.parser sql requestId)) ticks
      bus).result = some responses ∧ Query.NoError requestId responses

/-- The text is one statement, and that is executed in full. -/
def TextExecuted (library : SqlLibrary) (site : Site) (clock : Nat → Instant) (ticks : Nat)
    (bus : PermutiveBus) (requestId : Nat) (statements : List Ast.Statement) : Prop :=
  ∃ statement, statements = [statement] ∧
    ExecutedInFull library site clock requestId ticks bus statement

/-- The text is one statement, and that meets the condition. -/
def TextRunsInFull (library : SqlLibrary) (site : Site) (now : Instant) (bus : PermutiveBus)
    (statements : List Ast.Statement) : Prop :=
  ∃ statement, statements = [statement] ∧ RunsInFull library site now bus statement

/-- What is not supported is refused, and what is answered well is executed in full. -/
def RefusedOrFull (library : SqlLibrary) (site : Site) (clock : Nat → Instant) (ticks : Nat)
    (bus : PermutiveBus) (sql : Bytes) (requestId : Nat) (statements : List Ast.Statement) :
    Prop :=
  (library.TextUnsupported statements →
    AnsweredWithError library site clock ticks bus sql requestId) ∧
  (AnsweredWell library site clock ticks bus sql requestId →
    TextExecuted library site clock ticks bus requestId statements)

private theorem parsed_read (parsed : library.parseSql sql = some statements) :
    library.parser.parseSql sql = some (statements.map library.statement) := by
  change (library.parseSql sql).map _ = _
  rw [parsed]
  rfl

private theorem complaint_answered (monotone : Monotone clock) (attached : bus.persistent.Attached)
    {requestId : Nat} {program : BusProgram (List Response)}
    (complains : Query.Complains requestId program) {result : List Response} {ended : Nat}
    {last : PermutiveBus}
    (ran : run (bothTiers site) clock (onTiers program) ticks bus = ⟨some result, ended, last⟩) :
    ∃ message later after,
      run (bothTiers site) clock (onTiers program) ticks bus =
        ⟨some [createError requestId errorMalformedOpcode message], later, after⟩ ∧
      LeavesValues site (clock later) bus after := by
  rcases complains with ⟨message, rfl⟩ | ⟨key, message, rfl⟩
  · exact ⟨message, ticks, bus, rfl, .refl site (clock ticks) bus⟩
  · have reading : onTiers ((DataBus.readValue key).bind
        (fun _ => (return [createError requestId errorMalformedOpcode message]))) =
          (PermutiveBus.readValue key).bind
            (fun _ => .done [createError requestId errorMalformedOpcode message]) := rfl
    have readable : bus.Reads (clock ticks) key := by
      by_contra unreadable
      have refused : ¬ bus.Answers site (clock ticks) (.readValue key) := unreadable
      have stuck := @Kept.call_panics site _ bus (.refl attached) clock ticks _ refused
      rw [reading, run_bind] at ran
      change (run (bothTiers site) clock (PermutiveBus.readValue key) ticks bus).result = none
        at stuck
      rcases read : run (bothTiers site) clock (PermutiveBus.readValue key) ticks bus with
        ⟨found, later, after⟩
      rw [read] at stuck ran
      cases stuck
      cases congrArg Outcome.result ran
    rcases @run_readValue_leaves site clock ticks bus key monotone attached readable with
      ⟨reply, later, after, read, leaves⟩
    refine ⟨message, later, after, ?_, leaves⟩
    rw [reading, run_bind, read]
    rfl

theorem TextRunsInFull.supported {now : Instant}
    (runs : TextRunsInFull library site now bus statements) :
    ¬ library.TextUnsupported statements := by
  rcases runs with ⟨statement, same, runs⟩
  exact SqlLibrary.TextInFull.supported ⟨statement, same, runs.inFull⟩

private theorem answerable_single {statement : Ast.Statement}
    (parsed : library.parseSql sql = some [statement])
    {now : Instant} (answerable : QueryAnswerable library.parser site now bus sql) :
    StatementAnswerable library.parser site now bus (library.statement statement) := by
  unfold QueryAnswerable at answerable
  rw [parsed_read parsed] at answerable
  exact answerable

private theorem AnsweredWithError.not_well {requestId : Nat}
    (error : AnsweredWithError library site clock ticks bus sql requestId) :
    ¬ AnsweredWell library site clock ticks bus sql requestId := by
  rcases error with ⟨message, later, after, ran, -⟩
  rintro ⟨responses, answered, noError⟩
  rw [ran] at answered
  exact noError message (Option.some.inj answered).symm

/-- A text that is answered well is refused or executed in full exactly if it meets the
condition. -/
theorem refusedOrFull_of_well (monotone : Monotone clock)
    (reachable : Reachable site clock disk ticks bus)
    (parsed : library.parseSql sql = some statements) {requestId : Nat}
    (answerable : QueryAnswerable library.parser site (clock ticks) bus sql)
    (well : AnsweredWell library site clock ticks bus sql requestId) :
    RefusedOrFull library site clock ticks bus sql requestId statements ↔
      TextRunsInFull library site (clock ticks) bus statements := by
  constructor
  · rintro ⟨refused, full⟩
    obtain ⟨statement, rfl, executed⟩ := full well
    have supported : ¬ library.Unsupported statement := by
      intro unsupported
      exact (refused (Or.inr ⟨statement, List.mem_singleton_self _, unsupported⟩)).not_well well
    exact ⟨statement, rfl, executed.runsInFull monotone reachable supported
      (answerable_single parsed answerable)⟩
  · intro runs
    refine ⟨fun unsupported => absurd unsupported runs.supported, fun _ => ?_⟩
    obtain ⟨statement, rfl, runs⟩ := runs
    exact ⟨statement, rfl, runs.executed monotone reachable (answerable_single parsed answerable)⟩

/-- A text of several statements, or with something that the operations do not support, is
refused and leaves the bus, and every text that is answered without an error is executed in
full, if and only if it is one statement that can be executed in full, or the checks of the
operations refuse it and are come to, or it is supported and the bus panics. -/
theorem refused_or_full_iff (monotone : Monotone clock)
    (reachable : Reachable site clock disk ticks bus)
    (parsed : library.parseSql sql = some statements) (requestId : Nat) :
    RefusedOrFull library site clock ticks bus sql requestId statements ↔
      TextRunsInFull library site (clock ticks) bus statements ∨
        (Query.RefusesText library.parser (statements.map library.statement) ∧
          QueryAnswerable library.parser site (clock ticks) bus sql) ∨
        (¬ library.TextUnsupported statements ∧
          ¬ QueryAnswerable library.parser site (clock ticks) bus sql) := by
  have attached := reachable.attached
  have ends := @parseQuery_ends site clock _ ticks bus (.refl attached) library.parser sql
    requestId
  by_cases answerable : QueryAnswerable library.parser site (clock ticks) bus sql
  · rcases ends.returns answerable with ⟨result, later, after, ran, -, -⟩
    by_cases refused : Query.RefusesText library.parser (statements.map library.statement)
    · have complains := @Query.parseQuery_complains library.parser requestId sql _
        (parsed_read parsed) refused
      have error : AnsweredWithError library site clock ticks bus sql requestId :=
        complaint_answered monotone attached complains ran
      exact ⟨fun _ => Or.inr (Or.inl ⟨refused, answerable⟩),
        fun _ => ⟨fun _ => error, fun well => absurd well error.not_well⟩⟩
    · have yields := @Query.parseQuery_noError library.parser requestId sql _
        (parsed_read parsed) refused
      have well : AnsweredWell library site clock ticks bus sql requestId := by
        refine ⟨result, by rw [ran], ?_⟩
        exact run_yields (bothTiers site) clock yields.translate (congrArg Outcome.result ran)
      rw [refusedOrFull_of_well monotone reachable parsed answerable well]
      constructor
      · exact Or.inl
      · rintro (runs | ⟨impossible, -⟩ | ⟨-, impossible⟩)
        · exact runs
        · exact absurd impossible refused
        · exact absurd answerable impossible
  · have stuck := ends.panics answerable
    constructor
    · intro both
      refine Or.inr (Or.inr ⟨fun unsupported => ?_, answerable⟩)
      rcases both.1 unsupported with ⟨message, later, after, same, -⟩
      rw [same] at stuck
      cases stuck
    · intro holds
      have supported : ¬ library.TextUnsupported statements := by
        rcases holds with runs | ⟨-, impossible⟩ | ⟨supported, -⟩
        · exact runs.supported
        · exact absurd impossible answerable
        · exact supported
      refine ⟨fun unsupported => absurd unsupported supported, ?_⟩
      rintro ⟨responses, answered, -⟩
      cases stuck.symm.trans answered

end Texts

/-! ### Two rows, and two deletions -/

def twoRows : Bytes := asBytes "INSERT INTO t VALUES (1, 'a'), (-2, NULL)"

def twoRowsInsert : Ast.Statement :=
  Ast.plainInsert (asBytes "t")
    [[.value (.number (asBytes "1")), .value (.singleQuotedString (asBytes "a"))],
      [.other (asBytes "-2") [.value (.number (asBytes "2"))], .value .null]]

def insertLibrary : SqlLibrary where
  parseSql sql := if sql = twoRows then some [twoRowsInsert] else none
  display
    | .other text _ => text
    | _ => []
  toLowercase := id

private theorem twoRowsInsert_runs :
    RunsInFull insertLibrary openSite (stillClock 0) emptyBus twoRowsInsert := by
  have texts : [[Ast.Expr.value (.number (asBytes "1")),
        .value (.singleQuotedString (asBytes "a"))],
      [.other (asBytes "-2") [.value (.number (asBytes "2"))], .value .null]].mapM
        insertLibrary.rowText =
      some [(asBytes "1", asBytes "a"), (asBytes "-2", [])] := by
    decide +kernel
  refine .insert texts ?_ ?_
  · intro _ key value _ collide
    have table : Query.plainName (asBytes "t") = [0x74] := by decide +kernel
    have schema : (Query.schemaKey [0x74]).head? = some 0x5F := by decide +kernel
    have first := congrArg List.head? collide
    rw [table, schema] at first
    change some (0x74 : UInt8) = some 0x5F at first
    exact absurd first (by decide)
  · intro other _ _ hidden
    exact emptyBus_nothing_hidden other hidden.2

theorem two_rows_are_inserted :
    RefusedOrFull insertLibrary openSite stillClock 0 emptyBus twoRows 1 [twoRowsInsert] ∧
      TextExecuted insertLibrary openSite stillClock 0 emptyBus 1 [twoRowsInsert] := by
  refine ⟨?_, twoRowsInsert, rfl, ?_⟩
  · exact (refused_or_full_iff stillClock_monotone emptyBus_reachable (if_pos rfl) 1).mpr
      (Or.inl ⟨_, rfl, twoRowsInsert_runs⟩)
  · refine twoRowsInsert_runs.executed stillClock_monotone emptyBus_reachable ?_
    exact ⟨Or.inl rfl, fun _ _ _ => emptyBus_stores _, fun _ _ => emptyBus_stores _⟩

/-- `DELETE FROM t WHERE key = '…'` -/
def deleteByKey (key : Bytes) : Ast.Statement :=
  Ast.plainDelete (asBytes "t") (some (Ast.equals (asBytes "key") (.singleQuotedString key)))

def twoDeletes : Bytes :=
  asBytes "DELETE FROM t WHERE key = '1'; DELETE FROM t WHERE key = '2'"

def deleteLibrary : SqlLibrary where
  parseSql sql :=
    if sql = twoDeletes then some [deleteByKey (asBytes "1"), deleteByKey (asBytes "2")] else none
  display := fun _ => []
  toLowercase := id

/-- The second of two statements is dropped, and the reply is `OK`. -/
theorem second_statement_is_dropped :
    Query.parseQuery deleteLibrary.parser twoDeletes 1 =
        (do
          DataBus.deleteValue (asBytes "t:1")
          return [createOk 1]) ∧
      ¬ RefusedOrFull deleteLibrary openSite stillClock 0 emptyBus twoDeletes 1
        [deleteByKey (asBytes "1"), deleteByKey (asBytes "2")] := by
  have parsed : deleteLibrary.parser.parseSql twoDeletes =
      some [deleteLibrary.statement (deleteByKey (asBytes "1")),
        deleteLibrary.statement (deleteByKey (asBytes "2"))] := by
    change (if twoDeletes = twoDeletes then _ else _ : Option _).map _ = _
    rw [if_pos rfl]
    rfl
  have program : Query.parseQuery deleteLibrary.parser twoDeletes 1 =
      (do
        DataBus.deleteValue (asBytes "t:1")
        return [createOk 1]) := by
    have key : Query.fullKey (Query.plainName (asBytes "t")) (asBytes "1") = asBytes "t:1" := by
      decide +kernel
    have named : deleteLibrary.parser.toLowercase (asBytes "key") = asBytes "key" := rfl
    have condition : Query.parseWhereCondition deleteLibrary.parser
        (some (.binaryOpEq (.identifier (asBytes "key"))
          (.value (.singleQuotedString (asBytes "1"))))) = .keyEquals (asBytes "1") := by
      unfold Query.parseWhereCondition Query.checkKeyColumn Query.parseStringValue
      simp only [named, decide_true, if_true]
    unfold Query.parseQuery
    rw [parsed]
    change Query.parseDelete deleteLibrary.parser 1 [.table (asBytes "t")]
      (some (.binaryOpEq (.identifier (asBytes "key"))
        (.value (.singleQuotedString (asBytes "1"))))) = _
    unfold Query.parseDelete
    simp only [condition, key]
  refine ⟨program, ?_⟩
  intro both
  rcases both.1 (Or.inl (by decide)) with ⟨message, later, after, ran, -⟩
  rw [program] at ran
  have result := congrArg Outcome.result ran
  exact Query.createOk_noError 1 message (Option.some.inj result)

end TricPlus
