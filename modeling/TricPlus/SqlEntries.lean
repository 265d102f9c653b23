import TricPlus.SqlImport

/-!
What an SQL import writes, entry by entry, and what it counts: a schema entry for each table of
the plan, and for each row that an INSERT brings to a table, unless it is refused, the row
and its relationships.
-/

namespace TricPlus

open AtomicProgram

namespace Import

open SqlDump

/-- A row of values with the table of the plan it goes to. -/
structure ImportedRow where
  table : TablePlan
  values : List Expr
  deriving DecidableEq

namespace ImportedRow

/-- It has a value for each column and a key. -/
def Stored (row : ImportedRow) : Prop :=
  row.values.length = row.table.columns.length ∧ keyParts row.table row.values ≠ []

instance : DecidablePred Stored := fun _ => inferInstanceAs (Decidable (_ ∧ _))

end ImportedRow

inductive Entry where
  | schema (table : TablePlan)
  | row (row : ImportedRow)
  | rel (row : ImportedRow) (fk : ForeignKeyPlan) (fkValue : Text)
  deriving DecidableEq

namespace Entry

def key : Entry → Text
  | .schema table => schemaKey table
  | .row stored => rowKey stored.table (keyParts stored.table stored.values)
  | .rel stored fk fkValue => relKey fk fkValue stored.table (keyParts stored.table stored.values)

def value : Entry → Bytes
  | .schema table => (Analyser.renderSchemaEntry table).asBytes
  | .row stored => (rowValue stored.table stored.values).asBytes
  | .rel _ _ _ => []

def call (entry : Entry) : DataBusCall :=
  .writeValue entry.key.asBytes entry.value

end Entry

def relEntries (row : ImportedRow) (foreignKeys : List ForeignKeyPlan) : List Entry :=
  foreignKeys.filterMap (fun fk =>
    (columnText row.table row.values fk.column).map (fun fkValue => .rel row fk fkValue))

def rowEntries (row : ImportedRow) : List Entry :=
  if row.Stored then .row row :: relEntries row row.table.foreignKeys else []

def insertedRows (insert : Insert) : List (List Expr) :=
  match insert.source with
  | some (.values rows) => rows
  | _ => []

def foundRows (plan : StoragePlan) : Statement → List ImportedRow
  | .insert insert =>
      match findTable plan insert with
      | some table => (insertedRows insert).map (ImportedRow.mk table)
      | none => []
  | _ => []

def importedRows (plan : StoragePlan) (statements : List Statement) : List ImportedRow :=
  statements.flatMap (foundRows plan)

def importEntries (plan : StoragePlan) (statements : List Statement) : List Entry :=
  plan.tables.map Entry.schema ++ (importedRows plan statements).flatMap rowEntries

def counted (result : ImportResult) (rows : List ImportedRow) : ImportResult where
  tables := result.tables
  rows := result.rows + (rows.filter (fun row => row.Stored)).length
  relationships := result.relationships + ((rows.filter (fun row => row.Stored)).map
    (fun row => (relEntries row row.table.foreignKeys).length)).sum
  errors := result.errors + (rows.filter (fun row => ¬ row.Stored)).length

def importResult (plan : StoragePlan) (statements : List Statement) : ImportResult :=
  counted ⟨plan.tables.length, 0, 0, 0⟩ (importedRows plan statements)

/-- Entries written one after the other, and then this answer. -/
def writing {α : Type} (entries : List Entry) (result : α) : BusProgram α :=
  (performAll (entries.map Entry.call)).bind (fun _ => .done result)

theorem writing_cons {α : Type} (entry : Entry) (entries : List Entry) (result : α) :
    (DataBus.writeValue entry.key.asBytes entry.value).bind
      (fun _ => writing entries result) = writing (entry :: entries) result := rfl

private theorem writing_bind {α β : Type} (first second : List Entry) (result : α) {answer : β}
    {next : α → BusProgram β} (continued : next result = writing second answer) :
    (writing first result).bind next = writing (first ++ second) answer := by
  have behind : (writing first result).bind next =
      (performAll (first.map Entry.call)).bind (fun _ => next result) := by
    unfold writing
    rw [Program.bind_assoc]
    rfl
  rw [behind, continued]
  unfold writing
  rw [performAll_then, List.map_append]

private theorem writeRelationships_eq (row : ImportedRow) (foreignKeys : List ForeignKeyPlan)
    (count : Nat) :
    writeRelationships row.table row.values foreignKeys count =
      writing (relEntries row foreignKeys) (count + (relEntries row foreignKeys).length) := by
  induction foreignKeys generalizing count with
  | nil => rfl
  | cons fk foreignKeys ih =>
      unfold writeRelationships
      cases found : columnText row.table row.values fk.column with
      | none =>
          have skipped : relEntries row (fk :: foreignKeys) = relEntries row foreignKeys := by
            unfold relEntries
            rw [List.filterMap_cons, found]
            rfl
          simp only
          rw [ih, skipped]
      | some fkValue =>
          have taken : relEntries row (fk :: foreignKeys) =
              .rel row fk fkValue :: relEntries row foreignKeys := by
            unfold relEntries
            rw [List.filterMap_cons, found]
            rfl
          simp only [ih]
          rw [taken, List.length_cons, ← writing_cons, Nat.add_assoc, Nat.add_comm 1]
          rfl

theorem writeRow_eq (row : ImportedRow) :
    writeRow row.table row.values = writing (rowEntries row)
      (if row.Stored then some (relEntries row row.table.foreignKeys).length else none) := by
  unfold writeRow rowEntries
  by_cases short : row.values.length = row.table.columns.length
  · rw [if_neg (not_not_intro short)]
    by_cases keyless : keyParts row.table row.values = []
    · have refused : ¬ row.Stored := fun stored => stored.2 keyless
      rw [if_pos keyless, if_neg refused, if_neg refused]
      rfl
    · have stored : row.Stored := ⟨short, keyless⟩
      have counted : (writing (relEntries row row.table.foreignKeys)
          (0 + (relEntries row row.table.foreignKeys).length)).bind (fun count => .done (some count)) =
          writing (relEntries row row.table.foreignKeys ++ [])
            (some (relEntries row row.table.foreignKeys).length) := by
        apply writing_bind
        rw [Nat.zero_add]
        rfl
      rw [if_neg keyless, if_pos stored, if_pos stored, ← writing_cons, writeRelationships_eq]
      rw [List.append_nil] at counted
      exact congrArg (Program.bind (DataBus.writeValue _ _)) (funext fun _ => counted)
  · have refused : ¬ row.Stored := fun stored => short stored.1
    rw [if_pos short, if_neg refused, if_neg refused]
    rfl

theorem counted_cons_stored {row : ImportedRow} (stored : row.Stored) (result : ImportResult)
    (rows : List ImportedRow) :
    counted result (row :: rows) = counted
      { result with
        rows := result.rows + 1
        relationships := result.relationships + (relEntries row row.table.foreignKeys).length }
      rows := by
  unfold counted
  have kept : (row :: rows).filter (fun row => row.Stored) =
      row :: rows.filter (fun row => row.Stored) :=
    List.filter_cons_of_pos (decide_eq_true stored)
  have dropped : (row :: rows).filter (fun row => ¬ row.Stored) =
      rows.filter (fun row => ¬ row.Stored) :=
    List.filter_cons_of_neg (fun refused => (of_decide_eq_true refused) stored)
  rw [kept, dropped, List.length_cons, List.map_cons, List.sum_cons]
  simp only [Nat.add_assoc, Nat.add_comm 1]

theorem counted_cons_refused {row : ImportedRow} (refused : ¬ row.Stored) (result : ImportResult)
    (rows : List ImportedRow) :
    counted result (row :: rows) = counted { result with errors := result.errors + 1 } rows := by
  unfold counted
  have dropped : (row :: rows).filter (fun row => row.Stored) =
      rows.filter (fun row => row.Stored) :=
    List.filter_cons_of_neg (fun stored => refused (of_decide_eq_true stored))
  have kept : (row :: rows).filter (fun row => ¬ row.Stored) =
      row :: rows.filter (fun row => ¬ row.Stored) :=
    List.filter_cons_of_pos (decide_eq_true refused)
  rw [kept, dropped, List.length_cons]
  simp only [Nat.add_assoc, Nat.add_comm 1]

private theorem counted_append (result : ImportResult) (first second : List ImportedRow) :
    counted result (first ++ second) = counted (counted result first) second := by
  unfold counted
  simp only [List.filter_append, List.length_append, List.map_append, List.sum_append,
    Nat.add_assoc]

private theorem writeRows_eq (table : TablePlan) (rows : List (List Expr)) (result : ImportResult) :
    writeRows table rows result =
      writing ((rows.map (ImportedRow.mk table)).flatMap rowEntries)
        (counted result (rows.map (ImportedRow.mk table))) := by
  induction rows generalizing result with
  | nil => rfl
  | cons values rows ih =>
      have written := writeRow_eq ⟨table, values⟩
      unfold writeRows
      rw [List.map_cons, List.flatMap_cons]
      by_cases stored : (ImportedRow.mk table values).Stored
      · rw [if_pos stored] at written
        rw [counted_cons_stored stored]
        refine (congrArg (fun program => Program.bind program _) written).trans ?_
        apply writing_bind
        exact ih _
      · rw [if_neg stored] at written
        rw [counted_cons_refused stored]
        refine (congrArg (fun program => Program.bind program _) written).trans ?_
        apply writing_bind
        exact ih _

private theorem writeSchemas_eq (tables : List TablePlan) (result : ImportResult) :
    writeSchemas tables result = writing (tables.map Entry.schema)
      { result with tables := result.tables + tables.length } := by
  induction tables generalizing result with
  | nil => rfl
  | cons table tables ih =>
      unfold writeSchemas
      rw [List.map_cons, List.length_cons, ← writing_cons]
      simp only [ih, Nat.add_assoc, Nat.add_comm 1]
      rfl

private theorem writeInserts_eq (plan : StoragePlan) (statements : List Statement)
    (result : ImportResult) :
    writeInserts plan statements result =
      writing ((importedRows plan statements).flatMap rowEntries)
        (counted result (importedRows plan statements)) := by
  induction statements generalizing result with
  | nil => rfl
  | cons statement statements ih =>
      have rest : importedRows plan (statement :: statements) =
          foundRows plan statement ++ importedRows plan statements := rfl
      have skipped : foundRows plan statement = [] →
          importedRows plan (statement :: statements) = importedRows plan statements := by
        intro none
        rw [rest, none, List.nil_append]
      cases statement with
      | createTable create =>
          unfold writeInserts
          rw [skipped rfl]
          exact ih result
      | other =>
          unfold writeInserts
          rw [skipped rfl]
          exact ih result
      | insert insert =>
          unfold writeInserts
          cases found : findTable plan insert with
          | none =>
              have nothing : foundRows plan (.insert insert) = [] := by
                simp only [foundRows, found]
              rw [skipped nothing]
              exact ih result
          | some table =>
              have here : foundRows plan (.insert insert) =
                  (insertedRows insert).map (ImportedRow.mk table) := by
                simp only [foundRows, found]
              simp only
              unfold insertedRows at here
              cases given : insert.source with
              | none =>
                  rw [given] at here
                  rw [skipped here]
                  exact ih result
              | some source =>
                  rw [given] at here
                  cases source with
                  | other =>
                      rw [skipped here]
                      exact ih result
                  | values rows =>
                      simp only at here
                      rw [rest, here, List.flatMap_append, counted_append]
                      simp only [writeRows_eq]
                      apply writing_bind
                      exact ih _

theorem parseImport_eq (statements : List Statement) (plan : StoragePlan) :
    parseImport statements plan =
      writing (importEntries plan statements) (importResult plan statements) := by
  unfold parseImport importEntries importResult
  rw [writeSchemas_eq, Nat.zero_add]
  apply writing_bind
  exact writeInserts_eq plan statements _

theorem importEntries_of_no_table {plan : StoragePlan} (none : plan.tables = [])
    (statements : List Statement) : importEntries plan statements = [] := by
  have rows : importedRows plan statements = [] := by
    apply List.flatMap_eq_nil_iff.mpr
    intro statement _
    cases statement with
    | createTable create => rfl
    | other => rfl
    | insert insert =>
        unfold foundRows findTable
        rw [none]
        rfl
  unfold importEntries
  rw [none, rows]
  rfl

theorem rows_add_errors (plan : StoragePlan) (statements : List Statement) :
    (importResult plan statements).rows + (importResult plan statements).errors =
      (importedRows plan statements).length := by
  have parts := List.length_eq_length_filter_add (l := importedRows plan statements)
    (fun row => decide row.Stored)
  unfold importResult counted
  rw [parts]
  simp only [Nat.zero_add, decide_not]

end Import

end TricPlus
