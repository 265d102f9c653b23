import TricPlus.ExportedLiterals
import TricPlus.ExportedRows

/-!
Tables as the SQL export writes them and as the import reads them again.

The text of a key comes into every column that is marked, and a column gets a line of the value as
long as there is one.  So a table is stored again as it was if it has one column of the key and its
rows have as many lines as other columns.
-/

namespace TricPlus

open AtomicProgram
open Separated SqlLiteral

namespace SqlExport

open SqlDump Analyser Import LiteralReader

/-! ### From the export to the import -/

def storedRow (tableName : Text) (row : Text × Text) : Bytes × Bytes :=
  ((tableName ++ ":".toList ++ row.1).asBytes, row.2.asBytes)

/-- INSERT statements one behind the other, and the values that are read of each. -/
inductive ReadsInserts (reader : LiteralReader) (dialect : Dialect) (tableName : Text) :
    Text → List (List Expr) → Prop where
  | nil : ReadsInserts reader dialect tableName [] []
  | cons {whole text behind : Text} {exprs : List Expr} {others : List (List Expr)}
      (begins : whole =
        "INSERT INTO ".toList ++ quoteTableName tableName dialect ++ " VALUES (".toList ++ text)
      (reads : reader.ReadsValues dialect text exprs (";\n".toList ++ behind))
      (rest : ReadsInserts reader dialect tableName behind others) :
      ReadsInserts reader dialect tableName whole (exprs :: others)

/-- The statement creates the table that a schema entry tells of. -/
structure CreatesTable (dialect : Dialect) (tableName schema : Text) (create : CreateTable) :
    Prop where
  name : create.name = quoteTableName tableName dialect
  columns : create.columns.map ColumnDef.name = (createColumns schema).map Prod.fst
  primaryKey : findPrimaryKeyColumns create.columns create.constraints = createPkColumns schema
  foreignKeys : findForeignKeys create.constraints = []

def fileStatements (dialect : Dialect) (tableName : Text) (create : CreateTable)
    (rows : List (List Expr)) : List Statement :=
  .createTable create :: rows.map (fun exprs =>
    .insert ⟨quoteTableName tableName dialect, [], some (.values [exprs])⟩)

section Statements

variable (alphanumeric : Alphanumeric) (uppercase : Uppercase) (reader : LiteralReader)
  (dialect : Dialect) (tableName schema : Text) (create : CreateTable) (rows : List (Text × Text))

/-- Each text that is exported of the rows is one literal where it stands; the whole is read as one
INSERT for each row and as nothing else; and the import of these writes a schema entry and then
the rows, as they were stored. -/
structure TableReproduced : Prop where
  inPlace : ∀ row ∈ rows,
    InPlace uppercase reader dialect (rowValues (parseSchemaColumns schema) row.1 row.2)
  whole : ∃ text exprs,
    (∀ file : TextFile, (∀ text, file.write text = .ok ()) → ∀ written,
      writeRows uppercase file tableName dialect (parseSchemaColumns schema)
        (rows.map (storedRow tableName)) written =
          .ok { written with
            text := written.text ++ text
            entries := written.entries + rows.length }) ∧
    (∀ others, ReadsInserts reader dialect tableName text others ↔ others = exprs) ∧
    ∃ entry result,
      parseImport (fileStatements dialect tableName create exprs)
          (analyseStatements alphanumeric (fileStatements dialect tableName create exprs)) =
        (performAll (((schemaStem ++ tableName.asBytes, entry) ::
          rows.map (storedRow tableName)).map
            (fun pair => DataBusCall.writeValue pair.1 pair.2))).bind (fun _ => .done result)

/-- The import keeps the name of the table; and if there are rows, one column is of the key, and
each row has a line for every other column. -/
structure Reimportable : Prop where
  plain : parseTableNameRaw alphanumeric tableName = tableName
  named : tableName ≠ []
  oneKey : rows ≠ [] → (createPkColumns schema).length = 1
  lines : ∀ row ∈ rows,
    row.2.count '\n' + 1 = ((parseSchemaColumns schema).filter (fun column => !column.isPk)).length ∨
      row.2 = [] ∧ ∀ column ∈ parseSchemaColumns schema, column.isPk = true

/-- All texts that the export places in columns are read back. -/
def TextsTravel : Prop :=
  ∀ row ∈ rows, ∀ placed ∈ rowValues (parseSchemaColumns schema) row.1 row.2,
    placed.2 = [] ∨ WritesItself uppercase reader dialect placed.2 placed.1.dataType

end Statements

section Rows

variable {uppercase : Uppercase} {reader : LiteralReader} {dialect : Dialect}
  {tableName schema text : Text} {columns : List SchemaColumn} {rows : List (Text × Text)}

private theorem lossyText_asBytes (text : Text) : lossyText text.asBytes = text := by
  have whole : Utf8.wellFormed text.asBytes = true := by
    rw [asBytes_eq]
    exact Utf8.wellFormed_encoded text
  unfold lossyText
  rw [Utf8.lossy_of_wellFormed whole]
  change ((String.fromUTF8? (String.ofList text).toUTF8.toList.toByteArray).getD "").toList = text
  have back : (String.ofList text).toUTF8.toList.toByteArray = (String.ofList text).toUTF8 :=
    ByteLists.toList_injective (ByteLists.toList_toByteArray _)
  rw [back]
  unfold String.fromUTF8?
  rw [dif_pos (show (String.ofList text).toUTF8.IsValidUTF8 from (String.ofList text).isValidUTF8)]
  exact String.toList_ofList

/-- The INSERT of a row. -/
def rowStatement (uppercase : Uppercase) (dialect : Dialect) (tableName : Text)
    (columns : List SchemaColumn) (row : Text × Text) : Text :=
  insertStatement uppercase tableName dialect (rowValues columns row.1 row.2)

private theorem drop_storedKey (row : Text × Text) :
    (lossyText (storedRow tableName row).1).drop (tableName.length + 1) = row.1 := by
  have length : tableName.length + 1 = (tableName ++ ":".toList).length := by
    rw [List.length_append]
    rfl
  rw [storedRow, lossyText_asBytes, length, List.drop_left]

private theorem writeRows_taken {file : TextFile} (takes : ∀ text, file.write text = .ok ())
    (rows : List (Text × Text)) (written : Written) :
    writeRows uppercase file tableName dialect columns (rows.map (storedRow tableName)) written =
      .ok { written with
        text := written.text ++ rows.flatMap (rowStatement uppercase dialect tableName columns)
        entries := written.entries + rows.length } := by
  induction rows generalizing written with
  | nil => simp only [List.map_nil, writeRows, List.flatMap_nil, List.append_nil, List.length_nil,
      Nat.add_zero]
  | cons row rows ih =>
      have placed := @drop_storedKey tableName row
      have value : lossyText (storedRow tableName row).2 = row.2 := lossyText_asBytes row.2
      have taken : ∀ text, written.write file text = .ok { written with text := written.text ++ text } := by
        intro text
        unfold Written.write
        rw [takes text]
      rw [List.map_cons]
      generalize storedRow tableName row = stored at placed value
      obtain ⟨key, valueBytes⟩ := stored
      unfold writeRows
      simp only at placed value
      simp only [placed, value, taken]
      refine (ih _).trans ?_
      rw [List.flatMap_cons, List.length_cons, ← List.append_assoc, Nat.add_assoc,
        Nat.add_comm 1]
      rfl

private theorem readsInserts_unique {exprs others : List (List Expr)}
    (reads : ReadsInserts reader dialect tableName text exprs)
    (again : ReadsInserts reader dialect tableName text others) : others = exprs := by
  induction reads generalizing others with
  | nil =>
      cases again with
      | nil => rfl
      | cons begins _ _ => cases begins
  | cons begins reads _ ih =>
      cases again with
      | nil => cases begins
      | cons begins' reads' rest' =>
          have same := List.append_cancel_left (begins.symm.trans begins')
          rw [← same] at reads'
          obtain ⟨rfl, left⟩ := readsValues_unique reads reads'
          rw [List.append_cancel_left left] at rest'
          rw [ih rest']

private theorem readsInserts_of_travels (rows : List (Text × Text))
    (given : ∀ row ∈ rows, rowValues columns row.1 row.2 ≠ [])
    (travels : ∀ row ∈ rows, ∀ placed ∈ rowValues columns row.1 row.2,
      LiteralTravels uppercase reader dialect placed.2 placed.1.dataType) :
    ∃ exprs, ReadsInserts reader dialect tableName
        (rows.flatMap (rowStatement uppercase dialect tableName columns)) exprs ∧
      List.Forall₂ (fun row exprs =>
        exprs.map parseValue = (rowValues columns row.1 row.2).map Prod.snd) rows exprs := by
  induction rows with
  | nil => exact ⟨[], .nil, .nil⟩
  | cons row rows ih =>
      obtain ⟨someHere, given⟩ := List.forall_mem_cons.mp given
      obtain ⟨travelsHere, travels⟩ := List.forall_mem_cons.mp travels
      obtain ⟨others, rest, placed⟩ := ih given travels
      obtain ⟨exprs, reads, texts⟩ := readsValues_of_travels someHere travelsHere
        (";\n".toList ++ rows.flatMap (rowStatement uppercase dialect tableName columns))
      refine ⟨exprs :: others, .cons ?_ reads rest, .cons texts placed⟩
      rw [List.flatMap_cons]
      unfold rowStatement insertStatement
      rw [List.append_assoc, List.append_assoc]
      rfl

end Rows

section Plan

variable {alphanumeric : Alphanumeric} {dialect : Dialect} {tableName schema : Text}
  {create : CreateTable} {table : TablePlan}

private theorem unquoted_quoteTableName (name : Text) (dialect : Dialect) :
    unquoted (quoteTableName name dialect) = unquoted name := by
  cases dialect with
  | mysql =>
      unfold quoteTableName unquoted
      rw [List.filter_append, List.filter_append]
      exact List.append_nil _
  | _ => rfl

private theorem unquoted_kept (plain : parseTableNameRaw alphanumeric tableName = tableName) :
    unquoted tableName = tableName := by
  refine List.filter_sublist.eq_of_length_le ?_
  conv => lhs; rw [← plain]
  exact List.length_filter_le ..

structure Planned (alphanumeric : Alphanumeric) (tableName schema : Text) (table : TablePlan) :
    Prop where
  name : table.name = parseTableNameRaw alphanumeric tableName
  columns : table.columns.map ColumnPlan.name = (createColumns schema).map Prod.fst
  primaryKey : table.primaryKey = createPkColumns schema
  foreignKeys : table.foreignKeys = []
  marked : ∀ column ∈ table.columns, column.isPrimaryKey = decide (column.name ∈ table.primaryKey)

theorem CreatesTable.planned (creates : CreatesTable dialect tableName schema create)
    (planned : analyseCreateTable alphanumeric create = some table) :
    Planned alphanumeric tableName schema table := by
  unfold analyseCreateTable at planned
  simp only at planned
  split at planned
  · cases planned
  · cases planned
    refine ⟨?_, ?_, creates.primaryKey, creates.foreignKeys, ?_⟩
    · unfold parseTableNameRaw
      rw [creates.name, unquoted_quoteTableName]
    · rw [← creates.columns, List.map_map]
      rfl
    · intro column member
      obtain ⟨definition, -, rfl⟩ := List.mem_map.mp member
      rfl

end Plan

section Row

variable {alphanumeric : Alphanumeric} {tableName schema pkValue value : Text} {table : TablePlan}
  {marks : List Bool} {count : Nat} {exprs : List Expr}

private theorem length_places_le : (places marks count).length ≤ marks.length := by
  induction marks generalizing count with
  | nil => exact Nat.le_refl 0
  | cons mark marks ih =>
      cases mark with
      | true => exact Nat.succ_le_succ ih
      | false =>
          cases count with
          | zero => exact Nat.le_succ_of_le ih
          | succ count => exact Nat.succ_le_succ ih

private theorem places_full_iff : (places marks count).length = marks.length ↔
    (marks.filter (fun mark => !mark)).length ≤ count := by
  constructor
  · induction marks generalizing count with
    | nil => exact fun _ => Nat.zero_le count
    | cons mark marks ih =>
        cases mark with
        | true => exact fun same => ih (Nat.succ.inj same)
        | false =>
            cases count with
            | zero =>
                intro same
                have less := @length_places_le marks 0
                change (places marks 0).length = marks.length + 1 at same
                omega
            | succ count => exact fun same => Nat.succ_le_succ (ih (Nat.succ.inj same))
  · exact fun enough => congrArg List.length (places_enough enough)

private theorem Planned.flags (planned : Planned alphanumeric tableName schema table)
    (nodup : ((createColumns schema).map Prod.fst).Nodup) :
    table.columns.map ColumnPlan.isPrimaryKey = (parseSchemaColumns schema).map SchemaColumn.isPk := by
  have heads : (createColumns schema).map Prod.fst =
      (schemaParts schema).map (fun parts => parts.headD "unknown".toList) := by
    unfold createColumns
    rw [List.map_map]
    rfl
  have byName : table.columns.map ColumnPlan.isPrimaryKey =
      (table.columns.map ColumnPlan.name).map (fun name => decide (name ∈ table.primaryKey)) := by
    rw [List.map_map]
    exact List.map_congr_left planned.marked
  rw [byName, planned.columns, planned.primaryKey, heads]
  rw [heads] at nodup
  unfold parseSchemaColumns
  rw [List.map_map, List.map_map]
  apply List.map_congr_left
  intro parts member
  have found : parts.headD "unknown".toList ∈ createPkColumns schema ↔ partsPk parts = true := by
    unfold createPkColumns
    rw [List.mem_map]
    constructor
    · rintro ⟨other, there, same⟩
      obtain ⟨listed, marked⟩ := List.mem_filter.mp there
      rw [← List.inj_on_of_nodup_map nodup listed member same]
      exact marked
    · exact fun marked => ⟨parts, List.mem_filter.mpr ⟨member, marked⟩, rfl⟩
  exact Bool.eq_iff_iff.mpr (decide_eq_true_iff.trans found)

private theorem placed_row (planned : Planned alphanumeric tableName schema table)
    (nodup : ((createColumns schema).map Prod.fst).Nodup)
    (texts : exprs.map parseValue =
      (rowValues (parseSchemaColumns schema) pkValue value).map Prod.snd) :
    Placed (table.columns.map ColumnPlan.isPrimaryKey) pkValue (value.splitOn '\n')
      (rowTexts ⟨table, exprs⟩) := by
  rw [planned.flags nodup]
  exact placed_iff.mp texts.symm

private theorem keyParts_placed (planned : Planned alphanumeric tableName schema table)
    (full : exprs.length = table.columns.length)
    (keyed : ∀ pair ∈ (table.columns.map ColumnPlan.isPrimaryKey).zip (rowTexts ⟨table, exprs⟩),
      pair.1 = true → pair.2 = pkValue) :
    keyParts table exprs = List.replicate (createPkColumns schema).length pkValue := by
  have each : ∀ name ∈ table.primaryKey, columnText table exprs name = some pkValue := by
    intro name primary
    have listed : name ∈ table.columns.map ColumnPlan.name := by
      rw [planned.primaryKey] at primary
      rw [planned.columns]
      obtain ⟨parts, there, same⟩ := List.mem_map.mp primary
      refine List.mem_map.mpr ⟨(name, partType parts), ?_, rfl⟩
      rw [← same]
      exact List.mem_map.mpr ⟨parts, (List.mem_filter.mp there).1, rfl⟩
    obtain ⟨index, found⟩ := Option.isSome_iff_exists.mp (exactIndex_isSome.mpr listed)
    obtain ⟨inside, named, -⟩ := List.findIdx?_eq_some_iff_getElem.mp found
    have marked : table.columns[index].isPrimaryKey = true := by
      rw [planned.marked _ (List.getElem_mem inside), of_decide_eq_true named]
      exact decide_eq_true primary
    have text : (rowTexts ⟨table, exprs⟩)[index]? = some (rowText exprs index) := by
      unfold rowTexts rowText
      rw [List.getElem?_map, List.getElem?_eq_getElem (full ▸ inside)]
      rfl
    have flag : (table.columns.map ColumnPlan.isPrimaryKey)[index]? = some true := by
      rw [List.getElem?_map, List.getElem?_eq_getElem inside]
      exact congrArg some marked
    have placed : (true, rowText exprs index) ∈
        (table.columns.map ColumnPlan.isPrimaryKey).zip (rowTexts ⟨table, exprs⟩) :=
      List.mem_of_getElem? (List.getElem?_zip_eq_some.mpr ⟨flag, text⟩)
    rw [columnText_full full, found, Option.map_some, ← keyed _ placed rfl]
  unfold keyParts
  rw [List.filterMap_congr each, ← planned.primaryKey]
  induction table.primaryKey with
  | nil => rfl
  | cons name names ih =>
      rw [List.filterMap_cons, ih]
      rfl

private theorem rowValue_placed
    (places : places (table.columns.map ColumnPlan.isPrimaryKey) (value.splitOn '\n').length =
      table.columns.map ColumnPlan.isPrimaryKey)
    (placed : Placed (table.columns.map ColumnPlan.isPrimaryKey) pkValue (value.splitOn '\n')
      (rowTexts ⟨table, exprs⟩)) (full : exprs.length = table.columns.length) :
    rowValue table exprs = joined '\n' ((value.splitOn '\n').take
      ((table.columns.map ColumnPlan.isPrimaryKey).filter (fun mark => !mark)).length) := by
  have inOrder := placed.inOrder
  rw [places, unmarked_texts ⟨table, exprs⟩] at inOrder
  have lines : lineTexts ⟨table, exprs⟩ = _ := List.prefix_iff_eq_take.mp inOrder
  change joined '\n' (lineTexts ⟨table, exprs⟩) = _
  rw [lines, ← @length_unmarked ⟨table, exprs⟩ full]

private theorem joined_take_iff {others : Nat} (enough : others ≤ (value.splitOn '\n').length) :
    joined '\n' ((value.splitOn '\n').take others) = value ↔
      value.count '\n' + 1 = others ∨ value = [] ∧ others = 0 := by
  have lines := @length_splitOn _ _ '\n' value
  constructor
  · intro same
    by_cases none : others = 0
    · rw [none] at same
      exact Or.inr ⟨same.symm, none⟩
    · have some : (value.splitOn '\n').take others ≠ [] := by
        intro nothing
        have length := congrArg List.length nothing
        rw [List.length_take, Nat.min_eq_left enough] at length
        exact none length
      have pieces : value.splitOn '\n' = (value.splitOn '\n').take others := by
        conv => lhs; rw [← same]
        rw [splitOn_joined some]
        exact pieces_plain (fun piece member => not_mem_piece (List.mem_of_mem_take member))
      have length := congrArg List.length pieces
      rw [List.length_take, Nat.min_eq_left enough, lines] at length
      exact Or.inl length
  · rintro (all | ⟨rfl, rfl⟩)
    · rw [List.take_of_length_le (by omega)]
      exact List.intercalate_splitOn '\n'
    · rfl

private theorem joined_replicate_iff {count : Nat} (some : count ≠ 0) :
    joined ':' (List.replicate count pkValue) = pkValue ↔ count = 1 := by
  constructor
  · intro same
    obtain ⟨more, rfl⟩ := Nat.exists_eq_succ_of_ne_zero some
    cases more with
    | zero => rfl
    | succ more =>
        have behind : List.replicate (more + 1) pkValue ≠ [] := List.cons_ne_nil _ _
        rw [List.replicate_succ, joined_cons behind] at same
        have lengths := congrArg List.length same
        change (pkValue ++ ':' :: _).length = _ at lengths
        rw [List.length_append, List.length_cons] at lengths
        omega
  · rintro rfl
    exact List.intercalate_singleton

private theorem rowKey_back_iff {count : Nat} (name : table.name = tableName) (some : count ≠ 0)
    (parts : keyParts table exprs = List.replicate count pkValue) :
    rowKey table (keyParts table exprs) = tableName ++ ":".toList ++ pkValue ↔ count = 1 := by
  unfold rowKey
  rw [parts, name]
  change (tableName ++ ":".toList ++ joined ':' (List.replicate _ pkValue) = _ ↔ _)
  rw [List.append_cancel_left_eq]
  exact joined_replicate_iff some

/-- The marks of the plan that are not of the key, counted in the schema entry. -/
private theorem Planned.others (planned : Planned alphanumeric tableName schema table)
    (nodup : ((createColumns schema).map Prod.fst).Nodup) :
    ((table.columns.map ColumnPlan.isPrimaryKey).filter (fun mark => !mark)).length =
      ((parseSchemaColumns schema).filter (fun column => !column.isPk)).length := by
  rw [planned.flags nodup, List.filter_map, List.length_map]
  rfl

private theorem full_row (planned : Planned alphanumeric tableName schema table)
    (nodup : ((createColumns schema).map Prod.fst).Nodup)
    (texts : exprs.map parseValue =
      (rowValues (parseSchemaColumns schema) pkValue value).map Prod.snd)
    (full : exprs.length = table.columns.length) :
    keyParts table exprs = List.replicate (createPkColumns schema).length pkValue ∧
      (rowValue table exprs = value ↔ value.count '\n' + 1 =
          ((table.columns.map ColumnPlan.isPrimaryKey).filter (fun mark => !mark)).length ∨
        value = [] ∧
          ((table.columns.map ColumnPlan.isPrimaryKey).filter (fun mark => !mark)).length = 0) := by
  have placed := placed_row planned nodup texts
  have width := placed.width
  rw [rowTexts, List.length_map, full, ← List.length_map ColumnPlan.isPrimaryKey] at width
  have enough := places_full_iff.mp width
  have everywhere := places_enough enough
  constructor
  · apply keyParts_placed planned full
    rw [← everywhere]
    exact placed.keyed
  · rw [rowValue_placed everywhere placed full]
    exact joined_take_iff enough

/-- A row whose texts are those that the export places is stored again as it was exactly if one
column is of the key and the value has a line for every other one. -/
theorem row_back_iff (planned : Planned alphanumeric tableName schema table)
    (nodup : ((createColumns schema).map Prod.fst).Nodup) (name : table.name = tableName)
    (texts : exprs.map parseValue =
      (rowValues (parseSchemaColumns schema) pkValue value).map Prod.snd) :
    ((ImportedRow.mk table exprs).Stored ∧
        rowKey table (keyParts table exprs) = tableName ++ ":".toList ++ pkValue ∧
        rowValue table exprs = value) ↔
      (createPkColumns schema).length = 1 ∧
        (value.count '\n' + 1 =
            ((parseSchemaColumns schema).filter (fun column => !column.isPk)).length ∨
          value = [] ∧ ∀ column ∈ parseSchemaColumns schema, column.isPk = true) := by
  have noOthers : ((parseSchemaColumns schema).filter (fun column => !column.isPk)).length = 0 ↔
      ∀ column ∈ parseSchemaColumns schema, column.isPk = true := by
    rw [List.length_eq_zero_iff, List.filter_eq_nil_iff]
    simp only [Bool.not_eq_true', Bool.not_eq_false]
  rw [← noOthers, ← planned.others nodup]
  constructor
  · rintro ⟨⟨full, parts⟩, sameKey, sameValue⟩
    obtain ⟨replicated, valueIff⟩ := full_row planned nodup texts full
    have some : (createPkColumns schema).length ≠ 0 := by
      intro none
      rw [none] at replicated
      exact parts replicated
    exact ⟨(rowKey_back_iff name some replicated).mp sameKey, valueIff.mp sameValue⟩
  · rintro ⟨one, shape⟩
    have full : exprs.length = table.columns.length := by
      have width := (placed_row planned nodup texts).width
      have lines := @length_splitOn _ _ '\n' value
      rw [rowTexts, List.length_map] at width
      rw [← width, ← List.length_map ColumnPlan.isPrimaryKey]
      exact places_full_iff.mpr (by omega)
    obtain ⟨replicated, valueIff⟩ := full_row planned nodup texts full
    have some : (createPkColumns schema).length ≠ 0 := by omega
    refine ⟨⟨full, ?_⟩, (rowKey_back_iff name some replicated).mpr one, valueIff.mpr shape⟩
    change keyParts table exprs ≠ []
    rw [replicated, one]
    exact List.cons_ne_nil _ _

end Row

section Table

variable {alphanumeric : Alphanumeric} {uppercase : Uppercase} {reader : LiteralReader}
  {dialect : Dialect} {tableName schema : Text} {create : CreateTable} {table : TablePlan}
  {rows : List (Text × Text)} {inserts : List (List Expr)}

private theorem tables_file (create : CreateTable) (inserts : List (List Expr)) :
    (analyseStatements alphanumeric (fileStatements dialect tableName create inserts)).tables =
      (analyseCreateTable alphanumeric create).toList := by
  unfold analyseStatements fileStatements
  simp only
  cases planned : analyseCreateTable alphanumeric create with
  | none =>
      simp only [List.filterMap_cons, planned, List.filterMap_map]
      exact List.filterMap_eq_nil_iff.mpr (fun exprs _ => rfl)
  | some table =>
      simp only [List.filterMap_cons, planned, List.filterMap_map]
      exact congrArg (List.cons table) (List.filterMap_eq_nil_iff.mpr (fun exprs _ => rfl))

private theorem importedRows_file {plan : StoragePlan} (create : CreateTable)
    (found : ∀ source, findTable plan ⟨quoteTableName tableName dialect, [], source⟩ = some table)
    (inserts : List (List Expr)) :
    importedRows plan (fileStatements dialect tableName create inserts) =
      inserts.map (ImportedRow.mk table) := by
  unfold fileStatements importedRows
  rw [List.flatMap_cons, List.flatMap_map]
  change inserts.flatMap _ = _
  induction inserts with
  | nil => rfl
  | cons exprs inserts ih =>
      have here : foundRows plan (.insert ⟨quoteTableName tableName dialect, [],
          some (.values [exprs])⟩) = [⟨table, exprs⟩] := by
        simp only [foundRows, found]
        rfl
      rw [List.flatMap_cons, ih, here]
      rfl

private theorem rowEntries_plain {row : ImportedRow} (none : row.table.foreignKeys = []) :
    rowEntries row = if row.Stored then [.row row] else [] := by
  unfold rowEntries
  rw [none]
  rfl

private theorem rowCalls_iff (none : table.foreignKeys = []) (row : Text × Text)
    (exprs : List Expr) :
    (rowEntries ⟨table, exprs⟩).map Entry.call =
        [DataBusCall.writeValue (storedRow tableName row).1 (storedRow tableName row).2] ↔
      (ImportedRow.mk table exprs).Stored ∧
        rowKey table (keyParts table exprs) = tableName ++ ":".toList ++ row.1 ∧
        rowValue table exprs = row.2 := by
  rw [rowEntries_plain none]
  by_cases stored : (ImportedRow.mk table exprs).Stored
  · rw [if_pos stored, and_iff_right stored]
    constructor
    · intro same
      obtain ⟨key, value⟩ := DataBusCall.writeValue.inj (List.cons.inj same).1
      exact ⟨asBytes_injective key, asBytes_injective value⟩
    · rintro ⟨key, value⟩
      change [DataBusCall.writeValue (rowKey table (keyParts table exprs)).asBytes
        (rowValue table exprs).asBytes] = _
      rw [key, value]
      rfl
  · rw [if_neg stored]
    exact iff_of_false (fun wrong => by cases wrong) (fun wrong => stored wrong.1)

private theorem calls_iff {left : List (Text × Text)} {right : List (List Expr)}
    {calls : List Expr → List DataBusCall} (few : ∀ exprs, (calls exprs).length ≤ 1)
    (made : Text × Text → DataBusCall) (same : left.length = right.length) :
    right.flatMap calls = left.map made ↔
      List.Forall₂ (fun row exprs => calls exprs = [made row]) left right := by
  induction left generalizing right with
  | nil =>
      rw [List.eq_nil_of_length_eq_zero same.symm]
      exact iff_of_true rfl .nil
  | cons row left ih =>
      cases right with
      | nil => cases same
      | cons exprs right =>
          have most : (right.flatMap calls).length ≤ left.length := by
            rw [List.length_flatMap, Nat.succ.inj same]
            refine (List.sum_le_card_nsmul _ 1 ?_).trans ?_
            · exact List.forall_mem_map.mpr (fun exprs _ => few exprs)
            · rw [List.length_map, smul_eq_mul, Nat.mul_one]
          rw [List.flatMap_cons, List.map_cons, List.forall₂_cons, ← ih (Nat.succ.inj same)]
          constructor
          · intro whole
            have one := few exprs
            have lengths := congrArg List.length whole
            rw [List.length_append, List.length_cons, List.length_map] at lengths
            exact List.append_inj (whole.trans (List.singleton_append).symm) (by
              rw [List.length_singleton]
              omega)
          · rintro ⟨here, rest⟩
            rw [here, rest]
            rfl

private theorem rowValues_ne_nil {columns : List SchemaColumn} (some : columns ≠ [])
    (row : Text × Text) :
    rowValues columns row.1 row.2 ≠ [] := by
  unfold rowValues
  cases lines : row.2.splitOn '\n' with
  | nil => exact absurd lines (List.splitOn_ne_nil _ _)
  | cons line lines =>
      cases columns with
      | nil => exact absurd rfl some
      | cons column columns =>
          unfold placeValues
          split
          · exact List.cons_ne_nil _ _
          · exact List.cons_ne_nil _ _

private theorem columns_ne_nil (some : createPkColumns schema ≠ []) :
    parseSchemaColumns schema ≠ [] := by
  intro none
  apply some
  unfold parseSchemaColumns at none
  unfold createPkColumns
  rw [List.map_eq_nil_iff.mp none]
  rfl

private theorem findTable_file (planned : Planned alphanumeric tableName schema table)
    (plain : parseTableNameRaw alphanumeric tableName = tableName) (source : Option Source) :
    findTable ⟨[table]⟩ ⟨quoteTableName tableName dialect, [], source⟩ = some table := by
  unfold findTable
  rw [unquoted_quoteTableName, unquoted_kept plain]
  exact List.find?_cons_of_pos (decide_eq_true (planned.name.trans plain))

private theorem fileCalls_eq (planned : Planned alphanumeric tableName schema table)
    (plain : parseTableNameRaw alphanumeric tableName = tableName) (create : CreateTable)
    (inserts : List (List Expr)) :
    (importEntries ⟨[table]⟩ (fileStatements dialect tableName create inserts)).map Entry.call =
      Entry.call (.schema table) ::
        inserts.flatMap (fun exprs => (rowEntries ⟨table, exprs⟩).map Entry.call) := by
  unfold importEntries
  rw [importedRows_file create (findTable_file planned plain), List.flatMap_map, List.map_append,
    List.map_flatMap]
  rfl

private theorem schemaCall_iff (table : TablePlan) (entry : Bytes) :
    Entry.call (.schema table) = .writeValue (schemaStem ++ tableName.asBytes) entry ↔
      table.name = tableName ∧ (renderSchemaEntry table).asBytes = entry := by
  have key : (schemaKey table).asBytes = schemaStem ++ table.name.asBytes := by
    unfold schemaKey
    rw [asBytes_eq, asBytes_eq, List.flatMap_append, ← asBytes_eq]
    rfl
  unfold Entry.call Entry.key Entry.value
  rw [DataBusCall.writeValue.injEq, key, List.append_cancel_left_eq]
  exact and_congr_left' ⟨asBytes_injective, congrArg Text.asBytes⟩

private theorem exists_rows (tableName : Text) (given : rows ≠ [] → createPkColumns schema ≠ [])
    (travel : TextsTravel uppercase reader dialect schema rows) :
    ∃ exprs, ReadsInserts reader dialect tableName
        (rows.flatMap (rowStatement uppercase dialect tableName (parseSchemaColumns schema))) exprs ∧
      List.Forall₂ (fun row exprs => exprs.map parseValue =
        (rowValues (parseSchemaColumns schema) row.1 row.2).map Prod.snd) rows exprs := by
  apply readsInserts_of_travels
  · intro row member
    exact rowValues_ne_nil (columns_ne_nil (given (List.ne_nil_of_mem member))) row
  · exact fun row member placed there => literalTravels_iff.mpr (travel row member placed there)

private theorem rowsBack_iff (planned : Planned alphanumeric tableName schema table)
    (nodup : ((createColumns schema).map Prod.fst).Nodup) (name : table.name = tableName)
    (placed : List.Forall₂ (fun row exprs => exprs.map parseValue =
      (rowValues (parseSchemaColumns schema) row.1 row.2).map Prod.snd) rows inserts) :
    inserts.flatMap (fun exprs => (rowEntries ⟨table, exprs⟩).map Entry.call) =
        (rows.map (storedRow tableName)).map
          (fun pair => DataBusCall.writeValue pair.1 pair.2) ↔
      ∀ row ∈ rows, (createPkColumns schema).length = 1 ∧
        (row.2.count '\n' + 1 =
            ((parseSchemaColumns schema).filter (fun column => !column.isPk)).length ∨
          row.2 = [] ∧ ∀ column ∈ parseSchemaColumns schema, column.isPk = true) := by
  have few : ∀ exprs, ((rowEntries ⟨table, exprs⟩).map Entry.call).length ≤ 1 := by
    intro exprs
    rw [List.length_map, rowEntries_plain planned.foreignKeys]
    split
    · exact Nat.le_refl 1
    · exact Nat.zero_le 1
  rw [List.map_map, calls_iff few _ placed.length_eq]
  induction placed with
  | nil => exact iff_of_true .nil (fun row member => by cases member)
  | cons texts _ ih =>
      rw [List.forall₂_cons, List.forall_mem_cons, ← row_back_iff planned nodup name texts]
      exact and_congr (rowCalls_iff planned.foreignKeys _ _) ih

private theorem name_planned (found : analyseCreateTable alphanumeric create = some table) :
    table.name ≠ [] := by
  unfold analyseCreateTable at found
  simp only at found
  split at found
  · cases found
  · cases found
    assumption

private theorem noRows (planned : Planned alphanumeric tableName schema table)
    (none : createPkColumns schema = []) (exprs : List Expr) :
    rowEntries ⟨table, exprs⟩ = [] := by
  unfold rowEntries
  refine if_neg (fun stored => stored.2 ?_)
  unfold keyParts
  rw [planned.primaryKey, none]
  rfl

private theorem plan_file (found : analyseCreateTable alphanumeric create = some table)
    (inserts : List (List Expr)) :
    analyseStatements alphanumeric (fileStatements dialect tableName create inserts) =
      ⟨[table]⟩ := by
  have tables := @tables_file alphanumeric dialect tableName create inserts
  rw [found] at tables
  exact congrArg StoragePlan.mk tables

private theorem rows_of_calls (planned : Planned alphanumeric tableName schema table)
    (nodup : ((createColumns schema).map Prod.fst).Nodup) (name : table.name = tableName)
    (travel : TextsTravel uppercase reader dialect schema rows)
    (unique : ∀ others, ReadsInserts reader dialect tableName
      (rows.flatMap (rowStatement uppercase dialect tableName (parseSchemaColumns schema))) others ↔
        others = inserts)
    (calls : inserts.flatMap (fun exprs => (rowEntries ⟨table, exprs⟩).map Entry.call) =
      (rows.map (storedRow tableName)).map (fun pair => DataBusCall.writeValue pair.1 pair.2)) :
    ∀ row ∈ rows, (createPkColumns schema).length = 1 ∧
      (row.2.count '\n' + 1 =
          ((parseSchemaColumns schema).filter (fun column => !column.isPk)).length ∨
        row.2 = [] ∧ ∀ column ∈ parseSchemaColumns schema, column.isPk = true) := by
  have given : rows ≠ [] → createPkColumns schema ≠ [] := by
    intro some none
    apply some
    have nothing : inserts.flatMap (fun exprs =>
        (rowEntries ⟨table, exprs⟩).map Entry.call) = [] := by
      refine List.flatMap_eq_nil_iff.mpr (fun exprs _ => ?_)
      rw [noRows planned none]
      rfl
    rw [nothing] at calls
    exact List.map_eq_nil_iff.mp (List.map_eq_nil_iff.mp calls.symm)
  obtain ⟨exprs, reads, placed⟩ := exists_rows tableName given travel
  rw [(unique exprs).mp reads] at placed
  exact (rowsBack_iff planned nodup name placed).mp calls

private theorem textsTravel_iff : TextsTravel uppercase reader dialect schema rows ↔ ∀ row ∈ rows,
    InPlace uppercase reader dialect (rowValues (parseSchemaColumns schema) row.1 row.2) := by
  unfold TextsTravel
  refine forall₂_congr (fun row _ => ?_)
  rw [inPlace_iff]
  exact forall₂_congr (fun placed _ => literalTravels_iff.symm)

private theorem tableReproduced_iff (creates : CreatesTable dialect tableName schema create)
    (nodup : ((createColumns schema).map Prod.fst).Nodup) :
    TableReproduced alphanumeric uppercase reader dialect tableName schema create rows ↔
      TextsTravel uppercase reader dialect schema rows ∧
        Reimportable alphanumeric tableName schema rows := by
  constructor
  · rintro ⟨inPlace, text, exprs, written, unique, entry, result, imported⟩
    have travel := textsTravel_iff.mpr inPlace
    refine ⟨travel, ?_⟩
    have whole : text =
        rows.flatMap (rowStatement uppercase dialect tableName (parseSchemaColumns schema)) := by
      have taken := (written ⟨fun _ => .ok ()⟩ (fun _ => rfl) ⟨[], 0, 0⟩).symm.trans
        (writeRows_taken (fun _ => rfl) rows ⟨[], 0, 0⟩)
      exact congrArg Written.text (Except.ok.inj taken)
    rw [whole] at unique
    rw [parseImport_eq] at imported
    have calls := (performAll_injective imported).1
    cases found : analyseCreateTable alphanumeric create with
    | none =>
        have tables := @tables_file alphanumeric dialect tableName create exprs
        rw [found] at tables
        rw [importEntries_of_no_table tables] at calls
        cases calls
    | some table =>
        have planned := creates.planned found
        rw [plan_file found] at calls
        have name : table.name = tableName :=
          ((schemaCall_iff table entry).mp (List.cons.inj calls).1).1
        have plain := planned.name.symm.trans name
        rw [fileCalls_eq planned plain] at calls
        have rowwise := rows_of_calls planned nodup name travel unique (List.cons.inj calls).2
        refine ⟨plain, ?_, ?_, fun row member => (rowwise row member).2⟩
        · rw [← name]
          exact name_planned found
        · intro some
          obtain ⟨row, member⟩ := List.exists_mem_of_ne_nil rows some
          exact (rowwise row member).1
  · rintro ⟨travel, plain, named, oneKey, lines⟩
    have given : rows ≠ [] → createPkColumns schema ≠ [] := by
      intro some none
      have one := oneKey some
      rw [none] at one
      cases one
    obtain ⟨exprs, reads, placed⟩ := exists_rows tableName given travel
    have kept : parseTableNameRaw alphanumeric create.name ≠ [] := by
      unfold parseTableNameRaw
      rw [creates.name, unquoted_quoteTableName]
      change parseTableNameRaw alphanumeric tableName ≠ []
      rw [plain]
      exact named
    obtain ⟨table, found⟩ : ∃ table, analyseCreateTable alphanumeric create = some table :=
      ⟨_, if_neg kept⟩
    have planned := creates.planned found
    have name := planned.name.trans plain
    have rowwise : ∀ row ∈ rows, (createPkColumns schema).length = 1 ∧ _ := fun row member =>
      ⟨oneKey (List.ne_nil_of_mem member), lines row member⟩
    refine ⟨textsTravel_iff.mp travel, _, exprs, fun file takes => writeRows_taken takes rows,
      fun others => ?_,
      (renderSchemaEntry table).asBytes, importResult ⟨[table]⟩ (fileStatements dialect tableName create exprs), ?_⟩
    · constructor
      · exact fun again => readsInserts_unique reads again
      · rintro rfl
        exact reads
    · rw [plan_file found, parseImport_eq]
      unfold writing
      rw [fileCalls_eq planned plain, (rowsBack_iff planned nodup name placed).mpr rowwise,
        (schemaCall_iff table _).mpr ⟨name, rfl⟩]
      rfl

end Table

/-- What is written of a value is one literal and comes back exactly if the value is empty, or it
is in quotes and its backslashes stand for themselves there, or it is not in quotes and is a
literal that the library prints as it stands.  A row keeps its structure exactly if its values are
such, and a table is stored again as it was exactly if its texts are such, it has one column of the
key, and its rows have a line for each other column. -/
theorem literals_travel_iff (alphanumeric : Alphanumeric) (uppercase : Uppercase)
    (reader : LiteralReader) (dialect : Dialect) :
    (∀ value dataType, LiteralTravels uppercase reader dialect value dataType ↔
      value = [] ∨ WritesItself uppercase reader dialect value dataType) ∧
    (∀ tableName values, values ≠ [] →
      (RowTravels uppercase reader dialect tableName values ↔ ∀ placed ∈ values,
        placed.2 = [] ∨ WritesItself uppercase reader dialect placed.2 placed.1.dataType)) ∧
    ∀ tableName schema create rows, CreatesTable dialect tableName schema create →
      ((createColumns schema).map Prod.fst).Nodup →
      (TableReproduced alphanumeric uppercase reader dialect tableName schema create rows ↔
        TextsTravel uppercase reader dialect schema rows ∧
          Reimportable alphanumeric tableName schema rows) :=
  ⟨fun _ _ => literalTravels_iff,
    fun tableName _ given => (rowTravels_iff tableName given).trans
      (forall₂_congr (fun _ _ => literalTravels_iff)),
    fun _ _ _ _ => tableReproduced_iff⟩

def plainReader : LiteralReader :=
  { mysqlEscapes := ⟨fun character => [character], rfl, rfl, fun _ => Nat.le_succ 1⟩
    genericEscapes := none
    otherLiteral := fun _ _ => none
    otherLiteral_stops := fun _ _ _ _ _ wrong => by cases wrong }

def asciiUppercase : Uppercase := ⟨fun text => text.map Char.toUpper, fun _ _ => rfl⟩

/-- In a column that the schema entry of a query calls INT a text is written without quotes, and
closes the row; and a backslash in quotes is not escaped for MySQL. -/
theorem statement_changes :
    ¬ LiteralTravels asciiUppercase plainReader .sqlite "1), (2".toList "INT".toList ∧
      ¬ LiteralTravels asciiUppercase plainReader .mysql "a\\b".toList "TEXT".toList ∧
      insertStatement asciiUppercase "users".toList .sqlite
          [(⟨"INT".toList, true⟩, "1), (2".toList), (⟨"TEXT".toList, false⟩, "x".toList)] =
        "INSERT INTO users VALUES (1), (2, 'x');\n".toList := by
  refine ⟨?_, ?_, by decide⟩
  · rintro ⟨expr, single, same⟩
    have reads := single [')'] (stops_bracket [])
    cases reads
  · rintro ⟨expr, single, same⟩
    have reads := single [')'] (stops_bracket [])
    cases reads
    cases same

def usersSchema : Text := "id:INT:pk\nname:TEXT\n".toList

def usersCreate : CreateTable where
  name := "users".toList
  columns := [⟨"id".toList, "INTEGER".toList, []⟩, ⟨"name".toList, "TEXT".toList, []⟩]
  constraints := [.primaryKey ["id".toList]]

def pairsSchema : Text := "a:TEXT:pk\nb:TEXT:pk\n".toList

def pairsCreate : CreateTable where
  name := "t".toList
  columns := [⟨"a".toList, "TEXT".toList, []⟩, ⟨"b".toList, "TEXT".toList, []⟩]
  constraints := [.primaryKey ["a".toList, "b".toList]]

private theorem writesItself_number {value dataType : Text} {uppercase : Uppercase}
    {reader : LiteralReader}
    {dialect : Dialect} (numeric : isNumericType uppercase dataType = true)
    (number : numeral value = true) : WritesItself uppercase reader dialect value dataType := by
  unfold WritesItself
  rw [if_pos numeric]
  exact Or.inl (Or.inl number)

private theorem writesItself_sqlite {value dataType : Text} {uppercase : Uppercase}
    {reader : LiteralReader} (quoted : isNumericType uppercase dataType = false) :
    WritesItself uppercase reader .sqlite value dataType := by
  unfold WritesItself
  rw [quoted]
  exact fun backslashes wrong => by cases wrong

private theorem userTexts (id name : Text) (number : numeral id = true) :
    ∀ placed ∈ [((⟨"INT".toList, true⟩ : SchemaColumn), id), (⟨"TEXT".toList, false⟩, name)],
      placed.2 = [] ∨
        WritesItself asciiUppercase plainReader .sqlite placed.2 placed.1.dataType := by
  have int : isNumericType asciiUppercase "INT".toList = true := by decide
  have other : isNumericType asciiUppercase "TEXT".toList = false := by decide
  rw [List.forall_mem_cons, List.forall_mem_singleton]
  exact ⟨Or.inr (writesItself_number int number), Or.inr (writesItself_sqlite other)⟩

/-- A table with one column of the key is stored again as it was, and a row of two key texts is
not. -/
theorem users_are_reproduced :
    RowTravels asciiUppercase plainReader .sqlite "users".toList
        [(⟨"INT".toList, true⟩, "1".toList), (⟨"TEXT".toList, false⟩, "O'Hara".toList)] ∧
      TableReproduced asciiAlphanumeric asciiUppercase plainReader .sqlite "users".toList
        usersSchema usersCreate [("1".toList, "O'Hara".toList), ("2".toList, [])] ∧
      ¬ TableReproduced asciiAlphanumeric asciiUppercase plainReader .sqlite "t".toList
        pairsSchema pairsCreate [("x:z".toList, [])] := by
  have usersTable : CreatesTable .sqlite "users".toList usersSchema usersCreate :=
    ⟨rfl, by decide +kernel, by decide +kernel, rfl⟩
  have pairsTable : CreatesTable .sqlite "t".toList pairsSchema pairsCreate :=
    ⟨rfl, by decide +kernel, by decide +kernel, rfl⟩
  have users : ∀ row : Text × Text, row = ("1".toList, "O'Hara".toList) ∨ row = ("2".toList, []) →
      ∃ id name, rowValues (parseSchemaColumns usersSchema) row.1 row.2 =
        [(⟨"INT".toList, true⟩, id), (⟨"TEXT".toList, false⟩, name)] ∧ numeral id = true := by
    rintro row (rfl | rfl)
    · exact ⟨"1".toList, "O'Hara".toList, by decide +kernel, by decide +kernel⟩
    · exact ⟨"2".toList, [], by decide +kernel, by decide +kernel⟩
  obtain ⟨-, rows, tables⟩ :=
    literals_travel_iff asciiAlphanumeric asciiUppercase plainReader .sqlite
  refine ⟨?_, ?_, ?_⟩
  · exact (rows _ _ (List.cons_ne_nil _ _)).mpr (userTexts _ _ (by decide +kernel))
  · refine (tables _ usersSchema usersCreate _ usersTable (by decide +kernel)).mpr
      ⟨?_, by decide +kernel, by decide, fun _ => by decide +kernel, by decide +kernel⟩
    intro row member
    obtain ⟨id, name, placed, number⟩ := users row (by
      rw [List.mem_cons, List.mem_singleton] at member
      exact member)
    rw [placed]
    exact userTexts id name number
  · intro reproduced
    have one := ((tables _ pairsSchema pairsCreate _ pairsTable (by decide +kernel)).mp
      reproduced).2.oneKey (List.cons_ne_nil _ _)
    revert one
    decide +kernel

end SqlExport

end TricPlus
