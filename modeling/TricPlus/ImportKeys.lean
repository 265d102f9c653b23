import TricPlus.ImportCounts
import TricPlus.Lib.ByteLists
import TricPlus.Lib.Separated

/-!
The keys of an SQL import.

A key joins the name of its table and texts of the row with colons, and the texts may hold
colons themselves.  So what a key tells is the pieces that its colons cut.
-/

namespace TricPlus

open AtomicProgram
open Separated

/-! ### Texts as bytes -/

theorem asBytes_eq (text : Text) : text.asBytes = text.flatMap String.utf8EncodeChar := by
  change text.utf8Encode.toList = _
  unfold List.utf8Encode
  exact ByteLists.toList_toByteArray _

theorem asBytes_cons {character : Char} (ascii : character.toNat < 128) (text : Text) :
    Text.asBytes (character :: text) = UInt8.ofNat character.toNat :: text.asBytes := by
  rw [asBytes_eq, asBytes_eq, List.flatMap_cons,
    String.utf8EncodeChar_eq_singleton (Char.utf8Size_eq_one_iff.mpr (by
      change character.val.toNat ≤ 127
      exact Nat.le_of_lt_succ ascii))]
  rfl

theorem asBytes_injective {left right : Text} (same : left.asBytes = right.asBytes) :
    left = right :=
  String.ofList_injective (ByteLists.toUTF8_injective same)

namespace Import

open SqlDump Analyser

/-- The column that SQL takes for this name, whatever the case of its letters. -/
def foldedIndex (table : TablePlan) (name : Text) : Option Nat :=
  table.columns.findIdx? (fun column => column.name.map Char.toLower = name.map Char.toLower)

def sqlText (table : TablePlan) (values : List Expr) (name : Text) : Option Text := do
  let index ← foldedIndex table name
  let value ← values[index]?
  some (parseValue value)

/-- The first column of exactly this name. -/
def exactIndex (table : TablePlan) (name : Text) : Option Nat :=
  table.columns.findIdx? (fun column => column.name = name)

section Columns

variable {table : TablePlan} {values : List Expr} {name : Text} {index : Nat}

theorem columnText_eq : columnText table values name =
    (exactIndex table name).bind (fun index => values[index]?.map parseValue) := by
  unfold columnText
  change (exactIndex table name).bind _ = _
  congr 1
  funext index
  cases values[index]? <;> rfl

theorem sqlText_eq : sqlText table values name =
    (foldedIndex table name).bind (fun index => values[index]?.map parseValue) := by
  unfold sqlText
  change (foldedIndex table name).bind _ = _
  congr 1
  funext index
  cases values[index]? <;> rfl

theorem exactIndex_lt (found : exactIndex table name = some index) :
    index < table.columns.length :=
  (List.findIdx?_eq_some_iff_getElem.mp found).1

private theorem foldedIndex_lt (found : foldedIndex table name = some index) :
    index < table.columns.length :=
  (List.findIdx?_eq_some_iff_getElem.mp found).1

theorem exactIndex_isSome : (exactIndex table name).isSome = true ↔
    name ∈ table.columns.map ColumnPlan.name := by
  unfold exactIndex
  rw [List.findIdx?_isSome, List.any_eq_true, List.mem_map]
  simp only [decide_eq_true_eq]

theorem foldedIndex_le (found : exactIndex table name = some index) :
    ∃ first, foldedIndex table name = some first ∧ first ≤ index := by
  obtain ⟨inside, same, -⟩ := List.findIdx?_eq_some_iff_getElem.mp found
  have folded : table.columns[index].name.map Char.toLower = name.map Char.toLower := by
    rw [of_decide_eq_true same]
  cases first : foldedIndex table name with
  | none =>
      have absent := List.findIdx?_eq_none_iff.mp first _ (List.getElem_mem inside)
      rw [decide_eq_true folded] at absent
      cases absent
  | some before =>
      refine ⟨before, rfl, ?_⟩
      obtain ⟨_, _, minimal⟩ := List.findIdx?_eq_some_iff_getElem.mp first
      by_contra later
      exact minimal index (Nat.lt_of_not_le later) (decide_eq_true folded)

def rowText (values : List Expr) (index : Nat) : Text := (values[index]?.map parseValue).getD []

theorem columnText_full (full : values.length = table.columns.length) :
    columnText table values name = (exactIndex table name).map (rowText values) := by
  rw [columnText_eq]
  cases found : exactIndex table name with
  | none => rfl
  | some index =>
      have inside := exactIndex_lt found
      rw [← full] at inside
      unfold rowText
      rw [Option.bind_some, Option.map_some, List.getElem?_eq_getElem inside]
      rfl

theorem sqlText_full (full : values.length = table.columns.length) :
    sqlText table values name = (foldedIndex table name).map (rowText values) := by
  rw [sqlText_eq]
  cases found : foldedIndex table name with
  | none => rfl
  | some index =>
      have inside := foldedIndex_lt found
      rw [← full] at inside
      unfold rowText
      rw [Option.bind_some, Option.map_some, List.getElem?_eq_getElem inside]
      rfl

/-- The positions under which the import finds the columns of the primary key. -/
def keyIndices (table : TablePlan) : List Nat := table.primaryKey.filterMap (exactIndex table)

theorem keyParts_full (full : values.length = table.columns.length) :
    keyParts table values = (keyIndices table).map (rowText values) := by
  unfold keyParts keyIndices
  rw [List.map_filterMap]
  congr 1
  funext name
  exact columnText_full full

/-- A row with a value for each column has a key. -/
def Keyed (table : TablePlan) : Prop :=
  ∃ name ∈ table.primaryKey, name ∈ table.columns.map ColumnPlan.name

theorem keyIndices_ne_nil : keyIndices table ≠ [] ↔ Keyed table := by
  constructor
  · intro some
    obtain ⟨index, member⟩ := List.exists_mem_of_ne_nil _ some
    obtain ⟨name, primary, found⟩ := List.mem_filterMap.mp member
    exact ⟨name, primary, exactIndex_isSome.mp (Option.isSome_iff_exists.mpr ⟨index, found⟩)⟩
  · rintro ⟨name, primary, named⟩
    obtain ⟨index, found⟩ := Option.isSome_iff_exists.mp (exactIndex_isSome.mpr named)
    exact List.ne_nil_of_mem (List.mem_filterMap.mpr ⟨name, primary, found⟩)

theorem keyed_of_stored (stored : (ImportedRow.mk table values).Stored) : Keyed table := by
  apply keyIndices_ne_nil.mp
  intro none
  apply stored.2
  have parts := keyParts_full stored.1
  rw [none] at parts
  exact parts

theorem stored_of_keyed (keyed : Keyed table) (full : values.length = table.columns.length) :
    (ImportedRow.mk table values).Stored := by
  refine ⟨full, ?_⟩
  change keyParts table values ≠ []
  rw [keyParts_full full]
  intro none
  exact keyIndices_ne_nil.mpr keyed (List.map_eq_nil_iff.mp none)

def textRow (table : TablePlan) (text : Nat → Text) : List Expr :=
  (List.range table.columns.length).map (fun index => .singleQuotedString (text index))

theorem length_textRow (text : Nat → Text) :
    (textRow table text).length = table.columns.length := by
  unfold textRow
  rw [List.length_map, List.length_range]

private theorem rowText_textRow {text : Nat → Text} (inside : index < table.columns.length) :
    rowText (textRow table text) index = text index := by
  unfold rowText textRow
  rw [List.getElem?_map, List.getElem?_range inside]
  rfl

theorem columnText_textRow (text : Nat → Text) :
    columnText table (textRow table text) name = (exactIndex table name).map text := by
  rw [columnText_full (length_textRow text)]
  cases found : exactIndex table name with
  | none => rfl
  | some index => exact congrArg some (rowText_textRow (exactIndex_lt found))

theorem sqlText_textRow (text : Nat → Text) :
    sqlText table (textRow table text) name = (foldedIndex table name).map text := by
  rw [sqlText_full (length_textRow text)]
  cases found : foldedIndex table name with
  | none => rfl
  | some index => exact congrArg some (rowText_textRow (foldedIndex_lt found))

theorem keyParts_textRow (text : Nat → Text) :
    keyParts table (textRow table text) = (keyIndices table).map text := by
  unfold keyParts keyIndices
  rw [List.map_filterMap]
  congr 1
  funext name
  exact columnText_textRow text

end Columns

namespace ImportedRow

def keyParts (row : ImportedRow) : List Text := Import.keyParts row.table row.values

/-- The primary key of the row. -/
def primaryKey (row : ImportedRow) : List (Option Text) :=
  row.table.primaryKey.map (sqlText row.table row.values)

end ImportedRow

def Entry.Agrees : Entry → Entry → Prop
  | .schema left, .schema right => left = right
  | .row left, .row right => left.table = right.table ∧ left.primaryKey = right.primaryKey
  | .rel left leftFk leftValue, .rel right rightFk rightValue =>
      leftFk.referencesTable = rightFk.referencesTable ∧ leftValue = rightValue ∧
        left.table = right.table ∧ left.primaryKey = right.primaryKey
  | _, _ => False

/-- Only entries that agree are written under one key. -/
def KeepsApart (plan : StoragePlan) (statements : List Statement) : Prop :=
  ∀ left ∈ importEntries plan statements, ∀ right ∈ importEntries plan statements,
    left.key.asBytes = right.key.asBytes → left.Agrees right

def relPieces (row : ImportedRow) (fk : ForeignKeyPlan) (fkValue : Text) : List Text :=
  pieces ':' (fk.referencesTable :: fkValue :: row.table.name :: row.keyParts)

/-- What is to be shown of the pieces: rows of one table agree where those of their key parts are
the same, relationships agree where theirs are, and no row has those of another family. -/
structure Apart (plan : StoragePlan) (statements : List Statement) : Prop where
  tables : ∀ left ∈ plan.tables, ∀ right ∈ plan.tables, left.name = right.name → left = right
  rows : ∀ left right, .row left ∈ importEntries plan statements →
    .row right ∈ importEntries plan statements → left.table = right.table →
    pieces ':' left.keyParts = pieces ':' right.keyParts → left.primaryKey = right.primaryKey
  schemas : ∀ row, .row row ∈ importEntries plan statements → row.table.name = "_schema".toList →
    ∀ table ∈ plan.tables, row.keyParts ≠ [table.name]
  rowsOfRel : ∀ row, .row row ∈ importEntries plan statements → row.table.name = "_rel".toList →
    ∀ other fk fkValue, .rel other fk fkValue ∈ importEntries plan statements →
    pieces ':' row.keyParts ≠ relPieces other fk fkValue
  rels : ∀ left leftFk leftValue right rightFk rightValue,
    .rel left leftFk leftValue ∈ importEntries plan statements →
    .rel right rightFk rightValue ∈ importEntries plan statements →
    relPieces left leftFk leftValue = relPieces right rightFk rightValue →
    (Entry.rel left leftFk leftValue).Agrees (.rel right rightFk rightValue)

section Keys

variable {alphanumeric : Alphanumeric} {ddl statements : List Statement} {row : ImportedRow}

theorem colon_not_mem_raw (name : Text) : ':' ∉ parseTableNameRaw alphanumeric name := by
  intro member
  have kept := (List.mem_filter.mp member).2
  rw [alphanumeric.ascii ':' (by decide)] at kept
  revert kept
  decide

private theorem colon_not_mem_name {create : CreateTable} {table : TablePlan}
    (planned : analyseCreateTable alphanumeric create = some table) : ':' ∉ table.name := by
  have name := @analyseCreateTable_name alphanumeric create
  rw [planned] at name
  split at name
  · cases name
  · rw [Option.some_inj.mp name]
    exact colon_not_mem_raw create.name

private theorem plan_table_plain {table : TablePlan}
    (member : table ∈ (analyseStatements alphanumeric ddl).tables) : ':' ∉ table.name := by
  rcases List.mem_filterMap.mp member with ⟨statement, -, planned⟩
  cases statement with
  | createTable create => exact colon_not_mem_name planned
  | insert insert => cases planned
  | other => cases planned

theorem mem_importedRows {plan : StoragePlan} (member : row ∈ importedRows plan statements) :
    plan.tables.find? (fun table => table.name = row.table.name) = some row.table := by
  rcases List.mem_flatMap.mp member with ⟨statement, -, found⟩
  cases statement with
  | createTable create => cases found
  | other => cases found
  | insert insert =>
      unfold foundRows at found
      simp only at found
      cases same : findTable plan insert with
      | none =>
          rw [same] at found
          cases found
      | some table =>
          rw [same] at found
          rcases List.mem_map.mp found with ⟨values, -, rfl⟩
          unfold findTable at same
          have name : table.name = unquoted insert.tableName := by
            have holds := @List.find?_some _ _ _ _ same
            exact of_decide_eq_true holds
          rw [← name] at same
          exact same

private theorem mem_rowEntries {entry : Entry} (member : entry ∈ rowEntries row) :
    row.Stored ∧ (entry = .row row ∨ ∃ fk ∈ row.table.foreignKeys, ∃ fkValue,
      columnText row.table row.values fk.column = some fkValue ∧ entry = .rel row fk fkValue) := by
  unfold rowEntries at member
  split at member
  · next stored =>
      refine ⟨stored, ?_⟩
      rcases List.mem_cons.mp member with same | related
      · exact Or.inl same
      · rcases List.mem_filterMap.mp related with ⟨fk, planned, found⟩
        rcases Option.map_eq_some_iff.mp found with ⟨fkValue, read, same⟩
        exact Or.inr ⟨fk, planned, fkValue, read, same.symm⟩
  · cases member

/-- A row that the statements bring to the plan, and that is stored. -/
def StoredHere (plan : StoragePlan) (statements : List Statement) (row : ImportedRow) : Prop :=
  row ∈ importedRows plan statements ∧ row.Stored

private theorem mem_importEntries {plan : StoragePlan} {entry : Entry}
    (member : entry ∈ importEntries plan statements) :
    (∃ table ∈ plan.tables, entry = .schema table) ∨
      ∃ row, StoredHere plan statements row ∧
        (entry = .row row ∨ ∃ fk ∈ row.table.foreignKeys, ∃ fkValue,
          columnText row.table row.values fk.column = some fkValue ∧ entry = .rel row fk fkValue) := by
  rcases List.mem_append.mp member with schema | written
  · rcases List.mem_map.mp schema with ⟨table, there, same⟩
    exact Or.inl ⟨table, there, same.symm⟩
  · rcases List.mem_flatMap.mp written with ⟨row, there, found⟩
    rcases mem_rowEntries found with ⟨stored, same⟩
    exact Or.inr ⟨row, ⟨there, stored⟩, same⟩

theorem mem_row_iff {plan : StoragePlan} :
    .row row ∈ importEntries plan statements ↔ StoredHere plan statements row := by
  constructor
  · intro member
    rcases mem_importEntries member with ⟨table, -, same⟩ |
      ⟨other, stored, same | ⟨fk, -, fkValue, -, same⟩⟩
    · cases same
    · cases same
      exact stored
    · cases same
  · rintro ⟨member, stored⟩
    apply List.mem_append_right
    refine List.mem_flatMap.mpr ⟨row, member, ?_⟩
    unfold rowEntries
    rw [if_pos stored]
    exact List.mem_cons_self ..

theorem mem_rel_iff {plan : StoragePlan} {fk : ForeignKeyPlan} {fkValue : Text} :
    .rel row fk fkValue ∈ importEntries plan statements ↔ StoredHere plan statements row ∧
      fk ∈ row.table.foreignKeys ∧
        columnText row.table row.values fk.column = some fkValue := by
  constructor
  · intro member
    rcases mem_importEntries member with ⟨table, -, same⟩ |
      ⟨other, stored, same | ⟨fk, planned, fkValue, read, same⟩⟩
    · cases same
    · cases same
    · cases same
      exact ⟨stored, planned, read⟩
  · rintro ⟨⟨member, stored⟩, planned, read⟩
    apply List.mem_append_right
    refine List.mem_flatMap.mpr ⟨row, member, ?_⟩
    unfold rowEntries
    rw [if_pos stored]
    apply List.mem_cons_of_mem
    exact List.mem_filterMap.mpr ⟨fk, planned, congrArg (Option.map _) read⟩

theorem mem_schema_iff {plan : StoragePlan} {table : TablePlan} :
    .schema table ∈ importEntries plan statements ↔ table ∈ plan.tables := by
  constructor
  · intro member
    rcases mem_importEntries member with ⟨other, there, same⟩ |
      ⟨row, -, same | ⟨fk, -, fkValue, -, same⟩⟩
    · cases same
      exact there
    · cases same
    · cases same
  · exact fun member => List.mem_append_left _ (List.mem_map_of_mem member)

/-- The texts a key joins. -/
def Entry.parts : Entry → List Text
  | .schema table => ["_schema".toList, table.name]
  | .row stored => stored.table.name :: stored.keyParts
  | .rel stored fk fkValue =>
      "_rel".toList :: fk.referencesTable :: fkValue :: stored.table.name :: stored.keyParts

private theorem Entry.parts_ne_nil (entry : Entry) : entry.parts ≠ [] := by
  cases entry <;> exact List.cons_ne_nil _ _

private theorem Entry.key_eq {plan : StoragePlan} {entry : Entry}
    (member : entry ∈ importEntries plan statements) : entry.key = joined ':' entry.parts := by
  rcases mem_importEntries member with ⟨table, -, rfl⟩ |
    ⟨row, stored, rfl | ⟨fk, -, fkValue, -, rfl⟩⟩
  · change "_schema:".toList ++ table.name = joined ':' (_ :: [_])
    rw [joined_cons (List.cons_ne_nil _ _)]
    unfold joined
    rw [List.intercalate_singleton]
    rfl
  · have some : row.keyParts ≠ [] := stored.2.2
    change row.table.name ++ [':'] ++ joined ':' row.keyParts = joined ':' (_ :: _)
    rw [joined_cons some, List.append_assoc]
    rfl
  · have some : row.keyParts ≠ [] := stored.2.2
    change "_rel:".toList ++ fk.referencesTable ++ [':'] ++ fkValue ++ [':'] ++ row.table.name ++
      [':'] ++ joined ':' row.keyParts = joined ':' (_ :: _ :: _ :: _ :: _)
    rw [joined_cons (List.cons_ne_nil _ _), joined_cons (List.cons_ne_nil _ _),
      joined_cons (List.cons_ne_nil _ _), joined_cons some]
    simp only [List.append_assoc]
    rfl

private theorem key_eq_iff {plan : StoragePlan} {left right : Entry}
    (leftMember : left ∈ importEntries plan statements)
    (rightMember : right ∈ importEntries plan statements) :
    left.key.asBytes = right.key.asBytes ↔ pieces ':' left.parts = pieces ':' right.parts := by
  rw [← joined_eq_iff left.parts_ne_nil right.parts_ne_nil, ← Entry.key_eq leftMember,
    ← Entry.key_eq rightMember]
  exact ⟨asBytes_injective, congrArg Text.asBytes⟩

/-! ### The pieces of two entries -/

private theorem schema_pieces {table : TablePlan} (plain : ':' ∉ table.name) :
    pieces ':' (Entry.schema table).parts = ["_schema".toList, table.name] := by
  apply pieces_plain
  intro part member
  rcases List.mem_cons.mp member with rfl | last
  · decide
  · rw [List.mem_singleton.mp last]
    exact plain

private theorem row_pieces (plain : ':' ∉ row.table.name) :
    pieces ':' (Entry.row row).parts = row.table.name :: pieces ':' row.keyParts :=
  pieces_cons_plain plain _

private theorem rel_pieces (fk : ForeignKeyPlan) (fkValue : Text) :
    pieces ':' (Entry.rel row fk fkValue).parts = "_rel".toList :: relPieces row fk fkValue :=
  pieces_cons_plain (by decide) _

theorem table_unique {plan : StoragePlan} {other : ImportedRow}
    (member : row ∈ importedRows plan statements)
    (otherMember : other ∈ importedRows plan statements)
    (same : row.table.name = other.table.name) : row.table = other.table := by
  have first := mem_importedRows member
  rw [same, mem_importedRows otherMember] at first
  exact (Option.some_inj.mp first).symm

theorem row_table_plain (member : row ∈ importedRows (analyseStatements alphanumeric ddl)
    statements) : ':' ∉ row.table.name :=
  plan_table_plain (List.mem_of_find?_eq_some (mem_importedRows member))

private theorem schema_row_iff {table : TablePlan} (plain : ':' ∉ table.name)
    (rowPlain : ':' ∉ row.table.name) :
    pieces ':' (Entry.schema table).parts = pieces ':' (Entry.row row).parts ↔
      row.table.name = "_schema".toList ∧ row.keyParts = [table.name] := by
  rw [schema_pieces plain, row_pieces rowPlain]
  constructor
  · intro same
    rcases List.cons.inj same with ⟨name, rest⟩
    exact ⟨name.symm, parts_of_single rest.symm⟩
  · intro same
    rw [same.1, same.2, pieces_cons_plain plain]
    rfl

end Keys

section Every

variable {alphanumeric : Alphanumeric} {ddl statements : List Statement}

/-- What `Apart` says, entry by entry. -/
theorem Apart.agrees (apart : Apart (analyseStatements alphanumeric ddl) statements)
    {left right : Entry}
    (leftMember : left ∈ importEntries (analyseStatements alphanumeric ddl) statements)
    (rightMember : right ∈ importEntries (analyseStatements alphanumeric ddl) statements)
    (same : pieces ':' left.parts = pieces ':' right.parts) : left.Agrees right := by
  cases left with
  | schema table =>
      have plain := plan_table_plain (mem_schema_iff.mp leftMember)
      cases right with
      | schema other =>
          have otherPlain := plan_table_plain (mem_schema_iff.mp rightMember)
          rw [schema_pieces plain, schema_pieces otherPlain] at same
          have names := List.cons.inj (List.cons.inj same).2
          exact apart.tables table (mem_schema_iff.mp leftMember) other
            (mem_schema_iff.mp rightMember) names.1
      | row row =>
          have rowPlain := row_table_plain (mem_row_iff.mp rightMember).1
          rcases (schema_row_iff plain rowPlain).mp same with ⟨name, single⟩
          exact apart.schemas row rightMember name table (mem_schema_iff.mp leftMember) single
      | rel row fk fkValue =>
          rw [schema_pieces plain, rel_pieces] at same
          exact absurd (List.cons.inj same).1 (by decide)
  | row row =>
      have rowPlain := row_table_plain (mem_row_iff.mp leftMember).1
      cases right with
      | schema table =>
          have plain := plan_table_plain (mem_schema_iff.mp rightMember)
          rcases (schema_row_iff plain rowPlain).mp same.symm with ⟨name, single⟩
          exact apart.schemas row leftMember name table (mem_schema_iff.mp rightMember) single
      | row other =>
          have otherPlain := row_table_plain (mem_row_iff.mp rightMember).1
          rw [row_pieces rowPlain, row_pieces otherPlain] at same
          rcases List.cons.inj same with ⟨name, rest⟩
          have table := table_unique (mem_row_iff.mp leftMember).1 (mem_row_iff.mp rightMember).1 name
          exact ⟨table, apart.rows row other leftMember rightMember table rest⟩
      | rel other fk fkValue =>
          rw [row_pieces rowPlain, rel_pieces] at same
          rcases List.cons.inj same with ⟨name, rest⟩
          exact apart.rowsOfRel row leftMember name other fk fkValue rightMember rest
  | rel row fk fkValue =>
      cases right with
      | schema table =>
          rw [schema_pieces (plan_table_plain (mem_schema_iff.mp rightMember)), rel_pieces] at same
          exact absurd (List.cons.inj same).1 (by decide)
      | row other =>
          rw [row_pieces (row_table_plain (mem_row_iff.mp rightMember).1), rel_pieces] at same
          rcases List.cons.inj same with ⟨name, rest⟩
          exact apart.rowsOfRel other rightMember name.symm row fk fkValue leftMember rest.symm
      | rel other otherFk otherValue =>
          rw [rel_pieces, rel_pieces] at same
          exact apart.rels row fk fkValue other otherFk otherValue leftMember rightMember
            (List.cons.inj same).2

theorem keepsApart_iff (alphanumeric : Alphanumeric) (ddl statements : List Statement) :
    KeepsApart (analyseStatements alphanumeric ddl) statements ↔
      Apart (analyseStatements alphanumeric ddl) statements := by
  constructor
  · intro kept
    refine ⟨?_, ?_, ?_, ?_, ?_⟩
    · intro left leftMember right rightMember same
      apply kept (.schema left) (mem_schema_iff.mpr leftMember) (.schema right)
        (mem_schema_iff.mpr rightMember)
      exact congrArg (fun name => Text.asBytes ("_schema:".toList ++ name)) same
    · intro left right leftMember rightMember table same
      have pieces : pieces ':' (Entry.row left).parts = pieces ':' (Entry.row right).parts := by
        rw [row_pieces (row_table_plain (mem_row_iff.mp leftMember).1),
          row_pieces (row_table_plain (mem_row_iff.mp rightMember).1), table, same]
      exact (kept _ leftMember _ rightMember ((key_eq_iff leftMember rightMember).mpr pieces)).2
    · intro row member name table there single
      have schema := (@mem_schema_iff statements _ _).mpr there
      have pieces := (schema_row_iff (plan_table_plain there)
        (row_table_plain (mem_row_iff.mp member).1)).mpr ⟨name, single⟩
      exact kept _ schema _ member ((key_eq_iff schema member).mpr pieces)
    · intro row member name other fk fkValue otherMember same
      have pieces : pieces ':' (Entry.row row).parts =
          pieces ':' (Entry.rel other fk fkValue).parts := by
        rw [row_pieces (row_table_plain (mem_row_iff.mp member).1), rel_pieces, name, same]
      exact kept _ member _ otherMember ((key_eq_iff member otherMember).mpr pieces)
    · intro left leftFk leftValue right rightFk rightValue leftMember rightMember same
      have pieces : pieces ':' (Entry.rel left leftFk leftValue).parts =
          pieces ':' (Entry.rel right rightFk rightValue).parts := by
        rw [rel_pieces, rel_pieces, same]
      exact kept _ leftMember _ rightMember ((key_eq_iff leftMember rightMember).mpr pieces)
  · intro apart left leftMember right rightMember same
    exact apart.agrees leftMember rightMember ((key_eq_iff leftMember rightMember).mp same)

end Every

end Import

end TricPlus
