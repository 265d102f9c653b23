import TricPlus.DiffCalls

/-!
The SQL import: the analyser makes a storage plan of the statements, and the rows of the
INSERT statements are written under keys that the plan gives them.

A dump is the list of statements its parser makes of it.  Object names, data types and
expressions other than literals are the texts that the syntax tree prints for them.
-/

namespace TricPlus

open AtomicProgram

abbrev Text := List Char

def Text.asBytes (text : Text) : Bytes := TricPlus.asBytes (String.ofList text)

/-- `is_alphanumeric`: fixed on ASCII, beyond it whatever the version of Unicode makes it. -/
structure Alphanumeric where
  holds : Char → Bool
  ascii : ∀ character : Char, character.val < 128 → holds character = character.isAlphanum

/-- The dialects of SQL that are told apart. -/
inductive Dialect where
  | mysql
  | postgres
  | sqlite
  | generic
  deriving DecidableEq

namespace SqlDump

inductive Expr where
  | number (number : Text)
  | singleQuotedString (text : Text)
  | doubleQuotedString (text : Text)
  | null
  | boolean (boolean : Bool)
  | other (rendered : Text)
  deriving DecidableEq

inductive ColumnOption where
  | unique (isPrimary : Bool)
  | foreignKey (foreignTable : Text) (referredColumns : List Text)
  | other
  deriving DecidableEq

structure ColumnDef where
  name : Text
  dataType : Text
  options : List ColumnOption
  deriving DecidableEq

inductive TableConstraint where
  | primaryKey (columns : List Text)
  | foreignKey (columns : List Text) (foreignTable : Text) (referredColumns : List Text)
  | other
  deriving DecidableEq

structure CreateTable where
  name : Text
  columns : List ColumnDef
  constraints : List TableConstraint
  deriving DecidableEq

inductive Source where
  | values (rows : List (List Expr))
  | other
  deriving DecidableEq

structure Insert where
  tableName : Text
  columns : List Text
  source : Option Source
  deriving DecidableEq

inductive Statement where
  | createTable (createTable : CreateTable)
  | insert (insert : Insert)
  | other
  deriving DecidableEq

end SqlDump

structure ColumnPlan where
  name : Text
  dataType : Text
  isPrimaryKey : Bool
  deriving DecidableEq

structure ForeignKeyPlan where
  column : Text
  referencesTable : Text
  referencesColumn : Text
  deriving DecidableEq

structure TablePlan where
  name : Text
  columns : List ColumnPlan
  primaryKey : List Text
  foreignKeys : List ForeignKeyPlan
  ttlColumn : Option Text
  deriving DecidableEq

structure StoragePlan where
  tables : List TablePlan
  deriving DecidableEq

namespace Analyser

open SqlDump

/-- The name without its quotes, the grave accents and the double ones. -/
def unquoted (name : Text) : Text :=
  name.filter (fun character => character ≠ Char.ofNat 0x60 ∧ character ≠ Char.ofNat 0x22)

def parseTableNameRaw (alphanumeric : Alphanumeric) (name : Text) : Text :=
  (unquoted name).filter (fun character => alphanumeric.holds character || character = '_')

def inlinePrimaryKey : List ColumnDef → List Text
  | [] => []
  | column :: columns =>
      if ColumnOption.unique true ∈ column.options then [column.name]
      else inlinePrimaryKey columns

def constraintPrimaryKey : List TableConstraint → Option (List Text)
  | [] => none
  | .primaryKey columns :: _ => some columns
  | _ :: constraints => constraintPrimaryKey constraints

def findPrimaryKeyColumns (columns : List ColumnDef) (constraints : List TableConstraint) :
    List Text :=
  (constraintPrimaryKey constraints).getD (inlinePrimaryKey columns)

def foreignKeyPlan : TableConstraint → Option ForeignKeyPlan
  | .foreignKey (column :: _) foreignTable (referredColumn :: _) =>
      some ⟨column, foreignTable, referredColumn⟩
  | _ => none

def findForeignKeys (constraints : List TableConstraint) : List ForeignKeyPlan :=
  constraints.filterMap foreignKeyPlan

def ttlNames : List Text :=
  ["expires_at".toList, "expire_time".toList, "valid_until".toList, "ttl".toList,
    "last_seen".toList, "expiry".toList]

/-- Beyond ASCII no character has a lower case that is a letter of one of the names. -/
def findTtlCandidate (columns : List ColumnDef) : Option Text :=
  (columns.find? (fun column => column.name.map Char.toLower ∈ ttlNames)).map ColumnDef.name

def analyseCreateTable (alphanumeric : Alphanumeric) (create : CreateTable) : Option TablePlan :=
  let sanitisedName := parseTableNameRaw alphanumeric create.name
  if sanitisedName = [] then none
  else
    let primaryKeyColumns := findPrimaryKeyColumns create.columns create.constraints
    some {
      name := sanitisedName
      columns := create.columns.map (fun column =>
        ⟨column.name, column.dataType, column.name ∈ primaryKeyColumns⟩)
      primaryKey := primaryKeyColumns
      foreignKeys := findForeignKeys create.constraints
      ttlColumn := findTtlCandidate create.columns }

def analyseStatements (alphanumeric : Alphanumeric) (statements : List Statement) : StoragePlan where
  tables := statements.filterMap (fun statement =>
    match statement with
    | .createTable create => analyseCreateTable alphanumeric create
    | _ => none)

def renderColumn (table : TablePlan) (column : ColumnPlan) : Text :=
  let line := column.name ++ ":".toList ++ column.dataType
  let line := if column.isPrimaryKey then line ++ ":pk".toList else line
  let line :=
    match table.foreignKeys.find? (fun fk => fk.column = column.name) with
    | some fk => line ++ ":fk=".toList ++ fk.referencesTable ++ ".".toList ++ fk.referencesColumn
    | none => line
  let line := if table.ttlColumn = some column.name then line ++ ":ttl".toList else line
  line ++ "\n".toList

def renderSchemaEntry (table : TablePlan) : Text :=
  table.columns.flatMap (renderColumn table)

end Analyser

structure ImportResult where
  tables : Nat
  rows : Nat
  relationships : Nat
  errors : Nat
  deriving DecidableEq

namespace Import

open SqlDump

def parseValue : Expr → Text
  | .number number => number
  | .singleQuotedString text => text
  | .doubleQuotedString text => text
  | .null => []
  | .boolean true => "true".toList
  | .boolean false => "false".toList
  | .other rendered => rendered

def columnText (table : TablePlan) (values : List Expr) (name : Text) : Option Text := do
  let index ← table.columns.findIdx? (fun column => column.name = name)
  let value ← values[index]?
  some (parseValue value)

def keyParts (table : TablePlan) (values : List Expr) : List Text :=
  table.primaryKey.filterMap (columnText table values)

def join (separator : Char) (parts : List Text) : Text :=
  [separator].intercalate parts

def rowKey (table : TablePlan) (keyParts : List Text) : Text :=
  table.name ++ ":".toList ++ join ':' keyParts

def rowValue (table : TablePlan) (values : List Expr) : Text :=
  join '\n' (((table.columns.zip values).filter (fun pair => !pair.1.isPrimaryKey)).map
    (fun pair => parseValue pair.2))

def relKey (fk : ForeignKeyPlan) (fkValue : Text) (table : TablePlan) (keyParts : List Text) :
    Text :=
  "_rel:".toList ++ fk.referencesTable ++ ":".toList ++ fkValue ++ ":".toList ++ table.name ++
    ":".toList ++ join ':' keyParts

def writeRelationships (table : TablePlan) (values : List Expr) :
    List ForeignKeyPlan → Nat → BusProgram Nat
  | [], relationshipCount => return relationshipCount
  | fk :: foreignKeys, relationshipCount =>
      match columnText table values fk.column with
      | some fkValue => do
          DataBus.writeValue (relKey fk fkValue table (keyParts table values)).asBytes []
          writeRelationships table values foreignKeys (relationshipCount + 1)
      | none => writeRelationships table values foreignKeys relationshipCount

def writeRow (table : TablePlan) (values : List Expr) : BusProgram (Option Nat) :=
  if values.length ≠ table.columns.length then return none
  else if keyParts table values = [] then return none
  else do
    DataBus.writeValue (rowKey table (keyParts table values)).asBytes
      (rowValue table values).asBytes
    let relationshipCount ← writeRelationships table values table.foreignKeys 0
    return some relationshipCount

def schemaKey (table : TablePlan) : Text := "_schema:".toList ++ table.name

def writeSchemas : List TablePlan → ImportResult → BusProgram ImportResult
  | [], result => return result
  | table :: tables, result => do
      DataBus.writeValue (schemaKey table).asBytes (Analyser.renderSchemaEntry table).asBytes
      writeSchemas tables { result with tables := result.tables + 1 }

def writeRows (table : TablePlan) : List (List Expr) → ImportResult → BusProgram ImportResult
  | [], result => return result
  | row :: rows, result => do
      match ← writeRow table row with
      | some relationshipCount =>
          writeRows table rows
            { result with
              rows := result.rows + 1
              relationships := result.relationships + relationshipCount }
      | none => writeRows table rows { result with errors := result.errors + 1 }

/-- The table of the plan that an INSERT finds. -/
def findTable (plan : StoragePlan) (insert : Insert) : Option TablePlan :=
  plan.tables.find? (fun table => table.name = Analyser.unquoted insert.tableName)

def writeInserts (plan : StoragePlan) : List Statement → ImportResult → BusProgram ImportResult
  | [], result => return result
  | .insert insert :: statements, result =>
      match findTable plan insert with
      | none => writeInserts plan statements result
      | some tablePlan =>
          match insert.source with
          | some (.values rows) => do
              let result ← writeRows tablePlan rows result
              writeInserts plan statements result
          | _ => writeInserts plan statements result
  | _ :: statements, result => writeInserts plan statements result

def parseImport (statements : List Statement) (plan : StoragePlan) : BusProgram ImportResult := do
  let result ← writeSchemas plan.tables ⟨0, 0, 0, 0⟩
  writeInserts plan statements result

end Import

end TricPlus
