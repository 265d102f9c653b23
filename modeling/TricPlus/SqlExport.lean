import TricPlus.Export
import TricPlus.ImportKeys
import TricPlus.Lib.Lines

/-!
The SQL export: for each schema entry a CREATE TABLE, and for each row an INSERT, put together
from the row's key and value by what the schema entry says of its columns.

A schema entry is a line for each column: its name, its data type and markers, with colons
between them.
-/

namespace TricPlus

open AtomicProgram

/-- The upper case of a text: fixed on ASCII, beyond it whatever the version of Unicode makes it. -/
structure Uppercase where
  of : Text → Text
  ascii : ∀ text : Text, (∀ character ∈ text, character.val < 128) → of text = text.map Char.toUpper

/-- `String::from_utf8_lossy` -/
def lossyText (bytes : Bytes) : Text :=
  ((String.fromUTF8? (Utf8.lossy bytes).toByteArray).getD "").toList

/-- The file that is written, once it could be created: whether it takes a text. -/
structure TextFile where
  write : Text → Except Bytes Unit

namespace SqlExport

/-- What is read of a schema entry for the rows. -/
structure SchemaColumn where
  dataType : Text
  isPk : Bool
  deriving DecidableEq

def schemaParts (schema : Text) : List (List Text) :=
  ((Lines.lines '\n' '\r' schema).filter (fun line => line ≠ [])).map (List.splitOn ':')

def partType (parts : List Text) : Text := parts.getD 1 "TEXT".toList

def partsPk (parts : List Text) : Bool := parts.contains "pk".toList

def parseSchemaColumns (schema : Text) : List SchemaColumn :=
  (schemaParts schema).map (fun parts =>
    { dataType := partType parts
      isPk := partsPk parts })

def mapTypeToDialect (uppercase : Uppercase) (tricType : Text) (dialect : Dialect) : Text :=
  let upper := uppercase.of tricType
  if (upper = "INT".toList ∨ upper = "INTEGER".toList) ∧ dialect = .sqlite then "INTEGER".toList
  else if upper = "BOOLEAN".toList ∧ dialect = .mysql then "TINYINT(1)".toList
  else if upper = "BOOLEAN".toList ∧ dialect = .sqlite then "INTEGER".toList
  else if (upper = "TIMESTAMP".toList ∨ upper = "DATETIME".toList) ∧ dialect = .sqlite then
    "TEXT".toList
  else tricType

def backtick : Char := Char.ofNat 0x60

def quoteTableName (name : Text) : Dialect → Text
  | .mysql => [backtick] ++ name ++ [backtick]
  | _ => name

def quoteColumnName (name : Text) : Dialect → Text
  | .mysql => [backtick] ++ name ++ [backtick]
  | .postgres => "\"".toList ++ name ++ "\"".toList
  | _ => name

/-- The names of the columns and their types as they stand in the schema entry. -/
def createColumns (schema : Text) : List (Text × Text) :=
  (schemaParts schema).map (fun parts => (parts.headD "unknown".toList, partType parts))

/-- `pk_columns` -/
def createPkColumns (schema : Text) : List Text :=
  ((schemaParts schema).filter partsPk).map (fun parts => parts.headD "unknown".toList)

def columnDefinition (uppercase : Uppercase) (dialect : Dialect) (column : Text × Text) : Text :=
  "    ".toList ++ quoteColumnName column.1 dialect ++ " ".toList ++
    mapTypeToDialect uppercase column.2 dialect

def primaryKeyDefinition (dialect : Dialect) (pkColumns : List Text) : List Text :=
  if pkColumns = [] then []
  else
    ["    PRIMARY KEY (".toList ++
      ", ".toList.intercalate (pkColumns.map (fun column => quoteColumnName column dialect)) ++
      ")".toList]

def createTableText (uppercase : Uppercase) (tableName : Text) (dialect : Dialect)
    (columns : List (Text × Text)) (pkColumns : List Text) : Text :=
  "CREATE TABLE ".toList ++ quoteTableName tableName dialect ++ " (\n".toList ++
    ",\n".toList.intercalate
      (columns.map (columnDefinition uppercase dialect) ++
        primaryKeyDefinition dialect pkColumns) ++
    "\n);".toList

def buildCreateTable (uppercase : Uppercase) (tableName schema : Text) (dialect : Dialect) : Text :=
  createTableText uppercase tableName dialect (createColumns schema) (createPkColumns schema)

def numericTypes : List Text :=
  ["INT".toList, "DECIMAL".toList, "NUMERIC".toList, "REAL".toList, "FLOAT".toList,
    "DOUBLE".toList]

def isNumericType (uppercase : Uppercase) (dataType : Text) : Bool :=
  numericTypes.any (fun stem => stem.isPrefixOf (uppercase.of dataType))

/-- `value.replace('\'', "''")` -/
def doubleQuotes (value : Text) : Text :=
  value.flatMap (fun character => if character = '\'' then ['\'', '\''] else [character])

def formatSqlValue (uppercase : Uppercase) (value dataType : Text) : Text :=
  if isNumericType uppercase dataType then
    if value = [] then "NULL".toList else value
  else if value = [] then "NULL".toList
  else ['\''] ++ doubleQuotes value ++ ['\'']

/-- The loop over the columns: a column of the key gets the text of the key, and every other one
the next line of the value, as long as there is one. -/
def placeValues (pkValue : Text) : List SchemaColumn → List Text → List (SchemaColumn × Text)
  | [], _ => []
  | column :: columns, valueParts =>
      if column.isPk then (column, pkValue) :: placeValues pkValue columns valueParts
      else
        match valueParts with
        | [] => placeValues pkValue columns []
        | part :: valueParts => (column, part) :: placeValues pkValue columns valueParts

/-- A row of the schema, put together from the text of its key and its value. -/
def rowValues (columns : List SchemaColumn) (pkValue value : Text) : List (SchemaColumn × Text) :=
  placeValues pkValue columns (value.splitOn '\n')

def insertStatement (uppercase : Uppercase) (tableName : Text) (dialect : Dialect)
    (values : List (SchemaColumn × Text)) : Text :=
  "INSERT INTO ".toList ++ quoteTableName tableName dialect ++ " VALUES (".toList ++
    ", ".toList.intercalate (values.map (fun placed =>
      formatSqlValue uppercase placed.2 placed.1.dataType)) ++
    ");\n".toList

def schemaStem : Bytes := asBytes "_schema:"

def writeFailed (error : Bytes) : Bytes := asBytes "write failed: " ++ error

/-- What has been written so far, and its counts. -/
structure Written where
  text : Text
  entries : Nat
  bytesWritten : Nat
  deriving DecidableEq

def Written.write (file : TextFile) (written : Written) (text : Text) : Except Bytes Written :=
  match file.write text with
  | .error error => .error (writeFailed error)
  | .ok () => .ok { written with text := written.text ++ text }

def writeRows (uppercase : Uppercase) (file : TextFile) (tableName : Text) (dialect : Dialect)
    (columns : List SchemaColumn) : List (Bytes × Bytes) → Written → Except Bytes Written
  | [], written => .ok written
  | (key, value) :: rows, written => do
      let pkValue := (lossyText key).drop (tableName.length + 1)
      let values := rowValues columns pkValue (lossyText value)
      let written ← written.write file (insertStatement uppercase tableName dialect values)
      writeRows uppercase file tableName dialect columns rows
        { written with entries := written.entries + 1 }

def writeTables (uppercase : Uppercase) (file : TextFile) (dialect : Dialect) :
    List (Bytes × Bytes) → Written → BusProgram (Except Bytes Written)
  | [], written => return .ok written
  | (schemaKey, schemaValue) :: schemas, written =>
      let tableName := lossyText ((schemaKey.dropPrefix? schemaStem).getD schemaKey)
      let schema := lossyText schemaValue
      match written.write file (buildCreateTable uppercase tableName schema dialect ++ ['\n']) with
      | .error error => return .error error
      | .ok written => do
          let rows ← DataBus.findByPrefix (Text.asBytes (tableName ++ [':']))
          match writeRows uppercase file tableName dialect (parseSchemaColumns schema) rows
              written with
          | .error error => return .error error
          | .ok written =>
              writeTables uppercase file dialect schemas
                { written with bytesWritten := written.bytesWritten + schemaValue.length }

def writeSqlFile (uppercase : Uppercase) (files : Files) (file : TextFile) (path : Bytes)
    (dialect : Dialect) : BusProgram (Except Bytes (Text × ExportResult)) :=
  match files.create path with
  | .error error => return .error (asBytes "cannot create " ++ path ++ asBytes ": " ++ error)
  | .ok () => do
      let schemas ← DataBus.findByPrefix schemaStem
      let written ← writeTables uppercase file dialect schemas ⟨[], 0, 0⟩
      return written.map (fun written => (written.text, ⟨written.entries, written.bytesWritten⟩))

end SqlExport

end TricPlus
