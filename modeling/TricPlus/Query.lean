import TricPlus.Codec

/-!
The SQL subset, as operations on keys and values.

The parser is a library.  Of its syntax trees only what the operations look at is
kept; every other form is one constructor, with the text it is displayed as.
-/

namespace TricPlus

open AtomicProgram

namespace Sql

inductive Value where
  | number (text : Bytes)
  | singleQuotedString (text : Bytes)
  | doubleQuotedString (text : Bytes)
  | null
  | boolean (truth : Bool)
  | other (text : Bytes)

inductive Expr where
  | identifier (value : Bytes)
  | value (value : Value)
  | binaryOpEq (left right : Expr)
  | like (expr pattern : Expr)
  | other (text : Bytes)

inductive TableFactor where
  | table (name : Bytes)
  | other

inductive SetExpr where
  | select (tables : List TableFactor) (selection : Option Expr)
  | values (rows : List (List Expr))
  | other

inductive Statement where
  | query (body : SetExpr)
  | insert (tableName : Bytes) (source : Option SetExpr)
  | update (table : TableFactor) (assignments : List Expr) (selection : Option Expr)
  | delete (tables : List TableFactor) (selection : Option Expr)
  | other

end Sql

/-- What is used of the library and of Unicode: the statements of a text, which is
decoded as `from_utf8_lossy` does, how an expression is displayed, and lowercase. -/
structure SqlParser where
  parseSql : Bytes → Option (List Sql.Statement)
  display : Sql.Expr → Bytes
  toLowercase : Bytes → Bytes

namespace Query

inductive WhereCondition where
  | keyEquals (value : Bytes)
  | keyLikePrefix (stem : Bytes)
  | none
  | unsupported

def checkKeyColumn (parser : SqlParser) : Sql.Expr → Bool
  | .identifier value => parser.toLowercase value = asBytes "key"
  | _ => false

def parseStringValue : Sql.Expr → Option Bytes
  | .value (.singleQuotedString text) => some text
  | .value (.number text) => some text
  | _ => none

def parseExprValue (parser : SqlParser) (expr : Sql.Expr) : Bytes :=
  match expr with
  | .value (.number text) => text
  | .value (.singleQuotedString text) => text
  | .value (.doubleQuotedString text) => text
  | .value .null => []
  | .value (.boolean truth) => asBytes (toString truth)
  | _ => parser.display expr

/-- `strip_suffix('%')`. -/
def stripPercent (pattern : Bytes) : Option Bytes :=
  if pattern.getLast? = some 0x25 then some pattern.dropLast else none

def parseWhereCondition (parser : SqlParser) : Option Sql.Expr → WhereCondition
  | none => .none
  | some (.binaryOpEq left right) =>
      if checkKeyColumn parser left then
        match parseStringValue right with
        | some value => .keyEquals value
        | none => .unsupported
      else .unsupported
  | some (.like left pattern) =>
      if checkKeyColumn parser left then
        match (parseStringValue pattern).bind stripPercent with
        | some stem => .keyLikePrefix stem
        | none => .unsupported
      else .unsupported
  | some _ => .unsupported

/-- Backticks and double quotes are dropped from a name. -/
def plainName (name : Bytes) : Bytes :=
  name.filter (fun byte => decide (byte ≠ 0x60 ∧ byte ≠ 0x22))

def parseSingleTableName : Sql.TableFactor → Option Bytes
  | .table name => some (plainName name)
  | .other => none

def parseTableName (tables : List Sql.TableFactor) : Option Bytes :=
  tables.head?.bind parseSingleTableName

def fullKey (tableName value : Bytes) : Bytes :=
  tableName ++ asBytes ":" ++ value

def malformed (requestId : Nat) (message : String) : List Response :=
  [createError requestId errorMalformedOpcode (asBytes message)]

def scan (requestId : Nat) (stem : Bytes) : BusProgram (List Response) := do
  let pairs ← DataBus.findByPrefix stem
  return scanResponses requestId (pairs.map pairEntry)

def parseSelect (parser : SqlParser) (requestId : Nat) (body : Sql.SetExpr) :
    BusProgram (List Response) :=
  match body with
  | .select tables selection =>
      match parseTableName tables with
      | none => return malformed requestId "missing FROM table"
      | some tableName =>
          match parseWhereCondition parser selection with
          | .keyEquals keyValue => do
              match ← DataBus.readValue (fullKey tableName keyValue) with
              | some value => return [createPayload requestId (lengthPrefixed value)]
              | none => return [createOk requestId]
          | .keyLikePrefix stem => scan requestId (fullKey tableName stem)
          | .none => scan requestId (fullKey tableName [])
          | .unsupported => return malformed requestId "unsupported WHERE condition"
  | _ => return malformed requestId "unsupported query form"

def schemaKey (tableName : Bytes) : Bytes :=
  asBytes "_schema:" ++ tableName

/-- `join("\n")`. -/
def joinLines (parts : List Bytes) : Bytes :=
  (parts.intersperse (asBytes "\n")).flatten

def rowKey (parser : SqlParser) (tableName : Bytes) (pk : Sql.Expr) : Bytes :=
  fullKey tableName (parseExprValue parser pk)

def insertRows (parser : SqlParser) (tableName : Bytes) :
    List (List Sql.Expr) → BusProgram Unit
  | [] => return ()
  | [] :: rows => insertRows parser tableName rows
  | (pk :: columns) :: rows => do
      DataBus.writeValue (rowKey parser tableName pk)
        (joinLines (columns.map (parseExprValue parser)))
      insertRows parser tableName rows

def schemaText (columns : Nat) : Bytes :=
  asBytes "col0:INT:pk\n" ++
    (List.range' 1 (columns - 1)).flatMap
      (fun index => asBytes "col" ++ asBytes (toString index) ++ asBytes ":TEXT\n")

def parseInsert (parser : SqlParser) (requestId : Nat) (tableName : Bytes)
    (source : Option Sql.SetExpr) : BusProgram (List Response) := do
  let name := plainName tableName
  let schemaData ← DataBus.readValue (schemaKey name)
  match source with
  | some (.values rows) =>
      insertRows parser name rows
      match schemaData, rows with
      | none, first :: _ => DataBus.writeValue (schemaKey name) (schemaText first.length)
      | _, _ => pure ()
      return [createOk requestId]
  | _ => return malformed requestId "INSERT without VALUES"

def parseUpdate (parser : SqlParser) (requestId : Nat) (table : Sql.TableFactor)
    (assignments : List Sql.Expr) (selection : Option Sql.Expr) : BusProgram (List Response) :=
  match parseSingleTableName table with
  | none => return malformed requestId "unsupported UPDATE table"
  | some tableName =>
      match parseWhereCondition parser selection with
      | .keyEquals keyValue => do
          let current ← DataBus.readValue (fullKey tableName keyValue)
          if current.isSome ∧ assignments ≠ [] then
            DataBus.writeValue (fullKey tableName keyValue)
              (joinLines (assignments.map (parseExprValue parser)))
          return [createOk requestId]
      | _ => return malformed requestId "UPDATE requires WHERE key = ..."

def parseDelete (parser : SqlParser) (requestId : Nat) (tables : List Sql.TableFactor)
    (selection : Option Sql.Expr) : BusProgram (List Response) :=
  match tables with
  | [] => return malformed requestId "DELETE without FROM"
  | .other :: _ => return malformed requestId "unsupported DELETE table"
  | .table name :: _ =>
      match parseWhereCondition parser selection with
      | .keyEquals keyValue => do
          DataBus.deleteValue (fullKey (plainName name) keyValue)
          return [createOk requestId]
      | _ => return malformed requestId "DELETE requires WHERE key = ..."

def runStatement (parser : SqlParser) (requestId : Nat) :
    Sql.Statement → BusProgram (List Response)
  | .query body => parseSelect parser requestId body
  | .insert tableName source => parseInsert parser requestId tableName source
  | .update table assignments selection =>
      parseUpdate parser requestId table assignments selection
  | .delete tables selection => parseDelete parser requestId tables selection
  | .other => return malformed requestId "unsupported SQL statement"

def parseQuery (parser : SqlParser) (sql : Bytes) (requestId : Nat) :
    BusProgram (List Response) :=
  match parser.parseSql sql with
  | none => return malformed requestId "invalid SQL"
  | some [] => return malformed requestId "empty SQL"
  | some (statement :: _) => runStatement parser requestId statement

end Query

end TricPlus
