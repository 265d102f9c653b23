import TricPlus.Query

/-!
The syntax trees of the SQL library, with the clauses that the operations pass over.

Of a clause that no operation reads only that it is there is kept.  What the operations
read of a tree is the tree of the SQL subset.
-/

namespace TricPlus

namespace Ast

inductive BinaryOperator where
  | eq
  | other
  deriving DecidableEq

inductive Expr where
  | identifier (value : Bytes)
  | value (value : Sql.Value)
  | binaryOp (left : Expr) (op : BinaryOperator) (right : Expr)
  | like (negated any : Bool) (expr pattern : Expr) (escapeChar : Option Bytes)
  | function (name : Bytes) (args : List Expr)
  /-- A query in an expression: `Subquery`, `Exists` or `InSubquery`. -/
  | subquery (text : Bytes)
  | other (text : Bytes) (parts : List Expr)

/-- The optional parts of the statements, by their fields. -/
inductive Clause where
  | withClause
  | orderBy
  | limit
  | limitBy
  | offset
  | fetch
  | locks
  | forClause
  | settings
  | formatClause
  | distinct
  | top
  | intoClause
  | lateralViews
  | prewhere
  | groupBy
  | clusterBy
  | distributeBy
  | sortBy
  | having
  | namedWindow
  | qualify
  | valueTableMode
  | connectBy
  | orClause
  | ignore
  | columns
  | overwrite
  | partitioned
  | afterColumns
  | onClause
  | returning
  | replaceInto
  | priority
  | fromClause
  | usingClause
  | tables
  | args
  | withHints
  | version
  | withOrdinality
  | partitions
  deriving DecidableEq

inductive SelectItem where
  | wildcard
  | expr (expr : Expr)
  | other

inductive TableFactor where
  | table (name : Bytes) (clauses : List Clause)
  | derived
  | other

structure TableWithJoins where
  relation : TableFactor
  joins : List TableFactor

structure Select where
  projection : List SelectItem
  tables : List TableWithJoins
  selection : Option Expr
  clauses : List Clause

inductive SetExpr where
  | select (select : Select)
  | values (rows : List (List Expr))
  | other

structure Query where
  body : SetExpr
  clauses : List Clause

structure Insert where
  tableName : Bytes
  source : Option Query
  clauses : List Clause

structure Assignment where
  /-- The name of the column that is meant, as a schema has it: without quotation marks. -/
  target : Bytes
  value : Expr

structure Update where
  table : TableWithJoins
  assignments : List Assignment
  selection : Option Expr
  clauses : List Clause

structure Delete where
  tables : List TableWithJoins
  selection : Option Expr
  clauses : List Clause

inductive Statement where
  | query (query : Query)
  | insert (insert : Insert)
  | update (update : Update)
  | delete (delete : Delete)
  | other

end Ast

/-- What is used of the library and of Unicode: the statements of a text, how an expression
is displayed, and lowercase. -/
structure SqlLibrary where
  parseSql : Bytes → Option (List Ast.Statement)
  display : Ast.Expr → Bytes
  toLowercase : Bytes → Bytes

namespace SqlLibrary

variable (library : SqlLibrary)

/-- A value to be stored: a literal, or the text it is displayed as. -/
def stored : Ast.Expr → Sql.Expr
  | .value value => .value value
  | expr => .other (library.display expr)

def operand : Ast.Expr → Sql.Expr
  | .identifier value => .identifier value
  | .value value => .value value
  | expr => .other (library.display expr)

/-- A condition; the flags of `LIKE` and its escape are not read. -/
def condition : Ast.Expr → Sql.Expr
  | .binaryOp left .eq right => .binaryOpEq (library.operand left) (library.operand right)
  | .like _ _ expr pattern _ => .like (library.operand expr) (library.operand pattern)
  | expr => .other (library.display expr)

def factor (table : Ast.TableWithJoins) : Sql.TableFactor :=
  match table.relation with
  | .table name _ => .table name
  | .derived => .other
  | .other => .other

def body : Ast.SetExpr → Sql.SetExpr
  | .select select =>
      .select (select.tables.map factor) (select.selection.map library.condition)
  | .values rows => .values (rows.map (List.map library.stored))
  | .other => .other

def statement : Ast.Statement → Sql.Statement
  | .query query => .query (library.body query.body)
  | .insert insert =>
      .insert insert.tableName (insert.source.map (fun source => library.body source.body))
  | .update update =>
      .update (factor update.table)
        (update.assignments.map (fun assignment => library.stored assignment.value))
        (update.selection.map library.condition)
  | .delete delete => .delete (delete.tables.map factor) (delete.selection.map library.condition)
  | .other => .other

/-- The text of an expression that is stored as it is displayed. -/
def text : Sql.Expr → Bytes
  | .other text => text
  | .value (.other text) => text
  | _ => []

/-- The library as the operations use it. -/
def parser : SqlParser where
  parseSql sql := (library.parseSql sql).map (List.map library.statement)
  display := text
  toLowercase := library.toLowercase

end SqlLibrary

end TricPlus
