import TricPlus.SqlExport
import TricPlus.Lib.SqlLiteral

/-!
Values as the SQL export writes them, and what the SQL library reads of them.

Whether a value is put in quotes depends on the type of its column alone, and in quotes nothing
but the quotes is escaped, whatever the dialect.
-/

namespace TricPlus

open SqlDump SqlLiteral

/-- What the SQL library makes of a backslash in quotes, and which literals it reads besides
numbers, NULL, truth values and texts in quotes.  What follows the comma or the bracket behind
such a literal does not change it. -/
structure LiteralReader where
  mysqlEscapes : Escapes
  genericEscapes : Option Escapes
  otherLiteral : Dialect → Text → Option (Expr × Text)
  otherLiteral_stops : ∀ dialect text expr rest, Stops rest →
    otherLiteral dialect (text ++ rest) = some (expr, rest) →
      ∀ behind, Stops behind → otherLiteral dialect (text ++ behind) = some (expr, behind)

namespace LiteralReader

def escapes (reader : LiteralReader) : Dialect → Option Escapes
  | .mysql => some reader.mysqlEscapes
  | .generic => reader.genericEscapes
  | .postgres | .sqlite => none

def literalExpr : Literal → Expr
  | .number digits => .number digits
  | .signed sign digits => .other (sign :: digits)
  | .text content => .singleQuotedString content
  | .null => .null
  | .boolean truth => .boolean truth

def readLiteral (reader : LiteralReader) (dialect : Dialect) (text : Text) : Option (Expr × Text) :=
  match SqlLiteral.read (reader.escapes dialect) text with
  | some (literal, left) => some (literalExpr literal, left)
  | none => if text.head? = some '\'' then none else reader.otherLiteral dialect text

/-- The text is one literal, wherever it stands in a row. -/
def SingleLiteral (reader : LiteralReader) (dialect : Dialect) (text : Text) (expr : Expr) : Prop :=
  ∀ rest, Stops rest → reader.readLiteral dialect (text ++ rest) = some (expr, rest)

/-- The values of a row, read behind its opening bracket, and what is left behind the closing
one. -/
inductive ReadsValues (reader : LiteralReader) (dialect : Dialect) :
    Text → List Expr → Text → Prop where
  | last {text rest : Text} {expr : Expr}
      (reads : reader.readLiteral dialect text = some (expr, ')' :: rest)) :
      ReadsValues reader dialect text [expr] rest
  | next {text behind rest : Text} {expr : Expr} {exprs : List Expr}
      (reads : reader.readLiteral dialect text = some (expr, ',' :: ' ' :: behind))
      (others : ReadsValues reader dialect behind exprs rest) :
      ReadsValues reader dialect text (expr :: exprs) rest

end LiteralReader

namespace LiteralReader

variable {reader : LiteralReader} {dialect : Dialect} {text left rest : Text} {literal : Literal}

private theorem readLiteral_quote : reader.readLiteral dialect ('\'' :: text) =
    (readText (reader.escapes dialect) text).map (fun read => (.singleQuotedString read.1, read.2)) := by
  unfold readLiteral
  rw [show SqlLiteral.read (reader.escapes dialect) ('\'' :: text) =
    (readText (reader.escapes dialect) text).map (fun read => (.text read.1, read.2)) from rfl]
  cases readText (reader.escapes dialect) text <;> rfl

private theorem read_plain (given : text ≠ []) (plain : text.head? ≠ some '\'')
    (stops : Stops rest) :
    SqlLiteral.read (reader.escapes dialect) (text ++ rest) =
      (readPlain text).map (fun read => (read.1, read.2 ++ rest)) := by
  unfold SqlLiteral.read
  rw [List.head?_append_of_ne_nil _ given, if_neg plain, readPlain_stable text stops]

private theorem readLiteral_plain (given : text ≠ []) (plain : text.head? ≠ some '\'')
    (stops : Stops rest)
    (reads : readPlain text = some (literal, left)) :
    reader.readLiteral dialect (text ++ rest) = some (literalExpr literal, left ++ rest) := by
  unfold readLiteral
  rw [read_plain given plain stops, reads]
  rfl

private theorem readLiteral_other (given : text ≠ []) (plain : text.head? ≠ some '\'')
    (stops : Stops rest)
    (reads : readPlain text = none) :
    reader.readLiteral dialect (text ++ rest) = reader.otherLiteral dialect (text ++ rest) := by
  unfold readLiteral
  rw [read_plain given plain stops, reads, List.head?_append_of_ne_nil _ given]
  exact if_neg plain

theorem stops_bracket (behind : Text) : Stops (')' :: behind) := ⟨behind, Or.inr rfl⟩

private theorem stops_comma (behind : Text) : Stops (',' :: behind) := ⟨behind, Or.inl rfl⟩

private theorem single_null : reader.SingleLiteral dialect "NULL".toList .null :=
  fun _ stops => readLiteral_plain (by decide : "NULL".toList ≠ []) (by decide) stops rfl

end LiteralReader

namespace SqlExport

open LiteralReader Import

section Statements

variable (uppercase : Uppercase) (reader : LiteralReader) (dialect : Dialect)

/-- What is written of a value is one literal, and the import makes the value of it again. -/
def LiteralTravels (value dataType : Text) : Prop :=
  ∃ expr, reader.SingleLiteral dialect (formatSqlValue uppercase value dataType) expr ∧
    parseValue expr = value

/-- What stands behind a value of a row. -/
def following (back : List (SchemaColumn × Text)) : Text :=
  back.flatMap (fun placed => ", ".toList ++ formatSqlValue uppercase placed.2 placed.1.dataType) ++
    ");\n".toList

/-- What is written of the value is one literal where it stands, and the import makes the value of
it again. -/
def TravelsHere (value dataType rest : Text) : Prop :=
  ∃ expr, reader.readLiteral dialect (formatSqlValue uppercase value dataType ++ rest) =
      some (expr, rest) ∧ parseValue expr = value

/-- Each value of a row is one literal where it stands, and the import makes the value of it. -/
def InPlace (values : List (SchemaColumn × Text)) : Prop :=
  ∀ front placed back, values = front ++ placed :: back →
    TravelsHere uppercase reader dialect placed.2 placed.1.dataType (following uppercase back)

/-- The statement for a row is read value by value, and the whole as a row of as many values, of
which the import makes the row's texts again. -/
structure RowTravels (tableName : Text) (values : List (SchemaColumn × Text)) : Prop where
  inPlace : InPlace uppercase reader dialect values
  whole : ∃ text exprs,
    insertStatement uppercase tableName dialect values =
      "INSERT INTO ".toList ++ quoteTableName tableName dialect ++ " VALUES (".toList ++ text ∧
    reader.ReadsValues dialect text exprs ";\n".toList ∧
    exprs.map parseValue = values.map Prod.snd ∧
    ∀ others left, reader.ReadsValues dialect text others left →
      others = exprs ∧ left = ";\n".toList

/-- A literal of another kind, which the library prints as it stands. -/
def OtherLiteral (value : Text) : Prop :=
  value.head? ≠ some '\'' ∧ readPlain value = none ∧
    ∃ expr, (∀ rest, Stops rest → reader.otherLiteral dialect (value ++ rest) = some (expr, rest)) ∧
      parseValue expr = value

/-- In quotes no backslash stands for something else; without quotes the value is a number, a
truth value in lower case or a literal of another kind. -/
def WritesItself (value dataType : Text) : Prop :=
  if isNumericType uppercase dataType then
    (numeral value = true ∨ value = "true".toList ∨ value = "false".toList) ∨
      OtherLiteral reader dialect value
  else ∀ backslashes ∈ reader.escapes dialect, kept backslashes value = true

end Statements

/-! ### Single values -/

private theorem parseValue_literalExpr (literal : Literal) :
    parseValue (literalExpr literal) = literal.contents := by
  cases literal with
  | boolean truth => cases truth <;> rfl
  | _ => rfl

section Values

variable {reader : LiteralReader} {dialect : Dialect} {value rest : Text} {expr : Expr}

private theorem quoted_append (value rest : Text) :
    ['\''] ++ doubleQuotes value ++ ['\''] ++ rest = '\'' :: closed value rest := by
  rw [List.append_assoc, List.append_assoc]
  rfl

private theorem kept_of_reads (stops : Stops rest)
    (reads : reader.readLiteral dialect (['\''] ++ doubleQuotes value ++ ['\''] ++ rest) =
      some (expr, rest)) (same : parseValue expr = value) :
    ∀ backslashes ∈ reader.escapes dialect, kept backslashes value = true := by
  rw [quoted_append, readLiteral_quote] at reads
  obtain ⟨read, inside, made⟩ := Option.map_eq_some_iff.mp reads
  obtain ⟨rfl, left⟩ := Prod.mk.inj made
  have whole : read = (value, rest) := Prod.ext same left
  rw [whole] at inside
  exact (readText_closed_iff stops).mp inside

private theorem quoted_travels_iff :
    (∃ expr, reader.SingleLiteral dialect (['\''] ++ doubleQuotes value ++ ['\'']) expr ∧
      parseValue expr = value) ↔
      ∀ backslashes ∈ reader.escapes dialect, kept backslashes value = true := by
  constructor
  · rintro ⟨expr, single, same⟩
    exact kept_of_reads (stops_bracket []) (single _ (stops_bracket [])) same
  · intro keeps
    refine ⟨.singleQuotedString value, fun rest stops => ?_, rfl⟩
    rw [quoted_append, readLiteral_quote, (readText_closed_iff stops).mpr keeps]
    rfl

private theorem quote_not_travels (text : Text)
    (reads : reader.readLiteral dialect ('\'' :: text ++ rest) = some (expr, rest)) :
    parseValue expr ≠ '\'' :: text := by
  intro same
  rw [List.cons_append, readLiteral_quote] at reads
  obtain ⟨read, inside, made⟩ := Option.map_eq_some_iff.mp reads
  obtain ⟨rfl, left⟩ := Prod.mk.inj made
  have shorter := readText_shorter inside
  have contents : read.1 = '\'' :: text := same
  rw [contents, left, List.length_cons, List.length_append] at shorter
  omega

private theorem plain_of_reads {literal : Literal} {left : Text} (given : value ≠ [])
    (quote : value.head? ≠ some '\'') (plain : readPlain value = some (literal, left))
    (stops : Stops rest) (reads : reader.readLiteral dialect (value ++ rest) = some (expr, rest))
    (same : parseValue expr = value) : left = [] ∧ literal.contents = value := by
  rw [readLiteral_plain given quote stops plain] at reads
  obtain ⟨rfl, behind⟩ := Prod.mk.inj (Option.some.inj reads)
  rw [parseValue_literalExpr] at same
  exact ⟨List.append_left_eq_self.mp behind, same⟩

private theorem plain_travels_iff {literal : Literal} {left : Text} (given : value ≠ [])
    (quote : value.head? ≠ some '\'') (reads : readPlain value = some (literal, left)) :
    (∃ expr, reader.SingleLiteral dialect value expr ∧ parseValue expr = value) ↔
      left = [] ∧ literal.contents = value := by
  constructor
  · rintro ⟨expr, single, same⟩
    exact plain_of_reads given quote reads (stops_bracket []) (single _ (stops_bracket [])) same
  · rintro ⟨rfl, same⟩
    refine ⟨literalExpr literal, fun rest stops => ?_, ?_⟩
    · exact readLiteral_plain given quote stops reads
    · rw [parseValue_literalExpr, same]

private theorem other_of_reads (given : value ≠ []) (quote : value.head? ≠ some '\'')
    (plain : readPlain value = none) (stops : Stops rest)
    (reads : reader.readLiteral dialect (value ++ rest) = some (expr, rest))
    (same : parseValue expr = value) : OtherLiteral reader dialect value := by
  rw [readLiteral_other given quote stops plain] at reads
  exact ⟨quote, plain, expr, reader.otherLiteral_stops dialect value expr rest stops reads, same⟩

private theorem other_travels_iff (given : value ≠ []) (quote : value.head? ≠ some '\'')
    (reads : readPlain value = none) :
    (∃ expr, reader.SingleLiteral dialect value expr ∧ parseValue expr = value) ↔
      OtherLiteral reader dialect value := by
  constructor
  · rintro ⟨expr, single, same⟩
    exact other_of_reads given quote reads (stops_bracket []) (single _ (stops_bracket [])) same
  · rintro ⟨-, -, expr, single, same⟩
    refine ⟨expr, fun rest stops => ?_, same⟩
    rw [readLiteral_other given quote stops reads]
    exact single rest stops

private theorem unquoted_travels_iff (given : value ≠ []) :
    (∃ expr, reader.SingleLiteral dialect value expr ∧ parseValue expr = value) ↔
      (numeral value = true ∨ value = "true".toList ∨ value = "false".toList) ∨
        OtherLiteral reader dialect value := by
  rw [← readPlain_self_iff]
  by_cases quote : value.head? = some '\''
  · obtain ⟨text, rfl⟩ := List.head?_eq_some_iff.mp quote
    refine iff_of_false ?_ ?_
    · rintro ⟨expr, single, same⟩
      exact quote_not_travels text (single _ (stops_bracket [])) same
    rintro (⟨literal, reads, -⟩ | other)
    · rw [readPlain_quote] at reads
      cases reads
    · exact other.1 quote
  · cases reads : readPlain value with
    | none =>
        rw [other_travels_iff given quote reads]
        exact (or_iff_right (fun ⟨_, wrong, _⟩ => nomatch wrong)).symm
    | some read =>
        rw [plain_travels_iff given quote reads]
        constructor
        · rintro ⟨left, same⟩
          exact Or.inl ⟨read.1, congrArg some (Prod.ext rfl left), same⟩
        · rintro (⟨literal, whole, same⟩ | ⟨-, wrong, -⟩)
          · cases whole
            exact ⟨rfl, same⟩
          · rw [reads] at wrong
            cases wrong

private theorem formatSqlValue_nil (uppercase : Uppercase) (dataType : Text) :
    formatSqlValue uppercase [] dataType = "NULL".toList := ite_self _

theorem literalTravels_iff {uppercase : Uppercase} {dataType : Text} :
    LiteralTravels uppercase reader dialect value dataType ↔
      value = [] ∨ WritesItself uppercase reader dialect value dataType := by
  by_cases given : value = []
  · subst given
    refine iff_of_true ⟨.null, ?_, rfl⟩ (Or.inl rfl)
    rw [formatSqlValue_nil]
    exact single_null
  · rw [or_iff_right given]
    unfold LiteralTravels WritesItself formatSqlValue
    split
    · exact unquoted_travels_iff given
    · exact quoted_travels_iff

private theorem travelsHere_iff {uppercase : Uppercase} {dataType : Text} (stops : Stops rest) :
    TravelsHere uppercase reader dialect value dataType rest ↔
      LiteralTravels uppercase reader dialect value dataType := by
  constructor
  · rintro ⟨expr, reads, same⟩
    rw [literalTravels_iff]
    by_cases given : value = []
    · exact Or.inl given
    · refine Or.inr ?_
      unfold WritesItself
      unfold formatSqlValue at reads
      rw [if_neg given] at reads
      split
      next numeric =>
        rw [if_pos numeric] at reads
        rw [← readPlain_self_iff]
        by_cases quote : value.head? = some '\''
        · obtain ⟨text, rfl⟩ := List.head?_eq_some_iff.mp quote
          exact absurd same (quote_not_travels text reads)
        · cases plain : readPlain value with
          | none => exact Or.inr (other_of_reads given quote plain stops reads same)
          | some read =>
              obtain ⟨left, contents⟩ := plain_of_reads given quote plain stops reads same
              exact Or.inl ⟨read.1, congrArg some (Prod.ext rfl left), contents⟩
      next quoted =>
        rw [if_neg quoted, if_neg given] at reads
        exact kept_of_reads stops reads same
  · rintro ⟨expr, single, same⟩
    exact ⟨expr, single rest stops, same⟩

end Values

section Rows

variable {uppercase : Uppercase} {reader : LiteralReader} {dialect : Dialect} {text rest left : Text}
  {exprs others : List Expr} {values : List (SchemaColumn × Text)}

theorem readsValues_unique (reads : reader.ReadsValues dialect text exprs rest)
    (reads' : reader.ReadsValues dialect text others left) : others = exprs ∧ left = rest := by
  induction reads generalizing others with
  | last reads =>
      cases reads' with
      | last again =>
          cases reads.symm.trans again
          exact ⟨rfl, rfl⟩
      | next again behind => cases reads.symm.trans again
  | next reads behind ih =>
      cases reads' with
      | last again => cases reads.symm.trans again
      | next again behind =>
          cases reads.symm.trans again
          obtain ⟨rfl, rfl⟩ := ih behind
          exact ⟨rfl, rfl⟩

theorem readsValues_of_travels (given : values ≠ [])
    (travels : ∀ placed ∈ values, LiteralTravels uppercase reader dialect placed.2 placed.1.dataType)
    (rest : Text) :
    ∃ exprs, reader.ReadsValues dialect
        (", ".toList.intercalate (values.map (fun placed =>
          formatSqlValue uppercase placed.2 placed.1.dataType)) ++ ')' :: rest) exprs rest ∧
      exprs.map parseValue = values.map Prod.snd := by
  induction values with
  | nil => exact absurd rfl given
  | cons placed values ih =>
      obtain ⟨⟨expr, single, same⟩, travels⟩ := List.forall_mem_cons.mp travels
      cases values with
      | nil =>
          refine ⟨[expr], .last ?_, congrArg (fun text => [text]) same⟩
          rw [List.map_singleton, List.intercalate_singleton]
          exact single _ (stops_bracket rest)
      | cons second values =>
          obtain ⟨exprs, reads, texts⟩ := ih (List.cons_ne_nil _ _) travels
          refine ⟨expr :: exprs, .next ?_ reads, ?_⟩
          · rw [List.map_cons, List.map_cons, List.intercalate_cons_cons, List.append_assoc,
              List.append_assoc]
            exact single _ (stops_comma _)
          · rw [List.map_cons, texts, same]
            rfl

private theorem stops_following (uppercase : Uppercase) (back : List (SchemaColumn × Text)) :
    Stops (following uppercase back) := by
  cases back with
  | nil => exact stops_bracket _
  | cons placed back => exact stops_comma _

theorem inPlace_iff : InPlace uppercase reader dialect values ↔ ∀ placed ∈ values,
    LiteralTravels uppercase reader dialect placed.2 placed.1.dataType := by
  constructor
  · intro travels placed member
    obtain ⟨front, back, cut⟩ := List.append_of_mem member
    exact (travelsHere_iff (stops_following uppercase back)).mp (travels front placed back cut)
  · rintro travels front placed back rfl
    exact (travelsHere_iff (stops_following uppercase back)).mpr
      (travels placed (List.mem_append_right _ (List.mem_cons_self ..)))

theorem rowTravels_iff (tableName : Text) (given : values ≠ []) :
    RowTravels uppercase reader dialect tableName values ↔ ∀ placed ∈ values,
      LiteralTravels uppercase reader dialect placed.2 placed.1.dataType := by
  rw [← inPlace_iff]
  constructor
  · exact RowTravels.inPlace
  · intro inPlace
    obtain ⟨exprs, reads, texts⟩ :=
      readsValues_of_travels given (inPlace_iff.mp inPlace) ";\n".toList
    refine ⟨inPlace, _, exprs, ?_, reads, texts, fun others left => readsValues_unique reads⟩
    unfold insertStatement
    rw [List.append_assoc _ _ ");\n".toList]
    rfl

end Rows

end SqlExport

end TricPlus
