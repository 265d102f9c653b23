import TricPlus.CallLists
import TricPlus.LifetimeReports
import TricPlus.LikePatterns

/-!
What the SQL operations pass over, and which statements they refuse.

The operations look at the first statement of a text, at its first table and at the form of
its condition.  Everything else that the library has parsed goes unread.
-/

namespace TricPlus

open AtomicProgram
open BigEndian
open ExpiringMap (Entry remains)

namespace Ast

/-! ### What a text uses -/

mutual

def Expr.anywhere (test : Expr → Bool) : Expr → Bool
  | .identifier value => test (.identifier value)
  | .value value => test (.value value)
  | .binaryOp left op right =>
      test (.binaryOp left op right) || left.anywhere test || right.anywhere test
  | .like negated any expr pattern escapeChar =>
      test (.like negated any expr pattern escapeChar) || expr.anywhere test ||
        pattern.anywhere test
  | .function name args => test (.function name args) || anywhereAmong test args
  | .subquery text => test (.subquery text)
  | .other text parts => test (.other text parts) || anywhereAmong test parts

def anywhereAmong (test : Expr → Bool) : List Expr → Bool
  | [] => false
  | expr :: exprs => expr.anywhere test || anywhereAmong test exprs

end

def isSubquery : Expr → Bool
  | .subquery _ => true
  | _ => false

def refusedClauses : List Clause :=
  [.withClause, .orderBy, .limit, .distinct, .groupBy, .having]

def UsesClause (clauses : List Clause) : Prop :=
  ∃ clause ∈ clauses, clause ∈ refusedClauses

def TableWithJoins.Composite (table : TableWithJoins) : Prop :=
  table.joins ≠ [] ∨ table.relation = .derived

end Ast

namespace SqlLibrary

variable (library : SqlLibrary)

def aggregates : List Bytes :=
  [asBytes "count", asBytes "sum", asBytes "avg", asBytes "min", asBytes "max"]

def isAggregate : Ast.Expr → Bool
  | .function name _ => decide (library.toLowercase name ∈ aggregates)
  | _ => false

def IsKey (column : Bytes) : Prop :=
  library.toLowercase column = asBytes "key"

def Literal : Sql.Value → Prop
  | .number _ => True
  | .singleQuotedString _ => True
  | _ => False

/-- `key = literal` -/
inductive KeyCondition : Ast.Expr → Prop where
  | equals {column : Bytes} {value : Sql.Value} (key : library.IsKey column)
      (literal : Literal value) :
      KeyCondition (.binaryOp (.identifier column) .eq (.value value))

/-- The forms of a condition that `SELECT` supports. -/
inductive SelectCondition : Option Ast.Expr → Prop where
  | all : SelectCondition none
  | keyed {condition : Ast.Expr} (key : library.KeyCondition condition) :
      SelectCondition (some condition)
  | like {column stem : Bytes} {escapeChar : Option Bytes} (key : library.IsKey column)
      (plain : LikePattern.Plain sqlAlphabet (escapeChar.getD []) stem) :
      SelectCondition (some (.like false false (.identifier column)
        (.value (.singleQuotedString (stem ++ [0x25]))) escapeChar))

def SelectItemUses (test : Ast.Expr → Bool) : Ast.SelectItem → Prop
  | .expr expr => expr.anywhere test = true
  | _ => False

/-- The condition of an `UPDATE` or a `DELETE` is `key = literal`. -/
def Keyed (selection : Option Ast.Expr) : Prop :=
  ∃ condition, selection = some condition ∧ library.KeyCondition condition

def SelectUnsupported (select : Ast.Select) : Prop :=
  Ast.UsesClause select.clauses ∨ (∃ table ∈ select.tables, table.Composite) ∨
    (∃ item ∈ select.projection,
      SelectItemUses Ast.isSubquery item ∨ SelectItemUses library.isAggregate item) ∨
    ¬ library.SelectCondition select.selection

def QueryUnsupported (query : Ast.Query) : Prop :=
  Ast.UsesClause query.clauses ∨
    match query.body with
    | .select select => library.SelectUnsupported select
    | .values rows => ∃ row ∈ rows, Ast.anywhereAmong Ast.isSubquery row = true
    | .other => False

/-- The statement uses a join, a subquery, a clause or a condition that is not supported, or
an aggregate in its select list. -/
def Unsupported : Ast.Statement → Prop
  | .query query => library.QueryUnsupported query
  | .insert insert => ∃ source, insert.source = some source ∧
      (library.QueryUnsupported source ∨ ∃ select, source.body = .select select)
  | .update update => Ast.UsesClause update.clauses ∨ update.table.Composite ∨
      (∃ assignment ∈ update.assignments,
        assignment.value.anywhere Ast.isSubquery = true) ∨
      ¬ library.Keyed update.selection
  | .delete delete => Ast.UsesClause delete.clauses ∨
      (∃ table ∈ delete.tables, table.Composite) ∨ ¬ library.Keyed delete.selection
  | .other => False

/-- The text has more than one statement, or one that is not supported. -/
def TextUnsupported (statements : List Ast.Statement) : Prop :=
  1 < statements.length ∨ ∃ statement ∈ statements, library.Unsupported statement

/-- Nothing of the statement is passed over. -/
inductive InFull : Ast.Statement → Prop where
  | select {name : Bytes} {selection : Option Ast.Expr}
      (condition : library.SelectCondition selection) :
      InFull (.query
        { body := .select
            { projection := [.wildcard]
              tables := [{ relation := .table name [], joins := [] }]
              selection := selection
              clauses := [] }
          clauses := [] })
  | insert {name : Bytes} {rows : List (List Ast.Expr)} (filled : ∀ row ∈ rows, row ≠ [])
      (plain : ∀ row ∈ rows, Ast.anywhereAmong Ast.isSubquery row = false) :
      InFull (.insert
        { tableName := name
          source := some { body := .values rows, clauses := [] }
          clauses := [] })
  | update {name : Bytes} {assignments : List Ast.Assignment} {selection : Option Ast.Expr}
      (plain : ∀ assignment ∈ assignments, assignment.value.anywhere Ast.isSubquery = false)
      (keyed : library.Keyed selection) :
      InFull (.update
        { table := { relation := .table name [], joins := [] }
          assignments := assignments
          selection := selection
          clauses := [] })
  | delete {name : Bytes} {selection : Option Ast.Expr} (keyed : library.Keyed selection) :
      InFull (.delete
        { tables := [{ relation := .table name [], joins := [] }]
          selection := selection
          clauses := [] })

/-- The text is one statement of which nothing is passed over. -/
def TextInFull (statements : List Ast.Statement) : Prop :=
  ∃ statement, statements = [statement] ∧ library.InFull statement

end SqlLibrary

namespace Query

def NotKeyed (parser : SqlParser) (selection : Option Sql.Expr) : Prop :=
  ∀ keyValue, parseWhereCondition parser selection ≠ .keyEquals keyValue

/-- The statement is answered with an error, by the checks of its operation. -/
def Refuses (parser : SqlParser) : Sql.Statement → Prop
  | .query (.select tables selection) =>
      parseTableName tables = none ∨ parseWhereCondition parser selection = .unsupported
  | .query _ => True
  | .insert _ (some (.values _)) => False
  | .insert _ _ => True
  | .update table _ selection =>
      parseSingleTableName table = none ∨ NotKeyed parser selection
  | .delete tables selection => parseTableName tables = none ∨ NotKeyed parser selection
  | .other => True

/-- The text has no statement, or its first one is refused. -/
def RefusesText (parser : SqlParser) (statements : List Sql.Statement) : Prop :=
  ∀ statement, statements.head? = some statement → Refuses parser statement

end Query

namespace SqlLibrary

variable {library : SqlLibrary}

private theorem not_usesClause_nil : ¬ Ast.UsesClause [] := by
  rintro ⟨clause, member, -⟩
  cases member

private theorem not_composite (name : Bytes) :
    ¬ ∃ table ∈ ([{ relation := .table name [], joins := [] }] : List Ast.TableWithJoins),
      table.Composite := by
  rintro ⟨table, member, joined | derived⟩
  · rcases List.mem_singleton.mp member with rfl
    exact joined rfl
  · rcases List.mem_singleton.mp member with rfl
    cases derived

theorem InFull.supported {statement : Ast.Statement} (full : library.InFull statement) :
    ¬ library.Unsupported statement := by
  cases full with
  | select condition =>
      rintro (clause | clause | composite | ⟨item, member, uses⟩ | unsupported)
      · exact not_usesClause_nil clause
      · exact not_usesClause_nil clause
      · exact not_composite _ composite
      · rcases List.mem_singleton.mp member with rfl
        rcases uses with uses | uses
        · exact uses
        · exact uses
      · exact unsupported condition
  | insert filled plain =>
      rintro ⟨source, same, (clause | uses) | ⟨select, body⟩⟩
      · cases same
        exact not_usesClause_nil clause
      · cases same
        rcases uses with ⟨row, member, uses⟩
        rw [plain row member] at uses
        cases uses
      · cases same
        cases body
  | update plain keyed =>
      rintro (clause | joined | ⟨assignment, member, uses⟩ | unkeyed)
      · exact not_usesClause_nil clause
      · exact not_composite _ ⟨_, List.mem_singleton_self _, joined⟩
      · rw [plain assignment member] at uses
        cases uses
      · exact unkeyed keyed
  | delete keyed =>
      rintro (clause | composite | unkeyed)
      · exact not_usesClause_nil clause
      · exact not_composite _ composite
      · exact unkeyed keyed

theorem TextInFull.supported {statements : List Ast.Statement}
    (full : library.TextInFull statements) : ¬ library.TextUnsupported statements := by
  rcases full with ⟨statement, rfl, full⟩
  rintro (more | ⟨found, member, unsupported⟩)
  · exact absurd more (Nat.lt_irrefl 1)
  · rcases List.mem_singleton.mp member with rfl
    exact full.supported unsupported

end SqlLibrary

section Reading

variable {site : Site} {clock : Nat → Instant} {ticks : Nat} {bus : PermutiveBus} {key : Bytes}

/-- No key shows another value from now on, and no row has changed. -/
def LeavesValues (site : Site) (now : Instant) (before after : PermutiveBus) : Prop :=
  after.persistent = before.persistent ∧
    ∀ (key : Bytes) (later : Instant), now ≤ later →
      (after.cell site key).value later = (before.cell site key).value later

theorem LeavesValues.refl (site : Site) (now : Instant) (bus : PermutiveBus) :
    LeavesValues site now bus bus :=
  ⟨rfl, fun _ _ _ => rfl⟩

theorem run_copy_later (monotone : Monotone clock) {α : Type} {program : Program tiers α}
    {key : Bytes} (uses : program.Uses (NotAboutKey key)) {later : Instant}
    (after : clock (run (bothTiers site) clock program ticks bus).ticks ≤ later) :
    remains later (run (bothTiers site) clock program ticks bus).state.transient.contents[key]? =
      remains later bus.transient.contents[key]? := by
  rw [← ExpiringMap.remains_remains after, run_copy_kept monotone uses,
    ExpiringMap.remains_remains after]

private theorem value_copied (cell : Cell) {entry : Entry Bytes Instant}
    (row : cell.row = some entry.value) (now : Instant) :
    ({ cell with copy := some entry } : Cell).value now = some entry.value := by
  unfold Cell.value
  cases alive : remains now (some entry) with
  | none => exact row
  | some found =>
      rcases ExpiringMap.remains_eq_some.mp alive with ⟨same, -⟩
      cases same
      rfl

private theorem run_readValue_cell (monotone : Monotone clock) {cell : Cell} (key : Bytes)
    (readable : cell.poisoned = false ∨ (remains (clock ticks) cell.copy).isSome = true) :
    ∃ reply later after,
      run oneCell clock (PermutiveBus.readValue key) ticks cell = ⟨some reply, later, after⟩ ∧
        ∀ now, clock later ≤ now → after.value now = cell.value now := by
  cases current : remains (clock ticks) cell.copy with
  | some copy =>
      refine ⟨_, _, _, run_readValue_hit clock key current, ?_⟩
      intro now after
      have ordered : clock ticks ≤ now := (monotone (Nat.le_succ ticks)).trans after
      unfold Cell.value
      rw [← ExpiringMap.remains_remains ordered (cell.copy), current]
  | none =>
      have sound : cell.poisoned = false := by
        rcases readable with sound | held
        · exact sound
        · rw [current] at held
          cases held
      cases row : cell.row with
      | none =>
          refine ⟨_, _, _, run_readValue_miss clock sound key current row, ?_⟩
          intro now after
          have ordered : clock ticks ≤ now :=
            (monotone (Nat.le_add_right ticks 2)).trans after
          unfold Cell.value
          rw [remains_none_later ordered current]
          rfl
      | some value =>
          refine ⟨_, _, _, run_readValue_promote clock sound key current row, ?_⟩
          intro now after
          have ordered : clock ticks ≤ now :=
            (monotone (Nat.le_add_right ticks 4)).trans after
          have before : cell.value now = some value := by
            unfold Cell.value
            rw [remains_none_later ordered current]
            exact row
          rw [before]
          exact value_copied cell row now

theorem run_readValue_leaves (monotone : Monotone clock) (attached : bus.persistent.Attached)
    (readable : bus.Reads (clock ticks) key) :
    ∃ reply later after,
      run (bothTiers site) clock (PermutiveBus.readValue key) ticks bus =
        ⟨some reply, later, after⟩ ∧ LeavesValues site (clock later) bus after := by
  have onCell := run_cell site clock (rfl : (DataBusCall.readValue key).key? = some key)
    ticks attached
  rcases @run_readValue_cell clock ticks monotone (bus.cell site key) key readable with
    ⟨reply, later, cell, cellRan, shows⟩
  rcases ran : run (bothTiers site) clock (PermutiveBus.call (.readValue key)) ticks bus with
    ⟨result, ended, after⟩
  have same : run oneCell clock (PermutiveBus.call (.readValue key)) ticks (bus.cell site key) =
      ⟨some reply, later, cell⟩ := cellRan
  rw [same, ran] at onCell
  cases congrArg Outcome.result onCell
  cases congrArg Outcome.ticks onCell
  have persistent := run_changesNoRow site clock (readValue_changesNoRow key) ticks bus
  change (run (bothTiers site) clock (PermutiveBus.call (.readValue key)) ticks
    bus).state.persistent = _ at persistent
  rw [ran] at persistent
  refine ⟨reply, later, after, ran, persistent, ?_⟩
  intro about now ordered
  by_cases own : key = about
  · subst own
    have cells : cell = after.cell site key := congrArg Outcome.state onCell
    rw [← cells]
    exact shows now ordered
  · have uses : (PermutiveBus.call (.readValue key)).Uses (NotAboutKey about) :=
      call_uses_other (fun asked => own (Option.some.inj asked))
    have copy := @run_copy_later site clock ticks bus monotone _ _ about uses now
    rw [ran] at copy
    have later := copy ordered
    have row : after.persistent.row about = bus.persistent.row about := by rw [persistent]
    unfold Cell.value PermutiveBus.cell
    rw [later, row]

end Reading

namespace Query

def NoError (requestId : Nat) (responses : List Response) : Prop :=
  ∀ message, responses ≠ [createError requestId errorMalformedOpcode message]

def Complains (requestId : Nat) (program : BusProgram (List Response)) : Prop :=
  (∃ message, program = return [createError requestId errorMalformedOpcode message]) ∨
    ∃ key message, program =
      (DataBus.readValue key).bind
        (fun _ => return [createError requestId errorMalformedOpcode message])

private theorem malformed_complains (requestId : Nat) (message : String) :
    Complains requestId (return malformed requestId message) :=
  Or.inl ⟨asBytes message, rfl⟩

theorem createOk_noError (requestId : Nat) : NoError requestId [createOk requestId] := by
  intro message same
  have opcode : okOpcode = errorMalformedOpcode :=
    congrArg Response.opcode (List.singleton_inj.mp same)
  exact absurd opcode (by decide)

private theorem createPayload_noError (requestId : Nat) (payload : Bytes) :
    NoError requestId [createPayload requestId payload] := by
  intro message same
  have opcode : okPayloadOpcode = errorMalformedOpcode :=
    congrArg Response.opcode (List.singleton_inj.mp same)
  exact absurd opcode (by decide)

private theorem scan_noError (requestId : Nat) (stem : Bytes) :
    (scan requestId stem).Yields (NoError requestId) :=
  fun pairs => scanResponses_ne_error requestId (List.map pairEntry pairs)

section Statements

variable {parser : SqlParser} {requestId : Nat}

private theorem parseSelect_refused {body : Sql.SetExpr} (refused : Refuses parser (.query body)) :
    Complains requestId (parseSelect parser requestId body) := by
  unfold parseSelect
  cases body with
  | values rows => exact malformed_complains requestId _
  | other => exact malformed_complains requestId _
  | select tables selection =>
      simp only
      cases table : parseTableName tables with
      | none => exact malformed_complains requestId _
      | some tableName =>
          rcases refused with missing | unsupported
          · cases table.symm.trans missing
          · simp only
            rw [unsupported]
            exact malformed_complains requestId _

private theorem parseSelect_answered {body : Sql.SetExpr}
    (accepted : ¬ Refuses parser (.query body)) :
    (parseSelect parser requestId body).Yields (NoError requestId) := by
  unfold parseSelect
  cases body with
  | values rows => exact absurd trivial accepted
  | other => exact absurd trivial accepted
  | select tables selection =>
      simp only
      cases table : parseTableName tables with
      | none => exact absurd (Or.inl table) accepted
      | some tableName =>
          simp only
          cases condition : parseWhereCondition parser selection with
          | unsupported => exact absurd (Or.inr condition) accepted
          | none => exact scan_noError requestId _
          | keyLikePrefix stem => exact scan_noError requestId _
          | keyEquals keyValue =>
              intro reply
              cases reply with
              | none => exact createOk_noError requestId
              | some value => exact createPayload_noError requestId _

private theorem parseInsert_refused {tableName : Bytes} {source : Option Sql.SetExpr}
    (refused : Refuses parser (.insert tableName source)) :
    Complains requestId (parseInsert parser requestId tableName source) := by
  unfold parseInsert
  rcases source with _ | body
  · exact Or.inr ⟨_, _, rfl⟩
  · cases body with
    | values rows => exact refused.elim
    | select tables selection => exact Or.inr ⟨_, _, rfl⟩
    | other => exact Or.inr ⟨_, _, rfl⟩

private theorem parseInsert_answered {tableName : Bytes} {source : Option Sql.SetExpr}
    (accepted : ¬ Refuses parser (.insert tableName source)) :
    (parseInsert parser requestId tableName source).Yields (NoError requestId) := by
  unfold parseInsert
  rcases source with _ | body
  · exact absurd trivial accepted
  · cases body with
    | select tables selection => exact absurd trivial accepted
    | other => exact absurd trivial accepted
    | values rows =>
        intro schemaData
        apply (Program.yields_anything (insertRows parser (plainName tableName) rows)).bind
        intro _ _
        cases schemaData with
        | some schema => exact createOk_noError requestId
        | none =>
            cases rows with
            | nil => exact createOk_noError requestId
            | cons first rest => exact fun _ => createOk_noError requestId

private theorem parseUpdate_refused {table : Sql.TableFactor} {assignments : List Sql.Expr}
    {selection : Option Sql.Expr} (refused : Refuses parser (.update table assignments selection)) :
    Complains requestId (parseUpdate parser requestId table assignments selection) := by
  unfold parseUpdate
  cases found : parseSingleTableName table with
  | none => exact malformed_complains requestId _
  | some tableName =>
      rcases refused with missing | unkeyed
      · cases found.symm.trans missing
      · simp only
        cases condition : parseWhereCondition parser selection with
        | keyEquals keyValue => exact absurd condition (unkeyed keyValue)
        | keyLikePrefix stem => exact malformed_complains requestId _
        | none => exact malformed_complains requestId _
        | unsupported => exact malformed_complains requestId _

private theorem parseUpdate_answered {table : Sql.TableFactor} {assignments : List Sql.Expr}
    {selection : Option Sql.Expr}
    (accepted : ¬ Refuses parser (.update table assignments selection)) :
    (parseUpdate parser requestId table assignments selection).Yields (NoError requestId) := by
  unfold parseUpdate
  cases found : parseSingleTableName table with
  | none => exact absurd (Or.inl found) accepted
  | some tableName =>
      simp only
      have unkeyed : ∀ condition, parseWhereCondition parser selection = condition →
          (∀ keyValue, condition ≠ .keyEquals keyValue) →
            Refuses parser (.update table assignments selection) := by
        rintro condition rfl other
        exact Or.inr other
      cases condition : parseWhereCondition parser selection with
      | keyLikePrefix stem =>
          exact absurd (unkeyed _ condition (fun _ same => by cases same)) accepted
      | none => exact absurd (unkeyed _ condition (fun _ same => by cases same)) accepted
      | unsupported => exact absurd (unkeyed _ condition (fun _ same => by cases same)) accepted
      | keyEquals keyValue =>
          intro current
          by_cases changes : current.isSome = true ∧ assignments ≠ []
          · change ((if current.isSome = true ∧ assignments ≠ [] then _ else _ :
              BusProgram (List Response))).Yields (NoError requestId)
            rw [if_pos changes]
            exact fun _ => createOk_noError requestId
          · change ((if current.isSome = true ∧ assignments ≠ [] then _ else _ :
              BusProgram (List Response))).Yields (NoError requestId)
            rw [if_neg changes]
            exact createOk_noError requestId

private theorem parseDelete_refused {tables : List Sql.TableFactor} {selection : Option Sql.Expr}
    (refused : Refuses parser (.delete tables selection)) :
    Complains requestId (parseDelete parser requestId tables selection) := by
  unfold parseDelete
  rcases tables with _ | ⟨table, tables⟩
  · exact malformed_complains requestId _
  · cases table with
    | other => exact malformed_complains requestId _
    | table name =>
        rcases refused with missing | unkeyed
        · cases missing
        · simp only
          cases condition : parseWhereCondition parser selection with
          | keyEquals keyValue => exact absurd condition (unkeyed keyValue)
          | keyLikePrefix stem => exact malformed_complains requestId _
          | none => exact malformed_complains requestId _
          | unsupported => exact malformed_complains requestId _

private theorem parseDelete_answered {tables : List Sql.TableFactor} {selection : Option Sql.Expr}
    (accepted : ¬ Refuses parser (.delete tables selection)) :
    (parseDelete parser requestId tables selection).Yields (NoError requestId) := by
  unfold parseDelete
  rcases tables with _ | ⟨table, tables⟩
  · exact absurd (Or.inl rfl) accepted
  · cases table with
    | other => exact absurd (Or.inl rfl) accepted
    | table name =>
        simp only
        have unkeyed : ∀ condition, parseWhereCondition parser selection = condition →
            (∀ keyValue, condition ≠ .keyEquals keyValue) →
              Refuses parser (.delete (.table name :: tables) selection) := by
          rintro condition rfl other
          exact Or.inr other
        cases condition : parseWhereCondition parser selection with
        | keyLikePrefix stem =>
            exact absurd (unkeyed _ condition (fun _ same => by cases same)) accepted
        | none => exact absurd (unkeyed _ condition (fun _ same => by cases same)) accepted
        | unsupported => exact absurd (unkeyed _ condition (fun _ same => by cases same)) accepted
        | keyEquals keyValue => exact fun _ => createOk_noError requestId

theorem parseQuery_complains {sql : Bytes} {statements : List Sql.Statement}
    (parsed : parser.parseSql sql = some statements) (refused : RefusesText parser statements) :
    Complains requestId (parseQuery parser sql requestId) := by
  unfold parseQuery
  rw [parsed]
  cases statements with
  | nil => exact malformed_complains requestId _
  | cons statement statements =>
      have first := refused statement rfl
      cases statement with
      | query body => exact parseSelect_refused first
      | insert tableName source => exact parseInsert_refused first
      | update table assignments selection => exact parseUpdate_refused first
      | delete tables selection => exact parseDelete_refused first
      | other => exact malformed_complains requestId _

theorem parseQuery_noError {sql : Bytes} {statements : List Sql.Statement}
    (parsed : parser.parseSql sql = some statements)
    (accepted : ¬ RefusesText parser statements) :
    (parseQuery parser sql requestId).Yields (NoError requestId) := by
  unfold RefusesText at accepted
  push Not at accepted
  rcases accepted with ⟨statement, first, accepted⟩
  unfold parseQuery
  rw [parsed]
  cases statements with
  | nil => cases first
  | cons head rest =>
      cases Option.some.inj first
      cases statement with
      | query body => exact parseSelect_answered accepted
      | insert tableName source => exact parseInsert_answered accepted
      | update table assignments selection => exact parseUpdate_answered accepted
      | delete tables selection => exact parseDelete_answered accepted
      | other => exact absurd trivial accepted

end Statements

end Query

end TricPlus
