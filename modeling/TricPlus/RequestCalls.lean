import TricPlus.Lib.RelyGuarantee
import TricPlus.Router

/-!
Which calls on the bus a request can make, whatever these return.

The calls are read off the fields of the request, and for a query off the first
statement of its text.  What holds of them holds of every run of the request.
-/

namespace TricPlus

open AtomicProgram

namespace Query

variable (parser : SqlParser)

def SelectCalls (body : Sql.SetExpr) (call : DataBusCall) : Prop :=
  ∃ tables selection tableName, body = .select tables selection ∧
    parseTableName tables = some tableName ∧
    ((∃ keyValue, parseWhereCondition parser selection = .keyEquals keyValue ∧
        call = .readValue (fullKey tableName keyValue)) ∨
      ∃ stem, (parseWhereCondition parser selection = .keyLikePrefix stem ∨
          parseWhereCondition parser selection = .none ∧ stem = []) ∧
        call = .findByPrefix (fullKey tableName stem))

/-- A row with a first value is written under it, and the schema if there is a first row. -/
def InsertCalls (tableName : Bytes) (source : Option Sql.SetExpr) (call : DataBusCall) : Prop :=
  call = .readValue (schemaKey (plainName tableName)) ∨
    ∃ rows, source = some (.values rows) ∧
      ((∃ pk columns, pk :: columns ∈ rows ∧
          call = .writeValue (rowKey parser (plainName tableName) pk)
            (joinLines (columns.map (parseExprValue parser)))) ∨
        ∃ first later, rows = first :: later ∧
          call = .writeValue (schemaKey (plainName tableName)) (schemaText first.length))

def UpdateCalls (table : Sql.TableFactor) (assignments : List Sql.Expr)
    (selection : Option Sql.Expr) (call : DataBusCall) : Prop :=
  ∃ tableName keyValue, parseSingleTableName table = some tableName ∧
    parseWhereCondition parser selection = .keyEquals keyValue ∧
    (call = .readValue (fullKey tableName keyValue) ∨
      call = .writeValue (fullKey tableName keyValue)
        (joinLines (assignments.map (parseExprValue parser))))

def DeleteCalls (tables : List Sql.TableFactor) (selection : Option Sql.Expr)
    (call : DataBusCall) : Prop :=
  ∃ name later keyValue, tables = .table name :: later ∧
    parseWhereCondition parser selection = .keyEquals keyValue ∧
    call = .deleteValue (fullKey (plainName name) keyValue)

def StatementCalls : Sql.Statement → DataBusCall → Prop
  | .query body => SelectCalls parser body
  | .insert tableName source => InsertCalls parser tableName source
  | .update table assignments selection => UpdateCalls parser table assignments selection
  | .delete tables selection => DeleteCalls parser tables selection
  | .other => fun _ => False

def QueryCalls (sql : Bytes) (call : DataBusCall) : Prop :=
  ∃ statement later, parser.parseSql sql = some (statement :: later) ∧
    StatementCalls parser statement call

variable {parser}

private theorem scan_makes {allowed : DataBusCall → Prop} {requestId : Nat} {stem : Bytes}
    (scans : allowed (.findByPrefix stem)) : (scan requestId stem).MakesOnly allowed :=
  ⟨scans, fun _ _ => trivial⟩

private theorem parseSelect_makes (requestId : Nat) (body : Sql.SetExpr) :
    (parseSelect parser requestId body).MakesOnly (SelectCalls parser body) := by
  cases body with
  | values rows => trivial
  | other => trivial
  | select tables selection =>
      simp only [parseSelect]
      cases named : parseTableName tables with
      | none => trivial
      | some tableName =>
          simp only
          cases condition : parseWhereCondition parser selection with
          | keyEquals keyValue =>
              refine ⟨⟨tables, selection, tableName, rfl, named, Or.inl ⟨keyValue, condition, rfl⟩⟩,
                fun reply _ => ?_⟩
              cases reply <;> trivial
          | keyLikePrefix stem =>
              exact scan_makes ⟨tables, selection, tableName, rfl, named,
                Or.inr ⟨stem, Or.inl condition, rfl⟩⟩
          | none =>
              exact scan_makes ⟨tables, selection, tableName, rfl, named,
                Or.inr ⟨[], Or.inr ⟨condition, rfl⟩, rfl⟩⟩
          | unsupported => trivial

private theorem insertRows_makes {allowed : DataBusCall → Prop} {tableName : Bytes}
    {rows : List (List Sql.Expr)}
    (writes : ∀ pk columns, pk :: columns ∈ rows →
      allowed (.writeValue (rowKey parser tableName pk)
        (joinLines (columns.map (parseExprValue parser))))) :
    (insertRows parser tableName rows).MakesOnly allowed := by
  induction rows with
  | nil => trivial
  | cons row rows ih =>
      have later := ih (fun pk columns member =>
        writes pk columns (List.mem_cons_of_mem _ member))
      cases row with
      | nil => exact later
      | cons pk columns =>
          exact ⟨writes pk columns (List.mem_cons_self ..), fun _ _ => later⟩

private theorem parseInsert_makes (requestId : Nat) (tableName : Bytes)
    (source : Option Sql.SetExpr) :
    (parseInsert parser requestId tableName source).MakesOnly
      (InsertCalls parser tableName source) := by
  unfold parseInsert
  refine ⟨Or.inl rfl, fun schemaData _ => ?_⟩
  cases source with
  | none => trivial
  | some source =>
      cases source with
      | select tables selection => trivial
      | other => trivial
      | values rows =>
          have written : (insertRows parser (plainName tableName) rows).MakesOnly
              (InsertCalls parser tableName (some (.values rows))) := by
            apply insertRows_makes
            intro pk columns member
            exact Or.inr ⟨rows, rfl, Or.inl ⟨pk, columns, member, rfl⟩⟩
          apply written.bind
          · intro _
            cases schemaData with
            | some schema => trivial
            | none =>
                cases rows with
                | nil => trivial
                | cons first later =>
                    exact ⟨Or.inr ⟨_, rfl, Or.inr ⟨first, later, rfl, rfl⟩⟩, fun _ _ => trivial⟩

private theorem parseUpdate_makes (requestId : Nat) (table : Sql.TableFactor)
    (assignments : List Sql.Expr) (selection : Option Sql.Expr) :
    (parseUpdate parser requestId table assignments selection).MakesOnly
      (UpdateCalls parser table assignments selection) := by
  unfold parseUpdate
  cases named : parseSingleTableName table with
  | none => trivial
  | some tableName =>
      simp only
      cases condition : parseWhereCondition parser selection with
      | keyEquals keyValue =>
          refine ⟨⟨tableName, keyValue, named, condition, Or.inl rfl⟩, fun current _ => ?_⟩
          change Program.MakesOnly _ (if current.isSome = true ∧ assignments ≠ [] then _ else _)
          split
          · exact ⟨⟨tableName, keyValue, named, condition, Or.inr rfl⟩, fun _ _ => trivial⟩
          · trivial
      | keyLikePrefix stem => trivial
      | none => trivial
      | unsupported => trivial

private theorem parseDelete_makes (requestId : Nat) (tables : List Sql.TableFactor)
    (selection : Option Sql.Expr) :
    (parseDelete parser requestId tables selection).MakesOnly
      (DeleteCalls parser tables selection) := by
  unfold parseDelete
  cases tables with
  | nil => trivial
  | cons first later =>
      cases first with
      | other => trivial
      | table name =>
          simp only
          cases condition : parseWhereCondition parser selection with
          | keyEquals keyValue =>
              exact ⟨⟨name, later, keyValue, rfl, condition, rfl⟩, fun _ _ => trivial⟩
          | keyLikePrefix stem => trivial
          | none => trivial
          | unsupported => trivial

private theorem runStatement_makes (requestId : Nat) (statement : Sql.Statement) :
    (runStatement parser requestId statement).MakesOnly (StatementCalls parser statement) := by
  cases statement with
  | query body => exact parseSelect_makes requestId body
  | insert tableName source => exact parseInsert_makes requestId tableName source
  | update table assignments selection =>
      exact parseUpdate_makes requestId table assignments selection
  | delete tables selection => exact parseDelete_makes requestId tables selection
  | other => trivial

theorem parseQuery_makes (sql : Bytes) (requestId : Nat) :
    (parseQuery parser sql requestId).MakesOnly (QueryCalls parser sql) := by
  unfold parseQuery
  cases parsed : parser.parseSql sql with
  | none => trivial
  | some statements =>
      cases statements with
      | nil => trivial
      | cons statement later =>
          exact (runStatement_makes requestId statement).mono
            (fun call calls => ⟨statement, later, parsed, calls⟩)

end Query

namespace Router

variable (parser : SqlParser)

def RequestCalls (request : Request) (call : DataBusCall) : Prop :=
  match request.opcode with
  | 0x01 => ∃ key, readField request.payload 0 = some key ∧ call = .readValue key
  | 0x02 => ∃ key value durationMs, writeFields request.payload = some (key, value, durationMs) ∧
      (durationMs = 0 ∧ call = .writeValue key value ∨
        durationMs ≠ 0 ∧ call = .writeValueWithTtl key value (fromMillis durationMs))
  | 0x03 => ∃ key, readField request.payload 0 = some key ∧ call = .deleteValue key
  | 0x04 => ∃ key expected, matchFields request.payload = some (key, expected) ∧
      call = .deleteValueIfMatch key expected
  | 0x05 => ∃ key durationMs, ttlFields request.payload = some (key, durationMs) ∧
      call = .writeTtl key (fromMillis durationMs)
  | 0x06 => ∃ stem, readField request.payload 0 = some stem ∧ call = .findByPrefix stem
  | 0x07 => ∃ sql, readField request.payload 0 = some sql ∧ Query.QueryCalls parser sql call
  | 0x17 => call = .findByPrefix ((readField request.payload 0).getD [])
  | 0x18 => ∃ key, readField request.payload 0 = some key ∧
      (call = .readValue key ∨ call = .readTtlRemaining key)
  | 0x19 => call = .findByPrefix [] ∨ ∃ key, call = .readTtlRemaining key
  | 0x1A => ∃ key value ttlMs, restoreFields request.payload = some (key, value, ttlMs) ∧
      (call = .writeValue key value ∨
        ∃ positive, ttlMs = some (positive + 1) ∧
          call = .writeTtl key (fromMillis (positive + 1)))
  | _ => False

variable {parser}

private theorem map_makes {α β : Type} {allowed : DataBusCall → Prop} (image : α → β)
    {program : BusProgram α} (makes : program.MakesOnly allowed) :
    (image <$> program).MakesOnly allowed :=
  makes.bind (fun _ => trivial)

private theorem withLifetimes_makes {allowed : DataBusCall → Prop}
    (asks : ∀ key, allowed (.readTtlRemaining key)) (pairs : List (Bytes × Bytes)) :
    (withLifetimes pairs).MakesOnly allowed := by
  induction pairs with
  | nil => trivial
  | cons pair pairs ih => exact ⟨asks pair.1, fun _ _ => ih.bind (fun _ => trivial)⟩

private theorem writeRestore_makes {allowed : DataBusCall → Prop} (request : Request)
    (calls : ∀ key value ttlMs, restoreFields request.payload = some (key, value, ttlMs) →
      allowed (.writeValue key value) ∧ ∀ positive, ttlMs = some (positive + 1) →
        allowed (.writeTtl key (fromMillis (positive + 1)))) :
    (writeRestore request).MakesOnly allowed := by
  unfold writeRestore
  cases fields : restoreFields request.payload with
  | none => trivial
  | some found =>
      rcases found with ⟨key, value, ttlMs⟩
      rcases calls key value ttlMs fields with ⟨writes, lasts⟩
      refine ⟨writes, fun _ _ => ?_⟩
      cases ttlMs with
      | none => trivial
      | some millis =>
          cases millis with
          | zero => trivial
          | succ positive => exact ⟨lasts positive rfl, fun _ _ => trivial⟩

theorem dispatch_makes (request : Request) (metrics : Metrics) :
    (dispatchRequest parser request metrics).MakesOnly (RequestCalls parser request) := by
  rcases request with ⟨requestId, opcode, payload, isLocal⟩
  unfold dispatchRequest
  simp only
  split
  · apply map_makes
    unfold readValue
    cases field : readField payload 0 with
    | none => trivial
    | some key =>
        refine ⟨⟨key, field, rfl⟩, fun reply _ => ?_⟩
        cases reply <;> trivial
  · apply map_makes
    unfold writeValue
    cases fields : writeFields payload with
    | none => trivial
    | some found =>
        rcases found with ⟨key, value, durationMs⟩
        simp only
        by_cases forever : durationMs = 0
        · rw [if_pos forever]
          exact ⟨⟨key, value, durationMs, fields, Or.inl ⟨forever, rfl⟩⟩, fun _ _ => trivial⟩
        · rw [if_neg forever]
          exact ⟨⟨key, value, durationMs, fields, Or.inr ⟨forever, rfl⟩⟩, fun _ _ => trivial⟩
  · apply map_makes
    unfold deleteValue
    cases field : readField payload 0 with
    | none => trivial
    | some key => exact ⟨⟨key, field, rfl⟩, fun _ _ => trivial⟩
  · apply map_makes
    unfold deleteValueIfMatch
    cases fields : matchFields payload with
    | none => trivial
    | some found => exact ⟨⟨found.1, found.2, fields, rfl⟩, fun _ _ => trivial⟩
  · apply map_makes
    unfold writeTtl
    cases fields : ttlFields payload with
    | none => trivial
    | some found => exact ⟨⟨found.1, found.2, fields, rfl⟩, fun _ _ => trivial⟩
  · apply map_makes
    unfold findByPrefix
    cases field : readField payload 0 with
    | none => trivial
    | some stem => exact ⟨⟨stem, field, rfl⟩, fun _ _ => trivial⟩
  · apply map_makes
    unfold parseQueryRequest
    cases field : readField payload 0 with
    | none => trivial
    | some sql =>
        exact (Query.parseQuery_makes sql requestId).mono (fun call calls => ⟨sql, field, calls⟩)
  · trivial
  · trivial
  · trivial
  · trivial
  · apply map_makes
    exact ⟨rfl, fun _ _ => trivial⟩
  · apply map_makes
    unfold readInspect
    cases field : readField payload 0 with
    | none => trivial
    | some key =>
        refine ⟨⟨key, field, Or.inl rfl⟩, fun reply _ => ?_⟩
        cases reply with
        | none => trivial
        | some value => exact ⟨⟨key, field, Or.inr rfl⟩, fun _ _ => trivial⟩
  · apply map_makes
    refine ⟨Or.inl rfl, fun pairs _ => ?_⟩
    have asked : (withLifetimes (pairs.take maxChunks)).MakesOnly
        (RequestCalls parser ⟨requestId, 0x19, payload, isLocal⟩) :=
      withLifetimes_makes (fun key => Or.inr ⟨key, rfl⟩) _
    exact asked.bind (fun _ => trivial)
  · apply map_makes
    apply writeRestore_makes
    intro key value ttlMs fields
    exact ⟨⟨key, value, ttlMs, fields, Or.inl rfl⟩,
      fun positive lasting => ⟨key, value, ttlMs, fields, Or.inr ⟨positive, lasting, rfl⟩⟩⟩
  · trivial

end Router

/-- The calls a datagram can make. -/
def DatagramCalls (parser : SqlParser) (datagram : Bytes) (call : DataBusCall) : Prop :=
  ∃ request, decodeLocalInto (datagram.take maxDatagram) freshRequest = (true, request) ∧
    Router.RequestCalls parser request call

theorem answerDatagram_makes (parser : SqlParser) (metrics : Metrics) (datagram : Bytes) :
    (answerDatagram parser metrics datagram).MakesOnly (DatagramCalls parser datagram) := by
  unfold answerDatagram
  rcases decoded : decodeLocalInto (datagram.take maxDatagram) freshRequest with
    ⟨accepted, request⟩
  cases accepted with
  | false => trivial
  | true =>
      apply Program.MakesOnly.bind
      · exact (Router.dispatch_makes request metrics).mono
          (fun call calls => ⟨request, decoded, calls⟩)
      · intro dispatched
        cases dispatched <;> trivial

end TricPlus
