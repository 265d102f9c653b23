import TricPlus.Lib.Separated
import TricPlus.SqlClauses

/-!
A row and the literal it was inserted with.

`INSERT` turns any expression into the text of a key; a condition accepts numbers and
strings in single quotes alone.  For these both come to the same text.
-/

namespace TricPlus

open AtomicProgram
open BigEndian
open ExpiringMap (Entry remains)

section Others

variable {site : Site} {clock : Nat → Instant} {start : SqliteBus} {ticks later : Nat}
  {bus after : PermutiveBus} {key : Bytes} {calls : List DataBusCall}

/-- The key has a copy that never expires. -/
def Lasting (bus : PermutiveBus) (key : Bytes) : Prop :=
  ∃ value, bus.transient.contents[key]? = some ⟨value, none⟩

/-- The key has a row in a database that is not open, and no copy that would hide it. -/
def Hidden (site : Site) (bus : PermutiveBus) (key : Bytes) : Prop :=
  bus.persistent.row key ≠ bus.persistent.stored site key ∧ ¬ Lasting bus key

/-- From a reading on, the key shows what it showed before. -/
def KeepsShowing (site : Site) (now : Instant) (before after : PermutiveBus) (key : Bytes) :
    Prop :=
  ∀ later, now ≤ later → (after.cell site key).value later = (before.cell site key).value later

private theorem gone_of_not_lasting (away : ¬ Lasting bus key) (now : Instant) :
    ∃ later, now ≤ later ∧ remains later bus.transient.contents[key]? = none := by
  cases held : bus.transient.contents[key]? with
  | none => exact ⟨now, Nat.le_refl now, rfl⟩
  | some entry =>
      rcases entry with ⟨value, deadline⟩
      cases deadline with
      | none => exact absurd ⟨value, held⟩ away
      | some deadline =>
          refine ⟨max now deadline, Nat.le_max_left now deadline, ?_⟩
          rw [ExpiringMap.remains_some, if_neg]
          intro alive
          rw [ExpiringMap.Entry.live_some, decide_eq_true_eq] at alive
          exact absurd (Nat.le_max_right now deadline) (Nat.not_le.mpr alive)

/-- A key that a list of calls does not mention keeps showing what it showed before, unless
its database is opened and a row of its own comes to light. -/
theorem performAll_keeps_iff (monotone : Monotone clock) (kept : Kept site start bus.persistent)
    (updates : ∀ request ∈ calls, request.Updates)
    (accepted : ∀ request ∈ calls, start.Accepts site request)
    (others : ∀ request ∈ calls, request.key? ≠ some key) {before : PermutiveBus}
    (same : bus.persistent = before.persistent)
    (copied : ∀ now, clock ticks ≤ now → remains now bus.transient.contents[key]? =
      remains now before.transient.contents[key]?)
    (ran : run (bothTiers site) clock (onTiers (performAll calls)) ticks bus =
      ⟨some (), later, after⟩) :
    KeepsShowing site (clock later) before after key ↔
      ¬ (Opens calls key ∧ Hidden site before key) := by
  have rows := performAll_other kept updates accepted others ran
  rw [same] at rows
  have goesOn : clock ticks ≤ clock later := by
    have ticked := run_ticks_le (bothTiers site) clock (onTiers (performAll calls)) ticks bus
    rw [ran] at ticked
    exact monotone ticked
  have copies : ∀ now, clock later ≤ now → remains now after.transient.contents[key]? =
      remains now before.transient.contents[key]? := by
    intro now ordered
    have copy := @run_copy_later site clock ticks bus monotone _ _ key
      (performAll_uses_other others) now
    rw [ran] at copy
    exact (copy ordered).trans (copied now (goesOn.trans ordered))
  constructor
  · rintro keeps ⟨opens, different, away⟩
    rcases gone_of_not_lasting away (clock later) with ⟨now, ordered, gone⟩
    have shown := keeps now ordered
    unfold Cell.value PermutiveBus.cell at shown
    rw [copies now ordered, gone, rows.1 opens] at shown
    exact different shown.symm
  · intro nothing now ordered
    unfold Cell.value PermutiveBus.cell
    rw [copies now ordered]
    by_cases opens : Opens calls key
    · by_cases lasting : Lasting before key
      · rcases lasting with ⟨value, held⟩
        rw [held]
        rfl
      · have stored : before.persistent.row key = before.persistent.stored site key := by
          by_contra different
          exact nothing ⟨opens, different, lasting⟩
        rw [rows.1 opens, stored]
    · rw [rows.2 opens]

end Others

private theorem opens_write (key value other : Bytes) :
    Opens [.writeValue key value] other ↔ namespaceOf key = namespaceOf other := by
  constructor
  · rintro ⟨request, member, about, written, space⟩
    rcases List.mem_singleton.mp member with rfl
    cases written
    exact space
  · intro space
    exact ⟨_, List.mem_singleton_self _, key, rfl, space⟩

section ReadThen

variable {site : Site} {clock : Nat → Instant} {ticks : Nat} {bus : PermutiveBus} {about : Bytes}

/-- What a read and the calls after it come to: they return, with the calls made on a bus
that differs from the first in copies of the key alone. -/
theorem run_read_then {α : Type} (monotone : Monotone clock) (attached : bus.persistent.Attached)
    (readable : bus.Reads (clock ticks) about) (next : Option Bytes → List DataBusCall)
    (updates : ∀ request ∈ next ((bus.cell site about).value (clock ticks)), request.Updates)
    (accepted : ∀ request ∈ next ((bus.cell site about).value (clock ticks)),
      bus.persistent.Accepts site request) (result : α) :
    ∃ middle between later after,
      between.persistent = bus.persistent ∧
      (∀ other, other ≠ about → ∀ now, clock middle ≤ now →
        remains now between.transient.contents[other]? =
          remains now bus.transient.contents[other]?) ∧
      run (bothTiers site) clock
        (onTiers (performAll (next ((bus.cell site about).value (clock ticks))))) middle between =
          ⟨some (), later, after⟩ ∧
      run (bothTiers site) clock (onTiers ((DataBus.readValue about).bind
        (fun found => (performAll (next found)).bind (fun _ => .done result)))) ticks bus =
          ⟨some result, later, after⟩ ∧
      Kept site bus.persistent after.persistent := by
  have ends := @read_ends site clock _ ticks bus (.refl attached) about
  rcases @run_readValue_leaves site clock ticks bus about monotone attached readable with
    ⟨reply, middle, between, read, persistent, -⟩
  have shown : reply = (bus.cell site about).value (clock ticks) := by
    apply read_shows attached
    change (run (bothTiers site) clock (PermutiveBus.readValue about) ticks bus).result = _
    rw [read]
  have keptBetween : Kept site bus.persistent between.persistent := by
    rw [persistent]
    exact .refl attached
  rcases @performAll_returns site clock bus.persistent middle between keptBetween _ updates
    accepted with ⟨later, after, ran, keptAfter⟩
  refine ⟨middle, between, later, after, persistent, ?_, ran, ?_, keptAfter⟩
  · intro other different now ordered
    have uses : (PermutiveBus.call (.readValue about)).Uses (NotAboutKey other) :=
      call_uses_other (fun asked => different (Option.some.inj asked).symm)
    have copy := @run_copy_later site clock ticks bus monotone _ _ other uses now
    change clock (run (bothTiers site) clock (PermutiveBus.readValue about) ticks bus).ticks ≤
      now → remains now (run (bothTiers site) clock (PermutiveBus.readValue about) ticks
        bus).state.transient.contents[other]? = _ at copy
    rw [read] at copy
    exact copy ordered
  · have program : onTiers ((DataBus.readValue about).bind
        (fun found => (performAll (next found)).bind (fun _ => (.done result : BusProgram α)))) =
        (PermutiveBus.readValue about).bind (fun found =>
          onTiers ((performAll (next found)).bind (fun _ => .done result))) := rfl
    have calls : onTiers ((performAll (next reply)).bind
        (fun _ => (.done result : BusProgram α))) =
        (onTiers (performAll (next reply))).bind (fun _ => .done result) :=
      Program.translate_bind _ _ _
    rw [program, run_bind, read]
    simp only
    rw [calls, run_bind, shown, ran]
    rfl

end ReadThen

/-! ### One row and its statements -/

def newline : UInt8 := 0x0A

theorem Query.joinLines_eq (texts : List Bytes) :
    Query.joinLines texts = Separated.joined newline texts := by
  have separator : asBytes "\n" = [newline] := by decide +kernel
  unfold Query.joinLines
  rw [separator]
  rfl

structure RowLiteral where
  tableName : Bytes
  column : Bytes
  pk : Sql.Expr
  columns : List Sql.Expr
  assigned : Sql.Expr
  assignments : List Sql.Expr

namespace RowLiteral

variable (parser : SqlParser) (row : RowLiteral)

def condition : Sql.Expr :=
  .binaryOpEq (.identifier row.column) row.pk

/-- `INSERT INTO table VALUES (pk, columns…)` -/
def insert : Sql.Statement :=
  .insert row.tableName (some (.values [row.pk :: row.columns]))

/-- `SELECT … FROM table WHERE key = pk` -/
def select : Sql.Statement :=
  .query (.select [.table row.tableName] (some row.condition))

/-- `UPDATE table SET … WHERE key = pk` -/
def update : Sql.Statement :=
  .update (.table row.tableName) (row.assigned :: row.assignments) (some row.condition)

/-- `DELETE FROM table WHERE key = pk` -/
def delete : Sql.Statement :=
  .delete [.table row.tableName] (some row.condition)

def key : Bytes :=
  Query.rowKey parser (Query.plainName row.tableName) row.pk

def schema : Bytes :=
  Query.schemaKey (Query.plainName row.tableName)

def value : Bytes :=
  Separated.joined newline (row.columns.map (Query.parseExprValue parser))

def newValue : Bytes :=
  Separated.joined newline ((row.assigned :: row.assignments).map (Query.parseExprValue parser))

def schemaText : Bytes :=
  Query.schemaText (row.pk :: row.columns).length

end RowLiteral

section Statements

variable (parser : SqlParser) (site : Site) (clock : Nat → Instant) (requestId : Nat)

def rowResponses (requestId : Nat) : Option Bytes → List Response
  | some value => [createPayload requestId (lengthPrefixed value)]
  | none => [createOk requestId]

def execute (statement : Sql.Statement) (ticks : Nat) (bus : PermutiveBus) :
    Outcome PermutiveBus (List Response) :=
  run (bothTiers site) clock (onTiers (Query.runStatement parser requestId statement)) ticks bus

/-- The statement is answered `OK` and ends so. -/
def Done (statement : Sql.Statement) (ticks : Nat) (bus : PermutiveBus) (later : Nat)
    (after : PermutiveBus) : Prop :=
  execute parser site clock requestId statement ticks bus =
    ⟨some [createOk requestId], later, after⟩

/-- `SELECT` with the literal finds a row of this value. -/
def Finds (row : RowLiteral) (ticks : Nat) (bus : PermutiveBus) (value : Bytes) : Prop :=
  (execute parser site clock requestId row.select ticks bus).result =
    some [createPayload requestId (lengthPrefixed value)]

/-- `SELECT` with the literal finds nothing. -/
def FindsNothing (row : RowLiteral) (ticks : Nat) (bus : PermutiveBus) : Prop :=
  (execute parser site clock requestId row.select ticks bus).result =
    some [createOk requestId]

/-- All keys but that of the row and that of the schema keep showing what they showed. -/
def KeepsOthers (row : RowLiteral) (later : Nat) (before after : PermutiveBus) : Prop :=
  ∀ other, other ≠ row.key parser → other ≠ row.schema →
    KeepsShowing site (clock later) before after other

/-- After the row is inserted, the three statements with its literal address that row. -/
def Addressed (row : RowLiteral) (ticks : Nat) (bus : PermutiveBus) : Prop :=
  ∃ later after, Done parser site clock requestId row.insert ticks bus later after ∧
    KeepsOthers parser site clock row later bus after ∧
    Finds parser site clock requestId row later after (row.value parser) ∧
    (∃ ended updated, Done parser site clock requestId row.update later after ended updated ∧
      KeepsOthers parser site clock row ended after updated ∧
      Finds parser site clock requestId row ended updated (row.newValue parser)) ∧
    (∃ ended deleted, Done parser site clock requestId row.delete later after ended deleted ∧
      KeepsOthers parser site clock row ended after deleted ∧
      FindsNothing parser site clock requestId row ended deleted)

end Statements

namespace RowLiteral

variable {parser : SqlParser} {row : RowLiteral} {requestId : Nat}

def insertCalls (parser : SqlParser) (row : RowLiteral) (schemaData : Option Bytes) :
    List DataBusCall :=
  match schemaData with
  | some _ => [.writeValue (row.key parser) (row.value parser)]
  | none =>
      [.writeValue (row.key parser) (row.value parser), .writeValue row.schema row.schemaText]

def updateCalls (parser : SqlParser) (row : RowLiteral) (current : Option Bytes) :
    List DataBusCall :=
  if current.isSome then [.writeValue (row.key parser) (row.newValue parser)] else []

private theorem insert_eq (parser : SqlParser) (row : RowLiteral) (requestId : Nat) :
    Query.runStatement parser requestId row.insert =
      (DataBus.readValue row.schema).bind (fun schemaData =>
        (performAll (row.insertCalls parser schemaData)).bind
          (fun _ => return [createOk requestId])) := by
  refine congrArg (@Program.call dataBus (List Response) (.readValue row.schema)) (funext ?_)
  intro schemaData
  have lines : row.value parser =
      Query.joinLines (row.columns.map (Query.parseExprValue parser)) :=
    (Query.joinLines_eq _).symm
  unfold insertCalls
  rw [lines]
  cases schemaData with
  | none => rfl
  | some schema => rfl

/-- The condition is the key of the row, if the literal is a number or a string in single
quotes. -/
theorem where_literal (named : parser.toLowercase row.column = asBytes "key")
    {text : Bytes} (literal : Query.parseStringValue row.pk = some text) :
    Query.parseWhereCondition parser (some row.condition) = .keyEquals text := by
  unfold condition Query.parseWhereCondition Query.checkKeyColumn
  simp only [named, decide_true, if_true, literal]

private theorem where_other (literal : Query.parseStringValue row.pk = none) :
    Query.parseWhereCondition parser (some row.condition) = .unsupported := by
  unfold condition Query.parseWhereCondition
  simp only [literal]
  split
  · rfl
  · rfl

theorem tableName_eq (tableName : Bytes) :
    Query.parseTableName [.table tableName] = some (Query.plainName tableName) := rfl

theorem key_literal {text : Bytes} (literal : Query.parseStringValue row.pk = some text) :
    Query.fullKey (Query.plainName row.tableName) text = row.key parser := by
  unfold key Query.rowKey
  congr 1
  unfold Query.parseStringValue at literal
  unfold Query.parseExprValue
  split at literal
  · rename_i found
    rw [found]
    exact (Option.some.inj literal).symm
  · rename_i found
    rw [found]
    exact (Option.some.inj literal).symm
  · cases literal

end RowLiteral

section Runs

variable {parser : SqlParser} {row : RowLiteral} {site : Site} {clock : Nat → Instant}
  {ticks : Nat} {bus : PermutiveBus} {requestId : Nat}

/-- `SELECT` with the literal replies what the key of the row shows, and leaves all values. -/
theorem select_run (monotone : Monotone clock) (attached : bus.persistent.Attached)
    (readable : bus.Reads (clock ticks) (row.key parser))
    (named : parser.toLowercase row.column = asBytes "key")
    {text : Bytes} (literal : Query.parseStringValue row.pk = some text) :
    ∃ later after, execute parser site clock requestId row.select ticks bus =
        ⟨some (rowResponses requestId ((bus.cell site (row.key parser)).value (clock ticks))),
          later, after⟩ ∧
      LeavesValues site (clock later) bus after := by
  rcases @run_readValue_leaves site clock ticks bus (row.key parser) monotone attached
    readable with ⟨reply, later, after, read, leaves⟩
  have shown : reply = (bus.cell site (row.key parser)).value (clock ticks) := by
    apply read_shows attached
    change (run (bothTiers site) clock (PermutiveBus.readValue (row.key parser)) ticks
      bus).result = _
    rw [read]
  have program : Query.runStatement parser requestId row.select =
      (DataBus.readValue (row.key parser)).bind
        (fun found => .done (rowResponses requestId found)) := by
    unfold RowLiteral.select Query.runStatement Query.parseSelect
    simp only [RowLiteral.tableName_eq, RowLiteral.where_literal named literal]
    rw [RowLiteral.key_literal literal]
    refine congrArg (@Program.call dataBus (List Response) (.readValue (row.key parser)))
      (funext ?_)
    intro found
    cases found with
    | none => rfl
    | some value => rfl
  have translated : onTiers (Query.runStatement parser requestId row.select) =
      (PermutiveBus.readValue (row.key parser)).bind
        (fun found => .done (rowResponses requestId found)) := by
    rw [program]
    rfl
  refine ⟨later, after, ?_, leaves⟩
  unfold execute
  rw [translated, run_bind, read, ← shown]
  rfl

private theorem select_result (monotone : Monotone clock) (attached : bus.persistent.Attached)
    (works : bus.persistent.Works) (named : parser.toLowercase row.column = asBytes "key")
    {text : Bytes} (literal : Query.parseStringValue row.pk = some text) :
    (execute parser site clock requestId row.select ticks bus).result =
      some (rowResponses requestId ((bus.cell site (row.key parser)).value (clock ticks))) := by
  rcases @select_run parser row site clock ticks bus requestId monotone attached (Or.inl works)
    named text literal with ⟨later, after, ran, -⟩
  rw [ran]

/-- A literal of another kind is refused by `SELECT`. -/
theorem select_other (literal : Query.parseStringValue row.pk = none) :
    (execute parser site clock requestId row.select ticks bus).result =
      some (Query.malformed requestId "unsupported WHERE condition") := by
  have program : Query.runStatement parser requestId row.select =
      return Query.malformed requestId "unsupported WHERE condition" := by
    unfold RowLiteral.select Query.runStatement Query.parseSelect
    simp only [RowLiteral.tableName_eq, RowLiteral.where_other literal]
  unfold execute
  rw [program]
  rfl

/-- A literal of another kind is refused by `UPDATE`, before the bus is asked. -/
theorem update_other (literal : Query.parseStringValue row.pk = none) :
    execute parser site clock requestId row.update ticks bus =
      ⟨some (Query.malformed requestId "UPDATE requires WHERE key = ..."), ticks, bus⟩ := by
  have program : Query.runStatement parser requestId row.update =
      return Query.malformed requestId "UPDATE requires WHERE key = ..." := by
    unfold RowLiteral.update Query.runStatement Query.parseUpdate Query.parseSingleTableName
    simp only [RowLiteral.where_other literal]
  unfold execute
  rw [program]
  rfl

theorem update_eq (named : parser.toLowercase row.column = asBytes "key")
    {text : Bytes} (literal : Query.parseStringValue row.pk = some text) :
    Query.runStatement parser requestId row.update =
      (DataBus.readValue (row.key parser)).bind (fun found =>
        (performAll (row.updateCalls parser found)).bind
          (fun _ => .done [createOk requestId])) := by
  unfold RowLiteral.update Query.runStatement Query.parseUpdate Query.parseSingleTableName
  simp only [RowLiteral.where_literal named literal]
  rw [RowLiteral.key_literal literal]
  refine congrArg (@Program.call dataBus (List Response) (.readValue (row.key parser)))
    (funext ?_)
  intro found
  have lines : row.newValue parser =
      Query.joinLines ((row.assigned :: row.assignments).map (Query.parseExprValue parser)) :=
    (Query.joinLines_eq _).symm
  unfold RowLiteral.updateCalls
  rw [lines]
  cases found with
  | none => rfl
  | some value => rfl

/-- `UPDATE` replaces what the key shows; of the other keys it can change those alone that
come to light with the database of the row. -/
theorem update_effect (monotone : Monotone clock) (attached : bus.persistent.Attached)
    (stores : bus.persistent.Stores site (row.key parser))
    (named : parser.toLowercase row.column = asBytes "key")
    {text : Bytes} (literal : Query.parseStringValue row.pk = some text)
    {old : Bytes} (shown : (bus.cell site (row.key parser)).value (clock ticks) = some old) :
    ∃ later after, Done parser site clock requestId row.update ticks bus later after ∧
      Kept site bus.persistent after.persistent ∧
      (after.cell site (row.key parser)).value (clock later) = some (row.newValue parser) ∧
      ∀ other, other ≠ row.key parser →
        (KeepsShowing site (clock later) bus after other ↔
          ¬ (namespaceOf (row.key parser) = namespaceOf other ∧ Hidden site bus other)) := by
  have calls : row.updateCalls parser ((bus.cell site (row.key parser)).value (clock ticks)) =
      [.writeValue (row.key parser) (row.newValue parser)] := by
    rw [shown]
    rfl
  have updates : ∀ request ∈ [DataBusCall.writeValue (row.key parser) (row.newValue parser)],
      request.Updates := List.forall_mem_singleton.mpr trivial
  have accepted : ∀ request ∈ [DataBusCall.writeValue (row.key parser) (row.newValue parser)],
      bus.persistent.Accepts site request := List.forall_mem_singleton.mpr stores
  rcases @run_read_then site clock ticks bus (row.key parser) _ monotone attached
    (Or.inl stores.1) (row.updateCalls parser) (by rw [calls]; exact updates)
    (by rw [calls]; exact accepted) [createOk requestId] with
    ⟨middle, between, later, after, same, copied, wrote, ran, kept⟩
  rw [calls] at wrote
  have keptBetween : Kept site bus.persistent between.persistent := by
    rw [same]
    exact .refl attached
  refine ⟨later, after, ?_, kept, ?_, ?_⟩
  · unfold Done execute
    rw [update_eq named literal]
    exact ran
  · have last := @performAll_write site clock bus.persistent middle between [] []
      (row.key parser) (row.newValue parser) later after monotone keptBetween updates accepted
      (fun _ member => by cases member) wrote
    unfold Cell.value PermutiveBus.cell
    rw [last.1]
    exact last.2
  · intro other notKey
    have mentioned : ∀ request ∈
        [DataBusCall.writeValue (row.key parser) (row.newValue parser)],
        request.key? ≠ some other :=
      List.forall_mem_singleton.mpr (fun asked => notKey (Option.some.inj asked).symm)
    rw [performAll_keeps_iff monotone keptBetween updates accepted mentioned same
      (copied other notKey) wrote, opens_write]

/-- `UPDATE` replaces a row that is stored, and nothing else. -/
theorem update_run (monotone : Monotone clock) (attached : bus.persistent.Attached)
    (stores : bus.persistent.Stores site (row.key parser))
    (named : parser.toLowercase row.column = asBytes "key")
    {text : Bytes} (literal : Query.parseStringValue row.pk = some text)
    {old : Bytes} (stored : bus.persistent.row (row.key parser) = some old)
    (shown : (bus.cell site (row.key parser)).value (clock ticks) = some old) :
    ∃ later after, Done parser site clock requestId row.update ticks bus later after ∧
      KeepsOthers parser site clock row later bus after ∧
      Kept site bus.persistent after.persistent ∧
      (after.cell site (row.key parser)).value (clock later) = some (row.newValue parser) := by
  rcases @update_effect parser row site clock ticks bus requestId monotone attached stores named
    text literal old shown with ⟨later, after, updated, kept, holds, others⟩
  refine ⟨later, after, updated, ?_, kept, holds⟩
  intro other notKey _
  refine (others other notKey).mpr ?_
  rintro ⟨space, different, -⟩
  have isOpen := isOpen_of_row stored
  rw [space] at isOpen
  exact different (row_of_isOpen site isOpen)

/-- `DELETE` takes the row away, and nothing else. -/
theorem delete_run (monotone : Monotone clock) (attached : bus.persistent.Attached)
    (works : bus.persistent.Works) (named : parser.toLowercase row.column = asBytes "key")
    {text : Bytes} (literal : Query.parseStringValue row.pk = some text) :
    ∃ later after, Done parser site clock requestId row.delete ticks bus later after ∧
      (∀ other, other ≠ row.key parser → KeepsShowing site (clock later) bus after other) ∧
      Kept site bus.persistent after.persistent ∧
      ∀ now, clock later ≤ now → (after.cell site (row.key parser)).value now = none := by
  have program : Query.runStatement parser requestId row.delete =
      (performAll [.deleteValue (row.key parser)]).bind
        (fun _ => .done [createOk requestId]) := by
    unfold RowLiteral.delete Query.runStatement Query.parseDelete
    simp only [RowLiteral.where_literal named literal]
    rw [RowLiteral.key_literal literal]
    rfl
  have updates : ∀ request ∈ [DataBusCall.deleteValue (row.key parser)], request.Updates :=
    List.forall_mem_singleton.mpr trivial
  have accepted : ∀ request ∈ [DataBusCall.deleteValue (row.key parser)],
      bus.persistent.Accepts site request := List.forall_mem_singleton.mpr works
  rcases @performAll_returns site clock bus.persistent ticks bus (.refl attached) _ updates
    accepted with ⟨later, after, ran, kept⟩
  refine ⟨later, after, ?_, ?_, kept, ?_⟩
  · have translated : onTiers (Query.runStatement parser requestId row.delete) =
        (onTiers (performAll [.deleteValue (row.key parser)])).bind
          (fun _ => .done [createOk requestId]) := by
      rw [program]
      exact Program.translate_bind _ _ _
    unfold Done execute
    rw [translated, run_bind, ran]
    rfl
  · intro other notKey
    have mentioned : ∀ request ∈ [DataBusCall.deleteValue (row.key parser)],
        request.key? ≠ some other :=
      List.forall_mem_singleton.mpr (fun asked => notKey (Option.some.inj asked).symm)
    refine (performAll_keeps_iff monotone (.refl attached) updates accepted mentioned rfl
      (fun _ _ => rfl) ran).mpr ?_
    rintro ⟨⟨request, member, about, written, -⟩, -⟩
    rcases List.mem_singleton.mp member with rfl
    cases written
  · have last := @performAll_delete site clock bus.persistent ticks bus [] []
      (row.key parser) later after monotone (.refl attached) updates accepted
      (fun _ member => by cases member) (fun _ member => by cases member) ran
    intro now ordered
    unfold Cell.value
    rw [remains_none_later ordered last.1]
    exact last.2

/-- What a write of the row stores under its key in the end: the schema, where it has the
same key and is not there yet. -/
def RowLiteral.storedValue (parser : SqlParser) (row : RowLiteral) (schemaData : Option Bytes) :
    Bytes :=
  if row.key parser = row.schema ∧ schemaData = none then row.schemaText else row.value parser

private theorem insertCalls_updates (parser : SqlParser) (row : RowLiteral)
    (schemaData : Option Bytes) :
    ∀ request ∈ row.insertCalls parser schemaData, request.Updates := by
  intro request member
  cases schemaData with
  | some schema =>
      rcases List.mem_singleton.mp member with rfl
      trivial
  | none =>
      rcases List.mem_pair.mp member with rfl | rfl
      · trivial
      · trivial

private theorem insertCalls_opens (schemaData : Option Bytes) (other : Bytes) :
    Opens (row.insertCalls parser schemaData) other ↔
      namespaceOf (row.key parser) = namespaceOf other ∨
        (schemaData = none ∧ namespaceOf row.schema = namespaceOf other) := by
  constructor
  · rintro ⟨request, member, about, written, space⟩
    cases schemaData with
    | some schema =>
        rcases List.mem_singleton.mp member with rfl
        cases written
        exact Or.inl space
    | none =>
        rcases List.mem_pair.mp member with rfl | rfl
        · cases written
          exact Or.inl space
        · cases written
          exact Or.inr ⟨rfl, space⟩
  · rintro (space | ⟨rfl, space⟩)
    · have first : DataBusCall.writeValue (row.key parser) (row.value parser) ∈
          row.insertCalls parser schemaData := by
        cases schemaData with
        | some schema => exact List.mem_singleton_self _
        | none => exact List.mem_cons_self ..
      exact ⟨_, first, _, rfl, space⟩
    · exact ⟨.writeValue row.schema row.schemaText,
        List.mem_cons_of_mem _ (List.mem_singleton_self _), _, rfl, space⟩

def RowLiteral.OpensSpace (parser : SqlParser) (row : RowLiteral) (site : Site) (now : Instant)
    (bus : PermutiveBus) (other : Bytes) : Prop :=
  namespaceOf (row.key parser) = namespaceOf other ∨
    (¬ Shown site now bus row.schema ∧ namespaceOf row.schema = namespaceOf other)

theorem not_shown_iff (now : Instant) (key : Bytes) :
    ¬ Shown site now bus key ↔ (bus.cell site key).value now = none := by
  unfold Shown
  rw [Bool.not_eq_true, Option.isSome_eq_false_iff, Option.isNone_iff_eq_none]

/-- `INSERT` stores the row, and the schema if it is not there. -/
theorem insert_run (monotone : Monotone clock) (attached : bus.persistent.Attached)
    (stores : bus.persistent.Stores site (row.key parser))
    (schemaStores : ¬ Shown site (clock ticks) bus row.schema →
      bus.persistent.Stores site row.schema) :
    ∃ later after, Done parser site clock requestId row.insert ticks bus later after ∧
      Kept site bus.persistent after.persistent ∧
      after.persistent.row (row.key parser) = some (row.storedValue parser
        ((bus.cell site row.schema).value (clock ticks))) ∧
      (after.cell site (row.key parser)).value (clock later) = some (row.storedValue parser
        ((bus.cell site row.schema).value (clock ticks))) ∧
      ∀ other, other ≠ row.key parser → other ≠ row.schema →
        (KeepsShowing site (clock later) bus after other ↔
          ¬ (row.OpensSpace parser site (clock ticks) bus other ∧ Hidden site bus other)) := by
  have accepted : ∀ request ∈ row.insertCalls parser
      ((bus.cell site row.schema).value (clock ticks)), bus.persistent.Accepts site request := by
    intro request member
    cases found : (bus.cell site row.schema).value (clock ticks) with
    | some schema =>
        rw [found] at member
        rcases List.mem_singleton.mp member with rfl
        exact stores
    | none =>
        rw [found] at member
        rcases List.mem_pair.mp member with rfl | rfl
        · exact stores
        · exact schemaStores ((not_shown_iff (clock ticks) row.schema).mpr found)
  have updates := insertCalls_updates parser row ((bus.cell site row.schema).value (clock ticks))
  rcases @run_read_then site clock ticks bus row.schema _ monotone attached
    (Or.inl stores.1) (row.insertCalls parser) updates accepted [createOk requestId] with
    ⟨middle, between, later, after, same, copied, wrote, ran, kept⟩
  have keptBetween : Kept site bus.persistent between.persistent := by
    rw [same]
    exact .refl attached
  have last : remains (clock later) after.transient.contents[row.key parser]? = none ∧
      after.persistent.row (row.key parser) = some (row.storedValue parser
        ((bus.cell site row.schema).value (clock ticks))) := by
    unfold RowLiteral.storedValue
    cases found : (bus.cell site row.schema).value (clock ticks) with
    | some schema =>
        rw [found] at wrote updates accepted
        rw [if_neg (fun both => by cases both.2)]
        exact @performAll_write site clock bus.persistent middle between [] [] _ _ later after
          monotone keptBetween updates accepted (fun _ member => by cases member) wrote
    | none =>
        rw [found] at wrote updates accepted
        by_cases collide : row.key parser = row.schema
        · rw [if_pos ⟨collide, rfl⟩, collide]
          exact @performAll_write site clock bus.persistent middle between
            [.writeValue (row.key parser) (row.value parser)] [] _ _ later after
            monotone keptBetween updates accepted (fun _ member => by cases member) wrote
        · rw [if_neg (fun both => collide both.1)]
          refine @performAll_write site clock bus.persistent middle between []
            [.writeValue row.schema row.schemaText] _ _ later after
            monotone keptBetween updates accepted ?_ wrote
          intro request member asked
          rcases List.mem_singleton.mp member with rfl
          exact collide (Option.some.inj asked).symm
  refine ⟨later, after, ?_, kept, last.2, ?_, ?_⟩
  · unfold Done execute
    rw [RowLiteral.insert_eq]
    exact ran
  · unfold Cell.value PermutiveBus.cell
    rw [last.1]
    exact last.2
  · intro other notKey notSchema
    have mentioned : ∀ request ∈ row.insertCalls parser
        ((bus.cell site row.schema).value (clock ticks)), request.key? ≠ some other := by
      intro request member asked
      cases found : (bus.cell site row.schema).value (clock ticks) with
      | some schema =>
          rw [found] at member
          rcases List.mem_singleton.mp member with rfl
          exact notKey (Option.some.inj asked).symm
      | none =>
          rw [found] at member
          rcases List.mem_pair.mp member with rfl | rfl
          · exact notKey (Option.some.inj asked).symm
          · exact notSchema (Option.some.inj asked).symm
    rw [performAll_keeps_iff monotone keptBetween updates accepted mentioned same
      (copied other notSchema) wrote, insertCalls_opens]
    unfold RowLiteral.OpensSpace
    rw [not_shown_iff]

end Runs

/-! ### When the literal addresses the row -/

private theorem createPayload_injective {requestId : Nat} {first second : Bytes}
    (same : createPayload requestId (lengthPrefixed first) =
      createPayload requestId (lengthPrefixed second)) : first = second := by
  have payloads := congrArg Response.payload same
  have lengths : (toBeBytes 4 first.length).length = (toBeBytes 4 second.length).length := by
    rw [length_toBeBytes, length_toBeBytes]
  exact (List.append_inj payloads lengths).2

private theorem malformed_not_payload (requestId : Nat) (message : String) (payload : Bytes) :
    Query.malformed requestId message ≠ [createPayload requestId payload] := by
  intro same
  have opcodes : errorMalformedOpcode = okPayloadOpcode :=
    congrArg Response.opcode (List.cons.inj same).1
  exact absurd opcodes (by decide)

/-- The literal is one that conditions accept, the row and a missing schema can be stored,
the schema does not replace the row, and no row of another key comes to light. -/
structure Addressable (parser : SqlParser) (site : Site) (now : Instant) (bus : PermutiveBus)
    (row : RowLiteral) : Prop where
  literal : ∃ text, Query.parseStringValue row.pk = some text
  stores : bus.persistent.Stores site (row.key parser)
  schemaStores : ¬ Shown site now bus row.schema → bus.persistent.Stores site row.schema
  kept : row.key parser = row.schema → ¬ Shown site now bus row.schema →
    row.schemaText = row.value parser
  others : ∀ other, other ≠ row.key parser → other ≠ row.schema →
    ¬ (row.OpensSpace parser site now bus other ∧ Hidden site bus other)

section Addressing

variable {parser : SqlParser} {row : RowLiteral} {site : Site} {clock : Nat → Instant}
  {disk : Disk} {ticks : Nat} {bus : PermutiveBus}

private theorem Addressable.storedValue_eq
    (addressable : Addressable parser site (clock ticks) bus row) :
    row.storedValue parser ((bus.cell site row.schema).value (clock ticks)) =
      row.value parser := by
  unfold RowLiteral.storedValue
  split
  · rename_i replaced
    exact addressable.kept replaced.1 ((not_shown_iff (clock ticks) row.schema).mpr replaced.2)
  · rfl

private theorem Addressable.addressed (monotone : Monotone clock)
    (attached : bus.persistent.Attached)
    (named : parser.toLowercase row.column = asBytes "key")
    (addressable : Addressable parser site (clock ticks) bus row) (requestId : Nat) :
    Addressed parser site clock requestId row ticks bus := by
  rcases addressable.literal with ⟨text, literal⟩
  rcases @insert_run parser row site clock ticks bus requestId monotone attached
    addressable.stores addressable.schemaStores with
    ⟨later, after, inserted, kept, stored, shown, others⟩
  rw [addressable.storedValue_eq] at stored shown
  have works : after.persistent.Works := kept.works.mpr addressable.stores.1
  have stores : after.persistent.Stores site (row.key parser) :=
    (kept.stores _).mpr addressable.stores
  refine ⟨later, after, inserted, ?_, ?_, ?_, ?_⟩
  · intro other notKey notSchema
    exact (others other notKey notSchema).mpr (addressable.others other notKey notSchema)
  · unfold Finds
    rw [select_result monotone kept.attached works named literal, shown]
    rfl
  · rcases @update_run parser row site clock later after requestId monotone kept.attached
      stores named text literal _ stored shown with ⟨ended, updated, ran, keeps, keptAfter, holds⟩
    refine ⟨ended, updated, ran, keeps, ?_⟩
    unfold Finds
    rw [select_result monotone keptAfter.attached (keptAfter.works.mpr works) named literal,
      holds]
    rfl
  · rcases @delete_run parser row site clock later after requestId monotone kept.attached
      works named text literal with ⟨ended, deleted, ran, keeps, keptAfter, gone⟩
    refine ⟨ended, deleted, ran, fun other notKey _ => keeps other notKey, ?_⟩
    unfold FindsNothing
    rw [select_result monotone keptAfter.attached (keptAfter.works.mpr works) named literal,
      gone _ (Nat.le_refl _)]
    rfl

private theorem Addressed.addressable (monotone : Monotone clock)
    (attached : bus.persistent.Attached)
    (named : parser.toLowercase row.column = asBytes "key") {requestId : Nat}
    (addressed : Addressed parser site clock requestId row ticks bus) :
    Addressable parser site (clock ticks) bus row := by
  rcases addressed with ⟨later, after, done, keeps, finds, -, -⟩
  have answerable : InsertAnswerable parser site (clock ticks) bus row.tableName
      (some (.values [row.pk :: row.columns])) := by
    by_contra impossible
    have stuck := (@parseInsert_ends site clock bus.persistent ticks bus (.refl attached) parser
      requestId row.tableName (some (.values [row.pk :: row.columns]))).panics impossible
    have result := congrArg Outcome.result done
    cases stuck.symm.trans result
  rcases answerable with ⟨-, rows, schemaStores⟩
  have stores : bus.persistent.Stores site (row.key parser) :=
    rows row.pk row.columns (List.mem_singleton_self _)
  have schemaWrites : ¬ Shown site (clock ticks) bus row.schema →
      bus.persistent.Stores site row.schema :=
    fun absent => schemaStores absent (List.cons_ne_nil _ _)
  cases found : Query.parseStringValue row.pk with
  | none =>
      unfold Finds at finds
      rw [select_other found] at finds
      exact absurd (Option.some.inj finds) (malformed_not_payload _ _ _)
  | some text =>
      rcases @insert_run parser row site clock ticks bus requestId monotone attached
        stores schemaWrites with ⟨ended, final, inserted, kept, -, shown, others⟩
      have same := done.symm.trans inserted
      simp only [Outcome.mk.injEq, true_and] at same
      rcases same with ⟨rfl, rfl⟩
      unfold Finds at finds
      rw [select_result monotone kept.attached (kept.works.mpr stores.1) named found,
        shown] at finds
      have value := createPayload_injective (List.cons.inj (Option.some.inj finds)).1
      exact {
        literal := ⟨text, found⟩
        stores := stores
        schemaStores := schemaWrites
        kept := by
          intro collide absent
          unfold RowLiteral.storedValue at value
          rw [if_pos ⟨collide, (not_shown_iff _ _).mp absent⟩] at value
          exact value
        others := fun other notKey notSchema =>
          (others other notKey notSchema).mp (keeps other notKey notSchema) }

/-- A row is addressed by the literal it was inserted with exactly if the literal is a number
or a string in single quotes, and nothing else gets in the way. -/
theorem literal_addresses_row_iff (monotone : Monotone clock)
    (reachable : Reachable site clock disk ticks bus)
    (named : parser.toLowercase row.column = asBytes "key") (requestId : Nat) :
    Addressed parser site clock requestId row ticks bus ↔
      Addressable parser site (clock ticks) bus row :=
  ⟨Addressed.addressable monotone reachable.attached named,
    fun addressable => addressable.addressed monotone reachable.attached named requestId⟩

end Addressing

def displayParser : SqlParser where
  parseSql := fun _ => none
  display
    | .other text => text
    | _ => []
  toLowercase := id

/-- `INSERT INTO t VALUES (pk, 'a')`, and `UPDATE t SET … = 'b' WHERE key = pk` -/
def oneColumn (pk : Sql.Expr) : RowLiteral where
  tableName := asBytes "t"
  column := asBytes "key"
  pk := pk
  columns := [.value (.singleQuotedString (asBytes "a"))]
  assigned := .value (.singleQuotedString (asBytes "b"))
  assignments := []

theorem emptyBus_stores (key : Bytes) : emptyBus.persistent.Stores openSite key := by
  refine ⟨rfl, ?_⟩
  unfold SqliteBus.usable
  exact Bool.or_true _

theorem emptyBus_nothing_hidden (key : Bytes) : ¬ Hidden openSite emptyBus key := by
  rintro ⟨different, -⟩
  apply different
  rw [emptyBus_empty.row]
  exact (emptyBus_empty.noRows _ key).symm

/-- A string in single quotes addresses its row. -/
theorem quoted_literal_addresses_its_row :
    Addressed displayParser openSite stillClock 1
      (oneColumn (.value (.singleQuotedString (asBytes "1")))) 0 emptyBus :=
  (literal_addresses_row_iff stillClock_monotone emptyBus_reachable rfl 1).mpr
    { literal := ⟨_, rfl⟩
      stores := emptyBus_stores _
      schemaStores := fun _ => emptyBus_stores _
      kept := by
        intro same
        exact absurd same (by decide +kernel)
      others := fun other _ _ both => emptyBus_nothing_hidden other both.2 }

/-- `-5` is inserted as a text, which no condition asks for. -/
theorem signed_literal_is_lost :
    (∃ later after, Done displayParser openSite stillClock 1
      (oneColumn (.other (asBytes "-5"))).insert 0 emptyBus later after) ∧
    ¬ Addressed displayParser openSite stillClock 1 (oneColumn (.other (asBytes "-5"))) 0
      emptyBus := by
  constructor
  · rcases @insert_run displayParser (oneColumn (.other (asBytes "-5"))) openSite stillClock 0
      emptyBus 1 stillClock_monotone emptyBus_attached (emptyBus_stores _)
      (fun _ => emptyBus_stores _) with ⟨later, after, inserted, -⟩
    exact ⟨later, after, inserted⟩
  · intro addressed
    rcases (addressed.addressable stillClock_monotone emptyBus_attached rfl).literal with
      ⟨text, literal⟩
    cases literal

end TricPlus
