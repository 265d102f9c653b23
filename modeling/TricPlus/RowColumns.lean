import TricPlus.RowLiterals
import TricPlus.Lib.Separated

/-!
The columns of a row and what `UPDATE` does to them.

A row is a list of lines whose columns are named in a schema entry alone.  `UPDATE` does
not read the schema, and not the names of the columns that are assigned: it writes the
assigned values, one after the other, in place of the row.
-/

namespace TricPlus

open AtomicProgram
open ExpiringMap (remains)

/-! ### Schemas and rows -/

def carriageReturn : UInt8 := 0x0D

namespace Export

def stripReturn (line : Bytes) : Bytes :=
  if line.getLast? = some carriageReturn then line.dropLast else line

/-- `str::lines`: a carriage return is cut off where a newline follows. -/
def textLines (text : Bytes) : List Bytes :=
  let cut := text.splitOn newline
  cut.dropLast.map stripReturn ++ cut.getLast?.toList

structure SchemaColumn where
  name : Bytes
  isPk : Bool
  deriving DecidableEq

/-- The columns of a schema, a line each. -/
def parseSchemaColumns (schema : Bytes) : List SchemaColumn :=
  ((textLines schema).filter (fun line => line ≠ [])).map (fun line =>
    let parts := line.splitOn colon
    { name := parts.headD (asBytes "unknown")
      isPk := decide (asBytes "pk" ∈ parts) })

def lineNames (columns : List SchemaColumn) : List Bytes :=
  (columns.filter (fun column => !column.isPk)).map SchemaColumn.name

def keyNames (columns : List SchemaColumn) : List Bytes :=
  (columns.filter SchemaColumn.isPk).map SchemaColumn.name

def valueParts (value : Bytes) : List Bytes :=
  value.splitOn newline

end Export

open Export

abbrev Assigned := List (Bytes × Bytes)

/-- The row has as many columns as before, each assigned column holds the text assigned to
it, and the others hold what they held. -/
structure OnlyAssigned (columns : List SchemaColumn) (keyValue : Bytes) (assigned : Assigned)
    (old new : List Bytes) : Prop where
  width : new.length = old.length
  holds : ∀ pair ∈ assigned, ∀ index : Nat, (lineNames columns)[index]? = some pair.1 →
    new[index]? = some pair.2
  keyed : ∀ pair ∈ assigned, pair.1 ∈ keyNames columns → pair.2 = keyValue
  keeps : ∀ (index : Nat) (text : Bytes), old[index]? = some text →
    (∀ pair ∈ assigned, (lineNames columns)[index]? ≠ some pair.1) → new[index]? = some text

def updatedPart (columns : List SchemaColumn) (assigned : Assigned) (index : Nat)
    (text : Bytes) : Bytes :=
  (((lineNames columns)[index]?).bind (fun name => assigned.lookup name)).getD text

def updatedParts (columns : List SchemaColumn) (assigned : Assigned) (old : List Bytes) :
    List Bytes :=
  old.mapIdx (updatedPart columns assigned)

/-- Every assigned column is in the row and is assigned one text, or is in the key and is
assigned the key. -/
structure Assignable (columns : List SchemaColumn) (keyValue : Bytes) (assigned : Assigned)
    (width : Nat) : Prop where
  inside : ∀ pair ∈ assigned, ∀ index : Nat, (lineNames columns)[index]? = some pair.1 →
    index < width
  once : ∀ pair ∈ assigned, pair.1 ∈ lineNames columns → assigned.lookup pair.1 = some pair.2
  keyed : ∀ pair ∈ assigned, pair.1 ∈ keyNames columns → pair.2 = keyValue

section Columns

variable {columns : List SchemaColumn} {keyValue : Bytes} {assigned : Assigned}
  {old new : List Bytes}

private theorem getElem?_updatedParts (columns : List SchemaColumn) (assigned : Assigned)
    (old : List Bytes) (index : Nat) :
    (updatedParts columns assigned old)[index]? =
      old[index]?.map (updatedPart columns assigned index) := by
  unfold updatedParts
  exact List.getElem?_mapIdx

private theorem mem_of_lookup {name text : Bytes} (found : assigned.lookup name = some text) :
    (name, text) ∈ assigned := by
  obtain ⟨before, behind, split, -⟩ := List.lookup_eq_some_iff.mp found
  rw [split]
  exact List.mem_append_right _ (List.mem_cons_self ..)

private theorem lookup_of_mem {pair : Bytes × Bytes} (member : pair ∈ assigned) :
    ∃ text, assigned.lookup pair.1 = some text := by
  cases found : assigned.lookup pair.1 with
  | some text => exact ⟨text, rfl⟩
  | none =>
      have other := List.lookup_eq_none_iff.mp found pair member
      exact absurd rfl (bne_iff_ne.mp other)

/-- A row holds what it is to hold exactly if it is the old one with the assigned columns
replaced, and the assignments are such that there is one. -/
theorem onlyAssigned_iff :
    OnlyAssigned columns keyValue assigned old new ↔
      Assignable columns keyValue assigned old.length ∧
        new = updatedParts columns assigned old := by
  constructor
  · intro only
    have once : ∀ pair ∈ assigned, pair.1 ∈ lineNames columns →
        assigned.lookup pair.1 = some pair.2 := by
      intro pair member named
      obtain ⟨index, place⟩ := List.mem_iff_getElem?.mp named
      obtain ⟨text, found⟩ := lookup_of_mem member
      have first := only.holds _ (mem_of_lookup found) index place
      have this := only.holds pair member index place
      rw [found, ← this, first]
    refine ⟨⟨?_, once, only.keyed⟩, ?_⟩
    · intro pair member index place
      have held := only.holds pair member index place
      obtain ⟨inside, -⟩ := List.getElem?_eq_some_iff.mp held
      rw [only.width] at inside
      exact inside
    · apply List.ext_getElem?
      intro index
      rw [getElem?_updatedParts]
      cases before : old[index]? with
      | none =>
          have width := only.width
          rw [List.getElem?_eq_none_iff] at before
          rw [List.getElem?_eq_none_iff.mpr (by omega : new.length ≤ index)]
          rfl
      | some text =>
          change _ = some (updatedPart columns assigned index text)
          unfold updatedPart
          cases place : (lineNames columns)[index]? with
          | none =>
              apply only.keeps index text before
              intro pair _ named
              cases place.symm.trans named
          | some name =>
              rw [Option.bind_some]
              cases found : assigned.lookup name with
              | some assignedText => exact only.holds _ (mem_of_lookup found) index place
              | none =>
                  apply only.keeps index text before
                  intro pair member named
                  have same : name = pair.1 := Option.some.inj (place.symm.trans named)
                  obtain ⟨other, lookedUp⟩ := lookup_of_mem member
                  rw [← same, found] at lookedUp
                  cases lookedUp
  · rintro ⟨assignable, rfl⟩
    refine ⟨List.length_mapIdx, ?_, assignable.keyed, ?_⟩
    · intro pair member index place
      have inside := assignable.inside pair member index place
      rw [getElem?_updatedParts, List.getElem?_eq_getElem inside, Option.map_some]
      unfold updatedPart
      rw [place, Option.bind_some,
        assignable.once pair member (List.mem_of_getElem? place)]
      rfl
    · intro index text before untouched
      rw [getElem?_updatedParts, before, Option.map_some]
      unfold updatedPart
      cases place : (lineNames columns)[index]? with
      | none => rfl
      | some name =>
          rw [Option.bind_some]
          cases found : assigned.lookup name with
          | none => rfl
          | some assignedText => exact absurd place (untouched _ (mem_of_lookup found))

def assignedParts (assigned : Assigned) : List Bytes :=
  Separated.pieces newline (assigned.map Prod.snd)

private theorem valueParts_joined (some : assigned ≠ []) :
    valueParts (Separated.joined newline (assigned.map Prod.snd)) = assignedParts assigned := by
  have texts : assigned.map Prod.snd ≠ [] := fun nothing => some (List.map_eq_nil_iff.mp nothing)
  exact Separated.splitOn_joined texts

end Columns

/-! ### Updates -/

/-- `UPDATE table SET first, rest… WHERE column = pk` -/
structure RowUpdate where
  tableName : Bytes
  column : Bytes
  pk : Ast.Expr
  first : Ast.Assignment
  rest : List Ast.Assignment

namespace RowUpdate

variable (library : SqlLibrary) (update : RowUpdate)

def statement : Ast.Statement :=
  .update
    { table :=
        { relation := .table update.tableName []
          joins := [] }
      assignments := update.first :: update.rest
      selection := some (.binaryOp (.identifier update.column) .eq update.pk)
      clauses := [] }

def row : RowLiteral where
  tableName := update.tableName
  column := update.column
  pk := library.operand update.pk
  columns := []
  assigned := library.stored update.first.value
  assignments := update.rest.map (fun assignment => library.stored assignment.value)

def assigned : Assigned :=
  (update.first :: update.rest).map (fun assignment =>
    (assignment.target, Query.parseExprValue library.parser (library.stored assignment.value)))

def key : Bytes :=
  (update.row library).key library.parser

def keyValue : Bytes :=
  Query.parseExprValue library.parser (library.operand update.pk)

/-- The columns that the stored schema tells of. -/
def columns (site : Site) (now : Instant) (bus : PermutiveBus) : List SchemaColumn :=
  parseSchemaColumns (((bus.cell site (update.row library).schema).value now).getD [])

/-- What is assigned are columns of the stored schema. -/
def NamesColumns (site : Site) (now : Instant) (bus : PermutiveBus) : Prop :=
  ∀ assignment ∈ update.first :: update.rest,
    assignment.target ∈ (update.columns library site now bus).map SchemaColumn.name

/-- The statement is executed, and changes the assigned columns of its row alone; without a
row it changes nothing. -/
def UpdatesAssigned (site : Site) (clock : Nat → Instant) (requestId ticks : Nat)
    (bus : PermutiveBus) : Prop :=
  ∃ responses later after,
    execute library.parser site clock requestId (library.statement update.statement) ticks bus =
      ⟨some responses, later, after⟩ ∧
    (∀ other, other ≠ update.key library → KeepsShowing site (clock later) bus after other) ∧
    match (bus.cell site (update.key library)).value (clock ticks) with
    | none => KeepsShowing site (clock later) bus after (update.key library)
    | some value => responses = [createOk requestId] ∧
        ∃ replaced, (after.cell site (update.key library)).value (clock later) = some replaced ∧
          OnlyAssigned (update.columns library site (clock ticks) bus) (update.keyValue library)
            (update.assigned library) (valueParts value) (valueParts replaced)

/-- The literal is one that conditions accept, the row can be stored, the values are assigned
in the order of the columns and to all of them, and no other row comes to light. -/
structure Orderly (site : Site) (now : Instant) (bus : PermutiveBus) (value : Bytes) : Prop where
  literal : ∃ text, Query.parseStringValue (library.operand update.pk) = some text
  stores : bus.persistent.Stores site (update.key library)
  assignable : Assignable (update.columns library site now bus) (update.keyValue library)
    (update.assigned library) (valueParts value).length
  inOrder : assignedParts (update.assigned library) =
    updatedParts (update.columns library site now bus) (update.assigned library)
      (valueParts value)
  others : ∀ other, other ≠ update.key library →
    ¬ (namespaceOf (update.key library) = namespaceOf other ∧ Hidden site bus other)

/-- The condition: of a missing row only that it can be looked for. -/
def Updatable (site : Site) (now : Instant) (bus : PermutiveBus) : Prop :=
  match (bus.cell site (update.key library)).value now with
  | none => Query.parseStringValue (library.operand update.pk) = none ∨ bus.persistent.Works
  | some value => update.Orderly library site now bus value

end RowUpdate

section Updating

variable {library : SqlLibrary} {update : RowUpdate} {site : Site} {clock : Nat → Instant}
  {disk : Disk} {ticks : Nat} {bus : PermutiveBus} {requestId : Nat}

private theorem statement_eq (library : SqlLibrary) (update : RowUpdate) :
    library.statement update.statement = (update.row library).update := by
  unfold RowUpdate.statement SqlLibrary.statement RowLiteral.update RowUpdate.row
  simp only [List.map_cons]
  rfl

private theorem newValue_eq (library : SqlLibrary) (update : RowUpdate) :
    (update.row library).newValue library.parser =
      Separated.joined newline ((update.assigned library).map Prod.snd) := by
  unfold RowLiteral.newValue RowUpdate.assigned RowUpdate.row
  rw [List.map_map, List.map_cons, List.map_cons, List.map_map]
  rfl

private theorem newValue_parts (library : SqlLibrary) (update : RowUpdate) :
    valueParts ((update.row library).newValue library.parser) =
      assignedParts (update.assigned library) := by
  rw [newValue_eq]
  exact valueParts_joined (List.cons_ne_nil _ _)

private theorem update_missing {row : RowLiteral} {parser : SqlParser} (monotone : Monotone clock)
    (attached : bus.persistent.Attached) (works : bus.persistent.Works)
    (named : parser.toLowercase row.column = asBytes "key")
    {text : Bytes} (literal : Query.parseStringValue row.pk = some text)
    (missing : (bus.cell site (row.key parser)).value (clock ticks) = none) :
    ∃ later after, Done parser site clock requestId row.update ticks bus later after ∧
      ∀ other, KeepsShowing site (clock later) bus after other := by
  rcases @run_readValue_leaves site clock ticks bus (row.key parser) monotone attached
    (Or.inl works) with ⟨reply, later, after, read, leaves⟩
  have shown : reply = none := by
    rw [← missing]
    apply read_shows attached
    change (run (bothTiers site) clock (PermutiveBus.readValue (row.key parser)) ticks
      bus).result = _
    rw [read]
  refine ⟨later, after, ?_, fun other now ordered => leaves.2 other now ordered⟩
  have translated : onTiers (Query.runStatement parser requestId row.update) =
      (PermutiveBus.readValue (row.key parser)).bind (fun found =>
        onTiers ((performAll (row.updateCalls parser found)).bind
          (fun _ => .done [createOk requestId]))) := by
    rw [update_eq named literal]
    rfl
  unfold Done execute
  rw [translated, run_bind, read, shown]
  rfl

private theorem update_answerable {row : RowLiteral} {parser : SqlParser}
    (attached : bus.persistent.Attached) (named : parser.toLowercase row.column = asBytes "key")
    {text : Bytes} (literal : Query.parseStringValue row.pk = some text)
    {responses : List Response} {later : Nat} {after : PermutiveBus}
    (ran : execute parser site clock requestId row.update ticks bus =
      ⟨some responses, later, after⟩) :
    bus.Reads (clock ticks) (row.key parser) ∧
      (Shown site (clock ticks) bus (row.key parser) →
        bus.persistent.Stores site (row.key parser)) := by
  have answerable : UpdateAnswerable parser site (clock ticks) bus (.table row.tableName)
      (row.assigned :: row.assignments) (some row.condition) := by
    by_contra impossible
    have stuck := (@parseUpdate_ends site clock bus.persistent ticks bus (.refl attached) parser
      requestId (.table row.tableName) (row.assigned :: row.assignments)
      (some row.condition)).panics impossible
    have result := congrArg Outcome.result ran
    cases stuck.symm.trans result
  unfold UpdateAnswerable Query.parseSingleTableName at answerable
  rw [RowLiteral.where_literal named literal] at answerable
  have key := @RowLiteral.key_literal parser row text literal
  simp only at answerable
  rw [key] at answerable
  exact ⟨answerable.1, fun shown => answerable.2 shown (List.cons_ne_nil _ _)⟩

private theorem works_of_missing {key : Bytes} (reads : bus.Reads (clock ticks) key)
    (missing : (bus.cell site key).value (clock ticks) = none) : bus.persistent.Works := by
  rcases reads with works | copied
  · exact works
  · obtain ⟨entry, held⟩ := Option.isSome_iff_exists.mp copied
    have copy : remains (clock ticks) (bus.cell site key).copy = some entry := held
    unfold Cell.value at missing
    rw [copy] at missing
    cases missing

private theorem malformed_not_ok (requestId : Nat) (message : String) :
    Query.malformed requestId message ≠ [createOk requestId] := by
  intro same
  have opcodes : errorMalformedOpcode = okOpcode :=
    congrArg Response.opcode (List.cons.inj same).1
  exact absurd opcodes (by decide)

theorem RowUpdate.Orderly.updates (monotone : Monotone clock)
    (attached : bus.persistent.Attached)
    (named : library.parser.toLowercase update.column = asBytes "key") {value : Bytes}
    (shown : (bus.cell site (update.key library)).value (clock ticks) = some value)
    (orderly : update.Orderly library site (clock ticks) bus value) (requestId : Nat) :
    update.UpdatesAssigned library site clock requestId ticks bus := by
  rcases orderly.literal with ⟨text, literal⟩
  rcases @update_effect library.parser (update.row library) site clock ticks bus requestId
    monotone attached orderly.stores named text literal value shown with
    ⟨later, after, updated, kept, holds, others⟩
  refine ⟨[createOk requestId], later, after, ?_, ?_, ?_⟩
  · rw [statement_eq]
    exact updated
  · intro other different
    exact (others other different).mpr (orderly.others other different)
  · rw [shown]
    refine ⟨rfl, _, holds, ?_⟩
    rw [newValue_parts]
    exact onlyAssigned_iff.mpr ⟨orderly.assignable, orderly.inOrder⟩

theorem RowUpdate.UpdatesAssigned.orderly (monotone : Monotone clock)
    (attached : bus.persistent.Attached)
    (named : library.parser.toLowercase update.column = asBytes "key") {value : Bytes}
    (shown : (bus.cell site (update.key library)).value (clock ticks) = some value)
    (updates : update.UpdatesAssigned library site clock requestId ticks bus) :
    update.Orderly library site (clock ticks) bus value := by
  obtain ⟨responses, later, after, ran, keeps, row⟩ := updates
  rw [shown] at row
  obtain ⟨rfl, replaced, holds, only⟩ := row
  rw [statement_eq] at ran
  cases literal : Query.parseStringValue (library.operand update.pk) with
  | none =>
      have refused := ran.symm.trans (update_other literal)
      exact absurd (Option.some.inj (congrArg Outcome.result refused)).symm
        (malformed_not_ok requestId _)
  | some text =>
      have stores := (update_answerable attached named literal ran).2
        (congrArg Option.isSome shown)
      rcases @update_effect library.parser (update.row library) site clock ticks bus requestId
        monotone attached stores named text literal value shown with
        ⟨ended, final, updated, -, written, others⟩
      have same := ran.symm.trans updated
      simp only [Outcome.mk.injEq, true_and] at same
      obtain ⟨rfl, rfl⟩ := same
      have value := Option.some.inj (holds.symm.trans written)
      rw [value, newValue_parts] at only
      obtain ⟨assignable, inOrder⟩ := onlyAssigned_iff.mp only
      exact {
        literal := ⟨text, literal⟩
        stores := stores
        assignable := assignable
        inOrder := inOrder
        others := fun other different => (others other different).mp (keeps other different) }

/-- `UPDATE` changes the assigned columns alone exactly if the assigned values, in the order of
the statement, are what the columns of the row are to hold; without a row it changes nothing. -/
theorem update_changes_assigned_iff (monotone : Monotone clock)
    (reachable : Reachable site clock disk ticks bus)
    (named : library.parser.toLowercase update.column = asBytes "key") (requestId : Nat) :
    update.UpdatesAssigned library site clock requestId ticks bus ↔
      update.Updatable library site (clock ticks) bus := by
  have attached := reachable.attached
  unfold RowUpdate.Updatable
  cases shown : (bus.cell site (update.key library)).value (clock ticks) with
  | some value =>
      exact ⟨RowUpdate.UpdatesAssigned.orderly monotone attached named shown,
        fun orderly => orderly.updates monotone attached named shown requestId⟩
  | none =>
      unfold RowUpdate.UpdatesAssigned
      rw [shown, statement_eq]
      cases literal : Query.parseStringValue (library.operand update.pk) with
      | none =>
          refine ⟨fun _ => Or.inl rfl, fun _ => ?_⟩
          exact ⟨_, ticks, bus, update_other literal, fun _ _ _ _ => rfl, fun _ _ => rfl⟩
      | some text =>
          constructor
          · rintro ⟨responses, later, after, ran, -⟩
            exact Or.inr (works_of_missing (update_answerable attached named literal ran).1 shown)
          · rintro (impossible | works)
            · cases impossible
            · rcases @update_missing site clock ticks bus requestId (update.row library)
                library.parser monotone attached works named text literal shown with
                ⟨later, after, updated, leaves⟩
              exact ⟨_, later, after, updated, fun other _ => leaves other, leaves _⟩

end Updating

/-! ### A row of two columns -/

def schemaRun : Outcome PermutiveBus Unit :=
  run (bothTiers openSite) stillClock (PermutiveBus.call (.writeValue (asBytes "_schema:t")
    (asBytes "col0:INT:pk\ncol1:TEXT\ncol2:TEXT\n"))) 0 emptyBus

def rowRun : Outcome PermutiveBus Unit :=
  run (bothTiers openSite) stillClock (PermutiveBus.call (.writeValue (asBytes "t:1")
    (asBytes "a\nb"))) schemaRun.ticks schemaRun.state

private theorem rowRun_reachable : Reachable openSite stillClock ∅ rowRun.ticks rowRun.state :=
  .called _ _ _ (.called _ _ _ emptyBus_reachable)

def plainLibrary : SqlLibrary where
  parseSql := fun _ => none
  display := fun _ => []
  toLowercase := id

/-- `UPDATE t SET … WHERE key = '1'` -/
def updateRow (first : Ast.Assignment) (rest : List Ast.Assignment) : RowUpdate where
  tableName := asBytes "t"
  column := asBytes "key"
  pk := .value (.singleQuotedString (asBytes "1"))
  first := first
  rest := rest

/-- `col1 = 'x'` and so on. -/
def assignText (column text : String) : Ast.Assignment where
  target := asBytes column
  value := .value (.singleQuotedString (asBytes text))

private theorem rowRun_columns (first : Ast.Assignment) (rest : List Ast.Assignment) :
    (updateRow first rest).columns plainLibrary openSite (stillClock rowRun.ticks) rowRun.state =
      [⟨asBytes "col0", true⟩, ⟨asBytes "col1", false⟩, ⟨asBytes "col2", false⟩] := by
  unfold RowUpdate.columns
  have schema : ((updateRow first rest).row plainLibrary).schema = asBytes "_schema:t" := by
    change Query.schemaKey (Query.plainName (asBytes "t")) = _
    decide +kernel
  rw [schema]
  decide +kernel

private theorem rowRun_shown (first : Ast.Assignment) (rest : List Ast.Assignment) :
    (updateRow first rest).key plainLibrary = asBytes "t:1" ∧
      (rowRun.state.cell openSite ((updateRow first rest).key plainLibrary)).value
        (stillClock rowRun.ticks) = some (asBytes "a\nb") := by
  have key : (updateRow first rest).key plainLibrary = asBytes "t:1" := by
    change Query.fullKey (Query.plainName (asBytes "t")) (asBytes "1") = _
    decide +kernel
  rw [key]
  exact ⟨rfl, by decide +kernel⟩

/-- Both columns are assigned, in their order. -/
theorem row_is_updated_in_order :
    (updateRow (assignText "col1" "x") [assignText "col2" "y"]).NamesColumns plainLibrary openSite
        (stillClock rowRun.ticks) rowRun.state ∧
      (updateRow (assignText "col1" "x") [assignText "col2" "y"]).UpdatesAssigned plainLibrary
        openSite stillClock 1 rowRun.ticks rowRun.state := by
  refine ⟨?_, (update_changes_assigned_iff stillClock_monotone rowRun_reachable rfl 1).mpr ?_⟩
  · unfold RowUpdate.NamesColumns
    rw [rowRun_columns]
    decide +kernel
  obtain ⟨key, shown⟩ := rowRun_shown (assignText "col1" "x") [assignText "col2" "y"]
  unfold RowUpdate.Updatable
  rw [shown]
  exact {
    literal := ⟨_, rfl⟩
    stores := by
      rw [key]
      exact ⟨(by decide +kernel : rowRun.state.persistent.poisoned = false), by decide +kernel⟩
    assignable := by
      rw [rowRun_columns]
      refine ⟨?_, by decide +kernel, by decide +kernel⟩
      intro pair _ index place
      obtain ⟨inside, -⟩ := List.getElem?_eq_some_iff.mp place
      have names : (lineNames [⟨asBytes "col0", true⟩, ⟨asBytes "col1", false⟩,
          ⟨asBytes "col2", false⟩]).length = (valueParts (asBytes "a\nb")).length := by
        decide +kernel
      omega
    inOrder := by
      rw [rowRun_columns]
      decide +kernel
    others := by
      rintro other - ⟨space, different, -⟩
      have stored : rowRun.state.persistent.row (asBytes "t:1") = some (asBytes "a\nb") := by
        decide +kernel
      have isOpen := isOpen_of_row stored
      rw [← key, space] at isOpen
      exact different (row_of_isOpen openSite isOpen) }

/-- Of two columns one is assigned, and the other is lost. -/
theorem unassigned_column_is_lost :
    (updateRow (assignText "col2" "y") []).NamesColumns plainLibrary openSite
        (stillClock rowRun.ticks) rowRun.state ∧
      ¬ (updateRow (assignText "col2" "y") []).UpdatesAssigned plainLibrary openSite stillClock 1
        rowRun.ticks rowRun.state := by
  refine ⟨?_, fun updates => ?_⟩
  · unfold RowUpdate.NamesColumns
    rw [rowRun_columns]
    decide +kernel
  have orderly := updates.orderly stillClock_monotone rowRun_reachable.attached rfl
    (rowRun_shown (assignText "col2" "y") []).2
  have widths := congrArg List.length orderly.inOrder
  rw [rowRun_columns] at widths
  exact absurd widths (by decide +kernel)

end TricPlus
