import TricPlus.ForeignKeys
import TricPlus.RowColumns
import TricPlus.Lib.Reordering

/-!
INSERT with a list of columns.

Neither the import nor the query interface reads the list: the values are taken in the order of
the table, or the first for the key.  So a list is honoured if it is one of the table's columns
and each column finds at its place the text that the list gives to it.
-/

namespace TricPlus

open AtomicProgram
open Answers
open Separated
open Reordering

namespace Import

open SqlDump Analyser

/-- An INSERT of rows that names columns, which the import does not read. -/
structure ListedInsert extends Insert where
  rows : List (List Expr)
  valued : source = some (.values rows)
  listed : columns ≠ []

namespace ListedInsert

def statement (insert : ListedInsert) : Statement := .insert insert.toInsert

def unlisted (insert : ListedInsert) (rows : List (List Expr)) : Statement :=
  .insert ⟨insert.tableName, [], some (.values rows)⟩

def withRows (insert : ListedInsert) (rows : List (List Expr)) : ListedInsert where
  tableName := insert.tableName
  columns := insert.columns
  source := some (.values rows)
  rows := rows
  valued := rfl
  listed := insert.listed

end ListedInsert

def columnNames (table : TablePlan) : List Text := table.columns.map ColumnPlan.name

/-- With a list of all columns the import does what it does without a list and with the rows in
the order of the table; with any other list each row is an error and nothing is stored of them. -/
structure HonoursList (plan : StoragePlan) (insert : ListedInsert) (table : TablePlan) : Prop where
  permuted : insert.columns.Perm (columnNames table) → ∀ ordered,
    List.Forall₂ (InOrder insert.columns (columnNames table)) insert.rows ordered →
    parseImport [insert.statement] plan = parseImport [insert.unlisted ordered] plan
  refused : ¬ insert.columns.Perm (columnNames table) →
    parseImport [insert.statement] plan =
      writing (plan.tables.map Entry.schema) ⟨plan.tables.length, 0, 0, insert.rows.length⟩

/-- The list is honoured for the table of the plan that the INSERT finds. -/
def HonoursLists (plan : StoragePlan) (insert : ListedInsert) : Prop :=
  ∀ table, findTable plan insert.toInsert = some table → HonoursList plan insert table

/-! ### When lists are honoured -/

/-- If the table has a key: the list is one of all its columns, and each row that is as wide as
the table has its texts at the places of their columns. -/
def Placed (insert : ListedInsert) (table : TablePlan) : Prop :=
  Keyed table → ∀ values ∈ insert.rows, values.length = table.columns.length →
    insert.columns.Perm (columnNames table) ∧
      PlacedAsListed parseValue insert.columns (columnNames table) values

def PlacedThere (plan : StoragePlan) (insert : ListedInsert) : Prop :=
  ∀ table, findTable plan insert.toInsert = some table → Placed insert table

/-- The list is in the order of the table, if that has a key. -/
def OrderedThere (plan : StoragePlan) (insert : ListedInsert) : Prop :=
  ∀ table, findTable plan insert.toInsert = some table → Keyed table →
    insert.columns = columnNames table

structure Tidy (table : TablePlan) : Prop where
  once : (columnNames table).Nodup
  marked : ∀ column ∈ table.columns, column.isPrimaryKey = true ↔ column.name ∈ table.primaryKey

def TidyThere (plan : StoragePlan) (insert : ListedInsert) : Prop :=
  ∀ table, findTable plan insert.toInsert = some table → Tidy table

/-- No text of the rows holds a colon or a newline. -/
def Legible (rows : List (List Expr)) : Prop :=
  ∀ values ∈ rows, ∀ value ∈ values, ':' ∉ parseValue value ∧ '\n' ∉ parseValue value

def valueTexts (table : TablePlan) (values : List Expr) : List Text :=
  ((table.columns.zip values).filter (fun pair => !pair.1.isPrimaryKey)).map
    (fun pair => parseValue pair.2)

/-- Two rows are written alike: the same pieces in the key and in the lines, and the same for each
foreign key. -/
structure SamePlaces (table : TablePlan) (values ordered : List Expr) : Prop where
  key : pieces ':' (keyParts table values) = pieces ':' (keyParts table ordered)
  lines : pieces '\n' (valueTexts table values) = pieces '\n' (valueTexts table ordered)
  foreign : ∀ fk ∈ table.foreignKeys,
    columnText table values fk.column = columnText table ordered fk.column

structure Agrees (insert : ListedInsert) (table : TablePlan) : Prop where
  permuted : insert.columns.Perm (columnNames table) → ∀ values ∈ insert.rows, ∀ ordered,
    InOrder insert.columns (columnNames table) values ordered →
      (ImportedRow.mk table values).Stored → SamePlaces table values ordered
  refused : ¬ insert.columns.Perm (columnNames table) →
    ∀ values ∈ insert.rows, ¬ (ImportedRow.mk table values).Stored

section Rows

variable {table : TablePlan} {values ordered : List Expr}

def rowCalls (table : TablePlan) (values : List Expr) : List DataBusCall :=
  (rowEntries ⟨table, values⟩).map Entry.call

private theorem columnText_isSome_eq (same : values.length = ordered.length) (name : Text) :
    (columnText table values name).isSome = (columnText table ordered name).isSome := by
  unfold columnText
  cases table.columns.findIdx? (fun column => column.name = name) with
  | none => rfl
  | some index =>
      simp only [Option.bind_eq_bind, Option.bind_some]
      by_cases inside : index < values.length
      · rw [List.getElem?_eq_getElem inside, List.getElem?_eq_getElem (same ▸ inside)]
        rfl
      · rw [List.getElem?_eq_none (Nat.not_lt.mp inside),
          List.getElem?_eq_none (same ▸ Nat.not_lt.mp inside)]

private theorem length_keyParts (same : values.length = ordered.length) :
    (keyParts table values).length = (keyParts table ordered).length :=
  length_filterMap_eq (fun name _ => columnText_isSome_eq same name)

private theorem stored_iff (same : values.length = ordered.length) :
    (ImportedRow.mk table values).Stored ↔ (ImportedRow.mk table ordered).Stored := by
  have keys := @length_keyParts table _ _ same
  unfold ImportedRow.Stored
  rw [same, ← List.length_pos_iff, ← List.length_pos_iff, keys]

private theorem length_rowCalls (same : values.length = ordered.length) :
    (rowCalls table values).length = (rowCalls table ordered).length := by
  unfold rowCalls rowEntries
  rw [List.length_map, List.length_map]
  by_cases stored : (ImportedRow.mk table values).Stored
  · rw [if_pos stored, if_pos ((stored_iff same).mp stored), List.length_cons, List.length_cons]
    unfold relEntries
    rw [length_filterMap_eq]
    intro fk member
    rw [Option.isSome_map, Option.isSome_map]
    exact columnText_isSome_eq same fk.column
  · rw [if_neg stored, if_neg (mt (stored_iff same).mpr stored)]

private theorem length_valueTexts (full : values.length = table.columns.length) :
    (valueTexts table values).length =
      (table.columns.filter (fun column => !column.isPrimaryKey)).length := by
  have whole := List.map_fst_zip (Nat.le_of_eq full.symm)
  unfold valueTexts
  rw [List.length_map]
  conv => rhs; rw [← whole]
  rw [List.filter_map, List.length_map]
  rfl

private theorem relCalls_iff (same : values.length = ordered.length)
    (key : join ':' (keyParts table values) = join ':' (keyParts table ordered)) :
    (relEntries ⟨table, values⟩ table.foreignKeys).map Entry.call =
        (relEntries ⟨table, ordered⟩ table.foreignKeys).map Entry.call ↔
      ∀ fk ∈ table.foreignKeys,
        columnText table values fk.column = columnText table ordered fk.column := by
  unfold relEntries
  rw [List.map_filterMap, List.map_filterMap, filterMap_eq_iff]
  · apply forall₂_congr
    intro fk member
    have present := @columnText_isSome_eq table _ _ same fk.column
    cases first : columnText table values fk.column with
    | none =>
        cases second : columnText table ordered fk.column with
        | none => exact iff_of_true rfl rfl
        | some other =>
            rw [first, second] at present
            cases present
    | some fkValue =>
        cases second : columnText table ordered fk.column with
        | none =>
            rw [first, second] at present
            cases present
        | some other =>
            change some (DataBusCall.writeValue
              (relKey fk fkValue table (keyParts table values)).asBytes []) =
              some (DataBusCall.writeValue
                (relKey fk other table (keyParts table ordered)).asBytes []) ↔ _
            have cancel : relKey fk fkValue table (keyParts table values) =
                relKey fk other table (keyParts table ordered) ↔ fkValue = other := by
              unfold relKey
              rw [key]
              simp only [List.append_assoc, List.append_cancel_left_eq, List.append_cancel_right_eq]
            rw [Option.some_inj, Option.some_inj, DataBusCall.writeValue.injEq, ← cancel]
            exact ⟨fun same => asBytes_injective same.1, fun same => ⟨congrArg Text.asBytes same, rfl⟩⟩
  · intro fk member
    rw [Option.isSome_map, Option.isSome_map, Option.isSome_map, Option.isSome_map]
    exact columnText_isSome_eq same fk.column

theorem rowCalls_iff (same : values.length = ordered.length) :
    rowCalls table values = rowCalls table ordered ↔
      ((ImportedRow.mk table values).Stored → SamePlaces table values ordered) := by
  unfold rowCalls rowEntries
  by_cases stored : (ImportedRow.mk table values).Stored
  · have other := (stored_iff same).mp stored
    have keys := @joined_iff_of_length _ _ ':' _ _ (@length_keyParts table _ _ same)
    have lines := @joined_iff_of_length _ _ '\n' _ _
      ((length_valueTexts stored.1).trans (length_valueTexts other.1).symm)
    rw [if_pos stored, if_pos other, List.map_cons, List.map_cons, List.cons.injEq]
    change (DataBusCall.writeValue (rowKey table (keyParts table values)).asBytes
        (rowValue table values).asBytes =
      DataBusCall.writeValue (rowKey table (keyParts table ordered)).asBytes
        (rowValue table ordered).asBytes ∧ _) ↔ _
    rw [DataBusCall.writeValue.injEq]
    constructor
    · rintro ⟨⟨key, value⟩, rels⟩ -
      have joined : join ':' (keyParts table values) = join ':' (keyParts table ordered) :=
        List.append_cancel_left (asBytes_injective key)
      exact ⟨keys.mp joined, lines.mp (asBytes_injective value), (relCalls_iff same joined).mp rels⟩
    · intro places
      obtain ⟨key, value, foreign⟩ := places stored
      have joined : join ':' (keyParts table values) = join ':' (keyParts table ordered) :=
        keys.mpr key
      refine ⟨⟨?_, congrArg Text.asBytes (lines.mpr value)⟩, (relCalls_iff same joined).mpr foreign⟩
      unfold rowKey
      rw [joined]
  · rw [if_neg stored, if_neg (mt (stored_iff same).mpr stored)]
    exact iff_of_true rfl (fun wrong => absurd wrong stored)

private theorem counted_eq {rows others : List (List Expr)} (result : ImportResult)
    (same : List.Forall₂ (fun values ordered => values.length = ordered.length) rows others) :
    counted result (rows.map (ImportedRow.mk table)) =
      counted result (others.map (ImportedRow.mk table)) := by
  induction same generalizing result with
  | nil => rfl
  | @cons values ordered rows others here _ ih =>
      rw [List.map_cons, List.map_cons]
      by_cases stored : (ImportedRow.mk table values).Stored
      · have other := (stored_iff here).mp stored
        have lengths := @length_rowCalls table _ _ here
        unfold rowCalls rowEntries at lengths
        rw [if_pos stored, if_pos other, List.length_map, List.length_map, List.length_cons,
          List.length_cons] at lengths
        rw [counted_cons_stored stored, counted_cons_stored other, Nat.succ.inj lengths]
        exact ih _
      · rw [counted_cons_refused stored, counted_cons_refused (mt (stored_iff here).mpr stored)]
        exact ih _

private theorem counted_refused {rows : List (List Expr)} {result : ImportResult}
    (none : ∀ values ∈ rows, ¬ (ImportedRow.mk table values).Stored) :
    counted result (rows.map (ImportedRow.mk table)) =
      { result with errors := result.errors + rows.length } := by
  induction rows generalizing result with
  | nil => rfl
  | cons values rows ih =>
      obtain ⟨here, rest⟩ := List.forall_mem_cons.mp none
      rw [List.map_cons, counted_cons_refused here, ih rest, List.length_cons, Nat.add_assoc,
        Nat.add_comm 1]

end Rows

section Places

variable {table : TablePlan} {names : List Text} {values ordered : List Expr}

private theorem valueTexts_eq : valueTexts table values =
    ((table.columns.zip (values.map parseValue)).filter
      (fun pair => !pair.1.isPrimaryKey)).map Prod.snd := by
  unfold valueTexts
  rw [List.zip_map_right, List.filter_map, List.map_map]
  rfl

private theorem samePlaces_of_texts (texts : values.map parseValue = ordered.map parseValue) :
    SamePlaces table values ordered := by
  have column : ∀ name, columnText table values name = columnText table ordered name := by
    intro name
    rw [columnText_eq, columnText_eq]
    congr 1
    funext index
    rw [← List.getElem?_map, ← List.getElem?_map, texts]
  have key : keyParts table values = keyParts table ordered := by
    unfold keyParts
    congr 1
    funext name
    exact column name
  exact ⟨congrArg (pieces ':') key, by rw [valueTexts_eq, valueTexts_eq, texts],
    fun fk _ => column fk.column⟩

theorem Tidy.index (tidy : Tidy table) {index : Nat} (inside : index < table.columns.length) :
    exactIndex table table.columns[index].name = some index := by
  unfold exactIndex
  rw [List.findIdx?_eq_some_iff_getElem]
  refine ⟨inside, decide_eq_true rfl, ?_⟩
  intro before earlier
  rw [decide_eq_true_eq]
  intro same
  have first : before < (columnNames table).length := by
    unfold columnNames
    rw [List.length_map]
    exact Nat.lt_trans earlier inside
  have names : (columnNames table)[before]? = (columnNames table)[index]? := by
    unfold columnNames
    rw [List.getElem?_map, List.getElem?_map, List.getElem?_eq_getElem inside,
      List.getElem?_eq_getElem (Nat.lt_trans earlier inside)]
    exact congrArg some same
  exact absurd ((List.getElem?_inj first tidy.once).mp names) (Nat.ne_of_lt earlier)

def LegibleRow (values : List Expr) : Prop :=
  ∀ value ∈ values, ':' ∉ parseValue value ∧ '\n' ∉ parseValue value

theorem LegibleRow.keyParts (legible : LegibleRow values) :
    pieces ':' (keyParts table values) = keyParts table values := by
  apply pieces_plain
  intro part member
  obtain ⟨name, _, found⟩ := List.mem_filterMap.mp member
  rw [columnText_eq] at found
  obtain ⟨index, _, read⟩ := Option.bind_eq_some_iff.mp found
  obtain ⟨value, there, rfl⟩ := Option.map_eq_some_iff.mp read
  exact (legible value (List.mem_of_getElem? there)).1

private theorem LegibleRow.valueTexts (legible : LegibleRow values) :
    pieces '\n' (valueTexts table values) = valueTexts table values := by
  apply pieces_plain
  intro part member
  obtain ⟨⟨column, value⟩, kept, rfl⟩ := List.mem_map.mp member
  exact (legible value (List.of_mem_zip (List.mem_filter.mp kept).1).2).2

private theorem texts_of_samePlaces (tidy : Tidy table)
    (full : values.length = table.columns.length)
    (otherFull : ordered.length = table.columns.length) (legible : LegibleRow values)
    (otherLegible : LegibleRow ordered) (same : SamePlaces table values ordered) :
    values.map parseValue = ordered.map parseValue := by
  have key := same.key
  rw [legible.keyParts, otherLegible.keyParts, keyParts_full full, keyParts_full otherFull,
    List.map_inj_left] at key
  have lines := same.lines
  rw [legible.valueTexts, otherLegible.valueTexts, valueTexts_eq, valueTexts_eq] at lines
  have wide := (@List.length_map _ _ values parseValue).trans full
  have otherWide := (@List.length_map _ _ ordered parseValue).trans otherFull
  have others := @getElem?_of_kind _ ColumnPlan (fun column => !column.isPrimaryKey) _ _ _
    wide otherWide lines
  apply List.ext_getElem?
  intro index
  by_cases inside : index < table.columns.length
  · have column := List.getElem?_eq_getElem inside
    by_cases primary : table.columns[index].isPrimaryKey = true
    · have named := (tidy.marked _ (List.getElem_mem inside)).mp primary
      have member : index ∈ keyIndices table :=
        List.mem_filterMap.mpr ⟨_, named, tidy.index inside⟩
      have texts := key index member
      unfold rowText at texts
      rw [List.getElem?_eq_getElem (by omega), List.getElem?_eq_getElem (by omega)] at texts
      rw [List.getElem?_map, List.getElem?_map, List.getElem?_eq_getElem (by omega),
        List.getElem?_eq_getElem (by omega)]
      exact congrArg some texts
    · refine others index _ column ?_
      rw [Bool.not_eq_true _ |>.mp primary]
      rfl
  · rw [List.getElem?_eq_none (by omega), List.getElem?_eq_none (by omega)]

end Places

section Imported

variable {plan : StoragePlan} {insert : ListedInsert} {table : TablePlan}

private theorem parseImport_insert {found : Insert} (finds : findTable plan found = some table)
    {rows : List (List Expr)} (valued : found.source = some (.values rows)) :
    parseImport [.insert found] plan =
      (performAll (plan.tables.map (fun table => Entry.call (.schema table)) ++
        rows.flatMap (rowCalls table))).bind
        (fun _ => .done (counted ⟨plan.tables.length, 0, 0, 0⟩
          (rows.map (ImportedRow.mk table)))) := by
  have imported : importedRows plan [.insert found] = rows.map (ImportedRow.mk table) := by
    unfold importedRows
    rw [List.flatMap_singleton]
    unfold foundRows insertedRows
    simp only [finds, valued]
  rw [parseImport_eq]
  unfold writing importEntries importResult
  rw [imported, List.map_append, List.map_map, List.map_flatMap, List.flatMap_map]
  rfl

/-- The import honours a list exactly if the rows that are stored are written as in the order of
the table. -/
theorem honoursList_iff (found : findTable plan insert.toInsert = some table) :
    HonoursList plan insert table ↔ Agrees insert table := by
  have here := @parseImport_insert plan table insert.toInsert found insert.rows insert.valued
  have permuted : insert.columns.Perm (columnNames table) → ∀ ordered,
      List.Forall₂ (InOrder insert.columns (columnNames table)) insert.rows ordered →
      (parseImport [insert.statement] plan = parseImport [insert.unlisted ordered] plan ↔
        List.Forall₂ (fun values ordered => (ImportedRow.mk table values).Stored →
          SamePlaces table values ordered) insert.rows ordered) := by
    intro perm ordered inOrder
    have lengths := inOrder.imp (fun _ _ here => length_inOrder perm here)
    have calls := @flatMap_eq_iff_forall₂ _ _ insert.rows (rowCalls table) _ ordered
      (fun _ _ here => length_rowCalls here) lengths
    have there := @parseImport_insert plan table ⟨insert.tableName, [], some (.values ordered)⟩
      found ordered rfl
    unfold ListedInsert.statement ListedInsert.unlisted
    rw [here, there, counted_eq _ lengths]
    have rowwise : List.Forall₂ (fun values ordered => rowCalls table values =
          rowCalls table ordered) insert.rows ordered ↔
        List.Forall₂ (fun values ordered => (ImportedRow.mk table values).Stored →
          SamePlaces table values ordered) insert.rows ordered :=
      forall₂_iff (fun _ _ here => rowCalls_iff here) lengths
    rw [← rowwise, ← calls]
    constructor
    · exact fun same => List.append_cancel_left (performAll_injective same).1
    · exact fun same => by rw [same]
  have refused : parseImport [insert.statement] plan =
        writing (plan.tables.map Entry.schema) ⟨plan.tables.length, 0, 0, insert.rows.length⟩ ↔
      ∀ values ∈ insert.rows, ¬ (ImportedRow.mk table values).Stored := by
    unfold ListedInsert.statement
    rw [here]
    unfold writing
    rw [List.map_map]
    constructor
    · intro same values member stored
      have counts := congrArg ImportResult.rows (performAll_injective same).2
      have kept : ImportedRow.mk table values ∈
          (insert.rows.map (ImportedRow.mk table)).filter (fun row => row.Stored) :=
        List.mem_filter.mpr ⟨List.mem_map_of_mem member, decide_eq_true stored⟩
      have some := List.length_pos_of_mem kept
      unfold counted at counts
      simp only [Nat.zero_add] at counts
      omega
    · intro none
      have written : insert.rows.flatMap (rowCalls table) = [] := by
        rw [List.flatMap_eq_nil_iff]
        intro values member
        unfold rowCalls rowEntries
        rw [if_neg (none values member)]
        rfl
      rw [written, List.append_nil, counted_refused none]
      simp only [Nat.zero_add]
      rfl
  constructor
  · rintro ⟨honoured, error⟩
    refine ⟨?_, fun other => refused.mp (error other)⟩
    intro perm
    exact forall₂_each (exists_inOrder perm)
      (fun ordered inOrder => (permuted perm ordered inOrder).mp (honoured perm ordered inOrder))
  · rintro ⟨agreed, none⟩
    refine ⟨?_, fun other => refused.mpr (none other)⟩
    intro perm ordered inOrder
    refine (permuted perm ordered inOrder).mpr ?_
    exact forall₂_of_each (agreed perm) inOrder

private theorem stored_iff_keyed {values : List Expr}
    (full : values.length = table.columns.length) :
    (ImportedRow.mk table values).Stored ↔ Keyed table :=
  ⟨keyed_of_stored, fun keyed => stored_of_keyed keyed full⟩

private theorem length_of_listed (perm : insert.columns.Perm (columnNames table)) :
    insert.columns.length = table.columns.length := by
  rw [perm.length_eq]
  exact List.length_map _

theorem Placed.agrees (placed : Placed insert table) : Agrees insert table where
  permuted := by
    intro perm values member ordered inOrder stored
    obtain ⟨-, texts⟩ := placed (keyed_of_stored stored) values member stored.1
    rcases inOrder with reordered | ⟨-, rfl⟩
    · exact samePlaces_of_texts (texts.texts perm reordered)
    · exact samePlaces_of_texts rfl
  refused := by
    intro other values member stored
    exact other (placed (keyed_of_stored stored) values member stored.1).1

theorem Agrees.placed (tidy : Tidy table) (legible : Legible insert.rows)
    (agrees : Agrees insert table) : Placed insert table := by
  intro keyed values member full
  have stored := (stored_iff_keyed full).mpr keyed
  have perm : insert.columns.Perm (columnNames table) := by
    by_contra other
    exact agrees.refused other values member stored
  refine ⟨perm, ?_⟩
  have listed := full.trans (length_of_listed perm).symm
  apply placedAsListed_of_texts perm listed
  intro ordered reordered
  have wide : ordered.length = table.columns.length := reordered.wide.trans (List.length_map _)
  have otherLegible : LegibleRow ordered :=
    fun value there => legible values member value (reordered.perm.mem_iff.mpr there)
  exact texts_of_samePlaces tidy full wide (legible values member) otherLegible
    (agrees.permuted perm values member ordered (Or.inl reordered) stored)

/-! ### Rows with any texts -/

def distinctRow (table : TablePlan) : List Expr :=
  textRow table (fun index => List.replicate index 'x')

private theorem distinctRow_legible : LegibleRow (distinctRow table) := by
  intro value member
  obtain ⟨index, -, rfl⟩ := List.mem_map.mp member
  have only : ∀ character, character ∈ List.replicate index 'x' → character = 'x' :=
    fun character there => List.eq_of_mem_replicate there
  exact ⟨fun there => absurd (only _ there) (by decide),
    fun there => absurd (only _ there) (by decide)⟩

private theorem distinctRow_nodup : ((distinctRow table).map parseValue).Nodup := by
  unfold distinctRow textRow
  rw [List.map_map]
  apply List.nodup_range.map
  intro left right same
  have lengths := congrArg List.length same
  change (List.replicate left 'x').length = (List.replicate right 'x').length at lengths
  rwa [List.length_replicate, List.length_replicate] at lengths

/-- A list is honoured with any rows exactly if it is in the order of the table, or if the table
has no key. -/
theorem honoured_always_iff (found : findTable plan insert.toInsert = some table)
    (tidy : Tidy table) :
    (∀ rows, HonoursList plan (insert.withRows rows) table) ↔
      (Keyed table → insert.columns = columnNames table) := by
  constructor
  · intro honoured keyed
    have agrees := (@honoursList_iff plan (insert.withRows [distinctRow table]) table found).mp
      (honoured [distinctRow table])
    have legible : Legible [distinctRow table] := by
      intro values member
      rw [List.mem_singleton.mp member]
      exact distinctRow_legible
    have full : (distinctRow table).length = table.columns.length := length_textRow _
    obtain ⟨perm, placed⟩ := agrees.placed tidy legible keyed _ (List.mem_singleton_self _) full
    exact placed.names_eq perm (full.trans (length_of_listed perm).symm) distinctRow_nodup
  · intro inOrder rows
    apply (@honoursList_iff plan (insert.withRows rows) table found).mpr
    apply Placed.agrees
    intro keyed values _ _
    have same : (insert.withRows rows).columns = columnNames table := inOrder keyed
    rw [same]
    exact ⟨List.Perm.refl _, placedAsListed_self tidy.once values⟩

end Imported

end Import

namespace Query

/-- An INSERT with the names of its columns, which the query interface does not read either. -/
structure ListedInsert where
  tableName : Bytes
  columns : List Bytes
  rows : List (List Sql.Expr)
  listed : columns ≠ []

namespace ListedInsert

def run (insert : ListedInsert) (parser : SqlParser) (requestId : Nat)
    (rows : List (List Sql.Expr)) : BusProgram (List Response) :=
  parseInsert parser requestId insert.tableName (some (.values rows))

def withRows (insert : ListedInsert) (rows : List (List Sql.Expr)) : ListedInsert where
  tableName := insert.tableName
  columns := insert.columns
  rows := rows
  listed := insert.listed

end ListedInsert

/-- The columns that a stored schema names. -/
def schemaNames (schema : Bytes) : List Bytes :=
  (Export.parseSchemaColumns schema).map Export.SchemaColumn.name

/-- With a list of all columns of the schema the rows are inserted as in the order of the schema;
with any other list, once the schema has been read, the answer is an error and nothing is stored. -/
structure HonoursList (parser : SqlParser) (requestId : Nat) (schema : Bytes)
    (insert : ListedInsert) : Prop where
  permuted : insert.columns.Perm (schemaNames schema) → ∀ ordered,
    List.Forall₂ (InOrder insert.columns (schemaNames schema)) insert.rows ordered →
    insert.run parser requestId insert.rows = insert.run parser requestId ordered
  refused : ¬ insert.columns.Perm (schemaNames schema) →
    ∃ next, insert.run parser requestId insert.rows =
        .call (.readValue (schemaKey (plainName insert.tableName))) next ∧
      ∃ message, next (some schema) =
        .done [createError requestId errorMalformedOpcode message]

/-- The list names all columns of the schema, and each row that has a value for each name has its
texts at the places of their columns. -/
structure Placed (parser : SqlParser) (schema : Bytes) (insert : ListedInsert) : Prop where
  listed : insert.columns.Perm (schemaNames schema)
  texts : ∀ values ∈ insert.rows, values.length = insert.columns.length →
    PlacedAsListed (parseExprValue parser) insert.columns (schemaNames schema) values

/-- No text of the rows holds a newline. -/
def Legible (parser : SqlParser) (rows : List (List Sql.Expr)) : Prop :=
  ∀ values ∈ rows, ∀ value ∈ values, newline ∉ parseExprValue parser value

/-- Two rows are written alike: the same text in the first place, and the same lines behind it. -/
structure SamePlaces (parser : SqlParser) (values ordered : List Sql.Expr) : Prop where
  key : values.head?.map (parseExprValue parser) = ordered.head?.map (parseExprValue parser)
  lines : pieces newline (values.tail.map (parseExprValue parser)) =
    pieces newline (ordered.tail.map (parseExprValue parser))

structure Agrees (parser : SqlParser) (schema : Bytes) (insert : ListedInsert) : Prop where
  listed : insert.columns.Perm (schemaNames schema)
  places : ∀ values ∈ insert.rows, ∀ ordered,
    InOrder insert.columns (schemaNames schema) values ordered → SamePlaces parser values ordered

section Rows

variable {parser : SqlParser} {requestId : Nat} {tableName schema : Bytes}
  {values ordered : List Sql.Expr} {insert : ListedInsert}

def rowCalls (parser : SqlParser) (tableName : Bytes) : List Sql.Expr → List DataBusCall
  | [] => []
  | pk :: columns =>
      [.writeValue (rowKey parser tableName pk) (joinLines (columns.map (parseExprValue parser)))]

private theorem insertRows_eq (rows : List (List Sql.Expr)) :
    insertRows parser tableName rows = performAll (rows.flatMap (rowCalls parser tableName)) := by
  induction rows with
  | nil => rfl
  | cons values rows ih =>
      cases values with
      | nil => exact ih
      | cons pk columns =>
          exact congrArg (Program.bind (DataBus.writeValue _ _)) (funext fun _ => ih)

def schemaCalls (tableName : Bytes) (schemaData : Option Bytes) (rows : List (List Sql.Expr)) :
    List DataBusCall :=
  match schemaData, rows with
  | none, first :: _ => [.writeValue (schemaKey tableName) (schemaText first.length)]
  | _, _ => []

theorem parseInsert_eq (name : Bytes) (rows : List (List Sql.Expr)) :
    parseInsert parser requestId name (some (.values rows)) =
      (DataBus.readValue (schemaKey (plainName name))).bind (fun schemaData =>
        (performAll (rows.flatMap (rowCalls parser (plainName name)) ++
          schemaCalls (plainName name) schemaData rows)).bind
          (fun _ => .done [createOk requestId])) := by
  unfold parseInsert
  simp only [insertRows_eq]
  refine congrArg (Program.call _) (funext fun schemaData => ?_)
  cases schemaData with
  | some known =>
      change _ = (performAll (_ ++ [])).bind _
      rw [List.append_nil]
      rfl
  | none =>
      cases rows with
      | nil => rfl
      | cons first rows =>
          exact Import.performAll_then _ [.writeValue (schemaKey (plainName name))
            (schemaText first.length)] _

private theorem run_eq (rows : List (List Sql.Expr)) :
    insert.run parser requestId rows =
      .call (.readValue (schemaKey (plainName insert.tableName))) (fun schemaData =>
        (performAll (rows.flatMap (rowCalls parser (plainName insert.tableName)) ++
          schemaCalls (plainName insert.tableName) schemaData rows)).bind
          (fun _ => .done [createOk requestId])) :=
  parseInsert_eq insert.tableName rows

theorem rowCalls_iff (same : values.length = ordered.length) :
    rowCalls parser tableName values = rowCalls parser tableName ordered ↔
      SamePlaces parser values ordered := by
  cases values with
  | nil =>
      rw [List.eq_nil_of_length_eq_zero same.symm]
      exact iff_of_true rfl ⟨rfl, rfl⟩
  | cons pk columns =>
      cases ordered with
      | nil => cases same
      | cons other others =>
          have lines : joinLines (columns.map (parseExprValue parser)) =
                joinLines (others.map (parseExprValue parser)) ↔
              pieces newline (columns.map (parseExprValue parser)) =
                pieces newline (others.map (parseExprValue parser)) := by
            rw [joinLines_eq, joinLines_eq]
            apply joined_iff_of_length
            rw [List.length_map, List.length_map]
            exact Nat.succ.inj same
          unfold rowCalls
          rw [List.cons.injEq, DataBusCall.writeValue.injEq, lines]
          constructor
          · rintro ⟨⟨key, value⟩, -⟩
            exact ⟨congrArg some (List.append_cancel_left key), value⟩
          · rintro ⟨key, value⟩
            refine ⟨⟨?_, value⟩, rfl⟩
            unfold rowKey
            rw [Option.some_inj.mp key]

private theorem length_rowCalls (same : values.length = ordered.length) :
    (rowCalls parser tableName values).length = (rowCalls parser tableName ordered).length := by
  cases values with
  | nil =>
      rw [List.eq_nil_of_length_eq_zero same.symm]
  | cons pk columns =>
      cases ordered with
      | nil => cases same
      | cons other others => rfl

private theorem schemaCalls_eq {rows others : List (List Sql.Expr)} (schemaData : Option Bytes)
    (same : List.Forall₂ (fun values ordered => values.length = ordered.length) rows others) :
    schemaCalls tableName schemaData rows = schemaCalls tableName schemaData others := by
  cases schemaData with
  | some known => rfl
  | none =>
      cases same with
      | nil => rfl
      | cons here _ =>
          unfold schemaCalls
          simp only [here]

/-- The query interface honours a list exactly if it names all columns and the rows are written as
in the order of the schema. -/
theorem honoursList_iff : HonoursList parser requestId schema insert ↔
    Agrees parser schema insert := by
  have permuted : insert.columns.Perm (schemaNames schema) → ∀ ordered,
      List.Forall₂ (InOrder insert.columns (schemaNames schema)) insert.rows ordered →
      (insert.run parser requestId insert.rows = insert.run parser requestId ordered ↔
        List.Forall₂ (SamePlaces parser) insert.rows ordered) := by
    intro perm ordered inOrder
    have lengths := inOrder.imp (fun _ _ here => length_inOrder perm here)
    have calls := @flatMap_eq_iff_forall₂ _ _ insert.rows
      (rowCalls parser (plainName insert.tableName)) _ ordered
      (fun _ _ here => length_rowCalls here) lengths
    have rowwise := @forall₂_iff _ insert.rows _ (fun values ordered =>
        rowCalls parser (plainName insert.tableName) values =
          rowCalls parser (plainName insert.tableName) ordered)
      (SamePlaces parser) ordered (fun _ _ here => rowCalls_iff here) lengths
    rw [← rowwise, ← calls, run_eq, run_eq]
    constructor
    · intro same
      injection same with _ next
      have known := congrFun next (some [])
      exact List.append_cancel_right (performAll_injective known).1
    · intro same
      refine congrArg (Program.call _) (funext fun schemaData => ?_)
      rw [same, schemaCalls_eq schemaData lengths]
  constructor
  · rintro ⟨honoured, error⟩
    have listed : insert.columns.Perm (schemaNames schema) := by
      by_contra other
      obtain ⟨next, run, message, answered⟩ := error other
      rw [run_eq] at run
      injection run with _ same
      rw [← same] at answered
      have done : (performAll []).bind (fun _ => Program.done
          [createError requestId errorMalformedOpcode message]) =
          Program.done [createError requestId errorMalformedOpcode message] := rfl
      have answers := (performAll_injective (answered.trans done.symm)).2
      have opcodes : okOpcode = errorMalformedOpcode :=
        congrArg Response.opcode (List.cons.inj answers).1
      revert opcodes
      decide
    exact ⟨listed, forall₂_each (exists_inOrder listed) (fun ordered inOrder =>
      (permuted listed ordered inOrder).mp (honoured listed ordered inOrder))⟩
  · rintro ⟨listed, places⟩
    refine ⟨?_, fun other => absurd listed other⟩
    intro perm ordered inOrder
    exact (permuted perm ordered inOrder).mpr (forall₂_of_each places inOrder)

private theorem samePlaces_of_texts
    (texts : values.map (parseExprValue parser) = ordered.map (parseExprValue parser)) :
    SamePlaces parser values ordered where
  key := by rw [← List.head?_map, ← List.head?_map, texts]
  lines := by rw [List.map_tail, List.map_tail, texts]

private theorem texts_of_samePlaces
    (legible : ∀ value ∈ values, newline ∉ parseExprValue parser value)
    (otherLegible : ∀ value ∈ ordered, newline ∉ parseExprValue parser value)
    (same : SamePlaces parser values ordered) :
    values.map (parseExprValue parser) = ordered.map (parseExprValue parser) := by
  have plain : ∀ row : List Sql.Expr, (∀ value ∈ row, newline ∉ parseExprValue parser value) →
      pieces newline (row.tail.map (parseExprValue parser)) =
        row.tail.map (parseExprValue parser) := by
    intro row none
    apply pieces_plain
    intro text member
    obtain ⟨value, there, rfl⟩ := List.mem_map.mp member
    exact none value (List.mem_of_mem_tail there)
  obtain ⟨key, lines⟩ := same
  rw [plain values legible, plain ordered otherLegible] at lines
  cases values with
  | nil =>
      cases ordered with
      | nil => rfl
      | cons other others => cases key
  | cons first rest =>
      cases ordered with
      | nil => cases key
      | cons other others =>
          rw [List.map_cons, List.map_cons, Option.some_inj.mp key]
          exact congrArg _ lines

theorem Placed.agrees (placed : Placed parser schema insert) : Agrees parser schema insert where
  listed := placed.listed
  places := by
    intro values member ordered inOrder
    rcases inOrder with reordered | ⟨-, rfl⟩
    · have texts := placed.texts values member reordered.listed
      exact samePlaces_of_texts (texts.texts placed.listed reordered)
    · exact samePlaces_of_texts rfl

theorem Agrees.placed (legible : Legible parser insert.rows)
    (agrees : Agrees parser schema insert) : Placed parser schema insert where
  listed := agrees.listed
  texts := by
    intro values member full
    apply placedAsListed_of_texts agrees.listed full
    intro ordered reordered
    have otherLegible : ∀ value ∈ ordered, newline ∉ parseExprValue parser value :=
      fun value there => legible values member value (reordered.perm.mem_iff.mpr there)
    exact texts_of_samePlaces (legible values member) otherLegible
      (agrees.places values member ordered (Or.inl reordered))

def distinctRow (width : Nat) : List Sql.Expr :=
  (List.range width).map (fun index => .value (.number (List.replicate index colon)))

private theorem distinctRow_nodup (width : Nat) :
    ((distinctRow width).map (parseExprValue parser)).Nodup := by
  unfold distinctRow
  rw [List.map_map]
  apply List.nodup_range.map
  intro left right same
  have lengths := congrArg List.length same
  change (List.replicate left colon).length = (List.replicate right colon).length at lengths
  rwa [List.length_replicate, List.length_replicate] at lengths

private theorem distinctRow_legible (width : Nat) : Legible parser [distinctRow width] := by
  intro values only value member there
  rw [List.mem_singleton.mp only] at member
  obtain ⟨index, -, rfl⟩ := List.mem_map.mp member
  exact absurd (List.eq_of_mem_replicate there) (by decide)

private theorem honoured_always_iff (once : (schemaNames schema).Nodup) :
    (∀ rows, HonoursList parser requestId schema (insert.withRows rows)) ↔
      insert.columns = schemaNames schema := by
  constructor
  · intro honoured
    have agrees := honoursList_iff.mp (honoured [distinctRow insert.columns.length])
    have placed := agrees.placed (distinctRow_legible _)
    have full : (distinctRow insert.columns.length).length = insert.columns.length := by
      unfold distinctRow
      rw [List.length_map, List.length_range]
    exact (placed.texts _ (List.mem_singleton_self _) full).names_eq placed.listed full
      (distinctRow_nodup _)
  · intro inOrder rows
    apply honoursList_iff.mpr
    apply Placed.agrees
    have same : (insert.withRows rows).columns = schemaNames schema := inOrder
    refine ⟨by rw [same], ?_⟩
    rw [same]
    exact fun values _ _ => placedAsListed_self once values

end Rows

end Query

/-- A list of columns is honoured if each column finds at its place the text that the list gives
to it, and where no text has a separator, only then; rows under a list of other columns must be too
short or too long for the table, or the table without a key, and the query interface never honours
such a list.  Whatever the rows are, only the order of the table is honoured. -/
theorem column_lists_honoured_iff (plan : StoragePlan) (dumped : Import.ListedInsert)
    (parser : SqlParser) (requestId : Nat) (schema : Bytes) (queried : Query.ListedInsert) :
    ((Import.PlacedThere plan dumped → Import.HonoursLists plan dumped) ∧
      (Import.TidyThere plan dumped → Import.Legible dumped.rows →
        (Import.HonoursLists plan dumped ↔ Import.PlacedThere plan dumped)) ∧
      (Import.TidyThere plan dumped →
        ((∀ rows, Import.HonoursLists plan (dumped.withRows rows)) ↔
          Import.OrderedThere plan dumped))) ∧
    ((Query.Placed parser schema queried → Query.HonoursList parser requestId schema queried) ∧
      (Query.Legible parser queried.rows →
        (Query.HonoursList parser requestId schema queried ↔
          Query.Placed parser schema queried)) ∧
      ((Query.schemaNames schema).Nodup →
        ((∀ rows, Query.HonoursList parser requestId schema (queried.withRows rows)) ↔
          queried.columns = Query.schemaNames schema))) := by
  refine ⟨⟨?_, ?_, ?_⟩, ?_, ?_, Query.honoured_always_iff⟩
  · intro placed table found
    exact (Import.honoursList_iff found).mpr (placed table found).agrees
  · intro tidy legible
    apply forall₂_congr
    intro table found
    rw [Import.honoursList_iff found]
    exact ⟨fun agrees => agrees.placed (tidy table found) legible, Import.Placed.agrees⟩
  · intro tidy
    constructor
    · intro honoured table found
      exact (Import.honoured_always_iff found (tidy table found)).mp
        (fun rows => honoured rows table found)
    · intro inOrder rows table found
      exact (Import.honoured_always_iff found (tidy table found)).mpr (inOrder table found) rows
  · exact fun placed => Query.honoursList_iff.mpr placed.agrees
  · intro legible
    rw [Query.honoursList_iff]
    exact ⟨fun agrees => agrees.placed legible, Query.Placed.agrees⟩

/-! ### Lists of two columns -/

def swappedTable : TablePlan where
  name := "t".toList
  columns := [⟨"a".toList, "TEXT".toList, true⟩, ⟨"b".toList, "TEXT".toList, false⟩]
  primaryKey := ["a".toList]
  foreignKeys := []
  ttlColumn := none

def pairInsert (columns : List Text) (listed : columns ≠ []) (first second : Text) :
    Import.ListedInsert where
  tableName := "t".toList
  columns := columns
  source := some (.values [[.singleQuotedString first, .singleQuotedString second]])
  rows := [[.singleQuotedString first, .singleQuotedString second]]
  valued := rfl
  listed := listed

def swappedInsert (first second : Text) : Import.ListedInsert :=
  pairInsert ["b".toList, "a".toList] (List.cons_ne_nil _ _) first second

def orderedInsert : Import.ListedInsert :=
  pairInsert ["a".toList, "b".toList] (List.cons_ne_nil _ _) [] []

def pairSchema : Bytes := asBytes "a:TEXT:pk\nb:TEXT\n"

def pairQuery (columns : List Bytes) (listed : columns ≠ []) (first second : Bytes) :
    Query.ListedInsert where
  tableName := asBytes "t"
  columns := columns
  rows := [[.value (.singleQuotedString first), .value (.singleQuotedString second)]]
  listed := listed

def swappedQuery (first second : Bytes) : Query.ListedInsert :=
  pairQuery [asBytes "b", asBytes "a"] (List.cons_ne_nil _ _) first second

def orderedQuery : Query.ListedInsert :=
  pairQuery [asBytes "a", asBytes "b"] (List.cons_ne_nil _ _) [] []

private theorem found_swappedTable (insert : Import.ListedInsert)
    (named : insert.tableName = "t".toList) :
    Import.findTable ⟨[swappedTable]⟩ insert.toInsert = some swappedTable := by
  unfold Import.findTable
  rw [named]
  decide +kernel

private theorem swappedTable_tidy : Import.Tidy swappedTable :=
  ⟨by decide +kernel, by decide +kernel⟩

private theorem placedAsListed_pair {Name Value Text : Type} {text : Value → Text}
    {names columns : List Name} (value : Value) (pair : names.length = 2)
    (wide : columns.length = 2) : PlacedAsListed text names columns [value, value] := by
  intro listed placed name given there
  have first := (List.getElem?_eq_some_iff.mp given).1
  have second := (List.getElem?_eq_some_iff.mp there).1
  rw [pair] at first
  rw [wide] at second
  have same : ∀ index : Nat, index < 2 → [value, value][index]? = some value := by
    intro index inside
    interval_cases index <;> rfl
  rw [same listed first, same placed second]

theorem lists_are_honoured_by_texts :
    (Import.HonoursLists ⟨[swappedTable]⟩ (swappedInsert "x".toList "x".toList) ∧
      ¬ Import.HonoursLists ⟨[swappedTable]⟩ (swappedInsert "z".toList "x".toList) ∧
      ∀ rows, Import.HonoursLists ⟨[swappedTable]⟩ (orderedInsert.withRows rows)) ∧
    (Query.HonoursList plainLibrary.parser 1 pairSchema (swappedQuery [0x78] [0x78]) ∧
      ¬ Query.HonoursList plainLibrary.parser 1 pairSchema (swappedQuery [0x7A] [0x78]) ∧
      ∀ rows, Query.HonoursList plainLibrary.parser 1 pairSchema
        (orderedQuery.withRows rows)) := by
  have schema : Query.schemaNames pairSchema = [asBytes "a", asBytes "b"] := by decide +kernel
  have table : ∀ insert : Import.ListedInsert, insert.tableName = "t".toList → ∀ table,
      Import.findTable ⟨[swappedTable]⟩ insert.toInsert = some table → table = swappedTable := by
    intro insert named table found
    rw [found_swappedTable insert named] at found
    exact (Option.some_inj.mp found).symm
  have tidy : ∀ insert : Import.ListedInsert, insert.tableName = "t".toList →
      Import.TidyThere ⟨[swappedTable]⟩ insert := by
    intro insert named found finds
    rw [table insert named found finds]
    exact swappedTable_tidy
  obtain ⟨⟨imported, -, -⟩, queried, -, -⟩ := column_lists_honoured_iff ⟨[swappedTable]⟩
    (swappedInsert "x".toList "x".toList) plainLibrary.parser 1 pairSchema
    (swappedQuery [0x78] [0x78])
  obtain ⟨⟨-, exactImport, -⟩, -, exactQuery, -⟩ := column_lists_honoured_iff ⟨[swappedTable]⟩
    (swappedInsert "z".toList "x".toList) plainLibrary.parser 1 pairSchema
    (swappedQuery [0x7A] [0x78])
  obtain ⟨⟨-, -, always⟩, -, -, alwaysQuery⟩ := column_lists_honoured_iff ⟨[swappedTable]⟩
    orderedInsert plainLibrary.parser 1 pairSchema orderedQuery
  refine ⟨⟨?_, ?_, ?_⟩, ?_, ?_, ?_⟩
  · apply imported
    intro found finds _ values member _
    rw [table _ rfl found finds, List.mem_singleton.mp member]
    exact ⟨List.Perm.swap _ _ _, placedAsListed_pair _ rfl rfl⟩
  · have legible : Import.Legible (swappedInsert "z".toList "x".toList).rows := by
      intro values member value there
      rw [List.mem_singleton.mp member] at there
      rcases List.mem_cons.mp there with rfl | last
      · decide
      · rw [List.mem_singleton.mp last]
        decide
    rw [exactImport (tidy _ rfl) legible]
    intro placed
    have keyed : Import.Keyed swappedTable := ⟨"a".toList, by decide, by decide⟩
    obtain ⟨-, texts⟩ := placed swappedTable (found_swappedTable _ rfl) keyed _
      (List.mem_singleton_self _) rfl
    have same := texts 0 1 "b".toList rfl rfl
    revert same
    decide
  · apply (always (tidy _ rfl)).mpr
    intro found finds _
    rw [table _ rfl found finds]
    rfl
  · apply queried
    refine ⟨?_, ?_⟩
    · rw [schema]
      exact List.Perm.swap _ _ _
    · intro values member _
      rw [List.mem_singleton.mp member, schema]
      exact placedAsListed_pair _ rfl rfl
  · have legible : Query.Legible plainLibrary.parser (swappedQuery [0x7A] [0x78]).rows := by
      intro values member value there
      rw [List.mem_singleton.mp member] at there
      rcases List.mem_cons.mp there with rfl | last
      · decide
      · rw [List.mem_singleton.mp last]
        decide
    rw [exactQuery legible]
    intro placed
    have texts := placed.texts _ (List.mem_singleton_self _) rfl
    rw [schema] at texts
    have same := texts 0 1 (asBytes "b") rfl rfl
    revert same
    decide
  · apply (alwaysQuery (by rw [schema]; decide +kernel)).mpr
    rw [schema]
    rfl

namespace Import

theorem swapped_list_is_ignored :
    ¬ HonoursLists ⟨[swappedTable]⟩ (swappedInsert "y".toList "x".toList) := by
  intro honours
  have found : findTable ⟨[swappedTable]⟩ (swappedInsert "y".toList "x".toList).toInsert =
      some swappedTable := by
    decide +kernel
  have agrees := (honoursList_iff found).mp (honours swappedTable found)
  have perm : (swappedInsert "y".toList "x".toList).columns.Perm (columnNames swappedTable) :=
    List.Perm.swap _ _ _
  have inOrder : InOrder (swappedInsert "y".toList "x".toList).columns (columnNames swappedTable)
      [SqlDump.Expr.singleQuotedString "y".toList, SqlDump.Expr.singleQuotedString "x".toList]
      [SqlDump.Expr.singleQuotedString "x".toList, SqlDump.Expr.singleQuotedString "y".toList] :=
    Or.inl ⟨rfl, rfl, List.Perm.swap _ _ _⟩
  have places := agrees.permuted perm _ (List.mem_singleton_self _) _ inOrder (by decide +kernel)
  have key := places.key
  revert key
  decide +kernel

end Import

end TricPlus
