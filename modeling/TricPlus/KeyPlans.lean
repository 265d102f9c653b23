import TricPlus.ImportKeys
import TricPlus.Lib.Answers

/-!
Which dumps and which plans keep the keys of an import apart.

If all key columns but one hold as many colons in every row, and the values of foreign keys too,
the pieces of a key tell the texts.  If any texts may come, only a key of one column does.
-/

namespace TricPlus

open AtomicProgram
open Answers
open Separated

namespace Import

open SqlDump Analyser

/-- In all columns of the key but one, the rows of the table have as many colons. -/
def EvenKey (plan : StoragePlan) (statements : List Statement) (table : TablePlan) : Prop :=
  ∃ free, ∀ index ∈ keyIndices table, index ≠ free → ∃ colons, ∀ values,
    StoredHere plan statements ⟨table, values⟩ → (rowText values index).count ':' = colons

/-- The values that refer to this parent have as many colons. -/
def EvenReferences (plan : StoragePlan) (statements : List Statement) (parent : Text) : Prop :=
  ∃ colons, ∀ row, StoredHere plan statements row → ∀ fk ∈ row.table.foreignKeys,
    fk.referencesTable = parent → ∀ fkValue,
      columnText row.table row.values fk.column = some fkValue → fkValue.count ':' = colons

/-- Tables of one name are one; no table with rows has the name of another family; the columns of
its key are found under exactly their names; no parent's name has a colon; and the colons in the
texts are even. -/
structure Separable (plan : StoragePlan) (statements : List Statement) : Prop where
  tables : ∀ left ∈ plan.tables, ∀ right ∈ plan.tables, left.name = right.name → left = right
  names : ∀ row, StoredHere plan statements row →
    row.table.name ≠ "_schema".toList ∧ row.table.name ≠ "_rel".toList
  columns : ∀ row, StoredHere plan statements row → ∀ name ∈ row.table.primaryKey,
    foldedIndex row.table name = exactIndex row.table name
  keys : ∀ row, StoredHere plan statements row → EvenKey plan statements row.table
  parents : ∀ row, StoredHere plan statements row → ∀ fk ∈ row.table.foreignKeys,
    ':' ∉ fk.referencesTable
  references : ∀ parent, EvenReferences plan statements parent

/-- No primary key names a column twice, and no parent's name has a colon. -/
structure Orderly (plan : StoragePlan) : Prop where
  once : ∀ table ∈ plan.tables, table.primaryKey.Nodup
  parents : ∀ table ∈ plan.tables, ∀ fk ∈ table.foreignKeys, ':' ∉ fk.referencesTable

/-- All names of the primary key and of the foreign keys stand for one column, as far as they
stand for one. -/
def OneColumn (table : TablePlan) : Prop :=
  ∃ index, (∀ name ∈ table.primaryKey, ∀ found,
      exactIndex table name = some found ∨ foldedIndex table name = some found → found = index) ∧
    ∀ fk ∈ table.foreignKeys, ∀ found, exactIndex table fk.column = some found → found = index

/-- Tables of one name are one; the keys of a table that can have rows are of one column; and such
a table is not named like the schemas, nor like the relationships if there can be any. -/
structure OneColumnKeys (plan : StoragePlan) : Prop where
  tables : ∀ left ∈ plan.tables, ∀ right ∈ plan.tables, left.name = right.name → left = right
  keys : ∀ table ∈ plan.tables, Keyed table → OneColumn table
  schemas : ∀ table ∈ plan.tables, Keyed table → table.name ≠ "_schema".toList
  rels : ∀ table ∈ plan.tables, Keyed table → table.name = "_rel".toList →
    ∀ other ∈ plan.tables, Keyed other → ∀ fk ∈ other.foreignKeys,
      exactIndex other fk.column = none

section Entries

variable {plan : StoragePlan} {statements : List Statement} {row : ImportedRow}

private theorem primaryKey_full (full : row.values.length = row.table.columns.length) :
    row.primaryKey = row.table.primaryKey.map
      (fun name => (foldedIndex row.table name).map (rowText row.values)) := by
  unfold ImportedRow.primaryKey
  exact List.map_congr_left (fun name _ => sqlText_full full)

private theorem primaryKey_eq {table : TablePlan} {left right : List Expr}
    (columns : ∀ name ∈ table.primaryKey, foldedIndex table name = exactIndex table name)
    (leftFull : left.length = table.columns.length)
    (rightFull : right.length = table.columns.length)
    (same : keyParts table left = keyParts table right) :
    (ImportedRow.mk table left).primaryKey = (ImportedRow.mk table right).primaryKey := by
  rw [keyParts_full leftFull, keyParts_full rightFull] at same
  rw [primaryKey_full leftFull, primaryKey_full rightFull]
  apply List.map_congr_left
  intro name member
  change (foldedIndex table name).map _ = (foldedIndex table name).map _
  rw [columns name member]
  cases found : exactIndex table name with
  | none => rfl
  | some index =>
      have there : index ∈ keyIndices table := List.mem_filterMap.mpr ⟨name, member, found⟩
      exact congrArg some (List.map_inj_left.mp same index there)

end Entries

section Dumps

variable {plan : StoragePlan} {statements : List Statement} {table : TablePlan}

theorem EvenKey.parts (even : EvenKey plan statements table) {left right : List Expr}
    (leftStored : StoredHere plan statements ⟨table, left⟩)
    (rightStored : StoredHere plan statements ⟨table, right⟩)
    (same : pieces ':' (keyParts table left) = pieces ':' (keyParts table right)) :
    keyParts table left = keyParts table right := by
  rw [keyParts_full leftStored.2.1, keyParts_full rightStored.2.1] at same ⊢
  obtain ⟨free, others⟩ := even
  have lengths := congrArg List.length same
  rw [length_pieces, length_pieces, List.map_map, List.map_map] at lengths
  have elsewhere : ∀ index ∈ keyIndices table, index ≠ free →
      (rowText left index).count ':' = (rowText right index).count ':' := by
    intro index member other
    obtain ⟨colons, counted⟩ := others index member other
    rw [counted left leftStored, counted right rightStored]
  have counts : ∀ index ∈ keyIndices table,
      (rowText left index).count ':' + 1 = (rowText right index).count ':' + 1 := by
    rcases Nat.le_total ((rowText left free).count ':') ((rowText right free).count ':') with
      fewer | more
    · apply eq_of_sum_eq _ lengths
      intro index member
      by_cases here : index = free
      · rw [here]
        exact Nat.succ_le_succ fewer
      · exact (congrArg Nat.succ (elsewhere index member here)).le
    · intro index member
      refine (eq_of_sum_eq ?_ lengths.symm index member).symm
      intro index member
      by_cases here : index = free
      · rw [here]
        exact Nat.succ_le_succ more
      · exact (congrArg Nat.succ (elsewhere index member here)).ge
  apply parts_of_counts _ same
  rw [List.map_map, List.map_map]
  exact List.map_congr_left (fun index member => Nat.succ_inj.mp (counts index member))

private theorem relPieces_eq {row : ImportedRow} {fk : ForeignKeyPlan} {fkValue : Text}
    (parent : ':' ∉ fk.referencesTable) (name : ':' ∉ row.table.name) :
    relPieces row fk fkValue =
      fk.referencesTable :: (fkValue.splitOn ':' ++ row.table.name :: pieces ':' row.keyParts) := by
  unfold relPieces
  rw [pieces_cons_plain parent, pieces_cons, pieces_cons_plain name]

variable {alphanumeric : Alphanumeric} {ddl : List Statement}

theorem Separable.rows (separable : Separable (analyseStatements alphanumeric ddl) statements)
    {left right : ImportedRow}
    (leftStored : StoredHere (analyseStatements alphanumeric ddl) statements left)
    (rightStored : StoredHere (analyseStatements alphanumeric ddl) statements right)
    (same : left.table = right.table)
    (pieces : pieces ':' left.keyParts = pieces ':' right.keyParts) :
    left.primaryKey = right.primaryKey := by
  rcases left with ⟨table, left⟩
  rcases right with ⟨other, right⟩
  cases same
  have parts := (separable.keys _ leftStored).parts leftStored rightStored pieces
  exact primaryKey_eq (separable.columns _ leftStored) leftStored.2.1 rightStored.2.1 parts

theorem Separable.apart (separable : Separable (analyseStatements alphanumeric ddl) statements) :
    Apart (analyseStatements alphanumeric ddl) statements where
  tables := separable.tables
  rows := by
    intro left right leftMember rightMember
    exact separable.rows (mem_row_iff.mp leftMember) (mem_row_iff.mp rightMember)
  schemas := by
    intro row member name
    exact absurd name (separable.names row (mem_row_iff.mp member)).1
  rowsOfRel := by
    intro row member name
    exact absurd name (separable.names row (mem_row_iff.mp member)).2
  rels := by
    intro left leftFk leftValue right rightFk rightValue leftMember rightMember same
    obtain ⟨leftStored, leftPlanned, leftRead⟩ := mem_rel_iff.mp leftMember
    obtain ⟨rightStored, rightPlanned, rightRead⟩ := mem_rel_iff.mp rightMember
    have leftPlain := row_table_plain leftStored.1
    have rightPlain := row_table_plain rightStored.1
    rw [relPieces_eq (separable.parents _ leftStored _ leftPlanned) leftPlain,
      relPieces_eq (separable.parents _ rightStored _ rightPlanned) rightPlain] at same
    obtain ⟨parents, rest⟩ := List.cons.inj same
    obtain ⟨colons, counted⟩ := separable.references leftFk.referencesTable
    have counts := (counted left leftStored leftFk leftPlanned rfl leftValue leftRead).trans
      (counted right rightStored rightFk rightPlanned parents.symm rightValue rightRead).symm
    have long : (leftValue.splitOn ':').length = (rightValue.splitOn ':').length := by
      rw [length_splitOn, length_splitOn, counts]
    obtain ⟨values, rows⟩ := List.append_inj rest long
    obtain ⟨names, keys⟩ := List.cons.inj rows
    have tables := table_unique leftStored.1 rightStored.1 names
    exact ⟨parents, splitOn_injective values, tables,
      separable.rows leftStored rightStored tables keys⟩

end Dumps

section Plans

variable {plan : StoragePlan} {statements : List Statement} {table : TablePlan}
  {alphanumeric : Alphanumeric} {ddl : List Statement}

private theorem keyIndices_single (once : table.primaryKey.Nodup) (keyed : Keyed table)
    {index : Nat}
    (only : ∀ name ∈ table.primaryKey, ∀ found, exactIndex table name = some found →
      found = index) : keyIndices table = [index] := by
  have all : ∀ found ∈ keyIndices table, found = index := by
    intro found member
    obtain ⟨name, there, position⟩ := List.mem_filterMap.mp member
    exact only name there found position
  have distinct : (keyIndices table).Nodup := by
    apply once.filterMap
    intro name other found leftFound rightFound
    obtain ⟨inside, named, -⟩ := List.findIdx?_eq_some_iff_getElem.mp leftFound
    obtain ⟨_, alsoNamed, -⟩ := List.findIdx?_eq_some_iff_getElem.mp rightFound
    exact (of_decide_eq_true named).symm.trans (of_decide_eq_true alsoNamed)
  obtain ⟨first, rest, split⟩ := List.exists_cons_of_ne_nil (keyIndices_ne_nil.mpr keyed)
  rw [split] at all distinct ⊢
  have here := all first (List.mem_cons_self ..)
  cases rest with
  | nil => rw [here]
  | cons second rest =>
      have there := all second (List.mem_cons_of_mem _ (List.mem_cons_self ..))
      rw [here, there] at distinct
      exact absurd (List.mem_cons_self ..) (List.nodup_cons.mp distinct).1

private theorem table_of_stored {row : ImportedRow}
    (stored : StoredHere plan statements row) : row.table ∈ plan.tables ∧ Keyed row.table :=
  ⟨List.mem_of_find?_eq_some (mem_importedRows stored.1), keyed_of_stored stored.2⟩

theorem OneColumnKeys.row (orderly : Orderly plan) (single : OneColumnKeys plan)
    {row : ImportedRow} (stored : StoredHere plan statements row) :
    ∃ index, row.keyParts = [rowText row.values index] ∧
      row.primaryKey = row.table.primaryKey.map
        (fun name => (foldedIndex row.table name).map (fun _ => rowText row.values index)) ∧
      ∀ fk ∈ row.table.foreignKeys, ∀ fkValue,
        columnText row.table row.values fk.column = some fkValue →
          fkValue = rowText row.values index := by
  obtain ⟨planned, keyed⟩ := table_of_stored stored
  obtain ⟨index, primary, foreign⟩ := single.keys row.table planned keyed
  refine ⟨index, ?_, ?_, ?_⟩
  · have indices := keyIndices_single (orderly.once row.table planned) keyed
      (fun name member found position => primary name member found (Or.inl position))
    have parts := keyParts_full stored.2.1
    rw [indices] at parts
    exact parts
  · rw [primaryKey_full stored.2.1]
    apply List.map_congr_left
    intro name member
    cases found : foldedIndex row.table name with
    | none => rfl
    | some position => rw [primary name member position (Or.inr found)]; rfl
  · intro fk member fkValue read
    rw [columnText_full stored.2.1] at read
    obtain ⟨position, found, rfl⟩ := Option.map_eq_some_iff.mp read
    rw [foreign fk member position found]

theorem OneColumnKeys.rows (orderly : Orderly plan) (single : OneColumnKeys plan)
    {left right : ImportedRow} (leftStored : StoredHere plan statements left)
    (rightStored : StoredHere plan statements right) (same : left.table = right.table)
    (pieces : pieces ':' left.keyParts = pieces ':' right.keyParts) :
    left.primaryKey = right.primaryKey := by
  obtain ⟨index, leftParts, leftKey, -⟩ := single.row orderly leftStored
  obtain ⟨other, rightParts, rightKey, -⟩ := single.row orderly rightStored
  rw [leftParts, rightParts, pieces_cons, pieces_cons] at pieces
  have texts := splitOn_injective (List.append_cancel_right pieces)
  rw [leftKey, rightKey, same, texts]

theorem OneColumnKeys.apart (orderly : Orderly (analyseStatements alphanumeric ddl))
    (single : OneColumnKeys (analyseStatements alphanumeric ddl)) (statements : List Statement) :
    Apart (analyseStatements alphanumeric ddl) statements where
  tables := single.tables
  rows := by
    intro left right leftMember rightMember
    exact single.rows orderly (mem_row_iff.mp leftMember) (mem_row_iff.mp rightMember)
  schemas := by
    intro row member name
    obtain ⟨planned, keyed⟩ := table_of_stored (mem_row_iff.mp member)
    exact absurd name (single.schemas row.table planned keyed)
  rowsOfRel := by
    intro row member name other fk fkValue otherMember
    obtain ⟨planned, keyed⟩ := table_of_stored (mem_row_iff.mp member)
    obtain ⟨otherStored, fkPlanned, read⟩ := mem_rel_iff.mp otherMember
    obtain ⟨otherPlanned, otherKeyed⟩ := table_of_stored otherStored
    rw [columnText_eq, single.rels row.table planned keyed name other.table otherPlanned otherKeyed
      fk fkPlanned] at read
    cases read
  rels := by
    intro left leftFk leftValue right rightFk rightValue leftMember rightMember same
    obtain ⟨leftStored, leftPlanned, leftRead⟩ := mem_rel_iff.mp leftMember
    obtain ⟨rightStored, rightPlanned, rightRead⟩ := mem_rel_iff.mp rightMember
    obtain ⟨index, leftParts, -, leftForeign⟩ := single.row orderly leftStored
    obtain ⟨other, rightParts, -, rightForeign⟩ := single.row orderly rightStored
    rw [relPieces_eq (orderly.parents _ (table_of_stored leftStored).1 _ leftPlanned)
        (row_table_plain leftStored.1),
      relPieces_eq (orderly.parents _ (table_of_stored rightStored).1 _ rightPlanned)
        (row_table_plain rightStored.1), leftParts, rightParts,
      ← leftForeign leftFk leftPlanned leftValue leftRead,
      ← rightForeign rightFk rightPlanned rightValue rightRead] at same
    obtain ⟨parents, rest⟩ := List.cons.inj same
    -- The same pieces stand on either side of the table's name.
    have lengths := congrArg List.length rest
    simp only [pieces_cons, List.length_append, List.length_cons] at lengths
    obtain ⟨values, rows⟩ := List.append_inj rest (by omega)
    obtain ⟨names, keys⟩ := List.cons.inj rows
    have tables := table_unique leftStored.1 rightStored.1 names
    refine ⟨parents, splitOn_injective values, tables, ?_⟩
    apply single.rows orderly leftStored rightStored tables
    rw [leftParts, rightParts, ← leftForeign leftFk leftPlanned leftValue leftRead,
      ← rightForeign rightFk rightPlanned rightValue rightRead]
    exact keys

end Plans

/-! ### Rows that any plan may get -/

def insertion (table : TablePlan) (rows : List (List Expr)) : Statement :=
  .insert ⟨table.name, [], some (.values rows)⟩

def colonRow (table : TablePlan) (weight : Nat → Nat) : List Expr :=
  textRow table (fun index => List.replicate (weight index) ':')

section Insertions

variable {alphanumeric : Alphanumeric} {ddl statements : List Statement} {table : TablePlan}
  {rows : List (List Expr)} {values : List Expr}

private theorem unquoted_raw (name : Text) :
    unquoted (parseTableNameRaw alphanumeric name) = parseTableNameRaw alphanumeric name := by
  unfold unquoted
  rw [List.filter_eq_self]
  intro character member
  exact (List.mem_filter.mp (List.mem_filter.mp member).1).2

private theorem unquoted_planned (planned : table ∈ (analyseStatements alphanumeric ddl).tables) :
    unquoted table.name = table.name := by
  obtain ⟨statement, -, made⟩ := List.mem_filterMap.mp planned
  cases statement with
  | insert insert => cases made
  | other => cases made
  | createTable create =>
      have name := @analyseCreateTable_name alphanumeric create
      change analyseCreateTable alphanumeric create = some table at made
      rw [made] at name
      split at name
      · cases name
      · rw [Option.some_inj.mp name]
        exact unquoted_raw create.name

private theorem stored_of_insertion
    (tables : ∀ left ∈ (analyseStatements alphanumeric ddl).tables,
      ∀ right ∈ (analyseStatements alphanumeric ddl).tables, left.name = right.name → left = right)
    (planned : table ∈ (analyseStatements alphanumeric ddl).tables) (keyed : Keyed table)
    (inserted : insertion table rows ∈ statements) (member : values ∈ rows)
    (full : values.length = table.columns.length) :
    StoredHere (analyseStatements alphanumeric ddl) statements ⟨table, values⟩ := by
  refine ⟨List.mem_flatMap.mpr ⟨_, inserted, ?_⟩, stored_of_keyed keyed full⟩
  have finds : findTable (analyseStatements alphanumeric ddl) ⟨table.name, [], some (.values rows)⟩ =
      some table := by
    unfold findTable
    rw [unquoted_planned planned]
    cases found : (analyseStatements alphanumeric ddl).tables.find?
        (fun other => other.name = table.name) with
    | none =>
        have absent := List.find?_eq_none.mp found table planned
        exact absurd (decide_eq_true rfl) absent
    | some other =>
        have holds := List.find?_some found
        rw [tables other (List.mem_of_find?_eq_some found) table planned (of_decide_eq_true holds)]
  unfold insertion foundRows
  simp only [finds]
  exact List.mem_map_of_mem member

private theorem sum_single (indices : List Nat) (index count : Nat) :
    (indices.map (fun other => if other = index then count else 0)).sum =
      indices.count index * count := by
  induction indices with
  | nil => rw [List.map_nil, List.sum_nil, List.count_nil, Nat.zero_mul]
  | cons first indices ih =>
      rw [List.map_cons, List.sum_cons, ih]
      by_cases same : first = index
      · rw [if_pos same, same, List.count_cons_self, Nat.add_comm, Nat.succ_mul]
      · rw [if_neg same, List.count_cons_of_ne same, Nat.zero_add]

private theorem colonRow_key {weight other : Nat → Nat}
    (same : ((keyIndices table).map weight).sum = ((keyIndices table).map other).sum) :
    (Entry.row ⟨table, colonRow table weight⟩).key =
      (Entry.row ⟨table, colonRow table other⟩).key := by
  have joins : ∀ weight : Nat → Nat, join ':' (keyParts table (colonRow table weight)) =
      List.replicate (((keyIndices table).map weight).sum + ((keyIndices table).length - 1)) ':' := by
    intro weight
    unfold colonRow
    have joins := @joined_replicate Char ':' ((keyIndices table).map weight)
    rw [List.map_map, List.length_map] at joins
    rw [keyParts_textRow]
    exact joins
  change rowKey table (keyParts table _) = rowKey table (keyParts table _)
  unfold rowKey
  rw [joins, joins, same]

end Insertions

section Every

variable {alphanumeric : Alphanumeric} {ddl : List Statement} {table : TablePlan}

private theorem tables_of_kept (kept : KeepsApart (analyseStatements alphanumeric ddl) []) :
    ∀ left ∈ (analyseStatements alphanumeric ddl).tables,
      ∀ right ∈ (analyseStatements alphanumeric ddl).tables, left.name = right.name →
        left = right :=
  ((keepsApart_iff alphanumeric ddl []).mp kept).tables

private theorem pair_of_kept (kept : ∀ rows, KeepsApart (analyseStatements alphanumeric ddl) rows)
    (planned : table ∈ (analyseStatements alphanumeric ddl).tables) (keyed : Keyed table)
    (first second : Nat → Text) :
    ∃ statements, KeepsApart (analyseStatements alphanumeric ddl) statements ∧
      StoredHere (analyseStatements alphanumeric ddl) statements ⟨table, textRow table first⟩ ∧
      StoredHere (analyseStatements alphanumeric ddl) statements ⟨table, textRow table second⟩ := by
  have tables := tables_of_kept (kept [])
  refine ⟨[insertion table [textRow table first, textRow table second]], kept _, ?_, ?_⟩
  · exact stored_of_insertion tables planned keyed (List.mem_singleton_self _)
      (List.mem_cons_self ..) (length_textRow _)
  · exact stored_of_insertion tables planned keyed (List.mem_singleton_self _)
      (List.mem_cons_of_mem _ (List.mem_cons_self ..)) (length_textRow _)

/-- Every column that SQL takes for the key is every column that the import takes for it: colons
could move from one of two columns to the other. -/
theorem indices_of_kept (kept : ∀ rows, KeepsApart (analyseStatements alphanumeric ddl) rows)
    (planned : table ∈ (analyseStatements alphanumeric ddl).tables) (keyed : Keyed table)
    {name : Text} {index found : Nat} (primary : name ∈ table.primaryKey)
    (folded : foldedIndex table name = some index) (located : found ∈ keyIndices table) :
    found = index := by
  by_contra different
  let weight := fun other => if other = index then (keyIndices table).count found else 0
  let moved := fun other => if other = found then (keyIndices table).count index else 0
  have sums : ((keyIndices table).map weight).sum = ((keyIndices table).map moved).sum := by
    rw [sum_single, sum_single, Nat.mul_comm]
  obtain ⟨statements, apart, first, second⟩ := pair_of_kept kept planned keyed
    (fun other => List.replicate (weight other) ':') (fun other => List.replicate (moved other) ':')
  have agrees := (apart _ (mem_row_iff.mpr first) _ (mem_row_iff.mpr second)
    (congrArg Text.asBytes (colonRow_key sums))).2
  have texts := List.map_inj_left.mp agrees name primary
  rw [sqlText_textRow, sqlText_textRow, folded] at texts
  have lengths := congrArg List.length (Option.some_inj.mp texts)
  simp only [List.length_replicate] at lengths
  have some := List.count_pos_iff.mpr located
  simp only [weight, moved, if_true, if_neg (Ne.symm different)] at lengths
  omega

private theorem key_textRow {index : Nat} (single : keyIndices table = [index])
    (text : Nat → Text) :
    (Entry.row ⟨table, textRow table text⟩).key = table.name ++ ":".toList ++ text index := by
  change rowKey table (keyParts table _) = _
  rw [keyParts_textRow, single]
  unfold rowKey join
  rw [List.map_singleton, List.intercalate_singleton]

private theorem relKey_textRow {index : Nat} (single : keyIndices table = [index])
    (text : Nat → Text)
    (fk : ForeignKeyPlan) (fkValue : Text) :
    (Entry.rel ⟨table, textRow table text⟩ fk fkValue).key = "_rel:".toList ++
      fk.referencesTable ++ ":".toList ++ fkValue ++ ":".toList ++ table.name ++ ":".toList ++
        text index := by
  change relKey fk fkValue table (keyParts table _) = _
  rw [keyParts_textRow, single]
  unfold relKey join
  rw [List.map_singleton, List.intercalate_singleton]

/-- A foreign key in another column could take over the table's name and the first part of the
key. -/
theorem foreign_of_kept (kept : ∀ rows, KeepsApart (analyseStatements alphanumeric ddl) rows)
    (planned : table ∈ (analyseStatements alphanumeric ddl).tables) (keyed : Keyed table)
    {index found : Nat} (single : keyIndices table = [index]) {fk : ForeignKeyPlan}
    (foreign : fk ∈ table.foreignKeys) (located : exactIndex table fk.column = some found) :
    found = index := by
  by_contra different
  let front := fun other => if other = found then [] else table.name ++ ":".toList
  let back := fun other => if other = found then ":".toList ++ table.name else []
  obtain ⟨statements, apart, first, second⟩ := pair_of_kept kept planned keyed front back
  have related : ∀ text, columnText table (textRow table text) fk.column = some (text found) := by
    intro text
    rw [columnText_textRow, located]
    rfl
  have keys : (Entry.rel ⟨table, textRow table front⟩ fk (front found)).key =
      (Entry.rel ⟨table, textRow table back⟩ fk (back found)).key := by
    rw [relKey_textRow single, relKey_textRow single]
    simp only [front, back, if_true, if_neg (Ne.symm different), List.append_assoc,
      List.append_nil]
  have agrees := apart _ (mem_rel_iff.mpr ⟨first, foreign, related front⟩) _
    (mem_rel_iff.mpr ⟨second, foreign, related back⟩) (congrArg Text.asBytes keys)
  have values := agrees.2.1
  simp only [front, back, if_true] at values
  cases values

private theorem oneColumn_of_kept (orderly : Orderly (analyseStatements alphanumeric ddl))
    (kept : ∀ rows, KeepsApart (analyseStatements alphanumeric ddl) rows)
    (planned : table ∈ (analyseStatements alphanumeric ddl).tables) (keyed : Keyed table) :
    (∃ index, keyIndices table = [index]) ∧ OneColumn table := by
  have some := keyed
  obtain ⟨name, primary, named⟩ := some
  obtain ⟨found, exact⟩ := Option.isSome_iff_exists.mp (exactIndex_isSome.mpr named)
  obtain ⟨index, folded, -⟩ := foldedIndex_le exact
  have located : ∀ name ∈ table.primaryKey, ∀ found, exactIndex table name = some found →
      found = index := by
    intro other member found position
    exact indices_of_kept kept planned keyed primary folded
      (List.mem_filterMap.mpr ⟨other, member, position⟩)
  have single := keyIndices_single (orderly.once table planned) keyed located
  refine ⟨⟨index, single⟩, index, ?_, ?_⟩
  · intro other member found either
    rcases either with exact | folded
    · exact located other member found exact
    · have here : index ∈ keyIndices table := by
        rw [single]
        exact List.mem_singleton_self index
      exact (indices_of_kept kept planned keyed member folded here).symm
  · intro fk foreign found position
    exact foreign_of_kept kept planned keyed single foreign position

private theorem oneColumnKeys_of_kept (orderly : Orderly (analyseStatements alphanumeric ddl))
    (kept : ∀ rows, KeepsApart (analyseStatements alphanumeric ddl) rows) :
    OneColumnKeys (analyseStatements alphanumeric ddl) where
  tables := tables_of_kept (kept [])
  keys := fun table planned keyed => (oneColumn_of_kept orderly kept planned keyed).2
  schemas := by
    intro table planned keyed name
    obtain ⟨⟨index, single⟩, -⟩ := oneColumn_of_kept orderly kept planned keyed
    -- The row whose texts are the name of its own table.
    obtain ⟨statements, apart, stored, -⟩ :=
      pair_of_kept kept planned keyed (fun _ => table.name) (fun _ => table.name)
    refine apart _ (mem_schema_iff.mpr planned) _ (mem_row_iff.mpr stored) (congrArg Text.asBytes ?_)
    rw [key_textRow single]
    change "_schema:".toList ++ table.name = _
    rw [name]
    rfl
  rels := by
    intro table planned keyed name other otherPlanned otherKeyed fk foreign
    obtain ⟨⟨index, single⟩, -⟩ := oneColumn_of_kept orderly kept planned keyed
    obtain ⟨⟨otherIndex, otherSingle⟩, -⟩ := oneColumn_of_kept orderly kept otherPlanned otherKeyed
    cases located : exactIndex other fk.column with
    | none => rfl
    | some found =>
        -- The row whose text is the rest of a relationship's key.
        let text := fk.referencesTable ++ ":".toList ++ ":".toList ++ other.name ++ ":".toList
        let statements := [insertion table [textRow table (fun _ => text)],
          insertion other [textRow other (fun _ => [])]]
        have tables := tables_of_kept (kept [])
        have stored : StoredHere (analyseStatements alphanumeric ddl) statements
            ⟨table, textRow table (fun _ => text)⟩ :=
          stored_of_insertion tables planned keyed (List.mem_cons_self ..)
            (List.mem_singleton_self _) (length_textRow _)
        have otherStored : StoredHere (analyseStatements alphanumeric ddl) statements
            ⟨other, textRow other (fun _ => [])⟩ :=
          stored_of_insertion tables otherPlanned otherKeyed
            (List.mem_cons_of_mem _ (List.mem_cons_self ..)) (List.mem_singleton_self _)
            (length_textRow _)
        have related : columnText other (textRow other (fun _ => [])) fk.column = some [] := by
          rw [columnText_textRow, located]
          rfl
        refine (kept statements _ (mem_row_iff.mpr stored) _
          (mem_rel_iff.mpr ⟨otherStored, foreign, related⟩) (congrArg Text.asBytes ?_)).elim
        rw [key_textRow single, relKey_textRow otherSingle, name]
        simp only [text, List.append_assoc, List.append_nil]
        rfl

end Every

/-- What an import writes is its entries; their keys keep them apart if the dump is separable; and
those of a plan keep any rows apart exactly if they are of one column. -/
theorem import_keys_kept_apart (alphanumeric : Alphanumeric) (ddl statements : List Statement) :
    parseImport statements (analyseStatements alphanumeric ddl) =
        writing (importEntries (analyseStatements alphanumeric ddl) statements)
          (importResult (analyseStatements alphanumeric ddl) statements) ∧
      (Separable (analyseStatements alphanumeric ddl) statements →
        KeepsApart (analyseStatements alphanumeric ddl) statements) ∧
      (Orderly (analyseStatements alphanumeric ddl) →
        ((∀ rows, KeepsApart (analyseStatements alphanumeric ddl) rows) ↔
          OneColumnKeys (analyseStatements alphanumeric ddl))) := by
  refine ⟨parseImport_eq statements _, ?_, ?_⟩
  · exact fun separable => (keepsApart_iff alphanumeric ddl statements).mpr separable.apart
  · intro orderly
    constructor
    · exact oneColumnKeys_of_kept orderly
    · exact fun single rows => (keepsApart_iff alphanumeric ddl rows).mpr (single.apart orderly rows)

def linesDump : List Statement :=
  [.createTable ⟨"lines".toList,
      [⟨"order".toList, "TEXT".toList, []⟩, ⟨"item".toList, "TEXT".toList, []⟩],
      [.primaryKey ["order".toList, "item".toList],
        .foreignKey ["item".toList] "items".toList ["id".toList]]⟩,
    .insert ⟨"lines".toList, [], some (.values
      [[.singleQuotedString "x:y".toList, .singleQuotedString "z".toList],
        [.singleQuotedString "x".toList, .singleQuotedString "z".toList]])⟩]

def linesTable : TablePlan where
  name := "lines".toList
  columns := [⟨"order".toList, "TEXT".toList, true⟩, ⟨"item".toList, "TEXT".toList, true⟩]
  primaryKey := ["order".toList, "item".toList]
  foreignKeys := [⟨"item".toList, "items".toList, "id".toList⟩]
  ttlColumn := none

def profilesDump : List Statement :=
  [.createTable ⟨"profiles".toList,
    [⟨"user_id".toList, "INT".toList, [.unique true]⟩, ⟨"bio".toList, "TEXT".toList, []⟩],
    [.foreignKey ["user_id".toList] "users".toList ["id".toList]]⟩]

def profilesTable : TablePlan where
  name := "profiles".toList
  columns := [⟨"user_id".toList, "INT".toList, true⟩, ⟨"bio".toList, "TEXT".toList, false⟩]
  primaryKey := ["user_id".toList]
  foreignKeys := [⟨"user_id".toList, "users".toList, "id".toList⟩]
  ttlColumn := none

private theorem linesDump_separable :
    Separable (analyseStatements asciiAlphanumeric linesDump) linesDump := by
  have plan : analyseStatements asciiAlphanumeric linesDump = ⟨[linesTable]⟩ := by decide +kernel
  have rows : ∀ row, StoredHere ⟨[linesTable]⟩ linesDump row → row.table = linesTable ∧
      row.values[1]?.map parseValue = some "z".toList := by
    intro row stored
    have listed : importedRows ⟨[linesTable]⟩ linesDump =
        [⟨linesTable, [.singleQuotedString "x:y".toList, .singleQuotedString "z".toList]⟩,
          ⟨linesTable, [.singleQuotedString "x".toList, .singleQuotedString "z".toList]⟩] := by
      decide +kernel
    have member := stored.1
    rw [listed] at member
    rcases List.mem_cons.mp member with rfl | last
    · exact ⟨rfl, rfl⟩
    · cases List.mem_singleton.mp last
      exact ⟨rfl, rfl⟩
  rw [plan]
  refine ⟨?_, ?_, ?_, ?_, ?_, ?_⟩
  · intro left leftMember right rightMember _
    rw [List.mem_singleton.mp leftMember, List.mem_singleton.mp rightMember]
  · intro row stored
    rw [(rows row stored).1]
    decide
  · intro row stored
    rw [(rows row stored).1]
    decide +kernel
  · intro row stored
    rw [(rows row stored).1]
    refine ⟨0, ?_⟩
    intro index member other
    refine ⟨0, ?_⟩
    intro values here
    have indices : keyIndices linesTable = [0, 1] := by decide +kernel
    rw [indices] at member
    rcases List.mem_cons.mp member with same | last
    · exact absurd same other
    · rw [List.mem_singleton.mp last]
      unfold rowText
      rw [(rows _ here).2]
      rfl
  · intro row stored
    rw [(rows row stored).1]
    decide
  · intro parent
    refine ⟨0, ?_⟩
    intro row stored fk member _ fkValue read
    obtain ⟨table, text⟩ := rows row stored
    rw [table] at member read
    rw [List.mem_singleton.mp member, columnText_eq,
      show exactIndex linesTable "item".toList = some 1 by decide +kernel, Option.bind_some,
      text] at read
    rw [← Option.some_inj.mp read]
    rfl

theorem even_keys_are_kept_apart :
    KeepsApart (analyseStatements asciiAlphanumeric linesDump) linesDump ∧
      ∀ rows, KeepsApart (analyseStatements asciiAlphanumeric profilesDump) rows := by
  have plan : (analyseStatements asciiAlphanumeric profilesDump).tables = [profilesTable] := by
    decide +kernel
  constructor
  · exact (import_keys_kept_apart asciiAlphanumeric linesDump linesDump).2.1 linesDump_separable
  · apply ((import_keys_kept_apart asciiAlphanumeric profilesDump []).2.2 ⟨?_, ?_⟩).mpr
    · refine ⟨?_, ?_, ?_, ?_⟩
      · rw [plan]
        intro left leftMember right rightMember _
        rw [List.mem_singleton.mp leftMember, List.mem_singleton.mp rightMember]
      · rw [plan]
        intro table member _
        rw [List.mem_singleton.mp member]
        refine ⟨0, ?_, ?_⟩
        · intro name primary found either
          rw [List.mem_singleton.mp primary] at either
          rcases either with exact | folded
          · cases exact
            rfl
          · cases folded
            rfl
        · intro fk foreign found located
          rw [List.mem_singleton.mp foreign] at located
          cases located
          rfl
      · rw [plan]
        intro table member _
        rw [List.mem_singleton.mp member]
        decide
      · rw [plan]
        intro table member _ name
        rw [List.mem_singleton.mp member] at name
        exact absurd name (by decide)
    · rw [plan]
      intro table member
      rw [List.mem_singleton.mp member]
      decide
    · rw [plan]
      intro table member
      rw [List.mem_singleton.mp member]
      decide

def compositeDump : List Statement :=
  [.createTable ⟨"t".toList, [⟨"a".toList, "TEXT".toList, []⟩, ⟨"b".toList, "TEXT".toList, []⟩],
      [.primaryKey ["a".toList, "b".toList]]⟩,
    .insert ⟨"t".toList, [], some (.values
      [[.singleQuotedString "x:y".toList, .singleQuotedString "z".toList],
        [.singleQuotedString "x".toList, .singleQuotedString "y:z".toList]])⟩]

def compositeRow (first second : Text) : ImportedRow where
  table := {
    name := "t".toList
    columns := [⟨"a".toList, "TEXT".toList, true⟩, ⟨"b".toList, "TEXT".toList, true⟩]
    primaryKey := ["a".toList, "b".toList]
    foreignKeys := []
    ttlColumn := none }
  values := [.singleQuotedString first, .singleQuotedString second]

theorem composite_keys_collide :
    ¬ KeepsApart (analyseStatements asciiAlphanumeric compositeDump) compositeDump := by
  intro kept
  have agrees := kept (.row (compositeRow "x:y".toList "z".toList)) (by decide +kernel)
    (.row (compositeRow "x".toList "y:z".toList)) (by decide +kernel)
    (congrArg Text.asBytes (by decide +kernel))
  have same := agrees.2
  revert same
  decide +kernel

end Import

end TricPlus
