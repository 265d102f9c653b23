import TricPlus.ImportKeys
import TricPlus.Lib.Answers
import TricPlus.Lib.Words

/-!
The foreign keys that a table declares, in its constraints and in the options of its columns,
and the relationships that a row of it is written with.

The analyser looks through the constraints alone.  Of each foreign key it takes the first column
on either side, and the name of the other table as it is printed.
-/

namespace TricPlus

open AtomicProgram
open Answers
open Separated

namespace Import

open SqlDump Analyser

/-! ### What is declared -/

structure DeclaredKey where
  columns : List Text
  foreignTable : Text
  referredColumns : List Text
  deriving DecidableEq

def optionKey (column : Text) : ColumnOption → Option DeclaredKey
  | .foreignKey foreignTable referredColumns => some ⟨[column], foreignTable, referredColumns⟩
  | _ => none

def inlineKeys (columns : List ColumnDef) : List DeclaredKey :=
  columns.flatMap (fun column => column.options.filterMap (optionKey column.name))

def constraintKey : TableConstraint → Option DeclaredKey
  | .foreignKey columns foreignTable referredColumns =>
      some ⟨columns, foreignTable, referredColumns⟩
  | _ => none

def constraintKeys (constraints : List TableConstraint) : List DeclaredKey :=
  constraints.filterMap constraintKey

def declaredKeys (create : CreateTable) : List DeclaredKey :=
  inlineKeys create.columns ++ constraintKeys create.constraints

/-- The key of a relationship to this table: the value, the row's table and all columns of its
primary key. -/
def relationKey (row : ImportedRow) (parent fkValue : Text) : Option Text :=
  (row.table.primaryKey.mapM (sqlText row.table row.values)).map (fun parts =>
    joined ':' ("_rel".toList :: parent :: fkValue :: row.table.name :: parts))

/-- The entry for a declared key: the other table as the analyser names it, the texts of all its
columns, and the primary key of the row. -/
def declaredEntry (alphanumeric : Alphanumeric) (row : ImportedRow) (key : DeclaredKey) :
    Option Text :=
  (key.columns.mapM (sqlText row.table row.values)).bind (fun texts =>
    relationKey row (parseTableNameRaw alphanumeric key.foreignTable) (joined ':' texts))

/-- The row is written, and one relationship for each foreign key that is declared, in whatever
order; and so many are reported as are counted of them. -/
def RelatesRow (alphanumeric : Alphanumeric) (create : CreateTable) (count : List Text → Nat)
    (row : ImportedRow) : Prop :=
  ∃ keys written : List Text,
    (declaredKeys create).mapM (declaredEntry alphanumeric row) = some keys ∧
    written.Perm keys ∧
    writeRow row.table row.values =
      (performAll (Entry.call (.row row) ::
        written.map (fun key => .writeValue key.asBytes []))).bind
        (fun _ => .done (some (count keys)))

/-- Every row that is imported into the table is related so. -/
def RelatesRows (alphanumeric : Alphanumeric) (create : CreateTable) (count : List Text → Nat)
    (table : TablePlan) : Prop :=
  ∀ values, (ImportedRow.mk table values).Stored →
    RelatesRow alphanumeric create count ⟨table, values⟩

/-- The entries that stand under keys: a key that is written twice has one. -/
def entryCount (keys : List Text) : Nat := keys.dedup.length

/-- There is a column of exactly this name, and none before it differs from it only in the case of
its letters. -/
def Located (table : TablePlan) (name : Text) : Prop :=
  ∃ index, exactIndex table name = some index ∧ foldedIndex table name = some index

/-- A foreign key of one column of the table, to named columns of a table with a plain name. -/
structure CarriedKey (alphanumeric : Alphanumeric) (table : TablePlan) (key : DeclaredKey) :
    Prop where
  single : ∃ name, key.columns = [name] ∧ Located table name
  referred : key.referredColumns ≠ []
  plain : parseTableNameRaw alphanumeric key.foreignTable = key.foreignTable

/-- No column declares a foreign key by itself, the constraints declare carried ones, and if there
is one the columns of the primary key are found. -/
structure CarriedKeys (alphanumeric : Alphanumeric) (create : CreateTable) (table : TablePlan) :
    Prop where
  inline : inlineKeys create.columns = []
  each : ∀ key ∈ constraintKeys create.constraints, CarriedKey alphanumeric table key
  primary : constraintKeys create.constraints ≠ [] → ∀ name ∈ table.primaryKey, Located table name

/-- No two of them refer to one table. -/
def ParentsDiffer (create : CreateTable) : Prop :=
  ((constraintKeys create.constraints).map DeclaredKey.foreignTable).Nodup

def keyPlan (key : DeclaredKey) : Option ForeignKeyPlan :=
  foreignKeyPlan (.foreignKey key.columns key.foreignTable key.referredColumns)

def writtenKey (row : ImportedRow) (parent fkValue : Text) : Text :=
  relKey ⟨[], parent, []⟩ fkValue row.table row.keyParts

def writtenEntry (row : ImportedRow) (key : DeclaredKey) : Option Text :=
  (keyPlan key).bind (fun fk => (columnText row.table row.values fk.column).map (fun fkValue =>
    writtenKey row fk.referencesTable fkValue))

section Written

variable {alphanumeric : Alphanumeric} {create : CreateTable} {table : TablePlan}

private theorem writtenKey_parent {row other : ImportedRow} {left right fkValue otherValue : Text}
    (leftPlain : parseTableNameRaw alphanumeric left = left)
    (rightPlain : parseTableNameRaw alphanumeric right = right)
    (same : writtenKey row left fkValue = writtenKey other right otherValue) : left = right := by
  unfold writtenKey relKey at same
  simp only [List.append_assoc, List.append_cancel_left_eq] at same
  have cut := congrArg (List.splitOn ':') same
  change List.splitOn ':' (left ++ ':' :: _) = List.splitOn ':' (right ++ ':' :: _) at cut
  rw [← leftPlain, ← rightPlain, List.splitOn_append_cons_self, List.splitOn_append_cons_self,
    List.splitOn_eq_singleton (colon_not_mem_raw left),
    List.splitOn_eq_singleton (colon_not_mem_raw right), leftPlain, rightPlain] at cut
  exact (List.cons.inj cut).1

private theorem planned_foreignKeys
    (planned : analyseCreateTable alphanumeric create = some table) :
    table.foreignKeys = (constraintKeys create.constraints).filterMap keyPlan := by
  unfold analyseCreateTable at planned
  simp only at planned
  split at planned
  · cases planned
  · cases planned
    change create.constraints.filterMap foreignKeyPlan = _
    unfold constraintKeys
    rw [List.filterMap_filterMap]
    congr 1
    funext constraint
    cases constraint <;> rfl

private theorem relEntries_planned (planned : analyseCreateTable alphanumeric create = some table)
    (values : List Expr) :
    (relEntries ⟨table, values⟩ table.foreignKeys).map Entry.key =
      (constraintKeys create.constraints).filterMap (writtenEntry ⟨table, values⟩) := by
  unfold relEntries
  rw [List.map_filterMap, planned_foreignKeys planned, List.filterMap_filterMap]
  congr 1
  funext key
  unfold writtenEntry
  congr 1
  funext fk
  rw [Option.map_map]
  rfl

private theorem writeRow_stored {row : ImportedRow} (stored : row.Stored) :
    writeRow row.table row.values =
      (performAll (Entry.call (.row row) ::
        ((relEntries row row.table.foreignKeys).map Entry.key).map
          (fun key => .writeValue key.asBytes []))).bind
        (fun _ => .done (some (relEntries row row.table.foreignKeys).length)) := by
  have calls : (relEntries row row.table.foreignKeys).map Entry.call =
      ((relEntries row row.table.foreignKeys).map Entry.key).map
        (fun key => .writeValue key.asBytes []) := by
    rw [List.map_map]
    apply List.map_congr_left
    intro entry member
    obtain ⟨fk, -, found⟩ := List.mem_filterMap.mp member
    obtain ⟨fkValue, -, rfl⟩ := Option.map_eq_some_iff.mp found
    rfl
  rw [writeRow_eq, if_pos stored, ← calls]
  unfold rowEntries writing
  rw [if_pos stored, List.map_cons]

private theorem relatesRow_iff (planned : analyseCreateTable alphanumeric create = some table)
    {values : List Expr} (stored : (ImportedRow.mk table values).Stored)
    (count : List Text → Nat) :
    RelatesRow alphanumeric create count ⟨table, values⟩ ↔
      ∃ keys, (declaredKeys create).mapM (declaredEntry alphanumeric ⟨table, values⟩) = some keys ∧
        ((constraintKeys create.constraints).filterMap (writtenEntry ⟨table, values⟩)).Perm keys ∧
        count keys = keys.length := by
  have wrote := writeRow_stored stored
  have total := congrArg List.length (relEntries_planned planned values)
  rw [List.length_map] at total
  rw [relEntries_planned planned values, total] at wrote
  constructor
  · rintro ⟨keys, written, declared, perm, same⟩
    rw [wrote] at same
    obtain ⟨calls, counts⟩ := performAll_injective same
    have same := (List.cons.inj calls).2
    have asKeys : Function.Injective
        (fun key : Text => DataBusCall.writeValue key.asBytes []) := by
      intro left right same
      exact asBytes_injective (DataBusCall.writeValue.inj same).1
    rw [asKeys.list_map same]
    refine ⟨keys, declared, perm, ?_⟩
    rw [← Option.some_inj.mp counts, asKeys.list_map same, perm.length_eq]
  · rintro ⟨keys, declared, perm, counts⟩
    refine ⟨keys, _, declared, perm, ?_⟩
    rw [counts, ← perm.length_eq]
    exact wrote

end Written

section Carried

variable {alphanumeric : Alphanumeric} {create : CreateTable} {table : TablePlan}
  {values : List Expr} {name : Text} {key : DeclaredKey}

theorem Located.text (located : Located table name)
    (full : values.length = table.columns.length) :
    ∃ text, columnText table values name = some text ∧ sqlText table values name = some text := by
  obtain ⟨index, exact, folded⟩ := located
  have inside := exactIndex_lt exact
  rw [← full] at inside
  refine ⟨parseValue values[index], ?_, ?_⟩
  · rw [columnText_eq, exact, Option.bind_some, List.getElem?_eq_getElem inside, Option.map_some]
  · rw [sqlText_eq, folded, Option.bind_some, List.getElem?_eq_getElem inside, Option.map_some]

private theorem primaryKey_located {names : List Text}
    (located : ∀ name ∈ names, Located table name)
    (full : values.length = table.columns.length) :
    names.mapM (sqlText table values) = some (names.filterMap (columnText table values)) := by
  induction names with
  | nil => rfl
  | cons name names ih =>
      obtain ⟨text, exact, folded⟩ := (located name (List.mem_cons_self ..)).text full
      have rest := ih (fun other member => located other (List.mem_cons_of_mem _ member))
      rw [List.mapM_cons, folded, rest, List.filterMap_cons_some exact]
      rfl

private theorem relationKey_located (primary : ∀ name ∈ table.primaryKey, Located table name)
    (stored : (ImportedRow.mk table values).Stored) (parent fkValue : Text) :
    relationKey ⟨table, values⟩ parent fkValue =
      some (writtenKey ⟨table, values⟩ parent fkValue) := by
  have parts : keyParts table values ≠ [] := stored.2
  unfold relationKey
  change (table.primaryKey.mapM (sqlText table values)).map _ = _
  rw [primaryKey_located primary stored.1, Option.map_some]
  congr 1
  change joined ':' (_ :: _ :: _ :: _ :: keyParts table values) = _
  rw [joined_cons (List.cons_ne_nil _ _), joined_cons (List.cons_ne_nil _ _),
    joined_cons (List.cons_ne_nil _ _), joined_cons parts]
  unfold writtenKey relKey
  simp only [List.append_assoc]
  rfl

theorem CarriedKey.entry (carried : CarriedKey alphanumeric table key)
    (primary : ∀ name ∈ table.primaryKey, Located table name)
    (stored : (ImportedRow.mk table values).Stored) :
    ∃ name fkValue, columnText table values name = some fkValue ∧
      declaredEntry alphanumeric ⟨table, values⟩ key =
        some (writtenKey ⟨table, values⟩ key.foreignTable fkValue) ∧
      writtenEntry ⟨table, values⟩ key =
        some (writtenKey ⟨table, values⟩ key.foreignTable fkValue) := by
  obtain ⟨name, single, located⟩ := carried.single
  obtain ⟨fkValue, exact, folded⟩ := located.text stored.1
  obtain ⟨referred, others, nonempty⟩ := List.exists_cons_of_ne_nil carried.referred
  refine ⟨name, fkValue, exact, ?_, ?_⟩
  · unfold declaredEntry
    simp only [single, List.mapM_cons, List.mapM_nil, folded, carried.plain]
    change relationKey _ _ (joined ':' [fkValue]) = _
    rw [show joined ':' [fkValue] = fkValue from List.intercalate_singleton ..]
    exact relationKey_located primary stored key.foreignTable fkValue
  · unfold writtenEntry keyPlan
    rw [single, nonempty]
    change (columnText table values name).map _ = _
    rw [exact]
    rfl

private theorem entries_carried {keys : List DeclaredKey}
    (carried : ∀ key ∈ keys, CarriedKey alphanumeric table key)
    (primary : keys ≠ [] → ∀ name ∈ table.primaryKey, Located table name)
    (stored : (ImportedRow.mk table values).Stored) :
    keys.mapM (declaredEntry alphanumeric ⟨table, values⟩) =
      some (keys.filterMap (writtenEntry ⟨table, values⟩)) := by
  induction keys with
  | nil => rfl
  | cons key keys ih =>
      obtain ⟨name, fkValue, -, declared, written⟩ :=
        (carried key (List.mem_cons_self ..)).entry (primary (List.cons_ne_nil _ _)) stored
      have rest := ih (fun other member => carried other (List.mem_cons_of_mem _ member))
        (fun _ => primary (List.cons_ne_nil _ _))
      rw [List.mapM_cons, declared, rest, List.filterMap_cons_some written]
      rfl

private theorem entries_nodup {keys : List DeclaredKey}
    (carried : ∀ key ∈ keys, CarriedKey alphanumeric table key)
    (primary : keys ≠ [] → ∀ name ∈ table.primaryKey, Located table name)
    (stored : (ImportedRow.mk table values).Stored)
    (differ : (keys.map DeclaredKey.foreignTable).Nodup) :
    (keys.filterMap (writtenEntry ⟨table, values⟩)).Nodup := by
  induction keys with
  | nil => exact List.nodup_nil
  | cons key keys ih =>
      have found := primary (List.cons_ne_nil _ _)
      obtain ⟨name, fkValue, -, -, written⟩ := (carried key (List.mem_cons_self ..)).entry found stored
      rw [List.map_cons, List.nodup_cons] at differ
      rw [List.filterMap_cons_some written, List.nodup_cons]
      refine ⟨?_, ih (fun other member => carried other (List.mem_cons_of_mem _ member))
        (fun _ => found) differ.2⟩
      intro again
      obtain ⟨other, member, same⟩ := List.mem_filterMap.mp again
      have otherCarried := carried other (List.mem_cons_of_mem _ member)
      obtain ⟨otherName, otherValue, -, -, otherWritten⟩ := otherCarried.entry found stored
      rw [otherWritten, Option.some_inj] at same
      have parents := writtenKey_parent otherCarried.plain
        (carried key (List.mem_cons_self ..)).plain same
      exact differ.1 (parents ▸ List.mem_map_of_mem member)

end Carried

/-! ### Rows of measured texts -/

def measuredRow (table : TablePlan) (width : Nat → Nat) : List Expr :=
  textRow table (fun index => List.replicate (width index) 'x')

def exactAt (table : TablePlan) (name : Text) : Nat := (exactIndex table name).getD 0

def foldedAt (table : TablePlan) (name : Text) : Nat := (foldedIndex table name).getD 0

section Measured

variable {alphanumeric : Alphanumeric} {create : CreateTable} {table : TablePlan}
  {width : Nat → Nat} {name : Text} {index : Nat} {key : DeclaredKey}

private theorem columnText_measured : columnText table (measuredRow table width) name =
    (exactIndex table name).map (fun index => List.replicate (width index) 'x') :=
  columnText_textRow _

private theorem sqlText_measured : sqlText table (measuredRow table width) name =
    (foldedIndex table name).map (fun index => List.replicate (width index) 'x') :=
  sqlText_textRow _

private theorem measured_stored (keyed : Keyed table) (width : Nat → Nat) :
    (ImportedRow.mk table (measuredRow table width)).Stored :=
  stored_of_keyed keyed (length_textRow _)

private theorem measured_texts {names : List Text} {texts : List Text}
    (read : names.mapM (sqlText table (measuredRow table width)) = some texts) :
    (∀ name ∈ names, ∃ index, foldedIndex table name = some index) ∧
      texts.length = names.length ∧
      (texts.map List.length).sum = (names.map (fun name => width (foldedAt table name))).sum := by
  have same := mapM_eq_some_iff.mp read
  have found : ∀ name ∈ names, ∃ index, foldedIndex table name = some index := by
    intro name member
    have there := List.mem_map_of_mem (f := sqlText table (measuredRow table width)) member
    rw [same, sqlText_measured] at there
    obtain ⟨text, -, some⟩ := List.mem_map.mp there
    obtain ⟨index, position, -⟩ := Option.map_eq_some_iff.mp some.symm
    exact ⟨index, position⟩
  refine ⟨found, mapM_length read, ?_⟩
  have texts_eq : texts = names.map (fun name =>
      List.replicate (width (foldedAt table name)) 'x') := by
    apply Option.some_injective Text |>.list_map
    rw [← same, List.map_map]
    apply List.map_congr_left
    intro name member
    obtain ⟨index, position⟩ := found name member
    rw [sqlText_measured]
    unfold foldedAt
    simp only [Function.comp_apply, position, Option.map_some, Option.getD_some]
  rw [texts_eq, List.map_map]
  apply congrArg List.sum
  apply List.map_congr_left
  intro name _
  exact List.length_replicate

private theorem keyParts_measured : keyParts table (measuredRow table width) =
    (keyIndices table).map (fun index => List.replicate (width index) 'x') :=
  keyParts_textRow _

private theorem length_writtenKey (row : ImportedRow) (parent fkValue : Text) :
    (writtenKey row parent fkValue).length = 8 + row.table.name.length + parent.length +
      fkValue.length + ((row.keyParts.map List.length).sum + (row.keyParts.length - 1)) := by
  have parts : (join ':' row.keyParts).length = _ := Words.length_joined ':' row.keyParts
  unfold writtenKey relKey
  simp only [List.length_append, parts]
  change 5 + parent.length + 1 + fkValue.length + 1 + row.table.name.length + 1 + _ = _
  omega

private theorem length_declaredEntry {entry : Text} (keyed : table.primaryKey ≠ [])
    (declared : declaredEntry alphanumeric ⟨table, measuredRow table width⟩ key = some entry) :
    (∀ name ∈ key.columns, ∃ index, foldedIndex table name = some index) ∧
      (∀ name ∈ table.primaryKey, ∃ index, foldedIndex table name = some index) ∧
      entry.length = 8 + table.name.length +
        (parseTableNameRaw alphanumeric key.foreignTable).length +
        ((key.columns.map (fun name => width (foldedAt table name))).sum +
          (key.columns.length - 1)) +
        ((table.primaryKey.map (fun name => width (foldedAt table name))).sum +
          (table.primaryKey.length - 1)) := by
  obtain ⟨texts, read, keyed'⟩ := Option.bind_eq_some_iff.mp declared
  obtain ⟨parts, primary, rfl⟩ := Option.map_eq_some_iff.mp keyed'
  obtain ⟨columns, count, total⟩ := measured_texts read
  obtain ⟨located, partCount, partTotal⟩ := measured_texts primary
  have nonempty : parts ≠ [] := by
    intro none
    rw [none] at partCount
    exact keyed (List.eq_nil_of_length_eq_zero partCount.symm)
  refine ⟨columns, located, ?_⟩
  rw [joined_cons (List.cons_ne_nil _ _), joined_cons (List.cons_ne_nil _ _),
    joined_cons (List.cons_ne_nil _ _), joined_cons nonempty]
  simp only [List.length_append, List.length_cons, Words.length_joined, total, count, partTotal,
    partCount]
  change 4 + _ = _
  omega

private theorem length_writtenEntry {entry : Text}
    (written : writtenEntry ⟨table, measuredRow table width⟩ key = some entry) :
    ∃ name rest index, key.columns = name :: rest ∧ key.referredColumns ≠ [] ∧
      exactIndex table name = some index ∧
      entry.length = 8 + table.name.length + key.foreignTable.length + width index +
        (((keyIndices table).map width).sum + ((keyIndices table).length - 1)) := by
  unfold writtenEntry keyPlan at written
  obtain ⟨fk, planned, found⟩ := Option.bind_eq_some_iff.mp written
  obtain ⟨fkValue, read, rfl⟩ := Option.map_eq_some_iff.mp found
  obtain ⟨some, referred⟩ := (foreignKeyPlan_eq _ _ _).mp ⟨fk, planned⟩
  obtain ⟨name, rest, columns⟩ := List.exists_cons_of_ne_nil some
  obtain ⟨other, others, references⟩ := List.exists_cons_of_ne_nil referred
  rw [columns, references] at planned
  cases planned
  rw [columnText_measured] at read
  obtain ⟨index, position, rfl⟩ := Option.map_eq_some_iff.mp read
  refine ⟨name, rest, index, columns, referred, position, ?_⟩
  rw [length_writtenKey]
  change _ + ((List.map List.length (keyParts _ _)).sum + ((keyParts _ _).length - 1)) = _
  rw [keyParts_measured]
  simp only [List.length_map, List.map_map, List.length_replicate]
  congr 3
  exact List.map_congr_left (fun index _ => List.length_replicate)

/-- As far as the columns are found, the widths that are written and those that are declared. -/
def writtenWidth (table : TablePlan) (width : Nat → Nat) (key : DeclaredKey) : Nat :=
  key.foreignTable.length + width ((key.columns.head?.map (exactAt table)).getD 0) +
    (((keyIndices table).map width).sum + ((keyIndices table).length - 1))

def declaredWidth (alphanumeric : Alphanumeric) (table : TablePlan) (width : Nat → Nat)
    (key : DeclaredKey) : Nat :=
  (parseTableNameRaw alphanumeric key.foreignTable).length +
    ((key.columns.map (fun name => width (foldedAt table name))).sum + (key.columns.length - 1)) +
    ((table.primaryKey.map (fun name => width (foldedAt table name))).sum +
      (table.primaryKey.length - 1))

private theorem filterMap_of_mapM {keys : List DeclaredKey} {entry : DeclaredKey → Option Text}
    {entries : List Text} (all : keys.mapM entry = some entries) :
    keys.filterMap entry = entries := by
  apply Option.some_injective Text |>.list_map
  rw [List.map_filterMap_some_eq_filter_map_isSome, mapM_eq_some_iff.mp all]
  exact List.filter_eq_self.mpr (fun answer member => by
    obtain ⟨entry, -, rfl⟩ := List.mem_map.mp member
    rfl)

/-- No more keys are written than the constraints have, and as many as are declared: so a related
row has no inline keys, and each key of a constraint is written and declared. -/
private theorem related_entries (planned : analyseCreateTable alphanumeric create = some table)
    {values : List Expr} (stored : (ImportedRow.mk table values).Stored)
    (related : RelatesRow alphanumeric create List.length ⟨table, values⟩) :
    inlineKeys create.columns = [] ∧
      (∀ key ∈ constraintKeys create.constraints,
        (∃ entry, writtenEntry ⟨table, values⟩ key = some entry) ∧
          ∃ entry, declaredEntry alphanumeric ⟨table, values⟩ key = some entry) ∧
      ((constraintKeys create.constraints).filterMap (writtenEntry ⟨table, values⟩)).Perm
        ((constraintKeys create.constraints).filterMap
          (declaredEntry alphanumeric ⟨table, values⟩)) := by
  obtain ⟨keys, declared, perm, -⟩ := (relatesRow_iff planned stored _).mp related
  have total := mapM_length declared
  have written := List.length_filterMap_le (writtenEntry ⟨table, values⟩)
    (constraintKeys create.constraints)
  have none : inlineKeys create.columns = [] := by
    unfold declaredKeys at total
    rw [List.length_append, ← perm.length_eq] at total
    exact List.eq_nil_of_length_eq_zero (by omega)
  unfold declaredKeys at declared total
  rw [none, List.nil_append] at declared total
  have each := List.filterMap_length_eq_length.mp (perm.length_eq.trans total)
  refine ⟨none, fun key member => ⟨Option.isSome_iff_exists.mp (each key member), ?_⟩, ?_⟩
  · have there := List.mem_map_of_mem
      (f := declaredEntry alphanumeric ⟨table, values⟩) member
    rw [mapM_eq_some_iff.mp declared] at there
    obtain ⟨entry, -, same⟩ := List.mem_map.mp there
    exact ⟨entry, same.symm⟩
  · rw [filterMap_of_mapM declared]
    exact perm

/-- Relating a measured row takes an entry for each key of a constraint, and no other keys; and
the entries that are written are as long in all as those that are declared. -/
theorem measured_related (planned : analyseCreateTable alphanumeric create = some table)
    (keyed : Keyed table) (related : RelatesRows alphanumeric create List.length table)
    (width : Nat → Nat) :
    inlineKeys create.columns = [] ∧
      (∀ key ∈ constraintKeys create.constraints,
        (∃ name rest index, key.columns = name :: rest ∧ key.referredColumns ≠ [] ∧
          exactIndex table name = some index) ∧
        ∀ name ∈ table.primaryKey, ∃ index, foldedIndex table name = some index) ∧
      ((constraintKeys create.constraints).map (writtenWidth table width)).sum =
        ((constraintKeys create.constraints).map (declaredWidth alphanumeric table width)).sum := by
  have stored := measured_stored keyed width
  have primary : table.primaryKey ≠ [] := by
    obtain ⟨name, member, -⟩ := keyed
    exact List.ne_nil_of_mem member
  obtain ⟨none, each, perm⟩ := related_entries planned stored (related _ stored)
  refine ⟨none, ?_, ?_⟩
  · intro key member
    obtain ⟨⟨entry, found⟩, other, same⟩ := each key member
    obtain ⟨name, rest, index, columns, referred, position, -⟩ := length_writtenEntry found
    exact ⟨⟨name, rest, index, columns, referred, position⟩,
      (length_declaredEntry primary same).2.1⟩
  · have lengths := (perm.map List.length).sum_eq
    have first := @sum_filterMap _ _ (writtenEntry ⟨table, measuredRow table width⟩)
      (constraintKeys create.constraints) List.length (fun key =>
        (8 + table.name.length) + writtenWidth table width key) (by
      intro key member
      obtain ⟨⟨entry, found⟩, -⟩ := each key member
      obtain ⟨name, rest, index, columns, -, position, long⟩ := length_writtenEntry found
      refine ⟨entry, found, long.trans ?_⟩
      unfold writtenWidth exactAt
      rw [columns]
      simp only [List.head?_cons, Option.map_some, Option.getD_some, position]
      omega)
    have second := @sum_filterMap _ _ (declaredEntry alphanumeric ⟨table, measuredRow table width⟩)
      (constraintKeys create.constraints) List.length (fun key =>
        (8 + table.name.length) + declaredWidth alphanumeric table width key) (by
      intro key member
      obtain ⟨-, entry, found⟩ := each key member
      refine ⟨entry, found, (length_declaredEntry primary found).2.2.trans ?_⟩
      unfold declaredWidth
      omega)
    rw [first, second] at lengths
    simp only [List.sum_map_add] at lengths
    exact Nat.add_left_cancel lengths

private theorem exactAt_eq (found : exactIndex table name = some index) :
    exactAt table name = index := by
  unfold exactAt
  rw [found, Option.getD_some]

private theorem foldedAt_le (found : exactIndex table name = some index) :
    foldedAt table name ≤ exactAt table name := by
  obtain ⟨first, position, early⟩ := foldedIndex_le found
  unfold foldedAt
  rw [position, Option.getD_some, exactAt_eq found]
  exact early

private theorem located_of_at (found : exactIndex table name = some index)
    (same : foldedAt table name = exactAt table name) : Located table name := by
  obtain ⟨first, position, -⟩ := foldedIndex_le found
  unfold foldedAt at same
  rw [position, Option.getD_some, exactAt_eq found] at same
  exact ⟨index, found, same ▸ position⟩

private theorem length_keyIndices_le : (keyIndices table).length ≤ table.primaryKey.length :=
  List.length_filterMap_le _ _

/-- Widths that are the same in every column tell how many columns are written and declared, and
whether the names are plain. -/
theorem counts_of_widths {keys : List DeclaredKey} (located : keyIndices table ≠ [])
    (some : ∀ key ∈ keys, 1 ≤ key.columns.length)
    (same : ∀ size, (keys.map (writtenWidth table (fun _ => size))).sum =
      (keys.map (declaredWidth alphanumeric table (fun _ => size))).sum) :
    ∀ key ∈ keys, key.columns.length = 1 ∧ (keyIndices table).length = table.primaryKey.length ∧
      (parseTableNameRaw alphanumeric key.foreignTable).length = key.foreignTable.length := by
  have bound := @length_keyIndices_le table
  have most := List.length_pos_iff.mpr located
  have longer : ∀ key : DeclaredKey, writtenWidth table (fun _ => 1) key =
      writtenWidth table (fun _ => 0) key + (1 + (keyIndices table).length) := by
    intro key
    unfold writtenWidth
    simp only [List.map_const', List.sum_replicate, smul_eq_mul]
    omega
  have longerDeclared : ∀ key : DeclaredKey,
      declaredWidth alphanumeric table (fun _ => 1) key =
        declaredWidth alphanumeric table (fun _ => 0) key +
          (key.columns.length + table.primaryKey.length) := by
    intro key
    unfold declaredWidth
    simp only [List.map_const', List.sum_replicate, smul_eq_mul]
    omega
  have counts : ∀ key ∈ keys, 1 + (keyIndices table).length =
      key.columns.length + table.primaryKey.length := by
    apply eq_of_sum_eq
    · exact fun key member => Nat.add_le_add (some key member) bound
    · have long := same 1
      have short := same 0
      rw [List.map_congr_left (fun key _ => longer key),
        List.map_congr_left (fun key _ => longerDeclared key)] at long
      simp only [List.sum_map_add] at long ⊢
      omega
  have raw : ∀ key : DeclaredKey,
      (parseTableNameRaw alphanumeric key.foreignTable).length ≤ key.foreignTable.length := by
    intro key
    unfold parseTableNameRaw unquoted
    exact (List.length_filter_le _ _).trans (List.length_filter_le _ _)
  have widths : ∀ key ∈ keys, declaredWidth alphanumeric table (fun _ => 0) key =
      writtenWidth table (fun _ => 0) key := by
    apply eq_of_sum_eq
    · intro key member
      have one := some key member
      have count := counts key member
      have shorter := raw key
      unfold declaredWidth writtenWidth
      simp only [List.map_const', List.sum_replicate, smul_eq_mul]
      omega
    · exact (same 0).symm
  intro key member
  have one := some key member
  have count := counts key member
  have width := widths key member
  unfold declaredWidth writtenWidth at width
  simp only [List.map_const', List.sum_replicate, smul_eq_mul] at width
  exact ⟨by omega, by omega, by omega⟩

private theorem located_of_widths {keys : List DeclaredKey}
    (primary : ∀ name ∈ table.primaryKey, ∃ index, exactIndex table name = some index)
    (single : ∀ key ∈ keys, ∃ name index, key.columns = [name] ∧
      exactIndex table name = some index)
    (plain : ∀ key ∈ keys,
      (parseTableNameRaw alphanumeric key.foreignTable).length = key.foreignTable.length)
    (same : (keys.map (writtenWidth table id)).sum =
      (keys.map (declaredWidth alphanumeric table id)).sum) :
    ∀ key ∈ keys, (∃ name, key.columns = [name] ∧ Located table name) ∧
      ∀ name ∈ table.primaryKey, Located table name := by
  have early : ∀ name ∈ table.primaryKey, foldedAt table name ≤ exactAt table name := by
    intro name member
    obtain ⟨index, found⟩ := primary name member
    exact foldedAt_le found
  have indices : keyIndices table = table.primaryKey.map (exactAt table) := by
    apply Option.some_injective Nat |>.list_map
    unfold keyIndices
    rw [List.map_filterMap_some_eq_filter_map_isSome, List.map_map]
    have all : ∀ position ∈ table.primaryKey.map (exactIndex table), position.isSome = true := by
      intro position member
      obtain ⟨name, there, rfl⟩ := List.mem_map.mp member
      exact Option.isSome_iff_exists.mpr (primary name there)
    rw [List.filter_eq_self.mpr all]
    apply List.map_congr_left
    intro name member
    obtain ⟨index, found⟩ := primary name member
    exact found.trans (congrArg some (exactAt_eq found).symm)
  have sums : (table.primaryKey.map (fun name => foldedAt table name)).sum ≤
      (table.primaryKey.map (exactAt table)).sum := List.sum_le_sum early
  have widths : ∀ key ∈ keys, declaredWidth alphanumeric table id key =
      writtenWidth table id key := by
    apply eq_of_sum_eq
    · intro key member
      obtain ⟨name, index, columns, found⟩ := single key member
      have first := foldedAt_le found
      have name := plain key member
      unfold declaredWidth writtenWidth
      rw [columns, indices, List.map_id, List.length_map]
      simp only [List.map_cons, List.map_nil, List.sum_cons, List.sum_nil, List.head?_cons,
        Option.map_some, Option.getD_some, id_eq, List.length_singleton]
      omega
    · exact same.symm
  intro key member
  obtain ⟨name, index, columns, found⟩ := single key member
  have width := widths key member
  have plainName := plain key member
  have first := foldedAt_le found
  unfold declaredWidth writtenWidth at width
  rw [columns, indices, List.map_id, List.length_map] at width
  simp only [List.map_cons, List.map_nil, List.sum_cons, List.sum_nil, List.head?_cons,
    Option.map_some, Option.getD_some, id_eq, List.length_singleton] at width
  refine ⟨⟨name, columns, located_of_at found (by omega)⟩, ?_⟩
  have positions := @eq_of_sum_eq _ table.primaryKey (fun name => foldedAt table name)
    (exactAt table) early (by omega)
  intro other otherMember
  obtain ⟨otherIndex, otherFound⟩ := primary other otherMember
  exact located_of_at otherFound (positions other otherMember)

private theorem carriedKeys_of_related
    (planned : analyseCreateTable alphanumeric create = some table)
    (keyed : Keyed table) (related : RelatesRows alphanumeric create List.length table) :
    CarriedKeys alphanumeric create table := by
  obtain ⟨none, found, -⟩ := measured_related planned keyed related id
  have same := fun width => (measured_related planned keyed related width).2.2
  have located := keyIndices_ne_nil.mpr keyed
  have counts := counts_of_widths located (fun key member => by
    obtain ⟨⟨name, rest, index, columns, -, -⟩, -⟩ := found key member
    rw [columns, List.length_cons]
    omega) (fun size => same (fun _ => size))
  have single : ∀ key ∈ constraintKeys create.constraints, ∃ name index, key.columns = [name] ∧
      exactIndex table name = some index := by
    intro key member
    obtain ⟨⟨name, rest, index, columns, -, position⟩, -⟩ := found key member
    have one := (counts key member).1
    rw [columns, List.length_cons] at one
    have none : rest = [] := List.eq_nil_of_length_eq_zero (by omega)
    rw [none] at columns
    exact ⟨name, index, columns, position⟩
  by_cases nothing : constraintKeys create.constraints = []
  · rw [nothing] at single
    refine ⟨none, ?_, fun some => absurd nothing some⟩
    rw [nothing]
    exact fun key member => by cases member
  · obtain ⟨key, member⟩ := List.exists_mem_of_ne_nil _ nothing
    have all := List.filterMap_length_eq_length.mp (counts key member).2.1
    have each := located_of_widths
      (fun name there => Option.isSome_iff_exists.mp (all name there)) single
      (fun other there => (counts other there).2.2) (same id)
    refine ⟨none, ?_, fun _ => (each key member).2⟩
    intro other there
    obtain ⟨⟨-, -, -, -, referred, -⟩, -⟩ := found other there
    refine ⟨(each other there).1, referred, ?_⟩
    have parts : (parseTableNameRaw alphanumeric other.foreignTable).Sublist other.foreignTable := by
      unfold parseTableNameRaw unquoted
      exact List.filter_sublist.trans List.filter_sublist
    exact parts.eq_of_length (counts other there).2.2

end Measured

section Every

variable {alphanumeric : Alphanumeric} {create : CreateTable} {table : TablePlan}

private theorem related_of_carriedKeys
    (planned : analyseCreateTable alphanumeric create = some table)
    (carried : CarriedKeys alphanumeric create table) :
    RelatesRows alphanumeric create List.length table := by
  intro values stored
  apply (relatesRow_iff planned stored _).mpr
  unfold declaredKeys
  rw [carried.inline, List.nil_append, entries_carried carried.each carried.primary stored]
  exact ⟨_, rfl, List.Perm.refl _, rfl⟩

private theorem relates_iff (planned : analyseCreateTable alphanumeric create = some table) :
    RelatesRows alphanumeric create List.length table ↔
      (Keyed table → CarriedKeys alphanumeric create table) := by
  constructor
  · exact fun related keyed => carriedKeys_of_related planned keyed related
  · intro carried values stored
    exact related_of_carriedKeys planned (carried (keyed_of_stored stored)) values stored

private theorem relates_entries_iff
    (planned : analyseCreateTable alphanumeric create = some table) :
    RelatesRows alphanumeric create entryCount table ↔
      (Keyed table → CarriedKeys alphanumeric create table ∧ ParentsDiffer create) := by
  constructor
  · intro related keyed
    have written : RelatesRows alphanumeric create List.length table := by
      intro values stored
      obtain ⟨keys, declared, perm, -⟩ := (relatesRow_iff planned stored _).mp (related _ stored)
      exact (relatesRow_iff planned stored _).mpr ⟨keys, declared, perm, rfl⟩
    have carried := carriedKeys_of_related planned keyed written
    refine ⟨carried, ?_⟩
    have stored := measured_stored keyed (fun _ => 0)
    obtain ⟨keys, declared, perm, counts⟩ :=
      (relatesRow_iff planned stored _).mp (related _ stored)
    have nodup : keys.Nodup :=
      List.dedup_eq_self.mp ((List.dedup_sublist keys).eq_of_length counts)
    unfold declaredKeys at declared
    rw [carried.inline, List.nil_append] at declared
    have parents : keys = ((constraintKeys create.constraints).map DeclaredKey.foreignTable).map
        (fun parent => writtenKey ⟨table, measuredRow table (fun _ => 0)⟩ parent []) := by
      apply Option.some_injective Text |>.list_map
      rw [← mapM_eq_some_iff.mp declared, List.map_map, List.map_map]
      apply List.map_congr_left
      intro key member
      have some := carried.primary (List.ne_nil_of_mem member)
      obtain ⟨name, fkValue, read, same, -⟩ := (carried.each key member).entry some stored
      rw [columnText_measured] at read
      obtain ⟨index, -, rfl⟩ := Option.map_eq_some_iff.mp read
      exact same
    rw [parents] at nodup
    exact nodup.of_map _
  · intro carried values stored
    obtain ⟨each, differ⟩ := carried (keyed_of_stored stored)
    apply (relatesRow_iff planned stored _).mpr
    unfold declaredKeys
    rw [each.inline, List.nil_append, entries_carried each.each each.primary stored]
    refine ⟨_, rfl, List.Perm.refl _, ?_⟩
    unfold entryCount
    rw [List.dedup_eq_self.mpr (entries_nodup each.each each.primary stored differ)]

end Every

/-- The rows of a table are written with their relationships exactly if its foreign keys are
carried; and as many are reported as then stand there if moreover no two refer to one table. -/
theorem declared_keys_related_iff {alphanumeric : Alphanumeric} {create : CreateTable}
    {table : TablePlan} (planned : analyseCreateTable alphanumeric create = some table) :
    (RelatesRows alphanumeric create List.length table ↔
      (Keyed table → CarriedKeys alphanumeric create table)) ∧
    (RelatesRows alphanumeric create entryCount table ↔
      (Keyed table → CarriedKeys alphanumeric create table ∧ ParentsDiffer create)) :=
  ⟨relates_iff planned, relates_entries_iff planned⟩

def constraintCreate : CreateTable where
  name := "orders".toList
  columns := [⟨"id".toList, "INT".toList, [.unique true]⟩, ⟨"user_id".toList, "INT".toList, []⟩]
  constraints := [.foreignKey ["user_id".toList] "users".toList ["id".toList]]

def inlineCreate : CreateTable where
  name := "orders".toList
  columns := [⟨"id".toList, "INT".toList, [.unique true]⟩,
    ⟨"user_id".toList, "INT".toList, [.foreignKey "users".toList ["id".toList]]⟩]
  constraints := []

def ordersPlan (foreignKeys : List ForeignKeyPlan) : TablePlan where
  name := "orders".toList
  columns := [⟨"id".toList, "INT".toList, true⟩, ⟨"user_id".toList, "INT".toList, false⟩]
  primaryKey := ["id".toList]
  foreignKeys := foreignKeys
  ttlColumn := none

theorem constraint_is_related : RelatesRows asciiAlphanumeric constraintCreate entryCount
    (ordersPlan [⟨"user_id".toList, "users".toList, "id".toList⟩]) := by
  apply (declared_keys_related_iff (by decide +kernel)).2.mpr
  intro keyed
  refine ⟨⟨rfl, ?_, ?_⟩, List.nodup_singleton _⟩
  · intro key member
    rw [List.mem_singleton.mp member]
    exact ⟨⟨"user_id".toList, rfl, 1, by decide +kernel, by decide +kernel⟩,
      List.cons_ne_nil _ _, by decide +kernel⟩
  · intro _ name member
    rw [List.mem_singleton.mp member]
    exact ⟨0, by decide +kernel, by decide +kernel⟩

theorem inline_key_is_not_related :
    ¬ RelatesRows asciiAlphanumeric inlineCreate entryCount (ordersPlan []) := by
  intro related
  have planned : analyseCreateTable asciiAlphanumeric inlineCreate = some (ordersPlan []) := by
    decide +kernel
  have carried := (relates_entries_iff planned).mp related ⟨"id".toList, by decide +kernel⟩
  have none := carried.1.inline
  revert none
  decide +kernel

end Import

end TricPlus
