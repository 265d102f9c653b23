import TricPlus.Lib.Answers
import TricPlus.SqlExport

/-!
Schema entries as the analyser renders them and as the export reads them.

Nothing is escaped, and the mark of the primary key is looked for in all parts of a line.  So an
entry is read back exactly if names and types have no colons and no line ends, what stands behind
them breaks into blank lines only, and no other part looks like the mark.
-/

namespace TricPlus

open Answers
open Separated

namespace SqlExport

open Analyser

/-! ### What survives -/

def columnMark : Dialect → Text
  | .mysql => [backtick]
  | .postgres => "\"".toList
  | _ => []

def tableMark : Dialect → Text
  | .mysql => [backtick]
  | _ => []

/-- The lines of the CREATE TABLE of a plan: its columns with their types, and its primary key if
there is one. -/
def plannedLines (uppercase : Uppercase) (dialect : Dialect) (table : TablePlan) : List Text :=
  table.columns.map (fun column =>
    "    ".toList ++ (columnMark dialect ++ column.name ++ columnMark dialect) ++ " ".toList ++
      mapTypeToDialect uppercase column.dataType dialect) ++
  match table.primaryKey with
  | [] => []
  | first :: others =>
      ["    PRIMARY KEY (".toList ++
        ", ".toList.intercalate ((first :: others).map (fun name =>
          columnMark dialect ++ name ++ columnMark dialect)) ++ ")".toList]

def plannedCreateTable (uppercase : Uppercase) (dialect : Dialect) (table : TablePlan) : Text :=
  "CREATE TABLE ".toList ++ (tableMark dialect ++ table.name ++ tableMark dialect) ++
    " (\n".toList ++ ",\n".toList.intercalate (plannedLines uppercase dialect table) ++
    "\n);".toList

/-- The columns come back in order with their types and marks, and CREATE TABLE names the same
columns and the same primary key. -/
structure SchemaSurvives (table : TablePlan) : Prop where
  columns : parseSchemaColumns (renderSchemaEntry table) =
    table.columns.map (fun column => ⟨column.dataType, column.isPrimaryKey⟩)
  names : (createColumns (renderSchemaEntry table)).map Prod.fst =
    table.columns.map ColumnPlan.name
  primaryKey : createPkColumns (renderSchemaEntry table) = table.primaryKey
  create : ∀ uppercase dialect,
    buildCreateTable uppercase table.name (renderSchemaEntry table) dialect =
      plannedCreateTable uppercase dialect table

def markers (table : TablePlan) (column : ColumnPlan) : Text :=
  (if column.isPrimaryKey then ":pk".toList else []) ++
    ((table.foreignKeys.find? (fun fk => fk.column = column.name)).elim [] (fun fk =>
      ":fk=".toList ++ fk.referencesTable ++ ".".toList ++ fk.referencesColumn)) ++
    (if table.ttlColumn = some column.name then ":ttl".toList else [])

def markerLine (table : TablePlan) (column : ColumnPlan) : Text :=
  ((markers table column).splitOn '\n').headD []

/-- The line of a column can be read back. -/
structure Legible (table : TablePlan) (column : ColumnPlan) : Prop where
  name : ':' ∉ column.name ∧ '\n' ∉ column.name
  dataType : ':' ∉ column.dataType ∧ '\n' ∉ column.dataType
  ending : markers table column = [] → column.dataType.getLast? ≠ some '\r'
  behind : ∀ line ∈ ((markers table column).splitOn '\n').tail, line = [] ∨ line = ['\r']
  unmarked : column.isPrimaryKey = false → column.name ≠ "pk".toList ∧
    column.dataType ≠ "pk".toList ∧
    "pk".toList ∉ (Lines.stripReturn '\r' (markerLine table column)).splitOn ':'

def keyColumns (table : TablePlan) : List Text :=
  (table.columns.filter ColumnPlan.isPrimaryKey).map ColumnPlan.name

section Lines

variable {table : TablePlan} {column : ColumnPlan}

private theorem renderColumn_eq (table : TablePlan) (column : ColumnPlan) :
    renderColumn table column =
      (column.name ++ ':' :: (column.dataType ++ markers table column)) ++ ['\n'] := by
  have colon : ":".toList = [':'] := rfl
  have newline : "\n".toList = ['\n'] := rfl
  unfold renderColumn markers
  rw [colon, newline]
  generalize table.foreignKeys.find? (fun fk => fk.column = column.name) = found
  cases found <;> by_cases pk : column.isPrimaryKey = true <;>
    by_cases ttl : table.ttlColumn = some column.name <;>
    simp only [pk, ttl, if_true, if_false, Option.elim, List.append_assoc, List.cons_append,
      List.nil_append, List.append_nil, Bool.false_eq_true]

def lineParts (text : Text) : List (List Text) :=
  (((text.splitOn '\n').map (Lines.stripReturn '\r')).filter (fun line => line ≠ [])).map
    (List.splitOn ':')

private theorem schemaParts_append (front back : Text) :
    schemaParts (front ++ '\n' :: back) = lineParts front ++ schemaParts back := by
  unfold schemaParts lineParts
  rw [Lines.lines_append, List.filter_append, List.map_append]

private theorem schemaParts_entry (table : TablePlan) (columns : List ColumnPlan) :
    schemaParts (columns.flatMap (renderColumn table)) = columns.flatMap (fun column =>
      lineParts (column.name ++ ':' :: (column.dataType ++ markers table column))) := by
  induction columns with
  | nil => rfl
  | cons column columns ih =>
      rw [List.flatMap_cons, List.flatMap_cons, renderColumn_eq, List.append_assoc,
        List.singleton_append, schemaParts_append, ih]

private theorem markers_begin (table : TablePlan) (column : ColumnPlan) :
    markers table column = [] ∨ ∃ rest, markers table column = ':' :: rest := by
  unfold markers
  generalize table.foreignKeys.find? (fun fk => fk.column = column.name) = found
  cases found <;> by_cases pk : column.isPrimaryKey = true <;>
    by_cases ttl : table.ttlColumn = some column.name <;>
    simp [pk, ttl]

private theorem markers_pk (marked : column.isPrimaryKey = true) :
    ∃ rest, markers table column = ":pk".toList ++ rest ∧
      (rest = [] ∨ ∃ others, rest = ':' :: others) := by
  unfold markers
  rw [if_pos marked, List.append_assoc]
  refine ⟨_, rfl, ?_⟩
  generalize table.foreignKeys.find? (fun fk => fk.column = column.name) = found
  cases found <;> by_cases ttl : table.ttlColumn = some column.name <;>
    simp [ttl]

private theorem stripReturn_ne_nil {line : Text} (colon : ':' ∈ line) :
    Lines.stripReturn '\r' line ≠ [] := by
  intro nothing
  rcases Lines.stripReturn_cases '\r' line with same | ends
  · rw [nothing] at same
    rw [← same] at colon
    cases colon
  · rw [nothing] at ends
    rw [ends] at colon
    rcases List.mem_singleton.mp colon

private theorem lineParts_ne_nil {text : Text} (colon : ':' ∈ text) : lineParts text ≠ [] := by
  obtain ⟨piece, there, inside⟩ := exists_piece colon (by decide : ':' ≠ '\n')
  unfold lineParts
  apply List.ne_nil_of_mem
  exact List.mem_map_of_mem (List.mem_filter.mpr
    ⟨List.mem_map_of_mem there, decide_eq_true (stripReturn_ne_nil inside)⟩)

private theorem lineParts_plain {front : Text} (plain : '\n' ∉ front) (colon : ':' ∈ front)
    (back : Text) :
    lineParts (front ++ back) =
      (Lines.stripReturn '\r' (front ++ (back.splitOn '\n').headD [])).splitOn ':' ::
        ((((back.splitOn '\n').tail).map (Lines.stripReturn '\r')).filter
          (fun line => line ≠ [])).map (List.splitOn ':') := by
  have kept : Lines.stripReturn '\r' (front ++ (back.splitOn '\n').headD []) ≠ [] :=
    stripReturn_ne_nil (List.mem_append_left _ colon)
  unfold lineParts
  rw [splitOn_append_plain plain, List.map_cons, List.filter_cons_of_pos (by
    rw [decide_eq_true_eq]
    exact kept), List.map_cons]

private theorem behind_iff (lines : List Text) :
    ((lines.map (Lines.stripReturn '\r')).filter (fun line => line ≠ [])).map (List.splitOn ':') =
        [] ↔ ∀ line ∈ lines, line = [] ∨ line = ['\r'] := by
  rw [List.map_eq_nil_iff, List.filter_eq_nil_iff, List.forall_mem_map]
  apply forall₂_congr
  intro line member
  rw [decide_eq_true_eq, not_not]
  constructor
  · intro nothing
    rcases Lines.stripReturn_cases '\r' line with same | ends
    · exact Or.inl (same.symm.trans nothing)
    · rw [nothing] at ends
      exact Or.inr ends
  · rintro (rfl | rfl) <;> rfl

private theorem line_parts {name dataType line : Text} (namePlain : ':' ∉ name)
    (typePlain : ':' ∉ dataType)
    (shape : (line = [] ∧ dataType.getLast? ≠ some '\r') ∨ ∃ rest, line = ':' :: rest) :
    (Lines.stripReturn '\r' (name ++ ':' :: (dataType ++ line))).splitOn ':' =
      name :: dataType :: ((Lines.stripReturn '\r' line).splitOn ':').tail := by
  rcases shape with ⟨rfl, ending⟩ | ⟨rest, rfl⟩
  · have whole : Lines.stripReturn '\r' (name ++ ':' :: (dataType ++ [])) =
        name ++ ':' :: dataType := by
      rw [List.append_nil, Lines.stripReturn_append _ _ (List.cons_ne_nil _ _)]
      congr 1
      cases dataType with
      | nil => rfl
      | cons first others =>
          apply if_neg
          rw [List.getLast?_cons_cons]
          exact ending
    rw [whole, List.splitOn_append_cons_self_of_not_mem namePlain,
      List.splitOn_eq_singleton typePlain]
    rfl
  · have some : dataType ++ ':' :: rest ≠ [] := by simp
    obtain ⟨others, stripped, -⟩ := Lines.stripReturn_cons (by decide : ':' ≠ '\r') rest
    rw [Lines.stripReturn_append _ _ (List.cons_ne_nil _ _),
      ← List.singleton_append, Lines.stripReturn_append _ _ some,
      Lines.stripReturn_append _ _ (List.cons_ne_nil _ _), stripped, List.singleton_append,
      List.splitOn_append_cons_self_of_not_mem namePlain,
      List.splitOn_append_cons_self_of_not_mem typePlain]
    rfl

end Lines

/-! ### Columns -/

def partFields (parts : List Text) : Text × Text × Bool :=
  (parts.headD "unknown".toList, partType parts, partsPk parts)

def columnFields (column : ColumnPlan) : Text × Text × Bool :=
  (column.name, column.dataType, column.isPrimaryKey)

section Columns

variable {table : TablePlan} {column : ColumnPlan}

def columnLine (table : TablePlan) (column : ColumnPlan) : Text :=
  column.name ++ ':' :: (column.dataType ++ markers table column)

private theorem partsPk_iff (parts : List Text) : partsPk parts = true ↔ "pk".toList ∈ parts :=
  List.contains_iff_mem

private theorem plain_of_fields (read : (lineParts (columnLine table column)).map partFields =
    [columnFields column]) :
    (':' ∉ column.name ∧ '\n' ∉ column.name) ∧ ':' ∉ column.dataType ∧ '\n' ∉ column.dataType := by
  obtain ⟨parts, only, fields⟩ := List.map_eq_singleton_iff.mp read
  have name := congrArg Prod.fst fields
  have dataType := congrArg (fun fields => fields.2.1) fields
  change parts.headD _ = column.name at name
  change partType parts = column.dataType at dataType
  have namePlain : ':' ∉ column.name ∧ '\n' ∉ column.name := by
    have member : parts ∈ lineParts (columnLine table column) := by
      rw [only]
      exact List.mem_singleton_self parts
    obtain ⟨line, there, rfl⟩ := List.mem_map.mp member
    obtain ⟨piece, found, rfl⟩ := List.mem_map.mp (List.mem_filter.mp there).1
    have first : column.name ∈ (Lines.stripReturn '\r' piece).splitOn ':' := by
      rw [← name]
      cases cut : (Lines.stripReturn '\r' piece).splitOn ':' with
      | nil => exact absurd cut (List.splitOn_ne_nil _ _)
      | cons head others => exact List.mem_cons_self ..
    refine ⟨not_mem_piece first, ?_⟩
    intro inside
    exact not_mem_piece found (Lines.mem_of_mem_stripReturn (mem_of_mem_piece first inside))
  refine ⟨namePlain, ?_⟩
  have split : columnLine table column =
      (column.name ++ [':']) ++ (column.dataType ++ markers table column) := by
    unfold columnLine
    rw [List.append_assoc, List.singleton_append]
  have single : '\n' ∉ column.name ++ [':'] := by
    intro inside
    rcases List.mem_append.mp inside with named | colon
    · exact namePlain.2 named
    · cases List.mem_singleton.mp colon
  rw [split, lineParts_plain single (List.mem_append_right _ (List.mem_singleton_self _))] at only
  obtain ⟨others, stripped, inside⟩ := Lines.stripReturn_cons (by decide : ':' ≠ '\r')
    (((column.dataType ++ markers table column).splitOn '\n').headD [])
  have here := (List.cons.inj only).1
  rw [List.append_assoc, List.singleton_append,
    Lines.stripReturn_append _ _ (List.cons_ne_nil _ _), stripped,
    List.splitOn_append_cons_self_of_not_mem namePlain.1] at here
  have first : column.dataType ∈ others.splitOn ':' := by
    rw [← dataType, ← here]
    cases cut : others.splitOn ':' with
    | nil => exact absurd cut (List.splitOn_ne_nil _ _)
    | cons head rest => exact List.mem_cons_self ..
  refine ⟨not_mem_piece first, ?_⟩
  intro member
  have there := inside _ (mem_of_mem_piece first member)
  cases cut : (column.dataType ++ markers table column).splitOn '\n' with
  | nil => exact absurd cut (List.splitOn_ne_nil _ _)
  | cons head rest =>
      rw [cut] at there
      exact not_mem_piece (cut ▸ List.mem_cons_self .. :
        head ∈ (column.dataType ++ markers table column).splitOn '\n') there

private theorem markerLine_begin (table : TablePlan) (column : ColumnPlan) :
    (markers table column = [] ∧ markerLine table column = []) ∨
      ∃ rest, markerLine table column = ':' :: rest := by
  unfold markerLine
  rcases markers_begin table column with none | ⟨rest, some⟩
  · rw [none]
    exact Or.inl ⟨rfl, rfl⟩
  · have single : '\n' ∉ [':'] := by decide
    rw [some, ← List.singleton_append, splitOn_append_plain single]
    exact Or.inr ⟨_, rfl⟩

private theorem pk_mem_tail_iff (table : TablePlan) (column : ColumnPlan) :
    "pk".toList ∈ ((Lines.stripReturn '\r' (markerLine table column)).splitOn ':').tail ↔
      "pk".toList ∈ (Lines.stripReturn '\r' (markerLine table column)).splitOn ':' := by
  rcases markerLine_begin table column with ⟨-, line⟩ | ⟨rest, line⟩
  · rw [line]
    decide
  · obtain ⟨others, stripped, -⟩ := Lines.stripReturn_cons (by decide : ':' ≠ '\r') rest
    have cut : (':' :: others).splitOn ':' = [] :: others.splitOn ':' :=
      List.splitOn_append_cons_self [] others
    rw [line, stripped, cut, List.tail_cons, List.mem_cons]
    exact ⟨Or.inr, fun either => either.resolve_left (by decide)⟩

private theorem pk_mem_markerLine (marked : column.isPrimaryKey = true) :
    "pk".toList ∈ ((Lines.stripReturn '\r' (markerLine table column)).splitOn ':').tail := by
  obtain ⟨rest, same, begins⟩ := @markers_pk table column marked
  have single : '\n' ∉ ":pk".toList := by decide
  have plain : ':' ∉ "pk".toList := by decide
  unfold markerLine
  rw [same, splitOn_append_plain single]
  rcases begins with rfl | ⟨others, rfl⟩
  · decide
  · have cut : (':' :: others).splitOn '\n' =
        (':' :: (others.splitOn '\n').headD []) :: (others.splitOn '\n').tail :=
      splitOn_append_plain (by decide : '\n' ∉ [':']) others
    obtain ⟨left, stripped, -⟩ := Lines.stripReturn_cons (by decide : ':' ≠ '\r')
      ((others.splitOn '\n').headD [])
    rw [cut]
    change _ ∈ ((Lines.stripReturn '\r'
      (":pk".toList ++ ':' :: (others.splitOn '\n').headD [])).splitOn ':').tail
    rw [Lines.stripReturn_append _ _ (List.cons_ne_nil _ _), stripped]
    change _ ∈ (([] ++ ':' :: ("pk".toList ++ ':' :: left)).splitOn ':').tail
    rw [List.splitOn_append_cons_self, List.splitOn_append_cons_self_of_not_mem plain]
    exact List.mem_cons_self ..

private theorem legible_iff : (lineParts (columnLine table column)).map partFields =
    [columnFields column] ↔ Legible table column := by
  have main : (':' ∉ column.name ∧ '\n' ∉ column.name) →
      (':' ∉ column.dataType ∧ '\n' ∉ column.dataType) →
      lineParts (columnLine table column) =
        (Lines.stripReturn '\r' (column.name ++ ':' :: (column.dataType ++
          markerLine table column))).splitOn ':' ::
        (((((markers table column).splitOn '\n').tail).map (Lines.stripReturn '\r')).filter
          (fun line => line ≠ [])).map (List.splitOn ':') := by
    intro name dataType
    have plain : '\n' ∉ column.name ++ ':' :: column.dataType := by
      intro inside
      rcases List.mem_append.mp inside with named | typed
      · exact name.2 named
      · rcases List.mem_cons.mp typed with same | typed
        · cases same
        · exact dataType.2 typed
    have split : columnLine table column =
        (column.name ++ ':' :: column.dataType) ++ markers table column := by
      unfold columnLine
      rw [List.append_assoc, List.cons_append]
    rw [split, lineParts_plain plain (List.mem_append_right _ (List.mem_cons_self ..)),
      List.append_assoc, List.cons_append]
    rfl
  constructor
  · intro read
    obtain ⟨name, dataType⟩ := plain_of_fields read
    rw [main name dataType, List.map_cons] at read
    obtain ⟨here, behind⟩ := List.cons.inj read
    have ending : markers table column = [] → column.dataType.getLast? ≠ some '\r' := by
      intro none ends
      obtain ⟨front, same⟩ := List.getLast?_eq_some_iff.mp ends
      have line : markerLine table column = [] := by
        unfold markerLine
        rw [none]
        rfl
      have types := congrArg (fun fields => fields.2.1) here
      change partType _ = column.dataType at types
      have frontPlain : ':' ∉ front := by
        intro member
        apply dataType.1
        rw [same]
        exact List.mem_append_left _ member
      have stripped : Lines.stripReturn '\r' (column.name ++ ':' :: (column.dataType ++ [])) =
          column.name ++ ':' :: front := by
        rw [List.append_nil, same, ← List.cons_append, ← List.append_assoc]
        unfold Lines.stripReturn
        rw [List.getLast?_concat, if_pos rfl, List.dropLast_concat]
      rw [line, stripped, List.splitOn_append_cons_self_of_not_mem name.1,
        List.splitOn_eq_singleton frontPlain] at types
      have lengths := congrArg List.length (types.trans same)
      change front.length = (front ++ ['\r']).length at lengths
      rw [List.length_append, List.length_singleton] at lengths
      omega
    have shape : (markerLine table column = [] ∧ column.dataType.getLast? ≠ some '\r') ∨
        ∃ rest, markerLine table column = ':' :: rest := by
      rcases markerLine_begin table column with ⟨none, line⟩ | begins
      · exact Or.inl ⟨line, ending none⟩
      · exact Or.inr begins
    refine ⟨name, dataType, ending, (behind_iff _).mp (List.map_eq_nil_iff.mp behind), ?_⟩
    intro unmarked
    rw [line_parts name.1 dataType.1 shape] at here
    have pk := congrArg (fun fields => fields.2.2) here
    change partsPk _ = column.isPrimaryKey at pk
    rw [unmarked] at pk
    have absent := mt (partsPk_iff _).mpr (by rw [pk]; exact Bool.false_ne_true)
    rw [List.mem_cons, List.mem_cons, not_or, not_or] at absent
    exact ⟨absent.1 ∘ Eq.symm, absent.2.1 ∘ Eq.symm,
      mt (pk_mem_tail_iff table column).mpr absent.2.2⟩
  · intro legible
    have shape : (markerLine table column = [] ∧ column.dataType.getLast? ≠ some '\r') ∨
        ∃ rest, markerLine table column = ':' :: rest := by
      rcases markerLine_begin table column with ⟨none, line⟩ | begins
      · exact Or.inl ⟨line, legible.ending none⟩
      · exact Or.inr begins
    rw [main legible.name legible.dataType, (behind_iff _).mpr legible.behind,
      line_parts legible.name.1 legible.dataType.1 shape, List.map_singleton]
    refine congrArg (fun pk => [(column.name, column.dataType, pk)]) ?_
    cases marked : column.isPrimaryKey with
    | true =>
        apply (partsPk_iff _).mpr
        exact List.mem_cons_of_mem _ (List.mem_cons_of_mem _ (pk_mem_markerLine marked))
    | false =>
        obtain ⟨name, dataType, line⟩ := legible.unmarked marked
        rw [← Bool.not_eq_true, partsPk_iff, List.mem_cons, List.mem_cons, not_or, not_or]
        exact ⟨name ∘ Eq.symm, dataType ∘ Eq.symm, mt (pk_mem_tail_iff table column).mp line⟩

end Columns

section Every

variable {table : TablePlan}

private theorem fields_survive_iff :
    (parseSchemaColumns (renderSchemaEntry table) =
        table.columns.map (fun column => ⟨column.dataType, column.isPrimaryKey⟩) ∧
      (createColumns (renderSchemaEntry table)).map Prod.fst =
        table.columns.map ColumnPlan.name) ↔
      (schemaParts (renderSchemaEntry table)).map partFields = table.columns.map columnFields := by
  generalize schemaEntry : schemaParts (renderSchemaEntry table) = parts
  unfold parseSchemaColumns createColumns
  rw [schemaEntry, List.map_map]
  constructor
  · rintro ⟨columns, names⟩
    apply List.ext_getElem?
    intro index
    have column := congrArg (fun list => list[index]?) columns
    have name := congrArg (fun list => list[index]?) names
    simp only [List.getElem?_map] at column name ⊢
    cases here : parts[index]? with
    | none =>
        cases there : table.columns[index]? with
        | none => rfl
        | some other =>
            rw [here, there] at name
            cases name
    | some found =>
        cases there : table.columns[index]? with
        | none =>
            rw [here, there] at name
            cases name
        | some other =>
            rw [here, there] at column name
            have fields := Option.some_inj.mp column
            have dataType := congrArg SchemaColumn.dataType fields
            have marked := congrArg SchemaColumn.isPk fields
            refine congrArg some (Prod.ext (Option.some_inj.mp name) (Prod.ext dataType marked))
  · intro same
    have columns := congrArg (List.map (fun fields : Text × Text × Bool =>
      SchemaColumn.mk fields.2.1 fields.2.2)) same
    have names := congrArg (List.map Prod.fst) same
    rw [List.map_map, List.map_map] at columns names
    exact ⟨columns, names⟩

private theorem fields_legible_iff :
    (schemaParts (renderSchemaEntry table)).map partFields = table.columns.map columnFields ↔
      ∀ column ∈ table.columns, Legible table column := by
  unfold renderSchemaEntry
  rw [schemaParts_entry, List.map_flatMap, flatMap_eq_map_iff]
  · exact forall₂_congr (fun column member => legible_iff)
  · intro column member nothing
    exact lineParts_ne_nil (List.mem_append_right _ (List.mem_cons_self ..))
      (List.map_eq_nil_iff.mp nothing)

private theorem createPkColumns_eq
    (same : (schemaParts (renderSchemaEntry table)).map partFields =
      table.columns.map columnFields) :
    createPkColumns (renderSchemaEntry table) = keyColumns table := by
  have marked := congrArg (fun fields => (fields.filter (fun field => field.2.2)).map Prod.fst) same
  simp only [List.filter_map, List.map_map] at marked
  exact marked

end Every

private theorem quoteColumnName_eq (name : Text) (dialect : Dialect) :
    quoteColumnName name dialect = columnMark dialect ++ name ++ columnMark dialect := by
  cases dialect with
  | mysql => rfl
  | postgres => rfl
  | sqlite => exact (List.append_nil name).symm
  | generic => exact (List.append_nil name).symm

private theorem quoteTableName_eq (name : Text) (dialect : Dialect) :
    quoteTableName name dialect = tableMark dialect ++ name ++ tableMark dialect := by
  cases dialect with
  | mysql => rfl
  | postgres => exact (List.append_nil name).symm
  | sqlite => exact (List.append_nil name).symm
  | generic => exact (List.append_nil name).symm

private theorem createTableText_eq (uppercase : Uppercase) (dialect : Dialect) (table : TablePlan) :
    createTableText uppercase table.name dialect
        (table.columns.map (fun column => (column.name, column.dataType))) table.primaryKey =
      plannedCreateTable uppercase dialect table := by
  have definitions : (table.columns.map (fun column => (column.name, column.dataType))).map
        (columnDefinition uppercase dialect) ++ primaryKeyDefinition dialect table.primaryKey =
      plannedLines uppercase dialect table := by
    unfold plannedLines primaryKeyDefinition columnDefinition
    simp only [quoteColumnName_eq, List.map_map]
    cases table.primaryKey with
    | nil => rfl
    | cons first others => rfl
  unfold createTableText plannedCreateTable
  rw [definitions, quoteTableName_eq]

/-- A schema entry survives exactly if each of its lines is legible and the primary key is in the
order of the columns. -/
theorem schema_survives_iff (table : TablePlan) :
    SchemaSurvives table ↔
      (∀ column ∈ table.columns, Legible table column) ∧ table.primaryKey = keyColumns table := by
  constructor
  · intro survives
    have same := fields_survive_iff.mp ⟨survives.columns, survives.names⟩
    exact ⟨fields_legible_iff.mp same,
      survives.primaryKey.symm.trans (createPkColumns_eq same)⟩
  · rintro ⟨legible, ordered⟩
    have same := fields_legible_iff.mpr legible
    obtain ⟨columns, names⟩ := fields_survive_iff.mpr same
    have primaryKey := (createPkColumns_eq same).trans ordered.symm
    have typed : createColumns (renderSchemaEntry table) =
        table.columns.map (fun column => (column.name, column.dataType)) := by
      have types := congrArg (List.map (fun fields : Text × Text × Bool =>
        (fields.1, fields.2.1))) same
      rw [List.map_map, List.map_map] at types
      exact types
    refine ⟨columns, names, primaryKey, ?_⟩
    intro uppercase dialect
    unfold buildCreateTable
    rw [typed, primaryKey, createTableText_eq]

def markedTable : TablePlan where
  name := "t".toList
  columns := [⟨"id".toList, "INT".toList, true⟩, ⟨"pk".toList, "TEXT".toList, false⟩]
  primaryKey := ["id".toList]
  foreignKeys := []
  ttlColumn := none

theorem marked_table_changes : ¬ SchemaSurvives markedTable := by
  intro survives
  have primaryKey := survives.primaryKey
  revert primaryKey
  decide +kernel

end SqlExport

end TricPlus
