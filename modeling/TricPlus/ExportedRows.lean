import TricPlus.KeyPlans
import TricPlus.SchemaText

/-!
Rows as an import stores them and as the SQL export puts them together again.

The columns of the key all get the whole text of the key, and the others one line of the value
each.  So a row comes back if its key has one part, and no other text has a newline.
-/

namespace TricPlus

open Separated

namespace SqlExport

open Analyser SqlDump Import

/-! ### What comes back -/

/-- The texts of a row, put together from its key and value by the schema entry of the table. -/
def exportedTexts (tableName schema key value : Text) : List Text :=
  (rowValues (parseSchemaColumns schema) (key.drop (tableName.length + 1)) value).map Prod.snd

def rowTexts (row : ImportedRow) : List Text := row.values.map parseValue

/-- The row comes back from the key and the value that are stored for it. -/
def RowSurvives (row : ImportedRow) : Prop :=
  exportedTexts row.table.name (renderSchemaEntry row.table) (rowKey row.table row.keyParts)
    (rowValue row.table row.values) = rowTexts row

def marks (table : TablePlan) : List Bool :=
  (parseSchemaColumns (renderSchemaEntry table)).map SchemaColumn.isPk

/-- The columns that get a text: those that are marked, and as many others as there are lines. -/
def places : List Bool → Nat → List Bool
  | [], _ => []
  | true :: marks, lines => true :: places marks lines
  | false :: marks, 0 => places marks 0
  | false :: marks, lines + 1 => false :: places marks lines

/-- Each text has a place; where this is marked it is the text of the key, and elsewhere the next
of the lines. -/
structure Placed (marks : List Bool) (pkValue : Text) (lines texts : List Text) : Prop where
  width : (places marks lines.length).length = texts.length
  keyed : ∀ pair ∈ (places marks lines.length).zip texts, pair.1 = true → pair.2 = pkValue
  inOrder : (((places marks lines.length).zip texts).filter (fun pair => !pair.1)).map Prod.snd <+:
    lines

def lineTexts (row : ImportedRow) : List Text :=
  ((row.table.columns.zip row.values).filter (fun pair => !pair.1.isPrimaryKey)).map
    (fun pair => parseValue pair.2)

/-- The schema entry tells which columns are of the primary key. -/
def ReadBack (table : TablePlan) : Prop :=
  marks table = table.columns.map ColumnPlan.isPrimaryKey

section Places

variable {pkValue line : Text} {columns : List SchemaColumn} {marks : List Bool}
  {lines texts : List Text}

private theorem placed_nil_iff : Placed [] pkValue lines texts ↔ texts = [] := by
  constructor
  · exact fun placed => List.eq_nil_of_length_eq_zero placed.width.symm
  · rintro rfl
    exact ⟨rfl, fun pair member => (List.not_mem_nil member).elim, List.nil_prefix⟩

private theorem placed_marked_iff : Placed (true :: marks) pkValue lines texts ↔
    ∃ others, texts = pkValue :: others ∧ Placed marks pkValue lines others := by
  constructor
  · rintro ⟨width, keyed, inOrder⟩
    cases texts with
    | nil => cases width
    | cons text texts =>
        obtain ⟨first, rest⟩ := List.forall_mem_cons.mp keyed
        exact ⟨texts, congrArg (· :: texts) (first rfl), Nat.succ.inj width, rest, inOrder⟩
  · rintro ⟨others, rfl, width, keyed, inOrder⟩
    exact ⟨congrArg Nat.succ width, List.forall_mem_cons.mpr ⟨fun _ => rfl, keyed⟩, inOrder⟩

private theorem placed_line_iff : Placed (false :: marks) pkValue (line :: lines) texts ↔
    ∃ others, texts = line :: others ∧ Placed marks pkValue lines others := by
  constructor
  · rintro ⟨width, keyed, inOrder⟩
    cases texts with
    | nil => cases width
    | cons text texts =>
        obtain ⟨same, behind⟩ := List.cons_prefix_cons.mp inOrder
        exact ⟨texts, congrArg (· :: texts) same, Nat.succ.inj width,
          (List.forall_mem_cons.mp keyed).2, behind⟩
  · rintro ⟨others, rfl, width, keyed, inOrder⟩
    exact ⟨congrArg Nat.succ width,
      List.forall_mem_cons.mpr ⟨fun wrong => (Bool.false_ne_true wrong).elim, keyed⟩,
      List.cons_prefix_cons.mpr ⟨rfl, inOrder⟩⟩

private theorem placed_none_iff : Placed (false :: marks) pkValue [] texts ↔
    Placed marks pkValue [] texts :=
  ⟨fun placed => ⟨placed.width, placed.keyed, placed.inOrder⟩,
    fun placed => ⟨placed.width, placed.keyed, placed.inOrder⟩⟩

private theorem cons_eq_iff {others : List Text} {rest : List Text → Prop}
    (same : ∀ {texts}, others = texts ↔ rest texts) :
    line :: others = texts ↔ ∃ behind, texts = line :: behind ∧ rest behind := by
  constructor
  · rintro rfl
    exact ⟨others, rfl, same.mp rfl⟩
  · rintro ⟨behind, rfl, placed⟩
    rw [same.mpr placed]

theorem placed_iff : (placeValues pkValue columns lines).map Prod.snd = texts ↔
    Placed (columns.map SchemaColumn.isPk) pkValue lines texts := by
  induction columns generalizing lines texts with
  | nil => exact eq_comm.trans placed_nil_iff.symm
  | cons column columns ih =>
      rw [List.map_cons]
      cases marked : column.isPk with
      | true =>
          rw [placed_marked_iff]
          unfold placeValues
          rw [if_pos marked]
          exact cons_eq_iff ih
      | false =>
          have other : ¬ column.isPk = true := by
            rw [marked]
            exact Bool.false_ne_true
          unfold placeValues
          rw [if_neg other]
          cases lines with
          | nil =>
              rw [placed_none_iff]
              exact ih
          | cons line lines =>
              rw [placed_line_iff]
              exact cons_eq_iff ih

theorem places_enough {count : Nat} (enough : (marks.filter (fun mark => !mark)).length ≤ count) :
    places marks count = marks := by
  induction marks generalizing count with
  | nil => rfl
  | cons mark marks ih =>
      cases mark with
      | true => exact congrArg (true :: ·) (ih enough)
      | false =>
          cases count with
          | zero => cases enough
          | succ count => exact congrArg (false :: ·) (ih (Nat.le_of_succ_le_succ enough))

end Places

section Lines

variable {texts : List Text}

private theorem length_le_pieces (texts : List Text) : texts.length ≤
    (pieces '\n' texts).length := by
  induction texts with
  | nil => exact Nat.le_refl 0
  | cons text texts ih =>
      have some := List.length_pos_iff.mpr (List.splitOn_ne_nil '\n' text)
      rw [pieces_cons, List.length_append, List.length_cons]
      omega

private theorem prefix_pieces_iff : texts <+: pieces '\n' texts ↔ ∀ text ∈ texts, '\n' ∉ text := by
  induction texts with
  | nil => exact iff_of_true List.nil_prefix (fun text member => by cases member)
  | cons text texts ih =>
      rw [List.forall_mem_cons, ← ih]
      constructor
      · intro begins
        have plain : '\n' ∉ text := by
          rw [pieces_cons] at begins
          cases cut : text.splitOn '\n' with
          | nil => exact absurd cut (List.splitOn_ne_nil _ _)
          | cons first others =>
              rw [cut] at begins
              rw [(List.cons_prefix_cons.mp begins).1]
              exact not_mem_piece (cut ▸ List.mem_cons_self .. : first ∈ text.splitOn '\n')
        rw [pieces_cons_plain plain] at begins
        exact ⟨plain, (List.cons_prefix_cons.mp begins).2⟩
      · rintro ⟨plain, begins⟩
        rw [pieces_cons_plain plain]
        exact List.cons_prefix_cons.mpr ⟨rfl, begins⟩

end Lines

section Rows

variable {alphanumeric : Alphanumeric} {create : CreateTable} {table : TablePlan}
  {values : List Expr} {row : ImportedRow}

private theorem primaryKey_planned (planned : analyseCreateTable alphanumeric create = some table)
    {column : ColumnPlan} (member : column ∈ table.columns) :
    column.isPrimaryKey = true ↔ column.name ∈ table.primaryKey := by
  unfold analyseCreateTable at planned
  simp only at planned
  split at planned
  · cases planned
  · cases planned
    obtain ⟨definition, -, rfl⟩ := List.mem_map.mp member
    exact decide_eq_true_iff

private theorem drop_rowKey (row : ImportedRow) :
    (rowKey row.table row.keyParts).drop (row.table.name.length + 1) = joined ':' row.keyParts := by
  have split : rowKey row.table row.keyParts =
      (row.table.name ++ [':']) ++ joined ':' row.keyParts := rfl
  have length : row.table.name.length + 1 = (row.table.name ++ [':']).length := by
    rw [List.length_append, List.length_singleton]
  rw [split, length, List.drop_left]

private theorem zip_flags (row : ImportedRow) :
    (row.table.columns.map ColumnPlan.isPrimaryKey).zip (rowTexts row) =
      (row.table.columns.zip row.values).map
        (fun pair => (pair.1.isPrimaryKey, parseValue pair.2)) := by
  unfold rowTexts
  rw [List.zip_map]
  rfl

theorem unmarked_texts (row : ImportedRow) :
    (((row.table.columns.map ColumnPlan.isPrimaryKey).zip (rowTexts row)).filter
      (fun pair => !pair.1)).map Prod.snd = lineTexts row := by
  rw [zip_flags, List.filter_map, List.map_map]
  rfl

private theorem length_rowTexts (full : row.values.length = row.table.columns.length) :
    (row.table.columns.map ColumnPlan.isPrimaryKey).length = (rowTexts row).length := by
  unfold rowTexts
  rw [List.length_map, List.length_map, full]

theorem length_unmarked (full : row.values.length = row.table.columns.length) :
    ((row.table.columns.map ColumnPlan.isPrimaryKey).filter (fun mark => !mark)).length =
      (lineTexts row).length := by
  have whole := List.map_fst_zip (Nat.le_of_eq (length_rowTexts full))
  rw [← unmarked_texts, List.length_map]
  conv => lhs; rw [← whole]
  rw [List.filter_map, List.length_map]
  rfl

private theorem lines_iff (row : ImportedRow) :
    lineTexts row <+: (rowValue row.table row.values).splitOn '\n' ↔
      ∀ text ∈ lineTexts row, '\n' ∉ text := by
  cases texts : lineTexts row with
  | nil => exact iff_of_true List.nil_prefix (fun text member => by cases member)
  | cons text others =>
      have value : rowValue row.table row.values = joined '\n' (text :: others) :=
        congrArg (joined '\n') texts
      rw [value, splitOn_joined (List.cons_ne_nil _ _)]
      exact prefix_pieces_iff

private theorem lines_enough (row : ImportedRow) :
    (lineTexts row).length ≤ ((rowValue row.table row.values).splitOn '\n').length := by
  cases texts : lineTexts row with
  | nil => exact Nat.zero_le _
  | cons text others =>
      have value : rowValue row.table row.values = joined '\n' (text :: others) :=
        congrArg (joined '\n') texts
      rw [value, splitOn_joined (List.cons_ne_nil _ _)]
      exact length_le_pieces _

private theorem columnText_here (nodup : (table.columns.map ColumnPlan.name).Nodup) {index : Nat}
    (inside : index < table.columns.length) {value : Expr} (here : values[index]? = some value) :
    columnText table values table.columns[index].name = some (parseValue value) := by
  have position : table.columns.findIdx?
      (fun column => column.name = table.columns[index].name) = some index := by
    refine List.findIdx?_eq_some_iff_getElem.mpr ⟨inside, decide_eq_true rfl, ?_⟩
    intro earlier before
    rw [decide_eq_true_iff]
    intro same
    have names : (table.columns.map ColumnPlan.name)[earlier]? =
        (table.columns.map ColumnPlan.name)[index]? := by
      rw [List.getElem?_map, List.getElem?_map, List.getElem?_eq_getElem inside,
        List.getElem?_eq_getElem (before.trans inside)]
      exact congrArg some same
    have shorter : earlier < (table.columns.map ColumnPlan.name).length := by
      rw [List.length_map]
      exact before.trans inside
    exact Nat.ne_of_lt before ((List.getElem?_inj shorter nodup).mp names)
  unfold columnText
  rw [position]
  simp only [Option.bind_eq_bind, Option.bind_some, here]

private theorem mem_keyParts (planned : analyseCreateTable alphanumeric create = some table)
    {part : Text}
    (member : part ∈ keyParts table values) :
    (true, part) ∈ (table.columns.map ColumnPlan.isPrimaryKey).zip (rowTexts ⟨table, values⟩) := by
  obtain ⟨name, primary, read⟩ := List.mem_filterMap.mp member
  unfold columnText at read
  cases position : table.columns.findIdx? (fun column => column.name = name) with
  | none =>
      rw [position] at read
      cases read
  | some index =>
      rw [position] at read
      obtain ⟨inside, named, -⟩ := List.findIdx?_eq_some_iff_getElem.mp position
      cases here : values[index]? with
      | none =>
          simp only [Option.bind_eq_bind, Option.bind_some, here] at read
          cases read
      | some value =>
          simp only [Option.bind_eq_bind, Option.bind_some, here] at read
          have marked : table.columns[index].isPrimaryKey = true := by
            apply (primaryKey_planned planned (List.getElem_mem inside)).mpr
            rw [of_decide_eq_true named]
            exact primary
          rw [zip_flags ⟨table, values⟩]
          refine List.mem_map.mpr ⟨(table.columns[index], value), ?_, ?_⟩
          · apply List.mem_of_getElem? (i := index)
            rw [List.getElem?_zip_eq_some]
            exact ⟨List.getElem?_eq_getElem inside, here⟩
          · rw [marked, Option.some_inj.mp read]

private theorem keyed_iff (planned : analyseCreateTable alphanumeric create = some table)
    (nodup : (table.columns.map ColumnPlan.name).Nodup)
    (stored : (ImportedRow.mk table values).Stored) :
    (∀ pair ∈ (table.columns.map ColumnPlan.isPrimaryKey).zip (rowTexts ⟨table, values⟩),
      pair.1 = true → pair.2 = joined ':' (keyParts table values)) ↔
      ∃ part, keyParts table values = [part] := by
  constructor
  · intro keyed
    cases parts : keyParts table values with
    | nil => exact absurd parts stored.2
    | cons part others =>
        cases others with
        | nil => exact ⟨part, rfl⟩
        | cons next others =>
            have first := keyed _ (mem_keyParts planned (parts ▸ List.mem_cons_self ..)) rfl
            rw [parts, joined_cons (List.cons_ne_nil _ _)] at first
            change part = part ++ ':' :: joined ':' (next :: others) at first
            have lengths := congrArg List.length first
            rw [List.length_append, List.length_cons] at lengths
            omega
  · rintro ⟨part, single⟩ pair member marked
    rw [zip_flags ⟨table, values⟩] at member
    obtain ⟨⟨column, value⟩, there, rfl⟩ := List.mem_map.mp member
    obtain ⟨index, found⟩ := List.mem_iff_getElem?.mp there
    obtain ⟨column_, here⟩ := List.getElem?_zip_eq_some.mp found
    obtain ⟨inside, rfl⟩ := List.getElem?_eq_some_iff.mp column_
    have primary := (primaryKey_planned planned (List.getElem_mem inside)).mp marked
    have text := List.mem_filterMap.mpr ⟨_, primary, columnText_here nodup inside here⟩
    change parseValue value ∈ keyParts table values at text
    rw [single] at text ⊢
    change parseValue value = joined ':' [part]
    unfold joined
    rw [List.mem_singleton.mp text, List.intercalate_singleton]

end Rows

/-- A row comes back exactly if its texts have the places that the schema entry gives; and where
this tells the columns of the primary key, exactly if its key has one part and no other text has a
newline. -/
theorem row_survives_iff {alphanumeric : Alphanumeric} {create : CreateTable} {table : TablePlan}
    (planned : analyseCreateTable alphanumeric create = some table) {values : List Expr}
    (stored : (ImportedRow.mk table values).Stored) :
    (RowSurvives ⟨table, values⟩ ↔
      Placed (marks table) (joined ':' (keyParts table values))
        ((rowValue table values).splitOn '\n') (rowTexts ⟨table, values⟩)) ∧
    ((table.columns.map ColumnPlan.name).Nodup → ReadBack table →
      (RowSurvives ⟨table, values⟩ ↔ (∃ part, keyParts table values = [part]) ∧
        ∀ text ∈ lineTexts ⟨table, values⟩, '\n' ∉ text)) := by
  have placed : RowSurvives ⟨table, values⟩ ↔
      Placed (marks table) (joined ':' (keyParts table values))
        ((rowValue table values).splitOn '\n') (rowTexts ⟨table, values⟩) := by
    unfold RowSurvives exportedTexts rowValues
    rw [drop_rowKey]
    exact placed_iff
  refine ⟨placed, ?_⟩
  intro nodup readBack
  have unmarked := length_unmarked stored.1
  have everywhere : places (marks table) ((rowValue table values).splitOn '\n').length =
      table.columns.map ColumnPlan.isPrimaryKey := by
    rw [readBack]
    exact places_enough (unmarked.trans_le (lines_enough ⟨table, values⟩))
  have texts := unmarked_texts ⟨table, values⟩
  rw [placed, ← keyed_iff planned nodup stored, ← lines_iff ⟨table, values⟩]
  constructor
  · rintro ⟨-, keyed, inOrder⟩
    rw [everywhere] at keyed inOrder
    exact ⟨keyed, texts ▸ inOrder⟩
  · rintro ⟨keyed, inOrder⟩
    refine ⟨?_, ?_, ?_⟩
    · rw [everywhere]
      exact length_rowTexts stored.1
    · rw [everywhere]
      exact keyed
    · rw [everywhere]
      exact texts.symm ▸ inOrder

def pairCreate : CreateTable where
  name := "t".toList
  columns := [⟨"a".toList, "TEXT".toList, [.unique true]⟩, ⟨"b".toList, "TEXT".toList, []⟩]
  constraints := []

def pairPlan : TablePlan where
  name := "t".toList
  columns := [⟨"a".toList, "TEXT".toList, true⟩, ⟨"b".toList, "TEXT".toList, false⟩]
  primaryKey := ["a".toList]
  foreignKeys := []
  ttlColumn := none

theorem simple_row_survives : RowSurvives ⟨pairPlan,
    [.singleQuotedString "x:y".toList, .singleQuotedString "z".toList]⟩ := by
  have planned : analyseCreateTable asciiAlphanumeric pairCreate = some pairPlan := by
    decide +kernel
  have stored : (ImportedRow.mk pairPlan
      [.singleQuotedString "x:y".toList, .singleQuotedString "z".toList]).Stored := by
    decide +kernel
  apply ((row_survives_iff planned stored).2 (by decide +kernel) (by
    change marks pairPlan = pairPlan.columns.map ColumnPlan.isPrimaryKey
    decide +kernel)).mpr
  exact ⟨⟨"x:y".toList, by decide +kernel⟩, by decide +kernel⟩

theorem composite_row_changes : ¬ RowSurvives (compositeRow "x".toList "z".toList) := by
  intro survives
  unfold RowSurvives at survives
  revert survives
  decide +kernel

end SqlExport

end TricPlus
