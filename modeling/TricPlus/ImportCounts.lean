import TricPlus.SqlEntries

/-!
Names of tables in an SQL import, and the rows that are neither written nor counted.

The analyser keeps the letters, digits and underscores of a name, an INSERT looks up its name
without the quotes, and a relationship is written with the name as it stands.  SQL takes a name
apart at its dots, folds what is not in quotes, and completes it by the schema in use.
-/

namespace TricPlus

open AtomicProgram

namespace Import

open SqlDump Analyser

/-! ### Runs -/

def acceptingBus : Object dataBus Nat Unit where
  step := fun request _ _ =>
    match request with
    | .readValue _ => (some none, ())
    | .writeValue _ _ => (some (), ())
    | .deleteValue _ => (some (), ())
    | .deleteValueIfMatch _ _ => (some false, ())
    | .writeTtl _ _ => (some (), ())
    | .writeValueWithTtl _ _ _ => (some (), ())
    | .readTtlRemaining _ => (some none, ())
    | .findByPrefix _ => (some [], ())

section Runs

variable {α : Type} {entries : List Entry} {result answer : α}

private theorem run_writing {Time σ : Type} (object : Object dataBus Time σ) (clock : Nat → Time)
    {ticks : Nat} {state : σ}
    (returned : (run object clock (writing entries result) ticks state).result = some answer) :
    answer = result := by
  unfold writing at returned
  rw [run_bind] at returned
  rcases written : run object clock (performAll (entries.map Entry.call)) ticks state with
    ⟨reply, later, after⟩
  rw [written] at returned
  cases reply with
  | none => cases returned
  | some reply => exact (Option.some_inj.mp returned).symm

private theorem run_accepting (clock : Nat → Nat) (ticks : Nat) :
    (run acceptingBus clock (writing entries result) ticks ()).result = some result := by
  induction entries generalizing ticks with
  | nil => rfl
  | cons entry entries ih =>
      rw [← writing_cons]
      exact ih (ticks + 1)

end Runs

def closing (character : Char) : Option Char :=
  if character = Char.ofNat 0x22 then some (Char.ofNat 0x22)
  else if character = Char.ofNat 0x60 then some (Char.ofNat 0x60)
  else if character = Char.ofNat 0x5B then some (Char.ofNat 0x5D)
  else none

/-- The identifiers of a name as it is printed, each with whether it stands in quotes.  A quote
that is opened again where it was closed stands for itself. -/
def scanIdentifiers : Option Char → Bool → Text → Text → List (Bool × Text)
  | _, quoted, identifier, [] => [(quoted, identifier)]
  | some close, quoted, identifier, character :: rest =>
      if character = close then scanIdentifiers none quoted identifier rest
      else scanIdentifiers (some close) quoted (identifier ++ [character]) rest
  | none, quoted, identifier, character :: rest =>
      if character = '.' then (quoted, identifier) :: scanIdentifiers none false [] rest
      else
        match closing character with
        | some close =>
            scanIdentifiers (some close) true
              (if quoted then identifier ++ [character] else identifier) rest
        | none => scanIdentifiers none quoted (identifier ++ [character]) rest

/-- How a database resolves the names of tables: what it makes of an identifier without and with
quotes, and what it puts in front of a name of one identifier. -/
structure NameRules where
  bare : Text → Text
  quoted : Text → Text
  inUse : List Text

def nameRules : Dialect → NameRules
  | .mysql => ⟨id, id, []⟩
  | .postgres => ⟨List.map Char.toLower, id, ["public".toList]⟩
  | .sqlite => ⟨List.map Char.toLower, List.map Char.toLower, ["main".toList]⟩
  | .generic => ⟨List.map Char.toUpper, id, []⟩

def tableOf (rules : NameRules) (name : Text) : List Text :=
  let identifiers := (scanIdentifiers none false [] name).map
    (fun identifier =>
      if identifier.1 then rules.quoted identifier.2 else rules.bare identifier.2)
  if identifiers.length = 1 then rules.inUse ++ identifiers else identifiers

example : tableOf (nameRules .postgres) "public.\"users\"".toList =
    tableOf (nameRules .postgres) "Users".toList := by
  decide +kernel

def created (statements : List Statement) : List Text :=
  statements.filterMap (fun statement =>
    match statement with
    | .createTable create => some create.name
    | _ => none)

/-- A statement of the dump creates the table that the name denotes. -/
def CreatedHere (rules : NameRules) (statements : List Statement) (name : Text) : Prop :=
  ∃ table ∈ created statements, tableOf rules table = tableOf rules name

instance (rules : NameRules) (statements : List Statement) :
    DecidablePred (CreatedHere rules statements) :=
  fun _ => inferInstanceAs (Decidable (∃ table ∈ _, _))

def planNames (alphanumeric : Alphanumeric) (statements : List Statement) : List Text :=
  ((created statements).map (parseTableNameRaw alphanumeric)).filter (fun name => name ≠ [])

def Referenced (statements : List Statement) (name : Text) : Prop :=
  ∃ create columns referredColumns, .createTable create ∈ statements ∧
    .foreignKey columns name referredColumns ∈ create.constraints

def ReferencedByColumns (statements : List Statement) (name : Text) : Prop :=
  ∃ create columns referredColumns, .createTable create ∈ statements ∧
    .foreignKey columns name referredColumns ∈ create.constraints ∧
    columns ≠ [] ∧ referredColumns ≠ []

/-- The name is used in CREATE TABLE, INSERT INTO and REFERENCES. -/
structure UsedThroughout (statements : List Statement) (name : Text) : Prop where
  created : name ∈ created statements
  inserted : ∃ columns source, .insert ⟨name, columns, source⟩ ∈ statements
  referenced : Referenced statements name

structure SameNames (alphanumeric : Alphanumeric) (statements : List Statement) (name : Text) :
    Prop where
  planned : ∀ create, .createTable create ∈ statements → create.name = name →
    ∃ table, analyseCreateTable alphanumeric create = some table ∧ table.name = unquoted name
  parent : ∀ create columns referredColumns fk, .createTable create ∈ statements →
    .foreignKey columns name referredColumns ∈ create.constraints →
    foreignKeyPlan (.foreignKey columns name referredColumns) = some fk →
    fk.referencesTable = unquoted name

def rowsInto (into : Text → Prop) [DecidablePred into] (statements : List Statement) : Nat :=
  (statements.map (fun statement =>
    match statement with
    | .insert insert => if into insert.tableName then (insertedRows insert).length else 0
    | _ => 0)).sum

/-- Whatever the bus does, an import of these statements that returns has counted so many rows. -/
def Counts (plan : StoragePlan) (statements : List Statement) (total : Nat) : Prop :=
  ∀ (Time σ : Type) (object : Object dataBus Time σ) (clock : Nat → Time) (ticks : Nat)
    (state : σ) (result : ImportResult),
    (run object clock (parseImport statements plan) ticks state).result = some result →
    result.rows + result.errors = total

/-- The names agree; each INSERT adds all its rows to the count if the table that it names is
created in the dump, and else none; and so the count is that of all rows that go to such
tables. -/
structure LosesNoRow (rules : NameRules) (alphanumeric : Alphanumeric)
    (statements : List Statement) : Prop where
  names : ∀ name, UsedThroughout statements name → SameNames alphanumeric statements name
  each : ∀ before insert after total, statements = before ++ .insert insert :: after →
    Counts (analyseStatements alphanumeric statements) before total →
    Counts (analyseStatements alphanumeric statements) (before ++ [.insert insert])
      (total + rowsInto (CreatedHere rules statements) [.insert insert])
  all : Counts (analyseStatements alphanumeric statements) statements
    (rowsInto (CreatedHere rules statements) statements)

/-- Letters, digits and underscores, and at least one of them. -/
def Plain (alphanumeric : Alphanumeric) (name : Text) : Prop :=
  name ≠ [] ∧ ∀ character ∈ name, alphanumeric.holds character = true ∨ character = '_'

/-- Names used throughout are plain within their quotes, and have none where columns are
referenced; and where an INSERT has rows, its name without the quotes is one that the analyser
makes of a CREATE TABLE if and only if a CREATE TABLE of the dump names the same table. -/
structure Keeps (rules : NameRules) (alphanumeric : Alphanumeric) (statements : List Statement) :
    Prop where
  plain : ∀ name, UsedThroughout statements name → Plain alphanumeric (unquoted name)
  bare : ∀ name, UsedThroughout statements name → ReferencedByColumns statements name →
    unquoted name = name
  found : ∀ insert, .insert insert ∈ statements → insertedRows insert ≠ [] →
    (unquoted insert.tableName ∈ planNames alphanumeric statements ↔
      CreatedHere rules statements insert.tableName)

section Names

variable {alphanumeric : Alphanumeric} {statements : List Statement} {name : Text}

private theorem parseTableNameRaw_eq_iff : parseTableNameRaw alphanumeric name = unquoted name ↔
    ∀ character ∈ unquoted name, alphanumeric.holds character = true ∨ character = '_' := by
  unfold parseTableNameRaw
  rw [List.filter_eq_self]
  simp only [Bool.or_eq_true, decide_eq_true_eq]

theorem analyseCreateTable_name (create : CreateTable) :
    (analyseCreateTable alphanumeric create).map TablePlan.name =
      if parseTableNameRaw alphanumeric create.name = [] then none
      else some (parseTableNameRaw alphanumeric create.name) := by
  unfold analyseCreateTable
  simp only
  split <;> rfl

private theorem planned_iff (create : CreateTable) :
    (∃ table, analyseCreateTable alphanumeric create = some table ∧
      table.name = unquoted create.name) ↔ Plain alphanumeric (unquoted create.name) := by
  rw [← Option.map_eq_some_iff, analyseCreateTable_name]
  constructor
  · intro planned
    split at planned
    · cases planned
    · next some =>
        have same := Option.some_inj.mp planned
        rw [same] at some
        exact ⟨some, parseTableNameRaw_eq_iff.mp same⟩
  · intro plain
    have same := parseTableNameRaw_eq_iff.mpr plain.2
    rw [same, if_neg plain.1]

private theorem mem_created : name ∈ created statements ↔
    ∃ create, .createTable create ∈ statements ∧ create.name = name := by
  unfold created
  rw [List.mem_filterMap]
  constructor
  · intro found
    rcases found with ⟨statement, member, same⟩
    cases statement with
    | createTable create => exact ⟨create, member, Option.some_inj.mp same⟩
    | insert insert => cases same
    | other => cases same
  · intro found
    rcases found with ⟨create, member, same⟩
    exact ⟨_, member, congrArg some same⟩

theorem foreignKeyPlan_eq (columns referredColumns : List Text) (foreignTable : Text) :
    (∃ fk, foreignKeyPlan (.foreignKey columns foreignTable referredColumns) = some fk) ↔
      columns ≠ [] ∧ referredColumns ≠ [] := by
  cases columns with
  | nil => exact iff_of_false (fun found => by cases found.choose_spec) (fun both => both.1 rfl)
  | cons column columns =>
      cases referredColumns with
      | nil => exact iff_of_false (fun found => by cases found.choose_spec) (fun both => both.2 rfl)
      | cons referredColumn referredColumns =>
          exact iff_of_true ⟨_, rfl⟩ ⟨List.cons_ne_nil _ _, List.cons_ne_nil _ _⟩

private theorem foreignKeyPlan_parent {columns referredColumns : List Text} {foreignTable : Text}
    {fk : ForeignKeyPlan}
    (planned : foreignKeyPlan (.foreignKey columns foreignTable referredColumns) = some fk) :
    fk.referencesTable = foreignTable := by
  cases columns with
  | nil => cases planned
  | cons column columns =>
      cases referredColumns with
      | nil => cases planned
      | cons referredColumn referredColumns =>
          cases planned
          rfl

private theorem sameNames_iff (used : UsedThroughout statements name) :
    SameNames alphanumeric statements name ↔ Plain alphanumeric (unquoted name) ∧
      (ReferencedByColumns statements name → unquoted name = name) := by
  constructor
  · intro same
    constructor
    · rcases mem_created.mp used.created with ⟨create, member, rfl⟩
      exact (planned_iff create).mp (same.planned create member rfl)
    · intro referenced
      rcases referenced with ⟨create, columns, referredColumns, member, constraint, some, others⟩
      rcases (foreignKeyPlan_eq columns referredColumns name).mpr ⟨some, others⟩ with ⟨fk, planned⟩
      have parent := same.parent create columns referredColumns fk member constraint planned
      rw [foreignKeyPlan_parent planned] at parent
      exact parent.symm
  · intro condition
    refine ⟨?_, ?_⟩
    · intro create member same
      subst same
      exact (planned_iff create).mpr condition.1
    · intro create columns referredColumns fk member constraint planned
      have both := (foreignKeyPlan_eq columns referredColumns name).mp ⟨fk, planned⟩
      rw [foreignKeyPlan_parent planned]
      exact (condition.2 ⟨create, columns, referredColumns, member, constraint, both⟩).symm

end Names

section Rows

variable {alphanumeric : Alphanumeric} {statements : List Statement}

private theorem plan_names : (analyseStatements alphanumeric statements).tables.map TablePlan.name =
    planNames alphanumeric statements := by
  unfold analyseStatements planNames created
  simp only
  induction statements with
  | nil => rfl
  | cons statement statements ih =>
      cases statement with
      | insert insert => exact ih
      | other => exact ih
      | createTable create =>
          have name := @analyseCreateTable_name alphanumeric create
          rw [List.filterMap_cons, List.filterMap_cons]
          simp only [List.map_cons]
          cases planned : analyseCreateTable alphanumeric create with
          | none =>
              rw [planned] at name
              by_cases empty : parseTableNameRaw alphanumeric create.name = []
              · rw [List.filter_cons_of_neg (by rw [decide_eq_true_eq]; exact not_not_intro empty)]
                exact ih
              · rw [if_neg empty] at name
                cases name
          | some table =>
              rw [planned] at name
              by_cases empty : parseTableNameRaw alphanumeric create.name = []
              · rw [if_pos empty] at name
                cases name
              · rw [if_neg empty] at name
                rw [List.filter_cons, if_pos (decide_eq_true empty)]
                exact congrArg₂ List.cons (Option.some_inj.mp name) ih

private theorem findTable_isSome (plan : StoragePlan) (insert : Insert) :
    (findTable plan insert).isSome = true ↔
      unquoted insert.tableName ∈ plan.tables.map TablePlan.name := by
  unfold findTable
  rw [List.find?_isSome, List.mem_map]
  simp only [decide_eq_true_eq]

private theorem length_importedRows (plan : StoragePlan) :
    (importedRows plan statements).length =
      rowsInto (fun name => unquoted name ∈ plan.tables.map TablePlan.name) statements := by
  unfold importedRows rowsInto
  rw [List.length_flatMap]
  apply congrArg List.sum
  apply List.map_congr_left
  intro statement member
  cases statement with
  | createTable create => rfl
  | other => rfl
  | insert insert =>
      have finds := findTable_isSome plan insert
      unfold foundRows
      simp only
      cases found : findTable plan insert with
      | none =>
          rw [found] at finds
          rw [if_neg (fun there => by cases finds.mpr there)]
          rfl
      | some table =>
          rw [found] at finds
          rw [if_pos (finds.mp rfl), List.length_map]

private theorem rowsInto_append (into : Text → Prop) [DecidablePred into]
    (first second : List Statement) :
    rowsInto into (first ++ second) = rowsInto into first + rowsInto into second := by
  unfold rowsInto
  rw [List.map_append, List.sum_append]

private theorem rowsInto_insert (into : Text → Prop) [DecidablePred into] (insert : Insert) :
    rowsInto into [.insert insert] =
      if into insert.tableName then (insertedRows insert).length else 0 :=
  Nat.add_zero _

private theorem rowsInto_congr (into other : Text → Prop) [DecidablePred into] [DecidablePred other]
    (same : ∀ insert, .insert insert ∈ statements → insertedRows insert ≠ [] →
      (into insert.tableName ↔ other insert.tableName)) :
    rowsInto into statements = rowsInto other statements := by
  unfold rowsInto
  apply congrArg List.sum
  apply List.map_congr_left
  intro statement member
  cases statement with
  | createTable create => rfl
  | other => rfl
  | insert insert =>
      simp only
      by_cases rows : insertedRows insert = []
      · rw [rows, List.length_nil, ite_self, ite_self]
      · exact if_congr (same insert member rows) rfl rfl

private theorem counts_iff (plan : StoragePlan) (statements : List Statement) (total : Nat) :
    Counts plan statements total ↔
      rowsInto (fun name => unquoted name ∈ plan.tables.map TablePlan.name) statements = total := by
  have counted := rows_add_errors plan statements
  rw [length_importedRows] at counted
  constructor
  · intro counts
    have returned := @run_accepting ImportResult (importEntries plan statements)
      (importResult plan statements) (fun tick => tick) 0
    rw [← parseImport_eq] at returned
    exact counted.symm.trans (counts Nat Unit acceptingBus _ 0 () _ returned)
  · intro same Time σ object clock ticks state result returned
    rw [parseImport_eq] at returned
    rw [run_writing object clock returned]
    exact counted.trans same

end Rows

/-! ### Every dump -/

theorem import_loses_no_row_iff (rules : NameRules) (alphanumeric : Alphanumeric)
    (statements : List Statement) :
    LosesNoRow rules alphanumeric statements ↔ Keeps rules alphanumeric statements := by
  have planned := @plan_names alphanumeric statements
  constructor
  · intro loses
    refine ⟨?_, ?_, ?_⟩
    · exact fun name used => ((sameNames_iff used).mp (loses.names name used)).1
    · exact fun name used => ((sameNames_iff used).mp (loses.names name used)).2
    · intro insert member rows
      obtain ⟨before, after, split⟩ := List.append_of_mem member
      have counts := (counts_iff (analyseStatements alphanumeric statements) before _).mpr rfl
      have one := (counts_iff _ _ _).mp (loses.each before insert after _ split counts)
      rw [rowsInto_append, rowsInto_insert, rowsInto_insert, planned] at one
      have some := List.length_pos_iff.mpr rows
      by_cases finds : unquoted insert.tableName ∈ planNames alphanumeric statements <;>
        by_cases creates : CreatedHere rules statements insert.tableName
      · exact iff_of_true finds creates
      · rw [if_pos finds, if_neg creates] at one
        omega
      · rw [if_neg finds, if_pos creates] at one
        omega
      · exact iff_of_false finds creates
  · intro keeps
    refine ⟨?_, ?_, ?_⟩
    · exact fun name used =>
        (sameNames_iff used).mpr ⟨keeps.plain name used, keeps.bare name used⟩
    · intro before insert after total split counts
      rw [counts_iff, planned] at counts ⊢
      have here : .insert insert ∈ statements := by
        rw [split]
        exact List.mem_append_right _ (List.mem_cons_self ..)
      rw [rowsInto_append, counts]
      apply congrArg
      apply rowsInto_congr
      intro other member rows
      cases List.mem_singleton.mp member
      exact keeps.found insert here rows
    · rw [counts_iff, planned]
      exact rowsInto_congr _ _ keeps.found

def asciiAlphanumeric : Alphanumeric where
  holds := Char.isAlphanum
  ascii := fun _ _ => rfl

def qualifiedDump : List Statement :=
  [.createTable ⟨"public.users".toList, [⟨"id".toList, "INT".toList, [.unique true]⟩], []⟩,
    .createTable ⟨"public.orders".toList, [⟨"id".toList, "INT".toList, [.unique true]⟩,
      ⟨"user_id".toList, "INT".toList, []⟩],
      [.foreignKey ["user_id".toList] "public.users".toList ["id".toList]]⟩,
    .insert ⟨"public.users".toList, [], some (.values [[.number "1".toList]])⟩]

theorem qualified_name_loses_its_row :
    ¬ LosesNoRow (nameRules .postgres) asciiAlphanumeric qualifiedDump := by
  intro loses
  have counted := (counts_iff _ _ _).mp loses.all
  revert counted
  decide +kernel

end Import

end TricPlus
