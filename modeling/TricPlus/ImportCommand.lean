import TricPlus.AdminQuery
import TricPlus.DiffCalls
import TricPlus.ImportCounts

/-!
The admin command `import`.

The words behind the verb are taken off an iterator one after the other, each for the place
it stands in.  The test for a dry run takes one word, and a second one if the first is not the
short flag; only then is a word compared with the long one.
-/

namespace TricPlus

open AtomicProgram

/-- The SQL library: the statements of a text, or none where it does not parse. -/
structure DumpParser where
  parseSql : Dialect → Text → Option (List SqlDump.Statement)

/-- The files as the command finds them: their lengths, and their contents read as UTF-8 or as
archives; the errors are what the system says. -/
structure ImportFiles where
  metadata : Bytes → Except Bytes Nat
  readToString : Bytes → Except Bytes Text
  openArchive : OpenArchive

/-- What the command works with. -/
structure ImportSetting where
  parser : DumpParser
  files : ImportFiles
  alphanumeric : Alphanumeric

namespace Import

def dialectOf (format : Bytes) : Dialect :=
  if format = asBytes "mysql" then .mysql
  else if format = asBytes "postgres" then .postgres
  else if format = asBytes "sqlite" then .sqlite
  else .generic

def parseSql (parser : DumpParser) (content : Text) (format : Bytes) : List SqlDump.Statement :=
  (parser.parseSql (dialectOf format) content).getD []

end Import

namespace Analyser

/-- `{:<width}`: filled up with blanks behind. -/
def padded (width : Nat) (text : Text) : Text :=
  text ++ List.replicate (width - text.length) ' '

def renderTablePlan (table : TablePlan) : Text :=
  padded 20 table.name ++ " pk=".toList ++ padded 15 (Import.join ',' table.primaryKey) ++
    " ttl=".toList ++ padded 15 (table.ttlColumn.getD "—".toList) ++ " fk=".toList ++
    (", ".toList).intercalate (table.foreignKeys.map (fun fk =>
      fk.column ++ "->".toList ++ fk.referencesTable)) ++ "\n".toList

def renderStoragePlan (plan : StoragePlan) : Text :=
  plan.tables.flatMap renderTablePlan

end Analyser

namespace Cli

/-! ### The command -/

/-- `parts.next()`: the next word, and what is left. -/
def next (parts : List Bytes) : Option Bytes × List Bytes :=
  (parts.head?, parts.tail)

/-- `parts.next() == Some("-a") || parts.next() == Some("--analyse")` -/
def analyseOnly (parts : List Bytes) : Bool :=
  let (first, parts) := next parts
  if first = some (asBytes "-a") then true
  else
    let (second, _) := next parts
    second = some (asBytes "--analyse")

def diffUsage : Bytes := asBytes "usage: import -D <old.tric> <new.tric>\n"

def importUsage : Bytes :=
  asBytes "usage: import -f <path> -F mysql|postgres|sqlite [-a]\n" ++
    asBytes "       import -D <old.tric> <new.tric>\n"

def maxFileSize : Nat := 1073741824

def refusedFile (files : ImportFiles) (named path : Bytes) : Option Bytes :=
  match files.metadata path with
  | .ok length =>
      if length > maxFileSize then
        some (asBytes "error: " ++ named ++ asBytes " exceeds 1 GB limit (" ++ showNat length ++
          asBytes "B)\n")
      else none
  | .error error => some (asBytes "error: cannot stat " ++ path ++ asBytes ": " ++ error ++
      asBytes "\n")

def diffReport : Except Bytes DiffResult → Bytes
  | .ok result =>
      showNat result.additions ++ asBytes " additions, " ++ showNat result.modifications ++
        asBytes " modifications, " ++ showNat result.deletions ++ asBytes " deletions applied.\n"
  | .error error => asBytes "error: " ++ error ++ asBytes "\n"

def renderDiffImport (files : ImportFiles) (oldPath newPath : Bytes) : BusProgram Bytes :=
  match (refusedFile files oldPath oldPath).or (refusedFile files newPath newPath) with
  | some refusal => return refusal
  | none => do
      let result ← Import.parseDiffImport files.openArchive oldPath newPath
      return diffReport result

def importReport (result : ImportResult) : Bytes :=
  showNat result.tables ++ asBytes " tables, " ++ showNat result.rows ++ asBytes " rows, " ++
    showNat result.relationships ++ asBytes " relationships imported. " ++
    showNat result.errors ++ asBytes " errors.\n"

def importFile (setting : ImportSetting) (path format : Bytes) (analyseOnly : Bool) :
    BusProgram Bytes :=
  match refusedFile setting.files (asBytes "file") path with
  | some refusal => return refusal
  | none =>
      match setting.files.readToString path with
      | .error error =>
          return asBytes "error: cannot read " ++ path ++ asBytes ": " ++ error ++ asBytes "\n"
      | .ok content =>
          let statements := Import.parseSql setting.parser content format
          let plan := Analyser.analyseStatements setting.alphanumeric statements
          if analyseOnly then return (Analyser.renderStoragePlan plan).asBytes
          else do
            let result ← Import.parseImport statements plan
            return importReport result

def renderImport (setting : ImportSetting) (parts : List Bytes) : BusProgram Bytes :=
  let (flagF, parts) := next parts
  if flagF = some (asBytes "-D") ∨ flagF = some (asBytes "--diff") then
    let (oldPath, parts) := next parts
    let (newPath, _) := next parts
    match oldPath, newPath with
    | some oldPath, some newPath => renderDiffImport setting.files oldPath newPath
    | _, _ => return diffUsage
  else
    let (path, parts) := next parts
    let (flagFormat, parts) := next parts
    let (format, parts) := next parts
    let analyseOnly := analyseOnly parts
    match path, flagFormat, format with
    | some path, some flagFormat, some format =>
        if flagF = some (asBytes "-f") ∧
            (flagFormat = asBytes "-F" ∨ flagFormat = asBytes "--format") then
          importFile setting path format analyseOnly
        else return importUsage
    | _, _, _ => return importUsage

/-- The commands, of which `import` is one. -/
def withImport (setting : ImportSetting) (others : Bytes → List Bytes → BusProgram Bytes)
    (verb : Bytes) (parts : List Bytes) : BusProgram Bytes :=
  if verb = asBytes "import" then renderImport setting parts else others verb parts

/-- The command that the words make: of one file, or of two archives. -/
inductive ImportCommand where
  | file (path format : Bytes)
  | diff (oldPath newPath : Bytes)
  deriving DecidableEq

/-- `-f <path> -F <dialect>` or `-D <old> <new>`, and whatever follows. -/
def wellFormed : List Bytes → Option ImportCommand
  | flagF :: path :: rest =>
      if flagF = asBytes "-D" ∨ flagF = asBytes "--diff" then
        match rest with
        | newPath :: _ => some (.diff path newPath)
        | [] => none
      else if flagF = asBytes "-f" then
        match rest with
        | flagFormat :: format :: _ =>
            if flagFormat = asBytes "-F" ∨ flagFormat = asBytes "--format" then
              some (.file path format)
            else none
        | _ => none
      else none
  | _ => none

def afterDialect (parts : List Bytes) : List Bytes :=
  if parts.head? = some (asBytes "-D") ∨ parts.head? = some (asBytes "--diff") then []
  else parts.drop 4

/-- A dry run is asked for, in either spelling. -/
def AsksDryRun (parts : List Bytes) : Prop :=
  asBytes "-a" ∈ afterDialect parts ∨ asBytes "--analyse" ∈ afterDialect parts

instance : DecidablePred AsksDryRun := fun _ => inferInstanceAs (Decidable (_ ∨ _))

end Cli

def DataBusCall.Alters : DataBusCall → Prop
  | .readValue _ => False
  | .readTtlRemaining _ => False
  | .findByPrefix _ => False
  | _ => True

namespace Cli

section DryRun

variable (setting : ImportSetting)

def contentOf (path : Bytes) : Option Text :=
  match refusedFile setting.files (asBytes "file") path with
  | some _ => none
  | none => (setting.files.readToString path).toOption

def planOf (format : Bytes) (content : Text) : StoragePlan :=
  Analyser.analyseStatements setting.alphanumeric (Import.parseSql setting.parser content format)

/-- What there is to be read is imported. -/
def Imports (program : BusProgram Bytes) : ImportCommand → Prop
  | .file path format => ∀ content, contentOf setting path = some content →
      program = (Import.parseImport (Import.parseSql setting.parser content format)
        (planOf setting format content)).bind (fun result => .done (importReport result))
  | .diff oldPath newPath =>
      (refusedFile setting.files oldPath oldPath).or (refusedFile setting.files newPath newPath) =
        none →
      program = (Import.parseDiffImport setting.files.openArchive oldPath newPath).bind
        (fun result => .done (diffReport result))

/-- A dry run makes no call that alters the bus, whatever this replies; and a command in order
that asks for none imports. -/
structure KeepsDryRuns (parts : List Bytes) (program : BusProgram Bytes) : Prop where
  dry : AsksDryRun parts → program.Uses (fun request => ¬ DataBusCall.Alters request)
  wet : ¬ AsksDryRun parts → ∀ command, wellFormed parts = some command →
    Imports setting program command

/-- The words say so where the command looks: the short flag right behind the dialect, or the
long one a word later. -/
def SeenDryRun (parts : List Bytes) : Prop :=
  parts[4]? = some (asBytes "-a") ∨ parts[5]? = some (asBytes "--analyse")

/-- There is nothing to import: the words make no command, the file is not read, or no table is
created in it. -/
def NothingToImport (parts : List Bytes) : Prop :=
  ∀ path format content, wellFormed parts = some (.file path format) →
    contentOf setting path = some content → (planOf setting format content).tables = []

end DryRun

section Words

variable {setting : ImportSetting} {parts : List Bytes}

private theorem analyseOnly_iff (parts : List Bytes) : analyseOnly parts = true ↔
    parts[0]? = some (asBytes "-a") ∨ parts[1]? = some (asBytes "--analyse") := by
  unfold analyseOnly next
  simp only [List.head?_eq_getElem?, List.getElem?_tail]
  by_cases short : parts[0]? = some (asBytes "-a")
  · rw [if_pos short]
    exact iff_of_true rfl (Or.inl short)
  · rw [if_neg short, decide_eq_true_eq]
    exact ⟨Or.inr, fun seen => seen.resolve_left short⟩

private theorem flags_differ : ¬
    (asBytes "-f" = asBytes "-D" ∨ asBytes "-f" = asBytes "--diff") := by
  decide +kernel

private theorem wellFormed_file {path format : Bytes} : wellFormed parts = some
    (.file path format) ↔
    ∃ flagFormat rest, parts = asBytes "-f" :: path :: flagFormat :: format :: rest ∧
      (flagFormat = asBytes "-F" ∨ flagFormat = asBytes "--format") := by
  constructor
  · intro made
    unfold wellFormed at made
    split at made
    · next flagF first rest =>
        split at made
        · split at made <;> cases made
        · split at made
          · next isFile =>
              split at made
              · next flagFormat second rest =>
                  split at made
                  · next named =>
                      cases made
                      exact ⟨flagFormat, rest, by rw [isFile], named⟩
                  · cases made
              · cases made
          · cases made
    · cases made
  · rintro ⟨flagFormat, rest, rfl, named⟩
    unfold wellFormed
    simp only [flags_differ, if_false, if_true, named]

private theorem renderImport_file {path format : Bytes}
    (made : wellFormed parts = some (.file path format)) :
    renderImport setting parts = importFile setting path format (analyseOnly (parts.drop 4)) := by
  obtain ⟨flagFormat, rest, rfl, named⟩ := wellFormed_file.mp made
  unfold renderImport next
  simp only [List.head?_cons, List.tail_cons, Option.some.injEq, flags_differ, if_false, true_and,
    named, if_true]
  rfl

private theorem renderImport_diff {oldPath newPath : Bytes}
    (made : wellFormed parts = some (.diff oldPath newPath)) :
    renderImport setting parts = renderDiffImport setting.files oldPath newPath := by
  unfold wellFormed at made
  split at made
  · next flagF first rest =>
      split at made
      · next isDiff =>
          cases rest with
          | nil => cases made
          | cons second rest =>
              cases made
              unfold renderImport next
              simp only [List.head?_cons, List.tail_cons, Option.some.injEq, isDiff, if_true]
      · split at made
        · split at made
          · split at made <;> cases made
          · cases made
        · cases made
  · cases made

private theorem renderImport_usage (unmade : wellFormed parts = none) :
    ∃ usage, renderImport setting parts = .done usage := by
  rcases parts with _ | ⟨flagF, _ | ⟨path, rest⟩⟩
  · exact ⟨importUsage, rfl⟩
  · by_cases isDiff : flagF = asBytes "-D" ∨ flagF = asBytes "--diff"
    · refine ⟨diffUsage, ?_⟩
      unfold renderImport next
      simp only [List.head?_cons, Option.some.injEq, isDiff, if_true]
      rfl
    · refine ⟨importUsage, ?_⟩
      unfold renderImport next
      simp only [List.head?_cons, Option.some.injEq, isDiff, if_false]
      rfl
  · unfold wellFormed at unmade
    unfold renderImport next
    by_cases isDiff : flagF = asBytes "-D" ∨ flagF = asBytes "--diff"
    · simp only [isDiff, if_true] at unmade
      cases rest with
      | nil =>
          refine ⟨diffUsage, ?_⟩
          simp only [List.head?_cons, Option.some.injEq, isDiff, if_true]
          rfl
      | cons newPath rest => cases unmade
    · refine ⟨importUsage, ?_⟩
      simp only [isDiff, if_false] at unmade
      simp only [List.head?_cons, List.tail_cons, Option.some.injEq, isDiff, if_false]
      rcases rest with _ | ⟨flagFormat, _ | ⟨format, rest⟩⟩
      · rfl
      · rfl
      · simp only [List.head?_cons, List.tail_cons]
        by_cases isFile : flagF = asBytes "-f"
        · by_cases named : flagFormat = asBytes "-F" ∨ flagFormat = asBytes "--format"
          · simp only [isFile, if_true, named] at unmade
            cases unmade
          · rw [if_neg (fun both => named both.2)]
            rfl
        · rw [if_neg (fun both => isFile both.1)]
          rfl

end Words

section Calls

variable {setting : ImportSetting} {parts : List Bytes} {path format : Bytes} {content : Text}

private theorem importFile_unread (unread : contentOf setting path = none) (analyseOnly : Bool) :
    ∃ answer, importFile setting path format analyseOnly = .done answer := by
  unfold contentOf at unread
  unfold importFile
  split at unread
  · next refusal refused => exact ⟨refusal, rfl⟩
  · next passed =>
      cases read : setting.files.readToString path with
      | error error => exact ⟨_, rfl⟩
      | ok content =>
          rw [read] at unread
          cases unread

private theorem importFile_read (read : contentOf setting path = some content)
    (analyseOnly : Bool) :
    importFile setting path format analyseOnly =
      if analyseOnly then .done (Analyser.renderStoragePlan (planOf setting format content)).asBytes
      else (Import.parseImport (Import.parseSql setting.parser content format)
        (planOf setting format content)).bind (fun result => .done (importReport result)) := by
  unfold contentOf at read
  unfold importFile
  split at read
  · cases read
  · next passed =>
      cases found : setting.files.readToString path with
      | error error =>
          rw [found] at read
          cases read
      | ok text =>
          rw [found] at read
          cases read
          rfl

private theorem import_quiet_iff (statements : List SqlDump.Statement) (plan : StoragePlan)
    (answer : ImportResult → Bytes) :
    ((Import.parseImport statements plan).bind (fun result => .done (answer result))).Uses
        (fun request => ¬ DataBusCall.Alters request) ↔ plan.tables = [] := by
  rw [Import.parseImport_eq]
  constructor
  · intro quiet
    cases tables : plan.tables with
    | nil => rfl
    | cons table tables' =>
        have first : ∃ rest, Import.importEntries plan statements = .schema table :: rest := by
          unfold Import.importEntries
          rw [tables]
          exact ⟨_, rfl⟩
        obtain ⟨rest, entries⟩ := first
        rw [entries] at quiet
        exact absurd trivial quiet.1
  · intro none
    rw [Import.importEntries_of_no_table none]
    exact trivial

end Calls

section Every

variable {setting : ImportSetting} {parts : List Bytes}

private theorem afterDialect_diff {oldPath newPath : Bytes}
    (made : wellFormed parts = some (.diff oldPath newPath)) : afterDialect parts = [] := by
  unfold wellFormed at made
  unfold afterDialect
  split at made
  · next flagF first rest =>
      split at made
      · next isDiff =>
          simp only [List.head?_cons, Option.some.injEq, isDiff, if_true]
      · split at made
        · split at made
          · split at made <;> cases made
          · cases made
        · cases made
  · cases made

private theorem afterDialect_file {path format : Bytes}
    (made : wellFormed parts = some (.file path format)) :
    afterDialect parts = parts.drop 4 := by
  obtain ⟨flagFormat, rest, rfl, -⟩ := wellFormed_file.mp made
  unfold afterDialect
  simp only [List.head?_cons, Option.some.injEq, flags_differ, if_false]

private theorem analyseOnly_seen : analyseOnly (parts.drop 4) = true ↔ SeenDryRun parts := by
  rw [analyseOnly_iff, List.getElem?_drop, List.getElem?_drop]
  rfl

private theorem asks_of_seen {path format : Bytes}
    (made : wellFormed parts = some (.file path format))
    (seen : SeenDryRun parts) : AsksDryRun parts := by
  unfold AsksDryRun
  rw [afterDialect_file made]
  rcases seen with short | long
  · left
    apply List.mem_iff_getElem?.mpr
    exact ⟨0, by rw [List.getElem?_drop]; exact short⟩
  · right
    apply List.mem_iff_getElem?.mpr
    exact ⟨1, by rw [List.getElem?_drop]; exact long⟩

private theorem keepsDryRuns_iff : KeepsDryRuns setting parts (renderImport setting parts) ↔
    (AsksDryRun parts → SeenDryRun parts ∨ NothingToImport setting parts) := by
  constructor
  · intro kept asks
    by_contra missed
    rw [not_or] at missed
    obtain ⟨unseen, something⟩ := missed
    apply something
    intro path format content made read
    have quiet := kept.dry asks
    rw [renderImport_file made, importFile_read read,
      if_neg (fun seen => unseen (analyseOnly_seen.mp seen))] at quiet
    exact (import_quiet_iff _ _ _).mp quiet
  · intro condition
    refine ⟨?_, ?_⟩
    · intro asks
      cases made : wellFormed parts with
      | none =>
          obtain ⟨usage, answered⟩ := @renderImport_usage setting parts made
          rw [answered]
          exact trivial
      | some command =>
          cases command with
          | diff oldPath newPath =>
              unfold AsksDryRun at asks
              rw [afterDialect_diff made] at asks
              rcases asks with impossible | impossible <;> cases impossible
          | file path format =>
              rw [renderImport_file made]
              cases read : contentOf setting path with
              | none =>
                  obtain ⟨answer, answered⟩ := @importFile_unread setting path format read
                    (analyseOnly (parts.drop 4))
                  rw [answered]
                  exact trivial
              | some content =>
                  rw [importFile_read read]
                  by_cases seen : analyseOnly (parts.drop 4) = true
                  · rw [if_pos seen]
                    exact trivial
                  · rw [if_neg seen]
                    have nothing := (condition asks).resolve_left
                      (fun found => seen (analyseOnly_seen.mpr found))
                    exact (import_quiet_iff _ _ _).mpr (nothing path format content made read)
    · intro silent command made
      cases command with
      | diff oldPath newPath =>
          intro passed
          rw [renderImport_diff made]
          unfold renderDiffImport
          rw [passed]
          rfl
      | file path format =>
          intro content read
          rw [renderImport_file made, importFile_read read,
            if_neg (fun seen => silent (asks_of_seen made (analyseOnly_seen.mp seen)))]

private theorem dispatchCommand_import (setting : ImportSetting) (parser : SqlParser)
    (others : Bytes → List Bytes → BusProgram Bytes) {command : Bytes}
    (verb : (Utf8.splitWhitespace command).head? = some (asBytes "import")) :
    dispatchCommand parser (withImport setting others) command =
      renderImport setting (Utf8.splitWhitespace command).tail := by
  have first : (Utf8.splitWhitespace command).headD [] = asBytes "import" := by
    rw [List.headD_eq_head?_getD, verb]
    rfl
  have other : ¬ asBytes "import" = asBytes "query" := by decide +kernel
  unfold dispatchCommand withImport
  simp only [first, other, if_false, if_true]

end Every

/-- Dry runs alter nothing exactly if those that are asked for are seen, or there is nothing to
import. -/
theorem dry_runs_kept_iff (setting : ImportSetting) (parser : SqlParser)
    (others : Bytes → List Bytes → BusProgram Bytes) {command : Bytes}
    (verb : (Utf8.splitWhitespace command).head? = some (asBytes "import")) :
    KeepsDryRuns setting (Utf8.splitWhitespace command).tail
        (dispatchCommand parser (withImport setting others) command) ↔
      (AsksDryRun (Utf8.splitWhitespace command).tail →
        SeenDryRun (Utf8.splitWhitespace command).tail ∨
          NothingToImport setting (Utf8.splitWhitespace command).tail) := by
  rw [dispatchCommand_import setting parser others verb]
  exact keepsDryRuns_iff

def oneTable : ImportSetting where
  parser :=
    { parseSql := fun _ content =>
        if content = "CREATE TABLE t (id INT PRIMARY KEY)".toList then
          some [.createTable ⟨"t".toList, [⟨"id".toList, "INT".toList, [.unique true]⟩], []⟩]
        else none }
  files :=
    { metadata := fun _ => .ok 35
      readToString := fun _ => .ok "CREATE TABLE t (id INT PRIMARY KEY)".toList
      openArchive := fun _ => .error [] }
  alphanumeric := Import.asciiAlphanumeric

def otherCommands (_verb : Bytes) (_parts : List Bytes) : BusProgram Bytes :=
  return []

theorem short_flag_is_kept :
    (Utf8.splitWhitespace (asBytes "import -f dump.sql -F mysql -a")).head? =
        some (asBytes "import") ∧
      KeepsDryRuns oneTable
        (Utf8.splitWhitespace (asBytes "import -f dump.sql -F mysql -a")).tail
        (dispatchCommand silentParser (withImport oneTable otherCommands)
          (asBytes "import -f dump.sql -F mysql -a")) := by
  have verb : (Utf8.splitWhitespace (asBytes "import -f dump.sql -F mysql -a")).head? =
      some (asBytes "import") := by
    decide +kernel
  refine ⟨verb, (dry_runs_kept_iff oneTable silentParser otherCommands verb).mpr ?_⟩
  exact fun _ => Or.inl (Or.inl (by decide +kernel))

/-- The long flag stands where the command looks for the short one. -/
theorem long_flag_imports :
    ¬ KeepsDryRuns oneTable
      (Utf8.splitWhitespace (asBytes "import -f dump.sql -F mysql --analyse")).tail
      (dispatchCommand silentParser (withImport oneTable otherCommands)
        (asBytes "import -f dump.sql -F mysql --analyse")) := by
  have words : (Utf8.splitWhitespace (asBytes "import -f dump.sql -F mysql --analyse")) =
      [asBytes "import", asBytes "-f", asBytes "dump.sql", asBytes "-F", asBytes "mysql",
        asBytes "--analyse"] := by
    decide +kernel
  have verb : (Utf8.splitWhitespace (asBytes "import -f dump.sql -F mysql --analyse")).head? =
      some (asBytes "import") := by
    rw [words]
    rfl
  rw [dispatchCommand_import oneTable silentParser otherCommands verb, words, List.tail_cons,
    keepsDryRuns_iff]
  intro condition
  rcases condition (Or.inr (by decide +kernel)) with (short | long) | nothing
  · exact absurd short (by decide +kernel)
  · exact absurd long (by decide +kernel)
  · have read : contentOf oneTable (asBytes "dump.sql") =
        some "CREATE TABLE t (id INT PRIMARY KEY)".toList := rfl
    have empty := nothing (asBytes "dump.sql") (asBytes "mysql") _ (by decide +kernel) read
    exact absurd empty (by decide +kernel)

end Cli

end TricPlus
