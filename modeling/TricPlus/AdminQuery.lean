import TricPlus.Cli
import TricPlus.Padding
import TricPlus.BusRefinement
import TricPlus.Lib.Utf8Words

/-!
SQL on the admin socket and SQL on the wire.

The admin socket splits a command at whitespace, and `query` joins the words behind it
with single blanks again; a query request hands its text on as it is, if the datagram is
not cut.
-/

namespace TricPlus

open AtomicProgram
open BigEndian

/-! ### The commands -/

def space : UInt8 := 0x20

namespace Cli

/-- `data[offset..offset + 4]` as a number. -/
def lengthAt (data : Bytes) (offset : Nat) : Nat :=
  fromBeBytes ((data.drop offset).take 4)

def parseScanKey (data : Bytes) : Option Bytes :=
  if data.length < 4 then none
  else
    let len := lengthAt data 0
    if data.length ≥ 4 + len then some ((data.drop 4).take len) else none

def parseScanValue (data : Bytes) : Option Bytes :=
  if data.length < 4 then none
  else
    let keyLen := lengthAt data 0
    let valueOffset := 4 + keyLen
    if data.length < valueOffset + 4 then none
    else
      let valueLen := lengthAt data valueOffset
      let valueStart := valueOffset + 4
      if data.length ≥ valueStart + valueLen then some ((data.drop valueStart).take valueLen)
      else none

def renderResponse (response : Response) : Bytes :=
  if response.opcode = 0x80 then asBytes "OK\n"
  else if response.opcode = 0x81 ∧ response.payload.length ≥ 4 then
    let valueLen := lengthAt response.payload 0
    if response.payload.length ≥ 4 + valueLen then
      Utf8.lossy ((response.payload.drop 4).take valueLen) ++ asBytes "\n"
    else []
  else if response.opcode = 0x90 ∧ response.payload.length ≥ 4 then
    let data := response.payload.drop 4
    (match parseScanKey data with
      | some keyData => Utf8.lossy keyData ++ asBytes "  "
      | none => []) ++
    (match parseScanValue data with
      | some valueData => showNat valueData.length ++ asBytes "B"
      | none => []) ++
    asBytes "\n"
  else if response.opcode = 0xA1 then
    asBytes "error: " ++ Utf8.lossy response.payload ++ asBytes "\n"
  else []

def renderResponses (responses : List Response) : Bytes :=
  let output := responses.flatMap renderResponse
  if output = [] then asBytes "(no results)\n" else output

def renderQuery (parser : SqlParser) (parts : List Bytes) : BusProgram Bytes :=
  let sql := Separated.joined space parts
  if sql = [] then return asBytes "usage: query <SQL statement>\n"
  else if sql.length > 4096 then return asBytes "error: SQL exceeds 4096 byte limit\n"
  else do
    let responses ← Query.parseQuery parser sql 0
    return renderResponses responses

/-- A command by its verb; those other than `query` get the verb and what follows it. -/
def dispatchCommand (parser : SqlParser) (others : Bytes → List Bytes → BusProgram Bytes)
    (command : Bytes) : BusProgram Bytes :=
  let parts := Utf8.splitWhitespace command
  let verb := parts.headD []
  if verb = asBytes "query" then renderQuery parser parts.tail else others verb parts.tail

def commandBuffer : Nat := 4096

def answerCommand (parser : SqlParser) (others : Bytes → List Bytes → BusProgram Bytes)
    (datagram : Bytes) : BusProgram Bytes :=
  dispatchCommand parser others (Utf8.trim (Utf8.lossy (datagram.take commandBuffer)))

end Cli

def queryCommand (sql : Bytes) : Bytes :=
  asBytes "query " ++ sql

def queryDatagram (requestId : Nat) (sql : Bytes) : Bytes :=
  toBeBytes 4 requestId ++ 0x07 :: lengthPrefixed sql

/-- Both leave the bus in one state, and the command shows what the request is answered. -/
def SameOnBothPaths (parser : SqlParser) (sql : Bytes) : Prop :=
  ∀ (others : Bytes → List Bytes → BusProgram Bytes) (metrics : Metrics) (requestId : Nat)
    (site : Site) (clock : Nat → Instant) (ticks : Nat) (bus : PermutiveBus),
    requestId < 2 ^ 32 →
    let admin := run (bothTiers site) clock
      (onTiers (Cli.answerCommand parser others (queryCommand sql))) ticks bus
    let wire := run (bothTiers site) clock
      (onTiers (answerDatagram parser metrics (queryDatagram requestId sql))) ticks bus
    admin.state = wire.state ∧ ∃ responses : Option (List Response),
      admin.result = responses.map Cli.renderResponses ∧
      wire.result = responses.map (fun responses => some (responses.map writeLocalToBuffer))

/-- The text as the admin command comes to it. -/
def rejoined (sql : Bytes) : Bytes :=
  Separated.joined space (Utf8.splitWhitespace sql)

/-- The first statement of a text, or that there is none. -/
def firstStatement (parser : SqlParser) (sql : Bytes) : Option (Option Sql.Statement) :=
  (parser.parseSql sql).map List.head?

/-- A text in UTF-8 of at most 4000 bytes that begins and ends with another character than a
blank. -/
structure SqlText (sql : Bytes) : Prop where
  whole : Utf8.wellFormed sql = true
  short : sql.length ≤ 4000
  first : ∃ character rest, Utf8.characters sql = character :: rest ∧
    Utf8.isBlank character = false
  last : ∃ front character, Utf8.characters sql = front ++ [character] ∧
    Utf8.isBlank character = false

def withRequestId (requestId : Nat) (response : Response) : Response :=
  { response with requestId := requestId }

def readdressed (requestId : Nat) (program : BusProgram (List Response)) :
    BusProgram (List Response) :=
  program.bind (fun responses => .done (responses.map (withRequestId requestId)))

private theorem readdressed_call (requestId : Nat) (request : DataBusCall)
    {next other : DataBusCall.Reply request → BusProgram (List Response)}
    (same : ∀ reply, readdressed requestId (next reply) = other reply) :
    readdressed requestId (.call request next) = .call request other :=
  congrArg (@Program.call dataBus (List Response) request) (funext same)

private theorem readdressed_bind {α : Type} (requestId : Nat) (program : BusProgram α)
    {rest other : α → BusProgram (List Response)}
    (same : ∀ result, readdressed requestId (rest result) = other result) :
    readdressed requestId (program.bind rest) = program.bind other := by
  unfold readdressed
  rw [Program.bind_assoc]
  exact congrArg program.bind (funext same)

section Readdressing

variable (parser : SqlParser) (first requestId : Nat)

private theorem readdressed_scan (stem : Bytes) :
    readdressed requestId (Query.scan first stem) = Query.scan requestId stem := by
  apply readdressed_call
  intro pairs
  apply congrArg Program.done
  unfold scanResponses
  rw [List.map_append]
  congr 1
  apply List.ext_getElem?
  intro index
  rw [List.getElem?_map, List.getElem?_mapIdx, List.getElem?_mapIdx, Option.map_map]
  rfl

private theorem readdressed_parseSelect (body : Sql.SetExpr) :
    readdressed requestId (Query.parseSelect parser first body) =
      Query.parseSelect parser requestId body := by
  unfold Query.parseSelect
  cases body with
  | values rows => rfl
  | other => rfl
  | select tables selection =>
      simp only
      cases Query.parseTableName tables with
      | none => rfl
      | some tableName =>
          simp only
          cases Query.parseWhereCondition parser selection with
          | keyEquals keyValue =>
              apply readdressed_call
              intro found
              cases found with
              | none => rfl
              | some value => rfl
          | keyLikePrefix stem => exact readdressed_scan first requestId _
          | none => exact readdressed_scan first requestId _
          | unsupported => rfl

private theorem readdressed_parseInsert (tableName : Bytes) (source : Option Sql.SetExpr) :
    readdressed requestId (Query.parseInsert parser first tableName source) =
      Query.parseInsert parser requestId tableName source := by
  apply readdressed_call
  intro schemaData
  cases source with
  | none => rfl
  | some body =>
      cases body with
      | select tables selection => rfl
      | other => rfl
      | values rows =>
          apply readdressed_bind
          intro found
          apply readdressed_bind
          intro _
          cases found with
          | some schema => rfl
          | none =>
              cases rows with
              | nil => rfl
              | cons row rows => rfl

private theorem readdressed_parseUpdate (table : Sql.TableFactor) (assignments : List Sql.Expr)
    (selection : Option Sql.Expr) :
    readdressed requestId (Query.parseUpdate parser first table assignments selection) =
      Query.parseUpdate parser requestId table assignments selection := by
  unfold Query.parseUpdate
  cases Query.parseSingleTableName table with
  | none => rfl
  | some tableName =>
      simp only
      cases Query.parseWhereCondition parser selection with
      | keyLikePrefix stem => rfl
      | none => rfl
      | unsupported => rfl
      | keyEquals keyValue =>
          apply readdressed_call
          intro current
          apply readdressed_bind
          intro found
          split
          · rfl
          · rfl

private theorem readdressed_parseDelete (tables : List Sql.TableFactor)
    (selection : Option Sql.Expr) :
    readdressed requestId (Query.parseDelete parser first tables selection) =
      Query.parseDelete parser requestId tables selection := by
  unfold Query.parseDelete
  cases tables with
  | nil => rfl
  | cons table rest =>
      cases table with
      | other => rfl
      | table name =>
          simp only
          cases Query.parseWhereCondition parser selection with
          | keyEquals keyValue => rfl
          | keyLikePrefix stem => rfl
          | none => rfl
          | unsupported => rfl

private theorem readdressed_parseQuery (sql : Bytes) :
    readdressed requestId (Query.parseQuery parser sql first) =
      Query.parseQuery parser sql requestId := by
  unfold Query.parseQuery
  cases parser.parseSql sql with
  | none => rfl
  | some statements =>
      cases statements with
      | nil => rfl
      | cons statement rest =>
          cases statement with
          | query body => exact readdressed_parseSelect parser first requestId body
          | insert tableName source =>
              exact readdressed_parseInsert parser first requestId tableName source
          | update table assignments selection =>
              exact readdressed_parseUpdate parser first requestId table assignments selection
          | delete tables selection =>
              exact readdressed_parseDelete parser first requestId tables selection
          | other => rfl

end Readdressing

private theorem renderResponses_readdressed (requestId : Nat) (responses : List Response) :
    Cli.renderResponses (responses.map (withRequestId requestId)) =
      Cli.renderResponses responses := by
  have same : (responses.map (withRequestId requestId)).flatMap Cli.renderResponse =
      responses.flatMap Cli.renderResponse := by
    rw [List.flatMap_map]
    rfl
  unfold Cli.renderResponses
  rw [same]

private theorem parseQuery_congr {parser : SqlParser} {sql other : Bytes}
    (same : firstStatement parser sql = firstStatement parser other) (requestId : Nat) :
    Query.parseQuery parser sql requestId = Query.parseQuery parser other requestId := by
  unfold firstStatement at same
  unfold Query.parseQuery
  cases left : parser.parseSql sql with
  | none =>
      rw [left] at same
      cases right : parser.parseSql other with
      | none => rfl
      | some statements =>
          rw [right] at same
          cases same
  | some statements =>
      rw [left] at same
      cases right : parser.parseSql other with
      | none =>
          rw [right] at same
          cases same
      | some others =>
          rw [right] at same
          have heads : statements.head? = others.head? := Option.some.inj same
          cases statements with
          | nil =>
              cases others with
              | nil => rfl
              | cons second more => cases heads
          | cons first rest =>
              cases others with
              | nil => cases heads
              | cons second more =>
                  cases heads
                  rfl

section Paths

variable {parser : SqlParser} {sql : Bytes}

private theorem SqlText.rejoined_some (text : SqlText sql) : rejoined sql ≠ [] := by
  obtain ⟨character, rest, cut, plain⟩ := text.first
  have some := Words.words_ne_nil plain rest
  rw [← cut] at some
  obtain ⟨word, others, words⟩ := List.exists_cons_of_ne_nil some
  have wordSome : word.flatten ≠ [] := by
    have member : word ∈ Words.words Utf8.isBlank (Utf8.characters sql) := by
      rw [words]
      exact List.mem_cons_self ..
    have inside := List.mem_filter.mp member
    have nonempty : word ≠ [] := of_decide_eq_true inside.2
    obtain ⟨first, more, rfl⟩ := List.exists_cons_of_ne_nil nonempty
    have solid := Utf8.characters_solid sql first
      (Words.mem_of_mem_words member (List.mem_cons_self ..))
    rw [List.flatten_cons]
    exact fun nothing => solid (List.append_eq_nil_iff.mp nothing).1
  intro nothing
  have length := congrArg List.length nothing
  unfold rejoined Utf8.splitWhitespace at length
  rw [words, List.map_cons, Words.length_joined, List.map_cons, List.sum_cons] at length
  have one := List.length_pos_of_ne_nil wordSome
  rw [List.length_nil] at length
  omega

private theorem rejoined_length_le (sql : Bytes) : (rejoined sql).length ≤ sql.length := by
  have shorter := @Words.joined_words_length_le UInt8 _ Utf8.isBlank space (Utf8.characters sql)
    (Utf8.characters_solid sql)
  rw [Utf8.flatten_characters] at shorter
  exact shorter

private theorem SqlText.queryCommand_words (text : SqlText sql) :
    Utf8.splitWhitespace (queryCommand sql) =
      asBytes "query" :: Utf8.splitWhitespace sql := by
  have verb : asBytes "query " = asBytes "query" ++ [space] := by decide +kernel
  unfold queryCommand
  rw [verb, List.append_assoc, List.singleton_append]
  exact Utf8.splitWhitespace_word (by decide +kernel) (by decide +kernel) (by decide +kernel)
      (by decide) (by decide) (Utf8.goesOn_of_wellFormed text.whole)

private theorem SqlText.queryCommand_uncut (text : SqlText sql) :
    (queryCommand sql).take Cli.commandBuffer = queryCommand sql := by
  have size : (asBytes "query ").length = 6 := by decide +kernel
  have short := text.short
  apply List.take_of_length_le
  unfold queryCommand Cli.commandBuffer
  rw [List.length_append]
  omega

private theorem SqlText.renderQuery_eq (text : SqlText sql) (parser : SqlParser) :
    Cli.renderQuery parser (Utf8.splitWhitespace sql) =
      (Query.parseQuery parser (rejoined sql) 0).bind
        (fun responses => .done (Cli.renderResponses responses)) := by
  have fits : ¬ (Separated.joined space (Utf8.splitWhitespace sql)).length > 4096 := by
    have shorter := rejoined_length_le sql
    have short := text.short
    unfold rejoined at shorter
    omega
  have nonempty : Separated.joined space (Utf8.splitWhitespace sql) ≠ [] := text.rejoined_some
  unfold Cli.renderQuery
  simp only
  rw [if_neg nonempty, if_neg fits]
  rfl

private theorem SqlText.answerCommand_eq (text : SqlText sql) (parser : SqlParser)
    (others : Bytes → List Bytes → BusProgram Bytes) :
    Cli.answerCommand parser others (queryCommand sql) =
      (Query.parseQuery parser (rejoined sql) 0).bind
        (fun responses => .done (Cli.renderResponses responses)) := by
  have whole : Utf8.wellFormed (queryCommand sql) = true := by
    unfold queryCommand
    rw [Utf8.wellFormed_ascii_append (by decide +kernel)]
    exact text.whole
  have words : Utf8.splitWhitespace (Utf8.trim (queryCommand sql)) =
      asBytes "query" :: Utf8.splitWhitespace sql := by
    rw [Utf8.splitWhitespace_trim whole]
    exact text.queryCommand_words
  unfold Cli.answerCommand
  rw [text.queryCommand_uncut, Utf8.lossy_of_wellFormed whole]
  unfold Cli.dispatchCommand
  simp only [words, List.headD_cons, List.tail_cons, if_true]
  exact text.renderQuery_eq parser

private theorem answer_query {requestId : Nat} {datagram payload : Bytes} (parser : SqlParser)
    (metrics : Metrics) (whole : datagram.take maxDatagram = datagram)
    (decoded : decodeLocalInto datagram freshRequest =
      (true, localRequest requestId 0x07 payload))
    (field : readField payload 0 = some sql) :
    answerDatagram parser metrics datagram =
      (Query.parseQuery parser sql requestId).bind
        (fun responses => .done (some (responses.map writeLocalToBuffer))) := by
  have read : Router.parseQueryRequest parser (localRequest requestId 0x07 payload) =
      Query.parseQuery parser sql requestId := by
    have here : readField (localRequest requestId 0x07 payload).payload 0 = some sql := field
    unfold Router.parseQueryRequest
    rw [here]
    rfl
  unfold answerDatagram
  rw [whole, decoded]
  change ((Router.parseQueryRequest parser (localRequest requestId 0x07 payload)).bind _).bind _ = _
  rw [read, Program.bind_assoc]
  rfl

theorem answerDatagram_query {requestId : Nat} (fits : requestId < 2 ^ 32)
    (uncut : sql.length ≤ 2039) (parser : SqlParser) (metrics : Metrics) :
    answerDatagram parser metrics (queryDatagram requestId sql) =
      (Query.parseQuery parser sql requestId).bind
        (fun responses => .done (some (responses.map writeLocalToBuffer))) := by
  have whole : (queryDatagram requestId sql).take maxDatagram = queryDatagram requestId sql := by
    apply List.take_of_length_le
    unfold queryDatagram maxDatagram
    rw [List.length_append, length_toBeBytes, List.length_cons, length_lengthPrefixed]
    omega
  have decoded : decodeLocalInto (queryDatagram requestId sql) freshRequest =
      (true, localRequest requestId 0x07 (lengthPrefixed sql)) :=
    decodeLocalInto_written fits (by decide) _
  have field : readField (lengthPrefixed sql) 0 = some sql := by
    have read := readFieldWithOffset_lengthPrefixed [] []
      (show sql.length < fieldLimit from lt_of_le_of_lt uncut (by decide))
    rw [List.append_nil, List.nil_append] at read
    unfold readField
    exact congrArg (Option.map Prod.fst) read
  exact answer_query parser metrics whole decoded field

end Paths

/-! ### Both paths agree -/

/-- A text that is not cut on the wire, and in which the parser finds the same first statement
after its words are joined again, does the same on both paths. -/
theorem admin_query_is_wire_query {parser : SqlParser} {sql : Bytes} (text : SqlText sql)
    (uncut : sql.length ≤ 2039)
    (same : firstStatement parser sql = firstStatement parser (rejoined sql)) :
    SameOnBothPaths parser sql := by
  intro others metrics requestId site clock ticks bus fits admin wire
  have adminIs : admin = run (bothTiers site) clock
      ((onTiers (Query.parseQuery parser sql 0)).bind
        (fun responses => .done (Cli.renderResponses responses))) ticks bus := by
    have program := text.answerCommand_eq parser others
    rw [← parseQuery_congr same] at program
    change run (bothTiers site) clock (onTiers _) ticks bus = _
    rw [program]
    exact congrArg (fun program => run (bothTiers site) clock program ticks bus)
      (Program.translate_bind _ _ _)
  have wireIs : wire = run (bothTiers site) clock
      ((onTiers (Query.parseQuery parser sql 0)).bind
        (fun responses => .done (some ((responses.map (withRequestId requestId)).map
          writeLocalToBuffer)))) ticks bus := by
    have program := answerDatagram_query fits uncut parser metrics
    rw [← readdressed_parseQuery parser 0 requestId] at program
    unfold readdressed at program
    rw [Program.bind_assoc] at program
    change run (bothTiers site) clock (onTiers _) ticks bus = _
    rw [program]
    exact congrArg (fun program => run (bothTiers site) clock program ticks bus)
      (Program.translate_bind _ _ _)
  rw [adminIs, wireIs, run_bind, run_bind]
  rcases run (bothTiers site) clock (onTiers (Query.parseQuery parser sql 0)) ticks bus with
    ⟨result, later, after⟩
  cases result with
  | none => exact ⟨rfl, none, rfl, rfl⟩
  | some responses =>
      refine ⟨rfl, some (responses.map (withRequestId requestId)), ?_, rfl⟩
      exact congrArg some (renderResponses_readdressed requestId responses).symm

def scanningParser : SqlParser where
  parseSql := fun _ => some [.query (.select [.table (asBytes "t")] none)]
  display := fun _ => []
  toLowercase := id

theorem scan_does_the_same : SameOnBothPaths scanningParser (asBytes "SELECT *  FROM t") := by
  apply admin_query_is_wire_query _ (by decide +kernel) rfl
  have cut : Utf8.characters (asBytes "SELECT *  FROM t") =
      (asBytes "SELECT *  FROM t").map (fun byte => [byte]) := by decide +kernel
  refine ⟨by decide +kernel, by decide +kernel, ?_, ?_⟩
  · rw [cut]
    exact ⟨asBytes "S", ((asBytes "SELECT *  FROM t").map (fun byte => [byte])).tail,
      by decide +kernel, by decide +kernel⟩
  · rw [cut]
    exact ⟨((asBytes "SELECT *  FROM t").map (fun byte => [byte])).dropLast, asBytes "t",
      by decide +kernel, by decide +kernel⟩

end TricPlus
