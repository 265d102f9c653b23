import TricPlus.Lib.LikePattern
import TricPlus.Lib.Utf8
import TricPlus.Listing
import TricPlus.ReplyProtocol
import TricPlus.SqlSyntax

/-!
`SELECT` with `LIKE`, against what `LIKE` means.

The operation looks at the last byte of the pattern and scans the prefix before it.  The
flags of `LIKE`, its escape and every other wildcard are passed over.
-/

namespace TricPlus

open AtomicProgram
open BigEndian
open LikePattern
open ExpiringMap (Entry remains)

/-! ### What is asked -/

def sqlAlphabet : Alphabet UInt8 where
  percent := 0x25
  underscore := 0x5F
  letter := 0x78
  Character := Utf8.Character
  width := 4
  distinct := by decide
  other := by decide
  single := ⟨0x78, [], [], rfl, rfl, List.Forall₂.nil⟩
  nonempty := by
    rintro text ⟨lead, owed, rest, rfl, -⟩
    exact List.cons_ne_nil lead rest
  short := fun _ character => character.length_le

/-- `SELECT … FROM table WHERE column [NOT] LIKE 'pattern' [ESCAPE …]` -/
structure LikeSelect where
  projection : List Ast.SelectItem
  tableName : Bytes
  column : Bytes
  negated : Bool
  pattern : Bytes
  escapeChar : Option Bytes

namespace LikeSelect

def statement (select : LikeSelect) : Ast.Statement :=
  .query
    { body := .select
        { projection := select.projection
          tables := [{ relation := .table select.tableName [], joins := [] }]
          selection := some (.like select.negated false (.identifier select.column)
            (.value (.singleQuotedString select.pattern)) select.escapeChar)
          clauses := [] }
      clauses := [] }

def tokens (select : LikeSelect) : List (Token UInt8) :=
  read sqlAlphabet (select.escapeChar.getD []) none select.pattern

def Wants (select : LikeSelect) (suffix : Bytes) : Prop :=
  Satisfies sqlAlphabet select.negated select.tokens suffix

def space (select : LikeSelect) : Bytes :=
  Query.fullKey (Query.plainName select.tableName) []

def stem (select : LikeSelect) : Bytes :=
  select.pattern.dropLast

/-- The column is not the key, or the pattern does not end in `%`. -/
def Refused (library : SqlLibrary) (select : LikeSelect) : Prop :=
  library.toLowercase select.column ≠ asBytes "key" ∨ select.pattern.getLast? ≠ some 0x25

/-- The pattern has no wildcard before its last one, which is not escaped, and no escape. -/
def PlainPrefix (select : LikeSelect) : Prop :=
  select.negated = false ∧ Plain sqlAlphabet (select.escapeChar.getD []) select.stem

end LikeSelect

section Asked

variable (now : Instant) (bus : PermutiveBus) (select : LikeSelect)

def tableRows : List (Bytes × Bytes) :=
  bus.listed now select.space

def stemRows : List (Bytes × Bytes) :=
  bus.listed now (select.space ++ select.stem)

open Classical in
/-- The rows of the table whose suffix satisfies the condition. -/
noncomputable def wantedRows : List (Bytes × Bytes) :=
  (tableRows now bus select).filter
    (fun pair => decide (select.Wants (pair.1.drop select.space.length)))

/-- The reply is an error, or a scan of exactly the rows that satisfy the condition. -/
def LikeAnswered (requestId : Nat) (responses : List Response) : Prop :=
  (∃ message, responses = [createError requestId errorMalformedOpcode message]) ∨
    ((wantedRows now bus select).length ≤ maxChunks ∧
      responses = scanResponses requestId ((wantedRows now bus select).map pairEntry))

end Asked

/-- The text of the statement is answered as SQL means it. -/
def LikeServed (library : SqlLibrary) (site : Site) (clock : Nat → Instant) (ticks : Nat)
    (bus : PermutiveBus) (select : LikeSelect) (sql : Bytes) (requestId : Nat) : Prop :=
  ∃ responses,
    (run (bothTiers site) clock (onTiers (Query.parseQuery library.parser sql requestId)) ticks
      bus).result = some responses ∧
    LikeAnswered (clock ticks) bus select requestId responses

private theorem mergeResults_filter (keep : Bytes → Bool)
    (transientResults persistentResults : List (Bytes × Bytes)) :
    (mergeResults transientResults persistentResults).filter (fun pair => keep pair.1) =
      mergeResults (transientResults.filter (fun pair => keep pair.1))
        (persistentResults.filter (fun pair => keep pair.1)) := by
  unfold mergeResults
  simp only [OrderedScan.filter_sortByKey, List.filter_append, List.filter_filter]
  congr 2
  apply List.filter_congr
  intro pair _
  cases kept : keep pair.1 with
  | false => rw [Bool.false_and, Bool.and_false]
  | true =>
      have same : ((transientResults.filter (fun pair => keep pair.1)).map Prod.fst).contains
          pair.1 = (transientResults.map Prod.fst).contains pair.1 := by
        rw [Bool.eq_iff_iff, List.contains_iff_mem, List.contains_iff_mem, List.mem_map,
          List.mem_map]
        constructor
        · rintro ⟨other, member, equal⟩
          exact ⟨other, (List.mem_filter.mp member).1, equal⟩
        · rintro ⟨other, member, equal⟩
          refine ⟨other, List.mem_filter.mpr ⟨member, ?_⟩, equal⟩
          rw [equal]
          exact kept
      rw [same, Bool.true_and, Bool.and_true]

private theorem isPrefixOf_append (stem more key : Bytes) :
    (stem ++ more).isPrefixOf key = (stem.isPrefixOf key && (stem ++ more).isPrefixOf key) := by
  cases starts : (stem ++ more).isPrefixOf key with
  | false => rw [Bool.and_false]
  | true =>
      have front := (List.prefix_append stem more).trans (List.isPrefixOf_iff_prefix.mp starts)
      rw [List.isPrefixOf_iff_prefix.mpr front]
      rfl

private theorem SqliteBus.listing_append (bus : SqliteBus) (stem more : Bytes) :
    bus.listing (stem ++ more) =
      (bus.listing stem).filter (fun pair => (stem ++ more).isPrefixOf pair.1) := by
  unfold SqliteBus.listing
  rw [OrderedScan.filter_sortByKey, List.filter_flatMap]
  congr 2
  funext database
  unfold SqliteBus.matchingRows
  cases bus.disk[database.2]? with
  | none => rfl
  | some table =>
      simp only
      rw [List.filter_filter]
      apply List.filter_congr
      intro row _
      rw [Bool.and_comm]
      exact isPrefixOf_append stem more row.1

private theorem PermutiveBus.listed_append (now : Instant) (bus : PermutiveBus)
    (stem more : Bytes) :
    bus.listed now (stem ++ more) =
      (bus.listed now stem).filter (fun pair => (stem ++ more).isPrefixOf pair.1) := by
  have transient : (SoundTric.step (.findByPrefix (stem ++ more)) now bus.transient).1 =
      (SoundTric.step (.findByPrefix stem) now bus.transient).1.filter
        (fun pair => (stem ++ more).isPrefixOf pair.1) := by
    rw [SoundTric.step_reply, SoundTric.step_reply]
    change Reference.scan (stem ++ more) (ExpiringMap.purge now bus.transient.contents) =
      (Reference.scan stem (ExpiringMap.purge now bus.transient.contents)).filter _
    unfold Reference.scan
    rw [List.filter_filter]
    apply List.filter_congr
    intro row _
    rw [Bool.and_comm]
    exact isPrefixOf_append stem more row.1
  unfold PermutiveBus.listed
  rw [mergeResults_filter, transient, SqliteBus.listing_append]

private theorem PermutiveBus.prefix_of_listed {now : Instant} {bus : PermutiveBus} {stem : Bytes}
    {pair : Bytes × Bytes} (listed : pair ∈ bus.listed now stem) : stem <+: pair.1 := by
  have same := bus.listed_append now [] stem
  rw [List.nil_append] at same
  rw [same] at listed
  exact List.isPrefixOf_iff_prefix.mp (List.mem_filter.mp listed).2

/-! ### What the operation does -/

private theorem where_like (library : SqlLibrary) (select : LikeSelect) :
    Query.parseWhereCondition library.parser (some (library.condition
        (.like select.negated false (.identifier select.column)
          (.value (.singleQuotedString select.pattern)) select.escapeChar))) =
      if library.toLowercase select.column = asBytes "key" then
        if select.pattern.getLast? = some 0x25 then .keyLikePrefix select.stem
        else .unsupported
      else .unsupported := by
  have column : Query.checkKeyColumn library.parser (.identifier select.column) =
      decide (library.toLowercase select.column = asBytes "key") := rfl
  have pattern : (Query.parseStringValue (.value (.singleQuotedString select.pattern))).bind
      Query.stripPercent =
        if select.pattern.getLast? = some 0x25 then some select.stem else none := rfl
  have operands : library.condition (.like select.negated false (.identifier select.column)
      (.value (.singleQuotedString select.pattern)) select.escapeChar) =
        .like (.identifier select.column) (.value (.singleQuotedString select.pattern)) := rfl
  rw [operands]
  unfold Query.parseWhereCondition
  simp only [column, pattern, decide_eq_true_eq]
  split_ifs with named ends
  · rfl
  · rfl
  · rfl

private theorem run_scan_result (site : Site) (clock : Nat → Instant) (ticks : Nat)
    (bus : PermutiveBus)
    (requestId : Nat) (stem : Bytes) :
    (run (bothTiers site) clock (onTiers (Query.scan requestId stem)) ticks bus).result =
      if bus.persistent.poisoned = true then none
      else some (scanResponses requestId ((bus.listed (clock ticks) stem).map pairEntry)) := by
  change (run (bothTiers site) clock ((PermutiveBus.findByPrefix stem).bind
    (fun pairs => .done (scanResponses requestId (pairs.map pairEntry)))) ticks bus).result = _
  rw [run_bind]
  cases poisoned : bus.persistent.poisoned with
  | true =>
      have stuck := run_findByPrefix_stuck site clock ticks poisoned stem
      rcases ran : run (bothTiers site) clock (PermutiveBus.findByPrefix stem) ticks bus with
        ⟨result, later, after⟩
      rw [ran] at stuck
      cases stuck
      rfl
  | false =>
      rcases run_listed site clock ticks poisoned stem with ⟨transient, ran, -⟩
      rw [ran]
      rfl

private theorem scanResponses_inj {requestId : Nat} {left right : List Bytes} :
    scanResponses requestId left = scanResponses requestId right ↔
      left.take maxChunks = right.take maxChunks := by
  constructor
  · intro same
    unfold scanResponses at same
    have chunks := (List.append_inj' same rfl).1
    apply List.ext_getElem?
    intro index
    have atIndex := congrArg (fun chunks : List Response => chunks[index]?) chunks
    simp only [List.getElem?_mapIdx] at atIndex
    cases first : (left.take maxChunks)[index]? with
    | none =>
        rw [first] at atIndex
        exact (Option.map_eq_none_iff.mp atIndex.symm).symm
    | some entry =>
        rw [first, Option.map_some] at atIndex
        rcases Option.map_eq_some_iff.mp atIndex.symm with ⟨other, second, equal⟩
        have payload := congrArg Response.payload equal
        unfold scanChunk at payload
        have entries := (List.append_inj payload (by
          rw [List.length_append, List.length_append, length_toBeBytes, length_toBeBytes,
            length_toBeBytes])).2
        rw [second, entries]
  · intro same
    have lengths := congrArg List.length same
    rw [List.length_take, List.length_take] at lengths
    unfold scanResponses
    rw [same, Nat.min_comm, lengths, Nat.min_comm]

theorem scanResponses_ne_error (requestId : Nat) (entries : List Bytes) (message : Bytes) :
    scanResponses requestId entries ≠
      [createError requestId errorMalformedOpcode message] := by
  intro same
  have last := congrArg List.getLast? same
  unfold scanResponses at last
  rw [List.getLast?_concat] at last
  have opcode : scanEndOpcode = errorMalformedOpcode :=
    congrArg Response.opcode (Option.some.inj last)
  exact absurd opcode (by decide)

section Served

variable {library : SqlLibrary} {select : LikeSelect} {site : Site} {clock : Nat → Instant}
  {ticks : Nat} {bus : PermutiveBus} {sql : Bytes} {requestId : Nat}

private theorem parseQuery_like (parsed : library.parseSql sql = some [select.statement]) :
    Query.parseQuery library.parser sql requestId =
      if library.toLowercase select.column = asBytes "key" then
        if select.pattern.getLast? = some 0x25 then
          Query.scan requestId (select.space ++ select.stem)
        else return Query.malformed requestId "unsupported WHERE condition"
      else return Query.malformed requestId "unsupported WHERE condition" := by
  have statements : library.parser.parseSql sql =
      some [library.statement select.statement] := by
    change (library.parseSql sql).map _ = _
    rw [parsed]
    rfl
  have space : Query.fullKey (Query.plainName select.tableName) select.stem =
      select.space ++ select.stem := by
    unfold LikeSelect.space Query.fullKey
    rw [List.append_nil]
  unfold Query.parseQuery
  rw [statements]
  have table : Query.parseTableName ([⟨.table select.tableName [], []⟩].map SqlLibrary.factor) =
      some (Query.plainName select.tableName) := rfl
  unfold LikeSelect.statement SqlLibrary.statement SqlLibrary.body Query.runStatement
    Query.parseSelect
  simp only [table, Option.map_some, where_like]
  split_ifs with named ends
  · rw [← space]
  · rfl
  · rfl

private theorem parseQuery_refused (parsed : library.parseSql sql = some [select.statement])
    (refused : select.Refused library) :
    Query.parseQuery library.parser sql requestId =
      return Query.malformed requestId "unsupported WHERE condition" := by
  rw [parseQuery_like parsed]
  rcases refused with other | ends
  · rw [if_neg other]
  · rw [if_neg ends]
    exact ite_self _

private theorem parseQuery_scans (parsed : library.parseSql sql = some [select.statement])
    (accepted : ¬ select.Refused library) :
    Query.parseQuery library.parser sql requestId =
      Query.scan requestId (select.space ++ select.stem) := by
  unfold LikeSelect.Refused at accepted
  push Not at accepted
  rw [parseQuery_like parsed, if_pos accepted.1, if_pos accepted.2]

private theorem likeServed_iff (parsed : library.parseSql sql = some [select.statement])
    (accepted : ¬ select.Refused library) :
    LikeServed library site clock ticks bus select sql requestId ↔
      bus.persistent.Works ∧ (wantedRows (clock ticks) bus select).length ≤ maxChunks ∧
        ((stemRows (clock ticks) bus select).map pairEntry).take maxChunks =
          (wantedRows (clock ticks) bus select).map pairEntry := by
  unfold LikeServed LikeAnswered SqliteBus.Works
  rw [parseQuery_scans parsed accepted, run_scan_result]
  cases poisoned : bus.persistent.poisoned with
  | true =>
      rw [if_pos rfl]
      constructor
      · rintro ⟨responses, impossible, -⟩
        cases impossible
      · rintro ⟨impossible, -⟩
        cases impossible
  | false =>
      rw [if_neg Bool.false_ne_true]
      have whole : (wantedRows (clock ticks) bus select).length ≤ maxChunks →
          ((wantedRows (clock ticks) bus select).map pairEntry).take maxChunks =
            (wantedRows (clock ticks) bus select).map pairEntry := by
        intro few
        apply List.take_of_length_le
        rw [List.length_map]
        exact few
      constructor
      · rintro ⟨responses, answered, ⟨message, error⟩ | ⟨few, scanned⟩⟩
        · exact absurd ((Option.some.inj answered).trans error) (scanResponses_ne_error _ _ _)
        · have same := scanResponses_inj.mp ((Option.some.inj answered).trans scanned)
          rw [whole few] at same
          exact ⟨rfl, few, same⟩
      · rintro ⟨-, few, same⟩
        refine ⟨_, rfl, Or.inr ⟨few, scanResponses_inj.mpr ?_⟩⟩
        rw [whole few]
        exact same

end Served

section Plain

variable {now : Instant} {bus : PermutiveBus} {select : LikeSelect} {pair : Bytes × Bytes}

private theorem stemRows_eq (now : Instant) (bus : PermutiveBus) (select : LikeSelect) :
    stemRows now bus select = (tableRows now bus select).filter
      (fun pair => (select.space ++ select.stem).isPrefixOf pair.1) :=
  bus.listed_append now select.space select.stem

private theorem underStem_iff (row : pair ∈ tableRows now bus select) :
    (select.space ++ select.stem).isPrefixOf pair.1 = true ↔
      select.stem <+: pair.1.drop select.space.length := by
  rcases PermutiveBus.prefix_of_listed row with ⟨suffix, same⟩
  rw [List.isPrefixOf_iff_prefix, ← same, List.drop_left, List.prefix_append_right_inj]

private theorem tokens_accepted {library : SqlLibrary} (accepted : ¬ select.Refused library) :
    select.tokens = read sqlAlphabet (select.escapeChar.getD []) none
      (select.stem ++ [sqlAlphabet.percent]) := by
  unfold LikeSelect.Refused at accepted
  push Not at accepted
  rcases List.getLast?_eq_some_iff.mp accepted.2 with ⟨front, same⟩
  unfold LikeSelect.tokens LikeSelect.stem
  rw [same, List.dropLast_concat]
  rfl

private theorem wantedRows_plain {library : SqlLibrary} (accepted : ¬ select.Refused library)
    (plain : select.PlainPrefix) : wantedRows now bus select = stemRows now bus select := by
  classical
  rw [stemRows_eq]
  apply List.filter_congr
  intro pair row
  have wants : select.Wants (pair.1.drop select.space.length) ↔
      select.stem <+: pair.1.drop select.space.length := by
    unfold LikeSelect.Wants
    rw [tokens_accepted accepted, plain.1]
    exact satisfies_plain plain.2 _
  rw [Bool.eq_iff_iff, underStem_iff row]
  exact decide_eq_true_iff.trans wants

end Plain

/-! ### A table of one row -/

def oneRowRun (key : Bytes) : Outcome PermutiveBus Unit :=
  run (bothTiers openSite) stillClock
    (PermutiveBus.call (.writeValueWithTtl key [] (fromMillis 1000))) 0 emptyBus

private theorem oneRow_reachable (key : Bytes) :
    Reachable openSite stillClock ∅ (oneRowRun key).ticks (oneRowRun key).state :=
  .called (.writeValueWithTtl key [] (fromMillis 1000)) 0 emptyBus emptyBus_reachable

private theorem oneRow_tracked (key : Bytes) :
    Tracked openSite stillClock
      (ExpiringMap.storeUntil key [] (fromMillis 1000) (ExpiringMap.purge 0 ∅))
      (oneRowRun key).ticks (oneRowRun key).state := by
  have before := emptyBus_empty.tracked openSite stillClock 0
  rcases @Tracked.call openSite stillClock ∅ 0 emptyBus
    (.writeValueWithTtl key [] (fromMillis 1000)) before stillClock_monotone
    (fun _ _ same => by cases same) with ⟨reply, later, after, ran, -, -, tracked⟩
  have same : oneRowRun key = ⟨some reply, later, after⟩ := ran
  have deadline : (0 : Instant) + fromMillis 1000 = fromMillis 1000 := Nat.zero_add _
  rw [same, ← deadline]
  exact tracked

private theorem oneRow_layout (key : Bytes) : (oneRowRun key).state.persistent.Layout := by
  apply run_layout stillClock 0 rfl
  have filed := (wellFiled_empty openSite).layout
  rw [createSqliteBus_empty] at filed
  exact filed

private theorem oneRow_listed (key : Bytes) {stem : Bytes} (starts : stem <+: key) :
    (oneRowRun key).state.listed (stillClock (oneRowRun key).ticks) stem = [(key, [])] := by
  refine (scan_eq_reference (oneRow_tracked key) (oneRow_layout key) stem).trans
    (Reference.scan_eq (List.pairwise_singleton _ _) ?_).symm
  intro other value
  rw [List.mem_singleton, Prod.mk.injEq, Reference.value?_purge, ExpiringMap.getElem?_storeUntil,
    ExpiringMap.getElem?_purge]
  by_cases same : key = other
  · subst same
    rw [if_pos rfl]
    have alive : remains (stillClock (oneRowRun key).ticks)
        (some (⟨[], some (fromMillis 1000)⟩ : Entry Bytes Instant)) =
          some ⟨[], some (fromMillis 1000)⟩ := rfl
    rw [alive, Option.map_some, Option.some.injEq]
    exact ⟨fun both => ⟨both.2.symm, starts⟩, fun both => ⟨rfl, both.1.symm⟩⟩
  · rw [if_neg same]
    constructor
    · rintro ⟨rfl, -⟩
      exact absurd rfl same
    · rintro ⟨impossible, -⟩
      cases impossible

section Patterns

variable {library : SqlLibrary} {select : LikeSelect} {sql : Bytes} {requestId : Nat}

private theorem agrees_of_served (parsed : library.parseSql sql = some [select.statement])
    (accepted : ¬ select.Refused library) {suffix : Bytes}
    (served : LikeServed library openSite stillClock (oneRowRun (select.space ++ suffix)).ticks
      (oneRowRun (select.space ++ suffix)).state select sql requestId) :
    select.Wants suffix ↔ select.stem <+: suffix := by
  classical
  have row := oneRow_listed (select.space ++ suffix) (List.prefix_append select.space suffix)
  rcases (likeServed_iff parsed accepted).mp served with ⟨-, -, same⟩
  have starts : (select.space ++ select.stem).isPrefixOf (select.space ++ suffix) = true ↔
      select.stem <+: suffix := by
    rw [List.isPrefixOf_iff_prefix, List.prefix_append_right_inj]
  have lengths := congrArg List.length same
  rw [stemRows_eq] at lengths
  unfold wantedRows tableRows at lengths
  rw [row, List.length_take, List.length_map, List.length_map, List.filter_singleton,
    List.filter_singleton, List.drop_left] at lengths
  by_cases wants : select.Wants suffix
  · rw [decide_eq_true wants] at lengths
    refine ⟨fun _ => ?_, fun _ => wants⟩
    by_contra away
    rw [Bool.eq_false_iff.mpr (fun under => away (starts.mp under))] at lengths
    cases lengths
  · rw [decide_eq_false wants] at lengths
    refine ⟨fun impossible => absurd impossible wants, fun under => ?_⟩
    rw [starts.mpr under] at lengths
    cases lengths

/-- The statement is served on every bus whose mutex is in order and which has no more rows
under the stem than can be streamed. -/
def AlwaysServed (library : SqlLibrary) (select : LikeSelect) (sql : Bytes) (requestId : Nat) :
    Prop :=
  ∀ (site : Site) (clock : Nat → Instant) (disk : Disk) (ticks : Nat) (bus : PermutiveBus),
    Reachable site clock disk ticks bus → bus.persistent.Works →
      (stemRows (clock ticks) bus select).length ≤ maxChunks →
        LikeServed library site clock ticks bus select sql requestId

private theorem oneRow_works (key : Bytes) : (oneRowRun key).state.persistent.Works :=
  (oneRow_tracked key).sound

/-- `SELECT` with `LIKE` or `NOT LIKE` is answered with an error or with the rows that SQL
asks for if the operation refuses the pattern, or if the mutex of the persistent tier is in
order and the rows under the stem, as far as they are streamed, are those rows.  It is so
for all tables of a streamable size exactly if the pattern is refused, or is not negated and
has neither an escape nor a wildcard before its last one. -/
theorem like_means_prefix_iff (library : SqlLibrary) (select : LikeSelect) (sql : Bytes)
    (requestId : Nat) (parsed : library.parseSql sql = some [select.statement]) :
    (∀ (site : Site) (clock : Nat → Instant) (ticks : Nat) (bus : PermutiveBus),
      LikeServed library site clock ticks bus select sql requestId ↔
        select.Refused library ∨
          (bus.persistent.Works ∧ (wantedRows (clock ticks) bus select).length ≤ maxChunks ∧
            ((stemRows (clock ticks) bus select).map pairEntry).take maxChunks =
              (wantedRows (clock ticks) bus select).map pairEntry)) ∧
    (AlwaysServed library select sql requestId ↔
      select.Refused library ∨ select.PlainPrefix) := by
  have refusedServed : select.Refused library → ∀ (site : Site) (clock : Nat → Instant)
      (ticks : Nat) (bus : PermutiveBus),
        LikeServed library site clock ticks bus select sql requestId := by
    intro refused site clock ticks bus
    unfold LikeServed
    rw [parseQuery_refused parsed refused]
    exact ⟨_, rfl, Or.inl ⟨_, rfl⟩⟩
  constructor
  · intro site clock ticks bus
    by_cases refused : select.Refused library
    · exact ⟨fun _ => Or.inl refused, fun _ => refusedServed refused site clock ticks bus⟩
    · rw [likeServed_iff parsed refused]
      exact (or_iff_right refused).symm
  · by_cases refused : select.Refused library
    · exact ⟨fun _ => Or.inl refused,
        fun _ site clock disk ticks bus _ _ _ => refusedServed refused site clock ticks bus⟩
    · rw [or_iff_right refused]
      constructor
      · intro always
        apply (prefix_iff select.negated select.stem).mp
        intro suffix
        have row := oneRow_listed (select.space ++ suffix)
          (List.prefix_append select.space suffix)
        have few : (stemRows (stillClock (oneRowRun (select.space ++ suffix)).ticks)
            (oneRowRun (select.space ++ suffix)).state select).length ≤ maxChunks := by
          rw [stemRows_eq]
          unfold tableRows
          rw [row]
          exact (List.length_filter_le _ _).trans (Nat.one_le_iff_ne_zero.mpr (by decide))
        have served := always openSite stillClock ∅ _ _
          (oneRow_reachable (select.space ++ suffix)) (oneRow_works _) few
        have agrees := agrees_of_served parsed refused served
        unfold LikeSelect.Wants at agrees
        rw [tokens_accepted refused] at agrees
        exact agrees
      · intro plain site clock disk ticks bus _ works few
        rw [likeServed_iff parsed refused, wantedRows_plain refused plain]
        refine ⟨works, few, List.take_of_length_le ?_⟩
        rw [List.length_map]
        exact few

end Patterns

/-- `SELECT * FROM tags WHERE key LIKE 'a%'`, or with `NOT`. -/
def likeA (negated : Bool) : LikeSelect where
  projection := [.wildcard]
  tableName := asBytes "tags"
  column := asBytes "key"
  negated := negated
  pattern := asBytes "a%"
  escapeChar := none

def likeText : Bytes := asBytes "SELECT * FROM tags WHERE key LIKE 'a%'"

def notLikeText : Bytes := asBytes "SELECT * FROM tags WHERE key NOT LIKE 'a%'"

def likeLibrary : SqlLibrary where
  parseSql sql :=
    if sql = likeText then some [(likeA false).statement]
    else if sql = notLikeText then some [(likeA true).statement]
    else none
  display := fun _ => []
  toLowercase := id

theorem prefix_pattern_is_served : AlwaysServed likeLibrary (likeA false) likeText 1 :=
  (like_means_prefix_iff likeLibrary (likeA false) likeText 1 (if_pos rfl)).2.mpr
    (Or.inr ⟨rfl, by decide +kernel⟩)

/-- The one row is listed, which is the one excluded. -/
theorem not_like_lists_what_it_excludes :
    (run (bothTiers openSite) stillClock
        (onTiers (Query.parseQuery likeLibrary.parser notLikeText 1))
        (oneRowRun (asBytes "tags:a")).ticks (oneRowRun (asBytes "tags:a")).state).result =
      some (scanResponses 1 [pairEntry (asBytes "tags:a", [])]) ∧
    ¬ LikeServed likeLibrary openSite stillClock (oneRowRun (asBytes "tags:a")).ticks
      (oneRowRun (asBytes "tags:a")).state (likeA true) notLikeText 1 := by
  have parsed : likeLibrary.parseSql notLikeText = some [(likeA true).statement] := by
    have other : notLikeText ≠ likeText := by decide +kernel
    change (if notLikeText = likeText then _ else _) = _
    rw [if_neg other, if_pos rfl]
  have accepted : ¬ (likeA true).Refused likeLibrary := by
    rintro (other | ends)
    · exact other rfl
    · exact ends (by decide +kernel)
  have key : asBytes "tags:a" = (likeA true).space ++ asBytes "a" := by decide +kernel
  constructor
  · have stem : (likeA true).space ++ (likeA true).stem = asBytes "tags:a" := by decide +kernel
    have works := oneRow_works (asBytes "tags:a")
    unfold SqliteBus.Works at works
    rw [parseQuery_scans parsed accepted, run_scan_result, works, if_neg Bool.false_ne_true, stem,
      oneRow_listed _ List.prefix_rfl]
    rfl
  · intro served
    rw [key] at served
    have plain : Plain sqlAlphabet [] (likeA true).stem := by decide +kernel
    have starts : (likeA true).stem <+: asBytes "a" :=
      List.isPrefixOf_iff_prefix.mp (by decide +kernel)
    have agrees := (agrees_of_served parsed accepted served).mpr starts
    unfold LikeSelect.Wants Satisfies at agrees
    rw [tokens_accepted accepted] at agrees
    exact agrees ((satisfies_plain plain (asBytes "a")).mpr starts)

end TricPlus
