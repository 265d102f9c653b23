import TricPlus.Answering
import TricPlus.BusRefinement
import TricPlus.Fields

/-!
What a client gets for a request: one response, or the chunks of a scan and its end.

Four encoders make such chunks: the prefix scan, the key listing, the dump and the two
scans of the SQL subset.  They all send what `find_by_prefix` returns.
-/

namespace TricPlus

open AtomicProgram
open BigEndian
open ExpiringMap (Entry remains)

/-! ### Replies -/

def SingleReply (requestId : Nat) (response : Response) : Prop :=
  response.requestId = requestId ∧
    response.opcode ∈ [okOpcode, okPayloadOpcode, errorMalformedOpcode, errorInvalidOpcode]

private theorem createOk_single (requestId : Nat) : SingleReply requestId (createOk requestId) :=
  ⟨rfl, List.mem_cons_self ..⟩

private theorem createPayload_single (requestId : Nat) (payload : Bytes) :
    SingleReply requestId (createPayload requestId payload) :=
  ⟨rfl, List.mem_cons_of_mem _ (List.mem_cons_self ..)⟩

private theorem createMalformed_single (requestId : Nat) (message : Bytes) :
    SingleReply requestId (createError requestId errorMalformedOpcode message) :=
  ⟨rfl, List.mem_cons_of_mem _ (List.mem_cons_of_mem _ (List.mem_cons_self ..))⟩

private theorem createInvalid_single (requestId : Nat) (message : Bytes) :
    SingleReply requestId (createError requestId errorInvalidOpcode message) :=
  ⟨rfl, List.mem_cons_of_mem _ (List.mem_cons_of_mem _ (List.mem_cons_of_mem _
    (List.mem_cons_self ..)))⟩

def chunkTotal (chunk : Response) : Nat :=
  fromBeBytes (chunk.payload.take 2)

def chunkId (chunk : Response) : Nat :=
  fromBeBytes ((chunk.payload.drop 2).take 2)

def chunkPair (chunk : Response) : Option (Bytes × Bytes) := do
  let (key, offset) ← readFieldWithOffset chunk.payload 4
  let value ← readField chunk.payload offset
  some (key, value)

def StreamReply (requestId : Nat) (pairs : List (Bytes × Bytes)) (responses : List Response) :
    Prop :=
  ∃ chunks, responses = chunks ++ [scanEnd requestId] ∧
    (∀ index chunk, chunks[index]? = some chunk →
      chunk.requestId = requestId ∧ chunk.opcode = scanChunkOpcode ∧
      chunkTotal chunk = chunks.length ∧ chunkId chunk = index) ∧
    chunks.map chunkPair = (pairs.take maxChunks).map some

def Streamed (requestId : Nat) (pairs : List (Bytes × Bytes)) (responses : List Response) :
    Prop :=
  ∃ chunks, responses = chunks ++ [scanEnd requestId] ∧
    chunks.length = min pairs.length maxChunks ∧
    ∀ index chunk, chunks[index]? = some chunk → ∃ pair behind, pairs[index]? = some pair ∧
      chunk = scanChunk requestId chunks.length index (pairEntry pair ++ behind)

/-- Every field of the pair can be written with its length. -/
def PairFits (pair : Bytes × Bytes) : Prop :=
  pair.1.length < fieldLimit ∧ pair.2.length < fieldLimit

private theorem chunkPair_scanChunk (requestId total index : Nat) {pair : Bytes × Bytes}
    (behind : Bytes)
    (fits : PairFits pair) :
    chunkPair (scanChunk requestId total index (pairEntry pair ++ behind)) = some pair := by
  have four : (toBeBytes 2 total ++ toBeBytes 2 index).length = 4 := by
    rw [List.length_append, length_toBeBytes, length_toBeBytes]
  have payload : (scanChunk requestId total index (pairEntry pair ++ behind)).payload =
      (toBeBytes 2 total ++ toBeBytes 2 index) ++
        (lengthPrefixed pair.1 ++ (lengthPrefixed pair.2 ++ behind)) := by
    unfold scanChunk pairEntry
    simp only [List.append_assoc]
  have first := readFieldWithOffset_lengthPrefixed (toBeBytes 2 total ++ toBeBytes 2 index)
    (lengthPrefixed pair.2 ++ behind) fits.1
  have second := readFieldWithOffset_lengthPrefixed
    ((toBeBytes 2 total ++ toBeBytes 2 index) ++ lengthPrefixed pair.1) behind fits.2
  rw [four] at first
  rw [List.append_assoc] at second
  unfold chunkPair
  rw [payload, first, Option.bind_eq_bind, Option.bind_some]
  simp only
  rw [readField_eq_some.mpr ⟨_, second⟩]
  rfl

private theorem chunkTotal_scanChunk (requestId index : Nat) (entry : Bytes) {total : Nat}
    (few : total ≤ maxChunks) : chunkTotal (scanChunk requestId total index entry) = total := by
  have limit : maxChunks < 256 ^ 2 := by decide
  unfold chunkTotal scanChunk
  simp only
  rw [List.append_assoc, List.take_left' (length_toBeBytes 2 total)]
  exact fromBeBytes_toBeBytes_of_lt (by omega)

private theorem chunkId_scanChunk (requestId total : Nat) (entry : Bytes) {index : Nat}
    (few : index ≤ maxChunks) : chunkId (scanChunk requestId total index entry) = index := by
  have limit : maxChunks < 256 ^ 2 := by decide
  unfold chunkId scanChunk
  simp only
  rw [List.append_assoc, List.drop_left' (length_toBeBytes 2 total),
    List.take_left' (length_toBeBytes 2 index)]
  exact fromBeBytes_toBeBytes_of_lt (by omega)

theorem Streamed.reply {requestId : Nat} {pairs : List (Bytes × Bytes)}
    {responses : List Response} (streamed : Streamed requestId pairs responses)
    (fits : ∀ pair ∈ pairs, PairFits pair) : StreamReply requestId pairs responses := by
  rcases streamed with ⟨chunks, same, length, written⟩
  refine ⟨chunks, same, ?_, ?_⟩
  · intro index chunk found
    have inside : index < chunks.length := (List.getElem?_eq_some_iff.mp found).1
    rcases written index chunk found with ⟨pair, behind, -, entry⟩
    subst entry
    exact ⟨rfl, rfl, chunkTotal_scanChunk _ _ _ (by omega), chunkId_scanChunk _ _ _ (by omega)⟩
  · apply List.ext_getElem?
    intro index
    rw [List.getElem?_map, List.getElem?_map]
    by_cases inside : index < chunks.length
    · rw [List.getElem?_eq_getElem inside]
      rcases written index _ (List.getElem?_eq_getElem inside) with ⟨pair, behind, listed, entry⟩
      have member : pair ∈ pairs := List.mem_of_getElem? listed
      rw [List.getElem?_take_of_lt (by omega), listed, Option.map_some, Option.map_some, entry,
        chunkPair_scanChunk _ _ _ behind (fits pair member)]
    · have outside : (pairs.take maxChunks).length ≤ index := by
        rw [List.length_take]
        omega
      rw [List.getElem?_eq_none (by omega), List.getElem?_eq_none outside]
      rfl

private theorem scanResponses_streamed (requestId : Nat) (pairs : List (Bytes × Bytes)) :
    Streamed requestId pairs (scanResponses requestId (pairs.map pairEntry)) := by
  have length : (((pairs.map pairEntry).take maxChunks).mapIdx (fun chunkId entry =>
      scanChunk requestId (min (pairs.map pairEntry).length maxChunks) chunkId entry)).length =
        min pairs.length maxChunks := by
    rw [List.length_mapIdx, List.length_take, List.length_map, Nat.min_comm]
  refine ⟨_, rfl, length, ?_⟩
  intro index chunk found
  rw [length]
  rw [List.getElem?_mapIdx, Option.map_eq_some_iff] at found
  rcases found with ⟨entry, listed, same⟩
  have inside := (List.getElem?_eq_some_iff.mp listed).1
  rw [List.length_take] at inside
  rw [List.getElem?_take_of_lt (by omega), List.getElem?_map, Option.map_eq_some_iff] at listed
  rcases listed with ⟨pair, member, entry_eq⟩
  refine ⟨pair, [], member, ?_⟩
  rw [← same, ← entry_eq, List.append_nil, List.length_map]

/-- What a request gets on a bus: one response, or the stream of its scan. -/
def Replied (site : Site) (clock : Nat → Instant) (ticks : Nat) (bus : PermutiveBus)
    (stem? : Option Bytes) (requestId : Nat) (responses : List Response) : Prop :=
  match stem? with
  | none => ∃ response, responses = [response] ∧ SingleReply requestId response
  | some stem => ∃ pairs,
      (run (bothTiers site) clock (PermutiveBus.findByPrefix stem) ticks bus).result =
        some pairs ∧
      Streamed requestId pairs responses

section Answerable

variable (parser : SqlParser) (site : Site) (now : Instant) (bus : PermutiveBus)

def Shown (key : Bytes) : Prop :=
  ((bus.cell site key).value now).isSome = true

def SelectAnswerable (body : Sql.SetExpr) : Prop :=
  match body with
  | .select tables selection =>
      match Query.parseTableName tables with
      | none => True
      | some tableName =>
          match Query.parseWhereCondition parser selection with
          | .keyEquals keyValue => bus.Reads now (Query.fullKey tableName keyValue)
          | .keyLikePrefix _ => bus.persistent.Works
          | .none => bus.persistent.Works
          | .unsupported => True
  | _ => True

/-- Every row can be stored, and the schema where it is not there yet. -/
def InsertAnswerable (tableName : Bytes) (source : Option Sql.SetExpr) : Prop :=
  bus.Reads now (Query.schemaKey (Query.plainName tableName)) ∧
    match source with
    | some (.values rows) =>
        (∀ pk columns, (pk :: columns) ∈ rows →
          bus.persistent.Stores site (Query.rowKey parser (Query.plainName tableName) pk)) ∧
        (¬ Shown site now bus (Query.schemaKey (Query.plainName tableName)) → rows ≠ [] →
          bus.persistent.Stores site (Query.schemaKey (Query.plainName tableName)))
    | _ => True

def UpdateAnswerable (table : Sql.TableFactor) (assignments : List Sql.Expr)
    (selection : Option Sql.Expr) : Prop :=
  match Query.parseSingleTableName table with
  | none => True
  | some tableName =>
      match Query.parseWhereCondition parser selection with
      | .keyEquals keyValue =>
          bus.Reads now (Query.fullKey tableName keyValue) ∧
            (Shown site now bus (Query.fullKey tableName keyValue) → assignments ≠ [] →
              bus.persistent.Stores site (Query.fullKey tableName keyValue))
      | _ => True

def DeleteAnswerable (tables : List Sql.TableFactor) (selection : Option Sql.Expr) : Prop :=
  match tables with
  | .table _ :: _ =>
      match Query.parseWhereCondition parser selection with
      | .keyEquals _ => bus.persistent.Works
      | _ => True
  | _ => True

def StatementAnswerable : Sql.Statement → Prop
  | .query body => SelectAnswerable parser now bus body
  | .insert tableName source => InsertAnswerable parser site now bus tableName source
  | .update table assignments selection =>
      UpdateAnswerable parser site now bus table assignments selection
  | .delete tables selection => DeleteAnswerable parser bus tables selection
  | .other => True

def QueryAnswerable (sql : Bytes) : Prop :=
  match parser.parseSql sql with
  | some (statement :: _) => StatementAnswerable parser site now bus statement
  | _ => True

/-- No call of the handler panics: what it reads can be read, what it stores can be stored,
and else the persistent tier works. -/
def Answerable (request : Request) : Prop :=
  match request.opcode with
  | 0x01 => ∀ key, readField request.payload 0 = some key → bus.Reads now key
  | 0x02 => ∀ key value millis, Router.writeFields request.payload = some (key, value, millis) →
      if millis = 0 then bus.persistent.Stores site key else bus.persistent.Works
  | 0x03 => (readField request.payload 0).isSome = true → bus.persistent.Works
  | 0x04 => (Router.matchFields request.payload).isSome = true → bus.persistent.Works
  | 0x05 => (Router.ttlFields request.payload).isSome = true → bus.persistent.Works
  | 0x06 => (readField request.payload 0).isSome = true → bus.persistent.Works
  | 0x07 => ∀ sql, readField request.payload 0 = some sql →
      QueryAnswerable parser site now bus sql
  | 0x17 => bus.persistent.Works
  | 0x18 => ∀ key, readField request.payload 0 = some key → bus.Reads now key
  | 0x19 => bus.persistent.Works
  | 0x1A => ∀ key value millis, Router.restoreFields request.payload = some (key, value, millis) →
      bus.persistent.Stores site key
  | _ => True

end Answerable

/-! ### The prefix a request scans -/

def selectStem (parser : SqlParser) (body : Sql.SetExpr) : Option Bytes :=
  match body with
  | .select tables selection =>
      (Query.parseTableName tables).bind (fun tableName =>
        match Query.parseWhereCondition parser selection with
        | .keyLikePrefix stem => some (Query.fullKey tableName stem)
        | .none => some (Query.fullKey tableName [])
        | _ => none)
  | _ => none

def queryStem (parser : SqlParser) (sql : Bytes) : Option Bytes :=
  match parser.parseSql sql with
  | some (.query body :: _) => selectStem parser body
  | _ => none

def scannedStem (parser : SqlParser) (request : Request) : Option Bytes :=
  match request.opcode with
  | 0x06 => readField request.payload 0
  | 0x07 => (readField request.payload 0).bind (queryStem parser)
  | 0x17 => some ((readField request.payload 0).getD [])
  | 0x19 => some []
  | _ => none

section Handlers

variable {site : Site} {clock : Nat → Instant} {start : SqliteBus} {ticks : Nat}
  {bus : PermutiveBus}

private theorem Ends.call_unit (kept : Kept site start bus.persistent) (request : DataBusCall) :
    Ends site clock start (Program.perform dataBus request) ticks bus
      (bus.Answers site (clock ticks) request) (fun _ => True) :=
  (Ends.call kept request).mono (fun _ _ => trivial)

theorem Ends.store (kept : Kept site start bus.persistent) (key value : Bytes) :
    Ends site clock start (DataBus.writeValue key value) ticks bus (start.Stores site key)
      (fun _ => True) :=
  (Ends.call_unit kept (.writeValue key value)).congr (kept.stores key)

private theorem readValue_ends (kept : Kept site start bus.persistent) (request : Request) :
    Ends site clock start (Router.readValue request) ticks bus
      (∀ key, readField request.payload 0 = some key → bus.Reads (clock ticks) key)
      (SingleReply request.requestId) := by
  unfold Router.readValue
  cases found : readField request.payload 0 with
  | none =>
      apply (Ends.done kept _ (createMalformed_single _ _)).congr
      simp only [reduceCtorEq, false_implies, implies_true]
  | some key =>
      have read : Ends site clock start (DataBus.readValue key) ticks bus
        (bus.Reads (clock ticks) key) (fun _ => True) := Ends.call_unit kept (.readValue key)
      apply (read.andThen _).congr
      · simp only [Option.some.injEq, forall_eq']
      · intro reply later last keptAfter _
        cases reply with
        | some value => exact Ends.done keptAfter _ (createPayload_single _ _)
        | none => exact Ends.done keptAfter _ (createOk_single _)

private theorem writeValue_ends (kept : Kept site start bus.persistent) (request : Request) :
    Ends site clock start (Router.writeValue request) ticks bus
      (∀ key value millis, Router.writeFields request.payload = some (key, value, millis) →
        if millis = 0 then bus.persistent.Stores site key else bus.persistent.Works)
      (SingleReply request.requestId) := by
  unfold Router.writeValue
  cases found : Router.writeFields request.payload with
  | none =>
      apply (Ends.done kept _ (createMalformed_single _ _)).congr
      simp only [reduceCtorEq, false_implies, implies_true]
  | some fields =>
      rcases fields with ⟨key, value, millis⟩
      have ok : ∀ (later : Nat) (last : PermutiveBus), Kept site start last.persistent →
          Ends site clock start (.done (createOk request.requestId)) later last True
            (SingleReply request.requestId) :=
        fun later last keptAfter => Ends.done keptAfter _ (createOk_single _)
      by_cases lasting : millis = 0
      · have write : Ends site clock start (DataBus.writeValue key value) ticks bus
          (bus.persistent.Stores site key) (fun _ => True) :=
          Ends.call_unit kept (.writeValue key value)
        simp only [if_pos lasting]
        apply (write.andThen (fun _ later last keptAfter _ => ok later last keptAfter)).congr
        constructor
        · intro stores key' value' millis' same
          cases same
          rw [if_pos lasting]
          exact stores
        · intro all
          have mine := all key value millis rfl
          rw [if_pos lasting] at mine
          exact mine
      · have write : Ends site clock start
          (DataBus.writeValueWithTtl key value (fromMillis millis)) ticks bus
          bus.persistent.Works (fun _ => True) :=
          Ends.call_unit kept (.writeValueWithTtl key value (fromMillis millis))
        simp only [if_neg lasting]
        apply (write.andThen (fun _ later last keptAfter _ => ok later last keptAfter)).congr
        constructor
        · intro works key' value' millis' same
          cases same
          rw [if_neg lasting]
          exact works
        · intro all
          have mine := all key value millis rfl
          rw [if_neg lasting] at mine
          exact mine

private theorem oneCall_ends (kept : Kept site start bus.persistent) {requestId : Nat}
    (call : DataBusCall) (answer : call.Reply → Response)
    (single : ∀ reply, SingleReply requestId (answer reply)) :
    Ends site clock start (Program.perform dataBus call >>= fun reply => .done (answer reply))
      ticks bus (bus.Answers site (clock ticks) call) (SingleReply requestId) := by
  apply (Ends.call_unit kept call).andThen
  intro reply later last keptAfter _
  exact Ends.done keptAfter _ (single reply)

private theorem missing_ends (kept : Kept site start bus.persistent) (requestId : Nat)
    {required : Prop} :
    Ends site clock start (.done (createError requestId errorMalformedOpcode [])) ticks bus
      ((none : Option α).isSome = true → required) (SingleReply requestId) := by
  apply (Ends.done kept _ (createMalformed_single _ _)).congr
  simp only [Option.isSome_none, Bool.false_eq_true, false_implies]

private theorem deleteValue_ends (kept : Kept site start bus.persistent) (request : Request) :
    Ends site clock start (Router.deleteValue request) ticks bus
      ((readField request.payload 0).isSome = true → bus.persistent.Works)
      (SingleReply request.requestId) := by
  unfold Router.deleteValue
  cases found : readField request.payload 0 with
  | none => exact missing_ends kept request.requestId
  | some key =>
      apply (oneCall_ends kept (.deleteValue key) _ (fun _ => createOk_single _)).congr
      exact ⟨fun works _ => works, fun works => works rfl⟩

private theorem deleteValueIfMatch_ends (kept : Kept site start bus.persistent)
    (request : Request) :
    Ends site clock start (Router.deleteValueIfMatch request) ticks bus
      ((Router.matchFields request.payload).isSome = true → bus.persistent.Works)
      (SingleReply request.requestId) := by
  unfold Router.deleteValueIfMatch
  cases found : Router.matchFields request.payload with
  | none => exact missing_ends kept request.requestId
  | some fields =>
      rcases fields with ⟨key, expected⟩
      apply (oneCall_ends kept (.deleteValueIfMatch key expected) _
        (fun _ => createPayload_single _ _)).congr
      exact ⟨fun works _ => works, fun works => works rfl⟩

private theorem writeTtl_ends (kept : Kept site start bus.persistent) (request : Request) :
    Ends site clock start (Router.writeTtl request) ticks bus
      ((Router.ttlFields request.payload).isSome = true → bus.persistent.Works)
      (SingleReply request.requestId) := by
  unfold Router.writeTtl
  cases found : Router.ttlFields request.payload with
  | none => exact missing_ends kept request.requestId
  | some fields =>
      rcases fields with ⟨key, millis⟩
      apply (oneCall_ends kept (.writeTtl key (fromMillis millis)) _
        (fun _ => createOk_single _)).congr
      exact ⟨fun works _ => works, fun works => works rfl⟩

private theorem scan_ends (kept : Kept site start bus.persistent) (requestId : Nat) (stem : Bytes) :
    Ends site clock start (Query.scan requestId stem) ticks bus bus.persistent.Works
      (Replied site clock ticks bus (some stem) requestId) := by
  have found : Ends site clock start (DataBus.findByPrefix stem) ticks bus bus.persistent.Works
    (fun pairs => (run (bothTiers site) clock (PermutiveBus.findByPrefix stem) ticks bus).result =
      some pairs) := Ends.call kept (.findByPrefix stem)
  apply found.andThen
  intro pairs later last keptAfter returned
  exact Ends.done keptAfter _ ⟨pairs, returned, scanResponses_streamed requestId pairs⟩

private theorem malformed_ends (kept : Kept site start bus.persistent) (requestId : Nat)
    (message : Bytes) :
    Ends site clock start (.done [createError requestId errorMalformedOpcode message]) ticks bus
      True (Replied site clock ticks bus none requestId) :=
  Ends.done kept _ ⟨_, rfl, createMalformed_single requestId message⟩

private theorem findByPrefix_ends (kept : Kept site start bus.persistent) (request : Request) :
    Ends site clock start (Router.findByPrefix request) ticks bus
      ((readField request.payload 0).isSome = true → bus.persistent.Works)
      (Replied site clock ticks bus (readField request.payload 0) request.requestId) := by
  unfold Router.findByPrefix
  cases found : readField request.payload 0 with
  | none =>
      apply (malformed_ends kept request.requestId []).congr
      simp only [Option.isSome_none, Bool.false_eq_true, false_implies]
  | some stem =>
      apply (scan_ends kept request.requestId stem).congr
      simp only [Option.isSome_some, true_implies]

private theorem readKeys_ends (kept : Kept site start bus.persistent) (request : Request) :
    Ends site clock start (Router.readKeys request) ticks bus bus.persistent.Works
      (Replied site clock ticks bus (some ((readField request.payload 0).getD []))
        request.requestId) :=
  scan_ends kept request.requestId _

private theorem readInspect_ends (kept : Kept site start bus.persistent) (request : Request) :
    Ends site clock start (Router.readInspect request) ticks bus
      (∀ key, readField request.payload 0 = some key → bus.Reads (clock ticks) key)
      (SingleReply request.requestId) := by
  unfold Router.readInspect
  cases found : readField request.payload 0 with
  | none =>
      apply (Ends.done kept _ (createMalformed_single _ _)).congr
      simp only [reduceCtorEq, false_implies, implies_true]
  | some key =>
      have read : Ends site clock start (DataBus.readValue key) ticks bus
        (bus.Reads (clock ticks) key) (fun _ => True) := Ends.call_unit kept (.readValue key)
      apply (read.andThen _).congr
      · simp only [Option.some.injEq, forall_eq']
      · intro reply later last keptAfter _
        cases reply with
        | none => exact Ends.done keptAfter _ (createOk_single _)
        | some value =>
            have asked : Ends site clock start (DataBus.readTtlRemaining key) later last True
              (fun _ => True) := Ends.call_unit keptAfter (.readTtlRemaining key)
            apply asked.andThen
            intro remaining ended final keptFinal _
            exact Ends.done keptFinal _ (createPayload_single _ _)

private theorem withLifetimes_ends (kept : Kept site start bus.persistent)
    (pairs : List (Bytes × Bytes)) :
    Ends site clock start (Router.withLifetimes pairs) ticks bus True
      (fun dumped => dumped.map Prod.fst = pairs) := by
  induction pairs generalizing ticks bus with
  | nil => exact Ends.done kept _ rfl
  | cons pair pairs ih =>
      have asked : Ends site clock start (DataBus.readTtlRemaining pair.1) ticks bus True
        (fun _ => True) := Ends.call_unit kept (.readTtlRemaining pair.1)
      apply asked.andThen
      intro remaining later last keptAfter _
      apply (ih keptAfter).andThen
      intro rest ended final keptFinal same
      apply Ends.done keptFinal
      rw [List.map_cons, same]

private theorem readDump_ends (kept : Kept site start bus.persistent) (request : Request) :
    Ends site clock start (Router.readDump request) ticks bus bus.persistent.Works
      (Replied site clock ticks bus (some []) request.requestId) := by
  have found : Ends site clock start (DataBus.findByPrefix []) ticks bus bus.persistent.Works
    (fun pairs => (run (bothTiers site) clock (PermutiveBus.findByPrefix []) ticks bus).result =
      some pairs) := Ends.call kept (.findByPrefix [])
  apply found.andThen
  intro pairs later last keptAfter returned
  apply (withLifetimes_ends keptAfter (pairs.take maxChunks)).andThen
  intro dumped ended final keptFinal same
  apply Ends.done keptFinal
  have count : dumped.length = min pairs.length maxChunks := by
    have lengths := congrArg List.length same
    rw [List.length_map, List.length_take, Nat.min_comm] at lengths
    exact lengths
  refine ⟨pairs, returned, _, rfl, ?_, ?_⟩
  · rw [List.length_mapIdx, count]
  · intro index chunk listed
    rw [List.length_mapIdx, count]
    rw [List.getElem?_mapIdx, Option.map_eq_some_iff] at listed
    rcases listed with ⟨entry, dumpedAt, chunk_eq⟩
    have inside := (List.getElem?_eq_some_iff.mp dumpedAt).1
    have pairAt : (dumped.map Prod.fst)[index]? = some entry.1 := by
      rw [List.getElem?_map, dumpedAt]
      rfl
    rw [same, List.getElem?_take_of_lt (by omega)] at pairAt
    exact ⟨entry.1, toBeBytes 8 entry.2, pairAt, chunk_eq.symm⟩

theorem writeRestore_ends (kept : Kept site start bus.persistent) (request : Request) :
    Ends site clock start (Router.writeRestore request) ticks bus
      (∀ key value millis, Router.restoreFields request.payload = some (key, value, millis) →
        bus.persistent.Stores site key)
      (SingleReply request.requestId) := by
  unfold Router.writeRestore
  cases found : Router.restoreFields request.payload with
  | none =>
      apply (Ends.done kept _ (createMalformed_single _ _)).congr
      simp only [reduceCtorEq, false_implies, implies_true]
  | some fields =>
      rcases fields with ⟨key, value, millis⟩
      have condition : (∀ key' value' millis', some (key, value, millis) =
          some (key', value', millis') → bus.persistent.Stores site key') ↔
          bus.persistent.Stores site key := by
        constructor
        · intro all
          exact all key value millis rfl
        · intro stores key' value' millis' same
          cases same
          exact stores
      have write : Ends site clock start (DataBus.writeValue key value) ticks bus
        (bus.persistent.Stores site key) (fun _ => True) :=
        Ends.call_unit kept (.writeValue key value)
      rw [condition]
      apply write.noting.andThen
      intro _ later last keptAfter noted
      have works : last.persistent.Works := keptAfter.works.mpr (kept.works.mp noted.2.1)
      rcases millis with _ | _ | ttlMs
      · exact Ends.done keptAfter _ (createOk_single _)
      · exact Ends.done keptAfter _ (createOk_single _)
      · apply (oneCall_ends keptAfter (.writeTtl key (fromMillis (ttlMs + 1))) _
          (fun _ => createOk_single _)).congr
        exact iff_of_true works trivial

/-! ### The SQL subset -/

theorem read_shows (attached : bus.persistent.Attached) {key : Bytes} {reply : Option Bytes}
    (returned : (run (bothTiers site) clock (PermutiveBus.call (.readValue key)) ticks
      bus).result = some reply) : reply = (bus.cell site key).value (clock ticks) := by
  have about : (DataBusCall.readValue key).key? = some key := rfl
  have onCell := congrArg Outcome.result (run_cell site clock about ticks attached)
  have onCell : (run oneCell clock (PermutiveBus.readValue key) ticks
      (bus.cell site key)).result = some reply := onCell.trans returned
  cases works : bus.persistent.poisoned with
  | false =>
      have sound : (bus.cell site key).poisoned = false := works
      exact (Option.some.inj ((run_readValue_value clock ticks sound key).symm.trans onCell)).symm
  | true =>
      have poisoned : (bus.cell site key).poisoned = true := works
      unfold Cell.value
      cases current : remains (clock ticks) (bus.cell site key).copy with
      | some copy =>
          rw [run_readValue_hit clock key current] at onCell
          cases onCell
          rfl
      | none =>
          rw [run_readValue_stuck clock ticks poisoned key current] at onCell
          cases onCell

private theorem ok_ends (kept : Kept site start bus.persistent) (earlier : Nat)
    (before : PermutiveBus)
    (requestId : Nat) :
    Ends site clock start (.done [createOk requestId]) ticks bus True
      (Replied site clock earlier before none requestId) :=
  Ends.done kept _ ⟨_, rfl, createOk_single requestId⟩

theorem read_ends (kept : Kept site start bus.persistent) (key : Bytes) :
    Ends site clock start (DataBus.readValue key) ticks bus (bus.Reads (clock ticks) key)
      (fun reply => reply = (bus.cell site key).value (clock ticks)) :=
  (Ends.call kept (.readValue key)).mono (fun _ returned => read_shows kept.attached returned)

private theorem parseSelect_ends (kept : Kept site start bus.persistent) (parser : SqlParser)
    (requestId : Nat) (body : Sql.SetExpr) :
    Ends site clock start (Query.parseSelect parser requestId body) ticks bus
      (SelectAnswerable parser (clock ticks) bus body)
      (Replied site clock ticks bus (selectStem parser body) requestId) := by
  unfold Query.parseSelect SelectAnswerable selectStem
  cases body with
  | values rows => exact malformed_ends kept requestId _
  | other => exact malformed_ends kept requestId _
  | select tables selection =>
      simp only
      cases table : Query.parseTableName tables with
      | none => exact malformed_ends kept requestId _
      | some tableName =>
          rw [Option.bind_some]
          simp only
          cases condition : Query.parseWhereCondition parser selection with
          | keyLikePrefix stem => exact scan_ends kept requestId _
          | none => exact scan_ends kept requestId _
          | unsupported => exact malformed_ends kept requestId _
          | keyEquals keyValue =>
              apply (read_ends kept (Query.fullKey tableName keyValue)).andThen
              intro reply later last keptAfter _
              cases reply with
              | some value => exact Ends.done keptAfter _ ⟨_, rfl, createPayload_single _ _⟩
              | none => exact ok_ends keptAfter ticks bus requestId

private theorem insertRows_ends (kept : Kept site start bus.persistent) (parser : SqlParser)
    (tableName : Bytes) (rows : List (List Sql.Expr)) :
    Ends site clock start (Query.insertRows parser tableName rows) ticks bus
      (∀ pk columns, (pk :: columns) ∈ rows →
        start.Stores site (Query.rowKey parser tableName pk)) (fun _ => True) := by
  induction rows generalizing ticks bus with
  | nil =>
      apply (Ends.done kept () trivial).congr
      simp only [List.not_mem_nil, false_implies, implies_true]
  | cons row rows ih =>
      cases row with
      | nil =>
          apply (ih kept).congr
          simp only [List.mem_cons, reduceCtorEq, false_or]
      | cons pk columns =>
          have write := @Ends.store site clock start ticks bus kept
            (Query.rowKey parser tableName pk)
            (Query.joinLines (columns.map (Query.parseExprValue parser)))
          apply (write.bind (fun _ later last keptAfter _ => ih keptAfter)).congr
          constructor
          · intro both pk' columns' member
            rcases List.mem_cons.mp member with here | later
            · cases here
              exact both.1
            · exact both.2 pk' columns' later
          · intro all
            exact ⟨all pk columns (List.mem_cons_self ..),
              fun pk' columns' member => all pk' columns' (List.mem_cons_of_mem _ member)⟩

theorem parseInsert_ends (kept : Kept site start bus.persistent) (parser : SqlParser)
    (requestId : Nat) (tableName : Bytes) (source : Option Sql.SetExpr) :
    Ends site clock start (Query.parseInsert parser requestId tableName source) ticks bus
      (InsertAnswerable parser site (clock ticks) bus tableName source)
      (Replied site clock ticks bus none requestId) := by
  have schema := @read_ends site clock start ticks bus kept
    (Query.schemaKey (Query.plainName tableName))
  unfold InsertAnswerable
  have malformed : ∀ (later : Nat) (last : PermutiveBus), Kept site start last.persistent →
      Ends site clock start
        (.done [createError requestId errorMalformedOpcode (asBytes "INSERT without VALUES")])
        later last True (Replied site clock ticks bus none requestId) :=
    fun later last keptAfter => Ends.done keptAfter _ ⟨_, rfl, createMalformed_single _ _⟩
  rcases source with _ | body
  · exact schema.bind (fun _ later last keptAfter _ => malformed later last keptAfter)
  · cases body with
    | select tables selection =>
        exact schema.bind (fun _ later last keptAfter _ => malformed later last keptAfter)
    | other => exact schema.bind (fun _ later last keptAfter _ => malformed later last keptAfter)
    | values rows =>
        apply schema.bind
        intro reply later last keptAfter shown
        simp only
        have rowsEnd := @insertRows_ends site clock start later last keptAfter parser
          (Query.plainName tableName) rows
        simp only [kept.stores]
        apply rowsEnd.bind
        intro _ ended final keptFinal _
        have absent : ¬ Shown site (clock ticks) bus
            (Query.schemaKey (Query.plainName tableName)) ↔ reply = none := by
          unfold Shown
          rw [← shown, Bool.not_eq_true, Option.isSome_eq_false_iff, Option.isNone_iff_eq_none]
        rw [absent]
        cases reply with
        | some value =>
            apply (ok_ends keptFinal ticks bus requestId).congr
            simp only [reduceCtorEq, false_implies]
        | none =>
            cases rows with
            | nil =>
                apply (ok_ends keptFinal ticks bus requestId).congr
                simp only [ne_eq, not_true_eq_false, false_implies, implies_true]
            | cons first rest =>
                have write := @Ends.store site clock start ended final keptFinal
                  (Query.schemaKey (Query.plainName tableName)) (Query.schemaText first.length)
                apply (write.andThen (fun _ _ _ keptLast _ =>
                  ok_ends keptLast ticks bus requestId)).congr
                simp only [ne_eq, reduceCtorEq, not_false_eq_true, true_implies]

theorem parseUpdate_ends (kept : Kept site start bus.persistent) (parser : SqlParser)
    (requestId : Nat) (table : Sql.TableFactor) (assignments : List Sql.Expr)
    (selection : Option Sql.Expr) :
    Ends site clock start (Query.parseUpdate parser requestId table assignments selection) ticks
      bus (UpdateAnswerable parser site (clock ticks) bus table assignments selection)
      (Replied site clock ticks bus none requestId) := by
  unfold Query.parseUpdate UpdateAnswerable
  cases Query.parseSingleTableName table with
  | none => exact malformed_ends kept requestId _
  | some tableName =>
      simp only
      cases Query.parseWhereCondition parser selection with
      | keyLikePrefix stem => exact malformed_ends kept requestId _
      | none => exact malformed_ends kept requestId _
      | unsupported => exact malformed_ends kept requestId _
      | keyEquals keyValue =>
          have current := @read_ends site clock start ticks bus kept
            (Query.fullKey tableName keyValue)
          simp only [kept.stores]
          apply current.bind
          intro reply later last keptAfter shown
          unfold Shown
          rw [← shown]
          by_cases changes : reply.isSome = true ∧ assignments ≠ []
          · rw [if_pos changes]
            have write := @Ends.store site clock start later last keptAfter
              (Query.fullKey tableName keyValue)
              (Query.joinLines (assignments.map (Query.parseExprValue parser)))
            apply (write.andThen (fun _ _ _ keptLast _ =>
              ok_ends keptLast ticks bus requestId)).congr
            exact ⟨fun stores _ _ => stores, fun all => all changes.1 changes.2⟩
          · rw [if_neg changes]
            apply (ok_ends keptAfter ticks bus requestId).congr
            exact iff_of_true trivial (fun present some => absurd ⟨present, some⟩ changes)

private theorem parseDelete_ends (kept : Kept site start bus.persistent) (parser : SqlParser)
    (requestId : Nat) (tables : List Sql.TableFactor) (selection : Option Sql.Expr) :
    Ends site clock start (Query.parseDelete parser requestId tables selection) ticks bus
      (DeleteAnswerable parser bus tables selection)
      (Replied site clock ticks bus none requestId) := by
  unfold Query.parseDelete DeleteAnswerable
  rcases tables with _ | ⟨table, tables⟩
  · exact malformed_ends kept requestId _
  · cases table with
    | other => exact malformed_ends kept requestId _
    | table name =>
        simp only
        cases Query.parseWhereCondition parser selection with
        | keyLikePrefix stem => exact malformed_ends kept requestId _
        | none => exact malformed_ends kept requestId _
        | unsupported => exact malformed_ends kept requestId _
        | keyEquals keyValue =>
            have deleted : Ends site clock start
              (DataBus.deleteValue (Query.fullKey (Query.plainName name) keyValue)) ticks bus
              bus.persistent.Works (fun _ => True) := Ends.call_unit kept (.deleteValue _)
            exact deleted.andThen (fun _ _ _ keptAfter _ => ok_ends keptAfter ticks bus requestId)

theorem parseQuery_ends (kept : Kept site start bus.persistent) (parser : SqlParser)
    (sql : Bytes) (requestId : Nat) :
    Ends site clock start (Query.parseQuery parser sql requestId) ticks bus
      (QueryAnswerable parser site (clock ticks) bus sql)
      (Replied site clock ticks bus (queryStem parser sql) requestId) := by
  unfold Query.parseQuery QueryAnswerable queryStem
  rcases parser.parseSql sql with _ | _ | ⟨statement, statements⟩
  · exact malformed_ends kept requestId _
  · exact malformed_ends kept requestId _
  · cases statement with
    | query body => exact parseSelect_ends kept parser requestId body
    | insert tableName source => exact parseInsert_ends kept parser requestId tableName source
    | update table assignments selection =>
        exact parseUpdate_ends kept parser requestId table assignments selection
    | delete tables selection => exact parseDelete_ends kept parser requestId tables selection
    | other => exact malformed_ends kept requestId _

/-! ### Dispatch -/

private theorem one_ends {program : BusProgram Response} {condition : Prop} {requestId : Nat}
    (ends : Ends site clock start program ticks bus condition (SingleReply requestId)) :
    Ends site clock start (Router.one <$> program) ticks bus condition
      (fun dispatched => ∃ responses, dispatched = .responses responses ∧
        Replied site clock ticks bus none requestId responses) :=
  ends.map Router.one (fun response single => ⟨[response], rfl, response, rfl, single⟩)

private theorem responses_ends {program : BusProgram (List Response)} {condition : Prop}
    {requestId : Nat} {stem? : Option Bytes}
    (ends : Ends site clock start program ticks bus condition
      (Replied site clock ticks bus stem? requestId)) :
    Ends site clock start (Dispatched.responses <$> program) ticks bus condition
      (fun dispatched => ∃ responses, dispatched = .responses responses ∧
        Replied site clock ticks bus stem? requestId responses) :=
  ends.map Dispatched.responses (fun responses replied => ⟨responses, rfl, replied⟩)

private theorem plain_ends (kept : Kept site start bus.persistent) {requestId : Nat}
    {response : Response} (single : SingleReply requestId response) :
    Ends site clock start (.done (Router.one response)) ticks bus True
      (fun dispatched => ∃ responses, dispatched = .responses responses ∧
        Replied site clock ticks bus none requestId responses) :=
  Ends.done kept _ ⟨[response], rfl, response, rfl, single⟩

private theorem parseQueryRequest_ends (kept : Kept site start bus.persistent) (parser : SqlParser)
    (request : Request) :
    Ends site clock start (Router.parseQueryRequest parser request) ticks bus
      (∀ sql, readField request.payload 0 = some sql →
        QueryAnswerable parser site (clock ticks) bus sql)
      (Replied site clock ticks bus ((readField request.payload 0).bind (queryStem parser))
        request.requestId) := by
  unfold Router.parseQueryRequest
  cases found : readField request.payload 0 with
  | none =>
      apply (malformed_ends kept request.requestId []).congr
      simp only [reduceCtorEq, false_implies, implies_true]
  | some sql =>
      apply (parseQuery_ends kept parser sql request.requestId).congr
      simp only [Option.some.injEq, forall_eq']

/-- Every request but an authorised shutdown is answered by the protocol, exactly when its
calls can be answered. -/
theorem dispatch_ends (kept : Kept site start bus.persistent) (parser : SqlParser)
    (request : Request) (metrics : Metrics)
    (goesOn : ¬ (request.opcode = 0x15 ∧ request.isLocal = true)) :
    Ends site clock start (Router.dispatchRequest parser request metrics) ticks bus
      (Answerable parser site (clock ticks) bus request)
      (fun dispatched => ∃ responses, dispatched = .responses responses ∧
        Replied site clock ticks bus (scannedStem parser request) request.requestId
          responses) := by
  rcases request with ⟨requestId, opcode, payload, isLocal⟩
  unfold Router.dispatchRequest Answerable scannedStem
  simp only at goesOn ⊢
  split
  · exact one_ends (readValue_ends kept _)
  · exact one_ends (writeValue_ends kept _)
  · exact one_ends (deleteValue_ends kept _)
  · exact one_ends (deleteValueIfMatch_ends kept _)
  · exact one_ends (writeTtl_ends kept _)
  · exact responses_ends (findByPrefix_ends kept _)
  · exact responses_ends (parseQueryRequest_ends kept parser _)
  · exact plain_ends kept (createOk_single requestId)
  · apply plain_ends kept
    unfold Router.readStatus
    cases isLocal with
    | true => exact createPayload_single _ _
    | false => exact createInvalid_single _ _
  · cases isLocal with
    | true => exact absurd ⟨rfl, rfl⟩ goesOn
    | false => exact plain_ends kept (createInvalid_single requestId [])
  · apply plain_ends kept
    unfold Router.parseReload
    cases isLocal with
    | true => exact createOk_single _
    | false => exact createInvalid_single _ _
  · exact responses_ends (readKeys_ends kept _)
  · exact one_ends (readInspect_ends kept _)
  · exact responses_ends (readDump_ends kept _)
  · exact one_ends (writeRestore_ends kept _)
  · have unknown := @plain_ends site clock start ticks bus kept requestId _
      (createInvalid_single requestId [])
    -- no other match has a case of its own for the opcode
    split <;> first | contradiction | (split <;> first | contradiction | exact unknown)

end Handlers

/-- The responses keep to the protocol: one response, or the stream of the pairs that
`find_by_prefix` returns for the prefix, in key order. -/
def ReplyProtocol (site : Site) (clock : Nat → Instant) (ticks : Nat) (bus : PermutiveBus)
    (parser : SqlParser) (request : Request) (responses : List Response) : Prop :=
  match scannedStem parser request with
  | none => ∃ response, responses = [response] ∧ SingleReply request.requestId response
  | some stem => ∃ pairs,
      (run (bothTiers site) clock (PermutiveBus.findByPrefix stem) ticks bus).result =
        some pairs ∧
      pairs.Pairwise (fun left right => (compare left.1 right.1).isLE = true) ∧
      StreamReply request.requestId pairs responses

private theorem findByPrefix_sorted {site : Site} {clock : Nat → Instant} {ticks : Nat}
    {bus : PermutiveBus} {stem : Bytes} {pairs : List (Bytes × Bytes)}
    (returned : (run (bothTiers site) clock (PermutiveBus.findByPrefix stem) ticks bus).result =
      some pairs) :
    pairs.Pairwise (fun left right => (compare left.1 right.1).isLE = true) := by
  cases works : bus.persistent.poisoned with
  | true =>
      rw [run_findByPrefix_stuck site clock ticks works stem] at returned
      cases returned
  | false =>
      rw [run_findByPrefix site clock ticks works stem] at returned
      cases returned
      exact OrderedScan.sortByKey_pairwise _

/-- A request other than an authorised shutdown gets a reply that keeps to the protocol,
exactly when every call of its handler can be answered. -/
theorem reply_protocol_iff (site : Site) (clock : Nat → Instant) (disk : Disk) (ticks : Nat)
    (bus : PermutiveBus) (reached : Reachable site clock disk ticks bus) (parser : SqlParser)
    (request : Request) (metrics : Metrics)
    (goesOn : ¬ (request.opcode = 0x15 ∧ request.isLocal = true))
    (fits : ∀ stem pairs,
      (run (bothTiers site) clock (PermutiveBus.findByPrefix stem) ticks bus).result =
        some pairs → ∀ pair ∈ pairs, PairFits pair) :
    (∃ responses,
      (run (bothTiers site) clock (onTiers (Router.dispatchRequest parser request metrics)) ticks
        bus).result = some (.responses responses) ∧
      ReplyProtocol site clock ticks bus parser request responses) ↔
      Answerable parser site (clock ticks) bus request := by
  have ends := @dispatch_ends site clock bus.persistent ticks bus (Kept.refl reached.attached)
    parser request metrics goesOn
  constructor
  · intro replied
    rcases replied with ⟨responses, returned, -⟩
    by_contra refused
    rw [ends.panics refused] at returned
    cases returned
  · intro answerable
    rcases ends.returns answerable with ⟨dispatched, later, after, ran, -, responses, same, replied⟩
    refine ⟨responses, by rw [ran, same], ?_⟩
    unfold Replied at replied
    unfold ReplyProtocol
    cases scanned : scannedStem parser request with
    | none =>
        rw [scanned] at replied
        exact replied
    | some stem =>
        rw [scanned] at replied
        rcases replied with ⟨pairs, found, streamed⟩
        exact ⟨pairs, found, findByPrefix_sorted found, streamed.reply (fits stem pairs found)⟩

def silentParser : SqlParser where
  parseSql := fun _ => none
  display := fun _ => []
  toLowercase := id

def freshMetrics : Metrics where
  requestsTotal := 0
  requestsLocal := 0
  requestsNetwork := 0
  errorsTotal := 0
  activeSessions := 0
  latencySumMicroseconds := 0
  latencyMaxMicroseconds := 0

private theorem mem_scan_everything {site : Site} {clock : Nat → Instant} {ticks : Nat}
    {bus : PermutiveBus} (works : bus.persistent.poisoned = false) {stem : Bytes}
    {pairs : List (Bytes × Bytes)}
    (returned : (run (bothTiers site) clock (PermutiveBus.findByPrefix stem) ticks bus).result =
      some pairs) {pair : Bytes × Bytes} (member : pair ∈ pairs) :
    pair ∈ mergeResults (SoundTric.step (.findByPrefix []) (clock ticks) bus.transient).1
      (bus.persistent.listing []) := by
  obtain ⟨key, value⟩ := pair
  rw [run_findByPrefix site clock ticks works stem] at returned
  cases returned
  rw [mem_mergeResults, mem_transient_scan] at member ⊢
  rcases member with ⟨copy, -⟩ | ⟨row, uncached⟩
  · exact Or.inl ⟨copy, List.nil_prefix⟩
  · obtain ⟨stored, starts⟩ := SqliteBus.mem_listing.mp row
    refine Or.inr ⟨SqliteBus.mem_listing.mpr ⟨stored, List.nil_prefix⟩, ?_⟩
    intro cached
    obtain ⟨⟨other, shown⟩, there, rfl⟩ := List.mem_map.mp cached
    apply uncached
    exact List.mem_map_of_mem (mem_transient_scan.mpr ⟨(mem_transient_scan.mp there).1, starts⟩)

def twoKeys : Nat × PermutiveBus :=
  afterCalls openSite stillClock ∅
    [.writeValue (asBytes "users:1") (asBytes "a"), .writeValue (asBytes "users:2") (asBytes "b")]

def scanRequest : Request where
  requestId := 7
  opcode := 0x06
  payload := lengthPrefixed (asBytes "users:")
  isLocal := true

theorem scan_of_two_keys_is_answered :
    ∃ responses,
      (run (bothTiers openSite) stillClock
        (onTiers (Router.dispatchRequest silentParser scanRequest freshMetrics)) twoKeys.1
        twoKeys.2).result = some (.responses responses) ∧
      ReplyProtocol openSite stillClock twoKeys.1 twoKeys.2 silentParser scanRequest responses := by
  have works : twoKeys.2.persistent.poisoned = false := by decide +kernel
  have reached : Reachable openSite stillClock ∅ twoKeys.1 twoKeys.2 :=
    reachable_afterCalls openSite stillClock ∅ _
  apply (reply_protocol_iff openSite stillClock ∅ twoKeys.1 twoKeys.2 reached silentParser
    scanRequest freshMetrics ?_ ?_).mpr
  · exact fun _ => works
  · exact fun shutdown => absurd shutdown.1 (by decide)
  · intro stem pairs returned pair member
    have all : mergeResults
        (SoundTric.step (.findByPrefix []) (stillClock twoKeys.1) twoKeys.2.transient).1
        (twoKeys.2.persistent.listing []) =
          [(asBytes "users:1", asBytes "a"), (asBytes "users:2", asBytes "b")] := by
      decide +kernel
    have listed := mem_scan_everything works returned member
    rw [all] at listed
    rcases List.mem_cons.mp listed with rfl | last
    · exact ⟨by decide +kernel, by decide +kernel⟩
    · rw [List.mem_singleton.mp last]
      exact ⟨by decide +kernel, by decide +kernel⟩

/-- Storing a key whose namespace leads into a directory that does not exist. -/
def strayWrite : Request where
  requestId := 7
  opcode := 0x02
  payload := lengthPrefixed (asBytes "a/b:c") ++ lengthPrefixed (asBytes "x") ++ toBeBytes 8 0
  isLocal := true

theorem stray_write_gets_no_reply :
    ∃ ticks bus, Reachable sampleSite stillClock ∅ ticks bus ∧
      ¬ ∃ responses,
        (run (bothTiers sampleSite) stillClock
          (onTiers (Router.dispatchRequest silentParser strayWrite freshMetrics)) ticks
          bus).result = some (.responses responses) := by
  refine ⟨_, _, reachable_afterCalls sampleSite stillClock ∅ [], ?_⟩
  have panics : (run (bothTiers sampleSite) stillClock
      (onTiers (Router.dispatchRequest silentParser strayWrite freshMetrics))
      (afterCalls sampleSite stillClock ∅ []).1
      (afterCalls sampleSite stillClock ∅ []).2).result.isNone = true := by decide +kernel
  intro replied
  rcases replied with ⟨responses, returned⟩
  rw [returned] at panics
  cases panics

end TricPlus
