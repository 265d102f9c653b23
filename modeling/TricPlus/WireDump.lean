import TricPlus.Restart
import TricPlus.Restoring

/-!
The dump and the restore of the wire.

A chunk without its counters is a record, the one the `dump` command writes for the
same entry, and a restore reads it as it was written.  The stream stops after 65535
chunks, and a restore writes before it gives a lifetime: what was listed beyond, or
cannot be stored without a lifetime, does not come back.
-/

namespace TricPlus

open AtomicProgram
open BigEndian
open ExpiringMap (Entry remains)

def wireRecords (responses : List Response) : List Bytes :=
  (responses.filter (fun response => response.opcode = scanChunkOpcode)).map
    (fun response => response.payload.drop 4)

def restoreRequest (requestId : Nat) (record : Bytes) : Request where
  requestId := requestId
  opcode := 0x1A
  payload := record
  isLocal := true

def restoreRecords (requestId : Nat) : List Bytes → BusProgram (List Response)
  | [] => return []
  | record :: records => do
      let response ← Router.writeRestore (restoreRequest requestId record)
      let responses ← restoreRecords requestId records
      return response :: responses

/-! ### Records -/

def Dumped.cut (entry : Dumped) : Dumped := (entry.1, entry.2 % 2 ^ 64)

theorem dumpRecord_cut (entry : Dumped) : Cli.dumpRecord entry.cut = Cli.dumpRecord entry := by
  have millis : toBeBytes 8 (entry.2 % 2 ^ 64) = toBeBytes 8 entry.2 := toBeBytes_mod 8 entry.2
  unfold Cli.dumpRecord Dumped.cut
  rw [millis]

theorem cut_fits {entry : Dumped} (key : entry.1.1.length < fieldLimit)
    (value : entry.1.2.length < fieldLimit) : Cli.RecordFits entry.cut where
  key := key
  value := value
  millis := Nat.mod_lt _ (by decide)

private theorem restoreFields_record {entry : Dumped} (fits : Cli.RecordFits entry) :
    Router.restoreFields (Cli.dumpRecord entry) = some (entry.1.1, entry.1.2, some entry.2) := by
  have data : Cli.dumpRecord entry = [] ++ (lengthPrefixed entry.1.1 ++
      (lengthPrefixed entry.1.2 ++ (toBeBytes 8 entry.2 ++ []))) := by
    rw [Cli.dumpRecord_eq, List.append_nil, List.nil_append, ← List.append_assoc]
    rfl
  have first := readFieldWithOffset_lengthPrefixed []
    (lengthPrefixed entry.1.2 ++ (toBeBytes 8 entry.2 ++ [])) fits.key
  have second := readFieldWithOffset_lengthPrefixed ([] ++ lengthPrefixed entry.1.1)
    (toBeBytes 8 entry.2 ++ []) fits.value
  have third := readMillis_written ([] ++ lengthPrefixed entry.1.1 ++ lengthPrefixed entry.1.2) []
    fits.millis
  rw [List.append_assoc [] (lengthPrefixed entry.1.1)] at second
  rw [List.append_assoc _ (lengthPrefixed entry.1.2), List.append_assoc []] at third
  unfold Router.restoreFields
  rw [data]
  simp only [List.length_nil] at first
  rw [first]
  simp only [Option.bind_eq_bind, Option.bind_some]
  rw [second]
  simp only [Option.bind_some]
  rw [third]

private theorem restoreFields_fits {record key value : Bytes} {millis : Option Nat}
    (found : Router.restoreFields record = some (key, value, millis)) :
    key.length < fieldLimit ∧ value.length < fieldLimit := by
  unfold Router.restoreFields at found
  simp only [Option.bind_eq_bind, Option.bind_eq_some_iff] at found
  rcases found with ⟨⟨readKey, keyEnd⟩, atKey, ⟨readValue, valueEnd⟩, atValue, same⟩
  cases same
  exact ⟨Cli.readFieldWithOffset_fits atKey, Cli.readFieldWithOffset_fits atValue⟩

private theorem writeRestore_record (requestId : Nat) {record : Bytes} {entry : Dumped}
    (read : Router.restoreFields record = some (entry.1.1, entry.1.2, some entry.2)) :
    Router.writeRestore (restoreRequest requestId record) =
      (Cli.restoreEntry entry).bind (fun _ => .done (createOk requestId)) := by
  unfold Router.writeRestore restoreRequest
  simp only [read]
  unfold Cli.restoreEntry
  cases millis : entry.2 with
  | zero => rfl
  | succ rest => rfl

private theorem restoreRecords_entries (requestId : Nat) {records : List Bytes}
    {entries : List Dumped}
    (read : records.map Router.restoreFields =
      entries.map (fun entry => some (entry.1.1, entry.1.2, some entry.2))) :
    restoreRecords requestId records = (Cli.restoreEntries entries).bind
      (fun _ => .done (List.replicate entries.length (createOk requestId))) := by
  induction records generalizing entries with
  | nil =>
      rw [List.map_nil, eq_comm, List.map_eq_nil_iff] at read
      rw [read]
      rfl
  | cons record records ih =>
      cases entries with
      | nil => cases read
      | cons entry entries =>
          rw [List.map_cons, List.map_cons, List.cons_eq_cons] at read
          unfold restoreRecords
          rw [writeRestore_record requestId read.1, ih read.2]
          change ((Cli.restoreEntry entry).bind _).bind _ =
            ((Cli.restoreEntry entry).bind (fun _ => Cli.restoreEntries entries)).bind _
          rw [Program.bind_assoc, Program.bind_assoc]
          congr 1
          funext _
          exact Program.bind_assoc (Cli.restoreEntries entries) _ _

section Dump

variable {site : Site} {clock : Nat → Instant} {ticks : Nat} {bus : PermutiveBus}

/-- The entries of a dump: each listed pair with the lifetime reported for it. -/
def dumpedEntries (clock : Nat → Instant) (ticks : Nat) (bus : PermutiveBus) : List Dumped :=
  lifetimesFrom clock bus (ticks + 2) (bus.listed (clock ticks) [])

theorem lifetimesFrom_pairs (start : Nat) (pairs : List (Bytes × Bytes)) :
    (lifetimesFrom clock bus start pairs).map Prod.fst = pairs := by
  induction pairs generalizing start with
  | nil => rfl
  | cons pair pairs ih =>
      unfold lifetimesFrom
      rw [List.map_cons, ih]

private theorem lifetimesFrom_take (start count : Nat) (pairs : List (Bytes × Bytes)) :
    lifetimesFrom clock bus start (pairs.take count) =
      (lifetimesFrom clock bus start pairs).take count := by
  induction pairs generalizing start count with
  | nil => rw [List.take_nil, lifetimesFrom, List.take_nil]
  | cons pair pairs ih =>
      cases count with
      | zero => rfl
      | succ count =>
          rw [List.take_succ_cons, lifetimesFrom, lifetimesFrom, List.take_succ_cons, ih]

theorem run_lifetimes {α : Type} (monotone : Monotone clock) (sound : bus.persistent.Works)
    (select : List (Bytes × Bytes) → List (Bytes × Bytes))
    (finish : List (Bytes × Bytes) → List Dumped → α) :
    ∃ transient,
      run (bothTiers site) clock (onTiers (do
          let pairs ← DataBus.findByPrefix []
          let dumped ← Router.withLifetimes (select pairs)
          return finish pairs dumped)) ticks bus =
        ⟨some (finish (bus.listed (clock ticks) [])
            (lifetimesFrom clock bus (ticks + 2) (select (bus.listed (clock ticks) [])))),
          ticks + 2 + (select (bus.listed (clock ticks) [])).length,
          { bus with transient := transient }⟩ := by
  rcases run_listed site clock ticks sound [] with ⟨listed, scanned, purged⟩
  rcases @run_withLifetimes site clock (ticks + 2) { bus with transient := listed } monotone
    (select (bus.listed (clock ticks) [])) with ⟨last, asked⟩
  have same := @lifetimesFrom_congr clock ticks monotone { bus with transient := listed } bus
    (by
      intro key
      rw [purged key, ExpiringMap.remains_idem])
    _ (Nat.le_add_right ticks 2) (select (bus.listed (clock ticks) []))
  have program : onTiers (do
      let pairs ← DataBus.findByPrefix []
      let dumped ← Router.withLifetimes (select pairs)
      return finish pairs dumped) =
      (PermutiveBus.findByPrefix []).bind (fun pairs =>
        (onTiers (Router.withLifetimes (select pairs))).bind (fun dumped =>
          .done (finish pairs dumped))) := by
    have rest : ∀ pairs : List (Bytes × Bytes),
        onTiers (Router.withLifetimes (select pairs) >>= fun dumped =>
          .done (finish pairs dumped)) =
        (onTiers (Router.withLifetimes (select pairs))).bind (fun dumped =>
          .done (finish pairs dumped)) :=
      fun pairs => Program.translate_bind _ _ _
    exact congrArg (PermutiveBus.findByPrefix []).bind (funext rest)
  refine ⟨last, ?_⟩
  rw [program, run_bind, scanned]
  simp only
  rw [run_bind, asked]
  simp only [run_done, same]

private theorem wireRecords_chunks (requestId total : Nat) (entries : List Dumped) :
    wireRecords (entries.mapIdx (fun chunkId entry =>
        scanChunk requestId total chunkId (pairEntry entry.1 ++ toBeBytes 8 entry.2)) ++
      [scanEnd requestId]) = entries.map Cli.dumpRecord := by
  have isEnd : [scanEnd requestId].filter
      (fun response => decide (response.opcode = scanChunkOpcode)) = [] := rfl
  have allChunks : (entries.mapIdx (fun chunkId entry =>
      scanChunk requestId total chunkId (pairEntry entry.1 ++ toBeBytes 8 entry.2))).filter
        (fun response => decide (response.opcode = scanChunkOpcode)) =
      entries.mapIdx (fun chunkId entry =>
        scanChunk requestId total chunkId (pairEntry entry.1 ++ toBeBytes 8 entry.2)) := by
    rw [List.filter_eq_self]
    intro response member
    rcases List.mem_mapIdx.mp member with ⟨index, inside, same⟩
    rw [← same]
    rfl
  unfold wireRecords
  rw [List.filter_append, isEnd, List.append_nil, allChunks]
  apply List.ext_getElem?
  intro index
  rw [List.getElem?_map, List.getElem?_mapIdx, List.getElem?_map, Option.map_map]
  congr 1
  funext entry
  exact (Cli.dumpRecord_eq entry).symm

private theorem run_readDump (monotone : Monotone clock) (sound : bus.persistent.Works)
    (request : Request) :
    ∃ responses ended transient,
      run (bothTiers site) clock (onTiers (Router.readDump request)) ticks bus =
        ⟨some responses, ended, { bus with transient := transient }⟩ ∧
      wireRecords responses =
        ((dumpedEntries clock ticks bus).take maxChunks).map Cli.dumpRecord := by
  rcases @run_lifetimes site clock ticks bus _ monotone sound (List.take maxChunks)
    (fun pairs dumped => dumped.mapIdx (fun chunkId entry =>
      scanChunk request.requestId (min pairs.length maxChunks) chunkId
        (pairEntry entry.1 ++ toBeBytes 8 entry.2)) ++ [scanEnd request.requestId]) with
    ⟨transient, ran⟩
  rw [lifetimesFrom_take] at ran
  exact ⟨_, _, transient, ran, wireRecords_chunks _ _ _⟩

theorem run_renderDump (monotone : Monotone clock) (sound : bus.persistent.Works) {files : Files}
    {path : Bytes} (created : files.create path = .ok ()) :
    ∃ text ended transient,
      run (bothTiers site) clock (onTiers (Cli.renderDump files [asBytes "-f", path])) ticks bus =
        ⟨some ⟨text, some (path, (dumpedEntries clock ticks bus).flatMap Cli.dumpRecord)⟩,
          ended, { bus with transient := transient }⟩ := by
  have parts : Cli.filePath [asBytes "-f", path] = some path := if_pos rfl
  rcases @run_lifetimes site clock ticks bus _ monotone sound id
    (fun _ dumped => (⟨showNat dumped.length ++ asBytes " entries  " ++
      showNat (dumped.flatMap Cli.dumpRecord).length ++ asBytes "B  written to " ++ path ++
      asBytes "\n", some (path, dumped.flatMap Cli.dumpRecord)⟩ : Rendered)) with
    ⟨transient, ran⟩
  have renders : Cli.renderDump files [asBytes "-f", path] = (do
      let pairs ← DataBus.findByPrefix []
      let dumped ← Router.withLifetimes (id pairs)
      return (⟨showNat dumped.length ++ asBytes " entries  " ++
        showNat (dumped.flatMap Cli.dumpRecord).length ++ asBytes "B  written to " ++ path ++
        asBytes "\n", some (path, dumped.flatMap Cli.dumpRecord)⟩ : Rendered)) := by
    unfold Cli.renderDump
    rw [parts]
    simp only [created]
    rfl
  rw [renders]
  exact ⟨_, _, transient, ran⟩

end Dump

/-! ### There and back -/

/-- A dump of a bus, restored on an empty one: `dumped` are the entries with the
milliseconds that were written, `restored` is what the other bus lists afterwards. -/
structure WireRestored (site : Site) (now : Instant) (bus : PermutiveBus) (request : Request)
    (target : Site) (moment : Instant) (empty : PermutiveBus) (restoreId : Nat)
    (pairs : List (Bytes × Bytes)) (dumped : List Dumped) (responses : List Response)
    (restored : List (Bytes × Bytes)) : Prop where
  listed : (run (bothTiers site) (still now) (PermutiveBus.findByPrefix []) 0 bus).result =
    some pairs
  ofPairs : dumped.map Prod.fst = pairs
  streamed : (run (bothTiers site) (still now) (onTiers (Router.readDump request)) 0 bus).result =
    some responses
  sameBytes : wireRecords responses = (dumped.take maxChunks).map Cli.dumpRecord
  command : ∀ files path, files.create path = .ok () →
    ∃ text, (run (bothTiers site) (still now)
        (onTiers (Cli.renderDump files [asBytes "-f", path])) 0 bus).result =
      some ⟨text, some (path, dumped.flatMap Cli.dumpRecord)⟩
  parsed : (wireRecords responses).map Router.restoreFields =
    (dumped.take maxChunks).map (fun entry => some (entry.1.1, entry.1.2, some entry.2))
  complete : ∃ replies later after,
    run (bothTiers target) (still moment)
        (onTiers (restoreRecords restoreId (wireRecords responses))) 0 empty =
      ⟨some replies, later, after⟩ ∧
    (run (bothTiers target) (still moment) (PermutiveBus.findByPrefix []) later after).result =
      some restored ∧
    ∀ pair, pair ∈ restored ↔ pair ∈ pairs

/-- The mutex is in order, whatever is listed beyond the chunks there can be is also listed
before, and what is listed fits its record, can be stored and has one value. -/
structure WireRestorable (now : Instant) (bus : PermutiveBus) (target : Site)
    (empty : PermutiveBus) : Prop where
  works : bus.persistent.Works
  counted : ∀ pair ∈ bus.listed now [], pair ∈ (bus.listed now []).take maxChunks
  fits : ∀ pair ∈ bus.listed now [], pair.1.length < fieldLimit ∧ pair.2.length < fieldLimit
  usable : ∀ pair ∈ bus.listed now [], empty.persistent.usable target pair.1 = true
  oneValue : ∀ pair ∈ bus.listed now [], ∀ other ∈ bus.listed now [], pair.1 = other.1 →
    pair.2 = other.2

section RoundTrip

variable {site target : Site} {now moment : Instant} {bus empty : PermutiveBus}

private theorem restored_value {start later : Nat} {last : Option (Bytes × Nat)} {cell : Cell}
    (restored : RestoredAs (still moment) start later last none cell) :
    cell.value moment = last.map Prod.fst := by
  rcases last with _ | ⟨value, _ | millis⟩
  · exact Cell.Matches.value_eq restored
  · exact Cell.Matches.value_eq restored
  · rcases restored with ⟨set, -, -, matched⟩
    have shown := matched.value_eq
    have live : remains (still moment later) (some (⟨value, some (still moment set +
        fromMillis (millis + 1))⟩ : Entry Bytes Instant)) =
        some ⟨value, some (still moment set + fromMillis (millis + 1))⟩ := by
      rw [ExpiringMap.remains_eq_some]
      refine ⟨rfl, decide_eq_true ?_⟩
      exact Nat.lt_add_of_pos_right (Nat.mul_pos (Nat.succ_pos millis) (by decide))
    rw [live] at shown
    exact shown

private theorem restored_listed (isEmpty : empty.Empty) {entries : List Dumped} (restoreId : Nat)
    {records : List Bytes} (read : records.map Router.restoreFields =
      entries.map (fun entry => some (entry.1.1, entry.1.2, some entry.2)))
    (usable : ∀ entry ∈ entries, empty.persistent.usable target entry.1.1 = true) :
    ∃ replies later after restored,
      run (bothTiers target) (still moment) (onTiers (restoreRecords restoreId records)) 0 empty =
        ⟨some replies, later, after⟩ ∧
      (run (bothTiers target) (still moment) (PermutiveBus.findByPrefix []) later after).result =
        some restored ∧
      ∀ key value, (key, value) ∈ restored ↔ (lastEntry key entries).map Prod.fst = some value := by
  rcases @run_restoreEntries target (still moment) 0 empty (still_monotone moment) isEmpty.works
    (isEmpty.whole target) entries usable with ⟨later, after, ran, -, steady, each⟩
  have homed := @run_homed target (still moment) 0 empty _ (onTiers (Cli.restoreEntries entries))
    isEmpty.homed
  rw [ran] at homed
  rcases run_listed target (still moment) later steady.works [] with ⟨transient, scanned, -⟩
  refine ⟨List.replicate entries.length (createOk restoreId), later, after,
    after.listed (still moment later) [], ?_, congrArg Outcome.result scanned, ?_⟩
  · rw [restoreRecords_entries restoreId read]
    have program : onTiers ((Cli.restoreEntries entries).bind
        (fun _ => .done (List.replicate entries.length (createOk restoreId)))) =
        (onTiers (Cli.restoreEntries entries)).bind
          (fun _ => .done (List.replicate entries.length (createOk restoreId))) :=
      Program.translate_bind _ _ _
    rw [program, run_bind, ran]
    rfl
  · intro key value
    rw [mem_listed_iff target homed]
    have shown := restored_value (each key none (isEmpty.nothing target moment key))
    change (after.cell target key).value moment = some value ∧ _ ↔ _
    rw [shown]
    exact and_iff_left List.nil_prefix

private theorem dumpedEntries_pairs (now : Instant) (bus : PermutiveBus) :
    ((dumpedEntries (still now) 0 bus).map Dumped.cut).map Prod.fst = bus.listed now [] := by
  rw [List.map_map]
  exact lifetimesFrom_pairs 2 (bus.listed now [])

theorem WireRestorable.restored (isEmpty : empty.Empty) (request : Request) (restoreId : Nat)
    (restorable : WireRestorable now bus target empty) :
    ∃ pairs dumped responses restored, WireRestored site now bus request target moment empty
      restoreId pairs dumped responses restored := by
  rcases run_listed site (still now) 0 restorable.works [] with ⟨listedAfter, scanned, -⟩
  rcases @run_readDump site (still now) 0 bus (still_monotone now) restorable.works request with
    ⟨responses, ended, dumpAfter, streamed, records⟩
  have named : ∃ dumped, dumped = (dumpedEntries (still now) 0 bus).map Dumped.cut := ⟨_, rfl⟩
  rcases named with ⟨dumped, isDumped⟩
  have ofPairs : dumped.map Prod.fst = bus.listed now [] := by
    rw [isDumped]
    exact dumpedEntries_pairs now bus
  have written : ∀ entries : List Dumped,
      (entries.map Dumped.cut).map Cli.dumpRecord = entries.map Cli.dumpRecord := by
    intro entries
    rw [List.map_map]
    exact List.map_congr_left (fun entry _ => dumpRecord_cut entry)
  have fits : ∀ entry ∈ dumped, Cli.RecordFits entry := by
    intro entry member
    have pairListed : entry.1 ∈ bus.listed now [] := ofPairs ▸ List.mem_map_of_mem member
    rw [isDumped] at member
    rcases List.mem_map.mp member with ⟨whole, -, same⟩
    have lengths := restorable.fits entry.1 pairListed
    rw [← same] at lengths ⊢
    exact cut_fits lengths.1 lengths.2
  have sameBytes : wireRecords responses = (dumped.take maxChunks).map Cli.dumpRecord := by
    rw [records, ← written, List.map_take, ← isDumped]
  have parsed : ((dumped.take maxChunks).map Cli.dumpRecord).map Router.restoreFields =
      (dumped.take maxChunks).map (fun entry => some (entry.1.1, entry.1.2, some entry.2)) := by
    rw [List.map_map]
    apply List.map_congr_left
    intro entry member
    have read := restoreFields_record (fits entry (List.mem_of_mem_take member))
    rw [Function.comp_apply, read]
  have usable : ∀ entry ∈ dumped.take maxChunks,
      empty.persistent.usable target entry.1.1 = true := by
    intro entry member
    apply restorable.usable entry.1
    rw [← ofPairs]
    exact List.mem_map_of_mem (List.mem_of_mem_take member)
  rcases @restored_listed target moment empty isEmpty (dumped.take maxChunks) restoreId _ parsed
    usable with ⟨replies, later, after, restored, ran, found, listed⟩
  refine ⟨bus.listed now [], dumped, responses, restored, ?_⟩
  exact {
    listed := congrArg Outcome.result scanned
    ofPairs := ofPairs
    streamed := congrArg Outcome.result streamed
    sameBytes := sameBytes
    command := by
      intro files path created
      rcases @run_renderDump site (still now) 0 bus (still_monotone now) restorable.works files path
        created with ⟨text, _, _, rendered⟩
      refine ⟨text, ?_⟩
      rw [rendered]
      have sameFile : (dumpedEntries (still now) 0 bus).flatMap Cli.dumpRecord =
          dumped.flatMap Cli.dumpRecord := by
        rw [List.flatMap_def, List.flatMap_def, isDumped, written]
      rw [sameFile]
    parsed := by rw [sameBytes, parsed]
    complete := by
      refine ⟨replies, later, after, ?_, found, ?_⟩
      · rw [sameBytes]
        exact ran
      · intro pair
        rcases pair with ⟨key, value⟩
        rw [listed]
        have ofTaken : ∀ entry ∈ dumped.take maxChunks,
            entry.1 ∈ (bus.listed now []).take maxChunks := by
          intro entry member
          rw [← ofPairs, ← List.map_take]
          exact List.mem_map_of_mem member
        constructor
        · intro last
          rcases Option.map_eq_some_iff.mp last with ⟨⟨held, millis⟩, lastIs, same⟩
          cases same
          exact List.mem_of_mem_take (ofTaken _ (lastEntry_mem lastIs))
        · intro member
          have taken := restorable.counted _ member
          rw [← ofPairs, ← List.map_take, List.mem_map] at taken
          rcases taken with ⟨entry, inTaken, same⟩
          rcases lastEntry_isSome inTaken (congrArg Prod.fst same) with ⟨held, millis, lastIs⟩
          have alsoListed := List.mem_of_mem_take (ofTaken _ (lastEntry_mem lastIs))
          have equal : held = value := restorable.oneValue _ alsoListed _ member rfl
          rw [lastIs, ← equal]
          rfl }

private theorem usable_of_restored (isEmpty : empty.Empty) {entries : List Dumped} {restoreId : Nat}
    {records : List Bytes} (read : records.map Router.restoreFields =
      entries.map (fun entry => some (entry.1.1, entry.1.2, some entry.2)))
    {replies : List Response} {later : Nat} {after : PermutiveBus}
    (ran : run (bothTiers target) (still moment) (onTiers (restoreRecords restoreId records)) 0
      empty = ⟨some replies, later, after⟩) :
    ∀ entry ∈ entries, empty.persistent.usable target entry.1.1 = true := by
  have ends := @restoreEntries_ends target (still moment) _ 0 empty
    (Kept.refl isEmpty.attached) entries
  have program : onTiers (restoreRecords restoreId records) =
      (onTiers (Cli.restoreEntries entries)).bind
        (fun _ => .done (List.replicate entries.length (createOk restoreId))) := by
    rw [restoreRecords_entries restoreId read]
    exact Program.translate_bind _ _ _
  have stores : ∀ entry ∈ entries, empty.persistent.Stores target entry.1.1 := by
    by_contra refused
    have stuck := ends.panics refused
    rw [program, run_bind] at ran
    rcases restored : run (bothTiers target) (still moment)
      (onTiers (Cli.restoreEntries entries)) 0 empty with ⟨result, ended, last⟩
    rw [restored] at stuck ran
    cases stuck
    cases ran
  exact fun entry member => (stores entry member).2

private theorem WireRestored.restorable (isEmpty : empty.Empty) {request : Request}
    {restoreId : Nat}
    {pairs restored : List (Bytes × Bytes)} {dumped : List Dumped} {responses : List Response}
    (back : WireRestored site now bus request target moment empty restoreId pairs dumped responses
      restored) : WireRestorable now bus target empty := by
  rcases listed_of_returned back.listed with ⟨works, pairsAre⟩
  change pairs = bus.listed now [] at pairsAre
  rcases back.complete with ⟨replies, later, after, ran, found, same⟩
  have usable := usable_of_restored isEmpty back.parsed ran
  rcases @restored_listed target moment empty isEmpty _ restoreId _ back.parsed usable with
    ⟨replies', later', after', restored', ran', found', listed⟩
  cases ran.symm.trans ran'
  cases found.symm.trans found'
  have ofTaken : ∀ entry ∈ dumped.take maxChunks, entry.1 ∈ pairs.take maxChunks := by
    intro entry member
    rw [← back.ofPairs, ← List.map_take]
    exact List.mem_map_of_mem member
  -- every listed pair is the last record of its key
  have last : ∀ key value, (key, value) ∈ pairs →
      ∃ millis, lastEntry key (dumped.take maxChunks) = some (value, millis) := by
    intro key value member
    rcases Option.map_eq_some_iff.mp ((listed key value).mp ((same _).mpr member)) with
      ⟨⟨held, millis⟩, lastIs, equal⟩
    cases equal
    exact ⟨millis, lastIs⟩
  have read : ∀ entry ∈ dumped.take maxChunks,
      entry.1.1.length < fieldLimit ∧ entry.1.2.length < fieldLimit := by
    intro entry member
    have parsed : some (entry.1.1, entry.1.2, some entry.2) ∈
        (wireRecords responses).map Router.restoreFields := by
      rw [back.parsed]
      exact List.mem_map_of_mem member
    rcases List.mem_map.mp parsed with ⟨record, -, fields⟩
    exact restoreFields_fits fields
  rw [pairsAre] at last ofTaken
  constructor
  · exact works
  · intro pair member
    rcases last pair.1 pair.2 member with ⟨millis, lastIs⟩
    exact ofTaken _ (lastEntry_mem lastIs)
  · intro pair member
    rcases last pair.1 pair.2 member with ⟨millis, lastIs⟩
    exact read _ (lastEntry_mem lastIs)
  · intro pair member
    rcases last pair.1 pair.2 member with ⟨millis, lastIs⟩
    exact usable _ (lastEntry_mem lastIs)
  · intro pair member other alsoMember sameKey
    rcases last pair.1 pair.2 member with ⟨millis, lastIs⟩
    rcases last other.1 other.2 alsoMember with ⟨otherMillis, otherIs⟩
    rw [sameKey] at lastIs
    exact congrArg Prod.fst (Option.some_inj.mp (lastIs.symm.trans otherIs))

/-- Wire dump and wire restore are inverse exactly where what is listed can be restored. -/
theorem wire_round_trip_iff (site : Site) (bus : PermutiveBus) (now : Instant) (request : Request)
    (target : Site) (moment : Instant) (empty : PermutiveBus) (restoreId : Nat)
    (isEmpty : empty.Empty) :
    (∃ pairs dumped responses restored, WireRestored site now bus request target moment empty
      restoreId pairs dumped responses restored) ↔ WireRestorable now bus target empty := by
  constructor
  · intro back
    rcases back with ⟨pairs, dumped, responses, restored, back⟩
    exact back.restorable isEmpty
  · intro restorable
    exact restorable.restored isEmpty request restoreId

end RoundTrip

/-! ### Two buses -/

def dumpRequest : Request where
  requestId := 83
  opcode := 0x19
  payload := []
  isLocal := true

def mixedBus : PermutiveBus :=
  (afterCalls openSite stillClock ∅
    [.writeValue (asBytes "users:1") (asBytes "a"),
      .writeValueWithTtl (asBytes "users:2") (asBytes "b") (fromMillis 5)]).2

theorem mixed_bus_comes_back :
    ∃ pairs dumped responses restored, WireRestored openSite 0 mixedBus dumpRequest openSite 0
      emptyBus 84 pairs dumped responses restored :=
  (wire_round_trip_iff openSite mixedBus 0 dumpRequest openSite 0 emptyBus 84
    emptyBus_empty).mpr
    { works := (by decide +kernel : mixedBus.persistent.poisoned = false)
      counted := by decide +kernel
      fits := by decide +kernel
      usable := by decide +kernel
      oneValue := by decide +kernel }

/-- `users:` and a number below 65536 in four letters. -/
def crowdedKey (number : Nat) : Bytes :=
  asBytes "users:" ++ [4096, 256, 16, 1].map (fun place => UInt8.ofNat (0x61 + number / place % 16))

private theorem crowdedKey_injective {number other : Nat} (small : number < 65536)
    (otherSmall : other < 65536) (same : crowdedKey number = crowdedKey other) :
    number = other := by
  have letters := List.append_cancel_left same
  simp only [List.map_cons, List.map_nil, List.cons.injEq, and_true] at letters
  have digit : ∀ left right : Nat, UInt8.ofNat (0x61 + left % 16) = UInt8.ofNat (0x61 + right % 16) →
      left % 16 = right % 16 := by
    intro left right equal
    have numbers := congrArg UInt8.toNat equal
    rw [UInt8.toNat_ofNat', UInt8.toNat_ofNat'] at numbers
    omega
  rcases letters with ⟨first, second, third, fourth⟩
  have a := digit _ _ first
  have b := digit _ _ second
  have c := digit _ _ third
  have d := digit _ _ fourth
  omega

def crowdedTable : Nat → Table
  | 0 => ∅
  | count + 1 => (crowdedTable count).insert (crowdedKey count) []

private theorem getElem?_crowdedTable {count number : Nat} (inside : number < count) :
    (crowdedTable count)[crowdedKey number]? = some [] := by
  induction count with
  | zero => omega
  | succ count ih =>
      unfold crowdedTable
      rw [Std.ExtTreeMap.getElem?_insert]
      split
      · rfl
      · rename_i different
        apply ih
        have apart : number ≠ count := by
          intro same
          apply different
          rw [same]
          exact Std.ReflCmp.compare_self
        omega

def usersStem : Bytes := asBytes "users"

def crowdedDisk (count : Nat) : Disk :=
  (∅ : Disk).insert (openSite.fileAt usersStem) (crowdedTable count)

def crowdedBus (count : Nat) : PermutiveBus :=
  (createPermutiveBus openSite (crowdedDisk count) stillClock 0).state

private theorem crowdedDisk_stems (count : Nat) : StemsTell openSite (crowdedDisk count) := by
  intro stem scanned
  have there := scanned.there
  unfold crowdedDisk at there
  rw [Std.ExtTreeMap.getElem?_insert] at there
  split at there
  · rename_i same
    rw [← fileAt_injective openSite (Std.LawfulEqCmp.eq_of_compare same)]
    decide +kernel
  · rw [Std.ExtTreeMap.getElem?_empty] at there
    cases there

private theorem crowdedBus_lists {count number : Nat} (inside : number < count) :
    (crowdedKey number, []) ∈ (crowdedBus count).listed 0 [] := by
  have persistent : (crowdedBus count).persistent = createSqliteBus openSite (crowdedDisk count) :=
    (createPermutiveBus_state openSite (crowdedDisk count) stillClock 0).1
  have file : (crowdedDisk count)[openSite.fileAt usersStem]? = some (crowdedTable count) :=
    Std.ExtTreeMap.getElem?_insert_self
  have isOpen : (createSqliteBus openSite (crowdedDisk count)).databases[usersStem]? =
      some (openSite.fileAt usersStem) := by
    apply (createSqliteBus_databases (crowdedDisk_stems count)).mpr
    refine ⟨⟨by decide +kernel, ?_, rfl⟩, rfl⟩
    rw [file]
    rfl
  have row : (createSqliteBus openSite (crowdedDisk count)).selectValue
      (openSite.fileAt usersStem) (crowdedKey number) = some [] := by
    rw [SqliteBus.selectValue_eq]
    change ((crowdedDisk count)[openSite.fileAt usersStem]?).bind _ = _
    rw [file]
    exact getElem?_crowdedTable inside
  unfold PermutiveBus.listed
  rw [mem_mergeResults, persistent]
  right
  refine ⟨SqliteBus.mem_listing.mpr ⟨⟨_, _, isOpen, row⟩, List.nil_prefix⟩, ?_⟩
  intro listed
  rcases List.mem_map.mp listed with ⟨⟨about, held⟩, member, same⟩
  have copied := (mem_transient_scan.mp member).1
  have noCopy : (crowdedBus count).transient.contents[crowdedKey number]? = none := by
    apply (createPermutiveBus_state openSite (crowdedDisk count) stillClock 0).2
    intro starts
    rcases starts with ⟨rest, equal⟩
    have registryFirst : registryStem.head? = some 0x5F := by
      decide +kernel
    have usersFirst : (asBytes "users:").head? = some 0x75 := by
      decide +kernel
    have first := congrArg List.head? equal
    unfold crowdedKey at first
    rw [List.head?_append, List.head?_append, registryFirst, usersFirst] at first
    cases first
  change about = crowdedKey number at same
  rw [same, noCopy] at copied
  cases copied

private theorem crowdedBus_cut {count : Nat} (more : maxChunks < count) (small : count ≤ 65536)
    (target : Site) (empty : PermutiveBus) :
    ¬ WireRestorable 0 (crowdedBus count) target empty := by
  intro restorable
  have distinct : ((List.range count).map (fun number => (crowdedKey number, ([] : Bytes)))).Nodup := by
    apply List.Nodup.map_on _ List.nodup_range
    intro number inside other otherInside same
    rw [List.mem_range] at inside otherInside
    exact crowdedKey_injective (by omega) (by omega) (congrArg Prod.fst same)
  have inFront : (List.range count).map (fun number => (crowdedKey number, ([] : Bytes))) ⊆
      ((crowdedBus count).listed 0 []).take maxChunks := by
    intro pair member
    rcases List.mem_map.mp member with ⟨number, inside, same⟩
    rw [← same]
    exact restorable.counted _ (crowdedBus_lists (List.mem_range.mp inside))
  have few := (distinct.subperm inFront).length_le
  rw [List.length_map, List.length_range, List.length_take] at few
  omega

/-- Of 65536 keys one does not come back. -/
theorem keys_beyond_the_counters_are_lost :
    Reachable openSite stillClock (crowdedDisk 65536)
        (createPermutiveBus openSite (crowdedDisk 65536) stillClock 0).ticks (crowdedBus 65536) ∧
      ¬ ∃ pairs dumped responses restored, WireRestored openSite 0 (crowdedBus 65536) dumpRequest
        openSite 0 emptyBus 84 pairs dumped responses restored := by
  refine ⟨.created 0, ?_⟩
  intro back
  rcases back with ⟨pairs, dumped, responses, restored, back⟩
  exact crowdedBus_cut (by decide) (Nat.le_refl _) openSite emptyBus
    (back.restorable emptyBus_empty)

end TricPlus
