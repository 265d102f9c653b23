import TricPlus.Cli
import TricPlus.ReplyProtocol

/-!
The prefix scan of the Python client.

The client takes the chunks as they come.  It reads past their number and their total, so
a chunk that is lost or overtaken goes unnoticed, and so does one cut short by `recv`.
-/

namespace TricPlus

open BigEndian

namespace Python

/-- What `recv` leaves of a datagram. -/
def maxDatagram : Nat := 65536

/-- Request ids wrap at 32 bits. -/
structure Connection where
  requestId : Nat
  bounded : requestId < 2 ^ 32

inductive ScanOutcome where
  | returned (pairs : List (Bytes × Bytes))
  | tricError (message : Bytes)
  | structError
  | waiting
  deriving DecidableEq

/-- `struct.unpack(">I", …)`, which takes four bytes and no others. -/
def unpackU32 (bytes : Bytes) : Option Nat :=
  if bytes.length = 4 then some (fromBeBytes bytes) else none

/-- `body[start : start + count]` -/
def slice (body : Bytes) (start count : Nat) : Bytes :=
  (body.drop start).take count

def hexDigits (byte : UInt8) : Bytes :=
  let digit := fun value => if value < 10 then 0x30 + value else 0x57 + value
  [digit (byte / 16), digit (byte % 16)]

def readPair (body : Bytes) : Option (Bytes × Bytes) := do
  let offset := 4
  let keyLen ← unpackU32 (slice body offset 4)
  let offset := offset + 4
  let key := slice body offset keyLen
  let offset := offset + keyLen
  let valueLen ← unpackU32 (slice body offset 4)
  let offset := offset + 4
  let value := slice body offset valueLen
  some (key, value)

def receivePairs (rid : Nat) : List Bytes → List (Bytes × Bytes) → ScanOutcome
  | [], _ => .waiting
  | datagram :: queue, pairs =>
      let reply := datagram.take maxDatagram
      if reply.length < 5 then .tricError (asBytes "malformed scan reply")
      else
        let replyRid := fromBeBytes (reply.take 4)
        let replyOp := reply.getD 4 0
        if replyRid ≠ rid then
          .tricError (asBytes "scan request-id mismatch: sent " ++ showNat rid ++
            asBytes ", got " ++ showNat replyRid)
        else if replyOp = scanEndOpcode then .returned pairs
        else if replyOp ≠ scanChunkOpcode then
          .tricError (asBytes "scan unexpected opcode 0x" ++ hexDigits replyOp)
        else
          let body := reply.drop 5
          if body.length < 4 then .tricError (asBytes "malformed scan chunk header")
          else
            match readPair body with
            | none => .structError
            | some pair => receivePairs rid queue (pairs ++ [pair])

def scan (connection : Connection) (queue : List Bytes) : ScanOutcome :=
  receivePairs connection.requestId queue []

end Python

/-! ### What the server sends -/

def streamedPairs (pairs : List (Bytes × Bytes)) : List (Bytes × Bytes) :=
  pairs.take maxChunks

/-- The datagrams of a scan. -/
def scanDatagrams (requestId : Nat) (pairs : List (Bytes × Bytes)) : List Bytes :=
  (scanResponses requestId (pairs.map pairEntry)).map writeLocalToBuffer

/-- The chunks that arrive before the end does, by their place in the stream: some may be
lost, and one may overtake another. -/
structure Arrival (count : Nat) where
  order : List Nat
  distinct : order.Nodup
  sent : ∀ index ∈ order, index < count

/-- The datagrams the client finds. -/
def received (requestId : Nat) (pairs : List (Bytes × Bytes))
    (arrival : Arrival (streamedPairs pairs).length) : List Bytes :=
  arrival.order.filterMap (fun index => (scanDatagrams requestId pairs)[index]?) ++
    [writeLocalToBuffer (scanEnd requestId)]

def arrivedPairs (pairs : List (Bytes × Bytes))
    (arrival : Arrival (streamedPairs pairs).length) : List (Bytes × Bytes) :=
  arrival.order.filterMap (fun index => (streamedPairs pairs)[index]?)

/-- The whole chunk is received: its head and the four fields take seventeen bytes. -/
def FitsDatagram (pair : Bytes × Bytes) : Prop :=
  17 + pair.1.length + pair.2.length ≤ Python.maxDatagram

instance (pair : Bytes × Bytes) : Decidable (FitsDatagram pair) := Nat.decLe _ _

def pairSize (pair : Bytes × Bytes) : Nat := pair.1.length + pair.2.length

def chunkDatagram (requestId total index : Nat) (pair : Bytes × Bytes) : Bytes :=
  writeLocalToBuffer (scanChunk requestId total index (pairEntry pair))

private theorem scanDatagrams_chunk (requestId : Nat) (pairs : List (Bytes × Bytes)) {index : Nat}
    (inside : index < (streamedPairs pairs).length) :
    (scanDatagrams requestId pairs)[index]? = some (chunkDatagram requestId
      (min pairs.length maxChunks) index (streamedPairs pairs)[index]) := by
  unfold streamedPairs at inside
  have short : index < ((pairs.map pairEntry).take maxChunks).length := by
    rw [List.length_take] at inside ⊢
    rw [List.length_map]
    exact inside
  unfold scanDatagrams scanResponses
  rw [List.getElem?_map, List.getElem?_append_left (by rw [List.length_mapIdx]; exact short),
    List.getElem?_mapIdx, List.getElem?_eq_getElem short]
  simp only [List.getElem_take, List.getElem_map, List.length_map, Option.map_some]
  unfold chunkDatagram streamedPairs
  rw [List.getElem_take]

namespace Python

theorem chunkPayload_parts (requestId total index : Nat) (pair : Bytes × Bytes) :
    ∃ header, header.length = 4 ∧
      (scanChunk requestId total index (pairEntry pair)).payload =
        header ++ (toBeBytes 4 pair.1.length ++ (pair.1 ++
          (toBeBytes 4 pair.2.length ++ pair.2))) := by
  refine ⟨toBeBytes 2 total ++ toBeBytes 2 index, ?_, ?_⟩
  · rw [List.length_append, length_toBeBytes, length_toBeBytes]
  · unfold scanChunk pairEntry lengthPrefixed
    simp only [List.append_assoc]

theorem length_chunkPayload (requestId total index : Nat) (pair : Bytes × Bytes) :
    (scanChunk requestId total index (pairEntry pair)).payload.length = 12 + pairSize pair := by
  rcases chunkPayload_parts requestId total index pair with ⟨header, four, same⟩
  rw [same]
  simp only [List.length_append, length_toBeBytes, four]
  unfold pairSize
  omega

def receivedBody (payload : Bytes) : Bytes :=
  payload.take (maxDatagram - 5)

private theorem length_receivedBody (payload : Bytes) :
    (receivedBody payload).length = min (maxDatagram - 5) payload.length :=
  List.length_take

def receivedPair (requestId total index : Nat) (pair : Bytes × Bytes) : Option (Bytes × Bytes) :=
  readPair (receivedBody (scanChunk requestId total index (pairEntry pair)).payload)

private theorem slice_behind {front field rest : Bytes} {start count : Nat}
    (atStart : front.length = start)
    (long : field.length = count) : slice (front ++ (field ++ rest)) start count = field := by
  unfold slice
  rw [List.drop_left' atStart, List.take_left' long]

private theorem receivedPair_whole (requestId total index : Nat) {pair : Bytes × Bytes}
    (fits : FitsDatagram pair) : receivedPair requestId total index pair = some pair := by
  have whole : receivedBody (scanChunk requestId total index (pairEntry pair)).payload =
      (scanChunk requestId total index (pairEntry pair)).payload := by
    apply List.take_of_length_le
    rw [length_chunkPayload]
    unfold FitsDatagram at fits
    unfold pairSize
    omega
  rcases chunkPayload_parts requestId total index pair with ⟨header, four, same⟩
  rcases pair with ⟨key, value⟩
  unfold FitsDatagram maxDatagram at fits
  simp only at same fits
  unfold receivedPair
  rw [whole, same]
  have keyLength : fromBeBytes (toBeBytes 4 key.length) = key.length :=
    fromBeBytes_toBeBytes_of_lt (by omega)
  have valueLength : fromBeBytes (toBeBytes 4 value.length) = value.length :=
    fromBeBytes_toBeBytes_of_lt (by omega)
  unfold readPair unpackU32
  simp only [Option.bind_eq_bind]
  rw [slice_behind four (length_toBeBytes 4 _), if_pos (length_toBeBytes 4 _), Option.bind_some,
    keyLength, ← List.append_assoc header]
  have eight : (header ++ toBeBytes 4 key.length).length = 4 + 4 := by
    rw [List.length_append, length_toBeBytes, four]
  rw [slice_behind eight rfl, ← List.append_assoc (header ++ toBeBytes 4 key.length)]
  have behindKey : (header ++ toBeBytes 4 key.length ++ key).length = 4 + 4 + key.length := by
    rw [List.length_append, eight]
  rw [slice_behind behindKey (length_toBeBytes 4 _), if_pos (length_toBeBytes 4 _),
    Option.bind_some, valueLength,
    ← List.append_assoc (header ++ toBeBytes 4 key.length ++ key)]
  have behindLength : (header ++ toBeBytes 4 key.length ++ key ++ toBeBytes 4 value.length).length =
      4 + 4 + key.length + 4 := by
    rw [List.length_append, behindKey, length_toBeBytes]
  have last := @slice_behind _ value [] _ _ behindLength rfl
  rw [List.append_nil] at last
  rw [last]

private theorem readPair_size {body : Bytes} {pair : Bytes × Bytes}
    (read : readPair body = some pair) :
    pairSize pair + 12 ≤ body.length := by
  unfold readPair unpackU32 at read
  simp only [Option.bind_eq_bind, Option.bind_eq_some_iff, Option.some.injEq] at read
  rcases read with ⟨keyLen, -, valueLen, unpacked, same⟩
  split at unpacked
  · rename_i four
    subst same
    unfold slice at four
    rw [List.length_take, List.length_drop] at four
    unfold pairSize slice
    simp only [List.length_take, List.length_drop]
    omega
  · cases unpacked

private theorem receivedPair_cut (requestId total index : Nat) {pair got : Bytes × Bytes}
    (cut : ¬ FitsDatagram pair) (read : receivedPair requestId total index pair = some got) :
    pairSize got < pairSize pair := by
  have small := readPair_size read
  rw [length_receivedBody] at small
  unfold FitsDatagram at cut
  unfold pairSize at small ⊢
  unfold maxDatagram at cut small
  omega

/-! ### The receive loop -/

private theorem take_datagram (requestId : Nat) (opcode : UInt8) (payload : Bytes) :
    (toBeBytes 4 requestId ++ opcode :: payload).take maxDatagram =
      toBeBytes 4 requestId ++ opcode :: receivedBody payload := by
  have shorter : maxDatagram - 4 = maxDatagram - 5 + 1 := rfl
  unfold receivedBody
  rw [List.take_append, length_toBeBytes, shorter, List.take_succ_cons, List.take_of_length_le]
  rw [length_toBeBytes]
  decide

private theorem receivePairs_own (rid : Nat) (bounded : rid < 2 ^ 32) (opcode : UInt8)
    (payload : Bytes)
    (queue : List Bytes) (pairs : List (Bytes × Bytes)) :
    receivePairs rid ((toBeBytes 4 rid ++ opcode :: payload) :: queue) pairs =
      if opcode = scanEndOpcode then .returned pairs
      else if opcode ≠ scanChunkOpcode then
        .tricError (asBytes "scan unexpected opcode 0x" ++ hexDigits opcode)
      else if (receivedBody payload).length < 4 then
        .tricError (asBytes "malformed scan chunk header")
      else
        (readPair (receivedBody payload)).elim .structError
          (fun pair => receivePairs rid queue (pairs ++ [pair])) := by
  have four : (toBeBytes 4 rid).length = 4 := length_toBeBytes 4 rid
  have long : ¬ (toBeBytes 4 rid ++ opcode :: receivedBody payload).length < 5 := by
    rw [List.length_append, List.length_cons, four]
    omega
  have same : fromBeBytes (toBeBytes 4 rid) = rid := fromBeBytes_toBeBytes_of_lt bounded
  have head : (toBeBytes 4 rid ++ [opcode]).length = 5 := by
    rw [List.length_append, four]
    rfl
  rw [receivePairs, take_datagram]
  simp only
  rw [if_neg long, List.take_left' four, same, if_neg (not_not_intro rfl),
    List.getD_append_right _ _ _ _ (Nat.le_of_eq four), four, List.append_cons (toBeBytes 4 rid),
    List.drop_left' head]
  cases readPair (receivedBody payload) with
  | none => rfl
  | some pair => rfl

private theorem receivePairs_end (rid : Nat) (bounded : rid < 2 ^ 32) (queue : List Bytes)
    (pairs : List (Bytes × Bytes)) :
    receivePairs rid (writeLocalToBuffer (scanEnd rid) :: queue) pairs = .returned pairs := by
  have datagram : writeLocalToBuffer (scanEnd rid) = toBeBytes 4 rid ++ scanEndOpcode :: [] := rfl
  rw [datagram, receivePairs_own rid bounded scanEndOpcode []]
  exact if_pos rfl

private theorem receivePairs_chunk (rid : Nat) (bounded : rid < 2 ^ 32) (total index : Nat)
    (pair : Bytes × Bytes) (queue : List Bytes) (pairs : List (Bytes × Bytes)) :
    receivePairs rid (chunkDatagram rid total index pair :: queue) pairs =
      (receivedPair rid total index pair).elim .structError
        (fun got => receivePairs rid queue (pairs ++ [got])) := by
  have long : ¬ (receivedBody (scanChunk rid total index (pairEntry pair)).payload).length < 4 := by
    rw [length_receivedBody, length_chunkPayload]
    unfold maxDatagram
    omega
  have own := receivePairs_own rid bounded scanChunkOpcode
    (scanChunk rid total index (pairEntry pair)).payload queue pairs
  have opcode : scanChunkOpcode ≠ scanEndOpcode := by decide
  rw [if_neg opcode, if_neg (not_not_intro rfl), if_neg long] at own
  have datagram : chunkDatagram rid total index pair = toBeBytes 4 rid ++
      scanChunkOpcode :: (scanChunk rid total index (pairEntry pair)).payload := rfl
  unfold receivedPair
  rw [datagram, own]

theorem receivePairs_chunks (rid : Nat) (bounded : rid < 2 ^ 32) (total : Nat)
    (chunks : List (Nat × (Bytes × Bytes))) (queue : List Bytes) (pairs : List (Bytes × Bytes)) :
    receivePairs rid (chunks.map (fun chunk => chunkDatagram rid total chunk.1 chunk.2) ++
        writeLocalToBuffer (scanEnd rid) :: queue) pairs =
      (chunks.mapM (fun chunk => receivedPair rid total chunk.1 chunk.2)).elim .structError
        (fun got => .returned (pairs ++ got)) := by
  induction chunks generalizing pairs with
  | nil =>
      rw [List.map_nil, List.nil_append, receivePairs_end rid bounded]
      change ScanOutcome.returned pairs = .returned (pairs ++ [])
      rw [List.append_nil]
  | cons chunk chunks ih =>
      rw [List.map_cons, List.cons_append, receivePairs_chunk rid bounded, List.mapM_cons]
      cases receivedPair rid total chunk.1 chunk.2 with
      | none => rfl
      | some got =>
          rw [Option.elim_some, ih]
          cases chunks.mapM (fun chunk => receivedPair rid total chunk.1 chunk.2) with
          | none => rfl
          | some rest =>
              change ScanOutcome.returned (pairs ++ [got] ++ rest) = .returned (pairs ++ got :: rest)
              rw [List.append_assoc]
              rfl

theorem receivedPairs_whole (rid total : Nat) {chunks : List (Nat × (Bytes × Bytes))}
    (whole : ∀ chunk ∈ chunks, FitsDatagram chunk.2) :
    chunks.mapM (fun chunk => receivedPair rid total chunk.1 chunk.2) =
      some (chunks.map Prod.snd) := by
  induction chunks with
  | nil => rfl
  | cons chunk chunks ih =>
      rcases List.forall_mem_cons.mp whole with ⟨first, rest⟩
      rw [List.mapM_cons, receivedPair_whole rid total chunk.1 first, ih rest]
      rfl

private theorem receivedPairs_size (rid total : Nat) {chunks : List (Nat × (Bytes × Bytes))}
    {got : List (Bytes × Bytes)}
    (read : chunks.mapM (fun chunk => receivedPair rid total chunk.1 chunk.2) = some got) :
    (got.map pairSize).sum + (chunks.filter (fun chunk => ¬ FitsDatagram chunk.2)).length ≤
      ((chunks.map Prod.snd).map pairSize).sum := by
  induction chunks generalizing got with
  | nil =>
      cases read
      exact Nat.le_refl 0
  | cons chunk chunks ih =>
      simp only [List.mapM_cons, Option.bind_eq_bind, Option.bind_eq_some_iff] at read
      rcases read with ⟨pair, first, rest, others, same⟩
      cases same
      have smaller := ih others
      by_cases fits : FitsDatagram chunk.2
      · rw [receivedPair_whole rid total chunk.1 fits] at first
        cases first
        simp only [List.map_cons, List.sum_cons, List.filter_cons, fits, not_true_eq_false,
          decide_false, Bool.false_eq_true, if_false]
        omega
      · have shorter := receivedPair_cut rid total chunk.1 fits first
        simp only [List.map_cons, List.sum_cons, List.filter_cons, fits, not_false_eq_true,
          decide_true, if_true, List.length_cons]
        omega

end Python

section Arrival

variable {pairs : List (Bytes × Bytes)} (arrival : Arrival (streamedPairs pairs).length)

def arrivedChunks : List (Nat × (Bytes × Bytes)) :=
  arrival.order.filterMap (fun index => (streamedPairs pairs)[index]?.map (Prod.mk index))

private theorem arrivedChunks_pairs :
    (arrivedChunks arrival).map Prod.snd = arrivedPairs pairs arrival := by
  unfold arrivedChunks arrivedPairs
  rw [List.map_filterMap]
  congr 1
  funext index
  rw [Option.map_map]
  exact Option.map_id'

private theorem received_eq (requestId : Nat) :
    received requestId pairs arrival =
      (arrivedChunks arrival).map (fun chunk =>
        chunkDatagram requestId (min pairs.length maxChunks) chunk.1 chunk.2) ++
        [writeLocalToBuffer (scanEnd requestId)] := by
  unfold received arrivedChunks
  rw [List.map_filterMap]
  congr 1
  apply List.filterMap_congr
  intro index member
  have inside := arrival.sent index member
  rw [scanDatagrams_chunk requestId pairs inside, List.getElem?_eq_getElem inside]
  rfl

private theorem all_places (stream : List (Bytes × Bytes)) :
    (List.range stream.length).filterMap (fun index => stream[index]?) = stream := by
  induction stream with
  | nil => rfl
  | cons pair stream ih =>
      rw [List.length_cons, List.range_succ_eq_map, List.filterMap_cons, List.filterMap_map]
      exact congrArg (pair :: ·) ih

private theorem arrivedPairs_size :
    ((arrivedPairs pairs arrival).map pairSize).sum ≤ ((streamedPairs pairs).map pairSize).sum := by
  have among : List.Subperm arrival.order (List.range (streamedPairs pairs).length) := by
    apply List.subperm_of_subset arrival.distinct
    intro index member
    exact List.mem_range.mpr (arrival.sent index member)
  rcases among with ⟨order, same, sublist⟩
  have fewer := ((sublist.filterMap (fun index => (streamedPairs pairs)[index]?)).map
    pairSize).sum_le_sum (fun _ _ => Nat.zero_le _)
  rw [all_places] at fewer
  have equal := ((same.filterMap (fun index => (streamedPairs pairs)[index]?)).map pairSize).sum_eq
  unfold arrivedPairs
  rw [← equal]
  exact fewer

end Arrival

/-! ### Completeness -/

/-- A scan raises `TricError` or returns all pairs in the order of the server. -/
def ScanComplete (connection : Python.Connection) (pairs : List (Bytes × Bytes))
    (arrival : Arrival (streamedPairs pairs).length) : Prop :=
  (∃ message, Python.scan connection (received connection.requestId pairs arrival) =
      .tricError message) ∨
    Python.scan connection (received connection.requestId pairs arrival) =
      .returned (streamedPairs pairs)

/-- The scan of the Python client is complete, or fails, if and only if the chunks that
arrive before the end are whole and hold the pairs of the stream in its order. -/
theorem python_scan_complete_iff (connection : Python.Connection) (pairs : List (Bytes × Bytes))
    (arrival : Arrival (streamedPairs pairs).length) :
    ScanComplete connection pairs arrival ↔
      arrivedPairs pairs arrival = streamedPairs pairs ∧
        ∀ pair ∈ arrivedPairs pairs arrival, FitsDatagram pair := by
  have outcome := Python.receivePairs_chunks connection.requestId connection.bounded
    (min pairs.length maxChunks) (arrivedChunks arrival) [] []
  rw [← received_eq] at outcome
  unfold ScanComplete Python.scan
  rw [outcome, ← arrivedChunks_pairs]
  constructor
  · intro complete
    cases read : (arrivedChunks arrival).mapM (fun chunk => Python.receivedPair
        connection.requestId (min pairs.length maxChunks) chunk.1 chunk.2) with
    | none =>
        rw [read] at complete
        rcases complete with ⟨message, raised⟩ | returned
        · cases raised
        · cases returned
    | some got =>
        rw [read] at complete
        rcases complete with ⟨message, raised⟩ | returned
        · cases raised
        · have all : got = streamedPairs pairs := Python.ScanOutcome.returned.inj returned
          have lost := Python.receivedPairs_size _ _ read
          have sent := arrivedPairs_size arrival
          rw [← arrivedChunks_pairs] at sent
          rw [all] at lost
          have noneCut : ((arrivedChunks arrival).filter
              (fun chunk => ¬ FitsDatagram chunk.2)).length = 0 := by omega
          have whole : ∀ chunk ∈ arrivedChunks arrival, FitsDatagram chunk.2 := by
            intro chunk member
            have kept := List.filter_eq_nil_iff.mp (List.length_eq_zero_iff.mp noneCut) chunk member
            rw [decide_eq_true_eq, not_not] at kept
            exact kept
          rw [Python.receivedPairs_whole _ _ whole] at read
          refine ⟨(Option.some_inj.mp read).trans all, ?_⟩
          intro pair member
          rcases List.mem_map.mp member with ⟨chunk, inside, rfl⟩
          exact whole chunk inside
  · intro complete
    have whole : ∀ chunk ∈ arrivedChunks arrival, FitsDatagram chunk.2 :=
      fun chunk member => complete.2 chunk.2 (List.mem_map_of_mem member)
    rw [Python.receivedPairs_whole _ _ whole, complete.1]
    exact Or.inr rfl

def twoPairs : List (Bytes × Bytes) :=
  [(asBytes "users:1", asBytes "a"), (asBytes "users:2", asBytes "b")]

def firstLost : Arrival (streamedPairs twoPairs).length where
  order := [1]
  distinct := by decide
  sent := by decide +kernel

/-- The client returns the second pair alone. -/
theorem lost_chunk_goes_unnoticed :
    Python.scan ⟨1, by decide⟩ (received 1 twoPairs firstLost) =
        .returned [(asBytes "users:2", asBytes "b")] ∧
      ¬ ScanComplete ⟨1, by decide⟩ twoPairs firstLost := by
  have outcome : Python.scan ⟨1, by decide⟩ (received 1 twoPairs firstLost) =
      .returned [(asBytes "users:2", asBytes "b")] := by
    decide +kernel
  refine ⟨outcome, ?_⟩
  intro complete
  unfold ScanComplete at complete
  rw [outcome] at complete
  rcases complete with ⟨message, raised⟩ | returned
  · cases raised
  · have shorter := congrArg List.length (Python.ScanOutcome.returned.inj returned)
    revert shorter
    decide +kernel

end TricPlus
