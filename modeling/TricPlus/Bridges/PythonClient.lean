import TricPlus.Bridges.PythonScan
import TricPlus.RequestGrammar

/-!
The operations of the Python client, and the local worker that answers them.

The worker keeps one receive buffer, one `Request` and one send buffer for all its
datagrams.  What it does for a stream of datagrams is what it would do for each of them
alone.
-/

namespace TricPlus

open AtomicProgram
open BigEndian

/-! ### The codec that allocates -/

def decodeLocal (raw : Bytes) : Option Request :=
  if raw.length < 5 then none
  else
    let requestId := fromBeBytes (raw.take 4)
    let opcode := raw.getD 4 0
    if opcode = 0x00 ∨ opcode = 0xFF then none
    else
      let payload := raw.drop 5
      some
        { requestId := requestId
          opcode := opcode
          payload := payload
          isLocal := true }

def encodeLocal (response : Response) : Bytes :=
  let buffer := []
  let buffer := buffer ++ toBeBytes 4 response.requestId
  let buffer := buffer ++ [response.opcode]
  buffer ++ response.payload

/-- What the local worker carries from one datagram to the next. -/
structure LocalWorker where
  buffer : Bytes
  sendBuffer : Bytes
  request : Request

namespace LocalWorker

/-- `recv_from`: the bytes behind the datagram are those of earlier ones. -/
def receive (worker : LocalWorker) (datagram : Bytes) : Nat × LocalWorker :=
  let got := datagram.take maxDatagram
  (got.length, { worker with buffer := got ++ worker.buffer.drop got.length })

/-- Decode into a request that held an earlier one, field by field. -/
def decodeLocalInto (raw : Bytes) (request : Request) : Bool × Request :=
  if raw.length < 5 then (false, request)
  else
    let opcode := raw.getD 4 0
    if opcode = 0x00 ∨ opcode = 0xFF then (false, request)
    else
      let request := { request with requestId := fromBeBytes (raw.take 4) }
      let request := { request with opcode := opcode }
      let request := { request with payload := [] }
      let request := { request with payload := request.payload ++ raw.drop 5 }
      let request := { request with isLocal := true }
      (true, request)

/-- What the send buffer holds after a response is written over what it held. -/
def writeLocalToBuffer (buffer : Bytes) (response : Response) : Bytes :=
  let buffer := buffer.take 0
  let buffer := buffer ++ toBeBytes 4 response.requestId
  let buffer := buffer ++ [response.opcode]
  buffer ++ response.payload

def sendAll (buffer : Bytes) : List Response → List Bytes × Bytes
  | [] => ([], buffer)
  | response :: responses =>
      let buffer := writeLocalToBuffer buffer response
      let (sent, last) := sendAll buffer responses
      (buffer :: sent, last)

/-- One turn of the loop: the worker afterwards and what it has sent, or that the process
has ended. -/
def turn (parser : SqlParser) (metrics : Metrics) (datagram : Bytes) (worker : LocalWorker) :
    BusProgram (Option (LocalWorker × List Bytes)) :=
  let (length, worker) := worker.receive datagram
  match decodeLocalInto (worker.buffer.take length) worker.request with
  | (false, request) =>
      let sendBuffer := writeLocalToBuffer worker.sendBuffer
        (createError 0 errorMalformedOpcode [])
      return some
        ({ worker with
            request := request
            sendBuffer := sendBuffer },
          [sendBuffer])
  | (true, request) => do
      match ← Router.dispatchRequest parser request metrics with
      | .responses responses =>
          let (sent, sendBuffer) := sendAll worker.sendBuffer responses
          return some
            ({ worker with
                request := request
                sendBuffer := sendBuffer },
              sent)
      | .exited => return none

/-- The loop, on the datagrams it receives and the counters at each of them: what it sends
for each, up to the one that ends the process. -/
def serve (parser : SqlParser) :
    List (Metrics × Bytes) → LocalWorker → BusProgram (List (List Bytes))
  | [], _ => return []
  | (metrics, datagram) :: stream, worker => do
      match ← worker.turn parser metrics datagram with
      | some (worker, sent) => return sent :: (← serve parser stream worker)
      | none => return []

end LocalWorker

def answerAlone (parser : SqlParser) (metrics : Metrics) (datagram : Bytes) :
    BusProgram (Option (List Bytes)) :=
  match decodeLocal (datagram.take maxDatagram) with
  | none => return some [encodeLocal (createError 0 errorMalformedOpcode [])]
  | some request => do
      match ← Router.dispatchRequest parser request metrics with
      | .responses responses => return some (responses.map encodeLocal)
      | .exited => return none

private theorem encodeLocal_eq (response : Response) :
    encodeLocal response = writeLocalToBuffer response := by
  unfold encodeLocal writeLocalToBuffer
  simp only [List.nil_append, List.append_assoc, List.cons_append]

private theorem decodeLocal_eq (raw : Bytes) (request : Request) :
    decodeLocalInto raw request =
      (decodeLocal raw).elim (false, request) (fun decoded => (true, decoded)) := by
  unfold decodeLocalInto decodeLocal
  cases behind : raw.drop 4 with
  | nil =>
      have short : raw.length < 5 := by
        have none := congrArg List.length behind
        rw [List.length_drop, List.length_nil] at none
        omega
      rw [if_pos short]
      rfl
  | cons opcode payload =>
      have long : ¬ raw.length < 5 := by
        have some := congrArg List.length behind
        rw [List.length_drop, List.length_cons] at some
        omega
      have atFour : raw.getD 4 0 = opcode := by
        have first := congrArg List.head? behind
        rw [List.head?_drop] at first
        rw [List.getD_eq_getElem?_getD, first]
        rfl
      have rest : raw.drop 5 = payload := by
        have tail := congrArg List.tail behind
        rw [List.tail_drop] at tail
        exact tail
      rw [if_neg long, atFour, rest]
      by_cases refused : opcode = 0x00 ∨ opcode = 0xFF
      · simp only [if_pos refused]
        rfl
      · simp only [if_neg refused]
        rfl

theorem answerAlone_eq (parser : SqlParser) (metrics : Metrics) (datagram : Bytes) :
    answerAlone parser metrics datagram = answerDatagram parser metrics datagram := by
  unfold answerAlone answerDatagram
  rw [decodeLocal_eq]
  have encode : encodeLocal = writeLocalToBuffer := funext encodeLocal_eq
  cases decodeLocal (datagram.take maxDatagram) with
  | none =>
      rw [encode]
      rfl
  | some request =>
      rw [encode]
      rfl

namespace LocalWorker

private theorem decodeLocalInto_eq (raw : Bytes) (request : Request) :
    decodeLocalInto raw request =
      (decodeLocal raw).elim (false, request) (fun decoded => (true, decoded)) := by
  unfold decodeLocalInto decodeLocal
  by_cases short : raw.length < 5
  · rw [if_pos short, if_pos short]
    rfl
  · rw [if_neg short, if_neg short]
    by_cases refused : raw.getD 4 0 = 0x00 ∨ raw.getD 4 0 = 0xFF
    · simp only [if_pos refused]
      rfl
    · simp only [if_neg refused]
      rfl

private theorem writeLocalToBuffer_eq (buffer : Bytes) (response : Response) :
    writeLocalToBuffer buffer response = encodeLocal response := rfl

private theorem sendAll_fst (buffer : Bytes) (responses : List Response) :
    (sendAll buffer responses).1 = responses.map encodeLocal := by
  induction responses generalizing buffer with
  | nil => rfl
  | cons response responses ih =>
      have rest := ih (writeLocalToBuffer buffer response)
      change writeLocalToBuffer buffer response ::
        (sendAll (writeLocalToBuffer buffer response) responses).1 = _
      rw [rest, writeLocalToBuffer_eq]
      rfl

private theorem receive_taken (worker : LocalWorker) (datagram : Bytes) :
    (worker.receive datagram).2.buffer.take (worker.receive datagram).1 =
      datagram.take maxDatagram :=
  List.take_left' rfl

/-- Whatever follows a turn sees of it just what it sent, and that is what the datagram
alone would be answered. -/
theorem turn_bind {β : Type} (parser : SqlParser) (metrics : Metrics) (datagram : Bytes)
    (worker : LocalWorker) {after : Option (LocalWorker × List Bytes) → BusProgram β}
    {alone : Option (List Bytes) → BusProgram β}
    (same : ∀ result, after result = alone (result.map Prod.snd)) :
    (worker.turn parser metrics datagram).bind after =
      (answerAlone parser metrics datagram).bind alone := by
  unfold turn answerAlone
  simp only [receive_taken, decodeLocalInto_eq]
  cases decodeLocal (datagram.take maxDatagram) with
  | none => exact same _
  | some request =>
      simp only [Option.elim_some]
      change ((Router.dispatchRequest parser request metrics).bind _).bind after =
        ((Router.dispatchRequest parser request metrics).bind _).bind alone
      rw [Program.bind_assoc, Program.bind_assoc]
      congr 1
      funext dispatched
      cases dispatched with
      | responses responses =>
          have sent := sendAll_fst worker.sendBuffer responses
          change after (some (_, (sendAll worker.sendBuffer responses).1)) = alone _
          rw [same, Option.map_some, sent]
      | exited => exact same none

end LocalWorker

def answerEach : List (BusProgram (Option (List Bytes))) → BusProgram (List (List Bytes))
  | [] => return []
  | answer :: answers => do
      match ← answer with
      | some sent => return sent :: (← answerEach answers)
      | none => return []

private theorem LocalWorker.serve_eq (parser : SqlParser) (stream : List (Metrics × Bytes))
    (worker : LocalWorker) :
    worker.serve parser stream =
      answerEach (stream.map (fun turn => answerAlone parser turn.1 turn.2)) := by
  induction stream generalizing worker with
  | nil => rfl
  | cons turn stream ih =>
      rcases turn with ⟨metrics, datagram⟩
      apply LocalWorker.turn_bind
      intro result
      cases result with
      | none => rfl
      | some result =>
          have rest := ih result.1
          change (do return result.2 :: (← result.1.serve parser stream)) = _
          rw [rest]
          rfl

namespace Python

def Connection.nextRequestId (connection : Connection) : Nat × Connection :=
  (connection.requestId,
    { requestId := (connection.requestId + 1) % 2 ^ 32
      bounded := Nat.mod_lt _ (by decide) })

inductive Operation where
  | read (key : Bytes)
  | write (key value : Bytes) (durationMs : Nat)
  | delete (key : Bytes)
  | cad (key expected : Bytes)
  | ttl (key : Bytes) (durationMs : Nat)
  | scan (stem : Bytes)

/-- How an operation ends in the client. -/
inductive CallOutcome (α : Type) where
  | returned (result : α)
  | tricError (message : Bytes)
  | structError
  | waiting
  deriving DecidableEq

def CallOutcome.bind {α β : Type} : CallOutcome α → (α → CallOutcome β) → CallOutcome β
  | returned result, rest => rest result
  | tricError message, _ => tricError message
  | structError, _ => structError
  | waiting, _ => waiting

def roundtrip (rid : Nat) : List Bytes → CallOutcome (UInt8 × Bytes)
  | [] => .waiting
  | datagram :: _ =>
      let reply := datagram.take maxDatagram
      if reply.length < 5 then .tricError (asBytes "malformed response")
      else
        let replyRid := fromBeBytes (reply.take 4)
        let replyOp := reply.getD 4 0
        if replyRid ≠ rid then
          .tricError (asBytes "request-id mismatch: sent " ++ showNat rid ++
            asBytes ", got " ++ showNat replyRid)
        else .returned (replyOp, reply.drop 5)

namespace Operation

def opcode : Operation → UInt8
  | read _ => 0x01
  | write _ _ _ => 0x02
  | delete _ => 0x03
  | cad _ _ => 0x04
  | ttl _ _ => 0x05
  | scan _ => 0x06

def payload : Operation → Bytes
  | read key => toBeBytes 4 key.length ++ key
  | write key value durationMs =>
      toBeBytes 4 key.length ++ key ++ toBeBytes 4 value.length ++ value ++ toBeBytes 8 durationMs
  | delete key => toBeBytes 4 key.length ++ key
  | cad key expected =>
      toBeBytes 4 key.length ++ key ++ toBeBytes 4 expected.length ++ expected
  | ttl key durationMs => toBeBytes 4 key.length ++ key ++ toBeBytes 8 durationMs
  | scan stem => toBeBytes 4 stem.length ++ stem

def datagram (operation : Operation) (connection : Connection) : Bytes :=
  let rid := connection.nextRequestId.1
  let header := toBeBytes 4 rid ++ [operation.opcode]
  header ++ operation.payload

def durationMs : Operation → Nat
  | write _ _ durationMs => durationMs
  | ttl _ durationMs => durationMs
  | _ => 0

@[reducible] def Result : Operation → Type
  | read _ => Option Bytes
  | cad _ _ => Bool
  | scan _ => List (Bytes × Bytes)
  | _ => Unit

/-- What `write`, `delete` and `ttl` make of the opcode of their answer. -/
def acknowledged (name : String) : UInt8 × Bytes → CallOutcome Unit
  | (op, _) =>
      if op ≠ okOpcode then
        .tricError (asBytes name ++ asBytes " failed, opcode 0x" ++ hexDigits op)
      else .returned ()

def readBody : UInt8 × Bytes → CallOutcome (Option Bytes)
  | (op, body) =>
      if op = okPayloadOpcode then
        if body.length < 4 then .tricError (asBytes "malformed OK_DATA response")
        else .returned (some (slice body 4 (fromBeBytes (body.take 4))))
      else .returned none

def cadBody : UInt8 × Bytes → CallOutcome Bool
  | (op, body) =>
      .returned (decide (op = okPayloadOpcode) && decide (1 ≤ body.length) &&
        decide (body.getD 0 0 = 0x01))

def scanned : ScanOutcome → CallOutcome (List (Bytes × Bytes))
  | .returned pairs => .returned pairs
  | .tricError message => .tricError message
  | .structError => .structError
  | .waiting => .waiting

/-- What the operation returns for the datagrams that answer it. -/
def conclude (connection : Connection) (queue : List Bytes) :
    (operation : Operation) → CallOutcome operation.Result
  | read _ => (roundtrip connection.requestId queue).bind readBody
  | write _ _ _ => (roundtrip connection.requestId queue).bind (acknowledged "write")
  | delete _ => (roundtrip connection.requestId queue).bind (acknowledged "delete")
  | cad _ _ => (roundtrip connection.requestId queue).bind cadBody
  | ttl _ _ => (roundtrip connection.requestId queue).bind (acknowledged "ttl")
  | scan _ => scanned (Python.scan connection queue)

/-! ### What an operation stands for -/

def request : Operation → KeyRequest
  | read key => .readValue key
  | write key value durationMs => .writeValue key value durationMs
  | delete key => .deleteValue key
  | cad key expected => .deleteValueIfMatch key expected
  | ttl key durationMs => .writeTtl key durationMs
  | scan stem => .findByPrefix stem

def onBus : (operation : Operation) → BusProgram operation.Result
  | read key => DataBus.readValue key
  | write key value durationMs =>
      if durationMs = 0 then DataBus.writeValue key value
      else DataBus.writeValueWithTtl key value (fromMillis durationMs)
  | delete key => DataBus.deleteValue key
  | cad key expected => DataBus.deleteValueIfMatch key expected
  | ttl key durationMs => DataBus.writeTtl key (fromMillis durationMs)
  | scan stem => DataBus.findByPrefix stem

def responses (requestId : Nat) : (operation : Operation) → operation.Result → List Response
  | read _, some value => [createPayload requestId (lengthPrefixed value)]
  | read _, none => [createOk requestId]
  | write _ _ _, _ => [createOk requestId]
  | delete _, _ => [createOk requestId]
  | cad _ _, deleted => [createPayload requestId [if deleted then 0x01 else 0x00]]
  | ttl _ _, _ => [createOk requestId]
  | scan _, pairs => scanResponses requestId (pairs.map pairEntry)

def carried : (operation : Operation) → operation.Result → operation.Result
  | read _, found => found
  | write _ _ _, done => done
  | delete _, done => done
  | cad _ _, deleted => deleted
  | ttl _ _, done => done
  | scan _, pairs => streamedPairs pairs

def replies (operation : Operation) (connection : Connection) (result : operation.Result) :
    List Bytes :=
  (operation.responses connection.requestId result).map encodeLocal

end Operation

/-- An operation that fits the receive buffer of the server; `struct.pack` takes durations
of 64 bits. -/
structure Sendable where
  operation : Operation
  duration : operation.durationMs < 2 ^ 64
  fits : 5 + operation.payload.length ≤ TricPlus.maxDatagram

/-- All datagrams of a reply fit the receive buffer of the client. -/
def Received (replies : List Bytes) : Prop :=
  ∀ reply ∈ replies, reply.length ≤ maxDatagram

end Python

namespace Python

namespace Operation

private theorem request_opcode (operation : Operation) :
    operation.request.opcode = operation.opcode := by
  cases operation with
  | read key => rfl
  | write key value durationMs => rfl
  | delete key => rfl
  | cad key expected => rfl
  | ttl key durationMs => rfl
  | scan stem => rfl

private theorem request_fields (operation : Operation) :
    operation.request.fields = operation.payload := by
  cases operation with
  | read key => rfl
  | write key value durationMs =>
      simp only [request, KeyRequest.fields, payload, lengthPrefixed, List.append_assoc]
  | delete key => rfl
  | cad key expected =>
      simp only [request, KeyRequest.fields, payload, lengthPrefixed, List.append_assoc]
  | ttl key durationMs => rfl
  | scan stem => rfl

private theorem opcode_aboutKeys (operation : Operation) :
    operation.opcode ∈ KeyRequest.opcodes := by
  cases operation with
  | read key => exact List.mem_of_elem_eq_true rfl
  | write key value durationMs => exact List.mem_of_elem_eq_true rfl
  | delete key => exact List.mem_of_elem_eq_true rfl
  | cad key expected => exact List.mem_of_elem_eq_true rfl
  | ttl key durationMs => exact List.mem_of_elem_eq_true rfl
  | scan stem => exact List.mem_of_elem_eq_true rfl

private theorem opcode_accepted (operation : Operation) :
    ¬ (operation.opcode = 0x00 ∨ operation.opcode = 0xFF) := by
  have accepted : ∀ opcode ∈ KeyRequest.opcodes, ¬ (opcode = 0x00 ∨ opcode = 0xFF) := by
    decide +kernel
  exact accepted operation.opcode operation.opcode_aboutKeys

end Operation

namespace Sendable

variable (sendable : Sendable) (connection : Connection)

private theorem request_fits : sendable.operation.request.Fits := by
  rcases sendable with ⟨operation, duration, fits⟩
  unfold TricPlus.maxDatagram at fits
  cases operation with
  | read key | delete key | scan stem =>
      simp only [Operation.payload, List.length_append] at fits
      change _ < fieldLimit
      unfold fieldLimit
      omega
  | write key value durationMs =>
      simp only [Operation.payload, List.length_append] at fits
      have small : key.length < fieldLimit ∧ value.length < fieldLimit := by
        unfold fieldLimit
        omega
      exact ⟨small.1, small.2, duration⟩
  | cad key expected =>
      simp only [Operation.payload, List.length_append] at fits
      have small : key.length < fieldLimit ∧ expected.length < fieldLimit := by
        unfold fieldLimit
        omega
      exact small
  | ttl key durationMs =>
      simp only [Operation.payload, List.length_append] at fits
      have small : key.length < fieldLimit := by
        unfold fieldLimit
        omega
      exact ⟨small, duration⟩

private theorem parse_payload :
    KeyRequest.parse sendable.operation.opcode sendable.operation.payload =
      some sendable.operation.request := by
  refine KeyRequest.parse_iff.mpr ⟨sendable.operation.request_opcode, sendable.request_fits, [], ?_⟩
  rw [List.append_nil]
  exact sendable.operation.request_fields.symm

def decoded : Request where
  requestId := connection.requestId
  opcode := sendable.operation.opcode
  payload := sendable.operation.payload
  isLocal := true

private theorem datagram_whole :
    (sendable.operation.datagram connection).take TricPlus.maxDatagram =
      sendable.operation.datagram connection := by
  have fits := sendable.fits
  apply List.take_of_length_le
  unfold Operation.datagram
  simp only [List.length_append, length_toBeBytes, List.length_singleton]
  omega

private theorem decodeLocal_datagram :
    decodeLocal (sendable.operation.datagram connection) = some (sendable.decoded connection) := by
  have four := length_toBeBytes 4 connection.requestId
  have number : fromBeBytes (toBeBytes 4 connection.requestId) = connection.requestId :=
    fromBeBytes_toBeBytes_of_lt connection.bounded
  have head : (toBeBytes 4 connection.requestId ++ [sendable.operation.opcode]).length = 5 := by
    rw [List.length_append, four]
    rfl
  have long : ¬ (sendable.operation.datagram connection).length < 5 := by
    unfold Operation.datagram
    simp only [List.length_append, Connection.nextRequestId, four, List.length_singleton]
    omega
  have opcode : (sendable.operation.datagram connection).getD 4 0 = sendable.operation.opcode := by
    unfold Operation.datagram
    simp only [Connection.nextRequestId, List.append_assoc]
    rw [List.getD_append_right _ _ _ _ (Nat.le_of_eq four), four]
    rfl
  unfold decodeLocal
  rw [if_neg long, opcode]
  simp only [if_neg sendable.operation.opcode_accepted]
  unfold Operation.datagram decoded
  simp only [Connection.nextRequestId]
  rw [List.drop_left' head, List.append_assoc, List.take_left' four, number]

end Sendable

private theorem Operation.perform_request (operation : Operation) (requestId : Nat) :
    operation.request.perform requestId =
      operation.responses requestId <$> operation.onBus := by
  cases operation with
  | read key =>
      refine congrArg (@Program.call dataBus (List Response) (.readValue key)) (funext ?_)
      intro found
      cases found with
      | none => rfl
      | some value => rfl
  | write key value durationMs =>
      cases durationMs with
      | zero => rfl
      | succ durationMs => rfl
  | delete key => rfl
  | cad key expected => rfl
  | ttl key durationMs => rfl
  | scan stem => rfl

section Recovery

variable (connection : Connection)

theorem roundtrip_own (opcode : UInt8) {payload : Bytes} (queue : List Bytes)
    (fits : 5 + payload.length ≤ maxDatagram) :
    roundtrip connection.requestId
        (encodeLocal ⟨connection.requestId, opcode, payload⟩ :: queue) =
      .returned (opcode, payload) := by
  have four := length_toBeBytes 4 connection.requestId
  have number : fromBeBytes (toBeBytes 4 connection.requestId) = connection.requestId :=
    fromBeBytes_toBeBytes_of_lt connection.bounded
  have head : (toBeBytes 4 connection.requestId ++ [opcode]).length = 5 := by
    rw [List.length_append, four]
    rfl
  have long : ¬ (toBeBytes 4 connection.requestId ++ [opcode] ++ payload).length < 5 := by
    rw [List.length_append, head]
    omega
  have whole : (toBeBytes 4 connection.requestId ++ [opcode] ++ payload).take maxDatagram =
      toBeBytes 4 connection.requestId ++ [opcode] ++ payload := by
    apply List.take_of_length_le
    rw [List.length_append, head]
    exact fits
  have atFour : (toBeBytes 4 connection.requestId ++ [opcode] ++ payload).getD 4 0 = opcode := by
    rw [List.append_assoc, List.getD_append_right _ _ _ _ (Nat.le_of_eq four), four]
    rfl
  unfold roundtrip encodeLocal
  simp only [List.nil_append]
  rw [whole, if_neg long, atFour, List.drop_left' head, List.append_assoc,
    List.take_left' four, number, if_neg (not_not_intro rfl)]

private theorem readBody_value {value : Bytes} (short : value.length < fieldLimit) :
    Operation.readBody (okPayloadOpcode, lengthPrefixed value) = .returned (some value) := by
  have four := length_toBeBytes 4 value.length
  have long : ¬ (lengthPrefixed value).length < 4 := by
    rw [length_lengthPrefixed]
    omega
  have number : fromBeBytes ((lengthPrefixed value).take 4) = value.length := by
    unfold lengthPrefixed
    rw [List.take_left' four]
    exact fromBeBytes_toBeBytes_of_lt short
  unfold Operation.readBody
  simp only [if_pos, if_neg long, number]
  unfold slice lengthPrefixed
  rw [List.drop_left' four, List.take_length]

private theorem scanDatagrams_eq (requestId : Nat) (pairs : List (Bytes × Bytes)) :
    scanDatagrams requestId pairs =
      ((streamedPairs pairs).mapIdx Prod.mk).map (fun chunk =>
        chunkDatagram requestId (min pairs.length maxChunks) chunk.1 chunk.2) ++
        [writeLocalToBuffer (scanEnd requestId)] := by
  unfold scanDatagrams scanResponses streamedPairs
  rw [List.map_append, ← List.map_take, List.length_map]
  refine congrArg (· ++ _) (List.ext_getElem? ?_)
  intro index
  simp only [List.getElem?_map, List.getElem?_mapIdx, Option.map_map]
  rfl

private theorem mapIdx_snd (pairs : List (Bytes × Bytes)) :
    (pairs.mapIdx Prod.mk).map Prod.snd = pairs := by
  apply List.ext_getElem?
  intro index
  rw [List.getElem?_map, List.getElem?_mapIdx, Option.map_map]
  exact Option.map_id'

private theorem length_chunkDatagram (requestId total index : Nat) (pair : Bytes × Bytes) :
    (chunkDatagram requestId total index pair).length = 17 + pair.1.length + pair.2.length := by
  have payload := length_chunkPayload requestId total index pair
  unfold pairSize at payload
  unfold chunkDatagram writeLocalToBuffer
  rw [List.length_append, length_toBeBytes, List.length_cons, payload]
  omega

private theorem scan_returns {pairs : List (Bytes × Bytes)}
    (received : Received (scanDatagrams connection.requestId pairs)) :
    Python.scan connection (scanDatagrams connection.requestId pairs) =
      .returned (streamedPairs pairs) := by
  have whole : ∀ chunk ∈ (streamedPairs pairs).mapIdx Prod.mk, FitsDatagram chunk.2 := by
    intro chunk member
    have sent : chunkDatagram connection.requestId (min pairs.length maxChunks) chunk.1 chunk.2 ∈
        scanDatagrams connection.requestId pairs := by
      rw [scanDatagrams_eq]
      exact List.mem_append_left _ (List.mem_map_of_mem member)
    have short := received _ sent
    rw [length_chunkDatagram] at short
    exact short
  have outcome := receivePairs_chunks connection.requestId connection.bounded
    (min pairs.length maxChunks) ((streamedPairs pairs).mapIdx Prod.mk) [] []
  rw [← scanDatagrams_eq, receivedPairs_whole _ _ whole, mapIdx_snd] at outcome
  exact outcome

private theorem replies_single {requestId : Nat} {opcode : UInt8} {payload : Bytes}
    (received : Received [encodeLocal ⟨requestId, opcode, payload⟩]) :
    5 + payload.length ≤ maxDatagram := by
  have short := received _ (List.mem_singleton_self _)
  unfold encodeLocal at short
  simp only [List.nil_append, List.length_append, length_toBeBytes, List.length_singleton] at short
  exact short

theorem conclude_replies (operation : Operation) (result : operation.Result)
    (received : Received (operation.replies connection result)) :
    operation.conclude connection (operation.replies connection result) = .returned (operation.carried result) := by
  cases operation with
  | read key =>
      cases result with
      | none =>
          change (roundtrip connection.requestId [encodeLocal (createOk connection.requestId)]).bind
            Operation.readBody = _
          rw [createOk, roundtrip_own connection okOpcode [] (by decide)]
          rfl
      | some value =>
          have fits := replies_single received
          have short : value.length < fieldLimit := by
            rw [length_lengthPrefixed] at fits
            unfold maxDatagram at fits
            unfold fieldLimit
            omega
          change (roundtrip connection.requestId
            [encodeLocal (createPayload connection.requestId (lengthPrefixed value))]).bind
              Operation.readBody = _
          rw [createPayload, roundtrip_own connection okPayloadOpcode [] fits]
          exact readBody_value short
  | write key value durationMs =>
      change (roundtrip connection.requestId [encodeLocal (createOk connection.requestId)]).bind
        (Operation.acknowledged "write") = _
      rw [createOk, roundtrip_own connection okOpcode [] (by decide)]
      rfl
  | delete key =>
      change (roundtrip connection.requestId [encodeLocal (createOk connection.requestId)]).bind
        (Operation.acknowledged "delete") = _
      rw [createOk, roundtrip_own connection okOpcode [] (by decide)]
      rfl
  | cad key expected =>
      have fits := replies_single received
      change (roundtrip connection.requestId [encodeLocal (createPayload connection.requestId
        [if result then 0x01 else 0x00])]).bind Operation.cadBody = _
      rw [createPayload, roundtrip_own connection okPayloadOpcode [] fits]
      cases result with
      | false => rfl
      | true => rfl
  | ttl key durationMs =>
      change (roundtrip connection.requestId [encodeLocal (createOk connection.requestId)]).bind
        (Operation.acknowledged "ttl") = _
      rw [createOk, roundtrip_own connection okOpcode [] (by decide)]
      rfl
  | scan stem =>
      have encode : encodeLocal = writeLocalToBuffer := funext encodeLocal_eq
      have same : (Operation.scan stem).replies connection result =
          scanDatagrams connection.requestId result := by
        unfold Operation.replies Operation.responses scanDatagrams
        rw [encode]
      rw [same] at received ⊢
      change Operation.scanned (Python.scan connection _) = _
      rw [scan_returns connection received]
      rfl

end Recovery

end Python

/-! ### Streams of requests -/

inductive Arrived where
  | client (connection : Python.Connection) (sendable : Python.Sendable)
  | other (datagram : Bytes)

namespace Arrived

def datagram : Arrived → Bytes
  | client connection sendable => sendable.operation.datagram connection
  | other datagram => datagram

/-- The call of an operation and the datagrams that carry its result; any other datagram is
answered alone. -/
def answer (parser : SqlParser) (metrics : Metrics) : Arrived → BusProgram (Option (List Bytes))
  | client connection sendable =>
      (fun result => some (sendable.operation.replies connection result)) <$>
        sendable.operation.onBus
  | other datagram => answerAlone parser metrics datagram

theorem answerAlone_datagram (parser : SqlParser) (metrics : Metrics) (arrived : Arrived) :
    answerAlone parser metrics arrived.datagram = arrived.answer parser metrics := by
  cases arrived with
  | other datagram => rfl
  | client connection sendable =>
      have own := @dispatchRequest_eq parser metrics (sendable.decoded connection)
        sendable.operation.opcode_aboutKeys
      unfold answerAlone datagram
      rw [sendable.datagram_whole, sendable.decodeLocal_datagram]
      simp only
      rw [own]
      unfold Python.Sendable.decoded
      simp only [sendable.parse_payload, KeyRequest.handle, Python.Operation.perform_request]
      change ((sendable.operation.onBus.bind _).bind _).bind _ = sendable.operation.onBus.bind _
      rw [Program.bind_assoc, Program.bind_assoc]
      rfl

end Arrived

/-- The two decoders agree, whatever the request held before, and so do the two encoders,
whatever the buffer held.  A worker answers the datagrams of a stream, whatever it has
served before, each as it would alone: an operation of the client is decoded as it was
encoded, makes just its own call on the bus, and is answered with the datagrams that carry
its result, out of which the client recovers it if they fit its receive buffer. -/
theorem python_operations_are_served (parser : SqlParser) :
    (∀ (raw : Bytes) (request : Request), LocalWorker.decodeLocalInto raw request =
      (decodeLocal raw).elim (false, request) (fun decoded => (true, decoded))) ∧
    (∀ (buffer : Bytes) (response : Response),
      LocalWorker.writeLocalToBuffer buffer response = encodeLocal response) ∧
    (∀ (connection : Python.Connection) (sendable : Python.Sendable),
      decodeLocal ((sendable.operation.datagram connection).take maxDatagram) =
        some
          { requestId := connection.requestId
            opcode := sendable.operation.opcode
            payload := sendable.operation.payload
            isLocal := true }) ∧
    (∀ (worker : LocalWorker) (stream : List (Metrics × Arrived)),
      worker.serve parser (stream.map (fun turn => (turn.1, turn.2.datagram))) =
        answerEach (stream.map (fun turn => turn.2.answer parser turn.1))) ∧
    (∀ (connection : Python.Connection) (operation : Python.Operation)
      (result : operation.Result),
      Python.Received (operation.replies connection result) →
        operation.conclude connection (operation.replies connection result) =
          .returned (operation.carried result)) := by
  refine ⟨LocalWorker.decodeLocalInto_eq, LocalWorker.writeLocalToBuffer_eq, ?_, ?_, ?_⟩
  · intro connection sendable
    rw [sendable.datagram_whole]
    exact sendable.decodeLocal_datagram connection
  · intro worker stream
    rw [LocalWorker.serve_eq, List.map_map]
    congr 1
    apply List.map_congr_left
    intro turn _
    exact Arrived.answerAlone_datagram parser turn.1 turn.2
  · intro connection operation result received
    exact Python.conclude_replies connection operation result received

/-- The client reads `v` under the key `k`. -/
def readK : Python.Operation := .read [0x6B]

def usedWorker : LocalWorker where
  buffer := List.replicate maxDatagram 0xFF
  sendBuffer := [1, 2, 3]
  request := ⟨6, 0x15, [9], true⟩

def readStream : List (Metrics × Arrived) :=
  [(freshMetrics, .other [0x01]),
    (freshMetrics, .client ⟨7, by decide⟩ ⟨readK, by decide +kernel, by decide +kernel⟩)]

/-- Behind a malformed datagram the read makes its call, and the client recovers the value. -/
theorem read_is_served_behind_malformed :
    usedWorker.serve silentParser (readStream.map (fun turn => (turn.1, turn.2.datagram))) =
        (DataBus.readValue [0x6B]).bind (fun result =>
          .done [[encodeLocal (createError 0 errorMalformedOpcode [])],
            readK.replies ⟨7, by decide⟩ result]) ∧
      readK.conclude ⟨7, by decide⟩ (readK.replies ⟨7, by decide⟩ (some [0x76])) =
        .returned (some [0x76]) := by
  obtain ⟨-, -, -, serves, recovers⟩ := python_operations_are_served silentParser
  constructor
  · rw [serves usedWorker readStream]
    rfl
  · apply recovers ⟨7, by decide⟩ readK (some [0x76])
    intro reply member
    rcases List.mem_singleton.mp member with rfl
    decide +kernel

end TricPlus
