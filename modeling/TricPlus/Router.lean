import TricPlus.Query
import TricPlus.PermutiveBus

/-!
Dispatch of decoded requests to the methods of the bus, and the worker of the local
socket.
-/

namespace TricPlus

open AtomicProgram
open BigEndian

/-- The counters, as they are read at one moment. -/
structure Metrics where
  requestsTotal : Nat
  requestsLocal : Nat
  requestsNetwork : Nat
  errorsTotal : Nat
  activeSessions : Nat
  latencySumMicroseconds : Nat
  latencyMaxMicroseconds : Nat

def Metrics.readLatencyAverageMicroseconds (metrics : Metrics) : Nat :=
  if metrics.requestsTotal = 0 then 0
  else metrics.latencySumMicroseconds / metrics.requestsTotal

inductive Dispatched where
  | responses (responses : List Response)
  | exited

namespace Router

def readValue (request : Request) : BusProgram Response :=
  match readField request.payload 0 with
  | none => return createError request.requestId errorMalformedOpcode []
  | some key => do
      match ← DataBus.readValue key with
      | some value => return createPayload request.requestId (lengthPrefixed value)
      | none => return createOk request.requestId

def writeFields (payload : Bytes) : Option (Bytes × Bytes × Nat) := do
  let (key, offset) ← readFieldWithOffset payload 0
  let (value, offset) ← readFieldWithOffset payload offset
  let durationMs ← readMillis payload offset
  some (key, value, durationMs)

def writeValue (request : Request) : BusProgram Response :=
  match writeFields request.payload with
  | none => return createError request.requestId errorMalformedOpcode []
  | some (key, value, durationMs) => do
      if durationMs = 0 then DataBus.writeValue key value
      else DataBus.writeValueWithTtl key value (fromMillis durationMs)
      return createOk request.requestId

def deleteValue (request : Request) : BusProgram Response :=
  match readField request.payload 0 with
  | none => return createError request.requestId errorMalformedOpcode []
  | some key => do
      DataBus.deleteValue key
      return createOk request.requestId

def matchFields (payload : Bytes) : Option (Bytes × Bytes) := do
  let (key, offset) ← readFieldWithOffset payload 0
  let expected ← readField payload offset
  some (key, expected)

def deleteValueIfMatch (request : Request) : BusProgram Response :=
  match matchFields request.payload with
  | none => return createError request.requestId errorMalformedOpcode []
  | some (key, expected) => do
      let matched ← DataBus.deleteValueIfMatch key expected
      return createPayload request.requestId [if matched then 0x01 else 0x00]

def ttlFields (payload : Bytes) : Option (Bytes × Nat) := do
  let (key, offset) ← readFieldWithOffset payload 0
  let durationMs ← readMillis payload offset
  some (key, durationMs)

def writeTtl (request : Request) : BusProgram Response :=
  match ttlFields request.payload with
  | none => return createError request.requestId errorMalformedOpcode []
  | some (key, durationMs) => do
      DataBus.writeTtl key (fromMillis durationMs)
      return createOk request.requestId

def scan (request : Request) (stem : Bytes) : BusProgram (List Response) := do
  let pairs ← DataBus.findByPrefix stem
  return scanResponses request.requestId (pairs.map pairEntry)

def findByPrefix (request : Request) : BusProgram (List Response) :=
  match readField request.payload 0 with
  | none => return [createError request.requestId errorMalformedOpcode []]
  | some stem => scan request stem

def readKeys (request : Request) : BusProgram (List Response) :=
  scan request ((readField request.payload 0).getD [])

def parseQueryRequest (parser : SqlParser) (request : Request) : BusProgram (List Response) :=
  match readField request.payload 0 with
  | none => return [createError request.requestId errorMalformedOpcode []]
  | some sql => Query.parseQuery parser sql request.requestId

def readStatus (request : Request) (metrics : Metrics) : Response :=
  if request.isLocal then
    createPayload request.requestId
      ([metrics.requestsTotal, metrics.requestsLocal, metrics.requestsNetwork,
        metrics.errorsTotal, metrics.activeSessions, metrics.readLatencyAverageMicroseconds,
        metrics.latencyMaxMicroseconds].flatMap (toBeBytes 8))
  else createError request.requestId errorInvalidOpcode []

def parseShutdown (request : Request) : Dispatched :=
  if request.isLocal then .exited
  else .responses [createError request.requestId errorInvalidOpcode []]

def parseReload (request : Request) : Response :=
  if request.isLocal then createOk request.requestId
  else createError request.requestId errorInvalidOpcode []

/-- The remaining lifetime in milliseconds, zero for none; cut to 64 bits when written. -/
def remainingMillis (remaining : Option Duration) : Nat :=
  (remaining.map asMillis).getD 0

def readInspect (request : Request) : BusProgram Response :=
  match readField request.payload 0 with
  | none => return createError request.requestId errorMalformedOpcode []
  | some key => do
      match ← DataBus.readValue key with
      | some value =>
          let remaining ← DataBus.readTtlRemaining key
          return createPayload request.requestId
            (lengthPrefixed value ++ toBeBytes 8 (remainingMillis remaining))
      | none => return createOk request.requestId

def withLifetimes : List (Bytes × Bytes) → BusProgram (List ((Bytes × Bytes) × Nat))
  | [] => return []
  | pair :: pairs => do
      let remaining ← DataBus.readTtlRemaining pair.1
      let rest ← withLifetimes pairs
      return (pair, remainingMillis remaining) :: rest

def readDump (request : Request) : BusProgram (List Response) := do
  let pairs ← DataBus.findByPrefix []
  let total := min pairs.length maxChunks
  let dumped ← withLifetimes (pairs.take maxChunks)
  return dumped.mapIdx (fun chunkId entry =>
      scanChunk request.requestId total chunkId (pairEntry entry.1 ++ toBeBytes 8 entry.2)) ++
    [scanEnd request.requestId]

def restoreFields (payload : Bytes) : Option (Bytes × Bytes × Option Nat) := do
  let (key, offset) ← readFieldWithOffset payload 0
  let (value, offset) ← readFieldWithOffset payload offset
  some (key, value, readMillis payload offset)

def writeRestore (request : Request) : BusProgram Response :=
  match restoreFields request.payload with
  | none => return createError request.requestId errorMalformedOpcode []
  | some (key, value, ttlMs) => do
      DataBus.writeValue key value
      match ttlMs with
      | some (ttlMs + 1) => DataBus.writeTtl key (fromMillis (ttlMs + 1))
      | _ => pure ()
      return createOk request.requestId

def one (response : Response) : Dispatched := .responses [response]

def dispatchRequest (parser : SqlParser) (request : Request) (metrics : Metrics) :
    BusProgram Dispatched :=
  match request.opcode with
  | 0x01 => one <$> readValue request
  | 0x02 => one <$> writeValue request
  | 0x03 => one <$> deleteValue request
  | 0x04 => one <$> deleteValueIfMatch request
  | 0x05 => one <$> writeTtl request
  | 0x06 => .responses <$> findByPrefix request
  | 0x07 => .responses <$> parseQueryRequest parser request
  | 0x13 => return one (createOk request.requestId)
  | 0x14 => return one (readStatus request metrics)
  | 0x15 => return parseShutdown request
  | 0x16 => return one (parseReload request)
  | 0x17 => .responses <$> readKeys request
  | 0x18 => one <$> readInspect request
  | 0x19 => .responses <$> readDump request
  | 0x1A => one <$> writeRestore request
  | _ => return one (createError request.requestId errorInvalidOpcode [])

end Router

def maxDatagram : Nat := 2048

/-- The request a worker starts with; decoding overwrites it. -/
def freshRequest : Request where
  requestId := 0
  opcode := 0
  payload := []
  isLocal := true

/-- One turn of the worker: what it sends back for a datagram, or that the process has
ended.  Longer datagrams are cut by the socket. -/
def answerDatagram (parser : SqlParser) (metrics : Metrics) (datagram : Bytes) :
    BusProgram (Option (List Bytes)) :=
  match decodeLocalInto (datagram.take maxDatagram) freshRequest with
  | (false, _) => return some [writeLocalToBuffer (createError 0 errorMalformedOpcode [])]
  | (true, request) => do
      match ← Router.dispatchRequest parser request metrics with
      | .responses responses => return some (responses.map writeLocalToBuffer)
      | .exited => return none

/-- A program over the bus, on the two tiers. -/
def onTiers {α : Type} (program : BusProgram α) : Program tiers α :=
  program.translate PermutiveBus.call

end TricPlus
