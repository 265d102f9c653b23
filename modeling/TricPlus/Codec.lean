import TricPlus.DataBus
import TricPlus.Lib.BigEndian

/-!
Requests and responses of the local socket, and their fields.
-/

namespace TricPlus

open BigEndian

structure Request where
  requestId : Nat
  opcode : UInt8
  payload : Bytes
  isLocal : Bool
  deriving DecidableEq

structure Response where
  requestId : Nat
  opcode : UInt8
  payload : Bytes
  deriving DecidableEq

/-- Decode a datagram into the request; one that is not well formed leaves it as it is. -/
def decodeLocalInto (raw : Bytes) (request : Request) : Bool × Request :=
  match raw.drop 4 with
  | [] => (false, request)
  | opcode :: payload =>
      if opcode = 0x00 ∨ opcode = 0xFF then (false, request)
      else
        (true,
          { requestId := fromBeBytes (raw.take 4)
            opcode := opcode
            payload := payload
            isLocal := true })

def writeLocalToBuffer (response : Response) : Bytes :=
  toBeBytes 4 response.requestId ++ response.opcode :: response.payload

def readFieldWithOffset (payload : Bytes) (offset : Nat) : Option (Bytes × Nat) :=
  if payload.length < offset + 4 then none
  else
    let length := fromBeBytes ((payload.drop offset).take 4)
    let fieldStart := offset + 4
    let fieldEnd := fieldStart + length
    if payload.length < fieldEnd then none
    else some ((payload.drop fieldStart).take length, fieldEnd)

def readField (payload : Bytes) (offset : Nat) : Option Bytes :=
  (readFieldWithOffset payload offset).map Prod.fst

def readMillis (payload : Bytes) (offset : Nat) : Option Nat :=
  if payload.length < offset + 8 then none
  else some (fromBeBytes ((payload.drop offset).take 8))

/-- A length and the bytes; the length is cut to 32 bits. -/
def lengthPrefixed (field : Bytes) : Bytes :=
  toBeBytes 4 field.length ++ field

def okOpcode : UInt8 := 0x80
def okPayloadOpcode : UInt8 := 0x81
def scanChunkOpcode : UInt8 := 0x90
def scanEndOpcode : UInt8 := 0x91
def errorMalformedOpcode : UInt8 := 0xA1
def errorInvalidOpcode : UInt8 := 0xA2

def createOk (requestId : Nat) : Response where
  requestId := requestId
  opcode := okOpcode
  payload := []

def createPayload (requestId : Nat) (payload : Bytes) : Response where
  requestId := requestId
  opcode := okPayloadOpcode
  payload := payload

def createError (requestId : Nat) (errorOpcode : UInt8) (message : Bytes) : Response where
  requestId := requestId
  opcode := errorOpcode
  payload := message

/-- Chunks are counted in 16 bits. -/
def maxChunks : Nat := 0xFFFF

def scanChunk (requestId total chunkId : Nat) (entry : Bytes) : Response where
  requestId := requestId
  opcode := scanChunkOpcode
  payload := toBeBytes 2 total ++ toBeBytes 2 chunkId ++ entry

def scanEnd (requestId : Nat) : Response where
  requestId := requestId
  opcode := scanEndOpcode
  payload := []

/-- The chunks of a scan, and its end. -/
def scanResponses (requestId : Nat) (entries : List Bytes) : List Response :=
  (entries.take maxChunks).mapIdx
      (fun chunkId entry => scanChunk requestId (min entries.length maxChunks) chunkId entry) ++
    [scanEnd requestId]

def pairEntry (pair : Bytes × Bytes) : Bytes :=
  lengthPrefixed pair.1 ++ lengthPrefixed pair.2

end TricPlus
