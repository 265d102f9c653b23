import TricPlus.Codec
import TricPlus.SessionTable

/-!
Datagrams of network clients: a session, a nonce and an encrypted text, which
ends in noise.

Requests are decrypted under the nonce in the header.  Responses are encrypted
under the counter of the session, and their header carries another, random nonce.
-/

namespace TricPlus

open Std (ExtTreeMap LawfulEqCmp)
open BigEndian

def readOneFieldLength (data : Bytes) : Option Nat :=
  if data.length < 4 then none else some (4 + fromBeBytes (data.take 4))

def readTwoFieldLengths (data : Bytes) : Option Nat := do
  let first ← readOneFieldLength data
  if data.length < first + 4 then none
  else some (first + 4 + fromBeBytes ((data.drop first).take 4))

def readOneFieldLengthPlusU64 (data : Bytes) : Option Nat :=
  (readOneFieldLength data).map (fun first => first + 8)

def readTwoFieldLengthsPlusU64 (data : Bytes) : Option Nat :=
  (readTwoFieldLengths data).map (fun twoFields => twoFields + 8)

def consumedLength (opcode : UInt8) (afterOpcode : Bytes) : Option Nat :=
  match opcode with
  | 0x01 => readOneFieldLength afterOpcode
  | 0x03 => readOneFieldLength afterOpcode
  | 0x02 => readTwoFieldLengthsPlusU64 afterOpcode
  | 0x04 => readTwoFieldLengths afterOpcode
  | 0x05 => readOneFieldLengthPlusU64 afterOpcode
  | 0x06 => readOneFieldLength afterOpcode
  | 0x13 => some 0
  | 0x10 => some 64
  | 0x11 => some 64
  | _ => none

def extractRealPayload (opcode : UInt8) (afterOpcode : Bytes) : Bytes :=
  match consumedLength opcode afterOpcode with
  | some length => if length ≤ afterOpcode.length then afterOpcode.take length else afterOpcode
  | none => afterOpcode

def networkParts (raw : Bytes) : Option (Bytes × Bytes × Bytes) :=
  if raw.length < 16 + 12 + 5 + 16 then none
  else some (raw.take 16, (raw.drop 16).take 12, raw.drop 28)

variable {Key : Type}

def decodeNetwork (aead : Aead Key) (table : SessionTable Key) (raw : Bytes) :
    Option (Request × Bytes) := do
  let (sessionId, nonce, ciphertext) ← networkParts raw
  let plaintext ← table.decryptRequest aead sessionId ciphertext nonce
  match plaintext.drop 4 with
  | [] => none
  | opcode :: afterOpcode =>
      if opcode = 0x00 ∨ opcode = 0xFF then none
      else
        some
          ({ requestId := fromBeBytes (plaintext.take 4)
             opcode := opcode
             payload := extractRealPayload opcode afterOpcode
             isLocal := false }, sessionId)

/-- What the encoder draws for a response: its noise, and the nonce of the header. -/
structure NetworkDraw where
  noise : Bytes
  headerNonce : Bytes
  noiseLength : 64 ≤ noise.length ∧ noise.length ≤ 1024
  nonceLength : headerNonce.length = 12

def encodeNetwork (aead : Aead Key) (response : Response) (sessionId : Bytes)
    (table : SessionTable Key) (draw : NetworkDraw) : Option Bytes × SessionTable Key :=
  match table.encryptResponse aead sessionId (writeLocalToBuffer response ++ draw.noise) with
  | (none, after) => (none, after)
  | (some encrypted, after) => (some (sessionId ++ draw.headerNonce ++ encrypted), after)

namespace Aead

/-- What was encrypted is decrypted to what it was, and the tag adds sixteen bytes or
more. -/
structure Correct (aead : Aead Key) : Prop where
  decrypts : ∀ key nonce plaintext ciphertext, nonce.length = 12 →
    aead.encrypt key nonce plaintext = some ciphertext →
      aead.decrypt key nonce ciphertext = some plaintext
  tagged : ∀ key nonce plaintext ciphertext, nonce.length = 12 →
    aead.encrypt key nonce plaintext = some ciphertext →
      plaintext.length + 16 ≤ ciphertext.length

/-- Every text can be encrypted, and under another nonce it is not decrypted. -/
structure Ideal (aead : Aead Key) : Prop extends aead.Correct where
  encrypts : ∀ key nonce plaintext, nonce.length = 12 →
    (aead.encrypt key nonce plaintext).isSome = true
  authentic : ∀ key nonce other plaintext ciphertext,
    nonce.length = 12 → other.length = 12 → aead.encrypt key nonce plaintext = some ciphertext →
      (aead.decrypt key other ciphertext).isSome = true → other = nonce

end Aead

private theorem length_counterNonce (counter : Nat) : (counterNonce counter).length = 12 := by
  unfold counterNonce
  rw [List.length_append, List.length_replicate, length_toBeBytes]

theorem networkParts_join {sessionId nonce ciphertext : Bytes} (sessionLength : sessionId.length = 16)
    (nonceLength : nonce.length = 12) (long : 21 ≤ ciphertext.length) :
    networkParts (sessionId ++ nonce ++ ciphertext) = some (sessionId, nonce, ciphertext) := by
  unfold networkParts
  rw [if_neg (by simp only [List.length_append]; omega)]
  have first : (sessionId ++ nonce ++ ciphertext).take 16 = sessionId := by
    rw [List.append_assoc, ← sessionLength, List.take_left]
  have second : ((sessionId ++ nonce ++ ciphertext).drop 16).take 12 = nonce := by
    rw [List.append_assoc, ← sessionLength, List.drop_left, ← nonceLength, List.take_left]
  have third : (sessionId ++ nonce ++ ciphertext).drop 28 = ciphertext := by
    have total : (sessionId ++ nonce).length = 28 := by
      rw [List.length_append, sessionLength, nonceLength]
    rw [← total, List.drop_left]
  rw [first, second, third]

/-- What a peer that holds the key reads in a datagram: it takes it apart as the server
does. -/
def openDatagram (aead : Aead Key) (key : Key) (datagram : Bytes) : Option Bytes := do
  let (_, nonce, ciphertext) ← networkParts datagram
  aead.decrypt key nonce ciphertext

/-- The peer gets the response, with something behind it. -/
def Readable (aead : Aead Key) (key : Key) (response : Response) (sent : Option Bytes) : Prop :=
  ∃ datagram plaintext, sent = some datagram ∧
    openDatagram aead key datagram = some plaintext ∧
    writeLocalToBuffer response <+: plaintext

private theorem length_writeLocalToBuffer (response : Response) :
    (writeLocalToBuffer response).length = 5 + response.payload.length := by
  unfold writeLocalToBuffer
  rw [List.length_append, length_toBeBytes, List.length_cons]
  omega

private theorem response_sent (aead : Aead Key) (ideal : aead.Ideal) (table : SessionTable Key)
    {sessionId : Bytes} (sessionLength : sessionId.length = 16) {session : Session Key}
    (found : table.sessions[sessionId]? = some session) (response : Response)
    (draw : NetworkDraw) :
    ∃ ciphertext,
      (encodeNetwork aead response sessionId table draw).1 =
        some (sessionId ++ draw.headerNonce ++ ciphertext) ∧
      aead.encrypt session.cipher (counterNonce ((session.nonceCounter + 1) % counterPeriod))
        (writeLocalToBuffer response ++ draw.noise) = some ciphertext ∧
      openDatagram aead session.cipher (sessionId ++ draw.headerNonce ++ ciphertext) =
        aead.decrypt session.cipher draw.headerNonce ciphertext := by
  have twelve := length_counterNonce ((session.nonceCounter + 1) % counterPeriod)
  rcases Option.isSome_iff_exists.mp (ideal.encrypts session.cipher _
    (writeLocalToBuffer response ++ draw.noise) twelve) with ⟨ciphertext, encrypted⟩
  have long : 21 ≤ ciphertext.length := by
    have tagged := ideal.tagged _ _ _ _ twelve encrypted
    rw [List.length_append, length_writeLocalToBuffer] at tagged
    omega
  refine ⟨ciphertext, ?_, encrypted, ?_⟩
  · unfold encodeNetwork
    rw [SessionTable.encryptResponse_found aead _ found, encrypted]
  · unfold openDatagram
    rw [networkParts_join sessionLength draw.nonceLength long]
    rfl

private theorem counter_of_readable (aead : Aead Key) (ideal : aead.Ideal)
    (table : SessionTable Key)
    {sessionId : Bytes} (sessionLength : sessionId.length = 16) {session : Session Key}
    (found : table.sessions[sessionId]? = some session) (response : Response)
    (draw : NetworkDraw)
    (readable : Readable aead session.cipher response
      (encodeNetwork aead response sessionId table draw).1) :
    draw.headerNonce = counterNonce ((session.nonceCounter + 1) % counterPeriod) := by
  rcases response_sent aead ideal table sessionLength found response draw with
    ⟨ciphertext, sent, encrypted, opened⟩
  rcases readable with ⟨datagram, plaintext, produced, decrypted, -⟩
  cases sent.symm.trans produced
  apply ideal.authentic _ _ _ _ _ (length_counterNonce _) draw.nonceLength encrypted
  rw [← opened, decrypted]
  rfl

/-- A response can be decrypted exactly when the random nonce in its header is the counter
it was encrypted under. -/
theorem response_readable_iff (aead : Aead Key) (ideal : aead.Ideal) (table : SessionTable Key)
    {sessionId : Bytes} (sessionLength : sessionId.length = 16) {session : Session Key}
    (found : table.sessions[sessionId]? = some session) (response : Response)
    (draw : NetworkDraw) :
    Readable aead session.cipher response
        (encodeNetwork aead response sessionId table draw).1 ↔
      draw.headerNonce = counterNonce ((session.nonceCounter + 1) % counterPeriod) := by
  constructor
  · exact counter_of_readable aead ideal table sessionLength found response draw
  · intro same
    rcases response_sent aead ideal table sessionLength found response draw with
      ⟨ciphertext, sent, encrypted, opened⟩
    have decrypted := ideal.decrypts _ _ _ _ (length_counterNonce _) encrypted
    rw [same] at opened
    exact ⟨_, _, sent.trans (by rw [same]), opened.trans decrypted,
      List.prefix_append _ draw.noise⟩

/-- Key and nonce stand in front of the text, and sixteen more bytes behind them. -/
def openCipher : Aead (Vector UInt8 32) where
  encrypt := fun key nonce plaintext =>
    some ((key.toList ++ nonce) ++ (List.replicate 16 0 ++ plaintext))
  decrypt := fun key nonce ciphertext =>
    if ciphertext.take 44 = key.toList ++ nonce then some (ciphertext.drop 60) else none

private theorem take_openCipher {key : Vector UInt8 32} {nonce : Bytes} (twelve : nonce.length = 12)
    (rest : Bytes) : ((key.toList ++ nonce) ++ rest).take 44 = key.toList ++ nonce := by
  have total : (key.toList ++ nonce).length = 44 := by
    rw [List.length_append, Vector.length_toList, twelve]
  rw [← total, List.take_left]

theorem openCipher_ideal : openCipher.Ideal where
  decrypts := by
    intro key nonce plaintext ciphertext twelve encrypted
    cases encrypted
    unfold openCipher
    simp only
    rw [if_pos (take_openCipher twelve _)]
    have total : ((key.toList ++ nonce) ++ List.replicate 16 (0 : UInt8)).length = 60 := by
      rw [List.length_append, List.length_append, Vector.length_toList, twelve,
        List.length_replicate]
    rw [← List.append_assoc, ← total, List.drop_left]
  tagged := by
    intro key nonce plaintext ciphertext twelve encrypted
    cases encrypted
    simp only [List.length_append, List.length_replicate]
    omega
  encrypts := fun _ _ _ _ => rfl
  authentic := by
    intro key nonce other plaintext ciphertext twelve otherTwelve encrypted decrypted
    cases encrypted
    unfold openCipher at decrypted
    simp only at decrypted
    rw [take_openCipher twelve] at decrypted
    split at decrypted
    next same => exact (List.append_cancel_left same).symm
    next => cases decrypted

def sampleTable : SessionTable (Vector UInt8 32) where
  sessions := (∅ : ExtTreeMap Bytes (Session (Vector UInt8 32))).insert (List.replicate 16 7)
    { label := asBytes "api-gateway"
      cipher := Vector.replicate 32 1
      nonceCounter := 0 }
  maxSessions := 4

def sampleDraw (headerNonce : Bytes) (nonceLength : headerNonce.length = 12) : NetworkDraw where
  noise := List.replicate 64 0
  headerNonce := headerNonce
  noiseLength := by decide
  nonceLength := nonceLength

theorem sampleTable_session :
    sampleTable.sessions[(List.replicate 16 7 : Bytes)]? =
      some
        { label := asBytes "api-gateway"
          cipher := Vector.replicate 32 1
          nonceCounter := 0 } := by
  unfold sampleTable
  exact ExtTreeMap.getElem?_insert_self

/-- Only by chance does the header carry the counter. -/
theorem lucky_response_is_readable :
    Readable openCipher (Vector.replicate 32 1) (createOk 9)
      (encodeNetwork openCipher (createOk 9) (List.replicate 16 7) sampleTable
        (sampleDraw (counterNonce 1) (length_counterNonce 1))).1 :=
  (response_readable_iff openCipher openCipher_ideal sampleTable List.length_replicate
    sampleTable_session (createOk 9) _).mpr rfl

/-- A header of zeros: the first response of the session cannot be read. -/
theorem first_response_is_unreadable :
    ¬ Readable openCipher (Vector.replicate 32 1) (createOk 9)
      (encodeNetwork openCipher (createOk 9) (List.replicate 16 7) sampleTable
        (sampleDraw (List.replicate 12 0) List.length_replicate)).1 := by
  intro readable
  have same := counter_of_readable openCipher openCipher_ideal sampleTable
    List.length_replicate sampleTable_session (createOk 9) _ readable
  exact absurd same (by decide)

end TricPlus
