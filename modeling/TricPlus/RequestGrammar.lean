import TricPlus.ReplyProtocol

/-!
The requests about keys, as the manual lists their fields, and what the handlers accept.

A payload is read by indexing, at offsets that come out of the payload itself.  The first
part follows the code index by index, so that a read out of bounds would show.
-/

namespace TricPlus

open AtomicProgram
open BigEndian

/-! ### Reading by index -/

/-- What would stop a worker in the middle of a payload. -/
inductive Panic where
  | indexOutOfBounds
  | overflow

abbrev Sliced := Except Panic

namespace Sliced

def add (offset count : Nat) : Sliced Nat :=
  if offset + count < 2 ^ 64 then .ok (offset + count)
  else .error .overflow

def byteAt (payload : Bytes) (offset : Nat) : Sliced UInt8 :=
  match payload[offset]? with
  | some byte => .ok byte
  | none => .error .indexOutOfBounds

def bytesAt (payload : Bytes) (offset count : Nat) : Sliced Bytes :=
  (List.range count).mapM (fun index => do byteAt payload (← add offset index))

def slice (payload : Bytes) (start stop : Nat) : Sliced Bytes :=
  if start ≤ stop ∧ stop ≤ payload.length then .ok ((payload.drop start).take (stop - start))
  else .error .indexOutOfBounds

def readFieldWithOffset (payload : Bytes) (offset : Nat) : Sliced (Option (Bytes × Nat)) := do
  if payload.length < (← add offset 4) then return none
  else
    let length := fromBeBytes (← bytesAt payload offset 4)
    let fieldStart ← add offset 4
    let fieldEnd ← add fieldStart length
    if payload.length < fieldEnd then return none
    else return some (← slice payload fieldStart fieldEnd, fieldEnd)

def readMillis (payload : Bytes) (offset : Nat) : Sliced (Option Nat) := do
  if payload.length < (← add offset 8) then return none
  else return some (fromBeBytes (← bytesAt payload offset 8))

end Sliced

/-- The requests with the opcodes 0x01 to 0x06 and 0x18. -/
inductive KeyRequest where
  | readValue (key : Bytes)
  | writeValue (key value : Bytes) (durationMs : Nat)
  | deleteValue (key : Bytes)
  | deleteValueIfMatch (key expected : Bytes)
  | writeTtl (key : Bytes) (durationMs : Nat)
  | findByPrefix (stem : Bytes)
  | readInspect (key : Bytes)

namespace KeyRequest

def opcodes : List UInt8 := [0x01, 0x02, 0x03, 0x04, 0x05, 0x06, 0x18]

def opcode : KeyRequest → UInt8
  | readValue _ => 0x01
  | writeValue _ _ _ => 0x02
  | deleteValue _ => 0x03
  | deleteValueIfMatch _ _ => 0x04
  | writeTtl _ _ => 0x05
  | findByPrefix _ => 0x06
  | readInspect _ => 0x18

/-- The fields of the request as the manual writes them. -/
def fields : KeyRequest → Bytes
  | readValue key => lengthPrefixed key
  | writeValue key value durationMs =>
      lengthPrefixed key ++ (lengthPrefixed value ++ toBeBytes 8 durationMs)
  | deleteValue key => lengthPrefixed key
  | deleteValueIfMatch key expected => lengthPrefixed key ++ lengthPrefixed expected
  | writeTtl key durationMs => lengthPrefixed key ++ toBeBytes 8 durationMs
  | findByPrefix stem => lengthPrefixed stem
  | readInspect key => lengthPrefixed key

/-- Lengths have 32 bits and durations 64. -/
def Fits : KeyRequest → Prop
  | readValue key => key.length < fieldLimit
  | writeValue key value durationMs =>
      key.length < fieldLimit ∧ value.length < fieldLimit ∧ durationMs < 2 ^ 64
  | deleteValue key => key.length < fieldLimit
  | deleteValueIfMatch key expected => key.length < fieldLimit ∧ expected.length < fieldLimit
  | writeTtl key durationMs => key.length < fieldLimit ∧ durationMs < 2 ^ 64
  | findByPrefix stem => stem.length < fieldLimit
  | readInspect key => key.length < fieldLimit

/-- The payload begins with all fields of the request; anything may follow. -/
def Begins (request : KeyRequest) (payload : Bytes) : Prop :=
  request.Fits ∧ ∃ rest, payload = request.fields ++ rest

/-- The operation on the bus that a request stands for, and its responses. -/
def perform (requestId : Nat) : KeyRequest → BusProgram (List Response)
  | readValue key => do
      match ← DataBus.readValue key with
      | some value => return [createPayload requestId (lengthPrefixed value)]
      | none => return [createOk requestId]
  | writeValue key value durationMs => do
      if durationMs = 0 then DataBus.writeValue key value
      else DataBus.writeValueWithTtl key value (fromMillis durationMs)
      return [createOk requestId]
  | deleteValue key => do
      DataBus.deleteValue key
      return [createOk requestId]
  | deleteValueIfMatch key expected => do
      let deleted ← DataBus.deleteValueIfMatch key expected
      return [createPayload requestId [if deleted then 0x01 else 0x00]]
  | writeTtl key durationMs => do
      DataBus.writeTtl key (fromMillis durationMs)
      return [createOk requestId]
  | findByPrefix stem => do
      let pairs ← DataBus.findByPrefix stem
      return scanResponses requestId (pairs.map pairEntry)
  | readInspect key => do
      match ← DataBus.readValue key with
      | some value =>
          let remaining ← DataBus.readTtlRemaining key
          return [createPayload requestId
            (lengthPrefixed value ++ toBeBytes 8 (Router.remainingMillis remaining))]
      | none => return [createOk requestId]

/-- The request that the handler of an opcode makes out of a payload. -/
def parse (opcode : UInt8) (payload : Bytes) : Option KeyRequest :=
  match opcode with
  | 0x01 => (readField payload 0).map readValue
  | 0x02 => (Router.writeFields payload).map (fun parts => writeValue parts.1 parts.2.1 parts.2.2)
  | 0x03 => (readField payload 0).map deleteValue
  | 0x04 => (Router.matchFields payload).map (fun parts => deleteValueIfMatch parts.1 parts.2)
  | 0x05 => (Router.ttlFields payload).map (fun parts => writeTtl parts.1 parts.2)
  | 0x06 => (readField payload 0).map findByPrefix
  | 0x18 => (readField payload 0).map readInspect
  | _ => none

end KeyRequest

theorem readFieldWithOffset_iff {front tail field : Bytes} {fieldEnd : Nat} :
    readFieldWithOffset (front ++ tail) front.length = some (field, fieldEnd) ↔
      field.length < fieldLimit ∧ fieldEnd = (front ++ lengthPrefixed field).length ∧
        ∃ rest, tail = lengthPrefixed field ++ rest := by
  constructor
  · intro found
    rcases readFieldWithOffset_eq_some.mp found with ⟨atEnd, inside, bytes⟩
    rw [List.drop_left] at atEnd bytes
    rw [← List.drop_drop, List.drop_left] at bytes
    rw [List.length_append] at inside
    have four : (tail.take 4).length = 4 := by
      rw [List.length_take]
      omega
    have long : field.length = fromBeBytes (tail.take 4) := by
      rw [← bytes, List.length_take, List.length_drop]
      omega
    have small : field.length < fieldLimit := by
      have bounded := fromBeBytes_lt (tail.take 4)
      rw [four] at bounded
      rw [long]
      exact bounded
    have number : toBeBytes 4 field.length = tail.take 4 := by
      rw [long]
      calc toBeBytes 4 (fromBeBytes (tail.take 4))
          = toBeBytes (tail.take 4).length (fromBeBytes (tail.take 4)) := by rw [four]
        _ = tail.take 4 := toBeBytes_fromBeBytes (tail.take 4)
    refine ⟨small, ?_, (tail.drop 4).drop field.length, ?_⟩
    · rw [atEnd, List.length_append, length_lengthPrefixed, long, Nat.add_assoc]
    · rw [← long] at bytes
      calc tail = tail.take 4 ++ tail.drop 4 := (List.take_append_drop 4 tail).symm
        _ = tail.take 4 ++ ((tail.drop 4).take field.length ++ (tail.drop 4).drop field.length) :=
            congrArg (tail.take 4 ++ ·) (List.take_append_drop field.length (tail.drop 4)).symm
        _ = lengthPrefixed field ++ (tail.drop 4).drop field.length := by
            rw [bytes, ← number]
            unfold lengthPrefixed
            rw [List.append_assoc]
  · intro parts
    rcases parts with ⟨small, atEnd, rest, same⟩
    rw [same, atEnd]
    exact readFieldWithOffset_lengthPrefixed front rest small

theorem readMillis_iff {front tail : Bytes} {millis : Nat} :
    readMillis (front ++ tail) front.length = some millis ↔
      millis < 2 ^ 64 ∧ ∃ rest, tail = toBeBytes 8 millis ++ rest := by
  constructor
  · intro found
    rcases readMillis_eq_some.mp found with ⟨inside, number⟩
    rw [List.length_append] at inside
    rw [List.drop_left] at number
    have eight : (tail.take 8).length = 8 := by
      rw [List.length_take]
      omega
    have bounded := fromBeBytes_lt (tail.take 8)
    rw [eight, number] at bounded
    refine ⟨bounded, tail.drop 8, ?_⟩
    have same : toBeBytes 8 millis = tail.take 8 := by
      calc toBeBytes 8 millis = toBeBytes (tail.take 8).length (fromBeBytes (tail.take 8)) := by
            rw [eight, number]
        _ = tail.take 8 := toBeBytes_fromBeBytes (tail.take 8)
    rw [same, List.take_append_drop]
  · intro parts
    rcases parts with ⟨small, rest, same⟩
    rw [same]
    exact readMillis_written front rest small

private theorem readField_iff {payload field : Bytes} :
    readField payload 0 = some field ↔
      field.length < fieldLimit ∧ ∃ rest, payload = lengthPrefixed field ++ rest := by
  have atStart := fun fieldEnd => @readFieldWithOffset_iff [] payload field fieldEnd
  rw [readField_eq_some]
  constructor
  · intro found
    rcases found with ⟨fieldEnd, found⟩
    rcases (atStart fieldEnd).mp found with ⟨small, -, rest⟩
    exact ⟨small, rest⟩
  · intro parts
    exact ⟨_, (atStart _).mpr ⟨parts.1, rfl, parts.2⟩⟩

namespace Router

private theorem writeFields_iff {payload key value : Bytes} {durationMs : Nat} :
    writeFields payload = some (key, value, durationMs) ↔
      (KeyRequest.writeValue key value durationMs).Begins payload := by
  unfold writeFields KeyRequest.Begins KeyRequest.Fits KeyRequest.fields
  simp only [Option.bind_eq_bind, Option.bind_eq_some_iff, Option.some.injEq, Prod.mk.injEq]
  constructor
  · intro found
    rcases found with ⟨⟨first, offset⟩, readKey, ⟨second, behind⟩, readValue, millis, readTime,
      rfl, rfl, rfl⟩
    rcases (@readFieldWithOffset_iff [] payload first offset).mp readKey with
      ⟨small, atEnd, tail, same⟩
    subst same
    subst atEnd
    rcases readFieldWithOffset_iff.mp readValue with ⟨fits, atEnd, tail, same⟩
    subst same
    subst atEnd
    simp only [List.nil_append] at readTime readValue ⊢
    rw [← List.append_assoc] at readTime
    rcases readMillis_iff.mp readTime with ⟨short, rest, same⟩
    subst same
    refine ⟨⟨small, fits, short⟩, rest, ?_⟩
    rw [List.append_assoc, List.append_assoc]
  · intro begins
    rcases begins with ⟨⟨small, fits, short⟩, rest, same⟩
    subst same
    rw [List.append_assoc, List.append_assoc]
    refine ⟨(key, (lengthPrefixed key).length), ?_,
      (value, (lengthPrefixed key ++ lengthPrefixed value).length), ?_, durationMs, ?_,
      rfl, rfl, rfl⟩
    · exact (@readFieldWithOffset_iff [] _ _ _).mpr ⟨small, rfl, _, rfl⟩
    · exact readFieldWithOffset_iff.mpr ⟨fits, rfl, _, rfl⟩
    · rw [← List.append_assoc]
      exact readMillis_iff.mpr ⟨short, rest, rfl⟩

private theorem matchFields_iff {payload key expected : Bytes} :
    matchFields payload = some (key, expected) ↔
      (KeyRequest.deleteValueIfMatch key expected).Begins payload := by
  unfold matchFields KeyRequest.Begins KeyRequest.Fits KeyRequest.fields
  simp only [Option.bind_eq_bind, Option.bind_eq_some_iff, Option.some.injEq, Prod.mk.injEq]
  constructor
  · intro found
    rcases found with ⟨⟨first, offset⟩, readKey, second, readValue, rfl, rfl⟩
    rcases (@readFieldWithOffset_iff [] payload first offset).mp readKey with
      ⟨small, atEnd, tail, same⟩
    subst same
    subst atEnd
    rcases readField_eq_some.mp readValue with ⟨behind, found⟩
    rcases readFieldWithOffset_iff.mp found with ⟨fits, -, rest, same⟩
    subst same
    exact ⟨⟨small, fits⟩, rest, (List.append_assoc ..).symm⟩
  · intro begins
    rcases begins with ⟨⟨small, fits⟩, rest, same⟩
    subst same
    rw [List.append_assoc]
    refine ⟨(key, (lengthPrefixed key).length), ?_, expected, ?_, rfl, rfl⟩
    · exact (@readFieldWithOffset_iff [] _ _ _).mpr ⟨small, rfl, _, rfl⟩
    · exact readField_eq_some.mpr ⟨_, readFieldWithOffset_iff.mpr ⟨fits, rfl, rest, rfl⟩⟩

private theorem ttlFields_iff {payload key : Bytes} {durationMs : Nat} :
    ttlFields payload = some (key, durationMs) ↔
      (KeyRequest.writeTtl key durationMs).Begins payload := by
  unfold ttlFields KeyRequest.Begins KeyRequest.Fits KeyRequest.fields
  simp only [Option.bind_eq_bind, Option.bind_eq_some_iff, Option.some.injEq, Prod.mk.injEq]
  constructor
  · intro found
    rcases found with ⟨⟨first, offset⟩, readKey, millis, readTime, rfl, rfl⟩
    rcases (@readFieldWithOffset_iff [] payload first offset).mp readKey with
      ⟨small, atEnd, tail, same⟩
    subst same
    subst atEnd
    rcases readMillis_iff.mp readTime with ⟨short, rest, same⟩
    subst same
    exact ⟨⟨small, short⟩, rest, (List.append_assoc ..).symm⟩
  · intro begins
    rcases begins with ⟨⟨small, short⟩, rest, same⟩
    subst same
    rw [List.append_assoc]
    refine ⟨(key, (lengthPrefixed key).length), ?_, durationMs, ?_, rfl, rfl⟩
    · exact (@readFieldWithOffset_iff [] _ _ _).mpr ⟨small, rfl, _, rfl⟩
    · exact readMillis_iff.mpr ⟨short, rest, rfl⟩

end Router

namespace KeyRequest

theorem parse_iff {opcode : UInt8} {payload : Bytes} {request : KeyRequest} :
    parse opcode payload = some request ↔ request.opcode = opcode ∧ request.Begins payload := by
  constructor
  · intro parsed
    unfold parse at parsed
    split at parsed
    · rcases Option.map_eq_some_iff.mp parsed with ⟨key, read, rfl⟩
      exact ⟨rfl, readField_iff.mp read⟩
    · rcases Option.map_eq_some_iff.mp parsed with ⟨⟨key, value, durationMs⟩, read, rfl⟩
      exact ⟨rfl, Router.writeFields_iff.mp read⟩
    · rcases Option.map_eq_some_iff.mp parsed with ⟨key, read, rfl⟩
      exact ⟨rfl, readField_iff.mp read⟩
    · rcases Option.map_eq_some_iff.mp parsed with ⟨⟨key, expected⟩, read, rfl⟩
      exact ⟨rfl, Router.matchFields_iff.mp read⟩
    · rcases Option.map_eq_some_iff.mp parsed with ⟨⟨key, durationMs⟩, read, rfl⟩
      exact ⟨rfl, Router.ttlFields_iff.mp read⟩
    · rcases Option.map_eq_some_iff.mp parsed with ⟨stem, read, rfl⟩
      exact ⟨rfl, readField_iff.mp read⟩
    · rcases Option.map_eq_some_iff.mp parsed with ⟨key, read, rfl⟩
      exact ⟨rfl, readField_iff.mp read⟩
    · cases parsed
  · intro parts
    rcases parts with ⟨same, begins⟩
    subst same
    cases request with
    | readValue key => exact Option.map_eq_some_iff.mpr ⟨key, readField_iff.mpr begins, rfl⟩
    | writeValue key value durationMs =>
        exact Option.map_eq_some_iff.mpr ⟨_, Router.writeFields_iff.mpr begins, rfl⟩
    | deleteValue key => exact Option.map_eq_some_iff.mpr ⟨key, readField_iff.mpr begins, rfl⟩
    | deleteValueIfMatch key expected =>
        exact Option.map_eq_some_iff.mpr ⟨_, Router.matchFields_iff.mpr begins, rfl⟩
    | writeTtl key durationMs =>
        exact Option.map_eq_some_iff.mpr ⟨_, Router.ttlFields_iff.mpr begins, rfl⟩
    | findByPrefix stem => exact Option.map_eq_some_iff.mpr ⟨stem, readField_iff.mpr begins, rfl⟩
    | readInspect key => exact Option.map_eq_some_iff.mpr ⟨key, readField_iff.mpr begins, rfl⟩

/-- What a handler does with a payload: the operation of the request it finds, or else
nothing but an error. -/
def handle (requestId : Nat) : Option KeyRequest → BusProgram (List Response)
  | some request => request.perform requestId
  | none => return [createError requestId errorMalformedOpcode []]

end KeyRequest

/-! ### The handlers -/

private theorem mem_opcodes {opcode : UInt8} (aboutKeys : opcode ∈ KeyRequest.opcodes) :
    opcode = 0x01 ∨ opcode = 0x02 ∨ opcode = 0x03 ∨ opcode = 0x04 ∨ opcode = 0x05 ∨
      opcode = 0x06 ∨ opcode = 0x18 := by
  unfold KeyRequest.opcodes at aboutKeys
  simp only [List.mem_cons, List.not_mem_nil, or_false] at aboutKeys
  exact aboutKeys

theorem dispatchRequest_eq (parser : SqlParser) (metrics : Metrics) {request : Request}
    (aboutKeys : request.opcode ∈ KeyRequest.opcodes) :
    Router.dispatchRequest parser request metrics =
      Dispatched.responses <$>
        KeyRequest.handle request.requestId (KeyRequest.parse request.opcode request.payload) := by
  rcases request with ⟨requestId, opcode, payload, isLocal⟩
  rcases mem_opcodes aboutKeys with same | same | same | same | same | same | same
  · subst same
    change Router.one <$> Router.readValue _ = _
    unfold Router.readValue KeyRequest.parse
    cases readField payload 0 with
    | none => rfl
    | some key =>
        refine congrArg (@Program.call dataBus Dispatched (.readValue key)) (funext ?_)
        intro found
        cases found with
        | none => rfl
        | some value => rfl
  · subst same
    change Router.one <$> Router.writeValue _ = _
    unfold Router.writeValue KeyRequest.parse
    cases Router.writeFields payload with
    | none => rfl
    | some parts =>
        rcases parts with ⟨key, value, durationMs⟩
        cases durationMs with
        | zero => rfl
        | succ durationMs => rfl
  · subst same
    change Router.one <$> Router.deleteValue _ = _
    unfold Router.deleteValue KeyRequest.parse
    cases readField payload 0 with
    | none => rfl
    | some key => rfl
  · subst same
    change Router.one <$> Router.deleteValueIfMatch _ = _
    unfold Router.deleteValueIfMatch KeyRequest.parse
    cases Router.matchFields payload with
    | none => rfl
    | some parts => rfl
  · subst same
    change Router.one <$> Router.writeTtl _ = _
    unfold Router.writeTtl KeyRequest.parse
    cases Router.ttlFields payload with
    | none => rfl
    | some parts => rfl
  · subst same
    change Dispatched.responses <$> Router.findByPrefix _ = _
    unfold Router.findByPrefix KeyRequest.parse
    cases readField payload 0 with
    | none => rfl
    | some stem => rfl
  · subst same
    change Router.one <$> Router.readInspect _ = _
    unfold Router.readInspect KeyRequest.parse
    cases readField payload 0 with
    | none => rfl
    | some key =>
        refine congrArg (@Program.call dataBus Dispatched (.readValue key)) (funext ?_)
        intro found
        cases found with
        | none => rfl
        | some value => rfl

namespace Sliced

/-- A slice of memory has fewer bytes than this. -/
def sliceLimit : Nat := 2 ^ 63

theorem add_ok {offset count : Nat} (fits : offset + count < 2 ^ 64) :
    add offset count = .ok (offset + count) := if_pos fits

private theorem byteAt_ok {payload : Bytes} {offset : Nat} (inside : offset < payload.length) :
    byteAt payload offset = .ok payload[offset] := by
  unfold byteAt
  rw [List.getElem?_eq_getElem inside]

theorem slice_ok {payload : Bytes} {start stop : Nat} (ordered : start ≤ stop)
    (inside : stop ≤ payload.length) :
    slice payload start stop = .ok ((payload.drop start).take (stop - start)) :=
  if_pos ⟨ordered, inside⟩

section

variable {payload : Bytes} (fits : payload.length < sliceLimit)

include fits

theorem bytesAt_ok {offset : Nat} (count : Nat) (inside : offset + count ≤ payload.length) :
    bytesAt payload offset count = .ok ((payload.drop offset).take count) := by
  unfold bytesAt
  induction count with
  | zero => rfl
  | succ count ih =>
      have here : offset + count < payload.length := by omega
      have small : offset + count < 2 ^ 64 := by
        unfold sliceLimit at fits
        omega
      rw [List.range_succ, List.mapM_append, ih (by omega)]
      simp only [List.mapM_cons, List.mapM_nil, add_ok small, bind, Except.bind, pure, Except.pure,
        byteAt_ok here]
      rw [List.take_add_one, List.getElem?_drop, List.getElem?_eq_getElem here]
      rfl

private theorem readFieldWithOffset_ok {offset : Nat} (inside : offset ≤ payload.length) :
    readFieldWithOffset payload offset = .ok (TricPlus.readFieldWithOffset payload offset) := by
  unfold sliceLimit at fits
  unfold readFieldWithOffset TricPlus.readFieldWithOffset
  rw [add_ok (by omega)]
  simp only [bind, Except.bind, pure, Except.pure]
  by_cases short : payload.length < offset + 4
  · rw [if_pos short, if_pos short]
  · rw [if_neg short, if_neg short, bytesAt_ok fits 4 (by omega)]
    have bounded := fromBeBytes_lt ((payload.drop offset).take 4)
    rw [List.length_take, List.length_drop, Nat.min_eq_left (by omega)] at bounded
    simp only
    rw [add_ok (by omega)]
    simp only
    by_cases cut : payload.length < offset + 4 + fromBeBytes ((payload.drop offset).take 4)
    · rw [if_pos cut, if_pos cut]
    · rw [if_neg cut, if_neg cut, slice_ok (by omega) (by omega)]
      simp only
      rw [Nat.add_sub_cancel_left]

private theorem readMillis_ok {offset : Nat} (inside : offset ≤ payload.length) :
    readMillis payload offset = .ok (TricPlus.readMillis payload offset) := by
  unfold sliceLimit at fits
  unfold readMillis TricPlus.readMillis
  rw [add_ok (by omega)]
  simp only [bind, Except.bind, pure, Except.pure]
  by_cases short : payload.length < offset + 8
  · rw [if_pos short, if_pos short]
  · rw [if_neg short, if_neg short, bytesAt_ok fits 8 (by omega)]

omit fits in
private theorem end_of_field {field : Bytes} {offset fieldEnd : Nat}
    (found : TricPlus.readFieldWithOffset payload offset = some (field, fieldEnd)) :
    fieldEnd ≤ payload.length :=
  (readFieldWithOffset_eq_some.mp found).2.1

end

/-! ### The parsers of the handlers, index by index -/

def readField (payload : Bytes) (offset : Nat) : Sliced (Option Bytes) := do
  return (← readFieldWithOffset payload offset).map Prod.fst

def writeFields (payload : Bytes) : Sliced (Option (Bytes × Bytes × Nat)) := do
  match ← readFieldWithOffset payload 0 with
  | none => return none
  | some (key, offset) =>
      match ← readFieldWithOffset payload offset with
      | none => return none
      | some (value, offset) =>
          match ← readMillis payload offset with
          | none => return none
          | some durationMs => return some (key, value, durationMs)

def matchFields (payload : Bytes) : Sliced (Option (Bytes × Bytes)) := do
  match ← readFieldWithOffset payload 0 with
  | none => return none
  | some (key, offset) =>
      match ← readField payload offset with
      | none => return none
      | some expected => return some (key, expected)

def ttlFields (payload : Bytes) : Sliced (Option (Bytes × Nat)) := do
  match ← readFieldWithOffset payload 0 with
  | none => return none
  | some (key, offset) =>
      match ← readMillis payload offset with
      | none => return none
      | some durationMs => return some (key, durationMs)

def parse (opcode : UInt8) (payload : Bytes) : Sliced (Option KeyRequest) :=
  match opcode with
  | 0x01 => do return (← readField payload 0).map KeyRequest.readValue
  | 0x02 => do
      return (← writeFields payload).map
        (fun parts => KeyRequest.writeValue parts.1 parts.2.1 parts.2.2)
  | 0x03 => do return (← readField payload 0).map KeyRequest.deleteValue
  | 0x04 => do
      return (← matchFields payload).map
        (fun parts => KeyRequest.deleteValueIfMatch parts.1 parts.2)
  | 0x05 => do
      return (← ttlFields payload).map (fun parts => KeyRequest.writeTtl parts.1 parts.2)
  | 0x06 => do return (← readField payload 0).map KeyRequest.findByPrefix
  | 0x18 => do return (← readField payload 0).map KeyRequest.readInspect
  | _ => return none

section

variable {payload : Bytes} (fits : payload.length < sliceLimit)

include fits

private theorem readField_ok {offset : Nat} (inside : offset ≤ payload.length) :
    readField payload offset = .ok (TricPlus.readField payload offset) := by
  unfold readField TricPlus.readField
  rw [readFieldWithOffset_ok fits inside]
  rfl

private theorem writeFields_ok : writeFields payload = .ok (Router.writeFields payload) := by
  unfold writeFields Router.writeFields
  rw [readFieldWithOffset_ok fits (Nat.zero_le _)]
  cases first : TricPlus.readFieldWithOffset payload 0 with
  | none => rfl
  | some parts =>
      rcases parts with ⟨key, offset⟩
      simp only [bind, Except.bind, Option.bind]
      rw [readFieldWithOffset_ok fits (end_of_field first)]
      cases second : TricPlus.readFieldWithOffset payload offset with
      | none => rfl
      | some parts =>
          rcases parts with ⟨value, behind⟩
          simp only
          rw [readMillis_ok fits (end_of_field second)]
          cases TricPlus.readMillis payload behind with
          | none => rfl
          | some durationMs => rfl

private theorem matchFields_ok : matchFields payload = .ok (Router.matchFields payload) := by
  unfold matchFields Router.matchFields
  rw [readFieldWithOffset_ok fits (Nat.zero_le _)]
  cases first : TricPlus.readFieldWithOffset payload 0 with
  | none => rfl
  | some parts =>
      rcases parts with ⟨key, offset⟩
      simp only [bind, Except.bind, Option.bind]
      rw [readField_ok fits (end_of_field first)]
      cases TricPlus.readField payload offset with
      | none => rfl
      | some expected => rfl

private theorem ttlFields_ok : ttlFields payload = .ok (Router.ttlFields payload) := by
  unfold ttlFields Router.ttlFields
  rw [readFieldWithOffset_ok fits (Nat.zero_le _)]
  cases first : TricPlus.readFieldWithOffset payload 0 with
  | none => rfl
  | some parts =>
      rcases parts with ⟨key, offset⟩
      simp only [bind, Except.bind, Option.bind]
      rw [readMillis_ok fits (end_of_field first)]
      cases TricPlus.readMillis payload offset with
      | none => rfl
      | some durationMs => rfl

private theorem parse_ok (opcode : UInt8) : parse opcode payload = .ok
    (KeyRequest.parse opcode payload) := by
  unfold parse KeyRequest.parse
  split
  · rw [readField_ok fits (Nat.zero_le _)]
    rfl
  · rw [writeFields_ok fits]
    rfl
  · rw [readField_ok fits (Nat.zero_le _)]
    rfl
  · rw [matchFields_ok fits]
    rfl
  · rw [ttlFields_ok fits]
    rfl
  · rw [readField_ok fits (Nat.zero_le _)]
    rfl
  · rw [readField_ok fits (Nat.zero_le _)]
    rfl
  · rfl

end

end Sliced

/-- A request about keys is read out of a payload exactly if the payload begins with its
fields, and then just its operation is performed; any other payload is answered with an
error and leaves the bus alone.  No index is out of bounds. -/
theorem requests_parsed_exactly (parser : SqlParser) (metrics : Metrics) (request : Request)
    (aboutKeys : request.opcode ∈ KeyRequest.opcodes) :
    (∀ parsed : KeyRequest, parsed.opcode = request.opcode → parsed.Begins request.payload →
      Router.dispatchRequest parser request metrics =
        Dispatched.responses <$> parsed.perform request.requestId) ∧
    ((¬ ∃ parsed : KeyRequest, parsed.opcode = request.opcode ∧ parsed.Begins request.payload) →
      ∀ (site : Site) (clock : Nat → Instant) (ticks : Nat) (bus : PermutiveBus),
        run (bothTiers site) clock (onTiers (Router.dispatchRequest parser request metrics)) ticks
            bus =
          ⟨some (.responses [createError request.requestId errorMalformedOpcode []]), ticks,
            bus⟩) ∧
    (request.payload.length < Sliced.sliceLimit →
      Sliced.parse request.opcode request.payload =
        .ok (KeyRequest.parse request.opcode request.payload)) := by
  rw [dispatchRequest_eq parser metrics aboutKeys]
  refine ⟨?_, ?_, ?_⟩
  · intro parsed same begins
    rw [KeyRequest.parse_iff.mpr ⟨same, begins⟩]
    rfl
  · intro nothing site clock ticks bus
    cases found : KeyRequest.parse request.opcode request.payload with
    | some parsed => exact absurd ⟨parsed, KeyRequest.parse_iff.mp found⟩ nothing
    | none => rfl
  · intro fits
    exact Sliced.parse_ok fits request.opcode

/-- Request 7 writes `a` under the key `k` for five milliseconds; one byte follows. -/
def paddedWrite : Request where
  requestId := 7
  opcode := 0x02
  payload := [0, 0, 0, 1, 0x6B, 0, 0, 0, 1, 0x61, 0, 0, 0, 0, 0, 0, 0, 5, 0xFF]
  isLocal := true

theorem padded_write_is_parsed :
    Router.dispatchRequest silentParser paddedWrite freshMetrics = Dispatched.responses <$>
        (KeyRequest.writeValue [0x6B] [0x61] 5).perform 7 ∧
      Sliced.parse 0x02 paddedWrite.payload =
        .ok (some (KeyRequest.writeValue [0x6B] [0x61] 5)) := by
  have exactly := requests_parsed_exactly silentParser freshMetrics paddedWrite (by decide)
  have begins : (KeyRequest.writeValue [0x6B] [0x61] 5).Begins paddedWrite.payload :=
    ⟨⟨by decide, by decide, by decide⟩, [0xFF], rfl⟩
  refine ⟨exactly.1 _ rfl begins, ?_⟩
  rw [← KeyRequest.parse_iff.mpr ⟨rfl, begins⟩]
  exact exactly.2.2 (by decide)

end TricPlus
