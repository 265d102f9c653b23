import TricPlus.Fields
import TricPlus.NetworkCodec
import TricPlus.ReplyProtocol

/-!
When a padded request means what it means without the noise.

A field is read the same way whatever follows it.  So noise is harmless for every
request that is stripped, and for those whose fields are all there.  The others
read it: a key listing takes it for its prefix, a restore for its lifetime.
-/

namespace TricPlus

open Std (ExtTreeMap)
open AtomicProgram
open BigEndian
open ExpiringMap (remains)

namespace Router

private theorem writeFields_eq_some {payload key value : Bytes} {millis : Nat} :
    writeFields payload = some (key, value, millis) ↔
      ∃ keyEnd valueEnd, readFieldWithOffset payload 0 = some (key, keyEnd) ∧
        readFieldWithOffset payload keyEnd = some (value, valueEnd) ∧
        readMillis payload valueEnd = some millis := by
  unfold writeFields
  simp only [Option.bind_eq_bind, Option.bind_eq_some_iff, Prod.exists, Option.some.injEq,
    Prod.mk.injEq]
  constructor
  · intro found
    rcases found with ⟨_, keyEnd, first, _, valueEnd, second, _, third, rfl, rfl, rfl⟩
    exact ⟨keyEnd, valueEnd, first, second, third⟩
  · intro found
    rcases found with ⟨keyEnd, valueEnd, first, second, third⟩
    exact ⟨key, keyEnd, first, value, valueEnd, second, millis, third, rfl, rfl, rfl⟩

private theorem matchFields_eq_some {payload key expected : Bytes} :
    matchFields payload = some (key, expected) ↔
      ∃ keyEnd valueEnd, readFieldWithOffset payload 0 = some (key, keyEnd) ∧
        readFieldWithOffset payload keyEnd = some (expected, valueEnd) := by
  unfold matchFields
  simp only [Option.bind_eq_bind, Option.bind_eq_some_iff, Prod.exists, Option.some.injEq,
    Prod.mk.injEq, readField_eq_some]
  constructor
  · intro found
    rcases found with ⟨_, keyEnd, first, _, ⟨valueEnd, second⟩, rfl, rfl⟩
    exact ⟨keyEnd, valueEnd, first, second⟩
  · intro found
    rcases found with ⟨keyEnd, valueEnd, first, second⟩
    exact ⟨key, keyEnd, first, expected, ⟨valueEnd, second⟩, rfl, rfl⟩

private theorem ttlFields_eq_some {payload key : Bytes} {millis : Nat} :
    ttlFields payload = some (key, millis) ↔
      ∃ keyEnd, readFieldWithOffset payload 0 = some (key, keyEnd) ∧
        readMillis payload keyEnd = some millis := by
  unfold ttlFields
  simp only [Option.bind_eq_bind, Option.bind_eq_some_iff, Prod.exists, Option.some.injEq,
    Prod.mk.injEq]
  constructor
  · intro found
    rcases found with ⟨_, keyEnd, first, _, second, rfl, rfl⟩
    exact ⟨keyEnd, first, second⟩
  · intro found
    rcases found with ⟨keyEnd, first, second⟩
    exact ⟨key, keyEnd, first, millis, second, rfl, rfl⟩

private theorem restoreFields_eq_some {payload key value : Bytes} {millis : Option Nat} :
    restoreFields payload = some (key, value, millis) ↔
      ∃ keyEnd valueEnd, readFieldWithOffset payload 0 = some (key, keyEnd) ∧
        readFieldWithOffset payload keyEnd = some (value, valueEnd) ∧
        readMillis payload valueEnd = millis := by
  unfold restoreFields
  simp only [Option.bind_eq_bind, Option.bind_eq_some_iff, Prod.exists, Option.some.injEq,
    Prod.mk.injEq]
  constructor
  · intro found
    rcases found with ⟨_, keyEnd, first, _, valueEnd, second, rfl, rfl, third⟩
    exact ⟨keyEnd, valueEnd, first, second, third⟩
  · intro found
    rcases found with ⟨keyEnd, valueEnd, first, second, third⟩
    exact ⟨key, keyEnd, first, value, valueEnd, second, rfl, rfl, third⟩

end Router

section Strip

variable {payload noise key value : Bytes} {keyEnd valueEnd : Nat}

private theorem readOneFieldLength_padded
    (first : readFieldWithOffset payload 0 = some (key, keyEnd)) :
    readOneFieldLength (payload ++ noise) = some keyEnd := by
  rcases readFieldWithOffset_eq_some.mp first with ⟨atEnd, inside, -⟩
  have bytes := (AgreeTo.padded payload noise inside).slice 0 4 (by omega)
  rw [List.drop_zero, List.drop_zero] at bytes
  rw [List.drop_zero, bytes] at atEnd
  unfold readOneFieldLength
  rw [if_neg (by rw [List.length_append]; omega), atEnd, Nat.zero_add]

private theorem readTwoFieldLengths_padded
    (first : readFieldWithOffset payload 0 = some (key, keyEnd))
    (second : readFieldWithOffset payload keyEnd = some (value, valueEnd)) :
    readTwoFieldLengths (payload ++ noise) = some valueEnd := by
  rcases readFieldWithOffset_eq_some.mp second with ⟨atEnd, inside, -⟩
  have bytes := (AgreeTo.padded payload noise inside).slice keyEnd 4
    (by omega)
  rw [bytes] at atEnd
  unfold readTwoFieldLengths
  rw [readOneFieldLength_padded first, Option.bind_eq_bind, Option.bind_some,
    if_neg (by rw [List.length_append]; omega), atEnd]

private theorem extractRealPayload_stripped {opcode : UInt8} {length : Nat}
    (consumed : consumedLength opcode (payload ++ noise) = some length)
    (inside : length ≤ payload.length) :
    extractRealPayload opcode (payload ++ noise) = payload.take length := by
  unfold extractRealPayload
  rw [consumed]
  simp only
  rw [if_pos (by rw [List.length_append]; omega), List.take_append_of_le_length inside]

end Strip

/-! ### The same program -/

def localRequest (requestId : Nat) (opcode : UInt8) (payload : Bytes) : Request where
  requestId := requestId
  opcode := opcode
  payload := payload
  isLocal := true

def paddedRequest (requestId : Nat) (opcode : UInt8) (payload noise : Bytes) : Request where
  requestId := requestId
  opcode := opcode
  payload := extractRealPayload opcode (payload ++ noise)
  isLocal := false

/-- The opcodes served to network clients. -/
def networkOpcodes : List UInt8 :=
  [0x01, 0x02, 0x03, 0x04, 0x05, 0x06, 0x07, 0x13, 0x17, 0x18, 0x19, 0x1A]

/-- The fields that the handler of the opcode needs are there. -/
def Accepted (opcode : UInt8) (payload : Bytes) : Prop :=
  match opcode with
  | 0x02 => (Router.writeFields payload).isSome = true
  | 0x04 => (Router.matchFields payload).isSome = true
  | 0x05 => (Router.ttlFields payload).isSome = true
  | 0x1A => (Router.restoreFields payload).isSome = true
  | 0x13 => True
  | 0x17 => True
  | 0x19 => True
  | _ => (readField payload 0).isSome = true

/-- A listing has its prefix, or finds none in the noise; a restore has its lifetime, or
finds none, or zero, in what follows. -/
def PaddingHarmless (opcode : UInt8) (payload noise : Bytes) : Prop :=
  match opcode with
  | 0x17 => (readField payload 0).isSome = true ∨
      (readField (payload ++ noise) 0).getD [] = []
  | 0x1A => ∀ key value millis,
      Router.restoreFields payload = some (key, value, none) →
      Router.restoreFields (payload ++ noise) = some (key, value, some millis) → millis = 0
  | _ => True

section Dispatch

variable {payload noise : Bytes}

private theorem readField_padded {field : Bytes} (found : readField payload 0 = some field) :
    readField (payload ++ noise) 0 = some field := by
  rcases readField_eq_some.mp found with ⟨fieldEnd, read⟩
  have inside := (readFieldWithOffset_eq_some.mp read).2.1
  exact readField_eq_some.mpr
    ⟨fieldEnd, readFieldWithOffset_agree read (AgreeTo.padded payload noise inside)⟩

private theorem readField_stripped {opcode : UInt8} {field : Bytes}
    (found : readField payload 0 = some field)
    (oneField : ∀ data, consumedLength opcode data = readOneFieldLength data) :
    readField (extractRealPayload opcode (payload ++ noise)) 0 = some field := by
  rcases readField_eq_some.mp found with ⟨fieldEnd, read⟩
  have inside := (readFieldWithOffset_eq_some.mp read).2.1
  have consumed : consumedLength opcode (payload ++ noise) = some fieldEnd := by
    rw [oneField, readOneFieldLength_padded read]
  rw [extractRealPayload_stripped consumed inside]
  exact readField_eq_some.mpr
    ⟨fieldEnd, readFieldWithOffset_agree read (AgreeTo.stripped payload inside)⟩

private theorem writeFields_stripped {fields : Bytes × Bytes × Nat}
    (found : Router.writeFields payload = some fields) :
    Router.writeFields (extractRealPayload 0x02 (payload ++ noise)) = some fields := by
  rcases fields with ⟨key, value, millis⟩
  rcases Router.writeFields_eq_some.mp found with ⟨keyEnd, valueEnd, first, second, third⟩
  have keyInside := (readFieldWithOffset_eq_some.mp second).1
  have valueInside := (readFieldWithOffset_eq_some.mp second).2.1
  have inside := (readMillis_eq_some.mp third).1
  have consumed : consumedLength 0x02 (payload ++ noise) = some (valueEnd + 8) := by
    change (readTwoFieldLengths (payload ++ noise)).map _ = _
    rw [readTwoFieldLengths_padded first second]
    rfl
  have agree := AgreeTo.stripped payload inside
  rw [extractRealPayload_stripped consumed inside]
  exact Router.writeFields_eq_some.mpr ⟨keyEnd, valueEnd,
    readFieldWithOffset_agree first (agree.shorter (by omega)),
    readFieldWithOffset_agree second (agree.shorter (by omega)), readMillis_agree third agree⟩

private theorem matchFields_stripped {fields : Bytes × Bytes}
    (found : Router.matchFields payload = some fields) :
    Router.matchFields (extractRealPayload 0x04 (payload ++ noise)) = some fields := by
  rcases fields with ⟨key, expected⟩
  rcases Router.matchFields_eq_some.mp found with ⟨keyEnd, valueEnd, first, second⟩
  have keyInside := (readFieldWithOffset_eq_some.mp second).1
  have inside := (readFieldWithOffset_eq_some.mp second).2.1
  have consumed : consumedLength 0x04 (payload ++ noise) = some valueEnd :=
    readTwoFieldLengths_padded first second
  have agree := AgreeTo.stripped payload inside
  rw [extractRealPayload_stripped consumed inside]
  exact Router.matchFields_eq_some.mpr ⟨keyEnd, valueEnd,
    readFieldWithOffset_agree first (agree.shorter (by omega)),
    readFieldWithOffset_agree second agree⟩

private theorem ttlFields_stripped {fields : Bytes × Nat}
    (found : Router.ttlFields payload = some fields) :
    Router.ttlFields (extractRealPayload 0x05 (payload ++ noise)) = some fields := by
  rcases fields with ⟨key, millis⟩
  rcases Router.ttlFields_eq_some.mp found with ⟨keyEnd, first, second⟩
  have inside := (readMillis_eq_some.mp second).1
  have consumed : consumedLength 0x05 (payload ++ noise) = some (keyEnd + 8) := by
    change (readOneFieldLength (payload ++ noise)).map _ = _
    rw [readOneFieldLength_padded first]
    rfl
  have agree := AgreeTo.stripped payload inside
  rw [extractRealPayload_stripped consumed inside]
  exact Router.ttlFields_eq_some.mpr ⟨keyEnd,
    readFieldWithOffset_agree first (agree.shorter (by omega)), readMillis_agree second agree⟩

private theorem restoreFields_padded {key value : Bytes} {millis : Option Nat}
    (found : Router.restoreFields payload = some (key, value, millis)) :
    ∃ padded, Router.restoreFields (payload ++ noise) = some (key, value, padded) ∧
      (millis.isSome = true → padded = millis) := by
  rcases Router.restoreFields_eq_some.mp found with ⟨keyEnd, valueEnd, first, second, third⟩
  have keyInside := (readFieldWithOffset_eq_some.mp second).1
  have inside := (readFieldWithOffset_eq_some.mp second).2.1
  have agree := AgreeTo.padded payload noise inside
  refine ⟨readMillis (payload ++ noise) valueEnd, ?_, ?_⟩
  · exact Router.restoreFields_eq_some.mpr ⟨keyEnd, valueEnd,
      readFieldWithOffset_agree first (agree.shorter (by omega)),
      readFieldWithOffset_agree second agree, rfl⟩
  · intro timed
    rcases Option.isSome_iff_exists.mp timed with ⟨number, same⟩
    rw [same] at third ⊢
    exact readMillis_agree third
      (AgreeTo.padded payload noise (readMillis_eq_some.mp third).1)

private theorem dispatch_padded (parser : SqlParser) (metrics : Metrics) (requestId : Nat)
    {opcode : UInt8} (network : opcode ∈ networkOpcodes) (accepted : Accepted opcode payload)
    (harmless : PaddingHarmless opcode payload noise) :
    Router.dispatchRequest parser (paddedRequest requestId opcode payload noise) metrics =
      Router.dispatchRequest parser (localRequest requestId opcode payload) metrics := by
  simp only [networkOpcodes, List.mem_cons, List.not_mem_nil, or_false] at network
  rcases network with rfl | rfl | rfl | rfl | rfl | rfl | rfl | rfl | rfl | rfl | rfl | rfl
  · rcases Option.isSome_iff_exists.mp accepted with ⟨key, found⟩
    change Router.one <$> Router.readValue _ = Router.one <$> Router.readValue _
    unfold Router.readValue paddedRequest localRequest
    simp only
    rw [found, readField_stripped found (fun _ => rfl)]
  · rcases Option.isSome_iff_exists.mp accepted with ⟨fields, found⟩
    change Router.one <$> Router.writeValue _ = Router.one <$> Router.writeValue _
    unfold Router.writeValue paddedRequest localRequest
    simp only
    rw [found, writeFields_stripped found]
  · rcases Option.isSome_iff_exists.mp accepted with ⟨key, found⟩
    change Router.one <$> Router.deleteValue _ = Router.one <$> Router.deleteValue _
    unfold Router.deleteValue paddedRequest localRequest
    simp only
    rw [found, readField_stripped found (fun _ => rfl)]
  · rcases Option.isSome_iff_exists.mp accepted with ⟨fields, found⟩
    change Router.one <$> Router.deleteValueIfMatch _ = Router.one <$> Router.deleteValueIfMatch _
    unfold Router.deleteValueIfMatch paddedRequest localRequest
    simp only
    rw [found, matchFields_stripped found]
  · rcases Option.isSome_iff_exists.mp accepted with ⟨fields, found⟩
    change Router.one <$> Router.writeTtl _ = Router.one <$> Router.writeTtl _
    unfold Router.writeTtl paddedRequest localRequest
    simp only
    rw [found, ttlFields_stripped found]
  · rcases Option.isSome_iff_exists.mp accepted with ⟨stem, found⟩
    change Dispatched.responses <$> Router.findByPrefix _ =
      Dispatched.responses <$> Router.findByPrefix _
    unfold Router.findByPrefix paddedRequest localRequest Router.scan
    simp only
    rw [found, readField_stripped found (fun _ => rfl)]
  · -- the strip logic keeps everything
    rcases Option.isSome_iff_exists.mp accepted with ⟨sql, found⟩
    change Dispatched.responses <$> Router.parseQueryRequest parser _ =
      Dispatched.responses <$> Router.parseQueryRequest parser _
    unfold Router.parseQueryRequest paddedRequest localRequest
    have kept : extractRealPayload 0x07 (payload ++ noise) = payload ++ noise := rfl
    simp only
    rw [kept, found, readField_padded found]
  · rfl
  · change Dispatched.responses <$> Router.readKeys _ = Dispatched.responses <$> Router.readKeys _
    unfold Router.readKeys paddedRequest localRequest Router.scan
    have kept : extractRealPayload 0x17 (payload ++ noise) = payload ++ noise := rfl
    have sameStem : (readField (payload ++ noise) 0).getD [] = (readField payload 0).getD [] := by
      cases found : readField payload 0 with
      | some stem => rw [readField_padded found]
      | none =>
          rcases harmless with present | empty
          · rw [found] at present
            cases present
          · exact empty
    simp only
    rw [kept, sameStem]
  · rcases Option.isSome_iff_exists.mp accepted with ⟨key, found⟩
    change Router.one <$> Router.readInspect _ = Router.one <$> Router.readInspect _
    unfold Router.readInspect paddedRequest localRequest
    have kept : extractRealPayload 0x18 (payload ++ noise) = payload ++ noise := rfl
    simp only
    rw [kept, found, readField_padded found]
  · rfl
  · rcases Option.isSome_iff_exists.mp accepted with ⟨⟨key, value, millis⟩, found⟩
    change Router.one <$> Router.writeRestore _ = Router.one <$> Router.writeRestore _
    unfold Router.writeRestore paddedRequest localRequest
    have kept : extractRealPayload 0x1A (payload ++ noise) = payload ++ noise := rfl
    rcases @restoreFields_padded payload noise key value millis found with ⟨padded, foundPadded, timed⟩
    simp only
    rw [kept, found, foundPadded]
    cases millis with
    | some number => rw [timed rfl]
    | none =>
        cases padded with
        | none => rfl
        | some number =>
            have zero : number = 0 := harmless key value number found foundPadded
            rw [zero]

end Dispatch

/-! ### Where the noise is read -/

def SameEffect (site : Site) (clock : Nat → Instant) (ticks : Nat) (bus : PermutiveBus)
    (left right : BusProgram Dispatched) : Prop :=
  (run (bothTiers site) clock (onTiers left) ticks bus).result =
      (run (bothTiers site) clock (onTiers right) ticks bus).result ∧
    (run (bothTiers site) clock (onTiers left) ticks bus).state =
      (run (bothTiers site) clock (onTiers right) ticks bus).state

def emptyKeyBus : PermutiveBus where
  transient := (SoundTric.step (.writeValueWithTtl [] [] 1) 0 .create).2
  persistent := ⟨∅, false, ∅⟩

private theorem emptyKeyBus_reachable : Reachable openSite stillClock ∅ 2 emptyKeyBus := by
  have called := Reachable.called (.writeValueWithTtl [] [] 1) 0 emptyBus emptyBus_reachable
  have closed : (bothTiers openSite).step ⟨.persistent, .deleteValue []⟩ (stillClock 0) emptyBus =
      (some (), emptyBus) := by
    simp only [bothTiers, emptyBus, SqliteBus.step, SqliteBus.deleteValue, SqliteBus.locked,
      Bool.false_eq_true, if_false, ExtTreeMap.getElem?_empty]
  have ran : run (bothTiers openSite) stillClock
      (PermutiveBus.call (.writeValueWithTtl [] [] 1)) 0 emptyBus = ⟨some (), 2, emptyKeyBus⟩ := by
    exact run_call_reply (bothTiers openSite) stillClock closed
  rw [ran] at called
  exact called

private theorem emptyKeyBus_holds (key : Bytes) :
    (remains (stillClock 2) emptyKeyBus.transient.contents[key]?).map ExpiringMap.Entry.value =
      if key = [] then some [] else none := by
  have contents : emptyKeyBus.transient.contents =
      (Reference.step (.writeValueWithTtl [] [] 1) 0 ∅).2 := by
    unfold emptyKeyBus
    rw [SoundTric.step_contents, SoundTric.create_contents]
  rw [contents]
  unfold Reference.step Reference.apply
  simp only
  rw [ExpiringMap.getElem?_storeUntil, ExpiringMap.getElem?_purge, ExtTreeMap.getElem?_empty]
  by_cases here : key = []
  · subst here
    rfl
  · rw [if_neg (Ne.symm here), if_neg here]
    rfl

private theorem emptyKeyBus_scan (stem : Bytes) :
    ∃ pairs after, run (bothTiers openSite) stillClock (PermutiveBus.findByPrefix stem) 2
        emptyKeyBus = ⟨some pairs, 4, after⟩ ∧
      (stem = [] → pairs ≠ []) ∧ (stem ≠ [] → pairs = []) := by
  refine ⟨_, _, run_findByPrefix openSite stillClock 2 rfl stem, ?_, ?_⟩
  · intro whole empty
    subst whole
    have listed : (([], []) : Bytes × Bytes) ∈
        (SoundTric.step (.findByPrefix []) (stillClock 2) emptyKeyBus.transient).1 :=
      mem_transient_scan.mpr ⟨emptyKeyBus_holds [], List.nil_prefix⟩
    have merged := mem_mergeResults.mpr
      (Or.inl listed : _ ∨ _ ∈ emptyKeyBus.persistent.listing [] ∧ _)
    rw [empty] at merged
    cases merged
  · intro whole
    rw [List.eq_nil_iff_forall_not_mem]
    intro pair member
    rcases pair with ⟨key, value⟩
    rcases mem_mergeResults.mp member with inTransient | inPersistent
    · rcases mem_transient_scan.mp inTransient with ⟨held, starts⟩
      rw [emptyKeyBus_holds key] at held
      split at held
      next here =>
        rw [here] at starts
        exact whole (List.prefix_nil.mp starts)
      next => cases held
    · cases inPersistent.1

private theorem length_scanResponses (requestId : Nat) (entries : List Bytes) :
    (scanResponses requestId entries).length = min entries.length maxChunks + 1 := by
  unfold scanResponses
  rw [List.length_append, List.length_mapIdx, List.length_take, List.length_singleton,
    Nat.min_comm]

private theorem run_scan (request : Request) (stem : Bytes) :
    ∃ pairs, (run (bothTiers openSite) stillClock
        (onTiers (Dispatched.responses <$> Router.scan request stem)) 2 emptyKeyBus).result =
          some (.responses (scanResponses request.requestId (pairs.map pairEntry))) ∧
      (stem = [] → pairs ≠ []) ∧ (stem ≠ [] → pairs = []) := by
  rcases emptyKeyBus_scan stem with ⟨pairs, after, ran, whole, none⟩
  refine ⟨pairs, ?_, whole, none⟩
  change (run (bothTiers openSite) stillClock ((PermutiveBus.findByPrefix stem).bind
    (fun pairs => .done (Dispatched.responses
      (scanResponses request.requestId (pairs.map pairEntry))))) 2 emptyKeyBus).result = _
  rw [run_bind, ran]
  rfl

private theorem readKeys_padded_differs {payload noise stem : Bytes} (requestId : Nat)
    (missing : readField payload 0 = none) (read : readField (payload ++ noise) 0 = some stem)
    (nonempty : stem ≠ []) (parser : SqlParser) (metrics : Metrics) :
    ¬ SameEffect openSite stillClock 2 emptyKeyBus
      (Router.dispatchRequest parser (paddedRequest requestId 0x17 payload noise) metrics)
      (Router.dispatchRequest parser (localRequest requestId 0x17 payload) metrics) := by
  intro same
  have padded : Router.dispatchRequest parser (paddedRequest requestId 0x17 payload noise) metrics =
      Dispatched.responses <$> Router.scan (paddedRequest requestId 0x17 payload noise) stem := by
    change Dispatched.responses <$> Router.readKeys _ = _
    unfold Router.readKeys
    have kept : (paddedRequest requestId 0x17 payload noise).payload = payload ++ noise := rfl
    rw [kept, read]
    rfl
  have whole : Router.dispatchRequest parser (localRequest requestId 0x17 payload) metrics =
      Dispatched.responses <$> Router.scan (localRequest requestId 0x17 payload) [] := by
    change Dispatched.responses <$> Router.readKeys _ = _
    unfold Router.readKeys
    have kept : (localRequest requestId 0x17 payload).payload = payload := rfl
    rw [kept, missing]
    rfl
  rcases run_scan (paddedRequest requestId 0x17 payload noise) stem with ⟨few, ranFew, -, empty⟩
  rcases run_scan (localRequest requestId 0x17 payload) [] with ⟨all, ranAll, notEmpty, -⟩
  have results := same.1
  rw [padded, whole, ranFew, ranAll, empty nonempty] at results
  have lengths := congrArg List.length (Dispatched.responses.inj (Option.some.inj results))
  rw [length_scanResponses, length_scanResponses, List.length_map, List.length_map,
    List.length_nil] at lengths
  have some := List.length_pos_of_ne_nil (notEmpty rfl)
  have limit : maxChunks = 0xFFFF := rfl
  omega

private theorem restore_rows (key value : Bytes) (duration : Duration) :
    ∃ stored ticks, run (bothTiers openSite) stillClock (PermutiveBus.writeValue key value) 0
        emptyBus = ⟨some (), ticks, stored⟩ ∧
      (stored.cell openSite key).row = some value ∧
      ∃ timed later, run (bothTiers openSite) stillClock (PermutiveBus.writeTtl key duration) ticks
          stored = ⟨some (), later, timed⟩ ∧ (timed.cell openSite key).row = none := by
  have usable : (emptyBus.cell openSite key).usable = true := by
    change emptyBus.persistent.usable openSite key = true
    unfold SqliteBus.usable openSite
    exact Bool.or_true _
  have first := run_cell openSite stillClock
    (rfl : (DataBusCall.writeValue key value).key? = some key) 0 emptyBus_attached
  rcases ran : run (bothTiers openSite) stillClock (PermutiveBus.call (.writeValue key value)) 0
    emptyBus with ⟨result, ticks, stored⟩
  rw [ran] at first
  have written := (run_writeValue stillClock (rfl : (emptyBus.cell openSite key).poisoned = false)
    usable key value).symm.trans first
  have returned : some () = result := congrArg Outcome.result written
  have cell := congrArg Outcome.state written
  have row : (stored.cell openSite key).row = some value := (congrArg Cell.row cell).symm
  have sound : (stored.cell openSite key).poisoned = false := (congrArg Cell.poisoned cell).symm
  subst returned
  refine ⟨stored, ticks, ran, row, ?_⟩
  have attached : stored.persistent.Attached := by
    have kept := (Reachable.called (.writeValue key value) 0 emptyBus emptyBus_reachable).attached
    rw [ran] at kept
    exact kept
  have second := run_cell openSite stillClock
    (rfl : (DataBusCall.writeTtl key duration).key? = some key) ticks attached
  rcases moved : run (bothTiers openSite) stillClock (PermutiveBus.call (.writeTtl key duration))
    ticks stored with ⟨result, later, timed⟩
  rw [moved] at second
  have lifted := (run_writeTtl_move stillClock sound key duration row).symm.trans second
  have returned : some () = result := congrArg Outcome.result lifted
  subst returned
  exact ⟨timed, later, moved, (congrArg (fun outcome => outcome.state.row) lifted).symm⟩

private theorem writeRestore_padded_differs {payload noise key value : Bytes} {millis : Nat}
    (requestId : Nat) (found : Router.restoreFields payload = some (key, value, none))
    (read : Router.restoreFields (payload ++ noise) = some (key, value, some (millis + 1)))
    (parser : SqlParser) (metrics : Metrics) :
    ¬ SameEffect openSite stillClock 0 emptyBus
      (Router.dispatchRequest parser (paddedRequest requestId 0x1A payload noise) metrics)
      (Router.dispatchRequest parser (localRequest requestId 0x1A payload) metrics) := by
  intro same
  have padded : onTiers (Router.dispatchRequest parser
      (paddedRequest requestId 0x1A payload noise) metrics) =
      (PermutiveBus.writeValue key value).bind (fun _ =>
        (PermutiveBus.writeTtl key (fromMillis (millis + 1))).bind (fun _ =>
          .done (Router.one (createOk requestId)))) := by
    change onTiers (Router.one <$> Router.writeRestore _) = _
    unfold Router.writeRestore
    have kept : (paddedRequest requestId 0x1A payload noise).payload = payload ++ noise := rfl
    rw [kept, read]
    rfl
  have plain : onTiers (Router.dispatchRequest parser
      (localRequest requestId 0x1A payload) metrics) =
      (PermutiveBus.writeValue key value).bind (fun _ =>
        .done (Router.one (createOk requestId))) := by
    change onTiers (Router.one <$> Router.writeRestore _) = _
    unfold Router.writeRestore
    have kept : (localRequest requestId 0x1A payload).payload = payload := rfl
    rw [kept, found]
    rfl
  rcases restore_rows key value (fromMillis (millis + 1)) with
    ⟨stored, ticks, written, row, timed, later, moved, noRow⟩
  have states := same.2
  rw [padded, plain, run_bind, run_bind, written] at states
  simp only at states
  rw [run_bind, moved] at states
  simp only [run_done] at states
  rw [states, row] at noRow
  cases noRow

/-! ### Decoding -/

theorem decodeLocalInto_written {requestId : Nat} (fits : requestId < 2 ^ 32) {opcode : UInt8}
    (network : opcode ∈ networkOpcodes) (payload : Bytes) :
    decodeLocalInto (toBeBytes 4 requestId ++ opcode :: payload) freshRequest =
      (true, localRequest requestId opcode payload) := by
  have valid : ¬ (opcode = 0x00 ∨ opcode = 0xFF) := by
    intro invalid
    rcases invalid with rfl | rfl <;> exact absurd network (by decide)
  unfold decodeLocalInto
  rw [List.drop_left' (length_toBeBytes 4 requestId)]
  simp only
  rw [if_neg valid, List.take_left' (length_toBeBytes 4 requestId),
    fromBeBytes_toBeBytes_of_lt (fits.trans_eq (by decide))]
  rfl

private theorem decodeNetwork_written {Key : Type} (aead : Aead Key) (correct : aead.Correct)
    (table : SessionTable Key) {sessionId nonce ciphertext payload noise : Bytes} {requestId : Nat}
    {opcode : UInt8} {session : Session Key}
    (found : table.sessions[sessionId]? = some session) (sessionLength : sessionId.length = 16)
    (nonceLength : nonce.length = 12) (fits : requestId < 2 ^ 32)
    (network : opcode ∈ networkOpcodes)
    (encrypted : aead.encrypt session.cipher nonce
      (toBeBytes 4 requestId ++ opcode :: (payload ++ noise)) = some ciphertext) :
    decodeNetwork aead table (sessionId ++ nonce ++ ciphertext) =
      some (paddedRequest requestId opcode payload noise, sessionId) := by
  have valid : ¬ (opcode = 0x00 ∨ opcode = 0xFF) := by
    intro invalid
    rcases invalid with rfl | rfl <;> exact absurd network (by decide)
  have long : 21 ≤ ciphertext.length := by
    have tagged := correct.tagged _ _ _ _ nonceLength encrypted
    rw [List.length_append, length_toBeBytes, List.length_cons] at tagged
    omega
  have decrypted : table.decryptRequest aead sessionId ciphertext nonce =
      some (toBeBytes 4 requestId ++ opcode :: (payload ++ noise)) := by
    unfold SessionTable.decryptRequest
    rw [found]
    exact correct.decrypts _ _ _ _ nonceLength encrypted
  unfold decodeNetwork
  rw [networkParts_join sessionLength nonceLength long]
  simp only [Option.bind_eq_bind, Option.bind_some]
  rw [decrypted, Option.bind_some, List.drop_left' (length_toBeBytes 4 requestId)]
  simp only
  rw [if_neg valid, List.take_left' (length_toBeBytes 4 requestId),
    fromBeBytes_toBeBytes_of_lt (fits.trans_eq (by decide))]
  rfl

/-- A padded request of the network does what the request does on the local socket, on
every bus there can be, exactly when the noise is not read. -/
theorem padding_transparent_iff {Key : Type} (aead : Aead Key) (correct : aead.Correct)
    (table : SessionTable Key) {sessionId nonce ciphertext payload noise : Bytes} {requestId : Nat}
    {opcode : UInt8} {session : Session Key}
    (found : table.sessions[sessionId]? = some session) (sessionLength : sessionId.length = 16)
    (nonceLength : nonce.length = 12) (fits : requestId < 2 ^ 32)
    (network : opcode ∈ networkOpcodes) (accepted : Accepted opcode payload)
    (encrypted : aead.encrypt session.cipher nonce
      (toBeBytes 4 requestId ++ opcode :: (payload ++ noise)) = some ciphertext) :
    ∃ request plain,
      decodeNetwork aead table (sessionId ++ nonce ++ ciphertext) = some (request, sessionId) ∧
      decodeLocalInto (toBeBytes 4 requestId ++ opcode :: payload) freshRequest = (true, plain) ∧
      ((∀ parser metrics site clock disk ticks bus, Reachable site clock disk ticks bus →
          SameEffect site clock ticks bus (Router.dispatchRequest parser request metrics)
            (Router.dispatchRequest parser plain metrics)) ↔
        PaddingHarmless opcode payload noise) := by
  refine ⟨_, _, decodeNetwork_written aead correct table found sessionLength nonceLength fits
    network encrypted, decodeLocalInto_written fits network payload, ?_⟩
  constructor
  · intro same
    simp only [networkOpcodes, List.mem_cons, List.not_mem_nil, or_false] at network
    rcases network with rfl | rfl | rfl | rfl | rfl | rfl | rfl | rfl | rfl | rfl | rfl | rfl
    all_goals try exact trivial
    · -- a key listing
      change (readField payload 0).isSome = true ∨ (readField (payload ++ noise) 0).getD [] = []
      by_contra harmful
      rw [not_or, Bool.not_eq_true, Option.isSome_eq_false_iff, Option.isNone_iff_eq_none]
        at harmful
      cases read : readField (payload ++ noise) 0 with
      | none => exact harmful.2 (by rw [read]; rfl)
      | some stem =>
          have nonempty : stem ≠ [] := by
            intro empty
            exact harmful.2 (by rw [read, empty]; rfl)
          exact readKeys_padded_differs requestId harmful.1 read nonempty silentParser
            freshMetrics (same _ _ _ _ _ _ _ emptyKeyBus_reachable)
    · -- a restore
      intro key value millis plain padded
      cases millis with
      | zero => rfl
      | succ millis =>
          exact absurd (same silentParser freshMetrics _ _ _ _ _ emptyBus_reachable)
            (writeRestore_padded_differs requestId plain padded _ _)
  · intro harmless parser metrics site clock disk ticks bus _
    have program := dispatch_padded parser metrics requestId network accepted harmless
    unfold SameEffect
    rw [program]
    exact ⟨rfl, rfl⟩

def bareRestore : Bytes :=
  lengthPrefixed (asBytes "users:1") ++ lengthPrefixed (asBytes "a")

def sampleNoise : Bytes := List.replicate 64 1

theorem read_ignores_the_noise :
    ∃ request plain,
      decodeNetwork openCipher sampleTable (List.replicate 16 7 ++ List.replicate 12 3 ++
          (((Vector.replicate 32 1).toList ++ List.replicate 12 3) ++
            (List.replicate 16 0 ++ (toBeBytes 4 9 ++
              0x01 :: (lengthPrefixed (asBytes "users:1") ++ sampleNoise))))) =
        some (request, List.replicate 16 7) ∧
      decodeLocalInto (toBeBytes 4 9 ++ 0x01 :: lengthPrefixed (asBytes "users:1"))
        freshRequest = (true, plain) ∧
      ((∀ parser metrics site clock disk ticks bus, Reachable site clock disk ticks bus →
          SameEffect site clock ticks bus (Router.dispatchRequest parser request metrics)
            (Router.dispatchRequest parser plain metrics)) ↔
        PaddingHarmless 0x01 (lengthPrefixed (asBytes "users:1")) sampleNoise) :=
  padding_transparent_iff openCipher openCipher_ideal.toCorrect sampleTable sampleTable_session
    List.length_replicate List.length_replicate (by decide) (by decide)
    (by
      change (readField (lengthPrefixed (asBytes "users:1")) 0).isSome = true
      decide +kernel) rfl

/-- A restored key that never expires on the local socket gets a lifetime from the noise. -/
theorem restore_reads_the_noise :
    ∃ request plain,
      decodeNetwork openCipher sampleTable (List.replicate 16 7 ++ List.replicate 12 3 ++
          (((Vector.replicate 32 1).toList ++ List.replicate 12 3) ++
            (List.replicate 16 0 ++ (toBeBytes 4 9 ++ 0x1A :: (bareRestore ++ sampleNoise))))) =
        some (request, List.replicate 16 7) ∧
      decodeLocalInto (toBeBytes 4 9 ++ 0x1A :: bareRestore) freshRequest = (true, plain) ∧
      Accepted 0x1A bareRestore ∧
      Reachable openSite stillClock ∅ 0 emptyBus ∧
      ¬ SameEffect openSite stillClock 0 emptyBus
        (Router.dispatchRequest silentParser request freshMetrics)
        (Router.dispatchRequest silentParser plain freshMetrics) := by
  have network : (0x1A : UInt8) ∈ networkOpcodes := by decide
  have accepted : Accepted 0x1A bareRestore := by
    change (Router.restoreFields bareRestore).isSome = true
    decide +kernel
  have read : Router.restoreFields (bareRestore ++ sampleNoise) =
      some (asBytes "users:1", asBytes "a", some (72340172838076672 + 1)) := by decide +kernel
  exact ⟨_, _,
    decodeNetwork_written openCipher openCipher_ideal.toCorrect sampleTable sampleTable_session
      List.length_replicate List.length_replicate (by decide) network rfl,
    decodeLocalInto_written (by decide) network bareRestore, accepted,
    emptyBus_reachable,
    writeRestore_padded_differs 9 (by decide +kernel) read silentParser freshMetrics⟩

end TricPlus
