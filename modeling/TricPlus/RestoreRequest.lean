import TricPlus.RequestGrammar
import TricPlus.WireDump

/-!
Restore requests that arrive cut short.

A request cut within its key or its value is refused.  The lifetime is looked for after the
value is written, so a request cut within the lifetime stores an entry that never expires.
-/

namespace TricPlus

open AtomicProgram
open BigEndian
open ExpiringMap (Entry)

def restorePayload (entry : Dumped) : Bytes :=
  lengthPrefixed entry.1.1 ++ (lengthPrefixed entry.1.2 ++ toBeBytes 8 entry.2)

def restoreDatagram (requestId : Nat) (entry : Dumped) : Bytes :=
  toBeBytes 4 requestId ++ 0x1A :: restorePayload entry

/-- Where the value ends in the datagram. -/
def valueEnd (entry : Dumped) : Nat :=
  5 + (lengthPrefixed entry.1.1 ++ lengthPrefixed entry.1.2).length

def arrived (datagram : Bytes) : Bytes :=
  datagram.take maxDatagram

section Statements

variable (site : Site) (clock : Nat → Instant) (ticks : Nat) (bus : PermutiveBus)

/-- The request is acknowledged, and its key holds the value until the lifetime has run
out. -/
def AppliesRestore (parser : SqlParser) (metrics : Metrics) (requestId : Nat) (entry : Dumped)
    (datagram : Bytes) : Prop :=
  ∃ later after,
    run (bothTiers site) clock (onTiers (answerDatagram parser metrics datagram)) ticks bus =
      ⟨some (some [writeLocalToBuffer (createOk requestId)]), later, after⟩ ∧
    ∃ set, ticks ≤ set ∧ set ≤ later ∧ (after.cell site entry.1.1).Matches (clock later)
      (some ⟨entry.1.2, some (clock set + fromMillis entry.2)⟩)

/-- The answer is an error, and nothing happened on the bus. -/
def RefusesDatagram (parser : SqlParser) (metrics : Metrics) (datagram : Bytes) : Prop :=
  ∃ requestId,
    run (bothTiers site) clock (onTiers (answerDatagram parser metrics datagram)) ticks bus =
      ⟨some (some [writeLocalToBuffer (createError requestId errorMalformedOpcode [])]), ticks, bus⟩

/-- The request is acknowledged. -/
def AcceptsRestore (request : Request) : Prop :=
  (run (bothTiers site) clock (onTiers (Router.writeRestore request)) ticks bus).result =
    some (createOk request.requestId)

end Statements

/-- The payload begins with all three fields. -/
def ContainsFields (payload : Bytes) : Prop :=
  ∃ entry rest, Cli.RecordFits entry ∧ payload = restorePayload entry ++ rest

namespace Router

private theorem restoreFields_iff {payload key value : Bytes} {ttlMs : Option Nat} :
    restoreFields payload = some (key, value, ttlMs) ↔
      key.length < fieldLimit ∧ value.length < fieldLimit ∧
        ∃ rest, payload = lengthPrefixed key ++ (lengthPrefixed value ++ rest) ∧
          ttlMs = readMillis rest 0 := by
  unfold restoreFields
  simp only [Option.bind_eq_bind, Option.bind_eq_some_iff, Option.some.injEq, Prod.mk.injEq]
  have shifted : ∀ front rest : Bytes, readMillis (front ++ rest) front.length =
      readMillis rest 0 := by
    intro front rest
    unfold readMillis
    rw [List.drop_left, List.drop_zero, List.length_append, Nat.zero_add]
    by_cases short : rest.length < 8
    · rw [if_pos short, if_pos (by omega)]
    · rw [if_neg short, if_neg (by omega)]
  constructor
  · intro found
    rcases found with ⟨⟨first, offset⟩, readKey, ⟨second, behind⟩, readValue, rfl, rfl, readTime⟩
    rcases (@readFieldWithOffset_iff [] payload first offset).mp readKey with
      ⟨small, atEnd, tail, same⟩
    subst same
    subst atEnd
    rcases readFieldWithOffset_iff.mp readValue with ⟨fits, atEnd, tail, same⟩
    subst same
    subst atEnd
    simp only at readTime
    rw [← List.append_assoc, shifted] at readTime
    exact ⟨small, fits, tail, rfl, readTime.symm⟩
  · intro parts
    rcases parts with ⟨small, fits, rest, same, readTime⟩
    subst same
    refine ⟨(key, (lengthPrefixed key).length), ?_,
      (value, (lengthPrefixed key ++ lengthPrefixed value).length), ?_, rfl, rfl, ?_⟩
    · exact (@readFieldWithOffset_iff [] _ _ _).mpr ⟨small, rfl, _, rfl⟩
    · exact readFieldWithOffset_iff.mpr ⟨fits, rfl, _, rfl⟩
    · rw [← List.append_assoc, shifted, readTime]

end Router

section Cut

variable {entry : Dumped} (fits : Cli.RecordFits entry)

include fits

private theorem restoreFields_whole (rest : Bytes) :
    Router.restoreFields (restorePayload entry ++ rest) =
      some (entry.1.1, entry.1.2, some entry.2) := by
  rw [Router.restoreFields_iff]
  refine ⟨fits.key, fits.value, toBeBytes 8 entry.2 ++ rest, ?_, ?_⟩
  · unfold restorePayload
    rw [List.append_assoc, List.append_assoc]
  · exact (readMillis_written [] rest fits.millis).symm

private theorem restoreFields_short {count : Nat}
    (short : count < (lengthPrefixed entry.1.1 ++ lengthPrefixed entry.1.2).length) :
    Router.restoreFields ((restorePayload entry).take count) = none := by
  cases found : Router.restoreFields ((restorePayload entry).take count) with
  | none => rfl
  | some fields =>
      rcases fields with ⟨key, value, ttlMs⟩
      rcases Router.restoreFields_iff.mp found with ⟨keyFits, valueFits, rest, cut, -⟩
      have whole : restorePayload entry = lengthPrefixed key ++
          (lengthPrefixed value ++ (rest ++ (restorePayload entry).drop count)) := by
        have parts := (List.take_append_drop count (restorePayload entry)).symm
        rw [cut, List.append_assoc, List.append_assoc] at parts
        exact parts
      have read := Router.restoreFields_iff.mpr ⟨keyFits, valueFits, _, whole, rfl⟩
      have same := restoreFields_whole fits []
      rw [List.append_nil, read] at same
      have sameKey : key = entry.1.1 := congrArg Prod.fst (Option.some.inj same)
      have sameValue : value = entry.1.2 := congrArg (fun fields => fields.2.1) (Option.some.inj same)
      subst sameKey
      subst sameValue
      have long := congrArg List.length cut
      rw [List.length_take, List.length_append, List.length_append] at long
      rw [List.length_append] at short
      omega

private theorem restoreFields_partial {count : Nat}
    (behind : (lengthPrefixed entry.1.1 ++ lengthPrefixed entry.1.2).length ≤ count)
    (short : count < (restorePayload entry).length) :
    Router.restoreFields ((restorePayload entry).take count) =
      some (entry.1.1, entry.1.2, none) := by
  rw [Router.restoreFields_iff]
  have size : (restorePayload entry).length =
      (lengthPrefixed entry.1.1 ++ lengthPrefixed entry.1.2).length + 8 := by
    unfold restorePayload
    rw [← List.append_assoc, List.length_append, length_toBeBytes]
  refine ⟨fits.key, fits.value, (toBeBytes 8 entry.2).take
    (count - (lengthPrefixed entry.1.1 ++ lengthPrefixed entry.1.2).length), ?_, ?_⟩
  · unfold restorePayload
    rw [← List.append_assoc, ← List.append_assoc, List.take_append, List.take_of_length_le behind]
  · unfold readMillis
    rw [if_pos]
    rw [List.length_take, length_toBeBytes]
    omega

end Cut

section Worker

variable {site : Site} {clock : Nat → Instant} {ticks : Nat} {bus : PermutiveBus}
  {parser : SqlParser} {metrics : Metrics} {requestId : Nat} {payload : Bytes}

private theorem decode_restore (whole : 5 + payload.length ≤ maxDatagram) :
    decodeLocalInto ((toBeBytes 4 requestId ++ 0x1A :: payload).take maxDatagram) freshRequest =
      (true, restoreRequest (requestId % 256 ^ 4) payload) := by
  have head : (toBeBytes 4 requestId ++ 0x1A :: payload).length ≤ maxDatagram := by
    rw [List.length_append, length_toBeBytes, List.length_cons]
    omega
  rw [List.take_of_length_le head]
  unfold decodeLocalInto
  rw [List.drop_left' (length_toBeBytes 4 requestId), List.take_left' (length_toBeBytes 4 requestId),
    fromBeBytes_toBeBytes]
  rfl

private theorem answer_restore (whole : 5 + payload.length ≤ maxDatagram) :
    answerDatagram parser metrics (toBeBytes 4 requestId ++ 0x1A :: payload) =
      (Router.writeRestore (restoreRequest (requestId % 256 ^ 4) payload)).bind
        (fun response => .done (some [writeLocalToBuffer response])) := by
  unfold answerDatagram
  rw [decode_restore whole]
  simp only
  change ((Router.writeRestore _).bind _).bind _ = _
  rw [Program.bind_assoc]
  rfl

private theorem writeLocalToBuffer_createOk (requestId : Nat) :
    writeLocalToBuffer (createOk (requestId % 256 ^ 4)) = writeLocalToBuffer (createOk requestId) := by
  unfold writeLocalToBuffer createOk
  simp only
  rw [toBeBytes_mod]

private theorem run_answer_restore (whole : 5 + payload.length ≤ maxDatagram) :
    run (bothTiers site) clock (onTiers (answerDatagram parser metrics
        (toBeBytes 4 requestId ++ 0x1A :: payload))) ticks bus =
      run (bothTiers site) clock ((onTiers (Router.writeRestore
        (restoreRequest (requestId % 256 ^ 4) payload))).bind
          (fun response => .done (some [writeLocalToBuffer response]))) ticks bus := by
  rw [answer_restore whole]
  exact congrArg (fun program => run (bothTiers site) clock program ticks bus)
    (Program.translate_bind _ _ _)

private theorem run_writeRestore_refused {request : Request}
    (missing : Router.restoreFields request.payload = none) :
    run (bothTiers site) clock (onTiers (Router.writeRestore request)) ticks bus =
      ⟨some (createError request.requestId errorMalformedOpcode []), ticks, bus⟩ := by
  unfold Router.writeRestore
  rw [missing]
  rfl

private theorem run_writeRestore_stuck (attached : bus.persistent.Attached) {request : Request}
    {key value : Bytes} {ttlMs : Option Nat}
    (found : Router.restoreFields request.payload = some (key, value, ttlMs))
    (refused : ¬ bus.persistent.Stores site key) :
    (run (bothTiers site) clock (onTiers (Router.writeRestore request)) ticks bus).result =
      none := by
  apply (writeRestore_ends (Kept.refl attached) request).panics
  intro stores
  exact refused (stores key value ttlMs found)

private theorem run_writeRestore_lasting (attached : bus.persistent.Attached) {request : Request}
    {key value : Bytes} (found : Router.restoreFields request.payload = some (key, value, none))
    (stores : bus.persistent.Stores site key) :
    ∃ later after, run (bothTiers site) clock (onTiers (Router.writeRestore request)) ticks bus =
        ⟨some (createOk request.requestId), later, after⟩ ∧
      (after.cell site key).row = some value := by
  rcases @run_store site clock ticks bus stores.1 attached key stores.2 value with
    ⟨after, wrote, cell⟩
  refine ⟨ticks + 2, after, ?_, congrArg Cell.row cell⟩
  unfold Router.writeRestore
  rw [found]
  change run (bothTiers site) clock ((PermutiveBus.call (.writeValue key value)).bind
    (fun _ => .done (createOk request.requestId))) ticks bus = _
  rw [run_bind, wrote]
  rfl

private theorem run_writeRestore_dated (attached : bus.persistent.Attached) {request : Request}
    {key value : Bytes} {ttlMs : Nat} (positive : 0 < ttlMs)
    (found : Router.restoreFields request.payload = some (key, value, some ttlMs))
    (stores : bus.persistent.Stores site key) :
    ∃ later after, run (bothTiers site) clock (onTiers (Router.writeRestore request)) ticks bus =
        ⟨some (createOk request.requestId), later, after⟩ ∧
      ∃ set, ticks ≤ set ∧ set ≤ later ∧ (after.cell site key).Matches (clock later)
        (some ⟨value, some (clock set + fromMillis ttlMs)⟩) := by
  rcases @run_store site clock ticks bus stores.1 attached key stores.2 value with
    ⟨written, wrote, cell⟩
  have stillAttached := @run_keeps_attached site clock ticks bus _
    (PermutiveBus.call (.writeValue key value)) attached
  rw [wrote] at stillAttached
  have works : written.persistent.Works := (congrArg Cell.poisoned cell).trans stores.1
  rcases @run_move site clock (ticks + 2) written works stillAttached key value
    (congrArg Cell.row cell) (fromMillis ttlMs) with ⟨after, moved, cellMoved⟩
  refine ⟨ticks + 2 + 4, after, ?_, ticks + 2 + 3, by omega, by omega, ?_⟩
  · unfold Router.writeRestore
    rw [found]
    cases ttlMs with
    | zero => cases positive
    | succ ttlMs =>
        change run (bothTiers site) clock ((PermutiveBus.call (.writeValue key value)).bind
          (fun _ => (PermutiveBus.call (.writeTtl key (fromMillis (ttlMs + 1)))).bind
            (fun _ => .done (createOk request.requestId)))) ticks bus = _
        rw [run_bind, wrote]
        simp only
        rw [run_bind, moved]
        rfl
  · rw [cellMoved]
    exact Cell.Matches.of_copy rfl

end Worker

section Truncated

variable {site : Site} {clock : Nat → Instant} {ticks : Nat} {bus : PermutiveBus}
  (parser : SqlParser) (metrics : Metrics) (requestId : Nat) {entry : Dumped}

private theorem length_restoreDatagram (entry : Dumped) :
    (restoreDatagram requestId entry).length = valueEnd entry + 8 := by
  unfold restoreDatagram valueEnd restorePayload
  simp only [List.length_append, List.length_cons, length_toBeBytes]
  omega

private theorem take_restoreDatagram {count : Nat} (header : 5 ≤ count) :
    (restoreDatagram requestId entry).take count =
      toBeBytes 4 requestId ++ 0x1A :: (restorePayload entry).take (count - 5) := by
  have size := length_toBeBytes 4 requestId
  unfold restoreDatagram
  rw [List.take_append, List.take_of_length_le (by omega), size]
  cases rest : count - 4 with
  | zero => omega
  | succ less =>
      have same : count - 5 = less := by omega
      rw [List.take_succ_cons, same]

private theorem answerDatagram_arrived (datagram : Bytes) :
    answerDatagram parser metrics (arrived datagram) = answerDatagram parser metrics datagram := by
  unfold answerDatagram arrived
  rw [List.take_take, Nat.min_self]

private theorem refuses_headless {datagram : Bytes} (short : datagram.length < 5) :
    RefusesDatagram site clock ticks bus parser metrics datagram := by
  refine ⟨0, ?_⟩
  have nothing : (datagram.take maxDatagram).drop 4 = [] := by
    apply List.drop_eq_nil_of_le
    rw [List.length_take]
    omega
  unfold answerDatagram decodeLocalInto
  rw [nothing]
  rfl

variable (attached : bus.persistent.Attached) (fits : Cli.RecordFits entry)

include attached fits

omit attached in
private theorem restoreFields_cut (requestId : Nat) {count : Nat} (late : valueEnd entry ≤ count) :
    ∃ ttlMs, Router.restoreFields ((restorePayload entry).take (count - 5)) =
      some (entry.1.1, entry.1.2, ttlMs) ∧
        (ttlMs = none ∧ count < valueEnd entry + 8 ∨
          ttlMs = some entry.2 ∧ valueEnd entry + 8 ≤ count) := by
  have size : (restorePayload entry).length + 5 = valueEnd entry + 8 := by
    have whole := length_restoreDatagram requestId entry
    unfold restoreDatagram at whole
    rw [List.length_append, List.length_cons, length_toBeBytes] at whole
    omega
  rcases Nat.lt_or_ge count (valueEnd entry + 8) with cut | whole
  · refine ⟨none, restoreFields_partial fits ?_ ?_, Or.inl ⟨rfl, cut⟩⟩
    · unfold valueEnd at late
      omega
    · omega
  · refine ⟨some entry.2, ?_, Or.inr ⟨rfl, whole⟩⟩
    rw [List.take_of_length_le (by omega)]
    have found := restoreFields_whole fits []
    rw [List.append_nil] at found
    exact found

private theorem restore_of_bytes (positive : 0 < entry.2) {count : Nat}
    (small : count ≤ maxDatagram)
    {datagram : Bytes} (isCut : datagram = (restoreDatagram requestId entry).take count) :
    (AppliesRestore site clock ticks bus parser metrics requestId entry datagram ∨
        RefusesDatagram site clock ticks bus parser metrics datagram) ↔
      count < valueEnd entry ∨
        (valueEnd entry + 8 ≤ count ∧ bus.persistent.Stores site entry.1.1) := by
  by_cases header : count < 5
  · have headless : datagram.length < 5 := by
      rw [isCut, List.length_take]
      omega
    refine iff_of_true (Or.inr (refuses_headless parser metrics headless)) (Or.inl ?_)
    unfold valueEnd
    omega
  have decoded := isCut.trans (take_restoreDatagram requestId (Nat.not_lt.mp header))
  have inside : 5 + ((restorePayload entry).take (count - 5)).length ≤ maxDatagram := by
    rw [List.length_take]
    omega
  have answered := @run_answer_restore site clock ticks bus parser metrics requestId _ inside
  rw [← decoded, run_bind] at answered
  rcases Nat.lt_or_ge count (valueEnd entry) with early | late
  · have missing := restoreFields_short fits (show count - 5 < _ by unfold valueEnd at early; omega)
    have refused := @run_writeRestore_refused site clock ticks bus
      (restoreRequest (requestId % 256 ^ 4) ((restorePayload entry).take (count - 5))) missing
    rw [refused] at answered
    exact iff_of_true (Or.inr ⟨_, answered⟩) (Or.inl early)
  have field := restoreFields_cut fits requestId late
  rcases field with ⟨ttlMs, found, cases⟩
  by_cases stores : bus.persistent.Stores site entry.1.1
  · rcases cases with ⟨rfl, cut⟩ | ⟨rfl, whole⟩
    · -- the entry is stored to last, and acknowledged
      rcases @run_writeRestore_lasting site clock ticks bus attached
        (restoreRequest (requestId % 256 ^ 4) ((restorePayload entry).take (count - 5)))
        _ _ found stores with ⟨later, after, ran, row⟩
      rw [ran] at answered
      apply iff_of_false
      · intro either
        rcases either with ⟨last, state, applied, set, -, -, matched⟩ | ⟨other, refused⟩
        · have same : after = state := congrArg Outcome.state (answered.symm.trans applied)
          rw [same] at row
          have lasting := matched.stored _ row
          cases lasting
        · have replies := congrArg Outcome.result (answered.symm.trans refused)
          have same : writeLocalToBuffer (createOk (requestId % 256 ^ 4)) =
              writeLocalToBuffer (createError other errorMalformedOpcode []) :=
            (List.cons.inj (Option.some.inj (Option.some.inj replies))).1
          have opcode := congrArg (fun bytes : Bytes => bytes.drop 4) same
          unfold writeLocalToBuffer at opcode
          rw [List.drop_left' (length_toBeBytes 4 _), List.drop_left' (length_toBeBytes 4 _)]
            at opcode
          have equal : okOpcode = errorMalformedOpcode := (List.cons.inj opcode).1
          exact absurd equal (by decide)
      · omega
    · rcases @run_writeRestore_dated site clock ticks bus attached
        (restoreRequest (requestId % 256 ^ 4) ((restorePayload entry).take (count - 5)))
        _ _ _ positive found stores with ⟨later, after, ran, dated⟩
      rw [ran] at answered
      refine iff_of_true (Or.inl ⟨later, after, ?_, dated⟩) (Or.inr ⟨whole, stores⟩)
      rw [answered]
      simp only [run, restoreRequest, writeLocalToBuffer_createOk]
  · have stuck := @run_writeRestore_stuck site clock ticks bus attached
      (restoreRequest (requestId % 256 ^ 4) ((restorePayload entry).take (count - 5)))
      _ _ _ found stores
    rcases ran : run (bothTiers site) clock (onTiers (Router.writeRestore
      (restoreRequest (requestId % 256 ^ 4) ((restorePayload entry).take (count - 5))))) ticks bus
      with ⟨result, later, after⟩
    rw [ran] at answered stuck
    cases stuck
    apply iff_of_false
    · intro either
      rcases either with ⟨last, state, applied, -⟩ | ⟨other, refused⟩
      · cases answered.symm.trans applied
      · cases answered.symm.trans refused
    · intro either
      rcases either with early | ⟨-, refuted⟩
      · omega
      · exact stores refuted

omit attached fits in
private theorem containsFields_iff {payload key value rest : Bytes}
    (keyFits : key.length < fieldLimit) (valueFits : value.length < fieldLimit)
    (split : payload = lengthPrefixed key ++ (lengthPrefixed value ++ rest)) :
    ContainsFields payload ↔ 8 ≤ rest.length := by
  constructor
  · intro found
    rcases found with ⟨entry, behind, fits, same⟩
    have whole := restoreFields_whole fits behind
    rw [← same] at whole
    rcases Router.restoreFields_iff.mp whole with ⟨-, -, tail, cut, millis⟩
    have unique := Router.restoreFields_iff.mpr ⟨keyFits, valueFits, rest, split, rfl⟩
    rw [whole, Option.some.injEq, Prod.mk.injEq, Prod.mk.injEq] at unique
    rcases readMillis_eq_some.mp unique.2.2.symm with ⟨long, -⟩
    omega
  · intro long
    have millis : fromBeBytes (rest.take 8) < 2 ^ 64 := by
      have bounded := fromBeBytes_lt (rest.take 8)
      rw [List.length_take, Nat.min_eq_left long] at bounded
      exact bounded
    have bytes : toBeBytes 8 (fromBeBytes (rest.take 8)) = rest.take 8 := by
      have back := toBeBytes_fromBeBytes (rest.take 8)
      rw [List.length_take, Nat.min_eq_left long] at back
      exact back
    refine ⟨((key, value), fromBeBytes (rest.take 8)), rest.drop 8,
      ⟨keyFits, valueFits, millis⟩, ?_⟩
    unfold restorePayload
    rw [split, bytes, List.append_assoc, List.append_assoc, List.take_append_drop]

omit fits in
private theorem acceptsRestore_iff {request : Request} {key value rest : Bytes}
    (keyFits : key.length < fieldLimit) (valueFits : value.length < fieldLimit)
    (split : request.payload = lengthPrefixed key ++ (lengthPrefixed value ++ rest)) :
    AcceptsRestore site clock ticks bus request ↔ bus.persistent.Stores site key := by
  have found := Router.restoreFields_iff.mpr ⟨keyFits, valueFits, rest, split, rfl⟩
  constructor
  · intro accepted
    by_contra refused
    cases (run_writeRestore_stuck attached found refused).symm.trans accepted
  · intro stores
    unfold AcceptsRestore
    cases millis : readMillis rest 0 with
    | none =>
        rw [millis] at found
        rcases @run_writeRestore_lasting site clock ticks bus attached request _ _ found stores
          with ⟨later, after, ran, -⟩
        rw [ran]
    | some ttlMs =>
        rw [millis] at found
        cases ttlMs with
        | zero =>
            have same : Router.writeRestore request =
                (DataBus.writeValue key value).bind
                  (fun _ => .done (createOk request.requestId)) := by
              unfold Router.writeRestore
              rw [found]
              rfl
            rcases @run_store site clock ticks bus stores.1 attached key stores.2 value with
              ⟨after, wrote, -⟩
            rw [same]
            change (run (bothTiers site) clock ((PermutiveBus.call (.writeValue key value)).bind
              (fun _ => .done (createOk request.requestId))) ticks bus).result = _
            rw [run_bind, wrote]
            rfl
        | succ ttlMs =>
            rcases @run_writeRestore_dated site clock ticks bus attached request _ _ _
              (Nat.succ_pos ttlMs) found stores with ⟨later, after, ran, -⟩
            rw [ran]

omit fits in
private theorem accepts_of_payload (request : Request) :
    (AcceptsRestore site clock ticks bus request ↔ ContainsFields request.payload) ↔
      ∀ key value rest : Bytes, key.length < fieldLimit → value.length < fieldLimit →
        request.payload = lengthPrefixed key ++ (lengthPrefixed value ++ rest) →
          (8 ≤ rest.length ↔ bus.persistent.Stores site key) := by
  constructor
  · intro exactly key value rest keyFits valueFits payload
    rw [← containsFields_iff keyFits valueFits payload, ← exactly,
      acceptsRestore_iff attached keyFits valueFits payload]
  · intro condition
    cases found : Router.restoreFields request.payload with
    | none =>
        apply iff_of_false
        · intro accepted
          unfold AcceptsRestore at accepted
          rw [run_writeRestore_refused found] at accepted
          have opcode : errorMalformedOpcode = okOpcode :=
            congrArg Response.opcode (Option.some.inj accepted)
          exact absurd opcode (by decide)
        · intro present
          rcases present with ⟨entry, behind, fits, same⟩
          rw [same, restoreFields_whole fits behind] at found
          cases found
    | some fields =>
        rcases fields with ⟨key, value, ttlMs⟩
        rcases Router.restoreFields_iff.mp found with ⟨keyFits, valueFits, rest, payload, -⟩
        rw [acceptsRestore_iff attached keyFits valueFits payload,
          containsFields_iff keyFits valueFits payload]
        exact (condition key value rest keyFits valueFits payload).symm

end Truncated

/-- A truncated request is applied completely or refused exactly if it is cut before the end
of the value, or not at all and its key can be stored; a payload is accepted exactly if it
has all fields, unless only the lifetime is missing or the key cannot be stored. -/
theorem truncated_restore_iff {site : Site} {clock : Nat → Instant} {disk : Disk} {ticks : Nat}
    {bus : PermutiveBus} (reached : Reachable site clock disk ticks bus) (parser : SqlParser)
    (metrics : Metrics) :
    (∀ (requestId : Nat) (entry : Dumped) (count : Nat), Cli.RecordFits entry → 0 < entry.2 →
      ((AppliesRestore site clock ticks bus parser metrics requestId entry
            ((restoreDatagram requestId entry).take count) ∨
          RefusesDatagram site clock ticks bus parser metrics
            ((restoreDatagram requestId entry).take count)) ↔
        min count maxDatagram < valueEnd entry ∨
          (valueEnd entry + 8 ≤ min count maxDatagram ∧
            bus.persistent.Stores site entry.1.1))) ∧
    ∀ request : Request,
      (AcceptsRestore site clock ticks bus request ↔ ContainsFields request.payload) ↔
        ∀ key value rest : Bytes, key.length < fieldLimit → value.length < fieldLimit →
          request.payload = lengthPrefixed key ++ (lengthPrefixed value ++ rest) →
            (8 ≤ rest.length ↔ bus.persistent.Stores site key) := by
  have attached := reached.attached
  refine ⟨?_, fun request => accepts_of_payload attached request⟩
  intro requestId entry count fits positive
  have cut : arrived ((restoreDatagram requestId entry).take count) =
      (restoreDatagram requestId entry).take (min count maxDatagram) := by
    unfold arrived
    rw [List.take_take, Nat.min_comm]
  have bytes := @restore_of_bytes site clock ticks bus parser metrics requestId entry attached
    fits positive (min count maxDatagram) (Nat.min_le_right ..) _ cut
  unfold AppliesRestore RefusesDatagram at bytes ⊢
  rw [answerDatagram_arrived] at bytes
  exact bytes

/-- One byte under the key `k`, for five milliseconds. -/
def datedEntry : Dumped := (([0x6B], [0x61]), 5)

theorem whole_request_is_applied :
    AppliesRestore openSite stillClock 0 emptyBus silentParser freshMetrics 7 datedEntry
        ((restoreDatagram 7 datedEntry).take 23) ∨
      RefusesDatagram openSite stillClock 0 emptyBus silentParser freshMetrics
        ((restoreDatagram 7 datedEntry).take 23) :=
  ((truncated_restore_iff emptyBus_reachable silentParser freshMetrics).1 7 datedEntry 23
    ⟨by decide, by decide, by decide⟩ (by decide)).mpr (Or.inr ⟨by decide, rfl, rfl⟩)

/-- A request that lost its last byte. -/
theorem shortened_request_stores_for_good :
    ¬ (AppliesRestore openSite stillClock 0 emptyBus silentParser freshMetrics 7 datedEntry
        ((restoreDatagram 7 datedEntry).take 22) ∨
      RefusesDatagram openSite stillClock 0 emptyBus silentParser freshMetrics
        ((restoreDatagram 7 datedEntry).take 22)) := by
  rw [@restore_of_bytes openSite stillClock 0 emptyBus silentParser freshMetrics 7 datedEntry
    emptyBus_reachable.attached ⟨by decide, by decide, by decide⟩ (by decide) 22 (by decide) _ rfl]
  intro either
  rcases either with early | ⟨whole, -⟩
  · exact absurd early (by decide)
  · exact absurd whole (by decide)

end TricPlus
