import TricPlus.ReplyProtocol

/-!
When a datagram can take the server down.

A value stored without a lifetime goes to a database named by the key.  If that
database is not open and cannot be opened, the write panics with the mutex held, and
from then on no key is read from the persistent tier.  Nothing else in the handling of
a datagram panics.
-/

namespace TricPlus

open Std (ExtTreeMap)
open AtomicProgram
open BigEndian
open ExpiringMap (Entry remains)

section

variable (site : Site) (clock : Nat → Instant) (parser : SqlParser)

def DatagramAnswerable (now : Instant) (bus : PermutiveBus) (datagram : Bytes) : Prop :=
  match decodeLocalInto (datagram.take maxDatagram) freshRequest with
  | (false, _) => True
  | (true, request) => Answerable parser site now bus request

def IsReadable (ticks : Nat) (bus : PermutiveBus) (key : Bytes) : Prop :=
  (run (bothTiers site) clock (PermutiveBus.readValue key) ticks bus).result.isSome = true

def IsWritable (ticks : Nat) (bus : PermutiveBus) (key : Bytes) : Prop :=
  ∀ value, (run (bothTiers site) clock (PermutiveBus.writeValue key value) ticks bus).result =
    some ()

/-- The datagram got its responses.  Every key is readable then, and every key whose
database was open or could be opened is writable. -/
structure Served (ticks : Nat) (bus : PermutiveBus)
    (outcome : Outcome PermutiveBus (Option (List Bytes))) : Prop where
  answered : ∃ responses, outcome.result = some (some responses)
  readable : ∀ key, IsReadable site clock outcome.ticks outcome.state key
  writable : ∀ key, bus.persistent.usable site key = true →
    IsWritable site clock outcome.ticks outcome.state key

def answer (metrics : Metrics) (datagram : Bytes) (ticks : Nat) (bus : PermutiveBus) :
    Outcome PermutiveBus (Option (List Bytes)) :=
  run (bothTiers site) clock (onTiers (answerDatagram parser metrics datagram)) ticks bus

/-- Every datagram is served, one after the other. -/
def AllServed : List (Metrics × Bytes) → Nat → PermutiveBus → Prop
  | [], _, _ => True
  | (metrics, datagram) :: rest, ticks, bus =>
      let outcome := answer site clock parser metrics datagram ticks bus
      Served site clock ticks bus outcome ∧ AllServed rest outcome.ticks outcome.state

/-- Each datagram finds a tier that works and makes only calls that can be answered. -/
def AllAnswerable : List (Metrics × Bytes) → Nat → PermutiveBus → Prop
  | [], _, _ => True
  | (metrics, datagram) :: rest, ticks, bus =>
      let outcome := answer site clock parser metrics datagram ticks bus
      (bus.persistent.Works ∧
        DatagramAnswerable site parser (clock ticks) bus datagram) ∧
        AllAnswerable rest outcome.ticks outcome.state

end

section Step

variable {site : Site} {clock : Nat → Instant} {parser : SqlParser} {ticks : Nat}
  {start : SqliteBus} {bus : PermutiveBus}

private theorem exists_absent (contents : Reference) : ∃ key : Bytes, contents[key]? = none := by
  rcases Infinite.exists_notMem_finset contents.keys.toFinset with ⟨key, absent⟩
  refine ⟨key, ?_⟩
  rw [List.mem_toFinset, ExtTreeMap.mem_keys] at absent
  exact ExtTreeMap.getElem?_eq_none absent

private theorem poisoned_hides_a_key (poisoned : bus.persistent.poisoned = true)
    (attached : bus.persistent.Attached) : ∃ key, ¬ IsReadable site clock ticks bus key := by
  rcases exists_absent bus.transient.contents with ⟨key, absent⟩
  refine ⟨key, fun readable => ?_⟩
  have refused : ¬ bus.Answers site (clock ticks) (.readValue key) := by
    intro answers
    rcases answers with works | copied
    · cases poisoned.symm.trans works
    · rw [absent] at copied
      cases copied
  have stuck := (Kept.refl attached).call_panics clock ticks refused
  have stuck : (run (bothTiers site) clock (PermutiveBus.readValue key) ticks bus).result =
    none := stuck
  unfold IsReadable at readable
  rw [stuck] at readable
  cases readable

theorem Kept.readable (kept : Kept site start bus.persistent) (works : start.Works)
    (key : Bytes) : IsReadable site clock ticks bus key := by
  have answers : bus.Answers site (clock ticks) (.readValue key) := Or.inl (kept.works.mpr works)
  rcases kept.call_returns clock ticks answers with ⟨reply, later, after, ran, -⟩
  have ran : run (bothTiers site) clock (PermutiveBus.readValue key) ticks bus =
    ⟨some reply, later, after⟩ := ran
  unfold IsReadable
  rw [ran]
  rfl

private theorem Kept.writable (kept : Kept site start bus.persistent) (works : start.Works)
    {key : Bytes} (usable : start.usable site key = true) :
    IsWritable site clock ticks bus key := by
  intro value
  have answers : bus.Answers site (clock ticks) (.writeValue key value) :=
    (kept.stores key).mpr ⟨works, usable⟩
  rcases kept.call_returns clock ticks answers with ⟨reply, later, after, ran, -⟩
  have ran : run (bothTiers site) clock (PermutiveBus.writeValue key value) ticks bus =
    ⟨some reply, later, after⟩ := ran
  rw [ran]

private theorem answerDatagram_ends (kept : Kept site start bus.persistent) (metrics : Metrics)
    {datagram : Bytes} (goesOn : datagram[4]? ≠ some 0x15) :
    Ends site clock start (answerDatagram parser metrics datagram) ticks bus
      (DatagramAnswerable site parser (clock ticks) bus datagram)
      (fun result => ∃ responses, result = some responses) := by
  have opcode : ∀ request, decodeLocalInto (datagram.take maxDatagram) freshRequest =
      (true, request) → request.opcode ≠ 0x15 := by
    intro request decoded shutdown
    unfold decodeLocalInto at decoded
    split at decoded
    · cases decoded
    next first payload raw =>
      split at decoded
      · cases decoded
      · cases decoded
        apply goesOn
        have inside : (datagram.take maxDatagram)[4]? = datagram[4]? :=
          List.getElem?_take_of_lt (by decide)
        have head : ((datagram.take maxDatagram).drop 4)[0]? = some first := by rw [raw]; rfl
        rw [List.getElem?_drop, Nat.add_zero, inside] at head
        rw [head]
        exact congrArg some shutdown
  unfold answerDatagram DatagramAnswerable
  rcases decoded : decodeLocalInto (datagram.take maxDatagram) freshRequest with
    ⟨accepted, request⟩
  cases accepted with
  | false => exact Ends.done kept _ ⟨_, rfl⟩
  | true =>
      have goesOn : ¬ (request.opcode = 0x15 ∧ request.isLocal = true) :=
        fun shutdown => opcode request decoded shutdown.1
      apply (dispatch_ends kept parser request metrics goesOn).andThen
      intro dispatched later last keptAfter replied
      rcases replied with ⟨responses, same, -⟩
      subst same
      exact Ends.done keptAfter _ ⟨_, rfl⟩

private theorem served_iff (attached : bus.persistent.Attached) (metrics : Metrics)
    {datagram : Bytes}
    (goesOn : datagram[4]? ≠ some 0x15) :
    Served site clock ticks bus (answer site clock parser metrics datagram ticks bus) ↔
      bus.persistent.Works ∧ DatagramAnswerable site parser (clock ticks) bus datagram := by
  have ends := @answerDatagram_ends site clock parser ticks bus.persistent bus (.refl attached)
    metrics datagram goesOn
  constructor
  · intro served
    constructor
    · by_contra broken
      have poisoned : bus.persistent.poisoned = true := (Bool.not_eq_false _).mp broken
      have still := @run_stays_poisoned site clock ticks bus _
        (onTiers (answerDatagram parser metrics datagram)) poisoned
      have linked := @run_keeps_attached site clock ticks bus _
        (onTiers (answerDatagram parser metrics datagram)) attached
      rcases poisoned_hides_a_key still linked with ⟨key, hidden⟩
      exact hidden (served.readable key)
    · by_contra refused
      rcases served.answered with ⟨responses, returned⟩
      cases (ends.panics refused).symm.trans returned
  · intro both
    rcases ends.returns both.2 with ⟨result, later, after, ran, kept, responses, same⟩
    subst same
    have ran : answer site clock parser metrics datagram ticks bus =
      ⟨some (some responses), later, after⟩ := ran
    rw [ran]
    exact ⟨⟨responses, rfl⟩, kept.readable both.1, fun key => kept.writable both.1⟩

end Step

/-- In every run of datagrams none of which shuts the server down, all are served exactly
when each finds a working tier and makes only calls that can be answered. -/
theorem datagrams_served_iff (site : Site) (clock : Nat → Instant) (disk : Disk) (ticks : Nat)
    (bus : PermutiveBus) (reached : Reachable site clock disk ticks bus) (parser : SqlParser)
    (datagrams : List (Metrics × Bytes))
    (goOn : ∀ received ∈ datagrams, received.2[4]? ≠ some 0x15) :
    AllServed site clock parser datagrams ticks bus ↔
      AllAnswerable site clock parser datagrams ticks bus := by
  suffices run : ∀ (ticks : Nat) (bus : PermutiveBus), bus.persistent.Attached →
      (AllServed site clock parser datagrams ticks bus ↔
        AllAnswerable site clock parser datagrams ticks bus) from
    run ticks bus reached.attached
  induction datagrams with
  | nil => exact fun _ _ _ => Iff.rfl
  | cons received rest ih =>
      intro ticks bus attached
      rcases received with ⟨metrics, datagram⟩
      have step := @served_iff site clock parser ticks bus attached metrics datagram
        (goOn _ (List.mem_cons_self ..))
      have next := ih (fun other member => goOn other (List.mem_cons_of_mem _ member))
        (answer site clock parser metrics datagram ticks bus).ticks
        (answer site clock parser metrics datagram ticks bus).state
        (run_keeps_attached _ attached)
      exact and_congr step next

def strayDatagrams : List (Metrics × Bytes) :=
  [(freshMetrics, toBeBytes 4 6 ++ [0x13]),
    (freshMetrics, toBeBytes 4 7 ++ 0x02 :: strayWrite.payload)]

theorem datagrams_of_the_empty_bus :
    AllServed openSite stillClock silentParser strayDatagrams 0 emptyBus ↔
      AllAnswerable openSite stillClock silentParser strayDatagrams 0 emptyBus :=
  datagrams_served_iff openSite stillClock ∅ 0 emptyBus emptyBus_reachable silentParser
    strayDatagrams (by decide +kernel)

theorem stray_datagram_is_not_served :
    ∃ ticks bus, Reachable sampleSite stillClock ∅ ticks bus ∧
      ¬ AllServed sampleSite stillClock silentParser strayDatagrams ticks bus := by
  refine ⟨_, _, reachable_afterCalls sampleSite stillClock ∅ [], ?_⟩
  intro served
  have pinged := served.2.1.answered
  have panics : (answer sampleSite stillClock silentParser freshMetrics
      (toBeBytes 4 7 ++ 0x02 :: strayWrite.payload)
      (afterCalls sampleSite stillClock ∅ []).1
      (afterCalls sampleSite stillClock ∅ []).2).result.isNone = true := by decide +kernel
  rcases pinged with ⟨responses, returned⟩
  -- the ping leaves the bus as it was
  have returned : (answer sampleSite stillClock silentParser freshMetrics
      (toBeBytes 4 7 ++ 0x02 :: strayWrite.payload)
      (afterCalls sampleSite stillClock ∅ []).1
      (afterCalls sampleSite stillClock ∅ []).2).result = some (some responses) := returned
  rw [returned] at panics
  cases panics

end TricPlus
