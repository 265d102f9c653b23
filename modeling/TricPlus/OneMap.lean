import TricPlus.Lib.TimedRuns
import TricPlus.RequestCalls
import TricPlus.ServerSafety
import TricPlus.Sharding

/-!
The server against one map.

A stream of datagrams is answered as if there were one map from keys to values and
lifetimes instead of the two tiers and their files: each call that a datagram makes takes
effect on the map at one moment of its run.  What a datagram may ask is everything but
remaining lifetimes, since a cached copy has one that the map does not know of.
-/

namespace TricPlus

open Std (ExtTreeMap)
open AtomicProgram
open BigEndian

def Reference.object : Object dataBus Instant Reference where
  step := fun request now contents =>
    (some (Reference.step request now contents).1, (Reference.step request now contents).2)

/-- A call that one map answers alike: its reply is compared, and what it stores without a
lifetime is stored under one of the keys. -/
structure AsksOneMap (keys : Set Bytes) (request : DataBusCall) : Prop where
  compared : Compared request
  inside : ∀ key value, request = .writeValue key value → key ∈ keys

/-- A bus that stands for the map, and can store values without a lifetime for `keys`. -/
structure StandsFor (site : Site) (clock : Nat → Instant) (keys : Set Bytes) (ticks : Nat)
    (bus : PermutiveBus) (contents : Reference) : Prop where
  tracked : Tracked site clock contents ticks bus
  layout : bus.persistent.Layout
  fresh : bus.persistent.ClosedAreFresh site keys

/-- What the persistent tier is given to store is stored under one of the keys. -/
def StoresInside (keys : Set Bytes) (call : TierCall) : Prop :=
  call.tier = .persistent → ∀ key, call.request.written? = some key → key ∈ keys

namespace StandsFor

variable {site : Site} {clock : Nat → Instant} {keys : Set Bytes} {ticks : Nat}
  {bus : PermutiveBus} {contents : Reference} {request : DataBusCall}

theorem call_stores_inside (asks : AsksOneMap keys request) :
    (PermutiveBus.call request).Uses (StoresInside keys) := by
  by_cases isWrite : ∃ key value, request = .writeValue key value
  · rcases isWrite with ⟨key, value, rfl⟩
    have member := asks.inside key value rfl
    refine ⟨fun _ about written => ?_, fun _ => ⟨fun impossible => ?_, fun _ => trivial⟩⟩
    · cases written
      exact member
    · cases impossible
  · apply (call_uses_storesNothing (fun key value same => isWrite ⟨key, value, same⟩)).mono
    intro call storesNothing persistent key written
    rw [storesNothing persistent] at written
    cases written

private theorem fresh_after (stands : StandsFor site clock keys ticks bus contents)
    (sharded : SqliteBus.Sharded site keys) (asks : AsksOneMap keys request) :
    SqliteBus.ClosedAreFresh site keys
      (run (bothTiers site) clock (PermutiveBus.call request) ticks bus).state.persistent := by
  apply run_uses_invariant (bothTiers site) clock
    (fun _ bus => bus.persistent.ClosedAreFresh site keys) _ (call_stores_inside asks)
    stands.fresh
  intro call ticks bus inside fresh
  rcases call with ⟨tier, request⟩
  cases tier with
  | transient => exact fresh
  | persistent => exact SqliteBus.step_fresh sharded fresh (inside rfl)

theorem ownFile (stands : StandsFor site clock keys ticks bus contents)
    (sharded : SqliteBus.Sharded site keys) (asks : AsksOneMap keys request) :
    writesOwnFile site bus request = true := by
  cases request with
  | writeValue key value => exact sharded.ownFile stands.fresh (asks.inside key value rfl)
  | readValue key => rfl
  | deleteValue key => rfl
  | deleteValueIfMatch key expected => rfl
  | writeTtl key duration => rfl
  | writeValueWithTtl key value duration => rfl
  | readTtlRemaining key => rfl
  | findByPrefix stem => rfl

private theorem le_effectTick (request : DataBusCall) {later : Nat} (goesOn : ticks < later) :
    ticks ≤ effectTick request ticks later := by
  cases request <;> first | exact Nat.le_refl ticks | exact Nat.le_sub_one_of_lt goesOn

end StandsFor

theorem bothTiers_implements {site : Site} {clock : Nat → Instant} {keys : Set Bytes}
    (monotone : Monotone clock) (sharded : SqliteBus.Sharded site keys) :
    Implements (bothTiers site) clock Reference.object PermutiveBus.call (AsksOneMap keys)
      (StandsFor site clock keys) := by
  intro request ticks bus contents asks stands
  have own := stands.ownFile sharded asks
  have usable : ∀ key value, request = .writeValue key value →
      bus.persistent.usable site key = true := by
    intro key value same
    subst same
    exact SqliteBus.ownFile_usable own
  have layoutAfter := run_layout clock ticks own stands.layout
  have freshAfter := stands.fresh_after sharded asks
  rcases stands.tracked.call monotone usable with
    ⟨reply, later, after, ran, goesOn, same, trackedAfter⟩
  rw [ran] at layoutAfter freshAfter
  have replied : reply = (Reference.step request
      (clock (effectTick request ticks later)) contents).1 := by
    by_cases keyed : request.key? = none
    · rcases scan_of_key? keyed with ⟨stem, rfl⟩
      have scanned := run_findByPrefix site clock ticks stands.tracked.sound stem
      have returned : some reply = some _ :=
        (congrArg Outcome.result ran).symm.trans (congrArg Outcome.result scanned)
      rw [Option.some_inj.mp returned]
      exact scan_eq_reference stands.tracked stands.layout stem
    · exact same asks.compared keyed
  refine ⟨reply, later, after, effectTick request ticks later, _, ran,
    StandsFor.le_effectTick request goesOn,
    Tracked.effectTick_le request (Nat.le_of_lt goesOn), ?_,
    ⟨trackedAfter, layoutAfter, freshAfter⟩⟩
  rw [replied]
  rfl

/-- What a program over a new bus comes to: the result it comes to on one map, each of its
calls made at a moment of its run. -/
def RunsAsOneMap {α : Type} (site : Site) (disk : Disk) (clock : Nat → Instant) (ticks : Nat)
    (keys : Set Bytes) (program : BusProgram α) (result : α) : Prop :=
  let created := createPermutiveBus site disk clock ticks
  ∃ later bus times contents,
    run (bothTiers site) clock (onTiers program) created.ticks created.state =
        ⟨some result, later, bus⟩ ∧
      Within (clock created.ticks) (clock later) times ∧
      Plays Reference.object program times created.state.contents (some result) contents ∧
      StandsFor site clock keys later bus contents

theorem created_stands {site : Site} {disk : Disk} (clock : Nat → Instant) (ticks : Nat)
    {keys : Set Bytes} (filed : WellFiled site disk)
    (fresh : (createSqliteBus site disk).ClosedAreFresh site keys) :
    StandsFor site clock keys (createPermutiveBus site disk clock ticks).ticks
      (createPermutiveBus site disk clock ticks).state
      (createPermutiveBus site disk clock ticks).state.contents := by
  have persistent := (createPermutiveBus_state site disk clock ticks).1
  refine ⟨tracked_created site disk clock ticks filed, ?_, ?_⟩
  · rw [persistent]
    exact filed.layout
  · rw [persistent]
    exact fresh

theorem created_runs_as_one_map {α : Type} {site : Site} {disk : Disk} {clock : Nat → Instant}
    (ticks : Nat) {keys : Set Bytes} {program : BusProgram α} (monotone : Monotone clock)
    (filed : WellFiled site disk) (sharded : SqliteBus.Sharded site keys)
    (fresh : (createSqliteBus site disk).ClosedAreFresh site keys)
    (makes : program.MakesOnly (AsksOneMap keys)) :
    ∃ result, RunsAsOneMap site disk clock ticks keys program result := by
  rcases (bothTiers_implements monotone sharded).run monotone makes
    (created_stands clock ticks filed fresh) with
    ⟨result, later, bus, times, contents, ran, within, plays, stands⟩
  exact ⟨result, later, bus, times, contents, ran, within, plays, stands⟩

/-- The responses to each datagram, one datagram after the other; none after a shutdown. -/
def serve (parser : SqlParser) : List (Metrics × Bytes) → BusProgram (List (List Bytes))
  | [] => return []
  | (metrics, datagram) :: rest => do
      match ← answerDatagram parser metrics datagram with
      | none => return []
      | some responses =>
          let others ← serve parser rest
          return responses :: others

theorem serve_makes {parser : SqlParser} {allowed : DataBusCall → Prop}
    {datagrams : List (Metrics × Bytes)}
    (calls : ∀ received ∈ datagrams, ∀ call, DatagramCalls parser received.2 call →
      allowed call) : (serve parser datagrams).MakesOnly allowed := by
  induction datagrams with
  | nil => trivial
  | cons received rest ih =>
      have answered := (answerDatagram_makes parser received.1 received.2).mono
        (calls received (List.mem_cons_self ..))
      have others := ih (fun other member => calls other (List.mem_cons_of_mem _ member))
      apply answered.bind
      intro result
      cases result with
      | none => trivial
      | some responses => exact others.bind (fun _ => trivial)

theorem statementCalls_compared {parser : SqlParser} {statement : Sql.Statement}
    {call : DataBusCall} (calls : Query.StatementCalls parser statement call) :
    Compared call := by
  cases statement with
  | query body =>
      rcases calls with ⟨_, _, _, _, _, ⟨_, _, rfl⟩ | ⟨_, _, rfl⟩⟩ <;> trivial
  | insert tableName source =>
      rcases calls with rfl | ⟨_, _, ⟨_, _, _, rfl⟩ | ⟨_, _, _, rfl⟩⟩ <;> trivial
  | update table assignments selection =>
      rcases calls with ⟨_, _, _, _, rfl | rfl⟩ <;> trivial
  | delete tables selection =>
      rcases calls with ⟨_, _, _, _, _, rfl⟩
      trivial
  | other => exact absurd calls id

private theorem requestCalls_compared {parser : SqlParser} {request : Request} {call : DataBusCall}
    (notInspect : request.opcode ≠ 0x18) (notDump : request.opcode ≠ 0x19)
    (calls : Router.RequestCalls parser request call) : Compared call := by
  unfold Router.RequestCalls at calls
  split at calls
  · rcases calls with ⟨_, _, rfl⟩
    trivial
  · rcases calls with ⟨_, _, _, _, ⟨_, rfl⟩ | ⟨_, rfl⟩⟩ <;> trivial
  · rcases calls with ⟨_, _, rfl⟩
    trivial
  · rcases calls with ⟨_, _, _, rfl⟩
    trivial
  · rcases calls with ⟨_, _, _, rfl⟩
    trivial
  · rcases calls with ⟨_, _, rfl⟩
    trivial
  · rcases calls with ⟨_, _, _, _, _, made⟩
    exact statementCalls_compared made
  · cases calls
    trivial
  · contradiction
  · contradiction
  · rcases calls with ⟨_, _, _, _, rfl | ⟨_, _, rfl⟩⟩ <;> trivial
  · exact absurd calls id

private theorem decoded_opcode {datagram : Bytes} {request : Request}
    (decoded : decodeLocalInto (datagram.take maxDatagram) freshRequest = (true, request)) :
    datagram[4]? = some request.opcode := by
  unfold decodeLocalInto at decoded
  split at decoded
  · cases decoded
  next first payload raw =>
    split at decoded
    · cases decoded
    · cases decoded
      have inside : (datagram.take maxDatagram)[4]? = datagram[4]? :=
        List.getElem?_take_of_lt (by decide)
      have head : ((datagram.take maxDatagram).drop 4)[0]? = some first := by rw [raw]; rfl
      rw [List.getElem?_drop, Nat.add_zero, inside] at head
      exact head

theorem datagram_asks {parser : SqlParser} {keys : Set Bytes} {datagram : Bytes}
    (asks : datagram[4]? ≠ some 0x18 ∧ datagram[4]? ≠ some 0x19)
    (stores : ∀ key value, DatagramCalls parser datagram (.writeValue key value) → key ∈ keys)
    {call : DataBusCall} (calls : DatagramCalls parser datagram call) : AsksOneMap keys call := by
  rcases asks with ⟨notInspect, notDump⟩
  have made := calls
  rcases calls with ⟨request, decoded, calls⟩
  have opcode := decoded_opcode decoded
  rw [opcode] at notInspect notDump
  constructor
  · exact requestCalls_compared (fun same => notInspect (congrArg some same))
      (fun same => notDump (congrArg some same)) calls
  · intro key value same
    subst same
    exact stores key value made

/-- A server over the files of a slot answers every stream of datagrams that asks for no
remaining lifetime as one map does, each call taking effect at a moment of its run. -/
theorem stream_is_served_by_one_map (site : Site) (disk : Disk) (clock : Nat → Instant)
    (ticks : Nat) (parser : SqlParser) (keys : Set Bytes) (datagrams : List (Metrics × Bytes))
    (monotone : Monotone clock) (filed : WellFiled site disk)
    (sharded : SqliteBus.Sharded site keys)
    (fresh : (createSqliteBus site disk).ClosedAreFresh site keys)
    (asks : ∀ received ∈ datagrams, received.2[4]? ≠ some 0x18 ∧ received.2[4]? ≠ some 0x19)
    (stores : ∀ received ∈ datagrams, ∀ key value,
      DatagramCalls parser received.2 (.writeValue key value) → key ∈ keys) :
    ∃ answers, RunsAsOneMap site disk clock ticks keys (serve parser datagrams) answers := by
  apply created_runs_as_one_map ticks monotone filed sharded fresh
  apply serve_makes
  intro received member call calls
  exact datagram_asks (asks received member) (stores received member) calls

def storedDatagrams : List (Metrics × Bytes) :=
  [(freshMetrics, toBeBytes 4 7 ++ 0x02 ::
      (lengthPrefixed (asBytes "a:b") ++ lengthPrefixed (asBytes "x") ++ toBeBytes 8 0)),
    (freshMetrics, toBeBytes 4 8 ++ 0x01 :: lengthPrefixed (asBytes "a:b"))]

theorem sharded_single (key : Bytes) : SqliteBus.Sharded openSite {key} where
  openable := fun _ _ => rfl
  distinct := by
    intro one same other like _
    rw [Set.mem_singleton_iff.mp same, Set.mem_singleton_iff.mp like]

theorem storedDatagrams_store {received : Metrics × Bytes} (member : received ∈ storedDatagrams)
    {key value : Bytes} (stores : DatagramCalls silentParser received.2 (.writeValue key value)) :
    key ∈ ({asBytes "a:b"} : Set Bytes) := by
  rcases stores with ⟨request, decoded, calls⟩
  rcases List.mem_cons.mp member with rfl | reads
  · have same := (Prod.mk.inj decoded).2
    subst same
    rcases calls with ⟨about, held, durationMs, fields, made⟩
    have read : Router.writeFields ((lengthPrefixed (asBytes "a:b") ++
        lengthPrefixed (asBytes "x") ++ toBeBytes 8 0).take 2043) =
          some (asBytes "a:b", asBytes "x", 0) := by decide +kernel
    cases read.symm.trans fields
    rcases made with ⟨-, same⟩ | ⟨lasting, -⟩
    · cases same
      exact Set.mem_singleton _
    · exact absurd rfl lasting
  · cases List.mem_singleton.mp reads
    have same := (Prod.mk.inj decoded).2
    subst same
    rcases calls with ⟨about, -, impossible⟩
    cases impossible

theorem stored_stream_is_served_by_one_map :
    ∃ answers, RunsAsOneMap openSite ∅ stillClock 0 {asBytes "a:b"}
      (serve silentParser storedDatagrams) answers :=
  stream_is_served_by_one_map openSite ∅ stillClock 0 silentParser {asBytes "a:b"}
    storedDatagrams stillClock_monotone (wellFiled_empty openSite) (sharded_single _)
    (SqliteBus.filed_empty openSite _).fresh (by decide)
    (fun _ member _ _ => storedDatagrams_store member)

end TricPlus
