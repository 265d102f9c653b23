import TricPlus.Lib.Linearization
import TricPlus.Provenance

/-!
Keys that are only stored with a lifetime.

Such a key has no row, so all that happens to it happens in the transient tier, and each
method of the bus makes one call there.  Workers that serve such keys are linearizable,
whatever SQLite does meanwhile.
-/

namespace TricPlus

open Std (ExtTreeMap)
open AtomicProgram
open BigEndian

/-- Everything about some keys but storing a value without a lifetime. -/
def Leases (keys : Set Bytes) : DataBusCall → Prop
  | .readValue key => key ∈ keys
  | .writeValue _ _ => False
  | .deleteValue key => key ∈ keys
  | .deleteValueIfMatch key _ => key ∈ keys
  | .writeTtl key _ => key ∈ keys
  | .writeValueWithTtl key _ _ => key ∈ keys
  | .readTtlRemaining key => key ∈ keys
  | .findByPrefix stem => ∀ key, stem <+: key → key ∈ keys

/-- The persistent tier answers, and no file has a row under any of the keys. -/
structure Unrowed (keys : Set Bytes) (bus : PermutiveBus) : Prop where
  works : bus.persistent.poisoned = false
  noRows : bus.persistent.RowsAmong (fun key _ => key ∉ keys)

def Reference.objectUnder : Object dataBus (Instant × SqlFaults) Reference where
  step := fun request moment => Reference.object.step request moment.1

def leasing (site : Site) (keys : Set Bytes) :
    Linearization tiers dataBus (Instant × SqlFaults) PermutiveBus Reference where
  object := bothTiersUnder site
  spec := Reference.objectUnder
  view := fun bus => bus.transient.contents
  inv := Unrowed keys
  point := fun call => decide (call.tier = .transient)

section Calls

variable {site : Site} {keys : Set Bytes} {bus : PermutiveBus} {key : Bytes}

private theorem transient_point (unrowed : Unrowed keys bus) (request : DataBusCall)
    (moment : Instant × SqlFaults) :
    ∃ after, (bothTiersUnder site).step ⟨.transient, request⟩ moment bus =
        (some (Reference.step request moment.1 bus.transient.contents).1, after) ∧
      Unrowed keys after ∧
      Reference.objectUnder.step request moment bus.transient.contents =
        (some (Reference.step request moment.1 bus.transient.contents).1,
          after.transient.contents) := by
  refine ⟨{ bus with transient := (SoundTric.step request moment.1 bus.transient).2 }, ?_,
    ⟨unrowed.works, unrowed.noRows⟩, ?_⟩
  · rw [← SoundTric.step_reply]
    rfl
  · rw [SoundTric.step_contents]
    rfl

def absentReply : (request : DataBusCall) → request.Reply
  | .readValue _ => none
  | .writeValue _ _ => ()
  | .deleteValue _ => ()
  | .deleteValueIfMatch _ _ => false
  | .writeTtl _ _ => ()
  | .writeValueWithTtl _ _ _ => ()
  | .readTtlRemaining _ => none
  | .findByPrefix _ => []

private theorem select_absent (unrowed : Unrowed keys bus) (member : key ∈ keys)
    (faults : SqlFaults)
    (file : PosixPath.Location) : bus.persistent.selectUnder faults file key = none := by
  cases found : bus.persistent.selectUnder faults file key with
  | none => rfl
  | some value => exact absurd member (unrowed.noRows.select found)

private theorem erase_absent (unrowed : Unrowed keys bus) (faults : SqlFaults)
    (file : PosixPath.Location) (key : Bytes) :
    Unrowed keys
      { bus with
        persistent := bus.persistent.updateUnder faults file (fun table => table.erase key) } where
  works := by
    have works := unrowed.works
    unfold SqliteBus.updateUnder
    split
    · rw [SqliteBus.updateTable_poisoned, works]
    · exact works
  noRows := unrowed.noRows.update file (Or.inl rfl)

private theorem persistent_silent (unrowed : Unrowed keys bus) {request : DataBusCall}
    (leases : Leases keys request) (stored : request.written? = none)
    (moment : Instant × SqlFaults) :
    ∃ after, (bothTiersUnder site).step ⟨.persistent, request⟩ moment bus =
        (some (absentReply request), after) ∧
      Unrowed keys after ∧ after.transient.contents = bus.transient.contents := by
  have works := unrowed.works
  cases request with
  | writeValue key value => cases stored
  | writeValueWithTtl key value duration => cases stored
  | writeTtl key duration => exact ⟨bus, rfl, unrowed, rfl⟩
  | readTtlRemaining key => exact ⟨bus, rfl, unrowed, rfl⟩
  | readValue key =>
      refine ⟨bus, ?_, unrowed, rfl⟩
      simp only [bothTiersUnder, SqliteBus.stepUnder, SqliteBus.readValueUnder, SqliteBus.locked,
        works, Bool.false_eq_true, if_false, absentReply]
      cases bus.persistent.databases[namespaceOf key]? with
      | none => rfl
      | some file => simp only [select_absent unrowed leases]
  | deleteValue key =>
      simp only [bothTiersUnder, SqliteBus.stepUnder, SqliteBus.deleteValueUnder,
        SqliteBus.locked, works, Bool.false_eq_true, if_false]
      cases bus.persistent.databases[namespaceOf key]? with
      | none => exact ⟨bus, rfl, unrowed, rfl⟩
      | some file => exact ⟨_, rfl, erase_absent unrowed moment.2 file key, rfl⟩
  | deleteValueIfMatch key expected =>
      refine ⟨bus, ?_, unrowed, rfl⟩
      simp only [bothTiersUnder, SqliteBus.stepUnder, SqliteBus.deleteValueIfMatchUnder,
        SqliteBus.locked, works, Bool.false_eq_true, if_false, absentReply]
      cases bus.persistent.databases[namespaceOf key]? with
      | none => rfl
      | some file =>
          simp only [select_absent unrowed leases, reduceCtorEq, if_false]
  | findByPrefix stem =>
      refine ⟨bus, ?_, unrowed, rfl⟩
      have nothing : bus.persistent.listingUnder moment.2 stem = [] := by
        rw [List.eq_nil_iff_forall_not_mem]
        intro pair member
        have listed := unrowed.noRows.listed member
        exact listed.1 (leases pair.1 listed.2)
      simp only [bothTiersUnder, SqliteBus.stepUnder, SqliteBus.findByPrefixUnder,
        SqliteBus.locked, works, Bool.false_eq_true, if_false, absentReply, nothing]

private theorem settled_silent {β : Type} {request : DataBusCall} (leases : Leases keys request)
    (stored : request.written? = none) {next : request.Reply → Program tiers β} {reply : β}
    (ended : (leasing site keys).Settled reply (next (absentReply request))) :
    (leasing site keys).Settled reply (.call ⟨.persistent, request⟩ next) := by
  refine ⟨rfl, fun moment bus unrowed => ?_⟩
  rcases @persistent_silent site keys bus unrowed request leases stored moment with
    ⟨after, stepped, kept, same⟩
  exact ⟨absentReply request, after, stepped, kept, same, ended⟩

private theorem pending_silent {call : DataBusCall} (request : DataBusCall)
    (leases : Leases keys request) (stored : request.written? = none)
    {next : request.Reply → Program tiers call.Reply}
    (continues : (leasing site keys).Pending call (next (absentReply request))) :
    (leasing site keys).Pending call (.call ⟨.persistent, request⟩ next) := by
  refine Or.inl ⟨rfl, fun moment bus unrowed => ?_⟩
  rcases @persistent_silent site keys bus unrowed request leases stored moment with
    ⟨after, stepped, kept, same⟩
  exact ⟨absentReply request, after, stepped, kept, same, continues⟩

private theorem pending_point {call : DataBusCall} {next : call.Reply → Program tiers call.Reply}
    (ends : ∀ reply, (∃ moment contents, reply = (Reference.step call moment contents).1) →
      (leasing site keys).Settled reply (next reply)) :
    (leasing site keys).Pending call (.call ⟨.transient, call⟩ next) := by
  refine Or.inr ⟨rfl, fun moment bus unrowed => ?_⟩
  rcases @transient_point site keys bus unrowed call moment with ⟨after, stepped, kept, specified⟩
  exact ⟨_, after, _, stepped, kept, specified, ends _ ⟨_, _, rfl⟩⟩

private theorem mergeResults_nil {pairs : List (Bytes × Bytes)}
    (ascending : OrderedScan.Ascending pairs) :
    mergeResults pairs [] = pairs := by
  unfold mergeResults
  simp only [List.filter_nil, List.append_nil]
  exact (OrderedScan.sortByKey_ascending ascending.keys_nodup).eq_of_mem_iff ascending
    (OrderedScan.mem_sortByKey pairs)

private theorem call_pending {call : DataBusCall} (leases : Leases keys call) :
    (leasing site keys).Pending call (PermutiveBus.call call) := by
  cases call with
  | writeValue key value => exact absurd leases id
  | readValue key =>
      apply pending_point
      rintro reply -
      cases reply with
      | some value => rfl
      | none => exact settled_silent leases rfl rfl
  | deleteValue key =>
      apply pending_point
      rintro reply -
      exact settled_silent leases rfl rfl
  | deleteValueIfMatch key expected =>
      apply pending_point
      rintro reply -
      exact settled_silent leases rfl (Bool.or_false reply)
  | writeTtl key duration =>
      apply pending_silent (.readValue key) leases rfl
      apply pending_point
      rintro reply -
      rfl
  | writeValueWithTtl key value duration =>
      apply pending_silent (.deleteValue key) leases rfl
      apply pending_point
      rintro reply -
      rfl
  | readTtlRemaining key =>
      apply pending_point
      rintro reply -
      rfl
  | findByPrefix stem =>
      apply pending_point
      rintro reply ⟨moment, contents, rfl⟩
      exact settled_silent leases rfl (mergeResults_nil (Reference.scan_ascending stem _))

end Calls

/-- Workers that ask for some keys without rows, and store values under these with lifetimes
only, are linearizable: each call takes effect on one map when its worker makes its call on
the transient tier. -/
theorem leased_streams_are_linearizable (site : Site) (parser : SqlParser) (keys : Set Bytes)
    (streams : List (List (Metrics × Bytes))) (moves : List (Move tiers (Instant × SqlFaults)))
    {bus last : PermutiveBus} {results : List (Option (List (List Bytes)))}
    (unrowed : Unrowed keys bus)
    (leases : ∀ stream ∈ streams, ∀ received ∈ stream, ∀ call,
      DatagramCalls parser received.2 call → Leases keys call)
    (scheduled : Scheduled (bothTiersUnder site)
      (streams.map (fun stream => onTiers (serve parser stream))) moves bus results last) :
    ∃ points : List (Move dataBus (Instant × SqlFaults)),
      points.map Move.moment =
          (moves.filter (fun move => move.request.tier = .transient)).map Move.moment ∧
        Scheduled Reference.objectUnder (streams.map (serve parser)) points
          bus.transient.contents results last.transient.contents ∧
        Unrowed keys last := by
  apply (leasing site keys).linearized (fun call leases => call_pending leases) scheduled _ unrowed
  rw [List.forall₂_map_left_iff, List.forall₂_map_right_iff, List.forall₂_same]
  intro stream listed
  apply Linearization.Ahead.between
  apply Program.MakesOnly.uses
  exact serve_makes (leases stream listed)

def leasedStreams : List (List (Metrics × Bytes)) :=
  [[(freshMetrics, toBeBytes 4 7 ++ 0x02 ::
      (lengthPrefixed (asBytes "a:b") ++ lengthPrefixed (asBytes "x") ++ toBeBytes 8 1000))],
    [(freshMetrics, toBeBytes 4 8 ++ 0x01 :: lengthPrefixed (asBytes "a:b"))]]

private theorem leasedStreams_lease {stream : List (Metrics × Bytes)}
    (listed : stream ∈ leasedStreams)
    {received : Metrics × Bytes} (member : received ∈ stream) {call : DataBusCall}
    (calls : DatagramCalls silentParser received.2 call) :
    Leases ({asBytes "a:b"} : Set Bytes) call := by
  rcases calls with ⟨request, decoded, calls⟩
  rcases List.mem_cons.mp listed with rfl | reads
  · cases List.mem_singleton.mp member
    have same := (Prod.mk.inj decoded).2
    subst same
    rcases calls with ⟨about, held, durationMs, fields, made⟩
    have read : Router.writeFields ((lengthPrefixed (asBytes "a:b") ++
        lengthPrefixed (asBytes "x") ++ toBeBytes 8 1000).take 2043) =
          some (asBytes "a:b", asBytes "x", 1000) := by decide +kernel
    cases read.symm.trans fields
    rcases made with ⟨forever, -⟩ | ⟨-, rfl⟩
    · cases forever
    · exact Set.mem_singleton _
  · cases List.mem_singleton.mp reads
    cases List.mem_singleton.mp member
    have same := (Prod.mk.inj decoded).2
    subst same
    rcases calls with ⟨about, field, rfl⟩
    have read : readField ((lengthPrefixed (asBytes "a:b")).take 2043) 0 =
        some (asBytes "a:b") := by decide +kernel
    cases read.symm.trans field
    exact Set.mem_singleton _

private theorem emptyBus_unrowed (keys : Set Bytes) : Unrowed keys emptyBus where
  works := rfl
  noRows := by
    intro file key value found
    have nothing : emptyBus.persistent.selectValue file key = none := by
      rw [SqliteBus.selectValue_eq]
      exact congrArg (fun table => Option.bind table _) ExtTreeMap.getElem?_empty
    rw [nothing] at found
    cases found

theorem leased_pair_is_linearizable :
    ∃ moves last results,
      Scheduled (bothTiersUnder openSite)
          (leasedStreams.map (fun stream => onTiers (serve silentParser stream))) moves emptyBus
          results last ∧
        ∃ points : List (Move dataBus (Instant × SqlFaults)),
          points.map Move.moment =
              (moves.filter (fun move => move.request.tier = .transient)).map Move.moment ∧
            Scheduled Reference.objectUnder (leasedStreams.map (serve silentParser)) points
              emptyBus.transient.contents results last.transient.contents ∧
            Unrowed {asBytes "a:b"} last := by
  rcases Scheduled.one_by_one (bothTiersUnder openSite) (fun _ => (0, noFaults))
    (leasedStreams.map (fun stream => onTiers (serve silentParser stream))) emptyBus with
    ⟨moves, results, last, scheduled⟩
  exact ⟨moves, last, results, scheduled,
    leased_streams_are_linearizable openSite silentParser {asBytes "a:b"} leasedStreams moves
      (emptyBus_unrowed _) (fun _ listed _ member _ => leasedStreams_lease listed member)
      scheduled⟩

end TricPlus
