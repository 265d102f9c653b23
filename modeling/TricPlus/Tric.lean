import TricPlus.StoreInvariant
import TricPlus.Reference

/-!
The shared handle on the store.  Every method takes the lock, purges at the time
it reads from the clock and then works on the store, so expiry is lazy.  Seen
from outside it is eager: call by call the handle answers as the reference map.
-/

namespace TricPlus

open Std (ExtTreeMap)
open AtomicProgram
open ExpiringMap (Entry remains)

structure Tric where
  inner : Store

def createTric : Tric where
  inner := createStore

namespace Tric

def readValue (tric : Tric) (key : Bytes) (now : Instant) : Option (Option Bytes × Tric) := do
  let store ← tric.inner.deleteExpiredEntries now
  some (store.readValue key, ⟨store⟩)

def writeValue (tric : Tric) (key value : Bytes) (now : Instant) : Option (Unit × Tric) := do
  let store ← tric.inner.deleteExpiredEntries now
  some ((), ⟨← store.writeValue key value⟩)

def deleteValue (tric : Tric) (key : Bytes) (now : Instant) : Option (Unit × Tric) := do
  let store ← tric.inner.deleteExpiredEntries now
  some ((), ⟨← store.deleteValue key⟩)

def deleteValueIfMatch (tric : Tric) (key expected : Bytes) (now : Instant) :
    Option (Bool × Tric) := do
  let store ← tric.inner.deleteExpiredEntries now
  let (deleted, left) ← store.deleteValueIfMatch key expected
  some (deleted, ⟨left⟩)

def writeTtl (tric : Tric) (key : Bytes) (duration : Duration) (now : Instant) :
    Option (Unit × Tric) := do
  let store ← tric.inner.deleteExpiredEntries now
  some ((), ⟨← store.writeTtl key (now + duration)⟩)

def writeValueWithTtl (tric : Tric) (key value : Bytes) (duration : Duration) (now : Instant) :
    Option (Unit × Tric) := do
  let store ← tric.inner.deleteExpiredEntries now
  some ((), ⟨← store.writeValueWithTtl key value (now + duration)⟩)

def readTtlRemaining (tric : Tric) (key : Bytes) (now : Instant) :
    Option (Option Duration × Tric) := do
  let store ← tric.inner.deleteExpiredEntries now
  some (store.readTtlRemaining key now, ⟨store⟩)

def findByPrefix (tric : Tric) (stem : Bytes) (now : Instant) :
    Option (List (Bytes × Bytes) × Tric) := do
  let store ← tric.inner.deleteExpiredEntries now
  some (store.findByPrefix stem, ⟨store⟩)

/-- The handle as one function of the method called. -/
def call (tric : Tric) (request : DataBusCall) (now : Instant) :
    Option (request.Reply × Tric) :=
  match request with
  | .readValue key => tric.readValue key now
  | .writeValue key value => tric.writeValue key value now
  | .deleteValue key => tric.deleteValue key now
  | .deleteValueIfMatch key expected => tric.deleteValueIfMatch key expected now
  | .writeTtl key duration => tric.writeTtl key duration now
  | .writeValueWithTtl key value duration => tric.writeValueWithTtl key value duration now
  | .readTtlRemaining key => tric.readTtlRemaining key now
  | .findByPrefix stem => tric.findByPrefix stem now

def replay : List (Instant × DataBusCall) → Tric →
    Option (List ((request : DataBusCall) × request.Reply) × Tric)
  | [], tric => some ([], tric)
  | (now, request) :: rest, tric => do
      let (reply, after) ← tric.call request now
      let (replies, last) ← replay rest after
      some (⟨request, reply⟩ :: replies, last)

end Tric

namespace Store

/-- The store holds the entries of the reference map. -/
def Represents (store : Store) (contents : Reference) : Prop :=
  ∀ key : Bytes, store.entry key = contents[key]?

variable {store : Store} {contents : Reference}

private theorem data_eq_value (key : Bytes) : store.data[key]? =
    (store.entry key).map Entry.value := by
  unfold entry
  cases store.data[key]? <;> rfl

theorem Represents.data (represents : store.Represents contents) (key : Bytes) :
    store.data[key]? = ExpiringMap.value? key contents := by
  rw [data_eq_value, represents key, ExpiringMap.value?]

theorem WellFormed.ttl (wellFormed : store.WellFormed) (represents : store.Represents contents)
    (key : Bytes) : store.ttl[key]? = ExpiringMap.deadline? key contents := by
  unfold ExpiringMap.deadline?
  rw [← represents key, entry]
  cases held : store.data[key]? with
  | some value => rfl
  | none =>
      cases timed : store.ttl[key]? with
      | none => rfl
      | some instant =>
          have present := wellFormed.stored key instant timed
          rw [held] at present
          cases present

theorem Represents.findByPrefix (represents : store.Represents contents) (stem : Bytes) :
    store.findByPrefix stem = Reference.scan stem contents := by
  unfold Store.findByPrefix
  rw [OrderedScan.prefixScan_toList]
  apply Reference.scan_eq ((OrderedScan.toList_ascending store.data).filter _)
  intro key value
  rw [List.mem_filter, List.isPrefixOf_iff_prefix, ExtTreeMap.mem_toList_iff_getElem?_eq_some,
    represents.data]

theorem WellFormed.readTtlRemaining (wellFormed : store.WellFormed)
    (represents : store.Represents contents) {now : Instant}
    (current : ∀ (key : Bytes) (deadline : Instant),
      ExpiringMap.deadline? key contents = some deadline → now < deadline) (key : Bytes) :
    store.readTtlRemaining key now =
      (ExpiringMap.deadline? key contents).map (fun deadline => deadline - now) := by
  unfold Store.readTtlRemaining
  rw [wellFormed.ttl represents]
  cases timed : ExpiringMap.deadline? key contents with
  | none => rfl
  | some deadline =>
      have ahead := Nat.le_of_lt (current key deadline timed)
      simp only [Option.bind_eq_bind, Option.bind_some, if_pos ahead, Option.map_some]

end Store

private theorem deadline_ahead (now : Instant) (contents : Reference) {key : Bytes}
    {deadline : Instant}
    (timed : ExpiringMap.deadline? key (ExpiringMap.purge now contents) = some deadline) :
    now < deadline := by
  unfold ExpiringMap.deadline? at timed
  rw [ExpiringMap.getElem?_purge] at timed
  obtain ⟨entry, left, has⟩ := Option.bind_eq_some_iff.mp timed
  have live := (ExpiringMap.remains_eq_some.mp left).2
  rcases entry with ⟨value, _⟩
  subst has
  exact of_decide_eq_true live

namespace Tric

open Store (Represents)

private theorem call_refines {tric : Tric} (wellFormed : tric.inner.WellFormed)
    {contents : Reference}
    (represents : tric.inner.Represents contents) (request : DataBusCall) (now : Instant) :
    ∃ after, tric.call request now = some ((Reference.step request now contents).1, after) ∧
      after.inner.WellFormed ∧
      after.inner.Represents (Reference.step request now contents).2 := by
  obtain ⟨purged, ended, purgedWellFormed, entryAt⟩ := wellFormed.purge now
  have purgedRepresents : purged.Represents (ExpiringMap.purge now contents) := by
    intro key
    rw [entryAt, represents key, ExpiringMap.getElem?_purge]
  unfold Reference.step Reference.apply
  cases request with
  | readValue key =>
      refine ⟨⟨purged⟩, ?_, purgedWellFormed, purgedRepresents⟩
      simp only [call, Tric.readValue, ended, Option.bind_eq_bind, Option.bind_some,
        Store.readValue, purgedRepresents.data]
  | writeValue key value =>
      obtain ⟨written, done, kept, writtenAt⟩ := purgedWellFormed.writeValue key value
      refine ⟨⟨written⟩, ?_, kept, ?_⟩
      · simp only [call, Tric.writeValue, ended, done, Option.bind_eq_bind, Option.bind_some]
      · intro other
        rw [writtenAt, ExpiringMap.getElem?_store, purgedRepresents other]
  | deleteValue key =>
      obtain ⟨deleted, done, kept, deletedAt⟩ := purgedWellFormed.deleteValue key
      refine ⟨⟨deleted⟩, ?_, kept, ?_⟩
      · simp only [call, Tric.deleteValue, ended, done, Option.bind_eq_bind, Option.bind_some]
      · intro other
        rw [deletedAt, ExpiringMap.getElem?_remove, purgedRepresents other]
  | deleteValueIfMatch key expected =>
      obtain ⟨left, done, kept, leftAt⟩ := purgedWellFormed.deleteValueIfMatch key expected
      simp only [purgedRepresents.data] at done leftAt
      refine ⟨⟨left⟩, ?_, kept, ?_⟩
      · simp only [call, Tric.deleteValueIfMatch, ended, done, Option.bind_eq_bind,
          Option.bind_some]
        split <;> rename_i matched <;> simp only [matched, decide_true, decide_false]
      · intro other
        by_cases matched :
            ExpiringMap.value? key (ExpiringMap.purge now contents) = some expected
        · simp only [leftAt, matched, and_true, if_true, ExpiringMap.getElem?_remove,
            purgedRepresents other]
        · simp only [leftAt, matched, and_false, if_false, purgedRepresents other]
  | writeTtl key duration =>
      obtain ⟨extended, done, kept, extendedAt⟩ :=
        purgedWellFormed.writeTtl key (now + duration)
      refine ⟨⟨extended⟩, ?_, kept, ?_⟩
      · simp only [call, Tric.writeTtl, ended, done, Option.bind_eq_bind, Option.bind_some]
      · intro other
        simp only [extendedAt, ExpiringMap.getElem?_setDeadline, purgedRepresents _]
  | writeValueWithTtl key value duration =>
      obtain ⟨written, done, kept, writtenAt⟩ :=
        purgedWellFormed.writeValueWithTtl key value (now + duration)
      refine ⟨⟨written⟩, ?_, kept, ?_⟩
      · simp only [call, Tric.writeValueWithTtl, ended, done, Option.bind_eq_bind,
          Option.bind_some]
      · intro other
        rw [writtenAt, ExpiringMap.getElem?_storeUntil, purgedRepresents other]
  | readTtlRemaining key =>
      refine ⟨⟨purged⟩, ?_, purgedWellFormed, purgedRepresents⟩
      simp only [call, Tric.readTtlRemaining, ended, Option.bind_eq_bind, Option.bind_some,
        purgedWellFormed.readTtlRemaining purgedRepresents
          (fun _ _ timed => deadline_ahead now contents timed)]
  | findByPrefix stem =>
      refine ⟨⟨purged⟩, ?_, purgedWellFormed, purgedRepresents⟩
      simp only [call, Tric.findByPrefix, ended, Option.bind_eq_bind, Option.bind_some,
        purgedRepresents.findByPrefix]

private theorem replay_refines (history : List (Instant × DataBusCall)) {tric : Tric}
    (wellFormed : tric.inner.WellFormed) {contents : Reference}
    (represents : tric.inner.Represents contents) :
    ∃ last, replay history tric = some ((Reference.replay history contents).1, last) ∧
      last.inner.WellFormed ∧
      last.inner.Represents (Reference.replay history contents).2 := by
  induction history generalizing tric contents with
  | nil => exact ⟨tric, rfl, wellFormed, represents⟩
  | cons head rest ih =>
      rcases head with ⟨now, request⟩
      obtain ⟨after, answered, kept, stillRepresents⟩ :=
        call_refines wellFormed represents request now
      obtain ⟨last, finished, lastKept, lastRepresents⟩ := ih kept stillRepresents
      refine ⟨last, ?_, lastKept, lastRepresents⟩
      simp only [replay, answered, finished, Option.bind_eq_bind, Option.bind_some,
        Reference.replay]

private theorem createTric_wellFormed : createTric.inner.WellFormed :=
  Store.createStore_wellFormed

private theorem createTric_represents : createTric.inner.Represents ∅ := by
  intro key
  rw [ExtTreeMap.getElem?_empty]
  exact Store.createStore_entry key

/-- Lazy expiry is exact: from the empty handle every history of calls gets the
answers of a map from which expired entries vanish eagerly. -/
theorem lazy_expiry_is_exact (history : List (Instant × DataBusCall)) :
    ∃ last, replay history createTric = some ((Reference.replay history ∅).1, last) ∧
      last.inner.Represents (Reference.replay history ∅).2 := by
  obtain ⟨last, finished, -, represents⟩ :=
    replay_refines history createTric_wellFormed createTric_represents
  exact ⟨last, finished, represents⟩

private theorem value_purge_iff {store : Store} {now : Instant} {key value : Bytes} :
    (remains now (store.entry key)).map Entry.value = some value ↔
      store.data[key]? = some value ∧
        ∀ deadline, store.ttl[key]? = some deadline → now < deadline := by
  unfold Store.entry
  cases held : store.data[key]? with
  | none =>
      constructor
      · intro found
        cases found
      · intro found
        cases found.1
  | some stored =>
      rw [Option.map_some, Option.map_eq_some_iff]
      constructor
      · intro found
        rcases found with ⟨entry, left, same⟩
        rcases ExpiringMap.remains_eq_some.mp left with ⟨isEntry, live⟩
        cases isEntry
        refine ⟨congrArg some same, ?_⟩
        intro deadline timed
        rw [timed] at live
        exact of_decide_eq_true live
      · intro found
        rcases found with ⟨same, ahead⟩
        cases same
        refine ⟨⟨value, store.ttl[key]?⟩, ExpiringMap.remains_eq_some.mpr ⟨rfl, ?_⟩, rfl⟩
        cases timed : store.ttl[key]? with
        | none => rfl
        | some deadline => exact decide_eq_true (ahead deadline timed)

private theorem findByPrefix_listed {tric : Tric} (wellFormed : tric.inner.WellFormed)
    (stem : Bytes)
    (now : Instant) :
    ∃ pairs after, tric.findByPrefix stem now = some (pairs, after) ∧
      OrderedScan.Ascending pairs ∧ (pairs.map Prod.fst).Nodup ∧
      ∀ key value, (key, value) ∈ pairs ↔ stem <+: key ∧ tric.inner.data[key]? = some value ∧
        ∀ deadline, tric.inner.ttl[key]? = some deadline → now < deadline := by
  rcases wellFormed.purge now with ⟨purged, ended, -, entryAt⟩
  have ascending : OrderedScan.Ascending (purged.findByPrefix stem) := by
    unfold Store.findByPrefix
    rw [OrderedScan.prefixScan_toList]
    exact (OrderedScan.toList_ascending purged.data).filter _
  refine ⟨purged.findByPrefix stem, ⟨purged⟩, ?_, ascending, ascending.keys_nodup, ?_⟩
  · unfold findByPrefix
    rw [ended]
    rfl
  · intro key value
    unfold Store.findByPrefix
    rw [OrderedScan.prefixScan_toList, List.mem_filter, List.isPrefixOf_iff_prefix,
      ExtTreeMap.mem_toList_iff_getElem?_eq_some, Store.data_eq_value, entryAt, value_purge_iff,
      and_comm]

/-- A scan by range is the filter of the live entries: on every handle that any history of
calls leads to, at every time, for every prefix. -/
theorem find_by_prefix_filters_the_live (history : List (Instant × DataBusCall)) :
    ∃ replies last, replay history createTric = some (replies, last) ∧
      ∀ stem now, ∃ pairs after, last.findByPrefix stem now = some (pairs, after) ∧
        OrderedScan.Ascending pairs ∧ (pairs.map Prod.fst).Nodup ∧
        ∀ key value, (key, value) ∈ pairs ↔
          stem <+: key ∧ last.inner.data[key]? = some value ∧
            ∀ deadline, last.inner.ttl[key]? = some deadline → now < deadline := by
  rcases replay_refines history createTric_wellFormed createTric_represents with
    ⟨last, finished, wellFormed, -⟩
  exact ⟨_, last, finished, fun stem now => findByPrefix_listed wellFormed stem now⟩

end Tric

structure SoundTric extends Tric where
  wellFormed : inner.WellFormed

namespace SoundTric

def create : SoundTric where
  toTric := createTric
  wellFormed := Tric.createTric_wellFormed

/-- The handle as the map it stands for. -/
def contents (tric : SoundTric) : Reference :=
  tric.inner.data.map (fun key value => ⟨value, tric.inner.ttl[key]?⟩)

private theorem represents (tric : SoundTric) : tric.inner.Represents tric.contents := by
  intro key
  unfold contents Store.entry
  rw [ExtTreeMap.getElem?_map]

theorem create_contents : create.contents = ∅ := by
  apply ExtTreeMap.ext_getElem?
  intro key
  rw [← create.represents key, ExtTreeMap.getElem?_empty]
  exact Store.createStore_entry key

private theorem call_isSome (tric : SoundTric) (request : DataBusCall) (now : Instant) :
    (tric.toTric.call request now).isSome = true := by
  obtain ⟨after, answered, -⟩ := Tric.call_refines tric.wellFormed tric.represents request now
  rw [answered]
  rfl

def step (request : DataBusCall) (now : Instant) (tric : SoundTric) :
    request.Reply × SoundTric :=
  let answer := (tric.toTric.call request now).get (tric.call_isSome request now)
  (answer.1,
    { toTric := answer.2
      wellFormed := by
        obtain ⟨after, answered, kept, -⟩ :=
          Tric.call_refines tric.wellFormed tric.represents request now
        simp only [answer, answered, Option.get_some]
        exact kept })

private theorem call_eq_step (tric : SoundTric) (request : DataBusCall) (now : Instant) :
    tric.toTric.call request now =
      some ((step request now tric).1, (step request now tric).2.toTric) :=
  (Option.some_get (tric.call_isSome request now)).symm

theorem step_reply (tric : SoundTric) (request : DataBusCall) (now : Instant) :
    (step request now tric).1 = (Reference.step request now tric.contents).1 := by
  obtain ⟨after, answered, -⟩ := Tric.call_refines tric.wellFormed tric.represents request now
  rw [call_eq_step] at answered
  exact congrArg Prod.fst (Option.some.inj answered)

theorem step_contents (tric : SoundTric) (request : DataBusCall) (now : Instant) :
    (step request now tric).2.contents = (Reference.step request now tric.contents).2 := by
  obtain ⟨after, answered, -, afterRepresents⟩ :=
    Tric.call_refines tric.wellFormed tric.represents request now
  rw [call_eq_step] at answered
  obtain rfl := congrArg Prod.snd (Option.some.inj answered)
  apply ExtTreeMap.ext_getElem?
  intro key
  rw [← afterRepresents key, ← (step request now tric).2.represents key]

end SoundTric

end TricPlus
