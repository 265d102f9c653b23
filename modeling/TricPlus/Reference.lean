import TricPlus.DataBus
import TricPlus.Lib.ExpiringMap

/-!
What a bus is for: one map from keys to values, each with a deadline or none.
Before every call whatever is no longer live at that moment is gone.
-/

namespace TricPlus

open AtomicProgram
open ExpiringMap

abbrev Reference := Contents Bytes Bytes Instant

namespace Reference

/-- The live pairs whose key starts with `stem`, in ascending key order. -/
def scan (stem : Bytes) (contents : Reference) : List (Bytes × Bytes) :=
  (listing contents).filter (fun pair => stem.isPrefixOf pair.1)

def apply (request : DataBusCall) (now : Instant) (current : Reference) :
    request.Reply × Reference :=
  match request with
  | .readValue key => (value? key current, current)
  | .writeValue key value => ((), store key value current)
  | .deleteValue key => ((), remove key current)
  | .deleteValueIfMatch key expected =>
      if value? key current = some expected then (true, remove key current)
      else (false, current)
  | .writeTtl key duration => ((), setDeadline key (now + duration) current)
  | .writeValueWithTtl key value duration =>
      ((), storeUntil key value (now + duration) current)
  | .readTtlRemaining key =>
      ((deadline? key current).map (fun deadline => deadline - now), current)
  | .findByPrefix stem => (scan stem current, current)

def step (request : DataBusCall) (now : Instant) (contents : Reference) :
    request.Reply × Reference :=
  apply request now (purge now contents)

theorem mem_scan {stem : Bytes} {contents : Reference} {key value : Bytes} :
    (key, value) ∈ scan stem contents ↔ value? key contents = some value ∧ stem <+: key := by
  unfold scan
  rw [List.mem_filter, mem_listing, List.isPrefixOf_iff_prefix]

theorem scan_ascending (stem : Bytes) (contents : Reference) :
    OrderedScan.Ascending (scan stem contents) :=
  (listing_ascending contents).filter _

theorem scan_eq {stem : Bytes} {contents : Reference} {pairs : List (Bytes × Bytes)}
    (ascending : OrderedScan.Ascending pairs)
    (listed : ∀ key value, (key, value) ∈ pairs ↔
      value? key contents = some value ∧ stem <+: key) : pairs = scan stem contents := by
  apply ascending.eq_of_mem_iff (scan_ascending stem contents)
  rintro ⟨key, value⟩
  rw [listed, mem_scan]

/-- Every call in order, each at its own time. -/
def replay : List (Instant × DataBusCall) → Reference →
    List ((request : DataBusCall) × request.Reply) × Reference
  | [], contents => ([], contents)
  | (now, request) :: rest, contents =>
      let (reply, after) := step request now contents
      let (replies, last) := replay rest after
      (⟨request, reply⟩ :: replies, last)

end Reference

end TricPlus
