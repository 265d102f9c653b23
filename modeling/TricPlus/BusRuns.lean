import TricPlus.KeyCell

/-!
The states a two-tier bus can be in, and its methods as programs on one cell.
-/

namespace TricPlus

open Std (ExtTreeMap)
open AtomicProgram
open ExpiringMap (Entry remains)
open PosixPath (Location)

/-- The states reached by calls, one after the other, from a bus created over the
files of `disk`.  A call that panics leaves the state it reached. -/
inductive Reachable (site : Site) (clock : Nat → Instant) (disk : Disk) :
    Nat → PermutiveBus → Prop where
  | created (ticks : Nat) :
      Reachable site clock disk (createPermutiveBus site disk clock ticks).ticks
        (createPermutiveBus site disk clock ticks).state
  | called (request : DataBusCall) (ticks : Nat) (bus : PermutiveBus)
      (before : Reachable site clock disk ticks bus) :
      Reachable site clock disk
        (run (bothTiers site) clock (PermutiveBus.call request) ticks bus).ticks
        (run (bothTiers site) clock (PermutiveBus.call request) ticks bus).state

private theorem openEntry_attached {site : Site} {disk : Disk}
    {databases : ExtTreeMap Bytes Location}
    {name : PosixPath.Name} (member : name ∈ disk.entries (site.locate site.directory))
    (attached : ∀ (space : Bytes) (file : Location), databases[space]? = some file →
      (disk[file]?).isSome = true) :
    ∀ (space : Bytes) (file : Location), (openEntry site databases name)[space]? = some file →
      (disk[file]?).isSome = true := by
  intro space file found
  unfold openEntry at found
  simp only at found
  split at found
  · split at found
    · rw [ExtTreeMap.getElem?_insert] at found
      split at found
      · cases found
        exact mem_entries.mp member
      · exact attached space file found
    · exact attached space file found
  · exact attached space file found

theorem createSqliteBus_attached (site : Site) (disk : Disk) :
    (createSqliteBus site disk).Attached := by
  unfold SqliteBus.Attached createSqliteBus
  simp only
  suffices folded : ∀ names : List PosixPath.Name,
      (∀ name ∈ names, name ∈ disk.entries (site.locate site.directory)) →
      ∀ databases : ExtTreeMap Bytes Location,
      (∀ (space : Bytes) (file : Location), databases[space]? = some file →
        (disk[file]?).isSome = true) →
      ∀ (space : Bytes) (file : Location),
        (names.foldl (openEntry site) databases)[space]? = some file →
          (disk[file]?).isSome = true by
    apply folded _ (fun _ member => member)
    intro space file found
    rw [ExtTreeMap.getElem?_empty] at found
    cases found
  intro names
  induction names with
  | nil =>
      intro members databases attached
      exact attached
  | cons name names ih =>
      intro members databases attached
      exact ih (fun other member => members other (List.mem_cons_of_mem _ member)) _
        (openEntry_attached (members name (List.mem_cons_self ..)) attached)

theorem bothTiers_attached (site : Site) (request : TierCall) (now : Instant)
    (bus : PermutiveBus) (attached : bus.persistent.Attached) :
    ((bothTiers site).step request now bus).2.persistent.Attached := by
  rcases request with ⟨tier, request⟩
  cases tier with
  | transient => exact attached
  | persistent => exact SqliteBus.step_attached site request bus.persistent attached

theorem Reachable.attached {site : Site} {clock : Nat → Instant} {disk : Disk} {ticks : Nat}
    {bus : PermutiveBus} (reached : Reachable site clock disk ticks bus) :
    bus.persistent.Attached := by
  induction reached with
  | created ticks =>
      exact run_invariant (bothTiers site) clock (fun bus => bus.persistent.Attached)
        (bothTiers_attached site) _ ticks _ (createSqliteBus_attached site disk)
  | called request ticks bus before attached =>
      exact run_invariant (bothTiers site) clock (fun bus => bus.persistent.Attached)
        (bothTiers_attached site) _ ticks bus attached

def afterCalls (site : Site) (clock : Nat → Instant) (disk : Disk)
    (requests : List DataBusCall) : Nat × PermutiveBus :=
  let created := createPermutiveBus site disk clock 0
  requests.foldl
    (fun reached request =>
      let outcome := run (bothTiers site) clock (PermutiveBus.call request) reached.1 reached.2
      (outcome.ticks, outcome.state))
    (created.ticks, created.state)

theorem reachable_afterCalls (site : Site) (clock : Nat → Instant) (disk : Disk)
    (requests : List DataBusCall) :
    Reachable site clock disk (afterCalls site clock disk requests).1
      (afterCalls site clock disk requests).2 := by
  unfold afterCalls
  simp only
  suffices folded : ∀ reached : Nat × PermutiveBus,
      Reachable site clock disk reached.1 reached.2 →
      Reachable site clock disk (requests.foldl _ reached).1 (requests.foldl _ reached).2 from
    folded _ (.created 0)
  induction requests with
  | nil =>
      intro reached start
      exact start
  | cons request requests ih =>
      intro reached start
      exact ih _ (.called request reached.1 reached.2 start)

def AboutKey (key : Bytes) (call : TierCall) : Prop :=
  call.request.key? = some key

theorem call_uses {request : DataBusCall} {key : Bytes} (about : request.key? = some key) :
    (PermutiveBus.call request).Uses (AboutKey key) := by
  cases request with
  | findByPrefix stem => cases about
  | readValue key =>
      cases about
      refine ⟨rfl, fun reply => ?_⟩
      cases reply with
      | some value => trivial
      | none =>
          refine ⟨rfl, fun reply => ?_⟩
          cases reply with
          | none => trivial
          | some value => exact ⟨rfl, fun _ => ⟨rfl, fun _ => trivial⟩⟩
  | writeValue key value =>
      cases about
      exact ⟨rfl, fun _ => ⟨rfl, fun _ => trivial⟩⟩
  | deleteValue key =>
      cases about
      exact ⟨rfl, fun _ => ⟨rfl, fun _ => trivial⟩⟩
  | deleteValueIfMatch key expected =>
      cases about
      exact ⟨rfl, fun _ => ⟨rfl, fun _ => trivial⟩⟩
  | writeTtl key duration =>
      cases about
      refine ⟨rfl, fun reply => ?_⟩
      cases reply with
      | none => exact ⟨rfl, fun _ => trivial⟩
      | some value =>
          exact ⟨rfl, fun _ => ⟨rfl, fun _ => ⟨rfl, fun _ => trivial⟩⟩⟩
  | writeValueWithTtl key value duration =>
      cases about
      exact ⟨rfl, fun _ => ⟨rfl, fun _ => trivial⟩⟩
  | readTtlRemaining key =>
      cases about
      exact ⟨rfl, fun _ => trivial⟩

theorem run_cell (site : Site) (clock : Nat → Instant) {request : DataBusCall} {key : Bytes}
    (about : request.key? = some key) (ticks : Nat) {bus : PermutiveBus}
    (attached : bus.persistent.Attached) :
    run oneCell clock (PermutiveBus.call request) ticks (PermutiveBus.cell site key bus) =
      { result := (run (bothTiers site) clock (PermutiveBus.call request) ticks bus).result
        ticks := (run (bothTiers site) clock (PermutiveBus.call request) ticks bus).ticks
        state := PermutiveBus.cell site key
          (run (bothTiers site) clock (PermutiveBus.call request) ticks bus).state } :=
  ((cellProjection site key).run (PermutiveBus.call request) (call_uses about) ticks bus
    attached).1

section OneCell

variable {α : Type} (clock : Nat → Instant) (ticks : Nat) (cell : Cell)

theorem run_transient (request : DataBusCall) (next : request.Reply → Program tiers α) :
    run oneCell clock (.call ⟨.transient, request⟩ next) ticks cell =
      run oneCell clock (next (Cell.transientStep request (clock ticks) cell).1) (ticks + 1)
        (Cell.transientStep request (clock ticks) cell).2 := rfl

theorem run_persistent {request : DataBusCall} (next : request.Reply → Program tiers α)
    {reply : request.Reply} {after : Cell}
    (answered : Cell.persistentStep request cell = (some reply, after)) :
    run oneCell clock (.call ⟨.persistent, request⟩ next) ticks cell =
      run oneCell clock (next reply) (ticks + 1) after :=
  run_call_reply oneCell clock answered

theorem run_persistent_panic {request : DataBusCall} (next : request.Reply → Program tiers α)
    {after : Cell} (panicked : Cell.persistentStep request cell = (none, after)) :
    run oneCell clock (.call ⟨.persistent, request⟩ next) ticks cell =
      ⟨none, ticks + 1, after⟩ :=
  run_call_panic oneCell clock panicked

end OneCell

namespace Cell

/-- The value of the key at a given time: that of its copy, else its row. -/
def value (now : Instant) (cell : Cell) : Option Bytes :=
  match remains now cell.copy with
  | some entry => some entry.value
  | none => cell.row

/-- Neither tier holds the key from this time on. -/
def Absent (now : Instant) (cell : Cell) : Prop :=
  remains now cell.copy = none ∧ cell.row = none

end Cell

theorem remains_none_later {now later : Instant} (ordered : now ≤ later)
    {copy : Option (Entry Bytes Instant)} (gone : remains now copy = none) :
    remains later copy = none := by
  rw [← ExpiringMap.remains_remains ordered, gone]
  rfl

end TricPlus
