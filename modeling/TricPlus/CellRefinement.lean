import TricPlus.BusRuns

/-!
The two-tier bus, key by key, against one map.

A key with a row has no lifetime, and its copy in the transient tier, live or not,
is a cached one.  A key without a row is what its copy says.  Every call that
returns keeps this, with the map stepped at the call's effective reading.
-/

namespace TricPlus

open Std (ExtTreeMap)
open AtomicProgram
open ExpiringMap (Entry remains)
open PosixPath (Location)

/-- The reading at which a call takes effect: its last one where it sets a
deadline, else its first. -/
def effectTick (request : DataBusCall) (ticks later : Nat) : Nat :=
  match request with
  | .writeTtl _ _ => later - 1
  | .writeValueWithTtl _ _ _ => later - 1
  | _ => ticks

/-- The reply is not looked at when the call asks for a remaining lifetime. -/
def Compared (request : DataBusCall) : Prop :=
  match request with
  | .readTtlRemaining _ => False
  | _ => True

instance : DecidablePred Compared
  | .readTtlRemaining _ => isFalse id
  | .readValue _ => isTrue trivial
  | .writeValue _ _ => isTrue trivial
  | .deleteValue _ => isTrue trivial
  | .deleteValueIfMatch _ _ => isTrue trivial
  | .writeTtl _ _ => isTrue trivial
  | .writeValueWithTtl _ _ _ => isTrue trivial
  | .findByPrefix _ => isTrue trivial

def entryCell (entry : Option (Entry Bytes Instant)) : Cell where
  copy := entry
  row := none
  usable := true
  poisoned := false

namespace Cell

/-- The cell holds what the map holds. -/
structure Matches (now : Instant) (entry : Option (Entry Bytes Instant)) (cell : Cell) :
    Prop where
  stored : ∀ value, cell.row = some value → entry = some ⟨value, none⟩
  cached : ∀ value copy, cell.row = some value → cell.copy = some copy →
    copy.value = value ∧ copy.deadline.isSome = true
  alone : cell.row = none → remains now cell.copy = remains now entry

namespace Matches

variable {now later : Instant} {entry : Option (Entry Bytes Instant)} {cell : Cell}

theorem later_on (matched : cell.Matches now entry) (ordered : now ≤ later) :
    cell.Matches later entry where
  stored := matched.stored
  cached := matched.cached
  alone := by
    intro noRow
    rw [← ExpiringMap.remains_remains ordered, matched.alone noRow,
      ExpiringMap.remains_remains ordered]

theorem value_eq (matched : cell.Matches now entry) :
    cell.value now = (remains now entry).map Entry.value := by
  unfold Cell.value
  cases row : cell.row with
  | none =>
      rw [matched.alone row]
      cases remains now entry <;> rfl
  | some value =>
      rw [matched.stored value row]
      cases current : remains now cell.copy with
      | none => rfl
      | some copy =>
          have found := (ExpiringMap.remains_eq_some.mp current).1
          exact congrArg some (matched.cached value copy row found).1

theorem purged (matched : cell.Matches now entry) :
    { cell with copy := remains now cell.copy }.Matches now entry where
  stored := matched.stored
  cached := by
    intro value copy row found
    exact matched.cached value copy row (ExpiringMap.remains_eq_some.mp found).1
  alone := by
    intro noRow
    rw [ExpiringMap.remains_idem]
    exact matched.alone noRow

theorem forget {early : Instant} (ordered : early ≤ now) (matched : cell.Matches now entry) :
    cell.Matches now (remains early entry) where
  stored := by
    intro value row
    rw [matched.stored value row]
    rfl
  cached := matched.cached
  alone := by
    intro noRow
    rw [ExpiringMap.remains_remains ordered]
    exact matched.alone noRow

theorem of_copy {copy : Option (Entry Bytes Instant)} {usable poisoned : Bool}
    (same : remains now copy = remains now entry) :
    Cell.Matches now entry ⟨copy, none, usable, poisoned⟩ where
  stored := by
    intro value row
    cases row
  cached := by
    intro value copy row
    cases row
  alone := fun _ => same

theorem of_row {value : Bytes} {copy : Option (Entry Bytes Instant)} {usable poisoned : Bool}
    (cached : ∀ held, copy = some held → held.value = value ∧ held.deadline.isSome = true) :
    Cell.Matches now (some ⟨value, none⟩) ⟨copy, some value, usable, poisoned⟩ where
  stored := by
    intro other row
    cases row
    rfl
  cached := by
    intro other held row found
    cases row
    exact cached held found
  alone := by
    intro noRow
    cases noRow

end Matches

end Cell

section Methods

variable (clock : Nat → Instant) {ticks : Nat} {cell : Cell}

theorem run_readValue_hit (key : Bytes) {copy : Entry Bytes Instant}
    (held : remains (clock ticks) cell.copy = some copy) :
    run oneCell clock (PermutiveBus.readValue key) ticks cell =
      ⟨some (some copy.value), ticks + 1, { cell with copy := some copy }⟩ := by
  have first : Cell.transientStep (.readValue key) (clock ticks) cell =
      (some copy.value, { cell with copy := some copy }) := by
    unfold Cell.transientStep
    rw [held]
    rfl
  unfold PermutiveBus.readValue onTransient
  rw [Program.perform_bind, run_transient, first]
  rfl

theorem readValue_missed (key : Bytes) (missed : remains (clock ticks) cell.copy = none) :
    Cell.transientStep (.readValue key) (clock ticks) cell = (none, { cell with copy := none }) := by
  unfold Cell.transientStep
  rw [missed]
  rfl

theorem run_readValue_miss (sound : cell.poisoned = false) (key : Bytes)
    (missed : remains (clock ticks) cell.copy = none) (noRow : cell.row = none) :
    run oneCell clock (PermutiveBus.readValue key) ticks cell =
      ⟨some none, ticks + 2, { cell with copy := none }⟩ := by
  unfold PermutiveBus.readValue onTransient
  rw [Program.perform_bind, run_transient, readValue_missed clock key missed]
  rcases cell with ⟨copy, row, usable, poisoned⟩
  cases sound
  cases noRow
  rfl

theorem run_readValue_promote (sound : cell.poisoned = false) (key : Bytes)
    (missed : remains (clock ticks) cell.copy = none) {value : Bytes}
    (row : cell.row = some value) :
    run oneCell clock (PermutiveBus.readValue key) ticks cell =
      ⟨some (some value), ticks + 4,
        { cell with
          copy := some ⟨value, some (clock (ticks + 3) + fromSecs cachePromotionSeconds)⟩ }⟩ := by
  unfold PermutiveBus.readValue onTransient
  rw [Program.perform_bind, run_transient, readValue_missed clock key missed]
  rcases cell with ⟨copy, row, usable, poisoned⟩
  cases sound
  cases row
  rfl

theorem run_writeValue (sound : cell.poisoned = false) (usable : cell.usable = true)
    (key value : Bytes) :
    run oneCell clock (PermutiveBus.writeValue key value) ticks cell =
      ⟨some (), ticks + 2, { cell with copy := none, row := some value }⟩ := by
  rcases cell with ⟨copy, row, usable, poisoned⟩
  cases sound
  cases usable
  rfl

theorem run_writeValue_panic (sound : cell.poisoned = false) (unusable : cell.usable = false)
    (key value : Bytes) :
    run oneCell clock (PermutiveBus.writeValue key value) ticks cell =
      ⟨none, ticks + 1, { cell with poisoned := true }⟩ := by
  rcases cell with ⟨copy, row, usable, poisoned⟩
  cases sound
  cases unusable
  rfl

theorem run_deleteValue (sound : cell.poisoned = false) (key : Bytes) :
    run oneCell clock (PermutiveBus.deleteValue key) ticks cell =
      ⟨some (), ticks + 2, { cell with copy := none, row := none }⟩ := by
  rcases cell with ⟨copy, row, usable, poisoned⟩
  cases sound
  rfl

theorem run_deleteValueIfMatch (sound : cell.poisoned = false) (key expected : Bytes) :
    run oneCell clock (PermutiveBus.deleteValueIfMatch key expected) ticks cell =
      ⟨some (decide ((remains (clock ticks) cell.copy).map Entry.value = some expected) ||
          decide (cell.row = some expected)),
        ticks + 2,
        { cell with
          copy :=
            if (remains (clock ticks) cell.copy).map Entry.value = some expected then none
            else remains (clock ticks) cell.copy
          row := if cell.row = some expected then none else cell.row }⟩ := by
  have first : Cell.transientStep (.deleteValueIfMatch key expected) (clock ticks) cell =
      (decide ((remains (clock ticks) cell.copy).map Entry.value = some expected),
        { cell with
          copy :=
            if (remains (clock ticks) cell.copy).map Entry.value = some expected then none
            else remains (clock ticks) cell.copy }) := by
    unfold Cell.transientStep
    by_cases matched : (remains (clock ticks) cell.copy).map Entry.value = some expected
    · simp only [matched, decide_true, if_true]
    · simp only [matched, decide_false, if_false]
  have second : ∀ copy, Cell.persistentStep (.deleteValueIfMatch key expected)
        { cell with copy := copy } =
      (some (decide (cell.row = some expected)),
        { cell with
          copy := copy
          row := if cell.row = some expected then none else cell.row }) := by
    intro copy
    unfold Cell.persistentStep Cell.locked
    simp only [sound, Bool.false_eq_true, if_false]
    by_cases matched : cell.row = some expected
    · simp only [matched, decide_true, if_true]
    · simp only [matched, decide_false, if_false]
  unfold PermutiveBus.deleteValueIfMatch onTransient
  rw [Program.perform_bind, run_transient, first]
  exact run_persistent clock _ _ _ (second _)

theorem run_writeTtl_move (sound : cell.poisoned = false) (key : Bytes) (duration : Duration)
    {value : Bytes} (row : cell.row = some value) :
    run oneCell clock (PermutiveBus.writeTtl key duration) ticks cell =
      ⟨some (), ticks + 4,
        { cell with copy := some ⟨value, some (clock (ticks + 3) + duration)⟩, row := none }⟩ := by
  rcases cell with ⟨copy, row, usable, poisoned⟩
  cases sound
  cases row
  rfl

theorem run_writeTtl_stay (sound : cell.poisoned = false) (key : Bytes) (duration : Duration)
    (noRow : cell.row = none) :
    run oneCell clock (PermutiveBus.writeTtl key duration) ticks cell =
      ⟨some (), ticks + 2,
        { cell with
          copy := (remains (clock (ticks + 1)) cell.copy).map
            (fun copy => ⟨copy.value, some (clock (ticks + 1) + duration)⟩) }⟩ := by
  rcases cell with ⟨copy, row, usable, poisoned⟩
  cases sound
  cases noRow
  rfl

theorem run_writeValueWithTtl (sound : cell.poisoned = false) (key value : Bytes)
    (duration : Duration) :
    run oneCell clock (PermutiveBus.writeValueWithTtl key value duration) ticks cell =
      ⟨some (), ticks + 2,
        { cell with copy := some ⟨value, some (clock (ticks + 1) + duration)⟩, row := none }⟩ := by
  rcases cell with ⟨copy, row, usable, poisoned⟩
  cases sound
  rfl

/-- Every copy there is has a deadline. -/
def Cell.Timed (cell : Cell) : Prop :=
  ∀ held, cell.copy = some held → held.deadline.isSome = true

theorem Cell.Timed.remains {now : Instant} (timed : cell.Timed) {row : Option Bytes}
    {usable poisoned : Bool} :
    Cell.Timed ⟨ExpiringMap.remains now cell.copy, row, usable, poisoned⟩ := by
  intro held found
  exact timed held (ExpiringMap.remains_eq_some.mp found).1

private theorem timed_of_deadline (value : Bytes) (deadline : Instant) {row : Option Bytes}
    {usable poisoned : Bool} :
    Cell.Timed ⟨some ⟨value, some deadline⟩, row, usable, poisoned⟩ := by
  intro held found
  cases found
  rfl

private theorem timed_of_none {row : Option Bytes} {usable poisoned : Bool} :
    Cell.Timed ⟨none, row, usable, poisoned⟩ := by
  intro held found
  cases found

private theorem run_timed (sound : cell.poisoned = false) {request : DataBusCall} {key : Bytes}
    (about : request.key? = some key)
    (usable : ∀ key value, request = .writeValue key value → cell.usable = true)
    (timed : cell.Timed) :
    (run oneCell clock (PermutiveBus.call request) ticks cell).state.Timed := by
  cases request with
  | findByPrefix stem => cases about
  | readValue key =>
      change (run oneCell clock (PermutiveBus.readValue key) ticks cell).state.Timed
      cases current : remains (clock ticks) cell.copy with
      | some copy =>
          rw [run_readValue_hit clock key current, ← current]
          exact timed.remains
      | none =>
          cases row : cell.row with
          | none =>
              rw [run_readValue_miss clock sound key current row]
              exact timed_of_none
          | some value =>
              rw [run_readValue_promote clock sound key current row]
              exact timed_of_deadline value _
  | writeValue key value =>
      change (run oneCell clock (PermutiveBus.writeValue key value) ticks cell).state.Timed
      rw [run_writeValue clock sound (usable key value rfl)]
      exact timed_of_none
  | deleteValue key =>
      change (run oneCell clock (PermutiveBus.deleteValue key) ticks cell).state.Timed
      rw [run_deleteValue clock sound]
      exact timed_of_none
  | deleteValueIfMatch key expected =>
      change (run oneCell clock (PermutiveBus.deleteValueIfMatch key expected) ticks
        cell).state.Timed
      rw [run_deleteValueIfMatch clock sound]
      split
      · exact timed_of_none
      · exact timed.remains
  | writeTtl key duration =>
      change (run oneCell clock (PermutiveBus.writeTtl key duration) ticks cell).state.Timed
      cases row : cell.row with
      | some value =>
          rw [run_writeTtl_move clock sound key duration row]
          exact timed_of_deadline value _
      | none =>
          rw [run_writeTtl_stay clock sound key duration row]
          intro held found
          rcases Option.map_eq_some_iff.mp found with ⟨copy, -, same⟩
          cases same
          rfl
  | writeValueWithTtl key value duration =>
      change (run oneCell clock (PermutiveBus.writeValueWithTtl key value duration) ticks
        cell).state.Timed
      rw [run_writeValueWithTtl clock sound]
      exact timed_of_deadline value _
  | readTtlRemaining key => exact timed.remains

end Methods

/-! ### Calls about the key -/

/-- The call returned; reply and cell are those of the map, stepped at the call's
effective reading. -/
structure Answered (clock : Nat → Instant) (request : DataBusCall) (ticks : Nat)
    (entry : Option (Entry Bytes Instant)) (outcome : Outcome Cell request.Reply) : Prop where
  goesOn : ticks < outcome.ticks
  sound : outcome.state.poisoned = false
  reply : ∃ reply, outcome.result = some reply ∧ (Compared request → reply =
    (Cell.transientStep request (clock (effectTick request ticks outcome.ticks))
      (entryCell entry)).1)
  matched : outcome.state.Matches (clock outcome.ticks)
    (Cell.transientStep request (clock (effectTick request ticks outcome.ticks))
      (entryCell entry)).2.copy

section Calls

variable {clock : Nat → Instant} {ticks : Nat} {entry : Option (Entry Bytes Instant)}
  {cell : Cell}

private theorem readValue_answered (monotone : Monotone clock) (sound : cell.poisoned = false)
    (key : Bytes) (matched : cell.Matches (clock ticks) entry) :
    Answered clock (.readValue key) ticks entry
      (run oneCell clock (PermutiveBus.readValue key) ticks cell) := by
  have specified : (Cell.transientStep (.readValue key) (clock ticks) (entryCell entry)).1 =
      cell.value (clock ticks) := matched.value_eq.symm
  cases current : remains (clock ticks) cell.copy with
  | some copy =>
      rw [run_readValue_hit clock key current]
      refine ⟨Nat.lt_succ_self ticks, sound, ⟨some copy.value, rfl, fun _ => ?_⟩, ?_⟩
      · refine Eq.trans ?_ specified.symm
        unfold Cell.value
        rw [current]
      · rw [← current]
        exact (matched.purged.forget (Nat.le_refl _)).later_on (monotone (Nat.le_succ ticks))
  | none =>
      cases row : cell.row with
      | none =>
          rw [run_readValue_miss clock sound key current row]
          refine ⟨Nat.lt_add_of_pos_right (Nat.succ_pos 1), sound, ⟨none, rfl, fun _ => ?_⟩, ?_⟩
          · refine Eq.trans ?_ specified.symm
            unfold Cell.value
            rw [current, row]
          · rw [← current]
            exact (matched.purged.forget (Nat.le_refl _)).later_on
              (monotone (Nat.le_add_right ticks 2))
      | some value =>
          rw [run_readValue_promote clock sound key current row]
          refine ⟨Nat.lt_add_of_pos_right (Nat.succ_pos 3), sound,
            ⟨some value, rfl, fun _ => ?_⟩, ?_⟩
          · refine Eq.trans ?_ specified.symm
            unfold Cell.value
            rw [current, row]
          · rw [matched.stored value row, row]
            apply Cell.Matches.of_row
            intro held same
            cases same
            exact ⟨rfl, rfl⟩

private theorem writeValue_answered (sound : cell.poisoned = false) (usable : cell.usable = true)
    (key value : Bytes) :
    Answered clock (.writeValue key value) ticks entry
      (run oneCell clock (PermutiveBus.writeValue key value) ticks cell) := by
  rw [run_writeValue clock sound usable key value]
  refine ⟨Nat.lt_add_of_pos_right (Nat.succ_pos 1), sound, ⟨(), rfl, fun _ => rfl⟩, ?_⟩
  apply Cell.Matches.of_row
  intro held same
  cases same

private theorem deleteValue_answered (sound : cell.poisoned = false) (key : Bytes) :
    Answered clock (.deleteValue key) ticks entry
      (run oneCell clock (PermutiveBus.deleteValue key) ticks cell) := by
  rw [run_deleteValue clock sound key]
  refine ⟨Nat.lt_add_of_pos_right (Nat.succ_pos 1), sound, ⟨(), rfl, fun _ => rfl⟩, ?_⟩
  exact Cell.Matches.of_copy rfl

private theorem copy_matches_row {now : Instant} {value expected : Bytes}
    (matched : cell.Matches now entry) (row : cell.row = some value) {held : Entry Bytes Instant}
    (current : remains now cell.copy = some held) :
    (some held).map Entry.value = some expected ↔ value = expected := by
  have sameValue := (matched.cached value held row (ExpiringMap.remains_eq_some.mp current).1).1
  rw [Option.map_some, sameValue, Option.some_inj]

private theorem deleteValueIfMatch_hit {now : Instant} (key : Bytes) {expected : Bytes}
    (found : (remains now cell.copy).map Entry.value = some expected) :
    Cell.transientStep (.deleteValueIfMatch key expected) now cell =
      (true, { cell with copy := none }) := if_pos found

private theorem deleteValueIfMatch_pass {now : Instant} (key : Bytes) {expected : Bytes}
    (differs : (remains now cell.copy).map Entry.value ≠ some expected) :
    Cell.transientStep (.deleteValueIfMatch key expected) now cell =
      (false, { cell with copy := remains now cell.copy }) := if_neg differs

private theorem deleteValueIfMatch_answered (monotone : Monotone clock)
    (sound : cell.poisoned = false)
    (key expected : Bytes) (matched : cell.Matches (clock ticks) entry) :
    Answered clock (.deleteValueIfMatch key expected) ticks entry
      (run oneCell clock (PermutiveBus.deleteValueIfMatch key expected) ticks cell) := by
  rw [run_deleteValueIfMatch clock sound key expected]
  have goesOn : ticks < ticks + 2 := Nat.lt_add_of_pos_right (Nat.succ_pos 1)
  have kept := (matched.purged.forget (Nat.le_refl _)).later_on
    (monotone (Nat.le_add_right ticks 2))
  by_cases found : (remains (clock ticks) entry).map Entry.value = some expected
  · -- the copy holds the value, or the row does, or both
    have specified : _ = (true, entryCell none) :=
      @deleteValueIfMatch_hit (entryCell entry) (clock ticks) key expected found
    refine ⟨goesOn, sound, ⟨_, rfl, fun _ => ?_⟩, ?_⟩
    · simp only [effectTick, specified]
      cases row : cell.row with
      | none => rw [matched.alone row, found, decide_eq_true rfl, Bool.true_or]
      | some value =>
          rw [matched.stored value row] at found
          have same : some value = some expected := found
          rw [same, decide_eq_true rfl, Bool.or_true]
    · simp only [effectTick, specified]
      cases row : cell.row with
      | none =>
          rw [matched.alone row, if_pos found, if_neg (fun same => by cases same)]
          exact Cell.Matches.of_copy rfl
      | some value =>
          rw [matched.stored value row] at found
          have same : some value = some expected := found
          rw [if_pos same]
          cases current : remains (clock ticks) cell.copy with
          | none =>
              rw [if_neg (fun same => by cases same)]
              exact Cell.Matches.of_copy rfl
          | some held =>
              rw [if_pos ((copy_matches_row matched row current).mpr (Option.some_inj.mp same))]
              exact Cell.Matches.of_copy rfl
  · have specified : _ = (false, entryCell (remains (clock ticks) entry)) :=
      @deleteValueIfMatch_pass (entryCell entry) (clock ticks) key expected found
    have copyDiffers : (remains (clock ticks) cell.copy).map Entry.value ≠ some expected := by
      cases row : cell.row with
      | none => exact matched.alone row ▸ found
      | some value =>
          cases current : remains (clock ticks) cell.copy with
          | none => exact fun same => by cases same
          | some held =>
              intro same
              apply found
              rw [matched.stored value row]
              exact congrArg some ((copy_matches_row matched row current).mp same)
    have rowDiffers : cell.row ≠ some expected := by
      intro same
      apply found
      rw [matched.stored expected same]
      rfl
    rw [if_neg copyDiffers, if_neg rowDiffers]
    refine ⟨goesOn, sound, ⟨_, rfl, fun _ => ?_⟩, ?_⟩
    · simp only [effectTick, specified]
      rw [decide_eq_false copyDiffers, decide_eq_false rowDiffers]
      rfl
    · simp only [effectTick, specified]
      exact kept

private theorem writeTtl_answered (monotone : Monotone clock) (sound : cell.poisoned = false)
    (key : Bytes) (duration : Duration) (matched : cell.Matches (clock ticks) entry) :
    Answered clock (.writeTtl key duration) ticks entry
      (run oneCell clock (PermutiveBus.writeTtl key duration) ticks cell) := by
  cases row : cell.row with
  | some value =>
      rw [run_writeTtl_move clock sound key duration row, matched.stored value row]
      refine ⟨Nat.lt_add_of_pos_right (Nat.succ_pos 3), sound, ⟨(), rfl, fun _ => rfl⟩, ?_⟩
      exact Cell.Matches.of_copy rfl
  | none =>
      rw [run_writeTtl_stay clock sound key duration row]
      refine ⟨Nat.lt_add_of_pos_right (Nat.succ_pos 1), sound, ⟨(), rfl, fun _ => rfl⟩, ?_⟩
      have same := (matched.later_on (monotone (Nat.le_succ ticks))).alone row
      rw [row, same]
      exact Cell.Matches.of_copy rfl

private theorem writeValueWithTtl_answered (sound : cell.poisoned = false) (key value : Bytes)
    (duration : Duration) :
    Answered clock (.writeValueWithTtl key value duration) ticks entry
      (run oneCell clock (PermutiveBus.writeValueWithTtl key value duration) ticks cell) := by
  rw [run_writeValueWithTtl clock sound key value duration]
  refine ⟨Nat.lt_add_of_pos_right (Nat.succ_pos 1), sound, ⟨(), rfl, fun _ => rfl⟩, ?_⟩
  exact Cell.Matches.of_copy rfl

private theorem readTtlRemaining_answered (monotone : Monotone clock)
    (sound : cell.poisoned = false)
    (key : Bytes) (matched : cell.Matches (clock ticks) entry) :
    Answered clock (.readTtlRemaining key) ticks entry
      (run oneCell clock (PermutiveBus.readTtlRemaining key) ticks cell) where
  goesOn := Nat.lt_succ_self ticks
  sound := sound
  reply := ⟨_, rfl, fun compared => compared.elim⟩
  matched := (matched.purged.forget (Nat.le_refl _)).later_on (monotone (Nat.le_succ ticks))

/-- A call about the key of a sound cell returns, unless it is a write that cannot
open the database. -/
theorem call_answered (monotone : Monotone clock) {request : DataBusCall} {key : Bytes}
    (about : request.key? = some key) (sound : cell.poisoned = false)
    (usable : ∀ key value, request = .writeValue key value → cell.usable = true)
    (matched : cell.Matches (clock ticks) entry) :
    Answered clock request ticks entry
      (run oneCell clock (PermutiveBus.call request) ticks cell) := by
  cases request with
  | findByPrefix stem => cases about
  | readValue key => exact readValue_answered monotone sound key matched
  | writeValue key value => exact writeValue_answered sound (usable key value rfl) key value
  | deleteValue key => exact deleteValue_answered sound key
  | deleteValueIfMatch key expected =>
      exact deleteValueIfMatch_answered monotone sound key expected matched
  | writeTtl key duration => exact writeTtl_answered monotone sound key duration matched
  | writeValueWithTtl key value duration =>
      exact writeValueWithTtl_answered sound key value duration
  | readTtlRemaining key => exact readTtlRemaining_answered monotone sound key matched

end Calls

namespace SqliteBus

private theorem step_nothingHidden (site : Site) (request : DataBusCall) {bus : SqliteBus}
    (nothingHidden : bus.NothingHidden site) : (step site request bus).2.NothingHidden site := by
  apply step_keeps site (NothingHidden site) request nothingHidden
  · intro about written key closed
    rcases writeConnection_stored site bus (namespaceOf about) key with ⟨same, wasClosed⟩
    rw [same]
    exact nothingHidden key (wasClosed closed)
  · intro middle about file change asked found changes hidden key closed
    rw [updateTable_databases] at closed
    have different : about ≠ key := by
      intro same
      rw [same, closed] at found
      cases found
    rw [updateTable_stored site changes different]
    exact hidden key closed

private theorem step_row_other (site : Site) {request : DataBusCall} {key : Bytes}
    (other : request.key? ≠ some key) {bus : SqliteBus} (nothingHidden : bus.NothingHidden site) :
    (step site request bus).2.row key = bus.row key := by
  rw [(step_nothingHidden site request nothingHidden).row_eq, nothingHidden.row_eq,
    (step_other site other bus).1]

end SqliteBus

def NotAboutKey (key : Bytes) (call : TierCall) : Prop :=
  call.request.key? ≠ some key

theorem call_uses_other {request : DataBusCall} {key : Bytes} (other : request.key? ≠ some key) :
    (PermutiveBus.call request).Uses (NotAboutKey key) := by
  cases asked : request.key? with
  | some about =>
      apply (call_uses asked).mono
      intro call same different
      exact other (asked.trans (same.symm.trans different))
  | none =>
      cases request with
      | findByPrefix stem => exact ⟨other, fun _ => ⟨other, fun _ => trivial⟩⟩
      | readValue key => cases asked
      | writeValue key value => cases asked
      | deleteValue key => cases asked
      | deleteValueIfMatch key expected => cases asked
      | writeTtl key duration => cases asked
      | writeValueWithTtl key value duration => cases asked
      | readTtlRemaining key => cases asked

structure SqliteBus.Whole (site : Site) (bus : SqliteBus) : Prop where
  attached : bus.Attached
  nothingHidden : bus.NothingHidden site

theorem bothTiers_whole (site : Site) (call : TierCall) (now : Instant) (bus : PermutiveBus)
    (whole : bus.persistent.Whole site) :
    ((bothTiers site).step call now bus).2.persistent.Whole site := by
  rcases call with ⟨tier, request⟩
  cases tier with
  | transient => exact whole
  | persistent =>
      exact ⟨SqliteBus.step_attached site request bus.persistent whole.attached,
        SqliteBus.step_nothingHidden site request whole.nothingHidden⟩

section Other

variable {site : Site} {clock : Nat → Instant} {ticks : Nat} {bus : PermutiveBus} {key : Bytes}
  {entry : Option (Entry Bytes Instant)}

private theorem bothTiers_matches_other (monotone : Monotone clock) {call : TierCall}
    (other : call.request.key? ≠ some key) (whole : bus.persistent.Whole site)
    (matched : (bus.cell site key).Matches (clock ticks) entry) :
    (((bothTiers site).step call (clock ticks) bus).2.cell site key).Matches
      (clock (ticks + 1)) entry := by
  rcases call with ⟨tier, request⟩
  apply Cell.Matches.later_on _ (monotone (Nat.le_succ ticks))
  cases tier with
  | transient =>
      have purged := matched.purged
      have copy : (SoundTric.step request (clock ticks) bus.transient).2.contents[key]? =
          remains (clock ticks) bus.transient.contents[key]? := by
        rw [SoundTric.step_contents, Reference.step_other other]
      exact {
        stored := purged.stored
        cached := by
          intro value held row found
          exact purged.cached value held row (copy.symm.trans found)
        alone := by
          intro noRow
          exact (congrArg (remains (clock ticks)) copy).trans (purged.alone noRow) }
  | persistent =>
      have row : (SqliteBus.step site request bus.persistent).2.row key =
          bus.persistent.row key :=
        SqliteBus.step_row_other site other whole.nothingHidden
      exact {
        stored := fun value found => matched.stored value (row.symm.trans found)
        cached := fun value held found =>
          matched.cached value held (row.symm.trans found)
        alone := fun noRow => matched.alone (row.symm.trans noRow) }

theorem run_matches_other (monotone : Monotone clock) {request : DataBusCall}
    (other : request.key? ≠ some key) (whole : bus.persistent.Whole site)
    (matched : (bus.cell site key).Matches (clock ticks) entry) :
    ((run (bothTiers site) clock (PermutiveBus.call request) ticks bus).state.cell site
      key).Matches
      (clock (run (bothTiers site) clock (PermutiveBus.call request) ticks bus).ticks) entry :=
  (run_uses_invariant (bothTiers site) clock
    (fun ticks bus => bus.persistent.Whole site ∧
      (bus.cell site key).Matches (clock ticks) entry)
    (fun call ticks bus away both =>
      ⟨bothTiers_whole site call (clock ticks) bus both.1,
        bothTiers_matches_other monotone away both.1 both.2⟩)
    (call_uses_other other) ⟨whole, matched⟩).2

theorem run_findByPrefix (site : Site) (clock : Nat → Instant) (ticks : Nat)
    {bus : PermutiveBus} (sound : bus.persistent.poisoned = false) (stem : Bytes) :
    run (bothTiers site) clock (PermutiveBus.findByPrefix stem) ticks bus =
      ⟨some (mergeResults
          (SoundTric.step (.findByPrefix stem) (clock ticks) bus.transient).1
          (bus.persistent.listing stem)),
        ticks + 2,
        { bus with
          transient := (SoundTric.step (.findByPrefix stem) (clock ticks) bus.transient).2 }⟩ := by
  have second : ∀ transient, (bothTiers site).step ⟨.persistent, .findByPrefix stem⟩
      (clock (ticks + 1)) { bus with transient := transient } =
      (some (bus.persistent.listing stem), { bus with transient := transient }) := by
    intro transient
    simp only [bothTiers, SqliteBus.step, SqliteBus.findByPrefix, SqliteBus.locked, sound,
      Bool.false_eq_true, if_false]
  exact run_call_reply (bothTiers site) clock (second _)

private theorem run_timed_other {request : DataBusCall} (other : request.key? ≠ some key)
    (timed : (bus.cell site key).Timed) :
    ((run (bothTiers site) clock (PermutiveBus.call request) ticks bus).state.cell site
      key).Timed := by
  apply run_uses_invariant (bothTiers site) clock (fun _ bus => (bus.cell site key).Timed) _
    (call_uses_other other) timed
  intro call ticks bus away timed
  rcases call with ⟨tier, request⟩
  cases tier with
  | transient =>
      intro held found
      change (SoundTric.step request (clock ticks) bus.transient).2.contents[key]? = some held
        at found
      rw [SoundTric.step_contents, Reference.step_other away] at found
      exact timed held (ExpiringMap.remains_eq_some.mp found).1
  | persistent => exact timed

end Other

/-! ### Whole runs -/

/-- A bus on which no call has panicked, beside the map it stands for. -/
structure Tracked (site : Site) (clock : Nat → Instant) (contents : Reference) (ticks : Nat)
    (bus : PermutiveBus) : Prop where
  sound : bus.persistent.poisoned = false
  whole : bus.persistent.Whole site
  matched : ∀ key, (bus.cell site key).Matches (clock ticks) contents[key]?

namespace Tracked

variable {site : Site} {clock : Nat → Instant} {contents : Reference} {ticks : Nat}
  {bus : PermutiveBus} {request : DataBusCall}

theorem answered (tracked : Tracked site clock contents ticks bus) (monotone : Monotone clock)
    {key : Bytes} (about : request.key? = some key)
    (usable : ∀ key value, request = .writeValue key value →
      bus.persistent.usable site key = true) :
    Answered clock request ticks contents[key]?
      (run oneCell clock (PermutiveBus.call request) ticks (bus.cell site key)) := by
  apply call_answered monotone about tracked.sound _ (tracked.matched key)
  intro written value same
  subst same
  cases about
  exact usable key value rfl

theorem effectTick_le (request : DataBusCall) {later : Nat} (goesOn : ticks ≤ later) :
    effectTick request ticks later ≤ later := by
  cases request <;> first | exact goesOn | exact Nat.sub_le later 1

private theorem matched_other (tracked : Tracked site clock contents ticks bus)
    (monotone : Monotone clock) (request : DataBusCall) (key : Bytes)
    (other : request.key? ≠ some key) :
    ((run (bothTiers site) clock (PermutiveBus.call request) ticks bus).state.cell site
      key).Matches
      (clock (run (bothTiers site) clock (PermutiveBus.call request) ticks bus).ticks)
      (Reference.step request (clock (effectTick request ticks
        (run (bothTiers site) clock (PermutiveBus.call request) ticks bus).ticks))
          contents).2[key]? := by
  rw [Reference.step_other other]
  apply (run_matches_other monotone other tracked.whole (tracked.matched key)).forget
  exact monotone (effectTick_le request (run_ticks_le (bothTiers site) clock _ ticks bus))

private theorem whole_after (tracked : Tracked site clock contents ticks bus)
    (request : DataBusCall) :
    (run (bothTiers site) clock (PermutiveBus.call request) ticks bus).state.persistent.Whole
      site :=
  run_invariant (bothTiers site) clock (fun bus => bus.persistent.Whole site)
    (bothTiers_whole site) _ ticks bus tracked.whole

/-- A call that can open its database returns; the bus then stands for the map stepped
at the call's effective reading. -/
theorem call (tracked : Tracked site clock contents ticks bus) (monotone : Monotone clock)
    (usable : ∀ key value, request = .writeValue key value →
      bus.persistent.usable site key = true) :
    ∃ reply later after,
      run (bothTiers site) clock (PermutiveBus.call request) ticks bus =
        ⟨some reply, later, after⟩ ∧ ticks < later ∧
      (Compared request → request.key? ≠ none → reply =
        (Reference.step request (clock (effectTick request ticks later)) contents).1) ∧
      Tracked site clock
        (Reference.step request (clock (effectTick request ticks later)) contents).2
        later after := by
  have others := tracked.matched_other monotone request
  have whole := tracked.whole_after request
  cases asked : request.key? with
  | some key =>
      have answered := tracked.answered monotone asked usable
      rw [run_cell site clock asked ticks tracked.whole.attached] at answered
      rcases ran : run (bothTiers site) clock (PermutiveBus.call request) ticks bus with
        ⟨result, later, after⟩
      rw [ran] at answered others whole
      rcases answered.reply with ⟨reply, returned, same⟩
      cases returned
      have specified := Reference.step_cell asked
        (clock (effectTick request ticks later)) contents (entryCell contents[key]?) rfl
      refine ⟨reply, later, after, rfl, answered.goesOn, ?_, answered.sound, whole, ?_⟩
      · intro compared _
        exact (same compared).trans specified.1.symm
      · intro about
        by_cases mine : key = about
        · subst mine
          have entry : (Reference.step request (clock (effectTick request ticks later))
              contents).2[key]? = _ := congrArg Cell.copy specified.2
          rw [entry]
          exact answered.matched
        · exact others about (fun same => mine (Option.some_inj.mp (asked.symm.trans same)))
  | none =>
      cases request with
      | findByPrefix stem =>
          have ran := run_findByPrefix site clock ticks tracked.sound stem
          change run (bothTiers site) clock (PermutiveBus.call (.findByPrefix stem)) ticks bus = _
            at ran
          rw [ran] at others whole
          refine ⟨_, ticks + 2, _, ran, Nat.lt_add_of_pos_right (Nat.succ_pos 1), ?_,
            tracked.sound, whole, fun about => others about (fun same => by cases same)⟩
          intro _ keyed
          exact absurd asked keyed
      | readValue key => cases asked
      | writeValue key value => cases asked
      | deleteValue key => cases asked
      | deleteValueIfMatch key expected => cases asked
      | writeTtl key duration => cases asked
      | writeValueWithTtl key value duration => cases asked
      | readTtlRemaining key => cases asked

theorem usable_of_returned (tracked : Tracked site clock contents ticks bus)
    {reply : request.Reply}
    (returned : (run (bothTiers site) clock (PermutiveBus.call request) ticks bus).result =
      some reply) :
    ∀ key value, request = .writeValue key value → bus.persistent.usable site key = true := by
  intro key value same
  subst same
  by_contra unusable
  have about : (DataBusCall.writeValue key value).key? = some key := rfl
  have onCell := run_cell site clock about ticks tracked.whole.attached
  have panicked := @run_writeValue_panic clock ticks (bus.cell site key) tracked.sound
    (Bool.not_eq_true _ ▸ unusable) key value
  have results := congrArg Outcome.result (panicked.symm.trans onCell)
  exact absurd (results.trans returned) (fun impossible => by cases impossible)

theorem timed_after (tracked : Tracked site clock contents ticks bus) {reply : request.Reply}
    (returned : (run (bothTiers site) clock (PermutiveBus.call request) ticks bus).result =
      some reply) {key : Bytes} (timed : (bus.cell site key).Timed) :
    ((run (bothTiers site) clock (PermutiveBus.call request) ticks bus).state.cell site
      key).Timed := by
  by_cases about : request.key? = some key
  · have usable := tracked.usable_of_returned returned
    have onCell := @run_timed clock ticks (bus.cell site key) tracked.sound request key about
      (by
        intro written value same
        subst same
        cases about
        exact usable key value rfl) timed
    rw [run_cell site clock about ticks tracked.whole.attached] at onCell
    exact onCell
  · exact run_timed_other about timed

theorem row_iff (tracked : Tracked site clock contents ticks bus) {key : Bytes}
    (timed : (bus.cell site key).Timed) (value : Bytes) :
    bus.persistent.row key = some value ↔ contents[key]? = some ⟨value, none⟩ := by
  have matched := tracked.matched key
  constructor
  · exact matched.stored value
  · intro lasting
    cases row : bus.persistent.row key with
    | some held =>
        have same := (matched.stored held row).symm.trans lasting
        cases same
        rfl
    | none =>
        -- the entry would be the copy, which has a deadline
        have copy := matched.alone row
        rw [lasting, ExpiringMap.remains_lasting, ExpiringMap.remains_eq_some] at copy
        cases timed _ copy.1

end Tracked

def effects (site : Site) (clock : Nat → Instant) :
    List DataBusCall → Nat → PermutiveBus → List (Instant × DataBusCall)
  | [], _, _ => []
  | request :: rest, ticks, bus =>
      let outcome := run (bothTiers site) clock (PermutiveBus.call request) ticks bus
      (clock (effectTick request ticks outcome.ticks), request) ::
        effects site clock rest outcome.ticks outcome.state

/-- In a run in which no call panics, what each call keeps is kept throughout, beside the
map of the calls so far. -/
theorem replay_invariant {site : Site} {clock : Nat → Instant}
    (inv : Reference → Nat → PermutiveBus → Prop)
    (kept : ∀ request reply contents ticks bus,
      (run (bothTiers site) clock (PermutiveBus.call request) ticks bus).result = some reply →
      inv contents ticks bus →
      inv (Reference.step request (clock (effectTick request ticks
          (run (bothTiers site) clock (PermutiveBus.call request) ticks bus).ticks)) contents).2
        (run (bothTiers site) clock (PermutiveBus.call request) ticks bus).ticks
        (run (bothTiers site) clock (PermutiveBus.call request) ticks bus).state)
    {requests : List DataBusCall} {ticks later : Nat} {bus last : PermutiveBus}
    {contents : Reference} {replies : List ((request : DataBusCall) × request.Reply)}
    (returned : replay site clock requests ticks bus = some (replies, later, last))
    (start : inv contents ticks bus) :
    inv (Reference.replay (effects site clock requests ticks bus) contents).2 later last := by
  induction requests generalizing ticks bus contents replies with
  | nil =>
      cases returned
      exact start
  | cons request rest ih =>
      rcases ran : run (bothTiers site) clock (PermutiveBus.call request) ticks bus with
        ⟨result, middle, after⟩
      cases result with
      | none =>
          simp only [replay, ran] at returned
          cases returned
      | some reply =>
          simp only [replay, ran, Option.bind_eq_bind, Option.bind_eq_some_iff] at returned
          rcases returned with ⟨⟨restReplies, ended⟩, restReturned, same⟩
          cases same
          have next := kept request reply contents ticks bus (by rw [ran]) start
          rw [ran] at next
          have goal := ih restReturned next
          simp only [effects, ran, Reference.replay]
          exact goal

theorem Tracked.replay {site : Site} {clock : Nat → Instant} (monotone : Monotone clock)
    {requests : List DataBusCall} {ticks later : Nat} {bus last : PermutiveBus}
    {contents : Reference} {replies : List ((request : DataBusCall) × request.Reply)}
    (returned : replay site clock requests ticks bus = some (replies, later, last))
    (tracked : Tracked site clock contents ticks bus) :
    Tracked site clock (Reference.replay (effects site clock requests ticks bus) contents).2
      later last := by
  apply replay_invariant (Tracked site clock) _ returned tracked
  intro request reply contents ticks bus returned tracked
  rcases tracked.call monotone (tracked.usable_of_returned returned) with
    ⟨reply, later, after, ran, -, -, trackedAfter⟩
  rw [ran]
  exact trackedAfter

end TricPlus
