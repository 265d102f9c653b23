import TricPlus.CompareAndDelete

/-!
A read of a key next to an update of the same key.

A read that misses the transient tier and finds a row writes a copy of it back.
If the update falls between, the copy it writes is the old value, and outlives
the update by up to a minute.
-/

namespace TricPlus

open AtomicProgram
open ExpiringMap (Entry remains)

inductive Update where
  | writeValue (value : Bytes)
  | writeValueWithTtl (value : Bytes) (duration : Duration)
  | deleteValue
  deriving DecidableEq

namespace Update

def run (key : Bytes) : Update → Program tiers Unit
  | .writeValue value => PermutiveBus.writeValue key value
  | .writeValueWithTtl value duration => PermutiveBus.writeValueWithTtl key value duration
  | .deleteValue => PermutiveBus.deleteValue key

def finish (key : Bytes) : Update → Program tiers Unit
  | .writeValue _ => onTransient (.deleteValue key)
  | .writeValueWithTtl value duration => onTransient (.writeValueWithTtl key value duration)
  | .deleteValue => onPersistent (.deleteValue key)

/-- What the update leaves when its last call is made at `moment`, as it is seen at
a later time: any copy agrees with the row, and a lifetime runs from that moment. -/
def Left (moment later : Instant) (cell : Cell) : Update → Prop
  | .writeValue value =>
      cell.row = some value ∧
        ∀ entry, remains later cell.copy = some entry → entry.value = value
  | .writeValueWithTtl value duration =>
      cell.row = none ∧
        remains later cell.copy = remains later (some ⟨value, some (moment + duration)⟩)
  | .deleteValue => cell.row = none ∧ remains later cell.copy = none

end Update

/-! ### How far the two calls have come -/

inductive Reader where
  | fresh
  | missed
  | fetched (value : Bytes)
  | written (value : Bytes)
  | settled (moment : Instant)
  | panicked

inductive Updater where
  | fresh
  | half
  | settled (moment : Instant)
  | panicked

def reading (key : Bytes) : Program tiers Unit := do
  let _ ← PermutiveBus.readValue key
  return ()

def keepCopy (key : Bytes) : Program tiers Unit :=
  onTransient (.writeTtl key (fromSecs cachePromotionSeconds))

def promote (key value : Bytes) : Program tiers Unit := do
  onTransient (.writeValue key value)
  keepCopy key

def readRow (key : Bytes) : Program tiers Unit := do
  match ← onPersistent (.readValue key) with
  | none => return ()
  | some value => promote key value

private theorem reading_eq (key : Bytes) :
    reading key = .call ⟨.transient, .readValue key⟩ (fun reply =>
      match reply with
      | some _ => .done ()
      | none => readRow key) := by
  change Program.call _ _ = _
  congr 1
  funext reply
  cases reply with
  | some value => rfl
  | none =>
      change Program.call _ _ = Program.call _ _
      congr 1
      funext reply
      cases reply <;> rfl

abbrev TimedProgram := Program (tiers.timed Instant) (Unit × Instant)

def Reader.program (key : Bytes) (start : Instant) : Reader → TimedProgram
  | .fresh => (reading key).timed start
  | .missed => (readRow key).timed start
  | .fetched value => (promote key value).timed start
  | .written _ => (keepCopy key).timed start
  | .settled moment => .done ((), moment)
  | .panicked => .panic

def Updater.program (key : Bytes) (update : Update) (start : Instant) : Updater → TimedProgram
  | .fresh => (update.run key).timed start
  | .half => (update.finish key).timed start
  | .settled moment => .done ((), moment)
  | .panicked => .panic

/-- A row the reader may fetch before the update starts. -/
def Harmless (update : Update) (row : Option Bytes) : Prop :=
  row = none ∨ ∃ value, update = .writeValue value ∧ row = some value

def HalfDone (now : Instant) (cell : Cell) : Update → Prop
  | .writeValue value => cell.row = some value
  | .writeValueWithTtl _ _ => cell.row = none
  | .deleteValue => remains now cell.copy = none

structure Undisturbed (update : Update) (now : Instant) (reader : Reader) (updater : Updater)
    (cell : Cell) : Prop where
  fetched : ∀ value, reader = .fetched value → update = .writeValue value
  written : ∀ value, reader = .written value → update = .writeValue value
  missed : updater = .fresh → reader = .missed → Harmless update cell.row
  fresh : updater = .fresh → reader = .fresh → Harmless update cell.row ∨
    (remains now cell.copy ≠ none ∧ update ≠ .deleteValue)
  half : updater = .half → HalfDone now cell update
  settled : ∀ moment, updater = .settled moment → update.Left moment now cell
  deleting : update = .deleteValue → cell.row = none

section Steps

variable {update : Update} {now later : Instant} {reader : Reader} {updater : Updater}
  {cell after : Cell} {key : Bytes} {start : Instant}

private theorem timed_transient (request : DataBusCall) (now : Instant) (cell : Cell) :
    oneCell.timed.step ⟨.transient, request⟩ now cell =
      (some ((Cell.transientStep request now cell).1, now),
        (Cell.transientStep request now cell).2) := rfl

private theorem timed_persistent (request : DataBusCall) (now : Instant) (cell : Cell) :
    oneCell.timed.step ⟨.persistent, request⟩ now cell =
      ((Cell.persistentStep request cell).1.map (fun reply => (reply, now)),
        (Cell.persistentStep request cell).2) := rfl

private theorem persistentStep_readValue (key : Bytes) (sound : cell.poisoned = false) :
    Cell.persistentStep (.readValue key) cell = (some cell.row, cell) := by
  simp only [Cell.persistentStep, Cell.locked, sound, Bool.false_eq_true, if_false]

private theorem persistentStep_readValue_poisoned (key : Bytes) (poisoned : cell.poisoned = true) :
    Cell.persistentStep (.readValue key) cell = (none, cell) := by
  simp only [Cell.persistentStep, Cell.locked, poisoned, if_true]

private theorem left_later {moment : Instant} (ordered : now ≤ later)
    (sameRow : after.row = cell.row)
    (sameCopy : remains later after.copy = remains later cell.copy)
    (left : update.Left moment now cell) : update.Left moment later after := by
  have aged := ExpiringMap.remains_remains ordered cell.copy
  cases update with
  | writeValue value =>
      refine ⟨sameRow.trans left.1, ?_⟩
      intro entry found
      rw [sameCopy] at found
      rcases ExpiringMap.remains_eq_some.mp found with ⟨same, live⟩
      exact left.2 entry
        (ExpiringMap.remains_eq_some.mpr ⟨same, ExpiringMap.Entry.live_of_le ordered live⟩)
  | writeValueWithTtl value duration =>
      refine ⟨sameRow.trans left.1, ?_⟩
      rw [sameCopy, ← aged, left.2, ExpiringMap.remains_remains ordered]
  | deleteValue =>
      refine ⟨sameRow.trans left.1, ?_⟩
      rw [sameCopy]
      exact remains_none_later ordered left.2

private theorem halfDone_later (ordered : now ≤ later) (sameRow : after.row = cell.row)
    (sameCopy : remains later after.copy = remains later cell.copy)
    (half : HalfDone now cell update) : HalfDone later after update := by
  cases update with
  | writeValue value => exact sameRow.trans half
  | writeValueWithTtl value duration => exact sameRow.trans half
  | deleteValue =>
      change remains later after.copy = none
      rw [sameCopy]
      exact remains_none_later ordered half

private theorem Undisturbed.fetches (inv : Undisturbed update now .missed updater cell)
    (running : updater ≠ .panicked) {value : Bytes} (row : cell.row = some value) :
    update = .writeValue value := by
  have fromRow : ∀ written, cell.row = some written → written = value := by
    intro written same
    rw [row] at same
    exact (Option.some.inj same).symm
  cases updater with
  | panicked => exact absurd rfl running
  | fresh =>
      rcases inv.missed rfl rfl with noRow | ⟨written, same, rowWritten⟩
      · rw [row] at noRow
        cases noRow
      · rw [same, fromRow written rowWritten]
  | half =>
      have half := inv.half rfl
      cases update with
      | writeValue written => rw [fromRow written half]
      | writeValueWithTtl written duration =>
          have noRow : cell.row = none := half
          rw [row] at noRow
          cases noRow
      | deleteValue =>
          rw [inv.deleting rfl] at row
          cases row
  | settled moment =>
      have left := inv.settled moment rfl
      cases update with
      | writeValue written => rw [fromRow written left.1]
      | writeValueWithTtl written duration =>
          rw [left.1] at row
          cases row
      | deleteValue =>
          rw [left.1] at row
          cases row

private theorem Undisturbed.pass (inv : Undisturbed update now reader updater cell)
    (ordered : now ≤ later) (sameRow : after.row = cell.row)
    (sameCopy : remains later after.copy = remains later cell.copy) {next : Reader}
    (moved : next ≠ .fresh)
    (fetched : ∀ value, next = .fetched value → update = .writeValue value)
    (written : ∀ value, next = .written value → update = .writeValue value)
    (missed : updater = .fresh → next = .missed → Harmless update cell.row) :
    Undisturbed update later next updater after where
  fetched := fetched
  written := written
  missed := fun fresh isMissed => sameRow ▸ missed fresh isMissed
  fresh := fun _ isFresh => absurd isFresh moved
  half := fun isHalf => halfDone_later ordered sameRow sameCopy (inv.half isHalf)
  settled := fun moment isSettled =>
    left_later ordered sameRow sameCopy (inv.settled moment isSettled)
  deleting := fun deletes => sameRow.trans (inv.deleting deletes)

private theorem reader_step (ordered : now ≤ later) (running : updater ≠ .panicked)
    (inv : Undisturbed update now reader updater cell) {request : TierCall}
    {next : (tiers.timed Instant).Reply request → TimedProgram}
    (called : reader.program key start = .call request next) :
    ∃ nextReader : Reader,
      Program.resume next (oneCell.timed.step request now cell).1 =
        nextReader.program key start ∧
      (nextReader = .panicked ∨
        Undisturbed update later nextReader updater (oneCell.timed.step request now cell).2) := by
  cases reader with
  | settled moment => cases called
  | panicked => cases called
  | fresh =>
      rw [Reader.program, reading_eq] at called
      cases called
      have sameRow : (Cell.transientStep (.readValue key) now cell).2.row = cell.row := rfl
      have sameCopy : remains later (Cell.transientStep (.readValue key) now cell).2.copy =
          remains later cell.copy := ExpiringMap.remains_remains ordered cell.copy
      cases held : remains now cell.copy with
      | some entry =>
          have answered : (Cell.transientStep (.readValue key) now cell).1 =
              some entry.value := congrArg (Option.map Entry.value) held
          rw [timed_transient, answered]
          refine ⟨.settled now, rfl, Or.inr (inv.pass ordered sameRow sameCopy ?_ ?_ ?_ ?_)⟩
          · exact fun same => by cases same
          · exact fun _ same => by cases same
          · exact fun _ same => by cases same
          · exact fun _ same => by cases same
      | none =>
          have answered : (Cell.transientStep (.readValue key) now cell).1 = none :=
            congrArg (Option.map Entry.value) held
          rw [timed_transient, answered]
          refine ⟨.missed, rfl, Or.inr (inv.pass ordered sameRow sameCopy ?_ ?_ ?_ ?_)⟩
          · exact fun same => by cases same
          · exact fun _ same => by cases same
          · exact fun _ same => by cases same
          · intro isFresh _
            rcases inv.fresh isFresh rfl with harmless | ⟨copied, -⟩
            · exact harmless
            · exact absurd held copied
  | missed =>
      cases called
      cases poisoned : cell.poisoned with
      | true =>
          rw [timed_persistent, persistentStep_readValue_poisoned key poisoned]
          exact ⟨.panicked, rfl, Or.inl rfl⟩
      | false =>
          rw [timed_persistent, persistentStep_readValue key poisoned]
          cases row : cell.row with
          | none =>
              refine ⟨.settled now, rfl, Or.inr (inv.pass ordered rfl rfl ?_ ?_ ?_ ?_)⟩
              · exact fun same => by cases same
              · exact fun _ same => by cases same
              · exact fun _ same => by cases same
              · exact fun _ same => by cases same
          | some value =>
              have writes := inv.fetches running row
              refine ⟨.fetched value, rfl, Or.inr (inv.pass ordered rfl rfl ?_ ?_ ?_ ?_)⟩
              · exact fun same => by cases same
              · intro other same
                cases same
                exact writes
              · exact fun _ same => by cases same
              · exact fun _ same => by cases same
  | fetched value =>
      cases called
      have writes := inv.fetched value rfl
      subst writes
      rw [timed_transient]
      refine ⟨.written value, rfl, Or.inr ?_⟩
      exact
        { fetched := fun _ same => by cases same
          written := fun other same => by cases same; rfl
          missed := fun _ same => by cases same
          fresh := fun _ same => by cases same
          half := fun isHalf => inv.half isHalf
          settled := fun moment isSettled => ⟨(inv.settled moment isSettled).1,
            fun entry found => by cases found; rfl⟩
          deleting := fun deletes => by cases deletes }
  | written value =>
      cases called
      have writes := inv.written value rfl
      subst writes
      rw [timed_transient]
      refine ⟨.settled now, rfl, Or.inr ?_⟩
      exact
        { fetched := fun _ same => by cases same
          written := fun _ same => by cases same
          missed := fun _ same => by cases same
          fresh := fun _ same => by cases same
          half := fun isHalf => inv.half isHalf
          settled := by
            intro moment isSettled
            refine ⟨(inv.settled moment isSettled).1, ?_⟩
            intro entry found
            rcases Option.map_eq_some_iff.mp (ExpiringMap.remains_eq_some.mp found).1 with
              ⟨before, held, same⟩
            rw [← same]
            exact (inv.settled moment isSettled).2 before held
          deleting := fun deletes => by cases deletes }

private theorem writeRow_cases (cell : Cell) (value : Bytes) :
    cell.writeRow value = (some (), { cell with row := some value }) ∨
      (cell.writeRow value).1 = none := by
  unfold Cell.writeRow
  cases cell.poisoned with
  | true => exact Or.inr rfl
  | false =>
      cases cell.usable with
      | true => exact Or.inl rfl
      | false => exact Or.inr rfl

private theorem deleteRow_cases (key : Bytes) (cell : Cell) :
    Cell.persistentStep (.deleteValue key) cell = (some (), { cell with row := none }) ∨
      (Cell.persistentStep (.deleteValue key) cell).1 = none := by
  simp only [Cell.persistentStep, Cell.locked]
  cases cell.poisoned with
  | true => exact Or.inr rfl
  | false => exact Or.inl rfl

theorem Undisturbed.moved (inv : Undisturbed update now reader updater cell)
    {next : Updater} (notFresh : next ≠ .fresh)
    (half : next = .half → HalfDone later after update)
    (settled : ∀ moment, next = .settled moment → update.Left moment later after)
    (deleting : update = .deleteValue → after.row = none) :
    Undisturbed update later reader next after where
  fetched := inv.fetched
  written := inv.written
  missed := fun fresh => absurd fresh notFresh
  fresh := fun fresh => absurd fresh notFresh
  half := half
  settled := settled
  deleting := deleting

private theorem updater_step (ordered : now ≤ later)
    (inv : Undisturbed update now reader updater cell) {request : TierCall}
    {next : (tiers.timed Instant).Reply request → TimedProgram}
    (called : updater.program key update start = .call request next) :
    ∃ nextUpdater : Updater,
      Program.resume next (oneCell.timed.step request now cell).1 =
        nextUpdater.program key update start ∧
      (nextUpdater = .panicked ∨
        Undisturbed update later reader nextUpdater (oneCell.timed.step request now cell).2) := by
  have halfIsHalf : ∀ {moment}, Updater.half ≠ .settled moment := fun same => by cases same
  cases updater with
  | settled moment => cases called
  | panicked => cases called
  | fresh =>
      cases update with
      | writeValue value =>
          cases called
          rcases writeRow_cases cell value with written | panicked
          · have answered : Cell.persistentStep (.writeValue key value) cell =
                (some (), { cell with row := some value }) := written
            rw [timed_persistent, answered]
            refine ⟨.half, rfl, Or.inr (inv.moved (fun same => by cases same) ?_ ?_ ?_)⟩
            · exact fun _ => rfl
            · exact fun _ same => absurd same halfIsHalf
            · exact fun same => by cases same
          · have answered : (Cell.persistentStep (.writeValue key value) cell).1 = none :=
              panicked
            rw [timed_persistent, answered]
            exact ⟨.panicked, rfl, Or.inl rfl⟩
      | writeValueWithTtl value duration =>
          cases called
          rcases deleteRow_cases key cell with deleted | panicked
          · rw [timed_persistent, deleted]
            refine ⟨.half, rfl, Or.inr (inv.moved (fun same => by cases same) ?_ ?_ ?_)⟩
            · exact fun _ => rfl
            · exact fun _ same => absurd same halfIsHalf
            · exact fun same => by cases same
          · rw [timed_persistent, panicked]
            exact ⟨.panicked, rfl, Or.inl rfl⟩
      | deleteValue =>
          cases called
          rw [timed_transient]
          refine ⟨.half, rfl, Or.inr (inv.moved (fun same => by cases same) ?_ ?_ ?_)⟩
          · exact fun _ => rfl
          · exact fun _ same => absurd same halfIsHalf
          · exact inv.deleting
  | half =>
      have done := inv.half rfl
      cases update with
      | writeValue value =>
          cases called
          rw [timed_transient]
          refine ⟨.settled now, rfl, Or.inr (inv.moved (fun same => by cases same) ?_ ?_ ?_)⟩
          · exact fun same => by cases same
          · exact fun _ _ => ⟨done, fun _ found => by cases found⟩
          · exact fun same => by cases same
      | writeValueWithTtl value duration =>
          cases called
          rw [timed_transient]
          refine ⟨.settled now, rfl, Or.inr (inv.moved (fun same => by cases same) ?_ ?_ ?_)⟩
          · exact fun same => by cases same
          · intro moment same
            cases same
            exact ⟨done, rfl⟩
          · exact fun same => by cases same
      | deleteValue =>
          cases called
          rcases deleteRow_cases key cell with deleted | panicked
          · rw [timed_persistent, deleted]
            refine ⟨.settled now, rfl, Or.inr (inv.moved (fun same => by cases same) ?_ ?_ ?_)⟩
            · exact fun same => by cases same
            · exact fun _ _ => ⟨rfl, remains_none_later ordered done⟩
            · exact fun _ => rfl
          · rw [timed_persistent, panicked]
            exact ⟨.panicked, rfl, Or.inl rfl⟩

end Steps

/-! ### When the update survives -/

/-- Whatever the order of the steps, once both calls have finished the key shows
what the update left. -/
def Survives (clock : Nat → Instant) (key : Bytes) (update : Update) (ticks : Nat)
    (cell : Cell) : Prop :=
  ∀ results later last,
    Interleaved oneCell.timed clock
      [(reading key).timed (clock ticks), (update.run key).timed (clock ticks)] ticks cell
      results later last →
    ∀ finished moment, results = [some ((), finished), some ((), moment)] →
      update.Left moment (clock later) last

section Survival

variable {clock : Nat → Instant} {key : Bytes} {update : Update} {ticks : Nat} {cell : Cell}

/-- The two calls in flight: one of them has panicked, or they are in the
invariant. -/
def InFlight (clock : Nat → Instant) (key : Bytes) (update : Update) (start : Instant)
    (first second : TimedProgram) (ticks : Nat) (cell : Cell) : Prop :=
  first = .panic ∨ second = .panic ∨ ∃ reader updater,
    first = Reader.program key start reader ∧
    second = Updater.program key update start updater ∧ updater ≠ .panicked ∧
    Undisturbed update (clock ticks) reader updater cell

private theorem reader_inFlight (monotone : Monotone clock) {start : Instant} (request : TierCall)
    (next : (tiers.timed Instant).Reply request → TimedProgram) (second : TimedProgram)
    (now : Nat) (cell : Cell)
    (inFlight : InFlight clock key update start (.call request next) second now cell) :
    InFlight clock key update start
      (.resume next (oneCell.timed.step request (clock now) cell).1) second (now + 1)
      (oneCell.timed.step request (clock now) cell).2 := by
  rcases inFlight with impossible | panicked | ⟨reader, updater, called, rfl, running, inv⟩
  · cases impossible
  · exact Or.inr (Or.inl panicked)
  · rcases reader_step (monotone (Nat.le_succ now)) running inv called.symm with
      ⟨nextReader, resumed, rfl | kept⟩
    · exact Or.inl resumed
    · exact Or.inr (Or.inr ⟨nextReader, updater, resumed, rfl, running, kept⟩)

private theorem updater_inFlight (monotone : Monotone clock) {start : Instant}
    (first : TimedProgram)
    (request : TierCall) (next : (tiers.timed Instant).Reply request → TimedProgram)
    (now : Nat) (cell : Cell)
    (inFlight : InFlight clock key update start first (.call request next) now cell) :
    InFlight clock key update start first
      (.resume next (oneCell.timed.step request (clock now) cell).1) (now + 1)
      (oneCell.timed.step request (clock now) cell).2 := by
  rcases inFlight with panicked | impossible | ⟨reader, updater, rfl, called, running, inv⟩
  · exact Or.inl panicked
  · cases impossible
  · rcases updater_step (monotone (Nat.le_succ now)) inv called.symm with
      ⟨nextUpdater, resumed, panicked | kept⟩
    · subst panicked
      exact Or.inr (Or.inl resumed)
    · by_cases stopped : nextUpdater = .panicked
      · subst stopped
        exact Or.inr (Or.inl resumed)
      · exact Or.inr (Or.inr ⟨reader, nextUpdater, rfl, resumed, stopped, kept⟩)

private theorem survives_of_undisturbed (monotone : Monotone clock)
    (start : Undisturbed update (clock ticks) .fresh .fresh cell) :
    Survives clock key update ticks cell := by
  intro results later last interleaved finished moment same
  have started : InFlight clock key update (clock ticks) ((reading key).timed (clock ticks))
      ((update.run key).timed (clock ticks)) ticks cell :=
    Or.inr (Or.inr ⟨.fresh, .fresh, rfl, rfl, (fun impossible => by cases impossible), start⟩)
  rcases interleaved.pair_invariant (InFlight clock key update (clock ticks))
    (reader_inFlight monotone) (updater_inFlight monotone) started with
    ⟨readerResult, updaterResult, pair, ended⟩
  rw [same] at pair
  rcases List.cons.inj pair with ⟨rfl, rest⟩
  rcases List.cons.inj rest with ⟨rfl, -⟩
  rcases ended with impossible | impossible | ⟨reader, updater, -, called, -, inv⟩
  · cases impossible
  · cases impossible
  · cases updater with
    | fresh => cases update <;> cases called
    | half => cases update <;> cases called
    | panicked => cases called
    | settled settledAt =>
        cases called
        exact inv.settled moment rfl

private theorem undisturbed_at_start
    (condition : cell.row = none ∨
      (remains (clock ticks) cell.copy ≠ none ∧ update ≠ .deleteValue) ∨
      ∃ value, update = .writeValue value ∧ cell.row = some value) :
    Undisturbed update (clock ticks) .fresh .fresh cell where
  fetched := fun _ same => by cases same
  written := fun _ same => by cases same
  missed := fun _ same => by cases same
  fresh := by
    intro _ _
    rcases condition with noRow | copied | sameValue
    · exact Or.inl (Or.inl noRow)
    · exact Or.inr copied
    · exact Or.inl (Or.inr sameValue)
  half := fun same => by cases same
  settled := fun _ same => by cases same
  deleting := by
    intro deletes
    rcases condition with noRow | ⟨-, different⟩ | ⟨value, writes, -⟩
    · exact noRow
    · exact absurd deletes different
    · rw [deletes] at writes
      cases writes

def promoted (value : Bytes) (now : Instant) : Option (Entry Bytes Instant) :=
  some ⟨value, some (now + fromSecs cachePromotionSeconds)⟩

private theorem promotion_completes (value : Bytes) (start : Instant)
    (result : Option (Unit × Instant)) :
    Interleaved oneCell.timed clock [(promote key value).timed start, .ended result] ticks cell
      [some ((), clock (ticks + 1)), result] (ticks + 2)
      { cell with copy := promoted value (clock (ticks + 1)) } := by
  refine .left_call (timed_transient _ _ _) ?_
  refine .left_call (timed_transient _ _ _) ?_
  exact .finished [some ((), clock (ticks + 1)), result] (ticks + 2) _

private theorem fetch_goes_on {value : Bytes} (sound : cell.poisoned = false)
    (row : cell.row = some value) {second : TimedProgram} {start : Instant} {results later last}
    (rest : Interleaved oneCell.timed clock [(promote key value).timed (clock ticks), second]
      (ticks + 1) cell results later last) :
    Interleaved oneCell.timed clock [(readRow key).timed start, second] ticks cell results
      later last := by
  refine .left_call (timed_persistent _ _ _) ?_
  rw [persistentStep_readValue key sound, row]
  exact rest

private theorem miss_goes_on (missed : remains (clock ticks) cell.copy = none)
    {second : TimedProgram}
    {start : Instant} {results later last}
    (rest : Interleaved oneCell.timed clock [(readRow key).timed (clock ticks), second]
      (ticks + 1) { cell with copy := none } results later last) :
    Interleaved oneCell.timed clock [(reading key).timed start, second] ticks cell results
      later last := by
  have answered : (Cell.transientStep (.readValue key) (clock ticks) cell).1 = none :=
    congrArg (Option.map Entry.value) missed
  have left : (Cell.transientStep (.readValue key) (clock ticks) cell).2 =
      { cell with copy := none } := congrArg (fun copy => { cell with copy := copy }) missed
  rw [reading_eq]
  refine .left_call (timed_transient _ _ _) ?_
  rw [answered, left]
  exact rest

private theorem stale_write {old : Bytes} (value : Bytes) (sound : cell.poisoned = false)
    (usable : cell.usable = true) (missed : remains (clock ticks) cell.copy = none)
    (row : cell.row = some old) (start : Instant) :
    Interleaved oneCell.timed clock
      [(reading key).timed start, ((Update.writeValue value).run key).timed start] ticks cell
      [some ((), clock (ticks + 5)), some ((), clock (ticks + 3))] (ticks + 6)
      { cell with copy := promoted old (clock (ticks + 5)), row := some value } := by
  have written : Cell.persistentStep (.writeValue key value) { cell with copy := none } =
      (some (), { cell with copy := none, row := some value }) := by
    simp only [Cell.persistentStep, Cell.writeRow, sound, usable, Bool.false_eq_true, if_false,
      if_true]
  have missedSound : ({ cell with copy := none } : Cell).poisoned = false := sound
  have missedRow : ({ cell with copy := none } : Cell).row = some old := row
  refine miss_goes_on missed ?_
  refine fetch_goes_on missedSound missedRow ?_
  refine .right_call (timed_persistent _ _ _) ?_
  rw [written]
  refine .right_call (timed_transient _ _ _) ?_
  exact promotion_completes old _ (some ((), clock (ticks + 3)))

private theorem stale_writeWithTtl {old value : Bytes} {duration : Duration}
    (sound : cell.poisoned = false) (missed : remains (clock ticks) cell.copy = none)
    (row : cell.row = some old) (start : Instant) :
    Interleaved oneCell.timed clock
      [(reading key).timed start,
        ((Update.writeValueWithTtl value duration).run key).timed start] ticks cell
      [some ((), clock (ticks + 5)), some ((), clock (ticks + 3))] (ticks + 6)
      { cell with copy := promoted old (clock (ticks + 5)), row := none } := by
  have deleted : Cell.persistentStep (.deleteValue key) { cell with copy := none } =
      (some (), { cell with copy := none, row := none }) := by
    simp only [Cell.persistentStep, Cell.locked, sound, Bool.false_eq_true, if_false]
  have missedSound : ({ cell with copy := none } : Cell).poisoned = false := sound
  have missedRow : ({ cell with copy := none } : Cell).row = some old := row
  refine miss_goes_on missed ?_
  refine fetch_goes_on missedSound missedRow ?_
  refine .right_call (timed_persistent _ _ _) ?_
  rw [deleted]
  refine .right_call (timed_transient _ _ _) ?_
  exact promotion_completes old _ (some ((), clock (ticks + 3)))

private theorem stale_delete {old : Bytes} (sound : cell.poisoned = false)
    (row : cell.row = some old) (start : Instant) :
    Interleaved oneCell.timed clock
      [(reading key).timed start, (Update.deleteValue.run key).timed start] ticks cell
      [some ((), clock (ticks + 5)), some ((), clock (ticks + 3))] (ticks + 6)
      { cell with copy := promoted old (clock (ticks + 5)), row := none } := by
  have deleted : Cell.persistentStep (.deleteValue key) { cell with copy := none } =
      (some (), { cell with copy := none, row := none }) := by
    simp only [Cell.persistentStep, Cell.locked, sound, Bool.false_eq_true, if_false]
  have missedSound : ({ cell with copy := none } : Cell).poisoned = false := sound
  have missedRow : ({ cell with copy := none } : Cell).row = some old := row
  refine .right_call (timed_transient _ _ _) ?_
  refine miss_goes_on rfl ?_
  refine fetch_goes_on missedSound missedRow ?_
  refine .right_call (timed_persistent _ _ _) ?_
  rw [deleted]
  exact promotion_completes old _ (some ((), clock (ticks + 3)))

private theorem remains_promoted {now later : Instant} (value : Bytes)
    (within : later < now + fromSecs cachePromotionSeconds) :
    remains later (promoted value now) = promoted value now := by
  unfold promoted
  rw [ExpiringMap.remains_some, ExpiringMap.Entry.live_some]
  simp only [within, decide_true, if_true]

/-- The clocks that agree with this one up to a reading. -/
def Continues (clock : Nat → Instant) (ticks : Nat) (future : Nat → Instant) : Prop :=
  Monotone future ∧ ∀ reading ≤ ticks, future reading = clock reading

/-- Time stands still for four readings, and then goes on by `pause`. -/
def pausing (clock : Nat → Instant) (ticks : Nat) (pause : Duration) (reading : Nat) : Instant :=
  if reading ≤ ticks then clock reading
  else if reading ≤ ticks + 4 then clock ticks
  else clock ticks + pause

private theorem continues_pausing (monotone : Monotone clock) (ticks : Nat) (pause : Duration) :
    Continues clock ticks (pausing clock ticks pause) := by
  constructor
  · intro first second ordered
    unfold pausing
    by_cases early : first ≤ ticks
    · rw [if_pos early]
      split
      · exact monotone ordered
      · split
        · exact monotone early
        · exact Nat.le_add_right_of_le (monotone early)
    · rw [if_neg early, if_neg (show ¬ second ≤ ticks by omega)]
      by_cases still : first ≤ ticks + 4
      · rw [if_pos still]
        split
        · exact Nat.le_refl _
        · exact Nat.le_add_right _ _
      · rw [if_neg still, if_neg (show ¬ second ≤ ticks + 4 by omega)]
  · intro reading early
    exact if_pos early

private theorem pausing_still (ticks : Nat) (pause : Duration) {reading : Nat}
    (after : ticks < reading)
    (still : reading ≤ ticks + 4) : pausing clock ticks pause reading = clock ticks := by
  unfold pausing
  rw [if_neg (by omega), if_pos still]

private theorem pausing_late (ticks : Nat) (pause : Duration) {reading : Nat}
    (late : ticks + 4 < reading) : pausing clock ticks pause reading = clock ticks + pause := by
  unfold pausing
  rw [if_neg (by omega), if_neg (by omega)]

private theorem promoted_at_end (ticks : Nat) (pause : Duration) (old : Bytes) :
    remains (pausing clock ticks pause (ticks + 6))
        (promoted old (pausing clock ticks pause (ticks + 5))) =
      promoted old (clock ticks + pause) := by
  rw [pausing_late ticks pause (by omega), pausing_late ticks pause (by omega)]
  apply remains_promoted
  unfold fromSecs cachePromotionSeconds
  exact Nat.lt_add_of_pos_right (by decide)

private theorem not_survives_of_stale {old : Bytes} (monotone : Monotone clock)
    (sound : cell.poisoned = false) (usable : cell.usable = true) (row : cell.row = some old)
    (uncopied : update ≠ .deleteValue → remains (clock ticks) cell.copy = none)
    (different : update ≠ .writeValue old) :
    ¬ ∀ future, Continues clock ticks future → Survives future key update ticks cell := by
  intro survives
  cases update with
  | writeValue value =>
      have missed := uncopied (fun same => by cases same)
      have continues := continues_pausing monotone ticks 0
      rw [← continues.2 ticks (Nat.le_refl ticks)] at missed
      have left := survives _ continues _ _ _ (stale_write value sound usable missed row _) _ _ rfl
      have same := left.2 _ (promoted_at_end ticks 0 old)
      exact different (congrArg Update.writeValue same.symm)
  | writeValueWithTtl value duration =>
      have missed := uncopied (fun same => by cases same)
      -- a duration of one minute could be mistaken for the promotion's own
      have strange : ∃ pause : Duration, duration ≠ pause + fromSecs cachePromotionSeconds := by
        by_cases minute : duration = fromSecs cachePromotionSeconds
        · exact ⟨1, by rw [minute]; decide⟩
        · exact ⟨0, by rw [Nat.zero_add]; exact minute⟩
      rcases strange with ⟨pause, strange⟩
      have continues := continues_pausing monotone ticks pause
      rw [← continues.2 ticks (Nat.le_refl ticks)] at missed
      have left := survives _ continues _ _ _ (stale_writeWithTtl sound missed row _) _ _ rfl
      have same := (promoted_at_end ticks pause old).symm.trans left.2
      rcases ExpiringMap.remains_eq_some.mp same.symm with ⟨entries, -⟩
      rw [pausing_still ticks pause (by omega) (by omega)] at entries
      have deadlines := congrArg Entry.deadline (Option.some.inj entries)
      have durations : clock ticks + duration =
          clock ticks + pause + fromSecs cachePromotionSeconds := Option.some.inj deadlines
      rw [Nat.add_assoc] at durations
      exact strange (Nat.add_left_cancel durations)
  | deleteValue =>
      have continues := continues_pausing monotone ticks 0
      have left := survives _ continues _ _ _ (stale_delete sound row _) _ _ rfl
      have same := (promoted_at_end ticks 0 old).symm.trans left.2
      cases same

private theorem step_poisoned (request : TierCall) (now : Instant) (cell : Cell)
    (poisoned : cell.poisoned = true) : (oneCell.step request now cell).2.poisoned = true := by
  rcases request with ⟨tier, request⟩
  cases tier with
  | transient =>
      change (Cell.transientStep request now cell).2.poisoned = true
      unfold Cell.transientStep
      cases request <;> simp only <;> try exact poisoned
      split <;> exact poisoned
  | persistent =>
      change (Cell.persistentStep request cell).2.poisoned = true
      unfold Cell.persistentStep Cell.writeRow Cell.locked
      cases request <;> simp only [poisoned, if_true]
      split <;> exact poisoned

private theorem survives_of_poisoned (poisoned : cell.poisoned = true) :
    Survives clock key update ticks cell := by
  intro results later last interleaved finished moment same
  have stuck : ∀ (request : TierCall)
      (next : (tiers.timed Instant).Reply request → TimedProgram) (updater : Updater)
      (now : Instant) (cell : Cell), cell.poisoned = true →
      (updater = .panicked ∨ updater = .fresh ∨ (updater = .half ∧ update = .deleteValue)) →
      Program.call request next = updater.program key update (clock ticks) →
      ∃ nextUpdater : Updater,
        Program.resume next (oneCell.timed.step request now cell).1 =
          nextUpdater.program key update (clock ticks) ∧
        (nextUpdater = .panicked ∨ nextUpdater = .fresh ∨
          (nextUpdater = .half ∧ update = .deleteValue)) := by
    intro request next updater now cell poisoned stage called
    rcases stage with rfl | rfl | ⟨rfl, rfl⟩
    · cases called
    · cases update with
      | writeValue value =>
          cases called
          refine ⟨.panicked, ?_, Or.inl rfl⟩
          rw [timed_persistent]
          simp only [Cell.persistentStep, Cell.writeRow, poisoned, if_true]
          rfl
      | writeValueWithTtl value duration =>
          cases called
          refine ⟨.panicked, ?_, Or.inl rfl⟩
          rw [timed_persistent]
          simp only [Cell.persistentStep, Cell.locked, poisoned, if_true]
          rfl
      | deleteValue =>
          cases called
          exact ⟨.half, rfl, Or.inr (Or.inr ⟨rfl, rfl⟩)⟩
    · cases called
      refine ⟨.panicked, ?_, Or.inl rfl⟩
      rw [timed_persistent]
      simp only [Cell.persistentStep, Cell.locked, poisoned, if_true]
      rfl
  rcases interleaved.pair_invariant
    (fun _ second _ cell => cell.poisoned = true ∧ ∃ updater : Updater,
      second = updater.program key update (clock ticks) ∧
      (updater = .panicked ∨ updater = .fresh ∨ (updater = .half ∧ update = .deleteValue)))
    (fun request next second now cell inv =>
      ⟨step_poisoned request (clock now) cell inv.1, inv.2⟩)
    (fun first request next now cell inv => by
      rcases inv with ⟨poisoned, updater, called, stage⟩
      exact ⟨step_poisoned request (clock now) cell poisoned,
        stuck request next updater (clock now) cell poisoned stage called⟩)
    ⟨poisoned, .fresh, rfl, Or.inr (Or.inl rfl)⟩ with
    ⟨readerResult, updaterResult, pair, -, updater, ended, stage⟩
  rw [same] at pair
  rcases List.cons.inj pair with ⟨-, rest⟩
  rcases List.cons.inj rest with ⟨rfl, -⟩
  rcases stage with rfl | rfl | ⟨rfl, rfl⟩
  · cases ended
  · cases update <;> cases ended
  · cases ended

/-- The update survives a concurrent read: there is no row to fetch, or the read
can only find a copy, or the value it fetches is the one being written. -/
theorem survives_iff (monotone : Monotone clock)
    (usable : cell.row ≠ none → cell.usable = true) :
    (∀ future, Continues clock ticks future → Survives future key update ticks cell) ↔
      cell.poisoned = true ∨ cell.row = none ∨
        (remains (clock ticks) cell.copy ≠ none ∧ update ≠ .deleteValue) ∨
        ∃ value, update = .writeValue value ∧ cell.row = some value := by
  constructor
  · intro survives
    by_contra otherwise
    simp only [not_or] at otherwise
    rcases otherwise with ⟨sound, someRow, uncopied, different⟩
    rcases Option.ne_none_iff_exists'.mp someRow with ⟨old, row⟩
    refine not_survives_of_stale monotone (Bool.not_eq_true _ ▸ sound) (usable someRow) row
      ?_ ?_ survives
    · intro notDelete
      by_contra copied
      exact uncopied ⟨copied, notDelete⟩
    · intro same
      exact different ⟨old, same, row⟩
  · intro condition future continues
    rcases condition with poisoned | condition
    · exact survives_of_poisoned poisoned
    · apply survives_of_undisturbed continues.1
      apply undisturbed_at_start
      rw [continues.2 ticks (Nat.le_refl ticks)]
      exact condition

end Survival

/-! ### On the bus -/

private theorem reading_uses (key : Bytes) : (reading key).Uses (AboutKey key) := by
  have about : (PermutiveBus.call (.readValue key)).Uses (AboutKey key) := call_uses rfl
  exact about.bind (fun _ => trivial)

private theorem update_uses (key : Bytes) (update : Update) : (update.run key).Uses
    (AboutKey key) := by
  cases update with
  | writeValue value =>
      have about : (PermutiveBus.call (.writeValue key value)).Uses (AboutKey key) :=
        call_uses rfl
      exact about
  | writeValueWithTtl value duration =>
      have about : (PermutiveBus.call (.writeValueWithTtl key value duration)).Uses
          (AboutKey key) := call_uses rfl
      exact about
  | deleteValue =>
      have about : (PermutiveBus.call (.deleteValue key)).Uses (AboutKey key) := call_uses rfl
      exact about

private theorem usable_of_row (site : Site) {bus : PermutiveBus} {key : Bytes}
    (row : (bus.cell site key).row ≠ none) : (bus.cell site key).usable = true := by
  cases found : bus.persistent.databases[namespaceOf key]? with
  | none => exact absurd (SqliteBus.row_of_not_open found) row
  | some file => exact SqliteBus.usable_of_open site found

/-- A read in flight next to an update of the same key, however time goes on: in
every interleaving in which both finish, the key shows from then on what the
update left. -/
def KeepsUpdate (site : Site) (clock : Nat → Instant) (ticks : Nat) (bus : PermutiveBus)
    (key : Bytes) (update : Update) : Prop :=
  ∀ future, Continues clock ticks future → ∀ results later last,
    Interleaved (bothTiers site).timed future
      [(reading key).timed (future ticks), (update.run key).timed (future ticks)] ticks bus
      results later last →
    ∀ finished moment, results = [some ((), finished), some ((), moment)] →
      update.Left moment (future later) (last.cell site key)

private theorem timed_uses (key : Bytes) (update : Update) (start : Instant) :
    ∀ program ∈ [(reading key).timed start, (update.run key).timed start],
      @Program.Uses (tiers.timed Instant) (Unit × Instant) (AboutKey key) program := by
  intro program member
  rcases List.mem_cons.mp member with rfl | rest
  · exact (reading_uses key).timed start
  · rw [List.mem_singleton.mp rest]
    exact (update_uses key update).timed start

/-- From any state the bus reaches, a read keeps a concurrent update exactly when an
earlier call has poisoned the mutex (the update then never finishes), or there is
no row, or the read is answered by a live copy and the update is no delete, or the
update writes the value that is in the row. -/
theorem promotion_keeps_update_iff (site : Site) (clock : Nat → Instant)
    (monotone : Monotone clock) (disk : Disk) (ticks : Nat) (bus : PermutiveBus)
    (reached : Reachable site clock disk ticks bus) (key : Bytes) (update : Update) :
    KeepsUpdate site clock ticks bus key update ↔
      bus.persistent.poisoned = true ∨ bus.persistent.row key = none ∨
        (remains (clock ticks) bus.transient.contents[key]? ≠ none ∧ update ≠ .deleteValue) ∨
        ∃ value, update = .writeValue value ∧ bus.persistent.row key = some value := by
  have onCell : (∀ future, Continues clock ticks future →
      Survives future key update ticks (bus.cell site key)) ↔ _ :=
    survives_iff monotone (usable_of_row site)
  have projection := (cellProjection site key).timed
  constructor
  · intro promised
    apply onCell.mp
    intro future continues results later last interleaved finished moment same
    rcases projection.lift interleaved rfl (timed_uses key update _)
      reached.attached with ⟨final, onBus, rfl⟩
    exact promised future continues results later final onBus finished moment same
  · intro condition future continues results later last interleaved finished moment same
    exact onCell.mpr condition future continues results later (last.cell site key)
      (projection.interleaved interleaved (timed_uses key update _) reached.attached)
      finished moment same

theorem write_after_write_is_kept_iff :
    KeepsUpdate sampleSite stillClock writtenState.1 writtenState.2 (asBytes "users:1")
        (.writeValue (asBytes "a")) ↔
      writtenState.2.persistent.poisoned = true ∨
        writtenState.2.persistent.row (asBytes "users:1") = none ∨
        (remains (stillClock writtenState.1)
            writtenState.2.transient.contents[asBytes "users:1"]? ≠ none ∧
          Update.writeValue (asBytes "a") ≠ .deleteValue) ∨
        ∃ value, Update.writeValue (asBytes "a") = .writeValue value ∧
          writtenState.2.persistent.row (asBytes "users:1") = some value :=
  promotion_keeps_update_iff sampleSite stillClock stillClock_monotone ∅ writtenState.1
    writtenState.2 (reachable_afterCalls sampleSite stillClock ∅ _) (asBytes "users:1")
    (.writeValue (asBytes "a"))

/-- A key holds `a`.  While it is read it is overwritten with `b`; afterwards the
row is `b`, and the copy, which every read finds first, is `a`. -/
theorem promotion_brings_back_old_value :
    Reachable sampleSite stillClock ∅ writtenState.1 writtenState.2 ∧
      ∃ results later last,
        Interleaved (bothTiers sampleSite).timed stillClock
          [(reading (asBytes "users:1")).timed (stillClock writtenState.1),
            ((Update.writeValue (asBytes "b")).run (asBytes "users:1")).timed
              (stillClock writtenState.1)]
          writtenState.1 writtenState.2 results later last ∧
        (∃ finished moment, results = [some ((), finished), some ((), moment)]) ∧
        (last.cell sampleSite (asBytes "users:1")).row = some (asBytes "b") ∧
        (last.cell sampleSite (asBytes "users:1")).value (stillClock later) =
          some (asBytes "a") ∧
        ¬ KeepsUpdate sampleSite stillClock writtenState.1 writtenState.2 (asBytes "users:1")
          (.writeValue (asBytes "b")) := by
  have reached := reachable_afterCalls sampleSite stillClock ∅
    [.writeValue (asBytes "users:1") (asBytes "a")]
  have sound : (writtenState.2.cell sampleSite (asBytes "users:1")).poisoned = false := by
    decide +kernel
  have usable : (writtenState.2.cell sampleSite (asBytes "users:1")).usable = true := by
    decide +kernel
  have missed : remains (stillClock writtenState.1)
      (writtenState.2.cell sampleSite (asBytes "users:1")).copy = none := by
    decide +kernel
  have row : (writtenState.2.cell sampleSite (asBytes "users:1")).row = some (asBytes "a") := by
    decide +kernel
  rcases (cellProjection sampleSite (asBytes "users:1")).timed.lift
    (stale_write (asBytes "b") sound usable missed row (stillClock writtenState.1)) rfl
    (timed_uses (asBytes "users:1") (.writeValue (asBytes "b")) _) reached.attached with
    ⟨final, onBus, shown⟩
  refine ⟨reached, _, _, final, onBus, ⟨_, _, rfl⟩, ?_, ?_, ?_⟩
  · rw [shown]
  · rw [shown]
    rfl
  · intro keeps
    have continues : Continues stillClock writtenState.1 stillClock :=
      ⟨stillClock_monotone, fun _ _ => rfl⟩
    have left := keeps stillClock continues _ _ _ onBus _ _ rfl
    rw [shown] at left
    have same := left.2 _ rfl
    revert same
    decide +kernel

end TricPlus

