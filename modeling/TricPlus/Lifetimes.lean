import TricPlus.Answering

/-!
Lifetimes: what the calls of a run give each key, and what the bus reports.

The record of a run says for every key with which deadline the last call that set a
lifetime left it.  As long as no call has panicked, a key whose deadline lies ahead
is held by the transient tier under just this deadline.
-/

namespace TricPlus

open Std (ExtTreeMap)
open AtomicProgram
open ExpiringMap (Entry remains)

/-! ### What the calls give -/

/-- For each key the deadline its last call about lifetimes left it with, or none. -/
abbrev Lifetimes := Bytes → Option Instant

/-- What a call does to the record; `present` tells which keys are there. -/
def Lifetimes.after (lifetimes : Lifetimes) (request : DataBusCall)
    (reply : Option request.Reply) (now : Instant) (present : Bytes → Bool) : Lifetimes :=
  fun key =>
    match request, reply with
    | .writeValue written _, _ => if written = key then none else lifetimes key
    | .deleteValue deleted, _ => if deleted = key then none else lifetimes key
    | .deleteValueIfMatch deleted _, some true => if deleted = key then none else lifetimes key
    | .writeTtl written duration, _ =>
        if written = key ∧ present key = true then some (now + duration) else lifetimes key
    | .writeValueWithTtl written _ duration, _ =>
        if written = key then some (now + duration) else lifetimes key
    | _, _ => lifetimes key

/-- The record after a call on the bus. -/
def Lifetimes.afterCall (site : Site) (clock : Nat → Instant) (request : DataBusCall) (ticks : Nat)
    (bus : PermutiveBus) (lifetimes : Lifetimes) : Lifetimes :=
  let outcome := run (bothTiers site) clock (PermutiveBus.call request) ticks bus
  let now := clock (effectTick request ticks outcome.ticks)
  lifetimes.after request outcome.result now (fun key => ((bus.cell site key).value now).isSome)

/-- The states a bus can reach, each with the record of the calls that led there. -/
inductive Recorded (site : Site) (clock : Nat → Instant) (disk : Disk) :
    Nat → PermutiveBus → Lifetimes → Prop where
  | created (ticks : Nat) :
      Recorded site clock disk (createPermutiveBus site disk clock ticks).ticks
        (createPermutiveBus site disk clock ticks).state (fun _ => none)
  | called (request : DataBusCall) (ticks : Nat) (bus : PermutiveBus) (lifetimes : Lifetimes)
      (before : Recorded site clock disk ticks bus lifetimes) :
      Recorded site clock disk
        (run (bothTiers site) clock (PermutiveBus.call request) ticks bus).ticks
        (run (bothTiers site) clock (PermutiveBus.call request) ticks bus).state
        (lifetimes.afterCall site clock request ticks bus)

section Recorded

variable {site : Site} {clock : Nat → Instant} {disk : Disk} {ticks : Nat} {bus : PermutiveBus}
  {lifetimes : Lifetimes}

theorem Recorded.reachable (recorded : Recorded site clock disk ticks bus lifetimes) :
    Reachable site clock disk ticks bus := by
  induction recorded with
  | created ticks => exact .created ticks
  | called request ticks bus lifetimes before reached => exact .called request ticks bus reached

theorem Reachable.recorded (reached : Reachable site clock disk ticks bus) :
    ∃ lifetimes, Recorded site clock disk ticks bus lifetimes := by
  induction reached with
  | created ticks => exact ⟨_, .created ticks⟩
  | called request ticks bus before recorded =>
      rcases recorded with ⟨lifetimes, recorded⟩
      exact ⟨_, .called request ticks bus lifetimes recorded⟩

def recordedCalls (site : Site) (clock : Nat → Instant) (disk : Disk)
    (requests : List DataBusCall) : Nat × PermutiveBus × Lifetimes :=
  let created := createPermutiveBus site disk clock 0
  requests.foldl
    (fun reached request =>
      let outcome := run (bothTiers site) clock (PermutiveBus.call request) reached.1 reached.2.1
      (outcome.ticks, outcome.state,
        reached.2.2.afterCall site clock request reached.1 reached.2.1))
    (created.ticks, created.state, fun _ => none)

theorem recordedCalls_recorded (site : Site) (clock : Nat → Instant) (disk : Disk)
    (requests : List DataBusCall) :
    Recorded site clock disk (recordedCalls site clock disk requests).1
      (recordedCalls site clock disk requests).2.1
      (recordedCalls site clock disk requests).2.2 := by
  unfold recordedCalls
  simp only
  suffices folded : ∀ reached : Nat × PermutiveBus × Lifetimes,
      Recorded site clock disk reached.1 reached.2.1 reached.2.2 →
      Recorded site clock disk (requests.foldl _ reached).1 (requests.foldl _ reached).2.1
        (requests.foldl _ reached).2.2 from
    folded _ (.created 0)
  induction requests with
  | nil =>
      intro reached start
      exact start
  | cons request requests ih =>
      intro reached start
      exact ih _ (.called request reached.1 reached.2.1 reached.2.2 start)

end Recorded

namespace Cell

/-- The transient tier holds the key under the deadline it was given, as long as that
lies ahead; a copy without a deadline was never given one. -/
structure Records (now : Instant) (lifetime : Option Instant) (cell : Cell) : Prop where
  dated : ∀ deadline, lifetime = some deadline → now < deadline →
    ∃ value, cell.copy = some ⟨value, some deadline⟩
  lasting : ∀ value, cell.copy = some ⟨value, none⟩ → lifetime = none

namespace Records

variable {now later : Instant} {lifetime : Option Instant} {cell : Cell}

theorem of_copy (records : cell.Records now lifetime) (ordered : now ≤ later)
    {copy : Option (Entry Bytes Instant)} {row : Option Bytes} {usable poisoned : Bool}
    (held : ∀ entry, copy = some entry → cell.copy = some entry)
    (kept : ∀ entry, cell.copy = some entry → entry.live later = true → copy = some entry) :
    Records later lifetime ⟨copy, row, usable, poisoned⟩ where
  dated := by
    intro deadline given ahead
    rcases records.dated deadline given (lt_of_le_of_lt ordered ahead) with ⟨value, found⟩
    exact ⟨value, kept _ found (decide_eq_true ahead)⟩
  lasting := fun value found => records.lasting value (held _ found)

theorem purged (records : cell.Records now lifetime) {reading : Instant} (ordered : now ≤ later)
    (read : reading ≤ later) {row : Option Bytes} {usable poisoned : Bool} :
    Records later lifetime ⟨remains reading cell.copy, row, usable, poisoned⟩ := by
  apply records.of_copy ordered
  · intro entry found
    exact (ExpiringMap.remains_eq_some.mp found).1
  · intro entry found live
    exact ExpiringMap.remains_eq_some.mpr ⟨found, Entry.live_of_le read live⟩

theorem set (value : Bytes) (deadline : Instant) {row : Option Bytes} {usable poisoned : Bool} :
    Records later (some deadline) ⟨some ⟨value, some deadline⟩, row, usable, poisoned⟩ where
  dated := by
    intro other given ahead
    cases given
    exact ⟨value, rfl⟩
  lasting := by
    intro held found
    cases found

theorem cleared : Records later none cell where
  dated := by
    intro deadline given
    cases given
  lasting := fun _ _ => rfl

theorem behind (past : ∀ deadline, lifetime = some deadline → deadline ≤ later)
    {copy : Option (Entry Bytes Instant)} (timed : ∀ value, copy ≠ some ⟨value, none⟩)
    {row : Option Bytes} {usable poisoned : Bool} :
    Records later lifetime ⟨copy, row, usable, poisoned⟩ where
  dated := by
    intro deadline given ahead
    exact absurd ahead (Nat.not_lt.mpr (past deadline given))
  lasting := fun value found => absurd found (timed value)

theorem past (records : cell.Records now lifetime) (ordered : now ≤ later)
    (missed : remains later cell.copy = none) :
    ∀ deadline, lifetime = some deadline → deadline ≤ later := by
  intro deadline given
  by_contra ahead
  have before := Nat.lt_of_not_le ahead
  rcases records.dated deadline given (lt_of_le_of_lt ordered before) with ⟨value, copy⟩
  have live : remains later cell.copy = some ⟨value, some deadline⟩ :=
    ExpiringMap.remains_eq_some.mpr ⟨copy, decide_eq_true before⟩
  cases missed.symm.trans live

end Records

end Cell

section OneCell

variable {clock : Nat → Instant} {ticks : Nat} {cell : Cell} {lifetimes : Lifetimes}

private theorem readValue_records (monotone : Monotone clock) (sound : cell.poisoned = false)
    (key : Bytes) {lifetime : Option Instant} (records : cell.Records (clock ticks) lifetime) :
    (run oneCell clock (PermutiveBus.readValue key) ticks cell).state.Records
      (clock (run oneCell clock (PermutiveBus.readValue key) ticks cell).ticks) lifetime := by
  have ahead : ∀ count, clock ticks ≤ clock (ticks + count) :=
    fun count => monotone (Nat.le_add_right ticks count)
  cases current : remains (clock ticks) cell.copy with
  | some copy =>
      rw [run_readValue_hit clock key current, ← current]
      exact records.purged (ahead 1) (ahead 1)
  | none =>
      have past := records.past (Nat.le_refl _) current
      cases row : cell.row with
      | none =>
          rw [run_readValue_miss clock sound key current row]
          apply Cell.Records.behind (fun deadline given => (past deadline given).trans (ahead 2))
          intro value found
          cases found
      | some value =>
          rw [run_readValue_promote clock sound key current row]
          apply Cell.Records.behind (fun deadline given => (past deadline given).trans (ahead 4))
          intro value found
          cases found

private theorem deleteValueIfMatch_records (monotone : Monotone clock)
    (sound : cell.poisoned = false) (key expected : Bytes) (present : Bytes → Bool) (now : Instant)
    (records : cell.Records (clock ticks) (lifetimes key)) :
    (run oneCell clock (PermutiveBus.deleteValueIfMatch key expected) ticks cell).state.Records
      (clock (run oneCell clock (PermutiveBus.deleteValueIfMatch key expected) ticks cell).ticks)
      (lifetimes.after (.deleteValueIfMatch key expected)
        (run oneCell clock (PermutiveBus.deleteValueIfMatch key expected) ticks cell).result
        now present key) := by
  have ahead : clock ticks ≤ clock (ticks + 2) := monotone (Nat.le_add_right ticks 2)
  rw [@run_deleteValueIfMatch clock ticks cell sound key expected]
  by_cases copied : (remains (clock ticks) cell.copy).map Entry.value = some expected
  · have none : lifetimes.after (.deleteValueIfMatch key expected) (some true) now present key =
        none := if_pos rfl
    simp only [decide_eq_true copied, Bool.true_or, none]
    exact Cell.Records.cleared
  · by_cases stored : cell.row = some expected
    · have none : lifetimes.after (.deleteValueIfMatch key expected) (some true) now present key =
          none := if_pos rfl
      simp only [decide_eq_true stored, Bool.or_true, none]
      exact Cell.Records.cleared
    · have same : lifetimes.after (.deleteValueIfMatch key expected) (some false) now present key =
          lifetimes key := rfl
      simp only [decide_eq_false copied, decide_eq_false stored, Bool.or_false, same,
        if_neg copied, if_neg stored]
      exact records.purged ahead ahead

/-- The time of a lifetime is the last reading of its call. -/
private theorem writeTtl_records (monotone : Monotone clock) (sound : cell.poisoned = false)
    (key : Bytes) (duration : Duration) (present : Bool) {lifetime : Option Instant}
    (records : cell.Records (clock ticks) lifetime)
    (presentIs : present = (cell.value (clock ((run oneCell clock
      (PermutiveBus.writeTtl key duration) ticks cell).ticks - 1))).isSome) :
    (run oneCell clock (PermutiveBus.writeTtl key duration) ticks cell).state.Records
      (clock (run oneCell clock (PermutiveBus.writeTtl key duration) ticks cell).ticks)
      (if present = true then
        some (clock ((run oneCell clock (PermutiveBus.writeTtl key duration) ticks
          cell).ticks - 1) + duration) else lifetime) := by
  cases row : cell.row with
  | some value =>
      have here : present = true := by
        rw [presentIs]
        unfold Cell.value
        rw [row]
        split <;> rfl
      rw [if_pos here, run_writeTtl_move clock sound key duration row]
      exact Cell.Records.set value _
  | none =>
      rw [run_writeTtl_stay clock sound key duration row] at presentIs ⊢
      have last : ticks + 2 - 1 = ticks + 1 := rfl
      dsimp only at presentIs ⊢
      rw [last] at presentIs ⊢
      unfold Cell.value at presentIs
      cases current : remains (clock (ticks + 1)) cell.copy with
      | some copy =>
          rw [current] at presentIs
          have here : present = true := presentIs
          rw [if_pos here]
          exact Cell.Records.set copy.value _
      | none =>
          rw [current, row] at presentIs
          have away : present ≠ true := by
            rw [presentIs]
            exact Bool.false_ne_true
          rw [if_neg away]
          have past := records.past (monotone (Nat.le_succ ticks)) current
          apply Cell.Records.behind
          · intro deadline given
            exact (past deadline given).trans (monotone (Nat.le_succ _))
          · intro value found
            cases found

private theorem run_records (monotone : Monotone clock) (sound : cell.poisoned = false)
    {request : DataBusCall} {key : Bytes} (about : request.key? = some key)
    (usable : ∀ key value, request = .writeValue key value → cell.usable = true)
    (records : cell.Records (clock ticks) (lifetimes key)) (present : Bytes → Bool)
    (presentIs : present key = (cell.value (clock (effectTick request ticks
      (run oneCell clock (PermutiveBus.call request) ticks cell).ticks))).isSome) :
    (run oneCell clock (PermutiveBus.call request) ticks cell).state.Records
      (clock (run oneCell clock (PermutiveBus.call request) ticks cell).ticks)
      (lifetimes.after request (run oneCell clock (PermutiveBus.call request) ticks cell).result
        (clock (effectTick request ticks
          (run oneCell clock (PermutiveBus.call request) ticks cell).ticks)) present key) := by
  cases request with
  | findByPrefix stem => cases about
  | readValue read =>
      cases about
      exact readValue_records monotone sound key records
  | writeValue written value =>
      cases about
      change Cell.Records _ (if key = key then none else lifetimes key) _
      rw [if_pos rfl]
      exact Cell.Records.cleared
  | deleteValue deleted =>
      cases about
      change Cell.Records _ (if key = key then none else lifetimes key) _
      rw [if_pos rfl]
      exact Cell.Records.cleared
  | deleteValueIfMatch deleted expected =>
      cases about
      exact deleteValueIfMatch_records monotone sound key expected present _ records
  | writeTtl written duration =>
      cases about
      have placed := writeTtl_records monotone sound key duration (present key) records presentIs
      change Cell.Records _ (if key = key ∧ present key = true then _ else lifetimes key) _
      simp only [true_and]
      exact placed
  | writeValueWithTtl written value duration =>
      cases about
      change (run oneCell clock (PermutiveBus.writeValueWithTtl key value duration) ticks
        cell).state.Records _ (if key = key then some (clock ((run oneCell clock
          (PermutiveBus.writeValueWithTtl key value duration) ticks cell).ticks - 1) + duration)
          else lifetimes key)
      rw [if_pos rfl, run_writeValueWithTtl clock sound]
      exact Cell.Records.set value _
  | readTtlRemaining read =>
      cases about
      have ahead : clock ticks ≤ clock (ticks + 1) := monotone (Nat.le_add_right ticks 1)
      exact records.purged ahead ahead

end OneCell

/-! ### Every key of a run -/

private theorem Lifetimes.after_other {request : DataBusCall} {key : Bytes}
    (other : request.key? ≠ some key) (lifetimes : Lifetimes) (reply : Option request.Reply)
    (now : Instant) (present : Bytes → Bool) :
    lifetimes.after request reply now present key = lifetimes key := by
  have different : ∀ about : Bytes, request.key? = some about → about ≠ key := by
    intro about asked same
    exact other (same ▸ asked)
  unfold Lifetimes.after
  cases request with
  | writeValue written value => exact if_neg (different written rfl)
  | deleteValue deleted => exact if_neg (different deleted rfl)
  | deleteValueIfMatch deleted expected =>
      rcases reply with _ | _ | _
      · rfl
      · rfl
      · exact if_neg (different deleted rfl)
  | writeTtl written duration => exact if_neg (fun both => different written rfl both.1)
  | writeValueWithTtl written value duration => exact if_neg (different written rfl)
  | readValue read => rfl
  | readTtlRemaining read => rfl
  | findByPrefix stem => rfl

section Run

variable {site : Site} {clock : Nat → Instant} {disk : Disk} {ticks : Nat} {bus : PermutiveBus}
  {lifetimes : Lifetimes} {key : Bytes}

private theorem bothTiers_records_other (monotone : Monotone clock) {call : TierCall}
    (other : call.request.key? ≠ some key) {lifetime : Option Instant}
    (records : (bus.cell site key).Records (clock ticks) lifetime) :
    (((bothTiers site).step call (clock ticks) bus).2.cell site key).Records
      (clock (ticks + 1)) lifetime := by
  have ordered := monotone (Nat.le_succ ticks)
  rcases call with ⟨tier, request⟩
  cases tier with
  | transient =>
      have copy : (SoundTric.step request (clock ticks) bus.transient).2.contents[key]? =
          remains (clock ticks) bus.transient.contents[key]? := by
        rw [SoundTric.step_contents, Reference.step_other other]
      apply records.of_copy ordered
      · intro entry found
        exact (ExpiringMap.remains_eq_some.mp (copy.symm.trans found)).1
      · intro entry found live
        exact copy.trans (ExpiringMap.remains_eq_some.mpr ⟨found, Entry.live_of_le ordered live⟩)
  | persistent =>
      exact records.of_copy ordered (fun entry found => found) (fun entry found live => found)

private theorem run_records_other (monotone : Monotone clock) {request : DataBusCall}
    (other : request.key? ≠ some key) {lifetime : Option Instant}
    (records : (bus.cell site key).Records (clock ticks) lifetime) :
    ((run (bothTiers site) clock (PermutiveBus.call request) ticks bus).state.cell site
      key).Records (clock (run (bothTiers site) clock (PermutiveBus.call request) ticks bus).ticks)
      lifetime :=
  run_uses_invariant (bothTiers site) clock
    (fun ticks bus => (bus.cell site key).Records (clock ticks) lifetime)
    (fun _ _ _ away records => bothTiers_records_other monotone away records)
    (call_uses_other other) records

private theorem usable_of_works (attached : bus.persistent.Attached) {request : DataBusCall}
    (works : (run (bothTiers site) clock (PermutiveBus.call request) ticks
      bus).state.persistent.Works) :
    bus.persistent.Works ∧
      ∀ key value, request = .writeValue key value → bus.persistent.usable site key = true := by
  have sound : bus.persistent.Works := by
    by_contra poisoned
    have still := @run_stays_poisoned site clock ticks bus _ (PermutiveBus.call request)
      ((Bool.not_eq_false _).mp poisoned)
    cases works.symm.trans still
  refine ⟨sound, ?_⟩
  intro key value same
  subst same
  by_contra unusable
  have onCell := run_cell site clock (rfl : (DataBusCall.writeValue key value).key? = some key)
    ticks attached
  have panicked := @run_writeValue_panic clock ticks (bus.cell site key) sound
    ((Bool.not_eq_true _).mp unusable) key value
  have states := congrArg (fun outcome => outcome.state.poisoned) (panicked.symm.trans onCell)
  cases states.trans works

theorem Recorded.records (monotone : Monotone clock)
    (recorded : Recorded site clock disk ticks bus lifetimes) (works : bus.persistent.Works)
    (key : Bytes) : (bus.cell site key).Records (clock ticks) (lifetimes key) := by
  induction recorded with
  | created ticks => exact Cell.Records.cleared
  | called request ticks bus lifetimes before ih =>
      have attached := before.reachable.attached
      rcases usable_of_works attached works with ⟨sound, usable⟩
      have records := ih sound
      unfold Lifetimes.afterCall
      by_cases about : request.key? = some key
      · have onCell := run_cell site clock about ticks attached
        have kept := @run_records clock ticks (bus.cell site key) lifetimes monotone sound _ _ about
          (by
            intro written value same
            subst same
            cases about
            exact usable key value rfl)
          records
          (fun other => ((bus.cell site other).value (clock (effectTick request ticks
            (run oneCell clock (PermutiveBus.call request) ticks
              (bus.cell site key)).ticks))).isSome) rfl
        rw [onCell] at kept
        exact kept
      · rw [Lifetimes.after_other about]
        exact run_records_other monotone about records

end Run

def still (now : Instant) : Nat → Instant := fun _ => now

theorem still_monotone (now : Instant) : Monotone (still now) := fun _ _ _ => Nat.le_refl now

def PermutiveBus.remaining (now : Instant) (bus : PermutiveBus) (key : Bytes) : Option Duration :=
  ((remains now bus.transient.contents[key]?).bind Entry.deadline).map
    (fun deadline => deadline - now)

section Reports

variable {site : Site} {clock : Nat → Instant} {ticks : Nat} {bus : PermutiveBus}

theorem run_readTtlRemaining (key : Bytes) :
    ∃ transient : SoundTric,
      run (bothTiers site) clock (PermutiveBus.readTtlRemaining key) ticks bus =
        ⟨some (bus.remaining (clock ticks) key), ticks + 1, { bus with transient := transient }⟩ ∧
      ∀ other : Bytes,
        transient.contents[other]? = remains (clock ticks) bus.transient.contents[other]? := by
  refine ⟨(SoundTric.step (.readTtlRemaining key) (clock ticks) bus.transient).2, ?_, ?_⟩
  · have reply : (SoundTric.step (.readTtlRemaining key) (clock ticks) bus.transient).1 =
        bus.remaining (clock ticks) key := by
      rw [SoundTric.step_reply]
      unfold Reference.step Reference.apply ExpiringMap.deadline? PermutiveBus.remaining
      simp only [ExpiringMap.getElem?_purge]
    rw [← reply]
    rfl
  · intro other
    rw [SoundTric.step_contents]
    exact ExpiringMap.getElem?_purge (clock ticks) bus.transient.contents other

def lifetimesFrom (clock : Nat → Instant) (bus : PermutiveBus) :
    Nat → List (Bytes × Bytes) → List ((Bytes × Bytes) × Nat)
  | _, [] => []
  | ticks, pair :: pairs =>
      (pair, Router.remainingMillis (bus.remaining (clock ticks) pair.1)) ::
        lifetimesFrom clock bus (ticks + 1) pairs

theorem remaining_congr {left right : PermutiveBus} {now later : Instant} (ordered : now ≤ later)
    {key : Bytes} (same : remains now left.transient.contents[key]? =
      remains now right.transient.contents[key]?) :
    left.remaining later key = right.remaining later key := by
  unfold PermutiveBus.remaining
  rw [← ExpiringMap.remains_remains ordered, same, ExpiringMap.remains_remains ordered]

theorem lifetimesFrom_congr (monotone : Monotone clock) {left right : PermutiveBus}
    (same : ∀ key : Bytes, remains (clock ticks) left.transient.contents[key]? =
      remains (clock ticks) right.transient.contents[key]?) {start : Nat} (later : ticks ≤ start)
    (pairs : List (Bytes × Bytes)) :
    lifetimesFrom clock left start pairs = lifetimesFrom clock right start pairs := by
  induction pairs generalizing start with
  | nil => rfl
  | cons pair pairs ih =>
      unfold lifetimesFrom
      rw [remaining_congr (monotone later) (same pair.1), ih (Nat.le_succ_of_le later)]

theorem run_withLifetimes (monotone : Monotone clock) (pairs : List (Bytes × Bytes)) :
    ∃ transient,
      run (bothTiers site) clock (onTiers (Router.withLifetimes pairs)) ticks bus =
        ⟨some (lifetimesFrom clock bus ticks pairs), ticks + pairs.length,
          { bus with transient := transient }⟩ := by
  induction pairs generalizing ticks bus with
  | nil => exact ⟨bus.transient, rfl⟩
  | cons pair pairs ih =>
      rcases @run_readTtlRemaining site clock ticks bus pair.1 with ⟨transient, asked, purged⟩
      rcases @ih (ticks + 1) { bus with transient := transient } with ⟨last, rest⟩
      refine ⟨last, ?_⟩
      have program : onTiers (Router.withLifetimes (pair :: pairs)) =
          (PermutiveBus.readTtlRemaining pair.1).bind (fun remaining =>
            (onTiers (Router.withLifetimes pairs)).bind (fun rest =>
              .done ((pair, Router.remainingMillis remaining) :: rest))) := by
        have rest : ∀ remaining : Option Duration,
            onTiers (Router.withLifetimes pairs >>= fun rest =>
              .done ((pair, Router.remainingMillis remaining) :: rest)) =
            (onTiers (Router.withLifetimes pairs)).bind (fun rest =>
              .done ((pair, Router.remainingMillis remaining) :: rest)) :=
          fun remaining => Program.translate_bind _ _ _
        exact congrArg (PermutiveBus.readTtlRemaining pair.1).bind (funext rest)
      have same := @lifetimesFrom_congr clock (ticks + 1) monotone
        { bus with transient := transient } bus
        (by
          intro key
          rw [purged key]
          exact ExpiringMap.remains_remains (monotone (Nat.le_succ ticks)) _)
        _ (Nat.le_refl _) pairs
      rw [program, run_bind, asked]
      simp only
      rw [run_bind, rest]
      simp only [run_done, same, lifetimesFrom, List.length_cons, Nat.add_comm pairs.length,
        ← Nat.add_assoc]

end Reports

end TricPlus
