import TricPlus.CellRefinement
import TricPlus.Router

/-!
Which requests are answered on a two-tier bus.

A call panics where it finds the mutex of the persistent tier poisoned, and where it
stores a key whose database is not open and cannot be opened.  A read that finds a
copy does not come that far.  From this the condition of each handler is put together
along its calls.
-/

namespace TricPlus

open Std (ExtTreeMap LawfulEqCmp)
open AtomicProgram
open ExpiringMap (Entry remains)

namespace SqliteBus

private theorem writeConnection_usable (site : Site) (bus : SqliteBus) (space key : Bytes) :
    (writeConnection site bus space).2.usable site key = bus.usable site key := by
  unfold usable
  rcases writeConnection_cases site bus space with
    ⟨-, same⟩ | ⟨-, -, same⟩ | ⟨-, -, opens, same⟩ | ⟨-, -, -, same⟩
  · rw [same]
  · rw [same]
  · rw [same]
    simp only [ExtTreeMap.contains_insert]
    by_cases mine : space = namespaceOf key
    · rw [← mine, opens, Bool.or_true, Bool.or_true]
    · have different : (compare space (namespaceOf key) == .eq) = false := by
        rw [beq_eq_false_iff_ne]
        exact fun equal => mine (LawfulEqCmp.eq_of_compare equal)
      rw [different, Bool.false_or]
  · rw [same]

private theorem step_usable (site : Site) (request : DataBusCall) (bus : SqliteBus) (key : Bytes) :
    (step site request bus).2.usable site key = bus.usable site key := by
  apply step_keeps site (fun after => after.usable site key = bus.usable site key) request rfl
  · intro about written
    exact writeConnection_usable site bus (namespaceOf about) key
  · intro middle about file change asked found changes same
    unfold usable at same ⊢
    rw [updateTable_databases]
    exact same

private theorem step_stays_poisoned (site : Site) (request : DataBusCall) {bus : SqliteBus}
    (poisoned : bus.poisoned = true) : (step site request bus).2.poisoned = true := by
  apply step_keeps site (fun after => after.poisoned = true) request poisoned
  · intro about written
    rcases writeConnection_cases site bus (namespaceOf about) with
      ⟨-, same⟩ | ⟨-, -, same⟩ | ⟨-, -, -, same⟩ | ⟨-, -, -, same⟩
    · rw [same]
      exact poisoned
    · rw [same]
      exact poisoned
    · rw [same]
      exact poisoned
    · rw [same]
  · intro middle about file change asked found changes poisoned
    rw [updateTable_poisoned]
    exact poisoned

end SqliteBus

section OneCall

variable {site : Site} {clock : Nat → Instant} {ticks : Nat} {bus : PermutiveBus}

theorem run_keeps_usable {α : Type} (program : Program tiers α) (key : Bytes) :
    (run (bothTiers site) clock program ticks bus).state.persistent.usable site key =
      bus.persistent.usable site key := by
  apply run_invariant (bothTiers site) clock
    (fun after => after.persistent.usable site key = bus.persistent.usable site key) _ _ _ _ rfl
  intro call now after same
  rcases call with ⟨tier, request⟩
  cases tier with
  | transient => exact same
  | persistent => exact (SqliteBus.step_usable site request after.persistent key).trans same

theorem run_keeps_attached {α : Type} (program : Program tiers α)
    (attached : bus.persistent.Attached) :
    (run (bothTiers site) clock program ticks bus).state.persistent.Attached :=
  run_invariant (bothTiers site) clock (fun bus => bus.persistent.Attached)
    (bothTiers_attached site) program ticks bus attached

theorem run_stays_poisoned {α : Type} (program : Program tiers α)
    (poisoned : bus.persistent.poisoned = true) :
    (run (bothTiers site) clock program ticks bus).state.persistent.poisoned = true := by
  apply run_invariant (bothTiers site) clock (fun bus => bus.persistent.poisoned = true) _ _ _ _
    poisoned
  intro call now bus poisoned
  rcases call with ⟨tier, request⟩
  cases tier with
  | transient => exact poisoned
  | persistent => exact SqliteBus.step_stays_poisoned site request poisoned

end OneCall

/-- On a sound cell a call about the key returns, unless it is a write that cannot open
the database. -/
theorem run_returns (clock : Nat → Instant) (ticks : Nat) {cell : Cell}
    (sound : cell.poisoned = false) {request : DataBusCall} {key : Bytes}
    (about : request.key? = some key)
    (usable : ∀ key value, request = .writeValue key value → cell.usable = true) :
    ∃ reply later after, run oneCell clock (PermutiveBus.call request) ticks cell =
      ⟨some reply, later, after⟩ ∧ after.poisoned = false := by
  cases request with
  | findByPrefix stem => cases about
  | readValue key =>
      cases current : remains (clock ticks) cell.copy with
      | some copy => exact ⟨_, _, _, run_readValue_hit clock key current, sound⟩
      | none =>
          cases row : cell.row with
          | none => exact ⟨_, _, _, run_readValue_miss clock sound key current row, sound⟩
          | some value =>
              exact ⟨_, _, _, run_readValue_promote clock sound key current row, sound⟩
  | writeValue key value =>
      exact ⟨_, _, _, run_writeValue clock sound (usable key value rfl) key value, sound⟩
  | deleteValue key => exact ⟨_, _, _, run_deleteValue clock sound key, sound⟩
  | deleteValueIfMatch key expected =>
      exact ⟨_, _, _, run_deleteValueIfMatch clock sound key expected, sound⟩
  | writeTtl key duration =>
      cases row : cell.row with
      | some value => exact ⟨_, _, _, run_writeTtl_move clock sound key duration row, sound⟩
      | none => exact ⟨_, _, _, run_writeTtl_stay clock sound key duration row, sound⟩
  | writeValueWithTtl key value duration =>
      exact ⟨_, _, _, run_writeValueWithTtl clock sound key value duration, sound⟩
  | readTtlRemaining key => exact ⟨_, _, _, rfl, sound⟩

theorem run_readValue_value (clock : Nat → Instant) (ticks : Nat) {cell : Cell}
    (sound : cell.poisoned = false) (key : Bytes) :
    (run oneCell clock (PermutiveBus.readValue key) ticks cell).result =
      some (cell.value (clock ticks)) := by
  unfold Cell.value
  cases current : remains (clock ticks) cell.copy with
  | some copy => rw [run_readValue_hit clock key current]
  | none =>
      cases row : cell.row with
      | none => rw [run_readValue_miss clock sound key current row]
      | some value => rw [run_readValue_promote clock sound key current row]

/-! ### Which calls return -/

def SqliteBus.Works (bus : SqliteBus) : Prop :=
  bus.poisoned = false

/-- The key can be stored without a lifetime. -/
def SqliteBus.Stores (site : Site) (bus : SqliteBus) (key : Bytes) : Prop :=
  bus.Works ∧ bus.usable site key = true

/-- The key can be read: there is a copy, or the persistent tier can be asked. -/
def PermutiveBus.Reads (now : Instant) (bus : PermutiveBus) (key : Bytes) : Prop :=
  bus.persistent.Works ∨ (remains now bus.transient.contents[key]?).isSome = true

def PermutiveBus.Answers (site : Site) (now : Instant) (bus : PermutiveBus) :
    DataBusCall → Prop
  | .readValue key => bus.Reads now key
  | .writeValue key _ => bus.persistent.Stores site key
  | .readTtlRemaining _ => True
  | _ => bus.persistent.Works

section Poisoned

variable (clock : Nat → Instant) (ticks : Nat) {cell : Cell}

theorem run_readValue_stuck (poisoned : cell.poisoned = true) (key : Bytes)
    (missed : remains (clock ticks) cell.copy = none) :
    (run oneCell clock (PermutiveBus.readValue key) ticks cell).result = none := by
  unfold PermutiveBus.readValue onTransient
  rw [Program.perform_bind, run_transient, readValue_missed clock key missed]
  rcases cell with ⟨copy, row, usable, poisoned⟩
  cases poisoned
  rfl

private theorem run_deleteValueIfMatch_stuck (poisoned : cell.poisoned = true)
    (key expected : Bytes) :
    (run oneCell clock (PermutiveBus.deleteValueIfMatch key expected) ticks cell).result =
      none := by
  have stuck : ∀ after : Cell, after.poisoned = true →
      Cell.persistentStep (.deleteValueIfMatch key expected) after = (none, after) := by
    intro after poisoned
    unfold Cell.persistentStep Cell.locked
    simp only [poisoned, if_true, ite_self]
  have still : (Cell.transientStep (.deleteValueIfMatch key expected) (clock ticks)
      cell).2.poisoned = true := by
    unfold Cell.transientStep
    simp only
    split
    · exact poisoned
    · exact poisoned
  unfold PermutiveBus.deleteValueIfMatch onTransient
  rw [Program.perform_bind, run_transient]
  unfold onPersistent
  rw [Program.perform_bind, run_persistent_panic clock (ticks + 1) _ _ (stuck _ still)]

end Poisoned

/-- A call about a key returns exactly when it can be answered, and then leaves the mutex
as it was. -/
theorem cell_answers (site : Site) (clock : Nat → Instant) (ticks : Nat) (bus : PermutiveBus)
    {request : DataBusCall} {key : Bytes} (about : request.key? = some key) :
    (bus.Answers site (clock ticks) request →
      ∃ reply later after, run oneCell clock (PermutiveBus.call request) ticks
          (bus.cell site key) = ⟨some reply, later, after⟩ ∧
        after.poisoned = bus.persistent.poisoned) ∧
    (¬ bus.Answers site (clock ticks) request →
      (run oneCell clock (PermutiveBus.call request) ticks (bus.cell site key)).result =
        none) := by
  cases works : bus.persistent.poisoned with
  | false =>
      have sound : (bus.cell site key).poisoned = false := works
      constructor
      · intro answers
        apply run_returns clock ticks sound about
        intro written value same
        subst same
        cases about
        exact answers.2
      · intro refused
        cases request with
        | writeValue written value =>
            cases about
            have unusable : (bus.cell site key).usable = false := by
              by_contra usable
              exact refused ⟨works, (Bool.not_eq_false _).mp usable⟩
            exact congrArg Outcome.result (run_writeValue_panic clock sound unusable key value)
        | readValue read => exact absurd (Or.inl works) refused
        | readTtlRemaining read => exact absurd trivial refused
        | deleteValue deleted => exact absurd works refused
        | deleteValueIfMatch deleted expected => exact absurd works refused
        | writeTtl written duration => exact absurd works refused
        | writeValueWithTtl written value duration => exact absurd works refused
        | findByPrefix stem => cases about
  | true =>
      have poisoned : (bus.cell site key).poisoned = true := works
      have broken : ¬ bus.persistent.Works := by
        intro sound
        cases works.symm.trans sound
      cases request with
      | findByPrefix stem => cases about
      | readValue read =>
          cases about
          cases current : remains (clock ticks) (bus.cell site key).copy with
          | some copy =>
              constructor
              · intro _
                exact ⟨_, _, _, run_readValue_hit clock key current, works⟩
              · intro refused
                exact absurd (Or.inr (Option.isSome_iff_exists.mpr ⟨copy, current⟩)) refused
          | none =>
              constructor
              · intro answers
                rcases answers with sound | copied
                · exact absurd sound broken
                · have missed : remains (clock ticks) bus.transient.contents[key]? = none := current
                  rw [missed] at copied
                  cases copied
              · intro _
                exact run_readValue_stuck clock ticks poisoned key current
      | readTtlRemaining read =>
          exact ⟨fun _ => ⟨_, _, _, rfl, works⟩, fun refused => absurd trivial refused⟩
      | writeValue written value =>
          refine ⟨fun answers => absurd answers.1 broken, fun _ => ?_⟩
          rcases cell : bus.cell site key with ⟨copy, row, usable, held⟩
          rw [cell] at poisoned
          cases poisoned
          rfl
      | deleteValue deleted =>
          refine ⟨fun answers => absurd answers broken, fun _ => ?_⟩
          rcases cell : bus.cell site key with ⟨copy, row, usable, held⟩
          rw [cell] at poisoned
          cases poisoned
          rfl
      | deleteValueIfMatch deleted expected =>
          exact ⟨fun answers => absurd answers broken,
            fun _ => run_deleteValueIfMatch_stuck clock ticks poisoned deleted expected⟩
      | writeTtl written duration =>
          refine ⟨fun answers => absurd answers broken, fun _ => ?_⟩
          rcases cell : bus.cell site key with ⟨copy, row, usable, held⟩
          rw [cell] at poisoned
          cases poisoned
          rfl
      | writeValueWithTtl written value duration =>
          refine ⟨fun answers => absurd answers broken, fun _ => ?_⟩
          rcases cell : bus.cell site key with ⟨copy, row, usable, held⟩
          rw [cell] at poisoned
          cases poisoned
          rfl

theorem run_findByPrefix_stuck (site : Site) (clock : Nat → Instant) (ticks : Nat)
    {bus : PermutiveBus} (poisoned : bus.persistent.poisoned = true) (stem : Bytes) :
    (run (bothTiers site) clock (PermutiveBus.findByPrefix stem) ticks bus).result = none := by
  have second : ∀ transient, (bothTiers site).step ⟨.persistent, .findByPrefix stem⟩
      (clock (ticks + 1)) { bus with transient := transient } =
      (none, { bus with transient := transient }) := by
    intro transient
    simp only [bothTiers, SqliteBus.step, SqliteBus.findByPrefix, SqliteBus.locked, poisoned,
      if_true]
  exact congrArg Outcome.result (run_call_panic (bothTiers site) clock (second _))

theorem scan_of_key? {request : DataBusCall} (none : request.key? = none) :
    ∃ stem, request = .findByPrefix stem := by
  cases request with
  | findByPrefix stem => exact ⟨stem, rfl⟩
  | readValue key => cases none
  | writeValue key value => cases none
  | deleteValue key => cases none
  | deleteValueIfMatch key expected => cases none
  | writeTtl key duration => cases none
  | writeValueWithTtl key value duration => cases none
  | readTtlRemaining key => cases none

structure Kept (site : Site) (start bus : SqliteBus) : Prop where
  poisoned : bus.poisoned = start.poisoned
  attached : bus.Attached
  usable : ∀ key, bus.usable site key = start.usable site key

section Kept

variable {site : Site} {start : SqliteBus} {bus : PermutiveBus}

theorem Kept.refl {bus : SqliteBus} (attached : bus.Attached) :
    Kept site bus bus where
  poisoned := rfl
  attached := attached
  usable := fun _ => rfl

theorem Kept.works (kept : Kept site start bus.persistent) :
    bus.persistent.Works ↔ start.Works := by
  unfold SqliteBus.Works
  rw [kept.poisoned]

theorem Kept.stores (kept : Kept site start bus.persistent) (key : Bytes) :
    bus.persistent.Stores site key ↔ start.Stores site key := by
  unfold SqliteBus.Stores SqliteBus.Works
  rw [kept.poisoned, kept.usable]

theorem Kept.call_returns (kept : Kept site start bus.persistent) (clock : Nat → Instant)
    (ticks : Nat) {request : DataBusCall} (answers : bus.Answers site (clock ticks) request) :
    ∃ reply later after, run (bothTiers site) clock (PermutiveBus.call request) ticks bus =
      ⟨some reply, later, after⟩ ∧ Kept site start after.persistent := by
  have attached := @run_keeps_attached site clock ticks bus _ (PermutiveBus.call request)
    kept.attached
  have usable := @run_keeps_usable site clock ticks bus _ (PermutiveBus.call request)
  rcases ran : run (bothTiers site) clock (PermutiveBus.call request) ticks bus with
    ⟨result, later, after⟩
  rw [ran] at attached usable
  suffices returned : ∃ reply, result = some reply ∧
      after.persistent.poisoned = bus.persistent.poisoned by
    rcases returned with ⟨reply, same, poisoned⟩
    subst same
    exact ⟨reply, later, after, rfl, poisoned.trans kept.poisoned, attached,
      fun key => (usable key).trans (kept.usable key)⟩
  cases asked : request.key? with
  | some key =>
      rcases (cell_answers site clock ticks bus asked).1 answers with
        ⟨reply, ended, cell, onCell, poisoned⟩
      have onBus := run_cell site clock asked ticks kept.attached
      rw [ran, onCell] at onBus
      have result_eq : some reply = result := congrArg Outcome.result onBus
      have state_eq : cell = after.cell site key := congrArg Outcome.state onBus
      rw [state_eq] at poisoned
      exact ⟨reply, result_eq.symm, poisoned⟩
  | none =>
      rcases scan_of_key? asked with ⟨stem, scan⟩
      subst scan
      have found := run_findByPrefix site clock ticks answers stem
      cases ran.symm.trans found
      exact ⟨_, rfl, rfl⟩

theorem Kept.call_panics (kept : Kept site start bus.persistent) (clock : Nat → Instant)
    (ticks : Nat) {request : DataBusCall} (refused : ¬ bus.Answers site (clock ticks) request) :
    (run (bothTiers site) clock (PermutiveBus.call request) ticks bus).result = none := by
  cases asked : request.key? with
  | some key =>
      have onCell := (cell_answers site clock ticks bus asked).2 refused
      rw [run_cell site clock asked ticks kept.attached] at onCell
      exact onCell
  | none =>
      rcases scan_of_key? asked with ⟨stem, scan⟩
      subst scan
      exact run_findByPrefix_stuck site clock ticks ((Bool.not_eq_false _).mp refused) stem

end Kept

/-! ### Which programs return -/

/-- Exactly under the condition the program returns; its result is then as described, and
the tier as it was. -/
structure Ends {α : Type} (site : Site) (clock : Nat → Instant) (start : SqliteBus)
    (program : BusProgram α) (ticks : Nat) (bus : PermutiveBus) (condition : Prop)
    (described : α → Prop) : Prop where
  returns : condition → ∃ result later after,
    run (bothTiers site) clock (onTiers program) ticks bus = ⟨some result, later, after⟩ ∧
      Kept site start after.persistent ∧ described result
  panics : ¬ condition → (run (bothTiers site) clock (onTiers program) ticks bus).result = none

namespace Ends

variable {α β : Type} {site : Site} {clock : Nat → Instant} {start : SqliteBus} {ticks : Nat}
  {bus : PermutiveBus} {condition : Prop}

theorem done (kept : Kept site start bus.persistent) (result : α) {described : α → Prop}
    (holds : described result) :
    Ends site clock start (.done result) ticks bus True described where
  returns := fun _ => ⟨result, ticks, bus, rfl, kept, holds⟩
  panics := fun never => absurd trivial never

theorem call (kept : Kept site start bus.persistent) (request : DataBusCall) :
    Ends site clock start (Program.perform dataBus request) ticks bus
      (bus.Answers site (clock ticks) request)
      (fun reply => (run (bothTiers site) clock (PermutiveBus.call request) ticks bus).result =
        some reply) := by
  have program : onTiers (Program.perform dataBus request) =
      (PermutiveBus.call request).bind .done := rfl
  constructor
  · intro answers
    rcases kept.call_returns clock ticks answers with ⟨reply, later, after, ran, keptAfter⟩
    refine ⟨reply, later, after, ?_, keptAfter, by rw [ran]⟩
    rw [program, run_bind, ran]
    rfl
  · intro refused
    have stuck := kept.call_panics clock ticks refused
    rw [program, run_bind]
    rcases ran : run (bothTiers site) clock (PermutiveBus.call request) ticks bus with
      ⟨result, later, after⟩
    rw [ran] at stuck
    cases stuck
    rfl

theorem bind {first : BusProgram α} {rest : α → BusProgram β} {further : Prop}
    {described : α → Prop} {final : β → Prop}
    (ends : Ends site clock start first ticks bus condition described)
    (after : ∀ result later last, Kept site start last.persistent → described result →
      Ends site clock start (rest result) later last further final) :
    Ends site clock start (first >>= rest) ticks bus (condition ∧ further) final := by
  have program : onTiers (first >>= rest) =
      (onTiers first).bind (fun result => onTiers (rest result)) := by
    unfold onTiers
    exact Program.translate_bind _ first rest
  constructor
  · intro both
    rcases ends.returns both.1 with ⟨result, later, last, ran, kept, holds⟩
    rcases (after result later last kept holds).returns both.2 with
      ⟨outcome, ended, state, finished, keptFinal, described⟩
    refine ⟨outcome, ended, state, ?_, keptFinal, described⟩
    rw [program, run_bind, ran]
    exact finished
  · intro refused
    rw [program, run_bind]
    by_cases holds : condition
    · rcases ends.returns holds with ⟨result, later, last, ran, kept, described⟩
      rw [ran]
      exact (after result later last kept described).panics (fun rest => refused ⟨holds, rest⟩)
    · have stuck := ends.panics holds
      rcases ran : run (bothTiers site) clock (onTiers first) ticks bus with
        ⟨result, later, last⟩
      rw [ran] at stuck
      cases stuck
      rfl

theorem congr {program : BusProgram α} {other : Prop} {described : α → Prop}
    (ends : Ends site clock start program ticks bus condition described)
    (same : condition ↔ other) : Ends site clock start program ticks bus other described where
  returns := fun holds => ends.returns (same.mpr holds)
  panics := fun refused => ends.panics (fun holds => refused (same.mp holds))

theorem mono {program : BusProgram α} {described weaker : α → Prop}
    (ends : Ends site clock start program ticks bus condition described)
    (weaken : ∀ result, described result → weaker result) :
    Ends site clock start program ticks bus condition weaker where
  returns := fun holds => by
    rcases ends.returns holds with ⟨result, later, after, ran, kept, described⟩
    exact ⟨result, later, after, ran, kept, weaken result described⟩
  panics := ends.panics

theorem noting {program : BusProgram α} {described : α → Prop}
    (ends : Ends site clock start program ticks bus condition described) :
    Ends site clock start program ticks bus condition
      (fun result => described result ∧ condition) where
  returns := fun holds => by
    rcases ends.returns holds with ⟨result, later, after, ran, kept, described⟩
    exact ⟨result, later, after, ran, kept, described, holds⟩
  panics := ends.panics

theorem andThen {first : BusProgram α} {rest : α → BusProgram β} {described : α → Prop}
    {final : β → Prop} (ends : Ends site clock start first ticks bus condition described)
    (after : ∀ result later last, Kept site start last.persistent → described result →
      Ends site clock start (rest result) later last True final) :
    Ends site clock start (first >>= rest) ticks bus condition final :=
  (ends.bind after).congr (iff_of_eq (and_true _))

theorem map {program : BusProgram α} (image : α → β) {described : α → Prop} {mapped : β → Prop}
    (ends : Ends site clock start program ticks bus condition described)
    (carry : ∀ result, described result → mapped (image result)) :
    Ends site clock start (image <$> program) ticks bus condition mapped :=
  andThen ends
    (fun result _ _ kept holds => done kept (image result) (carry result holds))

end Ends

end TricPlus
