import TricPlus.BusRuns
import TricPlus.Namespaces

/-!
Concurrent compare-and-delete on one key.

A caller first asks the transient tier, then the persistent one, and wins if
either removed the value.  A value held by one tier only is removed by one caller;
a value held by both may be removed twice, by two callers.
-/

namespace TricPlus

open AtomicProgram
open ExpiringMap (Entry remains)

/-! ### Callers in flight -/

inductive Stage where
  | fresh
  | half (transientMatch : Bool)
  | settled (matched : Bool)
  deriving DecidableEq

namespace Stage

def program (key expected : Bytes) : Stage → Program tiers Bool
  | .fresh => PermutiveBus.deleteValueIfMatch key expected
  | .half transientMatch =>
      .call ⟨.persistent, .deleteValueIfMatch key expected⟩
        (fun persistentMatch => .done (transientMatch || persistentMatch))
  | .settled matched => .done matched

def won : Stage → Bool
  | .fresh => false
  | .half transientMatch => transientMatch
  | .settled matched => matched

end Stage

structure Fair (expected : Bytes) (now : Instant) (cell : Cell) (stages : List Stage) : Prop where
  sound : cell.poisoned = false
  gone : remains now cell.copy = none
  token : (cell.row = none ∧ stages.countP Stage.won = 1) ∨
    (cell.row = some expected ∧ stages.countP Stage.won = 0 ∧
      ∀ stage ∈ stages, ∀ matched, stage ≠ .settled matched)

section Fairness

variable {clock : Nat → Instant} {expected : Bytes} {ticks later : Nat} {cell last : Cell}

private theorem settled_of_ended {key : Bytes} {stage : Stage} {result : Option Bool}
    (ended : stage.program key expected = .ended result) :
    stage = .settled stage.won ∧ result = some stage.won := by
  cases stage with
  | fresh => cases result <;> cases ended
  | half transientMatch => cases result <;> cases ended
  | settled matched =>
      cases result with
      | none => cases ended
      | some result =>
          cases ended
          exact ⟨rfl, rfl⟩

private theorem results_of_ended {key : Bytes} {stages : List Stage} {results : List (Option Bool)}
    (ended : results.map .ended = stages.map (Stage.program key expected)) :
    results.count (some true) = stages.countP Stage.won ∧
      ∀ stage ∈ stages, stage = .settled stage.won := by
  induction stages generalizing results with
  | nil =>
      rw [List.map_nil, List.map_eq_nil_iff] at ended
      subst ended
      exact ⟨rfl, fun _ member => by cases member⟩
  | cons stage stages ih =>
      rcases results with _ | ⟨result, results⟩
      · cases ended
      · rw [List.map_cons, List.map_cons] at ended
        rcases List.cons.inj ended with ⟨first, rest⟩
        rcases settled_of_ended first.symm with ⟨settled, same⟩
        rcases ih rest with ⟨counted, allSettled⟩
        constructor
        · rw [List.count_cons, List.countP_cons, counted, same]
          cases stage.won <;> rfl
        · intro other member
          rcases List.mem_cons.mp member with rfl | later
          · exact settled
          · exact allSettled other later

private theorem Fair.call_transient (key : Bytes) {before after : List Stage}
    (fair : Fair expected (clock ticks) cell (before ++ .fresh :: after))
    (ordered : clock ticks ≤ clock (ticks + 1)) :
    (Cell.transientStep (.deleteValueIfMatch key expected) (clock ticks) cell).1 = false ∧
      Fair expected (clock (ticks + 1))
        (Cell.transientStep (.deleteValueIfMatch key expected) (clock ticks) cell).2
        (before ++ .half false :: after) := by
  have unmatched : (remains (clock ticks) cell.copy).map Entry.value ≠ some expected := by
    rw [fair.gone]
    exact fun impossible => by cases impossible
  simp only [Cell.transientStep, if_neg unmatched, true_and]
  refine ⟨fair.sound, ?_, ?_⟩
  · rw [ExpiringMap.remains_remains ordered]
    exact remains_none_later ordered fair.gone
  · rcases fair.token with ⟨taken, one⟩ | ⟨held, none_yet, unsettled⟩
    · left
      refine ⟨taken, ?_⟩
      rw [List.countP_append, List.countP_cons] at one ⊢
      exact one
    · right
      refine ⟨held, ?_, ?_⟩
      · rw [List.countP_append, List.countP_cons] at none_yet ⊢
        exact none_yet
      · intro stage member
        rcases List.mem_append.mp member with early | late
        · exact unsettled stage (List.mem_append_left _ early)
        · rcases List.mem_cons.mp late with rfl | rest
          · exact fun _ same => by cases same
          · exact unsettled stage (List.mem_append_right _ (List.mem_cons_of_mem _ rest))

private theorem Fair.call_persistent (key : Bytes) {before after : List Stage}
    {transientMatch : Bool}
    (fair : Fair expected (clock ticks) cell (before ++ .half transientMatch :: after))
    (ordered : clock ticks ≤ clock (ticks + 1)) :
    ∃ persistentMatch,
      (Cell.persistentStep (.deleteValueIfMatch key expected) cell).1 = some persistentMatch ∧
      Fair expected (clock (ticks + 1))
        (Cell.persistentStep (.deleteValueIfMatch key expected) cell).2
        (before ++ .settled (transientMatch || persistentMatch) :: after) := by
  have stillGone := remains_none_later ordered fair.gone
  rcases fair.token with ⟨taken, one⟩ | ⟨held, none_yet, -⟩
  · have unmatched : cell.row ≠ some expected := by
      rw [taken]
      exact fun impossible => by cases impossible
    simp only [Cell.persistentStep, if_neg unmatched, Cell.locked, fair.sound,
      Bool.false_eq_true, if_false]
    refine ⟨false, rfl, fair.sound, stillGone, Or.inl ⟨taken, ?_⟩⟩
    rw [Bool.or_false]
    rw [List.countP_append, List.countP_cons] at one ⊢
    exact one
  · simp only [Cell.persistentStep, if_pos held, Cell.locked, fair.sound,
      Bool.false_eq_true, if_false]
    refine ⟨true, rfl, rfl, stillGone, Or.inl ⟨rfl, ?_⟩⟩
    rw [Bool.or_true]
    -- nobody had won before, so this caller is the first
    rw [List.countP_append, List.countP_cons] at none_yet ⊢
    simp only [Stage.won, if_true]
    omega

private theorem Fair.one_winner (monotone : Monotone clock) {key : Bytes}
    {pool : List (Program tiers Bool)}
    {results : List (Option Bool)}
    (interleaved : Interleaved oneCell clock pool ticks cell results later last)
    {stages : List Stage} (inFlight : pool = stages.map (Stage.program key expected))
    (callers : stages ≠ []) (fair : Fair expected (clock ticks) cell stages) :
    results.count (some true) = 1 ∧ last.Absent (clock later) := by
  induction interleaved generalizing stages with
  | finished results ticks cell =>
      rcases results_of_ended inFlight with ⟨counted, allSettled⟩
      rcases fair.token with ⟨taken, one⟩ | ⟨-, -, unsettled⟩
      · exact ⟨counted.trans one, fair.gone, taken⟩
      · rcases List.exists_mem_of_ne_nil stages callers with ⟨stage, member⟩
        exact absurd (allSettled stage member) (unsettled stage member stage.won)
  | step before after request next ticks cell results later last rest ih =>
      have ordered := monotone (Nat.le_succ ticks)
      rcases List.map_eq_append_iff.mp inFlight.symm with
        ⟨stagesBefore, tail, rfl, rfl, inTail⟩
      rcases List.map_eq_cons_iff.mp inTail with ⟨stage, stagesAfter, rfl, called, rfl⟩
      cases stage with
      | settled matched => cases called
      | fresh =>
          cases called
          rcases fair.call_transient key ordered with ⟨unmatched, stillFair⟩
          have stepped : oneCell.step ⟨.transient, .deleteValueIfMatch key expected⟩ (clock ticks)
              cell = (some false, (Cell.transientStep (.deleteValueIfMatch key expected)
                (clock ticks) cell).2) := by
            rw [← unmatched]
            rfl
          rw [stepped] at ih
          refine ih ?_ (by simp) stillFair
          rw [List.map_append, List.map_cons]
          rfl
      | half transientMatch =>
          cases called
          rcases fair.call_persistent key ordered with ⟨persistentMatch, answered, stillFair⟩
          have stepped : oneCell.step ⟨.persistent, .deleteValueIfMatch key expected⟩ (clock ticks)
              cell = (some persistentMatch, (Cell.persistentStep
                (.deleteValueIfMatch key expected) cell).2) := by
            rw [← answered]
            rfl
          rw [stepped] at ih
          refine ih ?_ (by simp) stillFair
          rw [List.map_append, List.map_cons]
          rfl

end Fairness

/-! ### When there is one winner -/

/-- What compare-and-delete promises to `callers` concurrent callers. -/
def OneWinner (clock : Nat → Instant) (key expected : Bytes) (callers ticks : Nat)
    (cell : Cell) : Prop :=
  ∀ results later last,
    Interleaved oneCell clock
      (List.replicate callers (PermutiveBus.deleteValueIfMatch key expected)) ticks cell
      results later last →
    results.count (some true) = 1 ∧ last.Absent (clock later)

section Winner

variable {clock : Nat → Instant} {key expected : Bytes} {callers ticks : Nat} {cell : Cell}

private theorem replicate_fresh (key expected : Bytes) (callers : Nat) :
    List.replicate callers (PermutiveBus.deleteValueIfMatch key expected) =
      (List.replicate callers Stage.fresh).map (Stage.program key expected) := by
  rw [List.map_replicate]
  rfl

private theorem countP_fresh (callers : Nat) :
    (List.replicate callers Stage.fresh).countP Stage.won = 0 := by
  rw [List.countP_replicate]
  rfl

private theorem oneWinner_of_row (monotone : Monotone clock) (some_caller : 0 < callers)
    (sound : cell.poisoned = false) (gone : remains (clock ticks) cell.copy = none)
    (held : cell.row = some expected) : OneWinner clock key expected callers ticks cell := by
  intro results later last interleaved
  refine Fair.one_winner monotone interleaved (replicate_fresh key expected callers) ?_
    ⟨sound, gone, Or.inr ⟨held, countP_fresh callers, ?_⟩⟩
  · intro empty
    rw [List.replicate_eq_nil_iff] at empty
    omega
  · intro stage member matched same
    rw [List.eq_of_mem_replicate member] at same
    cases same

private theorem first_call (some_caller : 0 < callers)
    (copied : (remains (clock ticks) cell.copy).map Entry.value = some expected)
    {results : List (Option Bool)} {later : Nat} {last : Cell}
    (interleaved : Interleaved oneCell clock
      (List.replicate callers (PermutiveBus.deleteValueIfMatch key expected)) ticks cell
      results later last) :
    ∃ early late, early + late + 1 = callers ∧
      Interleaved oneCell clock
        ((List.replicate early Stage.fresh ++
          .half true :: List.replicate late Stage.fresh).map (Stage.program key expected))
        (ticks + 1) { cell with copy := none } results later last := by
  rcases interleaved.next_call with ⟨ended, -, -⟩ | ⟨before, request, next, after, pool, rest⟩
  · exfalso
    rw [replicate_fresh] at ended
    have settled := (results_of_ended ended.symm).2 .fresh
      (List.mem_replicate.mpr ⟨Nat.pos_iff_ne_zero.mp some_caller, rfl⟩)
    cases settled
  · rcases List.replicate_eq_append_iff.mp pool with ⟨lengths, earlyEq, lateEq⟩
    rw [List.length_cons, List.replicate_succ] at lateEq
    rcases List.cons.inj lateEq with ⟨called, afterEq⟩
    cases called
    refine ⟨before.length, after.length, ?_, ?_⟩
    · rw [← lengths, List.length_cons, Nat.add_assoc]
    · have stepped : oneCell.step ⟨.transient, .deleteValueIfMatch key expected⟩ (clock ticks)
          cell = (some true, { cell with copy := none }) := by
        change (some (Cell.transientStep (.deleteValueIfMatch key expected) (clock ticks) cell).1,
          (Cell.transientStep (.deleteValueIfMatch key expected) (clock ticks) cell).2) = _
        simp only [Cell.transientStep, if_pos copied]
      rw [stepped, earlyEq, afterEq, replicate_fresh, replicate_fresh] at rest
      rw [List.map_append, List.map_cons]
      exact rest

private theorem countP_first (early late : Nat) :
    (List.replicate early Stage.fresh ++
      .half true :: List.replicate late Stage.fresh).countP Stage.won = 1 := by
  rw [List.countP_append, List.countP_cons, countP_fresh, countP_fresh]
  rfl

private theorem oneWinner_of_copy (monotone : Monotone clock) (some_caller : 0 < callers)
    (sound : cell.poisoned = false)
    (copied : (remains (clock ticks) cell.copy).map Entry.value = some expected)
    (noRow : cell.row = none) : OneWinner clock key expected callers ticks cell := by
  intro results later last interleaved
  rcases first_call some_caller copied interleaved with ⟨early, late, -, rest⟩
  exact Fair.one_winner monotone rest rfl (by simp)
    ⟨sound, rfl, Or.inl ⟨noRow, countP_first early late⟩⟩

private theorem oneWinner_of_single (monotone : Monotone clock) (sound : cell.poisoned = false)
    (copied : (remains (clock ticks) cell.copy).map Entry.value = some expected)
    (held : cell.row = some expected) : OneWinner clock key expected 1 ticks cell := by
  intro results later last interleaved
  rcases first_call Nat.one_pos copied interleaved with ⟨early, late, alone, rest⟩
  obtain rfl : early = 0 := by omega
  obtain rfl : late = 0 := by omega
  rcases rest.next_call with ⟨ended, -, -⟩ | ⟨before, request, next, after, pool, last_call⟩
  · have settled := (results_of_ended ended.symm).2 (.half true) (by simp)
    cases settled
  · have single : [Stage.program key expected (.half true)] =
        before ++ .call request next :: after := pool
    rcases List.append_eq_singleton_iff.mp single.symm with ⟨noneBefore, one⟩ | ⟨-, impossible⟩
    · rcases List.cons.inj one with ⟨called, noneAfter⟩
      subst noneBefore noneAfter
      cases called
      have stepped : oneCell.step ⟨.persistent, .deleteValueIfMatch key expected⟩
          (clock (ticks + 1)) { cell with copy := none } =
          (some true, { cell with copy := none, row := none }) := by
        change Cell.persistentStep (.deleteValueIfMatch key expected) _ = _
        simp only [Cell.persistentStep, if_pos held, Cell.locked, sound, Bool.false_eq_true,
          if_false]
      rw [stepped] at last_call
      have one : ([Stage.settled true] : List Stage).countP Stage.won = 1 := rfl
      have inFlight : [(.done true : Program tiers Bool)] =
          [Stage.settled true].map (Stage.program key expected) := rfl
      exact Fair.one_winner monotone last_call inFlight (by simp)
        ⟨sound, rfl, Or.inl ⟨rfl, one⟩⟩
    · cases impossible

private theorem run_keeps_other_row {other : Bytes} (different : other ≠ expected) (ticks : Nat)
    (cell : Cell) (held : cell.row = some other) :
    (run oneCell clock (PermutiveBus.deleteValueIfMatch key expected) ticks cell).state.row =
      some other := by
  have program : PermutiveBus.deleteValueIfMatch key expected =
      .call ⟨.transient, .deleteValueIfMatch key expected⟩
        (fun transientMatch => (Stage.half transientMatch).program key expected) := rfl
  have afterCopy : (Cell.transientStep (.deleteValueIfMatch key expected) (clock ticks)
      cell).2.row = some other := by
    unfold Cell.transientStep
    simp only
    split <;> exact held
  rw [program, run_transient]
  generalize (Cell.transientStep (.deleteValueIfMatch key expected) (clock ticks) cell).2 = middle
    at afterCopy ⊢
  have unmatched : middle.row ≠ some expected := by
    rw [afterCopy]
    exact fun same => different (Option.some.inj same)
  cases poisoned : middle.poisoned with
  | true =>
      have stuck : Cell.persistentStep (.deleteValueIfMatch key expected) middle =
          (none, middle) := by
        simp only [Cell.persistentStep, if_neg unmatched, Cell.locked, poisoned, if_true]
      rw [Stage.program, run_persistent_panic _ _ _ _ stuck]
      exact afterCopy
  | false =>
      have missed : Cell.persistentStep (.deleteValueIfMatch key expected) middle =
          (some false, middle) := by
        simp only [Cell.persistentStep, if_neg unmatched, Cell.locked, poisoned,
          Bool.false_eq_true, if_false]
      rw [Stage.program, run_persistent _ _ _ _ missed]
      exact afterCopy

private theorem not_oneWinner_of_other_row {other : Bytes} (different : other ≠ expected)
    (held : cell.row = some other) : ¬ OneWinner clock key expected callers ticks cell := by
  intro promised
  rcases interleaved_replicate (PermutiveBus.deleteValueIfMatch key expected)
    (fun cell => cell.row = some other)
    (fun ticks cell held => run_keeps_other_row different ticks cell held)
    callers ticks cell held with ⟨results, later, last, interleaved, stillHeld, -⟩
  have absent := (promised results later last interleaved).2
  rw [absent.2] at stillHeld
  cases stillHeld

private theorem run_poisoned (key expected : Bytes) (ticks : Nat) (cell : Cell)
    (poisoned : cell.poisoned = true) :
    (run oneCell clock (PermutiveBus.deleteValueIfMatch key expected) ticks cell).result = none ∧
      (run oneCell clock (PermutiveBus.deleteValueIfMatch key expected) ticks
        cell).state.poisoned = true := by
  have program : PermutiveBus.deleteValueIfMatch key expected =
      .call ⟨.transient, .deleteValueIfMatch key expected⟩
        (fun transientMatch => (Stage.half transientMatch).program key expected) := rfl
  have stillPoisoned : (Cell.transientStep (.deleteValueIfMatch key expected) (clock ticks)
      cell).2.poisoned = true := by
    unfold Cell.transientStep
    simp only
    split <;> exact poisoned
  rw [program, run_transient]
  generalize (Cell.transientStep (.deleteValueIfMatch key expected) (clock ticks) cell).2 = middle
    at stillPoisoned ⊢
  have stuck : Cell.persistentStep (.deleteValueIfMatch key expected) middle =
      (none, middle) := by
    simp only [Cell.persistentStep, Cell.locked, stillPoisoned, if_true]
    split <;> rfl
  rw [Stage.program, run_persistent_panic _ _ _ _ stuck]
  exact ⟨rfl, stillPoisoned⟩

private theorem not_oneWinner_of_poisoned (poisoned : cell.poisoned = true) :
    ¬ OneWinner clock key expected callers ticks cell := by
  intro promised
  rcases interleaved_replicate (PermutiveBus.deleteValueIfMatch key expected)
    (fun cell => cell.poisoned = true)
    (fun ticks cell poisoned => (run_poisoned key expected ticks cell poisoned).2)
    callers ticks cell poisoned with ⟨results, later, last, interleaved, -, each⟩
  have one := (promised results later last interleaved).1
  have noWinner : some true ∉ results := by
    intro member
    rcases each _ member with ⟨ticks, cell, poisoned, same⟩
    rw [(run_poisoned key expected ticks cell poisoned).1] at same
    cases same
  rw [List.count_eq_zero_of_not_mem noWinner] at one
  cases one

private theorem two_winners (two : 2 ≤ callers) (sound : cell.poisoned = false)
    (copied : (remains (clock ticks) cell.copy).map Entry.value = some expected)
    (held : cell.row = some expected) :
    ∃ results later last,
      Interleaved oneCell clock
        (List.replicate callers (PermutiveBus.deleteValueIfMatch key expected)) ticks cell
        results later last ∧
      2 ≤ results.count (some true) := by
  obtain ⟨others, rfl⟩ : ∃ others, callers = others + 2 := ⟨callers - 2, by omega⟩
  let request : DataBusCall := .deleteValueIfMatch key expected
  let caller := PermutiveBus.deleteValueIfMatch key expected
  let rest := List.replicate others caller
  let left : Cell := { cell with copy := none, row := none }
  -- the first caller takes the copy, the second one misses it and takes the row
  have firstTakes : oneCell.step ⟨.transient, request⟩ (clock ticks) cell =
      (some true, { cell with copy := none }) := by
    change (some (Cell.transientStep request (clock ticks) cell).1,
      (Cell.transientStep request (clock ticks) cell).2) = _
    simp only [request, Cell.transientStep, if_pos copied]
  have secondMisses : oneCell.step ⟨.transient, request⟩ (clock (ticks + 1))
      { cell with copy := none } = (some false, { cell with copy := none }) := rfl
  have secondTakes : oneCell.step ⟨.persistent, request⟩ (clock (ticks + 2))
      { cell with copy := none } = (some true, left) := by
    change Cell.persistentStep request _ = _
    simp only [request, left, Cell.persistentStep, if_pos held, Cell.locked, sound,
      Bool.false_eq_true, if_false]
  have firstMisses : oneCell.step ⟨.persistent, request⟩ (clock (ticks + 3)) left =
      (some false, left) := by
    have unmatched : left.row ≠ some expected := fun impossible => by cases impossible
    have stillSound : left.poisoned = false := sound
    change Cell.persistentStep (.deleteValueIfMatch key expected) left = _
    simp only [Cell.persistentStep, if_neg unmatched, Cell.locked, stillSound,
      Bool.false_eq_true, if_false]
  rcases interleaved_replicate caller (fun _ => True) (fun _ _ _ => trivial) others (ticks + 4)
    left trivial with ⟨results, later, last, remaining, -⟩
  have settled : Interleaved oneCell clock
      (.ended (some true) :: .ended (some true) :: rest) (ticks + 4) left
      (some true :: some true :: results) later last :=
    (remaining.cons_ended (some true)).cons_ended (some true)
  have afterThird : Interleaved oneCell clock
      ((Stage.half true).program key expected :: .ended (some true) :: rest) (ticks + 3) left
      (some true :: some true :: results) later last := by
    refine .step [] (.ended (some true) :: rest) ⟨.persistent, request⟩
      (fun persistentMatch => .done (true || persistentMatch)) (ticks + 3) left _ later last ?_
    rw [firstMisses]
    exact settled
  have afterSecond : Interleaved oneCell clock
      ((Stage.half true).program key expected :: (Stage.half false).program key expected :: rest)
      (ticks + 2) { cell with copy := none } (some true :: some true :: results) later last := by
    refine .step [(Stage.half true).program key expected] rest ⟨.persistent, request⟩
      (fun persistentMatch => .done (false || persistentMatch)) (ticks + 2) _ _ later last ?_
    rw [secondTakes]
    exact afterThird
  have afterFirst : Interleaved oneCell clock
      ((Stage.half true).program key expected :: caller :: rest) (ticks + 1)
      { cell with copy := none } (some true :: some true :: results) later last := by
    refine .step [(Stage.half true).program key expected] rest ⟨.transient, request⟩
      (fun transientMatch => (Stage.half transientMatch).program key expected) (ticks + 1) _ _
      later last ?_
    rw [secondMisses]
    exact afterSecond
  have all : Interleaved oneCell clock (List.replicate (others + 2) caller) ticks cell
      (some true :: some true :: results) later last := by
    refine .step [] (caller :: rest) ⟨.transient, request⟩
      (fun transientMatch => (Stage.half transientMatch).program key expected) ticks cell _
      later last ?_
    rw [firstTakes]
    exact afterFirst
  refine ⟨_, later, last, all, ?_⟩
  rw [List.count_cons_self, List.count_cons_self]
  omega

private theorem not_oneWinner_of_both (two : 2 ≤ callers) (sound : cell.poisoned = false)
    (copied : (remains (clock ticks) cell.copy).map Entry.value = some expected)
    (held : cell.row = some expected) : ¬ OneWinner clock key expected callers ticks cell := by
  intro promised
  rcases two_winners two sound copied held with ⟨results, later, last, interleaved, several⟩
  have one := (promised results later last interleaved).1
  omega

/-- Exactly one winner: the tier is sound, and the value is not in both tiers
unless there is one caller. -/
theorem oneWinner_iff (monotone : Monotone clock) (some_caller : 0 < callers)
    (live : cell.value (clock ticks) = some expected) :
    OneWinner clock key expected callers ticks cell ↔
      cell.poisoned = false ∧
        (remains (clock ticks) cell.copy = none ∨ cell.row = none ∨
          (cell.row = some expected ∧ callers = 1)) := by
  unfold Cell.value at live
  constructor
  · intro promised
    have sound : cell.poisoned = false := by
      by_contra poisoned
      exact not_oneWinner_of_poisoned (Bool.not_eq_false _ ▸ poisoned) promised
    refine ⟨sound, ?_⟩
    cases copied : remains (clock ticks) cell.copy with
    | none => exact Or.inl rfl
    | some entry =>
        rw [copied] at live
        right
        cases held : cell.row with
        | none => exact Or.inl rfl
        | some other =>
            right
            have same : other = expected := by
              by_contra different
              exact not_oneWinner_of_other_row different held promised
            subst same
            refine ⟨rfl, ?_⟩
            by_contra several
            have matched : (remains (clock ticks) cell.copy).map Entry.value = some other := by
              rw [copied]
              exact live
            exact not_oneWinner_of_both (by omega) sound matched held promised
  · intro condition
    rcases condition with ⟨sound, placed⟩
    cases copied : remains (clock ticks) cell.copy with
    | none =>
        rw [copied] at live
        exact oneWinner_of_row monotone some_caller sound copied live
    | some entry =>
        rw [copied] at live
        have matched : (remains (clock ticks) cell.copy).map Entry.value = some expected := by
          rw [copied]
          exact live
        rcases placed with gone | noRow | ⟨held, rfl⟩
        · rw [gone] at copied
          cases copied
        · exact oneWinner_of_copy monotone some_caller sound matched noRow
        · exact oneWinner_of_single monotone sound matched held

end Winner

/-! ### On the bus -/

/-- Callers in flight on the bus, all comparing one key with one value: in every
interleaving one of them wins, and the key is gone from both tiers. -/
def DeletesOnce (site : Site) (clock : Nat → Instant) (ticks : Nat) (bus : PermutiveBus)
    (key value : Bytes) (callers : Nat) : Prop :=
  ∀ results later last,
    Interleaved (bothTiers site) clock
      (List.replicate callers (PermutiveBus.deleteValueIfMatch key value)) ticks bus
      results later last →
    results.count (some true) = 1 ∧
      remains (clock later) last.transient.contents[key]? = none ∧
      last.persistent.row key = none

/-- From any state the bus reaches in which the key has the value, exactly one caller
wins exactly when no call has poisoned the mutex before and the value is not held
by both tiers at once, unless there is a single caller and the two values agree. -/
theorem compare_and_delete_one_winner_iff (site : Site) (clock : Nat → Instant)
    (monotone : Monotone clock) (disk : Disk) (ticks : Nat) (bus : PermutiveBus)
    (reached : Reachable site clock disk ticks bus) (key value : Bytes) (callers : Nat)
    (some_caller : 0 < callers)
    (live : (bus.cell site key).value (clock ticks) = some value) :
    DeletesOnce site clock ticks bus key value callers ↔
      bus.persistent.poisoned = false ∧
        (remains (clock ticks) bus.transient.contents[key]? = none ∨
          bus.persistent.row key = none ∨
          (bus.persistent.row key = some value ∧ callers = 1)) := by
  have uses : ∀ program ∈ List.replicate callers (PermutiveBus.deleteValueIfMatch key value),
      program.Uses (AboutKey key) := by
    intro program member
    have about : (PermutiveBus.call (.deleteValueIfMatch key value)).Uses (AboutKey key) :=
      call_uses rfl
    rw [List.eq_of_mem_replicate member]
    exact about
  have onCell : OneWinner clock key value callers ticks (bus.cell site key) ↔ _ :=
    oneWinner_iff monotone some_caller live
  constructor
  · intro promised
    apply onCell.mp
    intro results later last interleaved
    rcases (cellProjection site key).lift interleaved rfl uses reached.attached with
      ⟨final, onBus, rfl⟩
    exact promised results later final onBus
  · intro condition results later last interleaved
    exact onCell.mpr condition results later (last.cell site key)
      ((cellProjection site key).interleaved interleaved uses reached.attached)

def cachedState : Nat × PermutiveBus :=
  afterCalls sampleSite stillClock ∅
    [.writeValue (asBytes "users:1") (asBytes "a"), .readValue (asBytes "users:1")]

def writtenState : Nat × PermutiveBus :=
  afterCalls sampleSite stillClock ∅ [.writeValue (asBytes "users:1") (asBytes "a")]

theorem compare_and_delete_from_row :
    DeletesOnce sampleSite stillClock writtenState.1 writtenState.2 (asBytes "users:1")
        (asBytes "a") 20 ↔
      writtenState.2.persistent.poisoned = false ∧
        (remains (stillClock writtenState.1)
            writtenState.2.transient.contents[asBytes "users:1"]? = none ∨
          writtenState.2.persistent.row (asBytes "users:1") = none ∨
          (writtenState.2.persistent.row (asBytes "users:1") = some (asBytes "a") ∧ 20 = 1)) :=
  compare_and_delete_one_winner_iff sampleSite stillClock stillClock_monotone ∅ writtenState.1
    writtenState.2 (reachable_afterCalls sampleSite stillClock ∅ _) (asBytes "users:1")
    (asBytes "a") 20 (by decide) (by decide +kernel)

/-- Two callers compare and delete a key that has been read before: both win. -/
theorem cached_key_has_two_winners :
    Reachable sampleSite stillClock ∅ cachedState.1 cachedState.2 ∧
      (cachedState.2.cell sampleSite (asBytes "users:1")).value (stillClock cachedState.1) =
        some (asBytes "a") ∧
      ∃ results later last,
        Interleaved (bothTiers sampleSite) stillClock
          (List.replicate 2
            (PermutiveBus.deleteValueIfMatch (asBytes "users:1") (asBytes "a")))
          cachedState.1 cachedState.2 results later last ∧
        results.count (some true) ≠ 1 := by
  have reached := reachable_afterCalls sampleSite stillClock ∅
    [.writeValue (asBytes "users:1") (asBytes "a"), .readValue (asBytes "users:1")]
  have sound : (cachedState.2.cell sampleSite (asBytes "users:1")).poisoned = false := by
    decide +kernel
  have copied : (remains (stillClock cachedState.1)
      (cachedState.2.cell sampleSite (asBytes "users:1")).copy).map Entry.value =
      some (asBytes "a") := by
    decide +kernel
  have held : (cachedState.2.cell sampleSite (asBytes "users:1")).row = some (asBytes "a") := by
    decide +kernel
  refine ⟨reached, by decide +kernel, ?_⟩
  rcases two_winners (Nat.le_refl 2) sound copied held with
    ⟨results, later, last, interleaved, several⟩
  have uses : ∀ program ∈ List.replicate 2
      (PermutiveBus.deleteValueIfMatch (asBytes "users:1") (asBytes "a")),
      program.Uses (AboutKey (asBytes "users:1")) := by
    intro program member
    have about : (PermutiveBus.call
        (.deleteValueIfMatch (asBytes "users:1") (asBytes "a"))).Uses
        (AboutKey (asBytes "users:1")) := call_uses rfl
    rw [List.eq_of_mem_replicate member]
    exact about
  rcases (cellProjection sampleSite (asBytes "users:1")).lift interleaved rfl uses
    reached.attached with ⟨final, onBus, -⟩
  refine ⟨results, later, final, onBus, ?_⟩
  omega

end TricPlus
