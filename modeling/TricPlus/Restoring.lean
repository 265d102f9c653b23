import TricPlus.Cli
import TricPlus.Listing

/-!
What is on a bus after a list of records was restored: for each key its last record.
-/

namespace TricPlus

open Std (ExtTreeMap)
open AtomicProgram
open ExpiringMap (Entry remains)

section Ends

variable {site : Site} {clock : Nat → Instant} {start : SqliteBus} {ticks : Nat}
  {bus : PermutiveBus}

private theorem restoreEntry_ends (kept : Kept site start bus.persistent) (entry : Dumped) :
    Ends site clock start (Cli.restoreEntry entry) ticks bus (start.Stores site entry.1.1)
      (fun _ => True) := by
  have write : Ends site clock start (DataBus.writeValue entry.1.1 entry.1.2) ticks bus
    (bus.persistent.Stores site entry.1.1) (fun _ => True) :=
    (Ends.call kept (.writeValue entry.1.1 entry.1.2)).mono (fun _ _ => trivial)
  apply Ends.congr _ (kept.stores entry.1.1)
  unfold Cli.restoreEntry
  apply write.noting.andThen
  intro _ later last keptAfter noted
  have works : last.persistent.Works := keptAfter.works.mpr (kept.works.mp noted.2.1)
  split
  · apply Ends.congr _ (iff_of_true works trivial)
    exact (Ends.call keptAfter (.writeTtl entry.1.1 (fromMillis entry.2))).mono
      (fun _ _ => trivial)
  · exact Ends.done keptAfter () trivial

theorem restoreEntries_ends (kept : Kept site start bus.persistent) (entries : List Dumped) :
    Ends site clock start (Cli.restoreEntries entries) ticks bus
      (∀ entry ∈ entries, start.Stores site entry.1.1) (fun _ => True) := by
  induction entries generalizing ticks bus with
  | nil =>
      apply (Ends.done kept () trivial).congr
      simp only [List.not_mem_nil, false_implies, implies_true]
  | cons entry entries ih =>
      apply ((restoreEntry_ends kept entry).bind (fun _ _ _ keptAfter _ => ih keptAfter)).congr
      simp only [List.forall_mem_cons]

end Ends

def lastEntry (key : Bytes) : List Dumped → Option (Bytes × Nat)
  | [] => none
  | entry :: entries =>
      (lastEntry key entries).or (if entry.1.1 = key then some (entry.1.2, entry.2) else none)

theorem lastEntry_mem {key : Bytes} {entries : List Dumped} {value : Bytes} {millis : Nat}
    (last : lastEntry key entries = some (value, millis)) : ((key, value), millis) ∈ entries := by
  induction entries with
  | nil => cases last
  | cons entry entries ih =>
      unfold lastEntry at last
      rcases Option.or_eq_some_iff.mp last with later | ⟨-, here⟩
      · exact List.mem_cons_of_mem _ (ih later)
      · split at here
        · rename_i same
          cases here
          rw [← same]
          exact List.mem_cons_self ..
        · cases here

theorem lastEntry_isSome {key : Bytes} {entries : List Dumped} {entry : Dumped}
    (member : entry ∈ entries) (about : entry.1.1 = key) :
    ∃ value millis, lastEntry key entries = some (value, millis) := by
  induction entries with
  | nil => cases member
  | cons head entries ih =>
      unfold lastEntry
      cases later : lastEntry key entries with
      | some found => exact ⟨found.1, found.2, rfl⟩
      | none =>
          rcases List.mem_cons.mp member with same | inRest
          · rw [← same, if_pos about]
            exact ⟨_, _, rfl⟩
          · rcases ih inRest with ⟨value, millis, found⟩
            cases later.symm.trans found

/-- A key as its last record leaves it, or as it was where it has none; a deadline counts
from some reading in between. -/
def RestoredAs (clock : Nat → Instant) (start later : Nat) (last : Option (Bytes × Nat))
    (before : Option (Entry Bytes Instant)) (cell : Cell) : Prop :=
  match last with
  | none => cell.Matches (clock later) before
  | some (value, 0) => cell.Matches (clock later) (some ⟨value, none⟩)
  | some (value, millis + 1) => ∃ set, start ≤ set ∧ set ≤ later ∧
      cell.Matches (clock later) (some ⟨value, some (clock set + fromMillis (millis + 1))⟩)

section Run

variable {site : Site} {clock : Nat → Instant} {ticks : Nat} {bus : PermutiveBus}

theorem run_store (sound : bus.persistent.Works) (attached : bus.persistent.Attached)
    {key : Bytes} (usable : bus.persistent.usable site key = true) (value : Bytes) :
    ∃ after, run (bothTiers site) clock (PermutiveBus.call (.writeValue key value)) ticks bus =
        ⟨some (), ticks + 2, after⟩ ∧
      after.cell site key = { bus.cell site key with copy := none, row := some value } := by
  have onCell := run_cell site clock (rfl : (DataBusCall.writeValue key value).key? = some key)
    ticks attached
  rw [show run oneCell clock (PermutiveBus.call (.writeValue key value)) ticks
    (bus.cell site key) = _ from
      @run_writeValue clock ticks (bus.cell site key) sound usable key value] at onCell
  rcases ran : run (bothTiers site) clock (PermutiveBus.call (.writeValue key value)) ticks bus
    with ⟨result, later, after⟩
  rw [ran] at onCell
  cases congrArg Outcome.result onCell
  cases congrArg Outcome.ticks onCell
  exact ⟨after, rfl, (congrArg Outcome.state onCell).symm⟩

theorem run_move (sound : bus.persistent.Works) (attached : bus.persistent.Attached)
    {key value : Bytes} (row : (bus.cell site key).row = some value) (duration : Duration) :
    ∃ after, run (bothTiers site) clock (PermutiveBus.call (.writeTtl key duration)) ticks bus =
        ⟨some (), ticks + 4, after⟩ ∧
      after.cell site key =
        { bus.cell site key with
          copy := some ⟨value, some (clock (ticks + 3) + duration)⟩
          row := none } := by
  have onCell := run_cell site clock (rfl : (DataBusCall.writeTtl key duration).key? = some key)
    ticks attached
  rw [show run oneCell clock (PermutiveBus.call (.writeTtl key duration)) ticks
    (bus.cell site key) = _ from
      @run_writeTtl_move clock ticks (bus.cell site key) sound key duration value row] at onCell
  rcases ran : run (bothTiers site) clock (PermutiveBus.call (.writeTtl key duration)) ticks bus
    with ⟨result, later, after⟩
  rw [ran] at onCell
  cases congrArg Outcome.result onCell
  cases congrArg Outcome.ticks onCell
  exact ⟨after, rfl, (congrArg Outcome.state onCell).symm⟩

structure Steady (site : Site) (before after : PermutiveBus) : Prop where
  works : after.persistent.Works
  whole : after.persistent.Whole site
  usable : ∀ key, after.persistent.usable site key = before.persistent.usable site key

private theorem steady_of_run {request : DataBusCall} {key : Bytes}
    (whole : bus.persistent.Whole site)
    {later : Nat} {after : PermutiveBus} {result : Option request.Reply}
    (ran : run (bothTiers site) clock (PermutiveBus.call request) ticks bus =
      ⟨result, later, after⟩)
    (sound : (after.cell site key).poisoned = false) : Steady site bus after where
  works := sound
  whole := by
    have kept := run_invariant (bothTiers site) clock (fun bus => bus.persistent.Whole site)
      (bothTiers_whole site) (PermutiveBus.call request) ticks bus whole
    rw [ran] at kept
    exact kept
  usable := by
    intro key
    have kept := @run_keeps_usable site clock ticks bus _ (PermutiveBus.call request) key
    rw [ran] at kept
    exact kept

theorem Steady.trans {first second third : PermutiveBus} (left : Steady site first second)
    (right : Steady site second third) : Steady site first third where
  works := right.works
  whole := right.whole
  usable := fun key => (right.usable key).trans (left.usable key)

private theorem run_restoreEntry (monotone : Monotone clock) (sound : bus.persistent.Works)
    (whole : bus.persistent.Whole site) {entry : Dumped}
    (usable : bus.persistent.usable site entry.1.1 = true) :
    ∃ later after, run (bothTiers site) clock (onTiers (Cli.restoreEntry entry)) ticks bus =
        ⟨some (), later, after⟩ ∧ ticks ≤ later ∧ Steady site bus after ∧
      (∀ key before, (bus.cell site key).Matches (clock ticks) before →
        RestoredAs clock ticks later (lastEntry key [entry]) before (after.cell site key)) := by
  rcases entry with ⟨⟨key, value⟩, millis⟩
  rcases @run_store site clock ticks bus sound whole.attached key usable value with
    ⟨written, wrote, cellWritten⟩
  have steady : Steady site bus written :=
    steady_of_run whole wrote (by rw [cellWritten]; exact sound)
  have others : ∀ other before, key ≠ other → (bus.cell site other).Matches (clock ticks) before →
      (written.cell site other).Matches (clock (ticks + 2)) before := by
    intro other before different matched
    have kept := @run_matches_other site clock ticks bus other before monotone
      (.writeValue key value) (fun same => different (Option.some_inj.mp same)) whole matched
    rw [wrote] at kept
    exact kept
  have program : onTiers (Cli.restoreEntry ((key, value), millis)) =
      (PermutiveBus.call (.writeValue key value)).bind (fun _ => onTiers
        (if 0 < millis then DataBus.writeTtl key (fromMillis millis) else pure ())) := rfl
  rw [program, run_bind, wrote]
  cases millis with
  | zero =>
      refine ⟨ticks + 2, written, rfl, Nat.le_add_right .., steady, ?_⟩
      intro other before matched
      by_cases mine : key = other
      · subst mine
        have last : lastEntry key [((key, value), 0)] = some (value, 0) := by
          simp only [lastEntry, Option.none_or, if_true]
        rw [last, cellWritten]
        exact Cell.Matches.of_row (fun copy found => by cases found)
      · have last : lastEntry other [((key, value), 0)] = none := by
          simp only [lastEntry, Option.none_or, if_neg mine]
        rw [last]
        exact others other before mine matched
  | succ millis =>
      have row : (written.cell site key).row = some value := by rw [cellWritten]
      rcases @run_move site clock (ticks + 2) written steady.works steady.whole.attached key value
        row (fromMillis (millis + 1)) with ⟨moved, ran, cellMoved⟩
      have rest : run (bothTiers site) clock (onTiers
          (if 0 < millis + 1 then DataBus.writeTtl key (fromMillis (millis + 1)) else pure ()))
          (ticks + 2) written = ⟨some (), ticks + 2 + 4, moved⟩ := by
        rw [if_pos (Nat.succ_pos millis)]
        change run (bothTiers site) clock ((PermutiveBus.call (.writeTtl key
          (fromMillis (millis + 1)))).bind .done) (ticks + 2) written = _
        rw [run_bind, ran]
        rfl
      have steadyMoved : Steady site written moved :=
        steady_of_run steady.whole ran (by rw [cellMoved]; exact steady.works)
      refine ⟨ticks + 2 + 4, moved, rest, by omega, steady.trans steadyMoved, ?_⟩
      intro other before matched
      by_cases mine : key = other
      · subst mine
        have last : lastEntry key [((key, value), millis + 1)] = some (value, millis + 1) := by
          simp only [lastEntry, Option.none_or, if_true]
        rw [last, cellMoved]
        exact ⟨ticks + 2 + 3, by omega, by omega, Cell.Matches.of_copy rfl⟩
      · have last : lastEntry other [((key, value), millis + 1)] = none := by
          simp only [lastEntry, Option.none_or, if_neg mine]
        rw [last]
        have kept := @run_matches_other site clock (ticks + 2) written other before monotone
          (.writeTtl key (fromMillis (millis + 1))) (fun same => mine (Option.some_inj.mp same)) steady.whole (others other before mine matched)
        rw [ran] at kept
        exact kept

theorem RestoredAs.later_on {start middle later : Nat}
    (ordered : middle ≤ later) {last : Option (Bytes × Nat)}
    {before : Option (Entry Bytes Instant)} {cell after : Cell}
    (restored : RestoredAs clock start middle last before cell)
    (kept : ∀ entry, cell.Matches (clock middle) entry → after.Matches (clock later) entry) :
    RestoredAs clock start later last before after := by
  rcases last with _ | ⟨value, _ | millis⟩
  · exact kept _ restored
  · exact kept _ restored
  · rcases restored with ⟨set, above, below, matched⟩
    exact ⟨set, above, below.trans ordered, kept _ matched⟩

theorem run_restoreEntries (monotone : Monotone clock) (sound : bus.persistent.Works)
    (whole : bus.persistent.Whole site) {entries : List Dumped}
    (usable : ∀ entry ∈ entries, bus.persistent.usable site entry.1.1 = true) :
    ∃ later after, run (bothTiers site) clock (onTiers (Cli.restoreEntries entries)) ticks bus =
        ⟨some (), later, after⟩ ∧ ticks ≤ later ∧ Steady site bus after ∧
      (∀ key before, (bus.cell site key).Matches (clock ticks) before →
        RestoredAs clock ticks later (lastEntry key entries) before (after.cell site key)) := by
  induction entries generalizing ticks bus with
  | nil =>
      exact ⟨ticks, bus, rfl, Nat.le_refl _, ⟨sound, whole, fun _ => rfl⟩,
        fun _ _ matched => matched⟩
  | cons entry entries ih =>
      rcases @run_restoreEntry site clock ticks bus monotone sound whole entry
        (usable entry (List.mem_cons_self ..)) with ⟨middle, between, ranOne, above, steady, one⟩
      rcases @ih middle between steady.works steady.whole
        (by
          intro other member
          rw [steady.usable]
          exact usable other (List.mem_cons_of_mem _ member)) with
        ⟨later, after, ranRest, aboveRest, steadyRest, rest⟩
      refine ⟨later, after, ?_, above.trans aboveRest, steady.trans steadyRest, ?_⟩
      · have program : onTiers (Cli.restoreEntries (entry :: entries)) =
            (onTiers (Cli.restoreEntry entry)).bind (fun _ => onTiers (Cli.restoreEntries entries)) :=
          Program.translate_bind _ (Cli.restoreEntry entry) _
        rw [program, run_bind, ranOne]
        exact ranRest
      · intro key before matched
        have here := one key before matched
        have combined : lastEntry key (entry :: entries) =
            (lastEntry key entries).or (lastEntry key [entry]) := rfl
        rw [combined]
        cases last : lastEntry key entries with
        | none =>
            rw [Option.none_or]
            apply here.later_on aboveRest
            intro held matchedHeld
            have kept := rest key held matchedHeld
            rw [last] at kept
            exact kept
        | some found =>
            rw [Option.some_or]
            have matchedSome : ∃ held, (between.cell site key).Matches (clock middle) held := by
              unfold RestoredAs at here
              split at here
              · exact ⟨_, here⟩
              · exact ⟨_, here⟩
              · rcases here with ⟨set, -, -, matched⟩
                exact ⟨_, matched⟩
            rcases matchedSome with ⟨held, matchedHeld⟩
            have kept := rest key held matchedHeld
            rw [last] at kept
            rcases found with ⟨value, _ | millis⟩
            · exact kept
            · rcases kept with ⟨set, aboveSet, belowSet, matched⟩
              exact ⟨set, above.trans aboveSet, belowSet, matched⟩

end Run

end TricPlus
