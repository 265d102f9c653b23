import TricPlus.BusRefinement
import TricPlus.Lifetimes

/-!
What a bus lists, and buses on which every row is read where it is listed.
-/

namespace TricPlus

open Std (ExtTreeMap LawfulEqCmp)
open AtomicProgram
open ExpiringMap (Entry remains)
open PosixPath (Location)

namespace SqliteBus

/-- Every row there is lies in the file its namespace has open. -/
def Homed (bus : SqliteBus) : Prop :=
  ∀ (file : Location) (key value : Bytes), bus.selectValue file key = some value →
    bus.databases[namespaceOf key]? = some file

theorem Homed.nothingHidden {bus : SqliteBus} (homed : bus.Homed) (site : Site) :
    bus.NothingHidden site := by
  intro key closed
  cases stored : bus.stored site key with
  | none => rfl
  | some value =>
      have found := homed _ key value stored
      cases closed.symm.trans found

private theorem writeConnection_homed {site : Site} {bus : SqliteBus} (homed : bus.Homed)
    (space : Bytes) : (writeConnection site bus space).2.Homed := by
  intro file key value row
  rw [selectValue_writeConnection] at row
  have found := homed file key value row
  rcases writeConnection_cases site bus space with
    ⟨-, same⟩ | ⟨-, -, same⟩ | ⟨-, closed, -, same⟩ | ⟨-, -, -, same⟩
  · rw [same]
    exact found
  · rw [same]
    exact found
  · rw [same]
    simp only [ExtTreeMap.getElem?_insert, LawfulEqCmp.compare_eq_iff_eq]
    split
    · rename_i own
      subst own
      have missing : bus.databases[namespaceOf key]? = none :=
        ExtTreeMap.getElem?_eq_none_of_contains_eq_false closed
      cases missing.symm.trans found
    · exact found
  · rw [same]
    exact found

private theorem updateTable_homed {bus : SqliteBus} {about : Bytes} {file : Location}
    {change : Table → Table} (found : bus.databases[namespaceOf about]? = some file)
    (changes : RowChange about change) (homed : bus.Homed) :
    (bus.updateTable file change).Homed := by
  intro other key value row
  rw [updateTable_databases]
  by_cases mine : about = key
  · subst mine
    by_cases here : other = file
    · rw [here]
      exact found
    · rw [selectValue_eq, getElem?_updateTable, if_neg (Ne.symm here)] at row
      exact homed other about value row
  · rw [selectValue_updateTable changes mine] at row
    exact homed other key value row

private theorem step_homed {site : Site} {request : DataBusCall} {bus : SqliteBus}
    (homed : bus.Homed) :
    (step site request bus).2.Homed :=
  step_keeps site Homed request homed (fun _ _ => writeConnection_homed homed _)
    (fun _ _ _ _ _ found changes homed => updateTable_homed found changes homed)

theorem Homed.mem_listing {bus : SqliteBus} (homed : bus.Homed) {stem key value : Bytes} :
    (key, value) ∈ bus.listing stem ↔ bus.row key = some value ∧ stem <+: key := by
  rw [SqliteBus.mem_listing]
  constructor
  · intro found
    rcases found with ⟨⟨space, file, -, row⟩, starts⟩
    refine ⟨?_, starts⟩
    rw [row_of_open (homed file key value row), row]
  · intro found
    rcases found with ⟨row, starts⟩
    cases isOpen : bus.databases[namespaceOf key]? with
    | none =>
        rw [row_of_not_open isOpen] at row
        cases row
    | some file =>
        rw [row_of_open isOpen] at row
        exact ⟨⟨_, file, isOpen, row⟩, starts⟩

end SqliteBus

section Homed

variable {site : Site} {clock : Nat → Instant} {ticks : Nat} {bus : PermutiveBus}

theorem run_homed {α : Type} (program : Program tiers α) (homed : bus.persistent.Homed) :
    (run (bothTiers site) clock program ticks bus).state.persistent.Homed := by
  apply run_invariant (bothTiers site) clock (fun bus => bus.persistent.Homed) _ _ _ _ homed
  intro call now bus homed
  rcases call with ⟨tier, request⟩
  cases tier with
  | transient => exact homed
  | persistent => exact SqliteBus.step_homed homed

end Homed

/-- What a scan lists at a reading. -/
def PermutiveBus.listed (now : Instant) (bus : PermutiveBus) (stem : Bytes) :
    List (Bytes × Bytes) :=
  mergeResults (SoundTric.step (.findByPrefix stem) now bus.transient).1
    (bus.persistent.listing stem)

section Listed

variable {site : Site} {clock : Nat → Instant} {ticks : Nat} {bus : PermutiveBus}
  {key value : Bytes}

theorem run_listed (site : Site) (clock : Nat → Instant) (ticks : Nat)
    (sound : bus.persistent.Works) (stem : Bytes) :
    ∃ transient : SoundTric,
      run (bothTiers site) clock (PermutiveBus.findByPrefix stem) ticks bus =
        ⟨some (bus.listed (clock ticks) stem), ticks + 2, { bus with transient := transient }⟩ ∧
      ∀ key : Bytes, transient.contents[key]? =
        remains (clock ticks) bus.transient.contents[key]? := by
  refine ⟨_, run_findByPrefix site clock ticks sound stem, ?_⟩
  intro key
  rw [SoundTric.step_contents]
  exact ExpiringMap.getElem?_purge (clock ticks) bus.transient.contents key

theorem listed_of_returned {stem : Bytes} {pairs : List (Bytes × Bytes)}
    (returned : (run (bothTiers site) clock (PermutiveBus.findByPrefix stem) ticks bus).result =
      some pairs) : bus.persistent.Works ∧ pairs = bus.listed (clock ticks) stem := by
  cases poisoned : bus.persistent.poisoned with
  | true =>
      rw [run_findByPrefix_stuck site clock ticks poisoned] at returned
      cases returned
  | false =>
      rcases run_listed site clock ticks poisoned stem with ⟨transient, ran, -⟩
      rw [ran] at returned
      exact ⟨poisoned, (Option.some_inj.mp returned).symm⟩

theorem listed_of_value {now : Instant} (shown : (bus.cell site key).value now = some value) :
    (key, value) ∈ bus.listed now [] := by
  unfold PermutiveBus.listed
  rw [mem_mergeResults, mem_transient_scan]
  unfold Cell.value PermutiveBus.cell at shown
  cases current : remains now bus.transient.contents[key]? with
  | some entry =>
      rw [current] at shown
      exact Or.inl ⟨shown, List.nil_prefix⟩
  | none =>
      rw [current] at shown
      have isOpen : ∃ file : Location, bus.persistent.databases[namespaceOf key]? = some file := by
        cases found : bus.persistent.databases[namespaceOf key]? with
        | some file => exact ⟨file, rfl⟩
        | none =>
            have noRow := SqliteBus.row_of_not_open found
            cases noRow.symm.trans shown
      rcases isOpen with ⟨file, found⟩
      have row : bus.persistent.selectValue file key = some value :=
        (SqliteBus.row_of_open found).symm.trans shown
      refine Or.inr ⟨SqliteBus.mem_listing.mpr ⟨⟨_, file, found, row⟩, List.nil_prefix⟩, ?_⟩
      intro listed
      rcases List.mem_map.mp listed with ⟨⟨about, held⟩, member, same⟩
      cases same
      have copied := (mem_transient_scan.mp member).1
      rw [current] at copied
      cases copied

theorem mem_listed_iff (site : Site) (homed : bus.persistent.Homed) {now : Instant}
    {stem : Bytes} :
    (key, value) ∈ bus.listed now stem ↔
      (bus.cell site key).value now = some value ∧ stem <+: key :=
  mem_merged_iff site (fun _ _ => homed.mem_listing)

end Listed

/-- Nothing is stored, in no tier and in no file; databases may be open. -/
structure PermutiveBus.Empty (bus : PermutiveBus) : Prop where
  works : bus.persistent.Works
  attached : bus.persistent.Attached
  noRows : ∀ (file : Location) (key : Bytes), bus.persistent.selectValue file key = none
  noCopies : ∀ key : Bytes, bus.transient.contents[key]? = none

namespace PermutiveBus.Empty

variable {bus : PermutiveBus}

theorem homed (empty : bus.Empty) : bus.persistent.Homed := by
  intro file key value row
  cases (empty.noRows file key).symm.trans row

theorem whole (empty : bus.Empty) (site : Site) : bus.persistent.Whole site :=
  ⟨empty.attached, empty.homed.nothingHidden site⟩

theorem row (empty : bus.Empty) (key : Bytes) : bus.persistent.row key = none := by
  cases row : bus.persistent.row key with
  | none => rfl
  | some value =>
      unfold SqliteBus.row at row
      rw [Option.bind_eq_bind, Option.bind_eq_some_iff] at row
      rcases row with ⟨file, -, selected⟩
      cases (empty.noRows file key).symm.trans selected

theorem nothing (empty : bus.Empty) (site : Site) (now : Instant) (key : Bytes) :
    (bus.cell site key).Matches now none where
  stored := by
    intro value row
    cases (empty.row key).symm.trans row
  cached := by
    intro value copy row
    cases (empty.row key).symm.trans row
  alone := fun _ => congrArg (remains now) (empty.noCopies key)

theorem tracked (empty : bus.Empty) (site : Site) (clock : Nat → Instant) (ticks : Nat) :
    Tracked site clock ∅ ticks bus where
  sound := empty.works
  whole := empty.whole site
  matched := by
    intro key
    rw [ExtTreeMap.getElem?_empty]
    exact empty.nothing site (clock ticks) key

end PermutiveBus.Empty

theorem emptyBus_empty : emptyBus.Empty where
  works := rfl
  attached := emptyBus_attached
  noRows := by
    intro file key
    rw [SqliteBus.selectValue_eq]
    have noFile : emptyBus.persistent.disk[file]? = none := ExtTreeMap.getElem?_empty
    rw [noFile]
    rfl
  noCopies := fun key => (emptyBus_cell openSite key).1

/-- The value of a key with its deadline: a row lasts, else the copy counts. -/
def Cell.entry (now : Instant) (cell : Cell) : Option (Entry Bytes Instant) :=
  match cell.row with
  | some value => some ⟨value, none⟩
  | none => remains now cell.copy

theorem Cell.Matches.entry_eq {now : Instant} {entry : Option (Entry Bytes Instant)} {cell : Cell}
    (matched : cell.Matches now entry) : cell.entry now = remains now entry := by
  unfold Cell.entry
  cases row : cell.row with
  | some value =>
      rw [matched.stored value row]
      rfl
  | none => exact matched.alone row

end TricPlus
