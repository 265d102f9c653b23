import TricPlus.SqliteBus

/-!
What a call on the persistent tier can do: open the database of its key, change
the row of its key, or poison the mutex.
-/

namespace TricPlus

open Std (ExtTreeMap LawfulEqCmp)
open PosixPath (Name Location)

theorem nameIn_eq_some {directory file : Location} {name : Name} :
    nameIn directory file = some name ↔ file = directory ++ [name] := by
  unfold nameIn
  rw [Option.filter_eq_some_iff, decide_eq_true_eq]
  constructor
  · intro both
    exact both.2
  · intro same
    refine ⟨?_, same⟩
    rw [same]
    exact List.getLast?_concat

theorem mem_entries {disk : Disk} {directory : Location} {name : Name} :
    name ∈ disk.entries directory ↔ (disk[directory ++ [name]]?).isSome = true := by
  unfold Disk.entries
  rw [List.mem_filterMap]
  constructor
  · intro found
    rcases found with ⟨⟨file, table⟩, member, named⟩
    rw [nameIn_eq_some] at named
    subst named
    rw [ExtTreeMap.mem_toList_iff_getElem?_eq_some.mp member]
    rfl
  · intro present
    rcases Option.isSome_iff_exists.mp present with ⟨table, found⟩
    exact ⟨(directory ++ [name], table), ExtTreeMap.mem_toList_iff_getElem?_eq_some.mpr found,
      nameIn_eq_some.mpr rfl⟩

namespace SqliteBus

/-- Opening a connection: the mutex is poisoned, the database is open, it is opened
now, or it cannot be. -/
theorem writeConnection_cases (site : Site) (bus : SqliteBus) (space : Bytes) :
    (bus.poisoned = true ∧ writeConnection site bus space = (none, bus)) ∨
    (bus.poisoned = false ∧ bus.databases.contains space = true ∧
      writeConnection site bus space = (some (), bus)) ∨
    (bus.poisoned = false ∧ bus.databases.contains space = false ∧
      site.opens (site.databasePath space) = true ∧
      writeConnection site bus space =
        (some (),
          { bus with
            databases := bus.databases.insert space (site.databaseFile space)
            disk :=
              if bus.disk.contains (site.databaseFile space) then bus.disk
              else bus.disk.insert (site.databaseFile space) ∅ })) ∨
    (bus.poisoned = false ∧ bus.databases.contains space = false ∧
      site.opens (site.databasePath space) = false ∧
      writeConnection site bus space = (none, { bus with poisoned := true })) := by
  unfold writeConnection
  cases poisoned : bus.poisoned with
  | true => exact Or.inl ⟨rfl, rfl⟩
  | false =>
      right
      cases present : bus.databases.contains space with
      | true => exact Or.inl ⟨rfl, rfl, rfl⟩
      | false =>
          right
          cases openable : site.opens (site.databasePath space) with
          | true =>
              refine Or.inl ⟨rfl, rfl, rfl, ?_⟩
              simp only [openable, if_true, Bool.false_eq_true, if_false]
              rfl
          | false =>
              refine Or.inr ⟨rfl, rfl, rfl, ?_⟩
              simp only [openable, Bool.false_eq_true, if_false]

theorem updateTable_databases (bus : SqliteBus) (file : Location) (change : Table → Table) :
    (bus.updateTable file change).databases = bus.databases := by
  unfold updateTable
  split <;> rfl

theorem updateTable_poisoned (bus : SqliteBus) (file : Location) (change : Table → Table) :
    (bus.updateTable file change).poisoned = bus.poisoned := by
  unfold updateTable
  split <;> rfl

theorem getElem?_updateTable (bus : SqliteBus) (file other : Location)
    (change : Table → Table) :
    (bus.updateTable file change).disk[other]? =
      if file = other then bus.disk[file]?.map change else bus.disk[other]? := by
  unfold updateTable
  cases found : bus.disk[file]? with
  | none =>
      by_cases same : file = other
      · subst same
        simp only [if_true, found, Option.map_none]
      · simp only [if_neg same]
  | some table =>
      simp only [ExtTreeMap.getElem?_insert, LawfulEqCmp.compare_eq_iff_eq, Option.map_some]

inductive RowChange (key : Bytes) : (Table → Table) → Prop where
  | insert (value : Bytes) : RowChange key (fun table => table.insert key value)
  | erase : RowChange key (fun table => table.erase key)

/-- What opening the database of a key to write and changing its row keep, every
call about that key keeps. -/
theorem step_keeps (site : Site) (inv : SqliteBus → Prop) (request : DataBusCall)
    {bus : SqliteBus} (start : inv bus)
    (opening : ∀ key, request.written? = some key →
      inv (writeConnection site bus (namespaceOf key)).2)
    (updating : ∀ bus key file change, request.key? = some key →
      bus.databases[namespaceOf key]? = some file → RowChange key change → inv bus →
      inv (bus.updateTable file change)) : inv (step site request bus).2 := by
  have writing : ∀ key value, request.written? = some key →
      inv (writeValue site bus key value).2 := by
    intro key value written
    have opened := opening key written
    unfold writeValue
    rcases connected : writeConnection site bus (namespaceOf key) with ⟨reply, after⟩
    rw [connected] at opened
    cases reply with
    | none => exact opened
    | some reply =>
        simp only [locked]
        split
        · exact opened
        · cases found : after.databases[namespaceOf key]? with
          | none => exact opened
          | some file =>
              exact updating after key file _ (DataBusCall.key?_of_written? written) found
                (.insert value) opened
  have erasing : ∀ key file, request.key? = some key →
      bus.databases[namespaceOf key]? = some file →
      inv (bus.updateTable file (fun table => table.erase key)) := fun key file about found =>
    updating bus key file _ about found .erase start
  cases request with
  | readValue key =>
      simp only [step, SqliteBus.readValue, locked]
      split
      · exact start
      · cases bus.databases[namespaceOf key]? <;> exact start
  | writeValue key value => exact writing key value rfl
  | deleteValue key =>
      simp only [step, SqliteBus.deleteValue, locked]
      split
      · exact start
      · cases found : bus.databases[namespaceOf key]? with
        | none => exact start
        | some file => exact erasing key file rfl found
  | deleteValueIfMatch key expected =>
      simp only [step, SqliteBus.deleteValueIfMatch, locked]
      split
      · exact start
      · cases found : bus.databases[namespaceOf key]? with
        | none => exact start
        | some file =>
            simp only
            split
            · exact erasing key file rfl found
            · exact start
  | writeTtl key duration => exact start
  | writeValueWithTtl key value duration => exact writing key value rfl
  | readTtlRemaining key => exact start
  | findByPrefix stem =>
      simp only [step, SqliteBus.findByPrefix, locked]
      split <;> exact start

end SqliteBus

end TricPlus
