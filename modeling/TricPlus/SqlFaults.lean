import TricPlus.BusRefinement

/-!
The persistent tier where SQLite fails.

Any single statement can fail: a database does not open, a select finds nothing, an
insert or a delete is not carried out, a listing leaves rows out.  The code passes over
all of these but the first, which panics.
-/

namespace TricPlus

open Std (ExtTreeMap)
open AtomicProgram
open PosixPath (RawPath Location)

/-- What SQLite does during one call. -/
structure SqlFaults where
  opens : Bool
  selects : Bool
  executes : Bool
  /-- The rows that a listing yields, by file and key. -/
  yields : Location → Bytes → Bool

/-- Every statement succeeds. -/
def noFaults : SqlFaults where
  opens := true
  selects := true
  executes := true
  yields := fun _ _ => true

def Site.under (site : Site) (faults : SqlFaults) : Site :=
  { site with opens := fun path => site.opens path && faults.opens }

namespace SqliteBus

section Under

variable (faults : SqlFaults) (bus : SqliteBus)

def selectUnder (file : Location) (key : Bytes) : Option Bytes :=
  if faults.selects then bus.selectValue file key else none

def updateUnder (file : Location) (change : Table → Table) : SqliteBus :=
  if faults.executes then bus.updateTable file change else bus

def readValueUnder (key : Bytes) : Option (Option Bytes) × SqliteBus :=
  bus.locked (fun bus =>
    match bus.databases[namespaceOf key]? with
    | none => (none, bus)
    | some file => (bus.selectUnder faults file key, bus))

def writeValueUnder (site : Site) (key value : Bytes) : Option Unit × SqliteBus :=
  match writeConnection (site.under faults) bus (namespaceOf key) with
  | (none, after) => (none, after)
  | (some (), opened) =>
      opened.locked (fun opened =>
        match opened.databases[namespaceOf key]? with
        | none => ((), opened)
        | some file => ((), opened.updateUnder faults file (fun table => table.insert key value)))

def deleteValueUnder (key : Bytes) : Option Unit × SqliteBus :=
  bus.locked (fun bus =>
    match bus.databases[namespaceOf key]? with
    | none => ((), bus)
    | some file => ((), bus.updateUnder faults file (fun table => table.erase key)))

def deleteValueIfMatchUnder (key expected : Bytes) : Option Bool × SqliteBus :=
  bus.locked (fun bus =>
    match bus.databases[namespaceOf key]? with
    | none => (false, bus)
    | some file =>
        if bus.selectUnder faults file key = some expected then
          (true, bus.updateUnder faults file (fun table => table.erase key))
        else (false, bus))

def listingUnder (stem : Bytes) : List (Bytes × Bytes) :=
  OrderedScan.sortByKey
    (bus.databases.toList.flatMap (fun database =>
      (bus.matchingRows stem database.2).filter (fun row => faults.yields database.2 row.1)))

def findByPrefixUnder (stem : Bytes) : Option (List (Bytes × Bytes)) × SqliteBus :=
  bus.locked (fun bus => (bus.listingUnder faults stem, bus))

def stepUnder (site : Site) (request : DataBusCall) : Option request.Reply × SqliteBus :=
  match request with
  | .readValue key => bus.readValueUnder faults key
  | .writeValue key value => bus.writeValueUnder faults site key value
  | .deleteValue key => bus.deleteValueUnder faults key
  | .deleteValueIfMatch key expected => bus.deleteValueIfMatchUnder faults key expected
  | .writeTtl _ _ => (some (), bus)
  | .writeValueWithTtl key value _ => bus.writeValueUnder faults site key value
  | .readTtlRemaining _ => (some none, bus)
  | .findByPrefix stem => bus.findByPrefixUnder faults stem

end Under

private theorem site_under_noFaults (site : Site) : site.under noFaults = site := by
  unfold Site.under noFaults
  simp only [Bool.and_true]

private theorem listingUnder_noFaults (bus : SqliteBus) (stem : Bytes) :
    bus.listingUnder noFaults stem = bus.listing stem := by
  unfold listingUnder listing
  simp only [noFaults, List.filter_true]

theorem stepUnder_noFaults (site : Site) (request : DataBusCall) (bus : SqliteBus) :
    bus.stepUnder noFaults site request = step site request bus := by
  cases request with
  | readValue key => rfl
  | deleteValue key => rfl
  | deleteValueIfMatch key expected => rfl
  | writeTtl key duration => rfl
  | readTtlRemaining key => rfl
  | writeValue key value =>
      simp only [stepUnder, step, writeValueUnder, writeValue, site_under_noFaults]
      rfl
  | writeValueWithTtl key value duration =>
      simp only [stepUnder, step, writeValueUnder, writeValue, site_under_noFaults]
      rfl
  | findByPrefix stem =>
      simp only [stepUnder, step, findByPrefixUnder, findByPrefix, listingUnder_noFaults]

/-- Every row there is, is one of these pairs. -/
def RowsAmong (good : Bytes → Bytes → Prop) (bus : SqliteBus) : Prop :=
  ∀ (file : Location) (key value : Bytes), bus.selectValue file key = some value →
    good key value

section RowsAmong

variable {good : Bytes → Bytes → Prop} {faults : SqlFaults} {bus : SqliteBus}

theorem RowsAmong.update (among : bus.RowsAmong good) (file : Location) {key : Bytes}
    {change : Table → Table}
    (changes : change = (fun table => table.erase key) ∨
      ∃ value, good key value ∧ change = (fun table => table.insert key value)) :
    (bus.updateUnder faults file change).RowsAmong good := by
  unfold updateUnder
  cases faults.executes with
  | false => exact among
  | true =>
      intro about other value found
      rw [if_pos rfl, selectValue_eq, getElem?_updateTable] at found
      split at found
      · cases there : bus.disk[file]? with
        | none =>
            rw [there] at found
            cases found
        | some table =>
            have before : ∀ held, table[other]? = some held → good other held := by
              intro held row
              apply among file other held
              rw [selectValue_eq, there]
              exact row
            rw [there] at found
            simp only [Option.map_some, Option.bind_some] at found
            rcases changes with rfl | ⟨written, credible, rfl⟩
            · simp only [ExtTreeMap.getElem?_erase] at found
              split at found
              · cases found
              · exact before value found
            · simp only [ExtTreeMap.getElem?_insert] at found
              split at found
              · cases found
                next same =>
                  rw [← Std.LawfulEqCmp.compare_eq_iff_eq.mp same]
                  exact credible
              · exact before value found
      · exact among about other value found

theorem RowsAmong.open (among : bus.RowsAmong good) (site : Site) (space : Bytes) :
    (writeConnection site bus space).2.RowsAmong good := by
  intro file key value found
  rw [selectValue_writeConnection] at found
  exact among file key value found

theorem RowsAmong.select (among : bus.RowsAmong good) {file : Location} {key value : Bytes}
    (found : bus.selectUnder faults file key = some value) : good key value := by
  unfold selectUnder at found
  split at found
  · exact among file key value found
  · cases found

theorem RowsAmong.listed (among : bus.RowsAmong good) {stem : Bytes} {pair : Bytes × Bytes}
    (member : pair ∈ bus.listingUnder faults stem) :
    good pair.1 pair.2 ∧ stem <+: pair.1 := by
  unfold listingUnder at member
  rw [OrderedScan.mem_sortByKey, List.mem_flatMap] at member
  rcases member with ⟨database, -, listed⟩
  rcases pair with ⟨key, value⟩
  rcases mem_matchingRows.mp (List.mem_filter.mp listed).1 with ⟨row, starts⟩
  exact ⟨among _ _ _ row, starts⟩

end RowsAmong

end SqliteBus

end TricPlus
