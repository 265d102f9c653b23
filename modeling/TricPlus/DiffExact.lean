import TricPlus.DiffCalls

/-!
A diff-import without lifetimes applies exactly the difference of its archives.

Each path that is added, changed or removed has one call, about a key of its own; so the
order of the entries does not matter, and every other key is left alone.
-/

namespace TricPlus

open AtomicProgram
open ExpiringMap (Entry remains)
open Import

def Cell.Lasts (now : Instant) (value : Bytes) (cell : Cell) : Prop :=
  cell.row = some value ∧ ∀ entry, remains now cell.copy = some entry → entry.value = value

/-- The key is as it was, but for what has expired. -/
def Cell.Unchanged (later : Instant) (before after : Cell) : Prop :=
  after.row = before.row ∧ remains later after.copy = remains later before.copy

namespace EntryMap

def Sets (old new : EntryMap) (path value : Bytes) : Prop :=
  new.get path = some value ∧ old.get path ≠ some value

def Drops (old new : EntryMap) (path : Bytes) : Prop :=
  path ≠ Export.versionPath ∧ (old.get path).isSome = true ∧ new.get path = none

def Touches (old new : EntryMap) (key : Bytes) : Prop :=
  (∃ path value, Sets old new path value ∧ parseTarPathToKey path = key) ∨
    ∃ path, Drops old new path ∧ parseTarPathToKey path = key

/-- Archives without lifetimes, whose paths stand for keys of their own. -/
structure Comparable (old new : EntryMap) : Prop where
  oldData : ∀ path value, old.get path = some value → path.dropPrefix? Export.ttlPath = none
  newData : ∀ path value, new.get path = some value → path.dropPrefix? Export.ttlPath = none
  injective : ∀ path other, (old.get path).isSome = true ∨ (new.get path).isSome = true →
    (old.get other).isSome = true ∨ (new.get other).isSome = true →
    parseTarPathToKey path = parseTarPathToKey other → path = other

end EntryMap

open EntryMap (Sets Drops Touches Comparable)

structure DiffApplied (site : Site) (old new : EntryMap) (now later : Instant)
    (before after : PermutiveBus) (result : DiffResult) : Prop where
  written : ∀ path value, Sets old new path value →
    (after.cell site (parseTarPathToKey path)).Lasts later value
  removed : ∀ path, Drops old new path →
    (after.cell site (parseTarPathToKey path)).Absent later
  kept : ∀ key, ¬ Touches old new key →
    Cell.Unchanged later (before.cell site key) (after.cell site key)
  additions : result.additions =
    (new.entries.filter (fun entry => (old.get entry.1).isNone)).length
  modifications : result.modifications = (new.entries.filter (fun entry =>
    (old.get entry.1).isSome && !decide (old.get entry.1 = some entry.2))).length
  deletions : result.deletions = ((old.entries.map Prod.fst).filter (fun path =>
    !decide (path = Export.versionPath) && (new.get path).isNone)).length
  agrees : ∀ path value, new.get path = some value →
    (old.get path = some value → (before.cell site (parseTarPathToKey path)).Lasts now value) →
    (after.cell site (parseTarPathToKey path)).Lasts later value

/-- Importing the same archives, in any order of their entries, changes no key. -/
def ChangesNothing (site : Site) (clock : Nat → Instant) (ticks : Nat) (bus : PermutiveBus)
    (old new : EntryMap) : Prop :=
  ∀ (openArchive : OpenArchive) (oldPath newPath : Bytes) (oldAgain newAgain : EntryMap),
    readTricArchive openArchive oldPath = .ok oldAgain → oldAgain.Same old →
    readTricArchive openArchive newPath = .ok newAgain → newAgain.Same new →
    ∃ result later after,
      run (bothTiers site) clock (onTiers (parseDiffImport openArchive oldPath newPath)) ticks
        bus = ⟨some (.ok result), later, after⟩ ∧
      ∀ key, Cell.Unchanged (clock later) (bus.cell site key) (after.cell site key)

/-- What the import needs: the version entry stands in new only as it stands in old; the
mutex is in order if there is anything to do; each key to be written can be stored; and
no row of another key waits unseen in a database that the import opens. -/
structure DiffApplicable (site : Site) (bus : SqliteBus) (old new : EntryMap) : Prop where
  version : ∀ value, new.get Export.versionPath = some value →
    old.get Export.versionPath = some value
  works : ∀ key, Touches old new key → bus.Works
  usable : ∀ path value, Sets old new path value →
    bus.usable site (parseTarPathToKey path) = true
  nothingHidden : ∀ path value key, Sets old new path value →
    namespaceOf (parseTarPathToKey path) = namespaceOf key → ¬ Touches old new key →
    bus.databases[namespaceOf key]? = none → bus.stored site key = none

section Same

variable {old new oldAgain newAgain : EntryMap} (sameOld : oldAgain.Same old)
  (sameNew : newAgain.Same new)

include sameOld sameNew

private theorem sets_same (path value : Bytes) :
    Sets oldAgain newAgain path value ↔ Sets old new path value := by
  unfold Sets
  rw [sameOld path, sameNew path]

private theorem drops_same (path : Bytes) : Drops oldAgain newAgain path ↔ Drops old new path := by
  unfold Drops
  rw [sameOld path, sameNew path]

private theorem touches_same (key : Bytes) :
    Touches oldAgain newAgain key ↔ Touches old new key := by
  unfold Touches
  simp only [sets_same sameOld sameNew, drops_same sameOld sameNew]

private theorem comparable_same (comparable : Comparable old new) :
    Comparable oldAgain newAgain where
  oldData := fun path value stored => comparable.oldData path value ((sameOld path).symm.trans stored)
  newData := fun path value stored => comparable.newData path value ((sameNew path).symm.trans stored)
  injective := by
    intro path other archived otherArchived same
    rw [sameOld path, sameNew path] at archived
    rw [sameOld other, sameNew other] at otherArchived
    exact comparable.injective path other archived otherArchived same

private theorem applicable_same {site : Site} {bus : SqliteBus}
    (applicable : DiffApplicable site bus old new) :
    DiffApplicable site bus oldAgain newAgain where
  version := by
    intro value stored
    rw [sameNew] at stored
    rw [sameOld]
    exact applicable.version value stored
  works := fun key touches =>
    applicable.works key ((touches_same sameOld sameNew key).mp touches)
  usable := fun path value sets =>
    applicable.usable path value ((sets_same sameOld sameNew path value).mp sets)
  nothingHidden := fun path value key sets space untouched closed =>
    applicable.nothingHidden path value key ((sets_same sameOld sameNew path value).mp sets) space
      (fun touches => untouched ((touches_same sameOld sameNew key).mpr touches)) closed

end Same

section Calls

variable {old new : EntryMap} {path value key : Bytes}

private theorem mem_changed :
    (path, value) ∈ changed old new.entries ↔
      path ≠ Export.versionPath ∧ Sets old new path value := by
  unfold changed Sets
  rw [List.mem_filter, decide_eq_true_eq, EntryMap.mem_entries_iff]
  exact ⟨fun both => ⟨both.2.1, both.1, both.2.2⟩, fun all => ⟨all.2.1, all.1, all.2.2⟩⟩

theorem mem_removed : path ∈ removed new (old.entries.map Prod.fst) ↔ Drops old new path := by
  unfold removed Drops
  rw [List.mem_filter, decide_eq_true_eq, EntryMap.mem_paths_iff, ← Option.isSome_iff_exists]
  exact ⟨fun both => ⟨both.2.1, both.1, both.2.2⟩, fun all => ⟨all.2.1, all.1, all.2.2⟩⟩

private theorem writeCalls_eq (comparable : Comparable old new) :
    writeCalls old new = (changed old new.entries).map
      (fun entry => .writeValue (parseTarPathToKey entry.1) entry.2) := by
  unfold writeCalls
  rw [← List.filterMap_eq_map]
  apply List.filterMap_congr
  intro entry member
  rcases entry with ⟨path, value⟩
  have data := comparable.newData path value (mem_changed.mp member).2.1
  unfold entryCall
  simp only [data]
  rfl

def touchedPaths (old new : EntryMap) : List Bytes :=
  (changed old new.entries).map Prod.fst ++ removed new (old.entries.map Prod.fst)

private theorem touchedPaths_nodup (old new : EntryMap) : (touchedPaths old new).Nodup := by
  unfold touchedPaths
  rw [List.nodup_append]
  refine ⟨?_, old.distinct.filter _, ?_⟩
  · exact new.distinct.sublist (List.filter_sublist.map Prod.fst)
  · intro path inChanged other inRemoved same
    subst same
    rcases List.mem_map.mp inChanged with ⟨⟨about, value⟩, member, same⟩
    cases same
    have there := (mem_changed.mp member).2.1
    cases there.symm.trans (mem_removed.mp inRemoved).2.2

private theorem archived_of_touched (touched : path ∈ touchedPaths old new) :
    (old.get path).isSome = true ∨ (new.get path).isSome = true := by
  rcases List.mem_append.mp touched with inChanged | inRemoved
  · rcases List.mem_map.mp inChanged with ⟨⟨about, value⟩, member, same⟩
    cases same
    rw [(mem_changed.mp member).2.1]
    exact Or.inr rfl
  · exact Or.inl (mem_removed.mp inRemoved).2.1

private theorem diffCalls_keys (comparable : Comparable old new) :
    (diffCalls old new).map DataBusCall.key? =
      (touchedPaths old new).map (fun path => some (parseTarPathToKey path)) := by
  unfold diffCalls deleteCalls touchedPaths
  rw [writeCalls_eq comparable]
  simp only [List.map_append, List.map_map]
  rfl

private theorem diffCalls_keys_nodup (comparable : Comparable old new) :
    ((diffCalls old new).map DataBusCall.key?).Nodup := by
  rw [diffCalls_keys comparable]
  apply List.Nodup.map_on _ (touchedPaths_nodup old new)
  intro path touched other otherTouched same
  exact comparable.injective path other (archived_of_touched touched)
    (archived_of_touched otherTouched) (Option.some_inj.mp same)

private theorem others_of_nodup {front back : List DataBusCall} {call : DataBusCall}
    (nodup : ((front ++ call :: back).map DataBusCall.key?).Nodup) :
    ∀ request ∈ back, request.key? ≠ call.key? := by
  rw [List.map_append, List.map_cons] at nodup
  have rest := (List.nodup_append.mp nodup).2.1
  rw [List.nodup_cons] at rest
  intro request member same
  exact rest.1 (same ▸ List.mem_map_of_mem member)

private theorem write_mem (comparable : Comparable old new) (sets : Sets old new path value)
    (data : path ≠ Export.versionPath) :
    DataBusCall.writeValue (parseTarPathToKey path) value ∈ diffCalls old new := by
  apply List.mem_append_left
  rw [writeCalls_eq comparable]
  exact List.mem_map_of_mem (mem_changed.mpr ⟨data, sets⟩)

private theorem delete_mem (drops : Drops old new path) :
    DataBusCall.deleteValue (parseTarPathToKey path) ∈ diffCalls old new :=
  List.mem_append_right _ (List.mem_map_of_mem (mem_removed.mpr drops))

private theorem call_cases (comparable : Comparable old new) {request : DataBusCall}
    (member : request ∈ diffCalls old new) :
    (∃ path value, Sets old new path value ∧ path ≠ Export.versionPath ∧
        request = .writeValue (parseTarPathToKey path) value) ∨
      ∃ path, Drops old new path ∧ request = .deleteValue (parseTarPathToKey path) := by
  rcases List.mem_append.mp member with written | deleted
  · rw [writeCalls_eq comparable] at written
    rcases List.mem_map.mp written with ⟨⟨path, value⟩, inChanged, call⟩
    have both := mem_changed.mp inChanged
    exact Or.inl ⟨path, value, both.2, both.1, call.symm⟩
  · rcases List.mem_map.mp deleted with ⟨path, inRemoved, call⟩
    exact Or.inr ⟨path, mem_removed.mp inRemoved, call.symm⟩

private theorem others_of_untouched (comparable : Comparable old new)
    (untouched : ¬ Touches old new key) :
    ∀ request ∈ diffCalls old new, request.key? ≠ some key := by
  intro request member same
  rcases call_cases comparable member with ⟨path, value, sets, -, call⟩ | ⟨path, drops, call⟩
  · rw [call] at same
    exact untouched (Or.inl ⟨path, value, sets, Option.some_inj.mp same⟩)
  · rw [call] at same
    exact untouched (Or.inr ⟨path, drops, Option.some_inj.mp same⟩)

private theorem deleteCalls_away (front : List DataBusCall) {back : List DataBusCall}
    {call : DataBusCall}
    (split : deleteCalls old new = front ++ call :: back) :
    ∀ request ∈ back, ∀ about, request.written? = some about →
      namespaceOf about ≠ namespaceOf key := by
  intro request member about written
  have inCalls : request ∈ deleteCalls old new := by
    rw [split]
    exact List.mem_append_right _ (List.mem_cons_of_mem _ member)
  rcases List.mem_map.mp inCalls with ⟨path, -, same⟩
  rw [← same] at written
  cases written

end Calls

section Run

variable {site : Site} {clock : Nat → Instant} {ticks : Nat} {bus : PermutiveBus}
  {old new : EntryMap} {openArchive : OpenArchive} {oldPath newPath : Bytes}

theorem run_parseDiffImport (readOld : readTricArchive openArchive oldPath = .ok old)
    (readNew : readTricArchive openArchive newPath = .ok new) :
    run (bothTiers site) clock (onTiers (parseDiffImport openArchive oldPath newPath)) ticks bus =
      match run (bothTiers site) clock (onTiers (performAll (diffCalls old new))) ticks bus with
      | ⟨some (), later, after⟩ => ⟨some (.ok (diffCounts old new)), later, after⟩
      | ⟨none, later, after⟩ => ⟨none, later, after⟩ := by
  have program : onTiers (parseDiffImport openArchive oldPath newPath) =
      (onTiers (performAll (diffCalls old new))).bind
        (fun _ => .done (.ok (diffCounts old new))) := by
    unfold parseDiffImport
    rw [readOld, readNew]
    simp only
    rw [applyDiff_eq]
    change onTiers (((performAll (diffCalls old new)).bind
      (fun _ => .done (diffCounts old new))).bind (fun result => .done (Except.ok result))) = _
    rw [Program.bind_assoc]
    exact Program.translate_bind _ _ _
  rw [program, run_bind]
  rcases run (bothTiers site) clock (onTiers (performAll (diffCalls old new))) ticks bus with
    ⟨result, later, after⟩
  cases result <;> rfl

private theorem accepted_of_applicable (comparable : Comparable old new)
    (applicable : DiffApplicable site bus.persistent old new) :
    ∀ request ∈ diffCalls old new, bus.persistent.Accepts site request := by
  intro request member
  rcases call_cases comparable member with ⟨path, value, sets, -, call⟩ | ⟨path, drops, call⟩
  · rw [call]
    exact ⟨applicable.works _ (Or.inl ⟨path, value, sets, rfl⟩),
      applicable.usable path value sets⟩
  · rw [call]
    exact applicable.works _ (Or.inr ⟨path, drops, rfl⟩)

private theorem ne_version_of_sets {path value : Bytes}
    (applicable : DiffApplicable site bus.persistent old new) (sets : Sets old new path value) : path ≠ Export.versionPath := by
  intro version
  rw [version] at sets
  exact sets.2 (applicable.version value sets.1)

private theorem counts_eq (applicable : DiffApplicable site bus.persistent old new) :
    (diffCounts old new).additions =
        (new.entries.filter (fun entry => (old.get entry.1).isNone)).length ∧
      (diffCounts old new).modifications = (new.entries.filter (fun entry =>
        (old.get entry.1).isSome && !decide (old.get entry.1 = some entry.2))).length := by
  unfold diffCounts changed
  simp only [List.filter_filter]
  constructor
  · apply congrArg List.length
    apply List.filter_congr
    intro entry member
    rcases entry with ⟨path, value⟩
    have stored := EntryMap.mem_entries_iff.mp member
    cases inOld : old.get path with
    | none =>
        have differs : Differs old (path, value) := by
          refine ⟨ne_version_of_sets applicable ⟨stored, ?_⟩, ?_⟩
          · rw [inOld]
            exact fun same => by cases same
          · change old.get path ≠ some value
            rw [inOld]
            exact fun same => by cases same
        rw [decide_eq_true differs]
        rfl
    | some other => rfl
  · apply congrArg List.length
    apply List.filter_congr
    intro entry member
    rcases entry with ⟨path, value⟩
    have stored := EntryMap.mem_entries_iff.mp member
    congr 1
    by_cases same : old.get path = some value
    · have kept : ¬ Differs old (path, value) := fun differs => differs.2 same
      rw [decide_eq_false kept, decide_eq_true same]
      rfl
    · have differs : Differs old (path, value) :=
        ⟨ne_version_of_sets applicable ⟨stored, same⟩, same⟩
      rw [decide_eq_true differs, decide_eq_false same]
      rfl

variable {later : Nat} {after : PermutiveBus} {path value key : Bytes}

private theorem written_row (monotone : Monotone clock) (attached : bus.persistent.Attached)
    (comparable : Comparable old new)
    (accepted : ∀ request ∈ diffCalls old new, bus.persistent.Accepts site request)
    (ran : run (bothTiers site) clock (onTiers (performAll (diffCalls old new))) ticks bus =
      ⟨some (), later, after⟩) (sets : Sets old new path value)
    (data : path ≠ Export.versionPath) :
    remains (clock later) after.transient.contents[parseTarPathToKey path]? = none ∧
      after.persistent.row (parseTarPathToKey path) = some value := by
  have nodup := diffCalls_keys_nodup comparable
  have updates := diffCalls_updates old new
  rcases List.append_of_mem (write_mem comparable sets data) with ⟨front, back, split⟩
  rw [split] at nodup updates accepted ran
  exact performAll_write monotone (Kept.refl attached) updates accepted (others_of_nodup nodup) ran

private theorem removed_absent (monotone : Monotone clock) (attached : bus.persistent.Attached)
    (comparable : Comparable old new)
    (accepted : ∀ request ∈ diffCalls old new, bus.persistent.Accepts site request)
    (ran : run (bothTiers site) clock (onTiers (performAll (diffCalls old new))) ticks bus =
      ⟨some (), later, after⟩) (drops : Drops old new path) :
    (after.cell site (parseTarPathToKey path)).Absent (clock later) := by
  have nodup := diffCalls_keys_nodup comparable
  have updates := diffCalls_updates old new
  have member : DataBusCall.deleteValue (parseTarPathToKey path) ∈ deleteCalls old new :=
    List.mem_map_of_mem (mem_removed.mpr drops)
  rcases List.append_of_mem member with ⟨front, back, split⟩
  have away := @deleteCalls_away old new (parseTarPathToKey path) front back _ split
  have whole : diffCalls old new =
      (writeCalls old new ++ front) ++ .deleteValue (parseTarPathToKey path) :: back := by
    unfold diffCalls
    rw [split, List.append_assoc]
  rw [whole] at nodup updates accepted ran
  exact performAll_delete monotone (Kept.refl attached) updates accepted (others_of_nodup nodup)
    away ran

private theorem untouched_row (comparable : Comparable old new) (attached : bus.persistent.Attached)
    (accepted : ∀ request ∈ diffCalls old new, bus.persistent.Accepts site request)
    (ran : run (bothTiers site) clock (onTiers (performAll (diffCalls old new))) ticks bus =
      ⟨some (), later, after⟩) (untouched : ¬ Touches old new key) :
    (Opens (diffCalls old new) key →
        after.persistent.row key = bus.persistent.stored site key) ∧
      (¬ Opens (diffCalls old new) key → after.persistent.row key = bus.persistent.row key) :=
  performAll_other (Kept.refl attached) (diffCalls_updates old new) accepted
    (others_of_untouched comparable untouched) ran

private theorem opens_iff (comparable : Comparable old new)
    (version : ∀ value, new.get Export.versionPath = some value →
      old.get Export.versionPath = some value) :
    Opens (diffCalls old new) key ↔ ∃ path value, Sets old new path value ∧
      namespaceOf (parseTarPathToKey path) = namespaceOf key := by
  constructor
  · intro opens
    rcases opens with ⟨request, member, about, written, space⟩
    rcases call_cases comparable member with ⟨path, value, sets, -, call⟩ | ⟨path, drops, call⟩
    · rw [call] at written
      cases written
      exact ⟨path, value, sets, space⟩
    · rw [call] at written
      cases written
  · intro found
    rcases found with ⟨path, value, sets, space⟩
    have data : path ≠ Export.versionPath := by
      intro same
      rw [same] at sets
      exact sets.2 (version value sets.1)
    exact ⟨_, write_mem comparable sets data, _, rfl, space⟩

private theorem stored_of_applicable (applicable : DiffApplicable site bus.persistent old new)
    (untouched : ¬ Touches old new key)
    (opens : ∃ path value, Sets old new path value ∧
      namespaceOf (parseTarPathToKey path) = namespaceOf key) :
    bus.persistent.stored site key = bus.persistent.row key := by
  by_cases closed : bus.persistent.databases[namespaceOf key]? = none
  · rcases opens with ⟨path, value, sets, space⟩
    rw [SqliteBus.row_of_not_open closed]
    exact applicable.nothingHidden path value key sets space untouched closed
  · exact (row_of_isOpen site closed).symm

private theorem diff_applied (monotone : Monotone clock) (attached : bus.persistent.Attached)
    (comparable : Comparable old new)
    (applicable : DiffApplicable site bus.persistent old new)
    (ran : run (bothTiers site) clock (onTiers (performAll (diffCalls old new))) ticks bus =
      ⟨some (), later, after⟩) (forward : ticks ≤ later) :
    DiffApplied site old new (clock ticks) (clock later) bus after (diffCounts old new) := by
  have accepted := accepted_of_applicable comparable applicable
  have written : ∀ path value, Sets old new path value →
      (after.cell site (parseTarPathToKey path)).Lasts (clock later) value := by
    intro path value sets
    have row := written_row monotone attached comparable accepted ran sets
      (ne_version_of_sets applicable sets)
    refine ⟨row.2, ?_⟩
    intro entry held
    cases row.1.symm.trans held
  have kept : ∀ key, ¬ Touches old new key →
      Cell.Unchanged (clock later) (bus.cell site key) (after.cell site key) := by
    intro key untouched
    refine ⟨?_, copy_kept monotone (others_of_untouched comparable untouched) ran⟩
    have row := untouched_row comparable attached accepted ran untouched
    by_cases opens : Opens (diffCalls old new) key
    · exact (row.1 opens).trans (stored_of_applicable applicable untouched
        ((opens_iff comparable applicable.version).mp opens))
    · exact row.2 opens
  have counts := counts_eq applicable
  refine ⟨written, fun path drops => removed_absent monotone attached comparable accepted ran drops,
    kept, counts.1, counts.2, ?_, ?_⟩
  · apply congrArg List.length
    apply List.filter_congr
    intro path member
    by_cases version : path = Export.versionPath
    · rw [decide_eq_false (fun missing : Missing new path => missing.1 version),
        decide_eq_true version]
      rfl
    · rw [decide_eq_false version]
      cases stored : new.get path with
      | none =>
          have missing : Missing new path := ⟨version, stored⟩
          rw [decide_eq_true missing]
          rfl
      | some value =>
          have there : ¬ Missing new path := fun missing => by cases stored.symm.trans missing.2
          rw [decide_eq_false there]
          rfl
  · intro path value stands agreed
    by_cases same : old.get path = some value
    · have untouched : ¬ Touches old new (parseTarPathToKey path) := by
        intro touches
        rcases touches with ⟨other, set, sets, equal⟩ | ⟨other, drops, equal⟩
        · have one := comparable.injective other path (Or.inr (by rw [sets.1]; rfl))
            (Or.inr (by rw [stands]; rfl)) equal
          subst one
          cases sets.1.symm.trans stands
          exact sets.2 same
        · have one := comparable.injective other path (Or.inl drops.2.1)
            (Or.inr (by rw [stands]; rfl)) equal
          subst one
          cases drops.2.2.symm.trans stands
      have unchanged := kept _ untouched
      have before := agreed same
      refine ⟨unchanged.1.trans before.1, ?_⟩
      intro entry held
      rw [unchanged.2, ← ExpiringMap.remains_remains (monotone forward)] at held
      rw [ExpiringMap.remains_eq_some] at held
      exact before.2 entry held.1
    · exact written path value ⟨stands, same⟩

private theorem applicable_again (monotone : Monotone clock) (attached : bus.persistent.Attached)
    (comparable : Comparable old new)
    (applicable : DiffApplicable site bus.persistent old new)
    (ran : run (bothTiers site) clock (onTiers (performAll (diffCalls old new))) ticks bus =
      ⟨some (), later, after⟩) (kept : Kept site bus.persistent after.persistent) :
    DiffApplicable site after.persistent old new where
  version := applicable.version
  works := fun key touches => kept.works.mpr (applicable.works key touches)
  usable := fun path value sets => (kept.usable _).trans (applicable.usable path value sets)
  nothingHidden := by
    intro path value key sets space untouched closed
    have row := written_row monotone attached comparable
      (accepted_of_applicable comparable applicable) ran sets (ne_version_of_sets applicable sets)
    have isOpen := isOpen_of_row row.2
    rw [space] at isOpen
    exact absurd closed isOpen

private theorem changes_nothing (monotone : Monotone clock) (attached : bus.persistent.Attached)
    (comparable : Comparable old new)
    (applicable : DiffApplicable site bus.persistent old new)
    (ran : run (bothTiers site) clock (onTiers (performAll (diffCalls old new))) ticks bus =
      ⟨some (), later, after⟩) (kept : Kept site bus.persistent after.persistent) :
    ChangesNothing site clock later after old new := by
  intro openArchive oldPath newPath oldAgain newAgain readOld sameOld readNew sameNew
  have applicableAgain := applicable_same sameOld sameNew
    (applicable_again monotone attached comparable applicable ran kept)
  have comparableAgain := comparable_same sameOld sameNew comparable
  rcases @performAll_returns site clock after.persistent later after (Kept.refl kept.attached) _
    (diffCalls_updates oldAgain newAgain)
    (accepted_of_applicable comparableAgain applicableAgain) with ⟨ended, last, ranAgain, -⟩
  have forward : later ≤ ended := by
    have passed := @run_ticks_le _ _ _ _ (bothTiers site) clock
      (onTiers (performAll (diffCalls oldAgain newAgain))) later after
    rw [ranAgain] at passed
    exact passed
  have applied := diff_applied monotone kept.attached comparableAgain applicableAgain ranAgain
    forward
  refine ⟨diffCounts oldAgain newAgain, ended, last, ?_, ?_⟩
  · rw [run_parseDiffImport readOld readNew, ranAgain]
  · intro key
    by_cases touches : Touches oldAgain newAgain key
    · rcases touches with ⟨path, value, sets, same⟩ | ⟨path, drops, same⟩
      · subst same
        have first := written_row monotone attached comparable
          (accepted_of_applicable comparable applicable) ran
          ((sets_same sameOld sameNew path value).mp sets)
          (ne_version_of_sets applicableAgain sets)
        have second := written_row monotone kept.attached comparableAgain
          (accepted_of_applicable comparableAgain applicableAgain) ranAgain sets
          (ne_version_of_sets applicableAgain sets)
        refine ⟨second.2.trans first.2.symm, second.1.trans ?_⟩
        exact (remains_none_later (monotone forward) first.1).symm
      · subst same
        have first := removed_absent monotone attached comparable
          (accepted_of_applicable comparable applicable) ran
          ((drops_same sameOld sameNew path).mp drops)
        have second := applied.removed path drops
        refine ⟨second.2.trans first.2.symm, second.1.trans ?_⟩
        exact (remains_none_later (monotone forward) first.1).symm
    · exact applied.kept key touches

/-- The import answers, and applies exactly the difference. -/
def ImportsDifference (site : Site) (clock : Nat → Instant) (ticks : Nat) (bus : PermutiveBus)
    (openArchive : OpenArchive) (oldPath newPath : Bytes) (old new : EntryMap) : Prop :=
  ∃ result later after,
    run (bothTiers site) clock (onTiers (parseDiffImport openArchive oldPath newPath)) ticks bus =
      ⟨some (.ok result), later, after⟩ ∧
    DiffApplied site old new (clock ticks) (clock later) bus after result ∧
    ChangesNothing site clock later after old new

private theorem version_of_counts {result : DiffResult} {now : Instant} {last : Instant}
    (applied : DiffApplied site old new now last bus after result)
    (counted : result = diffCounts old new) :
    ∀ value, new.get Export.versionPath = some value →
      old.get Export.versionPath = some value := by
  intro value stored
  by_contra differs
  have member := EntryMap.mem_entries_iff.mpr stored
  have fewer : ∀ (code claimed : ArchiveEntry → Bool),
      (∀ entry, Differs old entry → code entry = true → claimed entry = true) →
      claimed (Export.versionPath, value) = true →
      ((changed old new.entries).filter code).length ≠ (new.entries.filter claimed).length := by
    intro code claimed weaker counts equal
    have sublist : List.Sublist ((changed old new.entries).filter code)
        (new.entries.filter claimed) := by
      unfold changed
      rw [List.filter_filter]
      apply List.monotone_filter_right
      intro entry both
      rw [Bool.and_eq_true, decide_eq_true_eq] at both
      exact weaker entry both.2 both.1
    have inClaimed : (Export.versionPath, value) ∈ new.entries.filter claimed :=
      List.mem_filter.mpr ⟨member, counts⟩
    rw [← sublist.eq_of_length equal] at inClaimed
    exact (mem_changed.mp (List.mem_filter.mp inClaimed).1).1 rfl
  cases inOld : old.get Export.versionPath with
  | none =>
      apply fewer (fun entry => (old.get entry.1).isNone) (fun entry => (old.get entry.1).isNone)
        (fun _ _ none => none) (by rw [inOld]; rfl)
      have additions := applied.additions
      rw [counted] at additions
      exact additions
  | some other =>
      apply fewer (fun entry => (old.get entry.1).isSome)
        (fun entry => (old.get entry.1).isSome && !decide (old.get entry.1 = some entry.2))
        (fun entry differs there => by
          rw [there, decide_eq_false differs.2]
          rfl)
        (by rw [decide_eq_false differs, inOld]; rfl)
      have modifications := applied.modifications
      rw [counted] at modifications
      exact modifications

/-- A diff-import applies exactly the difference of two archives without lifetimes if and
only if what it writes can be stored, and nothing hidden comes to light. -/
theorem diff_import_exact_iff {disk : Disk} (reached : Reachable site clock disk ticks bus)
    (monotone : Monotone clock) (comparable : Comparable old new)
    (readOld : readTricArchive openArchive oldPath = .ok old)
    (readNew : readTricArchive openArchive newPath = .ok new) :
    ImportsDifference site clock ticks bus openArchive oldPath newPath old new ↔
      DiffApplicable site bus.persistent old new := by
  have attached := reached.attached
  have ends := @performAll_ends site clock bus.persistent ticks bus (Kept.refl attached) _
    (diffCalls_updates old new)
  constructor
  · intro imported
    rcases imported with ⟨result, later, after, ran, applied, -⟩
    rw [run_parseDiffImport readOld readNew] at ran
    rcases called : run (bothTiers site) clock (onTiers (performAll (diffCalls old new))) ticks bus
      with ⟨answer, ended, last⟩
    rw [called] at ran
    cases answer with
    | none => cases ran
    | some answer =>
        cases ran
        have accepted : ∀ request ∈ diffCalls old new, bus.persistent.Accepts site request := by
          by_contra refused
          have stuck := ends.panics refused
          rw [called] at stuck
          cases stuck
        have version := version_of_counts applied rfl
        have data : ∀ path value, Sets old new path value → path ≠ Export.versionPath := by
          intro path value sets same
          rw [same] at sets
          exact sets.2 (version value sets.1)
        refine ⟨version, ?_, ?_, ?_⟩
        · intro key touches
          rcases touches with ⟨path, value, sets, -⟩ | ⟨path, drops, -⟩
          · exact (accepted _ (write_mem comparable sets (data path value sets))).1
          · exact accepted _ (delete_mem drops)
        · intro path value sets
          exact (accepted _ (write_mem comparable sets (data path value sets))).2
        · intro path value key sets space untouched closed
          have opens := (@opens_iff old new key comparable version).mpr ⟨path, value, sets, space⟩
          have row := (untouched_row comparable attached accepted called untouched).1 opens
          have unchanged := (applied.kept key untouched).1
          change after.persistent.row key = bus.persistent.row key at unchanged
          rw [← row, unchanged, SqliteBus.row_of_not_open closed]
  · intro applicable
    rcases @performAll_returns site clock bus.persistent ticks bus (Kept.refl attached) _
      (diffCalls_updates old new) (accepted_of_applicable comparable applicable) with
      ⟨later, after, ran, kept⟩
    have forward : ticks ≤ later := by
      have passed := @run_ticks_le _ _ _ _ (bothTiers site) clock
        (onTiers (performAll (diffCalls old new))) ticks bus
      rw [ran] at passed
      exact passed
    refine ⟨diffCounts old new, later, after, ?_, ?_, ?_⟩
    · rw [run_parseDiffImport readOld readNew, ran]
    · exact diff_applied monotone attached comparable applicable ran forward
    · exact changes_nothing monotone attached comparable applicable ran kept

end Run

/-! ### Examples -/

private theorem comparable_of_entries {old new : EntryMap}
    (data : ∀ path ∈ (old.entries ++ new.entries).map Prod.fst,
      path.dropPrefix? Export.ttlPath = none)
    (injective : ∀ path ∈ (old.entries ++ new.entries).map Prod.fst,
      ∀ other ∈ (old.entries ++ new.entries).map Prod.fst,
        parseTarPathToKey path = parseTarPathToKey other → path = other) :
    Comparable old new := by
  have member : ∀ path, (old.get path).isSome = true ∨ (new.get path).isSome = true →
      path ∈ (old.entries ++ new.entries).map Prod.fst := by
    intro path stored
    rw [List.map_append, List.mem_append, EntryMap.mem_paths_iff, EntryMap.mem_paths_iff]
    exact Or.imp Option.isSome_iff_exists.mp Option.isSome_iff_exists.mp stored
  constructor
  · intro path value stored
    exact data path (member path (Or.inl (by rw [stored]; rfl)))
  · intro path value stored
    exact data path (member path (Or.inr (by rw [stored]; rfl)))
  · intro path other first second
    exact injective path (member path first) other (member other second)

def oldSnapshot : EntryMap where
  entries := [(asBytes "users/1", asBytes "a"), (asBytes "users/2", asBytes "b")]
  distinct := by decide +kernel

def newSnapshot : EntryMap where
  entries := [(asBytes "users/3", asBytes "d"), (asBytes "users/1", asBytes "c")]
  distinct := by decide +kernel

/-- Two archives that lie uncompressed under the names `old` and `new`. -/
def twoArchives (old new : EntryMap) : OpenArchive := fun path =>
  if path = asBytes "old" then .ok ⟨none, some old⟩
  else if path = asBytes "new" then .ok ⟨none, some new⟩
  else .error (asBytes "No such file or directory (os error 2)")

private theorem readTricArchive_old (old new : EntryMap) :
    readTricArchive (twoArchives old new) (asBytes "old") = .ok old := by
  unfold readTricArchive twoArchives
  rw [if_pos rfl]

private theorem readTricArchive_new (old new : EntryMap) :
    readTricArchive (twoArchives old new) (asBytes "new") = .ok new := by
  have distinct : asBytes "new" ≠ asBytes "old" := by decide +kernel
  unfold readTricArchive twoArchives
  rw [if_neg distinct, if_pos rfl]

/-- One entry changes, one comes and one goes. -/
theorem small_difference_is_imported :
    ImportsDifference openSite stillClock 0 emptyBus (twoArchives oldSnapshot newSnapshot)
      (asBytes "old") (asBytes "new") oldSnapshot newSnapshot := by
  have comparable : Comparable oldSnapshot newSnapshot :=
    comparable_of_entries (by decide +kernel) (by decide +kernel)
  apply (diff_import_exact_iff emptyBus_reachable stillClock_monotone comparable
    (readTricArchive_old _ _) (readTricArchive_new _ _)).mpr
  constructor
  · intro value stored
    have absent : newSnapshot.get Export.versionPath = none := by decide +kernel
    rw [absent] at stored
    cases stored
  · intro key touches
    rfl
  · intro path value sets
    rfl
  · intro path value key sets same untouched closed
    exact emptyBus_empty.noRows _ key

def longSnapshot : EntryMap where
  entries := [(List.replicate 300 0x61 ++ asBytes "/1", asBytes "a")]
  distinct := by decide +kernel

/-- The database of a namespace of three hundred letters cannot be opened; the import
panics, though it has errors to answer with. -/
theorem long_directory_is_not_imported :
    let created := createPermutiveBus sampleSite ∅ stillClock 0
    Reachable sampleSite stillClock ∅ created.ticks created.state ∧
      Comparable EntryMap.empty longSnapshot ∧
      readTricArchive (twoArchives EntryMap.empty longSnapshot) (asBytes "old") =
        .ok EntryMap.empty ∧
      readTricArchive (twoArchives EntryMap.empty longSnapshot) (asBytes "new") =
        .ok longSnapshot ∧
      ¬ ImportsDifference sampleSite stillClock created.ticks created.state
        (twoArchives EntryMap.empty longSnapshot) (asBytes "old") (asBytes "new")
        EntryMap.empty longSnapshot := by
  intro created
  refine ⟨Reachable.created 0, comparable_of_entries (by decide +kernel) (by decide +kernel),
    readTricArchive_old _ _, readTricArchive_new _ _, ?_⟩
  intro imported
  rcases imported with ⟨result, later, after, ran, -⟩
  have panics : (run (bothTiers sampleSite) stillClock (onTiers (parseDiffImport
      (twoArchives EntryMap.empty longSnapshot) (asBytes "old") (asBytes "new")))
      created.ticks created.state).result = none := by
    decide +kernel
  rw [ran] at panics
  cases panics

end TricPlus
