import TricPlus.ArchivePaths
import TricPlus.CrashRecovery

/-!
From one bus through an archive to another.

An export of a bus, imported as the difference from nothing into an empty bus, gives every
key and value back if the paths name the keys and the other bus can open their namespaces.
A lifetime is given back if the map of entries gives the data before the lifetime.
-/

namespace TricPlus

open Std (ExtTreeMap)
open AtomicProgram
open ExpiringMap (Entry remains)
open PosixPath (slash)
open Export
open Import

/-- The archive as it is read back: of the entries under one path the last one counts. -/
def Unpacks (map : EntryMap) (archive : List ArchiveEntry) : Prop :=
  ∀ path, map.get path = archive.reverse.lookup path

section Archive

variable {site : Site} {clock : Nat → Instant} {ticks : Nat} {bus : PermutiveBus} {tar : Tar}
  {files : Files} {path : Bytes} {archive : List ArchiveEntry} {exportResult : ExportResult}
  {later : Nat} {after : PermutiveBus}

private theorem entry_cases (archiveIs : archive = (versionPath, asBytes "tric+1") ::
      (turnsFrom clock bus (ticks + 2) (bus.listed (clock ticks) [])).flatMap Prod.snd)
    {entry : ArchiveEntry} (member : entry ∈ archive) :
    entry.1 = versionPath ∨ ∃ pair ∈ bus.listed (clock ticks) [],
      entry = mainEntry pair ∨
        (DataKey pair.1 ∧ entry.1 = ttlPath ++ dataPath (Utf8.lossy pair.1) ∧
          ∃ reading, ticks ≤ reading ∧ bus.remaining (clock reading) pair.1 ≠ none) := by
  rw [archiveIs] at member
  rcases List.mem_cons.mp member with version | inTurns
  · rw [version]
    exact Or.inl rfl
  · rcases List.mem_flatMap.mp inTurns with ⟨turn, turnMember, inTurn⟩
    rcases mem_turnsFrom turnMember with ⟨listed, reading, ordered, entries⟩
    rw [entries, turnEntries_eq] at inTurn
    refine Or.inr ⟨turn.1, listed, ?_⟩
    rcases List.mem_cons.mp inTurn with isMain | isTtl
    · exact Or.inl isMain
    · right
      split at isTtl
      · rename_i data
        unfold ttlEntries at isTtl
        cases left : bus.remaining (clock reading) turn.1.1 with
        | none =>
            rw [left] at isTtl
            cases isTtl
        | some remaining =>
            rw [left] at isTtl
            rw [List.mem_singleton.mp isTtl]
            refine ⟨data, rfl, reading, (Nat.le_add_right ticks 2).trans ordered, ?_⟩
            rw [left]
            exact Option.some_ne_none remaining
      · cases isTtl

private theorem mainEntry_mem (archiveIs : archive = (versionPath, asBytes "tric+1") ::
      (turnsFrom clock bus (ticks + 2) (bus.listed (clock ticks) [])).flatMap Prod.snd)
    {pair : Bytes × Bytes} (listed : pair ∈ bus.listed (clock ticks) []) :
    mainEntry pair ∈ archive := by
  rw [← @turnsFrom_pairs clock bus (ticks + 2) (bus.listed (clock ticks) [])] at listed
  rcases List.mem_map.mp listed with ⟨turn, member, same⟩
  rcases mem_turnsFrom member with ⟨-, reading, -, entries⟩
  rw [archiveIs]
  apply List.mem_cons_of_mem
  refine List.mem_flatMap.mpr ⟨turn, member, ?_⟩
  rw [entries, turnEntries_eq, same]
  exact List.mem_cons_self ..

end Archive

/-! ### What the import calls -/

def dataEntry (pair : Bytes × Bytes) : ArchiveEntry := (tarPath pair, pair.2)

def lifetimeEntry (pair : Bytes × Bytes) (value : Bytes) : ArchiveEntry :=
  (ttlPath ++ dataPath pair.1, value)

inductive Means (pairs : List (Bytes × Bytes)) : ArchiveEntry → DataBusCall → Prop where
  | data (pair : Bytes × Bytes) (listed : pair ∈ pairs) :
      Means pairs (dataEntry pair) (.writeValue pair.1 pair.2)
  | lifetime (pair : Bytes × Bytes) (listed : pair ∈ pairs) (data : DataKey pair.1)
      (value : Bytes) (ttlMs : Nat) (parsed : parseTtl value = some ttlMs) (positive : 0 < ttlMs) :
      Means pairs (lifetimeEntry pair value) (.writeTtl pair.1 (fromMillis ttlMs))

structure Archived (clock : Nat → Instant) (ticks : Nat) (bus : PermutiveBus) (new : EntryMap)
    (archive : List ArchiveEntry) : Prop where
  written : archive = (versionPath, asBytes "tric+1") ::
    (turnsFrom clock bus (ticks + 2) (bus.listed (clock ticks) [])).flatMap Prod.snd
  unpacks : Unpacks new archive
  distinct : ((bus.listed (clock ticks) []).map Prod.fst).Nodup
  faithful : ∀ pair ∈ bus.listed (clock ticks) [],
    Utf8.wellFormed pair.1 = true ∧ Faithful pair

namespace Archived

variable {clock : Nat → Instant} {ticks : Nat} {bus : PermutiveBus} {old new : EntryMap}
  {archive : List ArchiveEntry}

theorem entry (archived : Archived clock ticks bus new archive) {path value : Bytes}
    (found : new.get path = some value) : (path, value) ∈ archive := by
  rw [archived.unpacks path] at found
  rcases List.lookup_eq_some_iff.mp found with ⟨front, back, split, -⟩
  rw [← List.mem_reverse, split]
  exact List.mem_append_right _ (List.mem_cons_self ..)

private theorem same_pair (archived : Archived clock ticks bus new archive)
    {pair other : Bytes × Bytes}
    (listed : pair ∈ bus.listed (clock ticks) []) (alsoListed : other ∈ bus.listed (clock ticks) [])
    (keys : pair.1 = other.1) : pair = other :=
  List.inj_on_of_nodup_map archived.distinct listed alsoListed keys

theorem means (archived : Archived clock ticks bus new archive) {entry : ArchiveEntry}
    (member : entry ∈ new.entries) (notVersion : entry.1 ≠ versionPath) {call : DataBusCall}
    (calls : entryCall entry = some call) : Means (bus.listed (clock ticks) []) entry call := by
  rcases entry with ⟨path, value⟩
  rcases entry_cases archived.written (archived.entry (EntryMap.mem_entries_iff.mp member)) with
    version | ⟨pair, listed, isMain | ⟨data, isTtl, -⟩⟩
  · exact absurd version notVersion
  · rcases archived.faithful pair listed with ⟨utf8, faithful⟩
    rcases faithful.entry utf8 with ⟨back, unchanged, notTtl, -⟩
    have entryIs : (path, value) = dataEntry pair := by
      rw [isMain]
      unfold dataEntry tarPath
      rw [← unchanged]
    rw [entryIs] at calls ⊢
    unfold entryCall dataEntry at calls
    simp only [notTtl] at calls
    cases calls
    rw [back]
    exact .data pair listed
  · rcases archived.faithful pair listed with ⟨utf8, faithful⟩
    have back := (replaceFirstSlash_dataPath_iff pair.1).mpr (faithful.data utf8 data).1
    change path = _ at isTtl
    rw [Utf8.lossy_of_wellFormed utf8] at isTtl
    subst isTtl
    unfold entryCall at calls
    rw [dropPrefix?_eq_some.mpr rfl] at calls
    simp only at calls
    cases parsed : parseTtl value with
    | none =>
        rw [parsed] at calls
        cases calls
    | some ttlMs =>
        rw [parsed] at calls
        simp only at calls
        split at calls
        next positive =>
          cases calls
          rw [back]
          exact .lifetime pair listed data value ttlMs parsed positive
        next => cases calls

private theorem get_tarPath (archived : Archived clock ticks bus new archive)
    {pair : Bytes × Bytes} (listed : pair ∈ bus.listed (clock ticks) []) :
    new.get (tarPath pair) = some pair.2 := by
  rcases archived.faithful pair listed with ⟨utf8, faithful⟩
  rcases faithful.entry utf8 with ⟨back, unchanged, notTtl, notVersion⟩
  have member : (tarPath pair, pair.2) ∈ archive := by
    have main := mainEntry_mem archived.written listed
    rw [← unchanged]
    exact main
  cases found : new.get (tarPath pair) with
  | none =>
      rw [archived.unpacks, List.lookup_eq_none_iff] at found
      have differs := found (tarPath pair, pair.2) (List.mem_reverse.mpr member)
      exact absurd rfl (bne_iff_ne.mp differs)
  | some value =>
      rcases entry_cases archived.written (archived.entry found) with
        version | ⟨other, otherListed, isMain | ⟨data, isTtl, -⟩⟩
      · exact absurd version notVersion
      · rcases archived.faithful other otherListed with ⟨otherUtf8, otherFaithful⟩
        rcases otherFaithful.entry otherUtf8 with ⟨otherBack, otherUnchanged, -, -⟩
        have paths : tarPath pair = tarPath other := (Prod.mk.inj isMain).1
        have values : value = other.2 := (Prod.mk.inj isMain).2.trans otherUnchanged
        have keys : pair.1 = other.1 := by rw [← back, paths, otherBack]
        rw [values, ← archived.same_pair listed otherListed keys]
      · change tarPath pair = _ at isTtl
        rw [isTtl, dropPrefix?_eq_some.mpr rfl] at notTtl
        cases notTtl

private theorem data_call (archived : Archived clock ticks bus new archive)
    {pair : Bytes × Bytes} (listed : pair ∈ bus.listed (clock ticks) []) :
    dataEntry pair ∈ new.entries ∧ (dataEntry pair).1 ≠ versionPath ∧
      entryCall (dataEntry pair) = some (.writeValue pair.1 pair.2) := by
  rcases archived.faithful pair listed with ⟨utf8, faithful⟩
  rcases faithful.entry utf8 with ⟨back, -, notTtl, notVersion⟩
  refine ⟨EntryMap.mem_entries_iff.mpr (archived.get_tarPath listed), notVersion, ?_⟩
  unfold entryCall dataEntry
  simp only [notTtl, back]

private theorem lifetime_call (archived : Archived clock ticks bus new archive)
    {pair : Bytes × Bytes} (listed : pair ∈ bus.listed (clock ticks) []) (data : DataKey pair.1)
    {value : Bytes} {ttlMs : Nat} (parsed : parseTtl value = some ttlMs) (positive : 0 < ttlMs) :
    (lifetimeEntry pair value).1 ≠ versionPath ∧
      entryCall (lifetimeEntry pair value) = some (.writeTtl pair.1 (fromMillis ttlMs)) := by
  rcases archived.faithful pair listed with ⟨utf8, faithful⟩
  have back := (replaceFirstSlash_dataPath_iff pair.1).mpr (faithful.data utf8 data).1
  constructor
  · intro version
    have shorter : ttlPath.take 2 = versionPath.take 2 := by
      rw [← version]
      exact (List.take_append_of_le_length (by decide +kernel)).symm
    exact absurd shorter (by decide +kernel)
  · unfold entryCall lifetimeEntry
    rw [dropPrefix?_eq_some.mpr rfl]
    simp only [parsed, if_pos positive, back]

end Archived

/-- The calls for some of the entries, when nothing stood in the old archive. -/
def entryCalls (entries : List ArchiveEntry) : List DataBusCall :=
  (entries.filter (fun entry => entry.1 ≠ versionPath)).filterMap entryCall

private theorem entryCalls_append (first second : List ArchiveEntry) :
    entryCalls (first ++ second) = entryCalls first ++ entryCalls second := by
  unfold entryCalls
  rw [List.filter_append, List.filterMap_append]

private theorem entryCalls_cons {entry : ArchiveEntry} (entries : List ArchiveEntry)
    (notVersion : entry.1 ≠ versionPath) {call : DataBusCall}
    (calls : entryCall entry = some call) :
    entryCalls (entry :: entries) = call :: entryCalls entries := by
  unfold entryCalls
  rw [List.filter_cons_of_pos (p := fun entry : ArchiveEntry => decide (entry.1 ≠ versionPath))
    (decide_eq_true notVersion), List.filterMap_cons_some calls]

private theorem mem_entryCalls {entries : List ArchiveEntry} {call : DataBusCall} :
    call ∈ entryCalls entries ↔
      ∃ entry ∈ entries, entry.1 ≠ versionPath ∧ entryCall entry = some call := by
  unfold entryCalls
  rw [List.mem_filterMap]
  constructor
  · rintro ⟨entry, member, calls⟩
    rcases List.mem_filter.mp member with ⟨listed, notVersion⟩
    exact ⟨entry, listed, of_decide_eq_true notVersion, calls⟩
  · rintro ⟨entry, listed, notVersion, calls⟩
    exact ⟨entry, List.mem_filter.mpr ⟨listed, decide_eq_true notVersion⟩, calls⟩

/-- What becomes of an entry in the course of time. -/
def Aged (now : Instant) (before after : Option (Entry Bytes Instant)) : Prop :=
  after = before ∨ ∃ value limit, before = some ⟨value, some limit⟩ ∧ limit ≤ now ∧ after = none

theorem Aged.lasting {now : Instant} {value : Bytes} {after : Option (Entry Bytes Instant)}
    (aged : Aged now (some ⟨value, none⟩) after) : after = some ⟨value, none⟩ := by
  rcases aged with same | ⟨held, limit, impossible, -⟩
  · exact same
  · cases impossible

private theorem aged_remains {time now : Instant} (ordered : time ≤ now)
    (entry : Option (Entry Bytes Instant)) : Aged now entry (remains time entry) := by
  cases left : remains time entry with
  | some found => exact Or.inl (ExpiringMap.remains_eq_some.mp left).1.symm
  | none =>
      rcases entry with _ | ⟨value, _ | limit⟩
      · exact Or.inl rfl
      · cases left
      · refine Or.inr ⟨value, limit, rfl, ?_, rfl⟩
        apply le_trans _ ordered
        rw [← not_lt]
        intro ahead
        cases left.symm.trans (ExpiringMap.remains_eq_some.mpr ⟨rfl, decide_eq_true ahead⟩)

theorem Aged.trans {now : Instant} {first second third : Option (Entry Bytes Instant)}
    (early : Aged now first second) (late : Aged now second third) : Aged now first third := by
  rcases early with rfl | ⟨value, limit, timed, passed, rfl⟩
  · exact late
  · rcases late with rfl | ⟨_, _, impossible, -⟩
    · exact Or.inr ⟨value, limit, timed, passed, rfl⟩
    · cases impossible

section Plays

variable {calls front middle back : List DataBusCall} {times : List Instant}
  {contents last : Reference} {start now : Instant} {key value : Bytes}

private theorem plays_cons {request : DataBusCall}
    (plays : Plays Reference.object (performAll (request :: calls)) times contents (some ()) last) :
    ∃ time later, times = time :: later ∧
      Plays Reference.object (performAll calls) later (Reference.step request time contents).2
        (some ()) last :=
  Plays.call_inv plays

private theorem plays_append
    (plays : Plays Reference.object (performAll (front ++ back)) times contents (some ()) last) :
    ∃ between early late, times = early ++ late ∧
      Plays Reference.object (performAll front) early contents (some ()) between ∧
        Plays Reference.object (performAll back) late between (some ()) last := by
  induction front generalizing times contents with
  | nil => exact ⟨contents, [], times, rfl, .done () contents, plays⟩
  | cons request front ih =>
      rcases plays_cons plays with ⟨time, later, rfl, rest⟩
      rcases ih rest with ⟨between, early, late, rfl, first, second⟩
      exact ⟨between, time :: early, late, rfl, .call rfl first, second⟩

private theorem plays_other (away : ∀ request ∈ calls, request.key? ≠ some key)
    (before : ∀ time ∈ times, time ≤ now)
    (plays : Plays Reference.object (performAll calls) times contents (some ()) last) :
    Aged now contents[key]? last[key]? := by
  induction calls generalizing times contents with
  | nil =>
      rcases plays.done_inv with ⟨-, -, rfl⟩
      exact Or.inl rfl
  | cons request calls ih =>
      rcases plays_cons plays with ⟨time, later, rfl, rest⟩
      have aged := ih (fun other member => away other (List.mem_cons_of_mem _ member))
        (fun other member => before other (List.mem_cons_of_mem _ member)) rest
      rw [Reference.step_other (away request (List.mem_cons_self ..))] at aged
      exact (aged_remains (before time (List.mem_cons_self ..)) _).trans aged

private theorem plays_written (away : ∀ request ∈ back, request.key? ≠ some key)
    (before : ∀ time ∈ times, time ≤ now)
    (plays : Plays Reference.object (performAll (front ++ .writeValue key value :: back)) times
      contents (some ()) last) : last[key]? = some ⟨value, none⟩ := by
  rcases plays_append plays with ⟨between, early, late, rfl, -, rest⟩
  rcases plays_cons rest with ⟨time, least, rfl, ending⟩
  have aged := plays_other away (fun other member => before other
    (List.mem_append_right _ (List.mem_cons_of_mem _ member))) ending
  have stored : (Reference.step (.writeValue key value) time between).2[key]? =
      some ⟨value, none⟩ := by
    refine (ExpiringMap.getElem?_store key key value _).trans ?_
    rw [if_pos rfl]
  rw [stored] at aged
  exact aged.lasting

private theorem plays_timed {duration : Duration}
    (awayMiddle : ∀ request ∈ middle, request.key? ≠ some key)
    (awayBack : ∀ request ∈ back, request.key? ≠ some key)
    (bounds : ∀ time ∈ times, start ≤ time ∧ time ≤ now)
    (plays : Plays Reference.object
      (performAll ((front ++ .writeValue key value :: middle) ++ .writeTtl key duration :: back))
      times contents (some ()) last) :
    ∃ time, start ≤ time ∧ time ≤ now ∧
      Aged now (some ⟨value, some (time + duration)⟩) last[key]? := by
  rcases plays_append plays with ⟨between, early, late, rfl, first, rest⟩
  have written := plays_written awayMiddle
    (fun other member => (bounds other (List.mem_append_left _ member)).2) first
  rcases plays_cons rest with ⟨time, least, rfl, ending⟩
  have timeBounds := bounds time (List.mem_append_right _ (List.mem_cons_self ..))
  have aged := plays_other awayBack (fun other member => (bounds other
    (List.mem_append_right _ (List.mem_cons_of_mem _ member))).2) ending
  have stored : (Reference.step (.writeTtl key duration) time between).2[key]? =
      some ⟨value, some (time + duration)⟩ := by
    refine (ExpiringMap.getElem?_setDeadline key key (time + duration) _).trans ?_
    rw [if_pos rfl, ExpiringMap.getElem?_purge, written]
    rfl
  rw [stored] at aged
  exact ⟨time, timeBounds.1, timeBounds.2, aged⟩

end Plays

def GivesLifetime (new : EntryMap) (pair : Bytes × Bytes) (ttlMs : Nat) : Prop :=
  DataKey pair.1 ∧ ∃ front middle back value,
    new.entries = (front ++ dataEntry pair :: middle) ++ lifetimeEntry pair value :: back ∧
      parseTtl value = some ttlMs ∧ 0 < ttlMs

section RoundTrip

variable {clock : Nat → Instant} {ticks : Nat} {bus : PermutiveBus} {old new : EntryMap}
  {archive : List ArchiveEntry}

theorem Archived.about (archived : Archived clock ticks bus new archive)
    {pair : Bytes × Bytes} (listed : pair ∈ bus.listed (clock ticks) []) {entry : ArchiveEntry}
    (member : entry ∈ new.entries) (notVersion : entry.1 ≠ versionPath) {call : DataBusCall}
    (calls : entryCall entry = some call) (about : call.key? = some pair.1) :
    entry = dataEntry pair ∨ DataKey pair.1 ∧ ∃ value ttlMs,
      entry = lifetimeEntry pair value ∧ parseTtl value = some ttlMs ∧ 0 < ttlMs := by
  cases archived.means member notVersion calls with
  | data other otherListed =>
      left
      rw [archived.same_pair otherListed listed (Option.some_inj.mp about)]
  | lifetime other otherListed data value ttlMs parsed positive =>
      right
      rw [archived.same_pair otherListed listed (Option.some_inj.mp about)] at data ⊢
      exact ⟨data, value, ttlMs, rfl, parsed, positive⟩

theorem Archived.away (archived : Archived clock ticks bus new archive)
    {pair : Bytes × Bytes} (listed : pair ∈ bus.listed (clock ticks) [])
    {entries : List ArchiveEntry} (subset : entries ⊆ new.entries)
    (noData : (dataEntry pair).1 ∉ entries.map Prod.fst)
    (noLifetime : DataKey pair.1 → ∀ value ttlMs, lifetimeEntry pair value ∈ entries →
      parseTtl value = some ttlMs → ¬ 0 < ttlMs) :
    ∀ request ∈ entryCalls entries, request.key? ≠ some pair.1 := by
  intro request member about
  rcases mem_entryCalls.mp member with ⟨entry, inEntries, notVersion, calls⟩
  rcases archived.about listed (subset inEntries) notVersion calls about with
    isData | ⟨data, value, ttlMs, isLifetime, parsed, positive⟩
  · exact noData (isData ▸ List.mem_map_of_mem inEntries)
  · exact noLifetime data value ttlMs (isLifetime ▸ inEntries) parsed positive

theorem Archived.lasting (archived : Archived clock ticks bus new archive)
    {times : List Instant} {start now : Instant} {contents last : Reference}
    (bounds : ∀ time ∈ times, start ≤ time ∧ time ≤ now)
    (plays : Plays Reference.object (performAll (entryCalls new.entries)) times contents
      (some ()) last) {pair : Bytes × Bytes} (listed : pair ∈ bus.listed (clock ticks) [])
    (noLifetime : ∀ ttlMs, ¬ GivesLifetime new pair ttlMs) :
    last[pair.1]? = some ⟨pair.2, none⟩ := by
  rcases archived.data_call listed with ⟨member, notVersion, calls⟩
  rcases List.append_of_mem member with ⟨front, back, split⟩
  have distinct := new.distinct
  rw [split, List.map_append, List.map_cons, List.nodup_append, List.nodup_cons] at distinct
  rw [split, entryCalls_append, entryCalls_cons back notVersion calls] at plays
  have subset : back ⊆ new.entries := by
    rw [split]
    exact List.subset_append_of_subset_right _ (List.subset_cons_self _ _)
  apply plays_written _ (fun time member => (bounds time member).2) plays
  apply archived.away listed subset distinct.2.1.1
  intro data value ttlMs inBack parsed positive
  rcases List.append_of_mem inBack with ⟨middle, rest, backIs⟩
  refine noLifetime ttlMs ⟨data, front, middle, rest, value, ?_, parsed, positive⟩
  rw [split, backIs, List.append_assoc, List.cons_append]

theorem Archived.timed (archived : Archived clock ticks bus new archive)
    {times : List Instant} {start now : Instant} {contents last : Reference}
    (bounds : ∀ time ∈ times, start ≤ time ∧ time ≤ now)
    (plays : Plays Reference.object (performAll (entryCalls new.entries)) times contents
      (some ()) last) {pair : Bytes × Bytes} (listed : pair ∈ bus.listed (clock ticks) [])
    {ttlMs : Nat} (gives : GivesLifetime new pair ttlMs) :
    ∃ time, start ≤ time ∧ time ≤ now ∧
      Aged now (some ⟨pair.2, some (time + fromMillis ttlMs)⟩) last[pair.1]? := by
  rcases gives with ⟨data, front, middle, back, value, split, parsed, positive⟩
  rcases archived.data_call listed with ⟨-, notVersion, calls⟩
  rcases archived.lifetime_call listed data parsed positive with ⟨notVersionEither, lifetimeCalls⟩
  have distinct := new.distinct
  rw [split, List.map_append, List.map_append, List.map_cons, List.map_cons, List.nodup_append,
    List.nodup_append, List.nodup_cons, List.nodup_cons] at distinct
  rw [split, entryCalls_append, entryCalls_append, entryCalls_cons _ notVersion calls,
    entryCalls_cons _ notVersionEither lifetimeCalls] at plays
  have inside : middle ⊆ new.entries ∧ back ⊆ new.entries := by
    rw [split]
    exact ⟨fun entry member => List.mem_append_left _
      (List.mem_append_right _ (List.mem_cons_of_mem _ member)),
      fun entry member => List.mem_append_right _ (List.mem_cons_of_mem _ member)⟩
  rcases distinct with ⟨⟨-, ⟨notMiddle, -⟩, -⟩, ⟨notBack, -⟩, apart⟩
  refine plays_timed ?_ ?_ bounds plays
  · apply archived.away listed inside.1 notMiddle
    intro _ other otherMs member _ _
    apply apart (lifetimeEntry pair other).1 _ _ (List.mem_cons_self ..) rfl
    exact List.mem_append_right _ (List.mem_cons_of_mem _ (List.mem_map_of_mem member))
  · apply archived.away listed inside.2
    · intro member
      apply apart (dataEntry pair).1 _ _ (List.mem_cons_of_mem _ member) rfl
      exact List.mem_append_right _ (List.mem_cons_self ..)
    · intro _ other otherMs member _ _
      have again : (lifetimeEntry pair other).1 ∈ back.map Prod.fst := List.mem_map_of_mem member
      exact notBack again

theorem Archived.others (archived : Archived clock ticks bus new archive)
    {times : List Instant} {now : Instant} {contents last : Reference}
    (before : ∀ time ∈ times, time ≤ now)
    (plays : Plays Reference.object (performAll (entryCalls new.entries)) times contents
      (some ()) last) {key : Bytes} (notListed : key ∉ (bus.listed (clock ticks) []).map Prod.fst) :
    Aged now contents[key]? last[key]? := by
  apply plays_other _ before plays
  intro request member about
  rcases mem_entryCalls.mp member with ⟨entry, inEntries, notVersion, calls⟩
  cases archived.means inEntries notVersion calls with
  | data pair listed =>
      cases about
      exact notListed (List.mem_map_of_mem listed)
  | lifetime pair listed data value ttlMs parsed positive =>
      cases about
      exact notListed (List.mem_map_of_mem listed)

end RoundTrip

end TricPlus
