import TricPlus.WireDump

/-!
The dump and the restore of the command line.

The file holds for each listed pair the milliseconds the transient tier reports, zero
for none.  That is the lifetime of a key with one, as long as a whole millisecond of it
is left; a key without a lifetime has none there unless a read has left a copy.
-/

namespace TricPlus

open AtomicProgram
open BigEndian
open ExpiringMap (Entry remains)

/-! ### The last time a dump asks for a key -/

/-- The reading at which a dump asks for a key the last time, and the value it writes then. -/
def lastListed (key : Bytes) : Nat → List (Bytes × Bytes) → Option (Nat × Bytes)
  | _, [] => none
  | reading, pair :: pairs =>
      (lastListed key (reading + 1) pairs).or
        (if pair.1 = key then some (reading, pair.2) else none)

private theorem lastListed_eq_none {key : Bytes} {start : Nat} {pairs : List (Bytes × Bytes)} :
    lastListed key start pairs = none ↔ ∀ value, (key, value) ∉ pairs := by
  induction pairs generalizing start with
  | nil => exact iff_of_true rfl (fun value member => by cases member)
  | cons pair pairs ih =>
      unfold lastListed
      rw [Option.or_eq_none_iff, ih]
      constructor
      · intro both value member
        rcases List.mem_cons.mp member with same | later
        · rw [← same, if_pos rfl] at both
          cases both.2
        · exact both.1 value later
      · intro absent
        refine ⟨fun value later => absent value (List.mem_cons_of_mem _ later), ?_⟩
        rw [if_neg]
        intro same
        apply absent pair.2
        rw [← same]
        exact List.mem_cons_self ..

private theorem lastListed_some {key value : Bytes} {start query : Nat}
    {pairs : List (Bytes × Bytes)}
    (last : lastListed key start pairs = some (query, value)) :
    start ≤ query ∧ (key, value) ∈ pairs := by
  induction pairs generalizing start with
  | nil => cases last
  | cons pair pairs ih =>
      unfold lastListed at last
      rcases Option.or_eq_some_iff.mp last with later | ⟨-, here⟩
      · rcases ih later with ⟨above, member⟩
        exact ⟨Nat.le_of_succ_le above, List.mem_cons_of_mem _ member⟩
      · split at here
        · rename_i same
          cases here
          rw [← same]
          exact ⟨Nat.le_refl _, List.mem_cons_self ..⟩
        · cases here

private theorem lastEntry_written (clock : Nat → Instant) (bus : PermutiveBus) (key : Bytes)
    (start : Nat)
    (pairs : List (Bytes × Bytes)) :
    lastEntry key ((lifetimesFrom clock bus start pairs).map Dumped.cut) =
      (lastListed key start pairs).map (fun last =>
        (last.2, Router.remainingMillis (bus.remaining (clock last.1) key) % 2 ^ 64)) := by
  induction pairs generalizing start with
  | nil => rfl
  | cons pair pairs ih =>
      let millis := Router.remainingMillis (bus.remaining (clock start) pair.1)
      let rest := (lifetimesFrom clock bus (start + 1) pairs).map Dumped.cut
      have first : lastEntry key (Dumped.cut (pair, millis) :: rest) =
          (lastEntry key rest).or
            (if pair.1 = key then some (pair.2, millis % 2 ^ 64) else none) := rfl
      unfold lifetimesFrom lastListed
      rw [List.map_cons, first, ih]
      cases later : lastListed key (start + 1) pairs with
      | some found => rfl
      | none =>
          rw [Option.map_none, Option.none_or, Option.none_or]
          by_cases same : pair.1 = key
          · rw [if_pos same, if_pos same, ← same]
            rfl
          · rw [if_neg same, if_neg same]
            rfl

/-- How a key comes back: without a lifetime where it had none, else with what was left of
it, in whole milliseconds, when the dump asked, counted from a reading of the restore. -/
def CameBack (clock : Nat → Instant) (lifetime : Option Instant) (query : Nat) (value : Bytes)
    (restoreClock : Nat → Instant) (start later : Nat) (entry : Option (Entry Bytes Instant)) :
    Prop :=
  match lifetime with
  | none => entry = some ⟨value, none⟩
  | some deadline =>
      0 < asMillis (deadline - clock query) ∧ ∃ set, start ≤ set ∧ set ≤ later ∧
        entry = remains (restoreClock later) (some ⟨value,
          some (restoreClock set + fromMillis (asMillis (deadline - clock query)))⟩)

/-- Every key as it is after the restore: what was listed comes back, and nothing else. -/
def AllCameBack (clock : Nat → Instant) (ticks : Nat) (bus : PermutiveBus) (lifetimes : Lifetimes)
    (target : Site) (restoreClock : Nat → Instant) (start later : Nat) (restored : PermutiveBus) :
    Prop :=
  ∀ key, match lastListed key (ticks + 2) (bus.listed (clock ticks) []) with
    | none => (restored.cell target key).entry (restoreClock later) = none
    | some (query, value) =>
        (∀ other, (key, other) ∈ bus.listed (clock ticks) [] → other = value) ∧
          CameBack clock (lifetimes key) query value restoreClock start later
            ((restored.cell target key).entry (restoreClock later))

/-- A dump of the bus, restored on an empty one at whatever times, preserves every key, value
and lifetime. -/
def DumpPreserves (site : Site) (clock : Nat → Instant) (ticks : Nat) (bus : PermutiveBus)
    (lifetimes : Lifetimes) (target : Site) (empty : PermutiveBus) : Prop :=
  ∀ files path, files.create path = .ok () →
    ∃ text contents ended after,
      run (bothTiers site) clock (onTiers (Cli.renderDump files [asBytes "-f", path])) ticks bus =
        ⟨some ⟨text, some (path, contents)⟩, ended, after⟩ ∧
      (∀ key value, (key, value) ∈ bus.listed (clock ticks) [] ↔
        (bus.cell site key).value (clock ticks) = some value) ∧
      ∀ restoreFiles restoreClock start, restoreFiles.read path = .ok contents →
        Monotone restoreClock →
        ∃ answer later restored,
          run (bothTiers target) restoreClock
              (onTiers (Cli.renderRestore restoreFiles [asBytes "-f", path])) start empty =
            ⟨some answer, later, restored⟩ ∧
          AllCameBack clock ticks bus lifetimes target restoreClock start later restored

/-- What it takes for a listed key: it fits a record and can be stored; when the dump asks for
it the last time, no copy of a key without a lifetime has a whole millisecond left, and a key
with a lifetime has one left. -/
structure KeyDumpable (clock : Nat → Instant) (bus : PermutiveBus) (lifetime : Option Instant)
    (target : Site) (empty : PermutiveBus) (key value : Bytes) (query : Nat) : Prop where
  keyFits : key.length < fieldLimit
  valueFits : value.length < fieldLimit
  usable : empty.persistent.usable target key = true
  noCopy : lifetime = none →
    Router.remainingMillis (bus.remaining (clock query) key) % 2 ^ 64 = 0
  left : ∀ deadline, lifetime = some deadline →
    0 < asMillis (deadline - clock query) ∧ asMillis (deadline - clock query) < 2 ^ 64

/-- Every listed key can be dumped, and shows what it is listed with: a scan also lists rows
from open databases that are not the key's own. -/
structure Dumpable (site : Site) (clock : Nat → Instant) (ticks : Nat) (bus : PermutiveBus)
    (lifetimes : Lifetimes) (target : Site) (empty : PermutiveBus) : Prop where
  works : bus.persistent.Works
  shown : ∀ key value, (key, value) ∈ bus.listed (clock ticks) [] →
    (bus.cell site key).value (clock ticks) = some value
  each : ∀ key query value,
    lastListed key (ticks + 2) (bus.listed (clock ticks) []) = some (query, value) →
    KeyDumpable clock bus (lifetimes key) target empty key value query

section RoundTrip

variable {site target : Site} {clock restoreClock : Nat → Instant} {disk : Disk}
  {ticks start : Nat} {bus empty : PermutiveBus} {lifetimes : Lifetimes}

private theorem run_renderRestore {files : Files} {path contents : Bytes}
    (read : files.read path = .ok contents) {entries : List Dumped} {count : Nat}
    (loop : Cli.restoreLoop contents contents.length 0 0 =
      (Cli.restoreEntries entries).bind (fun _ => .done count)) :
    run (bothTiers target) restoreClock (onTiers (Cli.renderRestore files [asBytes "-f", path]))
        start empty =
      match run (bothTiers target) restoreClock (onTiers (Cli.restoreEntries entries)) start
        empty with
      | ⟨some (), later, restored⟩ =>
          ⟨some (showNat count ++ asBytes " entries restored from " ++ path ++ asBytes "\n"),
            later, restored⟩
      | ⟨none, later, restored⟩ => ⟨none, later, restored⟩ := by
  have parts : Cli.filePath [asBytes "-f", path] = some path := if_pos rfl
  have program : onTiers (Cli.renderRestore files [asBytes "-f", path]) =
      (onTiers (Cli.restoreEntries entries)).bind (fun _ => .done
        (showNat count ++ asBytes " entries restored from " ++ path ++ asBytes "\n")) := by
    unfold Cli.renderRestore
    rw [parts]
    simp only [read, loop]
    have joined : ((Cli.restoreEntries entries).bind (fun _ => (.done count : BusProgram Nat)) >>=
        fun count => pure (showNat count ++ asBytes " entries restored from " ++ path ++
          asBytes "\n")) =
        (Cli.restoreEntries entries).bind (fun _ => .done
          (showNat count ++ asBytes " entries restored from " ++ path ++ asBytes "\n")) :=
      Program.bind_assoc _ _ _
    rw [joined]
    exact Program.translate_bind _ _ _
  rw [program, run_bind]
  rcases run (bothTiers target) restoreClock (onTiers (Cli.restoreEntries entries)) start empty with
    ⟨result, later, restored⟩
  cases result with
  | none => rfl
  | some result => rfl

/-- Where the command answers, its records have been restored. -/
private theorem restoreEntries_of_command {files : Files} {path contents : Bytes}
    (read : files.read path = .ok contents) {entries : List Dumped} {count : Nat}
    (loop : Cli.restoreLoop contents contents.length 0 0 =
      (Cli.restoreEntries entries).bind (fun _ => .done count))
    {answer : Bytes} {later : Nat} {restored : PermutiveBus}
    (ran : run (bothTiers target) restoreClock
        (onTiers (Cli.renderRestore files [asBytes "-f", path])) start empty =
      ⟨some answer, later, restored⟩) :
    run (bothTiers target) restoreClock (onTiers (Cli.restoreEntries entries)) start empty =
      ⟨some (), later, restored⟩ := by
  have command := @run_renderRestore target restoreClock start empty files path contents read
    entries count loop
  rcases outcome : run (bothTiers target) restoreClock (onTiers (Cli.restoreEntries entries))
    start empty with ⟨result, stopped, last⟩
  rw [ran, outcome] at command
  cases result with
  | none => cases command
  | some result =>
      cases command
      rfl

theorem dumped_file : (dumpedEntries clock ticks bus).flatMap Cli.dumpRecord =
    ((dumpedEntries clock ticks bus).map Dumped.cut).flatMap Cli.dumpRecord := by
  rw [List.flatMap_def, List.flatMap_def, List.map_map]
  congr 1
  exact List.map_congr_left (fun entry _ => (dumpRecord_cut entry).symm)

theorem dumped_fit
    (fits : ∀ key value, (key, value) ∈ bus.listed (clock ticks) [] →
      key.length < fieldLimit ∧ value.length < fieldLimit) :
    ∀ entry ∈ (dumpedEntries clock ticks bus).map Dumped.cut, Cli.RecordFits entry := by
  intro entry member
  rcases List.mem_map.mp member with ⟨whole, inDumped, same⟩
  have pairListed : whole.1 ∈ bus.listed (clock ticks) [] := by
    rw [← @lifetimesFrom_pairs clock bus (ticks + 2)
      (bus.listed (clock ticks) [])]
    exact List.mem_map_of_mem inDumped
  have lengths := fits whole.1.1 whole.1.2 pairListed
  rw [← same]
  exact cut_fits lengths.1 lengths.2

private theorem remaining_of_record (monotone : Monotone clock)
    {key : Bytes} {deadline : Instant} {query : Nat}
    (records : (bus.cell site key).Records (clock ticks) (some deadline)) (later : ticks ≤ query)
    (ahead : clock query < deadline) :
    bus.remaining (clock query) key = some (deadline - clock query) := by
  rcases records.dated deadline rfl (lt_of_le_of_lt (monotone later) ahead) with ⟨value, copy⟩
  have held : remains (clock query) bus.transient.contents[key]? = some ⟨value, some deadline⟩ :=
    ExpiringMap.remains_eq_some.mpr ⟨copy, decide_eq_true ahead⟩
  unfold PermutiveBus.remaining
  rw [held]
  rfl

private theorem ahead_of_millis {deadline now : Instant} (left : 0 < asMillis (deadline - now)) :
    now < deadline := by
  by_contra behind
  have nothing : deadline - now = 0 := Nat.sub_eq_zero_of_le (Nat.le_of_not_lt behind)
  rw [nothing] at left
  cases left

theorem Dumpable.oneValue (dumpable : Dumpable site clock ticks bus lifetimes target empty)
    {key value other : Bytes} (here : (key, value) ∈ bus.listed (clock ticks) [])
    (there : (key, other) ∈ bus.listed (clock ticks) []) : other = value :=
  Option.some.inj ((dumpable.shown key other there).symm.trans (dumpable.shown key value here))

private theorem Dumpable.preserves (monotone : Monotone clock)
    (recorded : Recorded site clock disk ticks bus lifetimes) (isEmpty : empty.Empty)
    (dumpable : Dumpable site clock ticks bus lifetimes target empty) :
    DumpPreserves site clock ticks bus lifetimes target empty := by
  intro files path created
  rcases @run_renderDump site clock ticks bus monotone dumpable.works files path created with
    ⟨text, ended, transient, dumped⟩
  refine ⟨text, _, ended, _, dumped,
    fun key value => ⟨dumpable.shown key value, listed_of_value⟩, ?_⟩
  intro restoreFiles restoreClock start read restoreMonotone
  have named : ∃ entries, entries = (dumpedEntries clock ticks bus).map Dumped.cut := ⟨_, rfl⟩
  rcases named with ⟨entries, entriesAre⟩
  have listedOf : ∀ key value, (key, value) ∈ bus.listed (clock ticks) [] →
      ∃ query last, lastListed key (ticks + 2) (bus.listed (clock ticks) []) =
        some (query, last) ∧ last = value := by
    intro key value member
    cases last : lastListed key (ticks + 2) (bus.listed (clock ticks) []) with
    | none => exact absurd member (lastListed_eq_none.mp last value)
    | some found =>
        exact ⟨found.1, found.2, rfl, dumpable.oneValue member (lastListed_some last).2⟩
  have fit : ∀ entry ∈ entries, Cli.RecordFits entry := by
    rw [entriesAre]
    apply dumped_fit
    intro key value member
    rcases listedOf key value member with ⟨query, last, found, same⟩
    rw [← same]
    exact ⟨(dumpable.each key query last found).keyFits,
      (dumpable.each key query last found).valueFits⟩
  have usable : ∀ entry ∈ entries, empty.persistent.usable target entry.1.1 = true := by
    rw [entriesAre]
    intro entry member
    rcases List.mem_map.mp member with ⟨whole, inDumped, same⟩
    have pairListed : whole.1 ∈ bus.listed (clock ticks) [] := by
      rw [← @lifetimesFrom_pairs clock bus (ticks + 2)
        (bus.listed (clock ticks) [])]
      exact List.mem_map_of_mem inDumped
    rcases listedOf whole.1.1 whole.1.2 pairListed with ⟨query, last, found, -⟩
    rw [← same]
    exact (dumpable.each _ query last found).usable
  rw [dumped_file, ← entriesAre] at read
  rcases @run_restoreEntries target restoreClock start empty restoreMonotone isEmpty.works
    (isEmpty.whole target) entries usable with ⟨later, restored, ran, -, -, each⟩
  have command := @run_renderRestore target restoreClock start empty restoreFiles path _ read
    entries _ (Cli.restoreLoop_file fit)
  rw [ran] at command
  refine ⟨_, later, restored, command, ?_⟩
  · intro key
    have here := each key none (isEmpty.nothing target (restoreClock start) key)
    rw [entriesAre] at here
    unfold dumpedEntries at here
    rw [lastEntry_written] at here
    cases last : lastListed key (ticks + 2) (bus.listed (clock ticks) []) with
    | none =>
        rw [last] at here
        exact Cell.Matches.entry_eq here
    | some found =>
        rcases found with ⟨query, value⟩
        have keyDumpable := dumpable.each key query value last
        rw [last] at here
        refine ⟨fun other there => dumpable.oneValue (lastListed_some last).2 there, ?_⟩
        cases lifetime : lifetimes key with
        | none =>
            rw [Option.map_some, keyDumpable.noCopy lifetime] at here
            exact Cell.Matches.entry_eq here
        | some deadline =>
            have left := keyDumpable.left deadline lifetime
            have records := recorded.records monotone dumpable.works key
            rw [lifetime] at records
            have above := (lastListed_some last).1
            have reported := remaining_of_record monotone records (Nat.le_of_add_right_le above)
              (ahead_of_millis left.1)
            have millis : Router.remainingMillis (some (deadline - clock query)) =
                asMillis (deadline - clock query) := rfl
            rw [Option.map_some, reported, millis, Nat.mod_eq_of_lt left.2] at here
            refine ⟨left.1, ?_⟩
            cases count : asMillis (deadline - clock query) with
            | zero => omega
            | succ rest =>
                rw [count] at here
                rcases here with ⟨set, aboveSet, belowSet, matched⟩
                exact ⟨set, aboveSet, belowSet, matched.entry_eq⟩

theorem works_of_dump {files : Files} {path : Bytes} {rendered : Rendered} {ended : Nat}
    {after : PermutiveBus}
    (ran : run (bothTiers site) clock (onTiers (Cli.renderDump files [asBytes "-f", path])) ticks
      bus = ⟨some rendered, ended, after⟩) : bus.persistent.Works := by
  by_contra poisoned
  have parts : Cli.filePath [asBytes "-f", path] = some path := if_pos rfl
  have stuck := run_findByPrefix_stuck site clock ticks ((Bool.not_eq_false _).mp poisoned) []
  have program : ∃ rest : List (Bytes × Bytes) → Program tiers Rendered,
      onTiers (Cli.renderDump files [asBytes "-f", path]) =
        (PermutiveBus.findByPrefix []).bind rest := by
    unfold Cli.renderDump
    rw [parts]
    exact ⟨_, rfl⟩
  rcases program with ⟨rest, program⟩
  rw [program, run_bind] at ran
  rcases scanned : run (bothTiers site) clock (PermutiveBus.findByPrefix []) ticks bus with
    ⟨result, later, state⟩
  rw [scanned] at stuck ran
  cases stuck
  cases ran

private theorem restored_of_run (monotone : Monotone restoreClock) (isEmpty : empty.Empty)
    {entries : List Dumped} {later : Nat} {restored : PermutiveBus}
    (ran : run (bothTiers target) restoreClock (onTiers (Cli.restoreEntries entries)) start empty =
      ⟨some (), later, restored⟩) :
    (∀ entry ∈ entries, empty.persistent.usable target entry.1.1 = true) ∧
      ∀ key, RestoredAs restoreClock start later (lastEntry key entries) none
        (restored.cell target key) := by
  have ends := @restoreEntries_ends target restoreClock _ start empty
    (Kept.refl isEmpty.attached) entries
  have stores : ∀ entry ∈ entries, empty.persistent.Stores target entry.1.1 := by
    by_contra refused
    have stuck := ends.panics refused
    rw [ran] at stuck
    cases stuck
  have usable : ∀ entry ∈ entries, empty.persistent.usable target entry.1.1 = true :=
    fun entry member => (stores entry member).2
  rcases @run_restoreEntries target restoreClock start empty monotone isEmpty.works
    (isEmpty.whole target) entries usable with ⟨later', restored', ran', -, -, each⟩
  cases ran.symm.trans ran'
  exact ⟨usable, fun key => each key none (isEmpty.nothing target (restoreClock start) key)⟩

private theorem lastEntry_of_entry {entries : List Dumped} {later : Nat} {key value : Bytes}
    {deadline : Option Instant} {cell : Cell}
    (restored : RestoredAs restoreClock start later (lastEntry key entries) none cell)
    (entry : cell.entry (restoreClock later) = some ⟨value, deadline⟩) :
    ∃ millis, lastEntry key entries = some (value, millis) := by
  rcases last : lastEntry key entries with _ | ⟨held, _ | millis⟩
  · rw [last] at restored
    have nothing := Cell.Matches.entry_eq restored
    cases nothing.symm.trans entry
  · rw [last] at restored
    have found := Cell.Matches.entry_eq restored
    cases found.symm.trans entry
    exact ⟨0, rfl⟩
  · rw [last] at restored
    rcases restored with ⟨set, -, -, matched⟩
    have found := (ExpiringMap.remains_eq_some.mp (matched.entry_eq.symm.trans entry)).1
    cases found
    exact ⟨millis + 1, rfl⟩

private theorem CameBack.entry_still {lifetime : Option Instant} {query later : Nat} {value : Bytes}
    {entry : Option (Entry Bytes Instant)}
    (back : CameBack clock lifetime query value stillClock start later entry) :
    entry = some ⟨value, lifetime.map (fun deadline =>
      0 + fromMillis (asMillis (deadline - clock query)))⟩ := by
  cases lifetime with
  | none => exact back
  | some deadline =>
      rcases back with ⟨left, set, -, -, same⟩
      rw [same]
      exact ExpiringMap.remains_eq_some.mpr
        ⟨rfl, decide_eq_true (Nat.add_pos_right 0 (Nat.mul_pos left (by decide)))⟩

def oneFile (contents : Bytes) : Files where
  create := fun _ => .ok ()
  read := fun _ => .ok contents

/-- On a clock that stands still the milliseconds of the last record are those of the lifetime
that came back. -/
private theorem millis_of_cameBack {lifetime : Option Instant} {query later millis : Nat}
    {value : Bytes} {cell : Cell}
    (restored : RestoredAs stillClock 0 later (some (value, millis)) none cell)
    (back : CameBack clock lifetime query value stillClock 0 later
      (cell.entry (stillClock later))) :
    millis = lifetime.elim 0 (fun deadline => asMillis (deadline - clock query)) := by
  have entry := back.entry_still
  cases millis with
  | zero =>
      have found := (Cell.Matches.entry_eq restored).symm.trans entry
      cases lifetime with
      | none => rfl
      | some deadline => cases found
  | succ millis =>
      rcases restored with ⟨set, -, -, matched⟩
      have found := (ExpiringMap.remains_eq_some.mp (matched.entry_eq.symm.trans entry)).1
      cases lifetime with
      | none => cases found
      | some deadline =>
          have deadlines : 0 + fromMillis (millis + 1) =
              0 + fromMillis (asMillis (deadline - clock query)) :=
            Option.some_inj.mp (congrArg Entry.deadline (Option.some_inj.mp found))
          exact Nat.eq_of_mul_eq_mul_right (by decide) (Nat.add_left_cancel deadlines)

private theorem DumpPreserves.dumpable (monotone : Monotone clock) (isEmpty : empty.Empty)
    (preserves : DumpPreserves site clock ticks bus lifetimes target empty) :
    Dumpable site clock ticks bus lifetimes target empty := by
  rcases preserves (oneFile []) [] rfl with ⟨text, contents, ended, after, dumpRan, shows, back⟩
  have works := works_of_dump dumpRan
  rcases @run_renderDump site clock ticks bus monotone works (oneFile []) [] rfl with
    ⟨text', ended', transient, dumped⟩
  cases dumpRan.symm.trans dumped
  rcases back (oneFile _) stillClock 0 rfl stillClock_monotone with
    ⟨answer, later, restored, ran, all⟩
  have cameBack : ∀ key query value,
      lastListed key (ticks + 2) (bus.listed (clock ticks) []) = some (query, value) →
      CameBack clock (lifetimes key) query value stillClock 0 later
        ((restored.cell target key).entry (stillClock later)) := by
    intro key query value last
    have here := all key
    rw [last] at here
    exact here.2
  -- the file as the loop reads it
  rcases Cli.restoreLoop_eq ((dumpedEntries clock ticks bus).flatMap Cli.dumpRecord)
    ((dumpedEntries clock ticks bus).flatMap Cli.dumpRecord).length 0 0 with ⟨parsed, fit, loop⟩
  have parsedRan := restoreEntries_of_command rfl loop ran
  have lengths : ∀ key value, (key, value) ∈ bus.listed (clock ticks) [] →
      key.length < fieldLimit ∧ value.length < fieldLimit := by
    intro key value member
    cases last : lastListed key (ticks + 2) (bus.listed (clock ticks) []) with
    | none => exact absurd member (lastListed_eq_none.mp last value)
    | some found =>
        rcases found with ⟨query, held⟩
        rcases lastEntry_of_entry ((restored_of_run stillClock_monotone isEmpty parsedRan).2 key)
          (cameBack key query held last).entry_still with ⟨millis, inParsed⟩
        have fits := fit _ (lastEntry_mem inParsed)
        have shown := (shows key value).mp member
        rw [(shows key held).mp (lastListed_some last).2] at shown
        rw [← Option.some.inj shown]
        exact ⟨fits.key, fits.value⟩
  -- every record fits, so what the loop reads is what the dump wrote
  have named : ∃ entries, entries = (dumpedEntries clock ticks bus).map Dumped.cut := ⟨_, rfl⟩
  rcases named with ⟨entries, entriesAre⟩
  have entriesFit : ∀ entry ∈ entries, Cli.RecordFits entry := by
    rw [entriesAre]
    exact dumped_fit lengths
  have readBack : (oneFile ((dumpedEntries clock ticks bus).flatMap Cli.dumpRecord)).read [] =
      .ok (entries.flatMap Cli.dumpRecord) := by
    rw [entriesAre, ← dumped_file]
    rfl
  have entriesRan := restoreEntries_of_command readBack (Cli.restoreLoop_file entriesFit) ran
  rcases restored_of_run stillClock_monotone isEmpty entriesRan with ⟨usable, each⟩
  refine ⟨works, fun key value => (shows key value).mp, ?_⟩
  intro key query value last
  have back := cameBack key query value last
  have here := each key
  rcases lastEntry_of_entry here back.entry_still with ⟨millis, inEntries⟩
  rw [inEntries] at here
  have fits := entriesFit _ (lastEntry_mem inEntries)
  have millisAre : Router.remainingMillis (bus.remaining (clock query) key) % 2 ^ 64 = millis := by
    have written := inEntries
    rw [entriesAre] at written
    unfold dumpedEntries at written
    rw [lastEntry_written, last] at written
    exact congrArg Prod.snd (Option.some_inj.mp written)
  have lifetime := millis_of_cameBack here back
  exact {
    keyFits := fits.key
    valueFits := fits.value
    usable := usable _ (lastEntry_mem inEntries)
    noCopy := by
      intro lasting
      rw [lasting] at lifetime
      exact millisAre.trans lifetime
    left := by
      intro deadline given
      rw [given] at lifetime back
      refine ⟨back.1, ?_⟩
      have same : millis = asMillis (deadline - clock query) := lifetime
      rw [← same]
      exact fits.millis }

/-- A dump and its restore preserve every key, value and lifetime exactly where every listed
key can be dumped. -/
theorem dump_preserves_iff (site : Site) (clock : Nat → Instant) (disk : Disk) (ticks : Nat)
    (bus : PermutiveBus) (lifetimes : Lifetimes) (target : Site) (empty : PermutiveBus)
    (monotone : Monotone clock) (recorded : Recorded site clock disk ticks bus lifetimes)
    (isEmpty : empty.Empty) :
    DumpPreserves site clock ticks bus lifetimes target empty ↔
      Dumpable site clock ticks bus lifetimes target empty := by
  constructor
  · intro preserves
    exact preserves.dumpable monotone isEmpty
  · intro dumpable
    exact dumpable.preserves monotone recorded isEmpty

end RoundTrip

/-- Two keys, one of them with five milliseconds to live. -/
theorem lifetimes_come_back :
    let requests := [DataBusCall.writeValue (asBytes "users:1") (asBytes "a"),
      .writeValueWithTtl (asBytes "users:2") (asBytes "b") (fromMillis 5)]
    let reached := recordedCalls openSite stillClock ∅ requests
    DumpPreserves openSite stillClock reached.1 reached.2.1 reached.2.2 openSite emptyBus := by
  intro requests reached
  have pairs : reached.2.1.listed 0 [] =
      [(asBytes "users:1", asBytes "a"), (asBytes "users:2", asBytes "b")] := by
    decide +kernel
  have works : reached.2.1.persistent.poisoned = false := by
    decide +kernel
  refine (dump_preserves_iff openSite stillClock ∅ reached.1 reached.2.1 reached.2.2 openSite
    emptyBus stillClock_monotone (recordedCalls_recorded openSite stillClock ∅ requests)
    emptyBus_empty).mpr ⟨works, ?_, ?_⟩
  · intro key value member
    change (key, value) ∈ reached.2.1.listed 0 [] at member
    rw [pairs] at member
    rcases List.mem_cons.mp member with first | rest
    · rcases Prod.mk.inj first with ⟨rfl, rfl⟩
      decide +kernel
    · rcases Prod.mk.inj (List.mem_singleton.mp rest) with ⟨rfl, rfl⟩
      decide +kernel
  intro key query value last
  have member : (key, value) ∈ reached.2.1.listed 0 [] := (lastListed_some last).2
  change KeyDumpable stillClock reached.2.1 (reached.2.2 key) openSite emptyBus key value query
  rw [pairs] at member
  rcases List.mem_cons.mp member with first | rest
  · rcases Prod.mk.inj first with ⟨keyIs, valueIs⟩
    rw [keyIs, valueIs]
    have lasting : reached.2.2 (asBytes "users:1") = none := by
      decide +kernel
    have noCopy : Router.remainingMillis (reached.2.1.remaining 0 (asBytes "users:1")) % 2 ^ 64 =
        0 := by
      decide +kernel
    exact {
      keyFits := by decide +kernel
      valueFits := by decide +kernel
      usable := by decide +kernel
      noCopy := fun _ => noCopy
      left := fun deadline given => by cases lasting.symm.trans given }
  · rcases Prod.mk.inj (List.mem_singleton.mp rest) with ⟨keyIs, valueIs⟩
    rw [keyIs, valueIs]
    have given : reached.2.2 (asBytes "users:2") = some (fromMillis 5) := by
      decide +kernel
    exact {
      keyFits := by decide +kernel
      valueFits := by decide +kernel
      usable := by decide +kernel
      noCopy := fun lasting => by cases given.symm.trans lasting
      left := by
        intro deadline alsoGiven
        cases given.symm.trans alsoGiven
        change 0 < asMillis (fromMillis 5 - 0) ∧ asMillis (fromMillis 5 - 0) < 2 ^ 64
        decide }

/-- A read leaves a copy for a minute; the key comes back with this minute for its
lifetime. -/
theorem read_key_comes_back_mortal :
    let requests := [DataBusCall.writeValue (asBytes "users:1") (asBytes "a"),
      .readValue (asBytes "users:1")]
    let reached := recordedCalls openSite stillClock ∅ requests
    Recorded openSite stillClock ∅ reached.1 reached.2.1 reached.2.2 ∧
      ¬ DumpPreserves openSite stillClock reached.1 reached.2.1 reached.2.2 openSite emptyBus := by
  intro requests reached
  refine ⟨recordedCalls_recorded openSite stillClock ∅ requests, ?_⟩
  intro preserves
  have dumpable := preserves.dumpable stillClock_monotone emptyBus_empty
  have last : lastListed (asBytes "users:1") (reached.1 + 2)
      (reached.2.1.listed (stillClock reached.1) []) = some (reached.1 + 2, asBytes "a") := by
    decide +kernel
  have nothing := (dumpable.each _ _ _ last).noCopy (by decide +kernel)
  have minute : Router.remainingMillis (reached.2.1.remaining (stillClock (reached.1 + 2))
      (asBytes "users:1")) % 2 ^ 64 = 60000 := by
    decide +kernel
  rw [minute] at nothing
  cases nothing

end TricPlus
