import TricPlus.Cli
import TricPlus.Listing

/-!
The archive an export writes: an entry for each pair under a path made of its key, and
beside a data pair with a lifetime one with its remaining milliseconds.
-/

namespace TricPlus

open AtomicProgram
open ExpiringMap (remains)

abbrev ArchiveEntry := Bytes × Bytes

/-- The library that packs the archive: whether it takes an entry, and whether it can
finish.  What it has taken is written completely. -/
structure Tar where
  append : Bytes → Bytes → Except Bytes Unit
  finish : Except Bytes Unit

def Tar.Takes (tar : Tar) (entries : List ArchiveEntry) : Prop :=
  ∀ entry ∈ entries, tar.append entry.1 entry.2 = .ok ()

structure ExportResult where
  entries : Nat
  bytesWritten : Nat
  deriving DecidableEq

namespace Export

def schemaStem : Bytes := asBytes "_schema:"

def relStem : Bytes := asBytes "_rel:"

def schemaPath : Bytes := asBytes "_schema/"

def relPath : Bytes := asBytes "_rel/"

def ttlPath : Bytes := asBytes "_ttl/"

def versionPath : Bytes := asBytes "_meta/version"

def replaceAll (old new : UInt8) (text : Bytes) : Bytes :=
  text.map (fun byte => if byte = old then new else byte)

def dataPath (keyStr : Bytes) : Bytes :=
  replaceAll colon PosixPath.slash keyStr

def writeTarEntry (tar : Tar) (path data : Bytes) : Except Bytes ArchiveEntry :=
  match tar.append path data with
  | .error error => .error (asBytes "tar append " ++ path ++ asBytes " failed: " ++ error)
  | .ok () => .ok (path, data)

def writeLifetime (tar : Tar) (keyStr : Bytes) (data : ArchiveEntry)
    (remaining : Option Duration) : Except Bytes (List ArchiveEntry) :=
  match remaining with
  | none => .ok [data]
  | some remaining =>
      (writeTarEntry tar (ttlPath ++ dataPath keyStr) (showNat (asMillis remaining))).map
        (fun ttl => [data, ttl])

def writePair (tar : Tar) (pair : Bytes × Bytes) : BusProgram (Except Bytes (List ArchiveEntry)) :=
  let keyStr := Utf8.lossy pair.1
  match keyStr.dropPrefix? schemaStem with
  | some tableName =>
      return (writeTarEntry tar (schemaPath ++ tableName) pair.2).map (fun entry => [entry])
  | none =>
      match keyStr.dropPrefix? relStem with
      | some relName =>
          return (writeTarEntry tar (relPath ++ relName) []).map (fun entry => [entry])
      | none =>
          match writeTarEntry tar (dataPath keyStr) pair.2 with
          | .error error => return .error error
          | .ok data => do
              let remaining ← DataBus.readTtlRemaining pair.1
              return writeLifetime tar keyStr data remaining

abbrev Turn := (Bytes × Bytes) × List ArchiveEntry

def writePairs (tar : Tar) : List (Bytes × Bytes) → BusProgram (Except Bytes (List Turn))
  | [] => return .ok []
  | pair :: pairs => do
      match ← writePair tar pair with
      | .error error => return .error error
      | .ok entries => do
          let rest ← writePairs tar pairs
          return rest.map (fun turns => (pair, entries) :: turns)

def writeAll (tar : Tar) : BusProgram (Except Bytes (List Turn)) := do
  let allEntries ← DataBus.findByPrefix []
  writePairs tar allEntries

def DataKey (key : Bytes) : Prop :=
  (Utf8.lossy key).dropPrefix? schemaStem = none ∧ (Utf8.lossy key).dropPrefix? relStem = none

instance : DecidablePred DataKey := fun _ => inferInstanceAs (Decidable (_ ∧ _))

def ttlEntries (key : Bytes) (remaining : Option Duration) : List ArchiveEntry :=
  match remaining with
  | none => []
  | some remaining => [(ttlPath ++ dataPath (Utf8.lossy key), showNat (asMillis remaining))]

def turnEntries (pair : Bytes × Bytes) (remaining : Option Duration) : List ArchiveEntry :=
  match (Utf8.lossy pair.1).dropPrefix? schemaStem with
  | some tableName => [(schemaPath ++ tableName, pair.2)]
  | none =>
      match (Utf8.lossy pair.1).dropPrefix? relStem with
      | some relName => [(relPath ++ relName, [])]
      | none => (dataPath (Utf8.lossy pair.1), pair.2) :: ttlEntries pair.1 remaining

theorem turnEntries_of_data {pair : Bytes × Bytes} (data : DataKey pair.1)
    (remaining : Option Duration) :
    turnEntries pair remaining =
      (dataPath (Utf8.lossy pair.1), pair.2) :: ttlEntries pair.1 remaining := by
  unfold turnEntries
  rw [data.1, data.2]

theorem turnEntries_of_other {pair : Bytes × Bytes} (other : ¬ DataKey pair.1) :
    ∃ entry, ∀ remaining, turnEntries pair remaining = [entry] := by
  unfold turnEntries
  cases schema : (Utf8.lossy pair.1).dropPrefix? schemaStem with
  | some tableName => exact ⟨_, fun _ => rfl⟩
  | none =>
      cases rel : (Utf8.lossy pair.1).dropPrefix? relStem with
      | some relName => exact ⟨_, fun _ => rfl⟩
      | none => exact absurd ⟨schema, rel⟩ other

def turnTicks (key : Bytes) : Nat :=
  if DataKey key then 1 else 0

def turnsFrom (clock : Nat → Instant) (bus : PermutiveBus) :
    Nat → List (Bytes × Bytes) → List Turn
  | _, [] => []
  | ticks, pair :: pairs =>
      (pair, turnEntries pair (bus.remaining (clock ticks) pair.1)) ::
        turnsFrom clock bus (ticks + turnTicks pair.1) pairs

section Run

variable {site : Site} {clock : Nat → Instant} {ticks : Nat} {bus : PermutiveBus} {tar : Tar}

theorem writeTarEntry_ok {path data : Bytes} {entry : ArchiveEntry}
    (written : writeTarEntry tar path data = .ok entry) : entry = (path, data) := by
  unfold writeTarEntry at written
  split at written
  · cases written
  · cases written
    rfl

private theorem writeTarEntry_taken {path data : Bytes} (taken : tar.append path data = .ok ()) :
    writeTarEntry tar path data = .ok (path, data) := by
  unfold writeTarEntry
  rw [taken]

structure TurnWritten (clock : Nat → Instant) (tar : Tar) (bus : PermutiveBus) (ticks : Nat)
    (pair : Bytes × Bytes) (result : Except Bytes (List ArchiveEntry)) (later : Nat) : Prop where
  entries : ∀ entries, result = .ok entries →
    entries = turnEntries pair (bus.remaining (clock ticks) pair.1) ∧
      later = ticks + turnTicks pair.1
  taken : tar.Takes (turnEntries pair (bus.remaining (clock ticks) pair.1)) →
    ∃ entries, result = .ok entries

private theorem turnWritten_single {pair : Bytes × Bytes} {path data : Bytes}
    (single : ∀ remaining, turnEntries pair remaining = [(path, data)])
    (other : ¬ DataKey pair.1) :
    TurnWritten clock tar bus ticks pair
      ((writeTarEntry tar path data).map (fun entry => [entry])) ticks where
  entries := by
    intro entries written
    cases one : writeTarEntry tar path data with
    | error error =>
        rw [one] at written
        cases written
    | ok entry =>
        rw [one] at written
        cases written
        rw [single, writeTarEntry_ok one]
        unfold turnTicks
        rw [if_neg other]
        exact ⟨rfl, rfl⟩
  taken := by
    intro takes
    rw [single] at takes
    rw [writeTarEntry_taken (takes _ (List.mem_singleton_self _))]
    exact ⟨_, rfl⟩

private theorem lifetimeWritten {pair : Bytes × Bytes} (data : DataKey pair.1)
    {entry : ArchiveEntry}
    (first : entry = (dataPath (Utf8.lossy pair.1), pair.2)) :
    TurnWritten clock tar bus ticks pair
      (writeLifetime tar (Utf8.lossy pair.1) entry (bus.remaining (clock ticks) pair.1))
      (ticks + 1) where
  entries := by
    intro entries written
    rw [turnEntries_of_data data, ← first]
    unfold turnTicks ttlEntries
    rw [if_pos data]
    unfold writeLifetime at written
    cases left : bus.remaining (clock ticks) pair.1 with
    | none =>
        rw [left] at written
        cases written
        exact ⟨rfl, rfl⟩
    | some remaining =>
        rw [left] at written
        simp only at written
        cases second : writeTarEntry tar (ttlPath ++ dataPath (Utf8.lossy pair.1))
            (showNat (asMillis remaining)) with
        | error error =>
            rw [second] at written
            cases written
        | ok ttl =>
            rw [second] at written
            cases written
            rw [writeTarEntry_ok second]
            exact ⟨rfl, rfl⟩
  taken := by
    intro takes
    rw [turnEntries_of_data data] at takes
    unfold ttlEntries at takes
    unfold writeLifetime
    cases left : bus.remaining (clock ticks) pair.1 with
    | none => exact ⟨_, rfl⟩
    | some remaining =>
        rw [left] at takes
        simp only
        rw [writeTarEntry_taken (takes _ (List.mem_cons_of_mem _ (List.mem_singleton_self _)))]
        exact ⟨_, rfl⟩

private theorem run_writePair (monotone : Monotone clock) (pair : Bytes × Bytes) :
    ∃ result later transient,
      run (bothTiers site) clock (onTiers (writePair tar pair)) ticks bus =
        ⟨some result, later, { bus with transient := transient }⟩ ∧
      (∀ other : Bytes, remains (clock later) transient.contents[other]? =
        remains (clock later) bus.transient.contents[other]?) ∧
      TurnWritten clock tar bus ticks pair result later := by
  unfold writePair
  simp only
  cases schema : (Utf8.lossy pair.1).dropPrefix? schemaStem with
  | some tableName =>
      refine ⟨_, _, bus.transient, rfl, fun _ => rfl, turnWritten_single ?_ ?_⟩
      · intro remaining
        unfold turnEntries
        rw [schema]
      · intro data
        cases schema.symm.trans data.1
  | none =>
      cases rel : (Utf8.lossy pair.1).dropPrefix? relStem with
      | some relName =>
          refine ⟨_, _, bus.transient, rfl, fun _ => rfl, turnWritten_single ?_ ?_⟩
          · intro remaining
            unfold turnEntries
            rw [schema, rel]
          · intro data
            cases rel.symm.trans data.2
      | none =>
          have data : DataKey pair.1 := ⟨schema, rel⟩
          cases first : writeTarEntry tar (dataPath (Utf8.lossy pair.1)) pair.2 with
          | error error =>
              refine ⟨_, _, bus.transient, rfl, fun _ => rfl, ?_, ?_⟩
              · intro entries written
                cases written
              · intro takes
                rw [turnEntries_of_data data] at takes
                cases first.symm.trans (writeTarEntry_taken (takes _ (List.mem_cons_self ..)))
          | ok entry =>
              rcases @run_readTtlRemaining site clock ticks bus pair.1 with ⟨transient, asked, purged⟩
              refine ⟨_, ticks + 1, transient, ?_, ?_,
                lifetimeWritten data (writeTarEntry_ok first)⟩
              · change run (bothTiers site) clock ((PermutiveBus.readTtlRemaining pair.1).bind
                  (fun remaining => .done (writeLifetime tar (Utf8.lossy pair.1) entry
                    remaining))) ticks bus = _
                rw [run_bind, asked]
                rfl
              · intro other
                rw [purged other]
                exact ExpiringMap.remains_remains (monotone (Nat.le_succ ticks)) _

private theorem turnsFrom_congr (monotone : Monotone clock) {left right : PermutiveBus}
    (same : ∀ key : Bytes, remains (clock ticks) left.transient.contents[key]? =
      remains (clock ticks) right.transient.contents[key]?) {start : Nat} (later : ticks ≤ start)
    (pairs : List (Bytes × Bytes)) :
    turnsFrom clock left start pairs = turnsFrom clock right start pairs := by
  induction pairs generalizing start with
  | nil => rfl
  | cons pair pairs ih =>
      unfold turnsFrom
      rw [remaining_congr (monotone later) (same pair.1), ih (later.trans (Nat.le_add_right ..))]

private theorem run_writePairs (monotone : Monotone clock) (tar : Tar)
    (pairs : List (Bytes × Bytes)) :
    ∃ result later transient,
      run (bothTiers site) clock (onTiers (writePairs tar pairs)) ticks bus =
        ⟨some result, later, { bus with transient := transient }⟩ ∧
      (∀ turns, result = .ok turns → turns = turnsFrom clock bus ticks pairs) ∧
      (tar.Takes ((turnsFrom clock bus ticks pairs).flatMap Prod.snd) →
        ∃ turns, result = .ok turns) := by
  induction pairs generalizing ticks bus with
  | nil =>
      refine ⟨.ok [], ticks, bus.transient, rfl, ?_, fun _ => ⟨[], rfl⟩⟩
      intro turns same
      cases same
      rfl
  | cons pair pairs ih =>
      rcases @run_writePair site clock ticks bus tar monotone pair with
        ⟨first, middle, transient, ran, purged, written⟩
      rcases @ih middle { bus with transient := transient } with
        ⟨rest, later, last, restRan, restWritten, restTaken⟩
      have forward : ticks ≤ middle := by
        have passed := @run_ticks_le _ _ _ _ (bothTiers site) clock (onTiers (writePair tar pair))
          ticks bus
        rw [ran] at passed
        exact passed
      have same := @turnsFrom_congr clock middle monotone { bus with transient := transient } bus
        purged _ (Nat.le_refl middle) pairs
      have program : onTiers (writePairs tar (pair :: pairs)) =
          (onTiers (writePair tar pair)).bind (fun written => onTiers
            (match written with
            | .error error => return .error error
            | .ok entries => do
                let rest ← writePairs tar pairs
                return rest.map (fun turns => (pair, entries) :: turns))) :=
        Program.translate_bind _ _ _
      rw [program, run_bind, ran]
      cases first with
      | error error =>
          refine ⟨.error error, middle, transient, rfl, ?_, ?_⟩
          · intro turns same
            cases same
          · intro takes
            have taken : tar.Takes (turnEntries pair (bus.remaining (clock ticks) pair.1)) := by
              intro entry member
              exact takes entry (List.mem_flatMap.mpr ⟨_, List.mem_cons_self .., member⟩)
            rcases written.taken taken with ⟨entries, impossible⟩
            cases impossible
      | ok entries =>
          rcases written.entries entries rfl with ⟨entriesAre, middleIs⟩
          have turnsAre : turnsFrom clock bus ticks (pair :: pairs) =
              (pair, entries) :: turnsFrom clock bus middle pairs := by
            rw [entriesAre, middleIs]
            rfl
          have continues : onTiers (do
              let rest ← writePairs tar pairs
              return rest.map (fun turns => (pair, entries) :: turns)) =
              (onTiers (writePairs tar pairs)).bind (fun rest => .done
                (rest.map (fun turns => (pair, entries) :: turns))) :=
            Program.translate_bind _ _ _
          simp only
          rw [continues, run_bind, restRan, turnsAre]
          refine ⟨_, later, last, rfl, ?_, ?_⟩
          · intro turns mapped
            cases rest with
            | error error => cases mapped
            | ok restTurns =>
                cases mapped
                rw [restWritten restTurns rfl, same]
          · intro takes
            have taken : tar.Takes ((turnsFrom clock { bus with transient := transient } middle
                pairs).flatMap Prod.snd) := by
              rw [same]
              intro entry member
              rcases List.mem_flatMap.mp member with ⟨turn, inTurns, inEntries⟩
              exact takes entry (List.mem_flatMap.mpr
                ⟨turn, List.mem_cons_of_mem _ inTurns, inEntries⟩)
            rcases restTaken taken with ⟨restTurns, restIs⟩
            rw [restIs]
            exact ⟨_, rfl⟩

theorem run_writeAll (monotone : Monotone clock) (sound : bus.persistent.Works) (tar : Tar) :
    ∃ result later transient,
      run (bothTiers site) clock (onTiers (writeAll tar)) ticks bus =
        ⟨some result, later, { bus with transient := transient }⟩ ∧
      (∀ turns, result = .ok turns →
        turns = turnsFrom clock bus (ticks + 2) (bus.listed (clock ticks) [])) ∧
      (tar.Takes ((turnsFrom clock bus (ticks + 2) (bus.listed (clock ticks) [])).flatMap
          Prod.snd) → ∃ turns, result = .ok turns) := by
  rcases run_listed site clock ticks sound [] with ⟨listed, scanned, purged⟩
  rcases @run_writePairs site clock (ticks + 2) { bus with transient := listed } monotone tar
    (bus.listed (clock ticks) []) with ⟨result, later, last, ran, written, taken⟩
  have same := @turnsFrom_congr clock ticks monotone { bus with transient := listed } bus
    (by
      intro key
      rw [purged key, ExpiringMap.remains_idem])
    _ (Nat.le_add_right ticks 2) (bus.listed (clock ticks) [])
  rw [same] at written taken
  refine ⟨result, later, last, ?_, written, taken⟩
  change run (bothTiers site) clock ((PermutiveBus.findByPrefix []).bind
    (fun pairs => onTiers (writePairs tar pairs))) ticks bus = _
  rw [run_bind, scanned]
  exact ran

theorem mem_turnsFrom {start : Nat} {pairs : List (Bytes × Bytes)} {turn : Turn}
    (member : turn ∈ turnsFrom clock bus start pairs) :
    turn.1 ∈ pairs ∧ ∃ reading, start ≤ reading ∧
      turn.2 = turnEntries turn.1 (bus.remaining (clock reading) turn.1.1) := by
  induction pairs generalizing start with
  | nil => cases member
  | cons pair pairs ih =>
      unfold turnsFrom at member
      rcases List.mem_cons.mp member with here | later
      · rw [here]
        exact ⟨List.mem_cons_self .., start, Nat.le_refl start, rfl⟩
      · rcases ih later with ⟨inPairs, reading, ordered, entries⟩
        exact ⟨List.mem_cons_of_mem _ inPairs, reading, (Nat.le_add_right ..).trans ordered,
          entries⟩

theorem turnsFrom_pairs (start : Nat) (pairs : List (Bytes × Bytes)) :
    (turnsFrom clock bus start pairs).map Prod.fst = pairs := by
  induction pairs generalizing start with
  | nil => rfl
  | cons pair pairs ih =>
      unfold turnsFrom
      rw [List.map_cons, ih]

end Run

end Export

end TricPlus
