import TricPlus.DumpCodec
import TricPlus.DumpRestore
import TricPlus.Lib.ByteLists

/-!
Dumps to a file whose writes can fail.

Every record takes five writes.  The command does not look at how they ended and counts the
bytes by itself, so it reports success whatever got to the file.
-/

namespace TricPlus

open AtomicProgram
open BigEndian

/-- For each write, how many bytes got to the file before it failed; nothing where it does
not fail. -/
abbrev WriteFaults := Nat → Option Nat

/-- `write_all`: what gets to the file, and whether that is everything. -/
def writeAll (fault : Option Nat) (data : Bytes) : Bytes × Bool :=
  match fault with
  | none => (data, true)
  | some count => if data.length ≤ count then (data, true) else (data.take count, false)

def writeParts (faults : WriteFaults) : Nat → List Bytes → Bytes
  | _, [] => []
  | index, part :: parts =>
      (writeAll (faults index) part).1 ++ writeParts faults (index + 1) parts

def recordParts (entry : Dumped) : List Bytes :=
  [toBeBytes 4 entry.1.1.length, entry.1.1, toBeBytes 4 entry.1.2.length, entry.1.2,
    toBeBytes 8 entry.2]

def partSizes (pair : Bytes × Bytes) : List Nat :=
  [4, pair.1.length, 4, pair.2.length, 8]

def recordSize (pair : Bytes × Bytes) : Nat :=
  4 + pair.1.length + 4 + pair.2.length + 8

def dumpReport (count bytesWritten : Nat) (path : Bytes) : Bytes :=
  showNat count ++ asBytes " entries  " ++ showNat bytesWritten ++ asBytes "B  written to " ++
    path ++ asBytes "\n"

namespace Cli

/-- The dump command, on a file whose writes can fail. -/
def renderDumpWriting (files : Files) (faults : WriteFaults) (parts : List Bytes) :
    BusProgram Rendered :=
  match filePath parts with
  | none => return ⟨asBytes "usage: dump -f <path>\n", none⟩
  | some path => do
      let pairs ← DataBus.findByPrefix []
      match files.create path with
      | .error error =>
          return ⟨asBytes "error: cannot create " ++ path ++ asBytes ": " ++ error ++
            asBytes "\n", none⟩
      | .ok () =>
          let dumped ← Router.withLifetimes pairs
          return ⟨dumpReport dumped.length (dumped.map (fun entry => recordSize entry.1)).sum path,
            some (path, writeParts faults 0 (dumped.flatMap recordParts))⟩

end Cli

def WriteFails (faults : WriteFaults) (pairs : List (Bytes × Bytes)) : Prop :=
  ∃ index size count, (pairs.flatMap partSizes)[index]? = some size ∧
    faults index = some count ∧ count < size

def ReportsSuccess (text : Bytes) : Prop :=
  ∃ count bytesWritten path, text = dumpReport count bytesWritten path

def ReportsError (text : Bytes) : Prop :=
  ∃ message, text = asBytes "error: " ++ message

/-- What a dump answers is true: with success the file holds the records of all entries, and
a restore reads them back; and a write that failed is answered with an error. -/
def DumpIsTruthful (site : Site) (clock : Nat → Instant) (ticks : Nat) (bus : PermutiveBus)
    (files : Files) (faults : WriteFaults) (parts : List Bytes) : Prop :=
  ∀ rendered later after,
    run (bothTiers site) clock (onTiers (Cli.renderDumpWriting files faults parts)) ticks bus =
      ⟨some rendered, later, after⟩ →
    (ReportsSuccess rendered.text → ∃ path entries,
      entries = (dumpedEntries clock ticks bus).map Dumped.cut ∧
      rendered.text = dumpReport entries.length (entries.flatMap Cli.dumpRecord).length path ∧
      rendered.written = some (path, entries.flatMap Cli.dumpRecord) ∧
      ∀ rounds, (entries.flatMap Cli.dumpRecord).length ≤ rounds →
        Cli.restoreLoop (entries.flatMap Cli.dumpRecord) rounds 0 0 =
          (performAll (entries.flatMap restoreCalls)).bind (fun _ => .done entries.length)) ∧
    ∀ path, Cli.filePath parts = some path → files.create path = .ok () →
      WriteFails faults (bus.listed (clock ticks) []) → ReportsError rendered.text

/-! ### Texts -/

private theorem showNat_head (number : Nat) :
    ∃ digit rest, showNat number = digit :: rest ∧ 0x30 ≤ digit ∧ digit ≤ 0x39 := by
  have text : toString number = String.ofList (Nat.toDigits 10 number) :=
    Nat.repr_eq_ofList_toDigits
  unfold showNat asBytes
  rw [text, String.toUTF8_eq_toByteArray, String.toByteArray_ofList]
  rcases digits : Nat.toDigits 10 number with _ | ⟨first, others⟩
  · exact absurd digits Nat.toDigits_ne_nil
  · have isDigit : first.isDigit = true :=
      Nat.isDigit_of_mem_toDigits (by decide) (by decide) (digits ▸ List.mem_cons_self ..)
    unfold Char.isDigit at isDigit
    rw [Bool.and_eq_true, decide_eq_true_eq, decide_eq_true_eq] at isDigit
    have small : first.utf8Size = 1 := by
      unfold Char.utf8Size
      rw [if_pos (UInt32.le_trans isDigit.2 (by decide))]
    have encoded : ((first :: others).utf8Encode).toList =
        first.val.toUInt8 :: others.flatMap String.utf8EncodeChar := by
      unfold List.utf8Encode
      rw [ByteLists.toList_toByteArray, List.flatMap_cons, String.utf8EncodeChar_eq_singleton small]
      rfl
    refine ⟨_, _, encoded, ?_⟩
    have low := UInt32.le_iff_toNat_le.mp isDigit.1
    have high := UInt32.le_iff_toNat_le.mp isDigit.2
    have lowest : '0'.val.toNat = 48 := rfl
    have highest : '9'.val.toNat = 57 := rfl
    rw [UInt8.le_iff_toNat_le, UInt8.le_iff_toNat_le, UInt32.toNat_toUInt8]
    have digitLow : (0x30 : UInt8).toNat = 48 := rfl
    have digitHigh : (0x39 : UInt8).toNat = 57 := rfl
    omega

private theorem dumpReport_head (count bytesWritten : Nat) (path : Bytes) :
    ∃ digit rest, dumpReport count bytesWritten path = digit :: rest ∧ digit ≤ 0x39 := by
  rcases showNat_head count with ⟨digit, rest, shown, -, high⟩
  unfold dumpReport
  rw [shown]
  exact ⟨digit, _, rfl, high⟩

private theorem not_reportsSuccess {first : UInt8} {rest : Bytes} (letter : 0x39 < first) :
    ¬ ReportsSuccess (first :: rest) := by
  intro reports
  rcases reports with ⟨count, bytesWritten, path, same⟩
  rcases dumpReport_head count bytesWritten path with ⟨digit, others, shown, high⟩
  rw [shown] at same
  rw [(List.cons.inj same).1] at letter
  exact absurd high (UInt8.not_le.mpr letter)

private theorem not_reportsError (count bytesWritten : Nat) (path : Bytes) :
    ¬ ReportsError (dumpReport count bytesWritten path) := by
  intro reports
  rcases reports with ⟨message, same⟩
  rcases dumpReport_head count bytesWritten path with ⟨digit, others, shown, high⟩
  have letter : asBytes "error: " = 0x65 :: asBytes "rror: " := by decide +kernel
  rw [shown, letter] at same
  rw [(List.cons.inj same).1] at high
  exact absurd high (by decide)

private theorem writeAll_fails {fault : Option Nat} {data : Bytes} :
    (writeAll fault data).2 = false ↔ ∃ count, fault = some count ∧ count < data.length := by
  unfold writeAll
  cases fault with
  | none =>
      constructor
      · intro failed
        cases failed
      · intro found
        rcases found with ⟨count, same, -⟩
        cases same
  | some count =>
      simp only
      split
      · rename_i whole
        constructor
        · intro failed
          cases failed
        · intro found
          rcases found with ⟨other, same, short⟩
          cases same
          omega
      · rename_i short
        exact iff_of_true rfl ⟨count, rfl, Nat.not_le.mp short⟩

private theorem writeAll_whole {fault : Option Nat} {data : Bytes}
    (whole : (writeAll fault data).2 = true) : (writeAll fault data).1 = data := by
  unfold writeAll at whole ⊢
  cases fault with
  | none => rfl
  | some count =>
      by_cases inside : data.length ≤ count
      · simp only [if_pos inside]
      · simp only [if_neg inside] at whole
        cases whole

private theorem writeParts_whole {faults : WriteFaults} {parts : List Bytes} {start : Nat}
    (whole : ∀ index part, parts[index]? = some part →
      (writeAll (faults (start + index)) part).2 = true) :
    writeParts faults start parts = parts.flatten := by
  induction parts generalizing start with
  | nil => rfl
  | cons part parts ih =>
      have first := whole 0 part rfl
      have written : (writeAll (faults start) part).1 = part := writeAll_whole first
      unfold writeParts
      rw [written, List.flatten_cons, ih]
      intro index other found
      have later := whole (index + 1) other found
      rw [← Nat.add_assoc, Nat.add_right_comm] at later
      exact later

private theorem recordParts_sizes (entries : List Dumped) :
    (entries.flatMap recordParts).map List.length =
      (entries.map Prod.fst).flatMap partSizes := by
  induction entries with
  | nil => rfl
  | cons entry entries ih =>
      rw [List.flatMap_cons, List.map_append, ih, List.map_cons, List.flatMap_cons]
      unfold recordParts partSizes
      simp only [List.map_cons, List.map_nil, length_toBeBytes]

private theorem recordParts_flatten (entries : List Dumped) :
    (entries.flatMap recordParts).flatten = entries.flatMap Cli.dumpRecord := by
  induction entries with
  | nil => rfl
  | cons entry entries ih =>
      rw [List.flatMap_cons, List.flatten_append, ih, List.flatMap_cons]
      unfold recordParts Cli.dumpRecord
      simp only [List.flatten_cons, List.flatten_nil, List.append_nil, List.append_assoc]

private theorem recordSize_sum (entries : List Dumped) :
    (entries.map (fun entry => recordSize entry.1)).sum =
      (entries.flatMap Cli.dumpRecord).length := by
  induction entries with
  | nil => rfl
  | cons entry entries ih =>
      rw [List.map_cons, List.sum_cons, ih, List.flatMap_cons, List.length_append]
      unfold recordSize Cli.dumpRecord
      simp only [List.length_append, length_toBeBytes]

private theorem written_whole {faults : WriteFaults} {entries : List Dumped}
    (whole : ¬ WriteFails faults (entries.map Prod.fst)) :
    writeParts faults 0 (entries.flatMap recordParts) = entries.flatMap Cli.dumpRecord := by
  rw [writeParts_whole, recordParts_flatten]
  intro index part found
  rw [Nat.zero_add]
  by_contra failed
  rcases writeAll_fails.mp (Bool.eq_false_of_not_eq_true failed) with ⟨count, fault, short⟩
  apply whole
  refine ⟨index, part.length, count, ?_, fault, short⟩
  rw [← recordParts_sizes, List.getElem?_map, found]
  rfl

theorem renderDumpWriting_whole (files : Files) (parts : List Bytes) :
    Cli.renderDumpWriting files (fun _ => none) parts = Cli.renderDump files parts := by
  have noFault : ∀ pairs, ¬ WriteFails (fun _ => none) pairs := by
    intro pairs fails
    rcases fails with ⟨index, size, count, -, fault, -⟩
    cases fault
  have finish : ∀ (path : Bytes) (dumped : List Dumped),
      (⟨dumpReport dumped.length (dumped.map (fun entry => recordSize entry.1)).sum path,
        some (path, writeParts (fun _ => none) 0 (dumped.flatMap recordParts))⟩ : Rendered) =
      ⟨showNat dumped.length ++ asBytes " entries  " ++
        showNat (dumped.flatMap Cli.dumpRecord).length ++ asBytes "B  written to " ++ path ++
        asBytes "\n", some (path, dumped.flatMap Cli.dumpRecord)⟩ := by
    intro path dumped
    rw [written_whole (noFault _), recordSize_sum]
    rfl
  unfold Cli.renderDumpWriting Cli.renderDump
  cases Cli.filePath parts with
  | none => rfl
  | some path =>
      refine congrArg (Program.bind (DataBus.findByPrefix [])) (funext ?_)
      intro pairs
      cases files.create path with
      | error error => rfl
      | ok done =>
          refine congrArg (Program.bind (Router.withLifetimes pairs)) (funext ?_)
          intro dumped
          exact congrArg Program.done (finish path dumped)

/-! ### What is restored -/

private theorem restoreCalls_injective {left right : List Dumped}
    (same : left.flatMap restoreCalls = right.flatMap restoreCalls) : left = right := by
  have firstWrite : ∀ entries : List Dumped, ∀ key duration rest,
      entries.flatMap restoreCalls ≠ .writeTtl key duration :: rest := by
    intro entries key duration rest starts
    cases entries with
    | nil => cases starts
    | cons entry entries => cases starts
  induction left generalizing right with
  | nil =>
      cases right with
      | nil => rfl
      | cons entry right => cases same
  | cons entry left ih =>
      cases right with
      | nil => cases same
      | cons other right =>
          rcases entry with ⟨⟨key, value⟩, millis⟩
          rcases other with ⟨⟨otherKey, otherValue⟩, otherMillis⟩
          rw [List.flatMap_cons, List.flatMap_cons] at same
          unfold restoreCalls at same
          rw [List.cons_append, List.cons_append, List.cons.injEq] at same
          rcases same with ⟨write, rest⟩
          cases write
          cases millis with
          | zero =>
              cases otherMillis with
              | zero => rw [ih rest]
              | succ otherMillis => exact absurd rest (firstWrite left _ _ _)
          | succ millis =>
              cases otherMillis with
              | zero => exact absurd rest.symm (firstWrite right _ _ _)
              | succ otherMillis =>
                  rw [if_pos (Nat.succ_pos millis), if_pos (Nat.succ_pos otherMillis)] at rest
                  rcases List.cons.inj rest with ⟨ttl, behind⟩
                  have durations : fromMillis (millis + 1) = fromMillis (otherMillis + 1) :=
                    (DataBusCall.writeTtl.inj ttl).2
                  have equal : millis + 1 = otherMillis + 1 :=
                    Nat.eq_of_mul_eq_mul_right (by decide) durations
                  rw [ih behind, equal]

private theorem fits_of_restored {entries : List Dumped}
    (restores : Cli.restoreLoop (entries.flatMap Cli.dumpRecord)
        (entries.flatMap Cli.dumpRecord).length 0 0 =
      (performAll (entries.flatMap restoreCalls)).bind (fun _ => .done entries.length)) :
    ∀ entry ∈ entries, Cli.RecordFits entry := by
  rcases Cli.restoreLoop_eq (entries.flatMap Cli.dumpRecord)
    (entries.flatMap Cli.dumpRecord).length 0 0 with ⟨read, fit, loop⟩
  rw [restores, Cli.restoreEntries_eq] at loop
  rw [restoreCalls_injective (performAll_injective loop).1]
  exact fit

section Command

variable {site : Site} {clock : Nat → Instant} {ticks : Nat} {bus : PermutiveBus} {files : Files}
  {faults : WriteFaults} {parts : List Bytes} {path : Bytes}

private theorem run_renderDumpWriting (monotone : Monotone clock) (sound : bus.persistent.Works)
    (given : Cli.filePath parts = some path) (created : files.create path = .ok ()) :
    ∃ ended after,
      run (bothTiers site) clock (onTiers (Cli.renderDumpWriting files faults parts)) ticks bus =
        ⟨some ⟨dumpReport (dumpedEntries clock ticks bus).length
            ((dumpedEntries clock ticks bus).flatMap Cli.dumpRecord).length path,
          some (path, writeParts faults 0 ((dumpedEntries clock ticks bus).flatMap recordParts))⟩,
          ended, after⟩ := by
  rcases @run_lifetimes site clock ticks bus _ monotone sound id
    (fun _ dumped => (⟨dumpReport dumped.length
      (dumped.map (fun entry => recordSize entry.1)).sum path,
      some (path, writeParts faults 0 (dumped.flatMap recordParts))⟩ : Rendered)) with
    ⟨transient, ran⟩
  have renders : Cli.renderDumpWriting files faults parts = (do
      let pairs ← DataBus.findByPrefix []
      let dumped ← Router.withLifetimes (id pairs)
      return (⟨dumpReport dumped.length (dumped.map (fun entry => recordSize entry.1)).sum path,
        some (path, writeParts faults 0 (dumped.flatMap recordParts))⟩ : Rendered)) := by
    unfold Cli.renderDumpWriting
    rw [given]
    simp only [created]
    rfl
  simp only [recordSize_sum] at ran
  rw [renders]
  simp only [recordSize_sum]
  exact ⟨_, _, ran⟩

private theorem works_of_dumpWriting {rendered : Rendered} {ended : Nat} {after : PermutiveBus}
    (given : Cli.filePath parts = some path)
    (ran : run (bothTiers site) clock (onTiers (Cli.renderDumpWriting files faults parts)) ticks
      bus = ⟨some rendered, ended, after⟩) : bus.persistent.Works := by
  by_contra poisoned
  have stuck := run_findByPrefix_stuck site clock ticks ((Bool.not_eq_false _).mp poisoned) []
  have program : ∃ rest : List (Bytes × Bytes) → Program tiers Rendered,
      onTiers (Cli.renderDumpWriting files faults parts) =
        (PermutiveBus.findByPrefix []).bind rest := by
    unfold Cli.renderDumpWriting
    rw [given]
    exact ⟨_, rfl⟩
  rcases program with ⟨rest, program⟩
  rw [program, run_bind] at ran
  rcases scanned : run (bothTiers site) clock (PermutiveBus.findByPrefix []) ticks bus with
    ⟨result, later, state⟩
  rw [scanned] at stuck ran
  cases stuck
  cases ran

private theorem dumpedEntries_listed :
    ((dumpedEntries clock ticks bus).map Dumped.cut).map Prod.fst =
      bus.listed (clock ticks) [] := by
  rw [List.map_map]
  exact @lifetimesFrom_pairs clock bus (ticks + 2) (bus.listed (clock ticks) [])

private theorem answers_without_writing {rendered : Rendered} {ended : Nat} {after : PermutiveBus}
    (nothing : ∀ path, Cli.filePath parts = some path → ∃ error, files.create path = .error error)
    (ran : run (bothTiers site) clock (onTiers (Cli.renderDumpWriting files faults parts)) ticks
      bus = ⟨some rendered, ended, after⟩) : ¬ ReportsSuccess rendered.text := by
  unfold Cli.renderDumpWriting at ran
  cases given : Cli.filePath parts with
  | none =>
      have letter : asBytes "usage: dump -f <path>\n" = 0x75 :: asBytes "sage: dump -f <path>\n" := by
        decide +kernel
      rw [given] at ran
      have answer : (⟨asBytes "usage: dump -f <path>\n", none⟩ : Rendered) = rendered :=
        Option.some.inj (congrArg Outcome.result ran)
      rw [← answer, letter]
      exact not_reportsSuccess (by decide)
  | some path =>
      rcases nothing path given with ⟨error, refused⟩
      have letter : asBytes "error: cannot create " = 0x65 :: asBytes "rror: cannot create " := by
        decide +kernel
      rw [given] at ran
      simp only [refused] at ran
      change run (bothTiers site) clock ((PermutiveBus.findByPrefix []).bind (fun _ => .done
        (⟨asBytes "error: cannot create " ++ path ++ asBytes ": " ++ error ++ asBytes "\n",
          none⟩ : Rendered))) ticks bus = _ at ran
      rw [run_bind] at ran
      rcases scanned : run (bothTiers site) clock (PermutiveBus.findByPrefix []) ticks bus with
        ⟨result, later, state⟩
      rw [scanned] at ran
      cases result with
      | none => cases ran
      | some pairs =>
          have answer : (⟨asBytes "error: cannot create " ++ path ++ asBytes ": " ++ error ++
              asBytes "\n", none⟩ : Rendered) = rendered :=
            Option.some.inj (congrArg Outcome.result ran)
          rw [← answer, letter]
          exact not_reportsSuccess (by decide)

end Command

/-- A dump answers the truth exactly when no write fails that it makes, and every key and
value it lists fits the length of a record. -/
theorem dump_is_truthful_iff {site : Site} {clock : Nat → Instant} {ticks : Nat}
    {bus : PermutiveBus} (monotone : Monotone clock) (files : Files) (faults : WriteFaults)
    (parts : List Bytes) :
    DumpIsTruthful site clock ticks bus files faults parts ↔
      ∀ path, Cli.filePath parts = some path → files.create path = .ok () →
        bus.persistent.Works →
          ¬ WriteFails faults (bus.listed (clock ticks) []) ∧
          ∀ key value, (key, value) ∈ bus.listed (clock ticks) [] →
            key.length < fieldLimit ∧ value.length < fieldLimit := by
  constructor
  · intro truthful path given created works
    rcases @run_renderDumpWriting site clock ticks bus files faults parts path monotone works given
      created with ⟨ended, after, ran⟩
    rcases truthful _ _ _ ran with ⟨complete, failed⟩
    constructor
    · intro fails
      exact not_reportsError _ _ _ (failed path given created fails)
    · intro key value member
      rcases complete ⟨_, _, path, rfl⟩ with ⟨other, entries, entriesAre, -, -, restores⟩
      have fit := fits_of_restored (restores _ (Nat.le_refl _))
      rw [← dumpedEntries_listed, ← entriesAre] at member
      rcases List.mem_map.mp member with ⟨entry, inEntries, same⟩
      have fits := fit entry inEntries
      rw [show key = entry.1.1 from (congrArg Prod.fst same).symm,
        show value = entry.1.2 from (congrArg Prod.snd same).symm]
      exact ⟨fits.key, fits.value⟩
  · intro condition rendered later after ran
    by_cases writes : ∃ path, Cli.filePath parts = some path ∧ files.create path = .ok ()
    · rcases writes with ⟨path, given, created⟩
      have works := works_of_dumpWriting given ran
      rcases condition path given created works with ⟨whole, fits⟩
      rcases @run_renderDumpWriting site clock ticks bus files faults parts path monotone works
        given created with ⟨ended, last, known⟩
      have answer := Option.some.inj (congrArg Outcome.result (ran.symm.trans known))
      have file : writeParts faults 0 ((dumpedEntries clock ticks bus).flatMap recordParts) =
          ((dumpedEntries clock ticks bus).map Dumped.cut).flatMap Cli.dumpRecord := by
        rw [written_whole, dumped_file]
        have listed := @lifetimesFrom_pairs clock bus (ticks + 2) (bus.listed (clock ticks) [])
        unfold dumpedEntries
        rw [listed]
        exact whole
      rw [file, dumped_file] at answer
      rw [answer]
      constructor
      · intro success
        refine ⟨path, _, rfl, ?_, rfl, ?_⟩
        · rw [List.length_map]
        · intro rounds enough
          have fit := @dumped_fit clock ticks bus fits
          have written := Cli.restoreLoop_written fit []
            ((Cli.length_le_dumped _).trans enough) 0
          rw [Nat.zero_add, Cli.restoreEntries_eq] at written
          exact written
      · intro other givenOther createdOther fails
        exact absurd fails whole
    · have nothing : ∀ path, Cli.filePath parts = some path →
          ∃ error, files.create path = .error error := by
        intro path given
        cases created : files.create path with
        | error error => exact ⟨error, rfl⟩
        | ok done => exact absurd ⟨path, given, created⟩ writes
      constructor
      · intro success
        exact absurd success (answers_without_writing nothing ran)
      · intro path given created
        exact absurd ⟨path, given, created⟩ writes

def oneKeyBus : PermutiveBus :=
  (run (bothTiers openSite) stillClock
    (PermutiveBus.writeValue (asBytes "users:1") (asBytes "a")) 0 emptyBus).state

/-- A key is dumped where the writes succeed. -/
theorem one_key_is_dumped_truly :
    DumpIsTruthful openSite stillClock 0 oneKeyBus (oneFile []) (fun _ => none)
      [asBytes "-f", asBytes "backup"] := by
  apply (dump_is_truthful_iff stillClock_monotone _ _ _).mpr
  intro path given created works
  have listed : oneKeyBus.listed (stillClock 0) [] = [(asBytes "users:1", asBytes "a")] := by
    decide +kernel
  rw [listed]
  constructor
  · rintro ⟨index, size, count, -, fault, -⟩
    cases fault
  · intro key value member
    cases List.mem_singleton.mp member
    exact ⟨by decide +kernel, by decide +kernel⟩

/-- On a full disk the first write already fails, and the answer is success. -/
theorem full_disk_is_reported_as_success :
    ¬ DumpIsTruthful openSite stillClock 0 oneKeyBus (oneFile []) (fun _ => some 0)
      [asBytes "-f", asBytes "backup"] := by
  intro truthful
  rcases @run_renderDumpWriting openSite stillClock 0 oneKeyBus (oneFile []) (fun _ => some 0)
    [asBytes "-f", asBytes "backup"] (asBytes "backup") stillClock_monotone
    (show oneKeyBus.persistent.poisoned = false by decide +kernel) (if_pos rfl) rfl with ⟨ended, after, ran⟩
  have fails : WriteFails (fun _ => some 0) (oneKeyBus.listed (stillClock 0) []) :=
    ⟨0, 4, 0, by decide +kernel, rfl, by decide⟩
  exact not_reportsError _ _ _
    ((truthful _ _ _ ran).2 (asBytes "backup") (if_pos rfl) rfl fails)

end TricPlus
