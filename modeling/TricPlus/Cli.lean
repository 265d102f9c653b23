import TricPlus.Router
import TricPlus.Fields

/-!
The commands of the admin socket that look at single keys and that back the store up:
`inspect`, `dump` and `restore`.  A command gets what follows its verb, split at
whitespace, and answers with a text.
-/

namespace TricPlus

open AtomicProgram
open BigEndian

/-- A pair with its remaining lifetime in milliseconds, zero for none. -/
abbrev Dumped := (Bytes × Bytes) × Nat

inductive ReadError where
  | cannotOpen (error : Bytes)
  | cannotRead

/-- The files as the commands find them.  What is written to a file that could be
created is written completely. -/
structure Files where
  create : Bytes → Except Bytes Unit
  read : Bytes → Except ReadError Bytes

structure Rendered where
  text : Bytes
  written : Option (Bytes × Bytes)

def showNat (number : Nat) : Bytes := asBytes (toString number)

def asSecs (duration : Duration) : Nat := duration / 1000000000

namespace Cli

def ttlInfo (remaining : Option Duration) : Bytes :=
  match remaining with
  | some remaining => showNat (asSecs remaining) ++ asBytes "s"
  | none => asBytes "none (persistent)"

def renderInspect (parts : List Bytes) : BusProgram Bytes :=
  match parts with
  | [] => return asBytes "usage: inspect <key>\n"
  | key :: _ => do
      match ← DataBus.readValue key with
      | some value =>
          let remaining ← DataBus.readTtlRemaining key
          return asBytes "key     " ++ key ++ asBytes "\nsize    " ++ showNat value.length ++
            asBytes "B\nttl     " ++ ttlInfo remaining ++ asBytes "\ntier    transient\n"
      | none => return asBytes "key " ++ key ++ asBytes " not found\n"

/-- The path of a command that takes `-f <path>`. -/
def filePath (parts : List Bytes) : Option Bytes :=
  match parts with
  | flag :: path :: _ => if flag = asBytes "-f" then some path else none
  | _ => none

/-- The five writes for one pair. -/
def dumpRecord (entry : Dumped) : Bytes :=
  toBeBytes 4 entry.1.1.length ++ entry.1.1 ++ toBeBytes 4 entry.1.2.length ++ entry.1.2 ++
    toBeBytes 8 entry.2

def renderDump (files : Files) (parts : List Bytes) : BusProgram Rendered :=
  match filePath parts with
  | none => return ⟨asBytes "usage: dump -f <path>\n", none⟩
  | some path => do
      let pairs ← DataBus.findByPrefix []
      match files.create path with
      | .error error =>
          return ⟨asBytes "error: cannot create " ++ path ++ asBytes ": " ++ error ++
            asBytes "\n", none⟩
      | .ok () =>
          let dumped ← Router.withLifetimes pairs
          let contents := dumped.flatMap dumpRecord
          return ⟨showNat dumped.length ++ asBytes " entries  " ++ showNat contents.length ++
            asBytes "B  written to " ++ path ++ asBytes "\n", some (path, contents)⟩

/-- One turn of the restore loop: the record at an offset and the offset behind it, or
nothing where the loop ends. -/
def nextRecord (data : Bytes) (offset : Nat) : Option (Dumped × Nat) :=
  if data.length < offset + 4 then none
  else
    let keyStart := offset + 4
    let keyEnd := keyStart + fromBeBytes ((data.drop offset).take 4)
    if data.length < keyEnd + 4 then none
    else
      let valueStart := keyEnd + 4
      let valueLen := fromBeBytes ((data.drop keyEnd).take 4)
      let valueEnd := valueStart + valueLen
      if data.length < valueEnd + 8 then none
      else
        let key := (data.drop keyStart).take (keyEnd - keyStart)
        let value := (data.drop valueStart).take valueLen
        let ttlMs := fromBeBytes ((data.drop valueEnd).take 8)
        some (((key, value), ttlMs), valueEnd + 8)

def restoreEntry (entry : Dumped) : BusProgram Unit := do
  DataBus.writeValue entry.1.1 entry.1.2
  if 0 < entry.2 then DataBus.writeTtl entry.1.1 (fromMillis entry.2)
  else pure ()

/-- The restore loop; every round takes at least one byte. -/
def restoreLoop (data : Bytes) : Nat → Nat → Nat → BusProgram Nat
  | 0, _, count => return count
  | rounds + 1, offset, count =>
      match nextRecord data offset with
      | none => return count
      | some (entry, next) => do
          restoreEntry entry
          restoreLoop data rounds next (count + 1)

def renderRestore (files : Files) (parts : List Bytes) : BusProgram Bytes :=
  match filePath parts with
  | none => return asBytes "usage: restore -f <path>\n"
  | some path =>
      match files.read path with
      | .error (.cannotOpen error) =>
          return asBytes "error: cannot open " ++ path ++ asBytes ": " ++ error ++ asBytes "\n"
      | .error .cannotRead => return asBytes "error: cannot read " ++ path ++ asBytes "\n"
      | .ok data => do
          let count ← restoreLoop data data.length 0 0
          return showNat count ++ asBytes " entries restored from " ++ path ++ asBytes "\n"

theorem dumpRecord_eq (entry : Dumped) :
    dumpRecord entry = pairEntry entry.1 ++ toBeBytes 8 entry.2 := by
  unfold dumpRecord pairEntry lengthPrefixed
  rw [List.append_assoc (toBeBytes 4 entry.1.1.length ++ entry.1.1)]

/-- Key and value fit their lengths, and the milliseconds their field. -/
structure RecordFits (entry : Dumped) : Prop where
  key : entry.1.1.length < fieldLimit
  value : entry.1.2.length < fieldLimit
  millis : entry.2 < 2 ^ 64

theorem nextRecord_eq (data : Bytes) (offset : Nat) :
    nextRecord data offset = (do
      let (key, offset) ← readFieldWithOffset data offset
      let (value, offset) ← readFieldWithOffset data offset
      let ttlMs ← readMillis data offset
      some (((key, value), ttlMs), offset + 8)) := by
  unfold nextRecord readFieldWithOffset readMillis
  by_cases noLength : data.length < offset + 4
  · rw [if_pos noLength, if_pos noLength]
    rfl
  · rw [if_neg noLength, if_neg noLength]
    simp only [Nat.add_sub_cancel_left]
    by_cases noKey : data.length < offset + 4 + fromBeBytes ((data.drop offset).take 4)
    · rw [if_pos (by omega), if_pos noKey]
      rfl
    · rw [if_neg noKey]
      simp only [Option.bind_eq_bind, Option.bind_some]
      by_cases noNumber :
          data.length < offset + 4 + fromBeBytes ((data.drop offset).take 4) + 4
      · rw [if_pos noNumber, if_pos noNumber]
        rfl
      · rw [if_neg noNumber, if_neg noNumber]
        split
        · split
          · rfl
          · rw [Option.bind_some, if_pos (by omega)]
            rfl
        · rename_i room
          rw [if_neg (by omega), Option.bind_some, if_neg room]
          rfl

theorem nextRecord_written (front rest : Bytes) {entry : Dumped} (fits : RecordFits entry) :
    nextRecord (front ++ (dumpRecord entry ++ rest)) front.length =
      some (entry, (front ++ dumpRecord entry).length) := by
  have data : front ++ (dumpRecord entry ++ rest) =
      front ++ (lengthPrefixed entry.1.1 ++
        (lengthPrefixed entry.1.2 ++ (toBeBytes 8 entry.2 ++ rest))) := by
    rw [dumpRecord_eq]
    unfold pairEntry
    simp only [List.append_assoc]
  rw [nextRecord_eq, data, readFieldWithOffset_lengthPrefixed front _ fits.key]
  simp only [Option.bind_eq_bind, Option.bind_some]
  rw [← List.append_assoc front, readFieldWithOffset_lengthPrefixed _ _ fits.value, Option.bind_some,
    ← List.append_assoc (front ++ lengthPrefixed entry.1.1), readMillis_written _ _ fits.millis,
    Option.bind_some]
  have behind : (front ++ lengthPrefixed entry.1.1 ++ lengthPrefixed entry.1.2).length + 8 =
      (front ++ dumpRecord entry).length := by
    rw [dumpRecord_eq]
    unfold pairEntry
    simp only [List.length_append, length_toBeBytes, Nat.add_assoc]
  rw [behind]

theorem readFieldWithOffset_fits {payload field : Bytes} {offset fieldEnd : Nat}
    (found : readFieldWithOffset payload offset = some (field, fieldEnd)) :
    field.length < fieldLimit := by
  rcases readFieldWithOffset_eq_some.mp found with ⟨-, -, bytes⟩
  have number := fromBeBytes_lt ((payload.drop offset).take 4)
  have short : ((payload.drop offset).take 4).length ≤ 4 := List.length_take_le ..
  have bound : 256 ^ ((payload.drop offset).take 4).length ≤ fieldLimit :=
    (Nat.pow_le_pow_right (by omega) short).trans (by decide)
  have cut : field.length ≤ fromBeBytes ((payload.drop offset).take 4) := by
    rw [← bytes]
    exact List.length_take_le ..
  omega

private theorem readMillis_fits {payload : Bytes} {offset millis : Nat}
    (found : readMillis payload offset = some millis) : millis < 2 ^ 64 := by
  rcases readMillis_eq_some.mp found with ⟨-, bytes⟩
  have number := fromBeBytes_lt ((payload.drop offset).take 8)
  have short : ((payload.drop offset).take 8).length ≤ 8 := List.length_take_le ..
  have bound : 256 ^ ((payload.drop offset).take 8).length ≤ 2 ^ 64 :=
    (Nat.pow_le_pow_right (by omega) short).trans (by decide)
  omega

theorem nextRecord_fits {data : Bytes} {offset next : Nat} {entry : Dumped}
    (found : nextRecord data offset = some (entry, next)) : RecordFits entry := by
  rw [nextRecord_eq] at found
  simp only [Option.bind_eq_bind, Option.bind_eq_some_iff] at found
  rcases found with ⟨⟨key, keyEnd⟩, readKey, ⟨value, valueEnd⟩, readValue, ttlMs, readTtl, same⟩
  cases same
  exact ⟨readFieldWithOffset_fits readKey, readFieldWithOffset_fits readValue,
    readMillis_fits readTtl⟩

def restoreEntries : List Dumped → BusProgram Unit
  | [] => return ()
  | entry :: entries => do
      restoreEntry entry
      restoreEntries entries

theorem restoreLoop_eq (data : Bytes) (rounds offset count : Nat) :
    ∃ entries, (∀ entry ∈ entries, RecordFits entry) ∧
      restoreLoop data rounds offset count =
        (restoreEntries entries).bind (fun _ => .done (count + entries.length)) := by
  induction rounds generalizing offset count with
  | zero => exact ⟨[], fun _ member => (List.not_mem_nil member).elim, rfl⟩
  | succ rounds ih =>
      unfold restoreLoop
      cases found : nextRecord data offset with
      | none => exact ⟨[], fun _ member => (List.not_mem_nil member).elim, rfl⟩
      | some read =>
          rcases read with ⟨entry, next⟩
          rcases ih next (count + 1) with ⟨entries, fit, rest⟩
          refine ⟨entry :: entries, ?_, ?_⟩
          · intro other member
            rcases List.mem_cons.mp member with same | later
            · rw [same]
              exact nextRecord_fits found
            · exact fit other later
          · simp only [rest, List.length_cons, Nat.add_comm entries.length, ← Nat.add_assoc]
            exact (Program.bind_assoc (restoreEntry entry) _ _).symm

private theorem length_dumpRecord (entry : Dumped) : 16 ≤ (dumpRecord entry).length := by
  rw [dumpRecord_eq]
  unfold pairEntry
  simp only [List.length_append, length_toBeBytes, length_lengthPrefixed]
  omega

theorem restoreLoop_written {entries : List Dumped} (fit : ∀ entry ∈ entries, RecordFits entry)
    (front : Bytes) {rounds : Nat} (enough : entries.length ≤ rounds) (count : Nat) :
    restoreLoop (front ++ entries.flatMap dumpRecord) rounds front.length count =
      (restoreEntries entries).bind (fun _ => .done (count + entries.length)) := by
  induction entries generalizing front rounds count with
  | nil =>
      have ended : nextRecord (front ++ [].flatMap dumpRecord) front.length = none := by
        unfold nextRecord
        rw [List.flatMap_nil, List.append_nil, if_pos (by omega)]
      cases rounds with
      | zero => rfl
      | succ rounds =>
          unfold restoreLoop
          rw [ended]
          rfl
  | cons entry entries ih =>
      rw [List.length_cons] at enough
      cases rounds with
      | zero => omega
      | succ rounds =>
          have here := fit entry (List.mem_cons_self ..)
          have later := ih (fun other member => fit other (List.mem_cons_of_mem _ member))
            (front ++ dumpRecord entry) (Nat.le_of_succ_le_succ enough) (count + 1)
          unfold restoreLoop
          rw [List.flatMap_cons, nextRecord_written front _ here]
          rw [List.append_assoc] at later
          simp only [later, List.length_cons, Nat.add_comm entries.length, ← Nat.add_assoc]
          exact (Program.bind_assoc (restoreEntry entry) _ _).symm

theorem length_le_dumped (entries : List Dumped) :
    entries.length ≤ (entries.flatMap dumpRecord).length := by
  induction entries with
  | nil => exact Nat.le_refl 0
  | cons entry entries ih =>
      have long := length_dumpRecord entry
      rw [List.flatMap_cons, List.length_append, List.length_cons]
      omega

theorem restoreLoop_file {entries : List Dumped} (fit : ∀ entry ∈ entries, RecordFits entry) :
    restoreLoop (entries.flatMap dumpRecord) (entries.flatMap dumpRecord).length 0 0 =
      (restoreEntries entries).bind (fun _ => .done entries.length) := by
  have written := restoreLoop_written fit [] (length_le_dumped entries) 0
  rw [Nat.zero_add] at written
  exact written

end Cli

end TricPlus
