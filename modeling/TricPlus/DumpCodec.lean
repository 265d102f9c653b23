import TricPlus.CallLists
import TricPlus.RequestGrammar

/-!
The format of the dump files.

A file is one record after the other.  The restore loop reads it by indexing, at offsets
that come out of the file itself; it restores the records that are there as a whole, and
ends without a read out of bounds whatever the file holds.
-/

namespace TricPlus

open AtomicProgram
open BigEndian

/-- The calls that restore a record. -/
def restoreCalls (entry : Dumped) : List DataBusCall :=
  .writeValue entry.1.1 entry.1.2 ::
    (if 0 < entry.2 then [.writeTtl entry.1.1 (fromMillis entry.2)] else [])

namespace Sliced

def nextRecord (data : Bytes) (offset : Nat) : Sliced (Option (Dumped × Nat)) := do
  if data.length < (← add offset 4) then return none
  else
    let keyLen := fromBeBytes (← bytesAt data offset 4)
    let keyStart ← add offset 4
    let keyEnd ← add keyStart keyLen
    if data.length < (← add keyEnd 4) then return none
    else
      let key ← slice data keyStart keyEnd
      let valueLen := fromBeBytes (← bytesAt data keyEnd 4)
      let valueStart ← add keyEnd 4
      let valueEnd ← add valueStart valueLen
      if data.length < (← add valueEnd 8) then return none
      else
        let value ← slice data valueStart valueEnd
        let ttlMs := fromBeBytes (← bytesAt data valueEnd 8)
        return some (((key, value), ttlMs), ← add valueEnd 8)

/-- The restore loop; nothing where its rounds run out. -/
def restoreLoop (data : Bytes) : Nat → Nat → Nat → BusProgram (Option Nat)
  | 0, _, _ => return none
  | rounds + 1, offset, count =>
      match nextRecord data offset with
      | .error _ => .panic
      | .ok none => return some count
      | .ok (some (entry, next)) => do
          Cli.restoreEntry entry
          restoreLoop data rounds next (count + 1)

private theorem nextRecord_ok {data : Bytes} (fits : data.length < sliceLimit) {offset : Nat}
    (inside : offset ≤ data.length) :
    nextRecord data offset = .ok (Cli.nextRecord data offset) := by
  have limit : data.length < 2 ^ 63 := fits
  unfold nextRecord Cli.nextRecord
  rw [add_ok (by omega)]
  simp only [bind, Except.bind, pure, Except.pure]
  by_cases noLength : data.length < offset + 4
  · rw [if_pos noLength, if_pos noLength]
  rw [if_neg noLength, if_neg noLength, bytesAt_ok fits 4 (by omega)]
  have keyBounded := fromBeBytes_lt ((data.drop offset).take 4)
  rw [List.length_take, List.length_drop, Nat.min_eq_left (by omega)] at keyBounded
  simp only
  rw [add_ok (by omega)]
  simp only
  rw [add_ok (by omega)]
  simp only
  by_cases noKey : data.length < offset + 4 + fromBeBytes ((data.drop offset).take 4) + 4
  · rw [if_pos noKey, if_pos noKey]
  rw [if_neg noKey, if_neg noKey, slice_ok (by omega) (by omega)]
  simp only
  rw [bytesAt_ok fits 4 (by omega)]
  generalize offset + 4 + fromBeBytes ((data.drop offset).take 4) = keyEnd at noKey ⊢
  have valueBounded := fromBeBytes_lt ((data.drop keyEnd).take 4)
  rw [List.length_take, List.length_drop, Nat.min_eq_left (by omega)] at valueBounded
  simp only
  rw [add_ok (by omega)]
  simp only
  rw [add_ok (by omega)]
  simp only
  by_cases noValue : data.length < keyEnd + 4 + fromBeBytes ((data.drop keyEnd).take 4) + 8
  · rw [if_pos noValue, if_pos noValue]
  rw [if_neg noValue, if_neg noValue, slice_ok (by omega) (by omega)]
  simp only
  rw [bytesAt_ok fits 8 (by omega)]
  simp only [Nat.add_sub_cancel_left]

end Sliced

namespace Cli

private theorem nextRecord_iff {front tail : Bytes} {entry : Dumped} {next : Nat} :
    nextRecord (front ++ tail) front.length = some (entry, next) ↔
      RecordFits entry ∧ next = (front ++ dumpRecord entry).length ∧
        ∃ rest, tail = dumpRecord entry ++ rest := by
  constructor
  · intro found
    have fits := nextRecord_fits found
    rw [nextRecord_eq] at found
    simp only [Option.bind_eq_bind, Option.bind_eq_some_iff] at found
    rcases found with ⟨⟨key, keyEnd⟩, readKey, ⟨value, valueEnd⟩, readValue, ttlMs, readTtl, same⟩
    cases same
    rcases readFieldWithOffset_iff.mp readKey with ⟨-, rfl, behindKey, rfl⟩
    rw [← List.append_assoc] at readValue readTtl
    rcases readFieldWithOffset_iff.mp readValue with ⟨-, rfl, behindValue, rfl⟩
    rw [← List.append_assoc] at readTtl
    rcases readMillis_iff.mp readTtl with ⟨-, rest, rfl⟩
    refine ⟨fits, ?_, rest, ?_⟩
    · unfold dumpRecord lengthPrefixed
      simp only [List.length_append, length_toBeBytes]
      omega
    · unfold dumpRecord lengthPrefixed
      simp only [List.append_assoc]
  · intro parts
    rcases parts with ⟨fits, rfl, rest, rfl⟩
    exact nextRecord_written front rest fits

private theorem nextRecord_cut (front : Bytes) {entry : Dumped} (fits : RecordFits entry)
    {count : Nat}
    (short : count < (dumpRecord entry).length) :
    nextRecord (front ++ (dumpRecord entry).take count) front.length = none := by
  cases found : nextRecord (front ++ (dumpRecord entry).take count) front.length with
  | none => rfl
  | some read =>
      rcases read with ⟨other, next⟩
      rcases nextRecord_iff.mp found with ⟨otherFits, -, rest, cut⟩
      have whole : dumpRecord entry =
          dumpRecord other ++ (rest ++ (dumpRecord entry).drop count) := by
        have parts := (List.take_append_drop count (dumpRecord entry)).symm
        rw [cut, List.append_assoc] at parts
        exact parts
      have first := (@nextRecord_iff front _ other _).mpr ⟨otherFits, rfl, _, whole⟩
      have second := @nextRecord_written front [] entry fits
      rw [List.append_nil, first] at second
      have same : other = entry := congrArg Prod.fst (Option.some.inj second)
      have long := congrArg List.length cut
      rw [same, List.length_take, List.length_append] at long
      omega

private theorem nextRecord_bounds {data : Bytes} {offset next : Nat} {entry : Dumped}
    (found : nextRecord data offset = some (entry, next)) :
    offset + 16 ≤ next ∧ next ≤ data.length := by
  unfold nextRecord at found
  split at found
  · cases found
  · simp only at found
    split at found
    · cases found
    · split at found
      · cases found
      · rename_i room
        cases found
        omega

private theorem restoreEntry_eq (entry : Dumped) : restoreEntry entry = performAll
    (restoreCalls entry) := by
  unfold restoreEntry restoreCalls
  split <;> rfl

theorem restoreEntries_eq (entries : List Dumped) :
    restoreEntries entries = performAll (entries.flatMap restoreCalls) := by
  induction entries with
  | nil => rfl
  | cons entry entries ih =>
      rw [List.flatMap_cons, performAll_append, ← restoreEntry_eq, ← ih]
      rfl

private theorem restoreLoop_cut {entries : List Dumped} (fit : ∀ entry ∈ entries, RecordFits entry)
    (size : Nat) :
    ∃ whole, whole ≤ entries.length ∧
      ((entries.take whole).flatMap dumpRecord).length ≤ size ∧
      (whole < entries.length → size < ((entries.take (whole + 1)).flatMap dumpRecord).length) ∧
      ∀ (front : Bytes) (rounds count : Nat), whole ≤ rounds →
        restoreLoop (front ++ (entries.flatMap dumpRecord).take size) rounds front.length count =
          (restoreEntries (entries.take whole)).bind (fun _ => .done (count + whole)) := by
  induction entries generalizing size with
  | nil =>
      refine ⟨0, Nat.le_refl 0, Nat.zero_le size, fun early => absurd early (Nat.lt_irrefl 0), ?_⟩
      intro front rounds count enough
      have written := @restoreLoop_written [] fit front rounds enough count
      rw [List.flatMap_nil] at written
      rw [List.flatMap_nil, List.take_nil]
      exact written
  | cons entry entries ih =>
      rw [List.forall_mem_cons] at fit
      rcases Nat.lt_or_ge size (dumpRecord entry).length with cut | room
      · refine ⟨0, Nat.zero_le _, Nat.zero_le size, ?_, ?_⟩
        · intro some_entry
          rw [Nat.zero_add, List.take_succ_cons, List.take_zero, List.flatMap_cons,
            List.flatMap_nil, List.append_nil]
          exact cut
        · intro front rounds count enough
          rw [List.flatMap_cons, List.take_append_of_le_length (Nat.le_of_lt cut)]
          cases rounds with
          | zero => rfl
          | succ rounds =>
              unfold restoreLoop
              rw [nextRecord_cut front fit.1 cut]
              rfl
      · rcases ih fit.2 (size - (dumpRecord entry).length) with
          ⟨whole, few, inside, next, loop⟩
        refine ⟨whole + 1, Nat.succ_le_succ few, ?_, ?_, ?_⟩
        · rw [List.take_succ_cons, List.flatMap_cons, List.length_append]
          omega
        · intro some_entry
          rw [List.length_cons] at some_entry
          have behind := next (Nat.lt_of_succ_lt_succ some_entry)
          rw [List.take_succ_cons, List.flatMap_cons, List.length_append]
          omega
        · intro front rounds count enough
          have bytes : ((entry :: entries).flatMap dumpRecord).take size = dumpRecord entry ++
              (entries.flatMap dumpRecord).take (size - (dumpRecord entry).length) := by
            rw [List.flatMap_cons, List.take_append, List.take_of_length_le room]
          cases rounds with
          | zero => omega
          | succ rounds =>
              have later := loop (front ++ dumpRecord entry) rounds (count + 1)
                (Nat.le_of_succ_le_succ enough)
              rw [List.append_assoc] at later
              unfold restoreLoop
              rw [bytes, nextRecord_written front _ fit.1, List.take_succ_cons]
              simp only [later, Nat.add_assoc, Nat.add_comm 1]
              exact (Program.bind_assoc (restoreEntry entry) _ _).symm

end Cli

namespace Sliced

private theorem restoreLoop_ok {data : Bytes} (fits : data.length < sliceLimit)
    {rounds offset : Nat}
    (inside : offset ≤ data.length) (enough : data.length ≤ offset + rounds) (count : Nat) :
    restoreLoop data (rounds + 1) offset count =
      (Cli.restoreLoop data rounds offset count).bind (fun count => .done (some count)) := by
  induction rounds generalizing offset count with
  | zero =>
      have ended : Cli.nextRecord data offset = none := by
        unfold Cli.nextRecord
        rw [if_pos (by omega)]
      unfold restoreLoop
      rw [nextRecord_ok fits inside, ended]
      rfl
  | succ rounds ih =>
      unfold restoreLoop Cli.restoreLoop
      rw [nextRecord_ok fits inside]
      cases found : Cli.nextRecord data offset with
      | none => rfl
      | some read =>
          rcases read with ⟨entry, next⟩
          have bounds := Cli.nextRecord_bounds found
          simp only [ih bounds.2 (by omega)]
          exact (Program.bind_assoc (Cli.restoreEntry entry) _ _).symm

end Sliced

/-- What the dump writes, the restore loop reads back, call by call; of a file that was cut
it restores the records that are there as a whole; and on any file it ends, without a read
out of bounds. -/
theorem dump_codec_is_exact (entries : List Dumped)
    (fit : ∀ entry ∈ entries, Cli.RecordFits entry) :
    (∀ rounds, (entries.flatMap Cli.dumpRecord).length ≤ rounds →
      Cli.restoreLoop (entries.flatMap Cli.dumpRecord) rounds 0 0 =
        (performAll (entries.flatMap restoreCalls)).bind (fun _ => .done entries.length)) ∧
    (∀ size, ∃ whole, whole ≤ entries.length ∧
      ((entries.take whole).flatMap Cli.dumpRecord).length ≤ size ∧
      (whole < entries.length →
        size < ((entries.take (whole + 1)).flatMap Cli.dumpRecord).length) ∧
      ∀ rounds, ((entries.flatMap Cli.dumpRecord).take size).length ≤ rounds →
        Cli.restoreLoop ((entries.flatMap Cli.dumpRecord).take size) rounds 0 0 =
          (performAll ((entries.take whole).flatMap restoreCalls)).bind
            (fun _ => .done whole)) ∧
    ∀ data : Bytes, data.length < Sliced.sliceLimit → ∃ restored : List Dumped,
      Cli.restoreLoop data data.length 0 0 =
        (performAll (restored.flatMap restoreCalls)).bind (fun _ => .done restored.length) ∧
      Sliced.restoreLoop data (data.length + 1) 0 0 =
        (performAll (restored.flatMap restoreCalls)).bind
          (fun _ => .done (some restored.length)) := by
  refine ⟨?_, ?_, ?_⟩
  · intro rounds enough
    have written := Cli.restoreLoop_written fit [] ((Cli.length_le_dumped entries).trans enough) 0
    rw [Nat.zero_add, Cli.restoreEntries_eq] at written
    exact written
  · intro size
    rcases Cli.restoreLoop_cut fit size with ⟨whole, few, inside, next, loop⟩
    refine ⟨whole, few, inside, next, ?_⟩
    intro rounds enough
    have many := Cli.length_le_dumped (entries.take whole)
    rw [List.length_take, Nat.min_eq_left few] at many
    have split := congrArg (fun items => (items.flatMap Cli.dumpRecord).length)
      (List.take_append_drop whole entries)
    simp only [List.flatMap_append, List.length_append] at split
    rw [List.length_take] at enough
    have read := loop [] rounds 0 (by omega)
    rw [Nat.zero_add, Cli.restoreEntries_eq] at read
    exact read
  · intro data fits
    rcases Cli.restoreLoop_eq data data.length 0 0 with ⟨restored, -, loop⟩
    rw [Nat.zero_add, Cli.restoreEntries_eq] at loop
    refine ⟨restored, loop, ?_⟩
    rw [Sliced.restoreLoop_ok fits (Nat.zero_le _) (by omega), loop, Program.bind_assoc]
    rfl

/-- A record with a lifetime and one without, and the same file without its last byte. -/
theorem two_records_are_read_back :
    (∀ rounds, ([(([0x6B], [0x61]), 5), (([], [0x62]), 0)].flatMap Cli.dumpRecord).length ≤
        rounds → Cli.restoreLoop ([(([0x6B], [0x61]), 5), (([], [0x62]), 0)].flatMap
          Cli.dumpRecord) rounds 0 0 =
        (performAll [.writeValue [0x6B] [0x61], .writeTtl [0x6B] 5000000,
          .writeValue [] [0x62]]).bind (fun _ => .done 2)) ∧
      ∃ restored : List Dumped, Sliced.restoreLoop [0, 0] 3 0 0 =
        (performAll (restored.flatMap restoreCalls)).bind
          (fun _ => .done (some restored.length)) := by
  have exactly := dump_codec_is_exact [(([0x6B], [0x61]), 5), (([], [0x62]), 0)] (by
    intro entry member
    rcases List.mem_cons.mp member with rfl | later
    · exact ⟨by decide, by decide, by decide⟩
    · rw [List.mem_singleton.mp later]
      exact ⟨by decide, by decide, by decide⟩)
  refine ⟨exactly.1, ?_⟩
  rcases exactly.2.2 [0, 0] (by decide) with ⟨restored, -, loop⟩
  exact ⟨restored, loop⟩

end TricPlus
