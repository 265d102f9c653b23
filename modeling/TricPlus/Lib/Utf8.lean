import TricPlus.Lib.ByteLists

/-!
Well-formed UTF-8, byte by byte.

A lead byte says in which ranges the bytes after it must lie.  All these ranges
lie above ASCII, so an ASCII byte stands between characters wherever it occurs
in a well-formed text, and the text may be cut there.
-/

namespace Utf8

abbrev Range := UInt8 × UInt8

def continuation : Range := (0x80, 0xBF)

/-- The ranges of the bytes a lead byte calls for; none when no character starts
with this byte. -/
def following (lead : UInt8) : Option (List Range) :=
  if lead < 0x80 then some []
  else if lead < 0xC2 then none
  else if lead < 0xE0 then some [continuation]
  else if lead = 0xE0 then some [(0xA0, 0xBF), continuation]
  else if lead = 0xED then some [(0x80, 0x9F), continuation]
  else if lead < 0xF0 then some [continuation, continuation]
  else if lead = 0xF0 then some [(0x90, 0xBF), continuation, continuation]
  else if lead < 0xF4 then some [continuation, continuation, continuation]
  else if lead = 0xF4 then some [(0x80, 0x8F), continuation, continuation]
  else none

/-- The bytes complete the character begun, and go on with whole characters. -/
def completes : List Range → List UInt8 → Bool
  | [], [] => true
  | _ :: _, [] => false
  | [], lead :: rest =>
      match following lead with
      | none => false
      | some owed => completes owed rest
  | (low, high) :: owed, byte :: rest =>
      decide (low ≤ byte ∧ byte ≤ high) && completes owed rest

def wellFormed (bytes : List UInt8) : Bool :=
  completes [] bytes

def Character (bytes : List UInt8) : Prop :=
  ∃ lead owed rest, bytes = lead :: rest ∧ following lead = some owed ∧
    List.Forall₂ (fun range byte => range.1 ≤ byte ∧ byte ≤ range.2) owed rest

private theorem following_length {lead : UInt8} {owed : List Range}
    (found : following lead = some owed) :
    owed.length ≤ 3 := by
  unfold following at found
  split_ifs at found <;> cases found <;> decide

theorem Character.length_le {bytes : List UInt8} (character : Character bytes) :
    bytes.length ≤ 4 := by
  rcases character with ⟨lead, owed, rest, rfl, found, follow⟩
  have few := following_length found
  have same := follow.length_eq
  rw [List.length_cons]
  omega

def AboveAscii (owed : List Range) : Prop :=
  ∀ range ∈ owed, 0x80 ≤ range.1

private theorem following_aboveAscii {lead : UInt8} {owed : List Range}
    (found : following lead = some owed) : AboveAscii owed := by
  unfold following at found
  have continuationAbove : (0x80 : UInt8) ≤ continuation.1 := by decide
  intro range member
  split_ifs at found <;> cases found <;>
    simp only [List.mem_cons, List.not_mem_nil, or_false] at member
  all_goals
    rcases member with rfl | rfl | rfl <;> first | exact continuationAbove | decide

private theorem following_ascii {byte : UInt8} (ascii : byte < 0x80) : following byte = some
    [] := by
  unfold following
  rw [if_pos ascii]

private theorem completes_append_ascii {byte : UInt8} (ascii : byte < 0x80) (back : List UInt8)
    (front : List UInt8) {owed : List Range} (above : AboveAscii owed) :
    completes owed (front ++ byte :: back) = (completes owed front && completes [] back) := by
  induction front generalizing owed with
  | nil =>
      cases owed with
      | nil => simp only [List.nil_append, completes, following_ascii ascii, Bool.true_and]
      | cons range owed =>
          have outside : ¬ range.1 ≤ byte := by
            intro within
            exact absurd (UInt8.le_trans (above range (List.mem_cons_self ..)) within)
              (UInt8.not_le.mpr ascii)
          simp only [List.nil_append, completes, outside, false_and, decide_false,
            Bool.false_and]
  | cons head front ih =>
      cases owed with
      | nil =>
          simp only [List.cons_append, completes]
          cases found : following head with
          | none => rfl
          | some owed => exact ih (following_aboveAscii found)
      | cons range owed =>
          have restAbove : AboveAscii owed := fun other member =>
            above other (List.mem_cons_of_mem _ member)
          simp only [List.cons_append, completes, ih restAbove, Bool.and_assoc]

theorem wellFormed_append_ascii {byte : UInt8} (ascii : byte < 0x80)
    (front back : List UInt8) :
    wellFormed (front ++ byte :: back) = (wellFormed front && wellFormed back) :=
  completes_append_ascii ascii back front (fun _ member => absurd member List.not_mem_nil)

theorem wellFormed_nil : wellFormed [] = true := rfl

theorem wellFormed_ascii_append {front : List UInt8} (ascii : ∀ byte ∈ front, byte < 0x80)
    (back : List UInt8) : wellFormed (front ++ back) = wellFormed back := by
  induction front with
  | nil => rfl
  | cons byte front ih =>
      rw [List.forall_mem_cons] at ascii
      have cut := wellFormed_append_ascii ascii.1 [] (front ++ back)
      rw [List.nil_append, wellFormed_nil, Bool.true_and] at cut
      rw [List.cons_append, cut, ih ascii.2]

def replacement : List UInt8 := [0xEF, 0xBF, 0xBD]

/-- A byte where a character may begin: what is read, and the bytes of a character begun
with the ranges of those it still calls for. -/
def begins (byte : UInt8) : List UInt8 × List UInt8 × List Range :=
  match following byte with
  | none => (replacement, [], [])
  | some [] => ([byte], [], [])
  | some owed => ([], [byte], owed)

/-- A byte that does not go on with the character begun is looked at again. -/
def feed (pending : List UInt8) (owed : List Range) (byte : UInt8) :
    List UInt8 × List UInt8 × List Range :=
  match owed with
  | [] => begins byte
  | (low, high) :: owed =>
      if low ≤ byte ∧ byte ≤ high then
        match owed with
        | [] => (pending ++ [byte], [], [])
        | owed => ([], pending ++ [byte], owed)
      else
        let (read, later) := begins byte
        (replacement ++ read, later)

def lossyFrom (pending : List UInt8) (owed : List Range) : List UInt8 → List UInt8
  | [] => if owed = [] then [] else replacement
  | byte :: rest =>
      let (read, pending, owed) := feed pending owed byte
      read ++ lossyFrom pending owed rest

/-- Every longest piece of a character that does not go on as it must is replaced. -/
def lossy (bytes : List UInt8) : List UInt8 :=
  lossyFrom [] [] bytes

private theorem lossyFrom_of_completes (bytes : List UInt8) {pending : List UInt8}
    {owed : List Range}
    (nothingPending : owed = [] → pending = []) (whole : completes owed bytes = true) :
    lossyFrom pending owed bytes = pending ++ bytes := by
  induction bytes generalizing pending owed with
  | nil =>
      cases owed with
      | nil =>
          rw [nothingPending rfl]
          rfl
      | cons range owed => cases whole
  | cons byte rest ih =>
      unfold lossyFrom
      rcases owed with _ | ⟨range, _ | ⟨second, owed⟩⟩
      · rw [nothingPending rfl]
        simp only [completes] at whole
        unfold feed begins
        cases found : following byte with
        | none =>
            rw [found] at whole
            cases whole
        | some owed =>
            rw [found] at whole
            cases owed with
            | nil =>
                simp only
                rw [ih (fun _ => rfl) whole]
                rfl
            | cons range owed =>
                simp only
                rw [ih (fun same => by cases same) whole]
                rfl
      · rw [completes, Bool.and_eq_true, decide_eq_true_eq] at whole
        unfold feed
        simp only [whole.1, and_self, if_true]
        rw [ih (fun _ => rfl) whole.2, List.nil_append, List.append_assoc, List.singleton_append]
      · rw [completes, Bool.and_eq_true, decide_eq_true_eq] at whole
        unfold feed
        simp only [whole.1, and_self, if_true]
        rw [ih (fun same => by cases same) whole.2, List.nil_append, List.append_assoc,
          List.singleton_append]

theorem lossy_of_wellFormed {bytes : List UInt8} (whole : wellFormed bytes = true) :
    lossy bytes = bytes :=
  lossyFrom_of_completes bytes (fun _ => rfl) whole

private theorem toNat_byte {value : Nat} (small : value < 256) :
    (UInt8.ofNat value).toNat = value := by
  rw [UInt8.toNat_ofNat', Nat.mod_eq_of_lt small]

private theorem following_ofNat {value : Nat} (small : value < 256) :
    following (UInt8.ofNat value) =
      if value < 0x80 then some []
      else if value < 0xC2 then none
      else if value < 0xE0 then some [continuation]
      else if value = 0xE0 then some [(0xA0, 0xBF), continuation]
      else if value = 0xED then some [(0x80, 0x9F), continuation]
      else if value < 0xF0 then some [continuation, continuation]
      else if value = 0xF0 then some [(0x90, 0xBF), continuation, continuation]
      else if value < 0xF4 then some [continuation, continuation, continuation]
      else if value = 0xF4 then some [(0x80, 0x8F), continuation, continuation]
      else none := by
  unfold following
  simp only [UInt8.lt_iff_toNat_lt, ← UInt8.toNat_inj, toNat_byte small, UInt8.reduceToNat]

private theorem completes_lead {owed : List Range} {value : Nat} {rest : List UInt8}
    (found : following (UInt8.ofNat value) = some owed) :
    completes [] (UInt8.ofNat value :: rest) = completes owed rest := by
  rw [completes, found]

private theorem completes_owed {low high : UInt8} {owed : List Range} {value : Nat}
    {rest : List UInt8} (lower : low.toNat ≤ value) (upper : value ≤ high.toNat) :
    completes ((low, high) :: owed) (UInt8.ofNat value :: rest) = completes owed rest := by
  have same := toNat_byte (Nat.lt_of_le_of_lt upper high.toNat_lt)
  have within : low ≤ UInt8.ofNat value ∧ UInt8.ofNat value ≤ high := by
    rw [UInt8.le_iff_toNat_le, UInt8.le_iff_toNat_le, same]
    exact ⟨lower, upper⟩
  rw [completes, decide_eq_true within, Bool.true_and]

private theorem completes_continuation {owed : List Range} (value : Nat) (rest : List UInt8) :
    completes (continuation :: owed) (UInt8.ofNat (value % 0x40 + 0x80) :: rest) =
      completes owed rest :=
  completes_owed (Nat.le_add_left 0x80 _) (by
    change value % 0x40 + 0x80 ≤ 0xBF
    omega)

private theorem completes_ranged {lead second : Nat} {range : Range} {owed : List Range}
    {rest : List UInt8} (found : following (UInt8.ofNat lead) = some (range :: owed))
    (least : range.1.toNat ≤ second) (most : second ≤ range.2.toNat) :
    completes [] (UInt8.ofNat lead :: UInt8.ofNat second :: rest) = completes owed rest :=
  (completes_lead found).trans (completes_owed least most)

private theorem completes_three {number : Nat} (lower : 0x800 ≤ number) (upper : number ≤ 0xffff)
    (scalar : number < 0xd800 ∨ 0xdfff < number) (rest : List UInt8) :
    completes [] (UInt8.ofNat (number / 4096 % 0x10 + 0xe0) ::
      UInt8.ofNat (number / 64 % 0x40 + 0x80) :: UInt8.ofNat (number % 0x40 + 0x80) :: rest) =
        completes [] rest := by
  refine Eq.trans ?_ (completes_continuation number rest)
  have lead := following_ofNat (by omega : number / 4096 % 0x10 + 0xe0 < 256)
  rw [if_neg (by omega), if_neg (by omega), if_neg (by omega)] at lead
  by_cases first : number / 4096 % 0x10 + 0xe0 = 0xE0
  · rw [if_pos first] at lead
    refine completes_ranged lead ?_ ?_
    · change 0xA0 ≤ number / 64 % 0x40 + 0x80
      omega
    · change number / 64 % 0x40 + 0x80 ≤ 0xBF
      omega
  · rw [if_neg first] at lead
    by_cases surrogates : number / 4096 % 0x10 + 0xe0 = 0xED
    · rw [if_pos surrogates] at lead
      refine completes_ranged lead ?_ ?_
      · change 0x80 ≤ number / 64 % 0x40 + 0x80
        omega
      · change number / 64 % 0x40 + 0x80 ≤ 0x9F
        omega
    · rw [if_neg surrogates, if_pos (by omega)] at lead
      refine completes_ranged lead ?_ ?_
      · change 0x80 ≤ number / 64 % 0x40 + 0x80
        omega
      · change number / 64 % 0x40 + 0x80 ≤ 0xBF
        omega

private theorem completes_four {number : Nat} (lower : 0x10000 ≤ number)
    (upper : number < 0x110000) (rest : List UInt8) :
    completes [] (UInt8.ofNat (number / 262144 % 0x08 + 0xf0) ::
      UInt8.ofNat (number / 4096 % 0x40 + 0x80) :: UInt8.ofNat (number / 64 % 0x40 + 0x80) ::
      UInt8.ofNat (number % 0x40 + 0x80) :: rest) = completes [] rest := by
  refine Eq.trans ?_
    ((completes_continuation (number / 64) _).trans (completes_continuation number rest))
  have lead := following_ofNat (by omega : number / 262144 % 0x08 + 0xf0 < 256)
  rw [if_neg (by omega), if_neg (by omega), if_neg (by omega), if_neg (by omega),
    if_neg (by omega), if_neg (by omega)] at lead
  by_cases first : number / 262144 % 0x08 + 0xf0 = 0xF0
  · rw [if_pos first] at lead
    refine completes_ranged lead ?_ ?_
    · change 0x90 ≤ number / 4096 % 0x40 + 0x80
      omega
    · change number / 4096 % 0x40 + 0x80 ≤ 0xBF
      omega
  · rw [if_neg first] at lead
    by_cases last : number / 262144 % 0x08 + 0xf0 = 0xF4
    · rw [if_neg (by omega), if_pos last] at lead
      refine completes_ranged lead ?_ ?_
      · change 0x80 ≤ number / 4096 % 0x40 + 0x80
        omega
      · change number / 4096 % 0x40 + 0x80 ≤ 0x8F
        omega
    · rw [if_pos (by omega)] at lead
      refine completes_ranged lead ?_ ?_
      · change 0x80 ≤ number / 4096 % 0x40 + 0x80
        omega
      · change number / 4096 % 0x40 + 0x80 ≤ 0xBF
        omega

private theorem completes_utf8EncodeChar (character : Char) (rest : List UInt8) :
    completes [] (String.utf8EncodeChar character ++ rest) = completes [] rest := by
  have valid := character.valid
  change (character.val.toNat < 0xd800 ∨ _ ∧ character.val.toNat < 0x110000) at valid
  unfold String.utf8EncodeChar
  simp only
  generalize character.val.toNat = number at valid
  split_ifs
  · have lead : following (UInt8.ofNat number) = some [] := by
      rw [following_ofNat (by omega), if_pos (by omega)]
    exact completes_lead lead
  · have lead : following (UInt8.ofNat (number / 64 % 0x20 + 0xc0)) = some [continuation] := by
      rw [following_ofNat (by omega), if_neg (by omega), if_neg (by omega), if_pos (by omega)]
    exact (completes_lead lead).trans (completes_continuation number rest)
  · exact completes_three (by omega) (by omega) (by omega) rest
  · exact completes_four (by omega) (by omega) rest

theorem wellFormed_encoded (text : List Char) :
    wellFormed (text.flatMap String.utf8EncodeChar) = true := by
  induction text with
  | nil => rfl
  | cons character text ih =>
      rw [List.flatMap_cons]
      exact (completes_utf8EncodeChar character _).trans ih

end Utf8
