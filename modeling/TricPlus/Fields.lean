import TricPlus.Codec

/-!
Fields of a payload: a field is read the same way whatever follows it, and what was
written is what is read.
-/

namespace TricPlus

open BigEndian

structure AgreeTo (length : Nat) (left right : Bytes) : Prop where
  leftLong : length ≤ left.length
  rightLong : length ≤ right.length
  same : left.take length = right.take length

namespace AgreeTo

variable {length : Nat} {left right : Bytes}

theorem slice (agree : AgreeTo length left right) (offset width : Nat)
    (inside : offset + width ≤ length) :
    (left.drop offset).take width = (right.drop offset).take width := by
  have cut : ∀ bytes : Bytes, (bytes.drop offset).take width =
      ((bytes.take length).take (offset + width)).drop offset := by
    intro bytes
    rw [List.take_take, Nat.min_eq_left inside, List.drop_take, Nat.add_sub_cancel_left]
  rw [cut left, cut right, agree.same]

theorem shorter (agree : AgreeTo length left right) {less : Nat} (below : less ≤ length) :
    AgreeTo less left right where
  leftLong := below.trans agree.leftLong
  rightLong := below.trans agree.rightLong
  same := by
    have cut : ∀ bytes : Bytes, bytes.take less = (bytes.take length).take less := by
      intro bytes
      rw [List.take_take, Nat.min_eq_left below]
    rw [cut left, cut right, agree.same]

theorem padded (payload noise : Bytes) {length : Nat} (inside : length ≤ payload.length) :
    AgreeTo length payload (payload ++ noise) where
  leftLong := inside
  rightLong := by
    rw [List.length_append]
    omega
  same := (List.take_append_of_le_length inside).symm

theorem stripped (payload : Bytes) {length : Nat} (inside : length ≤ payload.length) :
    AgreeTo length payload (payload.take length) where
  leftLong := inside
  rightLong := by
    rw [List.length_take]
    omega
  same := by rw [List.take_take, Nat.min_self]

end AgreeTo

theorem readFieldWithOffset_eq_some {payload field : Bytes} {offset fieldEnd : Nat} :
    readFieldWithOffset payload offset = some (field, fieldEnd) ↔
      fieldEnd = offset + 4 + fromBeBytes ((payload.drop offset).take 4) ∧
      fieldEnd ≤ payload.length ∧
      (payload.drop (offset + 4)).take (fromBeBytes ((payload.drop offset).take 4)) = field := by
  unfold readFieldWithOffset
  by_cases short : payload.length < offset + 4
  · rw [if_pos short]
    constructor
    · intro found
      cases found
    · intro parts
      omega
  · rw [if_neg short]
    simp only
    by_cases cut : payload.length < offset + 4 + fromBeBytes ((payload.drop offset).take 4)
    · rw [if_pos cut]
      constructor
      · intro found
        cases found
      · intro parts
        omega
    · rw [if_neg cut]
      constructor
      · intro found
        cases found
        exact ⟨rfl, by omega, rfl⟩
      · intro parts
        rcases parts with ⟨atEnd, -, bytes⟩
        rw [atEnd, bytes]

theorem readFieldWithOffset_agree {left right field : Bytes} {offset fieldEnd : Nat}
    (found : readFieldWithOffset left offset = some (field, fieldEnd))
    (agree : AgreeTo fieldEnd left right) :
    readFieldWithOffset right offset = some (field, fieldEnd) := by
  rcases readFieldWithOffset_eq_some.mp found with ⟨atEnd, -, bytes⟩
  have length : (left.drop offset).take 4 = (right.drop offset).take 4 := agree.slice _ _ (by omega)
  rw [length] at atEnd bytes
  rw [agree.slice _ _ (by omega)] at bytes
  exact readFieldWithOffset_eq_some.mpr ⟨atEnd, agree.rightLong, bytes⟩

theorem readMillis_eq_some {payload : Bytes} {offset millis : Nat} :
    readMillis payload offset = some millis ↔
      offset + 8 ≤ payload.length ∧ fromBeBytes ((payload.drop offset).take 8) = millis := by
  unfold readMillis
  by_cases short : payload.length < offset + 8
  · rw [if_pos short]
    constructor
    · intro found
      cases found
    · intro parts
      omega
  · rw [if_neg short]
    constructor
    · intro found
      cases found
      exact ⟨by omega, rfl⟩
    · intro parts
      rw [parts.2]

theorem readMillis_agree {left right : Bytes} {offset millis : Nat}
    (found : readMillis left offset = some millis) (agree : AgreeTo (offset + 8) left right) :
    readMillis right offset = some millis := by
  rcases readMillis_eq_some.mp found with ⟨-, bytes⟩
  rw [agree.slice _ _ (Nat.le_refl _)] at bytes
  exact readMillis_eq_some.mpr ⟨agree.rightLong, bytes⟩

theorem readField_eq_some {payload field : Bytes} {offset : Nat} :
    readField payload offset = some field ↔
      ∃ fieldEnd, readFieldWithOffset payload offset = some (field, fieldEnd) := by
  unfold readField
  rw [Option.map_eq_some_iff]
  constructor
  · intro found
    rcases found with ⟨⟨bytes, fieldEnd⟩, read, same⟩
    cases same
    exact ⟨fieldEnd, read⟩
  · intro found
    rcases found with ⟨fieldEnd, read⟩
    exact ⟨(field, fieldEnd), read, rfl⟩

theorem length_lengthPrefixed (field : Bytes) :
    (lengthPrefixed field).length = 4 + field.length := by
  unfold lengthPrefixed
  rw [List.length_append, length_toBeBytes]

/-- Lengths are written in 32 bits. -/
def fieldLimit : Nat := 2 ^ 32

private theorem readFieldWithOffset_written (front field rest : Bytes) :
    readFieldWithOffset (front ++ (lengthPrefixed field ++ rest)) front.length =
      some ((field ++ rest).take (field.length % fieldLimit),
        front.length + 4 + field.length % fieldLimit) := by
  have number : ((front ++ (lengthPrefixed field ++ rest)).drop front.length).take 4 =
      toBeBytes 4 field.length := by
    rw [List.drop_left]
    unfold lengthPrefixed
    rw [List.append_assoc]
    exact List.take_left' (length_toBeBytes 4 field.length)
  have value : fromBeBytes (toBeBytes 4 field.length) = field.length % fieldLimit :=
    fromBeBytes_toBeBytes 4 field.length
  have behind : (front ++ (lengthPrefixed field ++ rest)).drop (front.length + 4) =
      field ++ rest := by
    unfold lengthPrefixed
    rw [List.append_assoc, ← List.append_assoc]
    apply List.drop_left'
    rw [List.length_append, length_toBeBytes]
  have cut : field.length % fieldLimit ≤ field.length := Nat.mod_le ..
  rw [readFieldWithOffset_eq_some, number, value, behind]
  refine ⟨rfl, ?_, rfl⟩
  rw [List.length_append, List.length_append, length_lengthPrefixed]
  omega

theorem readFieldWithOffset_lengthPrefixed (front rest : Bytes) {field : Bytes}
    (fits : field.length < fieldLimit) :
    readFieldWithOffset (front ++ (lengthPrefixed field ++ rest)) front.length =
      some (field, (front ++ lengthPrefixed field).length) := by
  rw [readFieldWithOffset_written, Nat.mod_eq_of_lt fits, List.take_left, List.length_append,
    length_lengthPrefixed, Nat.add_assoc]

theorem readMillis_written (front rest : Bytes) {millis : Nat} (fits : millis < 2 ^ 64) :
    readMillis (front ++ (toBeBytes 8 millis ++ rest)) front.length = some millis := by
  rw [readMillis_eq_some]
  constructor
  · rw [List.length_append, List.length_append, length_toBeBytes]
    omega
  · rw [List.drop_left, List.take_left' (length_toBeBytes 8 millis)]
    exact fromBeBytes_toBeBytes_of_lt fits

end TricPlus
