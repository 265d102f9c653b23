import Mathlib

/-!
Byte arrays as lists of bytes, and the bytes of a string.
-/

namespace ByteLists

instance lawfulBEq_bytes : LawfulBEq (List UInt8) := inferInstance

private theorem toList_loop (bytes : ByteArray) (index : Nat) (read : List UInt8) :
    ByteArray.toList.loop bytes index read = read.reverse ++ bytes.data.toList.drop index := by
  fun_induction ByteArray.toList.loop bytes index read with
  | case1 index read inside ih =>
      have here : index < bytes.data.toList.length := inside
      have byte : bytes.get! index = bytes.data.toList[index] := by
        change bytes.data[index]! = _
        rw [getElem!_pos bytes.data index inside, Array.getElem_toList]
      rw [ih, byte, List.reverse_cons, List.append_assoc, List.singleton_append,
        List.getElem_cons_drop]
  | case2 index read behind =>
      have past : bytes.data.toList.length ≤ index := Nat.not_lt.mp behind
      rw [List.drop_eq_nil_of_le past, List.append_nil]

private theorem toList_eq (bytes : ByteArray) : bytes.toList = bytes.data.toList := by
  unfold ByteArray.toList
  rw [toList_loop, List.reverse_nil, List.nil_append, List.drop_zero]

theorem toList_toByteArray (bytes : List UInt8) : bytes.toByteArray.toList = bytes := by
  rw [toList_eq, List.data_toByteArray]

theorem toList_injective {left right : ByteArray} (same : left.toList = right.toList) :
    left = right := by
  rw [toList_eq, toList_eq] at same
  exact ByteArray.ext (Array.toList_inj.mp same)

theorem toUTF8_injective {left right : String} (same : left.toUTF8.toList = right.toUTF8.toList) :
    left = right :=
  String.toByteArray_inj.mp (toList_injective same)

end ByteLists
