import Mathlib

/-!
Base64 with padding: three bytes are written with four characters of six bits each, and what is
missing to the last three is filled up.
-/

namespace Base64

def alphabet : List Char :=
  "ABCDEFGHIJKLMNOPQRSTUVWXYZabcdefghijklmnopqrstuvwxyz0123456789+/".toList

def digit (number : Nat) : Char := alphabet.getD number 'A'

def padding : Char := '='

def encode : List UInt8 → List Char
  | [] => []
  | [first] => [digit (first.toNat / 4), digit (first.toNat % 4 * 16), padding, padding]
  | [first, second] =>
      [digit (first.toNat / 4), digit (first.toNat % 4 * 16 + second.toNat / 16),
        digit (second.toNat % 16 * 4), padding]
  | first :: second :: third :: bytes =>
      digit (first.toNat / 4) :: digit (first.toNat % 4 * 16 + second.toNat / 16) ::
        digit (second.toNat % 16 * 4 + third.toNat / 64) :: digit (third.toNat % 64) ::
        encode bytes

private theorem digit_mem (number : Nat) : digit number ∈ alphabet := by
  unfold digit
  rw [List.getD_eq_getElem?_getD]
  cases found : alphabet[number]? with
  | none => decide
  | some character => exact List.mem_of_getElem? found

theorem exists_digit {character : Char} (member : character ∈ alphabet) :
    ∃ number < 64, character = digit number := by
  have length : alphabet.length = 64 := by decide +kernel
  obtain ⟨number, inside, rfl⟩ := List.mem_iff_getElem.mp member
  refine ⟨number, length ▸ inside, ?_⟩
  unfold digit
  rw [List.getD_eq_getElem _ _ inside]

theorem mem_encode {bytes : List UInt8} {character : Char} (member : character ∈ encode bytes) :
    character ∈ alphabet ∨ character = padding := by
  fun_induction encode bytes with
  | case1 => cases member
  | case2 first =>
      simp only [List.mem_cons, List.not_mem_nil, or_false] at member
      rcases member with rfl | rfl | rfl | rfl
      · exact Or.inl (digit_mem _)
      · exact Or.inl (digit_mem _)
      · exact Or.inr rfl
      · exact Or.inr rfl
  | case3 first second =>
      simp only [List.mem_cons, List.not_mem_nil, or_false] at member
      rcases member with rfl | rfl | rfl | rfl
      · exact Or.inl (digit_mem _)
      · exact Or.inl (digit_mem _)
      · exact Or.inl (digit_mem _)
      · exact Or.inr rfl
  | case4 first second third bytes ih =>
      simp only [List.mem_cons] at member
      rcases member with rfl | rfl | rfl | rfl | later
      · exact Or.inl (digit_mem _)
      · exact Or.inl (digit_mem _)
      · exact Or.inl (digit_mem _)
      · exact Or.inl (digit_mem _)
      · exact ih later

theorem encode_ne_nil {bytes : List UInt8} (some : bytes ≠ []) : encode bytes ≠ [] := by
  fun_induction encode bytes with
  | case1 => exact absurd rfl some
  | case2 first => exact List.cons_ne_nil _ _
  | case3 first second => exact List.cons_ne_nil _ _
  | case4 first second third bytes ih => exact List.cons_ne_nil _ _

end Base64
