import Mathlib

/-!
Numbers as big-endian bytes, and fields that carry their length in front.
-/

namespace BigEndian

/-- The low `width` bytes of a number, the highest first. -/
def toBeBytes : Nat → Nat → List UInt8
  | 0, _ => []
  | width + 1, number => UInt8.ofNat (number / 256 ^ width) :: toBeBytes width number

def fromBeBytes : List UInt8 → Nat
  | [] => 0
  | byte :: rest => byte.toNat * 256 ^ rest.length + fromBeBytes rest

@[simp] theorem length_toBeBytes (width number : Nat) :
    (toBeBytes width number).length = width := by
  induction width with
  | zero => rfl
  | succ width ih =>
      rw [toBeBytes, List.length_cons, ih]

theorem fromBeBytes_toBeBytes (width number : Nat) :
    fromBeBytes (toBeBytes width number) = number % 256 ^ width := by
  induction width with
  | zero => rw [toBeBytes, fromBeBytes, Nat.pow_zero, Nat.mod_one]
  | succ width ih =>
      have highByte : (UInt8.ofNat (number / 256 ^ width)).toNat = number / 256 ^ width % 256 :=
        UInt8.toNat_ofNat'
      rw [toBeBytes, fromBeBytes, length_toBeBytes, ih, highByte]
      calc number / 256 ^ width % 256 * 256 ^ width + number % 256 ^ width
          = number % 256 ^ width + 256 ^ width * (number / 256 ^ width % 256) := by
            rw [Nat.add_comm, Nat.mul_comm]
        _ = number % (256 ^ width * 256) := Nat.mod_mul.symm

theorem fromBeBytes_toBeBytes_of_lt {width number : Nat} (fits : number < 256 ^ width) :
    fromBeBytes (toBeBytes width number) = number := by
  rw [fromBeBytes_toBeBytes, Nat.mod_eq_of_lt fits]

theorem toBeBytes_mod (width number : Nat) :
    toBeBytes width (number % 256 ^ width) = toBeBytes width number := by
  induction width generalizing number with
  | zero => rfl
  | succ width ih =>
      have high : UInt8.ofNat (number % 256 ^ (width + 1) / 256 ^ width) =
          UInt8.ofNat (number / 256 ^ width) := by
        apply UInt8.toNat_inj.mp
        rw [UInt8.toNat_ofNat', UInt8.toNat_ofNat', Nat.pow_succ, Nat.mod_mul_right_div_self]
        exact Nat.mod_mod_of_dvd _ (Nat.dvd_refl _)
      have low : number % 256 ^ (width + 1) % 256 ^ width = number % 256 ^ width :=
        Nat.mod_mod_of_dvd _ (Nat.pow_dvd_pow 256 (Nat.le_succ width))
      rw [toBeBytes, toBeBytes, high, ← ih (number % 256 ^ (width + 1)), low, ih]

theorem fromBeBytes_lt (bytes : List UInt8) : fromBeBytes bytes < 256 ^ bytes.length := by
  induction bytes with
  | nil => decide
  | cons byte rest ih =>
      have small : byte.toNat < 256 := byte.toNat_lt
      have bounded : byte.toNat * 256 ^ rest.length + 256 ^ rest.length ≤
          256 * 256 ^ rest.length := by
        calc byte.toNat * 256 ^ rest.length + 256 ^ rest.length
            = (byte.toNat + 1) * 256 ^ rest.length := by rw [Nat.add_mul, Nat.one_mul]
          _ ≤ 256 * 256 ^ rest.length := Nat.mul_le_mul_right _ small
      rw [fromBeBytes, List.length_cons, Nat.pow_succ, Nat.mul_comm (256 ^ rest.length)]
      omega

theorem toBeBytes_fromBeBytes (bytes : List UInt8) :
    toBeBytes bytes.length (fromBeBytes bytes) = bytes := by
  induction bytes with
  | nil => rfl
  | cons byte rest ih =>
      have small : fromBeBytes rest < 256 ^ rest.length := fromBeBytes_lt rest
      have positive : 0 < 256 ^ rest.length := Nat.pow_pos (by decide)
      have high : (byte.toNat * 256 ^ rest.length + fromBeBytes rest) / 256 ^ rest.length =
          byte.toNat := by
        rw [Nat.mul_comm, Nat.mul_add_div positive, Nat.div_eq_of_lt small, Nat.add_zero]
      have low : (byte.toNat * 256 ^ rest.length + fromBeBytes rest) % 256 ^ rest.length =
          fromBeBytes rest := by
        rw [Nat.mul_comm, Nat.mul_add_mod, Nat.mod_eq_of_lt small]
      rw [List.length_cons, fromBeBytes, toBeBytes, high, UInt8.ofNat_toNat,
        ← toBeBytes_mod rest.length, low, ih]

end BigEndian
