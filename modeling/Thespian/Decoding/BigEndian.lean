import Mathlib.Data.Nat.Basic
import Mathlib.Tactic.Ring

/-!
Big-endian numbers: the bytes of a number at a fixed width, the number spelled
by a list of bytes, and the shift-and-or accumulation that reads one byte after
the other into a 64-bit register.
-/

namespace Decoding

def bigEndianFrom (acc : Nat) (bytes : List UInt8) : Nat :=
  bytes.foldl (fun acc b => acc * 256 + b.toNat) acc

/-- The number that the bytes spell, most significant byte first. -/
def bigEndian (bytes : List UInt8) : Nat := bigEndianFrom 0 bytes

/-- The lowest bytes of a number, most significant byte first. -/
def bigEndianBytes : Nat → Nat → List UInt8
  | 0, _ => []
  | width + 1, n => UInt8.ofNat (n / 256 ^ width) :: bigEndianBytes width n

theorem bigEndianFrom_cons (acc : Nat) (b : UInt8) (bytes : List UInt8) :
    bigEndianFrom acc (b :: bytes) = bigEndianFrom (acc * 256 + b.toNat) bytes := rfl

theorem bigEndianBytes_length (width n : Nat) : (bigEndianBytes width n).length = width := by
  induction width with
  | zero => rfl
  | succ width ih => simp [bigEndianBytes, ih]

theorem bigEndianFrom_bytes (acc width n : Nat) :
    bigEndianFrom acc (bigEndianBytes width n) = acc * 256 ^ width + n % 256 ^ width := by
  induction width generalizing acc with
  | zero => simp [bigEndianBytes, bigEndianFrom, Nat.mod_one]
  | succ width ih =>
      have byte : (UInt8.ofNat (n / 256 ^ width)).toNat = n / 256 ^ width % 256 :=
        UInt8.toNat_ofNat'
      rw [bigEndianBytes, bigEndianFrom_cons, ih, byte, Nat.pow_succ, Nat.mod_mul]
      ring

theorem bigEndian_bytes (width n : Nat) (h : n < 256 ^ width) :
    bigEndian (bigEndianBytes width n) = n := by
  rw [bigEndian, bigEndianFrom_bytes, Nat.mod_eq_of_lt h]
  omega

theorem toNat_ofNat_register {n : Nat} (h : n < 2 ^ 64) : (UInt64.ofNat n).toNat = n :=
  UInt64.toNat_ofNat_of_lt' h

/-- Or-ing a byte into a register whose low byte is clear adds it. -/
theorem toNat_or_byte (i : UInt64) (b : UInt8) (acc : Nat) (h : i.toNat = acc * 256) :
    (i ||| b.toUInt64).toNat = acc * 256 + b.toNat := by
  have low : b.toNat < 2 ^ 8 := b.toNat_lt
  have joined := Nat.two_pow_add_eq_or_of_lt low acc
  rw [UInt64.toNat_or, UInt8.toNat_toUInt64, h]
  rw [Nat.mul_comm acc 256]
  exact joined.symm

theorem toNat_shift_byte (i : UInt64) (h : i.toNat < 2 ^ 56) :
    (i <<< 8).toNat = i.toNat * 256 := by
  rw [UInt64.toNat_shiftLeft]
  have amount : (8 : UInt64).toNat % 64 = 8 := rfl
  rw [amount, Nat.shiftLeft_eq]
  exact Nat.mod_eq_of_lt (by omega)

/-- The byte pushed for a shifted register is a big-endian digit of it. -/
theorem toUInt8_shiftRight (v shift : UInt64) (k : Nat) (h : shift.toNat = 8 * k) (hk : k < 8) :
    (v >>> shift).toUInt8 = UInt8.ofNat (v.toNat / 256 ^ k) := by
  apply UInt8.toNat_inj.mp
  have amount : shift.toNat % 64 = 8 * k := by omega
  rw [UInt64.toNat_toUInt8, UInt64.toNat_shiftRight, amount, Nat.shiftRight_eq_div_pow,
    Nat.pow_mul]
  exact UInt8.toNat_ofNat'.symm

theorem toUInt8_eq_digit (v : UInt64) : v.toUInt8 = UInt8.ofNat (v.toNat / 256 ^ 0) := by
  apply UInt8.toNat_inj.mp
  rw [UInt64.toNat_toUInt8, Nat.pow_zero, Nat.div_one]
  exact UInt8.toNat_ofNat'.symm

end Decoding
