import Thespian.Cbor.Decode
import Thespian.Decoding.BigEndian

/-!
Item headers in the five argument widths. The encoder always chooses the
narrowest width; the decoder reads every width, so its lemmas are stated for an
arbitrary one and the encoder's choice is an instance.
-/

namespace Thespian.Cbor
open Decoding Decoding.Decoder

inductive Width where
  | direct
  | one
  | two
  | four
  | eight
deriving DecidableEq

namespace Width

def bytes : Width → Nat
  | direct => 0
  | one => 1
  | two => 2
  | four => 4
  | eight => 8

/-- The additional information of the initial byte. -/
def info (n : Nat) : Width → Nat
  | direct => n
  | one => 24
  | two => 25
  | four => 26
  | eight => 27

def Fits (n : Nat) : Width → Prop
  | direct => n < 24
  | w => n < 256 ^ w.bytes

instance (n : Nat) (w : Width) : Decidable (w.Fits n) := by
  cases w <;> exact inferInstanceAs (Decidable (_ < _))

theorem info_lt {n : Nat} {w : Width} (h : w.Fits n) : w.info n < 32 := by
  cases w <;> simp only [info, Fits] at h ⊢ <;> omega

theorem Fits.lt {n : Nat} {w : Width} (h : w.Fits n) : n < 2 ^ 64 := by
  cases w <;> simp only [Fits, bytes] at h <;> omega

end Width

def header (major : Nat) (w : Width) (n : Nat) : Bytes :=
  UInt8.ofNat (major <<< 5 ||| w.info n) :: bigEndianBytes w.bytes n

theorem pushTypedVal_eq (type : Nat) (value : UInt64) :
    ∃ w : Width, w.Fits value.toNat ∧ pushTypedVal type value = header type w value.toNat := by
  have digit (shift : UInt64) (k : Nat) (h : shift.toNat = 8 * k) (hk : k < 8) :=
    toUInt8_shiftRight value shift k h hk
  have last := toUInt8_eq_digit value
  have bound := value.toNat_lt
  unfold pushTypedVal
  simp only [UInt64.lt_iff_toNat_lt]
  split
  case isTrue h => exact ⟨.direct, h, rfl⟩
  split
  case isTrue h =>
    refine ⟨.one, h, ?_⟩
    simp only [header, Width.info, Width.bytes, bigEndianBytes, last]
  split
  case isTrue h =>
    refine ⟨.two, h, ?_⟩
    simp only [header, Width.info, Width.bytes, bigEndianBytes, last, digit 8 1 rfl (by decide)]
  split
  case isTrue h =>
    refine ⟨.four, h, ?_⟩
    simp only [header, Width.info, Width.bytes, bigEndianBytes, last, digit 8 1 rfl (by decide),
      digit 16 2 rfl (by decide), digit 24 3 rfl (by decide)]
  case isFalse =>
    refine ⟨.eight, bound, ?_⟩
    simp only [header, Width.info, Width.bytes, bigEndianBytes, last, digit 8 1 rfl (by decide),
      digit 16 2 rfl (by decide), digit 24 3 rfl (by decide), digit 32 4 rfl (by decide),
      digit 40 5 rfl (by decide), digit 48 6 rfl (by decide), digit 56 7 rfl (by decide)]

theorem initial_byte (major info : Nat) (hm : major < 8) (hi : info < 32) :
    UInt8.ofNat (major <<< 5 ||| info) >>> 5 = UInt8.ofNat major ∧
      UInt8.ofNat (major <<< 5 ||| info) &&& 31 = UInt8.ofNat info := by
  have all : ∀ (major : Fin 8) (info : Fin 32),
      UInt8.ofNat (major.val <<< 5 ||| info.val) >>> 5 = UInt8.ofNat major.val ∧
        UInt8.ofNat (major.val <<< 5 ||| info.val) &&& 31 = UInt8.ofNat info.val := by
    decide
  exact all ⟨major, hm⟩ ⟨info, hi⟩

theorem decodeType_header {major n : Nat} {w : Width} (hm : major < 8) (hn : w.Fits n)
    (s : Bytes) :
    decodeType (header major w n ++ s) =
      .ok ((UInt8.ofNat major, UInt8.ofNat (w.info n), UInt8.ofNat (major <<< 5 ||| w.info n)),
        bigEndianBytes w.bytes n ++ s) := by
  obtain ⟨hmajor, hinfo⟩ := initial_byte major (w.info n) hm (Width.info_lt hn)
  rw [header, List.cons_append, decodeType_cons, hmajor, hinfo]

/-- The register holds the bytes read so far, shifted to make room for the next. -/
theorem reads_decodeIntLengthRecurse (b : UInt8) (bytes : Bytes) (i : UInt64) (acc : Nat)
    (hi : i.toNat = acc * 256) (len : bytes.length < 8)
    (room : acc < 2 ^ (64 - 8 * (bytes.length + 1))) :
    Reads (decodeIntLengthRecurse (bytes.length + 1) i) (b :: bytes)
      (UInt64.ofNat (bigEndianFrom acc (b :: bytes))) := by
  induction bytes generalizing b i acc with
  | nil =>
      intro r
      have read : i ||| b.toUInt64 = UInt64.ofNat (acc * 256 + b.toNat) := by
        rw [← toNat_or_byte i b acc hi, UInt64.ofNat_toNat]
      exact congrArg (fun v => Except.ok (v, r)) read
  | cons c bytes ih =>
      intro r
      have low := b.toNat_lt
      have joined := toNat_or_byte i b acc hi
      simp only [List.length_cons] at len room
      have wider : 2 ^ (64 - 8 * (bytes.length + 1)) =
          2 ^ (64 - 8 * (bytes.length + 1 + 1)) * 256 := by
        rw [show 64 - 8 * (bytes.length + 1) = 64 - 8 * (bytes.length + 1 + 1) + 8 by omega,
          Nat.pow_add]
      have small : 2 ^ (64 - 8 * (bytes.length + 1)) ≤ 2 ^ 56 :=
        Nat.pow_le_pow_right (by omega) (by omega)
      have shifted := toNat_shift_byte (i ||| b.toUInt64) (by omega)
      rw [joined] at shifted
      have rest := ih c ((i ||| b.toUInt64) <<< 8) (acc * 256 + b.toNat) shifted
        (by omega) (by omega) r
      rw [bigEndianFrom_cons, ← rest]
      rfl

theorem reads_decodeIntLength (n width : Nat) (hw : width < 8) (hn : n < 256 ^ (width + 1)) :
    Reads (decodeIntLength (width + 1)) (bigEndianBytes (width + 1) n) (UInt64.ofNat n) := by
  have len := bigEndianBytes_length width n
  have read := reads_decodeIntLengthRecurse (UInt8.ofNat (n / 256 ^ width))
    (bigEndianBytes width n) 0 0 rfl (by omega) (Nat.two_pow_pos _)
  have value := bigEndian_bytes (width + 1) n hn
  rw [len] at read
  rw [bigEndian, bigEndianBytes] at value
  rwa [value] at read

theorem reads_decodePint {n : Nat} {w : Width} (hn : w.Fits n) :
    Reads (decodePint (UInt8.ofNat (w.info n))) (bigEndianBytes w.bytes n) (UInt64.ofNat n) := by
  cases w with
  | direct =>
      have all : ∀ n : Fin 24, UInt8.ofNat n.val < 24 ∧
          (UInt8.ofNat n.val).toUInt64 = UInt64.ofNat n.val := by
        decide
      obtain ⟨small, same⟩ := all ⟨n, hn⟩
      intro r
      unfold decodePint Width.info
      rw [if_pos small, ← same]
      rfl
  | one => exact reads_decodeIntLength n 0 (by decide) hn
  | two => exact reads_decodeIntLength n 1 (by decide) hn
  | four => exact reads_decodeIntLength n 3 (by decide) hn
  | eight => exact reads_decodeIntLength n 7 (by decide) hn

/-- The skipper at a header, with the argument still to be read. -/
theorem skipValue_header {major n : Nat} {w : Width} (hm : major < 8) (hn : w.Fits n)
    (s : Bytes) :
    skipValue (header major w n ++ s) =
      skipValueType skipValue (UInt8.ofNat major) (UInt8.ofNat (w.info n))
        (bigEndianBytes w.bytes n ++ s) := by
  rw [congrFun skipValue_eq (header major w n ++ s), bind_of_ok (decodeType_header hm hn s)]

end Thespian.Cbor
