import Thespian.Cbor.SelfDelimiting

/-!
Scalar matchers and extractors. A matcher that returns false leaves the iterator
where it stopped; none stands for the false return and some value for a true
return together with the value written to the caller's variable.

Integer extraction is exact except on one kind of item: a negative item whose
argument is so large that the 64-bit negation comes out as a small non-negative
number, which the signed range check then lets through.
-/

namespace Thespian.Cbor
open Decoding Decoding.Decoder

def matchUint : Reader (Option UInt64) := do
  let (major, minor, _) ← decodeType
  if major ≠ 0 then
    return none
  let val ← decodePint minor
  return some val

def matchInt : Reader (Option Int64) := do
  let (major, minor, _) ← decodeType
  match major with
  | 0 =>
      let val ← decodePint minor
      if val.toInt64 < 0 then
        return none
      return some val.toInt64
  | 1 =>
      let val ← decodeNint minor
      return some val
  | _ => return none

def matchBool : Reader (Option Bool) := do
  let (major, _, type) ← decodeType
  if major = 7 then
    if type = 0xf4 then
      return some false
    if type = 0xf5 then
      return some true
  return none

def matchString : Reader (Option Bytes) := do
  let (major, minor, _) ← decodeType
  match major with
  | 2 =>
      let val ← decodeBytes minor
      return some val
  | 3 =>
      let val ← decodeString minor
      return some val
  | _ => return none

def decodeHalf (h : UInt16) : Float :=
  let exp := ((h >>> 10) &&& 0x1f).toNat
  let mant := (h &&& 0x3ff).toNat
  let v :=
    if exp = 0 then (Float.ofNat mant).scaleB (-24)
    else if exp ≠ 31 then (Float.ofNat (mant + 1024)).scaleB (exp - 25)
    else if mant = 0 then Float.ofBits 0x7ff0000000000000
    else Float.ofBits 0x7ff8000000000000
  if h &&& 0x8000 ≠ 0 then -v else v

def decodeFloat (type : UInt8) : Reader Float := do
  if type = cborMagicFloat16 then
    let bits ← decodeIntLength 2
    return decodeHalf bits.toUInt16
  else if type = cborMagicFloat32 then
    let bits ← decodeIntLength 4
    return (Float32.ofBits bits.toUInt32).toFloat
  else if type = cborMagicFloat64 then
    let bits ← decodeIntLength 8
    return Float.ofBits bits
  else
    throw ⟨text "cbor invalid float type"⟩

def matchFloat : Reader (Option Float) := do
  let (major, minor, type) ← decodeType
  match major with
  | 0 =>
      let n ← decodePint minor
      return some n.toFloat
  | 1 =>
      let n ← decodeNint minor
      return some n.toFloat
  | 7 =>
      if !isFloatType type then
        return none
      let v ← decodeFloat type
      return some v
  | _ => return none

/-- The integer types with an extract overload. -/
inductive IntType where
  | signedLongLong
  | signedLong
  | signedInt
  | signedShort
  | signedChar
  | unsignedLongLong
  | unsignedLong
  | unsignedInt
  | unsignedShort
  | unsignedChar
deriving DecidableEq

namespace IntType

def signed : IntType → Bool
  | signedLongLong | signedLong | signedInt | signedShort | signedChar => true
  | _ => false

def bits : IntType → Nat
  | signedLongLong | signedLong | unsignedLongLong | unsignedLong => 64
  | signedInt | unsignedInt => 32
  | signedShort | unsignedShort => 16
  | signedChar | unsignedChar => 8

def min (T : IntType) : Int := if T.signed then -2 ^ (T.bits - 1) else 0

def max (T : IntType) : Int := if T.signed then 2 ^ (T.bits - 1) - 1 else 2 ^ T.bits - 1

/-- Assignment to a variable of the type keeps the value modulo its width. -/
def convert (T : IntType) (i : Int) : Int :=
  if T.signed then i.bmod (2 ^ T.bits) else i % 2 ^ T.bits

end IntType

def extractInt (T : IntType) : Reader (Option Int) := do
  match ← matchInt with
  | some i =>
      if i.toInt < T.min ∨ i.toInt > T.max then
        return none
      return some (T.convert i.toInt)
  | none => return none

def extractUint (T : IntType) : Reader (Option Int) := do
  match ← matchUint with
  | some i =>
      if (i.toNat : Int) > T.max then
        return none
      return some (T.convert i.toNat)
  | none => return none

/-- The overload chosen for a variable of the type. -/
def extractInteger (T : IntType) : Reader (Option Int) :=
  match T with
  | .unsignedLongLong => do
      match ← matchUint with
      | some i => return some (i.toNat : Int)
      | none => return none
  | .unsignedLong | .unsignedInt | .unsignedShort | .unsignedChar => extractUint T
  | _ => extractInt T

/-- A range is the bytes between its two iterators. -/
inductive Bound where
  | type (t : CborType)
  | int (i : Int)
  | bool (b : Bool)
  | double (v : Float)
  | float (v : Float32)
  | string (s : Bytes)
  | range (item : Bytes)

def extractRange : Reader (Option Bytes) := fun s =>
  match matchType s with
  | .ok (some v, r) =>
      if v = .null ∨ v = .array ∨ v = .map then .ok (some (s.take (s.length - r.length)), r)
      else .ok (none, r)
  | .ok (none, r) => .ok (none, r)
  | .error e => .error e

theorem advances_extractRange : Advances extractRange := by
  have shorter : Advances matchType :=
    advances_decodeType.bind fun _ =>
      (shrinks_skipValueType advances_skipValue.shrinks _ _).bind fun _ => shrinks_pure _
  intro s a r h
  unfold extractRange at h
  split at h
  · rename_i v t run
    split at h <;> cases h <;> exact shorter s _ _ run
  · rename_i t run
    cases h
    exact shorter s _ _ run
  · cases h

theorem stable_extractRange : Stable extractRange := by
  intro s a r h t
  have shorter := advances_extractRange s a r h
  unfold extractRange at h ⊢
  split at h
  · rename_i v u run
    rw [stable_matchType s (some v) u run t]
    dsimp only
    split at h
    · rename_i framed
      cases h
      have item : (s ++ t).take ((s ++ t).length - (r ++ t).length) =
          s.take (s.length - r.length) := by
        rw [List.length_append, List.length_append, Nat.add_sub_add_right,
          List.take_append_of_le_length (by omega)]
      rw [if_pos framed, item]
    · rename_i framed
      cases h
      rw [if_neg framed]
  · rename_i u run
    cases h
    rw [stable_matchType s none r run t]
  · cases h

inductive Extractor where
  | type
  | int (T : IntType)
  | bool
  | double
  | float
  | string
  | range
deriving DecidableEq

def extract : Extractor → Reader (Option Bound)
  | .type => do return (← matchType).map .type
  | .int T => do return (← extractInteger T).map .int
  | .bool => do return (← matchBool).map .bool
  | .double => do return (← matchFloat).map .double
  | .float => do return (← matchFloat).map fun d => .float d.toFloat32
  | .string => do return (← matchString).map .string
  | .range => do return (← extractRange).map .range

theorem toInt_toInt64 (n : Nat) (hn : n < 2 ^ 64) :
    (UInt64.ofNat n).toInt64.toInt = if n < 2 ^ 63 then (n : Int) else (n : Int) - 2 ^ 64 := by
  rw [UInt64.toInt64_ofNat', Int64.toInt_ofNat', Int.bmod]
  simp only [Int64.size]
  split <;> split <;> omega

/-- The negation of the incremented argument, read back as a signed number. -/
theorem toInt_negated (n : Nat) (hn : n < 2 ^ 64) :
    (-(UInt64.ofNat n + 1)).toInt64.toInt =
      if n < 2 ^ 63 then -1 - (n : Int) else 2 ^ 64 - 1 - (n : Int) := by
  have argument : -(UInt64.ofNat n + 1) = UInt64.ofNat (2 ^ 64 - 1 - n) := by
    apply UInt64.toNat_inj.mp
    have one : (1 : UInt64).toNat = 1 := rfl
    rw [UInt64.toNat_neg, UInt64.toNat_add, toNat_ofNat_register hn, one,
      toNat_ofNat_register (by omega)]
    simp only [UInt64.size]
    omega
  rw [argument, toInt_toInt64 _ (by omega)]
  split <;> split <;> omega

section Integers
variable {n : Nat} {w : Width}

theorem matchUint_header (hn : w.Fits n) (r : Bytes) :
    matchUint (header 0 w n ++ r) = .ok (some (UInt64.ofNat n), r) := by
  rw [matchUint, bind_of_ok (decodeType_header (by decide) hn r)]
  exact bind_of_ok (reads_decodePint hn r) _

theorem matchUint_header_negative (hn : w.Fits n) (r : Bytes) :
    matchUint (header 1 w n ++ r) = .ok (none, bigEndianBytes w.bytes n ++ r) := by
  rw [matchUint, bind_of_ok (decodeType_header (by decide) hn r)]
  rfl

theorem matchInt_header (hn : w.Fits n) (r : Bytes) :
    matchInt (header 0 w n ++ r) =
      .ok (if n < 2 ^ 63 then some (UInt64.ofNat n).toInt64 else none, r) := by
  rw [matchInt, bind_of_ok (decodeType_header (by decide) hn r)]
  have read := reads_decodePint hn r
  have bound := hn.lt
  have value := toInt_toInt64 n bound
  have sign : (UInt64.ofNat n).toInt64 < 0 ↔ ¬ n < 2 ^ 63 := by
    rw [Int64.lt_iff_toInt_lt, value, Int64.toInt_zero]
    split <;> omega
  refine (bind_of_ok read _).trans ?_
  by_cases h : n < 2 ^ 63
  · rw [if_neg (fun negative => sign.mp negative h), if_pos h]
    rfl
  · rw [if_pos (sign.mpr h), if_neg h]
    rfl

theorem matchInt_header_negative (hn : w.Fits n) (r : Bytes) :
    matchInt (header 1 w n ++ r) = .ok (some (-(UInt64.ofNat n + 1)).toInt64, r) := by
  rw [matchInt, bind_of_ok (decodeType_header (by decide) hn r)]
  have read : decodeNint (UInt8.ofNat (w.info n)) (bigEndianBytes w.bytes n ++ r) =
      .ok ((-(UInt64.ofNat n + 1)).toInt64, r) := bind_of_ok (reads_decodePint hn r) _
  exact bind_of_ok read _

theorem IntType.convert_of_range (T : IntType) (i : Int) (low : T.min ≤ i) (high : i ≤ T.max) :
    T.convert i = i := by
  cases T <;> simp only [IntType.min, IntType.max, IntType.convert, IntType.signed,
    IntType.bits, if_true, Bool.false_eq_true, if_false, Int.bmod] at low high ⊢
  case unsignedLongLong | unsignedLong | unsignedInt | unsignedShort | unsignedChar => omega
  all_goals
    norm_num at low high ⊢
    split <;> omega

theorem IntType.max_lt (T : IntType) : T.max < 2 ^ 64 ∧ (T.signed → T.max < 2 ^ 63) := by
  cases T <;> decide

theorem IntType.max_nonneg (T : IntType) : 0 ≤ T.max := by
  cases T <;> decide

theorem IntType.min_nonpos (T : IntType) : T.min ≤ 0 := by
  cases T <;> decide

theorem extractInteger_signed {T : IntType} (h : T.signed = true) :
    extractInteger T = extractInt T := by
  cases T <;> first | rfl | simp [IntType.signed] at h

/-- The unsigned overloads differ only in that the widest skips a check that
cannot fail. -/
theorem extractInteger_unsigned {T : IntType} (h : T.signed = false) {s r : Bytes}
    {i : UInt64} (hs : matchUint s = .ok (some i, r)) :
    extractInteger T s =
      .ok (if (i.toNat : Int) ≤ T.max then some (i.toNat : Int) else none, r) := by
  have checked : extractUint T s =
      .ok (if (i.toNat : Int) ≤ T.max then some (i.toNat : Int) else none, r) := by
    rw [extractUint, bind_of_ok hs]
    by_cases high : (i.toNat : Int) > T.max
    · simp only [high, if_true]
      rw [if_neg (by omega)]
      rfl
    · have low : T.min ≤ (i.toNat : Int) := le_trans T.min_nonpos (by omega)
      simp only [high, if_false]
      rw [T.convert_of_range _ low (by omega), if_pos (by omega)]
      rfl
  have bound := i.toNat_lt
  cases T
  case unsignedLongLong =>
    have inRange : (i.toNat : Int) ≤ IntType.max .unsignedLongLong := by
      simp only [IntType.max, IntType.signed, IntType.bits, Bool.false_eq_true, if_false]
      omega
    rw [if_pos inRange]
    exact bind_of_ok hs _
  all_goals first | exact checked | simp [IntType.signed] at h

theorem extractInt_of_match {T : IntType} {s r : Bytes} {i : Int64}
    (hs : matchInt s = .ok (some i, r)) :
    extractInt T s =
      .ok (if T.min ≤ i.toInt ∧ i.toInt ≤ T.max then some i.toInt else none, r) := by
  rw [extractInt, bind_of_ok hs]
  by_cases range : T.min ≤ i.toInt ∧ i.toInt ≤ T.max
  · have pass : ¬ (i.toInt < T.min ∨ i.toInt > T.max) := by omega
    simp only [pass, if_false]
    rw [if_pos range, T.convert_of_range _ range.1 range.2]
    rfl
  · have stop : i.toInt < T.min ∨ i.toInt > T.max := by omega
    simp only [stop, if_true]
    rw [if_neg range]
    rfl

theorem extractInteger_positive (T : IntType) (hn : w.Fits n) (r : Bytes) :
    extractInteger T (header 0 w n ++ r) =
      .ok (if (n : Int) ≤ T.max then some (n : Int) else none, r) := by
  have bound := hn.lt
  cases hT : T.signed with
  | true =>
      rw [extractInteger_signed hT]
      have matched := matchInt_header hn r
      have limit := T.max_lt.2 hT
      have low := T.min_nonpos
      by_cases h : n < 2 ^ 63
      · rw [if_pos h] at matched
        rw [extractInt_of_match matched, toInt_toInt64 n bound, if_pos h]
        simp only [show T.min ≤ (n : Int) by omega, true_and]
      · rw [if_neg h] at matched
        rw [if_neg (by omega), extractInt, bind_of_ok matched]
        rfl
  | false =>
      rw [extractInteger_unsigned hT (matchUint_header hn r), toNat_ofNat_register bound]

theorem extractInteger_negative (T : IntType) (hn : w.Fits n) (r : Bytes) :
    (T.signed = false →
      extractInteger T (header 1 w n ++ r) = .ok (none, bigEndianBytes w.bytes n ++ r)) ∧
    (T.signed = true → n < 2 ^ 63 →
      extractInteger T (header 1 w n ++ r) =
        .ok (if T.min ≤ -1 - (n : Int) then some (-1 - (n : Int)) else none, r)) ∧
    (T.signed = true → 2 ^ 63 ≤ n →
      extractInteger T (header 1 w n ++ r) =
        .ok (if 2 ^ 64 - 1 - (n : Int) ≤ T.max then some (2 ^ 64 - 1 - (n : Int)) else none, r)) := by
  have bound := hn.lt
  have value := toInt_negated n bound
  have matched := matchInt_header_negative hn r
  have low := T.min_nonpos
  have high := T.max_nonneg
  refine ⟨?_, ?_, ?_⟩
  · intro hT
    have failed := matchUint_header_negative hn r
    have checked : extractUint T (header 1 w n ++ r) =
        .ok (none, bigEndianBytes w.bytes n ++ r) := bind_of_ok failed _
    cases T <;> first | exact checked | exact bind_of_ok failed _ | simp [IntType.signed] at hT
  · intro hT h
    rw [extractInteger_signed hT, extractInt_of_match matched, value, if_pos h]
    simp only [show -1 - (n : Int) ≤ T.max by omega, and_true]
  · intro hT h
    rw [extractInteger_signed hT, extractInt_of_match matched, value,
      if_neg (by omega : ¬ n < 2 ^ 63)]
    simp only [show T.min ≤ 2 ^ 64 - 1 - (n : Int) by omega, true_and]

end Integers

/-- The mathematical integer that an integer item denotes. -/
def denoted (negative : Bool) (n : Nat) : Int := if negative then -1 - n else n

def integerItem (negative : Bool) (w : Width) (n : Nat) : Bytes :=
  header (if negative then 1 else 0) w n

def Extracts (T : IntType) (s : Bytes) (x : Int) : Prop :=
  ∃ r, extractInteger T s = .ok (some x, r)

/-- Extraction succeeds exactly on the integers of the type and binds them. -/
def ExtractsExactly (T : IntType) (negative : Bool) (w : Width) (n : Nat) (r : Bytes) : Prop :=
  ((∃ x, Extracts T (integerItem negative w n ++ r) x) ↔
    T.min ≤ denoted negative n ∧ denoted negative n ≤ T.max) ∧
  ∀ x, Extracts T (integerItem negative w n ++ r) x → x = denoted negative n

/-- Extraction is exact on an item unless the item is negative, the type signed
and the argument within half the type's range of wrapping around. -/
theorem extractsExactly_iff (T : IntType) (negative : Bool) (w : Width) (n : Nat)
    (hn : w.Fits n) (r : Bytes) :
    ExtractsExactly T negative w n r ↔
      (T.signed = true → negative = true → n < 2 ^ 64 - 2 ^ (T.bits - 1)) := by
  have bound := hn.lt
  have low := T.min_nonpos
  have high := T.max_nonneg
  have result {x : Int} {c : Prop} [Decidable c] {y : Int} {t : Bytes}
      (h : extractInteger T (integerItem negative w n ++ r) = .ok (if c then some y else none, t)) :
      Extracts T (integerItem negative w n ++ r) x ↔ c ∧ x = y := by
    rw [Extracts, h]
    by_cases hc : c
    · simp [hc, eq_comm]
    · simp [hc]
  cases negative with
  | false =>
      have extracted := extractInteger_positive T hn r
      simp only [ExtractsExactly, denoted, Bool.false_eq_true, if_false, false_implies,
        implies_true, iff_true]
      constructor
      · constructor
        · rintro ⟨x, hx⟩
          have inRange := ((result extracted).mp hx).1
          omega
        · intro range
          exact ⟨n, (result extracted).mpr ⟨range.2, rfl⟩⟩
      · intro x hx
        exact ((result extracted).mp hx).2
  | true =>
      obtain ⟨unsigned, near, far⟩ := extractInteger_negative T hn r
      simp only [ExtractsExactly, denoted, if_true, forall_const]
      cases hT : T.signed with
      | false =>
          have fails (x : Int) : ¬ Extracts T (integerItem true w n ++ r) x := by
            rintro ⟨t, ht⟩
            have none := unsigned hT
            simp only [integerItem, if_true] at ht
            rw [none] at ht
            cases ht
          have minimum : T.min = 0 := by simp [IntType.min, hT]
          simp only [fails, exists_false, false_iff, false_implies, implies_true, and_true,
            Bool.false_eq_true, iff_true]
          omega
      | true =>
          have maximum : T.max = 2 ^ (T.bits - 1) - 1 := by simp [IntType.max, hT]
          have half : (2 : Nat) ^ (T.bits - 1) ≤ 2 ^ 63 := by
            cases T <;> decide
          have halfInt : ((2 ^ (T.bits - 1) : Nat) : Int) = 2 ^ (T.bits - 1) := by simp
          simp only [forall_const]
          by_cases h : n < 2 ^ 63
          · have extracted := near hT h
            refine iff_of_true ⟨⟨?_, ?_⟩, ?_⟩ (by omega)
            · rintro ⟨x, hx⟩
              have inRange := ((result extracted).mp hx).1
              omega
            · intro range
              exact ⟨_, (result extracted).mpr ⟨range.1, rfl⟩⟩
            · intro x hx
              exact ((result extracted).mp hx).2
          · have extracted := far hT (by omega)
            have below : ¬ T.min ≤ -1 - (n : Int) := by
              have minimum : T.min = -2 ^ (T.bits - 1) := by simp [IntType.min, hT]
              omega
            constructor
            · rintro ⟨accepts, -⟩
              by_contra tooLarge
              have wraps : 2 ^ 64 - 1 - (n : Int) ≤ T.max := by omega
              exact below (accepts.mp ⟨_, (result extracted).mpr ⟨wraps, rfl⟩⟩).1
            · intro small
              have rejects (x : Int) : ¬ Extracts T (integerItem true w n ++ r) x := by
                intro hx
                have wraps := ((result extracted).mp hx).1
                omega
              simp [rejects, below]

theorem extractsExactly_iff_char :
    Width.Fits 200 .one ∧ ExtractsExactly .signedChar true .one 200 [] :=
  ⟨by decide, (extractsExactly_iff .signedChar true .one 200 (by decide) []).mpr (by decide)⟩

/-- The item for minus two to the power of 64 is extracted as zero. -/
theorem extraction_not_exact :
    ¬ ∀ (T : IntType) (negative : Bool) (w : Width) (n : Nat), w.Fits n →
      ∀ r, ExtractsExactly T negative w n r := by
  intro exact
  have bound := (exact .signedLongLong true .eight (2 ^ 64 - 1) (by decide) []).2 0
    ⟨[], by decide⟩
  exact absurd bound (by decide)

end Thespian.Cbor
