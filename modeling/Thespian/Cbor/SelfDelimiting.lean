import Thespian.Cbor.Header

/-!
Encodings are self-delimiting. The skipper leaves the iterator exactly behind
the encoding of any value tree, whatever follows it, and throws on every proper
prefix. Only the first half is an induction over the tree; the second is the
prefix law of stable decoders.
-/

namespace Thespian.Cbor
open Decoding Decoding.Decoder

/-- The argument that push_int writes for a negative integer is read back as it. -/
theorem toInt64_negated_argument (i : Int64) :
    (-((-(i + 1)).toUInt64 + 1)).toInt64 = i := by
  have one : (1 : UInt64).toInt64 = 1 := rfl
  rw [UInt64.toInt64_neg, UInt64.toInt64_add, Int64.toInt64_toUInt64, one, Int64.neg_add,
    Int64.neg_neg, Int64.add_sub_cancel]

theorem toNat_toUInt64_of_nonneg {i : Int64} (h : 0 ≤ i.toInt) :
    (i.toUInt64.toNat : Int) = i.toInt := by
  have nonneg : (0 : Int64) ≤ i := by
    rw [Int64.le_iff_toInt_le, Int64.toInt_zero]
    exact h
  rw [Int64.toNat_toUInt64_of_le nonneg, Int64.cast_toNatClampNeg _ nonneg]

theorem pushInt_eq (i : Int64) :
    ∃ (major : Nat) (w : Width) (n : Nat), major < 2 ∧ w.Fits n ∧ pushInt i = header major w n := by
  unfold pushInt
  split
  · obtain ⟨w, fits, eq⟩ := pushTypedVal_eq 1 (-(i + 1)).toUInt64
    exact ⟨1, w, _, by decide, fits, eq⟩
  · obtain ⟨w, fits, eq⟩ := pushTypedVal_eq 0 i.toUInt64
    exact ⟨0, w, _, by decide, fits, eq⟩

theorem pushFloat_eq (bits : UInt32) : pushFloat bits = header 7 .four bits.toNat := by
  have digit (shift : UInt32) (k : Nat) (h : shift.toNat = 8 * k) (hk : k < 4) :
      (bits >>> shift).toUInt8 = UInt8.ofNat (bits.toNat / 256 ^ k) := by
    apply UInt8.toNat_inj.mp
    have amount : shift.toNat % 32 = 8 * k := by omega
    rw [UInt32.toNat_toUInt8, UInt32.toNat_shiftRight, amount, Nat.shiftRight_eq_div_pow,
      Nat.pow_mul]
    exact UInt8.toNat_ofNat'.symm
  simp only [pushFloat, List.map, header, Width.info, Width.bytes, bigEndianBytes,
    digit 24 3 rfl (by decide), digit 16 2 rfl (by decide), digit 8 1 rfl (by decide),
    digit 0 0 rfl (by decide)]
  rfl

theorem pushDouble_eq (bits : UInt64) : pushDouble bits = header 7 .eight bits.toNat := by
  have digit (shift : UInt64) (k : Nat) (h : shift.toNat = 8 * k) (hk : k < 8) :=
    toUInt8_shiftRight bits shift k h hk
  simp only [pushDouble, List.map, header, Width.info, Width.bytes, bigEndianBytes,
    digit 56 7 rfl (by decide), digit 48 6 rfl (by decide), digit 40 5 rfl (by decide),
    digit 32 4 rfl (by decide), digit 24 3 rfl (by decide), digit 16 2 rfl (by decide),
    digit 8 1 rfl (by decide), digit 0 0 rfl (by decide)]
  rfl

theorem pushBool_eq (b : Bool) : pushBool b = header 7 .direct (if b then 21 else 20) := by
  cases b <;> rfl

theorem pushNull_eq : pushNull = header 7 .direct 22 := rfl

theorem reads_skip_int {major n : Nat} {w : Width} (hm : major < 2) (hn : w.Fits n) :
    Reads skipValue (header major w n) () := by
  intro r
  have argument := reads_decodePint hn r
  rw [skipValue_header (by omega) hn]
  rcases (by omega : major = 0 ∨ major = 1) with rfl | rfl
  · exact bind_of_ok argument _
  · have negative : decodeNint (UInt8.ofNat (w.info n)) (bigEndianBytes w.bytes n ++ r) =
        .ok ((-(UInt64.ofNat n + 1)).toInt64, r) := bind_of_ok argument _
    exact bind_of_ok negative _

theorem reads_skip_special {n : Nat} {w : Width} (hn : w.Fits n) :
    Reads skipValue (header 7 w n) () := by
  intro r
  rw [skipValue_header (by decide) hn]
  change (if UInt8.ofNat (w.info n) ≥ 24 then _ else _ : Reader Unit) _ = _
  split
  case isTrue => exact bind_of_ok (reads_decodePint hn r) _
  case isFalse small =>
    cases w with
    | direct => rfl
    | one | two | four | eight =>
        simp only [Width.info] at small
        exact absurd (by decide) small

theorem reads_skip_string {major n : Nat} {w : Width} (kind : major = 2 ∨ major = 3) (s : Bytes)
    (hn : w.Fits n) (len : s.length = n) : Reads skipValue (header major w n ++ s) () := by
  intro r
  have single : ∀ x ∈ s.map (fun b => [b]), Reads (do let _ ← next tooShort) x () := by
    intro x hx
    obtain ⟨b, -, rfl⟩ := List.mem_map.mp hx
    exact fun _ => rfl
  have body := Reads.repeatN _ single
  have joined : (s.map fun b => [b]).flatten = s := List.flatMap_singleton' s
  rw [List.length_map, joined, len] at body
  have argument := reads_decodePint hn (s ++ r)
  have skipped : skipString (UInt8.ofNat (w.info n)) (bigEndianBytes w.bytes n ++ (s ++ r)) =
      .ok ((), r) := by
    rw [skipString, bind_of_ok argument, toNat_ofNat_register hn.lt]
    exact body r
  rw [List.append_assoc, skipValue_header (by omega) hn]
  rcases kind with rfl | rfl <;> exact skipped

/-- A container header followed by as many items as the loop counter says. -/
theorem reads_skip_items {major n : Nat} {w : Width} (hn : w.Fits n) (items : List Bytes)
    (hitems : ∀ x ∈ items, Reads skipValue x ())
    (kind : major = 4 ∧ items.length = n ∨ major = 5 ∧ items.length = 2 * n ∧ n < 2 ^ 63) :
    Reads skipValue (header major w n ++ items.flatten) () := by
  intro r
  have body := Reads.repeatN items hitems r
  have argument := reads_decodePint hn (items.flatten ++ r)
  rw [List.append_assoc, skipValue_header (by omega) hn]
  rcases kind with ⟨rfl, len⟩ | ⟨rfl, len, half⟩
  · change skipArray _ _ _ = _
    rw [skipArray, bind_of_ok argument, toNat_ofNat_register hn.lt, ← len]
    exact body
  · have doubled : (UInt64.ofNat n * 2).toNat = 2 * n := by
      have two : (2 : UInt64).toNat = 2 := rfl
      rw [UInt64.toNat_mul, toNat_ofNat_register hn.lt, two]
      omega
    change skipMap _ _ _ = _
    rw [skipMap, bind_of_ok argument, doubled, ← len]
    exact body

theorem reads_skipValue (v : Value) (hv : v.Sized (2 ^ 63)) : Reads skipValue (encode v) () := by
  induction v using Value.induction with
  | int i =>
      obtain ⟨major, w, n, hm, fits, eq⟩ := pushInt_eq i
      simpa only [encode, eq] using reads_skip_int hm fits
  | uint n =>
      obtain ⟨w, fits, eq⟩ := pushTypedVal_eq 0 n
      simpa only [encode, pushUint, eq] using reads_skip_int (by decide) fits
  | bool b =>
      rw [encode, pushBool_eq]
      exact reads_skip_special (by cases b <;> decide)
  | null =>
      rw [encode, pushNull_eq]
      exact reads_skip_special (by decide)
  | string s =>
      obtain ⟨w, fits, eq⟩ := pushTypedVal_eq 3 (UInt64.ofNat s.length)
      have len : (UInt64.ofNat s.length).toNat = s.length :=
        toNat_ofNat_register (by simp only [Value.Sized] at hv; omega)
      simpa only [encode, pushString, eq] using reads_skip_string (.inr rfl) s fits len.symm
  | float bits =>
      rw [encode, pushFloat_eq]
      exact reads_skip_special (by exact bits.toNat_lt)
  | double bits =>
      rw [encode, pushDouble_eq]
      exact reads_skip_special (by exact bits.toNat_lt)
  | array items ih =>
      obtain ⟨count, sized⟩ := hv
      obtain ⟨w, fits, eq⟩ := pushTypedVal_eq cborMagicTypeArray (UInt64.ofNat items.length)
      have len : (UInt64.ofNat items.length).toNat = items.length :=
        toNat_ofNat_register (by omega)
      rw [encode, arrayHeader, eq, encodeItems_eq]
      refine reads_skip_items fits _ ?_ (.inl ⟨rfl, by simp [len]⟩)
      intro x hx
      obtain ⟨v, hv, rfl⟩ := List.mem_map.mp hx
      exact ih v hv ((sizedItems_iff _ items).mp sized v hv)
  | map pairs ih =>
      obtain ⟨count, sized⟩ := hv
      obtain ⟨w, fits, eq⟩ := pushTypedVal_eq cborMagicTypeMap (UInt64.ofNat pairs.length)
      have len : (UInt64.ofNat pairs.length).toNat = pairs.length :=
        toNat_ofNat_register (by omega)
      rw [encode, mapHeader, eq, encodePairs_eq, encodeItems_eq]
      refine reads_skip_items fits _ ?_
        (.inr ⟨rfl, by simp [pairItems_length, len], by omega⟩)
      intro x hx
      obtain ⟨v, hv, rfl⟩ := List.mem_map.mp hx
      have small := (sizedPairs_iff _ pairs).mp sized v hv
      obtain ⟨kv, hkv, hmem⟩ := List.mem_flatMap.mp hv
      simp only [List.mem_cons, List.not_mem_nil, or_false] at hmem
      rcases hmem with rfl | rfl
      · exact (ih kv hkv).1 small
      · exact (ih kv hkv).2 small

def Value.type : Value → CborType
  | .int _ | .uint _ => .number
  | .bool _ => .boolean
  | .null => .null
  | .string _ => .string
  | .float _ | .double _ => .floating
  | .array _ => .array
  | .map _ => .map

/-- The initial byte of an encoding already tells the type of the value. -/
theorem encode_eq_header (v : Value) :
    ∃ (major : Nat) (w : Width) (n : Nat) (body : Bytes), major < 8 ∧ w.Fits n ∧
      encode v = header major w n ++ body ∧
      typeOf (UInt8.ofNat major) (UInt8.ofNat (major <<< 5 ||| w.info n)) = some v.type := by
  cases v with
  | int i =>
      obtain ⟨major, w, n, hm, fits, eq⟩ := pushInt_eq i
      refine ⟨major, w, n, [], by omega, fits, by simp [encode, eq], ?_⟩
      rcases (by omega : major = 0 ∨ major = 1) with rfl | rfl <;> rfl
  | uint n =>
      obtain ⟨w, fits, eq⟩ := pushTypedVal_eq 0 n
      exact ⟨0, w, _, [], by decide, fits, by simp [encode, pushUint, eq], rfl⟩
  | bool b =>
      refine ⟨7, .direct, if b then 21 else 20, [], by decide, ?_, ?_, ?_⟩
      · cases b <;> decide
      · rw [encode, pushBool_eq, List.append_nil]
      · cases b <;> rfl
  | null => exact ⟨7, .direct, 22, [], by decide, by decide, rfl, rfl⟩
  | string s =>
      obtain ⟨w, fits, eq⟩ := pushTypedVal_eq 3 (UInt64.ofNat s.length)
      exact ⟨3, w, _, s, by decide, fits, by rw [encode, pushString, eq], rfl⟩
  | float bits =>
      exact ⟨7, .four, bits.toNat, [], by decide, bits.toNat_lt,
        by rw [encode, pushFloat_eq, List.append_nil], by simp only [Width.info, Value.type]; decide⟩
  | double bits =>
      exact ⟨7, .eight, bits.toNat, [], by decide, bits.toNat_lt,
        by rw [encode, pushDouble_eq, List.append_nil], by simp only [Width.info, Value.type]; decide⟩
  | array items =>
      obtain ⟨w, fits, eq⟩ := pushTypedVal_eq cborMagicTypeArray (UInt64.ofNat items.length)
      exact ⟨4, w, _, encodeItems items, by decide, fits, by rw [encode, arrayHeader, eq]; rfl, rfl⟩
  | map pairs =>
      obtain ⟨w, fits, eq⟩ := pushTypedVal_eq cborMagicTypeMap (UInt64.ofNat pairs.length)
      exact ⟨5, w, _, encodePairs pairs, by decide, fits, by rw [encode, mapHeader, eq]; rfl, rfl⟩

theorem reads_matchType (v : Value) (hv : v.Sized (2 ^ 63)) :
    Reads matchType (encode v) (some v.type) := by
  intro r
  obtain ⟨major, w, n, body, hm, fits, eq, type⟩ := encode_eq_header v
  have skipped := reads_skipValue v hv r
  rw [eq, List.append_assoc] at skipped ⊢
  rw [skipValue_header hm fits] at skipped
  rw [matchType, bind_of_ok (decodeType_header hm fits (body ++ r))]
  dsimp only
  rw [bind_of_ok skipped, type]
  rfl

theorem reads_matchValueType (v : Value) (hv : v.Sized (2 ^ 63)) (t : CborType) :
    Reads (matchValueType t) (encode v) (t = .any ∨ t = v.type) := by
  intro r
  rw [matchValueType, bind_of_ok (reads_matchType v hv r)]
  by_cases h : t = .any
  · simp [h]
  · simp [h]

/-- Encodings are self-delimiting and prefix-free, for the skipper and for the
matcher that accepts any type. -/
theorem encoding_self_delimiting (v : Value) (hv : v.Sized (2 ^ 63)) :
    (∀ r, skipValue (encode v ++ r) = .ok ((), r)) ∧
    (∀ r, matchValueType .any (encode v ++ r) = .ok (true, r)) ∧
    (∀ p, p <+: encode v → p ≠ encode v →
      (∃ e : DomainError, skipValue p = .error e) ∧
      ∃ e : DomainError, matchValueType .any p = .error e) := by
  have anyType : Reads (matchValueType .any) (encode v) true := by
    simpa using reads_matchValueType v hv .any
  refine ⟨reads_skipValue v hv, anyType, ?_⟩
  intro p hp hne
  exact ⟨stable_skipValue.throws_on_proper (reads_skipValue v hv) hp hne,
    (stable_matchValueType .any).throws_on_proper anyType hp hne⟩

theorem encoding_self_delimiting_nested :
    (Value.array [.map [(.string [], .double 0)], .int (-1)]).Sized (2 ^ 63) ∧
    matchValueType .any
      (encode (.array [.map [(.string [], .double 0)], .int (-1)]) ++ [0xf6]) =
        .ok (true, [0xf6]) := by
  have sized : (Value.array [.map [(.string [], .double 0)], .int (-1)]).Sized (2 ^ 63) := by
    simp [Value.Sized, SizedItems, SizedPairs]
  exact ⟨sized, (encoding_self_delimiting _ sized).2.1 [0xf6]⟩

end Thespian.Cbor
