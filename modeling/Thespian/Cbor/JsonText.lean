import Thespian.Cbor.ToJson
import Thespian.Cbor.SelfDelimiting

/-!
The JSON text of a value tree and the printer's result on its encoding. Only
integers in the int64 range, strings, booleans, null and containers have such a
text here; the text of a floating point value is left to the library.
-/

namespace Thespian.Cbor
open Decoding Decoding.Decoder

mutual
/-- The property holds at every node of the tree. -/
def Value.All (P : Value → Prop) : Value → Prop
  | .array items => P (.array items) ∧ AllItems P items
  | .map pairs => P (.map pairs) ∧ AllPairs P pairs
  | v => P v
def AllItems (P : Value → Prop) : List Value → Prop
  | [] => True
  | v :: items => v.All P ∧ AllItems P items
def AllPairs (P : Value → Prop) : List (Value × Value) → Prop
  | [] => True
  | (k, v) :: pairs => k.All P ∧ v.All P ∧ AllPairs P pairs
end

theorem allItems_iff (P : Value → Prop) (items : List Value) :
    AllItems P items ↔ ∀ v ∈ items, v.All P := by
  induction items with
  | nil => simp [AllItems]
  | cons v items ih => simp [AllItems, ih]

theorem allPairs_iff (P : Value → Prop) (pairs : List (Value × Value)) :
    AllPairs P pairs ↔ ∀ kv ∈ pairs, kv.1.All P ∧ kv.2.All P := by
  induction pairs with
  | nil => simp [AllPairs]
  | cons kv pairs ih =>
      obtain ⟨k, v⟩ := kv
      simp [AllPairs, ih, and_assoc]

/-- The nodes with a JSON text: integers are within int64, lengths and counts
within what a container of the source can hold. -/
def Value.Jsonable : Value → Prop
  | .uint n => n.toNat < 2 ^ 63
  | .float _ | .double _ => False
  | .string s => s.length < 2 ^ 63
  | .array items => items.length < 2 ^ 63
  | .map pairs => pairs.length < 2 ^ 63
  | _ => True

def commaSeparated : List Bytes → Bytes
  | [] => []
  | x :: xs => x ++ xs.flatMap fun y => 44 :: y

mutual
def jsonText : Value → Bytes
  | .int i => signedDecimal i.toInt
  | .uint n => decimal n.toNat
  | .bool b => if b then text "true" else text "false"
  | .null => text "null"
  | .string s => toJsonString s
  | .float _ | .double _ => []
  | .array items => [91] ++ commaSeparated (jsonItems items) ++ [93]
  | .map pairs => [123] ++ commaSeparated (jsonPairs pairs) ++ [125]
def jsonItems : List Value → List Bytes
  | [] => []
  | v :: items => jsonText v :: jsonItems items
def jsonPairs : List (Value × Value) → List Bytes
  | [] => []
  | (k, v) :: pairs => (jsonText k ++ 58 :: jsonText v) :: jsonPairs pairs
end

theorem jsonItems_eq (items : List Value) : jsonItems items = items.map jsonText := by
  induction items with
  | nil => rfl
  | cons v items ih => rw [jsonItems, ih, List.map_cons]

theorem jsonPairs_eq (pairs : List (Value × Value)) :
    jsonPairs pairs = pairs.map fun kv => jsonText kv.1 ++ 58 :: jsonText kv.2 := by
  induction pairs with
  | nil => rfl
  | cons kv pairs ih =>
      obtain ⟨k, v⟩ := kv
      rw [jsonPairs, ih, List.map_cons]

theorem text_comma : text "," = [44] := rfl

theorem text_leftBracket : text "[" = [91] := rfl

theorem text_rightBracket : text "]" = [93] := rfl

theorem text_colon : text ":" = [58] := rfl

section Printer
variable (toChars : Float → Bytes)

theorem toJsonStream_header {major n : Nat} {w : Width} (hm : major < 8) (hn : w.Fits n)
    (ss s : Bytes) :
    toJsonStream toChars ss (header major w n ++ s) =
      toJsonType toChars (toJsonStream toChars) (UInt8.ofNat major) (UInt8.ofNat (w.info n))
        (UInt8.ofNat (major <<< 5 ||| w.info n)) ss (bigEndianBytes w.bytes n ++ s) := by
  have head : writing ss decodeType (header major w n ++ s) = _ :=
    (mapError_eq_ok _).mpr (decodeType_header hm hn s)
  rw [congrFun (toJsonStream_eq toChars ss) (header major w n ++ s), bind_of_ok head]

/-- The printer turns the value's encoding into its text. -/
def Prints (v : Value) : Prop :=
  ∀ ss r, toJsonStream toChars ss (encode v ++ r) = .ok (ss ++ jsonText v, r)

theorem writing_argument {n : Nat} {w : Width} (hn : w.Fits n) (ss r : Bytes) :
    writing ss (decodePint (UInt8.ofNat (w.info n))) (bigEndianBytes w.bytes n ++ r) =
      .ok (UInt64.ofNat n, r) :=
  (mapError_eq_ok _).mpr (reads_decodePint hn r)

theorem prints_int (i : Int64) : Prints toChars (.int i) := by
  intro ss r
  rw [encode, pushInt, jsonText]
  split
  case isTrue negative =>
    obtain ⟨w, fits, eq⟩ := pushTypedVal_eq 1 (-(i + 1)).toUInt64
    have negated : decodeNint _ _ = .ok (_, r) := bind_of_ok (reads_decodePint fits r) _
    rw [UInt64.ofNat_toNat, toInt64_negated_argument] at negated
    have read : writing ss _ _ = _ := (mapError_eq_ok _).mpr negated
    rw [eq, toJsonStream_header toChars (by decide) fits]
    exact bind_of_ok read _
  case isFalse negative =>
    have sign : 0 ≤ i.toInt := by simpa [Int64.lt_iff_toInt_lt] using negative
    have value : signedDecimal i.toInt = decimal i.toUInt64.toNat := by
      rw [signedDecimal, if_neg (by omega), ← toNat_toUInt64_of_nonneg sign, Int.natAbs_natCast]
    obtain ⟨w, fits, eq⟩ := pushTypedVal_eq 0 i.toUInt64
    have argument := writing_argument fits ss r
    rw [UInt64.ofNat_toNat] at argument
    rw [eq, toJsonStream_header toChars (by decide) fits, value]
    exact bind_of_ok argument _

theorem prints_uint (n : UInt64) : Prints toChars (.uint n) := by
  intro ss r
  obtain ⟨w, fits, eq⟩ := pushTypedVal_eq 0 n
  have argument := writing_argument fits ss r
  rw [UInt64.ofNat_toNat] at argument
  rw [encode, pushUint, eq, toJsonStream_header toChars (by decide) fits]
  exact bind_of_ok argument _

theorem prints_string {s : Bytes} (hs : s.length < 2 ^ 64) : Prints toChars (.string s) := by
  intro ss r
  obtain ⟨w, fits, eq⟩ := pushTypedVal_eq 3 (UInt64.ofNat s.length)
  have len : (UInt64.ofNat s.length).toNat = s.length := toNat_ofNat_register (by omega)
  rw [len] at fits eq
  have content : decodeString (UInt8.ofNat (w.info s.length))
      (bigEndianBytes w.bytes s.length ++ (s ++ r)) = .ok (s, r) := by
    rw [decodeString, bind_of_ok (reads_decodePint fits (s ++ r)), len]
    exact reads_takeN tooShort s r
  have read : writing ss _ _ = _ := (mapError_eq_ok _).mpr content
  rw [encode, pushString, eq, List.append_assoc, toJsonStream_header toChars (by decide) fits]
  exact bind_of_ok read _

section Containers
variable {txt : Value → Bytes}

theorem prints_items (items : List Value)
    (h : ∀ v ∈ items, ∀ ss r, toJsonStream toChars ss (encode v ++ r) = .ok (ss ++ txt v, r))
    (ss r : Bytes) :
    countdown (fun i ss => do
      let ss ← toJsonStream toChars ss
      return if i ≠ 0 then ss ++ text "," else ss) items.length ss (encodeItems items ++ r) =
      .ok (ss ++ commaSeparated (items.map txt), r) := by
  induction items generalizing ss with
  | nil => simp [countdown, encodeItems, commaSeparated]
  | cons v items ih =>
      have head := h v (by simp) ss (encodeItems items ++ r)
      have tail := ih fun u hu => h u (by simp [hu])
      rw [List.length_cons, countdown, encodeItems, List.append_assoc, bind_assoc,
        bind_of_ok head, pure_bind, tail]
      cases items with
      | nil => simp [commaSeparated]
      | cons u items => simp [commaSeparated, text_comma]

theorem prints_pairs (pairs : List (Value × Value))
    (h : ∀ kv ∈ pairs,
      (∀ ss r, toJsonStream toChars ss (encode kv.1 ++ r) = .ok (ss ++ txt kv.1, r)) ∧
        ∀ ss r, toJsonStream toChars ss (encode kv.2 ++ r) = .ok (ss ++ txt kv.2, r))
    (ss r : Bytes) :
    countdown (fun i ss => do
      let ss ← toJsonStream toChars ss
      let ss ← toJsonStream toChars (ss ++ text ":")
      return if i ≠ 0 then ss ++ text "," else ss) pairs.length ss (encodePairs pairs ++ r) =
      .ok (ss ++ commaSeparated (pairs.map fun kv => txt kv.1 ++ 58 :: txt kv.2), r) := by
  induction pairs generalizing ss with
  | nil => simp [countdown, encodePairs, commaSeparated]
  | cons kv pairs ih =>
      obtain ⟨k, v⟩ := kv
      obtain ⟨hk, hv⟩ := h (k, v) (by simp)
      have key := hk ss (encode v ++ (encodePairs pairs ++ r))
      have value := hv (ss ++ txt k ++ text ":") (encodePairs pairs ++ r)
      have tail := ih fun u hu => h u (by simp [hu])
      rw [List.length_cons, countdown, encodePairs, List.append_assoc, List.append_assoc,
        bind_assoc, bind_of_ok key, bind_assoc, bind_of_ok value, pure_bind, tail]
      cases pairs with
      | nil => simp [commaSeparated, text_colon]
      | cons u pairs =>
          obtain ⟨k', v'⟩ := u
          simp [commaSeparated, text_colon, text_comma]

theorem prints_array {items : List Value} (count : items.length < 2 ^ 64)
    (h : ∀ v ∈ items, ∀ ss r, toJsonStream toChars ss (encode v ++ r) = .ok (ss ++ txt v, r))
    (ss r : Bytes) :
    toJsonStream toChars ss (encode (.array items) ++ r) =
      .ok (ss ++ ([91] ++ commaSeparated (items.map txt) ++ [93]), r) := by
  have len : (UInt64.ofNat items.length).toNat = items.length := toNat_ofNat_register count
  obtain ⟨w, fits, eq⟩ := pushTypedVal_eq cborMagicTypeArray (UInt64.ofNat items.length)
  rw [len] at fits eq
  have argument := writing_argument fits ss (encodeItems items ++ r)
  have loop := prints_items toChars items h (ss ++ text "[") r
  rw [← len] at loop
  rw [encode, arrayHeader, eq, List.append_assoc, toJsonStream_header toChars (by decide) fits]
  change toJsonArray (toJsonStream toChars) _ ss _ = _
  rw [toJsonArray, bind_of_ok argument, bind_of_ok loop]
  simp [text_leftBracket, text_rightBracket]

theorem prints_map {pairs : List (Value × Value)} (count : pairs.length < 2 ^ 64)
    (h : ∀ kv ∈ pairs,
      (∀ ss r, toJsonStream toChars ss (encode kv.1 ++ r) = .ok (ss ++ txt kv.1, r)) ∧
        ∀ ss r, toJsonStream toChars ss (encode kv.2 ++ r) = .ok (ss ++ txt kv.2, r))
    (ss r : Bytes) :
    toJsonStream toChars ss (encode (.map pairs) ++ r) =
      .ok (ss ++ ([123] ++ commaSeparated (pairs.map fun kv => txt kv.1 ++ 58 :: txt kv.2) ++
        [125]), r) := by
  have len : (UInt64.ofNat pairs.length).toNat = pairs.length := toNat_ofNat_register count
  obtain ⟨w, fits, eq⟩ := pushTypedVal_eq cborMagicTypeMap (UInt64.ofNat pairs.length)
  rw [len] at fits eq
  have argument := writing_argument fits ss (encodePairs pairs ++ r)
  have loop := prints_pairs toChars pairs h (ss ++ [123]) r
  rw [← len] at loop
  rw [encode, mapHeader, eq, List.append_assoc, toJsonStream_header toChars (by decide) fits]
  change toJsonMap (toJsonStream toChars) _ ss _ = _
  rw [toJsonMap, bind_of_ok argument, bind_of_ok loop]
  simp

end Containers

theorem prints_bool (b : Bool) : Prints toChars (.bool b) := by
  intro ss r
  rw [encode, pushBool_eq, toJsonStream_header toChars (by decide) (by cases b <;> decide)]
  cases b <;> rfl

theorem prints_null : Prints toChars .null := by
  intro ss r
  rw [encode, pushNull_eq, toJsonStream_header toChars (by decide) (by decide)]
  rfl

theorem prints_jsonText (v : Value) (hv : v.All Value.Jsonable) : Prints toChars v := by
  induction v using Value.induction with
  | int i => exact prints_int toChars i
  | uint n => exact prints_uint toChars n
  | bool b => exact prints_bool toChars b
  | null => exact prints_null toChars
  | string s =>
      have short : s.length < 2 ^ 63 := hv
      exact prints_string toChars (by omega)
  | float _ | double _ => exact absurd hv (by simp [Value.All, Value.Jsonable])
  | array items ih =>
      intro ss r
      obtain ⟨count, all⟩ := hv
      rw [allItems_iff] at all
      have count : items.length < 2 ^ 63 := count
      rw [jsonText, jsonItems_eq]
      exact prints_array toChars (by omega) (fun v hv => ih v hv (all v hv)) ss r
  | map pairs ih =>
      intro ss r
      obtain ⟨count, all⟩ := hv
      rw [allPairs_iff] at all
      have count : pairs.length < 2 ^ 63 := count
      rw [jsonText, jsonPairs_eq]
      exact prints_map toChars (by omega)
        (fun kv hkv => ⟨(ih kv hkv).1 (all kv hkv).1, (ih kv hkv).2 (all kv hkv).2⟩) ss r

end Printer

end Thespian.Cbor
