import Mathlib.Data.List.Basic

/-!
The CBOR buffer and its push operations. A buffer is its bytes; every push
operation is given by the bytes it appends, so that a chain of pushes is their
concatenation. Floating point values are pushed as their bit patterns.

Value trees are what a sequence of push operations can build: a container
header is followed by exactly the announced children.
-/

namespace Thespian.Cbor

abbrev Bytes := List UInt8

instance instLawfulBEqBytes : LawfulBEq Bytes := inferInstance

/-- The bytes of a source string literal. -/
def text (s : String) : Bytes := s.toList.map Char.toUInt8

/-- The library's only exception; what it says may quote wire bytes. -/
structure DomainError where
  what : Bytes
deriving DecidableEq, Inhabited

inductive CborType where
  | number
  | floating
  | bytes
  | string
  | array
  | map
  | tag
  | boolean
  | null
  | any
  | more
  | unknown
deriving DecidableEq

def cborMagicNull : UInt8 := 0xf6
def cborMagicTrue : UInt8 := 0xf5
def cborMagicFalse : UInt8 := 0xf4
def cborMagicFloat16 : UInt8 := 0xf9
def cborMagicFloat32 : UInt8 := 0xfa
def cborMagicFloat64 : UInt8 := 0xfb
def cborMagicTypeArray : Nat := 4
def cborMagicTypeMap : Nat := 5

def pushTypedVal (type : Nat) (value : UInt64) : Bytes :=
  let type := type <<< 5
  if value < 24 then
    [UInt8.ofNat (type ||| value.toNat)]
  else if value < 256 then
    [UInt8.ofNat (type ||| 24), value.toUInt8]
  else if value < 65536 then
    [UInt8.ofNat (type ||| 25), (value >>> 8).toUInt8, value.toUInt8]
  else if value < 4294967296 then
    [UInt8.ofNat (type ||| 26), (value >>> 24).toUInt8, (value >>> 16).toUInt8,
      (value >>> 8).toUInt8, value.toUInt8]
  else
    [UInt8.ofNat (type ||| 27), (value >>> 56).toUInt8, (value >>> 48).toUInt8,
      (value >>> 40).toUInt8, (value >>> 32).toUInt8, (value >>> 24).toUInt8,
      (value >>> 16).toUInt8, (value >>> 8).toUInt8, value.toUInt8]

def pushNull : Bytes := [cborMagicNull]

def pushBool (v : Bool) : Bytes := if v then [cborMagicTrue] else [cborMagicFalse]

def pushString (s : Bytes) : Bytes := pushTypedVal 3 (UInt64.ofNat s.length) ++ s

def pushInt (value : Int64) : Bytes :=
  if value < 0 then pushTypedVal 1 (-(value + 1)).toUInt64
  else pushTypedVal 0 value.toUInt64

def pushUint (value : UInt64) : Bytes := pushTypedVal 0 value

def pushFloat (bits : UInt32) : Bytes :=
  cborMagicFloat32 :: ([24, 16, 8, 0] : List UInt32).map fun shift => (bits >>> shift).toUInt8

def pushDouble (bits : UInt64) : Bytes :=
  cborMagicFloat64 ::
    ([56, 48, 40, 32, 24, 16, 8, 0] : List UInt64).map fun shift => (bits >>> shift).toUInt8

def arrayHeader (sz : UInt64) : Bytes := pushTypedVal cborMagicTypeArray sz

def mapHeader (sz : UInt64) : Bytes := pushTypedVal cborMagicTypeMap sz

inductive Value where
  | int (value : Int64)
  | uint (value : UInt64)
  | bool (value : Bool)
  | null
  | string (value : Bytes)
  | float (bits : UInt32)
  | double (bits : UInt64)
  | array (items : List Value)
  | map (pairs : List (Value × Value))

theorem Value.induction {P : Value → Prop}
    (int : ∀ i, P (.int i)) (uint : ∀ n, P (.uint n)) (bool : ∀ b, P (.bool b))
    (null : P .null) (string : ∀ s, P (.string s)) (float : ∀ bits, P (.float bits))
    (double : ∀ bits, P (.double bits))
    (array : ∀ items, (∀ v ∈ items, P v) → P (.array items))
    (map : ∀ pairs, (∀ kv ∈ pairs, P kv.1 ∧ P kv.2) → P (.map pairs)) (v : Value) : P v := by
  refine @Value.rec P (fun items => ∀ v ∈ items, P v)
    (fun pairs => ∀ kv ∈ pairs, P kv.1 ∧ P kv.2) (fun kv => P kv.1 ∧ P kv.2)
    int uint bool null string float double array map ?_ ?_ ?_ ?_ ?_ v
  · simp
  · intro head tail hhead htail v hv
    rcases List.mem_cons.mp hv with rfl | hv
    · exact hhead
    · exact htail v hv
  · simp
  · intro head tail hhead htail kv hkv
    rcases List.mem_cons.mp hkv with rfl | hkv
    · exact hhead
    · exact htail kv hkv
  · exact fun _ _ hk hv => ⟨hk, hv⟩

/-- The children of a map in the order in which they are pushed. -/
def pairItems (pairs : List (Value × Value)) : List Value :=
  pairs.flatMap fun kv => [kv.1, kv.2]

mutual
def encode : Value → Bytes
  | .int i => pushInt i
  | .uint n => pushUint n
  | .bool b => pushBool b
  | .null => pushNull
  | .string s => pushString s
  | .float bits => pushFloat bits
  | .double bits => pushDouble bits
  | .array items => arrayHeader (UInt64.ofNat items.length) ++ encodeItems items
  | .map pairs => mapHeader (UInt64.ofNat pairs.length) ++ encodePairs pairs
def encodeItems : List Value → Bytes
  | [] => []
  | v :: items => encode v ++ encodeItems items
def encodePairs : List (Value × Value) → Bytes
  | [] => []
  | (k, v) :: pairs => encode k ++ encode v ++ encodePairs pairs
end

theorem encodeItems_eq (items : List Value) : encodeItems items = (items.map encode).flatten := by
  induction items with
  | nil => rfl
  | cons v items ih => simp [encodeItems, ih]

theorem encodePairs_eq (pairs : List (Value × Value)) :
    encodePairs pairs = encodeItems (pairItems pairs) := by
  induction pairs with
  | nil => rfl
  | cons kv pairs ih =>
      obtain ⟨k, v⟩ := kv
      simp [encodePairs, pairItems, encodeItems, ih]

theorem pairItems_length (pairs : List (Value × Value)) :
    (pairItems pairs).length = 2 * pairs.length := by
  induction pairs with
  | nil => rfl
  | cons kv pairs ih =>
      simp only [pairItems, List.flatMap_cons, List.length_append, List.length_cons,
        List.length_nil] at ih ⊢
      omega

/-- `array(vs...)`: without arguments the overload that pushes null is chosen. -/
def array : List Value → Bytes
  | [] => pushNull
  | vs => arrayHeader (UInt64.ofNat vs.length) ++ encodeItems vs

mutual
/-- Every string length and container count in the tree fits the bound. -/
def Value.Sized (bound : Nat) : Value → Prop
  | .string s => s.length < bound
  | .array items => items.length < bound ∧ SizedItems bound items
  | .map pairs => pairs.length < bound ∧ SizedPairs bound pairs
  | _ => True
def SizedItems (bound : Nat) : List Value → Prop
  | [] => True
  | v :: items => v.Sized bound ∧ SizedItems bound items
def SizedPairs (bound : Nat) : List (Value × Value) → Prop
  | [] => True
  | (k, v) :: pairs => k.Sized bound ∧ v.Sized bound ∧ SizedPairs bound pairs
end

theorem sizedItems_iff (bound : Nat) (items : List Value) :
    SizedItems bound items ↔ ∀ v ∈ items, v.Sized bound := by
  induction items with
  | nil => simp [SizedItems]
  | cons v items ih => simp [SizedItems, ih]

theorem sizedPairs_iff (bound : Nat) (pairs : List (Value × Value)) :
    SizedPairs bound pairs ↔ ∀ v ∈ pairItems pairs, v.Sized bound := by
  induction pairs with
  | nil => simp [SizedPairs, pairItems]
  | cons kv pairs ih =>
      obtain ⟨k, v⟩ := kv
      simp only [SizedPairs, ih, pairItems, List.flatMap_cons]
      simp

end Thespian.Cbor
