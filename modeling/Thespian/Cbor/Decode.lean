import Thespian.Cbor.Buffer
import Thespian.Decoding.Recursion

/-!
The decoder of the CBOR library. An iterator pair is the list of bytes still to
be read. The functions that read nested items take the reader for one item as an
argument; skipValue ties the knot. Machine integers are kept at their width, so
that the doubled item count of a map wraps as it does in the source.
-/

namespace Thespian.Cbor
open Decoding Decoding.Decoder

abbrev Reader := Decoder DomainError UInt8

def tooShort : DomainError := ⟨text "cbor message too short"⟩

/-- The source calls this with a length of at least one; the accumulator has the
bits of the signed integer used there. -/
def decodeIntLengthRecurse : Nat → UInt64 → Reader UInt64
  | 0, i => do
      let b ← next tooShort
      return i ||| b.toUInt64
  | 1, i => do
      let b ← next tooShort
      return i ||| b.toUInt64
  | length + 2, i => do
      let b ← next tooShort
      decodeIntLengthRecurse (length + 1) ((i ||| b.toUInt64) <<< 8)

def decodeIntLength (length : Nat) : Reader UInt64 := decodeIntLengthRecurse length 0

def decodePint (type : UInt8) : Reader UInt64 :=
  if type < 24 then pure type.toUInt64
  else match type with
    | 24 => decodeIntLength 1
    | 25 => decodeIntLength 2
    | 26 => decodeIntLength 4
    | 27 => decodeIntLength 8
    | _ => throw ⟨text "cbor invalid integer type"⟩

def decodeNint (type : UInt8) : Reader Int64 := do
  let n ← decodePint type
  return (-(n + 1)).toInt64

def decodeString (type : UInt8) : Reader Bytes := do
  let len ← decodePint type
  takeN tooShort len.toNat

def decodeBytes (type : UInt8) : Reader Bytes := decodeString type

/-- The major type, the additional information and the whole initial byte. -/
def decodeType : Reader (UInt8 × UInt8 × UInt8) := do
  let type ← next tooShort
  return (type >>> 5, type &&& 31, type)

def decodeRangeHeader : Reader UInt64 := do
  let (major, minor, type) ← decodeType
  if type = 0xf6 then
    return 0
  let sz ← decodePint minor
  match major with
  | 4 => return sz
  | 5 => return sz * 2
  | _ => throw ⟨text "cbor unexpected type (expected array or map)"⟩

def decodeArrayHeader : Reader UInt64 := do
  let (major, minor, type) ← decodeType
  if type = 0xf6 then
    return 0
  if major ≠ 4 then
    throw ⟨text "cbor unexpected type (expected array)"⟩
  decodePint minor

def decodeMapHeader : Reader UInt64 := do
  let (major, minor, type) ← decodeType
  if type = 0xf6 then
    return 0
  if major ≠ 5 then
    throw ⟨text "cbor unexpected type (expected map)"⟩
  decodePint minor

def skipString (type : UInt8) : Reader Unit := do
  let len ← decodePint type
  repeatN (do let _ ← next tooShort) len.toNat

def skipBytes (type : UInt8) : Reader Unit := skipString type

def skipArray (skipValue : Reader Unit) (type : UInt8) : Reader Unit := do
  let len ← decodePint type
  repeatN skipValue len.toNat

def skipMap (skipValue : Reader Unit) (type : UInt8) : Reader Unit := do
  let len ← decodePint type
  let len := len * 2
  repeatN skipValue len.toNat

def skipValueType (skipValue : Reader Unit) (major minor : UInt8) : Reader Unit :=
  match major with
  | 0 => do let _ ← decodePint minor
  | 1 => do let _ ← decodeNint minor
  | 2 => skipBytes minor
  | 3 => skipString minor
  | 4 => skipArray skipValue minor
  | 5 => skipMap skipValue minor
  | 6 => throw ⟨text "cbor unsupported type tag"⟩
  | 7 => if minor ≥ 24 then do let _ ← decodePint minor else pure ()
  | _ => throw ⟨text "cbor unsupported type unknown"⟩

def skipValueBody (skipValue : Unit → Reader Unit) : Unit → Reader Unit := fun _ => do
  let (major, minor, _) ← decodeType
  skipValueType (skipValue ()) major minor

def skipValue : Reader Unit := fix skipValueBody ()

def isFloatType (type : UInt8) : Bool :=
  type = cborMagicFloat16 || type = cborMagicFloat32 || type = cborMagicFloat64

/-- The switch that ends match_type; none is its false return. -/
def typeOf (major type : UInt8) : Option CborType :=
  match major with
  | 0 | 1 => some .number
  | 2 => some .bytes
  | 3 => some .string
  | 4 => some .array
  | 5 => some .map
  | 7 =>
      if type = 0xf6 then some .null
      else if type = 0xf4 ∨ type = 0xf5 then some .boolean
      else if isFloatType type then some .floating
      else some .unknown
  | _ => none

def matchType : Reader (Option CborType) := do
  let (major, minor, type) ← decodeType
  skipValueType skipValue major minor
  return typeOf major type

/-- `match_value(type)` -/
def matchValueType (t : CborType) : Reader Bool := do
  match ← matchType with
  | some v => if t = .any then return true else return t = v
  | none => return false

theorem advances_decodeType : Advances decodeType :=
  (advances_next tooShort).bind fun _ => shrinks_pure _

theorem decodeType_nil : decodeType [] = .error tooShort := rfl

theorem decodeType_cons (type : UInt8) (s : Bytes) :
    decodeType (type :: s) = .ok ((type >>> 5, type &&& 31, type), s) := rfl

theorem shrinks_decodeIntLengthRecurse (length : Nat) (i : UInt64) :
    Shrinks (decodeIntLengthRecurse length i) := by
  induction length, i using decodeIntLengthRecurse.induct with
  | case1 i | case2 i =>
      exact (advances_next tooShort).shrinks.bind fun _ => shrinks_pure _
  | case3 length i ih =>
      exact (advances_next tooShort).shrinks.bind fun b => ih b

theorem shrinks_decodePint (type : UInt8) : Shrinks (decodePint type) := by
  unfold decodePint decodeIntLength
  split
  · exact shrinks_pure _
  · split
    all_goals first | exact shrinks_decodeIntLengthRecurse _ _ | exact shrinks_throw _

theorem stable_decodeIntLengthRecurse (length : Nat) (i : UInt64) :
    Stable (decodeIntLengthRecurse length i) := by
  induction length, i using decodeIntLengthRecurse.induct with
  | case1 i | case2 i => exact (stable_next tooShort).bind fun _ => stable_pure _
  | case3 length i ih => exact (stable_next tooShort).bind fun b => ih b

theorem stable_decodePint (type : UInt8) : Stable (decodePint type) := by
  unfold decodePint decodeIntLength
  split
  · exact stable_pure _
  · split
    all_goals first | exact stable_decodeIntLengthRecurse _ _ | exact stable_throw _

theorem shrinks_skipValueType {skip : Reader Unit} (h : Shrinks skip) (major minor : UInt8) :
    Shrinks (skipValueType skip major minor) := by
  unfold skipValueType
  have ignored {α : Type} (a : α) : Shrinks (pure () : Reader Unit) := shrinks_pure ()
  split
  · exact (shrinks_decodePint minor).bind ignored
  · exact ((shrinks_decodePint minor).bind fun _ => shrinks_pure _).bind ignored
  · exact (shrinks_decodePint minor).bind fun len =>
      ((advances_next tooShort).shrinks.bind ignored).repeatN _
  · exact (shrinks_decodePint minor).bind fun len =>
      ((advances_next tooShort).shrinks.bind ignored).repeatN _
  · exact (shrinks_decodePint minor).bind fun len => h.repeatN _
  · exact (shrinks_decodePint minor).bind fun len => h.repeatN _
  · exact shrinks_throw _
  · split
    · exact (shrinks_decodePint minor).bind ignored
    · exact shrinks_pure ()
  · exact shrinks_throw _

theorem agree_skipValueType {n : Nat} {skip skip' : Reader Unit} (h : AgreeBelow n skip skip')
    (hs : Shrinks skip) (major minor : UInt8) :
    AgreeBelow n (skipValueType skip major minor) (skipValueType skip' major minor) := by
  unfold skipValueType
  split
  case h_5 =>
    exact (AgreeBelow.refl n (decodePint minor)).bind (shrinks_decodePint minor) fun len =>
      h.repeatN hs _
  case h_6 =>
    exact (AgreeBelow.refl n (decodePint minor)).bind (shrinks_decodePint minor) fun len =>
      h.repeatN hs _
  all_goals exact .refl n _

theorem guarded_skipValueBody : Guarded skipValueBody where
  shrinks := fun _ hd _ =>
    advances_decodeType.shrinks.bind fun _ => shrinks_skipValueType (hd ()) _ _
  agree := fun _ _ _ hd _ h _ =>
    .guard advances_decodeType fun _ => agree_skipValueType (h ()) (hd ()) _ _

theorem skipValue_eq : skipValue = (do
    let (major, minor, _) ← decodeType
    skipValueType skipValue major minor) :=
  guarded_skipValueBody.fix_eq ()

theorem skipValue_cons (type : UInt8) (s : Bytes) :
    skipValue (type :: s) = skipValueType skipValue (type >>> 5) (type &&& 31) s := by
  rw [congrFun skipValue_eq (type :: s), bind_of_ok (decodeType_cons type s)]

theorem advances_skipValue : Advances skipValue := by
  rw [skipValue_eq]
  exact advances_decodeType.bind fun _ =>
    shrinks_skipValueType (guarded_skipValueBody.fix_shrinks ()) _ _

theorem stable_decodeType : Stable decodeType :=
  (stable_next tooShort).bind fun _ => stable_pure _

theorem stable_skipValueType {skip : Reader Unit} (h : Stable skip) (major minor : UInt8) :
    Stable (skipValueType skip major minor) := by
  unfold skipValueType
  have ignored {α : Type} (a : α) : Stable (pure () : Reader Unit) := stable_pure ()
  split
  · exact (stable_decodePint minor).bind ignored
  · exact ((stable_decodePint minor).bind fun _ => stable_pure _).bind ignored
  · exact (stable_decodePint minor).bind fun len =>
      ((stable_next tooShort).bind ignored).repeatN _
  · exact (stable_decodePint minor).bind fun len =>
      ((stable_next tooShort).bind ignored).repeatN _
  · exact (stable_decodePint minor).bind fun len => h.repeatN _
  · exact (stable_decodePint minor).bind fun len => h.repeatN _
  · exact stable_throw _
  · split
    · exact (stable_decodePint minor).bind ignored
    · exact stable_pure ()
  · exact stable_throw _

theorem stable_skipValue : Stable skipValue :=
  guarded_skipValueBody.fix_stable
    (fun _ hd _ => stable_decodeType.bind fun _ => stable_skipValueType (hd ()) _ _) ()

theorem stable_matchType : Stable matchType :=
  stable_decodeType.bind fun _ =>
    (stable_skipValueType stable_skipValue _ _).bind fun _ => stable_pure _

theorem stable_matchValueType (t : CborType) : Stable (matchValueType t) := by
  refine stable_matchType.bind fun v => ?_
  cases v with
  | none => exact stable_pure _
  | some v =>
      dsimp only
      split <;> exact stable_pure _

end Thespian.Cbor
