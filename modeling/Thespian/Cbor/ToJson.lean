import Thespian.Cbor.Extract
import Mathlib.Data.Nat.Digits.Defs

/-!
The JSON printer. It is a second decoder of the wire format, independent of the
skipper: strings are taken as views, map counts are counted in pairs and simple
values are told apart. The stream written so far is passed along, and an
exception carries what had been written when it was thrown. The shortest text of
a finite double is a parameter, as the standard library computes it.
-/

namespace Thespian.Cbor
open Decoding Decoding.Decoder

abbrev Printer := Decoder (DomainError × Bytes) UInt8

/-- A read that throws while the stream has the given contents. -/
def writing {α : Type} (ss : Bytes) (d : Reader α) : Printer α := mapError (·, ss) d

def digit (d : Nat) : UInt8 := UInt8.ofNat (48 + d)

def decimal (n : Nat) : Bytes :=
  if n = 0 then [digit 0] else (Nat.digits 10 n).reverse.map digit

def signedDecimal (i : Int) : Bytes :=
  if i < 0 then 45 :: decimal i.natAbs else decimal i.natAbs

def hexDigit (d : UInt8) : UInt8 := if d < 10 then 48 + d else 87 + d

def tohex (v : UInt8) : Bytes := [hexDigit (v >>> 4), hexDigit (v &&& 15)]

def escape (c : UInt8) : Bytes :=
  match c with
  | 8 => text "\\b"
  | 12 => text "\\f"
  | 10 => text "\\n"
  | 13 => text "\\r"
  | 9 => text "\\t"
  | 92 => text "\\\\"
  | 34 => text "\\\""
  | c => if c ≤ 0x1f then text "\\u00" ++ tohex c else [c]

/-- `to_json(ostream &, string_view)` -/
def toJsonString (s : Bytes) : Bytes := [34] ++ s.flatMap escape ++ [34]

section Printer
variable (toChars : Float → Bytes)

def floatToJson (v : Float) : Bytes :=
  if !v.isFinite then text "null"
  else
    let str := toChars v
    if str.any fun c => c = 46 ∨ c = 101 then str else str ++ text ".0"

def toJsonArray (toJsonStream : Bytes → Printer Bytes) (minor : UInt8) (ss : Bytes) :
    Printer Bytes := do
  let i ← writing ss (decodePint minor)
  let ss ← countdown (fun i ss => do
    let ss ← toJsonStream ss
    return if i ≠ 0 then ss ++ text "," else ss) i.toNat (ss ++ text "[")
  return ss ++ text "]"

def toJsonMap (toJsonStream : Bytes → Printer Bytes) (minor : UInt8) (ss : Bytes) :
    Printer Bytes := do
  let i ← writing ss (decodePint minor)
  let ss ← countdown (fun i ss => do
    let ss ← toJsonStream ss
    let ss ← toJsonStream (ss ++ text ":")
    return if i ≠ 0 then ss ++ text "," else ss) i.toNat (ss ++ [123])
  return ss ++ [125]

def toJsonSpecial (type : UInt8) (ss : Bytes) : Printer Bytes :=
  if type = 0xf4 then pure (ss ++ text "false")
  else if type = 0xf5 then pure (ss ++ text "true")
  else if type = 0xf6 then pure (ss ++ text "null")
  else if isFloatType type then do
    let v ← writing ss (decodeFloat type)
    return ss ++ floatToJson toChars v
  else throw (⟨text "cbor unsupported simple value"⟩, ss)

/-- The switch of to_json_stream over the major type. -/
def toJsonType (toJsonStream : Bytes → Printer Bytes) (major minor type : UInt8)
    (ss : Bytes) : Printer Bytes :=
  match major with
  | 0 => do
      let i ← writing ss (decodePint minor)
      return ss ++ decimal i.toNat
  | 1 => do
      let i ← writing ss (decodeNint minor)
      return ss ++ signedDecimal i.toInt
  | 2 => do
      let v ← writing ss (decodeBytes minor)
      return ss ++ toJsonString v
  | 3 => do
      let v ← writing ss (decodeString minor)
      return ss ++ toJsonString v
  | 4 => toJsonArray toJsonStream minor ss
  | 5 => toJsonMap toJsonStream minor ss
  | 6 => throw (⟨text "cbor unsupported type tag"⟩, ss)
  | 7 => toJsonSpecial toChars type ss
  | _ => throw (⟨text "cbor unsupported type unknown"⟩, ss)

def toJsonStreamBody (toJsonStream : Bytes → Printer Bytes) (ss : Bytes) : Printer Bytes := do
  let (major, minor, type) ← writing ss decodeType
  toJsonType toChars toJsonStream major minor type ss

def toJsonStream (ss : Bytes) : Printer Bytes := fix (toJsonStreamBody toChars) ss

/-- `buffer::to_json` -/
def toJson (buf : Bytes) : Except DomainError Bytes :=
  match toJsonStream toChars [] buf with
  | .ok (ss, _) => .ok ss
  | .error (e, ss) =>
      .error ⟨text "cbor to json failed: " ++ e.what ++ text "\nafter:\n" ++ ss⟩

end Printer

theorem shrinks_decodeString (minor : UInt8) : Shrinks (decodeString minor) :=
  (shrinks_decodePint minor).bind fun _ => shrinks_takeN _ _

theorem shrinks_decodeFloat (type : UInt8) : Shrinks (decodeFloat type) := by
  unfold decodeFloat decodeIntLength
  split
  · exact (shrinks_decodeIntLengthRecurse _ _).bind fun _ => shrinks_pure _
  · split
    · exact (shrinks_decodeIntLengthRecurse _ _).bind fun _ => shrinks_pure _
    · split
      · exact (shrinks_decodeIntLengthRecurse _ _).bind fun _ => shrinks_pure _
      · exact shrinks_throw _

section Guarded
variable (toChars : Float → Bytes)

theorem shrinks_toJsonSpecial (type : UInt8) (ss : Bytes) :
    Shrinks (toJsonSpecial toChars type ss) := by
  unfold toJsonSpecial
  split
  · exact shrinks_pure _
  · split
    · exact shrinks_pure _
    · split
      · exact shrinks_pure _
      · split
        · exact ((shrinks_decodeFloat type).mapError _).bind fun _ => shrinks_pure _
        · exact shrinks_throw _

theorem shrinks_toJsonType {print : Bytes → Printer Bytes} (h : ∀ ss, Shrinks (print ss))
    (major minor type : UInt8) (ss : Bytes) :
    Shrinks (toJsonType toChars print major minor type ss) := by
  have argument := (shrinks_decodePint minor).mapError (·, ss)
  unfold toJsonType
  split
  · exact argument.bind fun _ => shrinks_pure _
  · exact (((shrinks_decodePint minor).bind fun _ => shrinks_pure _).mapError _).bind
      fun _ => shrinks_pure _
  · exact ((shrinks_decodeString minor).mapError _).bind fun _ => shrinks_pure _
  · exact ((shrinks_decodeString minor).mapError _).bind fun _ => shrinks_pure _
  · exact argument.bind fun _ =>
      (Shrinks.countdown (fun i ss => (h ss).bind fun _ => shrinks_pure _) _ _).bind
        fun _ => shrinks_pure _
  · exact argument.bind fun _ =>
      (Shrinks.countdown (fun i ss => (h ss).bind fun _ => (h _).bind fun _ => shrinks_pure _)
        _ _).bind fun _ => shrinks_pure _
  · exact shrinks_throw _
  · exact shrinks_toJsonSpecial toChars type ss
  · exact shrinks_throw _

theorem agree_toJsonType {n : Nat} {print print' : Bytes → Printer Bytes}
    (h : ∀ ss, AgreeBelow n (print ss) (print' ss)) (hs : ∀ ss, Shrinks (print ss))
    (major minor type : UInt8) (ss : Bytes) :
    AgreeBelow n (toJsonType toChars print major minor type ss)
      (toJsonType toChars print' major minor type ss) := by
  have argument := (shrinks_decodePint minor).mapError (·, ss)
  unfold toJsonType
  split
  case h_5 =>
    have step (i : Nat) (ss : Bytes) : Shrinks (do
        let ss ← print ss
        return if i ≠ 0 then ss ++ text "," else ss) := (hs ss).bind fun _ => shrinks_pure _
    refine (AgreeBelow.refl n _).bind argument fun len => ?_
    refine (AgreeBelow.countdown (fun i ss => ?_) step _ _).bind
      (Shrinks.countdown step _ _) fun _ => .refl n _
    exact (h ss).bind (hs ss) fun _ => .refl n _
  case h_6 =>
    have step (i : Nat) (ss : Bytes) : Shrinks (do
        let ss ← print ss
        let ss ← print (ss ++ text ":")
        return if i ≠ 0 then ss ++ text "," else ss) :=
      (hs ss).bind fun _ => (hs _).bind fun _ => shrinks_pure _
    refine (AgreeBelow.refl n _).bind argument fun len => ?_
    refine (AgreeBelow.countdown (fun i ss => ?_) step _ _).bind
      (Shrinks.countdown step _ _) fun _ => .refl n _
    exact (h ss).bind (hs ss) fun _ => (h _).bind (hs _) fun _ => .refl n _
  all_goals exact .refl n _

theorem guarded_toJsonStreamBody : Guarded (toJsonStreamBody toChars) where
  shrinks := fun _ hd ss =>
    (advances_decodeType.mapError _).shrinks.bind fun _ =>
      shrinks_toJsonType toChars hd _ _ _ ss
  agree := fun _ _ _ hd _ h ss =>
    .guard (advances_decodeType.mapError _) fun _ => agree_toJsonType toChars h hd _ _ _ ss

theorem toJsonStream_eq (ss : Bytes) : toJsonStream toChars ss = (do
    let (major, minor, type) ← writing ss decodeType
    toJsonType toChars (toJsonStream toChars) major minor type ss) :=
  (guarded_toJsonStreamBody toChars).fix_eq ss

theorem toJsonStream_cons (ss : Bytes) (type : UInt8) (s : Bytes) :
    toJsonStream toChars ss (type :: s) =
      toJsonType toChars (toJsonStream toChars) (type >>> 5) (type &&& 31) type ss s := by
  have head : writing ss decodeType (type :: s) = _ :=
    (mapError_eq_ok _).mpr (decodeType_cons type s)
  rw [congrFun (toJsonStream_eq toChars ss) (type :: s), bind_of_ok head]

theorem toJsonStream_nil (ss : Bytes) : toJsonStream toChars ss [] = .error (tooShort, ss) := rfl

theorem advances_toJsonStream (ss : Bytes) : Advances (toJsonStream toChars ss) := by
  rw [toJsonStream_eq]
  exact (advances_decodeType.mapError _).bind fun _ =>
    shrinks_toJsonType toChars ((guarded_toJsonStreamBody toChars).fix_shrinks) _ _ _ ss

end Guarded

end Thespian.Cbor
