import Thespian.Cbor.Extract
import Thespian.Decoding.Rounds

/-!
The loops of the decoder that reads over an item. The counters of the loops come
from the wire, and the count of a map is doubled; what ends a loop early is the
end of the input, for every round takes a byte or throws. So a call begins no more
rounds than there are bytes, all levels of nesting together.
-/

namespace Thespian.Cbor
open Decoding Decoding.Decoder

/-- The body of the loop in skip_string. -/
def skipByte : Reader Unit := do
  let _ ← next tooShort

namespace Counted

abbrev Reader := Counter DomainError UInt8

def skipString (type : UInt8) : Reader Unit := do
  let len ← count (decodePint type)
  roundsN (count skipByte) len.toNat

def skipBytes (type : UInt8) : Reader Unit := skipString type

def skipArray (skipValue : Reader Unit) (type : UInt8) : Reader Unit := do
  let len ← count (decodePint type)
  roundsN skipValue len.toNat

def skipMap (skipValue : Reader Unit) (type : UInt8) : Reader Unit := do
  let len ← count (decodePint type)
  let len := len * 2
  roundsN skipValue len.toNat

def skipValueType (skipValue : Reader Unit) (major minor : UInt8) : Reader Unit :=
  match major with
  | 0 => do let _ ← count (decodePint minor)
  | 1 => do let _ ← count (decodeNint minor)
  | 2 => skipBytes minor
  | 3 => skipString minor
  | 4 => skipArray skipValue minor
  | 5 => skipMap skipValue minor
  | 6 => count (throw ⟨text "cbor unsupported type tag"⟩)
  | 7 => if minor ≥ 24 then do let _ ← count (decodePint minor) else pure ()
  | _ => count (throw ⟨text "cbor unsupported type unknown"⟩)

def skipValueBody (skipValue : Reader Unit) : Reader Unit := do
  let (major, minor, _) ← count decodeType
  skipValueType skipValue major minor

def skipValue : Reader Unit := fix skipValueBody

def matchType : Reader (Option CborType) := do
  let (major, minor, type) ← count decodeType
  skipValueType skipValue major minor
  return typeOf major type

def extractRange : Reader (Option Bytes) := fun rounds s =>
  match matchType rounds s with
  | .ok ((some v, n), r) =>
      if v = .null ∨ v = .array ∨ v = .map then .ok ((some (s.take (s.length - r.length)), n), r)
      else .ok ((none, n), r)
  | .ok ((none, n), r) => .ok ((none, n), r)
  | .error e => .error e

end Counted

theorem advances_skipByte : Advances skipByte :=
  (advances_next tooShort).bind fun _ => shrinks_pure ()

theorem leaves_skipByte : Leaves skipByte :=
  (leaves_next tooShort).bind fun _ => leaves_pure ()

theorem leaves_decodeType : Leaves decodeType :=
  (leaves_next tooShort).bind fun _ => leaves_pure _

theorem leaves_decodeIntLengthRecurse (length : Nat) (i : UInt64) :
    Leaves (decodeIntLengthRecurse length i) := by
  induction length, i using decodeIntLengthRecurse.induct with
  | case1 i | case2 i => exact (leaves_next tooShort).bind fun _ => leaves_pure _
  | case3 length i ih => exact (leaves_next tooShort).bind fun b => ih b

theorem leaves_decodePint (type : UInt8) : Leaves (decodePint type) := by
  unfold decodePint decodeIntLength
  split
  · exact leaves_pure _
  · split
    all_goals first | exact leaves_decodeIntLengthRecurse _ _ | exact leaves_throw _

theorem leaves_decodeNint (type : UInt8) : Leaves (decodeNint type) :=
  (leaves_decodePint type).bind fun _ => leaves_pure _

namespace Counted

section Nested
variable {c c' : Reader Unit} {d : Cbor.Reader Unit}

theorem counts_decodePint (type : UInt8) {β : Type} {f : UInt64 → Reader β}
    {g : UInt64 → Cbor.Reader β} (h : ∀ len, Counts 0 (f len) (g len)) :
    Counts 0 (count (decodePint type) >>= f) (decodePint type >>= g) :=
  (leaves_decodePint type).counts.bind h

theorem counts_skipByte : Counts 1 (count skipByte) skipByte :=
  advances_skipByte.counts leaves_skipByte

theorem counts_skipValueType (h : Counts 1 c d) (major minor : UInt8) :
    Counts 0 (skipValueType c major minor) (Cbor.skipValueType d major minor) := by
  unfold skipValueType
  split
  · exact counts_decodePint minor fun _ => counts_pure ()
  · exact (leaves_decodeNint minor).counts.bind fun _ => counts_pure ()
  · exact counts_decodePint minor fun len => counts_skipByte.roundsN _
  · exact counts_decodePint minor fun len => counts_skipByte.roundsN _
  · exact counts_decodePint minor fun len => h.roundsN _
  · exact counts_decodePint minor fun len => h.roundsN _
  · exact counts_throw _
  · have simple : Cbor.skipValueType d 7 minor =
        if minor ≥ 24 then (do let _ ← decodePint minor) else pure () := rfl
    rw [simple]
    by_cases wide : minor ≥ 24
    · rw [if_pos wide, if_pos wide]
      exact counts_decodePint minor fun _ => counts_pure ()
    · rw [if_neg wide, if_neg wide]
      exact counts_pure ()
  · rw [Cbor.skipValueType]
    · exact counts_throw _
    all_goals assumption

theorem counts_decodeType {β : Type} {f : UInt8 × UInt8 × UInt8 → Reader β}
    {g : UInt8 × UInt8 × UInt8 → Cbor.Reader β} (h : ∀ header, Counts 0 (f header) (g header)) :
    Counts 1 (count decodeType >>= f) (decodeType >>= g) :=
  (advances_decodeType.counts leaves_decodeType).bind h

theorem counts_skipValue : Counts 1 skipValue Cbor.skipValue :=
  counts_fix (Nat.le_refl 1) fun _ _ h =>
    counts_decodeType fun header => counts_skipValueType h header.1 header.2.1

theorem shrinks_skipValueType (h : ∀ rounds, Shrinks (c rounds)) (major minor : UInt8) :
    ∀ rounds, Shrinks (skipValueType c major minor rounds) := by
  have pint {f : UInt64 → Reader Unit} (hf : ∀ len rounds, Shrinks (f len rounds)) :
      ∀ rounds, Shrinks ((count (decodePint minor) >>= f) rounds) :=
    shrinks_counter_bind (shrinks_count (shrinks_decodePint minor)) hf
  have bytes : ∀ rounds, Shrinks (count skipByte rounds) :=
    shrinks_count advances_skipByte.shrinks
  have nint : Shrinks (decodeNint minor) :=
    (shrinks_decodePint minor).bind fun _ => shrinks_pure _
  unfold skipValueType
  split
  · exact pint fun _ rounds => shrinks_pure _
  · exact shrinks_counter_bind (shrinks_count nint) fun _ rounds => shrinks_pure _
  · exact pint fun len => shrinks_roundsN bytes _
  · exact pint fun len => shrinks_roundsN bytes _
  · exact pint fun len => shrinks_roundsN h _
  · exact pint fun len => shrinks_roundsN h _
  · exact shrinks_count (shrinks_throw _)
  · split
    · exact pint fun _ rounds => shrinks_pure _
    · exact fun rounds => shrinks_pure _
  · exact shrinks_count (shrinks_throw _)

theorem agree_skipValueType {m : Nat} (hs : ∀ rounds, Shrinks (c rounds))
    (h : ∀ rounds, AgreeBelow m (c rounds) (c' rounds)) (major minor : UInt8) :
    ∀ rounds, AgreeBelow m (skipValueType c major minor rounds)
      (skipValueType c' major minor rounds) := by
  have pint {f f' : UInt64 → Reader Unit}
      (hf : ∀ len rounds, AgreeBelow m (f len rounds) (f' len rounds)) :
      ∀ rounds, AgreeBelow m ((count (decodePint minor) >>= f) rounds)
        ((count (decodePint minor) >>= f') rounds) :=
    agree_counter_bind (fun _ => .refl m _) (shrinks_count (shrinks_decodePint minor)) hf
  unfold skipValueType
  split
  case h_5 => exact pint fun len => agree_roundsN h hs _
  case h_6 => exact pint fun len => agree_roundsN h hs _
  all_goals exact fun _ => .refl m _

end Nested

/-- The counting reader satisfies the recursive equation of the source. -/
theorem skipValue_eq : skipValue = skipValueBody skipValue := by
  have guarded : Guarded skipValueBody :=
    guarded_counter advances_decodeType
      (fun _ hc header => shrinks_skipValueType hc header.1 header.2.1)
      fun _ _ _ hc h header => agree_skipValueType hc h header.1 header.2.1
  exact funext guarded.fix_eq

theorem counts_matchType : Counts 1 matchType Cbor.matchType :=
  counts_decodeType fun header =>
    (counts_skipValueType counts_skipValue header.1 header.2.1).bind fun _ => counts_pure _

theorem counts_extractRange : Counts 1 extractRange Cbor.extractRange := by
  intro rounds s
  unfold extractRange Cbor.extractRange
  cases run : Cbor.matchType s with
  | error e =>
      obtain ⟨n, counted, bound⟩ := counts_matchType.error run rounds
      exact ⟨n, by rw [counted], bound⟩
  | ok p =>
      obtain ⟨v, r⟩ := p
      obtain ⟨n, x, counted, split, bound⟩ := counts_matchType.ok run rounds
      rw [counted]
      cases v with
      | none => exact ⟨n, x, rfl, split, bound⟩
      | some v =>
          dsimp only
          by_cases framed : v = .null ∨ v = .array ∨ v = .map
          · rw [if_pos framed, if_pos framed]
            exact ⟨n, x, rfl, split, bound⟩
          · rw [if_neg framed, if_neg framed]
            exact ⟨n, x, rfl, split, bound⟩

end Counted

end Thespian.Cbor
