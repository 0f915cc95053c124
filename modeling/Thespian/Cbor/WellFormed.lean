import Thespian.Cbor.Iterate
import Thespian.Cbor.SelfDelimiting

/-!
The well-formed data items of the format, as far as this codec supports them: items of
definite length in headers of any width, without tags. The decoders read each of them
completely; the framing takes a null, an array or a map and refuses every other.
-/

namespace Thespian.Cbor
open Decoding Decoding.Decoder

inductive WellFormed : Bytes → Prop
  | int {major n : Nat} {w : Width} (integer : major < 2) (fits : w.Fits n) :
      WellFormed (header major w n)
  | string {major n : Nat} {w : Width} (kind : major = 2 ∨ major = 3) (fits : w.Fits n)
      (s : Bytes) (len : s.length = n) : WellFormed (header major w n ++ s)
  | array {w : Width} (items : List Bytes) (fits : w.Fits items.length)
      (all : ∀ x ∈ items, WellFormed x) : WellFormed (header 4 w items.length ++ items.flatten)
  | map {n : Nat} {w : Width} (items : List Bytes) (fits : w.Fits n)
      (len : items.length = 2 * n) (all : ∀ x ∈ items, WellFormed x) :
      WellFormed (header 5 w n ++ items.flatten)
  /-- The simple values below 32 have no form of two bytes. -/
  | special {n : Nat} {w : Width} (fits : w.Fits n) (valid : w = .one → 32 ≤ n) :
      WellFormed (header 7 w n)

/-- An array, a map or null. -/
def IsMessage : Bytes → Prop
  | [] => False
  | type :: _ => type >>> 5 = 4 ∨ type >>> 5 = 5 ∨ type = 0xf6

instance : DecidablePred IsMessage
  | [] => inferInstanceAs (Decidable False)
  | type :: _ => inferInstanceAs (Decidable (type >>> 5 = 4 ∨ type >>> 5 = 5 ∨ type = 0xf6))

theorem header_length_pos (major : Nat) (w : Width) (n : Nat) : 0 < (header major w n).length := by
  rw [header, List.length_cons]
  omega

namespace WellFormed
variable {x : Bytes}

theorem length_pos (h : WellFormed x) : 0 < x.length := by
  cases h with
  | int | special => exact header_length_pos _ _ _
  | string | array | map =>
      rw [List.length_append]
      exact Nat.lt_of_lt_of_le (header_length_pos _ _ _) (Nat.le_add_right _ _)

theorem reads (h : WellFormed x) (sized : x.length < 2 ^ 64) : Reads skipValue x () := by
  induction h with
  | int integer fits => exact reads_skip_int integer fits
  | string kind fits s len => exact reads_skip_string kind s fits len
  | special fits => exact reads_skip_special fits
  | array items fits all ih =>
      refine reads_skip_items fits items ?_ (.inl ⟨rfl, rfl⟩)
      intro x member
      have part := List.Sublist.length_le (List.sublist_flatten_of_mem member)
      rw [List.length_append] at sized
      exact ih x member (by omega)
  | map items fits len all ih =>
      rw [List.length_append] at sized
      have few := length_le_flatten items fun x member => List.length_pos_iff.mp (all x member).length_pos
      refine reads_skip_items fits items ?_ (.inr ⟨rfl, len, by omega⟩)
      intro x member
      have part := List.Sublist.length_le (List.sublist_flatten_of_mem member)
      exact ih x member (by omega)

end WellFormed

/-- The initial byte of a tag, or one with a reserved argument. -/
def Unsupported (type : UInt8) : Prop := type >>> 5 = 6 ∨ 28 ≤ type &&& 31

instance : DecidablePred Unsupported := fun type =>
  inferInstanceAs (Decidable (type >>> 5 = 6 ∨ 28 ≤ type &&& 31))

theorem header_supported {major n : Nat} {w : Width} (small : major < 8) (tag : major ≠ 6)
    (fits : w.Fits n) : ∃ type rest, header major w n = type :: rest ∧ ¬ Unsupported type := by
  refine ⟨_, _, rfl, ?_⟩
  have info : w.info n < 28 := by
    cases w <;> simp only [Width.info, Width.Fits] at fits ⊢ <;> omega
  have all : ∀ (major : Fin 8) (info : Fin 28), major.val ≠ 6 →
      ¬ Unsupported (UInt8.ofNat (major.val <<< 5 ||| info.val)) := by
    decide +kernel
  exact all ⟨major, small⟩ ⟨w.info n, info⟩ tag

theorem WellFormed.supported {x : Bytes} (h : WellFormed x) :
    ∃ type rest, x = type :: rest ∧ ¬ Unsupported type := by
  have extended {major n : Nat} {w : Width} (small : major < 8) (tag : major ≠ 6) (fits : w.Fits n)
      (s : Bytes) : ∃ type rest, header major w n ++ s = type :: rest ∧ ¬ Unsupported type := by
    obtain ⟨type, rest, eq, supported⟩ := header_supported small tag fits
    exact ⟨type, rest ++ s, by rw [eq, List.cons_append], supported⟩
  cases h with
  | int integer fits => exact header_supported (by omega) (by omega) fits
  | string kind fits s len => exact extended (by omega) (by omega) fits s
  | array items fits all => exact extended (by decide) (by decide) fits _
  | map items fits len all => exact extended (by decide) (by decide) fits _
  | special fits valid => exact header_supported (by decide) (by decide) fits

theorem decodePint_reserved {minor : UInt8} (reserved : 28 ≤ minor) (s : Bytes) :
    decodePint minor s = .error ⟨text "cbor invalid integer type"⟩ := by
  unfold decodePint
  have large : ¬ minor < 24 := by
    rw [UInt8.lt_iff_toNat_lt]
    rw [UInt8.le_iff_toNat_le] at reserved
    have bound : (28 : UInt8).toNat = 28 := rfl
    have bound' : (24 : UInt8).toNat = 24 := rfl
    omega
  rw [if_neg large]
  split
  case h_1 | h_2 | h_3 | h_4 => exact absurd reserved (by decide)
  case h_5 => rfl

/-- The decoder throws at such a byte, as it does at the end of its input. -/
theorem skipValue_unsupported {type : UInt8} (unsupported : Unsupported type) (s : Bytes) :
    ∃ e, skipValue (type :: s) = .error e := by
  rw [skipValue_cons]
  rcases unsupported with tag | reserved
  · rw [tag]
    exact ⟨_, rfl⟩
  · generalize type >>> 5 = major
    generalize type &&& 31 = minor at reserved ⊢
    have unread := decodePint_reserved reserved s
    have large : minor ≥ 24 := UInt8.le_trans (by decide) reserved
    unfold skipValueType
    split
    · exact ⟨_, bind_of_error unread _⟩
    · exact ⟨_, bind_of_error (bind_of_error unread _) _⟩
    · exact ⟨_, bind_of_error unread _⟩
    · exact ⟨_, bind_of_error unread _⟩
    · exact ⟨_, bind_of_error unread _⟩
    · exact ⟨_, bind_of_error unread _⟩
    · exact ⟨_, rfl⟩
    · rw [if_pos large]
      exact ⟨_, bind_of_error unread _⟩
    · exact ⟨_, rfl⟩

theorem typeOf_message (type : UInt8) :
    (typeOf (type >>> 5) type = some .null ∨ typeOf (type >>> 5) type = some .array ∨
      typeOf (type >>> 5) type = some .map) ↔
      type >>> 5 = 4 ∨ type >>> 5 = 5 ∨ type = 0xf6 := by
  have all : ∀ n : Fin 256,
      (typeOf (UInt8.ofNat n >>> 5) (UInt8.ofNat n) = some .null ∨
        typeOf (UInt8.ofNat n >>> 5) (UInt8.ofNat n) = some .array ∨
        typeOf (UInt8.ofNat n >>> 5) (UInt8.ofNat n) = some .map) ↔
        UInt8.ofNat n >>> 5 = 4 ∨ UInt8.ofNat n >>> 5 = 5 ∨ UInt8.ofNat n = 0xf6 := by
    decide +kernel
  have this := all ⟨type.toNat, type.toNat_lt⟩
  rwa [UInt8.ofNat_toNat] at this

/-- The framing tells the items of the message types from the others. -/
theorem WellFormed.extractRange {x : Bytes} (h : WellFormed x) (sized : x.length < 2 ^ 64) :
    Reads extractRange x (if IsMessage x then some x else none) := by
  intro r
  have skipped := h.reads sized r
  cases x with
  | nil => exact absurd h.length_pos (Nat.lt_irrefl 0)
  | cons type rest =>
      rw [List.cons_append, skipValue_cons] at skipped
      have typed : matchType (type :: (rest ++ r)) = .ok (typeOf (type >>> 5) type, r) := by
        rw [matchType, bind_of_ok (decodeType_cons type _)]
        exact bind_of_ok skipped _
      have kinds := typeOf_message type
      have item : (type :: (rest ++ r)).take ((type :: (rest ++ r)).length - r.length) =
          type :: rest := by
        rw [← List.cons_append, List.length_append, Nat.add_sub_cancel, List.take_left]
      rw [List.cons_append, Cbor.extractRange, typed]
      cases found : typeOf (type >>> 5) type with
      | none =>
          rw [found] at kinds
          have other : ¬ IsMessage (type :: rest) := fun message => by simpa using kinds.mpr message
          rw [if_neg other]
      | some v =>
          rw [found] at kinds
          simp only [Option.some.injEq] at kinds
          dsimp only
          rw [item]
          by_cases framed : v = .null ∨ v = .array ∨ v = .map
          · have message : IsMessage (type :: rest) := kinds.mp framed
            rw [if_pos framed, if_pos message]
          · have other : ¬ IsMessage (type :: rest) := fun message => framed (kinds.mpr message)
            rw [if_neg framed, if_neg other]

end Thespian.Cbor
