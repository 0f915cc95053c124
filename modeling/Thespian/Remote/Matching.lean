import Thespian.Remote.Reference
import Thespian.Zig.Errors

/-!
Dispatch on the shape of a message. A receiver tries its patterns in order and
takes the first that matches; an error of the matcher ends it. Which pattern a
message does not match is also documented behaviour of the package: a string
literal refuses every other string, and a type of its own refuses what its
extractor does not find. A string is not an array.
-/

namespace Thespian.Remote
open Decoding Decoding.Decoder Cbor Zig

section Refusal
variable {ε : Type}

/-- The pattern reads the element and finds something else. -/
def Pat.Refuses : Pat ε → Bytes → Prop
  | .literal s, x => ∃ t, x = pushString t ∧ t ≠ s
  | .custom cborExtract, x => ∀ r, ∃ rest, cborExtract (x ++ r) = .ok (none, rest)
  | .string, _ | .uint, _ | .raw, _ => False

/-- The first element that is not accepted is refused. -/
inductive Refuses : List (Pat ε) → List Bytes → Prop where
  | here {p : Pat ε} {x : Bytes} {pats : List (Pat ε)} {elements : List Bytes} :
      p.Refuses x → Refuses (p :: pats) (x :: elements)
  | later {p : Pat ε} {x : Bytes} {values : List Extracted} {pats : List (Pat ε)}
      {elements : List Bytes} : p.Accepts x values → Refuses pats elements →
      Refuses (p :: pats) (x :: elements)

/-- The documented behaviour on what does not match. -/
structure Selective (cbor : Package ε) : Prop extends Documented cbor where
  matchFrame_refuses : ∀ pats elements, elements.length < 2 ^ 63 →
    (∀ x ∈ elements, x.length < 2 ^ 63) → (∀ x ∈ elements, WellFormed x) →
    Refuses pats elements → cbor.matchFrame (arrayOf elements) pats = .ok none
  matchValue_string : ∀ s r pats, s.length < 2 ^ 63 →
    ∃ rest, cbor.matchValue (pushString s ++ r) pats = .ok (none, rest)

/-- Well-formed elements of a length that can be read back. -/
structure Items (elements : List Bytes) : Prop where
  few : elements.length < 2 ^ 63
  small : ∀ x ∈ elements, x.length < 2 ^ 63
  wellFormed : ∀ x ∈ elements, WellFormed x

theorem refuses_literal {s t : Bytes} (differs : t ≠ s) (pats : List (Pat ε))
    (elements : List Bytes) : Refuses (.literal s :: pats) (pushString t :: elements) :=
  .here ⟨t, rfl, differs⟩

theorem refuses_later_literal (s : Bytes) {pats : List (Pat ε)} {elements : List Bytes}
    (h : Refuses pats elements) : Refuses (.literal s :: pats) (pushString s :: elements) :=
  have here : (Pat.literal s : Pat ε).Accepts (pushString s) [] := ⟨rfl, rfl⟩
  .later here h

end Refusal

section Dispatch
variable {ε β : Type} (cbor : Package ε) (errorName : ε → Bytes)

/-- A chain of `try m.match(...)`, each with what its branch reads from the match. -/
def firstMatch (m : Bytes) (other : β) :
    List (List (Pat ε) × (List Extracted → β)) → Except Failure β
  | [] => .ok other
  | (pats, found) :: chain =>
      match cbor.matchFrame m pats with
      | .ok (some values) => .ok (found values)
      | .ok none => firstMatch m other chain
      | .error e => .error (exitError cbor (errorName e))

/-- The name under which an error of the protocol becomes a reason. -/
def protocolErrorName : ProtocolError ε → Bytes
  | .tooShort => text "TooShort"
  | .writeFailed => text "WriteFailed"
  | .unknownMessageType => text "UnknownMessageType"
  | .cbor e => errorName e

variable {cbor errorName} {m : Bytes} {other : β}
  {chain : List (List (Pat ε) × (List Extracted → β))}

theorem firstMatch_of_accepts (doc : Documented cbor) {pats : List (Pat ε)}
    {found : List Extracted → β} {elements : List Bytes} {values : List Extracted}
    (items : Items elements) (accepts : Accepts pats elements values) :
    firstMatch cbor errorName (arrayOf elements) other ((pats, found) :: chain) =
      .ok (found values) := by
  rw [firstMatch, doc.matchFrame_accepts pats elements values items.few items.small accepts]

theorem firstMatch_of_refuses (doc : Selective cbor) {pats : List (Pat ε)}
    {found : List Extracted → β} {elements : List Bytes} (items : Items elements)
    (refuses : Refuses pats elements) :
    firstMatch cbor errorName (arrayOf elements) other ((pats, found) :: chain) =
      firstMatch cbor errorName (arrayOf elements) other chain := by
  rw [firstMatch, doc.matchFrame_refuses pats elements items.few items.small items.wellFormed
    refuses]

end Dispatch

/-- The reference package, with the type of the item looked at first. -/
def lenientMatch (pats : List (Pat DomainError)) : Reader (Option (List Extracted)) := fun iter =>
  match decodeType iter with
  | .ok ((major, _, _), _) =>
      if major = UInt8.ofNat cborMagicTypeArray then referenceMatch pats iter else .ok (none, iter)
  | .error e => .error e

def lenient : Package DomainError :=
  { reference with
    matchValue := fun iter pats => lenientMatch pats iter
    matchFrame := fun bytes pats => (lenientMatch pats bytes).map Prod.fst }

section Lenient
variable {pats : List (Pat DomainError)} {elements : List Bytes}

theorem lenientMatch_arrayOf (pats : List (Pat DomainError)) (elements : List Bytes) (r : Bytes) :
    lenientMatch pats (arrayOf elements ++ r) = referenceMatch pats (arrayOf elements ++ r) := by
  obtain ⟨w, fits, eq⟩ := pushTypedVal_eq cborMagicTypeArray (UInt64.ofNat elements.length)
  have type := decodeType_header (show cborMagicTypeArray < 8 by decide) fits
    (elements.flatten ++ r)
  rw [lenientMatch, arrayOf, arrayHeader, eq, List.append_assoc, type]
  exact if_pos rfl

theorem lenientMatch_string (pats : List (Pat DomainError)) (s r : Bytes) :
    lenientMatch pats (pushString s ++ r) = .ok (none, pushString s ++ r) := by
  obtain ⟨w, fits, eq⟩ := pushTypedVal_eq 3 (UInt64.ofNat s.length)
  have type := decodeType_header (show 3 < 8 by decide) fits (s ++ r)
  rw [lenientMatch, pushString, eq, List.append_assoc, type]
  exact if_neg (by decide)

/-- What is refused is read, and no value comes of it. -/
theorem referenceElement_refuses {p : Pat DomainError} {x : Bytes} (small : x.length < 2 ^ 63)
    (h : p.Refuses x) (r : Bytes) : ∃ rest, referenceElement p (x ++ r) = .ok (none, rest) := by
  cases p with
  | literal s =>
      obtain ⟨t, rfl, differs⟩ := h
      refine ⟨r, ?_⟩
      rw [referenceElement, bind_of_ok (reads_matchString (string_length_lt small) r)]
      simp [differs]
  | custom cborExtract =>
      obtain ⟨rest, run⟩ := h r
      exact ⟨rest, bind_of_ok run _⟩
  | string | uint | raw => cases h

theorem referenceElements_refuses (small : ∀ x ∈ elements, x.length < 2 ^ 63)
    (h : Refuses pats elements) (r : Bytes) :
    ∃ rest, referenceElements pats (elements.flatten ++ r) = .ok (none, rest) := by
  induction h with
  | here refuses =>
      rw [List.forall_mem_cons] at small
      obtain ⟨rest, run⟩ := referenceElement_refuses small.1 refuses (_ ++ r)
      refine ⟨rest, ?_⟩
      rw [List.flatten_cons, List.append_assoc, referenceElements, bind_of_ok run]
      rfl
  | later accepts _ ih =>
      rw [List.forall_mem_cons] at small
      obtain ⟨rest, run⟩ := ih small.2
      refine ⟨rest, ?_⟩
      rw [List.flatten_cons, List.append_assoc, referenceElements,
        bind_of_ok (reads_referenceElement small.1 accepts _)]
      exact bind_of_ok run _

theorem referenceMatch_refuses (small : ∀ x ∈ elements, x.length < 2 ^ 63)
    (h : Refuses pats elements) (r : Bytes) :
    ∃ rest, referenceMatch pats (arrayOf elements ++ r) = .ok (none, rest) := by
  rw [referenceMatch, bind_of_ok (decodeArrayHeader_arrayOf elements r)]
  split
  · exact referenceElements_refuses small h r
  · exact ⟨_, rfl⟩

theorem lenient_matchFrame (pats : List (Pat DomainError)) (elements : List Bytes) :
    lenient.matchFrame (arrayOf elements) pats = reference.matchFrame (arrayOf elements) pats := by
  have same := lenientMatch_arrayOf pats elements []
  rw [List.append_nil] at same
  simp only [lenient, reference, same]

theorem lenient_selective : Selective lenient where
  write_string := reference_documented.write_string
  write_uint := reference_documented.write_uint
  write_raw := reference_documented.write_raw
  write_custom := reference_documented.write_custom
  write_tuple := reference_documented.write_tuple
  matchString_complete := reference_documented.matchString_complete
  matchString_truncated := reference_documented.matchString_truncated
  matchValue_accepts := by
    intro pats elements values r few small h
    simp only [lenient, lenientMatch_arrayOf]
    exact reference_documented.matchValue_accepts pats elements values r few small h
  matchFrame_accepts := by
    intro pats elements values few small h
    rw [lenient_matchFrame]
    exact reference_documented.matchFrame_accepts pats elements values few small h
  matchFrame_literal := by
    intro s t pats elements differs short few wellFormed
    rw [lenient_matchFrame]
    exact reference_documented.matchFrame_literal s t pats elements differs short few wellFormed
  matchFrame_refuses := by
    intro pats elements _ small _ h
    obtain ⟨rest, run⟩ := referenceMatch_refuses small h []
    rw [List.append_nil] at run
    rw [lenient_matchFrame]
    simp only [reference, run]
    rfl
  matchValue_string := by
    intro s r pats _
    exact ⟨_, lenientMatch_string pats s r⟩

end Lenient

end Thespian.Remote
