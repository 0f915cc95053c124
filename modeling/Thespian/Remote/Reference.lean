import Thespian.Remote.Protocol
import Thespian.Cbor.MatchSemantics

/-!
A package that behaves as documented, built from the readers of the C++ library.
It shows that the assumptions on the package can be met together.
-/

namespace Thespian.Remote
open Decoding Decoding.Decoder Cbor

mutual
def referenceWrite : Val → Bytes
  | .string s => pushString s
  | .uint n => pushUint n
  | .raw x => x
  | .custom encoded => encoded
  | .tuple vs => arrayHeader (UInt64.ofNat vs.length) ++ referenceWriteAll vs
def referenceWriteAll : List Val → Bytes
  | [] => []
  | v :: vs => referenceWrite v ++ referenceWriteAll vs
end

/-- Read a single element; none is a mismatch. -/
def referenceElement : Pat DomainError → Reader (Option (List Extracted))
  | .literal s => do
      match ← Cbor.matchString with
      | some t => return if t = s then some [] else none
      | none => return none
  | .string => do return (← Cbor.matchString).map fun s => [.string s]
  | .uint => do return (← matchUint).map fun n => [.uint n]
  | .raw => fun iter =>
      match skipItem iter with
      | .ok (_, rest) => .ok (some [.raw (iter.take (iter.length - rest.length))], rest)
      | .error e => .error e
  | .custom cborExtract => do return (← cborExtract).map fun value => [value]

def referenceElements : List (Pat DomainError) → Reader (Option (List Extracted))
  | [] => pure (some [])
  | p :: pats => do
      match ← referenceElement p with
      | none => return none
      | some values => return (← referenceElements pats).map (values ++ ·)

def referenceMatch (pats : List (Pat DomainError)) : Reader (Option (List Extracted)) := do
  let n ← decodeArrayHeader
  if n.toNat = pats.length then referenceElements pats else return none

def reference : Package DomainError where
  writeValue := referenceWrite
  matchString := fun iter =>
    match Cbor.matchString iter with
    | .ok (found, rest) => .ok (found.map fun s => (s, rest))
    | .error e => .error e
  matchValue := fun iter pats => referenceMatch pats iter
  matchFrame := fun bytes pats => (referenceMatch pats bytes).map Prod.fst

theorem referenceWriteAll_eq (vs : List Val) :
    referenceWriteAll vs = (vs.map referenceWrite).flatten := by
  induction vs with
  | nil => rfl
  | cons v vs ih => rw [referenceWriteAll, ih, List.map_cons, List.flatten_cons]

theorem stable_matchString : Stable Cbor.matchString := by
  have content (minor : UInt8) : Stable (decodeString minor) :=
    (stable_decodePint minor).bind fun _ => stable_takeN _ _
  refine stable_decodeType.bind fun type => ?_
  dsimp only
  split
  · exact (content _).bind fun _ => stable_pure _
  · exact (content _).bind fun _ => stable_pure _
  · exact stable_pure _

theorem reads_matchString {s : Bytes} (hs : s.length < 2 ^ 63) :
    Reads Cbor.matchString (pushString s) (some s) := by
  intro r
  obtain ⟨t, run, exact⟩ := finds_matchString (.string s) hs r
  rw [exact rfl] at run
  exact run

theorem reads_matchString_frame {payload : Bytes} (small : payload.length < 2 ^ 32) :
    Reads Cbor.matchString (frameOf payload) (some payload) := by
  intro r
  have fits : Width.Fits payload.length .four := small
  have len : (UInt64.ofNat payload.length).toNat = payload.length :=
    toNat_ofNat_register (by omega)
  have content : decodeBytes (UInt8.ofNat (Width.four.info payload.length))
      (bigEndianBytes Width.four.bytes payload.length ++ (payload ++ r)) = .ok (payload, r) := by
    rw [decodeBytes, decodeString, bind_of_ok (reads_decodePint fits (payload ++ r)), len]
    exact reads_takeN Cbor.tooShort payload r
  rw [frameOf, List.append_assoc, Cbor.matchString,
    bind_of_ok (decodeType_header (by decide) fits (payload ++ r))]
  exact bind_of_ok content _

theorem decodeArrayHeader_arrayOf (elements : List Bytes) (r : Bytes) :
    decodeArrayHeader (arrayOf elements ++ r) =
      .ok (UInt64.ofNat elements.length, elements.flatten ++ r) := by
  obtain ⟨w, fits, eq⟩ := pushTypedVal_eq cborMagicTypeArray (UInt64.ofNat elements.length)
  have argument := reads_decodePint fits (elements.flatten ++ r)
  rw [UInt64.ofNat_toNat] at argument
  rw [arrayOf, arrayHeader, eq, List.append_assoc, decodeArrayHeader,
    bind_of_ok (decodeType_header (by decide) fits _)]
  dsimp only
  rw [if_neg (header_ne_null (by decide) fits)]
  exact argument

theorem reads_referenceElement {p : Pat DomainError} {x : Bytes} {values : List Extracted}
    (small : x.length < 2 ^ 63) (h : p.Accepts x values) :
    Reads (referenceElement p) x (some values) := by
  intro r
  cases p with
  | literal s =>
      obtain ⟨rfl, rfl⟩ := h
      rw [referenceElement, bind_of_ok (reads_matchString (string_length_lt small) r)]
      simp
  | string =>
      obtain ⟨s, rfl, rfl⟩ := h
      exact bind_of_ok (reads_matchString (string_length_lt small) r) _
  | uint =>
      obtain ⟨n, rfl, rfl⟩ := h
      obtain ⟨w, fits, eq⟩ := pushTypedVal_eq 0 n
      have read := matchUint_header fits r
      rw [UInt64.ofNat_toNat, ← eq] at read
      exact bind_of_ok read _
  | raw =>
      obtain ⟨wellFormed, rfl⟩ := h
      simp [referenceElement, wellFormed.reads r]
  | custom cborExtract =>
      obtain ⟨value, read, rfl⟩ := h
      exact bind_of_ok (read r) _

theorem reads_referenceElements {pats : List (Pat DomainError)} {elements : List Bytes}
    {values : List Extracted} (small : ∀ x ∈ elements, x.length < 2 ^ 63)
    (h : Accepts pats elements values) :
    Reads (referenceElements pats) elements.flatten (some values) := by
  induction h with
  | nil => exact reads_pure _
  | cons head _ ih =>
      intro r
      rw [List.forall_mem_cons] at small
      have first := reads_referenceElement small.1 head
      rw [List.flatten_cons, List.append_assoc, referenceElements, bind_of_ok (first _)]
      exact bind_of_ok (ih small.2 r) _

theorem accepts_length {pats : List (Pat DomainError)} {elements : List Bytes}
    {values : List Extracted} (h : Accepts pats elements values) :
    pats.length = elements.length := by
  induction h with
  | nil => rfl
  | cons _ _ ih => rw [List.length_cons, List.length_cons, ih]

theorem reads_referenceMatch {pats : List (Pat DomainError)} {elements : List Bytes}
    {values : List Extracted} (few : elements.length < 2 ^ 63)
    (small : ∀ x ∈ elements, x.length < 2 ^ 63) (h : Accepts pats elements values) :
    Reads (referenceMatch pats) (arrayOf elements) (some values) := by
  intro r
  rw [referenceMatch, bind_of_ok (decodeArrayHeader_arrayOf elements r),
    toNat_ofNat_register (by omega), if_pos (accepts_length h).symm]
  exact reads_referenceElements small h r

theorem reference_documented : Documented reference where
  write_string := fun _ => rfl
  write_uint := fun _ => rfl
  write_raw := fun _ => rfl
  write_custom := fun _ => rfl
  write_tuple := by
    intro vs
    simp only [reference, referenceWrite, referenceWriteAll_eq, arrayOf, List.length_map]
  matchString_complete := by
    intro payload r small
    simp only [reference, reads_matchString_frame small r]
    rfl
  matchString_truncated := by
    intro payload p small start proper
    obtain ⟨e, he⟩ :=
      stable_matchString.throws_on_proper (reads_matchString_frame small) start proper
    exact ⟨e, by simp only [reference, he]⟩
  matchValue_accepts := fun _ _ _ r few small h => reads_referenceMatch few small h r
  matchFrame_accepts := by
    intro pats elements values few small h
    have run := reads_referenceMatch few small h []
    rw [List.append_nil] at run
    simp only [reference, run]
    rfl
  matchFrame_literal := by
    intro s t pats elements differs short _ _
    have header := decodeArrayHeader_arrayOf (pushString s :: elements) []
    have string := reads_matchString short elements.flatten
    have first : referenceElement (.literal t) (pushString s ++ elements.flatten) =
        .ok (none, elements.flatten) := by
      rw [referenceElement, bind_of_ok string]
      simp [differs]
    rw [List.append_nil, List.append_nil] at header
    simp only [reference, referenceMatch, bind_of_ok header]
    split
    · rw [List.flatten_cons, referenceElements, bind_of_ok first]
      rfl
    · rfl

/-- Two messages, cut inside the length of a frame and inside a name. -/
theorem wire_format_round_trips_cut :
    feedAll (feed reference (ProtocolMessage.decode reference)) []
      [[0x5a, 0, 0], [], [0, 0x15, 0x84, 0x64, 0x73, 0x65, 0x6e, 0x64, 0x82, 0x64, 0x4c, 0x50,
        0x49, 0x44, 1, 0x82, 0x64, 0x52, 0x50, 0x49, 0x44, 2, 0x80, 0x5a, 0, 0, 0, 0x0f, 0x83,
        0x64, 0x65], [0x78, 0x69, 0x74, 0x82, 0x64, 0x4c, 0x50, 0x49, 0x44, 1, 0x61, 0x78]] =
      .ok ([], [.send ⟨1⟩ ⟨2⟩ [0x80], .exit ⟨1⟩ (text "x")]) := by
  refine wire_format_round_trips reference_documented _ ?_
    [[0x5a, 0, 0, 0, 0x15, 0x84, 0x64, 0x73, 0x65, 0x6e, 0x64, 0x82, 0x64, 0x4c, 0x50, 0x49, 0x44,
        1, 0x82, 0x64, 0x52, 0x50, 0x49, 0x44, 2, 0x80],
      [0x5a, 0, 0, 0, 0x0f, 0x83, 0x64, 0x65, 0x78, 0x69, 0x74, 0x82, 0x64, 0x4c, 0x50, 0x49, 0x44,
        1, 0x61, 0x78]] (.cons rfl (.cons rfl .nil)) _ rfl
  have empty : WellFormed [0x80] := by decide
  simp [ProtocolMessage.payload?, empty]

end Thespian.Remote
