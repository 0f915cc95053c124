import Thespian.Cbor.SelfDelimiting

/-!
The cbor package of the remote modules is not part of the repository. Its
interface is a parameter, and what is relied upon is stated here: values are
written canonically, matchString reads a complete byte string and fails on a
truncated one, and a tuple pattern matches an array element by element.

A well-formed item is what the reader of the CBOR specification accepts as a
whole: unlike the C++ decoder it also reads tags and counts map entries without
a bound.
-/

namespace Thespian.Remote
open Decoding Decoding.Decoder Cbor

def skipItemType (skipItem : Reader Unit) (major minor : UInt8) : Reader Unit :=
  match major with
  | 5 => do
      let len ← decodePint minor
      repeatN skipItem (2 * len.toNat)
  | 6 => do
      let _ ← decodePint minor
      skipItem
  | major => skipValueType skipItem major minor

def skipItemBody (skipItem : Unit → Reader Unit) : Unit → Reader Unit := fun _ => do
  let (major, minor, _) ← decodeType
  skipItemType (skipItem ()) major minor

def skipItem : Reader Unit := fix skipItemBody ()

/-- The bytes are exactly one well-formed item. -/
def WellFormed (x : Bytes) : Prop := skipItem x = .ok ((), [])

instance (x : Bytes) : Decidable (WellFormed x) :=
  inferInstanceAs (Decidable (skipItem x = .ok ((), [])))

theorem shrinks_skipItemType {skip : Reader Unit} (h : Shrinks skip) (major minor : UInt8) :
    Shrinks (skipItemType skip major minor) := by
  unfold skipItemType
  split
  · exact (shrinks_decodePint minor).bind fun _ => h.repeatN _
  · exact (shrinks_decodePint minor).bind fun _ => h
  · exact shrinks_skipValueType h _ _

theorem agree_skipItemType {n : Nat} {skip skip' : Reader Unit} (h : AgreeBelow n skip skip')
    (hs : Shrinks skip) (major minor : UInt8) :
    AgreeBelow n (skipItemType skip major minor) (skipItemType skip' major minor) := by
  have argument := shrinks_decodePint minor
  unfold skipItemType
  split
  · exact (AgreeBelow.refl n _).bind argument fun _ => h.repeatN hs _
  · exact (AgreeBelow.refl n _).bind argument fun _ => h
  · exact agree_skipValueType h hs _ _

theorem guarded_skipItemBody : Guarded skipItemBody where
  shrinks := fun _ hd _ =>
    advances_decodeType.shrinks.bind fun _ => shrinks_skipItemType (hd ()) _ _
  agree := fun _ _ _ hd _ h _ =>
    .guard advances_decodeType fun _ => agree_skipItemType (h ()) (hd ()) _ _

theorem stable_skipItemType {skip : Reader Unit} (h : Stable skip) (major minor : UInt8) :
    Stable (skipItemType skip major minor) := by
  unfold skipItemType
  split
  · exact (stable_decodePint minor).bind fun _ => h.repeatN _
  · exact (stable_decodePint minor).bind fun _ => h
  · exact stable_skipValueType h _ _

theorem stable_skipItem : Stable skipItem :=
  guarded_skipItemBody.fix_stable
    (fun _ hd _ => stable_decodeType.bind fun _ => stable_skipItemType (hd ()) _ _) ()

theorem WellFormed.reads {x : Bytes} (h : WellFormed x) : Reads skipItem x () :=
  fun r => stable_skipItem x () [] h r

theorem wellFormed_of_reads {x : Bytes} (h : Reads skipItem x ()) : WellFormed x := by
  have whole := h []
  rwa [List.append_nil] at whole

/-- The reader at a header, with the argument still to be read. -/
theorem skipItem_header {major n : Nat} {w : Width} (hm : major < 8) (hn : w.Fits n)
    (s : Bytes) :
    skipItem (header major w n ++ s) =
      skipItemType skipItem (UInt8.ofNat major) (UInt8.ofNat (w.info n))
        (bigEndianBytes w.bytes n ++ s) := by
  have eq : skipItem = skipItemBody (fun _ => skipItem) () := guarded_skipItemBody.fix_eq ()
  rw [congrFun eq (header major w n ++ s), skipItemBody, bind_of_ok (decodeType_header hm hn s)]

theorem wellFormed_string {s : Bytes} (hs : s.length < 2 ^ 63) : WellFormed (pushString s) := by
  apply wellFormed_of_reads
  intro r
  obtain ⟨w, fits, eq⟩ := pushTypedVal_eq 3 (UInt64.ofNat s.length)
  have len : (UInt64.ofNat s.length).toNat = s.length := toNat_ofNat_register (by omega)
  have argument := reads_decodePint fits (s ++ r)
  rw [UInt64.ofNat_toNat] at argument
  rw [pushString, eq, List.append_assoc, skipItem_header (by decide) fits]
  change skipString _ _ = _
  rw [skipString, bind_of_ok argument, len, repeatN_next,
    bind_of_ok (reads_takeN tooShort s r)]
  rfl

theorem wellFormed_uint (n : UInt64) : WellFormed (pushUint n) := by
  apply wellFormed_of_reads
  intro r
  obtain ⟨w, fits, eq⟩ := pushTypedVal_eq 0 n
  rw [pushUint, eq, skipItem_header (by decide) fits]
  exact bind_of_ok (reads_decodePint fits r) _

theorem wellFormed_array {items : List Bytes} (h : ∀ x ∈ items, WellFormed x)
    (count : items.length < 2 ^ 63) :
    WellFormed (arrayHeader (UInt64.ofNat items.length) ++ items.flatten) := by
  apply wellFormed_of_reads
  intro r
  obtain ⟨w, fits, eq⟩ := pushTypedVal_eq cborMagicTypeArray (UInt64.ofNat items.length)
  have len : (UInt64.ofNat items.length).toNat = items.length := toNat_ofNat_register (by omega)
  have argument := reads_decodePint fits (items.flatten ++ r)
  rw [UInt64.ofNat_toNat] at argument
  rw [arrayHeader, eq, List.append_assoc, skipItem_header (by decide) fits]
  change skipArray _ _ _ = _
  rw [skipArray, bind_of_ok argument, len]
  exact Reads.repeatN items (fun x hx => (h x hx).reads) r

/-- What writeValue is given: a value of a type with a cborEncode of its own is
written by that. -/
inductive Val where
  | string (s : Bytes)
  | uint (n : UInt64)
  | raw (x : Bytes)
  | custom (encoded : Bytes)
  | tuple (vs : List Val)

/-- What an extractor assigns to its variable. -/
inductive Extracted where
  | string (s : Bytes)
  | uint (n : UInt64)
  | raw (x : Bytes)
deriving DecidableEq

/-- The elements of a tuple pattern: a literal, or an extractor by the type of its
variable. A type with a cborExtract of its own is extracted by that. -/
inductive Pat (ε : Type) where
  | literal (s : Bytes)
  | string
  | uint
  | raw
  | custom (cborExtract : Bytes → Except ε (Option Extracted × Bytes))

/-- A match that returns true has assigned the extractors from left to right; an
iterator is the bytes left. -/
structure Package (ε : Type) where
  writeValue : Val → Bytes
  matchString : Bytes → Except ε (Option (Bytes × Bytes))
  matchValue : Bytes → List (Pat ε) → Except ε (Option (List Extracted) × Bytes)
  matchFrame : Bytes → List (Pat ε) → Except ε (Option (List Extracted))

/-- The array of the given elements. -/
def arrayOf (elements : List Bytes) : Bytes :=
  arrayHeader (UInt64.ofNat elements.length) ++ elements.flatten

/-- The pattern matches the element and assigns the values. -/
def Pat.Accepts {ε : Type} : Pat ε → Bytes → List Extracted → Prop
  | .literal s, x, values => x = pushString s ∧ values = []
  | .string, x, values => ∃ s, x = pushString s ∧ values = [.string s]
  | .uint, x, values => ∃ n, x = pushUint n ∧ values = [.uint n]
  | .raw, x, values => WellFormed x ∧ values = [.raw x]
  | .custom cborExtract, x, values =>
      ∃ value, (∀ r, cborExtract (x ++ r) = .ok (some value, r)) ∧ values = [value]

/-- Element by element, with the values in order. -/
inductive Accepts {ε : Type} : List (Pat ε) → List Bytes → List Extracted → Prop where
  | nil : Accepts [] [] []
  | cons {p : Pat ε} {x : Bytes} {values : List Extracted} {pats : List (Pat ε)}
      {elements : List Bytes} {more : List Extracted} :
      p.Accepts x values → Accepts pats elements more →
      Accepts (p :: pats) (x :: elements) (values ++ more)

theorem accepts_literal {ε : Type} (s : Bytes) {pats : List (Pat ε)} {elements : List Bytes}
    {values : List Extracted} (h : Accepts pats elements values) :
    Accepts (.literal s :: pats) (pushString s :: elements) values :=
  have here : (Pat.literal s : Pat ε).Accepts (pushString s) [] := ⟨rfl, rfl⟩
  .cons here h

theorem accepts_extract {ε : Type} {p : Pat ε} {x : Bytes} {value : Extracted}
    (hp : p.Accepts x [value]) {pats : List (Pat ε)} {elements : List Bytes}
    {values : List Extracted} (h : Accepts pats elements values) :
    Accepts (p :: pats) (x :: elements) (value :: values) :=
  .cons hp h

/-- The frame of a payload: a byte string with a header of fixed width. -/
def frameOf (payload : Bytes) : Bytes := header 2 .four payload.length ++ payload

/-- The documented behaviour of the package. -/
structure Documented {ε : Type} (cbor : Package ε) : Prop where
  write_string : ∀ s, cbor.writeValue (.string s) = pushString s
  write_uint : ∀ n, cbor.writeValue (.uint n) = pushUint n
  write_raw : ∀ x, cbor.writeValue (.raw x) = x
  write_custom : ∀ encoded, cbor.writeValue (.custom encoded) = encoded
  write_tuple : ∀ vs, cbor.writeValue (.tuple vs) = arrayOf (vs.map cbor.writeValue)
  matchString_complete : ∀ payload r, payload.length < 2 ^ 32 →
    cbor.matchString (frameOf payload ++ r) = .ok (some (payload, r))
  matchString_truncated : ∀ payload p, payload.length < 2 ^ 32 → p <+: frameOf payload →
    p ≠ frameOf payload → ∃ e, cbor.matchString p = .error e
  matchValue_accepts : ∀ pats elements values r, elements.length < 2 ^ 63 →
    (∀ x ∈ elements, x.length < 2 ^ 63) → Accepts pats elements values →
    cbor.matchValue (arrayOf elements ++ r) pats = .ok (some values, r)
  matchFrame_accepts : ∀ pats elements values, elements.length < 2 ^ 63 →
    (∀ x ∈ elements, x.length < 2 ^ 63) → Accepts pats elements values →
    cbor.matchFrame (arrayOf elements) pats = .ok (some values)
  matchFrame_literal : ∀ s t pats elements, s ≠ t → s.length < 2 ^ 63 →
    elements.length + 1 < 2 ^ 63 → (∀ x ∈ elements, WellFormed x) →
    cbor.matchFrame (arrayOf (pushString s :: elements)) (.literal t :: pats) = .ok none

end Thespian.Remote
