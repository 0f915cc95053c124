import Std.Data.TreeMap
import Std.Data.TreeMap.Lemmas
import Thespian.Cbor.Iterate
import Thespian.Cbor.MatchSemantics

/-!
The fields of a command. A command is a map with string keys; the later of two
fields of one name counts. The values are copied item by item, so the fields of an
encoded value tree are encoded value trees.
-/

namespace Thespian.Console
open Cbor Decoding

abbrev Fields := Std.TreeMap Bytes Bytes

def domainError {α : Type} (what : Bytes) : Except IterationError α := .error (.domain ⟨what⟩)

/-- The type of the item at the front of a buffer. -/
def valueType (v : Bytes) : Except IterationError CborType := accessorType ⟨v⟩

/-- A key without a value ends the loop; where the count ends before the items do,
the next round throws. -/
def fieldsLoop : Nat → Bytes → Fields → Except IterationError Fields
  | n, b, fields =>
      if b = [] then .ok fields
      else do
        let key ← ValueIterator.get ⟨b, n⟩
        let type ← accessorType key
        if type ≠ .string then
          domainError (text "command keys must be strings")
        else do
          let k ← accessorString key
          let it ← (ValueIterator.next ⟨b, n⟩).mapError .domain
          if it.b = [] then
            return fields
          let behind ← it.next.mapError .domain
          let v := it.b.take (it.b.length - behind.b.length)
          match n with
          | n + 2 => fieldsLoop n behind.b (fields.insert k v)
          | _ => .error .outOfRange

def getFields (cmd : Bytes) : Except IterationError Fields := do
  let type ← valueType cmd
  if type ≠ .map then
    domainError (text "command must be a JSON object")
  else do
    let it ← (beginIterator cmd).mapError .domain
    fieldsLoop it.n it.b ∅

def require (f : Fields) (k : Bytes) : Except IterationError Bytes :=
  match f[k]? with
  | some v => .ok v
  | none => domainError (text "missing field: " ++ k)

def requireString (f : Fields) (k : Bytes) : Except IterationError Bytes := do
  let v ← require f k
  let type ← valueType v
  if type ≠ .string then
    domainError (text "field must be a string: " ++ k)
  else accessorString ⟨v⟩

/-- What the conversion to int64_t gives; a number out of range leaves it unset. -/
def accessorInt (a : ValueAccessor) : Except IterationError Int :=
  match extractInteger .signedLong a.b with
  | .ok (i, _) => .ok (i.getD 0)
  | .error e => .error (.domain e)

def optionalInt (f : Fields) (k : Bytes) (default : Int) : Except IterationError Int :=
  match f[k]? with
  | none => .ok default
  | some v => do
      let type ← valueType v
      if type ≠ .number then
        domainError (text "field must be a number: " ++ k)
      else accessorInt ⟨v⟩

/-- The values of the fields are encoded value trees. -/
def Encoded (f : Fields) : Prop :=
  ∀ k x : Bytes, f[k]? = some x → ∃ v : Value, v.Sized (2 ^ 63) ∧ x = encode v

section Encoded
variable {f : Fields} {k x : Bytes} {v : Value}

theorem encoded_empty : Encoded ∅ := by
  intro k x found
  rw [Std.TreeMap.getElem?_emptyc] at found
  cases found

theorem Encoded.insert (h : Encoded f) (sized : v.Sized (2 ^ 63)) :
    Encoded (f.insert k (encode v)) := by
  intro n x found
  rw [Std.TreeMap.getElem?_insert] at found
  split at found
  · cases found
    exact ⟨v, sized, rfl⟩
  · exact h n x found

theorem accessorType_encode (sized : v.Sized (2 ^ 63)) (r : Bytes) :
    accessorType ⟨encode v ++ r⟩ = .ok v.type := by
  rw [accessorType]
  dsimp only
  rw [reads_matchType v sized r]
  rfl

theorem accessorString_encode (sized : v.Sized (2 ^ 63)) (r : Bytes) :
    accessorString ⟨encode v ++ r⟩ = .ok (v.string?.getD []) := by
  obtain ⟨t, found, -⟩ := finds_matchString v sized r
  rw [accessorString]
  dsimp only
  rw [found]

theorem accessorInt_encode (v : Value) (r : Bytes) : ∃ i, accessorInt ⟨encode v ++ r⟩ = .ok i := by
  obtain ⟨t, found, -⟩ := finds_extractInteger .signedLong v r
  rw [accessorInt]
  dsimp only
  rw [found]
  exact ⟨_, rfl⟩

theorem next_encode (sized : v.Sized (2 ^ 63)) (r : Bytes) (n : Nat) :
    ValueIterator.next ⟨encode v ++ r, n + 1⟩ = .ok ⟨r, n⟩ := by
  rw [ValueIterator.next, if_neg (Nat.succ_ne_zero n)]
  dsimp only
  rw [reads_matchValueType v sized .any r]
  rfl

theorem encode_ne_nil (sized : v.Sized (2 ^ 63)) : encode v ≠ [] := by
  intro empty
  have skipped := reads_skipValue v sized []
  rw [empty] at skipped
  exact skipValue_nil _ skipped

end Encoded

/-- What is thrown is a domain error whose text can be addressed. -/
def Tame {α : Type} (x : Except IterationError α) : Prop :=
  ∀ e, x = .error e → ∃ what : Bytes, e = .domain ⟨what⟩ ∧ what.length < 2 ^ 64

namespace Tame
variable {α β : Type} {x : Except IterationError α}

theorem ok (a : α) : Tame (.ok a) := nofun

theorem domain {what : Bytes} (short : what.length < 2 ^ 64) :
    Tame (domainError what : Except IterationError α) := by
  intro e thrown
  cases thrown
  exact ⟨what, rfl, short⟩

theorem bind {f : α → Except IterationError β} (h : Tame x) (hf : ∀ a, x = .ok a → Tame (f a)) :
    Tame (x >>= f) := by
  cases x with
  | ok a => exact hf a rfl
  | error e =>
      intro e' thrown
      cases thrown
      exact h e rfl

end Tame

theorem text_length (t : String) : (text t).length = t.toList.length := by
  rw [text, List.length_map]

/-- The loop over the items of a map either copies the fields or meets a key that is
no string. -/
theorem fieldsLoop_items (pairs : List (Value × Value)) (sized : SizedPairs (2 ^ 63) pairs)
    {f : Fields} (encoded : Encoded f) :
    (∃ f', fieldsLoop (2 * pairs.length) (encodePairs pairs) f = .ok f' ∧ Encoded f') ∨
      fieldsLoop (2 * pairs.length) (encodePairs pairs) f =
        domainError (text "command keys must be strings") := by
  induction pairs generalizing f with
  | nil =>
      left
      refine ⟨f, ?_, encoded⟩
      rw [encodePairs, fieldsLoop]
      rfl
  | cons kv pairs ih =>
      obtain ⟨k, v⟩ := kv
      obtain ⟨hk, hv, rest⟩ := sized
      have nonempty : encode k ++ encode v ++ encodePairs pairs ≠ [] := by
        simp [encode_ne_nil hk]
      have length : 2 * ((k, v) :: pairs).length = 2 * pairs.length + 1 + 1 := by
        simp only [List.length_cons]
        omega
      have type := accessorType_encode hk (encode v ++ encodePairs pairs)
      have string := accessorString_encode hk (encode v ++ encodePairs pairs)
      have key := next_encode hk (encode v ++ encodePairs pairs) (2 * pairs.length + 1)
      have value := next_encode hv (encodePairs pairs) (2 * pairs.length)
      have more : encode v ++ encodePairs pairs ≠ [] := by
        simp [encode_ne_nil hv]
      have copied : (encode v ++ encodePairs pairs).take
          ((encode v ++ encodePairs pairs).length - (encodePairs pairs).length) = encode v := by
        simp
      rw [encodePairs, length, fieldsLoop, if_neg nonempty, List.append_assoc]
      simp only [ValueIterator.get, Nat.succ_ne_zero, if_false, bind, Except.bind, type]
      by_cases isString : k.type = .string
      · rw [if_neg (not_not.mpr isString)]
        simp only [string, key, Except.mapError, if_neg more, value, copied]
        exact ih rest (encoded.insert hv)
      · rw [if_pos isString]
        exact .inr rfl

theorem valueType_encode {v : Value} (sized : v.Sized (2 ^ 63)) : valueType (encode v) = .ok v.type := by
  have read := accessorType_encode sized []
  rwa [List.append_nil] at read

theorem getFields_encode {v : Value} (sized : v.Sized (2 ^ 63)) :
    Tame (getFields (encode v)) ∧ ∀ f, getFields (encode v) = .ok f → Encoded f := by
  have type := valueType_encode sized
  have notMap : v.type ≠ .map → getFields (encode v) =
      domainError (text "command must be a JSON object") := by
    intro other
    rw [getFields, type]
    simp [bind, Except.bind, other]
  have short : ∀ t : String, t.toList.length < 2 ^ 64 → (text t).length < 2 ^ 64 := by
    intro t h
    rwa [text_length]
  cases v with
  | map pairs =>
      obtain ⟨count, sizedPairs⟩ := sized
      have header := decodeMapHeader_encode (v := .map pairs) ⟨count, sizedPairs⟩ []
      simp only [Value.mapItems?, List.append_nil] at header
      obtain ⟨n, twice, read⟩ := header
      have begun : beginIterator (encode (.map pairs)) = .ok ⟨encodePairs pairs, 2 * pairs.length⟩ := by
        rw [beginIterator, decodeRangeHeader_of_map read, encodePairs_eq, ← pairItems_length,
          ← twice]
        rfl
      have loop := fieldsLoop_items pairs sizedPairs encoded_empty
      rw [getFields, type]
      simp only [bind, Except.bind, Value.type, ne_eq, not_true_eq_false, if_false, begun,
        Except.mapError]
      rcases loop with ⟨f', copied, encoded⟩ | thrown
      · rw [copied]
        refine ⟨.ok f', ?_⟩
        intro f same
        cases same
        exact encoded
      · rw [thrown]
        exact ⟨.domain (short _ (by decide)), fun f same => by cases same⟩
  | int _ | uint _ | bool _ | null | string _ | float _ | double _ | array _ =>
      rw [notMap (by simp [Value.type])]
      exact ⟨.domain (short _ (by decide)), fun f same => by cases same⟩

section Checks
variable {f : Fields} {k : Bytes}

theorem require_tame (short : k.length < 2 ^ 63) : Tame (require f k) := by
  unfold require
  split
  · exact .ok _
  · refine .domain ?_
    rw [List.length_append, text_length]
    have prefixed : "missing field: ".toList.length = 15 := by decide
    omega

theorem require_encoded (encoded : Encoded f) {x : Bytes} (found : require f k = .ok x) :
    ∃ v : Value, v.Sized (2 ^ 63) ∧ x = encode v := by
  unfold require at found
  split at found
  · rename_i y present
    cases found
    exact encoded k x present
  · cases found

theorem requireString_tame (encoded : Encoded f) (short : k.length < 2 ^ 63) :
    Tame (requireString f k) := by
  refine (require_tame short).bind ?_
  intro x found
  obtain ⟨v, sized, rfl⟩ := require_encoded encoded found
  have string := accessorString_encode sized []
  rw [List.append_nil] at string
  simp only [valueType_encode sized, bind, Except.bind]
  split
  · refine .domain ?_
    rw [List.length_append, text_length]
    have prefixed : "field must be a string: ".toList.length = 24 := by decide
    omega
  · rw [string]
    exact .ok _

theorem requireString_short (encoded : Encoded f) {s : Bytes} (found : requireString f k = .ok s) :
    s.length < 2 ^ 63 := by
  rw [requireString] at found
  cases present : require f k with
  | error e =>
      rw [present] at found
      cases found
  | ok x =>
      obtain ⟨v, sized, rfl⟩ := require_encoded encoded present
      have string := accessorString_encode sized []
      rw [List.append_nil] at string
      rw [present] at found
      simp only [valueType_encode sized, bind, Except.bind] at found
      split at found
      · cases found
      · rw [string] at found
        cases found
        cases v with
        | string s => exact sized
        | int _ | uint _ | bool _ | null | float _ | double _ | array _ | map _ =>
            exact Nat.two_pow_pos 63

theorem optionalInt_tame (encoded : Encoded f) (short : k.length < 2 ^ 63) (default : Int) :
    Tame (optionalInt f k default) := by
  unfold optionalInt
  split
  · exact .ok _
  · rename_i x present
    obtain ⟨v, sized, rfl⟩ := encoded k x present
    obtain ⟨i, read⟩ := accessorInt_encode v []
    rw [List.append_nil] at read
    simp only [valueType_encode sized, bind, Except.bind]
    split
    · refine .domain ?_
      rw [List.length_append, text_length]
      have prefixed : "field must be a number: ".toList.length = 24 := by decide
      omega
    · rw [read]
      exact .ok _

end Checks

end Thespian.Console
