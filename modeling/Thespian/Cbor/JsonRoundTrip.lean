import Thespian.Cbor.JsonText
import Thespian.Cbor.JsonReading

/-!
The JSON texts read back. The parser undoes every escape the printer writes but
the numeric one: the escape of a control character without a letter of its own is
read as the five characters behind its backslash. What comes back is therefore
the value with these characters replaced, and it has the bytes of the original
exactly when there are none.
-/

namespace Thespian.Cbor
open Decoding Decoding.Decoder Json

/-- A control character that the printer escapes by its number. -/
def isNumericEscape (c : UInt8) : Bool :=
  c ≤ 0x1f && c ≠ 8 && c ≠ 9 && c ≠ 10 && c ≠ 12 && c ≠ 13

def rereadChar (c : UInt8) : Bytes :=
  if isNumericEscape c then text "u00" ++ tohex c else [c]

mutual
/-- The value whose encoding the parser makes of the printed text. -/
def reread : Value → Value
  | .string s => .string (s.flatMap rereadChar)
  | .uint n => .int n.toInt64
  | .array items => .array (rereadItems items)
  | .map pairs => .map (rereadPairs pairs)
  | v => v
def rereadItems : List Value → List Value
  | [] => []
  | v :: items => reread v :: rereadItems items
def rereadPairs : List (Value × Value) → List (Value × Value)
  | [] => []
  | (k, v) :: pairs => (reread k, reread v) :: rereadPairs pairs
end

theorem rereadItems_eq (items : List Value) : rereadItems items = items.map reread := by
  induction items with
  | nil => rfl
  | cons v items ih => rw [rereadItems, ih, List.map_cons]

theorem rereadPairs_eq (pairs : List (Value × Value)) :
    rereadPairs pairs = pairs.map fun kv => (reread kv.1, reread kv.2) := by
  induction pairs with
  | nil => rfl
  | cons kv pairs ih =>
      obtain ⟨k, v⟩ := kv
      rw [rereadPairs, ih, List.map_cons]

/-- What may follow a value: nothing, a separator or a closing bracket. -/
def Delimited (rest : Bytes) : Prop :=
  ∀ c ∈ rest.head?, c = 44 ∨ c = 58 ∨ c = 93 ∨ c = 125

theorem Delimited.numberEnds {rest : Bytes} (h : Delimited rest) : NumberEnds rest := by
  intro c hc
  rcases h c hc with rfl | rfl | rfl | rfl <;> decide

section Strings

theorem hexDigit_plain (c : UInt8) (h : c ≤ 15) : hexDigit c ≠ 92 ∧ hexDigit c ≠ 34 := by
  have all : ∀ c : Fin 16,
      hexDigit (UInt8.ofNat c.val) ≠ 92 ∧ hexDigit (UInt8.ofNat c.val) ≠ 34 := by
    decide
  have bound : c.toNat < 16 := Nat.lt_succ_of_le (UInt8.le_iff_toNat_le.mp h)
  simpa using all ⟨c.toNat, bound⟩

theorem tohex_plain : ∀ c : UInt8, ∀ d ∈ tohex c, d ≠ 92 ∧ d ≠ 34 := by
  intro c d hd
  have high : c >>> 4 ≤ 15 := by
    rw [UInt8.le_iff_toNat_le]
    have := c.toNat_lt
    simp [Nat.shiftRight_eq_div_pow]
    omega
  have low : c &&& 15 ≤ 15 := by
    rw [UInt8.le_iff_toNat_le]
    simpa using Nat.and_le_right
  simp only [tohex, List.mem_cons, List.not_mem_nil, or_false] at hd
  rcases hd with rfl | rfl
  · exact hexDigit_plain _ high
  · exact hexDigit_plain _ low

/-- The ways a character is written and what the unescaping loop makes of them. -/
theorem escape_cases (c : UInt8) :
    (escape c = [c] ∧ rereadChar c = [c] ∧ c ≠ 92 ∧ c ≠ 34) ∨
    (∃ letter, escape c = [92, letter] ∧ rereadChar c = [unescape letter]) ∨
    (escape c = text "\\u00" ++ tohex c ∧ rereadChar c = text "u00" ++ tohex c) := by
  unfold escape
  split
  · exact .inr (.inl ⟨98, rfl, by decide⟩)
  · exact .inr (.inl ⟨102, rfl, by decide⟩)
  · exact .inr (.inl ⟨110, rfl, by decide⟩)
  · exact .inr (.inl ⟨114, rfl, by decide⟩)
  · exact .inr (.inl ⟨116, rfl, by decide⟩)
  · exact .inr (.inl ⟨92, rfl, by decide⟩)
  · exact .inr (.inl ⟨34, rfl, by decide⟩)
  · rename_i b f n r t backslash quote
    by_cases control : c ≤ 0x1f
    · have numeric : isNumericEscape c = true := by
        simp only [isNumericEscape, Bool.and_eq_true, decide_eq_true_eq]
        tauto
      exact .inr (.inr ⟨if_pos control, if_pos numeric⟩)
    · have plain : ¬ isNumericEscape c = true := by
        simp [isNumericEscape, control]
      exact .inl ⟨if_neg control, if_neg plain, backslash, quote⟩

theorem written_escape (c : UInt8) : Written (rereadChar c) (escape c) := by
  rcases escape_cases c with ⟨written, read, backslash, quote⟩ | ⟨letter, written, read⟩ |
    ⟨written, read⟩
  · rw [written, read]
    exact .raw backslash quote .nil
  · rw [written, read]
    exact .escaped letter .nil
  · have high := tohex_plain c (hexDigit (c >>> 4)) (by simp [tohex])
    have low := tohex_plain c (hexDigit (c &&& 15)) (by simp [tohex])
    have number : Written (tohex c) (tohex c) :=
      .raw high.1 high.2 (.raw low.1 low.2 .nil)
    rw [written, read]
    exact .escaped 117 (.raw (by decide) (by decide) (.raw (by decide) (by decide) number))

theorem written_escaped (content : Bytes) :
    Written (content.flatMap rereadChar) (content.flatMap escape) := by
  induction content with
  | nil => exact .nil
  | cons c content ih => exact (written_escape c).append ih

end Strings

section Parser
variable (fromChars : Bytes → Option Float)

/-- The parser turns the value's text into the encoding of what is read back. -/
def Parses (v : Value) : Prop :=
  ∀ rest, Delimited rest →
    pushJsonValue fromChars (jsonText v ++ rest) = .ok (encode (reread v), rest)

theorem readsAs_signedDecimal {i : Int} (low : -2 ^ 63 ≤ i) (high : i < 2 ^ 63) :
    ReadsAs (pushJsonValue fromChars) (signedDecimal i) (pushInt (Int64.ofInt i)) := by
  obtain ⟨written, value⟩ := signedDecimal_eq i
  rw [← value] at low high
  have number := readsAs_number fromChars low high
  rw [value, ← written] at number
  exact number

theorem itemsRead_commaSeparated (v : Value) (items : List Value)
    (h : ∀ u ∈ v :: items, ReadsAs (pushJsonValue fromChars) (jsonText u) (encode (reread u))) :
    ItemsRead fromChars (rereadItems (v :: items)) (commaSeparated (jsonItems (v :: items))) := by
  rw [List.forall_mem_cons] at h
  induction items generalizing v with
  | nil =>
      have last := itemsRead_last fromChars .nil h.1 .nil
      simpa [rereadItems, jsonItems, commaSeparated] using last
  | cons u items ih =>
      have others := ih u (List.forall_mem_cons.mp h.2)
      have item := itemsRead_cons fromChars .nil h.1 .nil others
      simpa [rereadItems, jsonItems, commaSeparated] using item

theorem pairsRead_commaSeparated (k v : Value) (pairs : List (Value × Value))
    (h : ∀ kv ∈ (k, v) :: pairs,
      ReadsAs (pushJsonValue fromChars) (jsonText kv.1) (encode (reread kv.1)) ∧
      ReadsAs (pushJsonValue fromChars) (jsonText kv.2) (encode (reread kv.2))) :
    PairsRead fromChars (rereadPairs ((k, v) :: pairs))
      (commaSeparated (jsonPairs ((k, v) :: pairs))) := by
  rw [List.forall_mem_cons] at h
  induction pairs generalizing k v with
  | nil =>
      have last := pairsRead_last fromChars .nil h.1.1 .nil .nil h.1.2 .nil
      simpa [rereadPairs, jsonPairs, commaSeparated] using last
  | cons kv pairs ih =>
      have others := ih kv.1 kv.2 (List.forall_mem_cons.mp h.2)
      have pair := pairsRead_cons fromChars .nil h.1.1 .nil .nil h.1.2 .nil others
      simpa [rereadPairs, jsonPairs, commaSeparated] using pair

theorem readsAs_jsonText (v : Value) (hv : v.All Value.Jsonable) :
    ReadsAs (pushJsonValue fromChars) (jsonText v) (encode (reread v)) := by
  induction v using Value.induction with
  | int i =>
      have read := readsAs_signedDecimal fromChars i.le_toInt i.toInt_lt
      rw [Int64.ofInt_toInt] at read
      exact read
  | uint n =>
      have small : n.toNat < 2 ^ 63 := hv
      have read := readsAs_signedDecimal fromChars (i := n.toNat) (by omega) (by omega)
      have same : Int64.ofInt n.toNat = n.toInt64 := by
        have value := toInt_toInt64 n.toNat n.toNat_lt
        rw [UInt64.ofNat_toNat, if_pos small] at value
        rw [← value, Int64.ofInt_toInt]
      have sign : signedDecimal n.toNat = decimal n.toNat := by
        rw [signedDecimal, if_neg (by omega), Int.natAbs_natCast]
      rw [same, sign] at read
      exact read
  | bool b =>
      have read := readsAs_bool fromChars b
      cases b <;> exact read
  | null => exact readsAs_null fromChars
  | string s =>
      have read := readsAs_string fromChars (written_escaped s)
      simpa [jsonText, toJsonString, reread, encode] using read
  | float _ | double _ => exact absurd hv (by simp [Value.All, Value.Jsonable])
  | array items ih =>
      obtain ⟨-, all⟩ := hv
      rw [allItems_iff] at all
      cases items with
      | nil => exact readsAs_array_empty .nil
      | cons v items =>
          have elements := itemsRead_commaSeparated fromChars v items
            fun u hu => ih u hu (all u hu)
          simpa [jsonText, reread] using readsAs_items fromChars elements
  | map pairs ih =>
      obtain ⟨-, all⟩ := hv
      rw [allPairs_iff] at all
      cases pairs with
      | nil => exact readsAs_map_empty .nil
      | cons kv pairs =>
          have elements := pairsRead_commaSeparated fromChars kv.1 kv.2 pairs
            fun u hu => ⟨(ih u hu).1 (all u hu).1, (ih u hu).2 (all u hu).2⟩
          simpa [jsonText, reread] using readsAs_pairs fromChars elements

theorem parses_jsonText (v : Value) (hv : v.All Value.Jsonable) : Parses fromChars v :=
  fun rest h => (readsAs_jsonText fromChars v hv).reads rest h.numberEnds

end Parser

/-- No character of a string is escaped by its number. -/
def Value.Unmangled : Value → Prop
  | .string s => ∀ c ∈ s, isNumericEscape c = false
  | _ => True

theorem pushTypedVal_length (type : Nat) (value : UInt64) :
    (pushTypedVal type value).length =
      if value.toNat < 24 then 1 else if value.toNat < 256 then 2
      else if value.toNat < 65536 then 3 else if value.toNat < 4294967296 then 5 else 9 := by
  unfold pushTypedVal
  simp only [UInt64.lt_iff_toNat_lt]
  have bounds : (24 : UInt64).toNat = 24 ∧ (256 : UInt64).toNat = 256 ∧
      (65536 : UInt64).toNat = 65536 ∧ (4294967296 : UInt64).toNat = 4294967296 := by decide
  rw [bounds.1, bounds.2.1, bounds.2.2.1, bounds.2.2.2]
  split
  · rfl
  · split
    · rfl
    · split
      · rfl
      · split <;> rfl

theorem pushTypedVal_length_mono (type : Nat) {a b : UInt64} (h : a.toNat ≤ b.toNat) :
    (pushTypedVal type a).length ≤ (pushTypedVal type b).length := by
  rw [pushTypedVal_length, pushTypedVal_length]
  repeat' split
  all_goals omega

theorem pushTypedVal_length_le (type : Nat) (value : UInt64) :
    1 ≤ (pushTypedVal type value).length ∧ (pushTypedVal type value).length ≤ 9 := by
  rw [pushTypedVal_length]
  repeat' split
  all_goals omega

/-- A longer string has the longer encoding, also where its length would wrap. -/
theorem pushString_length_lt {s t : Bytes} (bound : s.length < 2 ^ 63)
    (longer : s.length < t.length) : (pushString s).length < (pushString t).length := by
  have short := pushTypedVal_length_le 3 (UInt64.ofNat s.length)
  have long := pushTypedVal_length_le 3 (UInt64.ofNat t.length)
  rw [pushString, pushString, List.length_append, List.length_append]
  by_cases fits : t.length < 2 ^ 64
  · have headers : (UInt64.ofNat s.length).toNat ≤ (UInt64.ofNat t.length).toNat := by
      rw [toNat_ofNat_register (by omega), toNat_ofNat_register fits]
      omega
    have mono := pushTypedVal_length_mono 3 headers
    omega
  · omega

theorem rereadChar_length (c : UInt8) :
    1 ≤ (rereadChar c).length ∧ ((rereadChar c).length = 1 → isNumericEscape c = false) := by
  rw [rereadChar]
  by_cases numeric : isNumericEscape c = true
  · simp [numeric, tohex, text]
  · simp [numeric]

theorem flatMap_rereadChar_length (s : Bytes) :
    s.length ≤ (s.flatMap rereadChar).length ∧
      (s.length = (s.flatMap rereadChar).length → ∀ c ∈ s, isNumericEscape c = false) := by
  induction s with
  | nil => simp
  | cons c s ih =>
      have head := rereadChar_length c
      rw [List.flatMap_cons, List.length_append, List.length_cons]
      refine ⟨by omega, fun same => ?_⟩
      rw [List.forall_mem_cons]
      exact ⟨head.2 (by omega), ih.2 (by omega)⟩

theorem flatMap_rereadChar_eq {s : Bytes} (h : ∀ c ∈ s, isNumericEscape c = false) :
    s.flatMap rereadChar = s := by
  induction s with
  | nil => rfl
  | cons c s ih =>
      rw [List.forall_mem_cons] at h
      rw [List.flatMap_cons, ih h.2, rereadChar, h.1]
      rfl

theorem encodePairs_reread (pairs : List (Value × Value)) :
    encodePairs (rereadPairs pairs) = encodeItems ((pairItems pairs).map reread) := by
  rw [rereadPairs_eq, encodePairs_eq]
  simp [pairItems, List.map_flatMap, List.flatMap_map]

theorem mem_pairItems {v : Value} {pairs : List (Value × Value)} :
    v ∈ pairItems pairs ↔ ∃ kv ∈ pairs, v = kv.1 ∨ v = kv.2 := by
  simp [pairItems, List.mem_flatMap]

theorem encodeItems_reread_eq (items : List Value)
    (h : ∀ v ∈ items, encode (reread v) = encode v) :
    encodeItems (items.map reread) = encodeItems items := by
  rw [encodeItems_eq, encodeItems_eq, List.map_map]
  exact congrArg List.flatten (List.map_congr_left h)

theorem encode_reread_eq (v : Value) (json : v.All Value.Jsonable)
    (clean : v.All Value.Unmangled) : encode (reread v) = encode v := by
  induction v using Value.induction with
  | int _ | bool _ | null | float _ | double _ => rfl
  | uint n =>
      have small : n.toNat < 2 ^ 63 := json
      have value := toInt_toInt64 n.toNat n.toNat_lt
      rw [UInt64.ofNat_toNat, if_pos small] at value
      have nonneg : ¬ n.toInt64 < 0 := by
        rw [Int64.lt_iff_toInt_lt, value, Int64.toInt_zero]
        omega
      rw [reread, encode, encode, pushInt, if_neg nonneg, UInt64.toUInt64_toInt64, pushUint]
  | string s => rw [reread, flatMap_rereadChar_eq clean]
  | array items ih =>
      have json := (allItems_iff _ items).mp json.2
      have clean := (allItems_iff _ items).mp clean.2
      have same := encodeItems_reread_eq items fun v hv => ih v hv (json v hv) (clean v hv)
      rw [reread, encode, encode, rereadItems_eq, same, List.length_map]
  | map pairs ih =>
      have json := (allPairs_iff _ pairs).mp json.2
      have clean := (allPairs_iff _ pairs).mp clean.2
      have same := encodeItems_reread_eq (pairItems pairs) fun v hv => by
        obtain ⟨kv, mem, rfl | rfl⟩ := mem_pairItems.mp hv
        · exact (ih kv mem).1 (json kv mem).1 (clean kv mem).1
        · exact (ih kv mem).2 (json kv mem).2 (clean kv mem).2
      rw [reread, encode, encode, encodePairs_reread, same, encodePairs_eq, rereadPairs_eq,
        List.length_map]

/-- Reading back never shortens an encoding, and keeps its length only where no
character is replaced. -/
def Lengthens (v : Value) : Prop :=
  (encode v).length ≤ (encode (reread v)).length ∧
    ((encode v).length = (encode (reread v)).length → v.All Value.Unmangled)

theorem lengthens_items (items : List Value) (h : ∀ v ∈ items, Lengthens v) :
    (encodeItems items).length ≤ (encodeItems (items.map reread)).length ∧
      ((encodeItems items).length = (encodeItems (items.map reread)).length →
        ∀ v ∈ items, v.All Value.Unmangled) := by
  induction items with
  | nil => simp
  | cons v items ih =>
      rw [List.forall_mem_cons] at h
      have head := h.1
      have tail := ih h.2
      rw [Lengthens] at head
      simp only [List.map_cons, encodeItems, List.length_append, List.forall_mem_cons]
      refine ⟨by omega, fun same => ?_⟩
      exact ⟨head.2 (by omega), tail.2 (by omega)⟩

theorem lengthens (v : Value) (json : v.All Value.Jsonable) : Lengthens v := by
  induction v using Value.induction with
  | int _ | bool _ | null | float _ | double _ => exact ⟨Nat.le_refl _, fun _ => trivial⟩
  | uint n =>
      rw [Lengthens, encode_reread_eq (.uint n) json trivial]
      exact ⟨Nat.le_refl _, fun _ => trivial⟩
  | string s =>
      have bound : s.length < 2 ^ 63 := json
      obtain ⟨le, same⟩ := flatMap_rereadChar_length s
      rcases Nat.lt_or_eq_of_le le with longer | equal
      · have strict := pushString_length_lt bound longer
        rw [Lengthens, reread, encode, encode]
        exact ⟨Nat.le_of_lt strict, fun equal => absurd equal (Nat.ne_of_lt strict)⟩
      · have clean : Value.All Value.Unmangled (.string s) := same equal
        rw [Lengthens, encode_reread_eq (.string s) json clean]
        exact ⟨Nat.le_refl _, fun _ => clean⟩
  | array items ih =>
      have json := (allItems_iff _ items).mp json.2
      obtain ⟨le, same⟩ := lengthens_items items fun v hv => ih v hv (json v hv)
      rw [Lengthens, reread, encode, encode, rereadItems_eq, List.length_map,
        List.length_append, List.length_append]
      refine ⟨by omega, fun equal => ⟨trivial, ?_⟩⟩
      rw [allItems_iff]
      exact same (by omega)
  | map pairs ih =>
      have json := (allPairs_iff _ pairs).mp json.2
      obtain ⟨le, same⟩ := lengthens_items (pairItems pairs) fun v hv => by
        obtain ⟨kv, mem, rfl | rfl⟩ := mem_pairItems.mp hv
        · exact (ih kv mem).1 (json kv mem).1
        · exact (ih kv mem).2 (json kv mem).2
      rw [Lengthens, reread, encode, encode, encodePairs_reread, encodePairs_eq, rereadPairs_eq,
        List.length_map, List.length_append, List.length_append]
      refine ⟨by omega, fun equal => ⟨trivial, ?_⟩⟩
      rw [allPairs_iff]
      intro kv mem
      have clean := same (by omega)
      exact ⟨clean kv.1 (mem_pairItems.mpr ⟨kv, mem, .inl rfl⟩),
        clean kv.2 (mem_pairItems.mpr ⟨kv, mem, .inr rfl⟩)⟩

section RoundTrip
variable (toChars : Float → Bytes) (fromChars : Bytes → Option Float)

/-- Printing succeeds and parsing the text into an empty buffer gives the bytes. -/
def RoundTrips (buf : Bytes) : Prop :=
  ∃ json, toJson toChars buf = .ok json ∧ pushJson fromChars [] json = .ok buf

theorem json_reread (v : Value) (json : v.All Value.Jsonable) :
    toJson toChars (encode v) = .ok (jsonText v) ∧
      pushJson fromChars [] (jsonText v) = .ok (encode (reread v)) := by
  have printed := prints_jsonText toChars v json [] []
  have parsed := parses_jsonText fromChars v json [] (by simp [Delimited])
  rw [List.append_nil] at printed parsed
  constructor
  · rw [toJson, printed]
    rfl
  · rw [pushJson, parsed]
    rfl

/-- An item round-trips exactly when none of its strings holds a control character
other than backspace, tab, line feed, form feed and carriage return. -/
theorem json_roundTrips_iff (v : Value) (json : v.All Value.Jsonable) :
    RoundTrips toChars fromChars (encode v) ↔ v.All Value.Unmangled := by
  obtain ⟨printed, parsed⟩ := json_reread toChars fromChars v json
  constructor
  · rintro ⟨out, print, parse⟩
    rw [printed] at print
    cases print
    rw [parsed] at parse
    have same : encode (reread v) = encode v := Except.ok.inj parse
    exact (lengthens v json).2 (congrArg List.length same.symm)
  · intro clean
    refine ⟨jsonText v, printed, ?_⟩
    rw [parsed, encode_reread_eq v json clean]

end RoundTrip

theorem json_roundTrips_iff_nested :
    RoundTrips (fun _ => text "0.5") (fun _ => some 0.5)
      (encode (.map [(.string (text "a\n"), .array [.int (-5), .null])])) := by
  refine (json_roundTrips_iff _ _ _ ?_).mpr ?_
  · simp [Value.All, AllItems, AllPairs, Value.Jsonable, text]
  · have chars : text "a\n" = [97, 10] := rfl
    simp [Value.All, AllItems, AllPairs, Value.Unmangled, chars, isNumericEscape]

/-- The string of the one character 0x01 comes back as the five of u0001. -/
theorem json_round_trip_fails :
    ¬ RoundTrips (fun _ => text "0.5") (fun _ => some 0.5) (encode (.string [1])) := by
  rintro ⟨json, printed, parsed⟩
  have text : toJson (fun _ => text "0.5") (encode (.string [1])) =
      .ok (text "\"\\u0001\"") := by rfl
  rw [text] at printed
  cases printed
  have back : pushJson (fun _ => some 0.5) [] (Cbor.text "\"\\u0001\"") =
      .ok (encode (.string (Cbor.text "u0001"))) := by rfl
  rw [back] at parsed
  exact absurd (Except.ok.inj parsed) (by decide)

end Thespian.Cbor
