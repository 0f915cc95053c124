import Thespian.Cbor.JsonText

/-!
What the printer writes whatever it is given, and that it writes something for every
value tree. It only appends to the stream, and never a newline, since it escapes those
in strings. On the encoding of a value tree whose sizes fit the registers it succeeds.
-/

namespace Thespian.Cbor
open Decoding Decoding.Decoder

def newline : UInt8 := 10

/-- The stream was continued without a newline. -/
def Continues (ss ss' : Bytes) : Prop := ∃ t, ss' = ss ++ t ∧ newline ∉ t

namespace Continues
variable {ss ss' ss'' t : Bytes}

theorem refl (ss : Bytes) : Continues ss ss := ⟨[], by simp, by simp⟩

theorem trans (h : Continues ss ss') (h' : Continues ss' ss'') : Continues ss ss'' := by
  obtain ⟨t, rfl, free⟩ := h
  obtain ⟨t', rfl, free'⟩ := h'
  refine ⟨t ++ t', by simp, ?_⟩
  rw [List.mem_append]
  exact not_or.mpr ⟨free, free'⟩

theorem append (h : Continues ss ss') (free : newline ∉ t) : Continues ss (ss' ++ t) :=
  h.trans ⟨t, rfl, free⟩

theorem writes (ss : Bytes) (free : newline ∉ t) : Continues ss (ss ++ t) := ⟨t, rfl, free⟩

end Continues

theorem newline_notMem_decimal (n : Nat) : newline ∉ decimal n := by
  have digits : ∀ d, d < 10 → digit d ≠ newline := by decide
  unfold decimal
  split
  · decide
  · intro member
    obtain ⟨d, hd, same⟩ := List.mem_map.mp member
    exact digits d (Nat.digits_lt_base (by decide) (List.mem_reverse.mp hd)) same

theorem newline_notMem_signedDecimal (i : Int) : newline ∉ signedDecimal i := by
  unfold signedDecimal
  split
  · rw [List.mem_cons]
    exact not_or.mpr ⟨by decide, newline_notMem_decimal _⟩
  · exact newline_notMem_decimal _

theorem newline_notMem_escape (c : UInt8) : newline ∉ escape c := by
  have all : ∀ n < 256, newline ∉ escape (UInt8.ofNat n) := by decide +kernel
  have here := all c.toNat c.toNat_lt
  rwa [UInt8.ofNat_toNat] at here

theorem newline_notMem_toJsonString (s : Bytes) : newline ∉ toJsonString s := by
  have escaped : newline ∉ s.flatMap escape := by
    intro member
    obtain ⟨c, -, hc⟩ := List.mem_flatMap.mp member
    exact newline_notMem_escape c hc
  have quote : newline ∉ [(34 : UInt8)] := by decide
  simp only [toJsonString, List.mem_append, not_or]
  exact ⟨⟨quote, escaped⟩, quote⟩

/-- The loop over the pairs of a map. -/
theorem continues_pairs {print : Bytes → Printer Bytes}
    (h : ∀ ss s ss' r, print ss s = .ok (ss', r) → Continues ss ss') {n : Nat}
    {start ss ss' s r : Bytes} (begun : Continues start ss)
    (run : countdown (fun i ss => do
      let ss ← print ss
      let ss ← print (ss ++ text ":")
      return if i ≠ 0 then ss ++ text "," else ss) n ss s = .ok (ss', r)) : Continues start ss' := by
  refine countdown_ensures ?_ begun run
  intro i ss₁ s ss₂ r before round
  obtain ⟨ss₃, t, key, round⟩ := bind_eq_ok round
  obtain ⟨ss₄, u, value, round⟩ := bind_eq_ok round
  have entry := (before.trans (h _ _ _ _ key)).append (by decide : newline ∉ text ":")
  have entry := entry.trans (h _ _ _ _ value)
  cases round
  split
  · exact entry.append (by decide)
  · exact entry

section Printer
variable {toChars : Float → Bytes} (plain : ∀ v, newline ∉ toChars v)
include plain

theorem newline_notMem_floatToJson (v : Float) : newline ∉ floatToJson toChars v := by
  have fraction : newline ∉ text ".0" := by decide
  unfold floatToJson
  split
  · decide
  · dsimp only
    split
    · exact plain v
    · rw [List.mem_append]
      exact not_or.mpr ⟨plain v, fraction⟩

theorem continues_toJsonSpecial {type : UInt8} {ss ss' s r : Bytes}
    (run : toJsonSpecial toChars type ss s = .ok (ss', r)) : Continues ss ss' := by
  unfold toJsonSpecial at run
  split at run
  · cases run
    exact .writes ss (by decide)
  · split at run
    · cases run
      exact .writes ss (by decide)
    · split at run
      · cases run
        exact .writes ss (by decide)
      · split at run
        · obtain ⟨v, t, -, run⟩ := bind_eq_ok run
          cases run
          exact .writes ss (newline_notMem_floatToJson plain v)
        · cases run

theorem continues_toJsonType {print : Bytes → Printer Bytes}
    (h : ∀ ss s ss' r, print ss s = .ok (ss', r) → Continues ss ss')
    {major minor type : UInt8} {ss ss' s r : Bytes}
    (run : toJsonType toChars print major minor type ss s = .ok (ss', r)) : Continues ss ss' := by
  unfold toJsonType at run
  split at run
  · obtain ⟨i, t, -, run⟩ := bind_eq_ok run
    cases run
    exact .writes ss (newline_notMem_decimal _)
  · obtain ⟨i, t, -, run⟩ := bind_eq_ok run
    cases run
    exact .writes ss (newline_notMem_signedDecimal _)
  · obtain ⟨v, t, -, run⟩ := bind_eq_ok run
    cases run
    exact .writes ss (newline_notMem_toJsonString v)
  · obtain ⟨v, t, -, run⟩ := bind_eq_ok run
    cases run
    exact .writes ss (newline_notMem_toJsonString v)
  · obtain ⟨i, t, -, run⟩ := bind_eq_ok run
    obtain ⟨ss₁, u, rounds, run⟩ := bind_eq_ok run
    cases run
    have inside : Continues ss ss₁ := by
      refine countdown_ensures ?_ (.writes ss (by decide)) rounds
      intro i ss₂ s ss₃ r before round
      obtain ⟨ss₄, v, printed, round⟩ := bind_eq_ok round
      have item := before.trans (h _ _ _ _ printed)
      cases round
      split
      · exact item.append (by decide)
      · exact item
    exact inside.append (by decide)
  · obtain ⟨i, t, -, run⟩ := bind_eq_ok run
    obtain ⟨ss₁, u, rounds, run⟩ := bind_eq_ok run
    cases run
    have inside := continues_pairs h (.writes ss (by decide)) rounds
    exact inside.append (by decide)
  · cases run
  · exact continues_toJsonSpecial plain run
  · cases run

/-- The printer appends to the stream, and no newline. -/
theorem continues_toJsonStream {ss ss' s r : Bytes}
    (run : toJsonStream toChars ss s = .ok (ss', r)) : Continues ss ss' := by
  refine fix_ensures (R := fun ss _ ss' _ => Continues ss ss') ?_ run
  intro print hprint ss s ss' r run
  obtain ⟨⟨major, minor, type⟩, t, -, run⟩ := bind_eq_ok run
  exact continues_toJsonType plain hprint run

end Printer

theorem Value.Sized.mono {bound bound' : Nat} (less : bound ≤ bound') {v : Value} (sized : v.Sized bound) :
    v.Sized bound' := by
  induction v using Value.induction with
  | int _ | uint _ | bool _ | null | float _ | double _ => trivial
  | string s => exact Nat.lt_of_lt_of_le sized less
  | array items ih =>
      obtain ⟨count, all⟩ := sized
      rw [sizedItems_iff] at all
      refine ⟨Nat.lt_of_lt_of_le count less, (sizedItems_iff _ _).mpr ?_⟩
      exact fun v hv => ih v hv (all v hv)
  | map pairs ih =>
      obtain ⟨count, all⟩ := sized
      rw [sizedPairs_iff] at all
      refine ⟨Nat.lt_of_lt_of_le count less, (sizedPairs_iff _ _).mpr ?_⟩
      intro v hv
      obtain ⟨kv, hkv, member⟩ := List.mem_flatMap.mp hv
      have bound := all v hv
      simp only [List.mem_cons, List.not_mem_nil, or_false] at member
      rcases member with rfl | rfl
      · exact (ih kv hkv).1 bound
      · exact (ih kv hkv).2 bound

section Values
variable (toChars : Float → Bytes)

/-- The printer has a text for the value, whatever it has written before. -/
def Printable (v : Value) : Prop :=
  ∃ t, ∀ ss r, toJsonStream toChars ss (encode v ++ r) = .ok (ss ++ t, r)

theorem printable_float (bits : UInt32) : Printable toChars (.float bits) := by
  refine ⟨floatToJson toChars (Float32.ofBits bits).toFloat, ?_⟩
  intro ss r
  have wide := bits.toNat_lt
  have read := reads_decodeIntLength bits.toNat 3 (by decide) wide r
  have value : decodeFloat 0xfa (bigEndianBytes 4 bits.toNat ++ r) =
      .ok ((Float32.ofBits bits).toFloat, r) := by
    have whole := bind_of_ok read fun bits =>
      (pure (Float32.ofBits bits.toUInt32).toFloat : Reader Float)
    have same : (UInt64.ofNat bits.toNat).toUInt32 = bits := by
      apply UInt32.toNat_inj.mp
      rw [UInt64.toNat_toUInt32, toNat_ofNat_register (by omega)]
      omega
    rw [same] at whole
    exact whole
  have written := (mapError_eq_ok (·, ss)).mpr value
  have fits : Width.four.Fits bits.toNat := wide
  rw [encode, pushFloat_eq, toJsonStream_header toChars (by decide) fits]
  have byte : UInt8.ofNat (7 <<< 5 ||| 26) = 0xfa := by decide
  simp only [Width.info, byte]
  change toJsonSpecial toChars 0xfa ss (bigEndianBytes 4 bits.toNat ++ r) = _
  rw [toJsonSpecial, if_neg (by decide), if_neg (by decide), if_neg (by decide), if_pos (by decide)]
  exact bind_of_ok written _

theorem printable_double (bits : UInt64) : Printable toChars (.double bits) := by
  refine ⟨floatToJson toChars (Float.ofBits bits), ?_⟩
  intro ss r
  have wide := bits.toNat_lt
  have read := reads_decodeIntLength bits.toNat 7 (by decide) wide r
  have value : decodeFloat 0xfb (bigEndianBytes 8 bits.toNat ++ r) = .ok (Float.ofBits bits, r) := by
    have whole := bind_of_ok read fun bits => (pure (Float.ofBits bits) : Reader Float)
    rw [UInt64.ofNat_toNat] at whole
    exact whole
  have written := (mapError_eq_ok (·, ss)).mpr value
  have fits : Width.eight.Fits bits.toNat := wide
  rw [encode, pushDouble_eq, toJsonStream_header toChars (by decide) fits]
  have byte : UInt8.ofNat (7 <<< 5 ||| 27) = 0xfb := by decide
  simp only [Width.info, byte]
  change toJsonSpecial toChars 0xfb ss (bigEndianBytes 8 bits.toNat ++ r) = _
  rw [toJsonSpecial, if_neg (by decide), if_neg (by decide), if_neg (by decide), if_pos (by decide)]
  exact bind_of_ok written _

theorem printable (v : Value) (sized : v.Sized (2 ^ 64)) : Printable toChars v := by
  induction v using Value.induction with
  | int i => exact ⟨_, prints_int toChars i⟩
  | uint n => exact ⟨_, prints_uint toChars n⟩
  | bool b => exact ⟨_, prints_bool toChars b⟩
  | null => exact ⟨_, prints_null toChars⟩
  | string s => exact ⟨_, prints_string toChars sized⟩
  | float bits => exact printable_float toChars bits
  | double bits => exact printable_double toChars bits
  | array items ih =>
      obtain ⟨count, all⟩ := sized
      rw [sizedItems_iff] at all
      have each : ∀ v ∈ items, Printable toChars v := fun v hv => ih v hv (all v hv)
      choose! txt prints using each
      exact ⟨_, prints_array toChars count prints⟩
  | map pairs ih =>
      obtain ⟨count, all⟩ := sized
      rw [sizedPairs_iff] at all
      have each : ∀ v ∈ pairItems pairs, Printable toChars v := by
        intro v hv
        obtain ⟨kv, hkv, member⟩ := List.mem_flatMap.mp hv
        have bound := all v hv
        simp only [List.mem_cons, List.not_mem_nil, or_false] at member
        rcases member with rfl | rfl
        · exact (ih kv hkv).1 bound
        · exact (ih kv hkv).2 bound
      choose! txt prints using each
      have item : ∀ kv ∈ pairs, kv.1 ∈ pairItems pairs ∧ kv.2 ∈ pairItems pairs := by
        intro kv hkv
        exact ⟨List.mem_flatMap.mpr ⟨kv, hkv, by simp⟩, List.mem_flatMap.mpr ⟨kv, hkv, by simp⟩⟩
      exact ⟨_, prints_map toChars count fun kv hkv =>
        ⟨prints kv.1 (item kv hkv).1, prints kv.2 (item kv hkv).2⟩⟩

theorem toJson_prints {v : Value} {t : Bytes}
    (prints : ∀ ss r, toJsonStream toChars ss (encode v ++ r) = .ok (ss ++ t, r)) (r : Bytes) :
    toJson toChars (encode v ++ r) = .ok t := by
  rw [toJson, prints [] r]
  rfl

theorem toJson_printable {v : Value} (h : Printable toChars v) :
    ∃ t, toJson toChars (encode v) = .ok t := by
  obtain ⟨t, prints⟩ := h
  have whole := toJson_prints toChars prints []
  rw [List.append_nil] at whole
  exact ⟨t, whole⟩

variable {toChars} (plain : ∀ v, newline ∉ toChars v)
include plain

theorem newline_notMem_toJson {buf t : Bytes} (run : toJson toChars buf = .ok t) : newline ∉ t := by
  unfold toJson at run
  split at run
  · rename_i ss r printed
    cases run
    obtain ⟨t, rfl, free⟩ := continues_toJsonStream plain printed
    exact free
  · cases run

/-- The text of a map of several pairs begins with the texts of its first pair. -/
theorem toJson_first_pair {m : Nat} (few : m + 2 < 2 ^ 64) {k v : Value} {tk tv rest t : Bytes}
    (hk : ∀ ss r, toJsonStream toChars ss (encode k ++ r) = .ok (ss ++ tk, r))
    (hv : ∀ ss r, toJsonStream toChars ss (encode v ++ r) = .ok (ss ++ tv, r))
    (run : toJson toChars (mapHeader (UInt64.ofNat (m + 2)) ++ (encode k ++ (encode v ++ rest))) =
      .ok t) :
    ∃ u, t = [123] ++ tk ++ [58] ++ tv ++ [44] ++ u ∧ newline ∉ t := by
  have free := newline_notMem_toJson plain run
  suffices first : ∃ u, t = [123] ++ tk ++ [58] ++ tv ++ [44] ++ u by
    obtain ⟨u, same⟩ := first
    exact ⟨u, same, free⟩
  have len : (UInt64.ofNat (m + 2)).toNat = m + 2 := toNat_ofNat_register few
  obtain ⟨w, fits, eq⟩ := pushTypedVal_eq cborMagicTypeMap (UInt64.ofNat (m + 2))
  rw [len] at fits eq
  unfold toJson at run
  split at run
  case h_2 => cases run
  rename_i ss r printed
  cases run
  rw [mapHeader, eq, toJsonStream_header toChars (by decide) fits] at printed
  change toJsonMap (toJsonStream toChars) _ [] _ = _ at printed
  have argument := writing_argument fits [] (encode k ++ (encode v ++ rest))
  rw [toJsonMap, bind_of_ok argument, len] at printed
  obtain ⟨ss₁, s₁, rounds, printed⟩ := bind_eq_ok printed
  cases printed
  rw [countdown] at rounds
  obtain ⟨ss₂, s₂, first, later⟩ := bind_eq_ok rounds
  rw [bind_of_ok (hk _ _), bind_of_ok (hv _ _)] at first
  cases first
  have continued : Continues ([] ++ [123] ++ tk ++ text ":" ++ tv ++ text ",") ss₁ := by
    refine continues_pairs ?_ (.refl _) later
    exact fun _ _ _ _ => continues_toJsonStream plain
  obtain ⟨u, rfl, -⟩ := continued
  exact ⟨u ++ [125], by simp [text_colon, text_comma]⟩

end Values

end Thespian.Cbor
