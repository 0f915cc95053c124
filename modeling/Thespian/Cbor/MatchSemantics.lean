import Thespian.Cbor.Match

/-!
The matcher against its reference semantics. Scalar matchers and extractors
never throw on an encoding: they find exactly what the reference says. Nested
patterns may throw on an element of the wrong kind, so the main result speaks of
the returns only.
-/

namespace Thespian.Cbor
open Decoding Decoding.Decoder

/-- On the encoding of the value the reader returns the given answer, and a
positive one leaves the iterator behind the encoding. -/
def Finds {α : Type} (d : Reader (Option α)) (v : Value) (o : Option α) : Prop :=
  ∀ r, ∃ t, d (encode v ++ r) = .ok (o, t) ∧ (o.isSome → t = r)

section Finds
variable {α β : Type} {d : Reader (Option α)} {v : Value} {o : Option α}

theorem finds_of_reads (h : Reads d (encode v) o) : Finds d v o :=
  fun r => ⟨r, h r, fun _ => rfl⟩

theorem finds_none (h : ∀ r, ∃ t, d (encode v ++ r) = .ok (none, t)) : Finds d v none := by
  intro r
  obtain ⟨t, ht⟩ := h r
  exact ⟨t, ht, by simp⟩

theorem Finds.map (h : Finds d v o) (f : α → β) :
    Finds (do return (← d).map f) v (o.map f) := by
  intro r
  obtain ⟨t, ht, exact⟩ := h r
  exact ⟨t, bind_of_ok ht _, by simpa using exact⟩

end Finds

/-- The encoder's integer items are exact: negative ones stay within int64. -/
theorem encode_integer {v : Value} {k : Int} (h : v.integer? = some k) :
    ∃ (negative : Bool) (w : Width) (n : Nat), w.Fits n ∧
      encode v = integerItem negative w n ∧ denoted negative n = k ∧
      (negative = true → n < 2 ^ 63) := by
  cases v with
  | int i =>
      have low := i.le_toInt
      have high := i.toInt_lt
      have value : i.toInt = k := by simpa [Value.integer?] using h
      rw [encode, pushInt]
      split
      case isTrue negative =>
        have sign : i.toInt < 0 := by simpa [Int64.lt_iff_toInt_lt] using negative
        obtain ⟨w, fits, eq⟩ := pushTypedVal_eq 1 (-(i + 1)).toUInt64
        have argument : ((-(i + 1)).toUInt64.toNat : Int) = -1 - i.toInt := by
          have signed : (-(i + 1)).toInt = -1 - i.toInt := by
            rw [Int64.toInt_neg, Int64.toInt_add, Int64.toInt_one]
            simp only [Int.bmod]
            split <;> split <;> omega
          have nonneg : (0 : Int64) ≤ -(i + 1) := by
            rw [Int64.le_iff_toInt_le, signed, Int64.toInt_zero]
            omega
          rw [Int64.toNat_toUInt64_of_le nonneg, Int64.cast_toNatClampNeg _ nonneg, signed]
        refine ⟨true, w, _, fits, eq, ?_, ?_⟩
        · simp only [denoted, if_true]
          omega
        · intro _
          omega
      case isFalse negative =>
        have sign : 0 ≤ i.toInt := by simpa [Int64.lt_iff_toInt_lt] using negative
        obtain ⟨w, fits, eq⟩ := pushTypedVal_eq 0 i.toUInt64
        have argument := toNat_toUInt64_of_nonneg sign
        refine ⟨false, w, _, fits, eq, ?_, by simp⟩
        simp only [denoted, Bool.false_eq_true, if_false]
        omega
  | uint n =>
      obtain ⟨w, fits, eq⟩ := pushTypedVal_eq 0 n
      have value : (n.toNat : Int) = k := by simpa [Value.integer?] using h
      exact ⟨false, w, _, fits, eq, by simpa [denoted] using value, by simp⟩
  | bool _ | null | string _ | float _ | double _ | array _ | map _ =>
      simp [Value.integer?] at h

/-- The initial byte of anything but an integer has another major type. -/
theorem encode_not_integer {v : Value} (h : v.integer? = none) :
    ∃ (major : Nat) (w : Width) (n : Nat) (body : Bytes), 2 ≤ major ∧ major < 8 ∧ w.Fits n ∧
      encode v = header major w n ++ body := by
  obtain ⟨major, w, n, body, hm, fits, eq, type⟩ := encode_eq_header v
  refine ⟨major, w, n, body, ?_, hm, fits, eq⟩
  by_contra small
  have number : v.type = .number := by
    rcases (by omega : major = 0 ∨ major = 1) with rfl | rfl
    · simpa [typeOf, eq_comm] using type
    · simpa [typeOf, eq_comm] using type
  cases v <;> simp [Value.integer?, Value.type] at h number

theorem matchInt_not_integer {v : Value} (h : v.integer? = none) (r : Bytes) :
    ∃ t, matchInt (encode v ++ r) = .ok (none, t) := by
  obtain ⟨major, w, n, body, low, hm, fits, eq⟩ := encode_not_integer h
  refine ⟨bigEndianBytes w.bytes n ++ (body ++ r), ?_⟩
  rw [eq, List.append_assoc, matchInt, bind_of_ok (decodeType_header hm fits (body ++ r))]
  rcases (by omega : major = 2 ∨ major = 3 ∨ major = 4 ∨ major = 5 ∨ major = 6 ∨ major = 7) with
    rfl | rfl | rfl | rfl | rfl | rfl <;> rfl

theorem matchUint_not_integer {v : Value} (h : v.integer? = none) (r : Bytes) :
    ∃ t, matchUint (encode v ++ r) = .ok (none, t) := by
  obtain ⟨major, w, n, body, low, hm, fits, eq⟩ := encode_not_integer h
  refine ⟨bigEndianBytes w.bytes n ++ (body ++ r), ?_⟩
  rw [eq, List.append_assoc, matchUint, bind_of_ok (decodeType_header hm fits (body ++ r))]
  rcases (by omega : major = 2 ∨ major = 3 ∨ major = 4 ∨ major = 5 ∨ major = 6 ∨ major = 7) with
    rfl | rfl | rfl | rfl | rfl | rfl <;> rfl

theorem finds_extractInteger (T : IntType) (v : Value) :
    Finds (extractInteger T) v (v.integer?.filter fun i => T.min ≤ i ∧ i ≤ T.max) := by
  cases h : v.integer? with
  | none =>
      refine finds_none fun r => ?_
      cases hT : T.signed with
      | true =>
          obtain ⟨t, ht⟩ := matchInt_not_integer h r
          rw [extractInteger_signed hT]
          exact ⟨t, bind_of_ok ht _⟩
      | false =>
          obtain ⟨t, ht⟩ := matchUint_not_integer h r
          have checked : extractUint T (encode v ++ r) = .ok (none, t) := bind_of_ok ht _
          refine ⟨t, ?_⟩
          cases T <;> first | exact checked | exact bind_of_ok ht _ | simp [IntType.signed] at hT
  | some k =>
      obtain ⟨negative, w, n, fits, eq, value, int64⟩ := encode_integer h
      have low := T.min_nonpos
      have high := T.max_nonneg
      cases negative with
      | false =>
          have positive : (n : Int) = k := by simpa [denoted] using value
          apply finds_of_reads
          intro r
          rw [eq, integerItem, if_neg (by decide), extractInteger_positive T fits, positive]
          simp only [Option.filter_some, show T.min ≤ k by omega, true_and, decide_eq_true_eq]
      | true =>
          have negated : -1 - (n : Int) = k := by simpa [denoted] using value
          cases hT : T.signed with
          | true =>
              apply finds_of_reads
              intro r
              have read := (extractInteger_negative T fits r).2.1 hT (int64 rfl)
              rw [eq, integerItem, if_pos rfl, read, negated]
              simp only [Option.filter_some, show k ≤ T.max by omega, and_true,
                decide_eq_true_eq]
          | false =>
              have minimum : T.min = 0 := by simp [IntType.min, hT]
              have rejected : (some k).filter (fun i => T.min ≤ i ∧ i ≤ T.max) = none := by
                simp only [Option.filter_some, decide_eq_true_eq]
                rw [if_neg (by omega)]
              rw [rejected]
              refine finds_none fun r => ⟨bigEndianBytes w.bytes n ++ r, ?_⟩
              rw [eq, integerItem, if_pos rfl]
              exact (extractInteger_negative T fits r).1 hT

theorem finds_matchBool (v : Value) : Finds matchBool v v.bool? := by
  cases h : v.bool? with
  | some b =>
      cases v <;> simp [Value.bool?] at h
      subst h
      apply finds_of_reads
      intro r
      cases ‹Bool› <;> rfl
  | none =>
      refine finds_none fun r => ?_
      obtain ⟨major, w, n, body, hm, fits, eq, type⟩ := encode_eq_header v
      refine ⟨bigEndianBytes w.bytes n ++ (body ++ r), ?_⟩
      rw [eq, List.append_assoc, matchBool, bind_of_ok (decodeType_header hm fits (body ++ r))]
      have notBool : v.type ≠ .boolean := by
        cases v <;> simp [Value.bool?, Value.type] at h ⊢
      rcases (by omega : major < 7 ∨ major = 7) with small | rfl
      · have other : UInt8.ofNat major ≠ 7 := by
          have all : ∀ m : Fin 7, UInt8.ofNat m.val ≠ 7 := by decide
          exact all ⟨major, small⟩
        simp [other]
      · have other : UInt8.ofNat (7 <<< 5 ||| w.info n) ≠ 0xf4 ∧
            UInt8.ofNat (7 <<< 5 ||| w.info n) ≠ 0xf5 := by
          constructor <;>
          · intro byte
            rw [byte] at type
            exact notBool (Option.some.inj type).symm
        dsimp only
        rw [if_pos (by decide), if_neg other.1, if_neg other.2]
        rfl

theorem finds_matchString (v : Value) (hv : v.Sized (2 ^ 63)) : Finds matchString v v.string? := by
  cases h : v.string? with
  | some s =>
      cases v <;> simp [Value.string?] at h
      subst h
      obtain ⟨w, fits, eq⟩ := pushTypedVal_eq 3 (UInt64.ofNat (List.length ‹Bytes›))
      rename_i s
      have len : (UInt64.ofNat s.length).toNat = s.length :=
        toNat_ofNat_register (by simp only [Value.Sized] at hv; omega)
      rw [len] at fits eq
      apply finds_of_reads
      intro r
      have argument := reads_decodePint fits (s ++ r)
      have content : decodeString (UInt8.ofNat (w.info s.length))
          (bigEndianBytes w.bytes s.length ++ (s ++ r)) = .ok (s, r) := by
        rw [decodeString, bind_of_ok argument, len]
        exact reads_takeN tooShort s r
      rw [encode, pushString, eq, List.append_assoc, matchString,
        bind_of_ok (decodeType_header (by decide) fits (s ++ r))]
      exact bind_of_ok content _
  | none =>
      refine finds_none fun r => ?_
      obtain ⟨major, w, n, body, hm, fits, eq, type⟩ := encode_eq_header v
      refine ⟨bigEndianBytes w.bytes n ++ (body ++ r), ?_⟩
      have notString : v.type ≠ .string ∧ v.type ≠ .bytes := by
        cases v <;> simp [Value.string?, Value.type] at h ⊢
      rw [eq, List.append_assoc, matchString, bind_of_ok (decodeType_header hm fits (body ++ r))]
      rcases (by omega : major = 0 ∨ major = 1 ∨ major = 2 ∨ major = 3 ∨ major = 4 ∨ major = 5 ∨
        major = 6 ∨ major = 7) with rfl | rfl | rfl | rfl | rfl | rfl | rfl | rfl
      case inr.inr.inl => exact absurd (Option.some.inj type).symm notString.2
      case inr.inr.inr.inl => exact absurd (Option.some.inj type).symm notString.1
      all_goals rfl

theorem matchFloat_not_number {v : Value} (number : v.type ≠ .number)
    (floating : v.type ≠ .floating) (r : Bytes) :
    ∃ t, matchFloat (encode v ++ r) = .ok (none, t) := by
  obtain ⟨major, w, n, body, hm, fits, eq, type⟩ := encode_eq_header v
  refine ⟨bigEndianBytes w.bytes n ++ (body ++ r), ?_⟩
  rw [eq, List.append_assoc, matchFloat, bind_of_ok (decodeType_header hm fits (body ++ r))]
  rcases (by omega : major = 0 ∨ major = 1 ∨ major = 2 ∨ major = 3 ∨ major = 4 ∨ major = 5 ∨
    major = 6 ∨ major = 7) with rfl | rfl | rfl | rfl | rfl | rfl | rfl | rfl
  case inl => exact absurd (Option.some.inj type).symm number
  case inr.inl => exact absurd (Option.some.inj type).symm number
  case inr.inr.inr.inr.inr.inr.inr =>
    generalize UInt8.ofNat (7 <<< 5 ||| w.info n) = byte at type ⊢
    have other : isFloatType byte = false := by
      by_contra float
      simp only [isFloatType, Bool.or_eq_false_iff, decide_eq_false_iff_not, not_and_or,
        not_not] at float
      rcases float with (rfl | rfl) | rfl <;>
        exact floating (Option.some.inj type).symm
    change (if (!isFloatType byte) = true then _ else _ : Reader (Option Float)) _ = _
    rw [other]
    rfl
  all_goals rfl

theorem finds_matchFloat (v : Value) : Finds matchFloat v v.number? := by
  cases v with
  | int i =>
      apply finds_of_reads
      intro r
      rw [encode, pushInt, Value.number?]
      split
      case isTrue negative =>
        obtain ⟨w, fits, eq⟩ := pushTypedVal_eq 1 (-(i + 1)).toUInt64
        have read : decodeNint _ _ = .ok (_, r) := bind_of_ok (reads_decodePint fits r) _
        rw [UInt64.ofNat_toNat, toInt64_negated_argument] at read
        rw [eq, matchFloat, bind_of_ok (decodeType_header (by decide) fits r)]
        exact bind_of_ok read _
      case isFalse =>
        obtain ⟨w, fits, eq⟩ := pushTypedVal_eq 0 i.toUInt64
        have read := reads_decodePint fits r
        rw [UInt64.ofNat_toNat] at read
        rw [eq, matchFloat, bind_of_ok (decodeType_header (by decide) fits r)]
        exact bind_of_ok read _
  | uint n =>
      apply finds_of_reads
      intro r
      obtain ⟨w, fits, eq⟩ := pushTypedVal_eq 0 n
      have read := reads_decodePint fits r
      rw [UInt64.ofNat_toNat] at read
      rw [encode, pushUint, eq, matchFloat, bind_of_ok (decodeType_header (by decide) fits r)]
      exact bind_of_ok read _
  | float bits =>
      apply finds_of_reads
      intro r
      have wide := bits.toNat_lt
      have read := reads_decodeIntLength bits.toNat 3 (by decide) wide r
      have narrowed : (UInt64.ofNat bits.toNat).toUInt32 = bits := by
        apply UInt32.toNat_inj.mp
        rw [UInt64.toNat_toUInt32, toNat_ofNat_register (by omega)]
        omega
      have value : decodeFloat 0xfa (bigEndianBytes 4 bits.toNat ++ r) =
          .ok ((Float32.ofBits bits).toFloat, r) := by
        have whole := bind_of_ok read fun bits =>
          (pure (Float32.ofBits bits.toUInt32).toFloat : Reader Float)
        rw [narrowed] at whole
        exact whole
      rw [encode, pushFloat_eq, matchFloat,
        bind_of_ok (decodeType_header (w := .four) (by decide) wide r)]
      have byte : UInt8.ofNat (7 <<< 5 ||| 26) = 0xfa := by decide
      simp only [Width.info, byte]
      change (decodeFloat 0xfa >>= fun v => pure (some v)) (bigEndianBytes 4 bits.toNat ++ r) = _
      exact bind_of_ok value _
  | double bits =>
      apply finds_of_reads
      intro r
      have wide := bits.toNat_lt
      have read := reads_decodeIntLength bits.toNat 7 (by decide) wide r
      have value : decodeFloat 0xfb (bigEndianBytes 8 bits.toNat ++ r) =
          .ok (Float.ofBits bits, r) := by
        have whole := bind_of_ok read fun bits => (pure (Float.ofBits bits) : Reader Float)
        rw [UInt64.ofNat_toNat] at whole
        exact whole
      rw [encode, pushDouble_eq, matchFloat,
        bind_of_ok (decodeType_header (w := .eight) (by decide) wide r)]
      have byte : UInt8.ofNat (7 <<< 5 ||| 27) = 0xfb := by decide
      simp only [Width.info, byte]
      change (decodeFloat 0xfb >>= fun v => pure (some v)) (bigEndianBytes 8 bits.toNat ++ r) = _
      exact bind_of_ok value _
  | bool _ | null | string _ | array _ | map _ =>
      exact finds_none (matchFloat_not_number (by simp [Value.type]) (by simp [Value.type]))

theorem finds_extractRange (v : Value) (hv : v.Sized (2 ^ 63)) :
    Finds extractRange v
      (if v.type = .null ∨ v.type = .array ∨ v.type = .map then some (encode v) else none) := by
  apply finds_of_reads
  intro r
  have item : (encode v ++ r).take ((encode v ++ r).length - r.length) = encode v := by simp
  rw [extractRange, reads_matchType v hv r]
  dsimp only
  rw [item]
  split <;> rfl

theorem finds_extract (ex : Extractor) (v : Value) (hv : v.Sized (2 ^ 63)) :
    Finds (extract ex) v (ex.bind? v) := by
  cases ex with
  | type => exact (finds_of_reads (reads_matchType v hv)).map Bound.type
  | int T => exact (finds_extractInteger T v).map Bound.int
  | bool => exact (finds_matchBool v).map Bound.bool
  | double => exact (finds_matchFloat v).map Bound.double
  | float => exact (finds_matchFloat v).map fun d => Bound.float d.toFloat32
  | string => exact (finds_matchString v hv).map Bound.string
  | range =>
      have found := (finds_extractRange v hv).map Bound.range
      rw [apply_ite (Option.map Bound.range)] at found
      exact found

theorem finds_matchInt (v : Value) :
    ∃ o, Finds matchInt v o ∧ ∀ lit : Int64, o = some lit ↔ v.integer? = some lit.toInt := by
  cases h : v.integer? with
  | none => exact ⟨none, finds_none (matchInt_not_integer h), by simp⟩
  | some k =>
      obtain ⟨negative, w, n, fits, eq, value, int64⟩ := encode_integer h
      have bound := fits.lt
      cases negative with
      | false =>
          have positive : (n : Int) = k := by simpa [denoted] using value
          refine ⟨if n < 2 ^ 63 then some (UInt64.ofNat n).toInt64 else none,
            finds_of_reads ?_, ?_⟩
          · intro r
            rw [eq, integerItem, if_neg (by decide)]
            exact matchInt_header fits r
          · intro lit
            have high := lit.toInt_lt
            have same := toInt_toInt64 n bound
            by_cases small : n < 2 ^ 63
            · rw [if_pos small] at same
              simp only [if_pos small, Option.some.injEq, ← Int64.toInt_inj, same, positive]
            · simp only [if_neg small, reduceCtorEq, Option.some.injEq, false_iff]
              omega
      | true =>
          have negated : -1 - (n : Int) = k := by simpa [denoted] using value
          refine ⟨some (-(UInt64.ofNat n + 1)).toInt64, finds_of_reads ?_, ?_⟩
          · intro r
            rw [eq, integerItem, if_pos rfl]
            exact matchInt_header_negative fits r
          · intro lit
            have same := toInt_negated n bound
            rw [if_pos (int64 rfl)] at same
            simp only [Option.some.injEq, ← Int64.toInt_inj, same, negated]

theorem finds_matchUint (v : Value) :
    ∃ o, Finds matchUint v o ∧ ∀ lit : UInt64, o = some lit ↔ v.integer? = some (lit.toNat : Int) := by
  cases h : v.integer? with
  | none => exact ⟨none, finds_none (matchUint_not_integer h), by simp⟩
  | some k =>
      obtain ⟨negative, w, n, fits, eq, value, -⟩ := encode_integer h
      cases negative with
      | false =>
          have positive : (n : Int) = k := by simpa [denoted] using value
          refine ⟨some (UInt64.ofNat n), finds_of_reads ?_, ?_⟩
          · intro r
            rw [eq, integerItem, if_neg (by decide)]
            exact matchUint_header fits r
          · intro lit
            simp only [Option.some.injEq, ← UInt64.toNat_inj, toNat_ofNat_register fits.lt,
              ← positive, Int.natCast_inj]
      | true =>
          have negated : -1 - (n : Int) = k := by simpa [denoted] using value
          refine ⟨none, finds_none fun r => ⟨bigEndianBytes w.bytes n ++ r, ?_⟩, ?_⟩
          · rw [eq, integerItem, if_pos rfl]
            exact matchUint_header_negative fits r
          · intro lit
            simp only [reduceCtorEq, Option.some.injEq, false_iff]
            omega

/-- Whenever the matcher returns on the input, its answer is the given
proposition, and a match has made the given writes and consumed the input. -/
def Answers (d : Reader (Bool × Writes)) (x : Bytes) (M : Prop) (w : Writes) : Prop :=
  ∀ r b ws t, d (x ++ r) = .ok ((b, ws), t) → (b = true ↔ M) ∧ (b = true → ws = w ∧ t = r)

theorem answers_literal {α : Type} [DecidableEq α] {d : Reader (Option α)} {v : Value}
    {o : Option α} (found : Finds d v o) (lit : α) :
    Answers (matchLiteral d lit) (encode v) (o = some lit) [] := by
  intro r b ws t h
  obtain ⟨u, hu, exact⟩ := found r
  rw [matchLiteral, bind_of_ok hu] at h
  cases o with
  | none =>
      cases h
      simp
  | some val =>
      cases h
      simp [exact]

theorem answers_type (t : CborType) {v : Value} (hv : v.Sized (2 ^ 63)) :
    Answers (matchValue (.type t)) (encode v) ((Pattern.type t).Matches v) [] := by
  intro r b ws u h
  rw [matchValue, bind_of_ok (reads_matchValueType v hv t r)] at h
  cases h
  simp [Pattern.Matches]

theorem answers_extract (ex : Extractor) (var : Nat) {v : Value} (hv : v.Sized (2 ^ 63)) :
    Answers (matchValue (.extract ex var)) (encode v) ((Pattern.extract ex var).Matches v)
      ((Pattern.extract ex var).bindings v) := by
  intro r b ws u h
  obtain ⟨t, ht, exact⟩ := finds_extract ex v hv r
  rw [matchValue, bind_of_ok ht] at h
  simp only [Pattern.Matches, Pattern.bindings]
  cases hb : ex.bind? v with
  | none =>
      rw [hb] at h
      cases h
      simp
  | some val =>
      rw [hb] at h exact
      cases h
      simp [exact]

theorem header_ne_null {major n : Nat} {w : Width} (hm : major < 7) (hn : w.Fits n) :
    UInt8.ofNat (major <<< 5 ||| w.info n) ≠ 0xf6 := by
  intro null
  have top := (initial_byte major (w.info n) (by omega) (Width.info_lt hn)).1
  rw [null] at top
  have all : ∀ m : Fin 7, (0xf6 : UInt8) >>> 5 ≠ UInt8.ofNat m.val := by decide
  exact all ⟨major, hm⟩ top

/-- The two container headers differ in their major type and error text only. -/
theorem header_rejects {v : Value} {m : Nat} (hm : m = 4 ∨ m = 5) (e : DomainError)
    (notNull : v.type ≠ .null)
    (other : v.type ≠ if m = 4 then .array else .map) (r : Bytes) :
    (do
      let (major, minor, type) ← decodeType
      if type = 0xf6 then
        return 0
      if major ≠ UInt8.ofNat m then
        throw e
      decodePint minor : Reader UInt64) (encode v ++ r) = .error e := by
  obtain ⟨major, w, n, body, hmajor, fits, eq, type⟩ := encode_eq_header v
  have byte : UInt8.ofNat (major <<< 5 ||| w.info n) ≠ 0xf6 := by
    rcases (by omega : major < 7 ∨ major = 7) with small | rfl
    · exact header_ne_null small fits
    · intro null
      rw [null] at type
      exact notNull (Option.some.inj type).symm
  have differs : UInt8.ofNat major ≠ UInt8.ofNat m := by
    intro same
    rw [same] at type
    rcases hm with rfl | rfl
    · exact other (Option.some.inj type).symm
    · exact other (Option.some.inj type).symm
  rw [eq, List.append_assoc, bind_of_ok (decodeType_header hmajor fits (body ++ r))]
  dsimp only
  rw [if_neg byte, if_pos differs]
  rfl

theorem decodeArrayHeader_pushed (n : UInt64) (r : Bytes) :
    decodeArrayHeader (arrayHeader n ++ r) = .ok (n, r) := by
  obtain ⟨w, fits, eq⟩ := pushTypedVal_eq cborMagicTypeArray n
  have argument := reads_decodePint fits r
  rw [UInt64.ofNat_toNat] at argument
  rw [arrayHeader, eq, decodeArrayHeader,
    bind_of_ok (decodeType_header (by decide) fits _)]
  dsimp only
  rw [if_neg (header_ne_null (by decide) fits)]
  exact argument

theorem decodeArrayHeader_encode {v : Value} (hv : v.Sized (2 ^ 63)) (r : Bytes) :
    match v.arrayItems? with
    | some items => ∃ n : UInt64, n.toNat = items.length ∧
        decodeArrayHeader (encode v ++ r) = .ok (n, encodeItems items ++ r)
    | none => ∃ e, decodeArrayHeader (encode v ++ r) = .error e := by
  cases v with
  | array items =>
      obtain ⟨count, -⟩ := hv
      refine ⟨UInt64.ofNat items.length, toNat_ofNat_register (by omega), ?_⟩
      rw [encode, List.append_assoc]
      exact decodeArrayHeader_pushed _ _
  | null => exact ⟨0, rfl, rfl⟩
  | int _ | uint _ | bool _ | string _ | float _ | double _ | map _ =>
      exact ⟨_, header_rejects (.inl rfl) _ (by simp [Value.type]) (by simp [Value.type]) r⟩

theorem decodeMapHeader_encode {v : Value} (hv : v.Sized (2 ^ 63)) (r : Bytes) :
    match v.mapItems? with
    | some items => ∃ n : UInt64, (n * 2).toNat = items.length ∧
        decodeMapHeader (encode v ++ r) = .ok (n, encodeItems items ++ r)
    | none => ∃ e, decodeMapHeader (encode v ++ r) = .error e := by
  cases v with
  | map pairs =>
      obtain ⟨count, -⟩ := hv
      obtain ⟨w, fits, eq⟩ := pushTypedVal_eq cborMagicTypeMap (UInt64.ofNat pairs.length)
      have doubled : (UInt64.ofNat pairs.length * 2).toNat = (pairItems pairs).length := by
        have two : (2 : UInt64).toNat = 2 := rfl
        rw [UInt64.toNat_mul, toNat_ofNat_register (by omega), two, pairItems_length]
        omega
      refine ⟨UInt64.ofNat pairs.length, doubled, ?_⟩
      have argument := reads_decodePint fits (encodeItems (pairItems pairs) ++ r)
      rw [UInt64.ofNat_toNat] at argument
      rw [encode, mapHeader, eq, encodePairs_eq, List.append_assoc, decodeMapHeader,
        bind_of_ok (decodeType_header (by decide) fits _)]
      dsimp only
      rw [if_neg (header_ne_null (by decide) fits)]
      exact argument
  | null => exact ⟨0, rfl, rfl⟩
  | int _ | uint _ | bool _ | string _ | float _ | double _ | array _ =>
      exact ⟨_, header_rejects (.inr rfl) _ (by simp [Value.type]) (by simp [Value.type]) r⟩

theorem reads_matchMore (vs : List Value) (hvs : ∀ v ∈ vs, v.Sized (2 ^ 63)) :
    Reads (matchMore vs.length) (encodeItems vs) true := by
  induction vs with
  | nil => exact reads_pure true
  | cons v vs ih =>
      intro r
      have head := reads_matchValueType v (hvs v (by simp)) .any (encodeItems vs ++ r)
      have tail := ih (fun u hu => hvs u (by simp [hu])) r
      rw [List.length_cons, matchMore, encodeItems, List.append_assoc, bind_of_ok head]
      simpa using tail

theorem SizedItems.of_items {v : Value} (hv : v.Sized (2 ^ 63)) {items : List Value}
    (h : v.arrayItems? = some items ∨ v.mapItems? = some items) :
    ∀ u ∈ items, u.Sized (2 ^ 63) := by
  cases v with
  | array vs =>
      simp only [Value.arrayItems?, Value.mapItems?, Option.some.injEq, reduceCtorEq,
        or_false] at h
      exact h ▸ (sizedItems_iff _ vs).mp hv.2
  | map pairs =>
      simp only [Value.arrayItems?, Value.mapItems?, Option.some.injEq, reduceCtorEq,
        false_or] at h
      exact h ▸ (sizedPairs_iff _ pairs).mp hv.2
  | null =>
      simp only [Value.arrayItems?, Value.mapItems?, Option.some.injEq, or_self] at h
      simp [← h]
  | int _ | uint _ | bool _ | string _ | float _ | double _ =>
      simp [Value.arrayItems?, Value.mapItems?] at h

mutual
/-- The recursion of the matcher follows the patterns: every level hands the
iterator on behind the element it has matched. -/
theorem answers_matchValue (p : Pattern) (v : Value) (hv : v.Sized (2 ^ 63)) :
    Answers (matchValue p) (encode v) (p.Matches v) (p.bindings v) := by
  match p with
  | .int lit =>
      obtain ⟨o, found, meaning⟩ := finds_matchInt v
      have answer := answers_literal found lit
      rw [meaning lit] at answer
      simpa only [matchValue, Pattern.Matches, Pattern.bindings] using answer
  | .uint lit =>
      obtain ⟨o, found, meaning⟩ := finds_matchUint v
      have answer := answers_literal found lit
      rw [meaning lit] at answer
      simpa only [matchValue, Pattern.Matches, Pattern.bindings] using answer
  | .bool lit =>
      simpa only [matchValue, Pattern.Matches, Pattern.bindings] using
        answers_literal (finds_matchBool v) lit
  | .string lit =>
      simpa only [matchValue, Pattern.Matches, Pattern.bindings] using
        answers_literal (finds_matchString v hv) lit
  | .type t => simpa only [Pattern.bindings] using answers_type t hv
  | .extract ex var => exact answers_extract ex var hv
  | .A parms =>
      intro r b ws t h
      have header := decodeArrayHeader_encode hv r
      simp only [Pattern.Matches, Pattern.bindings]
      rw [matchValue] at h
      cases hi : v.arrayItems? with
      | none =>
          rw [hi] at header
          obtain ⟨e, he⟩ := header
          rw [bind_of_error he] at h
          cases h
      | some items =>
          rw [hi] at header
          obtain ⟨n, count, hn⟩ := header
          rw [bind_of_ok hn, count] at h
          exact answers_matchNext parms items (SizedItems.of_items hv (.inl hi)) r b ws t h
  | .M parms =>
      intro r b ws t h
      have header := decodeMapHeader_encode hv r
      simp only [Pattern.Matches, Pattern.bindings]
      rw [matchValue] at h
      cases hi : v.mapItems? with
      | none =>
          rw [hi] at header
          obtain ⟨e, he⟩ := header
          rw [bind_of_error he] at h
          cases h
      | some items =>
          rw [hi] at header
          obtain ⟨n, count, hn⟩ := header
          rw [bind_of_ok hn, count] at h
          exact answers_matchNext parms items (SizedItems.of_items hv (.inr hi)) r b ws t h
theorem answers_matchNext (parms : Patterns) (vs : List Value)
    (hvs : ∀ v ∈ vs, v.Sized (2 ^ 63)) :
    Answers (matchNext parms vs.length) (encodeItems vs) (parms.Matches vs)
      (parms.bindings vs) := by
  match parms with
  | .last p =>
      intro r b ws t h
      rw [matchNext] at h
      by_cases more : isMore p = true
      · rw [if_pos more, bind_of_ok (reads_matchMore vs hvs r)] at h
        cases h
        have pattern := (isMore_iff p).mp more
        subst pattern
        refine ⟨iff_of_true rfl ?_, fun _ => ⟨?_, rfl⟩⟩
        · unfold Patterns.Matches
          split <;> simp [isMore]
        · unfold Patterns.bindings
          split <;> simp [Pattern.bindings]
      · rw [if_neg more] at h
        match vs with
        | [] =>
            cases h
            simp [Patterns.Matches, more]
        | v :: vs =>
            rw [if_neg (by simp)] at h
            obtain ⟨⟨matched, writes⟩, u, head, rest⟩ := bind_eq_ok h
            rw [encodeItems, List.append_assoc] at head
            obtain ⟨verdict, consumed⟩ := answers_matchValue p v (hvs v (by simp)) _ _ _ _ head
            cases matched with
            | false =>
                cases rest
                have no : ¬ p.Matches v := by simpa using verdict
                cases vs <;> simp [Patterns.Matches, more, no]
            | true =>
                cases rest
                obtain ⟨rfl, rfl⟩ := consumed rfl
                have yes : p.Matches v := by simpa using verdict
                cases vs with
                | nil => simp [Patterns.Matches, Patterns.bindings, yes, encodeItems]
                | cons u vs => simp [Patterns.Matches, more]
  | .cons p parms =>
      intro r b ws t h
      rw [matchNext] at h
      match vs with
      | [] =>
          cases h
          simp [Patterns.Matches]
      | v :: vs =>
          rw [if_neg (by simp)] at h
          obtain ⟨⟨matched, writes⟩, u, head, rest⟩ := bind_eq_ok h
          rw [encodeItems, List.append_assoc] at head
          obtain ⟨verdict, consumed⟩ := answers_matchValue p v (hvs v (by simp)) _ _ _ _ head
          cases matched with
          | false =>
              cases rest
              have no : ¬ p.Matches v := by simpa using verdict
              simp [Patterns.Matches, no]
          | true =>
              obtain ⟨rfl, rfl⟩ := consumed rfl
              have yes : p.Matches v := by simpa using verdict
              obtain ⟨⟨matched, more⟩, u, tail, done⟩ := bind_eq_ok rest
              cases done
              obtain ⟨verdict, consumed⟩ :=
                answers_matchNext parms vs (fun w hw => hvs w (by simp [hw])) r _ _ _ tail
              refine ⟨by simp [Patterns.Matches, yes, verdict], ?_⟩
              intro hb
              obtain ⟨rfl, rfl⟩ := consumed hb
              exact ⟨rfl, rfl⟩
end

theorem array_cons (v : Value) (vs : List Value) :
    array (v :: vs) = encode (.array (v :: vs)) := by
  rw [array, encode]
  simp

theorem answers_matchArray (parms : Patterns) (vs : List Value) (count : vs.length < 2 ^ 63)
    (sized : ∀ v ∈ vs, v.Sized (2 ^ 63)) :
    Answers (matchArray parms) (array vs) (parms.Matches vs) (parms.bindings vs) := by
  intro r b ws t h
  rw [matchArray] at h
  cases vs with
  | nil =>
      have header : decodeArrayHeader (array [] ++ r) = .ok (0, r) := rfl
      rw [bind_of_ok header] at h
      exact answers_matchNext parms [] sized r b ws t h
  | cons v vs =>
      have whole : (Value.array (v :: vs)).Sized (2 ^ 63) :=
        ⟨count, (sizedItems_iff _ _).mpr sized⟩
      obtain ⟨n, length, hn⟩ := decodeArrayHeader_encode whole r
      rw [array_cons, bind_of_ok hn, length] at h
      exact answers_matchNext parms (v :: vs) sized r b ws t h

def Pattern.isFlat : Pattern → Bool
  | .A _ | .M _ => false
  | _ => true

/-- Without nested patterns the matcher throws on no message. -/
def Patterns.isFlat : Patterns → Bool
  | .last p => p.isFlat
  | .cons p parms => p.isFlat && parms.isFlat

theorem returns_literal {α : Type} [DecidableEq α] {d : Reader (Option α)} {v : Value}
    {o : Option α} (found : Finds d v o) (lit : α) (r : Bytes) :
    ∃ res, matchLiteral d lit (encode v ++ r) = .ok res := by
  obtain ⟨t, run, -⟩ := found r
  rw [matchLiteral, bind_of_ok run]
  cases o with
  | none => exact ⟨_, rfl⟩
  | some val => exact ⟨_, rfl⟩

theorem matchValue_returns (p : Pattern) (flat : p.isFlat = true) (v : Value)
    (hv : v.Sized (2 ^ 63)) (r : Bytes) : ∃ res, matchValue p (encode v ++ r) = .ok res := by
  cases p with
  | int lit =>
      obtain ⟨o, found, -⟩ := finds_matchInt v
      simpa only [matchValue] using returns_literal found lit r
  | uint lit =>
      obtain ⟨o, found, -⟩ := finds_matchUint v
      simpa only [matchValue] using returns_literal found lit r
  | bool lit => simpa only [matchValue] using returns_literal (finds_matchBool v) lit r
  | string lit => simpa only [matchValue] using returns_literal (finds_matchString v hv) lit r
  | type t =>
      rw [matchValue, bind_of_ok (reads_matchValueType v hv t r)]
      exact ⟨_, rfl⟩
  | extract ex var =>
      obtain ⟨t, run, -⟩ := finds_extract ex v hv r
      rw [matchValue, bind_of_ok run]
      cases ex.bind? v with
      | none => exact ⟨_, rfl⟩
      | some val => exact ⟨_, rfl⟩
  | A _ | M _ => cases flat

theorem matchNext_returns (parms : Patterns) (flat : parms.isFlat = true) (vs : List Value)
    (hvs : ∀ v ∈ vs, v.Sized (2 ^ 63)) (r : Bytes) :
    ∃ res, matchNext parms vs.length (encodeItems vs ++ r) = .ok res := by
  match parms with
  | .last p =>
      rw [matchNext]
      by_cases more : isMore p = true
      · rw [if_pos more, bind_of_ok (reads_matchMore vs hvs r)]
        exact ⟨_, rfl⟩
      · rw [if_neg more]
        match vs with
        | [] => exact ⟨_, rfl⟩
        | v :: vs =>
            obtain ⟨⟨⟨matched, ws⟩, t⟩, run⟩ :=
              matchValue_returns p flat v (hvs v (by simp)) (encodeItems vs ++ r)
            rw [if_neg (by simp), encodeItems, List.append_assoc, bind_of_ok run]
            cases matched with
            | false => exact ⟨_, rfl⟩
            | true => exact ⟨_, rfl⟩
  | .cons p parms =>
      simp only [Patterns.isFlat, Bool.and_eq_true] at flat
      rw [matchNext]
      match vs with
      | [] => exact ⟨_, rfl⟩
      | v :: vs =>
          obtain ⟨⟨⟨matched, ws⟩, t⟩, run⟩ :=
            matchValue_returns p flat.1 v (hvs v (by simp)) (encodeItems vs ++ r)
          rw [if_neg (by simp), encodeItems, List.append_assoc, bind_of_ok run]
          cases matched with
          | false => exact ⟨_, rfl⟩
          | true =>
              obtain ⟨-, bound⟩ := answers_matchValue p v (hvs v (by simp)) _ _ _ _ run
              obtain ⟨-, rfl⟩ := bound rfl
              obtain ⟨⟨⟨matched, more⟩, t⟩, tail⟩ :=
                matchNext_returns parms flat.2 vs (fun w hw => hvs w (by simp [hw])) r
              exact ⟨((matched, ws ++ more), t), bind_of_ok tail _⟩

theorem matchArray_returns (parms : Patterns) (flat : parms.isFlat = true) (vs : List Value)
    (count : vs.length < 2 ^ 63) (sized : ∀ v ∈ vs, v.Sized (2 ^ 63)) (r : Bytes) :
    ∃ res, matchArray parms (array vs ++ r) = .ok res := by
  rw [matchArray]
  cases vs with
  | nil =>
      have header : decodeArrayHeader (array [] ++ r) = .ok (0, r) := rfl
      rw [bind_of_ok header]
      exact matchNext_returns parms flat [] sized r
  | cons v vs =>
      have whole : (Value.array (v :: vs)).Sized (2 ^ 63) :=
        ⟨count, (sizedItems_iff _ _).mpr sized⟩
      obtain ⟨n, length, hn⟩ := decodeArrayHeader_encode whole r
      rw [array_cons, bind_of_ok hn, length]
      exact matchNext_returns parms flat (v :: vs) sized r

theorem matchBuffer_flat (parms : Patterns) (flat : parms.isFlat = true) (vs : List Value)
    (count : vs.length < 2 ^ 63) (sized : ∀ v ∈ vs, v.Sized (2 ^ 63)) :
    ∃ b ws, matchBuffer (array vs) parms = .ok (b, ws) ∧ (b = true ↔ parms.Matches vs) ∧
      (b = true → ws = parms.bindings vs) := by
  obtain ⟨⟨⟨b, ws⟩, t⟩, run⟩ := matchArray_returns parms flat vs count sized []
  obtain ⟨verdict, bound⟩ := answers_matchArray parms vs count sized [] _ _ _ run
  refine ⟨b, ws, ?_, verdict, fun yes => (bound yes).1⟩
  rw [List.append_nil] at run
  rw [matchBuffer, run]
  rfl

theorem matchBuffer_of_matches {parms : Patterns} (flat : parms.isFlat = true) {vs : List Value}
    (count : vs.length < 2 ^ 63) (sized : ∀ v ∈ vs, v.Sized (2 ^ 63)) (h : parms.Matches vs) :
    matchBuffer (array vs) parms = .ok (true, parms.bindings vs) := by
  obtain ⟨b, ws, run, verdict, bound⟩ := matchBuffer_flat parms flat vs count sized
  have yes := verdict.mpr h
  rw [run, yes, bound yes]

theorem matchBuffer_of_not_matches {parms : Patterns} (flat : parms.isFlat = true)
    {vs : List Value} (count : vs.length < 2 ^ 63) (sized : ∀ v ∈ vs, v.Sized (2 ^ 63))
    (h : ¬ parms.Matches vs) : ∃ ws, matchBuffer (array vs) parms = .ok (false, ws) := by
  obtain ⟨b, ws, run, verdict, -⟩ := matchBuffer_flat parms flat vs count sized
  cases b with
  | true => exact absurd (verdict.mp rfl) h
  | false => exact ⟨ws, run⟩

theorem matches_nested (parms : Patterns) (v : Value) :
    ((Pattern.A parms).Matches v ↔
      ∃ items, v.arrayItems? = some items ∧ parms.MatchesByPosition items) ∧
    ((Pattern.M parms).Matches v ↔
      ∃ items, v.mapItems? = some items ∧ parms.MatchesByPosition items) := by
  constructor
  · simp only [Pattern.Matches]
    cases v.arrayItems? with
    | none => simp
    | some items => simp [matches_iff_byPosition]
  · simp only [Pattern.Matches]
    cases v.mapItems? with
    | none => simp
    | some items => simp [matches_iff_byPosition]

/-- Whenever the matcher returns, it has decided the rule by positions, which
nested patterns apply to the children of their element and which no pattern more
before the last can satisfy. A match binds every extractor at its own position,
and each pattern hands the iterator on exactly behind its element. -/
theorem matcher_reference_semantics (vs : List Value) (count : vs.length < 2 ^ 63)
    (sized : ∀ v ∈ vs, v.Sized (2 ^ 63)) (parms : Patterns) :
    (∀ b ws, matchBuffer (array vs) parms = .ok (b, ws) →
      (b = true ↔ parms.MatchesByPosition vs) ∧ (b = true → ws = parms.bindings vs)) ∧
    (∀ p v, v.Sized (2 ^ 63) → ∀ r ws t, matchValue p (encode v ++ r) = .ok ((true, ws), t) →
      p.Matches v ∧ ws = p.bindings v ∧ t = r) ∧
    (∀ v, ¬ (Pattern.type .more).Matches v) ∧
    (∀ nested v,
      ((Pattern.A nested).Matches v ↔
        ∃ items, v.arrayItems? = some items ∧ nested.MatchesByPosition items) ∧
      ((Pattern.M nested).Matches v ↔
        ∃ items, v.mapItems? = some items ∧ nested.MatchesByPosition items)) := by
  refine ⟨?_, ?_, not_matches_more, matches_nested⟩
  · intro b ws h
    rw [matchBuffer] at h
    cases run : matchArray parms (array vs) with
    | error e => simp [run, Except.map] at h
    | ok res =>
        obtain ⟨⟨b', ws'⟩, t⟩ := res
        simp only [run, Except.map, Except.ok.injEq, Prod.mk.injEq] at h
        obtain ⟨rfl, rfl⟩ := h
        rw [← List.append_nil (array vs)] at run
        obtain ⟨verdict, bound⟩ := answers_matchArray parms vs count sized [] _ _ _ run
        rw [← matches_iff_byPosition]
        exact ⟨verdict, fun yes => (bound yes).1⟩
  · intro p v hv r ws t h
    obtain ⟨verdict, bound⟩ := answers_matchValue p v hv r _ _ _ h
    exact ⟨verdict.mp rfl, bound rfl⟩

/-- `array("x", array(5, 6), null)("x", A(extract(n), more), A(more))` -/
theorem matcher_reference_semantics_nested :
    let vs : List Value := [.string (text "x"), .array [.int 5, .int 6], .null]
    let parms : Patterns := .cons (.string (text "x"))
      (.cons (.A (.cons (.extract (.int .signedInt) 0) (.last (.type .more))))
        (.last (.A (.last (.type .more)))))
    matchBuffer (array vs) parms = .ok (true, [(0, .int 5)]) ∧ parms.MatchesByPosition vs := by
  dsimp only
  refine ⟨rfl, ?_⟩
  refine ((matcher_reference_semantics _ (by decide) ?_ _).1 true [(0, .int 5)] rfl).1.mp rfl
  simp [Value.Sized, SizedItems, text]

end Thespian.Cbor
