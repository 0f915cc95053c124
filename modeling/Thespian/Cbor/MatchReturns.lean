import Thespian.Cbor.MatchSemantics

/-!
The matcher on bytes that no encoder has written. On every array the skipper
accepts, whatever its header widths, patterns made of strings and types return
an answer: the matcher reads no further than the skipper has read.
-/

namespace Thespian.Cbor
open Decoding Decoding.Decoder

/-- The pattern answers on every item that can be skipped, and a match consumes
exactly the item. -/
def Tame (p : Pattern) : Prop :=
  ∀ s r, skipValue s = .ok ((), r) →
    ∃ b ws t, matchValue p s = .ok ((b, ws), t) ∧ (b = true → t = r)

section Skipped
variable {s r : Bytes}

theorem skipValue_nil (res : Unit × Bytes) : skipValue [] ≠ .ok res := by
  rw [congrFun skipValue_eq [], bind_of_error decodeType_nil]
  simp

theorem matchType_of_skipped (h : skipValue s = .ok ((), r)) : ∃ t, matchType s = .ok (t, r) := by
  cases s with
  | nil => exact absurd h (skipValue_nil _)
  | cons type s =>
      rw [skipValue_cons] at h
      refine ⟨typeOf (type >>> 5) type, ?_⟩
      rw [matchType, bind_of_ok (decodeType_cons type s)]
      exact bind_of_ok h _

theorem decodeString_of_skipped {minor : UInt8} (h : skipString minor s = .ok ((), r)) :
    ∃ v, decodeString minor s = .ok (v, r) := by
  obtain ⟨len, t, header, body⟩ := bind_eq_ok h
  rw [repeatN_next] at body
  obtain ⟨v, u, taken, rest⟩ := bind_eq_ok body
  cases rest
  refine ⟨v, ?_⟩
  rw [decodeString, bind_of_ok header, taken]

theorem matchString_of_skipped (h : skipValue s = .ok ((), r)) :
    ∃ o t, matchString s = .ok (o, t) ∧ (o.isSome = true → t = r) := by
  cases s with
  | nil => exact absurd h (skipValue_nil _)
  | cons type s =>
      rw [skipValue_cons] at h
      rw [matchString, bind_of_ok (decodeType_cons type s)]
      dsimp only
      generalize type >>> 5 = major at h ⊢
      unfold skipValueType at h
      split at h
      case h_3 =>
        obtain ⟨v, read⟩ := decodeString_of_skipped h
        have decoded : decodeBytes (type &&& 31) s = .ok (v, r) := read
        exact ⟨some v, r, bind_of_ok decoded _, fun _ => rfl⟩
      case h_4 =>
        obtain ⟨v, read⟩ := decodeString_of_skipped h
        exact ⟨some v, r, bind_of_ok read _, fun _ => rfl⟩
      case h_9 =>
        split
        · contradiction
        · contradiction
        · exact ⟨none, s, rfl, by simp⟩
      all_goals exact ⟨none, s, rfl, by simp⟩

theorem tame_type (t : CborType) : Tame (.type t) := by
  intro s r h
  obtain ⟨v, hv⟩ := matchType_of_skipped h
  rw [matchValue, matchValueType]
  cases v with
  | none => exact ⟨false, [], r, by simp [hv], by simp⟩
  | some v =>
      by_cases any : t = .any
      · exact ⟨true, [], r, by simp [hv, any], fun _ => rfl⟩
      · exact ⟨decide (t = v), [], r, by simp [hv, any], fun _ => rfl⟩

theorem tame_extractString (var : Nat) : Tame (.extract .string var) := by
  intro s r h
  obtain ⟨o, t, run, exact⟩ := matchString_of_skipped h
  rw [matchValue]
  cases o with
  | none => exact ⟨false, [], t, by simp [extract, run], by simp⟩
  | some v => exact ⟨true, [(var, .string v)], t, by simp [extract, run], fun _ => exact rfl⟩

theorem tame_string (lit : Bytes) : Tame (.string lit) := by
  intro s r h
  obtain ⟨o, t, run, exact⟩ := matchString_of_skipped h
  rw [matchValue, matchLiteral]
  cases o with
  | none => exact ⟨false, [], t, by simp [run], by simp⟩
  | some v => exact ⟨decide (v = lit), [], t, by simp [run], fun _ => exact rfl⟩

theorem matchMore_of_skipped (n : Nat) (h : repeatN skipValue n s = .ok ((), r)) :
    ∃ b t, matchMore n s = .ok (b, t) := by
  induction n generalizing s with
  | zero => exact ⟨true, s, rfl⟩
  | succ n ih =>
      obtain ⟨_, t, first, rest⟩ := bind_eq_ok h
      obtain ⟨v, hv⟩ := matchType_of_skipped first
      rw [matchMore]
      cases v with
      | none => exact ⟨false, t, by simp [matchValueType, hv]⟩
      | some v =>
          obtain ⟨b, u, more⟩ := ih rest
          exact ⟨b, u, by simp [matchValueType, hv, more]⟩

theorem matchNext_of_skipped (parms : Patterns) (tame : ∀ p ∈ parms.toList, Tame p) (n : Nat)
    {s : Bytes} (h : repeatN skipValue n s = .ok ((), r)) :
    ∃ b ws t, matchNext parms n s = .ok ((b, ws), t) := by
  match parms with
  | .last p =>
      rw [matchNext]
      cases more : isMore p with
      | true =>
          obtain ⟨b, t, run⟩ := matchMore_of_skipped n h
          exact ⟨b, [], t, by simp [run]⟩
      | false =>
          cases n with
          | zero => exact ⟨false, [], s, rfl⟩
          | succ n =>
              obtain ⟨_, t, first, -⟩ := bind_eq_ok h
              obtain ⟨b, ws, u, run, -⟩ := tame p (by simp [Patterns.toList]) s t first
              cases b with
              | false => exact ⟨false, ws, u, by simp [run]⟩
              | true => exact ⟨decide (n + 1 = 1), ws, u, by simp [run]⟩
  | .cons p parms =>
      rw [matchNext]
      cases n with
      | zero => exact ⟨false, [], s, rfl⟩
      | succ n =>
          obtain ⟨_, t, first, rest⟩ := bind_eq_ok h
          obtain ⟨b, ws, u, run, exact⟩ := tame p (by simp [Patterns.toList]) s t first
          cases b with
          | false => exact ⟨false, ws, u, by simp [run]⟩
          | true =>
              obtain rfl := exact rfl
              have inner : ∀ q ∈ parms.toList, Tame q := fun q hq =>
                tame q (by simp [Patterns.toList, hq])
              obtain ⟨b, more, v, next⟩ := matchNext_of_skipped parms inner n rest
              exact ⟨b, ws ++ more, v, by simp [run, next]⟩

/-- An array that can be skipped can be matched. -/
theorem matchBuffer_of_skipped {parms : Patterns} (tame : ∀ p ∈ parms.toList, Tame p)
    {type : UInt8} (array : type >>> 5 = 4) (h : skipValue (type :: s) = .ok ((), r)) :
    ∃ b ws, matchBuffer (type :: s) parms = .ok (b, ws) := by
  have notNull : type ≠ 0xf6 := by
    rintro rfl
    revert array
    decide
  rw [skipValue_cons, array] at h
  obtain ⟨n, t, header, items⟩ := bind_eq_ok h
  obtain ⟨b, ws, u, run⟩ := matchNext_of_skipped parms tame n.toNat items
  have announced : decodeArrayHeader (type :: s) = .ok (n, t) := by
    rw [decodeArrayHeader, bind_of_ok (decodeType_cons type s)]
    simp [notNull, array, header]
  refine ⟨b, ws, ?_⟩
  rw [matchBuffer, matchArray, bind_of_ok announced, run]
  rfl

end Skipped

section Headers
variable {s r : Bytes}

theorem takeN_split {e : DomainError} {n : Nat} {x : Bytes} (h : takeN e n s = .ok (x, r)) :
    s = x ++ r ∧ x.length = n := by
  induction n generalizing s x with
  | zero =>
      cases h
      exact ⟨rfl, rfl⟩
  | succ n ih =>
      obtain ⟨b, t, first, rest⟩ := bind_eq_ok h
      obtain ⟨y, u, more, done⟩ := bind_eq_ok rest
      cases done
      obtain ⟨split, len⟩ := ih more
      cases s with
      | nil => cases first
      | cons c s =>
          cases first
          rw [split, List.cons_append, List.length_cons, len]
          exact ⟨rfl, rfl⟩

theorem decodePint_direct {type : UInt8} {n : UInt64} (h : decodePint type s = .ok (n, r))
    (direct : type < 24) : n = type.toUInt64 ∧ r = s := by
  unfold decodePint at h
  rw [if_pos direct] at h
  cases h
  exact ⟨rfl, rfl⟩

theorem advances_decodeIntLengthRecurse (length : Nat) (i : UInt64) :
    Advances (decodeIntLengthRecurse length i) := by
  match length with
  | 0 | 1 => exact (advances_next tooShort).bind fun _ => shrinks_pure _
  | length + 2 =>
      exact (advances_next tooShort).bind fun _ =>
        (advances_decodeIntLengthRecurse (length + 1) _).shrinks

theorem decodePint_wide {type : UInt8} {n : UInt64} (h : decodePint type s = .ok (n, r))
    (wide : ¬ type < 24) : r.length < s.length := by
  unfold decodePint at h
  rw [if_neg wide] at h
  split at h
  · exact advances_decodeIntLengthRecurse _ _ _ _ _ h
  · exact advances_decodeIntLengthRecurse _ _ _ _ _ h
  · exact advances_decodeIntLengthRecurse _ _ _ _ _ h
  · exact advances_decodeIntLengthRecurse _ _ _ _ _ h
  · cases h

/-- A string that matches is an item that was skipped. -/
theorem matchString_split {val : Bytes} (h : matchString s = .ok (some val, r)) :
    skipValue s = .ok ((), r) ∧ ∃ type len t, s = type :: t ∧ (type >>> 5 = 2 ∨ type >>> 5 = 3) ∧
      ∃ u, decodePint (type &&& 31) t = .ok (len, u) ∧ u = val ++ r ∧ val.length = len.toNat := by
  obtain ⟨⟨major, minor, type⟩, t, first, rest⟩ := bind_eq_ok h
  cases s with
  | nil => cases first
  | cons b s =>
      obtain ⟨head, rfl⟩ := Prod.mk.inj (Except.ok.inj ((decodeType_cons b s).symm.trans first))
      obtain ⟨rfl, tail⟩ := Prod.mk.inj head
      obtain ⟨rfl, rfl⟩ := Prod.mk.inj tail
      have string : decodeString (b &&& 31) s = .ok (val, r) ∧ (b >>> 5 = 2 ∨ b >>> 5 = 3) := by
        generalize b >>> 5 = major at rest ⊢
        dsimp only at rest
        split at rest
        · obtain ⟨_, _, read, done⟩ := bind_eq_ok rest
          cases done
          exact ⟨read, .inl rfl⟩
        · obtain ⟨_, _, read, done⟩ := bind_eq_ok rest
          cases done
          exact ⟨read, .inr rfl⟩
        · cases rest
      obtain ⟨read, major⟩ := string
      obtain ⟨len, u, counted, taken⟩ := bind_eq_ok read
      obtain ⟨split, len_eq⟩ := takeN_split taken
      have skipped : skipString (b &&& 31) s = .ok ((), r) := by
        rw [skipString, bind_of_ok counted, repeatN_next, bind_of_ok taken]
        rfl
      refine ⟨?_, b, len, s, rfl, major, u, counted, split, len_eq⟩
      rw [skipValue_cons]
      rcases major with two | three
      · rw [two]
        exact skipped
      · rw [three]
        exact skipped

theorem arrayHeader_split {n : UInt64} (h : decodeArrayHeader s = .ok (n, r)) (some_ : n ≠ 0) :
    ∃ type t, s = type :: t ∧ type >>> 5 = 4 ∧ decodePint (type &&& 31) t = .ok (n, r) := by
  obtain ⟨⟨major, minor, type⟩, t, first, rest⟩ := bind_eq_ok h
  cases s with
  | nil => cases first
  | cons b s =>
      obtain ⟨head, rfl⟩ := Prod.mk.inj (Except.ok.inj ((decodeType_cons b s).symm.trans first))
      obtain ⟨rfl, tail⟩ := Prod.mk.inj head
      obtain ⟨rfl, rfl⟩ := Prod.mk.inj tail
      dsimp only at rest
      split at rest
      · cases rest
        exact absurd rfl some_
      · split at rest
        · cases rest
        · rename_i array
          exact ⟨b, s, rfl, not_not.mp array, rest⟩

end Headers

section Accepted
variable {s r : Bytes} {ws : Writes}

theorem matchString_of_literal {lit : Bytes}
    (h : matchValue (.string lit) s = .ok ((true, ws), r)) :
    matchString s = .ok (some lit, r) ∧ ws = [] := by
  rw [matchValue, matchLiteral] at h
  obtain ⟨val, t, read, rest⟩ := bind_eq_ok h
  cases val with
  | none => cases rest
  | some val =>
      obtain ⟨answer, left⟩ := Prod.mk.inj (Except.ok.inj rest)
      obtain ⟨same, none_⟩ := Prod.mk.inj answer
      rw [read, of_decide_eq_true same, left]
      exact ⟨rfl, none_.symm⟩

theorem matchString_of_extract {var : Nat}
    (h : matchValue (.extract .string var) s = .ok ((true, ws), r)) :
    ∃ val, matchString s = .ok (some val, r) ∧ ws = [(var, .string val)] := by
  rw [matchValue, extract] at h
  obtain ⟨bound, t, read, rest⟩ := bind_eq_ok h
  obtain ⟨val, u, string, done⟩ := bind_eq_ok read
  cases done
  cases val with
  | none => cases rest
  | some val =>
      cases rest
      exact ⟨val, string, rfl⟩

theorem matchNext_cons_accepts {p : Pattern} {parms : Patterns} {n : Nat}
    (h : matchNext (.cons p parms) n s = .ok ((true, ws), r)) :
    n ≠ 0 ∧ ∃ first t more, matchValue p s = .ok ((true, first), t) ∧
      matchNext parms (n - 1) t = .ok ((true, more), r) ∧ ws = first ++ more := by
  rw [matchNext] at h
  split at h
  · cases h
  · rename_i some_left
    obtain ⟨⟨b, first⟩, t, head, rest⟩ := bind_eq_ok h
    cases b with
    | false => cases rest
    | true =>
        obtain ⟨⟨b, more⟩, u, tail, done⟩ := bind_eq_ok rest
        cases done
        exact ⟨some_left, first, t, more, head, tail, rfl⟩

theorem matchNext_last_accepts {p : Pattern} {n : Nat} (single : isMore p = false)
    (h : matchNext (.last p) n s = .ok ((true, ws), r)) :
    n = 1 ∧ matchValue p s = .ok ((true, ws), r) := by
  rw [matchNext, single, if_neg Bool.false_ne_true] at h
  split at h
  · cases h
  · obtain ⟨⟨b, first⟩, t, head, rest⟩ := bind_eq_ok h
    cases b with
    | false => cases rest
    | true =>
        obtain ⟨same, rfl⟩ := Prod.mk.inj (Except.ok.inj rest)
        obtain ⟨last, rfl⟩ := Prod.mk.inj same
        exact ⟨of_decide_eq_true last, head⟩

theorem matchBuffer_accepts {parms : Patterns} (h : matchBuffer s parms = .ok (true, ws)) :
    ∃ n t r, decodeArrayHeader s = .ok (n, t) ∧
      matchNext parms n.toNat t = .ok ((true, ws), r) := by
  unfold matchBuffer at h
  cases run : matchArray parms s with
  | error e =>
      rw [run] at h
      cases h
  | ok res =>
      rw [run] at h
      obtain ⟨res, r⟩ := res
      cases h
      obtain ⟨n, t, header, elements⟩ := bind_eq_ok run
      exact ⟨n, t, r, header, elements⟩

theorem shrinks_decodeArrayHeader : Shrinks decodeArrayHeader := by
  refine (advances_decodeType.bind fun _ => ?_).shrinks
  dsimp only
  split
  · exact shrinks_pure _
  · split
    · exact shrinks_throw _
    · exact shrinks_decodePint _

/-- The bytes of a string that is read stand in the input. -/
theorem matchString_length {val : Bytes} (h : matchString s = .ok (some val, r)) :
    val.length ≤ s.length := by
  obtain ⟨-, type, len, t, rfl, -, u, counted, rfl, -⟩ := matchString_split h
  have behind : (val ++ r).length ≤ t.length := by
    by_cases direct : type &&& 31 < 24
    · rw [(decodePint_direct counted direct).2]
    · exact Nat.le_of_lt (decodePint_wide counted direct)
  rw [List.length_append] at behind
  rw [List.length_cons]
  omega

theorem matchBuffer_header {parms : Patterns} {res : Bool × Writes}
    (h : matchBuffer s parms = .ok res) : ∃ r, decodeArrayHeader s = .ok r := by
  unfold matchBuffer at h
  cases run : matchArray parms s with
  | error e =>
      rw [run] at h
      cases h
  | ok res =>
      obtain ⟨n, t, header, -⟩ := bind_eq_ok run
      exact ⟨(n, t), header⟩

/-- A message begins with one text only. -/
theorem matchBuffer_other_literal {lit lit' : Bytes} {parms parms' : Patterns} (other : lit ≠ lit')
    (h : matchBuffer s (.cons (.string lit) parms) = .ok (true, ws)) :
    matchBuffer s (.cons (.string lit') parms') = .ok (false, []) := by
  obtain ⟨n, t, r, header, elements⟩ := matchBuffer_accepts h
  obtain ⟨some_left, first, u, more, head, -, -⟩ := matchNext_cons_accepts elements
  have read := (matchString_of_literal head).1
  have differs : matchValue (.string lit') t = .ok ((false, []), u) := by
    rw [matchValue, matchLiteral, bind_of_ok read]
    simp [other]
  rw [matchBuffer, matchArray, bind_of_ok header, matchNext, if_neg some_left, bind_of_ok differs]
  rfl

end Accepted

theorem matchValue_extract {ex : Extractor} {var : Nat} {v : Value} {val : Bound}
    (sized : v.Sized (2 ^ 63)) (bound : ex.bind? v = some val) (r : Bytes) :
    matchValue (.extract ex var) (encode v ++ r) = .ok ((true, [(var, val)]), r) := by
  obtain ⟨t, read, exact⟩ := finds_extract ex v sized r
  rw [bound] at read exact
  cases exact rfl
  rw [matchValue, bind_of_ok read]
  rfl

section Elements
variable {p : Pattern} {parms : Patterns} {n : Nat} {s t : Bytes} {ws : Writes}

theorem matchNext_cons_of (h : matchValue p s = .ok ((true, ws), t)) :
    matchNext (.cons p parms) (n + 1) s =
      (matchNext parms n t).map fun res => ((res.1.1, ws ++ res.1.2), res.2) := by
  rw [matchNext, if_neg (Nat.succ_ne_zero n), bind_of_ok h]
  dsimp only
  rw [Nat.add_sub_cancel]
  cases run : matchNext parms n t with
  | error e => exact bind_of_error run _
  | ok res => exact bind_of_ok run _

theorem matchNext_last_of (single : isMore p = false) (h : matchValue p s = .ok ((true, ws), t)) :
    matchNext (.last p) 1 s = .ok ((true, ws), t) := by
  rw [matchNext, single, if_neg Bool.false_ne_true, if_neg (Nat.succ_ne_zero 0), bind_of_ok h]
  rfl

theorem matchNext_last_error (single : isMore p = false) {e : DomainError}
    (h : matchValue p s = .error e) : matchNext (.last p) 1 s = .error e := by
  rw [matchNext, single, if_neg Bool.false_ne_true, if_neg (Nat.succ_ne_zero 0), bind_of_error h]

end Elements

/-- What the matcher takes for an array can be taken as a range, or is malformed. -/
theorem matchValue_range {s : Bytes} {res : UInt64 × Bytes} (framed : decodeArrayHeader s = .ok res)
    (var : Nat) : (∃ e, matchValue (.extract .range var) s = .error e) ∨
      ∃ item r, matchValue (.extract .range var) s = .ok ((true, [(var, .range item)]), r) := by
  cases s with
  | nil => cases framed
  | cons type s =>
      have kind : typeOf (type >>> 5) type = some .null ∨ typeOf (type >>> 5) type = some .array := by
        rw [decodeArrayHeader, bind_of_ok (decodeType_cons type s)] at framed
        dsimp only at framed
        split at framed
        · rename_i null
          exact .inl (by rw [null]; rfl)
        · split at framed
          · cases framed
          · rename_i array
            rw [not_not.mp array]
            exact .inr rfl
      have read : (∃ e, matchType (type :: s) = .error e) ∨
          ∃ r, matchType (type :: s) = .ok (typeOf (type >>> 5) type, r) := by
        rw [matchType, bind_of_ok (decodeType_cons type s)]
        dsimp only
        cases skipped : skipValueType skipValue (type >>> 5) (type &&& 31) s with
        | error e => exact .inl ⟨e, bind_of_error skipped _⟩
        | ok res => exact .inr ⟨res.2, bind_of_ok skipped _⟩
      rw [matchValue]
      rcases read with ⟨e, thrown⟩ | ⟨r, read⟩
      · left
        refine ⟨e, ?_⟩
        have ranged : extractRange (type :: s) = .error e := by rw [extractRange, thrown]
        rw [extract, bind_of_error (bind_of_error ranged _)]
      · right
        have ranged : extractRange (type :: s) =
            .ok (some ((type :: s).take ((type :: s).length - r.length)), r) := by
          rw [extractRange, read]
          rcases kind with null | array
          · rw [null]
            rfl
          · rw [array]
            rfl
        have extracted : extract .range (type :: s) = .ok (some (.range _), r) :=
          bind_of_ok ranged _
        refine ⟨(type :: s).take ((type :: s).length - r.length), r, ?_⟩
        rw [bind_of_ok extracted]
        rfl

section Tagged
variable {n : UInt64} {tag : Bytes} (short : tag.length < 2 ^ 63)
include short

theorem matchValue_pushString (lit r : Bytes) : ∃ t,
    matchValue (.string lit) (pushString tag ++ r) = .ok ((decide (tag = lit), []), t) ∧
      (tag = lit → t = r) := by
  obtain ⟨t, read, exact⟩ := finds_matchString (.string tag) short r
  refine ⟨t, ?_, fun _ => exact rfl⟩
  rw [encode] at read
  rw [matchValue, matchLiteral, bind_of_ok read]
  rfl

/-- A message with another text in front is not a match. -/
theorem matchBuffer_other_tag (some_ : n ≠ 0) (rest : Bytes) {lit : Bytes} (other : tag ≠ lit)
    (parms : Patterns) :
    matchBuffer (arrayHeader n ++ (pushString tag ++ rest)) (.cons (.string lit) parms) =
      .ok (false, []) := by
  obtain ⟨t, first, -⟩ := matchValue_pushString short lit rest
  rw [decide_eq_false other] at first
  have left : n.toNat ≠ 0 := fun zero => some_ (UInt64.toNat_inj.mp zero)
  rw [matchBuffer, matchArray, bind_of_ok (decodeArrayHeader_pushed n _), matchNext, if_neg left,
    bind_of_ok first]
  rfl

/-- Behind the text the other elements are matched. -/
theorem matchBuffer_tag (some_ : n ≠ 0) (rest : Bytes) (parms : Patterns) :
    matchBuffer (arrayHeader n ++ (pushString tag ++ rest)) (.cons (.string tag) parms) =
      (matchNext parms (n.toNat - 1) rest).map Prod.fst := by
  obtain ⟨t, first, exact⟩ := matchValue_pushString short tag rest
  rw [decide_eq_true rfl] at first
  cases exact rfl
  have left : n.toNat ≠ 0 := fun zero => some_ (UInt64.toNat_inj.mp zero)
  rw [matchBuffer, matchArray, bind_of_ok (decodeArrayHeader_pushed n _), matchNext, if_neg left,
    bind_of_ok first]
  cases run : matchNext parms (n.toNat - 1) rest with
  | error e => exact congrArg (Except.map Prod.fst) (bind_of_error run _)
  | ok res => exact congrArg (Except.map Prod.fst) (bind_of_ok run _)

end Tagged

end Thespian.Cbor
