import Thespian.Cbor.JsonBuffer

/-!
What the JSON parser pushes. Elements are counted as they are pushed, not by the
separators, so whatever separators were skipped the header at the closing bracket
counts what is behind it. The sizes in the value are bounded by the text that was
read for it, which keeps the counts within the registers.
-/

namespace Thespian.Cbor.Json
open Decoding Decoding.Decoder

/-- One item, with sizes below the bound. -/
def Encodes (n : Nat) (x : Bytes) : Prop := ∃ v : Value, v.Sized n ∧ x = encode v

/-- The inner buffer of a container behind some of its elements. -/
def Collected (n : Nat) (inner : Bytes) (count : Nat) : Prop :=
  ∃ items : List Value, (∀ v ∈ items, v.Sized n) ∧ inner = encodeItems items ∧
    count = items.length

theorem encodeItems_append (vs ws : List Value) :
    encodeItems (vs ++ ws) = encodeItems vs ++ encodeItems ws := by
  simp [encodeItems_eq]

theorem Collected.nil (n : Nat) : Collected n [] 0 := ⟨[], by simp, rfl, rfl⟩

theorem Collected.push {n count : Nat} {inner x : Bytes} (h : Collected n inner count)
    (hx : Encodes n x) : Collected n (inner ++ x) (count + 1) := by
  obtain ⟨items, sized, rfl, rfl⟩ := h
  obtain ⟨v, hv, rfl⟩ := hx
  refine ⟨items ++ [v], ?_, by simp [encodeItems_append, encodeItems], by simp⟩
  intro u hu
  rcases List.mem_append.mp hu with hu | hu
  · exact sized u hu
  · rw [List.mem_singleton] at hu
    exact hu ▸ hv

/-- As many items as there are places in pairs are the items of pairs. -/
theorem exists_pairItems {k : Nat} {items : List Value} (h : items.length = 2 * k) :
    ∃ pairs, pairItems pairs = items := by
  induction k generalizing items with
  | zero =>
      have none : items = [] := List.length_eq_zero_iff.mp h
      exact ⟨[], none.symm⟩
  | succ k ih =>
      match items with
      | [] | [_] =>
          simp only [List.length_cons, List.length_nil] at h
          omega
      | key :: value :: items =>
          have rest : items.length = 2 * k := by
            simp only [List.length_cons] at h
            omega
          obtain ⟨pairs, hpairs⟩ := ih rest
          exact ⟨(key, value) :: pairs, by simp [pairItems, ← hpairs]⟩

theorem encodes_finishArray {n count : Nat} {inner x : Bytes} (h : Collected n inner count)
    (small : count < n) (finished : finishArray inner count = some x) : Encodes n x := by
  obtain ⟨items, sized, rfl, rfl⟩ := h
  cases finished
  exact ⟨.array items, ⟨small, (sizedItems_iff n items).mpr sized⟩, rfl⟩

theorem encodes_finishMap {n count : Nat} {inner x : Bytes} (h : Collected n inner count)
    (small : count < n) (finished : finishMap inner count = some x) : Encodes n x := by
  obtain ⟨items, sized, rfl, rfl⟩ := h
  unfold finishMap at finished
  split at finished
  · cases finished
  · rename_i even
    cases finished
    have half : items.length = 2 * (items.length / 2) := by omega
    obtain ⟨pairs, rfl⟩ := exists_pairItems half
    rw [pairItems_length] at small ⊢
    have count : 2 * pairs.length / 2 = pairs.length := by omega
    refine ⟨.map pairs, ⟨by omega, (sizedPairs_iff n pairs).mpr sized⟩, ?_⟩
    rw [count, encode, encodePairs_eq]

section Scalars
variable {fromChars : Bytes → Option Float}

theorem encodes_pushJsonNumber {n : Nat} {s x r : Bytes}
    (run : pushJsonNumber fromChars s = .ok (x, r)) : Encodes n x := by
  obtain ⟨sign, s₁, -, run⟩ := bind_eq_ok run
  obtain ⟨digits, s₂, -, run⟩ := bind_eq_ok run
  obtain ⟨fraction, s₃, -, run⟩ := bind_eq_ok run
  obtain ⟨⟨number, isFloat⟩, s₄, -, run⟩ := bind_eq_ok run
  dsimp only at run
  split at run
  · cases run
  · split at run
    · cases converted : fromChars number with
      | none =>
          simp only [converted] at run
          cases run
      | some d =>
          simp only [converted] at run
          cases run
          exact ⟨.double d.toBits, trivial, rfl⟩
    · cases converted : fromCharsInt number with
      | none =>
          simp only [converted] at run
          cases run
      | some i =>
          simp only [converted] at run
          cases run
          exact ⟨.int i, trivial, rfl⟩

theorem encodes_pushJsonKeyword {n : Nat} {s x r : Bytes}
    (run : pushJsonKeyword s = .ok (x, r)) : Encodes n x := by
  obtain ⟨isFalse, s₁, -, run⟩ := bind_eq_ok run
  cases isFalse with
  | true =>
      cases run
      exact ⟨.bool false, trivial, rfl⟩
  | false =>
      obtain ⟨isTrue, s₂, -, run⟩ := bind_eq_ok run
      cases isTrue with
      | true =>
          cases run
          exact ⟨.bool true, trivial, rfl⟩
      | false =>
          obtain ⟨isNull, s₃, -, run⟩ := bind_eq_ok run
          cases isNull with
          | true =>
              cases run
              exact ⟨.null, trivial, rfl⟩
          | false => cases run

/-- An escape takes two characters and gives one. -/
theorem qstringSlow_string {s t x r : Bytes} (run : qstringSlow s t = .ok (x, r)) :
    ∃ content : Bytes, x = pushString content ∧ content.length ≤ s.length + t.length := by
  induction s, t using qstringSlow.induct with
  | case1 s | case2 s => cases run
  | case3 s c rest ih =>
      obtain ⟨content, pushes, short⟩ := ih run
      refine ⟨content, pushes, ?_⟩
      simp only [List.length_append, List.length_cons, List.length_nil] at short ⊢
      omega
  | case4 s rest =>
      cases run
      exact ⟨s, rfl, Nat.le_add_right _ _⟩
  | case5 s c rest notEscape notLast notQuote ih =>
      rw [qstringSlow] at run
      · obtain ⟨content, pushes, short⟩ := ih run
        refine ⟨content, pushes, ?_⟩
        simp only [List.length_append, List.length_cons, List.length_nil] at short ⊢
        omega
      all_goals assumption

theorem scanJsonQstring_content {s t content rest : Bytes}
    (h : scanJsonQstring s t = some (some (content, rest))) :
    content.length ≤ s.length + t.length := by
  induction t generalizing s with
  | nil => cases h
  | cons c t ih =>
      rw [scanJsonQstring] at h
      split at h
      · cases h
      · split at h
        · cases h
          exact Nat.le_add_right _ _
        · have short := ih h
          simp only [List.length_append, List.length_cons, List.length_nil] at short ⊢
          omega

theorem encodes_pushJsonQstring {n : Nat} {s x r : Bytes} (hs : s.length < n)
    (run : pushJsonQstring s = .ok (x, r)) : Encodes n x := by
  unfold pushJsonQstring at run
  split at run
  · rename_i rest
    simp only [List.length_cons] at hs
    split at run
    · cases run
    · rw [pushJsonQstringSlow, bind_of_ok (expectChar_cons 34 rest)] at run
      obtain ⟨content, rfl, short⟩ := qstringSlow_string run
      simp only [List.length_nil] at short
      exact ⟨.string content, by simp only [Value.Sized]; omega, rfl⟩
    · rename_i content _ scanned
      cases run
      have short := scanJsonQstring_content scanned
      simp only [List.length_nil] at short
      exact ⟨.string content, by simp only [Value.Sized]; omega, rfl⟩
  · cases run

end Scalars

section Container
variable {opening closing : UInt8} {separators : List UInt8} {empty : Bytes}
  {finish : Bytes → Nat → Option Bytes} {value : Parser Bytes} {n : Nat}

/-- A round drops a separator, pushes an element or closes. -/
theorem containerRound_cases {st : Bytes × Nat} {s r : Bytes} {res : (Bytes × Nat) ⊕ Bytes}
    (run : containerRound separators closing finish value st s = .ok (res, r)) :
    (res = .inl st ∧ r.length < s.length) ∨
    (∃ x t, t.length ≤ s.length ∧ value t = .ok (x, r) ∧ res = .inl (st.1 ++ x, st.2 + 1)) ∨
    ∃ x, finish st.1 st.2 = some x ∧ res = .inr x := by
  obtain ⟨inner, count⟩ := st
  obtain ⟨_, t, skipped, run⟩ := bind_eq_ok run
  have shorter := shrinks_skipWsp s _ t skipped
  obtain ⟨c, u, peeked, run⟩ := bind_eq_ok run
  cases peeked
  cases hc : t.head? with
  | none =>
      rw [hc] at run
      cases run
  | some c =>
      simp only [hc] at run
      split at run
      · obtain ⟨_, u, expected, run⟩ := bind_eq_ok run
        have advanced := advances_expectChar c t _ u expected
        obtain ⟨_, v, skipped, run⟩ := bind_eq_ok run
        have shrunk := shrinks_skipWsp u _ v skipped
        cases run
        exact .inl ⟨rfl, by omega⟩
      · split at run
        · obtain ⟨_, u, -, run⟩ := bind_eq_ok run
          cases hf : finish inner count with
          | none =>
              simp only [hf] at run
              cases run
          | some x =>
              simp only [hf] at run
              cases run
              exact .inr (.inr ⟨x, rfl, rfl⟩)
        · obtain ⟨x, u, pushed, run⟩ := bind_eq_ok run
          cases run
          exact .inr (.inl ⟨x, t, shorter, pushed, rfl⟩)

theorem encodes_pushJsonContainer (hempty : Encodes n empty)
    (hfinish : ∀ inner count x, Collected n inner count → count < n →
      finish inner count = some x → Encodes n x)
    (hvalue : ∀ s x r, value s = .ok (x, r) → r.length < s.length ∧ (s.length < n → Encodes n x))
    {s x r : Bytes} (hs : s.length < n)
    (run : pushJsonContainer opening separators closing empty finish value s = .ok (x, r)) :
    Encodes n x := by
  obtain ⟨_, s₁, opened, run⟩ := bind_eq_ok run
  have inside := advances_expectChar opening s _ s₁ opened
  obtain ⟨_, s₂, skipped, run⟩ := bind_eq_ok run
  have shorter := shrinks_skipWsp s₁ _ s₂ skipped
  obtain ⟨done, s₃, matched, run⟩ := bind_eq_ok run
  have left := shrinks_matchChar closing s₂ done s₃ matched
  cases done with
  | true =>
      cases run
      exact hempty
  | false =>
      obtain ⟨first, s₄, pushed, run⟩ := bind_eq_ok run
      obtain ⟨advanced, item⟩ := hvalue s₃ first s₄ pushed
      have start : Collected n first 1 := (Collected.nil n).push (item (by omega))
      let Inv (st : Bytes × Nat) (t : Bytes) := Collected n st.1 st.2 ∧ st.2 + t.length < n
      have entered : Inv (first, 1) s₄ := ⟨start, by dsimp only; omega⟩
      refine loop_ensures ?_ ?_ entered run
      · intro st t st' u ⟨collected, small⟩ round
        obtain ⟨res, less⟩ | ⟨x, t', le, pushed, res⟩ | ⟨x, -, res⟩ := containerRound_cases round
        · cases res
          exact ⟨collected, by omega⟩
        · cases res
          obtain ⟨less, item⟩ := hvalue t' x u pushed
          exact ⟨collected.push (item (by omega)), by dsimp only; omega⟩
        · cases res
      · intro st t a u ⟨collected, small⟩ round
        obtain ⟨res, -⟩ | ⟨_, _, -, -, res⟩ | ⟨x, finished, res⟩ := containerRound_cases round
        · cases res
        · cases res
        · cases res
          exact hfinish st.1 st.2 a collected (by omega) finished

end Container

section Values
variable {fromChars : Bytes → Option Float}

theorem encodes_pushJsonCase {n : Nat} {value : Parser Bytes}
    (hvalue : ∀ s x r, value s = .ok (x, r) → r.length < s.length ∧ (s.length < n → Encodes n x))
    {c : UInt8} {s x r : Bytes} (hs : s.length < n)
    (run : pushJsonCase fromChars value c s = .ok (x, r)) : Encodes n x := by
  unfold pushJsonCase at run
  split at run
  · exact encodes_pushJsonNumber run
  · split at run
    · exact encodes_pushJsonKeyword run
    · split at run
      · exact encodes_pushJsonQstring hs run
      · refine encodes_pushJsonContainer ?_ ?_ hvalue hs run
        · exact ⟨.array [], ⟨by simp only [List.length_nil]; omega, trivial⟩, rfl⟩
        · exact fun _ _ _ => encodes_finishArray
      · refine encodes_pushJsonContainer ?_ ?_ hvalue hs run
        · exact ⟨.map [], ⟨by simp only [List.length_nil]; omega, trivial⟩, rfl⟩
        · exact fun _ _ _ => encodes_finishMap
      · cases run

theorem encodes_pushJsonValue {n : Nat} {s x r : Bytes} (hs : s.length < n)
    (run : pushJsonValue fromChars s = .ok (x, r)) : Encodes n x := by
  suffices ensured : r.length < s.length ∧ (s.length < n → Encodes n x) from ensured.2 hs
  refine fix_ensures (R := fun _ s x r => r.length < s.length ∧ (s.length < n → Encodes n x))
    ?_ run
  intro value hvalue _ s x r run
  obtain ⟨_, t, skipped, run⟩ := bind_eq_ok run
  have shorter := shrinks_skipWsp s _ t skipped
  obtain ⟨c, u, peeked, run⟩ := bind_eq_ok run
  cases peeked
  cases hc : t.head? with
  | none =>
      rw [hc] at run
      cases run
  | some c =>
      simp only [hc] at run
      have shrinks : Shrinks (value ()) := fun s x r h => Nat.le_of_lt (hvalue () s x r h).1
      have less := advances_pushJsonCase fromChars shrinks c t x r run
      refine ⟨by omega, fun hs => ?_⟩
      exact encodes_pushJsonCase (hvalue ()) (by omega) run

/-- The parser throws and leaves the buffer as it was, or appends one item whose
headers count what follows them and which the skipper takes whole. -/
theorem pushJson_all_or_nothing (fromChars : Bytes → Option Float) (buf s : Bytes)
    (addressable : s.length < 2 ^ 63) :
    (∀ e buf', Buffered.pushJson fromChars buf s = (.error e, buf') → buf' = buf) ∧
    ∀ buf', Buffered.pushJson fromChars buf s = (.ok (), buf') →
      ∃ v : Value, v.Sized (2 ^ 63) ∧ buf' = buf ++ encode v ∧
        ∀ r, skipValue (encode v ++ r) = .ok ((), r) := by
  rw [Buffered.pushJson_eq, pushJson]
  cases run : pushJsonValue fromChars s with
  | error e =>
      refine ⟨fun _ buf' h => ?_, fun buf' h => ?_⟩ <;> cases h
      rfl
  | ok p =>
      refine ⟨fun _ buf' h => ?_, fun buf' h => ?_⟩ <;> cases h
      obtain ⟨v, sized, pushes⟩ := encodes_pushJsonValue addressable run
      exact ⟨v, sized, by rw [pushes], reads_skipValue v sized⟩

end Values

/-- An empty place between separators is no element. -/
theorem pushJson_lenient : Buffered.pushJson (fun _ => none) [246] (text "[1,,2,]") =
    (.ok (), [246, 130, 1, 2]) := by
  decide +kernel

theorem pushJson_all_or_nothing_lenient :
    ∃ v : Value, v.Sized (2 ^ 63) ∧ [246, 130, 1, 2] = [246] ++ encode v ∧
      ∀ r, skipValue (encode v ++ r) = .ok ((), r) :=
  (pushJson_all_or_nothing (fun _ => none) [246] (text "[1,,2,]") (by decide)).2 _ pushJson_lenient

end Thespian.Cbor.Json
