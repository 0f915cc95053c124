import Thespian.Runtime.Instance
import Thespian.Cbor.MatchReturns

/-!
Which messages handle_exit can be called with. It reads the reason of the exit
out of the message, or prints the message where it has none; both may throw on
bytes that are not a rendered CBOR array.
-/

namespace Thespian.Runtime
open Cbor Actor Decoding Decoding.Decoder

variable (toChars : Float → Bytes)

/-- A well-formed CBOR array that `to_json` can render. -/
def Renderable (m : Bytes) : Prop :=
  (∃ type rest, m = type :: rest ∧ type >>> 5 = 4) ∧ skipValue m = .ok ((), []) ∧
    ∃ json, toJson toChars m = .ok json

/-- Handle_exit finds a text for its handlers without an exception. -/
def Reasoned (m : Bytes) : Prop := ∃ err, exitReason toChars m = .ok err

variable {toChars}

theorem reasoned_of_match {m : Bytes} {b : Bool} {ws : Writes}
    (h : matchBuffer m reasonPattern = .ok (b, ws))
    (rendered : ∃ json, toJson toChars m = .ok json) : Reasoned toChars m := by
  obtain ⟨json, printed⟩ := rendered
  unfold Reasoned exitReason
  rw [h, printed]
  dsimp only [bind, Except.bind]
  split <;> exact ⟨_, rfl⟩

theorem Renderable.reasoned {m : Bytes} (h : Renderable toChars m) : Reasoned toChars m := by
  obtain ⟨⟨type, rest, rfl, array⟩, skipped, rendered⟩ := h
  have tame : ∀ p ∈ reasonPattern.toList, Tame p := by
    intro p hp
    simp only [reasonPattern, Patterns.toList, List.mem_cons, List.not_mem_nil, or_false] at hp
    rcases hp with rfl | rfl | rfl
    · exact tame_type .string
    · exact tame_extractString 0
    · exact tame_type .more
  obtain ⟨b, ws, run⟩ := matchBuffer_of_skipped tame array skipped
  exact reasoned_of_match run rendered

/-- A pushed text is read back as a text, if only a part of it where its length
does not fit the header. -/
theorem matchString_pushString (w r : Bytes) :
    ∃ v t, matchString (pushString w ++ r) = .ok (some v, t) := by
  obtain ⟨width, fits, eq⟩ := pushTypedVal_eq 3 (UInt64.ofNat w.length)
  have len : (UInt64.ofNat w.length).toNat ≤ w.length := by
    rw [UInt64.toNat_ofNat']
    exact Nat.mod_le _ _
  have register : (UInt64.ofNat (UInt64.ofNat w.length).toNat).toNat =
      (UInt64.ofNat w.length).toNat := by simp
  generalize (UInt64.ofNat w.length).toNat = n at len fits eq register
  have whole : w ++ r = w.take n ++ (w.drop n ++ r) := by
    rw [← List.append_assoc, List.take_append_drop]
  have content : decodeString (UInt8.ofNat (width.info n))
      (bigEndianBytes width.bytes n ++ (w ++ r)) = .ok (w.take n, w.drop n ++ r) := by
    have taken := reads_takeN tooShort (w.take n) (w.drop n ++ r)
    rw [List.length_take_of_le len] at taken
    rw [decodeString, bind_of_ok (reads_decodePint fits (w ++ r)), register, whole]
    exact taken
  refine ⟨w.take n, w.drop n ++ r, ?_⟩
  rw [pushString, eq, List.append_assoc, matchString,
    bind_of_ok (decodeType_header (by decide) fits (w ++ r))]
  exact bind_of_ok content _

/-- Every exit message the runtime makes itself has its reason. -/
theorem reasoned_exitMessage (w : Bytes) : Reasoned toChars (exitMessage w) := by
  obtain ⟨v, t, string⟩ := matchString_pushString w []
  have short : (Value.string (text "exit")).Sized (2 ^ 63) := by
    show (text "exit").length < 2 ^ 63
    decide
  have first := reads_matchValueType _ short .string (pushString w ++ [])
  have second : matchValue (.extract .string 0) (pushString w ++ []) =
      .ok ((true, [(0, .string v)]), t) := by
    have extracted : extract .string (pushString w ++ []) = .ok (some (.string v), t) :=
      bind_of_ok string _
    rw [matchValue, bind_of_ok extracted]
    rfl
  have rest : matchNext (.cons (.extract .string 0) (.last (.type .more))) 1
      (pushString w ++ []) = .ok ((true, [(0, .string v)]), t) := by
    rw [matchNext, if_neg (by decide), bind_of_ok second]
    rfl
  have elements : matchNext reasonPattern 2 (encode (.string (text "exit")) ++ (pushString w ++ []))
      = .ok ((true, [(0, .string v)]), t) := by
    rw [reasonPattern, matchNext, if_neg (by decide), matchValue, bind_of_ok (bind_of_ok first _)]
    exact bind_of_ok rest _
  have bytes : exitMessage w =
      0x82 :: (encode (.string (text "exit")) ++ (pushString w ++ [])) := by
    have header : arrayHeader 2 = [0x82] := by decide
    simp only [exitMessage, array, encodeItems, encode]
    exact congrArg (· ++ (pushString (text "exit") ++ (pushString w ++ []))) header
  have matched : matchBuffer (exitMessage w) reasonPattern = .ok (true, [(0, .string v)]) := by
    have header : decodeArrayHeader
        (0x82 :: (encode (.string (text "exit")) ++ (pushString w ++ []))) = .ok (2, _) := rfl
    rw [bytes, matchBuffer, matchArray, bind_of_ok header]
    exact congrArg (Except.map Prod.fst) elements
  refine ⟨v, ?_⟩
  rw [exitReason, matched]
  rfl

theorem reasoned_linkMsg : Reasoned toChars linkMsg := ⟨_, rfl⟩

theorem reasoned_nullValue : Reasoned toChars nullValue := ⟨_, rfl⟩

end Thespian.Runtime
