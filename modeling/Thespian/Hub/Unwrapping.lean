import Thespian.Hub.Receiver
import Thespian.Cbor.MatchReturns

/-!
What a hub forwards of a broadcast message. The test accepts the array and the tag
with headers of every width, and the tag as a text or as a byte string; what is cut
off in front of the payload is eleven bytes in any case. That is the array header
and the tag when both headers are a single byte, and too few bytes otherwise.
-/

namespace Thespian.Hub
open Cbor Decoding Decoding.Decoder

def broadcastPattern : Patterns := .cons (.string (text "broadcast")) (.last (.type .array))

/-- The header of an array of two elements and that of a string of nine bytes, text or
not, each in one byte. -/
def OneByteHeaders (msg : Bytes) : Prop :=
  msg[0]? = some 0x82 ∧ (msg[1]? = some 0x69 ∨ msg[1]? = some 0x49)

section Accepted
variable {s r : Bytes} {ws : Writes}

/-- The elements of a message that the test accepts. -/
theorem accepted_elements {msg : Bytes} {n : UInt64} {items : List Bytes}
    (wellFormed : Container .array msg n items)
    (accepted : matchBuffer msg broadcastPattern = .ok (true, ws)) :
    ∃ tag payload, items = [tag, payload] ∧ n = 2 ∧
      matchString (tag ++ payload) = .ok (some (text "broadcast"), payload) := by
  have header : decodeArrayHeader msg = .ok (n, items.flatten) := wellFormed.header
  have counted : items.length = n.toNat := by simpa [Kind.items] using wellFormed.counted
  obtain ⟨n', t, r, header', run⟩ := matchBuffer_accepts accepted
  cases header.symm.trans header'
  rw [← counted, broadcastPattern] at run
  obtain ⟨nonempty, first, t, more, head, tail, -⟩ := matchNext_cons_accepts run
  have one := (matchNext_last_accepts rfl tail).1
  have two : items.length = 2 := by omega
  obtain ⟨tag, payload, rfl⟩ := List.length_eq_two.mp two
  have item := wellFormed.wellFormed tag (by simp)
  have matched := (matchString_of_literal head).1
  have elements : [tag, payload].flatten = tag ++ payload := by simp
  rw [elements] at matched
  have skipped := (matchString_split matched).1
  have left : t = payload :=
    congrArg Prod.snd (Except.ok.inj (skipped.symm.trans (item.skip payload)))
  exact ⟨tag, payload, rfl, UInt64.toNat_inj.mp counted.symm, left ▸ matched⟩

end Accepted

theorem sendAll_sent {α : Type} (msg : Bytes) (subscribers : List (α × Filter)) :
    ∀ p ∈ (sendAll msg subscribers).1, p.2 = msg := by
  induction subscribers with
  | nil => simp [sendAll]
  | cons sub subscribers ih =>
      obtain ⟨a, f⟩ := sub
      cases f with
      | none =>
          rw [sendAll]
          exact List.forall_mem_cons.mpr ⟨rfl, ih⟩
      | some f =>
          rw [sendAll]
          cases f msg with
          | error e => simp
          | ok accepted =>
              cases accepted with
              | true => exact List.forall_mem_cons.mpr ⟨rfl, ih⟩
              | false => exact ih

theorem broadcast_sent {α : Type} (msg : Bytes) (subscribers : List (α × Filter)) :
    ∀ p ∈ (broadcast subscribers msg).sent, p.2 = msg := by
  have sent := sendAll_sent msg subscribers
  rw [broadcast]
  dsimp only
  split <;> exact sent

theorem initial_of_array (a : UInt8) (major : a >>> 5 = 4) (minor : (a &&& 31).toUInt64 = 2) :
    a = 0x82 := by
  have all : ∀ n : Fin 256, UInt8.ofNat n >>> 5 = 4 → (UInt8.ofNat n &&& 31).toUInt64 = 2 →
      UInt8.ofNat n = 0x82 := by decide +kernel
  have this := all ⟨a.toNat, a.toNat_lt⟩
  rw [UInt8.ofNat_toNat] at this
  exact this major minor

theorem initial_of_string (b : UInt8) (major : b >>> 5 = 2 ∨ b >>> 5 = 3)
    (minor : (b &&& 31).toUInt64 = 9) : b = 0x69 ∨ b = 0x49 := by
  have all : ∀ n : Fin 256, UInt8.ofNat n >>> 5 = 2 ∨ UInt8.ofNat n >>> 5 = 3 →
      (UInt8.ofNat n &&& 31).toUInt64 = 9 → UInt8.ofNat n = 0x69 ∨ UInt8.ofNat n = 0x49 := by
    decide +kernel
  have this := all ⟨b.toNat, b.toNat_lt⟩
  rw [UInt8.ofNat_toNat] at this
  exact this major minor

/-- An accepted message is unwrapped to its payload exactly if its two headers take one
byte each. -/
theorem unwrapped_iff {msg tag payload : Bytes}
    (header : decodeArrayHeader msg = .ok (2, tag ++ payload))
    (tagged : matchString (tag ++ payload) = .ok (some (text "broadcast"), payload)) :
    msg.drop 11 = payload ↔ OneByteHeaders msg := by
  have tag_len : (text "broadcast").length = 9 := by decide
  obtain ⟨-, b, len, t, split, string, u, counted, behind, length⟩ := matchString_split tagged
  obtain ⟨a, s, msg_eq, major, sized⟩ := arrayHeader_split header (by decide)
  subst msg_eq
  rw [split] at sized
  have nine : len = 9 := by
    apply UInt64.toNat_inj.mp
    rw [← length, tag_len]
    rfl
  have u_len : u.length = 9 + payload.length := by rw [behind, List.length_append, tag_len]
  have lengths (longer : u.length + 2 < (a :: s).length) : (a :: s).drop 11 ≠ payload := by
    intro same
    have cut := congrArg List.length same
    rw [List.length_drop] at cut
    omega
  by_cases direct : a &&& 31 < 24
  · obtain ⟨two, rfl⟩ := decodePint_direct sized direct
    by_cases direct' : b &&& 31 < 24
    · obtain ⟨minor, rfl⟩ := decodePint_direct counted direct'
      rw [nine] at minor
      refine iff_of_true ?_ ⟨?_, ?_⟩
      · rw [behind, List.drop_succ_cons, List.drop_succ_cons, ← tag_len, List.drop_left]
      · exact congrArg some (initial_of_array a major two.symm)
      · exact (initial_of_string b string minor.symm).imp (congrArg some) (congrArg some)
    · have shorter := decodePint_wide counted direct'
      refine iff_of_false (lengths (by simp only [List.length_cons]; omega)) ?_
      rintro ⟨-, text_ | bytes⟩
      · obtain rfl := Option.some.inj text_
        exact direct' (by decide)
      · obtain rfl := Option.some.inj bytes
        exact direct' (by decide)
  · have shorter := decodePint_wide sized direct
    have shrinks := shrinks_decodePint _ _ _ _ counted
    refine iff_of_false (lengths (by simp only [List.length_cons] at shorter ⊢; omega)) ?_
    rintro ⟨first, -⟩
    obtain rfl := Option.some.inj first
    exact direct (by decide)

/-- Of every well-formed message that the test for broadcasts accepts: the subscribers
are sent its second element exactly if the headers take one byte each, and none of
them is sent it otherwise. -/
theorem broadcast_unwraps_iff {α : Type} [Nonempty α] (toChars : Float → Bytes) {msg : Bytes}
    {n : UInt64} {items : List Bytes} (wellFormed : Container .array msg n items)
    (accepted : (matchBuffer msg broadcastPattern).map Prod.fst = .ok true) :
    ∃ tag payload, items = [tag, payload] ∧
      ((∀ subscribers : List (α × Filter),
          receive toChars subscribers msg = broadcast subscribers payload) ↔ OneByteHeaders msg) ∧
      (¬ OneByteHeaders msg → ∀ subscribers : List (α × Filter),
        ∀ p ∈ (receive toChars subscribers msg).sent, p.2 ≠ payload) := by
  obtain ⟨ws, accepted⟩ : ∃ ws, matchBuffer msg broadcastPattern = .ok (true, ws) := by
    cases run : matchBuffer msg broadcastPattern with
    | error e =>
        rw [run] at accepted
        cases accepted
    | ok res =>
        rw [run] at accepted
        obtain ⟨b, ws⟩ := res
        cases accepted
        exact ⟨ws, rfl⟩
  obtain ⟨tag, payload, rfl, rfl, tagged⟩ := accepted_elements wellFormed accepted
  have header : decodeArrayHeader msg = .ok (2, tag ++ payload) := by
    have read : decodeArrayHeader msg = .ok (2, [tag, payload].flatten) := wellFormed.header
    simpa using read
  have unwrapped := unwrapped_iff header tagged
  have received (subscribers : List (α × Filter)) :
      receive toChars subscribers msg = broadcast subscribers (msg.drop 11) := by
    rw [receive, test]
    rw [broadcastPattern] at accepted
    rw [accepted]
  refine ⟨tag, payload, rfl, ⟨?_, ?_⟩, ?_⟩
  · intro all
    obtain ⟨a⟩ := ‹Nonempty α›
    have one := (received [(a, none)]).symm.trans (all [(a, none)])
    have sent : [(a, msg.drop 11)] = [(a, payload)] := congrArg Reception.sent one
    exact unwrapped.mp (by simpa using sent)
  · intro narrow subscribers
    rw [received, unwrapped.mpr narrow]
  · intro wide subscribers p member same
    rw [received] at member
    exact wide (unwrapped.mp ((broadcast_sent _ subscribers p member).symm.trans same))

/-- The tag as a byte string, both headers narrow: the payload is the array [1]. -/
theorem broadcast_unwraps_iff_bytes :
    receive (fun _ => []) [(0, none)] ([0x82, 0x49] ++ text "broadcast" ++ [0x81, 0x01]) =
      broadcast [((0 : Nat), none)] [0x81, 0x01] := by
  have wellFormed : Container .array ([0x82, 0x49] ++ text "broadcast" ++ [0x81, 0x01]) 2
      [[0x49] ++ text "broadcast", [0x81, 0x01]] := by
    refine ⟨by decide +kernel, rfl, ?_, by decide⟩
    simp only [List.forall_mem_cons, IsItem]
    exact ⟨by decide +kernel, by decide +kernel, by simp⟩
  obtain ⟨tag, payload, elements, unwraps, -⟩ := broadcast_unwraps_iff (α := Nat) (fun _ => [])
    wellFormed (by decide +kernel)
  cases elements
  exact unwraps.mpr ⟨rfl, .inr rfl⟩ [(0, none)]

/-- With the length of the tag in a second byte what is forwarded begins with the last
letter of the tag. -/
theorem broadcast_wide_tag :
    Container .array ([0x82, 0x78, 0x09] ++ text "broadcast" ++ [0x81, 0x01]) 2
        [[0x78, 0x09] ++ text "broadcast", [0x81, 0x01]] ∧
      (matchBuffer ([0x82, 0x78, 0x09] ++ text "broadcast" ++ [0x81, 0x01]) broadcastPattern).map
        Prod.fst = .ok true ∧
      (receive (fun _ => []) [((0 : Nat), none)]
        ([0x82, 0x78, 0x09] ++ text "broadcast" ++ [0x81, 0x01])).sent = [(0, [0x74, 0x81, 0x01])] := by
  refine ⟨⟨by decide +kernel, rfl, ?_, by decide⟩, by decide +kernel, by decide +kernel⟩
  simp only [List.forall_mem_cons, IsItem]
  exact ⟨by decide +kernel, by decide +kernel, by simp⟩

end Thespian.Hub
