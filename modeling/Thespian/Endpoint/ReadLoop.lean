import Thespian.Endpoint.Connection
import Thespian.Cbor.SkipRounds

/-!
The read loop as the source has it, without a bound on its rounds. A round takes
an item off the front of the buffer, whatever its type, or leaves the loop; after
a framing error the loop goes on. The number of rounds is therefore at most the
number of bytes, and so is the number of rounds of the decoder within each.
-/

namespace Thespian.Endpoint
open Decoding Decoding.Decoder Cbor

namespace Connection

/-- One round; none when the loop is left, at the end of the buffer or by an
exception of the decoder. -/
def readRound (sends : Nat → Bool) (i : Nat) (c : Connection) :
    Option (Connection × List Action) :=
  if c.readBuf = [] then none
  else match extractRange c.readBuf with
    | .error _ => none
    | .ok (msg, rest) =>
        let (c, framing) :=
          if msg.isNone then
            let (c, closing) := c.close
            (c, .ownerSend (array [.string (text "exit"), .string (text "framing_error")]) ::
              closing)
          else (c, [])
        let item := c.readBuf.take (c.readBuf.length - rest.length)
        let c := { c with readBuf := rest }
        let (c, closing) := if !sends i then c.close else (c, [])
        some (c, framing ++ [.ownerSend item] ++ closing)

/-- The loop with the rounds it takes until it is left. -/
inductive Rounds (sends : Nat → Bool) :
    Nat → Nat → Connection → Connection → List Action → Prop
  | left {i : Nat} {c : Connection} : c.readRound sends i = none → Rounds sends 0 i c c []
  | round {n i : Nat} {c c' c'' : Connection} {actions more : List Action} :
      c.readRound sends i = some (c', actions) → Rounds sends n (i + 1) c' c'' more →
      Rounds sends (n + 1) i c c'' (actions ++ more)

end Connection

section Round
variable {sends : Nat → Bool} {i : Nat} {c c' : Connection} {actions : List Action}

theorem readLoop_succ (fuel : Nat) :
    c.readLoop sends (fuel + 1) i = match c.readRound sends i with
      | none => (c, [])
      | some (c', actions) =>
          ((c'.readLoop sends fuel (i + 1)).1, actions ++ (c'.readLoop sends fuel (i + 1)).2) := by
  rw [Connection.readLoop, Connection.readRound]
  by_cases empty : c.readBuf = []
  · rw [if_pos empty, if_pos empty]
  rw [if_neg empty, if_neg empty]
  cases extractRange c.readBuf with
  | error e => rfl
  | ok p =>
      obtain ⟨msg, rest⟩ := p
      cases msg <;> cases sends i <;> rfl

theorem readRound_eq_none :
    c.readRound sends i = none ↔ ∃ e, extractRange c.readBuf = .error e := by
  rw [Connection.readRound]
  by_cases empty : c.readBuf = []
  · rw [if_pos empty, empty]
    exact iff_of_true rfl ⟨tooShort, extractRange_nil⟩
  rw [if_neg empty]
  cases extractRange c.readBuf with
  | error e => exact iff_of_true rfl ⟨e, rfl⟩
  | ok p => exact ⟨nofun, nofun⟩

/-- The item has been taken off the buffer, whatever else the round has done. -/
theorem readRound_readBuf (h : c.readRound sends i = some (c', actions)) :
    ∃ msg, extractRange c.readBuf = .ok (msg, c'.readBuf) := by
  rw [Connection.readRound] at h
  by_cases empty : c.readBuf = []
  · rw [if_pos empty] at h
    cases h
  rw [if_neg empty] at h
  cases run : extractRange c.readBuf with
  | error e =>
      rw [run] at h
      cases h
  | ok p =>
      obtain ⟨msg, rest⟩ := p
      rw [run] at h
      refine ⟨msg, ?_⟩
      cases msg <;> cases answer : sends i <;> simp only [answer] at h <;> cases h <;> rfl

theorem readRound_shorter (h : c.readRound sends i = some (c', actions)) :
    c'.readBuf.length < c.readBuf.length := by
  obtain ⟨msg, run⟩ := readRound_readBuf h
  exact advances_extractRange _ msg _ run

end Round

/-- With a bound that is no less than the length of the buffer, the loop runs as
it does without a bound. -/
theorem readLoop_rounds (sends : Nat → Bool) (fuel i : Nat) (c : Connection)
    (enough : c.readBuf.length ≤ fuel) :
    ∃ n, n ≤ c.readBuf.length ∧ Connection.Rounds sends n i c (c.readLoop sends fuel i).1
      (c.readLoop sends fuel i).2 := by
  induction fuel generalizing i c with
  | zero =>
      have empty : c.readBuf = [] := List.length_eq_zero_iff.mp (Nat.le_zero.mp enough)
      refine ⟨0, Nat.zero_le _, .left ?_⟩
      rw [Connection.readRound, if_pos empty]
  | succ fuel ih =>
      rw [readLoop_succ]
      cases round : c.readRound sends i with
      | none => exact ⟨0, Nat.zero_le _, .left round⟩
      | some p =>
          obtain ⟨c', actions⟩ := p
          have shorter := readRound_shorter round
          obtain ⟨n, few, rounds⟩ := ih (i + 1) c' (by omega)
          exact ⟨n + 1, by omega, .round round rounds⟩

theorem Connection.Rounds.unique {sends : Nat → Bool} {n m i : Nat} {c c₁ c₂ : Connection}
    {actions₁ actions₂ : List Action} (first : Rounds sends n i c c₁ actions₁)
    (second : Rounds sends m i c c₂ actions₂) : n = m ∧ c₁ = c₂ ∧ actions₁ = actions₂ := by
  induction first generalizing m c₂ actions₂ with
  | left stop =>
      cases second with
      | left => exact ⟨rfl, rfl, rfl⟩
      | round go => rw [stop] at go; cases go
  | round go _ ih =>
      cases second with
      | left stop => rw [stop] at go; cases go
      | round go' rest =>
          rw [go] at go'
          cases go'
          obtain ⟨rfl, rfl, rfl⟩ := ih rest
          exact ⟨rfl, rfl, rfl⟩

end Thespian.Endpoint
