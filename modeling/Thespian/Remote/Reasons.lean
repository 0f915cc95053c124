import Thespian.Remote.Transparent

/-!
How long the reason of an exit can be. The reason comes out of a frame, from a
caller or from an error of the library, and the message that carries it is written
to a buffer of 256 bytes, with no other branch for one that does not fit. A frame
holds reasons a hundred times as long.
-/

namespace Thespian.Remote
open Cbor Zig Transition

section Reasons
variable {ε : Type} {ext : Externals ε}

theorem exitFmt_carries_iff (doc : Documented ext.cbor) {formatted : Bytes}
    (fits : formatted.length ≤ 1024) :
    Carries ext.cbor formatted (exitFmt ext.cbor formatted) ↔ formatted.length ≤ maxReason := by
  rw [exitFmt, if_pos fits]
  exact exit_carries_iff doc formatted

theorem exit_sound_iff (doc : Documented ext.cbor) (reason : Bytes) :
    some (Zig.exit ext.cbor reason) ≠ some .reachedUnreachable ↔ reason.length ≤ maxReason := by
  rw [Ne, Option.some.injEq, exit_reaches_iff doc]
  exact Nat.not_lt

theorem transportError_sound_iff (doc : Documented ext.cbor) (n : Node) {frame reason : Bytes}
    (decoded : ProtocolMessage.decode ext.cbor frame = .ok (.transportError reason)) :
    (dispatchInbound ext n frame).2 ≠ some .reachedUnreachable ↔ reason.length ≤ maxReason := by
  rw [dispatchInbound_of_decode decoded]
  exact exit_sound_iff doc reason

theorem exitFrame_sound (n : Node) {frame reason : Bytes} {localId : Lpiid}
    (decoded : ProtocolMessage.decode ext.cbor frame = .ok (.exit localId reason)) :
    (dispatchInbound ext n frame).2 = none := by
  rw [dispatchInbound_of_decode decoded]
  simp only [dispatchMessage]
  split
  · rfl
  · rfl

/-- The endpoint hands the reason of an exit frame on as it is. -/
theorem classify_exitReason (doc : Selective ext.cbor) {reason : Bytes}
    (small : reason.length < 2 ^ 62) :
    ProxyMessage.classify ext.cbor ext.errorName (exitReasonMessage ext.cbor reason) =
      .ok (.exit reason) := by
  have few : (ProxyMessage.exit reason).elements.length < 2 ^ 63 := by simp [ProxyMessage.elements]
  rw [exitReasonMessage_eq doc.toDocumented]
  refine ProxyMessage.classify_elements doc (by simp) (items_of_forall few ?_)
  simp only [ProxyMessage.elements, List.forall_mem_cons]
  exact ⟨item_string (by decide), item_string small, by simp⟩

theorem exitReason_sound_iff (doc : Selective ext.cbor) (n : Node) (p : InstanceId) (r : Rpiid)
    {reason : Bytes} (fits : reason.length ≤ maxFrameSize) :
    (proxyReceive ext n p r ⟨some n.endpoint, exitReasonMessage ext.cbor reason, .own⟩).2 ≠
      some .reachedUnreachable ↔ reason.length ≤ maxReason := by
  have small : reason.length < 2 ^ 62 := by
    rw [maxFrameSize] at fits
    omega
  unfold proxyReceive
  dsimp only
  rw [classify_exitReason doc small]
  dsimp only
  rw [if_neg (by simp [handleId])]
  exact exit_sound_iff doc.toDocumented reason

/-- A reason is carried, and reaches no unreachable code on its way from a frame to a
proxy, exactly where it has at most 248 bytes; an error is saved and restored exactly
where it is not empty and fits the buffer. -/
theorem reasons_carried_iff (doc : Selective ext.cbor) :
    (∀ reason, Carries ext.cbor reason (Zig.exit ext.cbor reason) ↔ reason.length ≤ maxReason) ∧
    (∀ formatted, formatted.length ≤ 1024 →
      (Carries ext.cbor formatted (exitFmt ext.cbor formatted) ↔ formatted.length ≤ maxReason)) ∧
    (∀ n frame reason, ProtocolMessage.decode ext.cbor frame = .ok (.transportError reason) →
      ((dispatchInbound ext n frame).2 ≠ some .reachedUnreachable ↔ reason.length ≤ maxReason)) ∧
    (∀ n frame localId reason,
      ProtocolMessage.decode ext.cbor frame = .ok (.exit localId reason) →
      (dispatchInbound ext n frame).2 = none) ∧
    (∀ n p r reason, reason.length ≤ maxFrameSize →
      ((proxyReceive ext n p r ⟨some n.endpoint, exitReasonMessage ext.cbor reason, .own⟩).2 ≠
        some .reachedUnreachable ↔ reason.length ≤ maxReason)) ∧
    (∀ m, Restored m ↔ m ≠ [] ∧ m.length ≤ errorMessageBufferSize) :=
  ⟨exit_carries_iff doc.toDocumented, fun _ => exitFmt_carries_iff doc.toDocumented,
    fun n _ _ => transportError_sound_iff doc.toDocumented n, fun n _ _ _ => exitFrame_sound n,
    fun n p r _ => exitReason_sound_iff doc n p r, restored_iff⟩

end Reasons

section Examples

def longReason : Bytes := List.replicate 249 97

theorem reasons_carried_normal : Carries lenient (text "normal") (Zig.exit lenient (text "normal")) :=
  ((reasons_carried_iff (show Selective lenientExternals.cbor from lenient_selective)).1 _).mpr
    (by decide)

/-- A peer ends the whole process with an exit frame. -/
def longExit : List Action :=
  [.spawn (text "user") true, .arrive (frame (.link ⟨7⟩ ⟨2⟩)), .turn 3,
    .arrive (frame (.exit ⟨7⟩ longReason)), .turn 3]

theorem long_reason_crashes : ¬ Carries lenient longReason (Zig.exit lenient longReason) ∧
    ∃ n, run (Node.step lenientExternals) (Node.start noNames) longExit = some n ∧
      n.crashed = true := by
  constructor
  · rw [exit_carries_iff lenient_selective.toDocumented, longReason, List.length_replicate]
    decide
  · have facts : (run (Node.step lenientExternals) (Node.start noNames) longExit).map
        Node.crashed = some true := by decide +kernel
    exact Option.map_eq_some_iff.mp facts

end Examples

end Thespian.Remote
