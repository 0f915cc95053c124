import Thespian.Remote.Package

/-!
Errors of the Zig interface. An error is a message in a buffer of the thread; the
buffer of exit_message has a fixed size, and a message that does not fit is
declared unreachable. Saving an error copies it into a buffer of the same size.

The current error is the bytes its pointer stands for, or none for null.
-/

namespace Thespian.Zig
open Cbor Remote Decoding

def errorMessageBufferSize : Nat := 256

/-- How a call ends that does not return a value. -/
inductive Failure where
  /-- `error.Exit`, with the message that was stored. -/
  | exit (m : Bytes)
  | reachedUnreachable
  | outOfBounds
  /-- An exception of the C++ library. -/
  | exception (e : DomainError)
deriving DecidableEq

section Exit
variable {ε : Type} (cbor : Package ε)

/-- `message.fmtbuf`; none is error.NoSpaceLeft. -/
def fmtbuf (bufLen : Nat) (value : Val) : Option Bytes :=
  let written := cbor.writeValue value
  if written.length ≤ bufLen then some written else none

/-- `message.fmtbuf(&error_message_buffer, .{ "exit", e }) catch unreachable` -/
def exitMessage (e : Bytes) : Except Failure Bytes :=
  match fmtbuf cbor errorMessageBufferSize (.tuple [.string (text "exit"), .string e]) with
  | some m => .ok m
  | none => .error .reachedUnreachable

def setErrorMsg (m : Bytes) : Failure := .exit m

def exit (e : Bytes) : Failure :=
  match exitMessage cbor e with
  | .ok m => setErrorMsg m
  | .error f => f

def exitNormal : Failure := exit cbor (text "normal")

/-- The formatted text, or what is put in its place where it does not fit. -/
def exitFmt (formatted : Bytes) : Failure :=
  exit cbor (if formatted.length ≤ 1024 then formatted else text "FMTERROR")

/-- An error that is not error.Exit, by its name. -/
def exitError (name : Bytes) : Failure := exit cbor name

end Exit

/-- The saved copy of an error; its buffer has the size of the error buffer. -/
structure ScopedError where
  saved : Bytes
  fits : saved.length ≤ errorMessageBufferSize

def storeError (current : Option Bytes) : Except Failure ScopedError :=
  match current with
  | some m =>
      if fits : m.length ≤ errorMessageBufferSize then .ok ⟨m, fits⟩ else .error .outOfBounds
  | none => .ok ⟨[], Nat.zero_le _⟩

def restoreError (err : ScopedError) : Option Bytes :=
  if 0 < err.saved.length then some err.saved else none

section Carried
variable {ε : Type} {cbor : Package ε}

/-- The longest reason whose message fits the error buffer. -/
def maxReason : Nat := 248

theorem pushString_length_le_iff (e : Bytes) : (pushString e).length ≤ 250 ↔ e.length ≤ maxReason := by
  have value (small : e.length < 256) : (UInt64.ofNat e.length).toNat = e.length :=
    toNat_ofNat_register (by omega)
  obtain ⟨w, fits, eq⟩ := pushTypedVal_eq 3 (UInt64.ofNat e.length)
  have one : 1 ≤ (pushTypedVal 3 (UInt64.ofNat e.length)).length := by
    rw [eq, header, List.length_cons]
    omega
  have narrow (small : e.length < 256) : (pushTypedVal 3 (UInt64.ofNat e.length)).length ≤ 2 := by
    unfold pushTypedVal
    dsimp only
    split
    · simp
    · rw [if_pos (by rw [UInt64.lt_iff_toNat_lt, value small]; exact small)]
      simp
  have wide (large : 24 ≤ e.length) (small : e.length < 256) :
      2 ≤ (pushTypedVal 3 (UInt64.ofNat e.length)).length := by
    unfold pushTypedVal
    dsimp only
    rw [if_neg (by rw [UInt64.lt_iff_toNat_lt, value small]; exact Nat.not_lt.mpr large),
      if_pos (by rw [UInt64.lt_iff_toNat_lt, value small]; exact small)]
    simp
  rw [pushString, List.length_append, maxReason]
  constructor
  · intro fits
    by_contra large
    by_cases small : e.length < 256
    · have two := wide (by omega) small
      omega
    · omega
  · intro small
    have two := narrow (by omega)
    omega

theorem writeValue_exit (doc : Documented cbor) (e : Bytes) :
    cbor.writeValue (.tuple [.string (text "exit"), .string e]) =
      arrayOf [pushString (text "exit"), pushString e] := by
  simp [doc.write_tuple, doc.write_string]

theorem exitMessage_eq (doc : Documented cbor) (e : Bytes) :
    exitMessage cbor e =
      if e.length ≤ maxReason then .ok (arrayOf [pushString (text "exit"), pushString e])
      else .error .reachedUnreachable := by
  have length : (arrayOf [pushString (text "exit"), pushString e]).length =
      6 + (pushString e).length := by
    have first : (arrayHeader (UInt64.ofNat 2)).length = 1 := by decide
    have second : (pushString (text "exit")).length = 5 := by decide
    rw [arrayOf, List.length_append, List.flatten_cons, List.length_append, second]
    simp only [List.flatten_cons, List.flatten_nil, List.append_nil]
    have header : (arrayHeader (UInt64.ofNat [pushString (text "exit"), pushString e].length)).length =
        1 := first
    omega
  have fits : 6 + (pushString e).length ≤ errorMessageBufferSize ↔ e.length ≤ maxReason := by
    rw [← pushString_length_le_iff, errorMessageBufferSize]
    omega
  unfold exitMessage fmtbuf
  dsimp only
  rw [writeValue_exit doc, length]
  by_cases small : e.length ≤ maxReason
  · rw [if_pos (fits.mpr small), if_pos small]
  · rw [if_neg (mt fits.mp small), if_neg small]

/-- The message of an exit with the given reason. -/
def Carries (cbor : Package ε) (reason : Bytes) (f : Failure) : Prop :=
  ∃ m, f = .exit m ∧
    cbor.matchFrame m [.literal (text "exit"), .string] = .ok (some [.string reason])

theorem accepts_exit (reason : Bytes) :
    Accepts (ε := ε) [.literal (text "exit"), .string]
      [pushString (text "exit"), pushString reason] [.string reason] := by
  have here : (Pat.string : Pat ε).Accepts (pushString reason) [.string reason] :=
    ⟨reason, rfl, rfl⟩
  exact accepts_literal _ (accepts_extract here .nil)

theorem exit_carries_iff (doc : Documented cbor) (reason : Bytes) :
    Carries cbor reason (exit cbor reason) ↔ reason.length ≤ maxReason := by
  unfold Zig.exit
  rw [exitMessage_eq doc]
  by_cases small : reason.length ≤ maxReason
  · rw [if_pos small]
    refine iff_of_true ⟨_, rfl, ?_⟩ small
    refine doc.matchFrame_accepts _ _ _ (by simp) ?_ (accepts_exit reason)
    have length := (pushString_length_le_iff reason).mpr small
    have literal : (pushString (text "exit")).length < 2 ^ 63 := by decide
    simp only [List.forall_mem_cons]
    exact ⟨literal, by omega, by simp⟩
  · rw [if_neg small]
    refine iff_of_false ?_ small
    rintro ⟨m, eq, -⟩
    cases eq

theorem exit_reaches_iff (doc : Documented cbor) (reason : Bytes) :
    exit cbor reason = .reachedUnreachable ↔ maxReason < reason.length := by
  unfold Zig.exit
  rw [exitMessage_eq doc]
  by_cases small : reason.length ≤ maxReason
  · rw [if_pos small]
    exact iff_of_false (by simp [setErrorMsg]) (by omega)
  · rw [if_neg small]
    exact iff_of_true rfl (by omega)

/-- Saving and restoring gives back the error. -/
def Restored (m : Bytes) : Prop :=
  ∃ saved, storeError (some m) = .ok saved ∧ restoreError saved = some m

theorem restored_iff (m : Bytes) :
    Restored m ↔ m ≠ [] ∧ m.length ≤ errorMessageBufferSize := by
  unfold Restored storeError
  dsimp only
  by_cases fits : m.length ≤ errorMessageBufferSize
  · rw [dif_pos fits]
    have positive : 0 < m.length ↔ m ≠ [] := List.length_pos_iff
    constructor
    · rintro ⟨saved, eq, back⟩
      cases eq
      refine ⟨fun empty => ?_, fits⟩
      subst empty
      cases back
    · rintro ⟨some, -⟩
      exact ⟨_, rfl, if_pos (positive.mpr some)⟩
  · rw [dif_neg fits]
    refine iff_of_false ?_ fun both => fits both.2
    rintro ⟨saved, eq, -⟩
    cases eq

end Carried

end Thespian.Zig
