import Thespian.Cbor.Buffer
import Thespian.Transition.Runs

/-!
The write queue of a socket. A write that is made while another is in progress
goes to write_q_; when the one in progress is complete, the queue becomes the
next buffer. The notification of the owner comes before the flag is reset, so
the owner may write while it is being told, and its data is queued.

The operating system takes any part of what it is offered. What the callers
passed and what the system took are recorded beside the members of the class,
as is the buffer the executor was handed for the write in progress.
-/

namespace Thespian.Socket
open Cbor Transition

/-- What the strand is doing with the socket: nothing, or telling the owner. -/
inductive Phase where
  | idle
  | notifying (length : Nat)
  | failing
deriving DecidableEq

structure SocketImpl where
  writeBuf : Bytes := []
  writeQ : Bytes := []
  writePending : Bool := false
  phase : Phase := .idle
  alive : Bool := true
  failed : Bool := false
  outstanding : Option Bytes := none
  written : Bytes := []
  accepted : Bytes := []
deriving DecidableEq

namespace SocketImpl

def writeInternal (s : SocketImpl) : SocketImpl :=
  { s with writePending := true, outstanding := some s.writeBuf }

/-- The body of both overloads of write. -/
def write (s : SocketImpl) (buf : Bytes) : SocketImpl :=
  let s := { s with written := s.written ++ buf }
  if s.writePending then { s with writeQ := s.writeQ ++ buf }
  else writeInternal { s with writeBuf := buf ++ s.writeBuf }

/-- `write(string_view)` -/
def writeString (s : SocketImpl) (buf : Bytes) : SocketImpl := s.write buf

/-- `write(const vector<uint8_t> &)` -/
def writeVector (s : SocketImpl) (buf : Bytes) : SocketImpl := s.write buf

/-- Write_complete behind the notification of the owner. -/
def writeComplete (s : SocketImpl) (length : Nat) : SocketImpl :=
  let s := { s with writePending := false }
  if length < s.writeBuf.length then writeInternal { s with writeBuf := s.writeBuf.drop length }
  else
    let s := { s with writeBuf := [] }
    if s.writeQ ≠ [] then writeInternal { s with writeBuf := s.writeQ, writeQ := [] } else s

/-- The part of write_buf_ the system has not taken. -/
def unaccepted (s : SocketImpl) : Bytes :=
  match s.phase with
  | .notifying length => s.writeBuf.drop length
  | _ => s.writeBuf

end SocketImpl

/-- What the socket tells its owner of a write. -/
def writeCompleteMessage (tag : Bytes) (length : Nat) : Bytes :=
  array [.string (text "socket"), .string tag, .string (text "write_complete"),
    .uint (UInt64.ofNat length)]

def writeErrorMessage (tag : Bytes) (err : Int64) (errMsg : Bytes) : Bytes :=
  array [.string (text "socket"), .string tag, .string (text "write_error"), .int err,
    .string errMsg]

inductive Action where
  | writeString (buf : Bytes)
  | writeVector (buf : Bytes)
  | complete (length : Nat)
  | fail
  | notified (alive : Bool)
deriving DecidableEq

/-- A completion hands the strand to the notification; what the owner does there
are further writes. The notification may destroy the socket. -/
def step (s : SocketImpl) (act : Action) : Option SocketImpl :=
  if !s.alive then none
  else match act, s.phase, s.outstanding with
    | .writeString buf, _, _ => some (s.writeString buf)
    | .writeVector buf, _, _ => some (s.writeVector buf)
    | .complete length, .idle, some offered =>
        if length ≤ offered.length then
          some { s with
            outstanding := none
            accepted := s.accepted ++ offered.take length
            phase := .notifying length }
        else none
    | .fail, .idle, some _ => some { s with outstanding := none, failed := true, phase := .failing }
    | .notified alive, .notifying length, _ =>
        if alive then some ({ s with phase := .idle }.writeComplete length)
        else some { s with alive := false }
    | .notified alive, .failing, _ => some { s with alive := alive, phase := .idle }
    | _, _, _ => none

/-- Who holds write_buf_: nobody, the executor, the notification, or after an
error nobody for good. -/
inductive Held (s : SocketImpl) : Prop
  | free (phase : s.phase = .idle) (failed : s.failed = false) (pending : s.writePending = false)
      (outstanding : s.outstanding = none) (buf : s.writeBuf = []) (queue : s.writeQ = [])
  | offered (phase : s.phase = .idle) (failed : s.failed = false) (pending : s.writePending = true)
      (outstanding : s.outstanding = some s.writeBuf)
  | taken (length : Nat) (phase : s.phase = .notifying length) (failed : s.failed = false)
      (pending : s.writePending = true) (outstanding : s.outstanding = none)
  | lost (phase : s.phase = .idle ∨ s.phase = .failing) (failed : s.failed = true)
      (pending : s.writePending = true) (outstanding : s.outstanding = none)

structure Sound (s : SocketImpl) : Prop where
  held : Held s
  first : s.accepted <+: s.written
  remainder : s.failed = false → s.written = s.accepted ++ s.unaccepted ++ s.writeQ

section Steps
variable {s s' : SocketImpl} {act : Action}

theorem write_of_pending (pending : s.writePending = true) (buf : Bytes) :
    s.write buf = { s with written := s.written ++ buf, writeQ := s.writeQ ++ buf } := by
  simp [SocketImpl.write, pending]

theorem write_of_free (pending : s.writePending = false) (buf : Bytes) :
    s.write buf = { s with
      written := s.written ++ buf
      writeBuf := buf ++ s.writeBuf
      writePending := true
      outstanding := some (buf ++ s.writeBuf) } := by
  simp [SocketImpl.write, pending, SocketImpl.writeInternal]

/-- More data in the queue changes nothing for who holds the buffer. -/
theorem Held.queue (h : Held s) (pending : s.writePending = true) (written writeQ : Bytes) :
    Held { s with written := written, writeQ := writeQ } := by
  cases h with
  | free _ _ free =>
      rw [pending] at free
      cases free
  | offered phase failed pending outstanding => exact .offered phase failed pending outstanding
  | taken length phase failed pending outstanding =>
      exact .taken length phase failed pending outstanding
  | lost phase failed pending outstanding => exact .lost phase failed pending outstanding

theorem Sound.write (h : Sound s) (buf : Bytes) : Sound (s.write buf) := by
  have first : s.accepted <+: s.written ++ buf := h.first.trans (List.prefix_append _ _)
  cases pending : s.writePending with
  | true =>
      rw [write_of_pending pending]
      refine ⟨h.held.queue pending _ _, first, fun failed => ?_⟩
      have before := h.remainder failed
      calc s.written ++ buf
        _ = (s.accepted ++ s.unaccepted ++ s.writeQ) ++ buf := by rw [← before]
        _ = s.accepted ++ s.unaccepted ++ (s.writeQ ++ buf) := List.append_assoc _ _ _
  | false =>
      rw [write_of_free pending]
      cases h.held with
      | free phase failed _ outstanding empty queue =>
          have before := h.remainder failed
          refine ⟨.offered phase failed rfl rfl, first, fun _ => ?_⟩
          simp only [SocketImpl.unaccepted, phase, empty, queue, List.append_nil] at before ⊢
          rw [before]
      | offered _ _ busy | taken _ _ _ busy | lost _ _ busy =>
          rw [pending] at busy
          cases busy

/-- The system takes a part of what it was offered. -/
theorem Sound.complete (h : Sound s) {offered : Bytes} {length : Nat} (phase : s.phase = .idle)
    (outstanding : s.outstanding = some offered) :
    Sound { s with
      outstanding := none
      accepted := s.accepted ++ offered.take length
      phase := .notifying length } := by
  cases h.held with
  | offered _ failed pending held =>
      rw [outstanding] at held
      cases held
      have before := h.remainder failed
      simp only [SocketImpl.unaccepted, phase] at before
      have taken : s.written =
          s.accepted ++ s.writeBuf.take length ++ s.writeBuf.drop length ++ s.writeQ := by
        rw [List.append_assoc s.accepted, List.take_append_drop]
        exact before
      refine ⟨.taken length rfl failed pending rfl, ?_, fun _ => taken⟩
      rw [taken, List.append_assoc _ (s.writeBuf.drop length)]
      exact List.prefix_append _ _
  | free _ _ _ none | taken _ _ _ _ none | lost _ _ _ none =>
      rw [outstanding] at none
      cases none

theorem Sound.fail (h : Sound s) {offered : Bytes} (outstanding : s.outstanding = some offered) :
    Sound { s with outstanding := none, failed := true, phase := .failing } := by
  cases h.held with
  | offered _ _ pending _ => exact ⟨.lost (.inr rfl) rfl pending rfl, h.first, nofun⟩
  | free _ _ _ none | taken _ _ _ _ none | lost _ _ _ none =>
      rw [outstanding] at none
      cases none

/-- The rest of the buffer, or else the queue, is offered next. -/
theorem Sound.writeComplete (h : Sound s) {length : Nat} (phase : s.phase = .notifying length) :
    Sound ({ s with phase := .idle }.writeComplete length) := by
  cases h.held with
  | taken _ held failed pending outstanding =>
      have before := h.remainder failed
      simp only [SocketImpl.unaccepted, phase] at before
      unfold SocketImpl.writeComplete
      dsimp only
      split
      · refine ⟨.offered rfl failed rfl rfl, h.first, fun _ => ?_⟩
        exact before
      · rename_i whole
        rw [List.drop_eq_nil_of_le (Nat.le_of_not_lt whole), List.append_nil] at before
        split
        · refine ⟨.offered rfl failed rfl rfl, h.first, fun _ => ?_⟩
          simpa [SocketImpl.unaccepted, SocketImpl.writeInternal] using before
        · rename_i queue
          have queue : s.writeQ = [] := Decidable.not_not.mp queue
          refine ⟨.free rfl failed rfl outstanding rfl queue, h.first, fun _ => ?_⟩
          simpa [SocketImpl.unaccepted] using before
  | free idle | offered idle =>
      rw [phase] at idle
      cases idle
  | lost idle =>
      rw [phase] at idle
      rcases idle with idle | idle <;> cases idle

/-- The owner was told and destroyed the socket, or was told of the error. -/
theorem Held.told (h : Held s) (alive : Bool) : Held { s with alive := alive } := by
  cases h with
  | free phase failed pending outstanding buf queue =>
      exact .free phase failed pending outstanding buf queue
  | offered phase failed pending outstanding => exact .offered phase failed pending outstanding
  | taken length phase failed pending outstanding =>
      exact .taken length phase failed pending outstanding
  | lost phase failed pending outstanding => exact .lost phase failed pending outstanding

theorem Sound.failed (h : Sound s) (phase : s.phase = .failing) (alive : Bool) :
    Sound { s with alive := alive, phase := .idle } := by
  cases h.held with
  | lost _ failed pending outstanding =>
      refine ⟨.lost (.inl rfl) failed pending outstanding, h.first, fun good => ?_⟩
      rw [failed] at good
      cases good
  | free other | offered other | taken _ other =>
      rw [phase] at other
      cases other

theorem sound_step (h : Sound s) (run : step s act = some s') : Sound s' := by
  unfold step at run
  split at run
  · cases run
  · split at run
    · cases run
      exact h.write _
    · cases run
      exact h.write _
    · rename_i length offered phase outstanding
      split at run
      · cases run
        exact h.complete phase outstanding
      · cases run
    · rename_i offered phase outstanding
      cases run
      exact h.fail outstanding
    · rename_i alive length outstanding phase
      split at run
      · cases run
        exact h.writeComplete phase
      · cases run
        exact ⟨h.held.told false, h.first, h.remainder⟩
    · rename_i phase
      cases run
      exact h.failed phase _
    · cases run

theorem sound_initial : Sound {} :=
  ⟨.free rfl rfl rfl rfl rfl rfl, List.prefix_rfl, fun _ => rfl⟩

theorem sound_of_run {acts : List Action} (h : run step {} acts = some s) : Sound s :=
  have keeps : Keeps step (fun _ _ => True) Sound := fun _ _ _ inv _ h => sound_step inv h
  keeps.run sound_initial (along_true acts) h

end Steps

section Order
variable {s s' : SocketImpl} {act : Action}

/-- The executor has the buffer only while the flag is set and nobody is told anything. -/
theorem Held.of_outstanding (h : Held s) {b : Bytes} (outstanding : s.outstanding = some b) :
    s.phase = .idle ∧ s.writePending = true ∧ s.writeBuf = b := by
  cases h with
  | offered phase failed pending held =>
      rw [outstanding] at held
      exact ⟨phase, pending, (Option.some.inj held).symm⟩
  | free _ _ _ none | taken _ _ _ _ none | lost _ _ _ none =>
      rw [outstanding] at none
      cases none

theorem Held.drained (h : Held s) (pending : s.writePending = false) :
    s.writeBuf = [] ∧ s.writeQ = [] := by
  cases h with
  | free _ _ _ _ buf queue => exact ⟨buf, queue⟩
  | offered _ _ busy | taken _ _ _ busy | lost _ _ busy =>
      rw [pending] at busy
      cases busy

theorem step_complete {length : Nat} (run : step s (.complete length) = some s') :
    ∃ offered, s.phase = .idle ∧ s.outstanding = some offered ∧ length ≤ offered.length ∧
      s' = { s with
        outstanding := none
        accepted := s.accepted ++ offered.take length
        phase := .notifying length } := by
  have alive : s.alive = true := by
    by_contra dead
    simp [step, dead] at run
  cases phase : s.phase with
  | notifying _ | failing => simp [step, alive, phase] at run
  | idle =>
      cases outstanding : s.outstanding with
      | none => simp [step, alive, phase, outstanding] at run
      | some offered =>
          simp only [step, alive, phase, outstanding, Bool.not_true, Bool.false_eq_true,
            if_false, Option.ite_none_right_eq_some] at run
          refine ⟨offered, rfl, rfl, run.1, ?_⟩
          rw [alive]
          exact (Option.some.inj run.2).symm

theorem fail_keeps (run : step s .fail = some s') :
    s'.accepted = s.accepted ∧ s'.written = s.written := by
  have alive : s.alive = true := by
    by_contra dead
    simp [step, dead] at run
  cases phase : s.phase with
  | notifying _ | failing => simp [step, alive, phase] at run
  | idle =>
      cases outstanding : s.outstanding with
      | none => simp [step, alive, phase, outstanding] at run
      | some offered =>
          simp only [step, alive, phase, outstanding, Bool.not_true, Bool.false_eq_true,
            if_false] at run
          cases run
          exact ⟨rfl, rfl⟩

theorem writeComplete_keeps (s : SocketImpl) (length : Nat) :
    (s.writeComplete length).accepted = s.accepted ∧
      (s.writeComplete length).written = s.written ∧
      (s.writeComplete length).failed = s.failed := by
  unfold SocketImpl.writeComplete SocketImpl.writeInternal
  dsimp only
  split
  · exact ⟨rfl, rfl, rfl⟩
  · split <;> exact ⟨rfl, rfl, rfl⟩

/-- Behind the notification nothing more is taken, and nothing written. -/
theorem notified_keeps (run : step s (.notified true) = some s') :
    s'.accepted = s.accepted ∧ s'.written = s.written ∧ s'.failed = s.failed := by
  have alive : s.alive = true := by
    by_contra dead
    simp [step, dead] at run
  cases phase : s.phase with
  | idle => simp [step, alive, phase] at run
  | notifying length =>
      simp only [step, alive, phase, Bool.not_true, Bool.false_eq_true, if_false, if_true] at run
      cases run
      exact writeComplete_keeps _ length
  | failing =>
      simp only [step, alive, phase, Bool.not_true, Bool.false_eq_true, if_false] at run
      cases run
      exact ⟨rfl, rfl, rfl⟩

/-- Everything written has been taken when neither buffer holds anything. -/
theorem Sound.taken_all (h : Sound s) (healthy : s.failed = false)
    (drained : s.unaccepted = [] ∧ s.writeQ = []) : s.accepted = s.written := by
  have all := h.remainder healthy
  rw [drained.1, drained.2, List.append_nil, List.append_nil] at all
  exact all.symm

theorem Sound.untouched (h : Sound s) (run : step s act = some s')
    (before : s.outstanding.isSome) (after : s'.outstanding.isSome) :
    s'.writeBuf = s.writeBuf := by
  obtain ⟨b, outstanding⟩ := Option.isSome_iff_exists.mp before
  obtain ⟨idle, pending, -⟩ := h.held.of_outstanding outstanding
  unfold step at run
  split at run
  · cases run
  · split at run
    · cases run
      rw [SocketImpl.writeString, write_of_pending pending]
    · cases run
      rw [SocketImpl.writeVector, write_of_pending pending]
    · split at run
      · cases run
        cases after
      · cases run
    · cases run
      cases after
    · rename_i phase
      rw [idle] at phase
      cases phase
    · rename_i phase
      rw [idle] at phase
      cases phase
    · cases run

end Order

/-- What is said of the queue in a state. -/
structure InOrder (s : SocketImpl) : Prop where
  /-- The system has taken the beginning of what was written. -/
  accepted : s.accepted <+: s.written
  /-- The rest is the rest of the buffer and then the queue. -/
  remainder : s.failed = false → s.written = s.accepted ++ s.unaccepted ++ s.writeQ
  /-- Nothing waits when no write is in progress. -/
  drained : s.writePending = false → s.failed = false → s.writeBuf = [] ∧ s.writeQ = []
  /-- The buffer is the one that was offered, and is so as long as the write is in progress. -/
  offered : ∀ b, s.outstanding = some b → s.writeBuf = b
  untouched : ∀ act s', step s act = some s' → s.outstanding.isSome → s'.outstanding.isSome →
    s'.writeBuf = s.writeBuf

theorem write_queue_in_order {acts : List Action} {s : SocketImpl}
    (h : run step {} acts = some s) : InOrder s := by
  have sound := sound_of_run h
  refine ⟨sound.first, sound.remainder, fun pending _ => sound.held.drained pending, ?_, ?_⟩
  · intro b outstanding
    exact (sound.held.of_outstanding outstanding).2.2
  · intro act s' next before after
    exact sound.untouched next before after

/-- A partial write, a write from inside the notification, and the rest. -/
def reentrantWrites : List Action :=
  [.writeString [1, 2, 3], .writeVector [4], .complete 2, .writeString [5], .notified true,
    .complete 1, .notified true, .complete 2, .notified true]

theorem write_queue_in_order_reentrant :
    ∃ s, run step {} reentrantWrites = some s ∧ s.accepted = [1, 2, 3, 4, 5] ∧ InOrder s := by
  have whole : run step {} reentrantWrites = some _ := rfl
  exact ⟨_, whole, rfl, write_queue_in_order whole⟩

end Thespian.Socket
