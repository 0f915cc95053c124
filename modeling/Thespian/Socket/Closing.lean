import Thespian.Socket.WriteQueue

/-!
The closing of a socket. Its writes are those of the write queue; here are its reads,
the flag open_ and what the owner is told. Close_internal closes the socket of the
system once and sends the owner closed whenever it is called.

A read that completes on a closed socket is dropped. A write that fails is not: a close
while it is in progress lets it fail, and so does a write after the close.

A completion hands the strand to the owner while the owner is told of it. Whatever the
owner calls then, or when it handles another message, is a step.
-/

namespace Thespian.Socket.Closing
open Cbor Transition

def readCompleteMessage (tag buf : Bytes) : Bytes :=
  array [.string (text "socket"), .string tag, .string (text "read_complete"), .string buf]

def readErrorMessage (tag : Bytes) (err : Int64) (errMsg : Bytes) : Bytes :=
  array [.string (text "socket"), .string tag, .string (text "read_error"), .int err,
    .string errMsg]

def closedMessage (tag : Bytes) : Bytes :=
  array [.string (text "socket"), .string tag, .string (text "closed")]

/-- The owner is told of a read, and what the socket looks at behind it. -/
inductive ReadPhase where
  | idle
  | complete
  | error
  deriving DecidableEq, Repr

/-- Exited is the flag in_shutdown of the owner, messages what it was sent. -/
structure Lifecycle where
  tag : Bytes
  writes : SocketImpl := {}
  open_ : Bool := true
  reads : Nat := 0
  reading : ReadPhase := .idle
  exited : Bool := false
  messages : List Bytes := []

inductive Action where
  | writeString (buf : Bytes)
  | writeVector (buf : Bytes)
  | read
  | close
  | ownerExits
  | writeDone (length : Nat)
  | writeFailed (err : Int64) (errMsg : Bytes)
  | writeTold (alive : Bool)
  | readDone (ec : Option (Int64 × Bytes)) (data : Bytes)
  | readTold (alive : Bool)
  deriving DecidableEq

/-- Whether deadsend is ok: it is an error inside of an actor that is not in shutdown. -/
def deadsend (current : Option Bool) : Bool :=
  match current with
  | none => true
  | some inShutdown => inShutdown

namespace Lifecycle
variable (s : Lifecycle)

/-- An owner in shutdown gets no message any more. -/
def send (m : Bytes) : Lifecycle := if s.exited then s else { s with messages := s.messages ++ [m] }

/-- Whether dispatch_sync is ok. A completion runs outside of every actor. -/
def dispatched : Bool := if s.exited then deadsend none else true

def closeInternal : Lifecycle :=
  let s := if s.open_ then { s with open_ := false } else s
  s.send (closedMessage s.tag)

/-- The part of a write behind the notification of the owner, if the socket is still
there. -/
def behindWrite : Lifecycle :=
  if s.writes.phase = .failing then s.closeInternal
  else if s.dispatched then s else s.closeInternal

def behindRead : Lifecycle :=
  match s.reading with
  | .complete => if s.dispatched then s else s.closeInternal
  | .idle | .error => s

/-- The handler of a read up to the notification of the owner. -/
def readDone (ec : Option (Int64 × Bytes)) (data : Bytes) : Lifecycle :=
  if !s.open_ then s
  else
    match ec with
    | some (err, errMsg) =>
        if data.length = 0 ∧ err = 2 then
          { s.send (readCompleteMessage s.tag []) with reading := .complete }
        else if err = 125 then s.closeInternal
        else { s.send (readErrorMessage s.tag err errMsg) with reading := .error }
    | none => { s.send (readCompleteMessage s.tag data) with reading := .complete }

/-- Nobody is being told anything. -/
def idle : Bool := s.writes.alive && s.writes.phase = .idle && s.reading = .idle

end Lifecycle

def step (s : Lifecycle) : Action → Option Lifecycle
  | .writeString buf =>
      (Socket.step s.writes (.writeString buf)).map fun w => { s with writes := w }
  | .writeVector buf =>
      (Socket.step s.writes (.writeVector buf)).map fun w => { s with writes := w }
  | .read => if s.writes.alive then some { s with reads := s.reads + 1 } else none
  | .close => if s.writes.alive then some s.closeInternal else none
  | .ownerExits => some { s with exited := true }
  | .writeDone length =>
      if s.idle then
        (Socket.step s.writes (.complete length)).map fun w =>
          { s.send (writeCompleteMessage s.tag length) with writes := w }
      else none
  | .writeFailed err errMsg =>
      if s.idle then
        (Socket.step s.writes .fail).map fun w =>
          { s.send (writeErrorMessage s.tag err errMsg) with writes := w }
      else none
  | .writeTold alive =>
      (Socket.step s.writes (.notified alive)).map fun w =>
        { if alive then s.behindWrite else s with writes := w }
  | .readDone ec data =>
      if s.idle && s.reads > 0 then some ({ s with reads := s.reads - 1 }.readDone ec data) else none
  | .readTold alive =>
      if s.reading = .idle then none
      else
        some { if alive then s.behindRead else s with
          reading := .idle, writes := { s.writes with alive := alive } }

/-- How often the owner was sent closed. -/
def Lifecycle.closings (s : Lifecycle) : Nat := s.messages.count (closedMessage s.tag)

/-- The step calls close_internal. -/
def closes (s : Lifecycle) : Action → Bool
  | .close => true
  | .writeTold alive => alive && s.writes.phase = .failing
  | .readDone (some (err, _)) data => s.open_ && !(data.length = 0 && err = 2) && err = 125
  | _ => false

/-- The step calls close_internal when the socket is closed and its owner is there. -/
def recloses (s : Lifecycle) (act : Action) : Bool := closes s act && !s.open_ && !s.exited

section Effects
variable {s s' : Lifecycle} {act : Action}

/-- Messages of different lengths are different. -/
theorem array_ne {v w : Value} {vs ws : List Value} {n m : Nat} {a b : UInt8}
    (long : (v :: vs).length = n) (short : (w :: ws).length = m)
    (first : (arrayHeader (UInt64.ofNat n)).head? = some a)
    (second : (arrayHeader (UInt64.ofNat m)).head? = some b) (apart : a ≠ b) :
    array (v :: vs) ≠ array (w :: ws) := by
  intro same
  have bytes : arrayHeader (UInt64.ofNat (v :: vs).length) ++ encodeItems (v :: vs) =
      arrayHeader (UInt64.ofNat (w :: ws).length) ++ encodeItems (w :: ws) := same
  have heads := congrArg List.head? bytes
  rw [long, short, List.head?_append, List.head?_append, first, second] at heads
  exact apart (Option.some.inj heads)

theorem writeCompleteMessage_ne (tag : Bytes) (length : Nat) :
    writeCompleteMessage tag length ≠ closedMessage tag :=
  array_ne (n := 4) (m := 3) (a := 0x84) (b := 0x83) rfl rfl (by decide) (by decide) (by decide)

theorem writeErrorMessage_ne (tag : Bytes) (err : Int64) (errMsg : Bytes) :
    writeErrorMessage tag err errMsg ≠ closedMessage tag :=
  array_ne (n := 5) (m := 3) (a := 0x85) (b := 0x83) rfl rfl (by decide) (by decide) (by decide)

theorem readCompleteMessage_ne (tag buf : Bytes) : readCompleteMessage tag buf ≠ closedMessage tag :=
  array_ne (n := 4) (m := 3) (a := 0x84) (b := 0x83) rfl rfl (by decide) (by decide) (by decide)

theorem readErrorMessage_ne (tag : Bytes) (err : Int64) (errMsg : Bytes) :
    readErrorMessage tag err errMsg ≠ closedMessage tag :=
  array_ne (n := 5) (m := 3) (a := 0x85) (b := 0x83) rfl rfl (by decide) (by decide) (by decide)

theorem dispatched_ok (s : Lifecycle) : s.dispatched = true := by
  unfold Lifecycle.dispatched
  split <;> rfl

/-- The socket closes, and its owner is sent so unless it has exited. -/
structure Closed (s s' : Lifecycle) : Prop where
  tag : s'.tag = s.tag
  open_ : s'.open_ = false
  exited : s'.exited = s.exited
  closings : s'.closings = s.closings + if s.exited then 0 else 1

/-- Neither is the socket closed nor its owner sent closed. -/
structure Kept (s s' : Lifecycle) : Prop where
  tag : s'.tag = s.tag
  open_ : s'.open_ = s.open_
  exited : s.exited = true → s'.exited = true
  closings : s'.closings = s.closings

theorem kept_send {m : Bytes} (other : m ≠ closedMessage s.tag) : Kept s (s.send m) := by
  unfold Lifecycle.send
  split
  · exact ⟨rfl, rfl, id, rfl⟩
  · refine ⟨rfl, rfl, id, ?_⟩
    simp [Lifecycle.closings, List.count_append, other]

theorem closed_closeInternal (s : Lifecycle) : Closed s s.closeInternal := by
  cases open_ : s.open_ <;> cases exited : s.exited <;> constructor <;>
    simp [Lifecycle.closeInternal, Lifecycle.send, Lifecycle.closings, open_, exited]

theorem behindWrite_eq (s : Lifecycle) :
    s.behindWrite = if s.writes.phase = .failing then s.closeInternal else s := by
  simp [Lifecycle.behindWrite, dispatched_ok]

theorem behindRead_eq (s : Lifecycle) : s.behindRead = s := by
  unfold Lifecycle.behindRead
  cases s.reading <;> simp [dispatched_ok]

/-- A part of the state that the closing does not depend on. -/
theorem Closed.of_eq {t : Lifecycle} (h : Closed s t) (tag : s'.tag = t.tag)
    (open_ : s'.open_ = t.open_) (exited : s'.exited = t.exited)
    (messages : s'.messages = t.messages) : Closed s s' where
  tag := tag.trans h.tag
  open_ := open_.trans h.open_
  exited := exited.trans h.exited
  closings := by
    rw [← h.closings, Lifecycle.closings, Lifecycle.closings, messages, tag]

theorem Kept.of_eq {t : Lifecycle} (h : Kept s t) (tag : s'.tag = t.tag)
    (open_ : s'.open_ = t.open_) (exited : s'.exited = t.exited)
    (messages : s'.messages = t.messages) : Kept s s' where
  tag := tag.trans h.tag
  open_ := open_.trans h.open_
  exited := fun before => exited.trans (h.exited before)
  closings := by
    rw [← h.closings, Lifecycle.closings, Lifecycle.closings, messages, tag]

theorem kept_self (s : Lifecycle) : Kept s s := ⟨rfl, rfl, id, rfl⟩

/-- The handler of a read closes the socket where it was cancelled. -/
theorem readDone_effect (s : Lifecycle) (ec : Option (Int64 × Bytes)) (data : Bytes) :
    if closes s (.readDone ec data) then Closed s (s.readDone ec data)
    else Kept s (s.readDone ec data) := by
  cases open_ : s.open_ with
  | false =>
      have ignored : s.readDone ec data = s := by simp [Lifecycle.readDone, open_]
      have quiet : closes s (.readDone ec data) = false := by
        cases ec <;> simp [closes, open_]
      rw [ignored, quiet]
      exact kept_self s
  | true =>
      match ec with
      | none =>
          simp only [closes, Lifecycle.readDone, open_, Bool.not_true, Bool.false_eq_true, if_false]
          exact (kept_send (readCompleteMessage_ne s.tag data)).of_eq rfl rfl rfl rfl
      | some (err, errMsg) =>
          by_cases eof : data.length = 0 ∧ err = 2
          · have quiet : closes s (.readDone (some (err, errMsg)) data) = false := by
              simp [closes, eof]
            rw [quiet]
            simp only [Lifecycle.readDone, open_, Bool.not_true, Bool.false_eq_true, if_false,
              if_pos eof]
            exact (kept_send (readCompleteMessage_ne s.tag [])).of_eq rfl rfl rfl rfl
          · by_cases cancelled : err = 125
            · have closing : closes s (.readDone (some (err, errMsg)) data) = true := by
                simp [closes, open_, cancelled]
              rw [closing]
              simp only [Lifecycle.readDone, open_, Bool.not_true, Bool.false_eq_true, if_false,
                if_neg eof, if_pos cancelled, if_true]
              exact closed_closeInternal s
            · have quiet : closes s (.readDone (some (err, errMsg)) data) = false := by
                simp [closes, cancelled]
              rw [quiet]
              simp only [Lifecycle.readDone, open_, Bool.not_true, Bool.false_eq_true, if_false,
                if_neg eof, if_neg cancelled]
              exact (kept_send (readErrorMessage_ne s.tag err errMsg)).of_eq rfl rfl rfl rfl

/-- A step closes the socket or leaves it as it is. -/
theorem step_effect (h : step s act = some s') :
    if closes s act then Closed s s' else Kept s s' := by
  cases act with
  | writeString buf =>
      obtain ⟨w, -, rfl⟩ := Option.map_eq_some_iff.mp h
      exact (kept_self s).of_eq rfl rfl rfl rfl
  | writeVector buf =>
      obtain ⟨w, -, rfl⟩ := Option.map_eq_some_iff.mp h
      exact (kept_self s).of_eq rfl rfl rfl rfl
  | read =>
      rw [step, Option.ite_none_right_eq_some] at h
      obtain ⟨-, done⟩ := h
      cases done
      exact (kept_self s).of_eq rfl rfl rfl rfl
  | close =>
      rw [step, Option.ite_none_right_eq_some] at h
      obtain ⟨-, done⟩ := h
      cases done
      exact closed_closeInternal s
  | ownerExits =>
      cases h
      exact ⟨rfl, rfl, fun _ => rfl, rfl⟩
  | writeDone length =>
      rw [step, Option.ite_none_right_eq_some] at h
      obtain ⟨w, -, rfl⟩ := Option.map_eq_some_iff.mp h.2
      exact (kept_send (writeCompleteMessage_ne s.tag length)).of_eq rfl rfl rfl rfl
  | writeFailed err errMsg =>
      rw [step, Option.ite_none_right_eq_some] at h
      obtain ⟨w, -, rfl⟩ := Option.map_eq_some_iff.mp h.2
      exact (kept_send (writeErrorMessage_ne s.tag err errMsg)).of_eq rfl rfl rfl rfl
  | writeTold alive =>
      obtain ⟨w, -, rfl⟩ := Option.map_eq_some_iff.mp h
      cases alive with
      | false => exact (kept_self s).of_eq rfl rfl rfl rfl
      | true =>
          simp only [closes, Bool.true_and, decide_eq_true_iff, if_true, behindWrite_eq]
          split
          · exact (closed_closeInternal s).of_eq rfl rfl rfl rfl
          · exact (kept_self s).of_eq rfl rfl rfl rfl
  | readDone ec data =>
      rw [step, Option.ite_none_right_eq_some] at h
      obtain ⟨-, done⟩ := h
      cases done
      have effect := readDone_effect { s with reads := s.reads - 1 } ec data
      have same : closes { s with reads := s.reads - 1 } (.readDone ec data) =
          closes s (.readDone ec data) := by
        cases ec <;> rfl
      rw [same] at effect
      cases closing : closes s (.readDone ec data) with
      | false =>
          rw [closing] at effect
          have kept : Kept _ _ := effect
          exact ⟨kept.tag, kept.open_, kept.exited, kept.closings⟩
      | true =>
          rw [closing] at effect
          have closed : Closed _ _ := effect
          exact ⟨closed.tag, closed.open_, closed.exited, closed.closings⟩
  | readTold alive =>
      rw [step, Option.ite_none_left_eq_some] at h
      obtain ⟨-, done⟩ := h
      cases done
      rw [behindRead_eq, ite_self]
      exact (kept_self s).of_eq rfl rfl rfl rfl

end Effects

section Runs
variable {s s' : Lifecycle} {act : Action} {acts : List Action}

/-- An open socket has not sent closed, and a closed one has if its owner is there. -/
structure Told (s : Lifecycle) : Prop where
  open_ : s.open_ = true → s.closings = 0
  closed : s.open_ = false → s.exited = false → 0 < s.closings

theorem Told.step (told : Told s) (h : step s act = some s') : Told s' := by
  have effect := step_effect h
  split at effect
  · refine ⟨fun still => ?_, fun _ there => ?_⟩
    · rw [effect.open_] at still
      cases still
    · rw [effect.exited] at there
      rw [effect.closings, there]
      exact Nat.succ_pos _
  · refine ⟨fun still => ?_, fun closed there => ?_⟩
    · rw [effect.closings]
      exact told.open_ (effect.open_.symm.trans still)
    · have before : s.exited = false := by
        cases gone : s.exited with
        | false => rfl
        | true =>
            rw [effect.exited gone] at there
            cases there
      rw [effect.closings]
      exact told.closed (effect.open_.symm.trans closed) before

/-- The second message comes from a step that closes the socket again. -/
theorem once_step_iff (told : Told s) (h : step s act = some s') :
    s'.closings ≤ 1 ↔ s.closings ≤ 1 ∧ recloses s act = false := by
  have effect := step_effect h
  cases closing : closes s act with
  | false =>
      rw [closing, if_neg Bool.false_ne_true] at effect
      simp [effect.closings, recloses, closing]
  | true =>
      rw [closing, if_pos rfl] at effect
      rw [effect.closings]
      cases exited : s.exited with
      | true => simp [recloses, exited]
      | false =>
          cases open_ : s.open_ with
          | true => simp [recloses, open_, told.open_ open_]
          | false =>
              have sent := told.closed open_ exited
              simp [recloses, closing, open_, exited]
              omega

theorem once_run_iff (told : Told s) (h : run step s acts = some s') :
    s'.closings ≤ 1 ↔ s.closings ≤ 1 ∧ Along step (fun s act => recloses s act = false) s acts := by
  induction acts generalizing s with
  | nil =>
      cases h
      exact (and_iff_left trivial).symm
  | cons act acts ih =>
      obtain ⟨t, first, rest⟩ := run_cons h
      rw [ih (told.step first) rest, once_step_iff told first, and_assoc]
      refine and_congr_right fun _ => and_congr_right fun _ => ?_
      constructor
      · intro along u next
        rw [first] at next
        cases next
        exact along
      · intro along
        exact along t first

theorem tag_keeps (tag : Bytes) : Keeps step (fun _ _ => True) (fun s => s.tag = tag) := by
  intro s act s' same _ h
  have effect := step_effect h
  split at effect <;> exact effect.tag.trans same

/-- The owner is sent closed at most once in the runs in which nothing closes the socket
again, and in no others. -/
theorem closed_once_iff {tag : Bytes} (h : run step { tag := tag } acts = some s) :
    s.messages.count (closedMessage tag) ≤ 1 ↔
      Along step (fun s act => recloses s act = false) { tag := tag } acts := by
  have told : Told { tag := tag } := ⟨fun _ => rfl, nofun⟩
  have same : s.tag = tag := (tag_keeps tag).run rfl (along_true acts) h
  have once := once_run_iff told h
  rw [Lifecycle.closings, same] at once
  exact once.trans (and_iff_right (Nat.zero_le 1))

/-- A message is written and read, and then the owner closes the socket with a read in
progress, which is cancelled. -/
def writtenThenClosed : List Action :=
  [.read, .writeString (text "ping"), .writeDone 4, .writeTold true, .readDone none (text "pong"),
    .read, .close, .readTold true, .readDone (some (125, text "cancelled")) []]

theorem closed_once_iff_written :
    ∃ s, run step { tag := text "s" } writtenThenClosed = some s ∧
      s.messages.count (closedMessage (text "s")) ≤ 1 := by
  obtain ⟨s, h⟩ : ∃ s, run step { tag := text "s" } writtenThenClosed = some s := ⟨_, rfl⟩
  exact ⟨s, h, (closed_once_iff h).mpr (by decide)⟩

/-- The owner closes the socket while a write is in progress, which is cancelled. -/
theorem cancelled_write_closes_again :
    ∃ s, run step { tag := text "s" } [.writeString (text "ping"), .close,
        .writeFailed 125 (text "cancelled"), .writeTold true] = some s ∧
      s.messages = [closedMessage (text "s"), writeErrorMessage (text "s") 125 (text "cancelled"),
        closedMessage (text "s")] ∧
      ¬ s.messages.count (closedMessage (text "s")) ≤ 1 :=
  ⟨_, rfl, rfl, by decide⟩

end Runs

end Thespian.Socket.Closing
