import Thespian.Zig.Subprocess
import Thespian.Transition.Runs

/-!
What a subprocess gets on its standard input. The owner sends its bytes in chunks, which
reach the actor in order; write_ready messages come in between, also when there is
nothing to write. A write takes a part of the buffer or would block.

The buffer is empty exactly when no write is pending, and then a requested close is
done at once. While one is pending, the watcher waits or a write_ready is on its way.
-/

namespace Thespian.Zig.Subprocess
open Cbor Transition

/-- The handle of the owner, what it has sent and the actor has not received, the number
of write_ready messages on their way, and the actor. -/
structure Session where
  stdinBehavior : StdIo
  pid : Bool := true
  mailbox : List Message := []
  ready : Nat := 0
  proc : Proc
  sent : Bytes := []

/-- The watcher fires, or the actor receives a message. A write_ready may also be spurious;
it takes the given number of bytes, or would block. -/
inductive StdinAction where
  | send (bytes : Bytes)
  | close
  | receive
  | fires
  | ready (taken : Option Nat)
  deriving DecidableEq

def writeResult : Option Nat → Except IoError Nat
  | some n => .ok n
  | none => .error .wouldBlock

namespace Session
variable (s : Session)

def initial (stdinBehavior : StdIo) (pid : Nat) : Session where
  stdinBehavior := stdinBehavior
  proc := Proc.start stdinBehavior pid

/-- Send is an error to its caller without a pipe or once the handle is closed. -/
def send (bytes : Bytes) : Session :=
  if s.stdinBehavior ≠ .pipe ∨ !s.pid then s
  else { s with mailbox := s.mailbox ++ (chunks bytes).map .stdin, sent := s.sent ++ bytes }

def close : Session :=
  let s :=
    if s.stdinBehavior = .pipe ∧ s.pid ∧ s.proc.running then
      { s with mailbox := s.mailbox ++ [.stdinClose] }
    else s
  { s with pid := false }

def stdinStep : StdinAction → Option Session
  | .send bytes => some (s.send bytes)
  | .close => some s.close
  | .receive =>
      match s.mailbox with
      | [] => none
      | m :: rest => (handle s.proc {} m).map fun p => { s with mailbox := rest, proc := p }
  | .fires =>
      match s.proc.fdStdin with
      | none => none
      | some w =>
          if w.writeInProgress then
            some { s with
              ready := s.ready + 1
              proc := { s.proc with fdStdin := some { w with writeInProgress := false } } }
          else none
  | .ready taken =>
      if taken.getD 0 ≤ s.proc.stdinBuffer.length then
        (handle s.proc { write := writeResult taken } .stdinReady).map fun p =>
          { s with ready := s.ready - 1, proc := p }
      else none

end Session

/-- The bytes in the messages. -/
def owed (mailbox : List Message) : Bytes :=
  (mailbox.map fun m => match m with | .stdin bytes => bytes | _ => []).flatten

@[simp] theorem owed_append (m m' : List Message) : owed (m ++ m') = owed m ++ owed m' := by
  simp [owed]

@[simp] theorem owed_stdin (cs : List Bytes) : owed (cs.map .stdin) = cs.flatten := by
  induction cs with
  | nil => rfl
  | cons c cs ih => simpa [owed] using ih

/-- Where the stream of the owner's messages stands: chunks, chunks and the close behind
them, or the close has been received. -/
inductive Stage (s : Session) : Prop
  | opened (cs : List Bytes) (some_ : ∀ c ∈ cs, c ≠ []) (pid : s.pid = true)
      (mailbox : s.mailbox = cs.map .stdin) (wanted : s.proc.stdinClosePending = false)
      (stdin : s.proc.child.stdin = true)
  | closing (cs : List Bytes) (some_ : ∀ c ∈ cs, c ≠ []) (pid : s.pid = false)
      (mailbox : s.mailbox = cs.map .stdin ++ [.stdinClose])
      (wanted : s.proc.stdinClosePending = false) (stdin : s.proc.child.stdin = true)
  | closed (pid : s.pid = false) (mailbox : s.mailbox = [])
      (stdin : s.proc.child.stdin = true → s.proc.stdinClosePending = true ∧ s.proc.writePending = true)
      (drained : s.proc.child.stdin = false → s.proc.stdinBuffer = [])

/-- The bytes sent are those written, those in the buffer and those on their way. -/
structure Flows (s : Session) : Prop where
  running : s.proc.running = true
  watched : ∃ w, s.proc.fdStdin = some w ∧
    (s.proc.writePending = true → w.writeInProgress = true ∨ 0 < s.ready)
  pending : s.proc.writePending = true ↔ s.proc.stdinBuffer ≠ []
  sent : s.sent = s.proc.written ++ s.proc.stdinBuffer ++ owed s.mailbox
  stage : Stage s

section Handlers
variable {p : Proc} {w : Watcher}

theorem handle_stdin (running : p.running = true) (watched : p.fdStdin = some w) (c : Bytes) :
    handle p {} (.stdin c) = some { p with
      stdinBuffer := p.stdinBuffer ++ c, fdStdin := some w.waitWrite, writePending := true } := by
  simp [handle, running, Proc.receive, Proc.stdinChunk, Proc.waitWrite, watched]

theorem handle_stdinClose (running : p.running = true) :
    handle p {} .stdinClose = some (if p.writePending then { p with stdinClosePending := true }
      else p.stdinClose) := by
  rw [handle, if_pos running, Proc.receive]
  cases p.writePending <;> rfl

/-- A write_ready with nothing to write changes nothing. -/
theorem handle_spurious (running : p.running = true) (io : Io)
    (nothing : p.stdinBuffer = [] ∨ p.child.stdin = false) :
    handle p io .stdinReady = some p := by
  have skipped : p.stdinBuffer = [] ∨ (!p.child.stdin) = true := by simpa using nothing
  rw [handle, if_pos running, Proc.receive, Proc.stdinReady, if_pos skipped]

theorem handle_wouldBlock (running : p.running = true) (watched : p.fdStdin = some w)
    (buffer : p.stdinBuffer ≠ []) (stdin : p.child.stdin = true) :
    handle p { write := .error .wouldBlock } .stdinReady =
      some { p with fdStdin := some w.waitWrite, writePending := true } := by
  simp [handle, running, Proc.receive, Proc.stdinReady, Proc.waitWrite, watched, buffer, stdin]

theorem handle_whole (running : p.running = true) (buffer : p.stdinBuffer ≠ [])
    (stdin : p.child.stdin = true) :
    handle p { write := .ok p.stdinBuffer.length } .stdinReady =
      some (Proc.closePending { p with
        written := p.written ++ p.stdinBuffer, stdinBuffer := [], writePending := false }) := by
  simp [handle, running, Proc.receive, Proc.stdinReady, Proc.wrote, buffer, stdin]

theorem handle_partial (running : p.running = true) (watched : p.fdStdin = some w) {n : Nat}
    (part : n < p.stdinBuffer.length) (stdin : p.child.stdin = true) :
    handle p { write := .ok n } .stdinReady = some { p with
      written := p.written ++ p.stdinBuffer.take n, stdinBuffer := p.stdinBuffer.drop n,
      fdStdin := some w.waitWrite, writePending := true } := by
  have buffer : p.stdinBuffer ≠ [] := by
    rintro empty
    simp [empty] at part
  simp [handle, running, Proc.receive, Proc.stdinReady, Proc.wrote, Proc.waitWrite,
    Proc.closePending, watched, buffer, stdin, Nat.ne_of_lt part]

theorem waitWrite_inProgress (w : Watcher) : w.waitWrite.writeInProgress = true := by
  unfold Watcher.waitWrite
  cases h : w.writeInProgress <;> simp [h]

end Handlers

section Steps
variable {s s' : Session}

theorem flows_initial (pid : Nat) : Flows (Session.initial .pipe pid) where
  running := rfl
  watched := ⟨{}, rfl, nofun⟩
  pending := by simp [Session.initial, Proc.start]
  sent := rfl
  stage := .opened [] (by simp) rfl rfl rfl rfl

theorem Flows.send (h : Flows s) (pipe : s.stdinBehavior = .pipe) (bytes : Bytes) :
    Flows (s.send bytes) := by
  unfold Session.send
  split
  · exact h
  · rename_i open_
    have pid : s.pid = true := by simpa [pipe] using open_
    refine ⟨h.running, h.watched, h.pending, ?_, ?_⟩
    · rw [h.sent, owed_append, owed_stdin, chunks_flatten, List.append_assoc]
    · cases h.stage with
      | opened cs some_ _ mailbox wanted stdin =>
          refine .opened (cs ++ chunks bytes) ?_ pid ?_ wanted stdin
          · intro c member
            rcases List.mem_append.mp member with old | new
            · exact some_ c old
            · exact chunks_nonempty bytes c new
          · simp [mailbox]
      | closing _ _ gone | closed gone =>
          rw [pid] at gone
          cases gone

theorem Flows.close (h : Flows s) (pipe : s.stdinBehavior = .pipe) : Flows s.close := by
  unfold Session.close
  cases pid : s.pid with
  | false =>
      simp only [Bool.false_eq_true, false_and, and_false, if_false]
      refine ⟨h.running, h.watched, h.pending, h.sent, ?_⟩
      cases h.stage with
      | opened _ _ there =>
          rw [pid] at there
          cases there
      | closing cs some_ _ mailbox wanted stdin => exact .closing cs some_ rfl mailbox wanted stdin
      | closed _ mailbox stdin drained => exact .closed rfl mailbox stdin drained
  | true =>
      simp only [pipe, h.running, and_self, if_true]
      refine ⟨h.running, h.watched, h.pending, ?_, ?_⟩
      · rw [h.sent, owed_append]
        simp [owed]
      · cases h.stage with
        | opened cs some_ _ mailbox wanted stdin =>
            exact .closing cs some_ rfl (by rw [mailbox]) wanted stdin
        | closing _ _ gone | closed gone =>
            rw [pid] at gone
            cases gone

/-- The stage does not depend on the watcher and its messages. -/
theorem Stage.unwatched (h : Stage s) (n : Nat) (fd : Option Watcher) :
    Stage { s with ready := n, proc := { s.proc with fdStdin := fd } } := by
  cases h with
  | opened cs some_ pid mailbox wanted stdin => exact .opened cs some_ pid mailbox wanted stdin
  | closing cs some_ pid mailbox wanted stdin => exact .closing cs some_ pid mailbox wanted stdin
  | closed pid mailbox stdin drained => exact .closed pid mailbox stdin drained

theorem Flows.fires (h : Flows s) (run : s.stdinStep .fires = some s') : Flows s' := by
  obtain ⟨w, watched, wakes⟩ := h.watched
  simp only [Session.stdinStep, watched, Option.ite_none_right_eq_some] at run
  obtain ⟨-, done⟩ := run
  cases done
  exact ⟨h.running, ⟨_, rfl, fun _ => .inr (Nat.succ_pos _)⟩, h.pending, h.sent,
    h.stage.unwatched _ _⟩

/-- A chunk goes to the buffer, and a write is pending. -/
theorem Flows.chunk (h : Flows s) {c : Bytes} {rest : List Message} (some_ : c ≠ [])
    (mailbox : s.mailbox = .stdin c :: rest) (w : Watcher)
    (stage : ∀ p : Proc, p.stdinClosePending = s.proc.stdinClosePending → p.child = s.proc.child →
      Stage { s with mailbox := rest, proc := p }) :
    Flows { s with mailbox := rest, proc := { s.proc with
      stdinBuffer := s.proc.stdinBuffer ++ c, fdStdin := some w.waitWrite, writePending := true } } where
  running := h.running
  watched := ⟨_, rfl, fun _ => .inl (waitWrite_inProgress w)⟩
  pending := by simp [some_]
  sent := by
    have sent := h.sent
    rw [mailbox] at sent
    simpa [owed] using sent
  stage := stage _ rfl rfl

/-- The close is received: it is done, or wanted when the write is. -/
theorem Flows.closeReceived (h : Flows s) (pid : s.pid = false)
    (mailbox : s.mailbox = [.stdinClose]) (stdin : s.proc.child.stdin = true) :
    Flows { s with mailbox := [], proc :=
      if s.proc.writePending then { s.proc with stdinClosePending := true } else s.proc.stdinClose } := by
  obtain ⟨w, watched, wakes⟩ := h.watched
  have sent : s.sent = s.proc.written ++ s.proc.stdinBuffer ++ owed [] := by
    rw [h.sent, mailbox]
    rfl
  cases pending : s.proc.writePending with
  | true =>
      refine ⟨h.running, ⟨w, watched, wakes⟩, h.pending, sent, ?_⟩
      exact .closed pid rfl (fun _ => ⟨rfl, pending⟩) fun gone =>
        absurd (stdin.symm.trans gone) (by decide)
  | false =>
      have empty : s.proc.stdinBuffer = [] := by
        by_contra some_
        rw [h.pending.mpr some_] at pending
        cases pending
      have closes : s.proc.stdinClose = { s.proc.close .stdin with
          child := { s.proc.child with stdin := false } } := if_pos stdin
      simp only [Bool.false_eq_true, if_false, closes]
      exact ⟨h.running, ⟨w, watched, wakes⟩, h.pending, sent, .closed pid rfl nofun fun _ => empty⟩

theorem Flows.receive (h : Flows s) (run : s.stdinStep .receive = some s') : Flows s' := by
  obtain ⟨w, watched, wakes⟩ := h.watched
  cases h.stage with
  | opened cs some_ pid mailbox wanted stdin =>
      cases cs with
      | nil => simp [Session.stdinStep, mailbox] at run
      | cons c cs =>
          rw [List.map_cons] at mailbox
          simp only [Session.stdinStep, mailbox, handle_stdin h.running watched, Option.map_some,
            Option.some.injEq] at run
          subst run
          refine h.chunk (some_ c List.mem_cons_self) mailbox w fun p same child => ?_
          exact .opened cs (fun d hd => some_ d (List.mem_cons_of_mem c hd)) pid rfl
            (same.trans wanted) ((congrArg Child.stdin child).trans stdin)
  | closing cs some_ pid mailbox wanted stdin =>
      cases cs with
      | nil =>
          rw [List.map_nil, List.nil_append] at mailbox
          simp only [Session.stdinStep, mailbox, handle_stdinClose h.running, Option.map_some,
            Option.some.injEq] at run
          subst run
          exact h.closeReceived pid mailbox stdin
      | cons c cs =>
          rw [List.map_cons, List.cons_append] at mailbox
          simp only [Session.stdinStep, mailbox, handle_stdin h.running watched, Option.map_some,
            Option.some.injEq] at run
          subst run
          refine h.chunk (some_ c List.mem_cons_self) mailbox w fun p same child => ?_
          exact .closing cs (fun d hd => some_ d (List.mem_cons_of_mem c hd)) pid rfl
            (same.trans wanted) ((congrArg Child.stdin child).trans stdin)
  | closed pid mailbox stdin drained => simp [Session.stdinStep, mailbox] at run

/-- A write is pending in the same stage. -/
theorem Stage.waiting (h : Stage s) (stdin : s.proc.child.stdin = true) {p : Proc} (n : Nat)
    (child : p.child = s.proc.child) (same : p.stdinClosePending = s.proc.stdinClosePending)
    (pending : p.writePending = true) : Stage { s with ready := n, proc := p } := by
  have still : p.child.stdin = true := (congrArg Child.stdin child).trans stdin
  cases h with
  | opened cs some_ pid mailbox wanted _ =>
      exact .opened cs some_ pid mailbox (same.trans wanted) still
  | closing cs some_ pid mailbox wanted _ =>
      exact .closing cs some_ pid mailbox (same.trans wanted) still
  | closed pid mailbox wanted _ =>
      refine .closed pid mailbox (fun _ => ⟨same.trans (wanted stdin).1, pending⟩) fun gone => ?_
      exact absurd (still.symm.trans gone) (by decide)

/-- The whole buffer is written, and a wanted close is done. -/
theorem Flows.whole (h : Flows s) (stdin : s.proc.child.stdin = true) (n : Nat) :
    Flows { s with ready := n, proc := Proc.closePending { s.proc with
      written := s.proc.written ++ s.proc.stdinBuffer, stdinBuffer := [], writePending := false } } := by
  obtain ⟨w, watched, wakes⟩ := h.watched
  have sent : s.sent = s.proc.written ++ s.proc.stdinBuffer ++ [] ++ owed s.mailbox := by
    rw [List.append_nil]
    exact h.sent
  cases wanted : s.proc.stdinClosePending with
  | false =>
      simp only [Proc.closePending, wanted, Bool.false_and, Bool.false_eq_true, if_false]
      refine ⟨h.running, ⟨w, watched, nofun⟩, by simp, sent, ?_⟩
      cases h.stage with
      | opened cs some_ pid mailbox _ _ => exact .opened cs some_ pid mailbox rfl stdin
      | closing cs some_ pid mailbox _ _ => exact .closing cs some_ pid mailbox rfl stdin
      | closed _ _ closing =>
          rw [(closing stdin).1] at wanted
          cases wanted
  | true =>
      simp only [Proc.closePending, wanted, Proc.stdinClose, stdin, Bool.not_false, Bool.and_self,
        if_true]
      refine ⟨h.running, ⟨w, watched, nofun⟩, by simp [Proc.close], sent, ?_⟩
      cases h.stage with
      | opened _ _ _ _ other | closing _ _ _ _ other =>
          rw [wanted] at other
          cases other
      | closed pid mailbox => exact .closed pid mailbox nofun fun _ => rfl

/-- A closed file has nothing left to write. -/
theorem Stage.drained (h : Stage s) (gone : s.proc.child.stdin = false) : s.proc.stdinBuffer = [] := by
  cases h with
  | opened _ _ _ _ _ there | closing _ _ _ _ _ there =>
      rw [gone] at there
      cases there
  | closed _ _ _ drained => exact drained gone

theorem Flows.ready (h : Flows s) {taken : Option Nat} (run : s.stdinStep (.ready taken) = some s') :
    Flows s' := by
  obtain ⟨w, watched, wakes⟩ := h.watched
  rw [Session.stdinStep, Option.ite_none_right_eq_some] at run
  obtain ⟨fits, run⟩ := run
  by_cases nothing : s.proc.stdinBuffer = [] ∨ s.proc.child.stdin = false
  · rw [handle_spurious h.running _ nothing] at run
    cases run
    have empty : s.proc.stdinBuffer = [] := by
      rcases nothing with empty | gone
      · exact empty
      · exact h.stage.drained gone
    have settled : s.proc.writePending ≠ true := fun pending => h.pending.mp pending empty
    exact ⟨h.running, ⟨w, watched, fun pending => absurd pending settled⟩, h.pending, h.sent,
      h.stage.unwatched _ _⟩
  · obtain ⟨buffer, there⟩ := not_or.mp nothing
    have stdin : s.proc.child.stdin = true := by simpa using there
    match taken with
    | none =>
        rw [writeResult, handle_wouldBlock h.running watched buffer stdin] at run
        cases run
        refine ⟨h.running, ⟨_, rfl, fun _ => .inl (waitWrite_inProgress w)⟩, ?_, h.sent,
          h.stage.waiting stdin _ rfl rfl rfl⟩
        exact iff_of_true rfl buffer
    | some n =>
        rcases Nat.lt_or_eq_of_le fits with part | all
        · have part : n < s.proc.stdinBuffer.length := part
          rw [writeResult, handle_partial h.running watched part stdin] at run
          cases run
          refine ⟨h.running, ⟨_, rfl, fun _ => .inl (waitWrite_inProgress w)⟩, ?_, ?_,
            h.stage.waiting stdin _ rfl rfl rfl⟩
          · refine iff_of_true rfl fun empty => ?_
            exact absurd (List.drop_eq_nil_iff.mp empty) (Nat.not_le_of_lt part)
          · rw [h.sent]
            simp only [List.append_assoc]
            rw [← List.append_assoc (List.take n _), List.take_append_drop]
        · have whole : n = s.proc.stdinBuffer.length := all
          rw [writeResult, whole, handle_whole h.running buffer stdin] at run
          cases run
          exact h.whole stdin _

theorem flows_keeps : Keeps Session.stdinStep (fun _ _ => True)
    (fun s => s.stdinBehavior = .pipe ∧ Flows s) := by
  rintro s act s' ⟨pipe, h⟩ - run
  cases act with
  | send bytes =>
      cases run
      refine ⟨?_, h.send pipe bytes⟩
      unfold Session.send
      split <;> exact pipe
  | close =>
      cases run
      refine ⟨?_, h.close pipe⟩
      unfold Session.close
      dsimp only
      split <;> exact pipe
  | receive =>
      refine ⟨?_, h.receive run⟩
      rw [Session.stdinStep] at run
      split at run
      · cases run
      · obtain ⟨p, -, rfl⟩ := Option.map_eq_some_iff.mp run
        exact pipe
  | fires =>
      refine ⟨?_, h.fires run⟩
      obtain ⟨w, watched, -⟩ := h.watched
      simp only [Session.stdinStep, watched, Option.ite_none_right_eq_some] at run
      obtain ⟨-, done⟩ := run
      cases done
      exact pipe
  | ready taken =>
      refine ⟨?_, h.ready run⟩
      rw [Session.stdinStep, Option.ite_none_right_eq_some] at run
      obtain ⟨p, -, rfl⟩ := Option.map_eq_some_iff.mp run.2
      exact pipe

end Steps

section Unpiped
variable {s s' : Session}

/-- Without a pipe nothing is sent. -/
structure Unpiped (s : Session) : Prop where
  behavior : s.stdinBehavior ≠ .pipe
  running : s.proc.running = true
  watched : s.proc.fdStdin = none
  mailbox : s.mailbox = []
  sent : s.sent = []
  written : s.proc.written = []
  buffer : s.proc.stdinBuffer = []

theorem unpiped_keeps : Keeps Session.stdinStep (fun _ _ => True) Unpiped := by
  intro s act s' h _ run
  cases act with
  | send bytes =>
      cases run
      rw [Session.send, if_pos (.inl h.behavior)]
      exact h
  | close =>
      cases run
      have nothing : ¬ (s.stdinBehavior = .pipe ∧ s.pid = true ∧ s.proc.running = true) :=
        fun all => h.behavior all.1
      rw [Session.close, if_neg nothing]
      exact ⟨h.behavior, h.running, h.watched, h.mailbox, h.sent, h.written, h.buffer⟩
  | receive => simp [Session.stdinStep, h.mailbox] at run
  | fires => simp [Session.stdinStep, h.watched] at run
  | ready taken =>
      rw [Session.stdinStep, Option.ite_none_right_eq_some,
        handle_spurious h.running _ (.inl h.buffer)] at run
      obtain ⟨-, done⟩ := run
      cases done
      exact ⟨h.behavior, h.running, h.watched, h.mailbox, h.sent, h.written, h.buffer⟩

end Unpiped

/-- In every state of every run. -/
theorem stdin_delivered_before_close {stdinBehavior : StdIo} {pid : Nat}
    {acts : List StdinAction} {s : Session}
    (h : run Session.stdinStep (.initial stdinBehavior pid) acts = some s) :
    s.proc.written <+: s.sent ∧
    (s.proc.writePending = false → s.proc.stdinBuffer = []) ∧
    (s.proc.child.stdin = false →
      s.proc.written = s.sent ∧ (stdinBehavior = .pipe → s.pid = false)) ∧
    (s.mailbox = [] → s.sent = s.proc.written ++ s.proc.stdinBuffer) ∧
    (s.proc.stdinBuffer ≠ [] →
      ∃ w, s.proc.fdStdin = some w ∧ (w.writeInProgress = true ∨ 0 < s.ready)) := by
  by_cases pipe : stdinBehavior = .pipe
  · subst pipe
    obtain ⟨-, flows⟩ := flows_keeps.run ⟨rfl, flows_initial pid⟩ (along_true acts) h
    have empty (settled : s.proc.writePending = false) : s.proc.stdinBuffer = [] := by
      by_contra some_
      rw [flows.pending.mpr some_] at settled
      cases settled
    refine ⟨?_, empty, fun gone => ?_, fun none => ?_, fun some_ => ?_⟩
    · rw [flows.sent, List.append_assoc]
      exact List.prefix_append _ _
    · cases flows.stage with
      | opened _ _ _ _ _ there | closing _ _ _ _ _ there =>
          rw [gone] at there
          cases there
      | closed pid mailbox _ drained =>
          refine ⟨?_, fun _ => pid⟩
          rw [flows.sent, drained gone, mailbox]
          simp [owed]
    · rw [flows.sent, none]
      exact List.append_nil _
    · obtain ⟨w, watched, wakes⟩ := flows.watched
      exact ⟨w, watched, wakes (flows.pending.mpr some_)⟩
  · have start : Unpiped (.initial stdinBehavior pid) :=
      ⟨pipe, rfl, if_neg pipe, rfl, rfl, rfl, rfl⟩
    have unpiped := unpiped_keeps.run start (along_true acts) h
    refine ⟨?_, fun _ => unpiped.buffer, fun _ => ⟨?_, fun other => absurd other pipe⟩,
      fun _ => ?_, fun some_ => absurd unpiped.buffer some_⟩
    · rw [unpiped.written]
      exact List.nil_prefix
    · rw [unpiped.written, unpiped.sent]
    · rw [unpiped.written, unpiped.buffer, unpiped.sent]
      rfl

/-- Two bytes and a close behind them; the first write takes one byte, the second would
block. -/
def sentAndClosed : List StdinAction :=
  [.send (text "hi"), .close, .receive, .ready (some 1), .receive, .fires, .ready none, .ready none,
    .fires, .ready (some 1)]

theorem stdin_delivered_before_close_hi :
    ∃ s, run Session.stdinStep (.initial .pipe 7) sentAndClosed = some s ∧
      s.sent = text "hi" ∧ s.proc.child.stdin = false ∧ s.proc.written = s.sent := by
  have first : Session.stdinStep (.initial .pipe 7) (.send (text "hi")) = some
      { Session.initial .pipe 7 with mailbox := [.stdin (text "hi")], sent := text "hi" } := by
    simp [Session.stdinStep, Session.send, Session.initial, chunks_short (text "hi") (by decide)
      (by decide)]
  obtain ⟨s, h, sent, closed⟩ : ∃ s,
      run Session.stdinStep (.initial .pipe 7) sentAndClosed = some s ∧
        s.sent = text "hi" ∧ s.proc.child.stdin = false := by
    rw [sentAndClosed, run, first]
    exact ⟨_, rfl, rfl, rfl⟩
  exact ⟨s, h, sent, closed, ((stdin_delivered_before_close h).2.2.1 closed).1⟩

end Thespian.Zig.Subprocess
