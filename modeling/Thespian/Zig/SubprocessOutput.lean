import Thespian.Zig.Subprocess
import Thespian.Transition.Runs

/-!
What the parent of a subprocess gets of its output. The child writes to two pipes and
exits; the actor reads a chunk from a pipe when it is ready. A pipe is at its end when
it is empty and the child has exited.

The end of stdout ends the actor, whatever there is left in the other pipe.
-/

namespace Thespian.Zig.Subprocess
open Cbor Transition

/-- What the child has written to a pipe, and what of it has not been read. -/
structure Pipe where
  wrote : Bytes := []
  unread : Bytes := []
  deriving DecidableEq, Repr

/-- The actor, the two pipes and how the child has exited. -/
structure Outputs where
  proc : Proc
  stdout : Pipe := {}
  stderr : Pipe := {}
  exited : Option Term := none

inductive OutputAction where
  | writesStdout (bytes : Bytes)
  | writesStderr (bytes : Bytes)
  | exits (term : Term)
  | stdoutReady
  | stderrReady
  deriving DecidableEq, Repr

namespace Pipe
variable (p : Pipe)

def write (bytes : Bytes) : Pipe := ⟨p.wrote ++ bytes, p.unread ++ bytes⟩

/-- `std.posix.read` into a buffer of one chunk. -/
def read (exited : Bool) : Except IoError Bytes :=
  if p.unread = [] then if exited then .ok [] else .error .wouldBlock
  else .ok (p.unread.take maxChunkSize)

def taken : Pipe := { p with unread := p.unread.drop maxChunkSize }

end Pipe

namespace Outputs
variable (s : Outputs)

def initial (stdinBehavior : StdIo) (pid : Nat) : Outputs := ⟨Proc.start stdinBehavior pid, {}, {}, none⟩

/-- Wait4 waits for the exit of the child. -/
def io (p : Pipe) : Io :=
  { read := p.read s.exited.isSome, wait4 := .ok (s.exited.getD (.unknown 0)) }

def step : OutputAction → Option Outputs
  | .writesStdout bytes =>
      if s.exited.isSome then none else some { s with stdout := s.stdout.write bytes }
  | .writesStderr bytes =>
      if s.exited.isSome then none else some { s with stderr := s.stderr.write bytes }
  | .exits term => if s.exited.isSome then none else some { s with exited := some term }
  | .stdoutReady =>
      (handle s.proc (s.io s.stdout) .stdoutReady).map fun p =>
        { s with proc := p, stdout := s.stdout.taken }
  | .stderrReady =>
      (handle s.proc (s.io s.stderr) .stderrReady).map fun p =>
        { s with proc := p, stderr := s.stderr.taken }

/-- Stdout is found at its end while there is something to read from stderr. -/
def drops : OutputAction → Bool
  | .stdoutReady => s.proc.running && s.exited.isSome && s.stdout.unread = [] && s.stderr.unread ≠ []
  | _ => false

end Outputs

def Report.stdout? : Report → Option Bytes
  | .stdout bytes => some bytes
  | _ => none

def Report.stderr? : Report → Option Bytes
  | .stderr bytes => some bytes
  | _ => none

def Report.isTerm : Report → Bool
  | .term _ _ => true
  | _ => false

/-- The bytes of a stream the parent was sent. -/
def received (stream : Report → Option Bytes) (reports : List Report) : Bytes :=
  (reports.filterMap stream).flatten

/-- The parent was sent a term message. -/
def Outputs.ended (s : Outputs) : Bool := s.proc.reports.any Report.isTerm

/-- The parent was sent all the child has written. -/
def Outputs.Complete (s : Outputs) : Prop :=
  received Report.stdout? s.proc.reports = s.stdout.wrote ∧
    received Report.stderr? s.proc.reports = s.stderr.wrote

/-- The parent was sent what was read of each pipe, in order. The actor ends with the
term message, at the end of stdout. -/
structure Reads (s : Outputs) : Prop where
  open_ : s.proc.running = true → s.proc.child.stdout = true ∧ s.proc.child.stderr = true
  stdout : received Report.stdout? s.proc.reports ++ s.stdout.unread = s.stdout.wrote
  stderr : received Report.stderr? s.proc.reports ++ s.stderr.unread = s.stderr.wrote
  ended : s.ended = !s.proc.running
  ends : s.proc.running = false → s.exited.isSome = true ∧ s.stdout.unread = []

section Steps
variable {s s' : Outputs}

theorem received_append (stream : Report → Option Bytes) (rs : List Report) (r : Report) :
    received stream (rs ++ [r]) = received stream rs ++ (stream r).getD [] := by
  cases h : stream r <;> simp [received, List.filterMap_append, h]

theorem reads_initial (stdinBehavior : StdIo) (pid : Nat) :
    Reads (.initial stdinBehavior pid) where
  open_ := fun _ => ⟨rfl, rfl⟩
  stdout := rfl
  stderr := rfl
  ended := rfl
  ends := nofun

theorem reports_childWaitCleanup (p : Proc) : p.childWaitCleanup.reports = p.reports := by
  unfold Proc.childWaitCleanup Proc.close
  dsimp only
  split <;> split <;> split <;> rfl

/-- At the end of its output the actor sends how the child has ended, and is done. -/
theorem handle_end {p : Proc} {io : Io} {t : Term} (running : p.running = true)
    (stdout : p.child.stdout = true) (read : io.read = .ok []) (parent : io.parent = true)
    (wait4 : io.wait4 = .ok t) : ∃ p' how val, handle p io .stdoutReady = some p' ∧
      p'.running = false ∧ p'.reports = p.reports ++ [.term how val] := by
  have cleaned := reports_childWaitCleanup p
  cases t <;>
    simp [handle, running, Proc.receive, Proc.dispatchStdout, stdout, read, Proc.handleTerminate,
      wait4, Proc.handleTerm, Proc.send, parent, cleaned, bind, Except.bind]

section Dispatch
variable {p q : Proc} {io : Io}

/-- Behind the dispatch the watcher waits for the next part. -/
theorem handle_stdoutReady (running : p.running = true) (waits : io.waitRead = none)
    (dispatched : p.dispatchStdout io = .ok q) :
    handle p io .stdoutReady =
      some { q with fdStdout := q.fdStdout.map Watcher.waitRead } := by
  rw [handle, if_pos running, Proc.receive, dispatched]
  cases q with
  | mk child buffer fdStdin fdStdout fdStderr =>
      cases fdStdout <;> simp [waits, bind, Except.bind]

theorem handle_stderrReady (running : p.running = true) (waits : io.waitRead = none)
    (dispatched : p.dispatchStderr io = .ok q) :
    handle p io .stderrReady =
      some { q with fdStderr := q.fdStderr.map Watcher.waitRead } := by
  rw [handle, if_pos running, Proc.receive, dispatched]
  cases q with
  | mk child buffer fdStdin fdStdout fdStderr =>
      cases fdStderr <;> simp [waits, bind, Except.bind]

theorem dispatchStdout_blocked (stdout : p.child.stdout = true)
    (read : io.read = .error .wouldBlock) : p.dispatchStdout io = .ok p := by
  simp [Proc.dispatchStdout, stdout, read]

theorem dispatchStdout_some {bytes : Bytes} (stdout : p.child.stdout = true)
    (parent : io.parent = true) (read : io.read = .ok bytes) (some_ : bytes ≠ []) :
    p.dispatchStdout io = .ok { p with reports := p.reports ++ [.stdout bytes] } := by
  simp [Proc.dispatchStdout, stdout, read, some_, Proc.send, parent]

theorem dispatchStderr_none (stderr : p.child.stderr = true)
    (read : io.read = .error .wouldBlock ∨ io.read = .ok []) : p.dispatchStderr io = .ok p := by
  rcases read with read | read <;> simp [Proc.dispatchStderr, stderr, read]

theorem dispatchStderr_some {bytes : Bytes} (stderr : p.child.stderr = true)
    (parent : io.parent = true) (read : io.read = .ok bytes) (some_ : bytes ≠ []) :
    p.dispatchStderr io = .ok { p with reports := p.reports ++ [.stderr bytes] } := by
  simp [Proc.dispatchStderr, stderr, read, some_, Proc.send, parent]

end Dispatch

theorem read_blocked {p : Pipe} (empty : p.unread = []) (lives : s.exited = none) :
    (s.io p).read = .error .wouldBlock := by
  simp [Outputs.io, Pipe.read, empty, lives]

theorem read_end {p : Pipe} {t : Term} (empty : p.unread = []) (exited : s.exited = some t) :
    (s.io p).read = .ok [] ∧ (s.io p).wait4 = .ok t := by
  simp [Outputs.io, Pipe.read, empty, exited]

theorem read_some {p : Pipe} (some_ : p.unread ≠ []) :
    (s.io p).read = .ok (p.unread.take maxChunkSize) ∧ p.unread.take maxChunkSize ≠ [] := by
  refine ⟨if_neg some_, fun none => ?_⟩
  rcases List.take_eq_nil_iff.mp none with zero | empty
  · simp [maxChunkSize] at zero
  · exact some_ empty

theorem Pipe.taken_empty {p : Pipe} (empty : p.unread = []) : p.taken = p := by
  cases p with
  | mk wrote unread =>
      cases empty
      rfl

/-- A read moves the first bytes of the pipe to what was received. -/
theorem Pipe.moves {p : Pipe} {got : Bytes} (h : got ++ p.unread = p.wrote) :
    got ++ p.unread.take maxChunkSize ++ p.taken.unread = p.taken.wrote := by
  rw [List.append_assoc]
  show got ++ (p.unread.take maxChunkSize ++ p.unread.drop maxChunkSize) = p.wrote
  rw [List.take_append_drop, h]

/-- The parent is sent what was read. -/
theorem Reads.sent (h : Reads s) (running : s.proc.running = true) {p : Proc} (r : Report)
    (child : p.child = s.proc.child) (goes : p.running = s.proc.running)
    (reports : p.reports = s.proc.reports ++ [r]) (quiet : r.isTerm = false) {out err : Pipe}
    (stdout : received Report.stdout? s.proc.reports ++ r.stdout?.getD [] ++ out.unread = out.wrote)
    (stderr : received Report.stderr? s.proc.reports ++ r.stderr?.getD [] ++ err.unread = err.wrote) :
    Reads { s with proc := p, stdout := out, stderr := err } where
  open_ := fun _ => child.symm ▸ h.open_ running
  stdout := by rw [reports, received_append, stdout]
  stderr := by rw [reports, received_append, stderr]
  ended := by
    have before := h.ended
    simp only [Outputs.ended] at before ⊢
    rw [reports, List.any_append, before, goes]
    simp [quiet]
  ends := fun stopped => absurd (running.symm.trans (goes.symm.trans stopped)) (by decide)

theorem running_of_handled {p q : Proc} {io : Io} {m : Message} (handled : handle p io m = some q) :
    p.running = true := by
  by_contra stopped
  simp [handle, stopped] at handled

theorem Reads.stdoutReady (h : Reads s) (run : s.step .stdoutReady = some s') :
    Reads s' ∧
      (s'.proc.running = false ↔ s.stdout.unread = [] ∧ s.exited.isSome = true) := by
  obtain ⟨p, handled, rfl⟩ := Option.map_eq_some_iff.mp run
  have running := running_of_handled handled
  obtain ⟨stdout, stderr⟩ := h.open_ running
  by_cases empty : s.stdout.unread = []
  · rw [Pipe.taken_empty empty]
    rcases Option.eq_none_or_eq_some s.exited with lives | ⟨t, exited⟩
    · have dispatched := dispatchStdout_blocked stdout (read_blocked empty lives)
      rw [handle_stdoutReady running rfl dispatched] at handled
      cases handled
      refine ⟨⟨h.open_, h.stdout, h.stderr, h.ended, h.ends⟩, ?_⟩
      simp [running, lives]
    · obtain ⟨read, waits⟩ := read_end empty exited
      obtain ⟨q, how, val, ended, stopped, reports⟩ := handle_end running stdout read rfl waits
      rw [ended] at handled
      cases handled
      refine ⟨⟨fun goes => ?_, ?_, ?_, ?_, fun _ => ⟨Option.isSome_of_eq_some exited, empty⟩⟩,
        iff_of_true stopped ⟨empty, Option.isSome_of_eq_some exited⟩⟩
      · rw [stopped] at goes
        cases goes
      · rw [reports, received_append]
        simpa [Report.stdout?] using h.stdout
      · rw [reports, received_append]
        simpa [Report.stderr?] using h.stderr
      · simp only [Outputs.ended, reports, stopped]
        simp [Report.isTerm]
  · obtain ⟨read, some_⟩ := read_some (s := s) empty
    have dispatched := dispatchStdout_some stdout rfl read some_
    rw [handle_stdoutReady running rfl dispatched] at handled
    cases handled
    have same : received Report.stderr? s.proc.reports ++ [] ++ s.stderr.unread = s.stderr.wrote := by
      rw [List.append_nil, h.stderr]
    refine ⟨?_, iff_of_false (by simp [running]) fun all => empty all.1⟩
    refine h.sent running (.stdout _) ?_ ?_ ?_ rfl (Pipe.moves h.stdout) same <;> rfl

theorem Reads.stderrReady (h : Reads s) (run : s.step .stderrReady = some s') :
    Reads s' ∧ s'.proc.running = true := by
  obtain ⟨p, handled, rfl⟩ := Option.map_eq_some_iff.mp run
  have running := running_of_handled handled
  obtain ⟨stdout, stderr⟩ := h.open_ running
  by_cases empty : s.stderr.unread = []
  · have read : (s.io s.stderr).read = .error .wouldBlock ∨ (s.io s.stderr).read = .ok [] := by
      rcases Option.eq_none_or_eq_some s.exited with lives | ⟨t, exited⟩
      · exact .inl (read_blocked empty lives)
      · exact .inr (read_end empty exited).1
    rw [Pipe.taken_empty empty]
    rw [handle_stderrReady running rfl (dispatchStderr_none stderr read)] at handled
    cases handled
    exact ⟨⟨h.open_, h.stdout, h.stderr, h.ended, h.ends⟩, running⟩
  · obtain ⟨read, some_⟩ := read_some (s := s) empty
    have dispatched := dispatchStderr_some stderr rfl read some_
    rw [handle_stderrReady running rfl dispatched] at handled
    cases handled
    have same : received Report.stdout? s.proc.reports ++ [] ++ s.stdout.unread = s.stdout.wrote := by
      rw [List.append_nil, h.stdout]
    refine ⟨?_, running⟩
    refine h.sent running (.stderr _) ?_ ?_ ?_ rfl same (Pipe.moves h.stderr) <;> rfl

/-- What the child does while it is there does not end the actor. -/
theorem Reads.lives (h : Reads s) (lives : ¬ s.exited.isSome = true) : s.proc.running = true := by
  by_contra stopped
  exact lives (h.ends (Bool.eq_false_iff.mpr stopped)).1

theorem Pipe.writes {p : Pipe} {got : Bytes} (h : got ++ p.unread = p.wrote) (bytes : Bytes) :
    got ++ (p.write bytes).unread = (p.write bytes).wrote := by
  show got ++ (p.unread ++ bytes) = p.wrote ++ bytes
  rw [← List.append_assoc, h]

theorem Reads.step {act : OutputAction} (h : Reads s) (run : s.step act = some s') : Reads s' := by
  cases act with
  | writesStdout bytes =>
      rw [Outputs.step, Option.ite_none_left_eq_some] at run
      obtain ⟨lives, done⟩ := run
      cases done
      exact ⟨h.open_, Pipe.writes h.stdout bytes, h.stderr, h.ended, fun stopped =>
        absurd (h.lives lives) (Bool.eq_false_iff.mp stopped)⟩
  | writesStderr bytes =>
      rw [Outputs.step, Option.ite_none_left_eq_some] at run
      obtain ⟨lives, done⟩ := run
      cases done
      exact ⟨h.open_, h.stdout, Pipe.writes h.stderr bytes, h.ended, h.ends⟩
  | exits term =>
      rw [Outputs.step, Option.ite_none_left_eq_some] at run
      obtain ⟨lives, done⟩ := run
      cases done
      exact ⟨h.open_, h.stdout, h.stderr, h.ended, fun stopped => ⟨rfl, (h.ends stopped).2⟩⟩
  | stdoutReady => exact (h.stdoutReady run).1
  | stderrReady => exact (h.stderrReady run).1

end Steps

section Runs
variable {s s' : Outputs} {act : OutputAction} {acts : List OutputAction}

theorem Reads.complete_iff (h : Reads s) :
    s.Complete ↔ s.stdout.unread = [] ∧ s.stderr.unread = [] := by
  unfold Outputs.Complete
  rw [← h.stdout, ← h.stderr, List.self_eq_append_right, List.self_eq_append_right]

/-- Nothing happens any more once the actor has ended. -/
theorem Reads.enabled (h : Reads s) (run : s.step act = some s') : s.proc.running = true := by
  cases act with
  | writesStdout bytes | writesStderr bytes | exits term =>
      rw [Outputs.step, Option.ite_none_left_eq_some] at run
      exact h.lives run.1
  | stdoutReady | stderrReady =>
      obtain ⟨p, handled, -⟩ := Option.map_eq_some_iff.mp run
      exact running_of_handled handled

/-- A step after which the actor goes on. -/
theorem complete_of_running (h : Reads s) (running : s.proc.running = true) :
    s.ended = true → s.Complete := by
  rw [h.ended, running]
  nofun

/-- The step that ends the actor too early is the one that finds stdout at its end. -/
theorem Reads.complete_step_iff (h : Reads s) (run : s.step act = some s') :
    (s'.ended = true → s'.Complete) ↔ s.drops act = false := by
  have running := h.enabled run
  cases act with
  | writesStdout bytes | writesStderr bytes | exits term =>
      refine iff_of_true (complete_of_running (h.step run) ?_) rfl
      rw [Outputs.step, Option.ite_none_left_eq_some] at run
      obtain ⟨-, done⟩ := run
      cases done
      exact running
  | stderrReady =>
      obtain ⟨next, goes⟩ := h.stderrReady run
      exact iff_of_true (complete_of_running next goes) rfl
  | stdoutReady =>
      obtain ⟨next, ends⟩ := h.stdoutReady run
      by_cases atEnd : s.stdout.unread = [] ∧ s.exited.isSome = true
      · have stopped := ends.mpr atEnd
        have ended : s'.ended = true := by rw [next.ended, stopped]; rfl
        have same : s'.stderr = s.stderr := by
          obtain ⟨p, -, rfl⟩ := Option.map_eq_some_iff.mp run
          rfl
        rw [next.complete_iff, same, imp_iff_right ended, and_iff_right (next.ends stopped).2]
        simp [Outputs.drops, running, atEnd]
      · have goes : s'.proc.running = true := by
          by_contra stopped
          exact atEnd (ends.mp (Bool.eq_false_iff.mpr stopped))
        refine iff_of_true (complete_of_running next goes) ?_
        by_contra dropped
        simp [Outputs.drops] at dropped
        exact atEnd ⟨dropped.2.2.1, dropped.2.1⟩

theorem Reads.ended_run (h : Reads s) (ended : s.ended = true)
    (ran : run Outputs.step s acts = some s') : s' = s := by
  cases acts with
  | nil => exact (Option.some.inj ran).symm
  | cons act acts =>
      obtain ⟨t, first, -⟩ := run_cons ran
      have running := h.enabled first
      rw [h.ended, running] at ended
      cases ended

theorem complete_run_iff (h : Reads s) (before : s.ended = true → s.Complete)
    (ran : run Outputs.step s acts = some s') :
    (s'.ended = true → s'.Complete) ↔
      Along Outputs.step (fun s act => s.drops act = false) s acts := by
  induction acts generalizing s with
  | nil =>
      cases ran
      exact iff_of_true before trivial
  | cons act acts ih =>
      obtain ⟨t, first, rest⟩ := run_cons ran
      have one := h.complete_step_iff first
      constructor
      · intro complete
        have kept : t.ended = true → t.Complete := by
          intro ended
          have same := (h.step first).ended_run ended rest
          rw [same] at complete
          exact complete ended
        refine ⟨one.mp kept, fun u next => ?_⟩
        rw [first] at next
        cases next
        exact (ih (h.step first) kept rest).mp complete
      · rintro ⟨stays, along⟩
        exact (ih (h.step first) (one.mpr stays) rest).mpr (along t first)

theorem reads_keeps : Keeps Outputs.step (fun _ _ => True) Reads := fun _ _ _ h _ run => h.step run

/-- The parent has all the output before it is sent the term message in the runs in which
stderr has been read whenever stdout is found at its end, and in no others. -/
theorem output_complete_iff {stdinBehavior : StdIo} {pid : Nat}
    (h : run Outputs.step (.initial stdinBehavior pid) acts = some s) :
    (received Report.stdout? s.proc.reports <+: s.stdout.wrote ∧
      received Report.stderr? s.proc.reports <+: s.stderr.wrote) ∧
    ((s.ended = true → s.Complete) ↔
      Along Outputs.step (fun s act => s.drops act = false) (.initial stdinBehavior pid) acts) := by
  have start := reads_initial stdinBehavior pid
  have reads := reads_keeps.run start (along_true acts) h
  refine ⟨⟨⟨_, reads.stdout⟩, ⟨_, reads.stderr⟩⟩, complete_run_iff start ?_ h⟩
  exact complete_of_running start rfl

/-- Stderr is read before the end of stdout is seen. -/
def stderrFirst : List OutputAction :=
  [.writesStdout (text "out"), .writesStderr (text "err"), .exits (.exited 0), .stderrReady,
    .stdoutReady, .stderrReady, .stdoutReady]

theorem output_complete_iff_stderrFirst :
    ∃ s, run Outputs.step (.initial .ignore 7) stderrFirst = some s ∧ s.ended = true ∧
      s.Complete := by
  obtain ⟨s, h, ended⟩ : ∃ s, run Outputs.step (.initial .ignore 7) stderrFirst = some s ∧
      s.ended = true := ⟨_, rfl, rfl⟩
  exact ⟨s, h, ended, (output_complete_iff h).2.mpr (by decide) ended⟩

/-- The child writes one line to stderr and exits; the end of stdout is seen first. -/
theorem stderr_lost_at_end_of_stdout :
    ∃ s, run Outputs.step (.initial .ignore 7)
        [.writesStderr (text "err"), .exits (.exited 1), .stdoutReady] = some s ∧
      s.stderr.wrote = text "err" ∧ s.proc.reports = [.term (text "exited") 1] ∧
      ¬ (s.ended = true → s.Complete) := by
  refine ⟨_, rfl, rfl, rfl, fun complete => ?_⟩
  have lost := (complete rfl).2
  cases lost

end Runs

end Thespian.Zig.Subprocess
