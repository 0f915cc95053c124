import Thespian.Cbor.Buffer

/-!
The actor behind a subprocess. It owns the files of the child's pipes, watches them for
readiness, and reports to its parent. What the system calls return while a message is
handled is an argument; what was written to the child, which files were closed and
what the parent was sent is recorded.

A handler returns an error to end the actor. Where the source defers a statement, it is
done on both ways out.
-/

namespace Thespian.Zig.Subprocess
open Cbor

def maxChunkSize : Nat := 4096 - 32

/-- How the child gets a standard stream. -/
inductive StdIo where
  | inherit | file | ignore | pipe | close
  deriving DecidableEq, Repr

inductive Stream where
  | stdin | stdout | stderr
  deriving DecidableEq, Repr

inductive IoError where
  | wouldBlock
  | other (name : Bytes)
  deriving DecidableEq, Repr

inductive Term where
  | exited (val : Nat)
  | signal (val : Nat)
  | stopped (val : Nat)
  | unknown (val : Nat)
  deriving DecidableEq, Repr

/-- What the parent is sent behind the tag. -/
inductive Report where
  | stdout (bytes : Bytes)
  | stderr (bytes : Bytes)
  | term (how : Bytes) (val : Nat)
  deriving DecidableEq, Repr

inductive Message where
  | stdoutReady
  | stderrReady
  | stdinReady
  | stdin (bytes : Bytes)
  | stdinClose
  | stdoutClose
  | stderrClose
  | term
  | readError (errMsg : Bytes)
  | other
  deriving DecidableEq, Repr

/-- The results of the calls that are made while one message is handled, none where
there is no error to name. -/
structure Io where
  append : Option Bytes := none
  write : Except IoError Nat := .ok 0
  waitWrite : Option Bytes := none
  read : Except IoError Bytes := .error .wouldBlock
  waitRead : Option Bytes := none
  parent : Bool := true
  wait4 : Except Bytes Term := .ok (.exited 0)

/-- `watcher_impl` -/
structure Watcher where
  readInProgress : Bool := false
  writeInProgress : Bool := false
  deriving DecidableEq, Repr

namespace Watcher

def waitRead (w : Watcher) : Watcher :=
  if !w.readInProgress then { w with readInProgress := true } else w

def waitWrite (w : Watcher) : Watcher :=
  if !w.writeInProgress then { w with writeInProgress := true } else w

end Watcher

/-- The process and which of its files are not null. -/
structure Child where
  id : Option Nat
  stdin : Bool
  stdout : Bool
  stderr : Bool
  deriving DecidableEq, Repr

structure Proc where
  child : Child
  stdinBuffer : Bytes := []
  fdStdin : Option Watcher
  fdStdout : Option Watcher
  fdStderr : Option Watcher
  writePending : Bool := false
  stdinClosePending : Bool := false
  running : Bool := true
  written : Bytes := []
  closed : List Stream := []
  reports : List Report := []
  deriving DecidableEq, Repr

/-- The handler of a message goes on, or has returned an error. -/
abbrev Handled := Except Proc Proc

namespace Proc

/-- Start, where every call succeeds. -/
def start (stdinBehavior : StdIo) (pid : Nat) : Proc where
  child := ⟨some pid, stdinBehavior = .pipe, true, true⟩
  fdStdin := if stdinBehavior = .pipe then some {} else none
  fdStdout := some (Watcher.waitRead {})
  fdStderr := some (Watcher.waitRead {})

variable (io : Io) (s : Proc)

def close (f : Stream) : Proc := { s with closed := s.closed ++ [f] }

/-- `try self.parent.send(..)` -/
def send (r : Report) : Handled :=
  if io.parent then .ok { s with reports := s.reports ++ [r] } else .error s

def handleError (e : Bytes) : Handled := do
  let s ← s.send io (.term e 1)
  .error s

def handleTerm (t : Term) : Handled :=
  let sent : Handled :=
    match t with
    | .exited val => s.send io (.term (text "exited") val)
    | .signal val => s.send io (.term (text "signal") val)
    | .stopped val => s.send io (.term (text "stop") val)
    | .unknown val => s.send io (.term (text "unknown") val)
  match sent with
  | .ok s | .error s => .error s

/-- Only the field of stdout is ever set to null here. -/
def childWaitCleanup : Proc :=
  let s := if s.child.stdin then { s.close .stdin with child := { s.child with stdout := false } } else s
  let s := if s.child.stdout then { s.close .stdout with child := { s.child with stdout := false } } else s
  let s := if s.child.stderr then { s.close .stderr with child := { s.child with stdout := false } } else s
  { s with child := { s.child with id := none } }

def handleTerminate : Handled :=
  let s := s.childWaitCleanup
  match io.wait4 with
  | .ok t => s.handleTerm io t
  | .error e => s.handleError io e

def dispatchStdout : Handled :=
  if !s.child.stdout then s.handleError io (text "ReadNoStdout")
  else
    match io.read with
    | .error .wouldBlock => .ok s
    | .error (.other e) => s.handleError io e
    | .ok bytes => if bytes = [] then s.handleTerminate io else s.send io (.stdout bytes)

def dispatchStderr : Handled :=
  if !s.child.stderr then s.handleError io (text "ReadNoStderr")
  else
    match io.read with
    | .error .wouldBlock => .ok s
    | .error (.other e) => s.handleError io e
    | .ok bytes => if bytes = [] then .ok s else s.send io (.stderr bytes)

def stdinClose : Proc :=
  if s.child.stdin then { s.close .stdin with child := { s.child with stdin := false } } else s

/-- `fd_stdin.wait_write() catch |e| return self.handle_error(e)`, and then the flag. -/
def waitWrite : Handled :=
  match io.waitWrite with
  | some e => s.handleError io e
  | none => .ok { s with fdStdin := s.fdStdin.map Watcher.waitWrite, writePending := true }

/-- The deferred block of a write. -/
def closePending : Proc := if s.stdinClosePending && !s.writePending then s.stdinClose else s

/-- What follows a write of the given number of bytes. -/
def wrote (n : Nat) : Handled :=
  if n = s.stdinBuffer.length then .ok { s with stdinBuffer := [] }
  else
    let s := { s with stdinBuffer := s.stdinBuffer.drop n }
    if s.fdStdin.isSome then s.waitWrite io else .ok s

def stdinReady : Handled :=
  if s.stdinBuffer = [] ∨ !s.child.stdin then .ok s
  else
    match io.write with
    | .error .wouldBlock =>
        if s.fdStdin.isSome then s.waitWrite io else s.handleError io (text "WouldBlock")
    | .error (.other e) => s.handleError io e
    | .ok n =>
        let s := { s with written := s.written ++ s.stdinBuffer.take n, writePending := false }
        match s.wrote io n with
        | .ok s => .ok s.closePending
        | .error s => .error s.closePending

def stdinChunk (bytes : Bytes) : Handled :=
  if s.fdStdin.isSome then
    match io.append with
    | some e => s.handleError io e
    | none => { s with stdinBuffer := s.stdinBuffer ++ bytes }.waitWrite io
  else .ok s

def receive : Message → Handled
  | .stdoutReady => do
      let s ← s.dispatchStdout io
      match s.fdStdout, io.waitRead with
      | some _, some e => s.handleError io e
      | some w, none => .ok { s with fdStdout := some w.waitRead }
      | none, _ => .ok s
  | .stderrReady => do
      let s ← s.dispatchStderr io
      match s.fdStderr, io.waitRead with
      | some _, some e => s.handleError io e
      | some w, none => .ok { s with fdStderr := some w.waitRead }
      | none, _ => .ok s
  | .stdinReady => s.stdinReady io
  | .stdin bytes => s.stdinChunk io bytes
  | .stdinClose => if s.writePending then .ok { s with stdinClosePending := true } else .ok s.stdinClose
  | .stdoutClose =>
      if s.child.stdout then
        .ok { s.close .stdout with child := { s.child with stdout := false } }
      else .ok s
  | .stderrClose =>
      if s.child.stderr then
        .ok { s.close .stderr with child := { s.child with stderr := false } }
      else .ok s
  | .term => s.handleTerminate io
  | .readError errMsg => s.handleError io errMsg
  | .other => .ok s

end Proc

/-- An actor that has returned an error gets no more messages. -/
def handle (s : Proc) (io : Io) (m : Message) : Option Proc :=
  if s.running then
    match s.receive io m with
    | .ok s => some s
    | .error s => some { s with running := false }
  else none

/-- The messages that send makes of its bytes. -/
def chunks (bytes : Bytes) : List Bytes :=
  if bytes.length > maxChunkSize then bytes.take maxChunkSize :: chunks (bytes.drop maxChunkSize)
  else if bytes = [] then []
  else [bytes]
termination_by bytes.length
decreasing_by
  simp only [List.length_drop, maxChunkSize] at *
  omega

theorem chunks_short (bytes : Bytes) (some_ : bytes ≠ []) (short : bytes.length ≤ maxChunkSize) :
    chunks bytes = [bytes] := by
  rw [chunks, if_neg (Nat.not_lt_of_le short), if_neg some_]

theorem chunks_flatten (bytes : Bytes) : (chunks bytes).flatten = bytes := by
  fun_induction chunks bytes with
  | case1 bytes long ih => rw [List.flatten_cons, ih, List.take_append_drop]
  | case2 => rfl
  | case3 => simp

theorem chunks_nonempty (bytes : Bytes) : ∀ c ∈ chunks bytes, c ≠ [] := by
  fun_induction chunks bytes with
  | case1 bytes long ih =>
      intro c member
      rcases List.mem_cons.mp member with rfl | later
      · intro empty
        rcases List.take_eq_nil_iff.mp empty with zero | nil
        · simp [maxChunkSize] at zero
        · simp [nil] at long
      · exact ih c later
  | case2 => simp
  | case3 bytes short some_ => simpa using some_

end Thespian.Zig.Subprocess
