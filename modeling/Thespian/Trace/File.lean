import Thespian.Concurrent.Chain
import Thespian.Concurrent.Mutex
import Thespian.Transition.Runs

/-!
A trace file that any number of threads push to. The nodes wait on a lock-free stack,
newest first. A thread that gets hold of the mutex takes the whole stack, reverses it in
place and writes the nodes out; one that does not get hold of it leaves its node to the
others.

The memory is part of the state: an address that was freed may be given out again while
another thread still has it in a register. A step that reads or frees a node that is not
there sets the fault flag, as nothing is known of the program from then on. The list of
the published entries is not in the source; it says in which order the entries went on
the stack, and from which thread.
-/

namespace Thespian.Trace
open Concurrent

variable {τ ι α φ : Type}

/-- Where a thread stands in `push` and in the `do_work` it calls. -/
inductive Control (ι α : Type) where
  | idle
  | allocating (data : α) (next : Option ι)
  | publishing (p : ι)
  | working
  | tried
  | guarded
  | locked
  | loaded (p : Option ι)
  | reversing (prev p : Option ι)
  | writing (p : Option ι)
  | written (p : ι)
  deriving DecidableEq

/-- `trace_file`, with the file behind its stream. -/
structure TraceFile (τ ι α φ : Type) where
  nodes : Memory ι α
  head : Option ι
  m : Mutex τ
  threads : τ → Control ι α
  s : φ
  fault : Bool
  published : List (τ × α)

inductive Action (ι α : Type) where
  | push (data : α)
  | destroy
  | allocate (p : ι)
  | exchange (spurious : Bool)
  | tryLock (spurious : Bool)
  | advance
  deriving DecidableEq

/-- What a call of push was given. -/
def Action.pushed : Action ι α → Option α
  | .push data => some data
  | _ => none

namespace TraceFile

/-- The constructor, on an open file. -/
def create (τ ι α : Type) {φ : Type} (s : φ) : TraceFile τ ι α φ where
  nodes := fun _ => none
  head := none
  m := none
  threads := fun _ => .idle
  s := s
  fault := false
  published := []

variable [DecidableEq τ] [DecidableEq ι]

/-- A thread goes on to the given place. -/
def goto (f : TraceFile τ ι α φ) (t : τ) (control : Control ι α) : TraceFile τ ι α φ :=
  { f with threads := Function.update f.threads t control }

def store (f : TraceFile τ ι α φ) (p : ι) (node : Option (Cell ι α)) : TraceFile τ ι α φ :=
  { f with nodes := Function.update f.nodes p node }

def faulty (f : TraceFile τ ι α φ) : TraceFile τ ι α φ := { f with fault := true }

/-- The compare and exchange loop of push. -/
def publish (f : TraceFile τ ι α φ) (t : τ) (p : ι) (spurious : Bool) : TraceFile τ ι α φ :=
  match f.nodes p with
  | none => f.faulty
  | some node =>
      if f.head = node.next ∧ !spurious then
        { f with head := some p, published := f.published ++ [(t, node.data)] }.goto t .working
      else f.store p (some { node with next := f.head })

/-- The loop of reverse. -/
def reverse (f : TraceFile τ ι α φ) (t : τ) (prev : Option ι) (p : ι) : TraceFile τ ι α φ :=
  match f.nodes p with
  | none => f.faulty
  | some node =>
      (f.store p (some { node with next := prev })).goto t (.reversing (some p) node.next)

section
variable (onTrace : φ → α → Except φ φ)

/-- The call of on_trace. An exception leaves `do_work` and `push`, with what has been
written so far in the file. -/
def write (f : TraceFile τ ι α φ) (t : τ) (p : ι) : TraceFile τ ι α φ :=
  match f.nodes p with
  | none => f.faulty
  | some node =>
      match onTrace f.s node.data with
      | .ok s => { f with s := s }.goto t (.written p)
      | .error s => { f with s := s, m := f.m.unlock }.goto t .idle

/-- The end of the round of the loop in `do_work`. -/
def delete (f : TraceFile τ ι α φ) (t : τ) (p : ι) : TraceFile τ ι α φ :=
  match f.nodes p with
  | none => f.faulty
  | some node => (f.store p none).goto t (.writing node.next)

/-- One step of a thread, each of which has at most one access to what the threads share. -/
def step (f : TraceFile τ ι α φ) (a : τ × Action ι α) : Option (TraceFile τ ι α φ) :=
  match f.threads a.1, a.2 with
  | .idle, .push data => some (f.goto a.1 (.allocating data f.head))
  | .idle, .destroy => some (f.goto a.1 .working)
  | .allocating data next, .allocate p =>
      if f.nodes p = none then some ((f.store p (some ⟨data, next⟩)).goto a.1 (.publishing p))
      else none
  | .publishing p, .exchange spurious => some (f.publish a.1 p spurious)
  | .working, .tryLock spurious =>
      match if spurious then none else f.m.lock a.1 with
      | none => some (f.goto a.1 .idle)
      | some m => some ({ f with m := m }.goto a.1 .tried)
  | .tried, .advance => (f.m.lock a.1).map fun m => { f with m := m }.goto a.1 .guarded
  | .guarded, .advance => some ({ f with m := f.m.unlock }.goto a.1 .locked)
  | .locked, .advance => some (f.goto a.1 (.loaded f.head))
  | .loaded none, .advance => some ({ f with m := f.m.unlock }.goto a.1 .idle)
  | .loaded (some p), .exchange spurious =>
      if f.head = some p ∧ !spurious then
        some ({ f with head := none }.goto a.1 (.reversing none (some p)))
      else some (f.goto a.1 (.loaded f.head))
  | .reversing prev none, .advance => some (f.goto a.1 (.writing prev))
  | .reversing prev (some p), .advance => some (f.reverse a.1 prev p)
  | .writing none, .advance => some ({ f with m := f.m.unlock }.goto a.1 .working)
  | .writing (some p), .advance => some (f.write onTrace a.1 p)
  | .written p, .advance => some (f.delete a.1 p)
  | _, _ => none

end

end TraceFile

end Thespian.Trace
