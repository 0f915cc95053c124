import Thespian.Trace.File

/-!
What a step of a thread can do to a trace file, and the layout of the memory that every
step keeps: each node is on the stack, belongs to one thread or was given up when the
writer threw. A thread has the nodes to itself that its program is about to use.
-/

namespace Thespian.Trace
open Concurrent

variable {τ ι α φ : Type}

namespace Control

/-- How often the thread has locked the mutex. -/
def depth : Control ι α → Nat
  | .idle | .allocating _ _ | .publishing _ | .working => 0
  | .guarded => 2
  | .tried | .locked | .loaded _ | .reversing _ _ | .writing _ | .written _ => 1

/-- The nodes the thread has to itself, and the entries it is going to write, in their order. -/
def Holds (m : Memory ι α) : Control ι α → Cells ι α → List α → Prop
  | .publishing p, cells, queue => ∃ x next, cells = [(p, x)] ∧ m p = some ⟨x, next⟩ ∧ queue = []
  | .reversing prev p, cells, queue =>
      ∃ done rest, cells = done ++ rest ∧ m.Chain prev done ∧ m.Chain p rest ∧
        queue = rest.contents.reverse ++ done.contents
  | .writing p, cells, queue => m.Chain p cells ∧ queue = cells.contents
  | .written p, cells, queue => m.Chain (some p) cells ∧ queue = cells.contents.tail
  | _, cells, queue => cells = [] ∧ queue = []

/-- The node that the next step reads. -/
def reads : Control ι α → Option ι
  | .publishing p | .reversing _ (some p) | .writing (some p) | .written p => some p
  | _ => none

variable {m m' : Memory ι α} {c : Control ι α} {cells : Cells ι α} {queue : List α}

theorem Holds.frame (h : c.Holds m cells queue) (same : ∀ i ∈ cells.addresses, m' i = m i) :
    c.Holds m' cells queue := by
  cases c with
  | publishing p =>
      obtain ⟨x, next, rfl, cell, done⟩ := h
      exact ⟨x, next, rfl, (same p List.mem_cons_self).trans cell, done⟩
  | reversing prev p =>
      obtain ⟨done, rest, rfl, front, back, order⟩ := h
      rw [Cells.addresses_append] at same
      refine ⟨done, rest, rfl, front.frame ?_, back.frame ?_, order⟩
      · exact fun i member => same i (List.mem_append_left _ member)
      · exact fun i member => same i (List.mem_append_right _ member)
  | writing p => exact ⟨h.1.frame same, h.2⟩
  | written p => exact ⟨h.1.frame same, h.2⟩
  | idle | allocating _ _ | working | tried | guarded | locked | loaded _ => exact h

/-- The node that is read next is there, and is one of the thread's own. -/
theorem Holds.reads (h : c.Holds m cells queue) {p : ι} (next : c.reads = some p) :
    p ∈ cells.addresses ∧ ∃ node, m p = some node := by
  cases c with
  | publishing q =>
      cases next
      obtain ⟨x, next, rfl, cell, -⟩ := h
      exact ⟨List.mem_cons_self, _, cell⟩
  | reversing prev q =>
      cases q with
      | none => cases next
      | some q =>
          cases next
          obtain ⟨done, rest, rfl, -, back, -⟩ := h
          obtain ⟨x, next, tail, rfl, cell, -⟩ := back.of_pointer
          exact ⟨by simp, _, cell⟩
  | writing q =>
      cases q with
      | none => cases next
      | some q =>
          cases next
          obtain ⟨x, next, tail, rfl, cell, -⟩ := h.1.of_pointer
          exact ⟨List.mem_cons_self, _, cell⟩
  | written q =>
      cases next
      obtain ⟨x, next, tail, rfl, cell, -⟩ := h.1.of_pointer
      exact ⟨List.mem_cons_self, _, cell⟩
  | idle | allocating _ _ | working | tried | guarded | locked | loaded _ => cases next

/-- Outside of the mutex there is nothing to write. -/
theorem Holds.queue_nil (h : c.Holds m cells queue) (outside : c.depth = 0) : queue = [] := by
  cases c with
  | publishing p =>
      obtain ⟨x, next, -, -, done⟩ := h
      exact done
  | idle | allocating _ _ | working => exact h.2
  | tried | guarded | locked | loaded _ | reversing _ _ | writing _ | written _ => cases outside

end Control

namespace TraceFile

section Steps
variable [DecidableEq τ] [DecidableEq ι]

inductive Move (onTrace : φ → α → Except φ φ) (f : TraceFile τ ι α φ) (t : τ) :
    Action ι α → TraceFile τ ι α φ → Prop
  | push (x : α) (here : f.threads t = .idle) :
      Move onTrace f t (.push x) (f.goto t (.allocating x f.head))
  | destroy (here : f.threads t = .idle) : Move onTrace f t .destroy (f.goto t .working)
  | allocate (x : α) (next : Option ι) (p : ι) (here : f.threads t = .allocating x next)
      (free : f.nodes p = none) :
      Move onTrace f t (.allocate p) ((f.store p (some ⟨x, next⟩)).goto t (.publishing p))
  | publish (p : ι) (node : Cell ι α) (here : f.threads t = .publishing p)
      (cell : f.nodes p = some node) (same : f.head = node.next) :
      Move onTrace f t (.exchange false)
        ({ f with head := some p, published := f.published ++ [(t, node.data)] }.goto t .working)
  | retry (p : ι) (spurious : Bool) (node : Cell ι α) (here : f.threads t = .publishing p)
      (cell : f.nodes p = some node) :
      Move onTrace f t (.exchange spurious) (f.store p (some { node with next := f.head }))
  | skip (spurious : Bool) (here : f.threads t = .working)
      (missed : spurious = true ∨ f.m.lock t = none) :
      Move onTrace f t (.tryLock spurious) (f.goto t .idle)
  | enter (m : Mutex τ) (here : f.threads t = .working) (locked : f.m.lock t = some m) :
      Move onTrace f t (.tryLock false) ({ f with m := m }.goto t .tried)
  | guard (m : Mutex τ) (here : f.threads t = .tried) (locked : f.m.lock t = some m) :
      Move onTrace f t .advance ({ f with m := m }.goto t .guarded)
  | release (here : f.threads t = .guarded) :
      Move onTrace f t .advance ({ f with m := f.m.unlock }.goto t .locked)
  | load (here : f.threads t = .locked) : Move onTrace f t .advance (f.goto t (.loaded f.head))
  | empty (here : f.threads t = .loaded none) :
      Move onTrace f t .advance ({ f with m := f.m.unlock }.goto t .idle)
  | take (p : ι) (here : f.threads t = .loaded (some p)) (same : f.head = some p) :
      Move onTrace f t (.exchange false) ({ f with head := none }.goto t (.reversing none (some p)))
  | reload (p : ι) (spurious : Bool) (here : f.threads t = .loaded (some p)) :
      Move onTrace f t (.exchange spurious) (f.goto t (.loaded f.head))
  | turn (prev : Option ι) (p : ι) (node : Cell ι α) (here : f.threads t = .reversing prev (some p))
      (cell : f.nodes p = some node) :
      Move onTrace f t .advance
        ((f.store p (some { node with next := prev })).goto t (.reversing (some p) node.next))
  | turned (prev : Option ι) (here : f.threads t = .reversing prev none) :
      Move onTrace f t .advance (f.goto t (.writing prev))
  | write (p : ι) (node : Cell ι α) (s : φ) (here : f.threads t = .writing (some p))
      (cell : f.nodes p = some node) (traced : onTrace f.s node.data = .ok s) :
      Move onTrace f t .advance ({ f with s := s }.goto t (.written p))
  | throw (p : ι) (node : Cell ι α) (s : φ) (here : f.threads t = .writing (some p))
      (cell : f.nodes p = some node) (thrown : onTrace f.s node.data = .error s) :
      Move onTrace f t .advance ({ f with s := s, m := f.m.unlock }.goto t .idle)
  | finish (here : f.threads t = .writing none) :
      Move onTrace f t .advance ({ f with m := f.m.unlock }.goto t .working)
  | delete (p : ι) (node : Cell ι α) (here : f.threads t = .written p)
      (cell : f.nodes p = some node) :
      Move onTrace f t .advance ((f.store p none).goto t (.writing node.next))
  | fault (a : Action ι α) (p : ι) (here : (f.threads t).reads = some p)
      (absent : f.nodes p = none) :
      Move onTrace f t a f.faulty

variable {onTrace : φ → α → Except φ φ} {f f' : TraceFile τ ι α φ} {t : τ} {a : Action ι α}

theorem step_move (h : step onTrace f (t, a) = some f') :
    Move onTrace f t a f' := by
  cases here : f.threads t with
  | idle =>
      cases a <;> simp only [step, here, Option.some.injEq, reduceCtorEq] at h
      case push x => exact h ▸ .push x here
      case destroy => exact h ▸ .destroy here
  | allocating x next =>
      cases a <;> simp only [step, here, reduceCtorEq] at h
      case allocate p =>
        split at h
        · next free =>
          cases h
          exact .allocate x next p here free
        · cases h
  | publishing p =>
      cases a <;> simp only [step, here, Option.some.injEq, reduceCtorEq] at h
      case exchange spurious =>
        unfold publish at h
        split at h
        · next absent => exact h ▸ .fault _ p (by rw [here]; rfl) absent
        · next node cell =>
          split at h
          · next same =>
            obtain ⟨same, strong⟩ := same
            rw [Bool.not_eq_true'] at strong
            subst strong
            exact h ▸ .publish p node here cell same
          · exact h ▸ .retry p _ node here cell
  | working =>
      cases a <;> simp only [step, here, reduceCtorEq] at h
      case tryLock spurious =>
        cases spurious with
        | true =>
            cases h
            exact .skip true here (.inl rfl)
        | false =>
            simp only [Bool.false_eq_true, if_false] at h
            split at h
            · next failed =>
              cases h
              exact .skip false here (.inr failed)
            · next m locked =>
              cases h
              exact .enter m here locked
  | tried =>
      cases a <;> simp only [step, here, Option.map_eq_some_iff, reduceCtorEq] at h
      case advance =>
        obtain ⟨m, locked, rfl⟩ := h
        exact .guard m here locked
  | guarded =>
      cases a <;> simp only [step, here, Option.some.injEq, reduceCtorEq] at h
      case advance => exact h ▸ .release here
  | locked =>
      cases a <;> simp only [step, here, Option.some.injEq, reduceCtorEq] at h
      case advance => exact h ▸ .load here
  | loaded p =>
      cases p with
      | none =>
          cases a <;> simp only [step, here, Option.some.injEq, reduceCtorEq] at h
          case advance => exact h ▸ .empty here
      | some p =>
          cases a <;> simp only [step, here, reduceCtorEq] at h
          case exchange spurious =>
            split at h
            · next same =>
              obtain ⟨same, strong⟩ := same
              rw [Bool.not_eq_true'] at strong
              subst strong
              cases h
              exact .take p here same
            · cases h
              exact .reload p spurious here
  | reversing prev p =>
      cases p with
      | none =>
          cases a <;> simp only [step, here, Option.some.injEq, reduceCtorEq] at h
          case advance => exact h ▸ .turned prev here
      | some p =>
          cases a <;> simp only [step, here, Option.some.injEq, reduceCtorEq] at h
          case advance =>
            unfold reverse at h
            split at h
            · next absent => exact h ▸ .fault _ p (by rw [here]; rfl) absent
            · next node cell => exact h ▸ .turn prev p node here cell
  | writing p =>
      cases p with
      | none =>
          cases a <;> simp only [step, here, Option.some.injEq, reduceCtorEq] at h
          case advance => exact h ▸ .finish here
      | some p =>
          cases a <;> simp only [step, here, Option.some.injEq, reduceCtorEq] at h
          case advance =>
            unfold TraceFile.write at h
            split at h
            · next absent => exact h ▸ .fault _ p (by rw [here]; rfl) absent
            · next node cell =>
              split at h
              · next s traced => exact h ▸ .write p node s here cell traced
              · next s thrown => exact h ▸ .throw p node s here cell thrown
  | written p =>
      cases a <;> simp only [step, here, Option.some.injEq, reduceCtorEq] at h
      case advance =>
        unfold TraceFile.delete at h
        split at h
        · next absent => exact h ▸ .fault _ p (by rw [here]; rfl) absent
        · next node cell => exact h ▸ .delete p node here cell

end Steps

/-- Whom a node belongs to. -/
inductive Owner (τ : Type) where
  | stack
  | thread (t : τ)
  | lost
  deriving DecidableEq

structure Layout (f : TraceFile τ ι α φ) (cells : Owner τ → Cells ι α) (queue : τ → List α) :
    Prop where
  partition : f.nodes.Partition cells
  stack : f.nodes.Chain f.head (cells .stack)
  held : ∀ t, (f.threads t).Holds f.nodes (cells (.thread t)) (queue t)
  mutex : f.m.Held fun t => (f.threads t).depth
  sound : f.fault = false

theorem layout_create (s : φ) :
    (create τ ι α s).Layout (fun _ => []) fun _ => [] where
  partition := Memory.partition_empty fun _ => rfl
  stack := rfl
  held := fun _ => ⟨rfl, rfl⟩
  mutex := Mutex.held_free
  sound := rfl

section Layout
variable {f f' : TraceFile τ ι α φ} {t : τ} {c : Control ι α} {cells cells' : Owner τ → Cells ι α}
variable {queue : τ → List α} {q : List α}

/-- No thread reads a node that is gone. -/
theorem Layout.no_fault (h : f.Layout cells queue) {p : ι} (next : (f.threads t).reads = some p) :
    f.nodes p ≠ none := by
  obtain ⟨-, node, cell⟩ := (h.held t).reads next
  rw [cell]
  exact Option.some_ne_none node

variable [DecidableEq τ]

/-- What a step of one thread must show: the others' nodes stay as they are. -/
theorem Layout.step (h : f.Layout cells queue)
    (threads : f'.threads = Function.update f.threads t c) (sound : f'.fault = f.fault)
    (partition : f'.nodes.Partition cells') (stack : f'.nodes.Chain f'.head (cells' .stack))
    (others : ∀ u, u ≠ t → cells' (.thread u) = cells (.thread u))
    (frame : ∀ u, u ≠ t → ∀ i ∈ (cells (.thread u)).addresses, f'.nodes i = f.nodes i)
    (mine : c.Holds f'.nodes (cells' (.thread t)) q)
    (mutex : f'.m.Held (Function.update (fun u => (f.threads u).depth) t c.depth)) :
    f'.Layout cells' (Function.update queue t q) where
  partition := partition
  stack := stack
  held := by
    intro u
    rw [threads]
    by_cases same : u = t
    · subst same
      rw [Function.update_self, Function.update_self]
      exact mine
    · rw [Function.update_of_ne same, Function.update_of_ne same, others u same]
      exact (h.held u).frame (frame u same)
  mutex := by
    have depths : (fun u => (f'.threads u).depth) =
        Function.update (fun u => (f.threads u).depth) t c.depth := by
      funext u
      rw [threads]
      by_cases same : u = t
      · subst same
        rw [Function.update_self, Function.update_self]
      · rw [Function.update_of_ne same, Function.update_of_ne same]
    rw [depths]
    exact mutex
  sound := sound.trans h.sound

/-- A step that only moves the thread on. -/
theorem Layout.goto (h : f.Layout cells queue) (mine : c.Holds f.nodes (cells (.thread t)) q)
    (same : c.depth = (f.threads t).depth) :
    (f.goto t c).Layout cells (Function.update queue t q) :=
  h.step rfl rfl h.partition h.stack (fun _ _ => rfl) (fun _ _ _ _ => rfl) mine (h.mutex.keep same)

end Layout

end TraceFile

end Thespian.Trace
