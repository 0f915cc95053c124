import Thespian.Trace.FileSteps

/-!
The order of a trace file. The published entries are first those that are done with, then
those in the hand of the thread that has the mutex, then those on the stack. What is done
with was written to the file, but for entries that were given up when the writer threw.
-/

namespace Thespian.Trace.TraceFile
open Concurrent

variable {τ ι α φ : Type}

/-- What a call of on_trace leaves in the file. -/
def emit (onTrace : φ → α → Except φ φ) (s : φ) (x : α) : φ :=
  match onTrace s x with
  | .ok s | .error s => s

/-- What the thread that has the mutex is going to write. -/
def hand (m : Mutex τ) (queue : τ → List α) : List α :=
  match m with
  | some (t, _) => queue t
  | none => []

@[simp] theorem hand_free (queue : τ → List α) : hand none queue = [] := rfl

/-- The writer does not throw for any of the published entries. -/
def Writable (onTrace : φ → α → Except φ φ) (f : TraceFile τ ι α φ) : Prop :=
  ∀ e ∈ f.published, ∀ s, ∃ s', onTrace s e.2 = .ok s'

structure Ordered (onTrace : φ → α → Except φ φ) (start : φ) (f : TraceFile τ ι α φ)
    (cells : Owner τ → Cells ι α) (queue : τ → List α) (handled written : List α) : Prop where
  published : f.published.map Prod.snd =
    handled ++ hand f.m queue ++ (cells .stack).contents.reverse
  sublist : written.Sublist handled
  file : f.s = written.foldl (emit onTrace) start
  complete : f.Writable onTrace → written = handled ∧ cells .lost = []

def Consistent (onTrace : φ → α → Except φ φ) (start : φ) (f : TraceFile τ ι α φ) : Prop :=
  ∃ cells queue handled written,
    f.Layout cells queue ∧ f.Ordered onTrace start cells queue handled written

theorem consistent_create (onTrace : φ → α → Except φ φ) (s : φ) :
    (create τ ι α s).Consistent onTrace s :=
  ⟨_, _, [], [], layout_create s, rfl, .refl _, rfl, fun _ => ⟨rfl, rfl⟩⟩

section Hand
variable {m : Mutex τ} {depth : τ → Nat} {queue : τ → List α} {t : τ} {q : List α}

theorem hand_inside (h : m.Held depth) (inside : 0 < depth t) : hand m queue = queue t := by
  rw [h.owner t inside, hand]

variable [DecidableEq τ]

theorem hand_update_inside (h : m.Held depth) (inside : 0 < depth t) :
    hand m (Function.update queue t q) = q := by
  rw [hand_inside h inside, Function.update_self]

theorem hand_outside (h : m.Held depth) (out : depth t = 0) :
    hand m (Function.update queue t q) = hand m queue := by
  unfold hand
  split
  · next u n =>
    rw [Function.update_of_ne]
    rintro rfl
    exact h.outside out n rfl
  · rfl

end Hand

section Steps
variable {onTrace : φ → α → Except φ φ} {start : φ} {f f' : TraceFile τ ι α φ} {t : τ}
variable {c : Control ι α} {cells cells' : Owner τ → Cells ι α} {queue queue' : τ → List α}
variable {handled written : List α}

theorem Ordered.keep (h : f.Ordered onTrace start cells queue handled written)
    (published : f'.published = f.published) (file : f'.s = f.s)
    (stack : cells' .stack = cells .stack) (lost : cells' .lost = cells .lost)
    (same : hand f'.m queue' = hand f.m queue) :
    f'.Ordered onTrace start cells' queue' handled written where
  published := by rw [published, same, stack, h.published]
  sublist := h.sublist
  file := file.trans h.file
  complete := fun writable => by
    rw [Writable, published] at writable
    rw [lost]
    exact h.complete writable

/-- What is written is one of the published entries. -/
theorem Ordered.of_writing (h : f.Ordered onTrace start cells queue handled written)
    (layout : f.Layout cells queue) {p : ι} {node : Cell ι α}
    (here : f.threads t = .writing (some p)) (cell : f.nodes p = some node) :
    ∃ e ∈ f.published, e.2 = node.data := by
  have held := layout.held t
  have inside : 0 < (f.threads t).depth := by rw [here]; exact Nat.one_pos
  have settled : hand f.m queue = queue t := hand_inside layout.mutex inside
  rw [here] at held
  obtain ⟨chain, waiting⟩ := held
  obtain ⟨x, next, tail, mine, found, -⟩ := chain.of_pointer
  cases cell.symm.trans found
  rw [mine, Cells.contents_cons] at waiting
  refine List.mem_map.mp ?_
  rw [h.published, settled, waiting]
  simp

variable [DecidableEq τ]

/-- A step outside of the mutex that only moves the thread on. -/
theorem consistent_outside (h : f.Consistent onTrace start) (out : (f.threads t).depth = 0)
    (same : c.depth = 0)
    (mine : ∀ cells, (f.threads t).Holds f.nodes cells [] → c.Holds f.nodes cells []) :
    (f.goto t c).Consistent onTrace start := by
  obtain ⟨cells, queue, handled, written, layout, order⟩ := h
  have held := layout.held t
  rw [held.queue_nil out] at held
  refine ⟨cells, Function.update queue t [], handled, written,
    layout.goto (mine _ held) (same.trans out.symm), order.keep rfl rfl rfl rfl ?_⟩
  exact hand_outside layout.mutex out

/-- A step inside of the mutex that only moves the thread on. -/
theorem consistent_inside (h : f.Consistent onTrace start)
    (same : c.depth = (f.threads t).depth)
    (mine : ∀ cells q, (f.threads t).Holds f.nodes cells q → c.Holds f.nodes cells q) :
    (f.goto t c).Consistent onTrace start := by
  obtain ⟨cells, queue, handled, written, layout, order⟩ := h
  refine ⟨cells, Function.update queue t (queue t), handled, written,
    layout.goto (mine _ _ (layout.held t)) same, order.keep rfl rfl rfl rfl ?_⟩
  rw [Function.update_eq_self]
  rfl

/-- A step that moves the thread on with the mutex locked once more or once less. -/
theorem consistent_mutex {m : Mutex τ} (h : f.Consistent onTrace start)
    (mutex : f.m.Held (fun t => (f.threads t).depth) →
      m.Held (Function.update (fun t => (f.threads t).depth) t c.depth) ∧
        ∀ queue : τ → List α, queue t = [] → hand m queue = hand f.m queue)
    (empty : ∀ cells q, (f.threads t).Holds f.nodes cells q → cells = [] ∧ q = [])
    (mine : c.Holds f.nodes [] []) :
    ({ f with m := m }.goto t c).Consistent onTrace start := by
  obtain ⟨cells, queue, handled, written, layout, order⟩ := h
  obtain ⟨none, nothing⟩ := empty _ _ (layout.held t)
  obtain ⟨held, same⟩ := mutex layout.mutex
  refine ⟨cells, Function.update queue t [], handled, written, ?_, order.keep rfl rfl rfl rfl ?_⟩
  · exact layout.step rfl rfl layout.partition layout.stack (fun _ _ => rfl)
      (fun _ _ _ _ => rfl) (by rw [none]; exact mine) held
  · rw [← nothing, Function.update_eq_self]
    exact same queue nothing

variable {x : α} {next prev : Option ι} {p : ι} {node : Cell ι α} {s : φ}

theorem consistent_allocate [DecidableEq ι] (h : f.Consistent onTrace start)
    (here : f.threads t = .allocating x next) (free : f.nodes p = none) :
    ((f.store p (some ⟨x, next⟩)).goto t (.publishing p)).Consistent onTrace start := by
  obtain ⟨cells, queue, handled, written, layout, order⟩ := h
  have held := layout.held t
  have out : (f.threads t).depth = 0 := by rw [here]; rfl
  rw [here] at held
  refine ⟨Function.update cells (.thread t) ((p, x) :: cells (.thread t)),
    Function.update queue t [], handled, written, ?_, order.keep rfl rfl ?_ ?_ ?_⟩
  · refine layout.step rfl rfl (layout.partition.allocate free _) ?_ ?_ ?_ ?_ ?_
    · exact layout.stack.update (layout.partition.fresh free _)
    · intro u other
      exact Function.update_of_ne (by simp [other]) _ _
    · intro u _ i member
      exact Function.update_of_ne (ne_of_mem_of_not_mem member (layout.partition.fresh free _)) _ _
    · refine ⟨x, next, ?_, Function.update_self .., rfl⟩
      rw [Function.update_self, held.1]
    · exact layout.mutex.keep out.symm
  · exact Function.update_of_ne (by simp) _ _
  · exact Function.update_of_ne (by simp) _ _
  · exact hand_outside layout.mutex out

theorem consistent_publish (h : f.Consistent onTrace start) (here : f.threads t = .publishing p)
    (cell : f.nodes p = some node) (same : f.head = node.next) :
    ({ f with head := some p, published := f.published ++ [(t, node.data)] }.goto t
      .working).Consistent onTrace start := by
  obtain ⟨cells, queue, handled, written, layout, order⟩ := h
  have held := layout.held t
  have out : (f.threads t).depth = 0 := by rw [here]; rfl
  rw [here] at held
  obtain ⟨x, next, mine, found, nothing⟩ := held
  cases cell.symm.trans found
  have stack : Function.update (Function.update cells (.thread t) []) .stack
      (cells (.thread t) ++ cells .stack) .stack = (p, x) :: cells .stack := by
    rw [Function.update_self, mine]
    rfl
  refine ⟨_, Function.update queue t [], handled, written,
    layout.step rfl rfl (layout.partition.give (by simp : Owner.thread t ≠ .stack)) ?_ ?_
      (fun _ _ _ _ => rfl) ?_ ?_, ?_, order.sublist, order.file, ?_⟩
  · have chain := layout.stack
    rw [same] at chain
    rw [stack]
    exact ⟨rfl, next, cell, chain⟩
  · intro u other
    rw [Function.update_of_ne (by simp), Function.update_of_ne (by simp [other])]
  · refine ⟨?_, rfl⟩
    rw [Function.update_of_ne (by simp), Function.update_self]
  · exact layout.mutex.keep out.symm
  · rw [stack]
    have settled : hand f.m (Function.update queue t []) = hand f.m queue :=
      hand_outside layout.mutex out
    simp only [goto, List.map_append, order.published, settled, Cells.contents_cons,
      List.reverse_cons, List.append_assoc, List.map_cons, List.map_nil]
  · intro writable
    rw [Function.update_of_ne (by simp), Function.update_of_ne (by simp)]
    exact order.complete fun e member => writable e (List.mem_append_left _ member)

theorem consistent_retry [DecidableEq ι] (h : f.Consistent onTrace start)
    (here : f.threads t = .publishing p)
    (cell : f.nodes p = some node) :
    (f.store p (some { node with next := f.head })).Consistent onTrace start := by
  obtain ⟨cells, queue, handled, written, layout, order⟩ := h
  have held := layout.held t
  rw [here] at held
  obtain ⟨x, next, mine, found, nothing⟩ := held
  cases cell.symm.trans found
  have owned : p ∈ (cells (.thread t)).addresses := by simp [mine]
  refine ⟨cells, Function.update queue t [], handled, written,
    layout.step (c := .publishing p) ?_ rfl (layout.partition.write (by simp [cell])) ?_
      (fun _ _ => rfl) ?_ ⟨x, f.head, mine, Function.update_self .., rfl⟩ ?_,
    order.keep rfl rfl rfl rfl ?_⟩
  · rw [← here, Function.update_eq_self]
    rfl
  · exact layout.stack.update (layout.partition.outside owned (by simp))
  · intro u other i member
    exact Function.update_of_ne
      (ne_of_mem_of_not_mem member (layout.partition.outside owned (by simp [other]))) _ _
  · exact layout.mutex.keep (by simp [here])
  · exact hand_outside layout.mutex (by rw [here]; rfl)

theorem consistent_take (h : f.Consistent onTrace start) (here : f.threads t = .loaded (some p))
    (same : f.head = some p) :
    ({ f with head := none }.goto t (.reversing none (some p))).Consistent onTrace start := by
  obtain ⟨cells, queue, handled, written, layout, order⟩ := h
  have held := layout.held t
  have inside : 0 < (f.threads t).depth := by rw [here]; exact Nat.one_pos
  have settled : hand f.m queue = queue t := hand_inside layout.mutex inside
  rw [here] at held
  obtain ⟨mine, nothing⟩ := held
  refine ⟨_, Function.update queue t (cells .stack).contents.reverse, handled, written,
    layout.step rfl rfl (layout.partition.give (by simp : Owner.stack ≠ .thread t)) ?_ ?_
      (fun _ _ _ _ => rfl) ?_ ?_, ?_, order.sublist, order.file, ?_⟩
  · rw [Function.update_of_ne (by simp), Function.update_self]
    rfl
  · intro u other
    rw [Function.update_of_ne (by simp [other]), Function.update_of_ne (by simp)]
  · refine ⟨[], cells .stack, ?_, rfl, same ▸ layout.stack, by simp⟩
    rw [Function.update_self, mine, List.append_nil]
    rfl
  · exact layout.mutex.keep (by simp [here, Control.depth])
  · have taken : hand f.m (Function.update queue t (cells .stack).contents.reverse) =
        (cells .stack).contents.reverse := hand_update_inside layout.mutex inside
    have left : Function.update (Function.update cells .stack []) (.thread t)
        (cells .stack ++ cells (.thread t)) .stack = [] := by
      rw [Function.update_of_ne (by simp), Function.update_self]
    simp only [goto, taken, left, order.published, settled, nothing, Cells.contents_nil,
      List.reverse_nil, List.append_nil]
  · rw [Function.update_of_ne (by simp), Function.update_of_ne (by simp)]
    exact order.complete

theorem consistent_turn [DecidableEq ι] (h : f.Consistent onTrace start)
    (here : f.threads t = .reversing prev (some p)) (cell : f.nodes p = some node) :
    ((f.store p (some { node with next := prev })).goto t
      (.reversing (some p) node.next)).Consistent onTrace start := by
  obtain ⟨cells, queue, handled, written, layout, order⟩ := h
  have held := layout.held t
  have distinct := layout.partition.distinct (.thread t)
  rw [here] at held
  obtain ⟨done, rest, mine, front, back, waiting⟩ := held
  obtain ⟨x, next, tail, rfl, found, back⟩ := back.of_pointer
  cases cell.symm.trans found
  have owned : p ∈ (cells (.thread t)).addresses := by simp [mine]
  have perm : ((p, x) :: done ++ tail).Perm (cells (.thread t)) := by
    rw [mine]
    exact List.perm_middle.symm
  rw [mine, Cells.addresses_append, Cells.addresses_cons, List.nodup_middle, List.nodup_cons,
    List.mem_append, not_or] at distinct
  refine ⟨Function.update cells (.thread t) ((p, x) :: done ++ tail),
    Function.update queue t (queue t), handled, written,
    layout.step rfl rfl ((layout.partition.reorder perm).write (by simp [cell])) ?_ ?_ ?_ ?_ ?_,
    order.keep rfl rfl ?_ ?_ ?_⟩
  · rw [Function.update_of_ne (by simp)]
    exact layout.stack.update (layout.partition.outside owned (by simp))
  · intro u other
    exact Function.update_of_ne (by simp [other]) _ _
  · intro u other i member
    exact Function.update_of_ne
      (ne_of_mem_of_not_mem member (layout.partition.outside owned (by simp [other]))) _ _
  · refine ⟨(p, x) :: done, tail, Function.update_self .., front.link distinct.1.1,
      back.update distinct.1.2, ?_⟩
    rw [waiting]
    simp
  · exact layout.mutex.keep (by simp [here, Control.depth])
  · exact Function.update_of_ne (by simp) _ _
  · exact Function.update_of_ne (by simp) _ _
  · rw [Function.update_eq_self]
    rfl

theorem consistent_write (h : f.Consistent onTrace start)
    (here : f.threads t = .writing (some p)) (cell : f.nodes p = some node)
    (traced : onTrace f.s node.data = .ok s) :
    ({ f with s := s }.goto t (.written p)).Consistent onTrace start := by
  obtain ⟨cells, queue, handled, written, layout, order⟩ := h
  have held := layout.held t
  have inside : 0 < (f.threads t).depth := by rw [here]; exact Nat.one_pos
  have settled : hand f.m queue = queue t := hand_inside layout.mutex inside
  rw [here] at held
  obtain ⟨chain, waiting⟩ := held
  obtain ⟨x, next, tail, mine, found, back⟩ := chain.of_pointer
  cases cell.symm.trans found
  rw [mine, Cells.contents_cons] at waiting
  refine ⟨cells, Function.update queue t tail.contents, handled ++ [x], written ++ [x],
    layout.step rfl rfl layout.partition layout.stack (fun _ _ => rfl) (fun _ _ _ _ => rfl)
      ⟨chain, by rw [mine]; rfl⟩ (layout.mutex.keep (by simp [here, Control.depth])), ?_,
    order.sublist.append (.refl _), ?_, ?_⟩
  · have left : hand f.m (Function.update queue t tail.contents) = tail.contents :=
      hand_update_inside layout.mutex inside
    simp only [goto, left, order.published, settled, waiting, List.append_assoc,
      List.cons_append, List.nil_append]
  · rw [List.foldl_append, ← order.file]
    simp only [goto, List.foldl_cons, List.foldl_nil, emit, traced]
  · intro writable
    obtain ⟨same, none⟩ := order.complete writable
    exact ⟨by rw [same], none⟩

theorem consistent_throw (h : f.Consistent onTrace start)
    (here : f.threads t = .writing (some p)) (cell : f.nodes p = some node)
    (thrown : onTrace f.s node.data = .error s) :
    ({ f with s := s, m := f.m.unlock }.goto t .idle).Consistent onTrace start := by
  obtain ⟨cells, queue, handled, written, layout, order⟩ := h
  have entry := order.of_writing layout here cell
  have held := layout.held t
  have once : (f.threads t).depth = 1 := by rw [here]; rfl
  have inside : 0 < (f.threads t).depth := by omega
  have settled : hand f.m queue = queue t := hand_inside layout.mutex inside
  have free : f.m.unlock = none := by
    rw [layout.mutex.owner t inside, once]
    rfl
  have released := layout.mutex.unlock inside
  rw [once] at released
  rw [here] at held
  obtain ⟨chain, waiting⟩ := held
  obtain ⟨x, next, tail, mine, found, -⟩ := chain.of_pointer
  cases cell.symm.trans found
  rw [mine, Cells.contents_cons] at waiting
  refine ⟨_, Function.update queue t [], handled ++ (x :: tail.contents), written ++ [x],
    layout.step rfl rfl (layout.partition.give (by simp : Owner.thread t ≠ .lost)) ?_ ?_
      (fun _ _ _ _ => rfl) ⟨?_, rfl⟩ released, ?_, ?_, ?_, ?_⟩
  · rw [Function.update_of_ne (by simp), Function.update_of_ne (by simp)]
    exact layout.stack
  · intro u other
    rw [Function.update_of_ne (by simp), Function.update_of_ne (by simp [other])]
  · rw [Function.update_of_ne (by simp), Function.update_self]
  · have left : Function.update (Function.update cells (.thread t) []) .lost
        (cells (.thread t) ++ cells .lost) .stack = cells .stack := by
      rw [Function.update_of_ne (by simp), Function.update_of_ne (by simp)]
    simp only [goto, free, left, hand_free, order.published, settled, waiting, List.append_nil]
  · exact order.sublist.append (List.singleton_sublist.mpr List.mem_cons_self)
  · rw [List.foldl_append, ← order.file]
    simp only [goto, List.foldl_cons, List.foldl_nil, emit, thrown]
  · intro writable
    obtain ⟨e, published, same⟩ := entry
    obtain ⟨s', fine⟩ := writable e published f.s
    rw [same] at fine
    cases thrown.symm.trans fine

theorem consistent_delete [DecidableEq ι] (h : f.Consistent onTrace start)
    (here : f.threads t = .written p)
    (cell : f.nodes p = some node) :
    ((f.store p none).goto t (.writing node.next)).Consistent onTrace start := by
  obtain ⟨cells, queue, handled, written, layout, order⟩ := h
  have held := layout.held t
  have distinct := layout.partition.distinct (.thread t)
  rw [here] at held
  obtain ⟨chain, waiting⟩ := held
  obtain ⟨x, next, tail, mine, found, back⟩ := chain.of_pointer
  cases cell.symm.trans found
  have owned : p ∈ (cells (.thread t)).addresses := by simp [mine]
  rw [mine, Cells.addresses_cons, List.nodup_cons] at distinct
  refine ⟨Function.update cells (.thread t) tail, Function.update queue t (queue t), handled,
    written, layout.step rfl rfl (layout.partition.free mine) ?_ ?_ ?_ ?_ ?_,
    order.keep rfl rfl ?_ ?_ ?_⟩
  · rw [Function.update_of_ne (by simp)]
    exact layout.stack.update (layout.partition.outside owned (by simp))
  · intro u other
    exact Function.update_of_ne (by simp [other]) _ _
  · intro u other i member
    exact Function.update_of_ne
      (ne_of_mem_of_not_mem member (layout.partition.outside owned (by simp [other]))) _ _
  · rw [Function.update_self]
    exact ⟨back.update distinct.1, by rw [waiting, mine]; rfl⟩
  · exact layout.mutex.keep (by simp [here, Control.depth])
  · exact Function.update_of_ne (by simp) _ _
  · exact Function.update_of_ne (by simp) _ _
  · rw [Function.update_eq_self]
    rfl

end Steps

end Thespian.Trace.TraceFile
